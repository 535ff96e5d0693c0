import TraitMock.Proofs.Generation.Emission
import TraitMock.Proofs.Generation.OwnImports

namespace TraitMock.Generation

open Files (Tree)
open Modules (ModuleItem Scope SeenAs Visible)
open Signature (SigType)

/-- When a mock is written, each method of each of its traits is the declaration of that method in the module of the
    trait: the types of its parameters and of its result have the shape of the declared ones, with paths that are
    visible in the generated file, and its other parts are those that are written. Paths are of names, and do not lead
    through an item that the module has from another one all of whose items it imports. -/
theorem names_of_signatures {files : Tree} {src dst : Package} {variadicSlices : Bool} {name mockName text : String}
    {settings : SharedSettings} {r r' : Resolver} {i : Interface}
    (h : Gives (Interface.ofTrait files src dst variadicSlices name) r i r')
    (hmock : mockSource i mockName settings = .ok text) :
    ∃ imports, text = header ++ "\n\n" ++ importBlock imports ++
        Code.text (MockNames.code ⟨mockName, (testerImport settings).name⟩ i settings.onHelpers) ∧
      ∃ w, ∀ t ∈ i.traits, ∃ k s d, IsListed files src dst variadicSlices w r' k t s d ∧
        List.Forall₂ (fun decl m => Method.MirrorsDecl (SeenAs s dst imports.toList) decl m ∧
            (withFreshNames m).params.map (·.type) = m.params.map (·.type))
          (d.members.filterMap Walking.declared?) t.methods := by
  obtain ⟨_, _, htext⟩ := mockSource_eq_ok_iff.mp hmock
  obtain ⟨w, _, rfl, hmeets⟩ := exists_walk h
  obtain ⟨order, traits, _, htraits, hlisted, _⟩ := hmeets.met
  obtain rfl : w.traits = traits := htraits
  refine ⟨_, htext, w, fun t ht => ?_⟩
  obtain ⟨k, hk⟩ := exists_left_of_mem hlisted ht
  obtain ⟨s, d, hl⟩ := hk.isListed hmeets.sound
  refine ⟨k, s, d, hl, hl.implements.methods.imp fun decl m hlowered => ⟨?_, types_withFreshNames m⟩⟩
  obtain ⟨before, after, hrun, hsub⟩ := hlowered
  have hall : Method.LoweredFrom s dst variadicSlices t.path
      ((ownImports settings).foldl ImportSet.insert w.imports).toList decl m :=
    ⟨before, after, hrun, fun x hx => mem_foldl_insert.mpr (.inl (hsub x hx))⟩
  exact hall.mirrors Modules.yields_visible_lowerPathText

section Vault

def vaultFile (name text : String) : Files.Place × Files.Entry :=
  (["vault", "src", name], .file (Text.encodeUtf8 text))

/-- A package with a trait of which the receiver has a type that is imported, and of which a method returns an array of
    a length that is declared beside it. -/
def vaultFiles : Tree :=
  ⟨[(["vault"], .directory), (["vault", "src"], .directory), vaultFile "lib.rs" "mod door;",
    vaultFile "door.rs" ("use std::rc::Rc; const SIZE: usize = 2; struct Key; " ++
      "trait Door \x7b fn open(self: Rc<Self>, key: Key) -> [u8; SIZE]; \x7d")]⟩

def vault (modulePath : List String) (file : String) : Package :=
  ⟨"vault", ⟨"/vault"⟩, ⟨"/vault/src/lib.rs"⟩, modulePath, ⟨file⟩⟩

def vaultRoot : Package := vault [] "/vault/src/lib.rs"

def vaultResolver : Resolver where
  cwd := ⟨"/vault"⟩
  known? := some [⟨"vault", "vault", .lib, ⟨"/vault"⟩, ⟨"/vault/src/lib.rs"⟩⟩]

/-- The trait, as it is mocked in the root of the package. -/
def vaultDoor : Resolving Interface :=
  Interface.ofTrait vaultFiles (vault ["door"] "/vault/src/door.rs") vaultRoot false "Door"

theorem exists_door : ∃ i r', Gives vaultDoor vaultResolver i r' ∧
    (i.imports, i.traits.length, i.methods.map Method.signature) =
      (⟨[⟨"crate::door", none⟩]⟩, 1, ["fn open(self: Rc<Self>, key: door::Key) -> [u8; SIZE]"]) :=
  exists_gives (by decide +kernel)

theorem mockSource_door {i : Interface} (himports : i.imports = ⟨[⟨"crate::door", none⟩]⟩) :
    mockSource i "MockDoor" {} = .ok (header ++ "\n\n" ++
      importBlock ((ownImports {}).foldl ImportSet.insert i.imports) ++
      Code.text (MockNames.code ⟨"MockDoor", "tester"⟩ i false)) := by
  refine mockSource_eq_ok_iff.mpr ⟨?_, ?_, rfl⟩
  · rw [himports]
    decide +kernel
  · rw [himports]
    decide +kernel

theorem names_of_door :
    ∃ i r' imports w t k s d, Gives vaultDoor vaultResolver i r' ∧ t ∈ i.traits ∧
      mockSource i "MockDoor" {} = .ok (header ++ "\n\n" ++ importBlock imports ++
        Code.text (MockNames.code ⟨"MockDoor", "tester"⟩ i false)) ∧
      IsListed vaultFiles (vault ["door"] "/vault/src/door.rs") vaultRoot false w r' k t s d ∧
      List.Forall₂ (fun decl m => Method.MirrorsDecl (SeenAs s vaultRoot imports.toList) decl m ∧
          (withFreshNames m).params.map (·.type) = m.params.map (·.type))
        (d.members.filterMap Walking.declared?) t.methods := by
  obtain ⟨i, r', hgives, hdoor⟩ := exists_door
  obtain ⟨himports, htraits⟩ := Prod.mk.inj hdoor
  have hmock := mockSource_door himports
  obtain ⟨imports, htext, w, hsignatures⟩ := names_of_signatures hgives hmock
  obtain ⟨t, ht⟩ := List.exists_mem_of_length_pos (Nat.lt_of_lt_of_eq Nat.zero_lt_one (Prod.mk.inj htraits).1.symm)
  obtain ⟨k, s, d, hlisted, hmirrors⟩ := hsignatures t ht
  exact ⟨i, r', imports, w, t, k, s, d, hgives, ht, htext ▸ hmock, hlisted, hmirrors⟩

/-- The type of the receiver and the length of the array are copied into the signature, and no import of the mock binds
    their names, which are visible nowhere else either. -/
theorem copied_names_of_door :
    ∃ i r' imports, Gives vaultDoor vaultResolver i r' ∧
      mockSource i "MockDoor" {} = .ok (header ++ "\n\n" ++ importBlock imports ++
        Code.text (MockNames.code ⟨"MockDoor", "tester"⟩ i false)) ∧
      i.methods.map Method.signature = ["fn open(self: Rc<Self>, key: door::Key) -> [u8; SIZE]"] ∧
      (∀ name ∈ ["Rc", "SIZE"], ∀ x ∈ imports.toList, x.name ≠ name) ∧
      ∀ s : Scope, s.package.sameCrate vaultRoot = true → ∀ name ∈ ["Rc", "SIZE"],
        ¬Visible s vaultRoot imports.toList name := by
  obtain ⟨i, r', hgives, hdoor⟩ := exists_door
  obtain ⟨himports, htraits⟩ := Prod.mk.inj hdoor
  have hnames : ∀ name ∈ ["Rc", "SIZE"],
      ∀ x ∈ ((ownImports {}).foldl ImportSet.insert i.imports).toList, x.name ≠ name := by
    rw [himports]
    decide +kernel
  refine ⟨i, r', _, hgives, mockSource_door himports, (Prod.mk.inj htraits).2, hnames, fun s hsame name hname => ?_⟩
  have hplain : name ≠ "Self" ∧ Modules.isPrelude name = false ∧ name ≠ "crate" ∧ Text.IsName name := by
    revert name
    decide
  obtain ⟨hself, hprelude, hcrate, hisName⟩ := hplain
  have hsegs := Text.segments_of_isName hisName
  intro hvisible
  cases hvisible with
  | self => exact hself rfl
  | prelude h => rw [hprelude] at h; cases h
  | ownCrate h => exact hcrate (List.cons.inj (hsegs.symm.trans h)).1
  | otherCrate hother _ => rw [hsame] at hother; cases hother
  | imported hi h => exact hnames name hname _ hi (List.cons.inj (hsegs.symm.trans h)).1.symm
  | foreign h hrest => exact hrest (List.cons.inj (hsegs.symm.trans h)).2.symm

end Vault

end TraitMock.Generation

import Mathlib.Data.Set.Function
import TraitMock.Proofs.Value.Laws
import TraitMock.Value.Basic

namespace TraitMock

/-- Types among which a name belongs to one type only, all of them lawful. -/
structure LawfulTypes (types : Set DataType) : Prop where
  one_name : Set.InjOn DataType.name types
  lawful : ∀ t ∈ types, t.Lawful

namespace Datum

variable {a b c : Datum}

private theorem sameAddress_comm (a b : Datum) : a.sameAddress b = b.sameAddress a := by
  unfold sameAddress
  cases a.content.address? <;> cases b.content.address? <;> simp [Bool.beq_comm]

private theorem sameAddress_trans (h : a.sameAddress b = true) (h' : b.sameAddress c = true) : a.sameAddress c = true := by
  unfold sameAddress at *
  cases ha : a.content.address? <;> cases hb : b.content.address? <;> cases hc : c.content.address? <;>
    simp_all

private theorem typeEqual_comm (htype : a.type = b.type) (hlawful : a.type.Lawful) : a.typeEqual b = b.typeEqual a := by
  unfold typeEqual
  rw [← htype]
  cases hequal : a.type.equal? with
  | none => rfl
  | some eq => exact (hlawful eq hequal).comm a.content b.content

private theorem typeEqual_trans (htype : a.type = b.type) (hlawful : a.type.Lawful) (h : a.typeEqual b = true)
    (h' : b.typeEqual c = true) : a.typeEqual c = true := by
  unfold typeEqual at *
  rw [← htype] at h'
  cases hequal : a.type.equal? with
  | none => simp [hequal] at h
  | some eq =>
    rw [hequal] at h h'
    exact (hlawful eq hequal).trans h h'

/-- Which comparison decides is the same from both sides. -/
theorem deepEqual_comm (hname : a.type.name = b.type.name → a.type = b.type) (hlawful : a.type.Lawful) :
    a.deepEqual b = b.deepEqual a := by
  unfold deepEqual
  by_cases hsame : a.type.name = b.type.name
  · -- which comparison applies is a disjunction over the two sides, and each comparison is symmetric
    rw [if_neg (not_not.mpr hsame), if_neg (not_not.mpr hsame.symm)]
    exact if_congr or_comm (sameAddress_comm a b)
      (if_congr or_comm (typeEqual_comm (hname hsame) hlawful) BEq.comm)
  · rw [if_pos hsame, if_pos (Ne.symm hsame)]

/-- The comparison of data that were both recorded in one way, if their types have one name. -/
def comparedAs : Recording → Datum → Datum → Bool
  | .plain, a, b => a.written.spread == b.written.spread
  | .comparable, a, b => a.typeEqual b
  | .shared, a, b => a.sameAddress b

theorem deepEqual_of_recording {k : Recording} (ha : a.recording = k) (hb : b.recording = k) :
    a.deepEqual b = true ↔ a.type.name = b.type.name ∧ comparedAs k a b = true := by
  by_cases hsame : a.type.name = b.type.name
  · cases k <;> simp [deepEqual, comparedAs, ha, hb, hsame]
  · simp [deepEqual, hsame]

private theorem deepEqual_trans {k : Recording} (ha : a.recording = k) (hb : b.recording = k) (hc : c.recording = k)
    (hname : a.type.name = b.type.name → a.type = b.type) (hlawful : a.type.Lawful)
    (h : a.deepEqual b = true) (h' : b.deepEqual c = true) : a.deepEqual c = true := by
  obtain ⟨hsame, hcompared⟩ := (deepEqual_of_recording ha hb).mp h
  obtain ⟨hsame', hcompared'⟩ := (deepEqual_of_recording hb hc).mp h'
  refine (deepEqual_of_recording ha hc).mpr ⟨hsame.trans hsame', ?_⟩
  cases k with
  | plain => exact beq_iff_eq.mpr ((beq_iff_eq.mp hcompared).trans (beq_iff_eq.mp hcompared'))
  | comparable => exact typeEqual_trans (hname hsame) hlawful hcompared hcompared'
  | shared => exact sameAddress_trans hcompared hcompared'

end Datum

namespace Value

/-- The value is no data, or data of one of the types. -/
def IsOver (types : Set DataType) : Value → Prop
  | .data d => d.type ∈ types
  | _ => True

/-- The value is data that was recorded in the given way. -/
def RecordedAs (k : Recording) : Value → Prop
  | .data d => d.recording = k
  | _ => False

/-- Whichever two values are compared, and in whichever ways they were recorded, both orders give one answer; and of
    three data recorded in one way the first equals the third if both equal the second. Of the equalities of
    types it is assumed that they are symmetric and transitive, but not that they are reflexive. -/
theorem deepEqual_comm_and_trans {types : Set DataType} (htypes : LawfulTypes types) {u v w : Value}
    (hu : u.IsOver types) (hv : v.IsOver types) (hw : w.IsOver types) :
    u.deepEqual v = v.deepEqual u ∧
    ∀ k, u.RecordedAs k → v.RecordedAs k → w.RecordedAs k →
      u.deepEqual v = true → v.deepEqual w = true → u.deepEqual w = true := by
  constructor
  · cases u <;> cases v <;> try rfl
    case matcher.matcher => exact BEq.comm
    case producer.producer => exact BEq.comm
    case data.data => exact Datum.deepEqual_comm (htypes.one_name hu hv) (htypes.lawful _ hu)
  · intro k hk hk' hk'' h h'
    cases u with
    | data a =>
      cases v with
      | data b =>
        cases w with
        | data c => exact Datum.deepEqual_trans hk hk' hk'' (htypes.one_name hu hv) (htypes.lawful _ hu) h h'
        | _ => exact hk''.elim
      | _ => exact hk'.elim
    | _ => exact hk.elim

/-- A text that several owners share, recorded in one of three ways. -/
def sharedText (address : String) (k : Recording) : Value :=
  .data ⟨.shared .text, .shared address (.text "key"), k⟩

/-- A list of numbers some of which are missing. -/
def gappedNumbers (k : Recording) : Value :=
  .data ⟨.vec (.option (.int "i32")), .parts [.choice "Some" [.int 1], .choice "None" []], k⟩

/-- What is in stock: the place, who checked it, how much there is, and the days on which more arrives. -/
def stockType : DataType :=
  .record "shop::Stock" [("place", .tuple [.text, .int "u32"]), ("checked", .result (.box .text) .text),
    ("amounts", .hashMap .text (.array (.int "u32") 2)), ("days", .hashSet (.int "u32"))] true true true

private theorem lawful_stockType : stockType.Lawful := by
  have htext : DataType.text.Lawful := DataType.lawful_of_plainEqual rfl
  have hint : (DataType.int "u32").Lawful := DataType.lawful_of_plainEqual rfl
  have hplace : (DataType.tuple [.text, .int "u32"]).Lawful := DataType.lawful_tuple (by simp [htext, hint])
  have hchecked : (DataType.result (.box .text) .text).Lawful := htext.box.result htext
  have hamounts : (DataType.hashMap .text (.array (.int "u32") 2)).Lawful := htext.map _ (hint.array 2)
  have hdays : (DataType.hashSet (.int "u32")).Lawful := hint.hashSet
  exact DataType.lawful_record (by simp [hplace, hchecked, hamounts, hdays])

/-- The bolts, of which there are three large ones and four small ones. -/
def stockOfBolts (k : Recording) : Value :=
  .data ⟨stockType, .parts [.parts [.text "A", .int 7], .choice "Ok" [.text "yes"],
    .parts [.parts [.text "bolt", .parts [.int 3, .int 4]]], .parts [.int 12]], k⟩

/-- A shared text and the same text recorded plainly are compared by their addresses from both sides, and what was
    recorded plainly is compared by what is written. -/
theorem deepEqual_of_sharedTexts :
    ((sharedText "0x1" .shared).deepEqual (sharedText "0x2" .plain) = false ∧
      (sharedText "0x2" .plain).deepEqual (sharedText "0x1" .shared) = false) ∧
    (gappedNumbers .comparable).deepEqual (gappedNumbers .plain) =
      (gappedNumbers .plain).deepEqual (gappedNumbers .comparable) ∧
    (sharedText "0x1" .plain).deepEqual (sharedText "0x3" .plain) = true ∧
    (stockOfBolts .comparable).deepEqual (stockOfBolts .plain) =
      (stockOfBolts .plain).deepEqual (stockOfBolts .comparable) := by
  have htypes : LawfulTypes {.shared .text, .vec (.option (.int "i32")), stockType} := {
    one_name := by
      rintro s (rfl | rfl | rfl) t (rfl | rfl | rfl) hname
      all_goals first | rfl | exact absurd hname (by decide)
    lawful := by
      rintro t (rfl | rfl | rfl)
      · exact (DataType.lawful_of_plainEqual rfl).shared
      · exact (DataType.lawful_of_plainEqual rfl).option.vec
      · exact lawful_stockType }
  have hshared : ∀ address k, (sharedText address k).IsOver {.shared .text, .vec (.option (.int "i32")), stockType} :=
    fun _ _ => .inl rfl
  have hgapped : ∀ k, (gappedNumbers k).IsOver {.shared .text, .vec (.option (.int "i32")), stockType} :=
    fun _ => .inr (.inl rfl)
  have hstock : ∀ k, (stockOfBolts k).IsOver {.shared .text, .vec (.option (.int "i32")), stockType} :=
    fun _ => .inr (.inr rfl)
  have hmixed : (sharedText "0x1" .shared).deepEqual (sharedText "0x2" .plain) = false := by decide
  obtain ⟨hcomm, -⟩ := deepEqual_comm_and_trans htypes (hshared "0x1" .shared) (hshared "0x2" .plain)
    (hshared "0x3" .plain)
  obtain ⟨hcomm', -⟩ := deepEqual_comm_and_trans htypes (hgapped .comparable) (hgapped .plain) (hgapped .shared)
  obtain ⟨-, htrans⟩ := deepEqual_comm_and_trans htypes (hshared "0x1" .plain) (hshared "0x2" .plain)
    (hshared "0x3" .plain)
  obtain ⟨hstocked, -⟩ := deepEqual_comm_and_trans htypes (hstock .comparable) (hstock .plain) (hstock .shared)
  exact ⟨⟨hmixed, hcomm ▸ hmixed⟩, hcomm', htrans .plain rfl rfl rfl (by decide) (by decide), hstocked⟩

/-- Across the ways of recording equality does not go through a third value. -/
example :
    let key (address : String) (k : Recording) : Value := .data ⟨.shared .text, .shared address (.text "key"), k⟩
    (key "0x1" .shared).deepEqual (key "0x1" .plain) = true ∧
    (key "0x1" .plain).deepEqual (key "0x2" .plain) = true ∧
    (key "0x1" .shared).deepEqual (key "0x2" .plain) = false := by
  decide

end Value
end TraitMock

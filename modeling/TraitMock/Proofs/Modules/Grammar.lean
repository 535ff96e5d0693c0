import TraitMock.Proofs.Modules.Placement
import TraitMock.Proofs.Text.Segments
import TraitMock.Proofs.Text.Trimming

namespace TraitMock.Modules

open Text (IsName joinPath segments trim)

/-- A name: a letter or an underscore, then letters, numbers and underscores, and more than a lone underscore. -/
def IsPlainIdentifier (cs : List Char) : Prop :=
  ∃ c rest, cs = c :: rest ∧ (c = '_' ∨ Text.isLetter c = true) ∧
    (∀ d ∈ rest, d = '_' ∨ Text.isLetterOrNumber d = true) ∧ cs ≠ ['_']

/-- A name, with or without the mark of raw names in front. -/
def IsPathName (name : String) : Prop :=
  IsPlainIdentifier name.toList ∨ ∃ body, IsPlainIdentifier body ∧ name.toList = 'r' :: '#' :: body

/-- The names that can make up a module path. -/
structure ArePathNames (names : List String) : Prop where
  ne_nil : names ≠ []
  isPathName : ∀ name ∈ names, IsPathName name
  first : ∀ name ∈ names.head?, name ≠ "self" ∧ name ≠ "super"
  later : ∀ name ∈ names.tail, name ≠ "crate" ∧ name ≠ "self" ∧ name ≠ "super"

/-- How a module path is written: its names between double colons, each with white space around it or without, and
    perhaps double colons in front of all. -/
structure IsWrittenPath (spec : String) (names : List String) : Prop where
  written : ∃ parts, parts.map trim = names ∧ (spec = joinPath parts ∨ spec = "::" ++ joinPath parts)
  names : ArePathNames names

section Names

variable {name : String} {names : List String}

private theorem not_isPlainIdentifier_raw (body : List Char) : ¬IsPlainIdentifier ('r' :: '#' :: body) := by
  rintro ⟨c, rest, heq, -, hrest, -⟩
  obtain ⟨rfl, rfl⟩ := List.cons.inj heq
  exact absurd (hrest '#' List.mem_cons_self) (by decide)

private theorem isIdentifier_iff_body (cs : List Char) :
    isIdentifier cs = true ↔ IsPlainIdentifier ((['r', '#'].isPrefixOf? cs).getD cs) := by
  unfold isIdentifier
  dsimp only
  rcases (['r', '#'].isPrefixOf? cs).getD cs with _ | ⟨c, rest⟩
  · refine ⟨fun h => (by cases h), ?_⟩
    rintro ⟨c, rest, heq, -⟩
    cases heq
  · simp only [Bool.and_eq_true, Bool.or_eq_true, decide_eq_true_eq, List.all_eq_true]
    constructor
    · rintro ⟨⟨hc, hlone⟩, hrest⟩
      exact ⟨c, rest, rfl, hc, hrest, hlone⟩
    · rintro ⟨c', rest', heq, hc, hrest, hlone⟩
      obtain ⟨rfl, rfl⟩ := List.cons.inj heq
      exact ⟨⟨hc, hlone⟩, hrest⟩

theorem isIdentifier_iff : isIdentifier name.toList = true ↔ IsPathName name := by
  rw [isIdentifier_iff_body, IsPathName]
  rcases hmark : ['r', '#'].isPrefixOf? name.toList with _ | body
  · rw [Option.getD_none]
    refine ⟨.inl, ?_⟩
    rintro (hplain | ⟨body, -, hraw⟩)
    · exact hplain
    · rw [hraw] at hmark
      cases hmark
  · rw [Option.getD_some]
    have hraw : name.toList = 'r' :: '#' :: body := (List.isPrefixOf?_eq_some_iff_append_eq.mp hmark).symm
    refine ⟨fun hbody => .inr ⟨body, hbody, hraw⟩, ?_⟩
    rintro (hplain | ⟨body', hbody, hraw'⟩)
    · exact absurd (hraw ▸ hplain) (not_isPlainIdentifier_raw body)
    · rw [hraw] at hraw'
      cases hraw'
      exact hbody

private theorem areSegments_iff : areSegments names = true ↔ ArePathNames names := by
  cases names with
  | nil => exact ⟨fun h => (by cases h), fun h => absurd rfl h.ne_nil⟩
  | cons first rest =>
    have hrelative : ∀ s, relativeNames.contains s = false ↔ s ≠ "crate" ∧ s ≠ "self" ∧ s ≠ "super" := by
      intro s
      simp [relativeNames]
    simp only [areSegments, Bool.and_eq_true, decide_eq_true_eq, List.all_eq_true, isIdentifier_iff, Bool.not_eq_true',
      hrelative]
    constructor
    · rintro ⟨⟨⟨hfirst, hself⟩, hsuper⟩, hrest⟩
      refine ⟨List.cons_ne_nil first rest, List.forall_mem_cons.mpr ⟨hfirst, fun s hs => (hrest s hs).1⟩, ?_,
        fun s hs => (hrest s hs).2⟩
      rintro _ ⟨⟩
      exact ⟨hself, hsuper⟩
    · intro h
      obtain ⟨hfirst, hrest⟩ := List.forall_mem_cons.mp h.isPathName
      obtain ⟨hself, hsuper⟩ := h.first first rfl
      exact ⟨⟨⟨hfirst, hself⟩, hsuper⟩, fun s hs => ⟨hrest s hs, h.later s hs⟩⟩

/-- There is no colon in a name. -/
theorem IsPathName.isName (h : IsPathName name) : IsName name := by
  intro hcolon
  obtain ⟨-, hchars⟩ := chars_of_isIdentifier (isIdentifier_iff.mpr h)
  exact absurd (hchars ':' hcolon) (by decide)

/-- So there is none in what is written for it. -/
theorem isName_of_trim {part : String} (h : IsName (trim part)) : IsName part := by
  intro hcolon
  have hblank : Text.isBlank ':' = false := by decide
  have hmem := Text.mem_trimChars hcolon hblank
  rw [trim, IsName, String.toList_ofList] at h
  exact h hmem

end Names

section Paths

variable {spec : String} {names parts : List String}

/-- The double colons in front of a path are no part of it. -/
def pathBody (spec : String) : String := (Text.afterStart? spec "::").getD spec

theorem parseSpec_eq_ok_iff :
    parseSpec spec = .ok names ↔ (segments (pathBody spec)).map trim = names ∧ ArePathNames names := by
  rw [← areSegments_iff, pathBody]
  unfold parseSpec
  dsimp only
  split
  · rename_i hsegments
    constructor
    · intro h
      obtain rfl := Except.ok.inj h
      exact ⟨rfl, hsegments⟩
    · rintro ⟨rfl, -⟩
      rfl
  · rename_i hsegments
    refine ⟨fun h => (by cases h), ?_⟩
    rintro ⟨rfl, h⟩
    exact absurd h hsegments

private theorem parseSpec_eq_error_iff :
    parseSpec spec = .error (.invalidSpec spec) ↔ ¬∃ names, parseSpec spec = .ok names := by
  unfold parseSpec
  dsimp only
  split <;> simp

private theorem pathBody_colons (path : String) : pathBody ("::" ++ path) = path := by
  have hcolons : [':', ':'].isPrefixOf? ("::" ++ path).toList = some path.toList :=
    List.isPrefixOf?_eq_some_iff_append_eq.mpr (by rw [String.toList_append]; rfl)
  rw [pathBody, Text.afterStart?]
  change ((([':', ':'].isPrefixOf? ("::" ++ path).toList).map String.ofList).getD _) = path
  rw [hcolons, Option.map_some, Option.getD_some, String.ofList_toList]

theorem eq_pathBody_or (spec : String) : spec = pathBody spec ∨ spec = "::" ++ pathBody spec := by
  rw [pathBody, Text.afterStart?]
  rcases hcolons : "::".toList.isPrefixOf? spec.toList with _ | body
  · exact .inl rfl
  · right
    rw [Option.map_some, Option.getD_some]
    apply String.toList_injective
    rw [← List.isPrefixOf?_eq_some_iff_append_eq.mp hcolons, String.toList_append]
    simp only [String.toList_ofList]

private theorem pathBody_joinPath {first : String} {rest : List String} (hparts : ∀ part ∈ first :: rest, IsName part)
    (hne : first ≠ "") : pathBody (joinPath (first :: rest)) = joinPath (first :: rest) := by
  rcases eq_pathBody_or (joinPath (first :: rest)) with h | h
  · exact h.symm
  -- behind double colons the first part would be empty
  · have hsegments := Text.segments_joinPath (List.cons_ne_nil first rest) hparts
    have hempty : ∀ path : String, segments ("::" ++ path) = "" :: segments path := fun path => by
      rw [← Text.segments_append (by decide) path, String.empty_append]
    rw [h, hempty] at hsegments
    exact absurd (List.cons.inj hsegments).1.symm hne

private theorem trim_trim (s : String) : trim (trim s) = trim s := by
  obtain ⟨front, back, hfront, hback, hs⟩ := Text.exists_trimChars s.toList
  rw [trim, trim, String.toList_ofList]
  conv_rhs => rw [hs, Text.trimChars_back hback, Text.trimChars_front hfront]

/-- What is written for the names of a path has no colons, and there is something written for the first of them. -/
theorem ArePathNames.written (h : ArePathNames (parts.map trim)) :
    ∃ first rest, parts = first :: rest ∧ first ≠ "" ∧ ∀ part ∈ parts, IsName part := by
  have hnames : ∀ part ∈ parts, IsName part :=
    fun part hpart => isName_of_trim (h.isPathName _ (List.mem_map_of_mem hpart)).isName
  cases parts with
  | nil => exact absurd rfl h.ne_nil
  | cons first rest =>
    refine ⟨first, rest, rfl, ?_, hnames⟩
    rintro rfl
    obtain ⟨hne, -⟩ := chars_of_isIdentifier (isIdentifier_iff.mpr (h.isPathName _ List.mem_cons_self))
    exact hne rfl

private theorem isWrittenPath_iff :
    IsWrittenPath spec names ↔ (segments (pathBody spec)).map trim = names ∧ ArePathNames names := by
  constructor
  · rintro ⟨⟨parts, rfl, hspec⟩, hnames⟩
    obtain ⟨first, rest, rfl, hne, hparts⟩ := hnames.written
    refine ⟨?_, hnames⟩
    have hbody : pathBody spec = joinPath (first :: rest) := by
      rcases hspec with rfl | rfl
      · exact pathBody_joinPath hparts hne
      · exact pathBody_colons _
    rw [hbody, Text.segments_joinPath (List.cons_ne_nil first rest) hparts]
  · rintro ⟨rfl, hnames⟩
    refine ⟨⟨segments (pathBody spec), rfl, ?_⟩, hnames⟩
    rw [Text.joinPath_segments]
    exact eq_pathBody_or spec

end Paths

/-- A text is a module path exactly if the grammar says so, and then its names are read in their order; every other text
    is refused. The names, joined with or without double colons in front, are the same module path. -/
theorem parseSpec_reads_grammar (spec : String) :
    (∀ names, parseSpec spec = .ok names ↔ IsWrittenPath spec names) ∧
    (parseSpec spec = .error (.invalidSpec spec) ↔ ¬∃ names, IsWrittenPath spec names) ∧
    ∀ names, parseSpec spec = .ok names →
      parseSpec (joinPath names) = .ok names ∧ parseSpec ("::" ++ joinPath names) = .ok names := by
  have hreads : ∀ spec names, parseSpec spec = .ok names ↔ IsWrittenPath spec names :=
    fun _ _ => parseSpec_eq_ok_iff.trans isWrittenPath_iff.symm
  refine ⟨hreads spec, ?_, ?_⟩
  · simp only [parseSpec_eq_error_iff, hreads]
  · intro names h
    obtain ⟨hread, hnames⟩ := parseSpec_eq_ok_iff.mp h
    have htrim : names.map trim = names := by
      rw [← hread, List.map_map]
      exact List.map_congr_left fun part _ => trim_trim part
    exact ⟨(hreads _ _).mpr ⟨⟨names, htrim, .inl rfl⟩, hnames⟩, (hreads _ _).mpr ⟨⟨names, htrim, .inr rfl⟩, hnames⟩⟩

/-- White space and a raw name. -/
theorem parseSpec_of_spaced :
    parseSpec "::shop :: r#type" = .ok ["shop", "r#type"] ∧
    parseSpec "shop::r#type" = .ok ["shop", "r#type"] ∧ parseSpec "::shop::r#type" = .ok ["shop", "r#type"] := by
  have hread : parseSpec "::shop :: r#type" = .ok ["shop", "r#type"] := by decide
  exact ⟨hread, (parseSpec_reads_grammar "::shop :: r#type").2.2 ["shop", "r#type"] hread⟩

end TraitMock.Modules

import TraitMock.Proofs.Syntax.Running
import TraitMock.Proofs.Text.Blanks
import TraitMock.Proofs.Text.Segments
import TraitMock.Syntax.Item

namespace TraitMock.Syntax

/-- The path of an import: its segments, perhaps behind double colons. -/
structure ImportPath where
  isGlobal : Bool
  segments : List String

/-- A tree of imports as it is written. -/
inductive ImportExpr where
  /-- A path to one item, perhaps with a new name for it. -/
  | item (front : ImportPath) (last : String) (newName : Option String)
  /-- The module behind whose path the tree stands. -/
  | itself (newName : Option String)
  | glob (path : ImportPath)
  | group (path : ImportPath) (trees : List ImportExpr)

/-- A path in front of something else. -/
def ImportPath.leading (p : ImportPath) : List Shape :=
  (if p.isGlobal then [.mark "::"] else []) ++ p.segments.flatMap fun s => [.word s, .mark "::"]

def renamingShapes : Option String → List Shape
  | none => []
  | some a => [.word "as", .word a]

/-- Only blanks stand between some tokens, and no comment. -/
def Unbroken (ts : List Token) : Prop := ∀ t ∈ ts.tail, ∀ c ∈ t.gap.toList, isSpace c = true

section Written

mutual

/-- The tokens are those of a tree, with no comments inside its paths. -/
def ImportExpr.Written : ImportExpr → List Token → Prop
  | .item front last newName, ts => ∃ path more, ts = path ++ more ∧ Fit path (front.leading ++ [.word last]) ∧
    Unbroken path ∧ Fit more (renamingShapes newName)
  | .itself newName, ts => Fit ts (.word "self" :: renamingShapes newName)
  | .glob p, ts => Fit ts (p.leading ++ [.mark "*"]) ∧ Unbroken ts
  | .group p trees, ts => ∃ path opening inner closing, ts = path ++ (opening ++ (inner ++ closing)) ∧
    Fit path p.leading ∧ Unbroken path.dropLast ∧ Fit opening [.mark "\x7b"] ∧ ListWritten trees inner ∧
    (Fit closing [.mark "\x7d"] ∨ trees ≠ [] ∧ Fit closing [.mark ",", .mark "\x7d"])

/-- The tokens are those of some trees, with commas between them. -/
def ListWritten : List ImportExpr → List Token → Prop
  | [], ts => ts = []
  | t :: rest, ts => ∃ front back, ts = front ++ back ∧ t.Written front ∧ MoreWritten rest back

/-- The tokens are those of some trees, each behind a comma. -/
def MoreWritten : List ImportExpr → List Token → Prop
  | [], ts => ts = []
  | t :: rest, ts => ∃ comma front back, ts = comma ++ (front ++ back) ∧ Fit comma [.mark ","] ∧ t.Written front ∧
    MoreWritten rest back

end

mutual

/-- A tree that may stand behind a path: all that it names are names, and `self` is the module of the path. -/
def ImportExpr.IsValid (front : List String) : ImportExpr → Prop
  | .item p last newName => (∀ s ∈ p.segments ++ [last], IsWord s) ∧ last ≠ "self" ∧ ∀ a ∈ newName, IsWord a
  | .itself newName => front ≠ [] ∧ ∀ a ∈ newName, IsWord a
  | .glob p => ∀ s ∈ p.segments, IsWord s
  | .group p trees => (∀ s ∈ p.segments, IsWord s) ∧ AllValid (front ++ p.segments) trees

def AllValid (front : List String) : List ImportExpr → Prop
  | [] => True
  | t :: rest => t.IsValid front ∧ AllValid front rest

end

mutual

/-- What is read of a tree. -/
def ImportExpr.tree : ImportExpr → UseTree
  | .item front last none => .path (Text.joinPath (front.segments ++ [last]))
  | .item front last (some a) => .renamed (Text.joinPath (front.segments ++ [last])) a
  | .itself none => .itself
  | .itself (some a) => .renamed "self" a
  | .glob p => .glob (Text.joinPath p.segments)
  | .group p trees => .group (Text.joinPath p.segments) (treesOf trees)

def treesOf : List ImportExpr → List UseTree
  | [] => []
  | t :: rest => t.tree :: treesOf rest

end

end Written

section Texts

variable {s : String}

theorem IsWord.ne_empty (h : IsWord s) : s ≠ "" := by
  rintro rfl
  rcases h with ⟨⟨c, hc, _⟩, _⟩ | ⟨w, hw, _⟩
  · cases hc
  · cases hw

theorem IsWord.isName (h : IsWord s) : Text.IsName s := by
  intro hcolon
  have hnot : Text.isNameContinue ':' = false := by decide
  have hplain : ∀ w, IsPlain w → ':' ∉ w := fun w hw hmem => by
    rw [hw.2 ':' hmem] at hnot
    cases hnot
  rcases h with hw | ⟨w, hw, hword⟩
  · exact hplain _ hw hcolon
  · rw [hw] at hcolon
    exact hplain w hword (by simpa using hcolon)

theorem IsWord.not_blank (h : IsWord s) : ∀ c ∈ s.toList, Text.isBlank c = false := by
  have hplain : ∀ w, IsPlain w → ∀ c ∈ w, Text.isBlank c = false := fun w hw c hc =>
    Text.isBlank_of_isNameContinue (hw.2 c hc)
  rcases h with hw | ⟨w, hw, hword⟩
  · exact hplain _ hw
  · intro c hc
    rw [hw] at hc
    rcases List.mem_cons.mp hc with rfl | hc
    · decide
    · rcases List.mem_cons.mp hc with rfl | hc
      · decide
      · exact hplain w hword c hc

theorem not_blank_of_all (h : (s.toList.all fun c => !Text.isBlank c) = true) :
    ∀ c ∈ s.toList, Text.isBlank c = false := by
  simpa using h

/-- Without white space, tokens that only blanks separate are their texts. -/
theorem compact_squashed {ts : List Token} (hgaps : Unbroken ts)
    (htexts : ∀ t ∈ ts, ∀ c ∈ t.text.toList, Text.isBlank c = false) :
    Text.compact (squashed ts) = String.join (ts.map (·.text)) := by
  have hfold : ∀ (us : List Token) (s : String), (∀ u ∈ us, ∀ c ∈ u.gap.toList, isSpace c = true) →
      (∀ u ∈ us, ∀ c ∈ u.text.toList, Text.isBlank c = false) →
      Text.compact (us.foldl (fun s u => s ++ u.gap ++ u.text) s) =
        Text.compact s ++ String.join (us.map (·.text)) := by
    intro us
    induction us with
    | nil => simp
    | cons u us ih =>
      intro s hgaps htexts
      obtain ⟨hgap, hgaps⟩ := List.forall_mem_cons.mp hgaps
      obtain ⟨htext, htexts⟩ := List.forall_mem_cons.mp htexts
      have hblanks : Text.compact u.gap = "" := Text.compact_of_blanks fun c hc => Text.isBlank_of_isSpace (hgap c hc)
      rw [List.foldl_cons, ih _ hgaps htexts, Text.compact_append, Text.compact_append, hblanks,
        Text.compact_eq_self htext, List.map_cons, String.join_cons, String.append_empty, String.append_assoc]
  rw [squashed, Text.compact_squash]
  cases ts with
  | nil => rfl
  | cons t rest =>
    obtain ⟨htext, htexts⟩ := List.forall_mem_cons.mp htexts
    rw [verbatim, hfold rest t.text hgaps htexts, Text.compact_eq_self htext, List.map_cons, String.join_cons]

theorem Fit.map_text {ts : List Token} {ss : List Shape} (h : Fit ts ss) : ts.map (·.text) = ss.map (·.text) := by
  induction h with
  | nil => rfl
  | cons hfirst _ ih => rw [List.map_cons, List.map_cons, ih, hfirst.2.1]

end Texts

section Paths

/-- The double colons in front of a path that has them. -/
def ImportPath.colons (p : ImportPath) : String := if p.isGlobal then "::" else ""

variable {front p : ImportPath} {last : String} {path rest : List Token}

theorem join_leading (p : ImportPath) (last : String) :
    String.join ((p.leading.map (·.text)) ++ [last]) = p.colons ++ Text.joinPath (p.segments ++ [last]) := by
  have hsegments : ∀ segs : List String,
      String.join (((segs.flatMap fun s => [Shape.word s, .mark "::"]).map (·.text)) ++ [last]) =
        Text.joinPath (segs ++ [last]) := by
    intro segs
    induction segs with
    | nil => simp [Text.joinPath]
    | cons s segs ih =>
      rw [List.cons_append, Text.joinPath_cons (by simp), ← ih]
      simp [Shape.word, Shape.mark, String.join_cons, String.append_assoc]
  have hjoined := hsegments p.segments
  unfold ImportPath.leading ImportPath.colons
  split
  · simpa [Shape.mark, String.join_cons] using hjoined
  · simpa using hjoined

theorem mem_leading {x : Shape} (h : x ∈ p.leading) : x = .mark "::" ∨ ∃ s ∈ p.segments, x = .word s := by
  unfold ImportPath.leading at h
  rcases List.mem_append.mp h with h | h
  · split at h
    · exact .inl (List.mem_singleton.mp h)
    · cases h
  · obtain ⟨s, hs, hx⟩ := List.mem_flatMap.mp h
    rcases List.mem_cons.mp hx with rfl | hx
    · exact .inr ⟨s, hs, rfl⟩
    · exact .inl (List.mem_singleton.mp hx)

/-- The text of a path in front of one more token. -/
theorem compact_path {kind : TokenKind} (hfit : Fit path (front.leading ++ [⟨kind, last, false⟩]))
    (hunbroken : Unbroken path) (hwords : ∀ s ∈ front.segments, IsWord s)
    (hlast : ∀ c ∈ last.toList, Text.isBlank c = false) :
    Text.compact (squashed path) = front.colons ++ Text.joinPath (front.segments ++ [last]) := by
  rw [compact_squashed hunbroken, hfit.map_text, List.map_append, ← join_leading]
  · rfl
  · intro t ht
    have hmem := List.mem_map_of_mem ht (f := Token.text)
    rw [hfit.map_text] at hmem
    obtain ⟨x, hx, htext⟩ := List.mem_map.mp hmem
    rw [← htext]
    rcases List.mem_append.mp hx with hx | hx
    · rcases mem_leading hx with rfl | ⟨s, hs, rfl⟩
      · exact not_blank_of_all (by decide)
      · exact (hwords s hs).not_blank
    · rw [List.mem_singleton.mp hx]
      exact hlast

theorem dropColons_eq_self {cs : List Char} (h : cs.head? ≠ some ':') : Text.dropColons cs = cs := by
  unfold Text.dropColons
  split
  · simp at h
  · rfl

theorem relativePath_colons (p : ImportPath) {s : String} (h : s.toList.head? ≠ some ':') :
    Text.relativePath (p.colons ++ s) = s := by
  have hrest := dropColons_eq_self h
  unfold Text.relativePath ImportPath.colons
  split
  · rw [String.toList_append, show "::".toList = [':', ':'] from rfl, List.cons_append, List.cons_append,
      List.nil_append, Text.dropColons, hrest, String.ofList_toList]
  · rw [String.empty_append, hrest, String.ofList_toList]

/-- A path begins with no colon, and ends with none. -/
theorem head_joinPath {segs : List String} (h : ∀ s ∈ segs, s ≠ "" ∧ Text.IsName s) :
    (Text.joinPath segs).toList.head? ≠ some ':' ∧ (Text.joinPath segs).toList.reverse.head? ≠ some ':' := by
  have hhead : ∀ cs more : List Char, cs ≠ [] → ':' ∉ cs → (cs ++ more).head? ≠ some ':' := by
    intro cs more hne hnot hhead
    rw [List.head?_append_of_ne_nil _ hne] at hhead
    exact hnot (List.mem_of_mem_head? hhead)
  have hchars : ∀ s ∈ segs, s.toList ≠ [] ∧ ':' ∉ s.toList := fun s hs =>
    ⟨fun hnil => (h s hs).1 (String.toList_injective hnil), (h s hs).2⟩
  constructor
  · cases segs with
    | nil => simp [Text.joinPath]
    | cons s rest =>
      obtain ⟨hne, hnot⟩ := hchars s List.mem_cons_self
      cases rest with
      | nil => simpa [Text.joinPath] using hhead s.toList [] hne hnot
      | cons t rest =>
        rw [Text.joinPath_cons (by simp), String.toList_append, String.toList_append, List.append_assoc]
        exact hhead s.toList _ hne hnot
  · rcases List.eq_nil_or_concat segs with rfl | ⟨front, s, rfl⟩
    · simp [Text.joinPath]
    · rw [List.concat_eq_append] at hchars ⊢
      obtain ⟨hne, hnot⟩ := hchars s (by simp)
      have hback := hhead s.toList.reverse ((if front = [] then "" else Text.joinPath front ++ "::").toList.reverse)
        (by simpa using hne) (by simpa using hnot)
      by_cases hnil : front = []
      · simpa [hnil, Text.joinPath] using hback
      · rw [Text.joinPath_append hnil (by simp), show Text.joinPath [s] = s by simp [Text.joinPath]]
        simpa [hnil] using hback

/-- A star behind a path stands for the module of the path. -/
theorem moduleOfGlob_path {p : ImportPath} (h : ∀ s ∈ p.segments, s ≠ "" ∧ Text.IsName s) :
    Reader.moduleOfGlob (Text.relativePath (p.colons ++ Text.joinPath (p.segments ++ ["*"]))) =
      Text.joinPath p.segments := by
  have hstar : ∀ s ∈ p.segments ++ ["*"], s ≠ "" ∧ Text.IsName s := by
    rw [List.forall_mem_append]
    exact ⟨h, by simp only [List.mem_singleton, forall_eq]; decide⟩
  rw [relativePath_colons p (head_joinPath hstar).1]
  by_cases hnil : p.segments = []
  · rw [hnil]
    rfl
  · have hback := dropColons_eq_self (head_joinPath h).2
    rw [Text.joinPath_append hnil (by simp), Reader.moduleOfGlob]
    have hchars : (Text.joinPath p.segments ++ "::" ++ Text.joinPath ["*"]).toList.reverse =
        '*' :: ':' :: ':' :: (Text.joinPath p.segments).toList.reverse := by
      simp [Text.joinPath]
    rw [hchars, List.dropWhile_cons_of_pos (by simp), List.dropWhile_cons_of_neg (by simp), Text.dropColons, hback,
      List.reverse_reverse, String.ofList_toList]

namespace Reader

theorem takes_segments (segs : List String) (last : String) :
    Takes (separated "::" name) (segs.flatMap (fun s => [Shape.word s, .mark "::"]) ++ [.word last])
      fun rest => (do mark "::"; name) rest = none := by
  have hshapes : segs.flatMap (fun s => [Shape.word s, .mark "::"]) ++ [.word last] =
      separatedBy (.mark "::") ((segs ++ [last]).map fun s => [.word s]) := by
    cases segs with
    | nil => rfl
    | cons s segs =>
      have hmore : ∀ (s : String) (segs : List String), .word s :: Shape.mark "::" ::
          (segs.flatMap (fun s => [Shape.word s, .mark "::"]) ++ [.word last]) =
            .word s :: ((segs ++ [last]).map fun s => [Shape.word s]).flatMap (Shape.mark "::" :: ·) := by
        intro s segs
        induction segs generalizing s with
        | nil => rfl
        | cons t segs ih => simpa using ih t
      simpa [separatedBy] using hmore s segs
  rw [hshapes]
  refine takes_separated (by simp) (fun ss hss => ?_) fun rest hrest => hrest
  obtain ⟨s, _, rfl⟩ := List.mem_map.mp hss
  intro ts rest hfit _
  obtain ⟨gap, commented, us, rfl, hus⟩ := fit_word.mp hfit
  obtain rfl := fit_nil.mp hus
  exact ⟨s, by simp⟩

/-- Segments begin with a name. -/
theorem clear_segments {segs : List String} {ms : List String}
    (hfit : Fit path (segs.flatMap (fun s => [Shape.word s, .mark "::"]) ++ [.word last])) (rest : List Token) :
    Clear ms (path ++ rest) := by
  obtain ⟨s, more, hshapes⟩ : ∃ s more, segs.flatMap (fun s => [Shape.word s, .mark "::"]) ++ [Shape.word last] =
      .word s :: more := by
    cases segs with
    | nil => exact ⟨last, [], rfl⟩
    | cons s segs => exact ⟨s, _, rfl⟩
  rw [hshapes] at hfit
  obtain ⟨gap, commented, us, rfl, _⟩ := fit_word.mp hfit
  intro t ht hkind
  obtain rfl : _ = t := Option.some.inj ht
  cases hkind

theorem textOf_eq {α : Type} {r : Reader α} {ts rest : List Token} {a : α} (h : r (ts ++ rest) = some (a, rest)) :
    textOf r (ts ++ rest) = some (squashed ts, rest) := by
  have htake : (ts ++ rest).take ((ts ++ rest).length - rest.length) = ts := by simp
  rw [run_textOf, h, Option.map_some, htake]

/-- A path is read up to where no further segment follows. -/
theorem usePath_eq (rest : List Token) (hfit : Fit path (front.leading ++ [.word last]))
    (hrest : (do mark "::"; name) rest = none) :
    usePath (path ++ rest) = some (Text.compact (squashed path), rest) := by
  unfold ImportPath.leading at hfit
  unfold usePath
  rw [run_bind, textOf_eq (a := ())]
  · rfl
  · cases hglobal : front.isGlobal with
    | true =>
      rw [hglobal, if_pos rfl, List.append_assoc] at hfit
      obtain ⟨gap, commented, us, rfl, hus⟩ := fit_mark.mp hfit
      obtain ⟨names, hnames⟩ := takes_segments front.segments last us rest hus hrest
      simp [hnames]
    | false =>
      rw [hglobal, if_neg (by decide), List.nil_append] at hfit
      have hclear : Clear ["::"] (path ++ rest) := clear_segments hfit rest
      have hfirst := hclear.optionalMark (List.mem_singleton.mpr rfl)
      obtain ⟨names, hnames⟩ := takes_segments front.segments last path rest hfit hrest
      simp [hnames, hfirst]

theorem leading_concat (g : Bool) (segs : List String) (last : String) :
    ImportPath.leading ⟨g, segs ++ [last]⟩ = ImportPath.leading ⟨g, segs⟩ ++ [.word last] ++ [.mark "::"] := by
  simp [ImportPath.leading]

/-- There is no path in front of a mark that stands alone, or behind double colons. -/
theorem usePath_none {m : String} (hm : m ≠ "::") {ts : List Token} (rest : List Token) (hnil : p.segments = [])
    (hfit : Fit ts (p.leading ++ [.mark m])) : usePath (ts ++ rest) = none := by
  unfold ImportPath.leading at hfit
  rw [hnil, List.flatMap_nil, List.append_nil] at hfit
  unfold usePath
  cases hglobal : p.isGlobal with
  | true =>
    rw [hglobal, if_pos rfl] at hfit
    obtain ⟨gap, commented, us, rfl, hus⟩ := fit_mark.mp hfit
    obtain ⟨gap', commented', vs, rfl, hvs⟩ := fit_mark.mp hus
    simp [separated]
  | false =>
    rw [hglobal, if_neg (by decide), List.nil_append] at hfit
    obtain ⟨gap, commented, us, rfl, hus⟩ := fit_mark.mp hfit
    simp [separated, hm]

/-- Behind a path with its double colons, or in its place, only a star makes it a path to all items of a module. -/
theorem useGlob_leading {m : String} (hm : m ≠ "::") {ts : List Token} (rest : List Token)
    (hfit : Fit ts (p.leading ++ [.mark m])) : useGlob (ts ++ rest) =
      if m = "*" then some (moduleOfGlob (Text.relativePath (Text.compact (squashed ts))), rest) else none := by
  have hread : (do
      if (← optional usePath).isSome then mark "::"
      else
        let _ ← optionalMark "::"
      mark "*" : Reader Unit) (ts ++ rest) = if m = "*" then some ((), rest) else none := by
    obtain ⟨g, segs⟩ := p
    rcases List.eq_nil_or_concat segs with rfl | ⟨segs, last, rfl⟩
    · have hnone := usePath_none hm rest rfl hfit
      simp only [ImportPath.leading, List.flatMap_nil, List.append_nil] at hfit
      cases g with
      | true =>
        obtain ⟨gap, commented, us, rfl, hus⟩ := fit_mark.mp hfit
        obtain ⟨gap', commented', vs, rfl, hvs⟩ := fit_mark.mp hus
        obtain rfl := fit_nil.mp hvs
        simp at hnone
        simp [hnone]
      | false =>
        obtain ⟨gap, commented, us, rfl, hus⟩ := fit_mark.mp hfit
        obtain rfl := fit_nil.mp hus
        simp at hnone
        simp [hnone, hm]
    · rw [List.concat_eq_append, leading_concat, List.append_assoc] at hfit
      obtain ⟨path, after, hpath, hafter, rfl⟩ := fit_append.mp hfit
      obtain ⟨gap, commented, us, rfl, hus⟩ := fit_mark.mp hafter
      obtain ⟨gap', commented', vs, rfl, hvs⟩ := fit_mark.mp hus
      obtain rfl := fit_nil.mp hvs
      have hsome := usePath_eq (⟨.mark, "::", gap, commented⟩ :: ⟨.mark, m, gap', commented'⟩ :: rest) hpath (by simp)
      simp [hsome]
  unfold useGlob
  by_cases hstar : m = "*"
  · rw [if_pos hstar] at hread ⊢
    rw [run_bind, textOf_eq hread]
    rfl
  · rw [if_neg hstar] at hread ⊢
    rw [run_bind, run_textOf, hread]
    rfl

/-- A path does not begin with a brace. -/
theorem isMark_leading {x : Shape} (rest : List Token) (hfit : Fit path (front.leading ++ [x])) (hx : x ≠ .mark "\x7b")
    (hloose : x.glued = false) : isMark "\x7b" (path ++ rest) = some (false, path ++ rest) := by
  obtain ⟨y, more, hshapes, hy⟩ : ∃ y more, front.leading ++ [x] = y :: more ∧
      (y = .mark "::" ∨ (∃ s, y = .word s) ∨ y = x) := by
    cases hleading : front.leading with
    | nil => exact ⟨x, [], rfl, .inr (.inr rfl)⟩
    | cons y more =>
      have hy := mem_leading (p := front) (x := y) (by simp [hleading])
      exact ⟨y, more ++ [x], rfl, hy.imp_right fun ⟨s, _, hs⟩ => .inl ⟨s, hs⟩⟩
  rw [hshapes] at hfit
  rcases hy with rfl | ⟨s, rfl⟩ | rfl
  · obtain ⟨gap, commented, us, rfl, _⟩ := fit_mark.mp hfit
    simp
  · obtain ⟨gap, commented, us, rfl, _⟩ := fit_word.mp hfit
    simp
  · obtain ⟨kind, text, glued⟩ := y
    obtain rfl : glued = false := hloose
    obtain ⟨gap, commented, us, rfl, _⟩ := fit_shape.mp hfit
    simpa [Shape.mark] using hx

/-- A tree that begins with a path goes on behind it. -/
theorem useTree_path {n : Nat} {after : List Token} (hfit : Fit path (front.leading ++ [.word last]))
    (hafter : (do mark "::"; name) after = none) (hglob : useGlob (path ++ after) = none) :
    useTree (n + 1) (path ++ after) =
      useRest (Text.compact (squashed path)) (Text.compact (squashed path) = "self") (useTree n) after := by
  have hpath := usePath_eq after hfit hafter
  rw [useTree]
  simp [isMark_leading after hfit (by simp [Shape.mark, Shape.word]) rfl, hglob, hpath]

theorem useGlob_path {after : List Token} (hfit : Fit path (front.leading ++ [.word last]))
    (hafter : Clear ["::"] after) : useGlob (path ++ after) = none := by
  have hmark := hafter.mark (m := "::") (by simp)
  have hpath := usePath_eq after hfit (by simp [hmark])
  unfold useGlob
  simp [hpath, hmark]

/-- No tree begins with a closing brace. -/
theorem useTree_close {n : Nat} (h : Starts ["\x7d"] rest) : useTree n rest = none := by
  obtain ⟨⟨kind, text, gap, commented⟩, after, rfl, hkind, htext⟩ := h
  obtain rfl : kind = .mark := hkind
  obtain rfl : text = "\x7d" := List.mem_singleton.mp htext
  cases n with
  | zero => rfl
  | succ n => simp [useTree, useGlob, usePath, separated, Reader.ahead]

end Reader

end Paths

section Reading

namespace Reader

/-- What follows a path to an item. -/
theorem useRest_renaming {r : Reader UseTree} {path : String} {isSelf : Bool} {newName : Option String}
    {ts rest : List Token} (hfit : Fit ts (renamingShapes newName)) (hrest : Starts [",", "\x7d", ";"] rest) :
    useRest path isSelf r (ts ++ rest) =
      some (match newName with
        | none => if isSelf then .itself else .path (Text.relativePath path)
        | some a => .renamed (Text.relativePath path) a, rest) := by
  cases newName with
  | none =>
    obtain rfl := fit_nil.mp hfit
    obtain ⟨⟨kind, text, gap, commented⟩, after, rfl, hkind, htext⟩ := hrest
    obtain rfl : kind = .mark := hkind
    have hcolons : text ≠ "::" := by
      rintro rfl
      simp at htext
    cases isSelf <;> simp [useRest, hcolons]
  | some a =>
    obtain ⟨gap, commented, us, rfl, hus⟩ := fit_word.mp hfit
    obtain ⟨gap', commented', vs, rfl, hvs⟩ := fit_word.mp hus
    obtain rfl := fit_nil.mp hvs
    simp [useRest]

theorem clear_renaming {newName : Option String} {ts rest : List Token} (hfit : Fit ts (renamingShapes newName))
    (hrest : Starts [",", "\x7d", ";"] rest) : Clear ["::"] (ts ++ rest) := by
  cases newName with
  | none =>
    obtain rfl := fit_nil.mp hfit
    exact hrest.clear (by decide)
  | some a =>
    obtain ⟨gap, commented, us, rfl, hus⟩ := fit_word.mp hfit
    intro t ht hkind
    obtain rfl := Option.some.inj ht
    cases hkind

variable {front : ImportPath} {last : String} {path opening rest : List Token} {m : Nat}

theorem ends_of_words {segs : List String} (h : ∀ s ∈ segs, IsWord s) : ∀ s ∈ segs, s ≠ "" ∧ Text.IsName s :=
  fun s hs => ⟨(h s hs).ne_empty, (h s hs).isName⟩

/-- Only the path `self` is read as the keyword alone. -/
theorem eq_self_of_path (hwords : ∀ s ∈ front.segments ++ [last], IsWord s)
    (h : front.colons ++ Text.joinPath (front.segments ++ [last]) = "self") : last = "self" := by
  have hpath := relativePath_colons front (head_joinPath (ends_of_words hwords)).1
  have hself : Text.relativePath "self" = "self" := by decide
  rw [h, hself] at hpath
  have hlast := Text.lastSegment_joinPath front.segments (hwords last (by simp)).isName
  rw [← hpath] at hlast
  have hdecide : Text.lastSegment "self" = "self" := by decide
  exact hlast.symm.trans hdecide

/-- Braces behind a path, or with no path in front. -/
theorem useTree_group {p : ImportPath} (hpath : Fit path p.leading) (hunbroken : Unbroken path.dropLast)
    (hwords : ∀ s ∈ p.segments, IsWord s) (hopening : Fit opening [.mark "\x7b"]) :
    useTree (m + 1) (path ++ (opening ++ rest)) =
      (UseTree.group (Text.joinPath p.segments) <$> useList (useTree m)) (opening ++ rest) := by
  obtain ⟨g, segs⟩ := p
  obtain ⟨gap, commented, us, rfl, hus⟩ := fit_mark.mp hopening
  obtain rfl := fit_nil.mp hus
  rcases List.eq_nil_or_concat segs with rfl | ⟨segs, last, rfl⟩
  · cases g with
    | false =>
      obtain rfl := fit_nil.mp hpath
      simp [useTree, Text.joinPath]
    | true =>
      have hbrace := fit_append.mpr ⟨_, _, hpath, hopening, rfl⟩
      have hnone := usePath_none (by decide) rest rfl hbrace
      have hglob := useGlob_leading (by decide) rest hbrace
      obtain ⟨gap', commented', vs, rfl, hvs⟩ := fit_mark.mp hpath
      obtain rfl := fit_nil.mp hvs
      rw [List.append_assoc] at hnone hglob
      have hempty : Text.relativePath "" = Text.joinPath [] := by decide
      simp at hnone hglob
      simp [useTree, hnone, hglob, Reader.ahead, useRest, hempty]
  · rw [List.concat_eq_append] at hwords hpath ⊢
    have hglob := useGlob_leading (by decide) rest (fit_append.mpr ⟨_, _, hpath, hopening, rfl⟩)
    rw [leading_concat] at hpath
    obtain ⟨start, colons, hstart, hcolons, rfl⟩ := fit_append.mp hpath
    obtain ⟨gap', commented', vs, rfl, hvs⟩ := fit_mark.mp hcolons
    obtain rfl := fit_nil.mp hvs
    rw [List.dropLast_concat] at hunbroken
    have htext := compact_path hstart hunbroken (fun s hs => hwords s (by simp [hs])) (hwords last (by simp)).not_blank
    have hrelative := relativePath_colons ⟨g, segs⟩ (head_joinPath (ends_of_words hwords)).1
    simp only [List.append_assoc, List.cons_append, List.nil_append] at hglob ⊢
    rw [useTree_path hstart (by simp) hglob, htext, useRest, run_bind, run_optionalMark]
    simp [hrelative]

theorem starts_moreWritten {trees : List ImportExpr} {ts : List Token} (h : MoreWritten trees ts)
    (hrest : Starts [",", "\x7d"] rest) : Starts [",", "\x7d"] (ts ++ rest) := by
  cases trees with
  | nil =>
    obtain rfl := h
    exact hrest
  | cons t trees =>
    obtain ⟨comma, first, more, rfl, hcomma, -, -⟩ := h
    obtain ⟨gap, commented, us, rfl, -⟩ := fit_mark.mp hcomma
    exact ⟨_, _, rfl, rfl, by simp⟩

/-- The end of braces, behind which no tree follows. -/
theorem closing_written (rest : List Token) (n : Nat) {closing : List Token}
    (h : Fit closing [.mark "\x7d"] ∨ Fit closing [.mark ",", .mark "\x7d"]) :
    Starts [",", "\x7d"] (closing ++ rest) ∧ (do mark ","; useTree n) (closing ++ rest) = none ∧
      ∃ x, optionalMark "," (closing ++ rest) = some x ∧ mark "\x7d" x.2 = some ((), rest) := by
  rcases h with h | h
  · obtain ⟨gap, commented, us, rfl, hus⟩ := fit_mark.mp h
    obtain rfl := fit_nil.mp hus
    exact ⟨⟨_, _, rfl, rfl, by simp⟩, by simp, by simp⟩
  · obtain ⟨gap, commented, us, rfl, hus⟩ := fit_mark.mp h
    obtain ⟨gap', commented', vs, rfl, hvs⟩ := fit_mark.mp hus
    obtain rfl := fit_nil.mp hvs
    have hclose : Starts ["\x7d"] (⟨.mark, "\x7d", gap', commented'⟩ :: rest) := ⟨_, _, rfl, rfl, by simp⟩
    have hnone := useTree_close (n := n) hclose
    exact ⟨⟨_, _, rfl, rfl, by simp⟩, by simp [hnone], by simp⟩

mutual

/-- A tree is read as what is written. -/
theorem useTree_written : (t : ImportExpr) → ∀ (front : List String) (ts rest : List Token) (n : Nat), t.IsValid front →
    t.Written ts → ts.length < n → Starts [",", "\x7d", ";"] rest → useTree n (ts ++ rest) = some (t.tree, rest)
  | .item p last newName => fun _ _ rest n hvalid hwritten hn hrest => by
    obtain ⟨m, rfl⟩ : ∃ m, n = m + 1 := ⟨n - 1, by omega⟩
    obtain ⟨path, more, rfl, hpath, hunbroken, hmore⟩ := hwritten
    obtain ⟨hwords, hlast, _⟩ := hvalid
    have hclear := clear_renaming hmore hrest
    have hnone := hclear.mark (m := "::") (by simp)
    have htext := compact_path hpath hunbroken (fun s hs => hwords s (by simp [hs])) (hwords last (by simp)).not_blank
    have hrelative := relativePath_colons p (head_joinPath (ends_of_words hwords)).1
    have hself : p.colons ++ Text.joinPath (p.segments ++ [last]) ≠ "self" := fun h => hlast (eq_self_of_path hwords h)
    rw [List.append_assoc, useTree_path hpath (by simp [hnone]) (useGlob_path hpath hclear),
      useRest_renaming hmore hrest, htext, hrelative]
    cases newName <;> simp [ImportExpr.tree, hself]
  | .itself newName => fun _ _ rest n _ hwritten hn hrest => by
    obtain ⟨m, rfl⟩ : ∃ m, n = m + 1 := ⟨n - 1, by omega⟩
    obtain ⟨gap, commented, more, rfl, hmore⟩ := fit_word.mp hwritten
    have hpath : Fit [⟨.word, "self", gap, commented⟩] (ImportPath.leading ⟨false, []⟩ ++ [.word "self"]) :=
      fit_word.mpr ⟨gap, commented, [], rfl, fit_nil.mpr rfl⟩
    have hclear := clear_renaming hmore hrest
    have hnone := hclear.mark (m := "::") (by simp)
    have htext := compact_path hpath (by simp [Unbroken]) (by simp) (not_blank_of_all (by decide))
    have hself : ImportPath.colons ⟨false, []⟩ ++ Text.joinPath ([] ++ ["self"]) = "self" := by decide
    have hrelative : Text.relativePath "self" = "self" := by decide
    have hread := useTree_path (n := m) hpath (by simp [hnone]) (useGlob_path hpath hclear)
    rw [useRest_renaming hmore hrest, htext, hself, hrelative] at hread
    refine hread.trans ?_
    cases newName <;> simp [ImportExpr.tree]
  | .glob p => fun _ _ rest n hvalid hwritten hn _ => by
    obtain ⟨m, rfl⟩ : ∃ m, n = m + 1 := ⟨n - 1, by omega⟩
    obtain ⟨hfit, hunbroken⟩ := hwritten
    have hbrace := isMark_leading rest hfit (by simp [Shape.mark]) rfl
    have hglob := useGlob_leading (by decide) rest hfit
    rw [if_pos rfl, compact_path hfit hunbroken hvalid (not_blank_of_all (by decide)),
      moduleOfGlob_path (ends_of_words hvalid)] at hglob
    rw [useTree]
    simp [hbrace, hglob, ImportExpr.tree]
  | .group p trees => fun _ _ rest n hvalid hwritten hn _ => by
    obtain ⟨m, rfl⟩ : ∃ m, n = m + 1 := ⟨n - 1, by omega⟩
    obtain ⟨path, opening, inner, closing, rfl, hpath, hunbroken, hopening, hinner, hclosing⟩ := hwritten
    obtain ⟨hwords, htrees⟩ := hvalid
    have hless : inner.length < m := by
      have hlength := hopening.length_eq
      simp only [List.length_append, List.length_cons, List.length_nil] at hlength hn
      omega
    have hlist := useList_written trees _ _ _ _ rest m htrees hopening hinner hclosing hless
    rw [List.append_assoc, List.append_assoc, useTree_group hpath hunbroken hwords hopening, run_map, hlist]
    rfl

/-- Braces are read as what is written in them. -/
theorem useList_written : (trees : List ImportExpr) → ∀ (front : List String) (opening inner closing rest : List Token)
    (n : Nat), AllValid front trees → Fit opening [.mark "\x7b"] → ListWritten trees inner →
    (Fit closing [.mark "\x7d"] ∨ trees ≠ [] ∧ Fit closing [.mark ",", .mark "\x7d"]) → inner.length < n →
    useList (useTree n) (opening ++ (inner ++ closing ++ rest)) = some (treesOf trees, rest)
  | [] => fun _ _ _ _ rest n _ hopening hinner hclosing _ => by
    obtain ⟨gap, commented, us, rfl, hus⟩ := fit_mark.mp hopening
    obtain rfl := fit_nil.mp hus
    obtain rfl := hinner
    obtain ⟨gap', commented', vs, rfl, hvs⟩ := fit_mark.mp (hclosing.resolve_right fun h => h.1 rfl)
    obtain rfl := fit_nil.mp hvs
    simp [useList, listed, treesOf]
  | t :: trees => fun _ _ _ closing rest n hvalid hopening hinner hclosing hn => by
    obtain ⟨gap, commented, us, rfl, hus⟩ := fit_mark.mp hopening
    obtain rfl := fit_nil.mp hus
    obtain ⟨first, more, rfl, hfirst, hmore⟩ := hinner
    obtain ⟨ht, htrees⟩ := hvalid
    have hclosing : Fit closing [.mark "\x7d"] ∨ Fit closing [.mark ",", .mark "\x7d"] := hclosing.imp_right And.right
    obtain ⟨hstarts, hend, x, hcomma, hclosed⟩ := closing_written rest n hclosing
    have hmoreStarts := starts_moreWritten hmore hstarts
    have hlength : first.length < n ∧ more.length < n := by
      simp only [List.length_append] at hn
      omega
    have hread := useTree_written t _ _ (more ++ (closing ++ rest)) n ht hfirst hlength.1 (hmoreStarts.mono (by simp))
    have hrepeated := repeated_written trees _ _ (closing ++ rest) n htrees hmore hlength.2 hstarts hend
    have hclear : Clear ["\x7d"] (first ++ (more ++ (closing ++ rest))) := by
      intro x hx hkind htext
      obtain ⟨after, hafter⟩ := List.head?_eq_some_iff.mp hx
      rw [useTree_close ⟨x, after, hafter, hkind, htext⟩] at hread
      cases hread
    have hopen := hclear.optionalMark (m := "\x7d") (by simp)
    simp [useList, listed, separated, hopen, hread, hrepeated, hcomma, hclosed, treesOf]

/-- Trees behind commas are read one after the other. -/
theorem repeated_written : (trees : List ImportExpr) → ∀ (front : List String) (ts rest : List Token) (n : Nat),
    AllValid front trees → MoreWritten trees ts → ts.length < n → Starts [",", "\x7d"] rest →
    (do mark ","; useTree n) rest = none →
    repeated (do mark ","; useTree n) (ts ++ rest) = (treesOf trees, rest)
  | [] => fun _ _ _ _ _ hwritten _ _ hend => by
    obtain rfl := hwritten
    rw [List.nil_append, repeated_none hend]
    rfl
  | t :: trees => fun _ _ rest n hvalid hwritten hn hrest hend => by
    obtain ⟨comma, first, more, rfl, hcomma, hfirst, hmore⟩ := hwritten
    obtain ⟨gap, commented, us, rfl, hus⟩ := fit_mark.mp hcomma
    obtain rfl := fit_nil.mp hus
    obtain ⟨ht, htrees⟩ := hvalid
    have hlength : first.length < n ∧ more.length < n := by
      simp only [List.length_append, List.length_cons, List.length_nil] at hn
      omega
    have hstarts := starts_moreWritten hmore hrest
    have hread := useTree_written t _ _ (more ++ rest) n ht hfirst hlength.1 (hstarts.mono (by simp))
    have hrepeated := repeated_written trees _ _ rest n htrees hmore hlength.2 hrest hend
    have hstep : (do mark ","; useTree n) (⟨.mark, ",", gap, commented⟩ :: (first ++ (more ++ rest))) =
        some (t.tree, more ++ rest) := by simp [hread]
    have hless : (more ++ rest).length < (⟨.mark, ",", gap, commented⟩ :: (first ++ (more ++ rest))).length := by
      simp only [List.length_append, List.length_cons]
      omega
    have hmany := repeated_some hstep hless
    rw [hrepeated] at hmany
    simpa [treesOf] using hmany

end

end Reader

end Reading

end TraitMock.Syntax

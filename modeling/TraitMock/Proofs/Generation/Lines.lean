import TraitMock.Proofs.Generation.Emission
import TraitMock.Proofs.Syntax.ImportText

namespace TraitMock.Generation

open Syntax (Closes IsGap Shape Spells SpellsBefore closes_text isGap_blank isGap_blanks isGap_comment isGap_nil)

private theorem linesText_append (a b : List String) : linesText (a ++ b) = linesText a ++ linesText b := by
  simp [linesText, String.join_append]

namespace Code

/-- The lines of some code spell the given shapes, wherever they stand. -/
def Prints (code : List Code) (ss : List Shape) : Prop := ∀ depth, Closes (linesText (linesOf depth code)) ss

variable {code rest body : List Code} {head text tail : String} {ss us vs : List Shape}

theorem prints_nil : Prints [] [] := fun _ => .of_isGap isGap_nil

theorem Prints.append (h : Prints code ss) (hrest : Prints rest us) : Prints (code ++ rest) (ss ++ us) := by
  intro depth
  rw [linesOf_append, linesText_append]
  exact (h depth).append (hrest depth) fun _ _ => trivial

theorem isGap_indentation (depth : Nat) : IsGap (Text.times depth "    ").toList := by
  refine isGap_blanks fun c hc => ?_
  induction depth with
  | zero => simp [Text.times] at hc
  | succ depth ih =>
    rw [Text.times, List.replicate_succ, String.join_cons, String.toList_append, List.mem_append] at hc
    rcases hc with hc | hc
    · obtain rfl : c = ' ' := by simpa using hc
      decide
    · exact ih hc

/-- The end of a line separates it from the next one. -/
theorem prints_line (h : Spells text ss) : Prints [.line text] ss := by
  intro depth
  have hend : Closes "\n" [] := .of_isGap (isGap_blank (by decide))
  have htext : linesText (linesOf depth [.line text]) = indented depth text ++ "\n" := by
    simp [linesOf, lines, linesText]
  have hindented : Spells (indented depth text) ss := by
    rw [indented]
    split
    · rename_i hempty
      rwa [hempty] at h
    · have hgap : Closes (Text.times depth "    ") [] := .of_isGap (isGap_indentation depth)
      exact hgap.append h fun _ _ => trivial
  rw [htext]
  simpa using hindented.append hend fun _ _ => rfl

theorem prints_blank : Prints [.blank] [] := prints_line (.of_isGap isGap_nil)

/-- A line with a comment spells nothing. -/
theorem prints_comment (h : '\n' ∉ text.toList) : Prints [.line ("//" ++ text)] [] := by
  intro depth
  have htext : (linesText (linesOf depth [.line ("//" ++ text)])).toList =
      (Text.times depth "    ").toList ++ '/' :: '/' :: (text.toList ++ ['\n']) := by
    simp [linesOf, lines, linesText, indented]
  refine .of_isGap ?_
  rw [htext]
  exact (isGap_indentation depth).append (isGap_comment h)

/-- Lines one below the other spell the shapes of each. -/
theorem prints_lines {texts : List String} {items : List (List Shape)} (h : List.Forall₂ Spells texts items) :
    Prints (texts.map .line) items.flatten := by
  induction h with
  | nil => exact prints_nil
  | cons hfirst _ ih => exact (prints_line hfirst).append ih

theorem Prints.inner (h : Prints body ss) : Prints [.inner body] ss := by
  intro depth
  have htext : linesOf depth [.inner body] = linesOf (depth + 1) body := by simp [linesOf, lines]
  rw [htext]
  exact h (depth + 1)

theorem Prints.bracedThen (hhead : Spells head ss) (hbody : Prints body us) (htail : Spells tail vs) :
    Prints (Code.bracedThen head body tail) (ss ++ .mark "\x7b" :: (us ++ .mark "\x7d" :: vs)) := by
  have hopening : Closes " \x7b" [.mark "\x7b"] := closes_text (by decide) (by decide)
  have hclosing : Closes "\x7d" [.mark "\x7d"] := closes_text (by decide) (by decide)
  have hfirst := prints_line ((hhead.append hopening fun _ _ => rfl).weaken fun _ _ => trivial)
  have hlast := prints_line (hclosing.append htail fun _ _ => trivial)
  simpa [Code.bracedThen] using hfirst.append (hbody.inner.append hlast)

theorem Prints.braced (hhead : Spells head ss) (hbody : Prints body us) :
    Prints (Code.braced head body) (ss ++ .mark "\x7b" :: (us ++ [.mark "\x7d"])) :=
  hbody.bracedThen hhead (.of_isGap isGap_nil)

end Code

end TraitMock.Generation

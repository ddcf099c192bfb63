import MeshRollout.Proofs.Yaml.Runs

/-!
What the style of a scalar says about its text. Plain text has no mark that would end it, and text on
a line has no break in it.
-/
set_option autoImplicit false

namespace MeshRollout.Yaml

def IsLine (cs : List Char) : Prop :=
  ∀ c ∈ cs, isPlainlyWritten c = true ∧ isBreakMark c = false

instance (cs : List Char) : Decidable (IsLine cs) :=
  List.decidableBAll _ cs

structure IsPlain (cs : List Char) : Prop where
  line : IsLine cs
  ne_nil : cs ≠ []
  first : cs.head? ≠ some ' '
  last : cs.getLast? ≠ some ' '
  indicator : hasIndicator cs = false

theorem isGap_iff {c : Char} :
    isGap c = true ↔ c = ' ' ∨ c = '\t' ∨ c = '\n' ∨ c = '\r' ∨ c.toNat = 0 := by
  simp only [isGap, isSpace, isBreakOrEnd, isBreak, isEnd, Bool.or_eq_true, decide_eq_true_eq,
    beq_iff_eq]
  tauto

section Written
variable {c : Char} (hw : isPlainlyWritten c = true) (hb : isBreakMark c = false)
include hw hb

theorem eq_blank_of_isGap (h : isGap c = true) : c = ' ' := by
  rcases isGap_iff.1 h with rfl | rfl | rfl | rfl | h
  · rfl
  · exact absurd hw (by decide)
  · exact absurd hb (by decide)
  · exact absurd hb (by decide)
  · have hnl : c ≠ '\n' := by
      rintro rfl
      exact absurd hb (by decide)
    simp [isPlainlyWritten, h, hnl] at hw

theorem isGap_eq_false (hne : c ≠ ' ') : isGap c = false :=
  Bool.eq_false_iff.2 fun h => hne (eq_blank_of_isGap hw hb h)

theorem isBreak_eq_false : isBreak c = false := by
  refine Bool.eq_false_iff.2 fun h => ?_
  have hgap : isGap c = true := by simp [isGap, isBreakOrEnd, h]
  rw [eq_blank_of_isGap hw hb hgap] at h
  exact absurd h (by decide)

theorem isEnd_eq_false : isEnd c = false := by
  refine Bool.eq_false_iff.2 fun h => ?_
  have hgap : isGap c = true := by simp [isGap, isBreakOrEnd, h]
  rw [eq_blank_of_isGap hw hb hgap] at h
  exact absurd h (by decide)

end Written

theorem isBlankEnd_of_isGap {c : Char} (h : isGap c = true) : isBlankEnd (some c) = true := by
  rcases isGap_iff.1 h with rfl | rfl | rfl | rfl | h
  · rfl
  · rfl
  · rfl
  · rfl
  · simp [isBlankEnd, h]

namespace IsLine
variable {c : Char} {cs : List Char}

theorem head (h : IsLine (c :: cs)) : isPlainlyWritten c = true ∧ isBreakMark c = false :=
  h c List.mem_cons_self

theorem tail (h : IsLine (c :: cs)) : IsLine cs :=
  fun d hd => h d (List.mem_cons_of_mem _ hd)

theorem of_suffix {cs' : List Char} (h : IsLine cs) (hs : cs' <:+ cs) : IsLine cs' :=
  fun d hd => h d (hs.mem hd)

end IsLine

/-- Plain text goes on up to the next blank. -/
theorem plainWord_append {cs t : List Char} {p : Char} (hcs : IsLine cs)
    (hm : hasMark p cs = false) (ht : plainWord 0 t = []) :
    plainWord 0 (cs ++ t) = cs.takeWhile (· != ' ') := by
  induction cs generalizing p with
  | nil => exact ht
  | cons c r ih =>
    obtain ⟨hw, hb⟩ := hcs.head
    simp only [hasMark, Bool.or_eq_false_iff] at hm
    obtain ⟨⟨hcolon, -⟩, hr⟩ := hm
    by_cases hc : c = ' '
    · subst hc
      rfl
    · have hgap := isGap_eq_false hw hb hc
      have hon : Lexer.plainGoesOn.plainAt 0 (c :: (r ++ t)) = true := by
        by_cases hd : c = ':'
        · subst hd
          cases r with
          | nil => exact absurd hcolon (by decide)
          | cons d r =>
            have hd : isGap d = false := by
              refine Bool.eq_false_iff.2 fun h => ?_
              simp [isBlankEnd_of_isGap h] at hcolon
            simp [Lexer.plainGoesOn.plainAt, hd]
        · simp [Lexer.plainGoesOn.plainAt, hd]
      rw [List.cons_append, plainWord, hgap, hon, List.takeWhile_cons_of_pos (by simpa using hc)]
      simp only [Bool.not_true, Bool.or_self, Bool.false_eq_true, if_false]
      rw [ih hcs.tail hr]

end MeshRollout.Yaml

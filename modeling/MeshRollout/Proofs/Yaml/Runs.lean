import Mathlib.Data.List.TakeDrop
import MeshRollout.Yaml.Lexing
import MeshRollout.Yaml.Writing

/-!
Runs of the steps of a pass over YAML text, put together from the runs of their parts, and how a pass
gets over the blanks and line breaks between tokens.
-/
set_option autoImplicit false

namespace MeshRollout.Yaml

theorem forall_mem_of_all {p : Char → Prop} [DecidablePred p] {cs : List Char}
    (h : (cs.all fun c => decide (p c)) = true) : ∀ c ∈ cs, p c := by
  simpa using h

namespace Scan
variable {α β : Type} {l l' l'' : Lexer} {x : α} {y : β}

def Runs (m : Scan α) (l : Lexer) (x : α) (l' : Lexer) : Prop :=
  m l = some (x, l')

theorem runs_pure (x : α) (l : Lexer) : Runs (pure x) l x l := rfl

theorem runs_get (l : Lexer) : Runs get l l l := rfl

theorem runs_modify (f : Lexer → Lexer) (l : Lexer) : Runs (modify f) l () (f l) := rfl

theorem runs_peek (n : Nat) (l : Lexer) : Runs (peek n) l (l.peek n) l := rfl

theorem runs_fuel (l : Lexer) : Runs fuel l (l.rest.length + 1) l := rfl

theorem runs_allowKey (b : Bool) (l : Lexer) :
    Runs (allowKey b) l () { l with keyAllowed := b } := rfl

theorem runs_require {b : Bool} (h : b = true) (l : Lexer) : Runs (require b) l () l := by
  subst h
  rfl

theorem Runs.bind {m : Scan α} {k : α → Scan β} (h : Runs m l x l') (hk : Runs (k x) l' y l'') :
    Runs (m >>= k) l y l'' := by
  have h : m l = some (x, l') := h
  change (m l).bind _ = _
  rw [h]
  exact hk

theorem runs_tryModify {f : Lexer → Option Lexer} {m : Lexer} (h : f l = some m) :
    Runs (tryModify f) l () m := by
  refine .bind (runs_get l) ?_
  rw [h]
  rfl

end Scan

def isSolid (c : Char) : Bool :=
  !(isSpace c || isBreak c || c == '#')

def IsSolid (cs : List Char) : Prop :=
  isSolid (cs.headD (Char.ofNat 0)) = true

theorem isSolid_nil : IsSolid [] := rfl

namespace Lexer
variable {l : Lexer} {c : Char} {r : List Char}

theorem peek_zero (l : Lexer) : l.peek 0 = l.rest.headD (Char.ofNat 0) := by
  cases h : l.rest <;> simp [peek, h]

theorem peek_zero_eq (h : l.rest = c :: r) : l.peek 0 = c := by
  simp [peek_zero, h]

theorem peek_one_eq (h : l.rest = c :: r) : l.peek 1 = r.headD (Char.ofNat 0) := by
  cases r <;> simp [peek, h]

def pass (n : Nat) (l : Lexer) : Lexer :=
  { l.advance n with atLineStart := false }

def newLine (n : Nat) (l : Lexer) : Lexer :=
  { l with
    rest := l.rest.drop (n + 1)
    mark := ⟨l.mark.index + (n + 1), l.mark.line + 1, n⟩
    atLineStart := true }

theorem advanceWord_of_pos {n : Nat} (h : 0 < n) (l : Lexer) : l.advanceWord n = l.pass n := by
  rw [advanceWord, if_neg (by omega)]
  rfl

@[simp] theorem advance_zero (l : Lexer) : l.advance 0 = l := rfl

theorem not_column_lt (h : l.indent ≤ l.column) : (!decide (l.column < l.indent)) = true := by
  simpa using h

theorem advance_advance (m n : Nat) (l : Lexer) : (l.advance m).advance n = l.advance (m + n) := by
  simp [advance, List.drop_drop, Nat.add_assoc]

theorem pass_pass (m n : Nat) (l : Lexer) : (l.pass m).pass n = l.pass (m + n) := by
  simp [pass, advance, List.drop_drop, Nat.add_assoc]

theorem pass_advance (m n : Nat) (l : Lexer) : (l.pass m).advance n = l.pass (m + n) := by
  simp [pass, advance, List.drop_drop, Nat.add_assoc]

theorem advanceWord_eq_pass (h : l.atLineStart = false) (n : Nat) : l.advanceWord n = l.pass n := by
  rcases Nat.eq_zero_or_pos n with rfl | hn
  · simp [advanceWord, pass, advance, ← h]
  · exact advanceWord_of_pos hn l

theorem advance_eq_pass (h : l.atLineStart = false) (n : Nat) : l.advance n = l.pass n := by
  simp [advance, pass, h]

theorem advanceWord_advanceWord (m n : Nat) (l : Lexer) :
    (l.advanceWord m).advanceWord n = l.advanceWord (m + n) := by
  rcases Nat.eq_zero_or_pos m with rfl | hm
  · rw [Nat.zero_add]
    rfl
  · rcases Nat.eq_zero_or_pos n with rfl | hn
    · rfl
    · rw [advanceWord_of_pos hm, advanceWord_of_pos hn,
        advanceWord_of_pos (by omega), pass_pass]

theorem rest_advance (cs : List Char) (h : l.rest = cs ++ r) : (l.advance cs.length).rest = r := by
  simp [advance, h]

theorem rest_pass (cs : List Char) (h : l.rest = cs ++ r) : (l.pass cs.length).rest = r := by
  simp [pass, advance, h]

theorem rest_pass_of_length (cs : List Char) {n : Nat} (h : l.rest = cs ++ r)
    (hn : cs.length = n) : (l.pass n).rest = r :=
  hn ▸ rest_pass cs h

theorem rest_newLine {n : Nat} (h : l.rest = '\n' :: (spaces n ++ r)) : (l.newLine n).rest = r := by
  simp [newLine, h, spaces]

theorem advanceBreak_eq (h : l.rest = '\n' :: r) : l.advanceBreak = l.newLine 0 := by
  have hp := peek_zero_eq h
  simp [advanceBreak, hp, newLine, isBreak]

theorem newLine_advance (m n : Nat) (l : Lexer) :
    (l.newLine m).advance n = l.newLine (m + n) := by
  simp only [newLine, advance, List.drop_drop, Lexer.mk.injEq, Mark.mk.injEq, and_true]
  refine ⟨by congr 1; omega, by omega⟩

end Lexer

theorem isSolid_peek {l : Lexer} (h : IsSolid l.rest) : isSolid (l.peek 0) = true := by
  rw [Lexer.peek_zero]
  exact h

theorem isSpace_of_isSolid {c : Char} (h : isSolid c = true) : isSpace c = false := by
  simp only [isSolid, Bool.not_eq_true', Bool.or_eq_false_iff] at h
  exact h.1.1

theorem isBreak_of_isSolid {c : Char} (h : isSolid c = true) : isBreak c = false := by
  simp only [isSolid, Bool.not_eq_true', Bool.or_eq_false_iff] at h
  exact h.1.2

theorem ne_hash_of_isSolid {c : Char} (h : isSolid c = true) : (c == '#') = false := by
  simp only [isSolid, Bool.not_eq_true', Bool.or_eq_false_iff] at h
  exact h.2

theorem ne_tab_of_isSolid {c : Char} (h : isSolid c = true) : (c == '\t') = false := by
  have hs := isSpace_of_isSolid h
  simp only [isSpace, Bool.or_eq_false_iff, decide_eq_false_iff_not] at hs
  simpa using hs.2

theorem ne_blank_of_isSolid {c : Char} (h : isSolid c = true) : (c == ' ') = false := by
  have hs := isSpace_of_isSolid h
  simp only [isSpace, Bool.or_eq_false_iff, decide_eq_false_iff_not] at hs
  simpa using hs.1

namespace Scan
variable {l : Lexer} {r : List Char}

theorem runs_skipToToken_solid (h : IsSolid l.rest) (fuel : Nat) :
    Runs (skipToToken fuel) l () l := by
  have hs := isSolid_peek h
  cases fuel with
  | zero => rfl
  | succ fuel =>
    refine .bind (runs_get l) ?_
    simp only [ne_tab_of_isSolid hs, Bool.false_and, Bool.false_eq_true, if_false,
      isSpace_of_isSolid hs, isBreak_of_isSolid hs, ne_hash_of_isSolid hs]
    exact runs_pure () l

theorem lt_length_of_spaces {n : Nat} (h : l.rest = spaces n ++ r) : n < l.rest.length + 1 := by
  rw [h, List.length_append, spaces, List.length_replicate]
  omega

theorem lt_length_of_break {n : Nat} (h : l.rest = '\n' :: (spaces n ++ r)) :
    n + 1 < l.rest.length + 1 := by
  rw [h, List.length_cons, List.length_append, spaces, List.length_replicate]
  omega

theorem runs_skipToToken_spaces {n fuel : Nat} (h : l.rest = spaces n ++ r) (hr : IsSolid r)
    (hf : n < fuel) : Runs (skipToToken fuel) l () (l.advance n) := by
  induction n generalizing l fuel with
  | zero =>
    have h : l.rest = r := h
    exact runs_skipToToken_solid (h ▸ hr) fuel
  | succ n ih =>
    obtain ⟨fuel, rfl⟩ := Nat.exists_eq_add_of_lt hf
    have h : l.rest = ' ' :: (spaces n ++ r) := h
    have hp := Lexer.peek_zero_eq h
    have hskip : Runs (skipToToken (n + 1 + fuel)) (l.advance 1) () ((l.advance 1).advance n) := by
      refine ih ?_ (by omega)
      simp [Lexer.advance, h]
    rw [Lexer.advance_advance, Nat.add_comm 1 n] at hskip
    refine .bind (runs_get l) ?_
    simp only [hp]
    exact .bind (runs_modify _ l) hskip

theorem runs_skipToToken_break {n fuel : Nat} (h : l.rest = '\n' :: (spaces n ++ r))
    (hr : IsSolid r) (hflow : l.flowLevel = 0) (hf : n + 1 < fuel) :
    Runs (skipToToken fuel) l () { l.newLine n with keyAllowed := true } := by
  obtain ⟨fuel, rfl⟩ := Nat.exists_eq_add_of_lt hf
  have hp := Lexer.peek_zero_eq h
  have hb : isBreak '\n' = true := rfl
  have hs : isSpace '\n' = false := rfl
  have ht : ('\n' == '\t') = false := rfl
  have hrest : (l.newLine 0).rest = spaces n ++ r := by simp [Lexer.newLine, h]
  refine .bind (runs_get l) ?_
  simp only [hp, hb, hs, ht, Bool.false_and, Bool.false_eq_true, if_false, if_true]
  refine .bind (runs_modify _ l) ?_
  rw [Lexer.advanceBreak_eq h, if_pos hflow]
  refine .bind (runs_allowKey true _) ?_
  have hskip : Runs (skipToToken (n + 1 + fuel)) { l.newLine 0 with keyAllowed := true } ()
      ({ l.newLine 0 with keyAllowed := true }.advance n) :=
    runs_skipToToken_spaces hrest hr (by omega)
  have hend : { l.newLine 0 with keyAllowed := true }.advance n
      = { l.newLine n with keyAllowed := true } := by
    have hmove := Lexer.newLine_advance (l := l) 0 n
    rw [Nat.zero_add] at hmove
    rw [← hmove]
    rfl
  exact hend ▸ hskip

theorem runs_skipToLineEnd_none {c : Char} (h : l.rest = c :: r) (hs : isSpace c = false)
    (hc : (c == '#') = false) (tabs : Bool) : Runs (skipToLineEnd tabs) l (false, false) l := by
  have hblank : (decide (c = ' ') || (tabs && decide (c = '\t'))) = false := by
    simp only [isSpace, Bool.or_eq_false_iff] at hs
    simp [hs.1, hs.2]
  have hnone : (l.rest.takeWhile fun c => c = ' ' || (tabs && c = '\t')) = [] := by
    rw [h, List.takeWhile_cons_of_neg]
    simp only [hblank, Bool.false_eq_true, not_false_eq_true]
  refine .bind (runs_get l) ?_
  simp only [hnone, List.length_nil]
  refine .bind (runs_modify _ l) (.bind (runs_peek 0 _) ?_)
  rw [Lexer.advance_zero, Lexer.peek_zero_eq h]
  simp only [hc, Bool.false_eq_true, if_false]
  exact runs_pure _ l

theorem runs_skipToLineEnd_blank (h : l.rest = ' ' :: r) (hr : IsSolid r) :
    Runs (skipToLineEnd true) l (false, true) (l.advance 1) := by
  have hrest : (l.advance 1).rest = r := by simp [Lexer.advance, h]
  have hs := isSolid_peek (hrest ▸ hr : IsSolid (l.advance 1).rest)
  have hone : (l.rest.takeWhile fun c => c = ' ' || (true && c = '\t')) = [' '] := by
    rw [h, List.takeWhile_cons_of_pos (by rfl)]
    cases r with
    | nil => rfl
    | cons c r =>
      have hc : isSpace c = false := isSpace_of_isSolid hr
      simp only [isSpace, Bool.or_eq_false_iff] at hc
      simp [hc.1, hc.2]
  refine .bind (runs_get l) ?_
  simp only [hone, List.length_singleton]
  refine .bind (runs_modify _ l) (.bind (runs_peek 0 _) ?_)
  simp only [ne_hash_of_isSolid hs, Bool.false_eq_true, if_false]
  exact runs_pure _ _

end Scan

end MeshRollout.Yaml

import MeshRollout.Proofs.Yaml.Spots
import MeshRollout.Proofs.Yaml.Styles

/-!
Reading plain scalars. Plain text is read word by word, and the blanks between two words are kept
once the second one is there.
-/
set_option autoImplicit false

namespace MeshRollout.Yaml
open Scan

section Words
variable {cs : List Char}

theorem hasMark_of_append {p q : Char} {a b : List Char} (h : hasMark p (a ++ q :: b) = false) :
    hasMark q b = false := by
  induction a generalizing p with
  | nil =>
    simp only [List.nil_append, hasMark, Bool.or_eq_false_iff] at h
    exact h.2
  | cons c a ih =>
    simp only [List.cons_append, hasMark, Bool.or_eq_false_iff] at h
    exact ih h.2

theorem spaces_succ (n : Nat) : spaces (n + 1) = spaces n ++ [' '] :=
  List.replicate_succ'

theorem spaces_succ_append (n : Nat) (cs : List Char) :
    spaces (n + 1) ++ cs = spaces n ++ ' ' :: cs := by
  rw [spaces_succ, List.append_assoc, List.singleton_append]

theorem exists_blanks (cs : List Char) :
    ∃ k more, cs = spaces k ++ more ∧ more.head? ≠ some ' ' := by
  induction cs with
  | nil => exact ⟨0, [], rfl, by simp⟩
  | cons c cs ih =>
    by_cases hc : c = ' '
    · obtain ⟨k, more, rfl, hmore⟩ := ih
      subst hc
      exact ⟨k + 1, more, rfl, hmore⟩
    · exact ⟨0, c :: cs, rfl, by simpa using hc⟩

theorem exists_words (cs : List Char) :
    ∃ w k more, cs = w ++ (spaces k ++ more) ∧ (∀ c ∈ w, c ≠ ' ') ∧ more.head? ≠ some ' ' ∧
      (k = 0 → more = []) := by
  have hsplit := (List.takeWhile_append_dropWhile (p := (· != ' ')) (l := cs)).symm
  obtain ⟨k, more, hrest, hmore⟩ := exists_blanks (cs.dropWhile (· != ' '))
  have hw : ∀ c ∈ cs.takeWhile (· != ' '), c ≠ ' ' := fun c hc => by
    simpa using List.all_eq_true.1 List.all_takeWhile c hc
  refine ⟨_, k, more, hrest ▸ hsplit, hw, hmore, ?_⟩
  rintro rfl
  have hrest : cs.dropWhile (· != ' ') = more := hrest
  cases more with
  | nil => rfl
  | cons c more =>
    have hc := List.head?_dropWhile_not (· != ' ') cs
    rw [hrest] at hc
    exact absurd (by simpa using hc) hmore

theorem exists_word (hne : cs ≠ []) (hfirst : cs.head? ≠ some ' ')
    (hlast : cs.getLast? ≠ some ' ') :
    ∃ w, w ≠ [] ∧ cs.takeWhile (· != ' ') = w ∧ (cs = w ∨
      ∃ k more, cs = w ++ (spaces (k + 1) ++ more) ∧ more ≠ [] ∧ more.head? ≠ some ' ') := by
  obtain ⟨w, k, more, rfl, hw, hmore, hk⟩ := exists_words cs
  have htake : (w ++ (spaces k ++ more)).takeWhile (· != ' ') = w := by
    rw [List.takeWhile_append_of_pos (fun c hc => by simpa using hw c hc)]
    cases k with
    | zero => simp [hk rfl, spaces]
    | succ k => simp [spaces, List.replicate_succ]
  refine ⟨w, ?_, htake, ?_⟩
  · rintro rfl
    cases k with
    | zero => exact hne (hk rfl)
    | succ k => exact hfirst rfl
  · cases k with
    | zero =>
      rw [hk rfl]
      exact .inl (List.append_nil w)
    | succ k =>
      refine .inr ⟨k, more, rfl, ?_, hmore⟩
      rintro rfl
      rw [spaces_succ] at hlast
      simp at hlast

end Words

def plainTurn (indent : Int) (fuel : Nat) (f : Folding) : Scan Folding := do
  let c ← peek 0
  if !(isSpace c || isBreak c) then return f
  let f ← plainGap indent (← Scan.fuel) f
  let l ← get
  if l.flowLevel = 0 && l.column < indent then return f
  plainLoop indent fuel f

section Plain
variable {l l' : Lexer} {indent : Int} {f f' : Folding} {R : List Char}

theorem runs_plainGap_blanks {k fuel : Nat} {c : Char} (h : l.rest = spaces k ++ c :: R)
    (hc : isGap c = false) (hline : l.atLineStart = false) (hf : k < fuel) :
    Runs (plainGap indent fuel f) l { f with blanks := spaces k ++ f.blanks } (l.advance k) := by
  induction k generalizing l f fuel with
  | zero =>
    obtain ⟨fuel, rfl⟩ := Nat.exists_eq_add_of_lt hf
    have hp : l.peek 0 = c := Lexer.peek_zero_eq h
    simp only [isGap, isBreakOrEnd, Bool.or_eq_false_iff] at hc
    refine .bind (runs_get l) ?_
    simp only [hp, hc.1, hc.2.1, Bool.false_eq_true, if_false]
    exact runs_pure f l
  | succ k ih =>
    obtain ⟨fuel, rfl⟩ := Nat.exists_eq_add_of_lt hf
    have h : l.rest = ' ' :: (spaces k ++ c :: R) := h
    have hp := Lexer.peek_zero_eq h
    have hnext : Runs (plainGap indent (k + 1 + fuel) (f.addBlank ' ')) (l.advance 1)
        { f with blanks := spaces k ++ ' ' :: f.blanks } ((l.advance 1).advance k) :=
      ih (by simp [Lexer.advance, h]) hline (by omega)
    rw [Lexer.advance_advance, Nat.add_comm 1 k] at hnext
    refine .bind (runs_get l) ?_
    have hs : isSpace ' ' = true := rfl
    simp only [hp, hs, hline, Bool.not_false, if_true]
    rw [spaces_succ_append]
    exact .bind (runs_modify _ l) hnext

theorem runs_plainGap_indent {k fuel : Nat} (h : l.rest = spaces k ++ R) (hR : IsSolid R)
    (hline : l.atLineStart = true) (hf : k < fuel) :
    Runs (plainGap indent fuel f) l f (l.advance k) := by
  induction k generalizing l fuel with
  | zero =>
    obtain ⟨fuel, rfl⟩ := Nat.exists_eq_add_of_lt hf
    have h : l.rest = R := h
    have hs := isSolid_peek (h ▸ hR : IsSolid l.rest)
    refine .bind (runs_get l) ?_
    simp only [isSpace_of_isSolid hs, isBreak_of_isSolid hs, Bool.false_eq_true, if_false]
    exact runs_pure f l
  | succ k ih =>
    obtain ⟨fuel, rfl⟩ := Nat.exists_eq_add_of_lt hf
    have h : l.rest = ' ' :: (spaces k ++ R) := h
    have hp := Lexer.peek_zero_eq h
    have hnext : Runs (plainGap indent (k + 1 + fuel) f) (l.advance 1) f
        ((l.advance 1).advance k) :=
      ih (by simp [Lexer.advance, h]) hline (by omega)
    rw [Lexer.advance_advance, Nat.add_comm 1 k] at hnext
    refine .bind (runs_get l) ?_
    have hs : isSpace ' ' = true := rfl
    have ht : (' ' == '\t') = false := rfl
    simp only [hp, hs, hline, ht, Bool.not_true, Bool.false_and, Bool.false_eq_true, if_false,
      if_true]
    exact .bind (runs_modify _ l) hnext

theorem runs_plainGap_break {k fuel : Nat} (h : l.rest = '\n' :: (spaces k ++ R)) (hR : IsSolid R)
    (hline : l.atLineStart = false) (hf : k + 1 < fuel) :
    Runs (plainGap indent fuel f) l (f.addBreak false) (l.newLine k) := by
  obtain ⟨fuel, rfl⟩ := Nat.exists_eq_add_of_lt hf
  have hp := Lexer.peek_zero_eq h
  have hb : isBreak '\n' = true := rfl
  have hs : isSpace '\n' = false := rfl
  have hnext : Runs (plainGap indent (k + 1 + fuel) (f.addBreak false)) (l.newLine 0)
      (f.addBreak false) ((l.newLine 0).advance k) :=
    runs_plainGap_indent (by simp [Lexer.newLine, h]) hR rfl (by omega)
  rw [Lexer.newLine_advance, Nat.zero_add] at hnext
  refine .bind (runs_get l) ?_
  simp only [hp, hs, hb, hline, Bool.false_eq_true, if_false, if_true]
  refine .bind (runs_modify _ l) ?_
  rw [Lexer.advanceBreak_eq h]
  exact hnext

theorem join_of_unbroken {newLine : Bool} (hblanks : newLine = true → f.blanks = [])
    (hbreak : f.lineBreak = false) (hmore : f.moreBreaks = 0) :
    f.join newLine = ⟨f.blanks ++ f.text, [], false, 0⟩ := by
  obtain ⟨text, blanks, lineBreak, moreBreaks⟩ := f
  simp only at hblanks hbreak hmore
  subst hbreak hmore
  cases newLine with
  | true => simp [Folding.join, hblanks rfl]
  | false => simp [Folding.join]

theorem runs_plainLoop_word {w : List Char} {fuel : Nat} (hw : w ≠ [])
    (hword : plainWord 0 l.rest = w) (hhash : (l.peek 0 == '#') = false) (hflow : l.flowLevel = 0)
    (hdoc : l.documentMark = false) (hblanks : l.atLineStart = true → f.blanks = [])
    (hbreak : f.lineBreak = false) (hmore : f.moreBreaks = 0)
    (hturn : Runs (plainTurn indent fuel ⟨w.reverse ++ (f.blanks ++ f.text), [], false, 0⟩)
      (l.pass w.length) f' l') :
    Runs (plainLoop indent (fuel + 1) f) l f' l' := by
  have hempty : w.isEmpty = false := by simpa using hw
  have hpos : 0 < w.length := List.length_pos_iff.2 hw
  refine .bind (runs_get l) ?_
  simp only [hdoc, hhash, Bool.or_self, Bool.false_eq_true, if_false]
  refine .bind (runs_require (by simp [hflow]) l) ?_
  simp only [hflow, hword, hempty, Bool.false_eq_true, if_false,
    join_of_unbroken hblanks hbreak hmore]
  refine .bind (runs_modify _ l) ?_
  rw [Lexer.advanceWord_of_pos hpos]
  exact hturn

theorem isGap_of_head {cs : List Char} (hcs : IsLine cs) (hfirst : cs.head? ≠ some ' ') {c : Char}
    {r : List Char} (h : cs = c :: r) : isGap c = false := by
  subst h
  exact isGap_eq_false hcs.head.1 hcs.head.2 (by simpa using hfirst)

theorem runs_plainTurn_blanks {k fuel : Nat} {c : Char} (h : l.rest = spaces (k + 1) ++ c :: R)
    (hc : isGap c = false) (hline : l.atLineStart = false) (hflow : l.flowLevel = 0)
    (hcol : indent ≤ (l.advance (k + 1)).column)
    (hloop : Runs (plainLoop indent fuel { f with blanks := spaces (k + 1) ++ f.blanks })
      (l.advance (k + 1)) f' l') :
    Runs (plainTurn indent fuel f) l f' l' := by
  have hgap : Runs (plainGap indent (l.rest.length + 1) f) l
      { f with blanks := spaces (k + 1) ++ f.blanks } (l.advance (k + 1)) :=
    runs_plainGap_blanks h hc hline (lt_length_of_spaces h)
  have hblank : l.peek 0 = ' ' := Lexer.peek_zero_eq (r := spaces k ++ c :: R) h
  have hs : isSpace ' ' = true := rfl
  have hflow' : (l.advance (k + 1)).flowLevel = 0 := hflow
  refine .bind (runs_peek 0 l) ?_
  simp only [hblank, hs, Bool.true_or, Bool.not_true, Bool.false_eq_true, if_false]
  refine .bind (runs_fuel l) (.bind hgap (.bind (runs_get _) ?_))
  simp only [hflow', decide_true, Bool.true_and, decide_eq_true_eq]
  rw [if_neg (by omega)]
  exact hloop

/-- A mark of a comment has a blank in front of it. -/
theorem head_ne_hash_of_hasMark {cs : List Char} (h : hasMark ' ' cs = false) :
    cs.head? ≠ some '#' := by
  cases cs with
  | nil => simp
  | cons c cs =>
    intro hc
    rw [show c = '#' by simpa using hc, hasMark] at h
    exact absurd h (by simp [isBlankEnd])

theorem runs_plainLoop {cs t : List Char} {p : Char} {fuel : Nat} (hcs : IsLine cs)
    (hne : cs ≠ []) (hfirst : cs.head? ≠ some ' ') (hhash : cs.head? ≠ some '#')
    (hlast : cs.getLast? ≠ some ' ') (hm : hasMark p cs = false) (ht : plainWord 0 t = [])
    (h : l.rest = cs ++ t) (hflow : l.flowLevel = 0) (hdoc : l.documentMark = false)
    (hblanks : l.atLineStart = true → f.blanks = []) (hbreak : f.lineBreak = false)
    (hmore : f.moreBreaks = 0) (hcol : indent ≤ l.column + 1) (hf : cs.length < fuel)
    (hturn : ∀ fuel, Runs (plainTurn indent fuel ⟨cs.reverse ++ (f.blanks ++ f.text), [], false, 0⟩)
      (l.pass cs.length) f' l') :
    Runs (plainLoop indent fuel f) l f' l' := by
  -- the text gets shorter by one word and the blanks behind it
  induction hn : cs.length using Nat.strongRecOn generalizing cs p l f fuel with
  | ind n ih =>
    subst hn
    obtain ⟨fuel, rfl⟩ := Nat.exists_eq_add_of_lt hf
    obtain ⟨w, hw, htake, hsplit⟩ := exists_word hne hfirst hlast
    have hword : plainWord 0 l.rest = w := by rw [h, plainWord_append hcs hm ht, htake]
    have hpeek : (l.peek 0 == '#') = false := by
      rw [Lexer.peek_zero, h]
      cases cs with
      | nil => exact absurd rfl hne
      | cons c cs => simpa using hhash
    refine runs_plainLoop_word hw hword hpeek hflow hdoc hblanks hbreak hmore ?_
    rcases hsplit with rfl | ⟨k, more, rfl, hmorene, hmorefirst⟩
    · exact hturn _
    · have hmark : hasMark ' ' more = false := by
        rw [spaces_succ, List.append_assoc, ← List.append_assoc] at hm
        exact hasMark_of_append hm
      have hline : IsLine more := hcs.of_suffix
        ((List.suffix_append _ _).trans (List.suffix_append _ _))
      obtain ⟨c, r, rfl⟩ := List.exists_cons_of_ne_nil hmorene
      have hrest : (l.pass w.length).rest = spaces (k + 1) ++ c :: (r ++ t) := by
        rw [Lexer.rest_pass w (r := spaces (k + 1) ++ c :: (r ++ t))]
        simpa using h
      have hmove : (l.pass w.length).advance (k + 1) = l.pass (w.length + (k + 1)) :=
        Lexer.pass_advance _ _ _
      have hright : indent ≤ (l.pass (w.length + (k + 1))).column := by
        simp only [Lexer.column, Lexer.pass, Lexer.advance] at hcol ⊢
        omega
      refine runs_plainTurn_blanks hrest (isGap_of_head hline hmorefirst rfl) rfl hflow
        (hmove ▸ hright) ?_
      rw [hmove]
      refine ih (c :: r).length ?_ hline hmorene hmorefirst (head_ne_hash_of_hasMark hmark) ?_ hmark
        ?_ hflow ?_ (fun h => by cases h) rfl rfl (by omega) ?_ ?_ rfl
      · simp [spaces]
        omega
      · simpa [spaces_succ] using hlast
      · rw [← hmove]
        simp [Lexer.advance, hrest, spaces]
      · simp [Lexer.documentMark, Lexer.pass, Lexer.advance]
      · simp [spaces]
        omega
      · intro fuel
        have hback : (w ++ (spaces (k + 1) ++ c :: r)).reverse ++ (f.blanks ++ f.text)
            = (c :: r).reverse ++ (spaces (k + 1) ++ [] ++ (w.reverse ++ (f.blanks ++ f.text))) := by
          simp [spaces]
        have hlen : w.length + (k + 1) + (c :: r).length
            = (w ++ (spaces (k + 1) ++ c :: r)).length := by
          simp [spaces]
          omega
        rw [Lexer.pass_pass, hlen, ← hback]
        exact hturn fuel

theorem runs_plainTurn_colon {fuel : Nat} (h : l.rest = ':' :: R) :
    Runs (plainTurn indent fuel f) l f l := by
  refine .bind (runs_peek 0 l) ?_
  rw [Lexer.peek_zero_eq h]
  exact runs_pure f l

/-- Text at the end of a line, before a line that is not part of it. -/
theorem runs_plainTurn_break {m fuel : Nat} (h : l.rest = '\n' :: (spaces m ++ R)) (hR : IsSolid R)
    (hline : l.atLineStart = false) (hflow : l.flowLevel = 0) (hm : (m : Int) < indent) :
    Runs (plainTurn indent fuel f) l (f.addBreak false) (l.newLine m) := by
  have hgap : Runs (plainGap indent (l.rest.length + 1) f) l (f.addBreak false) (l.newLine m) :=
    runs_plainGap_break h hR hline (lt_length_of_break h)
  refine .bind (runs_peek 0 l) ?_
  rw [Lexer.peek_zero_eq h]
  refine .bind (runs_fuel l) (.bind hgap (.bind (runs_get _) ?_))
  have hflow' : (l.newLine m).flowLevel = 0 := hflow
  have hm' : (l.newLine m).column < indent := hm
  simp only [hflow', hm', decide_true, Bool.and_self, if_true]
  exact runs_pure _ _

end Plain

namespace IsPlain
variable {cs : List Char} {c : Char} {r : List Char}

theorem leadMark (h : IsPlain (c :: r)) : isLeadMark c r.head? = false := by
  have hi := h.indicator
  simp only [hasIndicator, Bool.or_eq_false_iff] at hi
  exact hi.2.1

theorem not_mem_marks (h : IsPlain (c :: r)) :
    c ∉ "#,[]{}&*!|>\"%@`".toList ∧ c ≠ apostrophe := by
  have hl := h.leadMark
  simp only [isLeadMark, Bool.or_eq_false_iff] at hl
  exact ⟨by simpa using hl.1.1, by simpa using hl.1.2⟩

theorem not_gap (h : IsPlain (c :: r)) (hc : c = '?' ∨ c = ':' ∨ c = '-') :
    ∃ d r', r = d :: r' ∧ isGap d = false := by
  have hl := h.leadMark
  simp only [isLeadMark, Bool.or_eq_false_iff] at hl
  have hblank : isBlankEnd r.head? = false := by
    rcases hc with rfl | rfl | rfl <;> simpa using hl.2
  cases r with
  | nil => exact absurd hblank (by decide)
  | cons d r =>
    refine ⟨d, r, rfl, Bool.eq_false_iff.2 fun hd => ?_⟩
    rw [List.head?_cons, isBlankEnd_of_isGap hd] at hblank
    cases hblank

theorem head_ne_hash (h : IsPlain cs) : cs.head? ≠ some '#' := by
  obtain ⟨c, r, rfl⟩ := List.exists_cons_of_ne_nil h.ne_nil
  intro hc
  exact h.not_mem_marks.1 (by simpa using Or.inl (Option.some.inj hc))

theorem hasMark (h : IsPlain cs) (p : Char) : hasMark p cs = false := by
  obtain ⟨c, r, rfl⟩ := List.exists_cons_of_ne_nil h.ne_nil
  have hhash : (c == '#') = false := by simpa using h.head_ne_hash
  have hcolon : (c == ':' && isBlankEnd r.head?) = false := by
    refine Bool.eq_false_iff.2 fun hc => ?_
    simp only [Bool.and_eq_true, beq_iff_eq] at hc
    have hl := h.leadMark
    simp [isLeadMark, hc.1, hc.2] at hl
  have hi := h.indicator
  simp only [hasIndicator, Bool.or_eq_false_iff] at hi
  simp [Yaml.hasMark, hhash, hcolon, hi.2.2]

end IsPlain

section Scalar
variable {l l' : Lexer} {T : List Token} {bs : List Nat} {deeper : Bool} {cs t R : List Char}

theorem threeMarks_of_startsWith {c : Char} (h : l.rest = cs ++ t)
    (ht : t.headD (Char.ofNat 0) ≠ c) (hstart : Text.startsWith [c, c, c] cs = false) :
    l.threeMarks c = false := by
  refine Bool.eq_false_iff.2 fun hm => ?_
  simp only [Lexer.threeMarks, Bool.and_eq_true, beq_iff_eq, Lexer.peek, h] at hm
  obtain ⟨⟨⟨h0, h1⟩, h2⟩, -⟩ := hm
  match cs, h0, h1, h2, hstart with
  | [], h0, h1, h2, _ =>
    exact ht (by cases t <;> simpa using h0)
  | [a], h0, h1, h2, _ =>
    exact ht (by cases t <;> simpa using h1)
  | [a, b], h0, h1, h2, _ =>
    exact ht (by cases t <;> simpa using h2)
  | a :: b :: d :: r, h0, h1, h2, hstart =>
    simp only [List.cons_append, List.getElem?_cons_zero, List.getElem?_cons_succ,
      Option.getD_some] at h0 h1 h2
    subst h0 h1 h2
    simp [Text.startsWith, Text.dropLead?] at hstart

theorem documentMark_of_isPlain (hcs : IsPlain cs) (h : l.rest = cs ++ t)
    (ht : t.headD (Char.ofNat 0) = ':' ∨ t.headD (Char.ofNat 0) = '\n') :
    l.documentMark = false := by
  have hi := hcs.indicator
  have hd : "---".toList = ['-', '-', '-'] := rfl
  have hp : "...".toList = ['.', '.', '.'] := rfl
  simp only [hasIndicator, Bool.or_eq_false_iff, hd, hp] at hi
  have hne (c : Char) (hc : c ≠ ':') (hc' : c ≠ '\n') : t.headD (Char.ofNat 0) ≠ c := by
    rcases ht with ht | ht
    · exact fun he => hc (he.symm.trans ht)
    · exact fun he => hc' (he.symm.trans ht)
  have hdash := threeMarks_of_startsWith h (hne '-' (by decide) (by decide)) hi.1.1
  have hpoint := threeMarks_of_startsWith h (hne '.' (by decide) (by decide)) hi.1.2
  simp [Lexer.documentMark, hdash, hpoint]

theorem runs_takeToken_plain (hcs : IsPlain cs) (h : l.rest = cs ++ t)
    (hflow : l.flowLevel = 0) (hdeep : l.indent ≤ l.column) (hdoc : l.documentMark = false)
    (hrun : Runs (content plainScalar) l () l') : Runs takeToken l true l' := by
  obtain ⟨c, r, rfl⟩ := List.exists_cons_of_ne_nil hcs.ne_nil
  have hp : l.peek 0 = c := Lexer.peek_zero_eq h
  have hd : l.peek 1 = (r ++ t).headD (Char.ofNat 0) := Lexer.peek_one_eq h
  obtain ⟨hw, hb⟩ := hcs.line.head
  have hend := isEnd_eq_false hw hb
  obtain ⟨hmarks, happ⟩ := hcs.not_mem_marks
  have hgap (x : Char) (hx : x = '?' ∨ x = ':' ∨ x = '-') :
      (c == x && isGap (l.peek 1)) = false := by
    refine Bool.eq_false_iff.2 fun hc => ?_
    simp only [Bool.and_eq_true, beq_iff_eq] at hc
    obtain ⟨d, r', rfl, hd'⟩ := hcs.not_gap (hc.1 ▸ hx)
    have hg : isGap (l.peek 1) = false := hd ▸ hd'
    exact absurd hc.2 (by simp [hg])
  have hne (x : Char) (hx : x ∈ "#,[]{}&*!|>\"%@`".toList) : (c == x) = false :=
    beq_eq_false_iff_ne.2 fun hc => hmarks (hc ▸ hx)
  have hquote : (c == apostrophe) = false := beq_eq_false_iff_ne.2 happ
  have htick : (c.toNat == 0x60) = false := by
    refine beq_eq_false_iff_ne.2 fun hc => hmarks ?_
    rw [show c = '`' from Char.toNat_inj.1 hc]
    decide
  have hstart (x : Char) (hx : x = '-' ∨ x = '.') :
      (decide (l.mark.column = 0) && l.threeMarks x) = false := by
    simp only [Lexer.documentMark, Bool.and_eq_false_iff, Bool.or_eq_false_iff] at hdoc
    rw [Bool.and_eq_false_iff]
    rcases hdoc with hz | hz
    · exact .inl (by simpa using hz)
    · rcases hx with rfl | rfl
      · exact .inr hz.1
      · exact .inr hz.2
  have hcolon : (c == ':' && l.marksValue) = false := by
    simpa [Lexer.marksValue, hflow] using hgap ':' (by simp)
  refine .bind (runs_get l) ?_
  simp only [hp, hend, Bool.false_eq_true, if_false]
  refine .bind (runs_require (Lexer.not_column_lt hdeep) l) ?_
  simp only [hgap '?' (by simp), hgap '-' (by simp), hcolon, hquote, htick,
    hstart '-' (by simp), hstart '.' (by simp), hne '%' (by decide), hne '[' (by decide),
    hne '{' (by decide), hne ']' (by decide), hne '}' (by decide), hne ',' (by decide),
    hne '*' (by decide), hne '&' (by decide), hne '!' (by decide), hne '|' (by decide),
    hne '>' (by decide), hne '"' (by decide), hne '@' (by decide), Bool.and_false, Bool.or_false,
    Bool.false_and, Bool.false_eq_true, if_false]
  exact .bind (runs_require rfl l) (.bind hrun (runs_pure _ _))

def Lexer.plainStart (T : List Token) (bs : List Nat) (l : Lexer) : Lexer :=
  l.noted.framed T bs false

theorem runs_content_plain {f : Folding} (hcs : IsPlain cs) (h : l.rest = cs ++ t)
    (hf : l.Framed T bs deeper) (hdoc : l.documentMark = false) (ht : plainWord 0 t = [])
    (hdeep : level bs ≤ l.column) (htext : f.text = cs.reverse)
    (hturn : ∀ fuel, Runs (plainTurn (level bs + 1) fuel ⟨cs.reverse, [], false, 0⟩)
      ((l.plainStart T bs).pass cs.length) f l') :
    Runs (content plainScalar) l ()
      ({ l' with keyAllowed := l'.atLineStart || l'.keyAllowed }.push
        (.scalar true (String.ofList cs))) := by
  have hindent : (l.plainStart T bs).indent = level bs := by
    simp [Lexer.plainStart, Lexer.framed]
  have hrest : (l.plainStart T bs).rest = cs ++ t := h
  have hloop : Runs (plainLoop (level bs + 1) ((l.plainStart T bs).rest.length + 1) .empty)
      (l.plainStart T bs) f l' := by
    refine runs_plainLoop hcs.line hcs.ne_nil hcs.first hcs.head_ne_hash hcs.last
      (hcs.hasMark ' ') ht hrest hf.flowLevel hdoc (fun _ => rfl) rfl rfl
      (Int.add_le_add_right hdeep 1) ?_ ?_
    · rw [hrest, List.length_append]
      omega
    · intro fuel
      simpa [Folding.empty] using hturn fuel
  have hfull : f.text.isEmpty = false := by simpa [htext] using hcs.ne_nil
  refine .bind (runs_modify _ l) (.bind (runs_allowKey false _) ?_)
  rw [l.notePlace_noted]
  refine .bind (.bind (runs_modify _ _) ?_) (runs_modify _ _)
  rw [hf.noted.dropPlainIndents]
  change Runs _ (l.plainStart T bs) _ _
  refine .bind (runs_get _) ?_
  rw [hindent]
  refine .bind (runs_require ?_ _) (.bind (runs_fuel _) (.bind hloop (.bind (runs_get _) ?_)))
  · have hflow : (l.plainStart T bs).flowLevel = 0 := hf.flowLevel
    simp [hflow]
  · have hresult : f.result = String.ofList cs := by simp [Folding.result, htext]
    rcases Bool.eq_false_or_eq_true l'.atLineStart with hline | hline
    · have hkey : (l'.atLineStart || l'.keyAllowed) = true := by simp [hline]
      rw [if_pos hline, hkey]
      refine .bind (runs_allowKey true _) (.bind (runs_require (by simp [hfull]) _) ?_)
      rw [hresult]
      exact runs_pure _ _
    · have hkey : (l'.atLineStart || l'.keyAllowed) = l'.keyAllowed := by simp [hline]
      rw [if_neg (by simp [hline]), hkey]
      refine .bind (runs_require (by simp [hfull]) _) ?_
      rw [hresult]
      exact runs_pure _ _

theorem reads_plain {c m : Nat} {keyAllowed : Bool} (hcs : IsPlain cs) (hc : level bs < c)
    (hm : m ≤ level bs) (hR : IsSolid R) :
    Reads ⟨cs ++ '\n' :: (spaces m ++ R), c, T, bs, deeper, keyAllowed⟩
      (.onLine R m (.scalar true (String.ofList cs) :: T) bs false true) := by
  refine .of_line hc hm hR (by simp; omega) fun l hl => ?_
  have hdoc : l.documentMark = false := documentMark_of_isPlain hcs hl.rest (.inr rfl)
  have hcol : level bs ≤ l.column := by
    rw [Lexer.column, hl.column]
    exact Int.le_of_lt hc
  have hrest : ((l.plainStart T bs).pass cs.length).rest = '\n' :: (spaces m ++ R) :=
    Lexer.rest_pass _ hl.rest
  have hturn (fuel : Nat) : Runs (plainTurn (level bs + 1) fuel ⟨cs.reverse, [], false, 0⟩)
      ((l.plainStart T bs).pass cs.length) _ _ :=
    runs_plainTurn_break hrest hR rfl hl.framed.flowLevel (by omega)
  have hrun := runs_content_plain hcs hl.rest hl.framed hdoc rfl hcol rfl hturn
  refine ⟨_, runs_takeToken_plain hcs hl.rest hl.framed.flowLevel hl.deep hdoc hrun, ?_⟩
  have hstart : (l.plainStart T bs).Framed T bs false := hl.framed.noted.reframe T bs false
  exact {
    framed := by
      refine ⟨false, Lexer.Framed.pushed ?_ _⟩
      exact hstart.move rfl rfl rfl rfl rfl rfl
    rest := Lexer.rest_newLine hrest
    column := rfl
    line := Nat.lt_succ_self _
    keyAllowed := rfl
    keyPlaces := rfl }

end Scalar

end MeshRollout.Yaml

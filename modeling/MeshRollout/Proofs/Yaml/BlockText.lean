import MeshRollout.Proofs.Yaml.Spots
import MeshRollout.Proofs.Yaml.Styles

/-!
Reading literal blocks. What a block has given so far, with the line breaks that are pending, is always
the part of the text that has been passed.
-/
set_option autoImplicit false

namespace MeshRollout.Yaml
open Scan

def lineFeeds (k : Nat) : List Char :=
  List.replicate k '\n'

theorem lineFeeds_add (j k : Nat) : lineFeeds (j + k) = lineFeeds j ++ lineFeeds k :=
  (List.replicate_append_replicate ..).symm

namespace BlockText

def whole (b : BlockText) : List Char :=
  b.text.reverse ++ lineFeeds (b.breaks + if b.lineBreak then 1 else 0)

theorem whole_addLine (b : BlockText) (line : List Char) :
    (b.addLine true line).whole = b.whole ++ line := by
  simp [whole, addLine, lineFeeds]

theorem whole_break (b : BlockText) (line : List Char) (k : Nat) :
    { b.addLine true line with lineBreak := true, breaks := k : BlockText }.whole
      = b.whole ++ line ++ '\n' :: lineFeeds k := by
  rw [← whole_addLine]
  simp [whole, addLine, lineFeeds, List.replicate_succ]

end BlockText

namespace Lexer

structure WentDown (l l' : Lexer) (R : List Char) (m : Nat) : Prop where
  same : l' = { l with rest := R, mark := l'.mark, atLineStart := l'.atLineStart }
  column : l'.mark.column = m
  line : l.mark.line ≤ l'.mark.line

variable {l l' l'' : Lexer} {R R' : List Char} {m m' : Nat}

theorem WentDown.rest (h : l.WentDown l' R m) : l'.rest = R := by
  rw [h.same]

theorem WentDown.trans (h : l.WentDown l' R m) (h' : l'.WentDown l'' R' m') :
    l.WentDown l'' R' m' where
  same := by
    rw [h'.same, h.same]
  column := h'.column
  line := Nat.le_trans h.line h'.line

theorem wentDown_advance {cs : List Char} (h : l.rest = cs ++ R) :
    l.WentDown (l.advance cs.length) R (l.mark.column + cs.length) where
  same := by
    rw [← rest_advance _ h]
    rfl
  column := rfl
  line := Nat.le_refl _

theorem wentDown_break (h : l.rest = '\n' :: R) : l.WentDown l.advanceBreak R 0 := by
  have hrest : (l.newLine 0).rest = R := by
    rw [newLine, h]
    rfl
  rw [advanceBreak_eq h]
  exact {
    same := by
      rw [← hrest]
      rfl
    column := rfl
    line := Nat.le_succ _ }

end Lexer

theorem min_takeWhile_blank {n j : Nat} {Y : List Char} (hj : j = n ∨ j ≤ n ∧ Y.head? ≠ some ' ') :
    min ((spaces j ++ Y).takeWhile fun c => decide (c = ' ')).length n = j := by
  have hall : ∀ c ∈ spaces j, decide (c = ' ') = true := by simp [spaces]
  rw [List.takeWhile_append_of_pos hall, List.length_append, spaces, List.length_replicate]
  rcases hj with rfl | ⟨hj, hY⟩
  · omega
  · cases Y with
    | nil =>
      simp
      omega
    | cons c Y =>
      have hc : c ≠ ' ' := by simpa using hY
      simp [hc]
      omega

theorem lt_length_of_lineFeeds {k : Nat} {l : Lexer} {R : List Char}
    (h : l.rest = lineFeeds k ++ R) : k < l.rest.length + 1 := by
  rw [h, List.length_append, lineFeeds, List.length_replicate]
  omega

theorem exists_blockIndent {n j k fuel : Nat} {l : Lexer} {Y : List Char}
    (h : l.rest = lineFeeds k ++ (spaces j ++ Y)) (hcol : l.mark.column = 0)
    (hj : j = n ∨ j ≤ n ∧ Y.head? ≠ some ' ') (hY : isBreak (Y.headD (Char.ofNat 0)) = false)
    (hf : k < fuel) (breaks : Nat) :
    ∃ l', Runs (blockIndent n fuel breaks) l (breaks + k) l' ∧ l.WentDown l' Y j := by
  induction k generalizing l breaks fuel with
  | zero =>
    obtain ⟨fuel, rfl⟩ := Nat.exists_eq_add_of_lt hf
    have h : l.rest = spaces j ++ Y := h
    have hlen : (spaces j).length = j := List.length_replicate
    have hdown := Lexer.wentDown_advance h
    rw [hlen, hcol, Nat.zero_add] at hdown
    have hmin := min_takeWhile_blank hj
    refine ⟨l.advance j, ?_, hdown⟩
    refine .bind (runs_get l) (.bind (runs_modify _ l) ?_)
    rw [h, hcol, Nat.sub_zero, hmin]
    refine .bind (runs_peek 0 _) ?_
    rw [Lexer.peek_zero, hdown.rest]
    simp only [hY, Bool.false_eq_true, if_false]
    exact runs_pure _ _
  | succ k ih =>
    obtain ⟨fuel, rfl⟩ := Nat.exists_eq_add_of_lt hf
    have h : l.rest = '\n' :: (lineFeeds k ++ (spaces j ++ Y)) := h
    have hdown := Lexer.wentDown_break h
    obtain ⟨l', hrun, hdown'⟩ := ih hdown.rest hdown.column (show k < k + 1 + fuel by omega)
      (breaks + 1)
    refine ⟨l', ?_, hdown.trans hdown'⟩
    have hnone : l.rest.takeWhile (fun c => decide (c = ' ')) = [] := by rw [h]; rfl
    have hbreak : isBreak '\n' = true := rfl
    refine .bind (runs_get l) (.bind (runs_modify _ l) ?_)
    rw [hnone, List.length_nil, Nat.zero_min, Lexer.advance_zero]
    refine .bind (runs_peek 0 _) ?_
    rw [Lexer.peek_zero_eq h]
    simp only [hbreak, if_true]
    rw [show breaks + 1 + k = breaks + (k + 1) by omega] at hrun
    exact .bind (runs_modify _ _) hrun

inductive ClosedLines : List Char → Prop where
  | breaks (k : Nat) : ClosedLines (lineFeeds k)
  | line (k : Nat) {line r : List Char} (hne : line ≠ []) (h : IsLine line) (hr : ClosedLines r) :
    ClosedLines (lineFeeds k ++ (line ++ '\n' :: r))

section Indented
variable {n k : Nat} {line r : List Char}

theorem indented_break (fresh : Bool) (r : List Char) :
    indented n fresh ('\n' :: r) = '\n' :: indented n true r := by
  rw [indented, if_pos (by decide)]

theorem indented_lineFeeds (n k : Nat) (r : List Char) :
    indented n true (lineFeeds k ++ r) = lineFeeds k ++ indented n true r := by
  induction k with
  | zero => rfl
  | succ k ih =>
    rw [lineFeeds, List.replicate_succ, List.cons_append, indented_break]
    exact congrArg ('\n' :: ·) ih

theorem indented_started (h : IsLine line) (r : List Char) :
    indented n false (line ++ '\n' :: r) = line ++ '\n' :: indented n true r := by
  induction line with
  | nil => exact indented_break false r
  | cons c line ih =>
    rw [List.cons_append, indented, if_neg (by simp [h.head.2])]
    exact congrArg (c :: ·) (ih h.tail)

theorem indented_line (hne : line ≠ []) (h : IsLine line) (r : List Char) :
    indented n true (line ++ '\n' :: r) = spaces n ++ (line ++ '\n' :: indented n true r) := by
  obtain ⟨c, line, rfl⟩ := List.exists_cons_of_ne_nil hne
  rw [List.cons_append, indented, if_neg (by simp [h.head.2]), indented_started h.tail]
  rfl

theorem length_le_indented (n : Nat) (fresh : Bool) (r : List Char) :
    r.length ≤ (indented n fresh r).length := by
  induction r generalizing fresh with
  | nil => exact Nat.le_refl 0
  | cons c r ih =>
    rw [indented]
    split
    · exact Nat.succ_le_succ (ih true)
    · have hle := ih false
      simp only [List.length_append, List.length_cons]
      omega

theorem ClosedLines.headD_indented {cs : List Char} (h : ClosedLines cs) (hne : cs ≠ [])
    (n : Nat) (Y : List Char) :
    (indented (n + 1) true cs ++ Y).headD (Char.ofNat 0) ≠ '\t' := by
  have hbreak (k : Nat) (r : List Char) :
      (indented (n + 1) true (lineFeeds (k + 1) ++ r) ++ Y).headD (Char.ofNat 0) ≠ '\t' := by
    rw [indented_lineFeeds]
    exact nofun
  cases h with
  | breaks k =>
    cases k with
    | zero => exact absurd rfl hne
    | succ k =>
      rw [← List.append_nil (lineFeeds (k + 1))]
      exact hbreak k []
  | line k hne' hline hr =>
    cases k with
    | zero =>
      rw [indented_lineFeeds, indented_line hne' hline]
      exact nofun
    | succ k => exact hbreak k _

end Indented

theorem IsLine.takeWhile {line : List Char} (h : IsLine line) (r : List Char) :
    (line ++ '\n' :: r).takeWhile (fun c => !isBreakOrEnd c) = line := by
  have hline : ∀ c ∈ line, (!isBreakOrEnd c) = true := fun c hc => by
    obtain ⟨hw, hb⟩ := h c hc
    simp [isBreakOrEnd, isBreak_eq_false hw hb, isEnd_eq_false hw hb]
  rw [List.takeWhile_append_of_pos hline, List.takeWhile_cons_of_neg (by decide), List.append_nil]

theorem exists_blockLoop_step {n j k : Nat} {l : Lexer} {line Y : List Char} {b : BlockText}
    (hne : line ≠ []) (hline : IsLine line) (hcol : l.mark.column = n) (hn : n ≠ 0)
    (h : l.rest = line ++ '\n' :: (lineFeeds k ++ (spaces j ++ Y)))
    (hj : j = n ∨ j ≤ n ∧ Y.head? ≠ some ' ') (hY : isBreak (Y.headD (Char.ofNat 0)) = false)
    (fuel : Nat) :
    ∃ l₁, l.WentDown l₁ Y j ∧ ∀ (x : BlockText) (l' : Lexer),
      Runs (blockLoop true n fuel { b.addLine true line with lineBreak := true, breaks := k }) l₁ x
        l' → Runs (blockLoop true n (fuel + 1) b) l x l' := by
  have hdown := Lexer.wentDown_advance h
  have hdown' := Lexer.wentDown_break hdown.rest
  have hfuel : k < (l.advance line.length).advanceBreak.rest.length + 1 := by
    rw [hdown'.rest]
    simp only [lineFeeds, List.length_append, List.length_replicate]
    omega
  obtain ⟨l₁, hindent, hdown₁⟩ := exists_blockIndent hdown'.rest hdown'.column hj hY hfuel
    0
  refine ⟨l₁, (hdown.trans hdown').trans hdown₁, fun x l' hrun => ?_⟩
  have hstart : (decide (l.mark.column ≠ n) || isEnd (l.peek 0)) = false := by
    obtain ⟨c, r, rfl⟩ := List.exists_cons_of_ne_nil hne
    rw [Lexer.peek_zero_eq h, isEnd_eq_false hline.head.1 hline.head.2]
    simp [hcol]
  have hzero : decide (n = 0) = false := by simpa using hn
  have hend : isEnd '\n' = false := rfl
  refine .bind (runs_get l) ?_
  simp only [hstart, hzero, Bool.false_and, Bool.false_eq_true, if_false]
  rw [h, hline.takeWhile]
  refine .bind (runs_modify _ l) (.bind (runs_peek 0 _) ?_)
  rw [Lexer.peek_zero_eq hdown.rest]
  simp only [hend, Bool.false_eq_true, if_false]
  refine .bind (runs_modify _ _) (.bind (runs_fuel _) (.bind hindent ?_))
  rw [Nat.zero_add]
  exact hrun

theorem runs_blockLoop_end {n : Nat} {l : Lexer} (hcol : l.mark.column ≠ n) (fuel : Nat)
    (b : BlockText) : Runs (blockLoop true n fuel b) l b l := by
  cases fuel with
  | zero => exact runs_pure b l
  | succ fuel =>
    refine .bind (runs_get l) ?_
    simp only [hcol, ne_eq, not_false_eq_true, decide_true, Bool.true_or, if_true]
    exact runs_pure b l

theorem IsSolid.head? {R : List Char} (h : IsSolid R) : R.head? ≠ some ' ' := by
  intro hR
  obtain ⟨r, rfl⟩ := List.head?_eq_some_iff.1 hR
  cases h

theorem exists_blockLoop {n m fuel : Nat} {l : Lexer} {line r R : List Char} {b : BlockText}
    (hne : line ≠ []) (hline : IsLine line) (hr : ClosedLines r) (hcol : l.mark.column = n)
    (h : l.rest = line ++ '\n' :: (indented n true r ++ (spaces m ++ R))) (hm : m < n)
    (hR : IsSolid R) (hf : r.length + 1 < fuel) :
    ∃ l' b', Runs (blockLoop true n fuel b) l b' l' ∧ l.WentDown l' R m ∧
      b'.whole = b.whole ++ (line ++ '\n' :: r) ∧ b'.lineBreak = true := by
  have hn : n ≠ 0 := by omega
  induction hr generalizing l b line fuel with
  | breaks k =>
    obtain ⟨fuel, rfl⟩ := Nat.exists_eq_add_of_lt hf
    rw [← List.append_nil (lineFeeds k), indented_lineFeeds, indented, List.append_nil] at h
    obtain ⟨l₁, hdown, hstep⟩ := exists_blockLoop_step (b := b) hne hline hcol hn h
      (.inr ⟨Nat.le_of_lt hm, hR.head?⟩) (isBreak_of_isSolid hR) ((lineFeeds k).length + 1 + fuel)
    have hout : l₁.mark.column ≠ n := by
      rw [hdown.column]
      omega
    refine ⟨l₁, _, hstep _ _ (runs_blockLoop_end hout _ _), hdown, ?_, rfl⟩
    rw [BlockText.whole_break, List.append_assoc]
  | @line k line' r hne' hline' hr' ih =>
    obtain ⟨fuel, rfl⟩ := Nat.exists_eq_add_of_lt hf
    rw [indented_lineFeeds, indented_line hne' hline'] at h
    have hbreak : isBreak ((line' ++ '\n' :: (indented n true r ++ (spaces m ++ R))).headD
        (Char.ofNat 0)) = false := by
      obtain ⟨c, line', rfl⟩ := List.exists_cons_of_ne_nil hne'
      exact isBreak_eq_false hline'.head.1 hline'.head.2
    obtain ⟨l₁, hdown, hstep⟩ := exists_blockLoop_step (j := n) (k := k) (b := b) hne hline
      hcol hn (by simpa using h) (.inl rfl) hbreak
      ((lineFeeds k ++ (line' ++ '\n' :: r)).length + 1 + fuel)
    obtain ⟨l', b', hrun, hdown', hwhole, hflag⟩ := ih hne' hline' hdown.column hdown.rest
      (by simp; omega : r.length + 1 < (lineFeeds k ++ (line' ++ '\n' :: r)).length + 1 + fuel)
    refine ⟨l', b', hstep _ _ hrun, hdown.trans hdown', ?_, hflag⟩
    rw [hwhole, BlockText.whole_break]
    simp

/-- What becomes of the breaks at the end of a text, and the text with a break at its end. -/
inductive Chomps : Chomping → List Char → List Char → Prop where
  | strip {cs : List Char} (hne : cs ≠ []) (h : cs.getLast? ≠ some '\n') :
    Chomps .strip cs (cs ++ ['\n'])
  | clip {cs : List Char} (hne : cs ≠ []) (h : cs.getLast? ≠ some '\n') :
    Chomps .clip (cs ++ ['\n']) (cs ++ ['\n'])
  | keep (cs : List Char) : Chomps .keep cs cs

def BlockText.chomped (ch : Chomping) (b : BlockText) : List Char :=
  let final := if ch = .strip then [] else if b.lineBreak then ['\n'] else []
  b.text.reverse ++ final ++ if ch = .keep then lineFeeds b.breaks else []

theorem eq_of_append_lineFeeds {t cs : List Char} {k : Nat}
    (h : t ++ lineFeeds (k + 1) = cs ++ ['\n']) (hlast : cs.getLast? ≠ some '\n') :
    t = cs ∧ k = 0 := by
  rw [lineFeeds, List.replicate_succ', ← List.append_assoc] at h
  have h := List.append_cancel_right h
  cases k with
  | zero => exact ⟨by simpa using h, rfl⟩
  | succ k =>
    rw [← h, List.replicate_succ', ← List.append_assoc] at hlast
    simp at hlast

theorem Chomps.chomped_eq {ch : Chomping} {cs closed : List Char} {b : BlockText}
    (h : Chomps ch cs closed) (hwhole : b.whole = closed) (hb : b.lineBreak = true) :
    b.chomped ch = cs := by
  simp only [BlockText.whole, hb, if_true] at hwhole
  simp only [BlockText.chomped, hb, if_true]
  cases h with
  | strip _ hlast =>
    obtain ⟨ht, hzero⟩ := eq_of_append_lineFeeds hwhole hlast
    simp [ht]
  | clip _ hlast =>
    obtain ⟨ht, hzero⟩ := eq_of_append_lineFeeds hwhole hlast
    simp [ht]
  | keep =>
    rw [← hwhole, Nat.add_comm b.breaks 1, lineFeeds_add]
    simp [lineFeeds]

/-- Of a text of nothing but breaks all are kept. -/
theorem Chomps.eq_keep {ch : Chomping} {cs : List Char} {k : Nat} (h : Chomps ch cs (lineFeeds k)) :
    ch = .keep ∧ cs = lineFeeds k := by
  have hstop {cs : List Char} (hne : cs ≠ []) (hlast : cs.getLast? ≠ some '\n')
      (hc : lineFeeds k = cs ++ ['\n']) : False := by
    cases k with
    | zero => simp [lineFeeds] at hc
    | succ k => exact hne (eq_of_append_lineFeeds (t := []) hc hlast).1.symm
  generalize hc : lineFeeds k = closed at h
  cases h with
  | strip hne hlast => exact (hstop hne hlast hc).elim
  | clip hne hlast => exact (hstop hne hlast hc).elim
  | keep => exact ⟨rfl, rfl⟩

def Chomping.mark : Chomping → List Char
  | .strip => ['-']
  | .clip => []
  | .keep => ['+']

def blockMarks (wide : Bool) (ch : Chomping) : List Char :=
  (if wide then ['2'] else []) ++ ch.mark

section Header
variable {l : Lexer} {Y : List Char}

theorem runs_blockIncrement_none {c : Char} (h : l.rest = c :: Y)
    (hc : Numeral.isDigit c = false) : Runs blockIncrement l 0 l := by
  refine .bind (runs_peek 0 l) ?_
  rw [Lexer.peek_zero_eq h]
  simp only [hc, Bool.false_eq_true, if_false]
  exact runs_pure 0 l

theorem runs_blockIncrement_two (h : l.rest = '2' :: Y) :
    Runs blockIncrement l 2 (l.advanceWord 1) := by
  have hdigit : Numeral.isDigit '2' = true := rfl
  refine .bind (runs_peek 0 l) ?_
  rw [Lexer.peek_zero_eq h]
  simp only [hdigit, if_true]
  exact .bind (runs_require rfl l) (.bind (runs_modify _ l) (runs_pure 2 _))

theorem runs_blockHeader (wide : Bool) (ch : Chomping) (hline : l.atLineStart = false)
    (h : l.rest = blockMarks wide ch ++ '\n' :: Y) :
    Runs blockHeader l (ch, if wide then 2 else 0) (l.pass (blockMarks wide ch).length) := by
  rw [← Lexer.advanceWord_eq_pass hline]
  have hnone (l : Lexer) (h : l.rest = '\n' :: Y) : Runs blockIncrement l 0 l :=
    runs_blockIncrement_none h rfl
  have hrest : (l.advanceWord (blockMarks wide ch).length).rest = '\n' :: Y := by
    rw [Lexer.advanceWord_eq_pass hline]
    exact Lexer.rest_pass _ h
  refine .bind (runs_peek 0 l) ?_
  cases wide with
  | false =>
    cases ch with
    | clip =>
      rw [Lexer.peek_zero_eq h]
      refine .bind (hnone l h) (.bind (runs_peek 0 l) ?_)
      rw [Lexer.peek_zero_eq h]
      exact runs_pure _ l
    | strip | keep =>
      rw [Lexer.peek_zero_eq h]
      exact .bind (runs_modify _ l) (.bind (hnone _ hrest) (runs_pure _ _))
  | true =>
    have htwo : l.rest = '2' :: (ch.mark ++ '\n' :: Y) := h
    have hrest₁ : (l.advanceWord 1).rest = ch.mark ++ '\n' :: Y := by
      rw [Lexer.advanceWord_eq_pass hline]
      exact Lexer.rest_pass ['2'] htwo
    rw [Lexer.peek_zero_eq htwo]
    refine .bind (runs_blockIncrement_two htwo) (.bind (runs_peek 0 _) ?_)
    cases ch with
    | clip =>
      rw [Lexer.peek_zero_eq hrest₁]
      exact runs_pure _ _
    | strip | keep =>
      have htwice := Lexer.advanceWord_advanceWord 1 1 l
      rw [Lexer.peek_zero_eq hrest₁]
      exact htwice ▸ .bind (runs_modify _ _) (runs_pure _ _)

end Header

def blockRest (ch : Chomping) (startLine : Nat) (lineBreak : Bool) (outer : Int)
    (indent breaks : Nat) : Scan Token := do
  let l ← get
  if isEnd (l.peek 0) then
    return .scalar false (emptyBlock ch (l.mark.line == startLine) lineBreak breaks)
  require !(l.mark.column < indent && l.column > outer)
  let b ← blockLoop true indent (← Scan.fuel) ⟨[], false, breaks, false⟩
  let l ← get
  let final :=
    if ch = .strip then []
    else
      (if b.lineBreak then ['\n'] else [])
        ++ (if isEnd (l.peek 0) && l.mark.column ≥ max indent 1 then ['\n'] else [])
  let kept := if ch = .keep then List.replicate b.breaks '\n' else []
  return .scalar false (String.ofList (b.text.reverse ++ final ++ kept))

section Rest
variable {l l' : Lexer} {ch : Chomping} {cs line r R : List Char} {n m k startLine : Nat} {outer : Int}
  {b : BlockText}

theorem runs_blockRest {breaks : Nat} (hend : isEnd (l.peek 0) = false)
    (hout : l.mark.column = n ∨ l.column ≤ outer)
    (hloop : Runs (blockLoop true n (l.rest.length + 1) ⟨[], false, breaks, false⟩) l b l')
    (hcol : l'.mark.column < n) (htext : b.chomped ch = cs) :
    Runs (blockRest ch startLine true outer n breaks) l (.scalar false (String.ofList cs)) l' := by
  have hleft : (isEnd (l'.peek 0) && decide (l'.mark.column ≥ max n 1)) = false := by
    rw [Bool.and_eq_false_iff]
    right
    simp only [decide_eq_false_iff_not]
    omega
  refine .bind (runs_get l) ?_
  simp only [hend, Bool.false_eq_true, if_false]
  refine .bind (runs_require ?_ l) (.bind (runs_fuel l) (.bind hloop (.bind (runs_get l') ?_)))
  · simp only [Bool.not_eq_true', Bool.and_eq_false_iff, decide_eq_false_iff_not]
    omega
  · simp only [hleft, Bool.false_eq_true, if_false, List.append_nil]
    rw [← htext]
    exact runs_pure _ _

theorem runs_blockRest_breaks (hline : l.mark.line ≠ startLine) (hm : l.mark.column < n)
    (hout : l.column ≤ outer) :
    Runs (blockRest .keep startLine true outer n (k + 1)) l
      (.scalar false (String.ofList (lineFeeds (k + 1)))) l := by
  cases hend : isEnd (l.peek 0) with
  | false =>
    refine runs_blockRest hend (.inr hout) (runs_blockLoop_end (by omega) _ _) hm ?_
    simp [BlockText.chomped]
  | true =>
    have hsame : (l.mark.line == startLine) = false := beq_eq_false_iff_ne.2 hline
    refine .bind (runs_get l) ?_
    simp only [hend, hsame, if_true]
    exact runs_pure _ l

theorem exists_blockRest_lines {closed : List Char} (hch : Chomps ch cs closed)
    (hclosed : closed = lineFeeds k ++ (line ++ '\n' :: r)) (hne : line ≠ []) (hline : IsLine line)
    (hr : ClosedLines r) (hcol : l.mark.column = n)
    (h : l.rest = line ++ '\n' :: (indented n true r ++ (spaces m ++ R))) (hm : m < n)
    (hR : IsSolid R) (startLine : Nat) (outer : Int) :
    ∃ l', Runs (blockRest ch startLine true outer n k) l (.scalar false (String.ofList cs)) l' ∧
      l.WentDown l' R m := by
  have hend : isEnd (l.peek 0) = false := by
    obtain ⟨c, line, rfl⟩ := List.exists_cons_of_ne_nil hne
    rw [Lexer.peek_zero_eq h]
    exact isEnd_eq_false hline.head.1 hline.head.2
  have hfuel : r.length + 1 < l.rest.length + 1 := by
    have hle := length_le_indented n true r
    rw [h]
    simp only [List.length_append, List.length_cons]
    omega
  obtain ⟨l', b', hloop, hdown, hwhole, hflag⟩ :=
    exists_blockLoop (b := ⟨[], false, k, false⟩) hne hline hr hcol h hm hR hfuel
  refine ⟨l', runs_blockRest hend (.inl hcol) hloop (by rw [hdown.column]; exact hm) ?_, hdown⟩
  refine hch.chomped_eq ?_ hflag
  rw [hwhole, hclosed]
  simp [BlockText.whole]

end Rest

section Scalar
variable {l l' : Lexer} {ch : Chomping} {cs closed R Y : List Char} {T : List Token} {bs : List Nat}
  {b m : Nat} {deeper wide : Bool}

def Lexer.inBlock (T : List Token) (bs : List Nat) (marks : List Char) (l : Lexer) : Lexer :=
  (((l.pass 1).framed T bs false).pass marks.length).advanceBreak

theorem rest_inBlock {marks : List Char} (h : l.rest = '|' :: (marks ++ '\n' :: Y)) :
    (l.inBlock T bs marks).rest = Y := by
  have h₁ : ((l.pass 1).framed T bs false).rest = marks ++ '\n' :: Y :=
    Lexer.rest_pass ['|'] h
  exact (Lexer.wentDown_break (Lexer.rest_pass _ h₁)).rest

theorem wentDown_inBlock (bs : List Nat) {marks : List Char} (h : l.rest = '|' :: (marks ++ '\n' :: Y)) :
    (l.framed T bs false).WentDown (l.inBlock T bs marks) Y 0 ∧
      (l.inBlock T bs marks).mark.line = l.mark.line + 1 := by
  have h₁ : ((l.pass 1).framed T bs false).rest = marks ++ '\n' :: Y :=
    Lexer.rest_pass ['|'] h
  have h₂ := Lexer.rest_pass _ h₁
  have hrest : (l.inBlock T bs marks).rest = Y := rest_inBlock h
  rw [Lexer.inBlock, Lexer.advanceBreak_eq h₂] at hrest ⊢
  exact ⟨⟨by rw [← hrest]; rfl, rfl, Nat.le_succ _⟩, rfl⟩

theorem runs_blockScalar {l₁ L : Lexer} {k : Nat} {t : Token}
    (hf : l.Framed T (b :: bs) deeper) (hL : l.inBlock T (b :: bs) (blockMarks wide ch) = L)
    (h : l.rest = '|' :: (blockMarks wide ch ++ '\n' :: Y)) (hY : Y.headD (Char.ofNat 0) ≠ '\t')
    (hindent : if wide then Runs (blockIndent (b + 2) (L.rest.length + 1) 0) L k l₁
      else Runs (blockFirstIndent (L.rest.length + 1) 0 0) L (b + 2, k) l₁)
    (hrest : Runs (blockRest ch l.mark.line true b (b + 2) k) l₁ t l') :
    Runs (blockScalar true) l t l' := by
  have hf₁ : (l.pass 1).Framed T (b :: bs) deeper := hf.move rfl rfl rfl rfl rfl rfl
  have h₁ : ((l.pass 1).framed T (b :: bs) false).rest = blockMarks wide ch ++ '\n' :: Y :=
    Lexer.rest_pass ['|'] h
  have hheader := runs_blockHeader wide ch rfl h₁
  have h₂ : (((l.pass 1).framed T (b :: bs) false).pass (blockMarks wide ch).length).rest
      = '\n' :: Y := Lexer.rest_pass _ h₁
  have hYL : L.rest = Y := by
    rw [← hL]
    exact rest_inBlock h
  have houter : L.indent = b := by
    rw [← hL, Lexer.inBlock, Lexer.advanceBreak_eq h₂]
    simp [Lexer.newLine, Lexer.pass, Lexer.advance, Lexer.framed, level]
  refine .bind (runs_get l) (.bind (runs_modify _ l) ?_)
  rw [Lexer.advanceWord_of_pos Nat.one_pos]
  refine .bind (runs_modify _ _) ?_
  rw [hf₁.dropPlainIndents]
  refine .bind hheader (.bind (runs_skipToLineEnd_none h₂ rfl rfl true) (.bind (runs_peek 0 _) ?_))
  rw [Lexer.peek_zero_eq h₂]
  refine .bind (runs_require rfl _) (.bind (runs_peek 0 _) (.bind (runs_modify _ _) ?_))
  change Runs _ (l.inBlock T (b :: bs) (blockMarks wide ch)) _ _
  rw [hL]
  refine .bind (runs_peek 0 L) (.bind (runs_require ?_ L) (.bind (runs_get L) ?_))
  · rw [Lexer.peek_zero, hYL]
    simpa using hY
  rw [Lexer.peek_zero_eq h₂, houter]
  cases wide with
  | true =>
    have hfixed : (max (b : Int) 0).toNat + 2 = b + 2 := by omega
    simp only [if_true, Nat.reduceEqDiff, if_false, hfixed] at hindent ⊢
    exact .bind (runs_fuel L) (.bind hindent (.bind (runs_pure _ _) hrest))
  | false =>
    have hdeepest : max (b + 2) ((b : Int) + 1).toNat = b + 2 := by omega
    simp only [Bool.false_eq_true, if_false, if_true] at hindent ⊢
    refine .bind (runs_fuel L) (.bind hindent (.bind (runs_pure _ _) ?_))
    simp only [hdeepest]
    exact hrest

/-- Blanks in front of the first line show how far a block is indented. -/
theorem runs_blockFirstIndent {n fuel : Nat} (h : l.rest = spaces n ++ Y)
    (hcol : l.mark.column = 0) (hY : Y.head? ≠ some ' ')
    (hY' : isBreak (Y.headD (Char.ofNat 0)) = false) (hf : 0 < fuel) :
    Runs (blockFirstIndent fuel 0 0) l (n, 0) (l.advance n) := by
  obtain ⟨fuel, rfl⟩ := Nat.exists_eq_add_of_lt hf
  have hlen : (l.rest.takeWhile fun c => decide (c = ' ')).length = n := by
    have hall : ∀ c ∈ spaces n, decide (c = ' ') = true := by simp [spaces]
    have hstop : Y.takeWhile (fun c => decide (c = ' ')) = [] := by
      cases Y with
      | nil => rfl
      | cons c Y =>
        have hc : c ≠ ' ' := by simpa using hY
        simp [hc]
    rw [h, List.takeWhile_append_of_pos hall, hstop]
    simp [spaces]
  have hrest := (Lexer.wentDown_advance h).rest
  rw [show (spaces n).length = n from List.length_replicate] at hrest
  have hcolumn : (l.advance n).mark.column = n := by simp [Lexer.advance, hcol]
  rw [Nat.zero_add]
  refine .bind (runs_get l) (.bind (runs_modify _ l) ?_)
  rw [hlen]
  refine .bind (runs_get _) (.bind (runs_peek 0 _) ?_)
  rw [Lexer.peek_zero, hrest, hcolumn]
  simp only [hY', Bool.false_eq_true, if_false, Nat.zero_max]
  exact runs_pure _ _

theorem head?_of_narrow {k : Nat} {line r : List Char} (hne : line ≠ [])
    (h : ((lineFeeds k ++ (line ++ r)).head? == some ' '
      || (lineFeeds k ++ (line ++ r)).head? == some '\n') = false) :
    k = 0 ∧ line.head? ≠ some ' ' := by
  obtain ⟨c, more, rfl⟩ := List.exists_cons_of_ne_nil hne
  cases k with
  | zero =>
    have hfirst : (c == ' ' || c == '\n') = false := by simpa [lineFeeds] using h
    exact ⟨rfl, by simp_all⟩
  | succ k => simp [lineFeeds, List.replicate_succ] at h

theorem exists_blockStart {k : Nat} {line : List Char} (hline : IsLine line) (hne : line ≠ [])
    (h : l.rest = lineFeeds k ++ (spaces (b + 2) ++ (line ++ Y))) (hcol : l.mark.column = 0)
    (hnarrow : wide = false → k = 0 ∧ line.head? ≠ some ' ') :
    ∃ l₁, (if wide then Runs (blockIndent (b + 2) (l.rest.length + 1) 0) l k l₁
        else Runs (blockFirstIndent (l.rest.length + 1) 0 0) l (b + 2, k) l₁) ∧
      l.WentDown l₁ (line ++ Y) (b + 2) := by
  obtain ⟨c, more, rfl⟩ := List.exists_cons_of_ne_nil hne
  have hbreak : isBreak ((c :: more ++ Y).headD (Char.ofNat 0)) = false :=
    isBreak_eq_false hline.head.1 hline.head.2
  cases wide with
  | true =>
    have hblock := exists_blockIndent (n := b + 2) h hcol (.inl rfl) hbreak
      (lt_length_of_lineFeeds h) 0
    simpa using hblock
  | false =>
    obtain ⟨rfl, hc⟩ := hnarrow rfl
    have h : l.rest = spaces (b + 2) ++ (c :: more ++ Y) := h
    have hdown := Lexer.wentDown_advance h
    rw [show (spaces (b + 2)).length = b + 2 from List.length_replicate, hcol,
      Nat.zero_add] at hdown
    refine ⟨l.advance (b + 2), ?_, hdown⟩
    simp only [Bool.false_eq_true, if_false]
    exact runs_blockFirstIndent h hcol hc hbreak (Nat.succ_pos _)

/-- A block is read up to the line behind it, which stands no deeper than the blocks around it. -/
theorem exists_blockScalar (hf : l.Framed T (b :: bs) deeper) (hclosed : ClosedLines closed)
    (hne : closed ≠ []) (hch : Chomps ch cs closed)
    (hwide : wide = (closed.head? == some ' ' || closed.head? == some '\n'))
    (h : l.rest = '|' :: (blockMarks wide ch ++ '\n' ::
      (indented (b + 2) true closed ++ (spaces m ++ R)))) (hm : m ≤ b) (hR : IsSolid R) :
    ∃ l', Runs (blockScalar true) l (.scalar false (String.ofList cs)) l' ∧
      (l.framed T (b :: bs) false).WentDown l' R m ∧ l.mark.line < l'.mark.line := by
  obtain ⟨hdown, hline⟩ := wentDown_inBlock (T := T) (b :: bs) h
  have htab := hclosed.headD_indented hne (b + 1) (spaces m ++ R)
  generalize hL : l.inBlock T (b :: bs) (blockMarks wide ch) = L at hdown hline
  cases hclosed with
  | breaks k =>
    obtain ⟨rfl, rfl⟩ := hch.eq_keep
    cases k with
    | zero => exact absurd rfl hne
    | succ k =>
      obtain rfl : wide = true := hwide
      have hbreaks : L.rest = lineFeeds (k + 1) ++ (spaces m ++ R) := by
        rw [hdown.rest, ← List.append_nil (lineFeeds (k + 1)), indented_lineFeeds, indented,
          List.append_nil]
      obtain ⟨l', hindent, hdown'⟩ := exists_blockIndent (n := b + 2) hbreaks hdown.column
        (.inr ⟨by omega, hR.head?⟩) (isBreak_of_isSolid hR)
        (lt_length_of_lineFeeds hbreaks) 0
      have hbelow := hdown'.line
      have hcol := hdown'.column
      rw [Nat.zero_add] at hindent
      have hrest : Runs (blockRest .keep l.mark.line true b (b + 2) (k + 1)) l' _ l' :=
        runs_blockRest_breaks (by omega) (by omega) (by rw [Lexer.column, hcol]; omega)
      exact ⟨l', runs_blockScalar hf hL h htab hindent hrest, hdown.trans hdown', by omega⟩
  | @line k line r hne' hline' hr =>
    have hlines : L.rest = lineFeeds k ++ (spaces (b + 2) ++
        (line ++ '\n' :: (indented (b + 2) true r ++ (spaces m ++ R)))) := by
      rw [hdown.rest, indented_lineFeeds, indented_line hne' hline']
      simp
    obtain ⟨l₁, hindent, hdown₁⟩ := exists_blockStart hline' hne' hlines hdown.column
      fun hw => head?_of_narrow hne' (hwide.symm.trans hw)
    obtain ⟨l', hrest, hdown'⟩ := exists_blockRest_lines hch rfl hne' hline' hr hdown₁.column
      hdown₁.rest (by omega) hR l.mark.line b
    have hbelow := (hdown₁.trans hdown').line
    exact ⟨l', runs_blockScalar hf hL h htab hindent hrest, hdown.trans (hdown₁.trans hdown'),
      by omega⟩

theorem runs_takeToken_block {t : Token} (hrest : l.rest = '|' :: Y) (hflow : l.flowLevel = 0)
    (hdeep : l.indent ≤ l.column)
    (hblock : Runs (blockScalar true)
      { l with keyPlaces := l.notePlace.keyPlaces, keyAllowed := true } t l') :
    Runs takeToken l true (l'.push t) := by
  have hplace : { l.notePlace with keyAllowed := true }
      = { l with keyPlaces := l.notePlace.keyPlaces, keyAllowed := true } := by
    conv_lhs => rw [l.notePlace_eq]
  have hend : isEnd '|' = false := rfl
  refine .bind (runs_get l) ?_
  simp only [Lexer.peek_zero_eq hrest, hend, Bool.false_eq_true, if_false]
  refine .bind (runs_require (Lexer.not_column_lt hdeep) l) ?_
  simp only [Lexer.threeMarks, Lexer.peek_zero_eq hrest, hflow, Char.reduceBEq, Bool.and_false,
    Bool.false_and, Bool.false_eq_true, if_false, Bool.or_false, decide_true, Bool.and_true,
    if_true]
  refine .bind (runs_modify _ l) (.bind (runs_allowKey true _) ?_)
  rw [hplace]
  exact .bind hblock (.bind (runs_modify _ _) (runs_pure _ _))

theorem Lexer.Framed.wentDown (hf : l.Framed T bs deeper) (h : l.WentDown l' R m) :
    l'.Framed T bs deeper := by
  rw [h.same]
  exact hf.move rfl rfl rfl rfl rfl rfl

theorem reads_block {c : Nat} {keyAllowed : Bool} (hclosed : ClosedLines closed)
    (hne : closed ≠ []) (hch : Chomps ch cs closed)
    (hwide : wide = (closed.head? == some ' ' || closed.head? == some '\n')) (hc : b < c)
    (hm : m ≤ b) (hR : IsSolid R) :
    Reads ⟨'|' :: (blockMarks wide ch ++ '\n' ::
        (indented (b + 2) true closed ++ (spaces m ++ R))), c, T, b :: bs, deeper, keyAllowed⟩
      (.onLine R m (.scalar false (String.ofList cs) :: T) (b :: bs) false true) := by
  refine .of_line (by simp only [level]; omega) (by simp only [level]; omega) hR (by simp; omega)
    fun l hl => ?_
  have hf : ({ l with keyPlaces := l.notePlace.keyPlaces, keyAllowed := true } : Lexer).Framed
      T (b :: bs) deeper := hl.framed.move rfl rfl rfl rfl rfl rfl
  obtain ⟨l', hblock, hdown, hline⟩ := exists_blockScalar hf hclosed hne hch hwide hl.rest hm hR
  refine ⟨_, runs_takeToken_block hl.rest hl.framed.flowLevel hl.deep hblock, ?_⟩
  exact {
    framed := ⟨false, ((hf.reframe _ _ _).wentDown hdown).pushed _⟩
    rest := hdown.rest
    column := hdown.column
    line := hline
    keyAllowed := (congrArg Lexer.keyAllowed hdown.same).trans rfl
    keyPlaces := (congrArg Lexer.keyPlaces hdown.same).trans rfl }

end Scalar

end MeshRollout.Yaml

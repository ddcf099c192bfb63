import MeshRollout.Proofs.Number.Digits
import MeshRollout.Proofs.Yaml.PlainText

/-!
Reading quoted scalars. Between quotation marks the text stands with some characters written in
another way; the words and the blanks between them are read back one after another.
-/
set_option autoImplicit false

namespace MeshRollout.Yaml
open Scan

structure Quoting (single : Bool) (mark : Char) (write : Char → List Char) (allowed : Char → Prop) :
    Prop where
  mark_eq : mark = if single then apostrophe else '"'
  blank : write ' ' = [' ']
  /-- What is written begins no gap and is no mark. -/
  head : ∀ c, allowed c → ∃ d r, write c = d :: r ∧ (isGap d = true → c = ' ')
  step : ∀ c, allowed c → c ≠ ' ' → ∀ (fuel : Nat) (f : Folding) (l l' : Lexer) (r : List Char)
    (x : Folding × Bool), l.rest = write c ++ r →
      Runs (quotedWord single fuel (f.add c)) (l.advanceWord (write c).length) x l' →
        Runs (quotedWord single (fuel + 1) f) l x l'

theorem quoting_single :
    Quoting true apostrophe (fun c => if c == apostrophe then [c, c] else [c])
      fun c => isPlainlyWritten c = true ∧ isBreakMark c = false where
  mark_eq := rfl
  blank := rfl
  head c hc := by
    by_cases ha : c = apostrophe
    · exact ⟨c, [c], by simp [ha], eq_blank_of_isGap hc.1 hc.2⟩
    · exact ⟨c, [], by simp [ha], eq_blank_of_isGap hc.1 hc.2⟩
  step c hc hblank fuel f l l' r x h hrun := by
    have hgap := isGap_eq_false hc.1 hc.2 hblank
    by_cases ha : c = apostrophe
    · subst ha
      have h : l.rest = apostrophe :: apostrophe :: r := h
      refine .bind (runs_peek 0 l) (.bind (runs_peek 1 l) ?_)
      rw [Lexer.peek_zero_eq h, Lexer.peek_one_eq h]
      exact .bind (runs_modify _ l) hrun
    · have hne : (c == apostrophe) = false := beq_eq_false_iff_ne.2 ha
      simp only [hne, Bool.false_eq_true, if_false] at h hrun
      refine .bind (runs_peek 0 l) (.bind (runs_peek 1 l) ?_)
      rw [Lexer.peek_zero_eq h]
      simp only [hgap, hne, Bool.false_and, Bool.false_eq_true, if_false, if_true]
      exact .bind (runs_modify _ l) hrun

theorem rest_advanceWord {l : Lexer} (cs : List Char) {r : List Char} (h : l.rest = cs ++ r) :
    (l.advanceWord cs.length).rest = r := by
  cases cs with
  | nil => exact h
  | cons c cs =>
    rw [Lexer.advanceWord_of_pos (by simp)]
    exact Lexer.rest_pass _ h

theorem charOfNat?_toNat (c : Char) : charOfNat? c.toNat = some c := by
  have hvalid : c.toNat.isValidChar := c.valid
  rw [charOfNat?, dif_pos hvalid]
  rfl

theorem runs_escape_letter {l : Lexer} {c m : Char} {r : List Char} (h : l.rest = '\\' :: m :: r)
    (hm : escapeLetter? m = some c) : Runs escape l c (l.advanceWord 2) := by
  refine .bind (runs_peek 1 l) ?_
  rw [Lexer.peek_one_eq h, List.headD_cons, hm]
  exact .bind (runs_modify _ l) (runs_pure _ _)

theorem runs_escape_hex {l : Lexer} {c m : Char} {width : Nat} {r : List Char}
    (h : l.rest = '\\' :: m :: (hexNumeral width c.toNat ++ r)) (hm : escapeLetter? m = none)
    (hwidth : escapeWidth? m = some width) (hpos : 0 < width) (hc : c.toNat < 16 ^ width) :
    Runs escape l c (l.advanceWord (2 + width)) := by
  have hlen := length_hexNumeral hpos hc
  have hrest : (l.advanceWord 2).rest = hexNumeral width c.toNat ++ r :=
    rest_advanceWord ['\\', m] h
  have htake : (l.advanceWord 2).rest.take width = hexNumeral width c.toNat := by
    rw [hrest, List.take_left' hlen]
  have hread : (Numeral.digits? 16 (hexNumeral width c.toNat)).bind charOfNat? = some c := by
    rw [digits?_hexNumeral hpos _ hc, Option.bind_some, charOfNat?_toNat]
  refine .bind (runs_peek 1 l) ?_
  rw [Lexer.peek_one_eq h, List.headD_cons, hm, hwidth]
  refine .bind (runs_modify _ l) (.bind (runs_get _) ?_)
  simp only [htake]
  refine .bind (runs_require (by simp [hlen]) _) ?_
  rw [hread, ← Lexer.advanceWord_advanceWord]
  exact .bind (runs_modify _ _) (runs_pure _ _)

theorem runs_quotedWord_escape {l l' : Lexer} {c m : Char} {r : List Char} {n fuel : Nat}
    {f : Folding} {x : Folding × Bool} (h : l.rest = '\\' :: m :: r) (hm : isBreak m = false)
    (hescape : Runs escape l c (l.advanceWord n))
    (hrun : Runs (quotedWord false fuel (f.add c)) (l.advanceWord n) x l') :
    Runs (quotedWord false (fuel + 1) f) l x l' := by
  refine .bind (runs_peek 0 l) (.bind (runs_peek 1 l) ?_)
  rw [Lexer.peek_zero_eq h, Lexer.peek_one_eq h, List.headD_cons]
  have hgap : isGap '\\' = false := rfl
  have hquote : ('\\' == '"') = false := rfl
  simp only [hgap, hquote, hm, Bool.and_false, Bool.false_eq_true, if_false, BEq.rfl, if_true]
  exact .bind hescape hrun

theorem escapeLetterOf?_eq_some {c m : Char} (h : escapeLetterOf? c = some m) :
    escapeLetter? m = some c ∧ isBreak m = false := by
  have hm := List.find?_some h
  have hmem := List.mem_of_find?_eq_some h
  refine ⟨by simpa using hm, ?_⟩
  have hall : ∀ m ∈ "0abtnvfre\"\\N_LP".toList, isBreak m = false :=
    forall_mem_of_all (by decide)
  exact hall m hmem

/-- A character is written behind a backslash, and its escape is read back. -/
def IsEscaped (c : Char) : Prop :=
  ∃ m r, escapedChar c = '\\' :: m :: r ∧ isBreak m = false ∧
    ∀ (l : Lexer) (t : List Char), l.rest = '\\' :: m :: (r ++ t) →
      Runs escape l c (l.advanceWord (escapedChar c).length)

theorem isEscaped_letter {c m : Char} (he : escapedChar c = ['\\', m])
    (hl : escapeLetterOf? c = some m) : IsEscaped c := by
  obtain ⟨hm, hb⟩ := escapeLetterOf?_eq_some hl
  refine ⟨m, [], he, hb, fun l t h => ?_⟩
  rw [he]
  exact runs_escape_letter h hm

theorem isEscaped_hex {c : Char} (m : Char) (width : Nat)
    (he : escapedChar c = '\\' :: m :: hexNumeral width c.toNat) (hm : escapeLetter? m = none)
    (hb : isBreak m = false) (hwidth : escapeWidth? m = some width) (hpos : 0 < width)
    (hc : c.toNat < 16 ^ width) : IsEscaped c := by
  refine ⟨m, _, he, hb, fun l t h => ?_⟩
  have hlen : (escapedChar c).length = 2 + width := by
    simp [he, length_hexNumeral hpos hc]
    omega
  rw [hlen]
  exact runs_escape_hex h hm hwidth hpos hc

theorem toNat_lt_of_eight_digits (c : Char) : c.toNat < 16 ^ 8 := by
  have hc : c.toNat < 0x110000 := by
    rcases c.valid with hv | hv
    · exact Nat.lt_trans hv (by decide)
    · exact hv.2
  omega

/-- Every character is written as it is or behind a backslash. -/
theorem escapedChar_cases (c : Char) :
    (escapedChar c = [c] ∧ isPlainlyWritten c = true ∧ isBreakMark c = false ∧
      (c == '"') = false ∧ (c == '\\') = false) ∨ IsEscaped c := by
  by_cases hplain : (isPlainlyWritten c && !isBreakMark c && c != '"' && c != '\\') = true
  · left
    refine ⟨if_pos hplain, ?_⟩
    simpa [and_assoc] using hplain
  · right
    cases hl : escapeLetterOf? c with
    | some m => exact isEscaped_letter (by rw [escapedChar, if_neg hplain, hl]) hl
    | none =>
      by_cases h2 : c.toNat ≤ 0xff
      · refine isEscaped_hex 'x' 2 ?_ rfl rfl rfl (by decide) (by omega)
        rw [escapedChar, if_neg hplain, hl]
        simp [h2]
      · by_cases h4 : c.toNat ≤ 0xffff
        · refine isEscaped_hex 'u' 4 ?_ rfl rfl rfl (by decide) (by omega)
          rw [escapedChar, if_neg hplain, hl]
          simp [h2, h4]
        · refine isEscaped_hex 'U' 8 ?_ rfl rfl rfl (by decide)
            (toNat_lt_of_eight_digits c)
          rw [escapedChar, if_neg hplain, hl]
          simp [h2, h4]

theorem quoting_double : Quoting false '"' escapedChar fun _ => True where
  mark_eq := rfl
  blank := by decide
  head c _ := by
    rcases escapedChar_cases c with ⟨he, hw, hb, -, -⟩ | ⟨m, r, he, -⟩
    · exact ⟨c, [], he, eq_blank_of_isGap hw hb⟩
    · exact ⟨'\\', m :: r, he, fun h => absurd h (by decide)⟩
  step c _ hblank fuel f l l' r x h hrun := by
    rcases escapedChar_cases c with ⟨he, hw, hb, hquote, hslash⟩ | ⟨m, r', he, hb, hescape⟩
    · rw [he] at h hrun
      have hgap := isGap_eq_false hw hb hblank
      refine .bind (runs_peek 0 l) (.bind (runs_peek 1 l) ?_)
      rw [Lexer.peek_zero_eq h]
      simp only [hgap, hquote, hslash, Bool.false_and, Bool.false_eq_true, if_false]
      exact .bind (runs_modify _ l) hrun
    · rw [he] at h
      exact runs_quotedWord_escape h hb (hescape l r h) hrun

def quotedTurn (single : Bool) (fuel : Nat) (f : Folding) (newLine : Bool) : Scan Folding := do
  let c ← peek 0
  if c == (if single then apostrophe else '"') then return f
  let (f, newLine) ← quotedGap (← Scan.fuel) f newLine
  quotedLoop single fuel (f.join newLine)

section Quoted
variable {single : Bool} {mark : Char} {write : Char → List Char} {allowed : Char → Prop}
  {l : Lexer} {f : Folding} {t : List Char}

theorem runs_quotedGap_blanks {k fuel : Nat} {c : Char} {r : List Char}
    (h : l.rest = spaces k ++ c :: r) (hc : isGap c = false) (hf : k < fuel) :
    Runs (quotedGap fuel f false) l ({ f with blanks := spaces k ++ f.blanks }, false)
      (l.advance k) := by
  induction k generalizing l f fuel with
  | zero =>
    obtain ⟨fuel, rfl⟩ := Nat.exists_eq_add_of_lt hf
    have hp : l.peek 0 = c := Lexer.peek_zero_eq h
    simp only [isGap, isBreakOrEnd, Bool.or_eq_false_iff] at hc
    refine .bind (runs_get l) ?_
    simp only [hp, hc.1, hc.2.1, Bool.false_eq_true, if_false]
    exact runs_pure (f, false) l
  | succ k ih =>
    obtain ⟨fuel, rfl⟩ := Nat.exists_eq_add_of_lt hf
    have h : l.rest = ' ' :: (spaces k ++ c :: r) := h
    have hp := Lexer.peek_zero_eq h
    have hnext : Runs (quotedGap (k + 1 + fuel) (f.addBlank ' ') false) (l.advance 1)
        ({ f with blanks := spaces k ++ ' ' :: f.blanks }, false) ((l.advance 1).advance k) :=
      ih (by simp [Lexer.advance, h]) (by omega)
    rw [Lexer.advance_advance, Nat.add_comm 1 k] at hnext
    refine .bind (runs_get l) ?_
    have hs : isSpace ' ' = true := rfl
    simp only [hp, hs, Bool.false_eq_true, if_false, if_true]
    rw [spaces_succ_append]
    exact .bind (runs_modify _ l) hnext

section Word
variable (q : Quoting single mark write allowed)
include q

theorem Quoting.runs_word {w : List Char} {c : Char} {r : List Char} {fuel : Nat}
    (hw : ∀ c ∈ w, allowed c ∧ c ≠ ' ') (hc : c = ' ' ∨ c = mark ∧ r.headD (Char.ofNat 0) ≠ apostrophe)
    (h : l.rest = w.flatMap write ++ c :: r) (hline : l.atLineStart = false)
    (hf : w.length < fuel) :
    Runs (quotedWord single fuel f) l ({ f with text := w.reverse ++ f.text }, false)
      (l.pass (w.flatMap write).length) := by
  induction w generalizing l f fuel with
  | nil =>
    obtain ⟨fuel, rfl⟩ := Nat.exists_eq_add_of_lt hf
    have hp : l.peek 0 = c := Lexer.peek_zero_eq h
    have hstay : l.pass 0 = l := by rw [← Lexer.advance_eq_pass hline, Lexer.advance_zero]
    rw [List.flatMap_nil, List.length_nil, hstay]
    refine .bind (runs_peek 0 l) (.bind (runs_peek 1 l) ?_)
    rw [hp, Lexer.peek_one_eq h]
    rcases hc with rfl | ⟨hc, hr⟩
    · exact runs_pure _ l
    · rw [q.mark_eq] at hc
      cases single with
      | true =>
        have hc : c = apostrophe := hc
        have hgap : isGap apostrophe = false := by decide
        have hr : (r.headD (Char.ofNat 0) == apostrophe) = false := beq_eq_false_iff_ne.2 hr
        simp only [hc, hgap, hr, BEq.rfl, Bool.and_false, Bool.false_eq_true, if_false, if_true]
        exact runs_pure _ l
      | false =>
        have hc : c = '"' := hc
        have hgap : isGap '"' = false := by decide
        simp only [hc, hgap, BEq.rfl, Bool.false_eq_true, if_false, if_true]
        exact runs_pure _ l
  | cons d w ih =>
    obtain ⟨fuel, rfl⟩ := Nat.exists_eq_add_of_lt hf
    obtain ⟨hd, hw⟩ := List.forall_mem_cons.1 hw
    rw [List.flatMap_cons, List.append_assoc] at h
    refine q.step d hd.1 hd.2 _ _ _ _ _ _ h ?_
    rw [Lexer.advanceWord_eq_pass hline]
    have hnext := ih (l := l.pass (write d).length) (f := f.add d)
      hw (Lexer.rest_pass _ h) rfl (by simp; omega : w.length < (d :: w).length + fuel)
    rw [Lexer.pass_pass] at hnext
    simpa [Folding.add, List.flatMap_cons] using hnext

theorem Quoting.length_le {cs : List Char} (hcs : ∀ c ∈ cs, allowed c) :
    cs.length ≤ (cs.flatMap write).length := by
  induction cs with
  | nil => exact Nat.le_refl 0
  | cons c cs ih =>
    obtain ⟨hc, hcs⟩ := List.forall_mem_cons.1 hcs
    obtain ⟨d, r, hd, -⟩ := q.head c hc
    have hle := ih hcs
    simp only [List.flatMap_cons, List.length_append, List.length_cons, hd]
    omega

theorem Quoting.flatMap_spaces (k : Nat) : (spaces k).flatMap write = spaces k := by
  induction k with
  | zero => rfl
  | succ k ih =>
    rw [spaces, List.replicate_succ, List.flatMap_cons, q.blank]
    exact congrArg (' ' :: ·) ih

theorem Quoting.isGap_mark : isGap mark = false := by
  rw [q.mark_eq]
  cases single <;> rfl

theorem Quoting.exists_head {cs : List Char} (hcs : ∀ c ∈ cs, allowed c) (t : List Char) :
    ∃ d r, cs.flatMap write ++ mark :: t = d :: r ∧ (isGap d = true → cs.head? = some ' ') := by
  cases cs with
  | nil =>
    exact ⟨mark, t, rfl, fun h => absurd (q.isGap_mark.symm.trans h) nofun⟩
  | cons c cs =>
    obtain ⟨d, r, hd, hgap⟩ := q.head c (List.forall_mem_cons.1 hcs).1
    refine ⟨d, r ++ (cs.flatMap write ++ mark :: t), ?_, fun h => congrArg some (hgap h)⟩
    simp [List.flatMap_cons, hd]

theorem Quoting.isEnd_peek {cs : List Char} (hcs : ∀ c ∈ cs, allowed c)
    (h : l.rest = cs.flatMap write ++ mark :: t) : isEnd (l.peek 0) = false := by
  refine Bool.eq_false_iff.2 fun hend => ?_
  obtain ⟨d, r, hd, hgap⟩ := q.exists_head hcs t
  rw [Lexer.peek_zero_eq (h.trans hd)] at hend
  have hhead := hgap (by simp [isGap, isBreakOrEnd, hend])
  obtain ⟨cs', rfl⟩ := List.head?_eq_some_iff.1 hhead
  rw [List.flatMap_cons, q.blank] at hd
  rw [← (List.cons.inj hd).1] at hend
  exact absurd hend (by decide)

theorem Quoting.runs_quotedTurn_mark {fuel : Nat} (h : l.rest = mark :: t) :
    Runs (quotedTurn single fuel f false) l f l := by
  refine .bind (runs_peek 0 l) ?_
  rw [Lexer.peek_zero_eq h, q.mark_eq]
  simp only [BEq.rfl, if_true]
  exact runs_pure f l

theorem Quoting.runs_quotedTurn_blanks {more : List Char} {k fuel : Nat} {l' : Lexer} {f' : Folding}
    (hmore : ∀ c ∈ more, allowed c) (hfirst : more.head? ≠ some ' ')
    (h : l.rest = spaces (k + 1) ++ (more.flatMap write ++ mark :: t))
    (hloop : Runs (quotedLoop single fuel
        (({ f with blanks := spaces (k + 1) ++ f.blanks } : Folding).join false))
      (l.advance (k + 1)) f' l') :
    Runs (quotedTurn single fuel f false) l f' l' := by
  obtain ⟨d, r, hd, hgap⟩ := q.exists_head hmore t
  rw [hd] at h
  have hsolid : isGap d = false := Bool.eq_false_iff.2 fun h => hfirst (hgap h)
  have hblank : l.peek 0 = ' ' := Lexer.peek_zero_eq (r := spaces k ++ d :: r) h
  have hne : (' ' == if single = true then apostrophe else '"') = false := by
    cases single <;> decide
  refine .bind (runs_peek 0 l) ?_
  simp only [hblank, hne, Bool.false_eq_true, if_false]
  exact .bind (runs_fuel l) (.bind (runs_quotedGap_blanks h hsolid (lt_length_of_spaces h)) hloop)

theorem Quoting.runs_quotedLoop_word {w : List Char} {c : Char} {r : List Char} {fuel : Nat}
    {l' : Lexer} {f' : Folding} (hw : ∀ c ∈ w, allowed c ∧ c ≠ ' ')
    (hc : c = ' ' ∨ c = mark ∧ r.headD (Char.ofNat 0) ≠ apostrophe)
    (h : l.rest = w.flatMap write ++ c :: r) (hend : isEnd (l.peek 0) = false)
    (hline : l.atLineStart = false) (hcol : 0 < l.mark.column) (hdeep : l.indent ≤ l.column)
    (hturn : Runs (quotedTurn single fuel { f with text := w.reverse ++ f.text } false)
      (l.pass (w.flatMap write).length) f' l') :
    Runs (quotedLoop single (fuel + 1) f) l f' l' := by
  have hdoc : l.documentMark = false := by
    have hne : (l.mark.column == 0) = false := beq_eq_false_iff_ne.2 (by omega)
    rw [Lexer.documentMark, hne, Bool.false_and]
  have hfuel : w.length < l.rest.length + 1 := by
    have hlen := q.length_le fun c hc => (hw c hc).1
    rw [h, List.length_append]
    omega
  refine .bind (runs_get l) (.bind (runs_require (by rw [hdoc]; rfl) l) ?_)
  refine .bind (runs_require (by rw [hend]; rfl) l) ?_
  refine .bind (runs_require (Lexer.not_column_lt hdeep) l) (.bind (runs_fuel l) ?_)
  exact .bind (q.runs_word hw hc h hline hfuel) hturn

theorem Quoting.runs_loop {cs : List Char} {fuel : Nat} (hcs : ∀ c ∈ cs, allowed c)
    (h : l.rest = cs.flatMap write ++ mark :: t) (ht : t.headD (Char.ofNat 0) ≠ apostrophe)
    (hline : l.atLineStart = false) (hcol : 0 < l.mark.column) (hdeep : l.indent ≤ l.column)
    (hblanks : f.blanks = []) (hf : cs.length < fuel) :
    Runs (quotedLoop single fuel f) l { f with text := cs.reverse ++ f.text }
      (l.pass (cs.flatMap write).length) := by
  -- the text gets shorter by one word and the blanks behind it
  induction hn : cs.length using Nat.strongRecOn generalizing cs l f fuel with
  | ind n ih =>
    subst hn
    obtain ⟨fuel, rfl⟩ := Nat.exists_eq_add_of_lt hf
    have hend := q.isEnd_peek hcs h
    obtain ⟨w, k, more, rfl, hw, hmore, hk⟩ := exists_words cs
    have hallowed : ∀ c ∈ w, allowed c ∧ c ≠ ' ' :=
      fun c hc => ⟨hcs c (List.mem_append_left _ hc), hw c hc⟩
    rw [List.flatMap_append, List.flatMap_append, q.flatMap_spaces, List.append_assoc] at h
    have hrest := Lexer.rest_pass _ h
    cases k with
    | zero =>
      obtain rfl := hk rfl
      simp only [spaces, List.replicate_zero, List.append_nil]
      exact q.runs_quotedLoop_word hallowed (.inr ⟨rfl, ht⟩) h hend hline hcol hdeep
        (q.runs_quotedTurn_mark hrest)
    | succ k =>
      rw [List.append_assoc] at h hrest
      refine q.runs_quotedLoop_word hallowed (.inl rfl) h hend hline hcol hdeep
        (q.runs_quotedTurn_blanks (fun c hc => hcs c (by simp [hc])) hmore hrest ?_)
      have hmove : (l.pass (w.flatMap write).length).advance (k + 1)
          = l.pass ((w.flatMap write).length + (k + 1)) := Lexer.pass_advance _ _ _
      have hrest' : (l.pass ((w.flatMap write).length + (k + 1))).rest
          = more.flatMap write ++ mark :: t := by
        rw [← hmove, Lexer.advance, hrest]
        exact List.drop_left' List.length_replicate
      have hnext := ih more.length (by simp [spaces]; omega)
        (l := l.pass ((w.flatMap write).length + (k + 1)))
        (f := (⟨spaces (k + 1) ++ (w.reverse ++ f.text), [], f.lineBreak, f.moreBreaks⟩))
        (fun c hc => hcs c (by simp [hc])) hrest' rfl
        (by simp only [Lexer.pass, Lexer.advance]; omega)
        (by simp only [Lexer.column, Lexer.pass, Lexer.advance] at hdeep ⊢; omega) rfl
        (by simp [spaces]; omega : more.length < (w ++ (spaces (k + 1) ++ more)).length + fuel) rfl
      have hmoved : (w.flatMap write).length + (k + 1) + (more.flatMap write).length
          = ((w ++ (spaces (k + 1) ++ more)).flatMap write).length := by
        rw [List.flatMap_append, List.flatMap_append, q.flatMap_spaces]
        simp only [List.length_append, spaces, List.length_replicate]
        omega
      have hback : more.reverse ++ (spaces (k + 1) ++ (w.reverse ++ f.text))
          = (w ++ (spaces (k + 1) ++ more)).reverse ++ f.text := by
        simp [spaces]
      rw [Lexer.pass_pass, hmoved] at hnext
      rw [hmove]
      simp only [hback] at hnext
      simpa [Folding.join, hblanks] using hnext

theorem Quoting.runs_quotedScalar {cs R : List Char} {c : Char} (hcs : ∀ c ∈ cs, allowed c)
    (h : l.rest = mark :: (cs.flatMap write ++ mark :: c :: R)) (hc : c = ':' ∨ c = '\n')
    (hflow : l.flowLevel = 0) (hdeep : l.indent ≤ l.column) :
    Runs (quotedScalar single) l (.scalar false (String.ofList cs))
      (l.pass ((cs.flatMap write).length + 2)) := by
  have hopen : (l.pass 1).rest = cs.flatMap write ++ mark :: c :: R :=
    Lexer.rest_pass [mark] h
  have hne : c ≠ apostrophe := by
    rcases hc with rfl | rfl <;> decide
  have hlen := q.length_le hcs
  have hright : (l.pass 1).indent ≤ (l.pass 1).column := by
    simp only [Lexer.column, Lexer.pass, Lexer.advance] at hdeep ⊢
    omega
  have hloop := q.runs_loop (f := .empty) hcs hopen hne rfl
    (by simp only [Lexer.pass, Lexer.advance]; omega) hright rfl
    (by rw [hopen, List.length_append]; omega : cs.length < (l.pass 1).rest.length + 1)
  have hclose : ((l.pass 1).pass (cs.flatMap write).length).rest = mark :: c :: R :=
    Lexer.rest_pass _ hopen
  have hend : (((l.pass 1).pass (cs.flatMap write).length).pass 1).rest = c :: R :=
    Lexer.rest_pass [mark] hclose
  have hmoved : ((l.pass 1).pass (cs.flatMap write).length).pass 1
      = l.pass ((cs.flatMap write).length + 2) := by
    rw [Lexer.pass_pass, Lexer.pass_pass]
    congr 1
    omega
  rw [hmoved] at hend
  have hspace : isSpace c = false := by
    rcases hc with rfl | rfl <;> rfl
  have hhash : (c == '#') = false := by
    rcases hc with rfl | rfl <;> rfl
  have hpeek := Lexer.peek_zero_eq hend
  have hflow' : (l.pass ((cs.flatMap write).length + 2)).flowLevel = 0 := hflow
  refine .bind (runs_get l) (.bind (runs_modify _ l) ?_)
  rw [Lexer.advanceWord_of_pos Nat.one_pos]
  refine .bind (runs_fuel _) (.bind hloop (.bind (runs_modify _ _) ?_))
  rw [Lexer.advanceWord_of_pos Nat.one_pos, hmoved]
  refine .bind (runs_skipToLineEnd_none hend hspace hhash true) (.bind (runs_get _) ?_)
  rw [hpeek, hflow']
  refine .bind (runs_require ?_ _) ?_
  · rcases hc with rfl | rfl
    · simp [Lexer.pass, Lexer.advance]
    · rfl
  · simp only [Folding.result, Folding.empty, List.append_nil, List.reverse_reverse]
    exact runs_pure _ _

theorem Quoting.runs_takeToken {l₁ l₂ : Lexer} {token : Token} (hm : l.peek 0 = mark)
    (hdeep : l.indent ≤ l.column)
    (hquote : Runs (quotedScalar single) l.noted token l₁)
    (hskip : Runs (skipToToken (l₁.rest.length + 1)) l₁ () l₂) :
    Runs takeToken l true ({ l₂ with adjacentValueAt := l₂.mark.index }.push token) := by
  refine .bind (runs_get l) ?_
  have hp := hm.trans q.mark_eq
  have hend : isEnd (l.peek 0) = false := by
    rw [hp]
    cases single <;> rfl
  simp only [hend, Bool.false_eq_true, if_false]
  refine .bind (runs_require (Lexer.not_column_lt hdeep) l) ?_
  have hrun : Runs (do
      modify Lexer.notePlace
      allowKey false
      let t ← quotedScalar single
      skipToToken (← Scan.fuel)
      modify fun l => { l with adjacentValueAt := l.mark.index }
      Yaml.push t
      return true) l true ({ l₂ with adjacentValueAt := l₂.mark.index }.push token) := by
    refine .bind (runs_modify _ l) (.bind (runs_allowKey false _) ?_)
    rw [l.notePlace_noted]
    exact .bind hquote (.bind (runs_fuel _) (.bind hskip (.bind (runs_modify _ _)
      (.bind (runs_modify _ _) (runs_pure true _)))))
  cases single with
  | true =>
    have hp : l.peek 0 = '\x27' := hp
    simp only [hp, Lexer.threeMarks, Char.reduceBEq, Bool.and_false, Bool.false_and,
      Bool.false_eq_true, if_false]
    exact hrun
  | false =>
    have hp : l.peek 0 = '"' := hp
    simp only [hp, Lexer.threeMarks, Char.reduceBEq, Bool.and_false, Bool.false_and,
      Bool.false_eq_true, if_false]
    exact hrun

theorem Quoting.reads {cs R : List Char} {c m : Nat} {T : List Token} {bs : List Nat}
    {deeper keyAllowed : Bool} (hcs : ∀ c ∈ cs, allowed c) (hc : level bs < c) (hm : m ≤ level bs)
    (hR : IsSolid R) :
    Reads ⟨mark :: (cs.flatMap write ++ mark :: '\n' :: (spaces m ++ R)), c, T, bs, deeper,
        keyAllowed⟩
      (.onLine R m (.scalar false (String.ofList cs) :: T) bs false true) := by
  refine .of_line hc hm hR (by simp; omega) fun l hl => ?_
  have hquote := q.runs_quotedScalar (l := l.noted) hcs hl.rest (.inr rfl) hl.framed.flowLevel
    hl.deep
  have hrest : (l.noted.pass ((cs.flatMap write).length + 2)).rest = '\n' :: (spaces m ++ R) := by
    refine Lexer.rest_pass_of_length (mark :: (cs.flatMap write ++ [mark])) ?_ (by simp)
    have hl : l.noted.rest = _ := hl.rest
    simpa using hl
  have hskip := runs_skipToToken_break hrest hR hl.framed.flowLevel
    (lt_length_of_break hrest)
  refine ⟨_, q.runs_takeToken (Lexer.peek_zero_eq hl.rest) hl.deep hquote hskip, ?_⟩
  exact {
    framed := by
      refine ⟨deeper, Lexer.Framed.pushed ?_ _⟩
      exact hl.framed.move rfl rfl rfl rfl rfl rfl
    rest := Lexer.rest_newLine hrest
    column := rfl
    line := Nat.lt_succ_self _
    keyAllowed := rfl
    keyPlaces := rfl }

end Word

end Quoted

end MeshRollout.Yaml

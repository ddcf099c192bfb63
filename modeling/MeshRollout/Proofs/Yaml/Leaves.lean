import MeshRollout.Proofs.Yaml.BlockText
import MeshRollout.Proofs.Yaml.Marks
import MeshRollout.Yaml.Document
import MeshRollout.Yaml.Printer

/-!
Reading scalars in the style that was chosen for them, whichever it is.
-/
set_option autoImplicit false

namespace MeshRollout.Yaml
open Scan

/-- A text that a manifest can hold. Two characters are breaks to a writer and nothing special to a
reader, and a line of a block must not look like a line between documents. -/
structure IsPortable (s : String) : Prop where
  chars : ∀ c ∈ s.toList, c ≠ '\u2028' ∧ c ≠ '\u2029'
  lines : '\n' ∈ s.toList → ∀ line ∈ Text.splitOn '\n' s.toList, isSeparator line = false

theorem eq_lineFeed {c : Char} (hw : isPlainlyWritten c = true) (hb : isBreakMark c = true)
    (hc : c ≠ '\u2028' ∧ c ≠ '\u2029') : c = '\n' := by
  simp only [isBreakMark, Bool.or_eq_true, beq_iff_eq] at hb
  rcases hb with (((rfl | rfl) | rfl) | rfl) | rfl
  · rfl
  · exact absurd hw (by decide)
  · exact absurd hw (by decide)
  · exact absurd rfl hc.1
  · exact absurd rfl hc.2

theorem isPlainlyWritten_of_mem {cs : List Char} (h : needsEscape cs = false) {c : Char}
    (hc : c ∈ cs) : isPlainlyWritten c = true := by
  simp only [needsEscape, Bool.or_eq_false_iff, List.any_eq_false] at h
  simpa using h.1 c hc

namespace ScalarStyle
variable {s : String}

theorem of_line (h : ScalarStyle.of s = .plain ∨ ScalarStyle.of s = .single) :
    '\n' ∉ s.toList ∧ needsEscape s.toList = false := by
  have hnone : '\n' ∉ s.toList := by
    intro hmem
    have hcontains : s.toList.contains '\n' = true := by simpa using hmem
    simp only [ScalarStyle.of, hcontains, Bool.not_true, Bool.false_eq_true, if_false] at h
    split at h <;> simp at h
  refine ⟨hnone, ?_⟩
  have hof : ScalarStyle.of s = ofLine s := by simp [ScalarStyle.of, hnone]
  rw [hof, ofLine] at h
  cases he : needsEscape s.toList with
  | false => rfl
  | true => simp [he] at h

theorem checks_of_plain (h : ScalarStyle.of s = .plain) :
    Plain.isTaken s = false ∧ s.toList.head? ≠ some ' ' ∧ s.toList.getLast? ≠ some ' ' ∧
      s.toList.any isBreakMark = false ∧ hasIndicator s.toList = false := by
  obtain ⟨hnone, -⟩ := of_line (.inl h)
  have hof : ScalarStyle.of s = ofLine s := by simp [ScalarStyle.of, hnone]
  have hblank : isSpaceMark ' ' = true := rfl
  rw [hof, ofLine] at h
  split at h
  · cases h
  · split at h
    · cases h
    · rename_i hno
      simp only [Bool.or_eq_true, not_or, Bool.not_eq_true] at hno
      obtain ⟨⟨⟨⟨htaken, hfirst⟩, hlast⟩, hbreak⟩, hindicator⟩ := hno
      refine ⟨htaken, ?_, ?_, hbreak, hindicator⟩
      · intro h
        simp [h, hblank] at hfirst
      · intro h
        simp [h, hblank] at hlast

theorem isPlain (h : ScalarStyle.of s = .plain) : IsPlain s.toList := by
  obtain ⟨-, hwritten⟩ := of_line (.inl h)
  obtain ⟨htaken, hfirst, hlast, hbreak, hindicator⟩ := checks_of_plain h
  refine ⟨fun c hc => ⟨isPlainlyWritten_of_mem hwritten hc, ?_⟩, ?_, hfirst, hlast, hindicator⟩
  · simpa using List.any_eq_false.1 hbreak c hc
  · intro hempty
    have hs : s = "" := String.toList_inj.1 hempty
    rw [hs] at htaken
    exact absurd htaken (by decide)

theorem isLine_of_single (h : ScalarStyle.of s = .single) (hs : IsPortable s) :
    IsLine s.toList := by
  obtain ⟨hnone, hwritten⟩ := of_line (.inr h)
  intro c hc
  have hw := isPlainlyWritten_of_mem hwritten hc
  refine ⟨hw, Bool.eq_false_iff.2 fun hb => hnone ?_⟩
  exact eq_lineFeed hw hb (hs.chars c hc) ▸ hc

theorem of_literal (h : ScalarStyle.of s = .literal) :
    (∀ c ∈ s.toList, isPlainlyWritten c = true) ∧ '\n' ∈ s.toList := by
  rw [ScalarStyle.of] at h
  split at h
  · rw [ofLine] at h
    split at h
    · cases h
    · split at h <;> cases h
  · rename_i hsome
    split at h
    · cases h
    · rename_i hno
      simp only [Bool.or_eq_true, not_or, Bool.not_eq_true] at hno
      exact ⟨fun c hc => isPlainlyWritten_of_mem hno.1 hc, by simpa using hsome⟩

end ScalarStyle

section Literal
variable {cs closed : List Char} {n : Nat}

def IsBlockText (cs : List Char) : Prop :=
  ∀ c ∈ cs, isPlainlyWritten c = true ∧ (isBreakMark c = true → c = '\n')

theorem ClosedLines.cons_break (h : ClosedLines cs) : ClosedLines ('\n' :: cs) := by
  cases h with
  | breaks k => exact .breaks (k + 1)
  | line k hne hline hr => exact .line (k + 1) hne hline hr

theorem ClosedLines.cons {c : Char} (h : ClosedLines cs) (hne : cs ≠ [])
    (hw : isPlainlyWritten c = true) (hb : isBreakMark c = false) : ClosedLines (c :: cs) := by
  have hc : IsLine [c] := fun d hd => by
    obtain rfl : d = c := by simpa using hd
    exact ⟨hw, hb⟩
  cases h with
  | breaks k =>
    cases k with
    | zero => exact absurd rfl hne
    | succ k => exact .line 0 (by simp) hc (.breaks k)
  | @line k line r hne' hline hr =>
    cases k with
    | zero => exact .line 0 (by simp) (List.forall_mem_cons.2 ⟨⟨hw, hb⟩, hline⟩) hr
    | succ k => exact .line 0 (by simp) hc (.line k hne' hline hr)

theorem closedLines_of_getLast? (h : IsBlockText cs) (hlast : cs.getLast? = some '\n') :
    ClosedLines cs := by
  induction cs with
  | nil => cases hlast
  | cons c cs ih =>
    obtain ⟨⟨hw, hb⟩, hcs⟩ := List.forall_mem_cons.1 h
    cases cs with
    | nil =>
      obtain rfl : c = '\n' := by simpa using hlast
      exact .breaks 1
    | cons d cs =>
      have hclosed := ih hcs (by simpa using hlast)
      cases hc : isBreakMark c with
      | true => exact hb hc ▸ hclosed.cons_break
      | false => exact hclosed.cons (by simp) hw hc

theorem indented_append_break (fresh : Bool) (cs : List Char) :
    indented n fresh (cs ++ ['\n']) = indented n fresh cs ++ ['\n'] := by
  induction cs generalizing fresh with
  | nil => exact indented_break fresh []
  | cons c cs ih =>
    rw [List.cons_append, indented, indented]
    split
    · exact congrArg (c :: ·) (ih true)
    · rw [ih false]
      simp

/-- The marks of a literal block tell whether it begins with a gap and what its end is like. -/
theorem literalHead_append (x : List Char) (a : Char) :
    literalHead (x ++ [a]) = '|' ::
      ((if ((x ++ [a]).head?.map fun c => c == ' ' || isBreakMark c).getD false then ['2'] else []) ++
        (if !isBreakMark a then ['-']
          else if (x.getLast?.map isBreakMark).getD true then ['+'] else [])) := by
  simp [literalHead]

theorem IsBlockText.head?_edge (h : IsBlockText cs) :
    (cs.head?.map fun c => c == ' ' || isBreakMark c).getD false
      = (cs.head? == some ' ' || cs.head? == some '\n') := by
  cases cs with
  | nil => rfl
  | cons c cs =>
    obtain ⟨-, hb⟩ := (List.forall_mem_cons.1 h).1
    have hbreak : isBreakMark c = (c == '\n') := by
      cases hc : isBreakMark c with
      | true => rw [hb hc]; rfl
      | false =>
        refine (beq_eq_false_iff_ne.2 ?_).symm
        rintro rfl
        exact absurd hc (by decide)
    simp [hbreak]

theorem exists_literal (h : IsBlockText cs) (hne : cs ≠ []) :
    ∃ ch closed, literalHead cs
        = '|' :: blockMarks (closed.head? == some ' ' || closed.head? == some '\n') ch ∧
      indented n true cs ++ (if (cs.getLast?.map isBreakMark).getD false then [] else ['\n'])
        = indented n true closed ∧
      ClosedLines closed ∧ closed ≠ [] ∧ Chomps ch cs closed := by
  have hedge := h.head?_edge
  obtain ⟨x, a, rfl⟩ : ∃ x a, cs = x ++ [a] := ⟨_, _, (List.dropLast_concat_getLast hne).symm⟩
  obtain ⟨hx, ha⟩ := List.forall_mem_append.1 h
  have hhead : (x ++ [a] ++ ['\n']).head? = (x ++ [a]).head? := by cases x <;> rfl
  rw [literalHead_append, hedge]
  cases hbreak : isBreakMark a with
  | false =>
    have hlast : (x ++ [a]).getLast? ≠ some '\n' := by
      rw [List.getLast?_concat]
      rintro ⟨⟩
      exact absurd hbreak (by decide)
    refine ⟨.strip, x ++ [a] ++ ['\n'], ?_, ?_, ?_, by simp, .strip (by simp) hlast⟩
    · rw [hhead]
      rfl
    · rw [indented_append_break true (x ++ [a])]
      simp [hbreak]
    · refine closedLines_of_getLast? ?_ (by simp)
      exact List.forall_mem_append.2 ⟨h, by simp [isPlainlyWritten]⟩
  | true =>
    obtain rfl : a = '\n' := (ha a (by simp)).2 hbreak
    have hclosed : ClosedLines (x ++ ['\n']) := closedLines_of_getLast? h (by simp)
    have hended : ((x ++ ['\n']).getLast?.map isBreakMark).getD false = true := by simp [hbreak]
    cases hlast : (x.getLast?.map isBreakMark).getD true with
    | true =>
      exact ⟨.keep, x ++ ['\n'], rfl, by rw [hended]; simp, hclosed, by simp, .keep _⟩
    | false =>
      refine ⟨.clip, x ++ ['\n'], rfl, by rw [hended]; simp, hclosed, by simp, .clip ?_ ?_⟩
      · rintro rfl
        cases hlast
      · intro hx
        rw [hx] at hlast
        exact absurd hlast (by decide)

end Literal

def scalarToken (s : String) : Token :=
  .scalar (ScalarStyle.of s = .plain) s

section Texts
variable {s : String} {n : Nat}

theorem indented_eq_self {cs : List Char} (h : ∀ c ∈ cs, isBreakMark c = false) :
    indented n false cs = cs := by
  induction cs with
  | nil => rfl
  | cons c cs ih =>
    obtain ⟨hc, hcs⟩ := List.forall_mem_cons.1 h
    rw [indented, hc, ih hcs]
    rfl

theorem singleQuoted_of_isLine {cs : List Char} (h : IsLine cs) :
    singleQuoted n cs = apostrophe ::
      (cs.flatMap (fun c => if c == apostrophe then [c, c] else [c]) ++ [apostrophe]) := by
  have hdoubled : ∀ c ∈ cs.flatMap (fun c => if c == apostrophe then [c, c] else [c]),
      isBreakMark c = false := by
    intro c hc
    obtain ⟨d, hd, hc⟩ := List.mem_flatMap.1 hc
    have hcd : c = d := by
      split at hc <;> simpa using hc
    exact hcd ▸ (h d hd).2
  have hlast : (cs.getLast?.map isBreakMark).getD false = false := by
    cases hl : cs.getLast? with
    | none => rfl
    | some c => exact (h c (List.mem_of_getLast? hl)).2
  simp only [singleQuoted, indented_eq_self hdoubled, hlast, Bool.false_eq_true, if_false,
    List.append_nil, List.cons_append]

theorem scalarText_of_plain (h : ScalarStyle.of s = .plain) :
    scalarText n s = s.toList ++ ['\n'] := by
  simp only [scalarText, h]

theorem scalarText_of_single (h : ScalarStyle.of s = .single) (hs : IsPortable s) :
    scalarText n s = apostrophe ::
      (s.toList.flatMap (fun c => if c == apostrophe then [c, c] else [c]) ++
        [apostrophe, '\n']) := by
  simp [scalarText, h, singleQuoted_of_isLine (ScalarStyle.isLine_of_single h hs)]

theorem scalarText_of_double (h : ScalarStyle.of s = .double) :
    scalarText n s = '"' :: (s.toList.flatMap escapedChar ++ ['"', '\n']) := by
  simp [scalarText, h, doubleQuoted]

variable {b c m : Nat} {R : List Char} {T : List Token} {bs : List Nat} {deeper keyAllowed : Bool}

/-- A text is read back from the way it is written, whatever its style. -/
theorem reads_scalar (hs : IsPortable s) (hc : b < c) (hm : m ≤ b) (hR : IsSolid R) :
    Reads ⟨scalarText (b + 2) s ++ (spaces m ++ R), c, T, b :: bs, deeper, keyAllowed⟩
      (.onLine R m (scalarToken s :: T) (b :: bs) false true) := by
  have hlevel : level (b :: bs) < c := by simp only [level]; omega
  have hmlevel : m ≤ level (b :: bs) := by simp only [level]; omega
  have hback : String.ofList s.toList = s := String.ofList_toList
  cases hstyle : ScalarStyle.of s with
  | plain =>
    have hread : Reads ⟨_, c, T, b :: bs, deeper, keyAllowed⟩ _ :=
      reads_plain (ScalarStyle.isPlain hstyle) hlevel hmlevel hR
    rw [scalarText_of_plain hstyle, scalarToken, hstyle]
    simpa [hback] using hread
  | single =>
    have hread : Reads ⟨_, c, T, b :: bs, deeper, keyAllowed⟩ _ :=
      quoting_single.reads (ScalarStyle.isLine_of_single hstyle hs) hlevel hmlevel hR
    rw [scalarText_of_single hstyle hs, scalarToken, hstyle]
    simpa [hback] using hread
  | double =>
    have hread : Reads ⟨_, c, T, b :: bs, deeper, keyAllowed⟩ _ :=
      quoting_double.reads (fun c (_ : c ∈ s.toList) => trivial) hlevel hmlevel hR
    rw [scalarText_of_double hstyle, scalarToken, hstyle]
    simpa [hback] using hread
  | literal =>
    obtain ⟨hwritten, hmem⟩ := ScalarStyle.of_literal hstyle
    have hblock : IsBlockText s.toList := fun c hc =>
      ⟨hwritten c hc, fun hb => eq_lineFeed (hwritten c hc) hb (hs.chars c hc)⟩
    obtain ⟨ch, closed, hhead, hbody, hclosed, hne, hch⟩ :=
      exists_literal (n := b + 2) hblock (List.ne_nil_of_mem hmem)
    have hread : Reads ⟨_, c, T, b :: bs, deeper, keyAllowed⟩ _ :=
      reads_block hclosed hne hch rfl hc hm hR
    rw [scalarToken, hstyle]
    simp only [scalarText, hstyle, hhead]
    rw [hback, ← hbody] at hread
    simpa using hread

end Texts

section SimpleKeys
variable {k : String}

theorem length_toList_le (s : String) : s.toList.length ≤ s.utf8ByteSize := by
  have hle (cs : List Char) : cs.length ≤ (String.ofList cs).utf8ByteSize := by
    induction cs with
    | nil => exact Nat.zero_le _
    | cons c cs ih =>
      have hc := Char.utf8Size_pos c
      rw [String.ofList_cons, String.utf8ByteSize_append, String.utf8ByteSize_singleton,
        List.length_cons]
      omega
  simpa using hle s.toList

/-- Only characters that are written as they are have large code points. -/
theorem length_escapedChar_le (c : Char) : (escapedChar c).length ≤ 6 := by
  have hlen (width : Nat) (hw : 0 < width) (hc : c.toNat < 16 ^ width) :=
    length_hexNumeral hw hc
  by_cases hplain : (isPlainlyWritten c && !isBreakMark c && c != '"' && c != '\\') = true
  · simp [escapedChar, hplain]
  · cases hl : escapeLetterOf? c with
    | some m => simp [escapedChar, hplain, hl]
    | none =>
      by_cases h2 : c.toNat ≤ 0xff
      · have h := hlen 2 (by decide) (by omega)
        simp [escapedChar, hplain, hl, h2, h]
      · by_cases h4 : c.toNat ≤ 0xffff
        · have h := hlen 4 (by decide) (by omega)
          simp [escapedChar, hplain, hl, h2, h4, h]
        · have hne (d : Char) (hd : d.toNat ≤ 0xffff) : (c == d) = false := by
            rw [beq_eq_false_iff_ne]
            rintro rfl
            exact h4 hd
          have hwritten : isPlainlyWritten c = true := by
            simp only [isPlainlyWritten, Bool.or_eq_true, Bool.and_eq_true, bne_iff_ne,
              decide_eq_true_eq]
            omega
          refine absurd ?_ hplain
          simp only [hwritten, isBreakMark, bne, hne '\n' (by decide), hne '\r' (by decide),
            hne '\u0085' (by decide), hne '\u2028' (by decide), hne '\u2029' (by decide),
            hne '"' (by decide), hne '\\' (by decide), Bool.or_self, Bool.not_false, Bool.and_self]

theorem IsPortable.of_isSimpleKey (h : isSimpleKey k = true) : IsPortable k := by
  simp only [isSimpleKey, Bool.and_eq_true, Bool.not_eq_true', List.any_eq_false] at h
  refine ⟨fun c hc => ⟨?_, ?_⟩, fun hmem => absurd rfl (h.2 '\n' hmem)⟩
  · rintro rfl
    exact h.2 _ hc rfl
  · rintro rfl
    exact h.2 _ hc rfl

theorem length_le_of_isSimpleKey (h : isSimpleKey k = true) : k.toList.length ≤ 128 := by
  simp only [isSimpleKey, Bool.and_eq_true, decide_eq_true_eq] at h
  exact Nat.le_trans (length_toList_le k) h.1

theorem length_flatMap_le {write : Char → List Char} {b : Nat} (h : ∀ c, (write c).length ≤ b)
    (cs : List Char) : (cs.flatMap write).length ≤ b * cs.length := by
  induction cs with
  | nil => exact Nat.zero_le _
  | cons c cs ih =>
    have hc := h c
    rw [List.flatMap_cons, List.length_append, List.length_cons, Nat.mul_succ]
    omega

/-- A key on one line is plain or in quotation marks. -/
theorem simpleKey_cases (hk : isSimpleKey k = true) (n : Nat) :
    (IsPlain k.toList ∧ (scalarText n k).dropLast = k.toList ∧ scalarToken k = .scalar true k) ∨
    ∃ single mark write allowed, Quoting single mark write allowed ∧ (∀ c ∈ k.toList, allowed c) ∧
      (∀ c, (write c).length ≤ 6) ∧
      (scalarText n k).dropLast = mark :: (k.toList.flatMap write ++ [mark]) ∧
      scalarToken k = .scalar false k := by
  have hportable := IsPortable.of_isSimpleKey hk
  cases hstyle : ScalarStyle.of k with
  | plain =>
    exact .inl ⟨ScalarStyle.isPlain hstyle, by simp [scalarText_of_plain hstyle],
      by simp [scalarToken, hstyle]⟩
  | single =>
    refine .inr ⟨_, _, _, _, quoting_single, ScalarStyle.isLine_of_single hstyle hportable,
      fun c => ?_, ?_, by simp [scalarToken, hstyle]⟩
    · by_cases hc : c = apostrophe <;> simp [hc]
    · simp [scalarText_of_single hstyle hportable, List.dropLast_cons_of_ne_nil]
  | double =>
    refine .inr ⟨_, _, _, _, quoting_double, fun _ _ => trivial, length_escapedChar_le, ?_,
      by simp [scalarToken, hstyle]⟩
    simp [scalarText_of_double hstyle, List.dropLast_cons_of_ne_nil]
  | literal =>
    obtain ⟨-, hmem⟩ := ScalarStyle.of_literal hstyle
    simp only [isSimpleKey, Bool.and_eq_true, Bool.not_eq_true', List.any_eq_false] at hk
    exact absurd rfl (hk.2 _ hmem)

theorem length_simpleKey (hk : isSimpleKey k = true) (n : Nat) :
    0 < (scalarText n k).dropLast.length ∧ (scalarText n k).dropLast.length ≤ 1024 := by
  have hlength := length_le_of_isSimpleKey hk
  rcases simpleKey_cases hk n with ⟨hplain, htext, -⟩ | ⟨_, _, _, _, -, -, hwrite, htext, -⟩
  · rw [htext]
    exact ⟨List.length_pos_iff.2 hplain.ne_nil, by omega⟩
  · have hlen := length_flatMap_le hwrite k.toList
    rw [htext, List.length_cons, List.length_append, List.length_singleton]
    exact ⟨by omega, by omega⟩

theorem exists_tookKey {s : Spot} {n : Nat} {X : List Char} (hk : isSimpleKey k = true)
    (hs : s.rest = (scalarText n k).dropLast ++ ':' :: X)
    (hgap : isGap (X.headD (Char.ofNat 0)) = true) (hcol : level s.blocks ≤ s.column) {l : Lexer}
    (hl : l.IsAt s) :
    ∃ l', Runs takeToken l true l' ∧
      l.TookKey l' (scalarToken k) s (scalarText n k).dropLast.length X := by
  have hback : String.ofList k.toList = k := String.ofList_toList
  rcases simpleKey_cases hk n with
    ⟨hplain, htext, htoken⟩ | ⟨_, _, _, _, q, hallowed, -, htext, htoken⟩
  · rw [htext] at hs ⊢
    have htook := exists_tookKey_plain hplain hs hgap hcol hl
    rwa [hback, ← htoken] at htook
  · rw [htext] at hs ⊢
    have htook := exists_tookKey_quoted q hallowed (X := X) (by simpa using hs) hl
    rw [hback, ← htoken] at htook
    simpa using htook

section Entry
variable {n m : Nat} {Y : List Char} {T : List Token} {bs before : List Nat} {fresh deeper : Bool}

theorem Reads.of_simpleKey {X : List Char} {s' : Spot} (hk : isSimpleKey k = true)
    (ho : Opens n bs fresh before deeper) (hgap : isGap (X.headD (Char.ofNat 0)) = true)
    (htab : X.headD (Char.ofNat 0) ≠ '\t')
    (hs' : ∀ l : Lexer, l.AtMark X (n + (scalarText n k).dropLast.length + 1)
      (.value :: scalarToken k :: .key :: (opening fresh .blockMappingStart ++ T)) (n :: bs) false →
        l.Settles s') :
    Reads ⟨(scalarText n k).dropLast ++ ':' :: X, n, T, before, deeper, true⟩ s' := by
  obtain ⟨hpos, hle⟩ := length_simpleKey hk n
  exact .of_key ho rfl hpos hle rfl hgap htab
    (by simp only [List.length_append, List.length_cons]; omega)
    (fun _ hl => exists_tookKey hk rfl hgap ho.level_le hl) hs'

theorem reads_simpleKey (hk : isSimpleKey k = true) (ho : Opens n bs fresh before deeper)
    (hY : IsSolid Y) :
    Reads ⟨(scalarText n k).dropLast ++ ':' :: ' ' :: Y, n, T, before, deeper, true⟩
      ⟨Y, n + (scalarText n k).dropLast.length + 2,
        .value :: scalarToken k :: .key :: (opening fresh .blockMappingStart ++ T), n :: bs, true,
        false⟩ :=
  .of_simpleKey hk ho rfl (by decide : ' ' ≠ '\t') fun _ hat => hat.settles_behind rfl hY

theorem reads_simpleKey_below (hk : isSimpleKey k = true) (ho : Opens n bs fresh before deeper)
    (hY : IsSolid Y) :
    Reads ⟨(scalarText n k).dropLast ++ ':' :: '\n' :: (spaces m ++ Y), n, T, before, deeper, true⟩
      (.onLine Y m (.value :: scalarToken k :: .key :: (opening fresh .blockMappingStart ++ T))
        (n :: bs) true true) :=
  .of_simpleKey hk ho rfl (by decide : '\n' ≠ '\t') fun _ hat => hat.settles_below rfl hY

end Entry

end SimpleKeys

end MeshRollout.Yaml

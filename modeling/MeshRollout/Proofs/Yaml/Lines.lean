import MeshRollout.Proofs.Text.Split
import MeshRollout.Proofs.Yaml.Nodes

/-!
The lines of written values. Every line ends with a line feed, and none of them looks like a line
between documents.
-/
set_option autoImplicit false

namespace MeshRollout.Yaml

/-- Text that goes on with a line and ends with one. The lines behind the first one do not separate
documents. -/
structure IsTail (t : List Char) : Prop where
  written : ∀ c ∈ t, isPlainlyWritten c = true
  ended : t.getLast? = some '\n'
  below : ∀ line ∈ (Text.splitOn '\n' t).tail, isSeparator line = false

/-- The front of a line that does not separate documents, whatever follows on it. -/
def IsLead (p : List Char) : Prop :=
  IsLine p ∧ ∀ r, isSeparator (p ++ r) = false

section Separators
variable {line : List Char}

theorem isSeparator_spaces (n : Nat) (line : List Char) :
    isSeparator (spaces n ++ line) = isSeparator line := by
  have hblank : ∀ c ∈ spaces n, Text.isBlank c = true := by
    intro c hc
    obtain rfl : c = ' ' := List.eq_of_mem_replicate hc
    rfl
  rw [isSeparator, isSeparator, Text.trim, Text.trim, Text.trimStart_append hblank]

theorem exists_of_isSeparator (h : isSeparator line = true) :
    ∃ a b, line = a ++ ['-', '-', '-'] ++ b ∧ (∀ c ∈ a, Text.isBlank c = true) ∧
      ∀ c ∈ b, Text.isBlank c = true := by
  obtain ⟨a, b, hline, ha, hb⟩ := Text.exists_around_trim line
  rw [isSeparator, beq_iff_eq] at h
  exact ⟨a, b, h ▸ hline, ha, hb⟩

theorem isSeparator_of_mem {c : Char} (hc : c ∈ line) (hblank : Text.isBlank c = false)
    (hne : c ≠ '-') : isSeparator line = false := by
  refine Bool.eq_false_iff.2 fun h => ?_
  obtain ⟨a, b, rfl, ha, hb⟩ := exists_of_isSeparator h
  simp only [List.mem_append, List.mem_cons, List.not_mem_nil, or_false, hne, or_self] at hc
  rcases hc with hc | hc
  · exact absurd (ha c hc) (by simp [hblank])
  · exact absurd (hb c hc) (by simp [hblank])

theorem isLead_of_mem {p : List Char} (hp : IsLine p) {c : Char} (hc : c ∈ p)
    (hblank : Text.isBlank c = false) (hne : c ≠ '-') : IsLead p :=
  ⟨hp, fun _ => isSeparator_of_mem (List.mem_append_left _ hc) hblank hne⟩

/-- The mark of an item has a blank behind it, and a separator has not. -/
theorem isLead_dash : IsLead ['-', ' '] := by
  refine ⟨by decide, fun r => Bool.eq_false_iff.2 fun h => ?_⟩
  obtain ⟨a, b, hline, ha, -⟩ := exists_of_isSeparator h
  cases a with
  | nil => simp at hline
  | cons c a =>
    obtain rfl : '-' = c := (List.cons.inj hline).1
    exact absurd (ha '-' List.mem_cons_self) (by decide)

end Separators

namespace IsLine
variable {p : List Char}

theorem append {q : List Char} (hp : IsLine p) (hq : IsLine q) : IsLine (p ++ q) :=
  List.forall_mem_append.2 ⟨hp, hq⟩

theorem spaces (n : Nat) : IsLine (spaces n) := by
  intro c hc
  obtain rfl : c = ' ' := List.eq_of_mem_replicate hc
  decide

theorem not_mem_lineFeed (hp : IsLine p) : '\n' ∉ p := by
  intro h
  exact absurd (hp _ h).2 (by decide)

end IsLine

theorem splitOn_prefix {p t : List Char} (hp : '\n' ∉ p) :
    ∃ q qs, Text.splitOn '\n' t = q :: qs ∧ Text.splitOn '\n' (p ++ t) = (p ++ q) :: qs := by
  obtain ⟨q, qs, ht⟩ := List.exists_cons_of_ne_nil (Text.splitOn_ne_nil '\n' t)
  refine ⟨q, qs, ht, ?_⟩
  induction p with
  | nil => exact ht
  | cons c p ih =>
    obtain ⟨hc, hp⟩ := not_or.1 (List.mem_cons.not.1 hp)
    simp [Text.splitOn, Ne.symm hc, ih hp]

theorem splitOn_lineFeed (t : List Char) :
    Text.splitOn '\n' ('\n' :: t) = [] :: Text.splitOn '\n' t := by
  rw [Text.splitOn, if_pos rfl]

namespace IsTail
variable {p t u line : List Char}

theorem of_line (hp : IsLine p) : IsTail (p ++ ['\n']) where
  written := List.forall_mem_append.2 ⟨fun c hc => (hp c hc).1, by simp [isPlainlyWritten]⟩
  ended := by simp
  below := by
    rw [Text.splitOn_append hp.not_mem_lineFeed]
    simp [Text.splitOn]
    rfl

theorem prepend (hp : IsLine p) (h : IsTail t) : IsTail (p ++ t) where
  written := List.forall_mem_append.2 ⟨fun c hc => (hp c hc).1, h.written⟩
  ended := by rw [List.getLast?_append, h.ended, Option.some_or]
  below := by
    obtain ⟨q, qs, ht, hpt⟩ := splitOn_prefix (t := t) hp.not_mem_lineFeed
    have hbelow := h.below
    rw [ht] at hbelow
    rw [hpt]
    exact hbelow

theorem exists_eq (h : IsTail t) : ∃ t', t = t' ++ ['\n'] :=
  (List.getLast?_eq_some_iff.1 h.ended)

theorem append (h : IsTail t) (h' : IsTail ('\n' :: u)) : IsTail (t ++ u) where
  written := List.forall_mem_append.2 ⟨h.written, (List.forall_mem_cons.1 h'.written).2⟩
  ended := by
    have hu := h'.ended
    rw [List.getLast?_cons, Option.some.injEq] at hu
    rw [List.getLast?_append, h.ended]
    cases hlast : u.getLast? with
    | none => rfl
    | some c =>
      rw [hlast] at hu
      exact congrArg some hu
  below := by
    obtain ⟨t, rfl⟩ := h.exists_eq
    have hbelow := h.below
    have hbelow' := h'.below
    rw [splitOn_lineFeed] at hbelow'
    obtain ⟨q, qs, ht⟩ := List.exists_cons_of_ne_nil (Text.splitOn_ne_nil '\n' t)
    rw [Text.splitOn_around, ht] at hbelow
    rw [List.append_assoc, List.singleton_append, Text.splitOn_around, ht]
    exact List.forall_mem_append.2 ⟨(List.forall_mem_append.1 hbelow).1, hbelow'⟩

theorem of_whole (h : IsTail ('\n' :: t)) (hne : t ≠ []) : IsTail t where
  written := (List.forall_mem_cons.1 h.written).2
  ended := by
    have ht := h.ended
    obtain ⟨c, t, rfl⟩ := List.exists_cons_of_ne_nil hne
    rwa [List.getLast?_cons_cons] at ht
  below := by
    have hbelow := h.below
    rw [splitOn_lineFeed] at hbelow
    exact fun line hline => hbelow line (List.mem_of_mem_tail hline)

theorem below_line (hline : IsLine line) (hsep : isSeparator line = false)
    (h : IsTail ('\n' :: t)) : IsTail ('\n' :: (line ++ '\n' :: t)) where
  written := List.forall_mem_cons.2 ⟨rfl, (h.prepend hline).written⟩
  ended := by
    have hended := (h.prepend hline).ended
    rw [List.getLast?_cons, hended, Option.getD_some]
  below := by
    have hbelow := h.below
    rw [splitOn_lineFeed] at hbelow
    rw [splitOn_lineFeed, Text.splitOn_append hline.not_mem_lineFeed]
    exact List.forall_mem_cons.2 ⟨hsep, hbelow⟩

theorem below_lead (hp : IsLead p) (h : IsTail t) (n : Nat) :
    IsTail ('\n' :: (spaces n ++ (p ++ t))) where
  written := List.forall_mem_cons.2 ⟨rfl, ((h.prepend hp.1).prepend (.spaces n)).written⟩
  ended := by
    have hended := ((h.prepend hp.1).prepend (.spaces n)).ended
    rw [List.getLast?_cons, hended, Option.getD_some]
  below := by
    have hline := (IsLine.spaces n).append hp.1
    obtain ⟨q, qs, ht, hpt⟩ := splitOn_prefix (t := t) hline.not_mem_lineFeed
    have hbelow := h.below
    rw [ht] at hbelow
    rw [splitOn_lineFeed, ← List.append_assoc, hpt]
    refine List.forall_mem_cons.2 ⟨?_, hbelow⟩
    rw [List.append_assoc, isSeparator_spaces]
    exact hp.2 q

end IsTail

section Scalars
variable {s : String} {n : Nat}

theorem isLine_hexNumeral (width n : Nat) : IsLine (hexNumeral width n) := by
  have hdigit : ∀ d < 16,
      isPlainlyWritten d.digitChar.toUpper = true ∧ isBreakMark d.digitChar.toUpper = false := by
    decide
  refine List.forall_mem_append.2 ⟨fun c hc => ?_, fun c hc => ?_⟩
  · obtain rfl : c = '0' := List.eq_of_mem_replicate hc
    decide
  · obtain ⟨e, he, rfl⟩ := List.mem_map.1 hc
    obtain ⟨d, hd, rfl⟩ := Numeral.exists_of_mem_toDigits (by decide) he
    exact hdigit d hd

theorem isLine_escapedChar (c : Char) : IsLine (escapedChar c) := by
  have hback {m : Char} (hm : isPlainlyWritten m = true ∧ isBreakMark m = false) {r : List Char}
      (hr : IsLine r) : IsLine ('\\' :: m :: r) :=
    List.forall_mem_cons.2 ⟨by decide, List.forall_mem_cons.2 ⟨hm, hr⟩⟩
  rw [escapedChar]
  split
  · rename_i h
    simp only [Bool.and_eq_true, Bool.not_eq_true'] at h
    exact fun d hd => List.mem_singleton.1 hd ▸ ⟨h.1.1.1, h.1.1.2⟩
  · split
    · rename_i m hm
      have hall : ∀ m ∈ "0abtnvfre\"\\N_LP".toList,
          isPlainlyWritten m = true ∧ isBreakMark m = false :=
        forall_mem_of_all (by decide)
      exact hback (hall m (List.mem_of_find?_eq_some hm)) (List.forall_mem_nil _)
    · dsimp only
      split
      · exact hback (by decide) (isLine_hexNumeral _ _)
      · split <;> exact hback (by decide) (isLine_hexNumeral _ _)

theorem exists_scalarLine (hs : IsPortable s) (h : ScalarStyle.of s ≠ .literal) (n : Nat) :
    ∃ line, scalarText n s = line ++ ['\n'] ∧ IsLine line := by
  have hquote {c : Char} (cs : List Char)
      (hc : isPlainlyWritten c = true ∧ isBreakMark c = false) (hcs : IsLine cs) : IsLine (c :: (cs ++ [c])) :=
    List.forall_mem_cons.2 ⟨hc, hcs.append fun d hd => List.mem_singleton.1 hd ▸ hc⟩
  cases hstyle : ScalarStyle.of s with
  | plain =>
    exact ⟨_, scalarText_of_plain hstyle, (ScalarStyle.isPlain hstyle).line⟩
  | single =>
    have hline := ScalarStyle.isLine_of_single hstyle hs
    refine ⟨_, (scalarText_of_single hstyle hs).trans (by simp),
      hquote (c := apostrophe) (s.toList.flatMap fun c => if c == apostrophe then [c, c] else [c])
        (by decide) fun c hc => ?_⟩
    obtain ⟨d, hd, hc⟩ := List.mem_flatMap.1 hc
    have hcd : c = d := by split at hc <;> simpa using hc
    exact hcd ▸ hline d hd
  | double =>
    refine ⟨_, scalarText_of_double hstyle |>.trans (by simp),
      hquote (c := '"') (s.toList.flatMap escapedChar) (by decide) fun c hc => ?_⟩
    obtain ⟨d, -, hc⟩ := List.mem_flatMap.1 hc
    exact isLine_escapedChar d c hc
  | literal => exact absurd hstyle h

theorem isLine_simpleKey {k : String} (hk : isSimpleKey k = true) (n : Nat) :
    IsLine (scalarText n k).dropLast := by
  have hstyle : ScalarStyle.of k ≠ .literal := by
    intro h
    obtain ⟨-, hmem⟩ := ScalarStyle.of_literal h
    simp only [isSimpleKey, Bool.and_eq_true, Bool.not_eq_true', List.any_eq_false] at hk
    exact absurd rfl (hk.2 _ hmem)
  obtain ⟨line, htext, hline⟩ := exists_scalarLine (.of_isSimpleKey hk) hstyle n
  rwa [htext, List.dropLast_concat]

theorem IsTail.below_lineFeeds {t : List Char} (h : IsTail ('\n' :: t)) (k : Nat) :
    IsTail ('\n' :: (lineFeeds k ++ t)) := by
  induction k with
  | zero => exact h
  | succ k ih => exact ih.below_line (show IsLine [] from fun _ h => nomatch h) rfl

theorem IsTail.indented {closed : List Char} (h : ClosedLines closed)
    (hsep : ∀ line ∈ Text.splitOn '\n' closed, isSeparator line = false) (n : Nat) :
    IsTail ('\n' :: indented n true closed) := by
  have hskip {k : Nat} {t : List Char}
      (hall : ∀ line ∈ Text.splitOn '\n' (lineFeeds k ++ t), isSeparator line = false) :
      ∀ line ∈ Text.splitOn '\n' t, isSeparator line = false := by
    induction k with
    | zero => exact hall
    | succ k ih =>
      rw [lineFeeds, List.replicate_succ, List.cons_append, splitOn_lineFeed] at hall
      exact ih (List.forall_mem_cons.1 hall).2
  have hend : IsTail ['\n'] := of_line (p := []) (List.forall_mem_nil _)
  induction h with
  | breaks k =>
    rw [← List.append_nil (lineFeeds k), indented_lineFeeds]
    exact hend.below_lineFeeds k
  | @line k line r hne hline hr ih =>
    have hall := hskip hsep
    rw [Text.splitOn_append hline.not_mem_lineFeed] at hall
    obtain ⟨hfirst, hrest⟩ := List.forall_mem_cons.1 hall
    rw [indented_lineFeeds, indented_line hne hline, ← List.append_assoc (spaces n)]
    refine ((ih hrest).below_line ((IsLine.spaces n).append hline) ?_).below_lineFeeds k
    rw [isSeparator_spaces]
    exact hfirst

theorem Chomps.eq_or_eq_append {ch : Chomping} {cs closed : List Char} (h : Chomps ch cs closed) :
    closed = cs ∨ closed = cs ++ ['\n'] := by
  cases h with
  | strip => exact .inr rfl
  | clip | keep => exact .inl rfl

theorem IsTail.scalarText (hs : IsPortable s) (n : Nat) : IsTail (scalarText n s) := by
  by_cases hstyle : ScalarStyle.of s = .literal
  · obtain ⟨hwritten, hmem⟩ := ScalarStyle.of_literal hstyle
    have hblock : IsBlockText s.toList := fun c hc =>
      ⟨hwritten c hc, fun hb => eq_lineFeed (hwritten c hc) hb (hs.chars c hc)⟩
    obtain ⟨ch, closed, hhead, hbody, hclosed, -, hch⟩ :=
      exists_literal (n := n) hblock (List.ne_nil_of_mem hmem)
    have hsep : ∀ line ∈ Text.splitOn '\n' closed, isSeparator line = false := by
      have hnil : isSeparator [] = false := rfl
      rcases hch.eq_or_eq_append with rfl | rfl
      · exact hs.lines hmem
      · rw [Text.splitOn_around]
        exact List.forall_mem_append.2 ⟨hs.lines hmem, by simp [Text.splitOn, hnil]⟩
    have hmarks : IsLine ('|' :: blockMarks
        (closed.head? == some ' ' || closed.head? == some '\n') ch) := by
      cases closed.head? == some ' ' || closed.head? == some '\n' <;> cases ch <;> decide
    have htext : Yaml.scalarText n s = literalHead s.toList ++ '\n' :: Yaml.indented n true closed := by
      simp only [Yaml.scalarText, hstyle]
      rw [← hbody]
      simp
    rw [htext, hhead]
    exact (indented hclosed hsep n).prepend hmarks
  · obtain ⟨line, htext, hline⟩ := exists_scalarLine hs hstyle n
    rw [htext]
    exact of_line hline

theorem IsTail.leafText {v : Value} (hv : Printable v) (n : Nat) : IsTail (leafText n v) := by
  have hword {t : List Char} (ht : IsLine t) : IsTail (t ++ ['\n']) := of_line ht
  cases v with
  | null => exact hword (t := "null".toList) (by decide)
  | bool b =>
    cases b with
    | true => exact hword (t := "true".toList) (by decide)
    | false => exact hword (t := "false".toList) (by decide)
  | int i =>
    have htext : Yaml.leafText n (.int i) = (toString i).toList ++ ['\n'] := by
      simp [Yaml.leafText]
    rw [htext]
    exact hword (isPlain_toString i).line
  | float => exact hv.elim
  | str s => exact scalarText hv n
  | list => exact hword (t := "[]".toList) (by decide)
  | record => exact hword (t := "\x7b\x7d".toList) (by decide)

end Scalars

mutual

theorem isTail_node (v : Value) (hv : Printable v) (n : Nat) : IsTail (nodeText n v) := by
  match v, hv with
  | .list (v :: vs), hv =>
    have hne := (HasHead.itemsText (List.cons_ne_nil v vs) n).ne_nil
    have hitems := (isTail_items (v :: vs) (by simp) hv n 0).of_whole hne
    simpa [nodeText, spaces] using hitems
  | .record (f :: fs), hv =>
    have hne := (HasHead.fieldsText (List.cons_ne_nil f fs) n).ne_nil
    have hfields := (isTail_fields (f :: fs) (by simp) hv.2 n 0).of_whole hne
    simpa [nodeText, spaces] using hfields
  | .null, hv | .bool _, hv | .int _, hv | .str _, hv | .list [], hv | .record [], hv =>
    exact .leafText hv n
termination_by (sizeOf v, 0)

theorem isTail_items (vs : List Value) (hne : vs ≠ []) (hvs : PrintableItems vs) (n m : Nat) :
    IsTail ('\n' :: (spaces m ++ itemsText n vs)) := by
  match vs with
  | v :: vs =>
  obtain ⟨hv, hvs⟩ := hvs
  have hitem := (isTail_node v hv (n + 2)).below_lead isLead_dash m
  by_cases hlast : vs = []
  · subst hlast
    rw [itemsText_single]
    exact hitem
  · have hitems := hitem.append (isTail_items vs hlast hvs n n)
    rw [itemsText_cons hlast]
    simpa using hitems
termination_by (sizeOf vs, 0)

theorem isTail_content (v : Value) (hv : Printable v) (n : Nat) : IsTail (contentText n v) := by
  match v, hv with
  | .list (v :: vs), hv => exact isTail_items (v :: vs) (by simp) hv n n
  | .record (f :: fs), hv => exact isTail_fields (f :: fs) (by simp) hv.2 (n + 2) (n + 2)
  | .null, hv | .bool _, hv | .int _, hv | .str _, hv | .list [], hv | .record [], hv =>
    exact (IsTail.leafText hv (n + 2)).prepend (p := [' ']) (by decide)
termination_by (sizeOf v, 0)

theorem isTail_entry (k : String) (v : Value) (hk : IsPortable k) (hv : Printable v) (n m : Nat) :
    IsTail ('\n' :: (spaces m ++ entryText n k v)) := by
  have hcolon (p : List Char) (hp : IsLine p) : IsLead (p ++ [':']) :=
    isLead_of_mem (c := ':') (hp.append (by decide)) (by simp) (by decide) (by decide)
  cases hsimple : isSimpleKey k with
  | true =>
    have hentry :=
      (isTail_content v hv n).below_lead (hcolon _ (isLine_simpleKey hsimple n)) m
    rw [entryText, if_pos hsimple]
    simpa using hentry
  | false =>
    have hmark : IsLead ['?', ' '] :=
      isLead_of_mem (c := '?') (by decide) (by decide) (by decide) (by decide)
    have hvalue : IsLead [':', ' '] :=
      isLead_of_mem (c := ':') (by decide) (by decide) (by decide) (by decide)
    have hentry := ((IsTail.scalarText hk (n + 2)).below_lead hmark m).append
      ((isTail_node v hv (n + 2)).below_lead hvalue n)
    rw [entryText, if_neg (by simp [hsimple])]
    simpa using hentry
termination_by (sizeOf v, 1)

theorem isTail_fields (fs : List (String × Value)) (hne : fs ≠ []) (hfs : PrintableFields fs)
    (n m : Nat) : IsTail ('\n' :: (spaces m ++ fieldsText n fs)) := by
  match fs with
  | (k, v) :: fs =>
  obtain ⟨⟨hk, -⟩, hv, hfs⟩ := hfs
  have hentry := isTail_entry k v hk hv n m
  by_cases hlast : fs = []
  · subst hlast
    rw [fieldsText_single]
    exact hentry
  · have hfields := hentry.append (isTail_fields fs hlast hfs n n)
    rw [fieldsText_cons hlast]
    simpa using hfields
termination_by (sizeOf fs, 0)

end

end MeshRollout.Yaml

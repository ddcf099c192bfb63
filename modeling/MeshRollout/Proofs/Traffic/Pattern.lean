import MeshRollout.Traffic.Tagging

/-!
Regular expressions of the sort that rules hold: letters, groups that may be absent, repetition and
anchors. A pattern is read from its text, and its meaning is which stretch of a text it covers.
-/
set_option autoImplicit false

namespace MeshRollout

inductive Letter where
  | exactly (c : Char)
  /-- A point: every character of a line. -/
  | any
  /-- The class of white space, which knows ASCII only. -/
  | blank
  deriving DecidableEq, Repr

def isPatternBlank (c : Char) : Bool :=
  c == ' ' || c == '\t' || c == '\n' || c == '\x0c' || c == '\r'

def Letter.takes : Letter → Char → Bool
  | .exactly d, c => c == d
  | .any, c => c != '\n'
  | .blank, c => isPatternBlank c

inductive Pattern where
  | empty
  | letter (l : Letter)
  | start
  | finish
  | both (p q : Pattern)
  | star (p : Pattern)
  | optional (p : Pattern)
  deriving DecidableEq, Repr

namespace Pattern

def all (ps : List Pattern) : Pattern :=
  ps.foldr both empty

def isRepeated : Pattern → Bool
  | .star _ | .optional _ => true
  | _ => false

def isMark (c : Char) : Bool :=
  ['\\', '.', '+', '*', '?', '(', ')', '|', '[', ']', '{', '}', '^', '$'].contains c

def escaped? (c : Char) : Option Pattern :=
  if c = 's' then some (letter .blank)
  else if isMark c then some (letter (.exactly c)) else none

def repeatLast? (f : Pattern → Pattern) : List Pattern → Option (List Pattern)
  | p :: ps => if p.isRepeated then none else some (f p :: ps)
  | [] => none

/-- Reads on in a group with parts already read in reverse, inside of outer groups; `escape` tells
that a backslash stands before. Marks that need more than letters, groups and repetition are not
known. -/
def readOn? : List Char → Bool → List (List Pattern) → List Pattern → Option Pattern
  | [], escape, outer, parts =>
    if escape || !outer.isEmpty then none else some (all parts.reverse)
  | c :: r, true, outer, parts => (escaped? c).bind fun p => readOn? r false outer (p :: parts)
  | c :: r, false, outer, parts =>
    if c = '\\' then readOn? r true outer parts
    else if c = '(' then readOn? r false (parts :: outer) []
    else if c = ')' then
      match outer with
      | [] => none
      | before :: outer => readOn? r false outer (all parts.reverse :: before)
    else if c = '*' then (repeatLast? star parts).bind fun parts => readOn? r false outer parts
    else if c = '?' then (repeatLast? optional parts).bind fun parts => readOn? r false outer parts
    else if c = '.' then readOn? r false outer (letter .any :: parts)
    else if c = '^' then readOn? r false outer (start :: parts)
    else if c = '$' then readOn? r false outer (finish :: parts)
    else if isMark c then none
    else readOn? r false outer (letter (.exactly c) :: parts)

def read? (text : String) : Option Pattern :=
  readOn? text.toList false [] []

/-- The pattern covers a stretch of a text that has the one list before and the other one after it.
-/
inductive Covers : Pattern → List Char → List Char → List Char → Prop where
  | empty (before after : List Char) : Covers .empty before [] after
  | letter {l : Letter} {c : Char} (before after : List Char) (h : l.takes c = true) :
    Covers (.letter l) before [c] after
  | start (after : List Char) : Covers .start [] [] after
  | finish (before : List Char) : Covers .finish before [] []
  | both {p q : Pattern} {before x y after : List Char} (hp : Covers p before x (y ++ after))
    (hq : Covers q (before ++ x) y after) : Covers (.both p q) before (x ++ y) after
  | starNil {p : Pattern} (before after : List Char) : Covers (.star p) before [] after
  | starMore {p : Pattern} {before x y after : List Char} (hp : Covers p before x (y ++ after))
    (hs : Covers (.star p) (before ++ x) y after) : Covers (.star p) before (x ++ y) after
  | absent {p : Pattern} (before after : List Char) : Covers (.optional p) before [] after
  | there {p : Pattern} {before x after : List Char} (h : Covers p before x after) :
    Covers (.optional p) before x after

def Matches (p : Pattern) (text : String) : Prop :=
  ∃ before x after, text.toList = before ++ x ++ after ∧ p.Covers before x after

section Covers
variable {p q : Pattern} {l : Letter} {before x after : List Char}

theorem covers_empty_iff : Covers empty before x after ↔ x = [] := by
  constructor
  · intro h
    cases h
    rfl
  · rintro rfl
    exact .empty ..

theorem covers_start_iff : Covers start before x after ↔ before = [] ∧ x = [] := by
  constructor
  · intro h
    cases h
    exact ⟨rfl, rfl⟩
  · rintro ⟨rfl, rfl⟩
    exact .start _

theorem covers_finish_iff : Covers finish before x after ↔ x = [] ∧ after = [] := by
  constructor
  · intro h
    cases h
    exact ⟨rfl, rfl⟩
  · rintro ⟨rfl, rfl⟩
    exact .finish _

theorem covers_exactly_iff {c : Char} :
    Covers (letter (.exactly c)) before x after ↔ x = [c] := by
  constructor
  · intro h
    cases h with
    | letter _ _ h => rw [beq_iff_eq.1 h]
  · rintro rfl
    exact .letter _ _ (beq_self_eq_true c)

theorem covers_both_iff :
    Covers (both p q) before x after ↔
      ∃ y z, x = y ++ z ∧ Covers p before y (z ++ after) ∧ Covers q (before ++ y) z after := by
  constructor
  · intro h
    cases h with
    | both hp hq => exact ⟨_, _, rfl, hp, hq⟩
  · rintro ⟨y, z, rfl, hp, hq⟩
    exact .both hp hq

theorem covers_optional_iff :
    Covers (optional p) before x after ↔ x = [] ∨ Covers p before x after := by
  constructor
  · intro h
    cases h with
    | absent => exact .inl rfl
    | there h => exact .inr h
  · rintro (rfl | h)
    · exact .absent ..
    · exact .there h

/-- A repeated letter covers every stretch of characters that it takes. -/
theorem covers_star_letter_iff :
    Covers (star (letter l)) before x after ↔ ∀ c ∈ x, l.takes c = true := by
  constructor
  · intro h
    generalize hs : star (letter l) = s at h
    induction h with
    | starNil => simp
    | starMore hp _ _ ih =>
      cases hs
      cases hp with
      | letter _ _ hc =>
        rw [List.singleton_append, List.forall_mem_cons]
        exact ⟨hc, ih rfl⟩
    | _ => nomatch hs
  · intro h
    induction x generalizing before with
    | nil => exact .starNil ..
    | cons c x ih =>
      obtain ⟨hc, hx⟩ := List.forall_mem_cons.1 h
      exact .starMore (.letter _ _ hc) (ih hx)

theorem covers_all_append_iff {ps qs : List Pattern} :
    Covers (all (ps ++ qs)) before x after ↔
      ∃ y z, x = y ++ z ∧ Covers (all ps) before y (z ++ after) ∧
        Covers (all qs) (before ++ y) z after := by
  induction ps generalizing before x with
  | nil =>
    have hnil : all [] = empty := rfl
    simp only [List.nil_append, hnil, covers_empty_iff]
    constructor
    · exact fun h => ⟨[], x, rfl, rfl, by simpa using h⟩
    · rintro ⟨y, z, rfl, rfl, h⟩
      simpa using h
  | cons p ps ih =>
    have hcons (rs : List Pattern) : all (p :: rs) = both p (all rs) := rfl
    rw [List.cons_append, hcons, hcons, covers_both_iff]
    constructor
    · rintro ⟨y, z, rfl, hp, hr⟩
      obtain ⟨u, v, rfl, hu, hv⟩ := ih.1 hr
      refine ⟨y ++ u, v, by simp, covers_both_iff.2 ⟨y, u, rfl, by simpa using hp, hu⟩, ?_⟩
      simpa using hv
    · rintro ⟨y, z, rfl, hy, hz⟩
      obtain ⟨u, v, rfl, hu, hv⟩ := covers_both_iff.1 hy
      refine ⟨u, v ++ z, by simp, by simpa using hu, ih.2 ⟨v, z, rfl, hv, by simpa using hz⟩⟩

theorem covers_word_iff {cs : List Char} :
    Covers (all (cs.map fun c => letter (.exactly c))) before x after ↔ x = cs := by
  induction cs generalizing before x with
  | nil => exact covers_empty_iff
  | cons c cs ih =>
    have hcons (q : Pattern) (qs : List Pattern) : all (q :: qs) = both q (all qs) := rfl
    rw [List.map_cons, hcons, covers_both_iff]
    constructor
    · rintro ⟨y, z, rfl, hy, hz⟩
      rw [covers_exactly_iff.1 hy, ih.1 hz]
      rfl
    · rintro rfl
      exact ⟨[c], cs, rfl, covers_exactly_iff.2 rfl, ih.2 rfl⟩

end Covers

section Reading
variable {outer : List (List Pattern)} {parts : List Pattern}

theorem readOn?_plain {c : Char} (hc : isMark c = false) (r : List Char) :
    readOn? (c :: r) false outer parts = readOn? r false outer (letter (.exactly c) :: parts) := by
  have hne (d : Char) (hd : isMark d = true) : c ≠ d := by
    rintro rfl
    rw [hc] at hd
    cases hd
  simp [readOn?, hc, hne '\\' rfl, hne '(' rfl, hne ')' rfl, hne '*' rfl, hne '?' rfl,
    hne '.' rfl, hne '^' rfl, hne '$' rfl]

/-- A literal is read as the letters that it is made of: every mark in it is escaped. -/
theorem readOn?_literal (cs r : List Char) :
    readOn? ((cs.flatMap fun c => if isRegexMark c then ['\\', c] else [c]) ++ r) false outer parts
      = readOn? r false outer ((cs.map fun c => letter (.exactly c)).reverse ++ parts) := by
  induction cs generalizing parts with
  | nil => rfl
  | cons c cs ih =>
    have hmark : isRegexMark c = isMark c := rfl
    rw [List.flatMap_cons, List.append_assoc, List.map_cons, List.reverse_cons, List.append_assoc,
      List.singleton_append, ← ih]
    cases hc : isMark c with
    | true =>
      have hs : c ≠ 's' := by
        rintro rfl
        exact absurd hc (by decide)
      have he : escaped? c = some (letter (.exactly c)) := by simp [escaped?, hs, hc]
      simp [hmark, hc, readOn?, he]
    | false =>
      rw [hmark, hc, if_neg Bool.false_ne_true, List.singleton_append, readOn?_plain hc]

end Reading

end Pattern

end MeshRollout

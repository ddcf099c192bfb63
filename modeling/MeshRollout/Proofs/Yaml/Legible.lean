import MeshRollout.Proofs.Yaml.Nodes

/-!
Texts that stand for themselves where they are written without quotation marks. The writer looks out
for numbers as they are written; the reader takes some more texts for numbers, namely those that are
too large and those with a sign behind the mark of their base.
-/
set_option autoImplicit false

namespace MeshRollout.Numeral

def isNumberChar (c : Char) : Bool :=
  (digitValue? c).any (fun d => decide (d < 16)) || "xo+-.".toList.contains c

section Characters
variable {base : Nat} {cs : List Char} {c : Char}

theorem isNumberChar_of_isDigit (h : isDigit c = true) : isNumberChar c = true := by
  have hdigit : digitValue? c = some (c.toNat - '0'.toNat) := by
    rw [digitValue?, if_pos (by simpa [isDigit] using h)]
  have hsmall : c.toNat - '0'.toNat < 16 := by
    simp only [isDigit, Bool.and_eq_true, decide_eq_true_eq, Char.le_def,
      UInt32.le_iff_toNat_le] at h
    have hzero : '0'.toNat = 48 := rfl
    have hnine : ('9' : Char).val.toNat = 57 := rfl
    have hcode : c.toNat = c.val.toNat := rfl
    omega
  rw [isNumberChar, hdigit, Option.any_some, decide_eq_true hsmall, Bool.true_or]

theorem isNumberChar_of_digitsFrom? (hb : base ≤ 16) {acc n : Nat}
    (h : digitsFrom? base acc cs = some n) : ∀ c ∈ cs, isNumberChar c = true := by
  induction cs generalizing acc with
  | nil => nofun
  | cons c cs ih =>
    rw [digitsFrom?] at h
    split at h
    · rename_i d hd
      split at h
      · rename_i hlt
        refine List.forall_mem_cons.2 ⟨?_, ih h⟩
        have hsmall : d < 16 := Nat.lt_of_lt_of_le hlt hb
        simp [isNumberChar, hd, hsmall]
      · cases h
    · cases h

theorem isNumberChar_of_digits? (hb : base ≤ 16) {n : Nat} (h : digits? base cs = some n) :
    ∀ c ∈ cs, isNumberChar c = true := by
  cases cs with
  | nil => nofun
  | cons c cs => exact isNumberChar_of_digitsFrom? hb h

theorem isNumberChar_of_signed? (hb : base ≤ 16) {n : Int} (h : signed? base cs = some n) :
    ∀ c ∈ cs, isNumberChar c = true := by
  have hdigits {r : List Char} (hr : (digits? base r).isSome) : ∀ c ∈ r, isNumberChar c = true :=
    isNumberChar_of_digits? hb (Option.some_get hr).symm
  have hsome : ∃ r, (cs = r ∨ cs = '+' :: r ∨ cs = '-' :: r) ∧ (digits? base r).isSome := by
    unfold signed? at h
    split at h
    · exact ⟨_, .inr (.inl rfl), by cases hd : digits? base _ <;> simp [hd] at h ⊢⟩
    · exact ⟨_, .inr (.inr rfl), by cases hd : digits? base _ <;> simp [hd] at h ⊢⟩
    · exact ⟨_, .inl rfl, by cases hd : digits? base _ <;> simp [hd] at h ⊢⟩
  obtain ⟨r, rfl | rfl | rfl, hr⟩ := hsome
  · exact hdigits hr
  · exact List.forall_mem_cons.2 ⟨by decide, hdigits hr⟩
  · exact List.forall_mem_cons.2 ⟨by decide, hdigits hr⟩

theorem isNumberChar_of_int64? (hb : base ≤ 16) {n : Int} (h : int64? base cs = some n) :
    ∀ c ∈ cs, isNumberChar c = true :=
  isNumberChar_of_signed? hb (Option.filter_eq_some_iff.1 h).1

theorem isNumberChar_of_exponent? {n : Int} (h : exponent? cs = some n) :
    ∀ c ∈ cs, isNumberChar c = true := by
  cases cs with
  | nil => nofun
  | cons c cs =>
    rw [exponent?] at h
    split at h
    · rename_i hc
      refine List.forall_mem_cons.2 ⟨?_, isNumberChar_of_signed? (by decide) h⟩
      simp only [Bool.or_eq_true, decide_eq_true_eq] at hc
      rcases hc with rfl | rfl <;> decide
    · simp at h

theorem isNumberChar_of_spanDigits (h : ∀ c ∈ (spanDigits cs).2, isNumberChar c = true) :
    ∀ c ∈ cs, isNumberChar c = true := by
  intro c hc
  rw [← List.takeWhile_append_dropWhile (p := isDigit) (l := cs), List.mem_append] at hc
  rcases hc with hc | hc
  · exact isNumberChar_of_isDigit (List.all_eq_true.1 List.all_takeWhile c hc)
  · exact h c hc

theorem isNumberChar_of_magnitude? {b : Bool} {x : Binary64} (h : magnitude? b cs = some x) :
    ∀ c ∈ cs, isNumberChar c = true := by
  refine isNumberChar_of_spanDigits ?_
  simp only [magnitude?] at h
  split at h
  · rename_i r hr
    split at h
    · cases h
    · obtain ⟨e, he, -⟩ := Option.map_eq_some_iff.1 h
      rw [hr]
      exact List.forall_mem_cons.2
        ⟨by decide, isNumberChar_of_spanDigits (isNumberChar_of_exponent? he)⟩
  · split at h
    · cases h
    · obtain ⟨e, he, -⟩ := Option.map_eq_some_iff.1 h
      exact isNumberChar_of_exponent? he

theorem isNumberChar_of_binary64? {x : Binary64} (h : binary64? cs = some x) :
    ∀ c ∈ cs, isNumberChar c = true := by
  unfold binary64? at h
  split at h
  · exact List.forall_mem_cons.2 ⟨by decide, isNumberChar_of_magnitude? h⟩
  · exact List.forall_mem_cons.2 ⟨by decide, isNumberChar_of_magnitude? h⟩
  · exact isNumberChar_of_magnitude? h

theorem any_isDigit_of_spanDigits (h : (spanDigits cs).1.isEmpty = false) :
    cs.any isDigit = true := by
  obtain ⟨c, r, hr⟩ := List.exists_cons_of_ne_nil (List.isEmpty_eq_false_iff.1 h)
  have hc : c ∈ cs.takeWhile isDigit := by
    rw [show cs.takeWhile isDigit = c :: r from hr]
    exact List.mem_cons_self
  exact List.any_eq_true.2
    ⟨c, (List.takeWhile_prefix _).subset hc, List.all_eq_true.1 List.all_takeWhile c hc⟩

theorem any_isDigit_of_magnitude? {b : Bool} {x : Binary64} (h : magnitude? b cs = some x) :
    cs.any isDigit = true := by
  simp only [magnitude?] at h
  split at h
  · rename_i r hr
    split at h
    · cases h
    · rename_i hsome
      rw [Bool.and_eq_true, not_and_or, Bool.not_eq_true, Bool.not_eq_true] at hsome
      rcases hsome with hwhole | hfrac
      · exact any_isDigit_of_spanDigits hwhole
      · rw [← List.takeWhile_append_dropWhile (p := isDigit) (l := cs), List.any_append]
        have hrest : (cs.dropWhile isDigit).any isDigit = true := by
          rw [show cs.dropWhile isDigit = '.' :: r from hr, List.any_cons,
            any_isDigit_of_spanDigits hfrac, Bool.or_true]
        rw [hrest, Bool.or_true]
  · split at h
    · cases h
    · rename_i hsome
      exact any_isDigit_of_spanDigits (by simpa using hsome)

theorem any_isDigit_of_binary64? {x : Binary64} (h : binary64? cs = some x) :
    cs.any isDigit = true := by
  unfold binary64? at h
  split at h
  · rw [List.any_cons, any_isDigit_of_magnitude? h, Bool.or_true]
  · rw [List.any_cons, any_isDigit_of_magnitude? h, Bool.or_true]
  · exact any_isDigit_of_magnitude? h

theorem magnitude?_of_isSigned (h : Yaml.Plain.isSigned cs = true) (b : Bool) :
    magnitude? b cs = none := by
  cases cs with
  | nil => cases h
  | cons c cs =>
    have hc : c = '+' ∨ c = '-' := by simpa [Yaml.Plain.isSigned] using h
    rcases hc with rfl | rfl <;> rfl

end Characters

end MeshRollout.Numeral

namespace MeshRollout.Yaml
open Numeral
variable {s : String} {c : Char}

def Overflows (s : String) : Prop :=
  ∃ x, binary64? s.toList = some x ∧ x.isFinite = false

namespace Plain
variable {cs : List Char}

/-- What reads as a whole number is written in quotes. -/
theorem int64?_eq_none (hnatural : isNatural cs = false) (hnegative : isNegative cs = false)
    (hzero : isZeroLed cs = false) : int64? 10 cs = none := by
  have hword : Int.pow 2 63 = 9223372036854775808 := rfl
  have hlarge : Nat.pow 2 128 = 340282366920938463463374607431768211456 := rfl
  have hsmall : Nat.pow 2 127 = 170141183460469231731687303715884105728 := rfl
  rw [int64?, Option.filter_eq_none_iff]
  intro n hn hrange
  rw [Bool.and_eq_true, decide_eq_true_eq, decide_eq_true_eq, hword] at hrange
  unfold signed? at hn
  split at hn
  · rename_i r
    cases hd : digits? 10 r with
    | none => simp [hd] at hn
    | some m =>
      obtain rfl : (m : Int) = n := by simpa [hd] using hn
      simp [isNatural, hzero, hd] at hnatural
      omega
  · rename_i r
    cases hd : digits? 10 r with
    | none => simp [hd] at hn
    | some m =>
      obtain rfl : -(m : Int) = n := by simpa [hd] using hn
      simp [isNegative, hzero, hd] at hnegative
      omega
  · rename_i hplus hminus
    cases hd : digits? 10 cs with
    | none => simp [hd] at hn
    | some m =>
      obtain rfl : (m : Int) = n := by simpa [hd] using hn
      rw [isNatural] at hnatural
      · simp [hzero, hd] at hnatural
        omega
      · exact hplus

theorem isFinite_eq_false (h : Plain.isReal cs = false) {x : Binary64}
    (hx : binary64? cs = some x) : x.isFinite = false := by
  simp only [Plain.isReal, Bool.or_eq_false_iff] at h
  have hbody := h.2
  split at hbody
  · rename_i r
    have hr : magnitude? false r = some x := hx
    split at hbody
    · rename_i hsigned
      rw [magnitude?_of_isSigned hsigned] at hr
      cases hr
    · rename_i hsigned
      have hunsigned : binary64? r = magnitude? false r := by
        unfold binary64?
        split
        · exact absurd rfl hsigned
        · exact absurd rfl hsigned
        · rfl
      simpa [hunsigned, hr] using hbody
  · simpa [hx] using hbody

end Plain

/-- What stands without quotation marks is misread exactly if it is too large a number, or a number
with a sign behind the mark of its base. -/
theorem isLegible_iff (h : ScalarStyle.of s = .plain) :
    IsLegible s ↔ Node.markedInt? s.toList = none ∧ ¬ Overflows s := by
  obtain ⟨htaken, -⟩ := ScalarStyle.checks_of_plain h
  simp only [Plain.isTaken, Bool.or_eq_false_iff] at htaken
  obtain ⟨⟨⟨⟨⟨hnull, htruth⟩, hnatural⟩, hnegative⟩, hzero⟩, hreal⟩ := htaken
  simp only [Plain.isNull, Plain.isTruth, List.contains_eq_mem, decide_eq_false_iff_not,
    List.mem_cons, List.not_mem_nil, or_false, not_or] at hnull htruth
  have hwords : s ∉ Node.infinities ∧ s ∉ Node.notNumbers := by
    have hlist : ∀ t ∈ Node.infinities ++ Node.notNumbers, Plain.isReal t.toList = true := by decide
    have hword {t : String} (ht : t ∈ Node.infinities ++ Node.notNumbers) : s ≠ t := by
      rintro rfl
      exact absurd ((hlist s ht).symm.trans hreal) (by simp)
    exact ⟨fun hs => hword (List.mem_append_left _ hs) rfl,
      fun hs => hword (List.mem_append_right _ hs) rfl⟩
  have hoverflows : Node.isReal s = true ↔ Overflows s := by
    simp only [Node.isReal, List.contains_eq_mem, hwords, decide_false, Bool.false_or,
      Bool.and_eq_true, Option.isSome_iff_exists, Overflows]
    exact ⟨fun ⟨_, x, hx⟩ => ⟨x, hx, Plain.isFinite_eq_false hreal hx⟩,
      fun ⟨x, hx, _⟩ => ⟨any_isDigit_of_binary64? hx, x, hx⟩⟩
  have hint : int64? 10 s.toList = none := Plain.int64?_eq_none hnatural hnegative hzero
  rw [IsLegible, ← hoverflows, Node.ofPlain]
  cases hm : Node.markedInt? s.toList with
  | some n => simp [h]
  | none => cases hr : Node.isReal s <;> simp [h, hnull, htruth, hint]

instance (s : String) : Decidable (Overflows s) :=
  decidable_of_iff ((binary64? s.toList).any (fun x => !x.isFinite) = true) <| by
    simp [Overflows, Option.any_eq_true]

instance (s : String) : Decidable (IsLegible s) :=
  decidable_of_iff (ScalarStyle.of s = .plain →
      (Node.markedInt? s.toList).isNone = true ∧ ¬ Overflows s) <| by
    simp only [Option.isNone_iff_eq_none]
    exact ⟨fun h hs => (isLegible_iff hs).2 (h hs) hs, fun h hs => (isLegible_iff hs).1 h⟩

theorem isLegible_of_mem (hc : c ∈ s.toList) (hn : isNumberChar c = false) : IsLegible s := by
  have habsent {cs : List Char} (hcs : ∀ d ∈ cs, isNumberChar d = true) : c ∉ cs := fun hmem =>
    absurd (hcs c hmem) (by simp [hn])
  intro hstyle
  refine (isLegible_iff hstyle).2 ⟨?_, fun ⟨x, hx, _⟩ =>
    habsent (isNumberChar_of_binary64? hx) hc⟩ hstyle
  rw [Option.eq_none_iff_forall_ne_some]
  intro n hmarked
  unfold Node.markedInt? at hmarked
  refine habsent ?_ hc
  split at hmarked
  · rename_i hs
    rw [hs]
    exact List.forall_mem_cons.2 ⟨by decide, List.forall_mem_cons.2
      ⟨by decide, isNumberChar_of_int64? (by decide) hmarked⟩⟩
  · rename_i hs
    rw [hs]
    exact List.forall_mem_cons.2 ⟨by decide, List.forall_mem_cons.2
      ⟨by decide, isNumberChar_of_int64? (by decide) hmarked⟩⟩
  · rename_i hs
    rw [hs]
    exact List.forall_mem_cons.2 ⟨by decide, isNumberChar_of_int64? (by decide) hmarked⟩
  · cases hmarked

def isNumberStart (c : Char) : Bool :=
  isDigit c || c == '+' || c == '-' || c == '.'

theorem isLegible_of_head {r : List Char} (hs : s.toList = c :: r) (hc : isNumberStart c = false) :
    IsLegible s := by
  simp only [isNumberStart, Bool.or_eq_false_iff, beq_eq_false_iff_ne] at hc
  obtain ⟨⟨⟨hdigit, hplus⟩, hminus⟩, hpoint⟩ := hc
  intro hstyle
  refine (isLegible_iff hstyle).2 ⟨?_, fun ⟨x, hx, _⟩ => ?_⟩ hstyle
  · have hzero : c ≠ '0' := by
      rintro rfl
      exact absurd hdigit (by decide)
    rw [hs, Node.markedInt?]
    · rintro r' ⟨⟩
      exact hzero rfl
    · rintro r' ⟨⟩
      exact hzero rfl
    · rintro r' ⟨⟩
      exact hplus rfl
  · have hspan : spanDigits (c :: r) = ([], c :: r) := by simp [spanDigits, hdigit]
    have hnone : magnitude? false (c :: r) = none := by
      simp only [magnitude?, hspan]
      split
      · rename_i r' hr'
        exact absurd (List.cons.inj hr').1 hpoint
      · rfl
    rw [hs, binary64?, hnone] at hx
    · cases hx
    · exact fun r' hr' => hplus (List.cons.inj hr').1
    · exact fun r' hr' => hminus (List.cons.inj hr').1

end MeshRollout.Yaml

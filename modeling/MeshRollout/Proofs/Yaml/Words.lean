import MeshRollout.Proofs.Number.Digits
import MeshRollout.Proofs.Yaml.Styles
import MeshRollout.Yaml.Node

/-!
Words that stand for values. Whole numbers are written in plain digits and read back as numbers.
-/
set_option autoImplicit false

namespace MeshRollout

namespace Numeral

theorem toList_toString (i : Int) :
    (toString i).toList = (if i < 0 then ['-'] else []) ++ Nat.toDigits 10 i.natAbs := by
  cases i with
  | ofNat n =>
    have h : (toString (Int.ofNat n)).toList = Nat.toDigits 10 n := Nat.toList_repr
    have hn : ¬ (Int.ofNat n : Int) < 0 := Int.not_lt.2 (Int.natCast_nonneg n)
    rw [if_neg hn, h]
    rfl
  | negSucc n =>
    have h : (toString (Int.negSucc n)).toList = '-' :: Nat.toDigits 10 (n + 1) := by
      change ("-" ++ (n + 1).repr).toList = _
      rw [String.toList_append, Nat.toList_repr]
      rfl
    simpa using h

theorem isDigit_of_mem {n : Nat} {c : Char} (h : c ∈ Nat.toDigits 10 n) : isDigit c = true := by
  have hc := Nat.isDigit_of_mem_toDigits (by decide) (by decide) h
  simpa [Char.isDigit, isDigit, Char.le_def] using hc

theorem signed?_toString (i : Int) : signed? 10 (toString i).toList = some i := by
  rw [toList_toString]
  by_cases hi : i < 0
  · rw [if_pos hi, List.singleton_append, signed?, digits?_ten_toDigits]
    change some (-(i.natAbs : Int)) = some i
    rw [Option.some.injEq]
    omega
  · rw [if_neg hi, List.nil_append]
    obtain ⟨c, cs, hcs⟩ := List.exists_cons_of_ne_nil
      (Nat.toDigits_ne_nil : Nat.toDigits 10 i.natAbs ≠ [])
    have hc : isDigit c = true := isDigit_of_mem (n := i.natAbs) (by simp [hcs])
    rw [hcs, signed?_of_digit hc, ← hcs, digits?_ten_toDigits]
    change some (i.natAbs : Int) = some i
    rw [Option.some.injEq]
    omega

theorem int64?_toString {i : Int} (hlo : -(Int.pow 2 63) ≤ i) (hhi : i < Int.pow 2 63) :
    int64? 10 (toString i).toList = some i := by
  rw [int64?, signed?_toString, Option.filter_some, if_pos (by simp only [hlo, hhi]; decide)]

end Numeral

namespace Yaml

theorem mem_of_isDigit {c : Char} (h : Numeral.isDigit c = true) : c ∈ "0123456789".toList := by
  simp only [Numeral.isDigit, Bool.and_eq_true, decide_eq_true_eq, Char.le_def,
    UInt32.le_iff_toNat_le] at h
  have hlo : 48 ≤ c.toNat := h.1
  have hhi : c.toNat ≤ 57 := h.2
  have hc : c = Char.ofNat c.toNat := (Char.ofNat_toNat c).symm
  generalize c.toNat = n at hlo hhi hc
  subst hc
  obtain ⟨k, rfl⟩ := Nat.exists_eq_add_of_le hlo
  have hall : ∀ k < 10, Char.ofNat (48 + k) ∈ "0123456789".toList := by decide
  exact hall k (by omega)

section Digits
variable {cs : List Char} (h : ∀ c ∈ cs, Numeral.isDigit c = true)
include h

theorem isLine_of_digits : IsLine cs := by
  have hall : ∀ c ∈ "0123456789".toList, isPlainlyWritten c = true ∧ isBreakMark c = false :=
    forall_mem_of_all (by decide)
  exact fun c hc => hall c (mem_of_isDigit (h c hc))

theorem hasMark_of_digits (p : Char) : hasMark p cs = false := by
  have hall : ∀ c ∈ "0123456789".toList, (c == ':') = false ∧ (c == '#') = false :=
    forall_mem_of_all (by decide)
  induction cs generalizing p with
  | nil => rfl
  | cons c cs ih =>
    obtain ⟨hc, hcs⟩ := List.forall_mem_cons.1 h
    obtain ⟨hcolon, hhash⟩ := hall c (mem_of_isDigit hc)
    rw [hasMark, hcolon, hhash, ih hcs]
    rfl

end Digits

theorem exists_toString (i : Int) :
    ∃ c r, (toString i).toList = c :: r ∧ (∀ d ∈ r, Numeral.isDigit d = true) ∧
      (Numeral.isDigit c = true ∨ c = '-' ∧ r ≠ []) := by
  have hdigits : ∀ d ∈ Nat.toDigits 10 i.natAbs, Numeral.isDigit d = true :=
    fun d hd => Numeral.isDigit_of_mem hd
  have hne : Nat.toDigits 10 i.natAbs ≠ [] := Nat.toDigits_ne_nil
  rw [Numeral.toList_toString]
  by_cases hi : i < 0
  · rw [if_pos hi]
    exact ⟨'-', _, rfl, hdigits, .inr ⟨rfl, hne⟩⟩
  · rw [if_neg hi, List.nil_append]
    obtain ⟨c, r, hcs⟩ := List.exists_cons_of_ne_nil hne
    rw [hcs] at hdigits ⊢
    obtain ⟨hc, hr⟩ := List.forall_mem_cons.1 hdigits
    exact ⟨c, r, rfl, hr, .inl hc⟩

theorem hasIndicator_of_digits {c : Char} {r : List Char}
    (hr : ∀ d ∈ r, Numeral.isDigit d = true) (hc : Numeral.isDigit c = true ∨ c = '-' ∧ r ≠ []) :
    hasIndicator (c :: r) = false := by
  have hmark := hasMark_of_digits hr c
  have hdigit : ∀ c ∈ "0123456789".toList, "#,[]{}&*!|>\"%@`".toList.contains c = false ∧
      (c == apostrophe) = false ∧ (c == '?' || c == ':' || c == '-') = false ∧
      c ≠ '-' ∧ c ≠ '.' ∧ isBlankEnd (some c) = false :=
    forall_mem_of_all (by decide)
  rcases hc with hc | ⟨rfl, hne⟩
  · obtain ⟨h1, h2, h3, h4, h5, -⟩ := hdigit c (mem_of_isDigit hc)
    simp only [hasIndicator, isLeadMark, h1, h2, h3, hmark, Bool.or_self, Bool.false_and,
      Bool.or_false]
    simp [Text.startsWith, Text.dropLead?, h4.symm, h5.symm]
  · obtain ⟨d, r, rfl⟩ := List.exists_cons_of_ne_nil hne
    obtain ⟨-, -, -, h4, -, h6⟩ := hdigit d (mem_of_isDigit (hr d List.mem_cons_self))
    simp only [hasIndicator, isLeadMark, List.head?_cons, h6, hmark, Bool.and_false, Bool.or_false]
    simp [Text.startsWith, Text.dropLead?, h4.symm, apostrophe]

theorem isPlain_toString (i : Int) : IsPlain (toString i).toList := by
  obtain ⟨c, r, hcs, hr, hc⟩ := exists_toString i
  rw [hcs]
  have hblank : ' ' ∉ c :: r := by
    have hno : Numeral.isDigit ' ' = false := by decide
    rw [List.mem_cons, not_or]
    refine ⟨?_, fun hmem => absurd (hr _ hmem) (by simp [hno])⟩
    rintro rfl
    rcases hc with hc | hc
    · exact absurd hc (by simp [hno])
    · exact absurd hc.1 (by decide)
  refine ⟨?_, by simp, ?_, ?_, hasIndicator_of_digits hr hc⟩
  · refine List.forall_mem_cons.2 ⟨?_, isLine_of_digits hr⟩
    rcases hc with hc | ⟨rfl, -⟩
    · have hdigit : ∀ d ∈ [c], Numeral.isDigit d = true := by simpa using hc
      exact isLine_of_digits hdigit c List.mem_cons_self
    · decide
  · exact fun h => hblank (List.mem_of_head? h)
  · exact fun h => hblank (List.mem_of_getLast? h)

theorem isPlain_null : IsPlain "null".toList :=
  ⟨by decide, by decide, by decide, by decide, by decide⟩

theorem isPlain_bool (b : Bool) : IsPlain (if b then "true" else "false").toList := by
  cases b <;> exact ⟨by decide, by decide, by decide, by decide, by decide⟩

theorem ofPlain_toString {i : Int} (hlo : -(Int.pow 2 63) ≤ i) (hhi : i < Int.pow 2 63) :
    Node.ofPlain (toString i) = .int i := by
  have hint := Numeral.int64?_toString hlo hhi
  obtain ⟨c, r, hcs, hr, hc⟩ := exists_toString i
  have hmarked : Node.markedInt? (toString i).toList = none := by
    rw [hcs, Node.markedInt?.eq_def]
    split
    · rename_i heq
      cases heq
      exact absurd (hr 'x' List.mem_cons_self) (by decide)
    · rename_i heq
      cases heq
      exact absurd (hr 'o' List.mem_cons_self) (by decide)
    · rename_i heq
      cases heq
      rcases hc with hc | hc
      · exact absurd hc (by decide)
      · exact absurd hc.1 (by decide)
    · rfl
  have hword (w : String) (hw : (w.toList.head?.all fun d => !Numeral.isDigit d && d != '-') = true) :
      (toString i == w) = false := by
    rw [beq_eq_false_iff_ne]
    intro h
    rw [h] at hcs
    obtain ⟨hd, hne⟩ : Numeral.isDigit c = false ∧ c ≠ '-' := by simpa [hcs] using hw
    rcases hc with hc | hc
    · exact absurd hc (by simp [hd])
    · exact hne hc.1
  have hempty : (toString i == "") = false := by
    rw [beq_eq_false_iff_ne]
    intro h
    rw [h] at hcs
    cases hcs
  rw [Node.ofPlain, hmarked]
  simp only [hempty, hword "~" (by decide), hword "null" (by decide), hword "true" (by decide),
    hword "True" (by decide), hword "TRUE" (by decide), hword "false" (by decide),
    hword "False" (by decide), hword "FALSE" (by decide), Bool.or_self, Bool.false_eq_true,
    if_false, hint]

end Yaml

end MeshRollout

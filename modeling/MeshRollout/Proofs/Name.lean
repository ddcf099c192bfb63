import MeshRollout.Name

/-!
Labels hold no point, so a point between two labels can be found again. The same goes for every
mark that the text in front of it does not hold, and numbers are written in digits alone.
-/
set_option autoImplicit false

namespace MeshRollout

theorem labelFault?_eq_none_iff {s : String} :
    labelFault? s = none ↔
      s.toList ≠ [] ∧ s.utf8ByteSize ≤ maxLabelLength ∧ (∀ c ∈ s.toList, isLabelChar c = true) ∧
        s.toList.head? ≠ some '-' ∧ s.toList.getLast? ≠ some '-' := by
  simp only [labelFault?]
  by_cases he : s.toList = []
  · simp [he]
  by_cases hl : maxLabelLength < s.utf8ByteSize
  · have hl' : ¬ s.utf8ByteSize ≤ maxLabelLength := by omega
    simp [he, hl, hl']
  by_cases hc : s.toList.all isLabelChar = true
  · have hl' : s.utf8ByteSize ≤ maxLabelLength := by omega
    have hc' := List.all_eq_true.1 hc
    by_cases hh : s.toList.head? = some '-'
    · simp [he, hl, hc, hh]
    by_cases ht : s.toList.getLast? = some '-'
    · simp [he, hl, hc, ht]
    simpa [he, hl, hl', hc, hh, ht] using hc'
  · have hc' : ¬ ∀ c ∈ s.toList, isLabelChar c = true := fun h => hc (List.all_eq_true.2 h)
    simp [he, hl, hc, hc']

theorem point_not_mem_of_label {s : String} (h : labelFault? s = none) : '.' ∉ s.toList := by
  intro hm
  have hc := (labelFault?_eq_none_iff.1 h).2.2.1 '.' hm
  exact absurd hc (by decide)

/-- Text in front of the first mark is fixed by the whole. -/
theorem append_mark_inj {m : Char} {a b x y : List Char} (ha : m ∉ a) (hb : m ∉ b)
    (h : a ++ m :: x = b ++ m :: y) : a = b ∧ x = y := by
  induction a generalizing b with
  | nil =>
    cases b with
    | nil => simpa using h
    | cons d b =>
      have hd : m = d := (List.cons.inj h).1
      exact absurd (hd ▸ List.mem_cons_self) hb
  | cons c a ih =>
    cases b with
    | nil =>
      have hc : c = m := (List.cons.inj h).1
      exact absurd (hc ▸ List.mem_cons_self) ha
    | cons d b =>
      obtain ⟨hcd, hr⟩ := List.cons.inj h
      have hi := ih (fun hm => ha (List.mem_cons_of_mem _ hm))
        (fun hm => hb (List.mem_cons_of_mem _ hm)) hr
      exact ⟨by rw [hcd, hi.1], hi.2⟩

/-- A point behind a label ends it. -/
theorem label_point_inj {a b x y : String} (ha : labelFault? a = none) (hb : labelFault? b = none)
    (h : a ++ ("." ++ x) = b ++ ("." ++ y)) : a = b ∧ x = y := by
  have hpoint : ".".toList = ['.'] := by decide
  have hl := congrArg String.toList h
  simp only [String.toList_append, hpoint, List.cons_append, List.nil_append] at hl
  obtain ⟨hab, hxy⟩ := append_mark_inj (point_not_mem_of_label ha) (point_not_mem_of_label hb) hl
  exact ⟨String.toList_injective hab, String.toList_injective hxy⟩

theorem isDigit_of_mem_number {n : Nat} {c : Char} (h : c ∈ (toString n).toList) :
    c.isDigit = true := by
  rw [Nat.toString_eq_repr, Nat.toList_repr] at h
  exact Nat.isDigit_of_mem_toDigits (by decide) (by decide) h

theorem number_inj {m n : Nat} (h : toString m = toString n) : m = n := by
  have hd : Nat.toDigits 10 m = Nat.toDigits 10 n := by
    rw [← Nat.toList_repr, ← Nat.toList_repr]
    exact congrArg String.toList h
  rw [← Nat.ofDigitChars_ten_toDigits (n := m), hd, Nat.ofDigitChars_ten_toDigits]

end MeshRollout

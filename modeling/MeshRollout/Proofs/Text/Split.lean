import MeshRollout.Text.Blank
import MeshRollout.Text.Split

/-!
Pieces that hold no separator come back from the text that joins them, and a run from the text that
goes on behind it. What a text contains, a text that is longer at either end contains too.
-/
set_option autoImplicit false

namespace MeshRollout.Text

section Runs
variable {α : Type} {p : α → Bool} {a b : List α}

theorem takeWhile_append_of_stop (ha : ∀ x ∈ a, p x = true) (hb : ∀ x ∈ b.head?, p x = false) :
    (a ++ b).takeWhile p = a := by
  rw [List.takeWhile_append_of_pos ha]
  cases b with
  | nil => simp
  | cons x b => simp [hb x rfl]

theorem dropWhile_append_of_stop (ha : ∀ x ∈ a, p x = true) (hb : ∀ x ∈ b.head?, p x = false) :
    (a ++ b).dropWhile p = b := by
  rw [List.dropWhile_append_of_pos ha]
  cases b with
  | nil => rfl
  | cons x b => simp [hb x rfl]

theorem stop_of_dropWhile {l : List α} : ∀ x ∈ (l.dropWhile p).head?, p x = false := by
  intro x hx
  have h := List.head?_dropWhile_not p l
  rw [Option.mem_def.1 hx] at h
  exact h

end Runs

theorem splitOn_of_not_mem {sep : Char} {a : List Char} (h : sep ∉ a) : splitOn sep a = [a] := by
  induction a with
  | nil => rfl
  | cons c a ih =>
    have hc : c ≠ sep := fun he => h (he ▸ List.mem_cons_self)
    have hr := ih fun hm => h (List.mem_cons_of_mem _ hm)
    simp [splitOn, hc, hr]

theorem splitOn_append {sep : Char} {a b : List Char} (h : sep ∉ a) :
    splitOn sep (a ++ sep :: b) = a :: splitOn sep b := by
  induction a with
  | nil => simp [splitOn]
  | cons c a ih =>
    have hc : c ≠ sep := fun he => h (he ▸ List.mem_cons_self)
    have hr := ih fun hm => h (List.mem_cons_of_mem _ hm)
    simp [splitOn, hc, hr]

theorem splitOn_ne_nil (sep : Char) (cs : List Char) : splitOn sep cs ≠ [] := by
  cases cs with
  | nil => simp [splitOn]
  | cons c cs =>
    rw [splitOn]
    split
    · simp
    · split <;> simp

/-- A separator parts the pieces in front of it from those behind it. -/
theorem splitOn_around (sep : Char) (a b : List Char) :
    splitOn sep (a ++ sep :: b) = splitOn sep a ++ splitOn sep b := by
  induction a with
  | nil => simp [splitOn]
  | cons c a ih =>
    by_cases hc : c = sep
    · simp [splitOn, hc, ih]
    · obtain ⟨p, ps, hp⟩ := List.exists_cons_of_ne_nil (splitOn_ne_nil sep a)
      simp [splitOn, hc, ih, hp]

theorem exists_of_splitOn {sep : Char} {cs : List Char} {l₁ l₂ : List (List Char)}
    (h : splitOn sep cs = l₁ ++ l₂) (h₁ : l₁ ≠ []) (h₂ : l₂ ≠ []) :
    ∃ a b, cs = a ++ sep :: b ∧ splitOn sep a = l₁ ∧ splitOn sep b = l₂ := by
  induction cs generalizing l₁ with
  | nil =>
    obtain ⟨p, l₁, rfl⟩ := List.exists_cons_of_ne_nil h₁
    have hnil := (List.cons.inj h).2.symm
    exact absurd (List.append_eq_nil_iff.1 hnil).2 h₂
  | cons c cs ih =>
    obtain ⟨p, l₁, rfl⟩ := List.exists_cons_of_ne_nil h₁
    by_cases hc : c = sep
    · simp only [splitOn, hc, ↓reduceIte, List.cons_append, List.cons.injEq] at h
      obtain ⟨rfl, h⟩ := h
      cases l₁ with
      | nil => exact ⟨[], cs, by rw [hc]; rfl, rfl, h⟩
      | cons q l₁ =>
        obtain ⟨a, b, rfl, ha, hb⟩ := ih h (List.cons_ne_nil _ _)
        exact ⟨c :: a, b, rfl, by simp [splitOn, hc, ha], hb⟩
    · obtain ⟨q, qs, hq⟩ := List.exists_cons_of_ne_nil (splitOn_ne_nil sep cs)
      simp only [splitOn, hc, ↓reduceIte, hq, List.cons_append, List.cons.injEq] at h
      obtain ⟨rfl, h⟩ := h
      have hcs : splitOn sep cs = (q :: l₁) ++ l₂ := by rw [hq, h, List.cons_append]
      obtain ⟨a, b, rfl, ha, hb⟩ := ih hcs (List.cons_ne_nil _ _)
      exact ⟨c :: a, b, rfl, by simp [splitOn, hc, ha], hb⟩

theorem flatMap_splitOn (sep : Char) (cs : List Char) :
    (splitOn sep cs).flatMap (· ++ [sep]) = cs ++ [sep] := by
  induction cs with
  | nil => rfl
  | cons c cs ih =>
    by_cases hc : c = sep
    · simp [splitOn, hc, ih]
    · obtain ⟨p, ps, hp⟩ := List.exists_cons_of_ne_nil (splitOn_ne_nil sep cs)
      simpa [splitOn, hc, hp] using ih

theorem eq_of_splitOn_singleton {sep : Char} {cs p : List Char} (h : splitOn sep cs = [p]) :
    cs = p := by
  induction cs generalizing p with
  | nil => exact (List.cons.inj h).1
  | cons c cs ih =>
    obtain ⟨q, qs, hq⟩ := List.exists_cons_of_ne_nil (splitOn_ne_nil sep cs)
    by_cases hc : c = sep
    · simp [splitOn, hc, hq] at h
    · simp only [splitOn, hc, ↓reduceIte, hq, List.cons.injEq] at h
      obtain ⟨rfl, rfl⟩ := h
      rw [ih hq]

theorem splitOn_joinWith {sep : Char} {mark : String} (hmark : mark.toList = [sep])
    {l : List String} (hne : l ≠ []) (h : ∀ s ∈ l, sep ∉ s.toList) :
    splitOn sep (joinWith mark l).toList = l.map String.toList := by
  induction l with
  | nil => exact absurd rfl hne
  | cons s l ih =>
    have hs := h s List.mem_cons_self
    cases l with
    | nil => exact splitOn_of_not_mem hs
    | cons s' l =>
      have hrest := ih (List.cons_ne_nil _ _) fun t ht => h t (List.mem_cons_of_mem _ ht)
      rw [joinWith, String.toList_append, String.toList_append, hmark, List.append_assoc,
        List.singleton_append, splitOn_append hs, hrest, List.map_cons, List.map_cons,
        List.map_cons]
      exact List.cons_ne_nil _ _

/-- Texts that hold no separator are told by the text that joins them. -/
theorem joinWith_inj {sep : Char} {mark : String} (hmark : mark.toList = [sep])
    {a b : List String} (ha : a ≠ []) (hb : b ≠ []) (hsa : ∀ s ∈ a, sep ∉ s.toList)
    (hsb : ∀ s ∈ b, sep ∉ s.toList) (h : joinWith mark a = joinWith mark b) : a = b := by
  have hmap : a.map String.toList = b.map String.toList := by
    rw [← splitOn_joinWith hmark ha hsa, h, splitOn_joinWith hmark hb hsb]
  exact (List.map_inj_right fun _ _ he => String.toList_injective he).1 hmap

theorem count_joinWith (c : Char) (mark : String) {a b : List String}
    (h : a.map (·.toList.count c) = b.map (·.toList.count c)) :
    (joinWith mark a).toList.count c = (joinWith mark b).toList.count c := by
  induction a generalizing b with
  | nil => rw [List.map_eq_nil_iff.1 h.symm]
  | cons s a ih =>
    obtain ⟨t, b, rfl⟩ := List.exists_cons_of_ne_nil fun hb : b = [] => by simp [hb] at h
    obtain ⟨hst, hab⟩ := List.cons.inj h
    have hrest := ih hab
    cases a with
    | nil =>
      rw [List.map_eq_nil_iff.1 hab.symm]
      exact hst
    | cons s' a =>
      obtain ⟨t', b, rfl⟩ := List.exists_cons_of_ne_nil fun hb : b = [] => by simp [hb] at hab
      simp only [joinWith, String.toList_append, List.count_append, hrest, hst]

theorem splitOnce_append {sep : Char} {a b : List Char} (h : sep ∉ a) :
    splitOnce sep (a ++ sep :: b) = some (a, b) := by
  induction a with
  | nil => simp [splitOnce]
  | cons c a ih =>
    have hc : c ≠ sep := fun he => h (he ▸ List.mem_cons_self)
    have hr := ih fun hm => h (List.mem_cons_of_mem _ hm)
    simp [splitOnce, hc, hr]

theorem splitOnce_eq_some {sep : Char} {cs a b : List Char}
    (h : splitOnce sep cs = some (a, b)) : sep ∉ a ∧ cs = a ++ sep :: b := by
  induction cs generalizing a with
  | nil => nomatch h
  | cons c cs ih =>
    by_cases hc : c = sep
    · simp only [splitOnce, hc, ↓reduceIte, Option.some.injEq, Prod.mk.injEq] at h
      obtain ⟨rfl, rfl⟩ := h
      exact ⟨List.not_mem_nil, by rw [hc]; rfl⟩
    · simp only [splitOnce, hc, ↓reduceIte, Option.map_eq_some_iff] at h
      obtain ⟨⟨a', b'⟩, hs, he⟩ := h
      cases he
      obtain ⟨hn, rfl⟩ := ih hs
      exact ⟨by simp [Ne.symm hc, hn], rfl⟩

theorem dropLead?_eq_some_iff {lead cs rest : List Char} :
    dropLead? lead cs = some rest ↔ cs = lead ++ rest := by
  induction lead generalizing cs with
  | nil => simp [dropLead?]
  | cons l lead ih =>
    cases cs with
    | nil => simp [dropLead?]
    | cons c cs =>
      by_cases hc : l = c
      · simp [dropLead?, hc, ih]
      · simp [dropLead?, hc, Ne.symm hc]

theorem subset_of_mem_splitOn {sep : Char} {cs p : List Char} (h : p ∈ splitOn sep cs) : p ⊆ cs := by
  induction cs generalizing p with
  | nil =>
    obtain rfl : p = [] := by simpa [splitOn] using h
    exact List.nil_subset _
  | cons c cs ih =>
    obtain ⟨q, qs, hq⟩ := List.exists_cons_of_ne_nil (splitOn_ne_nil sep cs)
    have hcs {p : List Char} (hp : p ∈ q :: qs) : p ⊆ c :: cs :=
      List.subset_cons_of_subset c (ih (hq ▸ hp))
    by_cases hc : c = sep
    · simp only [splitOn, hc, ↓reduceIte, hq, List.mem_cons] at h
      rcases h with rfl | h
      · exact List.nil_subset _
      · exact hcs (List.mem_cons.2 h)
    · simp only [splitOn, hc, ↓reduceIte, hq, List.mem_cons] at h
      rcases h with rfl | h
      · exact List.cons_subset_cons c (ih (hq ▸ List.mem_cons_self))
      · exact hcs (List.mem_cons_of_mem _ h)

theorem not_mem_of_mem_splitOn {sep : Char} {cs p : List Char} (h : p ∈ splitOn sep cs) :
    sep ∉ p := by
  induction cs generalizing p with
  | nil =>
    obtain rfl : p = [] := by simpa [splitOn] using h
    exact List.not_mem_nil
  | cons c cs ih =>
    obtain ⟨q, qs, hq⟩ := List.exists_cons_of_ne_nil (splitOn_ne_nil sep cs)
    by_cases hc : c = sep
    · simp only [splitOn, hc, ↓reduceIte, List.mem_cons] at h
      rcases h with rfl | h
      · exact List.not_mem_nil
      · exact ih h
    · simp only [splitOn, hc, ↓reduceIte, hq, List.mem_cons] at h
      rcases h with rfl | h
      · exact List.not_mem_cons_of_ne_of_not_mem (Ne.symm hc) (ih (hq ▸ List.mem_cons_self))
      · exact ih (hq ▸ List.mem_cons_of_mem _ h)

theorem trim_of_not_blank {cs : List Char} (h : ∀ c ∈ cs, isBlank c = false) : trim cs = cs := by
  have drop (l : List Char) (hl : ∀ c ∈ l, isBlank c = false) : l.dropWhile isBlank = l := by
    cases l with
    | nil => rfl
    | cons c l => simp [hl c List.mem_cons_self]
  rw [trim, trimEnd, trimStart, drop cs h,
    drop cs.reverse fun c hc => h c (List.mem_reverse.1 hc), List.reverse_reverse]

theorem trimStart_append {a cs : List Char} (ha : ∀ c ∈ a, isBlank c = true) :
    trimStart (a ++ cs) = trimStart cs := by
  induction a with
  | nil => rfl
  | cons c a ih =>
    obtain ⟨hc, ha⟩ := List.forall_mem_cons.1 ha
    rw [trimStart, List.cons_append, List.dropWhile_cons_of_pos hc]
    exact ih ha

theorem trimEnd_append {a cs : List Char} (ha : ∀ c ∈ a, isBlank c = true) :
    trimEnd (cs ++ a) = trimEnd cs := by
  have hr : trimStart (a.reverse ++ cs.reverse) = trimStart cs.reverse :=
    trimStart_append fun c hc => ha c (List.mem_reverse.1 hc)
  rw [trimEnd, List.reverse_append, ← trimStart, hr]
  rfl

theorem trim_around {a cs b : List Char} (ha : ∀ c ∈ a, isBlank c = true)
    (hcs : ∀ c ∈ cs, isBlank c = false) (hb : ∀ c ∈ b, isBlank c = true) :
    trim (a ++ cs ++ b) = cs := by
  have hword : trim cs = cs := trim_of_not_blank hcs
  cases cs with
  | nil =>
    rw [List.append_nil, trim, trimStart_append ha, ← List.append_nil b, trimStart_append hb]
    rfl
  | cons c cs =>
    have hc := hcs c List.mem_cons_self
    rw [trim, List.append_assoc, trimStart_append ha]
    have hstart : trimStart (c :: cs ++ b) = c :: cs ++ b := by simp [trimStart, hc]
    rw [hstart, trimEnd_append hb]
    simpa [trim, trimStart, hc] using hword

theorem exists_around_trim (cs : List Char) :
    ∃ a b, cs = a ++ trim cs ++ b ∧ (∀ c ∈ a, isBlank c = true) ∧ ∀ c ∈ b, isBlank c = true := by
  have hfront : cs = cs.takeWhile isBlank ++ trimStart cs := List.takeWhile_append_dropWhile.symm
  have hback : trimStart cs
      = trim cs ++ ((trimStart cs).reverse.takeWhile isBlank).reverse := by
    have h := congrArg List.reverse
      (List.takeWhile_append_dropWhile (p := isBlank) (l := (trimStart cs).reverse)).symm
    rw [List.reverse_reverse, List.reverse_append] at h
    exact h
  refine ⟨cs.takeWhile isBlank, ((trimStart cs).reverse.takeWhile isBlank).reverse, ?_, ?_, ?_⟩
  · rw [List.append_assoc, ← hback]
    exact hfront
  · exact fun c hc => List.all_eq_true.1 List.all_takeWhile c hc
  · exact fun c hc => List.all_eq_true.1 List.all_takeWhile c (List.mem_reverse.1 hc)

section Contains

variable {needle a : List Char}

theorem startsWith_append (h : startsWith needle a = true) (b : List Char) :
    startsWith needle (a ++ b) = true := by
  induction needle generalizing a with
  | nil => rfl
  | cons c needle ih =>
    cases a with
    | nil => nomatch h
    | cons c' a =>
      by_cases hc : c = c'
      · simp only [startsWith, dropLead?, hc, ↓reduceIte, List.cons_append] at h ⊢
        exact ih h
      · simp [startsWith, dropLead?, hc] at h

theorem contains_append_right (h : contains needle a = true) (b : List Char) :
    contains needle (b ++ a) = true := by
  induction b with
  | nil => exact h
  | cons c b ih => simp [contains, ih]

theorem contains_append_left (h : contains needle a = true) (b : List Char) :
    contains needle (a ++ b) = true := by
  induction a with
  | nil =>
    obtain rfl : needle = [] := by simpa [contains] using h
    cases b <;> rfl
  | cons c a ih =>
    rcases Bool.or_eq_true_iff.1 h with h | h
    · simp only [List.cons_append, contains, Bool.or_eq_true]
      exact .inl (startsWith_append h b)
    · simp only [List.cons_append, contains, Bool.or_eq_true]
      exact .inr (ih h)

end Contains

end MeshRollout.Text

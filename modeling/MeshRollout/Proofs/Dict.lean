import MeshRollout.Dict

/-!
Dictionaries keep the order of their keys, so an entry and what its key gives are the same thing.
When pairs are entered in turn, the last pair of a key decides.
-/
set_option autoImplicit false

namespace MeshRollout.Dict
variable {α β : Type}

theorem mem_of_get {k : String} {v : α} {d : Dict α} (h : get k d = some v) : (k, v) ∈ d := by
  induction d with
  | nil => simp at h
  | cons p r ih =>
    obtain ⟨k', v'⟩ := p
    by_cases hk : k = k'
    · simp only [get, hk, ↓reduceIte, Option.some.injEq] at h
      simp [hk, h]
    · simp only [get, hk, ↓reduceIte] at h
      exact List.mem_cons_of_mem _ (ih h)

theorem get_of_mem {k : String} {v : α} {d : Dict α} (hd : Sorted d) (h : (k, v) ∈ d) :
    get k d = some v := by
  induction d with
  | nil => simp at h
  | cons p r ih =>
    obtain ⟨k', v'⟩ := p
    obtain ⟨hlt, hr⟩ := List.pairwise_cons.1 hd
    cases List.mem_cons.1 h with
    | inl he =>
      cases he
      simp [get]
    | inr hm =>
      have hk : k ≠ k' := fun he => String.lt_irrefl k' (he ▸ hlt (k, v) hm)
      simp only [get, hk, ↓reduceIte]
      exact ih hr hm

theorem get_drop_of_ne {k k' : String} (h : k ≠ k') (d : Dict α) :
    get k (drop k' d) = get k d := by
  induction d with
  | nil => rfl
  | cons p d ih =>
    obtain ⟨k'', v⟩ := p
    by_cases hk : k' = k''
    · subst hk
      simp [drop, get, h]
    · simp [drop, get, hk, ih]

theorem mem_put {p : String × α} {k : String} {v : α} {d : Dict α} (h : p ∈ put k v d) :
    p = (k, v) ∨ p ∈ d := by
  induction d with
  | nil => simpa [put] using h
  | cons q r ih =>
    obtain ⟨k', v'⟩ := q
    by_cases hk : k = k'
    · simp only [put, hk, ↓reduceIte, List.mem_cons] at h
      cases h with
      | inl he => exact .inl (hk ▸ he)
      | inr hm => exact .inr (List.mem_cons_of_mem _ hm)
    · by_cases hl : k < k'
      · simpa [put, hk, hl] using h
      · simp only [put, hk, hl, ↓reduceIte, List.mem_cons] at h
        simp only [List.mem_cons]
        cases h with
        | inl he => exact .inr (.inl he)
        | inr hm => exact (ih hm).imp id .inr

/-- A new key takes the place of no entry. -/
theorem put_perm {k : String} {d : Dict α} (hk : ∀ p ∈ d, p.1 ≠ k) (v : α) :
    (put k v d).Perm ((k, v) :: d) := by
  induction d with
  | nil => exact .refl _
  | cons q d ih =>
    obtain ⟨k', v'⟩ := q
    obtain ⟨hne, hd⟩ := List.forall_mem_cons.1 hk
    by_cases hl : k < k'
    · simp [put, hne.symm, hl]
    · simp only [put, hne.symm, hl, ↓reduceIte]
      exact ((ih hd).cons (k', v')).trans (.swap ..)

theorem mem_put_iff {k : String} {v : α} {d : Dict α} (hk : ∀ p ∈ d, p.1 ≠ k) {p : String × α} :
    p ∈ put k v d ↔ p = (k, v) ∨ p ∈ d :=
  (put_perm hk v).mem_iff.trans List.mem_cons

theorem mem_putAll {p : String × α} {d : Dict α} {pairs : List (String × α)}
    (h : p ∈ putAll d pairs) : p ∈ d ∨ p ∈ pairs := by
  induction pairs generalizing d with
  | nil => exact .inl h
  | cons q pairs ih =>
    rcases ih h with hput | hm
    · rcases mem_put hput with rfl | hd
      · exact .inr List.mem_cons_self
      · exact .inl hd
    · exact .inr (List.mem_cons_of_mem _ hm)

theorem mem_of_mem_ofList {p : String × α} {pairs : List (String × α)} (h : p ∈ ofList pairs) :
    p ∈ pairs :=
  (mem_putAll h).resolve_left List.not_mem_nil

theorem Sorted.put {k : String} {v : α} {d : Dict α} (hd : Sorted d) : Sorted (put k v d) := by
  induction d with
  | nil => simp [Dict.put, Sorted]
  | cons q r ih =>
    obtain ⟨k', v'⟩ := q
    obtain ⟨hlt, hr⟩ := List.pairwise_cons.1 hd
    by_cases hk : k = k'
    · subst hk
      simp only [Dict.put, ↓reduceIte]
      exact List.pairwise_cons.2 ⟨hlt, hr⟩
    · by_cases hl : k < k'
      · simp only [Dict.put, hk, hl, ↓reduceIte]
        refine List.pairwise_cons.2 ⟨?_, hd⟩
        intro p hp
        cases List.mem_cons.1 hp with
        | inl he => exact he ▸ hl
        | inr hm => exact String.lt_trans hl (hlt p hm)
      · simp only [Dict.put, hk, hl, ↓reduceIte]
        refine List.pairwise_cons.2 ⟨?_, ih hr⟩
        intro p hp
        cases mem_put hp with
        | inl he => exact he ▸ Std.lt_of_le_of_ne (String.not_lt.1 hl) (Ne.symm hk)
        | inr hm => exact hlt p hm

theorem Sorted.putAll {d : Dict α} (hd : Sorted d) (pairs : List (String × α)) :
    Sorted (putAll d pairs) := by
  induction pairs generalizing d with
  | nil => exact hd
  | cons p ps ih => exact ih hd.put

theorem sorted_ofList (pairs : List (String × α)) : Sorted (ofList pairs) :=
  Sorted.putAll List.Pairwise.nil pairs

theorem put_of_forall_lt {k : String} {d : Dict α} (h : ∀ p ∈ d, p.1 < k) (v : α) :
    put k v d = d ++ [(k, v)] := by
  induction d with
  | nil => rfl
  | cons p d ih =>
    obtain ⟨hp, hd⟩ := List.forall_mem_cons.1 h
    have hne : k ≠ p.1 := fun he => String.lt_irrefl _ (he ▸ hp)
    have hlt : ¬ k < p.1 := fun hlt => String.lt_irrefl _ (String.lt_trans hlt hp)
    rw [put, if_neg hne, if_neg hlt, ih hd, List.cons_append]

theorem putAll_of_sorted {d : Dict α} {pairs : List (String × α)} (h : Sorted (d ++ pairs)) :
    putAll d pairs = d ++ pairs := by
  induction pairs generalizing d with
  | nil => exact (List.append_nil d).symm
  | cons p pairs ih =>
    have hlast : ∀ q ∈ d, q.1 < p.1 := fun q hq =>
      (List.pairwise_append.1 h).2.2 q hq p List.mem_cons_self
    have hput : putAll d (p :: pairs) = putAll (put p.1 p.2 d) pairs := rfl
    rw [List.append_cons] at h ⊢
    rw [hput, put_of_forall_lt hlast, ih h]

theorem ofList_of_sorted {pairs : List (String × α)} (h : Sorted pairs) : ofList pairs = pairs :=
  putAll_of_sorted h

theorem putAll_perm {d : Dict α} {pairs : List (String × α)} (hn : (pairs.map Prod.fst).Nodup)
    (hd : ∀ p ∈ pairs, ∀ q ∈ d, q.1 ≠ p.1) : (putAll d pairs).Perm (d ++ pairs) := by
  induction pairs generalizing d with
  | nil => simp [putAll]
  | cons q pairs ih =>
    obtain ⟨k, v⟩ := q
    obtain ⟨hk, hn⟩ := List.nodup_cons.1 hn
    obtain ⟨hfresh, hd⟩ := List.forall_mem_cons.1 hd
    have hput : ∀ p ∈ pairs, ∀ q ∈ put k v d, q.1 ≠ p.1 := by
      intro p hp q hq
      rcases mem_put hq with rfl | hq
      · exact fun he => hk (he ▸ List.mem_map_of_mem hp)
      · exact hd p hp q hq
    exact ((ih hn hput).trans ((put_perm hfresh v).append_right pairs)).trans
      List.perm_middle.symm

theorem ofList_perm {pairs : List (String × α)} (hn : (pairs.map Prod.fst).Nodup) :
    (ofList pairs).Perm pairs :=
  putAll_perm hn (by simp)

/-- The last pair of a key decides; without one the dictionary is as it was. -/
theorem get_putAll (k : String) (d : Dict α) (pairs : List (String × α)) :
    get k (putAll d pairs) = (pairs.reverse.lookup k).or (get k d) := by
  induction pairs generalizing d with
  | nil => simp [putAll]
  | cons p ps ih =>
    obtain ⟨k', v'⟩ := p
    have hs : putAll d ((k', v') :: ps) = putAll (Dict.put k' v' d) ps := rfl
    rw [hs, ih, List.reverse_cons, List.lookup_append, Option.or_assoc]
    by_cases hk : k = k'
    · simp [hk]
    · have hb : (k == k') = false := beq_false_of_ne hk
      simp [hk, hb, List.lookup_cons]

end MeshRollout.Dict

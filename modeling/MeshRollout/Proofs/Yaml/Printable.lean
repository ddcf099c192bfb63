import MeshRollout.Proofs.Traffic.Script
import MeshRollout.Proofs.Value
import MeshRollout.Proofs.Yaml.Legible
import MeshRollout.Proofs.Yaml.Roundtrip

/-!
Values that can be written: their texts stand on one line or have lines of their own, and their keys
do not look like numbers.
-/
set_option autoImplicit false

namespace MeshRollout.Yaml

def Unbroken (s : String) : Prop :=
  ∀ c ∈ s.toList, isBreakMark c = false

instance (s : String) : Decidable (Unbroken s) :=
  List.decidableBAll _ s.toList

def isFieldName (k : String) : Bool :=
  k.toList.all (fun c => !isBreakMark c) && k.toList.head?.any fun c => !isNumberStart c

section Texts
variable {s t : String}

theorem Unbroken.isPortable (h : Unbroken s) : IsPortable s where
  chars c hc := by
    refine ⟨?_, ?_⟩
    · rintro rfl
      exact absurd (h _ hc) (by decide)
    · rintro rfl
      exact absurd (h _ hc) (by decide)
  lines hmem := absurd (h _ hmem) (by decide)

theorem Unbroken.append (hs : Unbroken s) (ht : Unbroken t) : Unbroken (s ++ t) := by
  rw [Unbroken, String.toList_append]
  exact List.forall_mem_append.2 ⟨hs, ht⟩

theorem unbroken_of_plain (h : MeshRollout.Plain s) : Unbroken s := by
  intro c hc
  obtain ⟨hlow, hhigh⟩ := code_of_isPlainChar (h c hc)
  refine Bool.eq_false_iff.2 fun hb => ?_
  simp only [isBreakMark, Bool.or_eq_true, beq_iff_eq] at hb
  rcases hb with (((rfl | rfl) | rfl) | rfl) | rfl <;> simp at hlow hhigh

end Texts

def AreFieldNames (ks : List String) : Prop :=
  ks.Pairwise (· < ·) ∧ ∀ k ∈ ks, isFieldName k = true

instance (ks : List String) : Decidable (AreFieldNames ks) :=
  inferInstanceAs (Decidable (_ ∧ _))

theorem isKey_of_fieldName {k : String} (h : isFieldName k = true) : IsKey k := by
  simp only [isFieldName, Bool.and_eq_true, List.all_eq_true, Bool.not_eq_true'] at h
  obtain ⟨hline, hhead⟩ := h
  refine ⟨Unbroken.isPortable hline, ?_⟩
  obtain ⟨c, hc, hstart⟩ := (Option.any_eq_true _ _).1 hhead
  obtain ⟨r, hr⟩ := List.head?_eq_some_iff.1 hc
  exact isLegible_of_head hr (by simpa using hstart)

structure AreTexts (d : Dict String) : Prop where
  sorted : d.Sorted
  entries : ∀ p ∈ d, IsKey p.1 ∧ IsPortable p.2

section Values
variable {vs : List Value} {fs : List (String × Value)}

@[simp] theorem printable_str (s : String) : Printable (.str s) ↔ IsPortable s := by
  rw [Printable]

@[simp] theorem printable_list : Printable (.list vs) ↔ ∀ v ∈ vs, Printable v := by
  have hitems : PrintableItems vs ↔ ∀ v ∈ vs, Printable v := by
    induction vs with
    | nil => simp [PrintableItems]
    | cons v vs ih => simp [PrintableItems, ih]
  rw [Printable, hitems]

theorem printable_record :
    Printable (.record fs) ↔ Dict.Sorted fs ∧ ∀ f ∈ fs, IsKey f.1 ∧ Printable f.2 := by
  have hfields : PrintableFields fs ↔ ∀ f ∈ fs, IsKey f.1 ∧ Printable f.2 := by
    induction fs with
    | nil => simp [PrintableFields]
    | cons f fs ih => simp [PrintableFields, ih, and_assoc]
  rw [Printable, hfields]

theorem printable_fields (hk : AreFieldNames (fs.map Prod.fst)) (hv : ∀ f ∈ fs, Printable f.2) :
    Printable (.record fs) :=
  printable_record.2 ⟨List.pairwise_map.1 hk.1, fun f hf =>
    ⟨isKey_of_fieldName (hk.2 _ (List.mem_map_of_mem hf)), hv f hf⟩⟩

theorem printable_object {fs : List (String × Option Value)} (hk : AreFieldNames (fs.map Prod.fst))
    (hv : ∀ f ∈ fs, ∀ v ∈ f.2, Printable v) : Printable (.object fs) := by
  have hsub := Value.sublist_keys_object fs
  exact printable_fields ⟨hk.1.sublist hsub, fun k h => hk.2 k (hsub.mem h)⟩
    (Value.forall_mem_written.2 hv)

theorem printable_strings {xs : List String} (h : ∀ x ∈ xs, IsPortable x) :
    Printable (.strings xs) := by
  rw [Value.strings, printable_list]
  simpa using h

theorem AreTexts.printable {d : Dict String} (h : AreTexts d) : Printable (.ofTexts d) := by
  rw [Value.ofTexts, printable_record]
  refine ⟨List.pairwise_map.2 h.sorted, fun f hf => ?_⟩
  obtain ⟨p, hp, rfl⟩ := List.mem_map.1 hf
  simpa using h.entries p hp

theorem areTexts_singleton {k s : String} (hk : IsKey k) (hs : IsPortable s) : AreTexts [(k, s)] where
  sorted := List.pairwise_singleton _ _
  entries := by simpa using ⟨hk, hs⟩

theorem printable_nat {n : Nat} (h : n < Nat.pow 2 63) : Printable (.nat n) := by
  rw [Value.nat, Printable]
  have hpow : (Int.pow 2 63) = (Nat.pow 2 63 : Nat) := rfl
  exact ⟨by rw [hpow]; omega, by rw [hpow]; exact_mod_cast h⟩

end Values

end MeshRollout.Yaml

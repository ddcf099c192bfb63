import MeshRollout.Value

/-!
The comparison of values, which is equality but for the sign of floating-point zeros; for values in
which no floating-point number stands it is equality.
-/
set_option autoImplicit false

namespace MeshRollout

def Binary64.canonical (x : Binary64) : Binary64 :=
  if x.isZero then ⟨0⟩ else x

theorem Binary64.same_iff (x y : Binary64) : x.same y = true ↔ x.canonical = y.canonical := by
  have hzero : (⟨0⟩ : Binary64).isZero = true := by decide
  simp only [same, Bool.or_eq_true, beq_iff_eq, Bool.and_eq_true]
  constructor
  · rintro (h | ⟨hx, hy⟩)
    · rw [show x = y from congrArg Binary64.mk h]
    · rw [canonical, canonical, if_pos hx, if_pos hy]
  · rw [canonical, canonical]
    split <;> split
    · exact fun _ => .inr ⟨‹_›, ‹_›⟩
    · rintro rfl
      exact absurd hzero ‹_›
    · rintro rfl
      exact absurd hzero ‹_›
    · rintro rfl
      exact .inl rfl

namespace Value

mutual

def canonical : Value → Value
  | .float x => .float x.canonical
  | .list xs => .list (canonicalItems xs)
  | .record fs => .record (canonicalFields fs)
  | .null => .null
  | .bool b => .bool b
  | .int n => .int n
  | .str s => .str s

def canonicalItems : List Value → List Value
  | [] => []
  | x :: xs => canonical x :: canonicalItems xs

def canonicalFields : List (String × Value) → List (String × Value)
  | [] => []
  | (k, x) :: fs => (k, canonical x) :: canonicalFields fs

end

mutual

theorem same_iff (v w : Value) : same v w = true ↔ v.canonical = w.canonical := by
  cases v with
  | null => cases w <;> simp [same, canonical]
  | bool a => cases w <;> simp [same, canonical]
  | int m => cases w <;> simp [same, canonical]
  | float x => cases w <;> simp [same, canonical, Binary64.same_iff]
  | str s => cases w <;> simp [same, canonical]
  | list xs =>
    cases w with
    | list ys => simp [same, canonical, sameItems_iff xs ys]
    | _ => simp [same, canonical]
  | record fs =>
    cases w with
    | record gs => simp [same, canonical, sameFields_iff fs gs]
    | _ => simp [same, canonical]

theorem sameItems_iff (xs ys : List Value) :
    sameItems xs ys = true ↔ canonicalItems xs = canonicalItems ys := by
  cases xs with
  | nil => cases ys <;> simp [sameItems, canonicalItems]
  | cons x xs =>
    cases ys with
    | nil => simp [sameItems, canonicalItems]
    | cons y ys => simp [sameItems, canonicalItems, same_iff x y, sameItems_iff xs ys]

theorem sameFields_iff (fs gs : List (String × Value)) :
    sameFields fs gs = true ↔ canonicalFields fs = canonicalFields gs := by
  cases fs with
  | nil => cases gs <;> simp [sameFields, canonicalFields]
  | cons f fs =>
    obtain ⟨k, x⟩ := f
    cases gs with
    | nil => simp [sameFields, canonicalFields]
    | cons g gs =>
      obtain ⟨l, y⟩ := g
      simp [sameFields, canonicalFields, same_iff x y, sameFields_iff fs gs, and_assoc]

end

theorem sameOption_iff (v w : Option Value) :
    sameOption v w = true ↔ v.map canonical = w.map canonical := by
  cases v <;> cases w <;> simp [sameOption, same_iff]

mutual

/-- No floating-point number stands in the value. -/
def Plain : Value → Prop
  | .float _ => False
  | .list xs => PlainItems xs
  | .record fs => PlainFields fs
  | .null | .bool _ | .int _ | .str _ => True

def PlainItems : List Value → Prop
  | [] => True
  | x :: xs => Plain x ∧ PlainItems xs

def PlainFields : List (String × Value) → Prop
  | [] => True
  | (_, x) :: fs => Plain x ∧ PlainFields fs

end

mutual

theorem eq_of_same (v w : Value) (hw : w.Plain) (h : same v w = true) : v = w := by
  cases v with
  | null =>
    cases w <;> simp [same] at h
    rfl
  | bool a =>
    cases w <;> simp [same] at h
    rw [h]
  | int m =>
    cases w <;> simp [same] at h
    rw [h]
  | float x =>
    cases w <;> simp [same] at h
    exact hw.elim
  | str s =>
    cases w <;> simp [same] at h
    rw [h]
  | list xs =>
    cases w <;> simp [same] at h
    rename_i ys
    rw [eq_of_sameItems xs ys hw h]
  | record fs =>
    cases w <;> simp [same] at h
    rename_i gs
    rw [eq_of_sameFields fs gs hw h]

theorem eq_of_sameItems (xs ys : List Value) (hy : PlainItems ys) (h : sameItems xs ys = true) :
    xs = ys := by
  cases xs with
  | nil => cases ys <;> simp [sameItems] at h; rfl
  | cons x xs =>
    cases ys with
    | nil => simp [sameItems] at h
    | cons y ys =>
      simp only [sameItems, Bool.and_eq_true] at h
      rw [eq_of_same x y hy.1 h.1, eq_of_sameItems xs ys hy.2 h.2]

theorem eq_of_sameFields (fs gs : List (String × Value)) (hg : PlainFields gs)
    (h : sameFields fs gs = true) : fs = gs := by
  cases fs with
  | nil => cases gs <;> simp [sameFields] at h; rfl
  | cons f fs =>
    obtain ⟨k, x⟩ := f
    cases gs with
    | nil => simp [sameFields] at h
    | cons g gs =>
      obtain ⟨l, y⟩ := g
      simp only [sameFields, Bool.and_eq_true, beq_iff_eq] at h
      rw [h.1.1, eq_of_same x y hg.1 h.1.2, eq_of_sameFields fs gs hg.2 h.2]

end

theorem plainItems_iff {xs : List Value} : PlainItems xs ↔ ∀ x ∈ xs, x.Plain := by
  induction xs with
  | nil => simp [PlainItems]
  | cons x xs ih => simp [PlainItems, ih]

theorem plainFields_iff {fs : List (String × Value)} :
    PlainFields fs ↔ ∀ f ∈ fs, f.2.Plain := by
  induction fs with
  | nil => simp [PlainFields]
  | cons f fs ih => simp [PlainFields, ih]

@[simp] theorem plain_str (s : String) : (str s).Plain := by simp [Plain]

@[simp] theorem plain_nat (n : Nat) : (nat n).Plain := by simp [nat, Plain]

@[simp] theorem plain_list (xs : List Value) : (list xs).Plain ↔ ∀ x ∈ xs, x.Plain := by
  rw [Plain, plainItems_iff]

@[simp] theorem plain_record (fs : List (String × Value)) :
    (record fs).Plain ↔ ∀ f ∈ fs, f.2.Plain := by
  rw [Plain, plainFields_iff]

/-- The keys of an object are some of those that it is given, in their order. -/
theorem sublist_keys_object (fs : List (String × Option Value)) :
    ((fs.filterMap fun p => p.2.map fun v => (p.1, v)).map Prod.fst).Sublist (fs.map Prod.fst) := by
  induction fs with
  | nil => exact .slnil
  | cons f fs ih =>
    obtain ⟨k, v⟩ := f
    cases v with
    | none => exact ih.cons k
    | some v => exact ih.cons_cons k

theorem forall_mem_written {P : Value → Prop} {fs : List (String × Option Value)} :
    (∀ f ∈ fs.filterMap fun p => p.2.map fun v => (p.1, v), P f.2) ↔ ∀ f ∈ fs, ∀ v ∈ f.2, P v := by
  simp only [List.mem_filterMap, Option.map_eq_some_iff]
  constructor
  · intro h f hf v hv
    exact h (f.1, v) ⟨f, hf, v, hv, rfl⟩
  · rintro h _ ⟨f, hf, v, hv, rfl⟩
    exact h f hf v hv

@[simp] theorem plain_object (fs : List (String × Option Value)) :
    (object fs).Plain ↔ ∀ f ∈ fs, ∀ v, f.2 = some v → v.Plain := by
  rw [object, plain_record]
  exact forall_mem_written

@[simp] theorem plain_strings (xs : List String) : (strings xs).Plain := by
  simp [strings]

@[simp] theorem plain_ofTexts (d : Dict String) : (ofTexts d).Plain := by
  simp only [ofTexts, plain_record, List.mem_map]
  rintro _ ⟨p, -, rfl⟩
  exact plain_str p.2

end Value

end MeshRollout

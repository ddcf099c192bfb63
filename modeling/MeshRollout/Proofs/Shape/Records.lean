import Mathlib.Data.List.Nodup
import Mathlib.Data.List.Pairwise
import MeshRollout.Proofs.Shape.Accepted

/-!
Which records a reading of named fields accepts. Each field is given at most once, under any of its
names, and what is given passes its check. The order of the entries decides nothing, and neither do
entries that no field answers to.
-/
set_option autoImplicit false

namespace MeshRollout

def valuesUnder (keys : List String) (fields : List (String × Value)) : List Value :=
  (fields.filter fun p => keys.contains p.1).map Prod.snd

section
variable {keys : List String} {k : String}

theorem valuesUnder_cons_of_mem (h : k ∈ keys) (v : Value) (fields : List (String × Value)) :
    valuesUnder keys ((k, v) :: fields) = v :: valuesUnder keys fields := by
  simp [valuesUnder, h]

theorem valuesUnder_cons_of_not_mem (h : k ∉ keys) (v : Value) (fields : List (String × Value)) :
    valuesUnder keys ((k, v) :: fields) = valuesUnder keys fields := by
  simp [valuesUnder, h]

@[simp] theorem valuesUnder_nil (keys : List String) : valuesUnder keys [] = [] := rfl

theorem valuesUnder_append (keys : List String) (fields fields' : List (String × Value)) :
    valuesUnder keys (fields ++ fields') = valuesUnder keys fields ++ valuesUnder keys fields' := by
  simp [valuesUnder]

theorem valuesUnder_written_cons (keys : List String) (k : String) (o : Option Value)
    (fields : List (String × Option Value)) :
    valuesUnder keys (((k, o) :: fields).filterMap fun (k, v) => v.map fun v => (k, v))
      = (if k ∈ keys then o.toList else [])
        ++ valuesUnder keys (fields.filterMap fun (k, v) => v.map fun v => (k, v)) := by
  cases o with
  | none => simp
  | some v =>
    by_cases h : k ∈ keys
    · simp [h, valuesUnder_cons_of_mem]
    · simp [h, valuesUnder_cons_of_not_mem]

end

/-- What is listed for one thing only tells which thing it is. -/
theorem eq_of_mem_of_nodup_flatMap {ι κ : Type} {keys : ι → List κ} {l : List ι}
    (h : (l.flatMap keys).Nodup) {a b : ι} (ha : a ∈ l) (hb : b ∈ l) {k : κ} (hka : k ∈ keys a)
    (hkb : k ∈ keys b) : a = b := by
  have : Std.Symm (Function.onFun List.Disjoint keys) := ⟨fun _ _ h _ hka hkb => h hkb hka⟩
  by_contra hne
  exact (List.nodup_flatMap.1 h).2.forall ha hb hne hka hkb

namespace Reading

theorem part_bind_eq_ok {s : Step} {x y : Except Mismatch Unit} :
    (part s x >>= fun _ => y) = .ok () ↔ x = .ok () ∧ y = .ok () := by
  cases x with
  | error m => simp [part, Except.mapError, bind, Except.bind]
  | ok u => simp [part, Except.mapError, bind, Except.bind]

theorem text_str (s : String) : text (.str s) = .ok s := rfl

theorem nullable_str (s : String) : text.nullable (.str s) = .ok (some s) := rfl

theorem list_map {α : Type} {r : Reading α} {write : α → Value} {l : List α}
    (h : ∀ x ∈ l, r (write x) = .ok x) : list r (.list (l.map write)) = .ok l := by
  have hitems : items r (l.map write) = .ok l := by
    induction l with
    | nil => rfl
    | cons x l ih =>
      obtain ⟨hx, hl⟩ := List.forall_mem_cons.1 h
      rw [List.map_cons, items, hx, ih hl]
      rfl
  exact hitems

end Reading

namespace Slot

def keys (s : Slot) : List String :=
  s.name :: s.aliases

theorem name_mem_keys (s : Slot) : s.name ∈ s.keys :=
  List.mem_cons_self

theorem answersTo_iff {s : Slot} {k : String} : s.answersTo k = true ↔ k ∈ s.keys := by
  rw [answersTo, keys, Bool.or_eq_true, beq_iff_eq, List.contains_iff_mem, List.mem_cons,
    eq_comm]

theorem find_eq_head? (s : Slot) (fields : List (String × Value)) :
    s.find fields = (valuesUnder s.keys fields).head? := by
  have hkeys : (fun p : String × Value => s.answersTo p.1) = fun p => s.keys.contains p.1 := by
    funext p
    exact Bool.eq_iff_iff.2 (answersTo_iff.trans List.contains_iff_mem.symm)
  rw [find, hkeys, valuesUnder, List.head?_map, List.head?_filter]

/-- What the record gives to the field passes, and it is given at most once; a field that was seen
before is not given again. -/
structure Admits (s : Slot) (seen : List String) (fields : List (String × Value)) : Prop where
  passes : ∀ v ∈ valuesUnder s.keys fields, s.check v = .ok ()
  once : (valuesUnder s.keys fields).length ≤ if s.name ∈ seen then 0 else 1

section
variable {s : Slot} {seen : List String} {k : String} {v : Value} {fields : List (String × Value)}

theorem admits_nil (s : Slot) (seen : List String) : s.Admits seen [] :=
  ⟨fun _ h => absurd h List.not_mem_nil, Nat.zero_le _⟩

theorem admits_cons_of_not_mem (h : k ∉ s.keys) :
    s.Admits seen ((k, v) :: fields) ↔ s.Admits seen fields := by
  have hvalues := valuesUnder_cons_of_not_mem h v fields
  constructor
  · rintro ⟨hpasses, honce⟩
    exact ⟨hvalues ▸ hpasses, hvalues ▸ honce⟩
  · rintro ⟨hpasses, honce⟩
    exact ⟨hvalues.symm ▸ hpasses, hvalues.symm ▸ honce⟩

/-- Once an entry was taken, the rest is judged as of a field that was seen. -/
theorem admits_cons_of_mem (h : k ∈ s.keys) :
    s.Admits seen ((k, v) :: fields) ↔
      s.name ∉ seen ∧ s.check v = .ok () ∧ s.Admits (s.name :: seen) fields := by
  have hvalues := valuesUnder_cons_of_mem h v fields
  have hseen : s.name ∈ s.name :: seen := List.mem_cons_self
  constructor
  · rintro ⟨hpasses, honce⟩
    rw [hvalues] at hpasses honce
    have hnew : s.name ∉ seen := by
      intro hmem
      rw [if_pos hmem] at honce
      exact Nat.not_succ_le_zero _ honce
    rw [if_neg hnew] at honce
    refine ⟨hnew, hpasses v List.mem_cons_self, fun w hw => hpasses w (List.mem_cons_of_mem _ hw), ?_⟩
    rw [if_pos hseen]
    exact Nat.le_of_succ_le_succ honce
  · rintro ⟨hnew, hv, hpasses, honce⟩
    rw [if_pos hseen] at honce
    refine ⟨?_, ?_⟩
    · rw [hvalues]
      exact List.forall_mem_cons.2 ⟨hv, hpasses⟩
    · rw [hvalues, if_neg hnew]
      exact Nat.succ_le_succ honce

theorem admits_seen_cons_of_ne {name : String} (h : s.name ≠ name) :
    s.Admits (name :: seen) fields ↔ s.Admits seen fields := by
  have hmem : s.name ∈ name :: seen ↔ s.name ∈ seen := List.mem_cons.trans (or_iff_right h)
  constructor
  · rintro ⟨hpasses, honce⟩
    exact ⟨hpasses, by rwa [if_congr hmem rfl rfl] at honce⟩
  · rintro ⟨hpasses, honce⟩
    exact ⟨hpasses, by rwa [if_congr hmem rfl rfl]⟩

end

end Slot

namespace Fields
variable {α β : Type}

theorem visit_cons_of_find_eq_none {slots : List Slot} {k : String}
    (h : slots.find? (fun s => s.answersTo k) = none) (seen : List String) (v : Value)
    (fields : List (String × Value)) :
    visit slots seen ((k, v) :: fields) = visit slots seen fields := by
  rw [visit, h]

theorem visit_cons_eq_ok_iff {slots : List Slot} {k : String} {t : Slot}
    (h : slots.find? (fun s => s.answersTo k) = some t) (seen : List String) (v : Value)
    (fields : List (String × Value)) :
    visit slots seen ((k, v) :: fields) = .ok () ↔
      t.name ∉ seen ∧ t.check v = .ok () ∧ visit slots (t.name :: seen) fields = .ok () := by
  rw [visit, h]
  by_cases hseen : t.name ∈ seen
  · simp [hseen]
  · simp [hseen, Reading.part_bind_eq_ok]

/-- The walk over the keys of a record comes to its end iff every field admits the record. -/
theorem visit_eq_ok_iff {slots : List Slot} (hkeys : (slots.flatMap Slot.keys).Nodup)
    (seen : List String) (fields : List (String × Value)) :
    visit slots seen fields = .ok () ↔ ∀ s ∈ slots, s.Admits seen fields := by
  induction fields generalizing seen with
  | nil => exact ⟨fun _ s _ => s.admits_nil seen, fun _ => rfl⟩
  | cons p fields ih =>
    obtain ⟨k, v⟩ := p
    cases hfind : slots.find? fun s => s.answersTo k with
    | none =>
      have hnone : ∀ s ∈ slots, k ∉ s.keys := fun s hs hk =>
        List.find?_eq_none.1 hfind s hs (Slot.answersTo_iff.2 hk)
      rw [visit_cons_of_find_eq_none hfind, ih]
      exact forall₂_congr fun s hs => (Slot.admits_cons_of_not_mem (hnone s hs)).symm
    | some t =>
      have ht : t ∈ slots := List.mem_of_find?_eq_some hfind
      have hk : k ∈ t.keys :=
        Slot.answersTo_iff.1 (List.find?_some (p := fun s => Slot.answersTo s k) hfind)
      -- Any other field has neither the key nor the name of the field that answers.
      have hother : ∀ s ∈ slots, s ≠ t → k ∉ s.keys ∧ s.name ≠ t.name := fun s hs hne =>
        ⟨fun hks => hne (eq_of_mem_of_nodup_flatMap hkeys hs ht hks hk), fun he =>
          hne (eq_of_mem_of_nodup_flatMap hkeys hs ht s.name_mem_keys (he ▸ t.name_mem_keys))⟩
      rw [visit_cons_eq_ok_iff hfind, ih]
      constructor
      · rintro ⟨hseen, hv, h⟩ s hs
        by_cases he : s = t
        · exact he ▸ (Slot.admits_cons_of_mem hk).2 ⟨hseen, hv, h t ht⟩
        · exact (Slot.admits_cons_of_not_mem (hother s hs he).1).2
            ((Slot.admits_seen_cons_of_ne (hother s hs he).2).1 (h s hs))
      · intro h
        obtain ⟨hseen, hv, hrest⟩ := (Slot.admits_cons_of_mem hk).1 (h t ht)
        refine ⟨hseen, hv, fun s hs => ?_⟩
        by_cases he : s = t
        · exact he ▸ hrest
        · exact (Slot.admits_seen_cons_of_ne (hother s hs he).2).2
            ((Slot.admits_cons_of_not_mem (hother s hs he).1).1 (h s hs))

def sourceOf (slots : List Slot) (fields : List (String × Value)) (i : Nat) : Option Value :=
  slots[i]?.bind fun s => (valuesUnder s.keys fields).head?

theorem ofRecord_eq_ok_iff {f : Fields α} (hkeys : (f.slots.flatMap Slot.keys).Nodup)
    {fields : List (String × Value)} {x : α} :
    f.ofRecord fields = .ok x ↔
      (∀ s ∈ f.slots, s.Admits [] fields) ∧
        f.build (sourceOf f.slots fields)
          (fun i => .missing ((f.slots[i]?.map Slot.name).getD "")) = .ok x := by
  have hsource : (fun i => f.slots[i]?.bind fun s => s.find fields) = sourceOf f.slots fields := by
    funext i
    simp only [sourceOf, Slot.find_eq_head?]
  rw [← visit_eq_ok_iff hkeys, ofRecord, hsource]
  cases visit f.slots [] fields with
  | error m => simp [bind, Except.bind]
  | ok u => simp [bind, Except.bind]

/-- From these values at their positions the fields build the content, and each value passes its
check. -/
structure Yields (f : Fields α) (values : List (Option Value)) (x : α) : Prop where
  passes : List.Forall₂ (fun s o => ∀ v ∈ o, s.check v = .ok ()) f.slots values
  builds : ∀ source missing, (∀ i < f.slots.length, source i = (values[i]?).join) →
    f.build source missing = .ok x

theorem Yields.given {name : String} {aliases : List String} {r : Reading α} {absent : Option α}
    {v : Value} {x : α} (h : r v = .ok x) :
    (field name aliases r absent).Yields [some v] x where
  passes := by
    refine .cons (fun w hw => ?_) .nil
    cases hw
    simp [h, Except.map]
  builds source missing hsource := by
    have hsource : source 0 = some v := hsource 0 Nat.one_pos
    simp only [field, hsource, h]

theorem Yields.absent {name : String} {aliases : List String} {r : Reading α} {x : α} :
    (field name aliases r (some x)).Yields [none] x where
  passes := .cons (fun _ h => absurd h (Option.not_mem_none _)) .nil
  builds source missing hsource := by
    have hsource : source 0 = none := hsource 0 Nat.one_pos
    simp only [field, hsource]

theorem Yields.optional {name : String} {r : Reading α} {write : α → Value} {o : Option α}
    (h : ∀ x ∈ o, r.nullable (write x) = .ok (some x)) :
    (optional name r).Yields [o.map write] o := by
  cases o with
  | none => exact .absent
  | some x => exact .given (h x rfl)

protected theorem Yields.map {f : Fields α} {values : List (Option Value)} {x : α}
    (h : f.Yields values x) (g : α → β) : (g <$> f).Yields values (g x) where
  passes := h.passes
  builds source missing hsource :=
    build_map_eq_ok.2 ⟨x, h.builds source missing hsource, rfl⟩

protected theorem Yields.seq {f : Fields (α → β)} {x : Fields α} {vs ws : List (Option Value)}
    {g : α → β} {y : α} (hf : f.Yields vs g) (hx : x.Yields ws y) :
    (f <*> x).Yields (vs ++ ws) (g y) where
  passes := List.rel_append hf.passes hx.passes
  builds source missing hsource := by
    have hlength : f.slots.length = vs.length := hf.passes.length_eq
    have hslots : (f <*> x).slots = f.slots ++ x.slots := rfl
    rw [hslots, List.length_append] at hsource
    refine build_seq_eq_ok.2 ⟨g, y, hf.builds _ _ fun i hi => ?_, hx.builds _ _ fun i hi => ?_, rfl⟩
    · rw [hsource i (by omega), List.getElem?_append_left (by omega)]
    · rw [hsource _ (by omega), List.getElem?_append_right (by omega), hlength,
        Nat.add_sub_cancel_left]

theorem ofRecord_of_yields {f : Fields α} (hkeys : (f.slots.flatMap Slot.keys).Nodup)
    {values : List (Option Value)} {x : α} (h : f.Yields values x)
    {fields : List (String × Value)}
    (hvalues : f.slots.map (fun s => valuesUnder s.keys fields) = values.map Option.toList) :
    f.ofRecord fields = .ok x := by
  have hlength : f.slots.length = values.length := h.passes.length_eq
  have hvalue (i : Nat) (hi : i < f.slots.length) (hi' : i < values.length) :
      valuesUnder f.slots[i].keys fields = values[i].toList := by
    simpa [hi, hi'] using congrArg (fun l => l[i]?) hvalues
  refine (ofRecord_eq_ok_iff hkeys).2 ⟨fun s hs => ?_, h.builds _ _ fun i hi => ?_⟩
  · obtain ⟨i, hi, rfl⟩ := List.getElem_of_mem hs
    have hi' : i < values.length := hlength ▸ hi
    refine ⟨fun v hv => ?_, ?_⟩
    · rw [hvalue i hi hi', Option.mem_toList] at hv
      exact h.passes.get hi hi' v hv
    · rw [hvalue i hi hi', if_neg List.not_mem_nil]
      exact Option.length_toList_le
  · have hi' : i < values.length := hlength ▸ hi
    rw [sourceOf, List.getElem?_eq_getElem hi, Option.bind_some, hvalue i hi hi',
      List.getElem?_eq_getElem hi', Option.join_some, Option.head?_toList]

end Fields

end MeshRollout

import Mathlib.Data.List.Forall2
import MeshRollout.Proofs.Shape.Records

/-!
Records that say the same: a field may stand under any of its names, the fields may come in any
order, and entries that no field answers to may be there or not. A reading makes the same of them.
-/
set_option autoImplicit false

namespace MeshRollout

/-- How a field of a record may be written: the keys that it goes by, and which of its values say
the same. -/
structure FieldForm where
  keys : List String
  same : Value → Value → Prop
  refl : ∀ v, same v v

def FieldForm.Agree (forms : List FieldForm) (source source' : Nat → Option Value) : Prop :=
  ∀ (i : Nat) (form : FieldForm), forms[i]? = some form →
    Option.Rel form.same (source i) (source' i)

/-- Two records say the same if each field has the same values in both, whichever of its keys they
stand under; it does not matter what stands under keys that belong to no field. Records may also be
written as the lists of their fields, which have no keys. -/
inductive Respelled (forms : List FieldForm) : Value → Value → Prop
  | refl (v : Value) : Respelled forms v v
  | record {fields fields' : List (String × Value)}
      (h : ∀ form ∈ forms,
        List.Forall₂ form.same (valuesUnder form.keys fields) (valuesUnder form.keys fields')) :
      Respelled forms (.record fields) (.record fields')
  | list {vs vs' : List Value} (hlength : vs.length = vs'.length)
      (h : FieldForm.Agree forms (fun i => vs[i]?) (fun i => vs'[i]?)) :
      Respelled forms (.list vs) (.list vs')

inductive EachRespelled (forms : List FieldForm) : Value → Value → Prop
  | refl (v : Value) : EachRespelled forms v v
  | list {vs vs' : List Value} (h : List.Forall₂ (Respelled forms) vs vs') :
      EachRespelled forms (.list vs) (.list vs')

namespace FieldForm

def plain (keys : List String) : FieldForm :=
  ⟨keys, Eq, fun _ => rfl⟩

def nested (key : String) (forms : List FieldForm) : FieldForm :=
  ⟨[key], Respelled forms, .refl⟩

def items (key : String) (forms : List FieldForm) : FieldForm :=
  ⟨[key], EachRespelled forms, .refl⟩

theorem forall₂_same (form : FieldForm) (vs : List Value) : List.Forall₂ form.same vs vs :=
  List.forall₂_same.2 fun v _ => form.refl v

end FieldForm

theorem forall_mem_of_forall₂ {α β : Type} {R : α → β → Prop} {P : α → Prop} {Q : β → Prop}
    {l : List α} {l' : List β} (h : List.Forall₂ R l l') (hR : ∀ a b, R a b → P a → Q b)
    (hl : ∀ a ∈ l, P a) : ∀ b ∈ l', Q b := by
  induction h with
  | nil => exact List.forall_mem_nil _
  | cons hab _ ih =>
    obtain ⟨ha, hl⟩ := List.forall_mem_cons.1 hl
    exact List.forall_mem_cons.2 ⟨hR _ _ hab ha, ih hl⟩

theorem rel_head?_of_forall₂ {α β : Type} {R : α → β → Prop} {l : List α} {l' : List β}
    (h : List.Forall₂ R l l') : Option.Rel R l.head? l'.head? := by
  cases h with
  | nil => exact .none
  | cons hab _ => exact .some hab

namespace Respelled
variable {forms : List FieldForm}

theorem rename (hkeys : (forms.flatMap FieldForm.keys).Nodup) {form : FieldForm}
    (hform : form ∈ forms) {k k' : String} (hk : k ∈ form.keys) (hk' : k' ∈ form.keys)
    (fields fields' : List (String × Value)) (v : Value) :
    Respelled forms (.record (fields ++ (k, v) :: fields'))
      (.record (fields ++ (k', v) :: fields')) := by
  refine .record fun other hother => ?_
  have hiff : k ∈ other.keys ↔ k' ∈ other.keys :=
    ⟨fun h => eq_of_mem_of_nodup_flatMap hkeys hother hform h hk ▸ hk',
      fun h => eq_of_mem_of_nodup_flatMap hkeys hother hform h hk' ▸ hk⟩
  have hvalues : valuesUnder other.keys ((k, v) :: fields')
      = valuesUnder other.keys ((k', v) :: fields') := by
    by_cases h : k ∈ other.keys
    · rw [valuesUnder_cons_of_mem h, valuesUnder_cons_of_mem (hiff.1 h)]
    · rw [valuesUnder_cons_of_not_mem h, valuesUnder_cons_of_not_mem (mt hiff.2 h)]
  rw [valuesUnder_append, valuesUnder_append, hvalues]
  exact other.forall₂_same _

theorem insert {k : String} (hk : ∀ form ∈ forms, k ∉ form.keys)
    (fields fields' : List (String × Value)) (v : Value) :
    Respelled forms (.record (fields ++ fields')) (.record (fields ++ (k, v) :: fields')) := by
  refine .record fun form hform => ?_
  rw [valuesUnder_append, valuesUnder_append, valuesUnder_cons_of_not_mem (hk form hform)]
  exact form.forall₂_same _

end Respelled

namespace Reading
variable {α : Type} {r : Reading α}

def Respects (r : Reading α) (same : Value → Value → Prop) : Prop :=
  ∀ v v' x, same v v' → r v = .ok x → r v' = .ok x

theorem respects_eq (r : Reading α) : r.Respects Eq := by
  rintro v _ x rfl h
  exact h

theorem Respects.nullable {forms : List FieldForm} (h : r.Respects (Respelled forms)) :
    r.nullable.Respects (Respelled forms) := by
  have hmap {v v' : Value} {x : Option α} (hsame : Respelled forms v v')
      (hv : (r v).map some = .ok x) : (r v').map some = .ok x := by
    cases hr : r v with
    | error m =>
      rw [hr] at hv
      cases hv
    | ok y =>
      rw [h v v' y hsame hr, ← hr]
      exact hv
  intro v v' x hsame hv
  cases hsame with
  | refl => exact hv
  | record hfields => exact hmap (.record hfields) hv
  | list hlength hvs => exact hmap (.list hlength hvs) hv

theorem Respects.list {forms : List FieldForm} (h : r.Respects (Respelled forms)) :
    (Reading.list r).Respects (EachRespelled forms) := by
  have hitems {vs vs' : List Value} (hvs : List.Forall₂ (Respelled forms) vs vs') :
      ∀ xs, items r vs = .ok xs → items r vs' = .ok xs := by
    induction hvs with
    | nil => exact fun _ hxs => hxs
    | @cons v v' vs vs' hv _ ih =>
      intro xs hxs
      rw [items] at hxs ⊢
      cases hr : r v with
      | error m =>
        rw [hr] at hxs
        cases hxs
      | ok y =>
        rw [hr] at hxs
        rw [h v v' y hv hr]
        cases hrest : items r vs with
        | error m =>
          rw [hrest] at hxs
          cases hxs
        | ok ys =>
          rw [hrest] at hxs
          rw [ih ys hrest]
          exact hxs
  intro v v' xs hsame hxs
  cases hsame with
  | refl => exact hxs
  | list hvs => exact hitems hvs xs hxs

end Reading

namespace Fields
variable {α β : Type} {forms : List FieldForm}

structure Follows (f : Fields α) (forms : List FieldForm) : Prop where
  slots : List.Forall₂ (fun s form => s.keys = form.keys ∧
    ∀ v v', form.same v v' → s.check v = .ok () → s.check v' = .ok ()) f.slots forms
  builds : ∀ source source' missing missing' x,
    FieldForm.Agree forms source source' →
      f.build source missing = .ok x → f.build source' missing' = .ok x

protected theorem Follows.field {name : String} {aliases : List String} {r : Reading α}
    {absent : Option α} {form : FieldForm} (hkeys : name :: aliases = form.keys)
    (h : r.Respects form.same) : (field name aliases r absent).Follows [form] where
  slots := by
    refine .cons ⟨hkeys, fun v v' hsame hv => ?_⟩ .nil
    change (r v).map _ = .ok () at hv
    change (r v').map _ = .ok ()
    cases hr : r v with
    | error m =>
      rw [hr] at hv
      cases hv
    | ok x =>
      rw [h v v' x hsame hr]
      rfl
  builds source source' missing missing' x hsource hx := by
    have hfirst : Option.Rel form.same (source 0) (source' 0) := hsource 0 form rfl
    simp only [Fields.field] at hx ⊢
    generalize source 0 = o at hfirst hx
    generalize source' 0 = o' at hfirst
    cases hfirst with
    | some hsame => exact h _ _ x hsame hx
    | none =>
      cases absent with
      | none => cases hx
      | some y => exact hx

protected theorem Follows.plain {name : String} {aliases : List String} {r : Reading α}
    {absent : Option α} : (field name aliases r absent).Follows [.plain (name :: aliases)] :=
  .field rfl r.respects_eq

protected theorem Follows.nested {name : String} {r : Reading α} (h : r.Respects (Respelled forms)) :
    (optional name r).Follows [.nested name forms] :=
  .field rfl h.nullable

protected theorem Follows.items {name : String} {r : Reading α} {default : List α}
    (h : r.Respects (Respelled forms)) :
    (defaulted name (.list r) default).Follows [.items name forms] :=
  .field rfl h.list

protected theorem Follows.map {f : Fields α} (h : f.Follows forms) (g : α → β) :
    (g <$> f).Follows forms where
  slots := h.slots
  builds source source' missing missing' y hsource hy := by
    obtain ⟨x, hx, rfl⟩ := build_map_eq_ok.1 hy
    exact build_map_eq_ok.2 ⟨x, h.builds _ _ _ missing' x hsource hx, rfl⟩

protected theorem Follows.seq {f : Fields (α → β)} {x : Fields α} {forms' : List FieldForm}
    (hf : f.Follows forms) (hx : x.Follows forms') : (f <*> x).Follows (forms ++ forms') where
  slots := List.rel_append hf.slots hx.slots
  builds source source' missing missing' z hsource hz := by
    have hlength : f.slots.length = forms.length := hf.slots.length_eq
    obtain ⟨g, y, hg, hy, rfl⟩ := build_seq_eq_ok.1 hz
    refine build_seq_eq_ok.2 ⟨g, y, hf.builds _ _ _ _ g (fun i form hform => ?_) hg,
      hx.builds _ _ _ _ y (fun i form hform => ?_) hy, rfl⟩
    · refine hsource i form ?_
      rw [List.getElem?_append_left (List.getElem?_eq_some_iff.1 hform).1, hform]
    · refine hsource _ form ?_
      rw [hlength, List.getElem?_append_right (Nat.le_add_right _ _), Nat.add_sub_cancel_left, hform]

theorem Follows.keys_eq {f : Fields α} (hf : f.Follows forms) :
    f.slots.map Slot.keys = forms.map FieldForm.keys := by
  rw [← List.forall₂_eq_eq_eq, List.forall₂_map_left_iff, List.forall₂_map_right_iff]
  exact hf.slots.imp fun _ _ h => h.1

theorem admits_respelled {s : Slot} {form : FieldForm} (hkeys : s.keys = form.keys)
    (hcheck : ∀ v v', form.same v v' → s.check v = .ok () → s.check v' = .ok ())
    {fields fields' : List (String × Value)}
    (h : List.Forall₂ form.same (valuesUnder form.keys fields) (valuesUnder form.keys fields'))
    (hadmits : s.Admits [] fields) : s.Admits [] fields' := by
  rw [← hkeys] at h
  exact ⟨forall_mem_of_forall₂ h hcheck hadmits.passes, h.length_eq ▸ hadmits.once⟩

theorem ofRecord_respelled {f : Fields α} (hf : f.Follows forms)
    (hkeys : (forms.flatMap FieldForm.keys).Nodup) {fields fields' : List (String × Value)}
    (h : ∀ form ∈ forms,
      List.Forall₂ form.same (valuesUnder form.keys fields) (valuesUnder form.keys fields'))
    {x : α} (hx : f.ofRecord fields = .ok x) : f.ofRecord fields' = .ok x := by
  have hslots : (f.slots.flatMap Slot.keys).Nodup := by
    rwa [List.flatMap_def, hf.keys_eq, ← List.flatMap_def]
  have hlength : f.slots.length = forms.length := hf.slots.length_eq
  rw [ofRecord_eq_ok_iff hslots] at hx ⊢
  obtain ⟨hadmits, hbuild⟩ := hx
  refine ⟨fun s hs => ?_, hf.builds _ _ _ _ x (fun i form hform => ?_) hbuild⟩
  · obtain ⟨i, hi, rfl⟩ := List.getElem_of_mem hs
    obtain ⟨hkeys, hcheck⟩ := hf.slots.get hi (hlength ▸ hi)
    exact admits_respelled hkeys hcheck (h _ (List.getElem_mem _)) (hadmits _ hs)
  · obtain ⟨hi, rfl⟩ := List.getElem?_eq_some_iff.1 hform
    have hi' : i < f.slots.length := hlength ▸ hi
    obtain ⟨hkeys, -⟩ := hf.slots.get hi' hi
    have hkeys : f.slots[i].keys = forms[i].keys := hkeys
    simp only [sourceOf, List.getElem?_eq_getElem hi', Option.bind_some, hkeys]
    exact rel_head?_of_forall₂ (h _ (List.getElem_mem _))

theorem ofList_respelled {f : Fields α} (hf : f.Follows forms) {title : String}
    {vs vs' : List Value} (hlength : vs.length = vs'.length)
    (h : FieldForm.Agree forms (fun i => vs[i]?) (fun i => vs'[i]?))
    {x : α} (hx : f.ofList title vs = .ok x) : f.ofList title vs' = .ok x := by
  simp only [ofList, bind, Except.bind] at hx ⊢
  split at hx
  · cases hx
  · rename_i y hy
    rw [hf.builds _ _ _ _ y h hy, ← hlength]
    exact hx

/-- Two spellings of a record are read alike. -/
theorem read_respects {f : Fields α} (hf : f.Follows forms)
    (hkeys : (forms.flatMap FieldForm.keys).Nodup) (title : String) :
    (f.read title).Respects (Respelled forms) := by
  intro v v' x h hx
  cases h with
  | refl => exact hx
  | record h => exact ofRecord_respelled hf hkeys h hx
  | list hlength h => exact ofList_respelled hf hlength h hx

end Fields

end MeshRollout

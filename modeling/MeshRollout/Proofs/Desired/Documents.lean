import MeshRollout.Cluster.MemoryStore
import MeshRollout.Desired.Alignment
import MeshRollout.Proofs.Dict
import MeshRollout.Proofs.Results
import MeshRollout.Proofs.Text.Split

/-!
The documents of a manifest and what they are read as. A manifest is read only if each of its pieces
is, and then every object tells the version and the kind by which its document is identified.
-/
set_option autoImplicit false

namespace MeshRollout

namespace Resource

open StoreKey (resourceText)

theorem slash_not_mem_group (apiVersion kind : String) :
    '/' ∉ (named apiVersion kind).group.toList := by
  simp only [named, splitVersion]
  split
  · rename_i group version hs
    simpa using (Text.splitOnce_eq_some hs).1
  · exact List.not_mem_nil

theorem slash_not_mem_routeGroup : '/' ∉ Route.resource.group.toList := by
  decide

/-- Where a resource is kept tells its group and its plural, as no group has a slash. -/
theorem resourceText_eq_iff {r r' : Resource} (h : '/' ∉ r.group.toList)
    (h' : '/' ∉ r'.group.toList) :
    resourceText r = resourceText r' ↔ r.group = r'.group ∧ r.plural = r'.plural := by
  constructor
  · intro he
    have hlist := congrArg String.toList he
    simp only [resourceText, String.toList_append] at hlist
    have split (r : Resource) (h : '/' ∉ r.group.toList) :
        Text.splitOnce '/' (r.group.toList ++ "/".toList ++ r.plural.toList)
          = some (r.group.toList, r.plural.toList) := by
      rw [List.append_assoc]
      exact Text.splitOnce_append h
    have hsplit := (split r h).symm.trans
      ((congrArg (Text.splitOnce '/') hlist).trans (split r' h'))
    simp only [Option.some.injEq, Prod.mk.injEq, String.toList_inj] at hsplit
    exact hsplit
  · rintro ⟨hg, hp⟩
    simp only [resourceText, hg, hp]

end Resource

namespace DocumentMeta

theorem ofValue_eq_ok {v : Value} {m : DocumentMeta} (h : ofValue v = .ok m) :
    ∃ apiVersion kind, (v.field "apiVersion").bind Value.text? = some apiVersion ∧
      (v.field "kind").bind Value.text? = some kind ∧
      filled (((v.field "metadata").getD .null).field "name") = some m.name ∧
      m.resource = .named apiVersion kind ∧
      m.space = filled (((v.field "metadata").getD .null).field "namespace") := by
  simp only [ofValue] at h
  split at h
  · rename_i apiVersion ha
    split at h
    · rename_i kind hk
      split at h
      · rename_i name hn
        cases h
        exact ⟨apiVersion, kind, ha, hk, hn, rfl, rfl⟩
      · nomatch h
    · nomatch h
  · nomatch h

end DocumentMeta

theorem Object.ofValue_eq_ok {v : Value} {o : Object} (h : ofValue v = .ok o) :
    ∃ fields, v = .record fields ∧ o.types = (splitTypes (Dict.drop "metadata" fields)).1 ∧
      ∀ x, Dict.get "metadata" fields = some x → ObjectMeta.read x = .ok o.metadata := by
  have hread := ok_of_mapError h
  cases v with
  | record fields =>
    rw [read] at hread
    split at hread
    · rename_i x hx
      obtain ⟨metadata, hmeta, hrest⟩ := ok_of_bind hread
      cases hrest
      refine ⟨fields, rfl, rfl, fun y hy => ?_⟩
      cases hx.symm.trans hy
      exact ok_of_mapError hmeta
    · rename_i hnone
      cases hread
      exact ⟨fields, rfl, rfl, fun y hy => (nomatch hnone.symm.trans hy)⟩
  | null => nomatch hread
  | bool b => nomatch hread
  | int n => nomatch hread
  | float x => nomatch hread
  | str s => nomatch hread
  | list vs => nomatch hread

namespace WantedObject

/-- The object of a document tells the version and the kind that identify the document. -/
def Typed (d : WantedObject) : Prop :=
  ∃ apiVersion kind, d.identity.resource = .named apiVersion kind ∧
    d.object.types = some (apiVersion, kind)

theorem ofDocument_eq_ok {i : Nat} {v : Value} {d : WantedObject} (h : ofDocument i v = .ok d) :
    DocumentMeta.ofValue v = .ok d.identity ∧ Object.ofValue v = .ok d.object := by
  obtain ⟨identity, hid, hrest⟩ := ok_of_bind h
  obtain ⟨object, hobj, hd⟩ := ok_of_bind hrest
  cases hd
  exact ⟨ok_of_mapError hid, ok_of_mapError hobj⟩

theorem typed_of_ofDocument {i : Nat} {v : Value} {d : WantedObject}
    (h : ofDocument i v = .ok d) : d.Typed := by
  obtain ⟨hid, hobj⟩ := ofDocument_eq_ok h
  obtain ⟨apiVersion, kind, ha, hk, -, hr, -⟩ := DocumentMeta.ofValue_eq_ok hid
  obtain ⟨fields, rfl, htypes, -⟩ := Object.ofValue_eq_ok hobj
  -- the metadata are taken out of the record before the version and the kind are read
  have of_text {k x : String} (hne : k ≠ "metadata")
      (hx : (Value.field k (.record fields)).bind Value.text? = some x) :
      Dict.get k (Dict.drop "metadata" fields) = some (.str x) := by
    rw [Dict.get_drop_of_ne hne]
    obtain ⟨y, hy, hxy⟩ := Option.bind_eq_some_iff.1 hx
    cases y with
    | str s =>
      cases hxy
      exact hy
    | null => nomatch hxy
    | bool b => nomatch hxy
    | int n => nomatch hxy
    | float x => nomatch hxy
    | list vs => nomatch hxy
    | record fs => nomatch hxy
  refine ⟨apiVersion, kind, hr, htypes.trans ?_⟩
  rw [Object.splitTypes, of_text (by decide) ha, of_text (by decide) hk]

end WantedObject

/-- Why a piece of a manifest fails the whole manifest. -/
inductive Faulty (i : Nat) (piece : String) : Prop where
  | undecoded {f : Failure} (h : Yaml.decodeAt i piece = .error f)
  | noObject {v : Value} {f : Failure} (h : Yaml.decodeAt i piece = .ok v)
      (fails : Object.ofValue v = .error f)
  | noApiVersion {v : Value} (h : Yaml.decodeAt i piece = .ok v)
      (lacks : (v.field "apiVersion").bind Value.text? = none)
  | noKind {v : Value} (h : Yaml.decodeAt i piece = .ok v)
      (lacks : (v.field "kind").bind Value.text? = none)
  | noName {v : Value} (h : Yaml.decodeAt i piece = .ok v)
      (lacks : DocumentMeta.filled (((v.field "metadata").getD .null).field "name") = none)

namespace Manifest

section Stepwise

variable {α β : Type}

theorem getElem?_of_stepwise (go : Nat → List α → Except Failure (List β))
    (step : Nat → α → Except Failure β) (hnil : ∀ i, go i [] = .ok [])
    (hcons : ∀ i a l, go i (a :: l) = (do
      let b ← step i a
      let bs ← go (i + 1) l
      pure (b :: bs)))
    {i : Nat} {l : List α} {l' : List β} (h : go i l = .ok l') (j : Nat) :
    (l[j]? = none ∧ l'[j]? = none) ∨
      ∃ a b, l[j]? = some a ∧ l'[j]? = some b ∧ step (i + j) a = .ok b := by
  induction l generalizing i j l' with
  | nil =>
    cases (hnil i).symm.trans h
    exact .inl ⟨rfl, rfl⟩
  | cons a l ih =>
    rw [hcons] at h
    obtain ⟨b, hb, hrest⟩ := ok_of_bind h
    obtain ⟨bs, hbs, he⟩ := ok_of_bind hrest
    cases he
    cases j with
    | zero => exact .inr ⟨a, b, rfl, rfl, hb⟩
    | succ j =>
      rw [Nat.add_comm j 1, ← Nat.add_assoc, Nat.add_comm 1 j]
      exact ih hbs j

end Stepwise

variable {i : Nat}

theorem decodeFrom_getElem? {pieces : List String} {vs : List Value}
    (h : Yaml.decodeFrom i pieces = .ok vs) (j : Nat) :
    (pieces[j]? = none ∧ vs[j]? = none) ∨
      ∃ piece v, pieces[j]? = some piece ∧ vs[j]? = some v ∧
        Yaml.decodeAt (i + j) piece = .ok v :=
  getElem?_of_stepwise Yaml.decodeFrom Yaml.decodeAt (fun _ => rfl) (fun _ _ _ => rfl) h j

theorem objectsFrom_getElem? {vs : List Value} {ds : List WantedObject}
    (h : objectsFrom i vs = .ok ds) (j : Nat) :
    (vs[j]? = none ∧ ds[j]? = none) ∨
      ∃ v d, vs[j]? = some v ∧ ds[j]? = some d ∧ WantedObject.ofDocument (i + j) v = .ok d :=
  getElem?_of_stepwise objectsFrom WantedObject.ofDocument (fun _ => rfl) (fun _ _ _ => rfl) h j

theorem not_faulty_of_read {text piece : String} {ds : List WantedObject}
    (h : read text = .ok ds) (hi : (Yaml.split text)[i]? = some piece) : ¬ Faulty i piece := by
  obtain ⟨vs, hvs, hds⟩ := ok_of_bind h
  obtain ⟨v, hv, hdec⟩ : ∃ v, vs[i]? = some v ∧ Yaml.decodeAt i piece = .ok v := by
    have hplace := decodeFrom_getElem? hvs i
    simpa [hi] using hplace
  obtain ⟨d, hdoc⟩ : ∃ d, WantedObject.ofDocument i v = .ok d := by
    have hplace := objectsFrom_getElem? hds i
    obtain ⟨d, -, hdoc⟩ : ∃ d, ds[i]? = some d ∧ WantedObject.ofDocument i v = .ok d := by
      simpa [hv] using hplace
    exact ⟨d, hdoc⟩
  obtain ⟨hid, hobj⟩ := WantedObject.ofDocument_eq_ok hdoc
  obtain ⟨apiVersion, kind, ha, hk, hn, -⟩ := DocumentMeta.ofValue_eq_ok hid
  have hsame {x : Value} (hx : Yaml.decodeAt i piece = .ok x) : x = v :=
    Except.ok.inj (hx.symm.trans hdec)
  rintro (hbad | ⟨hx, hbad⟩ | ⟨hx, hbad⟩ | ⟨hx, hbad⟩ | ⟨hx, hbad⟩)
  · nomatch hdec.symm.trans hbad
  · cases hsame hx
    nomatch hobj.symm.trans hbad
  · cases hsame hx
    nomatch ha.symm.trans hbad
  · cases hsame hx
    nomatch hk.symm.trans hbad
  · cases hsame hx
    nomatch hn.symm.trans hbad

theorem exists_ofDocument_of_mem {text : String} {ds : List WantedObject} (h : read text = .ok ds)
    {d : WantedObject} (hd : d ∈ ds) : ∃ j v, WantedObject.ofDocument j v = .ok d := by
  obtain ⟨vs, -, hds⟩ := ok_of_bind h
  obtain ⟨j, hj⟩ := List.mem_iff_getElem?.1 hd
  obtain ⟨-, hnone⟩ | ⟨v, d', -, hd', hdoc⟩ := objectsFrom_getElem? hds j
  · nomatch hnone.symm.trans hj
  · cases hd'.symm.trans hj
    exact ⟨_, v, hdoc⟩

theorem typed_of_read {text : String} {ds : List WantedObject} (h : read text = .ok ds) :
    ∀ d ∈ ds, d.Typed := by
  intro d hd
  obtain ⟨j, v, hdoc⟩ := exists_ofDocument_of_mem h hd
  exact WantedObject.typed_of_ofDocument hdoc

end Manifest

end MeshRollout

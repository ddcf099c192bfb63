import MeshRollout.Proofs.Desired.Documents
import MeshRollout.Proofs.Shape.Accepted

/-!
Whom a document is about is read twice: from its fields as they stand there, and with the whole
object. In every manifest that is read the two readings agree, so that what is looked for under an
identity is the object that is written.
-/
set_option autoImplicit false

namespace MeshRollout

theorem Slot.find_of_one_name (name : String) (check : Value → Except Mismatch Unit)
    (fields : List (String × Value)) :
    Slot.find ⟨name, [], check⟩ fields = Dict.get name fields := by
  induction fields with
  | nil => rfl
  | cons p fields ih =>
    obtain ⟨k, v⟩ := p
    by_cases hk : name = k
    · simp [Slot.find, Slot.answersTo, Dict.get, hk]
    · rw [Dict.get, if_neg hk, ← ih]
      simp [Slot.find, Slot.answersTo, hk]

theorem Fields.build_optional_text {k : String} {source : Nat → Option Value}
    {missing : Nat → Mismatch} {x : Option String}
    (h : (Fields.optional k .text).build source missing = .ok x) :
    x = (source 0).bind Value.text? := by
  simp only [Fields.optional, Fields.field] at h
  cases hv : source 0 with
  | none =>
    rw [hv] at h
    cases h
    rfl
  | some v =>
    rw [hv] at h
    cases v <;> cases h <;> rfl

theorem ObjectMeta.read_eq_ok {v : Value} {m : ObjectMeta} (h : ObjectMeta.read v = .ok m) :
    m.name = (v.field "name").bind Value.text? ∧
      m.space = (v.field "namespace").bind Value.text? := by
  cases v with
  | record fs =>
    obtain ⟨_, -, hbuild⟩ := ok_of_bind h
    simp only [ObjectMeta.fields, Fields.build_seq_eq_ok, Fields.build_map_eq_ok] at hbuild
    obtain ⟨_, _, ⟨_, _, ⟨_, _, ⟨_, _, ⟨_, _, ⟨_, _, ⟨_, _, ⟨_, _, ⟨_, _, ⟨_, _, ⟨_, _, ⟨_, _, ⟨_, _,
      ⟨_, _, ⟨_, -, rfl⟩, -, rfl⟩, -, rfl⟩, -, rfl⟩, -, rfl⟩, -, rfl⟩, -, rfl⟩, -, rfl⟩, -, rfl⟩,
      hname, rfl⟩, hspace, rfl⟩, -, rfl⟩, -, rfl⟩, -, rfl⟩, -, rfl⟩ := hbuild
    rw [Fields.build_optional_text hname, Fields.build_optional_text hspace, Value.field, Value.field,
      ← Slot.find_of_one_name, ← Slot.find_of_one_name]
    exact ⟨rfl, rfl⟩
  | null => nomatch h
  | bool b => nomatch h
  | int n => nomatch h
  | float x => nomatch h
  | str s => nomatch h
  | list vs => nomatch h

namespace DocumentMeta

theorem text_of_filled {v : Option Value} {s : String} (h : filled v = some s) :
    v.bind Value.text? = some s :=
  (Option.filter_eq_some_iff.1 h).1

/-- An empty text counts as none; the name of the namespace is empty both times. -/
theorem filled_getD (v : Option Value) : (filled v).getD "" = (v.bind Value.text?).getD "" := by
  cases h : v.bind Value.text? with
  | none => rw [filled, h]; rfl
  | some s =>
    by_cases hs : s.isEmpty = true
    · rw [filled, h, String.isEmpty_iff.1 hs]
      rfl
    · rw [filled, h, Option.filter_some_pos (by simpa using hs)]

end DocumentMeta

namespace WantedObject

structure Agrees (d : WantedObject) : Prop where
  name : d.object.name = d.identity.name
  space : d.object.space = d.identity.spaceOrEmpty
  typed : d.Typed

theorem agrees_of_ofDocument {i : Nat} {v : Value} {d : WantedObject}
    (h : ofDocument i v = .ok d) : d.Agrees := by
  obtain ⟨hid, hobj⟩ := ofDocument_eq_ok h
  obtain ⟨_, _, -, -, hname, -, hspace⟩ := DocumentMeta.ofValue_eq_ok hid
  obtain ⟨fields, rfl, -, hread⟩ := Object.ofValue_eq_ok hobj
  cases hx : Value.field "metadata" (.record fields) with
  | none =>
    rw [hx] at hname
    nomatch hname
  | some x =>
    rw [hx, Option.getD_some] at hname hspace
    obtain ⟨hn, hs⟩ := ObjectMeta.read_eq_ok (hread x hx)
    refine ⟨?_, ?_, typed_of_ofDocument h⟩
    · rw [Object.name, hn, DocumentMeta.text_of_filled hname, Option.getD_some]
    · rw [Object.space, hs, DocumentMeta.spaceOrEmpty, hspace, DocumentMeta.filled_getD]

end WantedObject

end MeshRollout

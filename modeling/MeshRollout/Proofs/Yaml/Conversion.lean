import Mathlib.Data.List.Forall2
import Mathlib.Data.List.Nodup
import MeshRollout.Proofs.Dict
import MeshRollout.Proofs.Results
import MeshRollout.Yaml.Document

/-!
What a node keeps when it becomes a value. A number that is not finite becomes nothing, and of two
keys with one text the earlier is dropped; whatever else has a value is kept as it stands.
-/
set_option autoImplicit false

namespace MeshRollout

theorem exists_forall₂_iff {α β : Type} {R : α → β → Prop} {as : List α} :
    (∃ bs, List.Forall₂ R as bs) ↔ ∀ a ∈ as, ∃ b, R a b := by
  induction as with
  | nil => simp
  | cons a as ih =>
    rw [List.forall_mem_cons, ← ih]
    constructor
    · rintro ⟨-, ⟨⟩⟩
      exact ⟨⟨_, ‹_›⟩, _, ‹_›⟩
    · rintro ⟨⟨b, hb⟩, bs, hbs⟩
      exact ⟨b :: bs, .cons hb hbs⟩

namespace Dict
variable {α : Type}

theorem Sorted.nodup_keys {d : Dict α} (h : Sorted d) : (d.map Prod.fst).Nodup := by
  refine List.pairwise_map.2 (List.Pairwise.imp (fun hlt he => ?_) h)
  rw [he] at hlt
  exact String.lt_irrefl _ hlt

end Dict

namespace Yaml.Node

inductive Keeps : Node → Value → Prop
  | null : Keeps .null .null
  | bool (b : Bool) : Keeps (.bool b) (.bool b)
  | int (n : Int) : Keeps (.int n) (.int n)
  | real {s : String} {x : Binary64} (hx : Numeral.binary64? s.toList = some x)
      (hfinite : x.isFinite = true) : Keeps (.real s) (.float x)
  | str (s : String) : Keeps (.str s) (.str s)
  | list {ns : List Node} {vs : List Value} (h : List.Forall₂ Keeps ns vs) :
      Keeps (.list ns) (.list vs)
  /-- There is one field for every pair, and no two fields have one key. -/
  | mapping {ps : List (Node × Node)} {members fields : List (String × Value)}
      (hkeys : ps.map (fun p => p.1.keyText?) = members.map fun f => some f.1)
      (hvalues : List.Forall₂ (fun p f => Keeps p.2 f.2) ps members)
      (hfields : members.Perm fields) (hsorted : Dict.Sorted fields) :
      Keeps (.mapping ps) (.record fields)

/-- A node within a node, at any depth. Keys have no parts. -/
inductive Part : Node → Node → Prop
  | whole (n : Node) : Part n n
  | item {m n : Node} {ns : List Node} (hn : n ∈ ns) (hm : Part m n) : Part m (.list ns)
  | value {m : Node} {p : Node × Node} {ps : List (Node × Node)} (hp : p ∈ ps)
      (hm : Part m p.2) : Part m (.mapping ps)

def Everywhere (P : Node → Prop) (n : Node) : Prop :=
  ∀ m, Part m n → P m

def IsMeant : Node → Prop
  | .real s => (Numeral.binary64? s.toList).isSome ∨ isEndless s
  | .mapping ps => ∀ p ∈ ps, p.1.keyText?.isSome
  | .reference _ | .hole => False
  | .null | .bool _ | .int _ | .str _ | .list _ => True

/-- Whether a node can be told from its value, apart from its parts: a number is finite, and no two
keys have one text. -/
def IsFaithful : Node → Prop
  | .real s => ∃ x, Numeral.binary64? s.toList = some x ∧ x.isFinite = true
  | .mapping ps => (ps.map fun p => p.1.keyText?).Nodup
  | .null | .bool _ | .int _ | .str _ | .list _ | .reference _ | .hole => True

/-- Induction over what the value of a node is made of, keys apart. -/
theorem byParts {motive : Node → Prop} (null : motive .null) (bool : ∀ b, motive (.bool b))
    (int : ∀ n, motive (.int n)) (real : ∀ s, motive (.real s)) (str : ∀ s, motive (.str s))
    (list : ∀ ns, (∀ n ∈ ns, motive n) → motive (.list ns))
    (mapping : ∀ ps, (∀ p ∈ ps, motive p.2) → motive (.mapping ps))
    (reference : ∀ a, motive (.reference a)) (hole : motive .hole) (n : Node) : motive n :=
  @Node.rec motive (fun ns => ∀ n ∈ ns, motive n) (fun ps => ∀ p ∈ ps, motive p.2)
    (fun p => motive p.2) null bool int real str list mapping reference hole
    (List.forall_mem_nil _) (fun _ _ hn hns => List.forall_mem_cons.2 ⟨hn, hns⟩)
    (List.forall_mem_nil _) (fun _ _ hp hps => List.forall_mem_cons.2 ⟨hp, hps⟩)
    (fun _ _ _ hn => hn) n

section Parts
variable {P : Node → Prop} {ns : List Node} {ps : List (Node × Node)}

theorem everywhere_list : Everywhere P (.list ns) ↔ P (.list ns) ∧ ∀ n ∈ ns, Everywhere P n := by
  constructor
  · exact fun h => ⟨h _ (.whole _), fun n hn m hm => h m (.item hn hm)⟩
  · rintro ⟨hlist, hitems⟩ m (_ | ⟨hn, hm⟩)
    · exact hlist
    · exact hitems _ hn m hm

theorem everywhere_mapping :
    Everywhere P (.mapping ps) ↔ P (.mapping ps) ∧ ∀ p ∈ ps, Everywhere P p.2 := by
  constructor
  · exact fun h => ⟨h _ (.whole _), fun p hp m hm => h m (.value hp hm)⟩
  · rintro ⟨hmapping, hvalues⟩ m (_ | _ | ⟨hp, hm⟩)
    · exact hmapping
    · exact hvalues _ hp m hm

theorem everywhere_leaf {n : Node} (hlist : ∀ ns, n ≠ .list ns) (hmapping : ∀ ps, n ≠ .mapping ps) :
    Everywhere P n ↔ P n := by
  constructor
  · exact fun h => h n (.whole n)
  · rintro h m (_ | _ | _)
    · exact h
    · exact absurd rfl (hlist _)
    · exact absurd rfl (hmapping _)

end Parts

theorem itemValues_eq_ok_iff {ns : List Node} {vs : List Value} :
    itemValues ns = .ok vs ↔ List.Forall₂ (fun n v => n.toValue = .ok v) ns vs := by
  induction ns generalizing vs with
  | nil => simp [itemValues, eq_comm]
  | cons n ns ih =>
    rw [List.forall₂_cons_left_iff, itemValues]
    constructor
    · intro h
      obtain ⟨v, hv, h⟩ := ok_of_bind h
      obtain ⟨ws, hws, h⟩ := ok_of_bind h
      cases h
      exact ⟨v, ws, hv, ih.1 hws, rfl⟩
    · rintro ⟨v, ws, hv, hws, rfl⟩
      rw [hv, ih.2 hws]
      rfl

def IsMember (p : Node × Node) (f : String × Value) : Prop :=
  p.1.keyText? = some f.1 ∧ p.2.toValue = .ok f.2

theorem exists_isMember_iff {p : Node × Node} :
    (∃ f, IsMember p f) ↔ p.1.keyText?.isSome ∧ ∃ v, p.2.toValue = .ok v := by
  simp [IsMember, Prod.exists, Option.isSome_iff_exists]

theorem pairValues_eq_ok_iff {ps : List (Node × Node)} {fs : List (String × Value)} :
    pairValues ps = .ok fs ↔ List.Forall₂ IsMember ps fs := by
  induction ps generalizing fs with
  | nil => simp [pairValues, eq_comm]
  | cons p ps ih =>
    obtain ⟨k, n⟩ := p
    rw [List.forall₂_cons_left_iff, pairValues]
    constructor
    · intro h
      split at h
      · cases h
      · rename_i key hkey
        obtain ⟨v, hv, h⟩ := ok_of_bind h
        obtain ⟨gs, hgs, h⟩ := ok_of_bind h
        cases h
        exact ⟨(key, v), gs, ⟨hkey, hv⟩, ih.1 hgs, rfl⟩
    · rintro ⟨⟨key, v⟩, gs, ⟨hkey, hv⟩, hgs, rfl⟩
      simp only [hkey, hv, ih.2 hgs]
      rfl

theorem toValue_list_eq_ok_iff {ns : List Node} {v : Value} :
    toValue (.list ns) = .ok v ↔
      ∃ vs, List.Forall₂ (fun n v => n.toValue = .ok v) ns vs ∧ .list vs = v := by
  simp only [toValue, map_eq_ok_iff, itemValues_eq_ok_iff]

theorem toValue_mapping_eq_ok_iff {ps : List (Node × Node)} {v : Value} :
    toValue (.mapping ps) = .ok v ↔
      ∃ members, List.Forall₂ IsMember ps members ∧ .record (Dict.ofList members) = v := by
  simp only [toValue, map_eq_ok_iff, pairValues_eq_ok_iff]

theorem exists_toValue_iff (n : Node) : (∃ v, n.toValue = .ok v) ↔ n.Everywhere IsMeant := by
  induction n using byParts with
  | list ns ih =>
    simp only [toValue, exists_map_eq_ok_iff, itemValues_eq_ok_iff, exists_forall₂_iff,
      everywhere_list, IsMeant, true_and]
    exact forall₂_congr ih
  | mapping ps ih =>
    simp only [toValue, exists_map_eq_ok_iff, pairValues_eq_ok_iff, exists_forall₂_iff,
      everywhere_mapping, IsMeant, exists_isMember_iff, ← forall_and]
    refine forall₂_congr fun p hp => ?_
    rw [ih p hp]
  | real s =>
    rw [everywhere_leaf (by simp) (by simp), IsMeant, toValue, realValue]
    cases Numeral.binary64? s.toList with
    | some x => simp
    | none => by_cases h : isEndless s = true <;> simp [h]
  | null | bool | int | str | reference | hole => simp [everywhere_leaf, toValue, IsMeant]

theorem Keeps.isFaithful {n : Node} {v : Value} (h : n.Keeps v) : n.Everywhere IsFaithful := by
  induction n using byParts generalizing v with
  | list ns ih =>
    cases h with
    | list h =>
      refine everywhere_list.2 ⟨trivial, fun n hn => ?_⟩
      obtain ⟨v, hv⟩ := exists_forall₂_iff.1 ⟨_, h⟩ n hn
      exact ih n hn hv
  | mapping ps ih =>
    cases h with
    | @mapping _ members fields hkeys hvalues hfields hsorted =>
      have hmembers : (members.map Prod.fst).Nodup :=
        (hfields.map Prod.fst).nodup_iff.2 hsorted.nodup_keys
      refine everywhere_mapping.2 ⟨?_, fun p hp => ?_⟩
      · rw [IsFaithful, hkeys, ← Function.comp_def, ← List.map_map]
        exact hmembers.map fun _ _ => Option.some.inj
      · obtain ⟨f, hf⟩ := exists_forall₂_iff.1 ⟨_, hvalues⟩ p hp
        exact ih p hp hf
  | real s =>
    cases h with
    | real hx hfinite => simp [everywhere_leaf, IsFaithful, hx, hfinite]
  | null | bool | int | str | reference | hole => simp [everywhere_leaf, IsFaithful]

theorem keyTexts_of_members {ps : List (Node × Node)} {members : List (String × Value)}
    (h : List.Forall₂ IsMember ps members) :
    ps.map (fun p => p.1.keyText?) = members.map fun f => some f.1 := by
  rw [← List.forall₂_eq_eq_eq, List.forall₂_map_left_iff, List.forall₂_map_right_iff]
  exact h.imp fun p f hp => hp.1

theorem keeps_of_isFaithful {n : Node} {v : Value} (hv : n.toValue = .ok v)
    (h : n.Everywhere IsFaithful) : n.Keeps v := by
  induction n using byParts generalizing v with
  | list ns ih =>
    obtain ⟨vs, hvs, rfl⟩ := toValue_list_eq_ok_iff.1 hv
    obtain ⟨-, hitems⟩ := everywhere_list.1 h
    have hkept : ∀ n ∈ ns, ∀ v, n.toValue = .ok v → n.Keeps v :=
      fun n hn v hv => ih n hn hv (hitems n hn)
    exact .list <| ((List.forall₂_and_left _ _).2 ⟨hkept, hvs⟩).imp fun n v hn => hn.1 v hn.2
  | mapping ps ih =>
    obtain ⟨members, hmembers, rfl⟩ := toValue_mapping_eq_ok_iff.1 hv
    obtain ⟨hkeys, hvalues⟩ := everywhere_mapping.1 h
    rw [IsFaithful, keyTexts_of_members hmembers, ← Function.comp_def, ← List.map_map] at hkeys
    have hkept : ∀ p ∈ ps, ∀ f, IsMember p f → p.2.Keeps f.2 :=
      fun p hp f hf => ih p hp hf.2 (hvalues p hp)
    -- no member takes the place of another, so the fields are the members in the order of keys
    exact .mapping (keyTexts_of_members hmembers)
      (((List.forall₂_and_left _ _).2 ⟨hkept, hmembers⟩).imp fun p f hp => hp.1 f hp.2)
      (Dict.ofList_perm hkeys.of_map).symm (Dict.sorted_ofList members)
  | real s =>
    obtain ⟨x, hx, hfinite⟩ := h (.real s) (.whole _)
    simp only [toValue, realValue, hx, if_pos hfinite] at hv
    cases hv
    exact .real hx hfinite
  | null | bool | int | str =>
    rw [toValue] at hv
    cases hv
    constructor
  | reference | hole =>
    rw [toValue] at hv
    cases hv

/-- A node has a value exactly if each of its parts stands for something, and the value says what
the node says exactly if every number in it is finite and no mapping in it has two keys with one
text. -/
theorem value_keeps_iff (n : Node) :
    ((∃ v, n.toValue = .ok v) ↔ n.Everywhere IsMeant) ∧
    ∀ v, n.toValue = .ok v → (n.Keeps v ↔ n.Everywhere IsFaithful) :=
  ⟨exists_toValue_iff n, fun _ hv => ⟨Keeps.isFaithful, keeps_of_isFaithful hv⟩⟩

def settings : Node :=
  .mapping [(.str "limits", .list [.real "0.5", .null]), (.bool true, .mapping [(.null, .int 1)])]

theorem settings_kept : ∃ v, settings.toValue = .ok v ∧ settings.Keeps v := by
  have hreads : (Numeral.binary64? "0.5".toList).isSome = true := by decide +kernel
  have hfinite : (Numeral.binary64? "0.5".toList).any Binary64.isFinite = true := by decide +kernel
  have hmeant : settings.Everywhere IsMeant := by
    simpa [settings, everywhere_mapping, everywhere_list, everywhere_leaf, IsMeant, keyText?]
      using Or.inl hreads
  have hfaithful : settings.Everywhere IsFaithful := by
    simpa [settings, everywhere_mapping, everywhere_list, everywhere_leaf, IsFaithful, keyText?]
      using (Option.any_eq_true _ _).1 hfinite
  obtain ⟨hvalue, hkeeps⟩ := value_keeps_iff settings
  obtain ⟨v, hv⟩ := hvalue.2 hmeant
  exact ⟨v, hv, (hkeeps v hv).2 hfaithful⟩

def unlimited : Node :=
  .mapping [(.str "limit", .real "1e999")]

def doubled : Node :=
  .mapping [(.int 1, .str "a"), (.str "1", .str "b")]

theorem limit_and_key_lost :
    (unlimited.toValue = .ok (.record [("limit", .null)]) ∧
      ¬ unlimited.Keeps (.record [("limit", .null)])) ∧
    (doubled.toValue = .ok (.record [("1", .str "b")]) ∧
      ¬ doubled.Keeps (.record [("1", .str "b")])) ∧
    (documents? "limit: 1e999\n").any (Node.sameItems [unlimited]) = true ∧
    (documents? "1: a\n\"1\": b\n").any (Node.sameItems [doubled]) = true := by
  have hlarge : ¬ (Numeral.binary64? "1e999".toList).any Binary64.isFinite = true := by
    decide +kernel
  have hclash : ¬ [some "1", some "1"].Nodup := by decide
  refine ⟨⟨rfl, fun h => hlarge ((Option.any_eq_true _ _).2 ?_)⟩, ⟨rfl, fun h => hclash ?_⟩,
    by decide +kernel, by decide +kernel⟩
  · exact h.isFaithful (.real "1e999") (.value List.mem_cons_self (.whole _))
  · exact h.isFaithful doubled (.whole doubled)

end Yaml.Node

end MeshRollout

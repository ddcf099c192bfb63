import Mathlib.Data.List.Forall2
import MeshRollout.Yaml.Document

/-!
What becomes of the documents of a manifest. The lines of the text go to the pieces in order, and
decoding gives the first document of each piece; what else a piece holds is lost.
-/
set_option autoImplicit false

namespace MeshRollout

namespace Yaml

theorem sections_eq_splitOnP (ls : List (List Char)) : sections ls = ls.splitOnP isSeparator := by
  induction ls with
  | nil => rfl
  | cons line rest ih =>
    rw [List.splitOnP_cons_eq_if_modifyHead, sections, ih]
    by_cases hline : isSeparator line = true
    · simp [hline]
    · obtain ⟨s, ss, hs⟩ :=
        List.exists_cons_of_ne_nil (List.splitOnP_ne_nil isSeparator rest)
      simp [hline, hs]

theorem sections_tile (ls : List (List Char)) :
    ((sections ls).zipWith (· ++ ·) ((ls.filter isSeparator).map ([·]) ++ [[]])).flatten = ls := by
  rw [sections_eq_splitOnP]
  exact List.splitOnP_spec ls

theorem sections_of_plain {ls : List (List Char)} (h : ∀ line ∈ ls, isSeparator line = false) :
    sections ls = [ls] := by
  induction ls with
  | nil => rfl
  | cons line rest ih =>
    have hrest := ih fun l hl => h l (List.mem_cons_of_mem _ hl)
    simp [sections, h line List.mem_cons_self, hrest]

theorem split_of_plain {text : String}
    (hlines : unlines (Text.lines text.toList) = text)
    (hplain : ∀ line ∈ Text.lines text.toList, isSeparator line = false)
    (hmeant : ∃ line ∈ Text.lines text.toList, saysSomething line = true) :
    split text = [text] := by
  have hany : (Text.lines text.toList).any saysSomething = true := List.any_eq_true.2 hmeant
  simp [split, sections_of_plain hplain, hany, hlines]

namespace Node

def isNull : Node → Bool
  | .null => true
  | _ => false

end Node

def Finds (pieces : List String) (found : List (List Node)) : Prop :=
  List.Forall₂ (fun piece ns => documents? piece = some ns) pieces found

def IsFirst (ns : List Node) (v : Value) : Prop :=
  ∃ n rest fields, ns = n :: rest ∧ n.toValue = .ok v ∧ v = .record fields

theorem decodeAt_eq_ok_iff {i : Nat} {piece : String} {v : Value} :
    decodeAt i piece = .ok v ↔ read piece = .ok v ∧ ∃ fields, v = .record fields := by
  rw [decodeAt]
  cases read piece with
  | error f => simp [Except.mapError, bind, Except.bind]
  | ok x =>
    simp only [Except.mapError, bind, Except.bind, Except.ok.injEq]
    constructor
    · intro h
      cases x with
      | record fields =>
        cases h
        exact ⟨rfl, fields, rfl⟩
      | _ => cases h
    · rintro ⟨rfl, fields, rfl⟩
      rfl

theorem read_eq_ok_record_iff {piece : String} {fields : List (String × Value)} :
    read piece = .ok (.record fields) ↔
      ∃ n rest, documents? piece = some (n :: rest) ∧ n.toValue = .ok (.record fields) := by
  unfold read
  split <;> simp [*]

theorem decodeFrom_eq_ok_iff {i : Nat} {pieces : List String} {vs : List Value} :
    decodeFrom i pieces = .ok vs ↔
      ∃ found, Finds pieces found ∧ List.Forall₂ IsFirst found vs := by
  induction pieces generalizing i vs with
  | nil =>
    constructor
    · rintro ⟨⟩
      exact ⟨[], .nil, .nil⟩
    · rintro ⟨found, hfound, hfirst⟩
      cases hfound
      cases hfirst
      rfl
  | cons piece pieces ih =>
    constructor
    · intro h
      cases hv : decodeAt i piece with
      | error f =>
        rw [decodeFrom, hv] at h
        cases h
      | ok v =>
        cases hrest : decodeFrom (i + 1) pieces with
        | error f =>
          rw [decodeFrom, hv, hrest] at h
          cases h
        | ok vs' =>
          rw [decodeFrom, hv, hrest] at h
          cases h
          obtain ⟨hread, fields, rfl⟩ := decodeAt_eq_ok_iff.1 hv
          obtain ⟨n, rest, hns, hn⟩ := read_eq_ok_record_iff.1 hread
          obtain ⟨found, hfound, hfirst⟩ := ih.1 hrest
          exact ⟨_, .cons hns hfound, .cons ⟨n, rest, fields, rfl, hn, rfl⟩ hfirst⟩
    · rintro ⟨found, hfound, hfirst⟩
      cases hfound with
      | cons hns hfound =>
        cases hfirst with
        | cons hv hfirst =>
          obtain ⟨n, rest, fields, rfl, hn, rfl⟩ := hv
          have hread := read_eq_ok_record_iff.2 ⟨n, rest, hns, hn⟩
          have hhead := (decodeAt_eq_ok_iff (i := i)).2 ⟨hread, fields, rfl⟩
          rw [decodeFrom, hhead, (ih (i := i + 1)).2 ⟨_, hfound, hfirst⟩]
          rfl

def present (found : List (List Node)) : List Node :=
  found.flatten.filter fun n => !n.isNull

theorem present_cons (ns : List Node) (found : List (List Node)) :
    present (ns :: found) = ns.filter (fun n => !n.isNull) ++ present found := by
  simp [present]

theorem isNull_eq_false {n : Node} {fields : List (String × Value)}
    (h : n.toValue = .ok (.record fields)) : n.isNull = false := by
  cases n with
  | null =>
    rw [Node.toValue] at h
    cases h
  | _ => rfl

theorem length_le_present {found : List (List Node)} {vs : List Value}
    (h : List.Forall₂ IsFirst found vs) : vs.length ≤ (present found).length := by
  induction h with
  | nil => exact Nat.zero_le _
  | cons hv _ ih =>
    obtain ⟨n, rest, fields, rfl, hn, rfl⟩ := hv
    rw [present_cons, List.filter_cons_of_pos (by simp [isNull_eq_false hn])]
    simp only [List.cons_append, List.length_cons, List.length_append]
    omega

theorem present_eq_iff {found : List (List Node)} {vs : List Value}
    (h : List.Forall₂ IsFirst found vs) :
    (present found).map Node.toValue = vs.map .ok ↔
      ∀ ns ∈ found, ∀ n ∈ ns.tail, n.isNull = true := by
  induction h with
  | nil => simp [present]
  | @cons ns v found vs hv hrest ih =>
    obtain ⟨n, rest, fields, rfl, hn, rfl⟩ := hv
    have hhead : (n :: rest).filter (fun n => !n.isNull)
        = n :: rest.filter fun n => !n.isNull :=
      List.filter_cons_of_pos (by simp [isNull_eq_false hn])
    have htail : rest.filter (fun n => !n.isNull) = [] ↔ ∀ x ∈ rest, x.isNull = true := by
      simp [List.filter_eq_nil_iff]
    rw [present_cons, hhead, List.forall_mem_cons, List.tail_cons, ← htail, ← ih]
    simp only [List.cons_append, List.map_cons, List.map_append, hn, List.cons.injEq, true_and]
    constructor
    · intro he
      -- there are at least as many documents as values, so the rest of the piece adds none
      have hlen := congrArg List.length he
      have hle := length_le_present hrest
      simp only [List.length_append, List.length_map] at hlen
      have hnone : rest.filter (fun n => !n.isNull) = [] := List.length_eq_zero_iff.1 (by omega)
      rw [hnone] at he
      exact ⟨hnone, he⟩
    · rintro ⟨hnone, he⟩
      rw [hnone]
      exact he

/-- The lines of a manifest are those of its pieces and the separators between them. Decoding
succeeds where each piece that says something has a first document that is a record, and gives these
documents; nothing that the loader finds in the pieces is lost exactly where it finds nothing more
than these. A text without separator lines is a piece of its own, whatever the loader finds in
it. -/
theorem decode_gives_first_of_each (text : String) :
    ((sections (Text.lines text.toList)).zipWith (· ++ ·)
      (((Text.lines text.toList).filter isSeparator).map ([·]) ++ [[]])).flatten
      = Text.lines text.toList ∧
    (∀ vs, decode text = .ok vs ↔
      ∃ found, Finds (split text) found ∧ List.Forall₂ IsFirst found vs) ∧
    (∀ vs found, decode text = .ok vs → Finds (split text) found →
      ((present found).map Node.toValue = vs.map .ok ↔
        ∀ ns ∈ found, ∀ n ∈ ns.tail, n.isNull = true)) ∧
    (unlines (Text.lines text.toList) = text →
      (∀ line ∈ Text.lines text.toList, isSeparator line = false) →
      (∃ line ∈ Text.lines text.toList, saysSomething line = true) → split text = [text]) := by
  refine ⟨sections_tile _, fun vs => decodeFrom_eq_ok_iff, fun vs found hvs hfound => ?_,
    split_of_plain⟩
  obtain ⟨found', hfound', hfirst⟩ := decodeFrom_eq_ok_iff.1 hvs
  have hunique : Relator.RightUnique fun piece ns => documents? piece = some ns :=
    fun _ _ _ h h' => Option.some.inj (h.symm.trans h')
  exact hunique.forall₂ hfound hfound' ▸ present_eq_iff hfirst

def decorated : String :=
  "a: 1\n--- # next\nb: 2\n"

theorem decorated_gives_one :
    unlines (Text.lines decorated.toList) = decorated ∧ split decorated = [decorated] ∧
    ∃ vs found, decode decorated = .ok vs ∧ Finds (split decorated) found ∧
      (present found).map Node.toValue ≠ vs.map .ok := by
  obtain ⟨-, hdecode, hlost, hwhole⟩ := decode_gives_first_of_each decorated
  have hlines : unlines (Text.lines decorated.toList) = decorated := by decide +kernel
  have hsplit : split decorated = [decorated] :=
    hwhole hlines (by decide +kernel) (by decide +kernel)
  have hnulls : (documents? decorated).map (fun ns => ns.map Node.isNull) = some [false, false] := by
    decide +kernel
  obtain ⟨vs, hvs⟩ : ∃ vs, decode decorated = .ok vs := by
    have hok : (decode decorated).isOk = true := by decide +kernel
    cases hd : decode decorated with
    | ok vs => exact ⟨vs, rfl⟩
    | error f =>
      rw [hd] at hok
      cases hok
  obtain ⟨found, hfound, -⟩ := (hdecode vs).1 hvs
  refine ⟨hlines, hsplit, vs, found, hvs, hfound, fun hall => ?_⟩
  have hnull := (hlost vs found hvs hfound).1 hall
  rw [hsplit] at hfound
  cases hfound with
  | @cons _ ns _ _ hns _ =>
    rw [hns, Option.map_some, Option.some.injEq] at hnulls
    have htail : ns.tail.map Node.isNull = [false] := by rw [List.map_tail, hnulls, List.tail_cons]
    obtain ⟨n, hn, hf⟩ := List.mem_map.1 (htail ▸ List.mem_singleton_self false)
    cases hf.symm.trans (hnull ns List.mem_cons_self n hn)

/-- A second document behind a decorated separator or behind an end mark is lost, and a block of
text that holds three hyphens is cut in two. -/
theorem documents_lost_and_cut :
    ((decode decorated).toOption.any (Value.sameItems [.record [("a", .int 1)]]) = true ∧
      (documents? decorated).any (Node.sameItems
        [.mapping [(.str "a", .int 1)], .mapping [(.str "b", .int 2)]]) = true) ∧
    ((decode "a: 1\n...\nb: 2\n").toOption.any (Value.sameItems [.record [("a", .int 1)]]) = true ∧
      (documents? "a: 1\n...\nb: 2\n").any (Node.sameItems
        [.mapping [(.str "a", .int 1)], .mapping [(.str "b", .int 2)]]) = true) ∧
    (decode "a: |\n  x\n  ---\n  y: 1\n").toOption.any
        (Value.sameItems [.record [("a", .str "x\n")], .record [("y", .int 1)]]) = true ∧
      (documents? "a: |\n  x\n  ---\n  y: 1\n").any (Node.sameItems
        [.mapping [(.str "a", .str "x\n---\ny: 1\n")]]) = true := by
  decide +kernel

end Yaml

end MeshRollout

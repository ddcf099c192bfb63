import MeshRollout.Proofs.Dict
import MeshRollout.Proofs.Value
import MeshRollout.Proofs.Yaml.Composing
import MeshRollout.Proofs.Yaml.Splitting

/-!
Written values read back. A value comes back from its own text exactly if every text in it stands
for itself, and a manifest of several values is cut into their texts again.
-/
set_option autoImplicit false

namespace MeshRollout.Yaml

mutual

def Legible : Value → Prop
  | .str s => IsLegible s
  | .list vs => LegibleItems vs
  | .record fs => LegibleFields fs
  | .null | .bool _ | .int _ | .float _ => True

def LegibleItems : List Value → Prop
  | [] => True
  | v :: vs => Legible v ∧ LegibleItems vs

def LegibleFields : List (String × Value) → Prop
  | [] => True
  | (_, v) :: fs => Legible v ∧ LegibleFields fs

end

section Texts
variable {vs : List Value} {fs : List (String × Value)}

@[simp] theorem legible_str (s : String) : Legible (.str s) ↔ IsLegible s := by
  rw [Legible]

@[simp] theorem legible_nat (n : Nat) : Legible (.nat n) := by
  rw [Value.nat, Legible]
  trivial

@[simp] theorem legible_list : Legible (.list vs) ↔ ∀ v ∈ vs, Legible v := by
  have hitems : LegibleItems vs ↔ ∀ v ∈ vs, Legible v := by
    induction vs with
    | nil => simp [LegibleItems]
    | cons v vs ih => simp [LegibleItems, ih]
  rw [Legible, hitems]

@[simp] theorem legible_record : Legible (.record fs) ↔ ∀ f ∈ fs, Legible f.2 := by
  have hfields : LegibleFields fs ↔ ∀ f ∈ fs, Legible f.2 := by
    induction fs with
    | nil => simp [LegibleFields]
    | cons f fs ih => simp [LegibleFields, ih]
  rw [Legible, hfields]

/-- A record made of other data, field by field. -/
theorem legible_record_map {α : Type} {l : List α} {f : α → String × Value} :
    Legible (.record (l.map f)) ↔ ∀ x ∈ l, Legible (f x).2 := by
  rw [legible_record, List.forall_mem_map]

@[simp] theorem legible_object {fs : List (String × Option Value)} :
    Legible (.object fs) ↔ ∀ f ∈ fs, ∀ v ∈ f.2, Legible v := by
  rw [Value.object, legible_record]
  exact Value.forall_mem_written

@[simp] theorem legible_strings {xs : List String} :
    Legible (.strings xs) ↔ ∀ x ∈ xs, IsLegible x := by
  simp [Value.strings]

@[simp] theorem legible_ofTexts {d : Dict String} :
    Legible (.ofTexts d) ↔ ∀ p ∈ d, IsLegible p.2 := by
  simp only [Value.ofTexts, legible_record_map, legible_str]

end Texts

namespace Node

theorem toValue_eq_str_iff {n : Node} {s : String} : n.toValue = .ok (.str s) ↔ n = .str s := by
  cases n with
  | str t => simp [toValue]
  | real t =>
    rw [toValue, realValue]
    split <;> split <;> simp
  | list ns => cases h : itemValues ns <;> simp [toValue, h, Except.map]
  | mapping ps => cases h : pairValues ps <;> simp [toValue, h, Except.map]
  | null | bool | int | reference | hole => simp [toValue]

theorem ofScalar_eq_str_iff {s : String} :
    ofScalar (ScalarStyle.of s = .plain) none s = .str s ↔ IsLegible s := by
  refine ⟨fun h hstyle => ?_, IsLegible.ofScalar_eq⟩
  rwa [ofScalar, if_neg (by simp [hstyle])] at h

theorem keys_of_pairValues {fs gs : List (String × Value)}
    (h : pairValues (fieldNodes fs) = .ok gs) : gs.map Prod.fst = fs.map Prod.fst := by
  induction fs generalizing gs with
  | nil =>
    cases h
    rfl
  | cons f fs ih =>
    obtain ⟨k, v⟩ := f
    simp only [fieldNodes, pairValues, keyText?, bind, Except.bind, pure, Except.pure] at h
    split at h
    · cases h
    · split at h
      · cases h
      · rename_i hrest
        cases h
        simp [ih hrest]

end Node

mutual

theorem toValue_nodeOf_iff (v : Value) (hv : Printable v) :
    (nodeOf v).toValue = .ok v ↔ Legible v := by
  match v, hv with
  | .null, _ | .bool _, _ | .int _, _ => simp [nodeOf, Node.toValue, Legible]
  | .str s, _ => rw [nodeOf, Node.toValue_eq_str_iff, Node.ofScalar_eq_str_iff, Legible]
  | .list vs, hv =>
    rw [nodeOf, Node.toValue, Legible, ← itemValues_iff vs hv]
    cases Node.itemValues (itemNodes vs) <;> simp [Except.map]
  | .record fs, hv =>
    rw [nodeOf, Node.toValue, Legible, ← pairValues_iff fs hv.2]
    cases hgs : Node.pairValues (fieldNodes fs) with
    | error => simp [Except.map]
    | ok gs =>
      have hsorted : Dict.Sorted gs := by
        have hkeys : (gs.map Prod.fst).Pairwise (· < ·) :=
          Node.keys_of_pairValues hgs ▸ List.pairwise_map.2 hv.1
        exact List.pairwise_map.1 hkeys
      simp [Except.map, Dict.ofList_of_sorted hsorted]
termination_by sizeOf v

theorem itemValues_iff (vs : List Value) (hvs : PrintableItems vs) :
    Node.itemValues (itemNodes vs) = .ok vs ↔ LegibleItems vs := by
  match vs, hvs with
  | [], _ => simp [itemNodes, Node.itemValues, LegibleItems]
  | v :: vs, hvs =>
    rw [LegibleItems, ← toValue_nodeOf_iff v hvs.1, ← itemValues_iff vs hvs.2, itemNodes,
      Node.itemValues]
    cases (nodeOf v).toValue with
    | error => simp [bind, Except.bind]
    | ok w => cases Node.itemValues (itemNodes vs) <;> simp [bind, Except.bind, pure, Except.pure]
termination_by sizeOf vs

theorem pairValues_iff (fs : List (String × Value)) (hfs : PrintableFields fs) :
    Node.pairValues (fieldNodes fs) = .ok fs ↔ LegibleFields fs := by
  match fs, hfs with
  | [], _ => simp [fieldNodes, Node.pairValues, LegibleFields]
  | (k, v) :: fs, hfs =>
    rw [LegibleFields, ← toValue_nodeOf_iff v hfs.2.1, ← pairValues_iff fs hfs.2.2, fieldNodes,
      Node.pairValues]
    simp only [Node.keyText?]
    cases (nodeOf v).toValue with
    | error => simp [bind, Except.bind]
    | ok w => cases Node.pairValues (fieldNodes fs) <;> simp [bind, Except.bind, pure, Except.pure]
termination_by sizeOf fs

end

theorem read_eq_toValue {piece : String} {n : Node} {ns : List Node}
    (h : documents? piece = some (n :: ns)) : read piece = n.toValue := by
  unfold read
  split <;> simp_all

theorem read_text_iff {f : String × Value} {fs : List (String × Value)}
    (hv : Printable (.record (f :: fs))) :
    read (text (.record (f :: fs))) = .ok (.record (f :: fs)) ↔ Legible (.record (f :: fs)) := by
  rw [read_eq_toValue (documents?_text hv)]
  exact toValue_nodeOf_iff _ hv

/-- Whole lines of which none separates documents and the first one says something. -/
structure IsPiece (t : List Char) : Prop where
  whole : IsTail ('\n' :: t)
  meant : ∃ c r, t = c :: r ∧ Text.isBlank c = false ∧ c ≠ '#'

/-- A piece is a document of its own. -/
theorem IsPiece.split_eq {s : String} (h : IsPiece s.toList) :
    (∃ c, s = c ++ "\n") ∧ split s = [s] := by
  obtain ⟨c, r, hcr, hblank, hhash⟩ := h.meant
  have htail := h.whole.of_whole (by simp [hcr])
  have hbelow := h.whole.below
  obtain ⟨t, ht⟩ := htail.exists_eq
  rw [ht, splitOn_lineFeed, List.tail_cons, Text.splitOn_around] at hbelow
  have hlines : Text.lines s.toList = Text.splitOn '\n' t := by
    have hnone : Text.lines [] = [] := rfl
    rw [ht, Text.lines_append_lineFeed, hnone, List.append_nil]
    refine (List.map_congr_left fun line hline => ?_).trans (List.map_id _)
    refine Text.dropReturn_of_not_mem fun hmem => ?_
    have hwritten := htail.written '\r'
      (ht ▸ List.mem_append_left _ (Text.subset_of_mem_splitOn hline hmem))
    exact absurd hwritten (by decide)
  have hwhole : s = String.ofList (t ++ ['\n']) := by rw [← ht, String.ofList_toList]
  refine ⟨⟨String.ofList t, hwhole.trans String.ofList_append⟩, split_of_plain ?_ ?_ ?_⟩
  · rw [hlines, unlines, Text.flatMap_splitOn, ← hwhole]
  · rw [hlines]
    exact (List.forall_mem_append.1 hbelow).1
  · -- the first line is not blank, as its first character is not
    rw [hlines]
    cases t with
    | nil =>
      obtain rfl : '\n' = c := (List.cons.inj (ht.symm.trans hcr)).1
      cases hblank
    | cons d t =>
      obtain rfl : d = c := (List.cons.inj (ht.symm.trans hcr)).1
      have hd : d ≠ '\n' := by
        rintro rfl
        cases hblank
      obtain ⟨q, qs, hq⟩ := List.exists_cons_of_ne_nil (Text.splitOn_ne_nil '\n' t)
      simp [Text.splitOn, hd, hq, saysSomething, Text.isBlankText, Text.trimStart, hblank, hhash]

theorem decodeFrom_texts_iff {vs : List Value} (h : ∀ v ∈ vs, ∃ fields, v = .record fields) (i : Nat) :
    decodeFrom i (vs.map text) = .ok vs ↔ ∀ v ∈ vs, read (text v) = .ok v := by
  induction vs generalizing i with
  | nil => simp [decodeFrom]
  | cons v vs ih =>
    obtain ⟨hv, hvs⟩ := List.forall_mem_cons.1 h
    have hhead : decodeAt i (text v) = .ok v ↔ read (text v) = .ok v := by
      rw [decodeAt_eq_ok_iff, and_iff_left hv]
    rw [List.forall_mem_cons, ← hhead, ← ih hvs (i + 1), List.map_cons, decodeFrom]
    cases decodeAt i (text v) with
    | error => simp [bind, Except.bind]
    | ok w => cases decodeFrom (i + 1) (vs.map text) <;> simp [bind, Except.bind, pure, Except.pure]

structure IsDocument (v : Value) : Prop where
  printable : Printable v
  fields : ∃ f fs, v = .record (f :: fs)
  meant : ∃ c r, nodeText 0 v = c :: r ∧ Text.isBlank c = false ∧ c ≠ '#'

theorem IsDocument.isPiece {v : Value} (h : IsDocument v) : IsPiece (text v).toList := by
  rw [text, String.toList_ofList]
  refine ⟨?_, h.meant⟩
  obtain ⟨f, fs, rfl⟩ := h.fields
  have hwhole := isTail_fields (f :: fs) (by simp) h.printable.2 0 0
  simpa [nodeText, spaces] using hwhole

/-- Documents that are written one after another read back as the same values exactly if all texts in
them stand for themselves. -/
theorem decode_texts_iff {vs : List Value} (h : ∀ v ∈ vs, IsDocument v) :
    decode (Text.joinWith "---\n" (vs.map text)) = .ok vs ↔ ∀ v ∈ vs, Legible v := by
  have hsplit : split (Text.joinWith "---\n" (vs.map text)) = vs.map text := by
    refine split_joinWith_of_whole fun t ht => ?_
    obtain ⟨v, hv, rfl⟩ := List.mem_map.1 ht
    exact (h v hv).isPiece.split_eq
  have hrecords : ∀ v ∈ vs, ∃ fields, v = .record fields := fun v hv => by
    obtain ⟨f, fs, rfl⟩ := (h v hv).fields
    exact ⟨f :: fs, rfl⟩
  rw [decode, hsplit, decodeFrom_texts_iff hrecords]
  refine forall₂_congr fun v hv => ?_
  obtain ⟨f, fs, rfl⟩ := (h v hv).fields
  exact read_text_iff (h _ hv).printable

end MeshRollout.Yaml

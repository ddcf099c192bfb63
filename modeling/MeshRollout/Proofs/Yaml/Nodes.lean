import MeshRollout.Proofs.Yaml.Leaves
import MeshRollout.Proofs.Yaml.Words

/-!
Reading a value in block style: every part of it gives its tokens, and the lines behind a part end
the blocks that the part has opened.
-/
set_option autoImplicit false

namespace MeshRollout.Yaml
open Scan

def leafTokens : Value → List Token
  | .null => [.scalar true "null"]
  | .bool b => [.scalar true (if b then "true" else "false")]
  | .int i => [.scalar true (toString i)]
  | .float x => [.scalar true (realText x)]
  | .str s => [scalarToken s]
  | .list _ => [.flowSequenceStart, .flowSequenceEnd]
  | .record _ => [.flowMappingStart, .flowMappingEnd]

mutual

def nodeTokens : Value → List Token
  | .list (v :: vs) => .blockSequenceStart :: itemTokens (v :: vs) ++ [.blockEnd]
  | .record (f :: fs) => .blockMappingStart :: fieldTokens (f :: fs) ++ [.blockEnd]
  | v => leafTokens v

def itemTokens : List Value → List Token
  | [] => []
  | v :: vs => .blockEntry :: nodeTokens v ++ itemTokens vs

/-- The tokens of a value after a simple key. Items that stand as far left as the key make no block.
-/
def contentTokens : Value → List Token
  | .list (v :: vs) => itemTokens (v :: vs)
  | .record (f :: fs) => .blockMappingStart :: fieldTokens (f :: fs) ++ [.blockEnd]
  | v => leafTokens v

def fieldTokens : List (String × Value) → List Token
  | [] => []
  | (k, v) :: fs =>
    .key :: scalarToken k :: .value ::
      (if isSimpleKey k then contentTokens v else nodeTokens v) ++ fieldTokens fs

end

def IsLegible (s : String) : Prop :=
  ScalarStyle.of s = .plain → Node.ofPlain s = .str s

structure IsKey (k : String) : Prop where
  portable : IsPortable k
  legible : IsLegible k

mutual

/-- A value that has a writing: whole numbers have 64 bits, and the keys are in order and stand for
themselves. -/
def Printable : Value → Prop
  | .float _ => False
  | .int i => -(Int.pow 2 63) ≤ i ∧ i < Int.pow 2 63
  | .str s => IsPortable s
  | .list vs => PrintableItems vs
  | .record fs => Dict.Sorted fs ∧ PrintableFields fs
  | .null | .bool _ => True

def PrintableItems : List Value → Prop
  | [] => True
  | v :: vs => Printable v ∧ PrintableItems vs

def PrintableFields : List (String × Value) → Prop
  | [] => True
  | (k, v) :: fs => IsKey k ∧ Printable v ∧ PrintableFields fs

end

def entryText (n : Nat) (k : String) (v : Value) : List Char :=
  if isSimpleKey k then (scalarText n k).dropLast ++ ':' :: contentText n v
  else '?' :: ' ' :: scalarText (n + 2) k ++ spaces n ++ ':' :: ' ' :: nodeText (n + 2) v

theorem fieldsText_single (n : Nat) (k : String) (v : Value) :
    fieldsText n [(k, v)] = entryText n k v := by
  rw [fieldsText]
  rfl

theorem fieldsText_cons {fs : List (String × Value)} (h : fs ≠ []) (n : Nat) (k : String)
    (v : Value) :
    fieldsText n ((k, v) :: fs) = entryText n k v ++ (spaces n ++ fieldsText n fs) := by
  obtain ⟨f, fs, rfl⟩ := List.exists_cons_of_ne_nil h
  rw [fieldsText, List.append_assoc]
  · rfl
  · exact nofun

theorem itemsText_single (n : Nat) (v : Value) :
    itemsText n [v] = '-' :: ' ' :: nodeText (n + 2) v := by
  rw [itemsText]

theorem itemsText_cons {vs : List Value} (h : vs ≠ []) (n : Nat) (v : Value) :
    itemsText n (v :: vs) = '-' :: ' ' :: nodeText (n + 2) v ++ (spaces n ++ itemsText n vs) := by
  obtain ⟨w, vs, rfl⟩ := List.exists_cons_of_ne_nil h
  rw [itemsText, List.append_assoc]
  exact nofun

def HasHead (cs : List Char) : Prop :=
  ∃ c r, cs = c :: r ∧ isSolid c = true

namespace HasHead
variable {cs r : List Char}

theorem isSolid (h : HasHead cs) (r : List Char) : IsSolid (cs ++ r) := by
  obtain ⟨c, r', rfl, hc⟩ := h
  exact hc

theorem ne_nil (h : HasHead cs) : cs ≠ [] := by
  obtain ⟨c, r', rfl, -⟩ := h
  exact List.cons_ne_nil _ _

theorem append (h : HasHead cs) (r : List Char) : HasHead (cs ++ r) := by
  obtain ⟨c, r', rfl, hc⟩ := h
  exact ⟨c, r' ++ r, rfl, hc⟩

theorem of_isPlain (h : IsPlain cs) : HasHead cs := by
  obtain ⟨c, r, rfl⟩ := List.exists_cons_of_ne_nil h.ne_nil
  obtain ⟨hw, hb⟩ := h.line.head
  have hgap := isGap_eq_false hw hb (by simpa using h.first)
  have hhash : (c == '#') = false := by simpa using h.head_ne_hash
  simp only [isGap, isBreakOrEnd, Bool.or_eq_false_iff] at hgap
  exact ⟨c, r, rfl, by simp [Yaml.isSolid, hgap.1, hgap.2.1, hhash]⟩

theorem scalarText (n : Nat) (s : String) : HasHead (scalarText n s) := by
  cases hstyle : ScalarStyle.of s with
  | plain =>
    rw [scalarText_of_plain hstyle]
    exact (of_isPlain (ScalarStyle.isPlain hstyle)).append _
  | single =>
    simp only [Yaml.scalarText, hstyle, singleQuoted, List.cons_append]
    exact ⟨_, _, rfl, rfl⟩
  | double => exact ⟨'"', _, by rw [scalarText_of_double hstyle], rfl⟩
  | literal =>
    simp only [Yaml.scalarText, hstyle, literalHead, List.cons_append]
    exact ⟨_, _, rfl, rfl⟩

theorem leafText {v : Value} (hv : Printable v) (n : Nat) : HasHead (leafText n v) := by
  cases v with
  | null | list | record => exact ⟨_, _, rfl, rfl⟩
  | bool b => cases b <;> exact ⟨_, _, rfl, rfl⟩
  | int i =>
    have htext : Yaml.leafText n (.int i) = (toString i).toList ++ ['\n'] := by
      simp [Yaml.leafText]
    rw [htext]
    exact (of_isPlain (isPlain_toString i)).append _
  | float => exact hv.elim
  | str s => exact scalarText n s

theorem itemsText {vs : List Value} (h : vs ≠ []) (n : Nat) : HasHead (itemsText n vs) := by
  match vs, h with
  | [v], _ => exact ⟨_, _, rfl, rfl⟩
  | v :: w :: vs, _ => exact ⟨_, _, rfl, rfl⟩

theorem dropLast (h : HasHead cs) (hpos : 0 < cs.dropLast.length) : HasHead cs.dropLast := by
  obtain ⟨c, r, rfl, hc⟩ := h
  cases r with
  | nil => exact absurd hpos (by simp)
  | cons d r => exact ⟨c, _, rfl, hc⟩

theorem entryText (n : Nat) (k : String) (v : Value) : HasHead (entryText n k v) := by
  cases hk : isSimpleKey k with
  | true =>
    have hpos := (length_simpleKey hk n).1
    rw [Yaml.entryText, if_pos hk]
    exact ((scalarText n k).dropLast hpos).append _
  | false =>
    rw [Yaml.entryText, if_neg (by simp [hk])]
    exact ⟨_, _, rfl, rfl⟩

theorem fieldsText {fs : List (String × Value)} (h : fs ≠ []) (n : Nat) :
    HasHead (fieldsText n fs) := by
  obtain ⟨⟨k, v⟩, fs, rfl⟩ := List.exists_cons_of_ne_nil h
  by_cases hfs : fs = []
  · subst hfs
    rw [fieldsText_single]
    exact entryText n k v
  · rw [fieldsText_cons hfs]
    exact (entryText n k v).append _

theorem nodeText {v : Value} (hv : Printable v) (n : Nat) : HasHead (nodeText n v) := by
  match v, hv with
  | .list (v :: vs), _ =>
    rw [Yaml.nodeText]
    exact itemsText (by simp) n
  | .record (f :: fs), _ =>
    rw [Yaml.nodeText]
    exact fieldsText (by simp) n
  | .null, hv | .bool _, hv | .int _, hv | .str _, hv | .list [], hv | .record [], hv =>
    exact leafText hv n

end HasHead

theorem reads_leaf {b c m : Nat} {R : List Char} {T : List Token} {bs : List Nat}
    {deeper keyAllowed : Bool} {v : Value} (hv : Printable v) (hc : b < c) (hm : m ≤ b)
    (hR : IsSolid R) :
    Reads ⟨leafText (b + 2) v ++ (spaces m ++ R), c, T, b :: bs, deeper, keyAllowed⟩
      (.onLine R m ((leafTokens v).reverse ++ T) (b :: bs) false true) := by
  have hlevel : level (b :: bs) < c := by simp only [level]; omega
  have hmlevel : m ≤ level (b :: bs) := by simp only [level]; omega
  have hword {s : String} (h : IsPlain s.toList) :
      Reads ⟨(s ++ "\n").toList ++ (spaces m ++ R), c, T, b :: bs, deeper, keyAllowed⟩
        (.onLine R m (.scalar true s :: T) (b :: bs) false true) := by
    have hread : Reads ⟨_, c, T, b :: bs, deeper, keyAllowed⟩ _ :=
      reads_plain h hlevel hmlevel hR
    simpa using hread
  cases v with
  | null => exact hword isPlain_null
  | bool b =>
    have hread := hword (isPlain_bool b)
    cases b <;> exact hread
  | int i => exact hword (isPlain_toString i)
  | float => exact hv.elim
  | str s => exact reads_scalar hv hc hm hR
  | list vs => exact reads_empty false (by simp) hlevel hmlevel hR
  | record fs => exact reads_empty true (by simp) hlevel hmlevel hR

mutual

theorem reads_node (v : Value) (hv : Printable v) {b m : Nat} {R : List Char} {T : List Token}
    {bs : List Nat} {deeper : Bool} (hm : m ≤ b) (hR : IsSolid R) :
    Reads ⟨nodeText (b + 2) v ++ (spaces m ++ R), b + 2, T, b :: bs, deeper, true⟩
      (.onLine R m ((nodeTokens v).reverse ++ T) (b :: bs) false true) := by
  have hlevel : level (b :: bs) < (b + 2 : Nat) := by simp only [level]; omega
  have hmlevel : m ≤ level (b :: bs) := by simp only [level]; omega
  match v, hv with
  | .list (v :: vs), hv =>
    have hread := reads_items (v :: vs) (by simp) hv (T := T) (Opens.first hlevel deeper)
      (by omega : m ≤ b + 2) hR
    rw [Spot.onLine_cons hmlevel (by omega) false] at hread
    simpa [nodeText, nodeTokens, opening] using hread
  | .record (f :: fs), hv =>
    have hread := reads_fields (f :: fs) (by simp) hv.2 (T := T) (Opens.first hlevel deeper)
      (by omega : m ≤ b + 2) hR
    rw [Spot.onLine_cons hmlevel (by omega) false] at hread
    simpa [nodeText, nodeTokens, opening] using hread
  | .null, hv | .bool _, hv | .int _, hv | .str _, hv | .list [], hv | .record [], hv =>
    exact reads_leaf hv (by omega) hm hR
termination_by (sizeOf v, 0)

theorem reads_items (vs : List Value) (hne : vs ≠ []) (hvs : PrintableItems vs) {m n : Nat}
    {R : List Char} {T : List Token} {bs before : List Nat} {fresh deeper : Bool}
    (ho : Opens n bs fresh before deeper) (hm : m ≤ n) (hR : IsSolid R) :
    Reads ⟨itemsText n vs ++ (spaces m ++ R), n, T, before, deeper, true⟩
      (.onLine R m ((itemTokens vs).reverse ++ (opening fresh .blockSequenceStart ++ T)) (n :: bs)
        false true) := by
  match vs with
  | v :: vs =>
  obtain ⟨hv, hvs⟩ := hvs
  obtain ⟨c, r, hhead, hc⟩ := HasHead.nodeText hv (n + 2)
  have hdash (Y : List Char) : Reads ⟨'-' :: ' ' :: (nodeText (n + 2) v ++ Y), n, T, before, deeper, true⟩
      ⟨nodeText (n + 2) v ++ Y, n + 2, .blockEntry :: (opening fresh .blockSequenceStart ++ T), n :: bs, isFlow c, true⟩ := by
    rw [hhead]
    exact reads_dash ho hc
  by_cases hlast : vs = []
  · subst hlast
    have hread := (hdash (spaces m ++ R)).trans (reads_node v hv hm hR)
    rw [itemsText_single]
    simpa [itemTokens] using hread
  · have hsolid := (HasHead.itemsText hlast n).isSolid (spaces m ++ R)
    have hread := (hdash (spaces n ++ (itemsText n vs ++ (spaces m ++ R)))).trans
      (reads_node v hv (Nat.le_refl n) hsolid)
    rw [Spot.onLine_of_level_eq] at hread
    have hrest := hread.trans (reads_items vs hlast hvs .next hm hR)
    rw [itemsText_cons hlast]
    simpa [itemTokens, opening] using hrest
termination_by (sizeOf vs, 0)

theorem reads_content (v : Value) (hv : Printable v) {k : String} (hk : isSimpleKey k = true)
    {m n : Nat} {R : List Char} {T : List Token} {bs before : List Nat} {fresh deeper : Bool}
    (ho : Opens n bs fresh before deeper) (hm : m ≤ n) (hR : IsSolid R) :
    Reads ⟨(scalarText n k).dropLast ++ ':' :: (contentText n v ++ (spaces m ++ R)), n, T, before,
        deeper, true⟩
      (.onLine R m ((contentTokens v).reverse ++
        (.value :: scalarToken k :: .key :: (opening fresh .blockMappingStart ++ T))) (n :: bs)
        false true) := by
  match v, hv with
  | .list (v :: vs), hv =>
    have hsolid := (HasHead.itemsText (List.cons_ne_nil v vs) n).isSolid (spaces m ++ R)
    have hkey := reads_simpleKey_below (m := n) (T := T) hk ho hsolid
    rw [Spot.onLine_of_level_eq] at hkey
    have hread := hkey.trans (reads_items (v :: vs) (by simp) hv .next hm hR)
    simpa [contentText, contentTokens, opening] using hread
  | .record (f :: fs), hv =>
    have hlevel : level (n :: bs) < (n + 2 : Nat) := by simp only [level]; omega
    have hsolid := (HasHead.fieldsText (List.cons_ne_nil f fs) (n + 2)).isSolid (spaces m ++ R)
    have hkey := reads_simpleKey_below (m := n + 2) (T := T) hk ho hsolid
    rw [Spot.onLine_of_level_lt hlevel] at hkey
    have hread := hkey.trans (reads_fields (f :: fs) (by simp) hv.2 (.first hlevel true)
      (by omega : m ≤ n + 2) hR)
    rw [Spot.onLine_cons (by simp only [level]; omega) (by omega) false] at hread
    simpa [contentText, contentTokens, opening] using hread
  | .null, hv | .bool _, hv | .int _, hv | .str _, hv | .list [], hv | .record [], hv =>
    have hsolid := (HasHead.leafText hv (n + 2)).isSolid (spaces m ++ R)
    exact (reads_simpleKey hk ho hsolid).trans (reads_leaf hv (by omega) hm hR)
termination_by (sizeOf v, 0)

theorem reads_entry (k : String) (v : Value) (hk : IsPortable k) (hv : Printable v) {m n : Nat}
    {R : List Char} {T : List Token} {bs before : List Nat} {fresh deeper : Bool}
    (ho : Opens n bs fresh before deeper) (hm : m ≤ n) (hR : IsSolid R) :
    Reads ⟨entryText n k v ++ (spaces m ++ R), n, T, before, deeper, true⟩
      (.onLine R m ((fieldTokens [(k, v)]).reverse ++ (opening fresh .blockMappingStart ++ T))
        (n :: bs) false true) := by
  cases hsimple : isSimpleKey k with
  | true =>
    have hread := reads_content v hv hsimple (T := T) ho hm hR
    rw [entryText, if_pos hsimple]
    simpa [fieldTokens, hsimple] using hread
  | false =>
    have hnode := (HasHead.nodeText hv (n + 2)).isSolid (spaces m ++ R)
    have hmark := reads_keyMark (T := T) ho ((HasHead.scalarText (n + 2) k).isSolid
      (spaces n ++ (':' :: ' ' :: (nodeText (n + 2) v ++ (spaces m ++ R)))))
    have hkey := hmark.trans (reads_scalar hk (by omega) (Nat.le_refl n) rfl)
    rw [Spot.onLine_of_level_eq] at hkey
    have hread := (hkey.trans (reads_valueMark hnode)).trans (reads_node v hv hm hR)
    rw [entryText, if_neg (by simp [hsimple])]
    simpa [fieldTokens, hsimple] using hread
termination_by (sizeOf v, 1)

theorem reads_fields (fs : List (String × Value)) (hne : fs ≠ []) (hfs : PrintableFields fs)
    {m n : Nat} {R : List Char} {T : List Token} {bs before : List Nat} {fresh deeper : Bool}
    (ho : Opens n bs fresh before deeper) (hm : m ≤ n) (hR : IsSolid R) :
    Reads ⟨fieldsText n fs ++ (spaces m ++ R), n, T, before, deeper, true⟩
      (.onLine R m ((fieldTokens fs).reverse ++ (opening fresh .blockMappingStart ++ T)) (n :: bs)
        false true) := by
  match fs with
  | (k, v) :: fs =>
  obtain ⟨⟨hk, -⟩, hv, hfs⟩ := hfs
  by_cases hlast : fs = []
  · subst hlast
    rw [fieldsText_single]
    exact reads_entry k v hk hv ho hm hR
  · have hsolid := (HasHead.fieldsText hlast n).isSolid (spaces m ++ R)
    have hread := reads_entry k v hk hv (T := T) ho (Nat.le_refl n) hsolid
    rw [Spot.onLine_of_level_eq] at hread
    have hrest := hread.trans (reads_fields fs hlast hfs .next hm hR)
    rw [fieldsText_cons hlast]
    simpa [fieldTokens, opening] using hrest
termination_by (sizeOf fs, 0)

end

end MeshRollout.Yaml

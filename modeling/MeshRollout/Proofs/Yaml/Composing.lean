import MeshRollout.Proofs.Yaml.Tokens

/-!
From the tokens of a value to its node. What is put together depends on the tokens alone, since a
written value has neither anchors nor tags.
-/
set_option autoImplicit false

namespace MeshRollout.Yaml

mutual

def nodeOf : Value → Node
  | .null => .null
  | .bool b => .bool b
  | .int n => .int n
  | .float x => .ofPlain (realText x)
  | .str s => .ofScalar (ScalarStyle.of s = .plain) none s
  | .list vs => .list (itemNodes vs)
  | .record fs => .mapping (fieldNodes fs)

def itemNodes : List Value → List Node
  | [] => []
  | v :: vs => nodeOf v :: itemNodes vs

def fieldNodes : List (String × Value) → List (Node × Node)
  | [] => []
  | (k, v) :: fs => (.str k, nodeOf v) :: fieldNodes fs

end

theorem IsLegible.ofScalar_eq {s : String} (h : IsLegible s) :
    Node.ofScalar (ScalarStyle.of s = .plain) none s = .str s := by
  by_cases hstyle : ScalarStyle.of s = .plain
  · rw [Node.ofScalar, if_neg (by simp [hstyle])]
    exact h hstyle
  · rw [Node.ofScalar, if_pos (by simp [hstyle])]

def turns (ps : List (Node × Node)) : List Node :=
  ps.flatMap fun p => [p.1, p.2]

namespace Node

theorem pairUp?_fields {done : List (Node × Node)} {fs : List (String × Value)}
    (hn : (fs.map Prod.fst).Nodup)
    (hdone : ∀ p ∈ done, ∀ k ∈ fs.map Prod.fst, p.1.same (.str k) = false) :
    pairUp? done none (turns (fieldNodes fs)) = some (done.reverse ++ fieldNodes fs) := by
  induction fs generalizing done with
  | nil => simp [fieldNodes, turns, pairUp?]
  | cons f fs ih =>
    obtain ⟨k, v⟩ := f
    obtain ⟨hk, hn⟩ := List.nodup_cons.1 hn
    have hfresh : done.any (fun p => p.1.same (.str k)) = false :=
      List.any_eq_false.2 fun p hp => by simp [hdone p hp k List.mem_cons_self]
    have hdone' : ∀ p ∈ (str k, nodeOf v) :: done, ∀ l ∈ fs.map Prod.fst,
        p.1.same (.str l) = false := by
      refine List.forall_mem_cons.2 ⟨fun l hl => ?_, fun p hp l hl =>
        hdone p hp l (List.mem_cons_of_mem _ hl)⟩
      have hne : k ≠ l := fun h => hk (h ▸ hl)
      simpa [same] using hne
    have hturns : turns (fieldNodes ((k, v) :: fs))
        = .str k :: nodeOf v :: turns (fieldNodes fs) := rfl
    rw [hturns, pairUp?]
    simp only [isHole, Bool.false_eq_true, if_false]
    rw [pairUp?, hfresh, if_neg Bool.false_ne_true, ih hn hdone']
    simp [fieldNodes]

theorem ofTurns?_fields {fs : List (String × Value)} (h : Dict.Sorted fs) :
    ofTurns? (turns (fieldNodes fs)) = some (.mapping (fieldNodes fs)) := by
  have hn : (fs.map Prod.fst).Nodup := by
    refine List.pairwise_map.2 (h.imp fun hlt he => ?_)
    rw [he] at hlt
    exact String.lt_irrefl _ hlt
  rw [ofTurns?, pairUp?_fields hn (by simp)]
  rfl

end Node

namespace Compose
variable {α β : Type} {x : α} {y : β} {t : Token} {ts ts' ts'' : List Token}

/-- The step takes tokens up to the second list and gives a result, whatever else is known. -/
def Gives (m : Compose α) (ts : List Token) (x : α) (ts' : List Token) : Prop :=
  ∀ c : Composer, c.rest = ts → ∃ c' : Composer, m c = some (x, c') ∧ c'.rest = ts'

theorem Gives.bind {m : Compose α} {k : α → Compose β} (h : Gives m ts x ts')
    (hk : Gives (k x) ts' y ts'') : Gives (m >>= k) ts y ts'' := by
  intro c hc
  obtain ⟨c', hm, hc'⟩ := h c hc
  obtain ⟨c'', hx, hc''⟩ := hk c' hc'
  refine ⟨c'', ?_, hc''⟩
  change (m c).bind _ = _
  rw [hm]
  exact hx

theorem gives_pure (x : α) (ts : List Token) : Gives (pure x) ts x ts :=
  fun c hc => ⟨c, rfl, hc⟩

theorem gives_peek (ts : List Token) : Gives peek ts ts.head? ts :=
  fun c hc => ⟨c, by rw [← hc]; rfl, hc⟩

theorem gives_skip (t : Token) (ts : List Token) : Gives skip (t :: ts) () ts :=
  fun c hc => ⟨{ c with rest := c.rest.drop 1 }, rfl, by rw [hc, List.drop_one, List.tail_cons]⟩

theorem gives_modify {f : Composer → Composer} (hf : ∀ c, (f c).rest = c.rest) (ts : List Token) :
    Gives (modify f) ts () ts :=
  fun c hc => ⟨f c, rfl, (hf c).trans hc⟩

theorem gives_require {b : Bool} (h : b = true) (ts : List Token) : Gives (require b) ts () ts := by
  subst h
  exact gives_pure () ts

theorem gives_take (t : Token) (ts : List Token) : Gives (take t) (t :: ts) true ts := by
  refine .bind (gives_peek _) ?_
  simp only [List.head?_cons, beq_self_eq_true, if_true]
  exact .bind (gives_skip t ts) (gives_pure _ _)

theorem gives_take_other (h : ts.head? ≠ some t) : Gives (take t) ts false ts := by
  refine .bind (gives_peek _) ?_
  simp only [beq_eq_false_iff_ne.2 h, Bool.false_eq_true, if_false]
  exact gives_pure _ _

theorem gives_meets (us : List Token) (t : Token) (ts : List Token) :
    Gives (meets us) (t :: ts) (us.contains t) (t :: ts) :=
  .bind (gives_peek _) (gives_pure _ _)

def isPlainMark : Token → Bool
  | .alias _ | .anchor _ | .tag _ _ => false
  | _ => true

theorem gives_properties (h : isPlainMark t = true) :
    Gives properties (t :: ts) (none, none) (t :: ts) := by
  have hanchor : Gives anchor? (t :: ts) none (t :: ts) := by
    refine .bind (gives_peek _) ?_
    cases t <;> first | exact gives_pure _ _ | cases h
  have htag : Gives tag? (t :: ts) none (t :: ts) := by
    refine .bind (gives_peek _) ?_
    cases t <;> first | exact gives_pure _ _ | cases h
  exact .bind hanchor (.bind htag (gives_pure _ _))

section Parts
variable {block indentless : Bool} {fuel : Nat} {ns : List Node}

theorem gives_scalar (plain : Bool) (s : String) (ts : List Token) :
    Gives (node block indentless (fuel + 1)) (.scalar plain s :: ts) (.ofScalar plain none s) ts := by
  rw [node]
  refine .bind (gives_peek _) (.bind (gives_properties rfl) (.bind (gives_peek _) ?_))
  exact .bind (gives_skip _ _) (gives_pure _ _)

theorem gives_emptySequence (ts : List Token) :
    Gives (node block indentless (fuel + 2)) (.flowSequenceStart :: .flowSequenceEnd :: ts)
      (.list []) ts := by
  rw [node]
  refine .bind (gives_peek _) (.bind (gives_properties rfl) (.bind (gives_peek _) ?_))
  refine .bind (gives_skip _ _) (.bind ?_ (gives_pure _ _))
  rw [flowItems]
  exact .bind (gives_take _ _) (gives_pure _ _)

theorem gives_mapping {n : Node} (h : Node.ofTurns? ns = some n) (ts : List Token) :
    Gives (mapping ns) ts n ts := by
  rw [mapping, h]
  exact gives_pure n ts

theorem gives_emptyMapping (ts : List Token) :
    Gives (node block indentless (fuel + 2)) (.flowMappingStart :: .flowMappingEnd :: ts)
      (.mapping []) ts := by
  have hnone : Node.ofTurns? [] = some (.mapping []) := by simp [Node.ofTurns?, Node.pairUp?]
  rw [node]
  refine .bind (gives_peek _) (.bind (gives_properties rfl) (.bind (gives_peek _) ?_))
  refine .bind (gives_skip _ _) (.bind ?_ (.bind (gives_mapping hnone _) (gives_pure _ _)))
  rw [flowPairs]
  exact .bind (gives_take _ _) (gives_pure _ _)

theorem gives_items (h : Gives (blockItems fuel) ts ns ts') :
    Gives (node true indentless (fuel + 1)) (.blockSequenceStart :: ts) (.list ns) ts' := by
  rw [node]
  refine .bind (gives_peek _) (.bind (gives_properties rfl) (.bind (gives_peek _) ?_))
  exact .bind (gives_skip _ _) (.bind h (gives_pure _ _))

theorem gives_loose (h : Gives (looseItems fuel) (.blockEntry :: ts) ns ts') :
    Gives (node block true (fuel + 1)) (.blockEntry :: ts) (.list ns) ts' := by
  rw [node]
  refine .bind (gives_peek _) (.bind (gives_properties rfl) (.bind (gives_peek _) ?_))
  exact .bind h (gives_pure _ _)

theorem gives_pairs {n : Node} (h : Gives (blockPairs fuel) ts ns ts')
    (hns : Node.ofTurns? ns = some n) :
    Gives (node true indentless (fuel + 1)) (.blockMappingStart :: ts) n ts' := by
  rw [node]
  refine .bind (gives_peek _) (.bind (gives_properties rfl) (.bind (gives_peek _) ?_))
  exact .bind (gives_skip _ _) (.bind h (.bind (gives_mapping hns _) (gives_pure _ _)))

theorem gives_nodeUnless {us : List Token} {n : Node} (ht : t ∉ us)
    (h : Gives (node block indentless fuel) (t :: ts) n ts') :
    Gives (nodeUnless us block indentless (fuel + 1)) (t :: ts) n ts' := by
  refine .bind (gives_meets us t ts) ?_
  rw [List.contains_eq_mem, decide_eq_false ht]
  exact h

end Parts

/-- The tokens of a value do not begin with a mark of an item, a key or a value, nor with an end. -/
theorem exists_nodeTokens (v : Value) :
    ∃ t ts, nodeTokens v = t :: ts ∧ t ∉ [Token.blockEntry, .key, .value, .blockEnd] := by
  match v with
  | .list (v :: vs) => exact ⟨_, _, by rw [nodeTokens, List.cons_append], by decide⟩
  | .record (f :: fs) => exact ⟨_, _, by rw [nodeTokens, List.cons_append], by decide⟩
  | .null | .bool _ | .int _ | .float _ | .str _ | .list [] | .record [] =>
    exact ⟨_, _, rfl, by simp [scalarToken]⟩

theorem exists_contentTokens (v : Value) :
    ∃ t ts, contentTokens v = t :: ts ∧ t ∉ [Token.key, .value, .blockEnd] := by
  match v with
  | .list (v :: vs) => exact ⟨_, _, by rw [contentTokens, itemTokens, List.cons_append], by decide⟩
  | .record (f :: fs) => exact ⟨_, _, by rw [contentTokens, List.cons_append], by decide⟩
  | .null | .bool _ | .int _ | .float _ | .str _ | .list [] | .record [] =>
    exact ⟨_, _, rfl, by simp [scalarToken]⟩

theorem gives_leaf {v : Value} (hv : Printable v) (h : nodeTokens v = leafTokens v)
    {block indentless : Bool} {fuel : Nat} (hf : 2 ≤ fuel) (ts : List Token) :
    Gives (node block indentless fuel) (leafTokens v ++ ts) (nodeOf v) ts := by
  obtain ⟨fuel, rfl⟩ := Nat.exists_eq_add_of_le' hf
  cases v with
  | null => exact gives_scalar true "null" ts
  | bool b => cases b <;> exact gives_scalar true _ ts
  | int i =>
    have hscalar : Gives (node block indentless (fuel + 2)) (.scalar true (toString i) :: ts) _ ts :=
      gives_scalar true (toString i) ts
    rwa [Node.ofScalar, if_neg (by decide), ofPlain_toString hv.1 hv.2] at hscalar
  | float => exact hv.elim
  | str s => exact gives_scalar _ s ts
  | list vs =>
    cases vs with
    | nil => exact gives_emptySequence ts
    | cons v vs => simp [nodeTokens, leafTokens] at h
  | record fs =>
    cases fs with
    | nil => exact gives_emptyMapping ts
    | cons f fs => simp [nodeTokens, leafTokens] at h

mutual

theorem gives_node (v : Value) (hv : Printable v) {indentless : Bool} {fuel : Nat}
    (hf : 2 * (nodeTokens v).length ≤ fuel) (ts : List Token) :
    Gives (node true indentless fuel) (nodeTokens v ++ ts) (nodeOf v) ts := by
  match v, hv with
  | .list (v :: vs), hv =>
    simp only [nodeTokens, List.cons_append, List.length_cons, List.length_append,
      List.append_assoc] at hf ⊢
    obtain ⟨fuel, rfl⟩ : ∃ f, fuel = f + 1 := ⟨fuel - 1, by omega⟩
    exact gives_items (gives_blockItems (v :: vs) hv (by omega) ts)
  | .record (f :: fs), hv =>
    simp only [nodeTokens, List.cons_append, List.length_cons, List.length_append,
      List.append_assoc] at hf ⊢
    obtain ⟨fuel, rfl⟩ : ∃ f, fuel = f + 1 := ⟨fuel - 1, by omega⟩
    exact gives_pairs (gives_blockPairs (f :: fs) hv.2 (by omega) ts) (Node.ofTurns?_fields hv.1)
  | .null, hv | .bool _, hv | .int _, hv | .str _, hv | .list [], hv | .record [], hv =>
    exact gives_leaf hv rfl (by simp [nodeTokens, leafTokens] at hf; omega) ts
termination_by (sizeOf v, 0)

theorem gives_blockItems (vs : List Value) (hvs : PrintableItems vs) {fuel : Nat}
    (hf : 2 * (itemTokens vs).length < fuel) (ts : List Token) :
    Gives (blockItems fuel) (itemTokens vs ++ .blockEnd :: ts) (itemNodes vs) ts := by
  match vs, hvs with
  | [], _ =>
    obtain ⟨fuel, rfl⟩ : ∃ f, fuel = f + 1 := ⟨fuel - 1, by omega⟩
    rw [blockItems]
    exact .bind (gives_take _ _) (gives_pure _ _)
  | v :: vs, hvs =>
    obtain ⟨hv, hvs⟩ := hvs
    obtain ⟨t, r, hhead, ht⟩ := exists_nodeTokens v
    simp only [itemTokens, List.cons_append, List.length_cons, List.length_append,
      List.append_assoc] at hf ⊢
    obtain ⟨fuel, rfl⟩ : ∃ f, fuel = f + 2 := ⟨fuel - 2, by omega⟩
    have hnode : Gives (node true false fuel) _ _ _ :=
      gives_node v hv (by omega) (itemTokens vs ++ .blockEnd :: ts)
    have hrest := gives_blockItems vs hvs (by omega : _ < fuel + 1) ts
    rw [hhead] at hnode ⊢
    have hitem := gives_nodeUnless (by simp_all : t ∉ [.blockEntry, .blockEnd]) hnode
    rw [blockItems]
    refine .bind (gives_take_other (by simp)) (.bind (gives_take _ _) ?_)
    exact .bind (gives_require rfl _) (.bind hitem (.bind hrest (gives_pure _ _)))
termination_by (sizeOf vs, 0)

theorem gives_looseItems (vs : List Value) (hvs : PrintableItems vs) {fuel : Nat}
    (hf : 2 * (itemTokens vs).length < fuel) {ts : List Token} (hts : ts.head? ≠ some .blockEntry) :
    Gives (looseItems fuel) (itemTokens vs ++ ts) (itemNodes vs) ts := by
  match vs, hvs with
  | [], _ =>
    obtain ⟨fuel, rfl⟩ : ∃ f, fuel = f + 1 := ⟨fuel - 1, by omega⟩
    rw [looseItems]
    exact .bind (gives_take_other hts) (gives_pure _ _)
  | v :: vs, hvs =>
    obtain ⟨hv, hvs⟩ := hvs
    obtain ⟨t, r, hhead, ht⟩ := exists_nodeTokens v
    simp only [itemTokens, List.cons_append, List.length_cons, List.length_append,
      List.append_assoc] at hf ⊢
    obtain ⟨fuel, rfl⟩ : ∃ f, fuel = f + 2 := ⟨fuel - 2, by omega⟩
    have hnode : Gives (node true false fuel) _ _ _ := gives_node v hv (by omega) (itemTokens vs ++ ts)
    have hrest := gives_looseItems vs hvs (by omega : _ < fuel + 1) hts
    rw [hhead] at hnode ⊢
    rw [looseItems]
    refine .bind (gives_take _ _) ?_
    exact .bind (gives_nodeUnless ht hnode) (.bind hrest (gives_pure _ _))
termination_by (sizeOf vs, 0)

theorem gives_content (v : Value) (hv : Printable v) {fuel : Nat}
    (hf : 2 * (contentTokens v).length + 1 < fuel) {ts : List Token}
    (hts : ts.head? ≠ some .blockEntry) :
    Gives (node true true fuel) (contentTokens v ++ ts) (nodeOf v) ts := by
  match v, hv with
  | .list (v :: vs), hv =>
    obtain ⟨fuel, rfl⟩ : ∃ f, fuel = f + 1 := ⟨fuel - 1, by omega⟩
    have hitems := gives_looseItems (v :: vs) hv
      (by simp [contentTokens] at hf; omega : _ < fuel) hts
    exact gives_loose hitems
  | .record (f :: fs), hv =>
    simp only [contentTokens, List.cons_append, List.length_cons, List.length_append,
      List.append_assoc] at hf ⊢
    obtain ⟨fuel, rfl⟩ : ∃ f, fuel = f + 1 := ⟨fuel - 1, by omega⟩
    exact gives_pairs (gives_blockPairs (f :: fs) hv.2 (by omega) ts) (Node.ofTurns?_fields hv.1)
  | .null, hv | .bool _, hv | .int _, hv | .str _, hv | .list [], hv | .record [], hv =>
    exact gives_leaf hv rfl (by simp [contentTokens, leafTokens] at hf; omega) ts
termination_by (sizeOf v, 0)

theorem gives_blockPairs (fs : List (String × Value)) (hfs : PrintableFields fs) {fuel : Nat}
    (hf : 2 * (fieldTokens fs).length < fuel) (ts : List Token) :
    Gives (blockPairs fuel) (fieldTokens fs ++ .blockEnd :: ts) (turns (fieldNodes fs)) ts := by
  match fs, hfs with
  | [], _ =>
    obtain ⟨fuel, rfl⟩ : ∃ f, fuel = f + 1 := ⟨fuel - 1, by omega⟩
    rw [blockPairs]
    exact .bind (gives_take _ _) (gives_pure _ _)
  | (k, v) :: fs, hfs =>
    obtain ⟨⟨-, hk⟩, hv, hfs⟩ := hfs
    have hkey (fuel : Nat) (ts : List Token) :
        Gives (nodeUnless [.key, .value, .blockEnd] true true (fuel + 2)) (scalarToken k :: ts)
          (.str k) ts := by
      have hscalar : Gives (node true true (fuel + 1)) (scalarToken k :: ts) _ ts :=
        gives_scalar _ k ts
      rw [hk.ofScalar_eq] at hscalar
      exact gives_nodeUnless (by simp [scalarToken]) hscalar
    have hnext : (fieldTokens fs ++ .blockEnd :: ts).head? ≠ some .blockEntry := by
      cases fs <;> simp [fieldTokens]
    obtain ⟨value, hvalue⟩ : ∃ value,
        value = if isSimpleKey k then contentTokens v else nodeTokens v := ⟨_, rfl⟩
    simp only [fieldTokens, ← hvalue, List.cons_append, List.length_cons, List.length_append,
      List.append_assoc] at hf ⊢
    obtain ⟨fuel, rfl⟩ : ∃ f, fuel = f + 3 := ⟨fuel - 3, by omega⟩
    have hgives : Gives (nodeUnless [.key, .value, .blockEnd] true true (fuel + 2))
        (value ++ (fieldTokens fs ++ .blockEnd :: ts)) (nodeOf v)
        (fieldTokens fs ++ .blockEnd :: ts) := by
      cases hsimple : isSimpleKey k with
      | true =>
        rw [hsimple, if_pos rfl] at hvalue
        subst hvalue
        obtain ⟨t, r, hhead, ht⟩ := exists_contentTokens v
        have hnode := gives_content v hv (by omega : _ < fuel + 1) hnext
        rw [hhead] at hnode ⊢
        exact gives_nodeUnless ht hnode
      | false =>
        rw [hsimple, if_neg Bool.false_ne_true] at hvalue
        subst hvalue
        obtain ⟨t, r, hhead, ht⟩ := exists_nodeTokens v
        have hnode : Gives (node true true (fuel + 1)) _ _ _ :=
          gives_node v hv (by omega) (fieldTokens fs ++ .blockEnd :: ts)
        rw [hhead] at hnode ⊢
        exact gives_nodeUnless (by simp_all) hnode
    have hrest := gives_blockPairs fs hfs (by omega : _ < fuel + 2) ts
    rw [blockPairs]
    refine .bind (gives_take_other (by simp)) (.bind (gives_take _ _) (.bind (hkey fuel _) ?_))
    exact .bind (gives_take _ _) (.bind hgives (.bind hrest (gives_pure _ _)))
termination_by (sizeOf fs, 0)

end

theorem gives_meetsDirective {ts : List Token}
    (h : ∀ t, ts.head? = some t → t ≠ .version ∧ ∀ a b, t ≠ .tagDirective a b) :
    Gives meetsDirective ts false ts := by
  refine .bind (gives_peek ts) ?_
  split
  · rename_i he
    exact absurd rfl (h _ he).1
  · rename_i he
    exact absurd rfl ((h _ he).2 _ _)
  · exact gives_pure _ _

theorem gives_documents {t : Token} {ts : List Token} {n : Node} {fuel : Nat}
    (ht : t ∉ [Token.version, .documentStart, .documentEnd]) (hd : ∀ a b, t ≠ .tagDirective a b)
    (hn : Gives (node true false (fuel + 2)) (t :: ts) n []) :
    Gives (documents (fuel + 3) true) (t :: ts) [n] [] := by
  simp only [List.mem_cons, List.not_mem_nil, or_false, not_or] at ht
  have hdirective : Gives meetsDirective (t :: ts) false (t :: ts) := by
    refine gives_meetsDirective fun u hu => ?_
    obtain rfl : t = u := by simpa using hu
    exact ⟨ht.1, hd⟩
  have hstart : [Token.documentStart].contains t = false := by simpa using ht.2.1
  have hskip {ts : List Token} (hts : ts.head? ≠ some .documentEnd) (fuel : Nat) :
      Gives (skipDocumentEnds (fuel + 1)) ts () ts := .bind (gives_take_other hts) (gives_pure _ _)
  have hrest : Gives (documents (fuel + 2) false) [] [] [] := by
    rw [documents]
    exact .bind (hskip (by simp) fuel) (.bind (gives_peek _) (gives_pure _ _))
  rw [documents]
  refine .bind (hskip (by simpa using ht.2.2) _) (.bind (gives_peek _) ?_)
  refine .bind (gives_modify (by intro; rfl) _) (.bind hdirective (.bind (gives_meets _ t ts) ?_))
  rw [hstart]
  refine .bind (gives_peek _) (.bind hdirective (.bind (gives_meets _ t ts) ?_))
  refine .bind hn (.bind (gives_modify (by intro; rfl) _) (.bind (gives_take_other (by simp)) ?_))
  refine .bind (gives_meetsDirective (by simp)) (.bind (gives_require rfl _) ?_)
  exact .bind hrest (gives_pure _ _)

end Compose

theorem documents?_text {f : String × Value} {fs : List (String × Value)}
    (hv : Printable (.record (f :: fs))) :
    documents? (text (.record (f :: fs))) = some [nodeOf (.record (f :: fs))] := by
  obtain ⟨t, r, hhead⟩ : ∃ t r, nodeTokens (.record (f :: fs)) = t :: r ∧ t = .blockMappingStart :=
    ⟨_, _, by rw [nodeTokens, List.cons_append], rfl⟩
  obtain ⟨hhead, rfl⟩ := hhead
  have hnode : Compose.Gives (Compose.node true false
      (4 * (nodeTokens (.record (f :: fs))).length + 7)) _ _ _ :=
    Compose.gives_node (.record (f :: fs)) hv (by omega) []
  rw [List.append_nil, hhead] at hnode
  have hgives := Compose.gives_documents (by decide) (by simp) hnode
  obtain ⟨c, hrun, -⟩ := hgives ⟨_, [], [], [], 1⟩ rfl
  have htext : (text (.record (f :: fs))).toList = nodeText 0 (.record (f :: fs)) :=
    String.toList_ofList
  rw [documents?, htext, tokens?_record hv, Option.bind_some, hhead]
  exact congrArg (Option.map Prod.fst) hrun

end MeshRollout.Yaml

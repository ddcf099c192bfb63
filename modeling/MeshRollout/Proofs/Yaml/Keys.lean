import MeshRollout.Proofs.Yaml.QuotedText

/-!
Reading keys. The mark of a key, and that of the block if it is the first key of one, is put in front
of the key once the colon behind it is met.
-/
set_option autoImplicit false

namespace MeshRollout.Yaml
open Scan

/-- The open blocks in front of an entry at a column: it is the first one of a block, or the block is
open already. -/
inductive Opens (n : Nat) (bs : List Nat) : Bool → List Nat → Bool → Prop where
  | first (h : level bs < n) (deeper : Bool) : Opens n bs true bs deeper
  | next : Opens n bs false (n :: bs) false

def opening (fresh : Bool) (t : Token) : List Token :=
  if fresh then [t] else []

theorem Opens.level_le {n : Nat} {bs before : List Nat} {fresh deeper : Bool}
    (h : Opens n bs fresh before deeper) : level before ≤ n := by
  cases h with
  | first h => exact Int.le_of_lt h
  | next => exact Int.le_refl _

namespace Lexer
variable {l l' : Lexer} {T : List Token} {bs : List Nat} {deeper : Bool}

/-- A token has been taken that is `k` characters long and a key in front of a colon. -/
structure TookKey (l l' : Lexer) (t : Token) (s : Spot) (k : Nat) (X : List Char) : Prop where
  framed : ∃ deeper, (s.deeper = false → deeper = false) ∧
    l'.Framed (t :: s.tokens) s.blocks deeper
  rest : l'.rest = ':' :: X
  mark : l'.mark = ⟨l.mark.index + k, l.mark.line, l.mark.column + k⟩
  keyPlaces : l'.keyPlaces = l.notePlace.keyPlaces

structure AtMark (l : Lexer) (X : List Char) (c : Nat) (T : List Token) (bs : List Nat)
    (keyAllowed : Bool) : Prop where
  framed : l.Framed T bs true
  rest : l.rest = X
  column : l.mark.column = c
  right : level bs < c
  keyAllowed : l.keyAllowed = keyAllowed
  place : ∃ p, l.keyPlaces = [p] ∧ p.possible = false

theorem Framed.runs_settle (hf : l.Framed T bs deeper) {p : KeyPlace} (hR : IsSolid l.rest)
    (hp : l.keyPlaces = [p])
    (hfresh : p.possible = true →
      l.mark.line ≤ p.mark.line ∧ l.mark.index ≤ p.mark.index + 1024)
    (hcol : level bs < l.column) : Runs settle l () l := by
  have hstale : (p.possible &&
      (decide (p.mark.line < l.mark.line) || decide (p.mark.index + 1024 < l.mark.index)))
        = false := by
    rw [Bool.and_eq_false_iff]
    cases hpos : p.possible with
    | false => exact .inl rfl
    | true =>
      obtain ⟨hline, hindex⟩ := hfresh hpos
      right
      simp only [Bool.or_eq_false_iff, decide_eq_false_iff_not]
      omega
  have hforget : l.forgetStale? = some l := by
    rw [forgetStale?, if_neg (by simp [hf.flowLevel])]
    simp only [hp, List.any_cons, List.any_nil, hstale, Bool.false_and, Bool.or_self,
      Bool.false_eq_true, if_false, List.map_cons, List.map_nil]
    rw [← hp]
  have hclose : l.closeBlocks l.column = l := by
    rw [hf.closeBlocks, closedAt_of_level_le (Int.le_of_lt hcol),
      endsAt_of_level_le (Int.le_of_lt hcol)]
    simp only [hcol, decide_true, Bool.and_true, List.nil_append]
    exact hf.eq
  refine .bind (runs_fuel l) (.bind (runs_skipToToken_solid hR _) ?_)
  refine .bind (runs_tryModify hforget) ?_
  have hrun := runs_modify (fun l => l.closeBlocks l.column) l
  simp only [hclose] at hrun
  exact hrun

theorem AtMark.settles_behind {X Y : List Char} {c : Nat} {keyAllowed : Bool}
    (h : l.AtMark X c T bs keyAllowed) (hX : X = ' ' :: Y) (hY : IsSolid Y) :
    l.Settles ⟨Y, c + 1, T, bs, true, keyAllowed⟩ := by
  obtain ⟨p, hp, hdead⟩ := h.place
  have hright : level bs < (c + 1 : Nat) := by
    have hc := h.right
    omega
  have hs := Lexer.settles_behind h.framed (n := 1) (h.rest.trans hX) hY hp hdead
  rwa [h.column, h.keyAllowed, Spot.onLine_of_level_lt hright] at hs

theorem AtMark.settles_below {X Y : List Char} {c m : Nat} {keyAllowed : Bool}
    (h : l.AtMark X c T bs keyAllowed) (hX : X = '\n' :: (spaces m ++ Y)) (hY : IsSolid Y) :
    l.Settles (.onLine Y m T bs true true) := by
  obtain ⟨p, hp, hdead⟩ := h.place
  exact Lexer.settles_below h.framed (h.rest.trans hX) hY hp fun hpos => nomatch hdead.symm.trans hpos

end Lexer

namespace Opens
variable {n : Nat} {bs before : List Nat} {fresh deeper : Bool} {l : Lexer} {T : List Token}

theorem openBlock_insert (newer : List Token) {older : List Token} (ho : Opens n bs fresh before deeper)
    (hf : l.Framed (newer ++ older) before deeper) (t : Token) :
    l.openBlock n (some older.length) t
      = l.framed (newer ++ (opening fresh t ++ older)) (n :: bs) false := by
  cases ho with
  | first h =>
    rw [hf.openBlock h]
    exact (hf.reframe _ _ _).insertAt newer older rfl t
  | next =>
    rw [hf.openBlock_same rfl rfl]
    exact hf.eq.symm

theorem openBlock_push (ho : Opens n bs fresh before deeper) (hf : l.Framed T before deeper)
    (t : Token) : l.openBlock n none t = l.framed (opening fresh t ++ T) (n :: bs) false := by
  cases ho with
  | first h =>
    rw [hf.openBlock h]
    exact (hf.reframe _ _ _).push t
  | next =>
    rw [hf.openBlock_same rfl rfl]
    exact hf.eq.symm

theorem of_deeper {deeper' : Bool} (ho : Opens n bs fresh before deeper)
    (hd : deeper = false → deeper' = false) : Opens n bs fresh before deeper' := by
  cases ho with
  | first h => exact .first h deeper'
  | next =>
    rw [hd rfl]
    exact .next

end Opens

namespace Lexer
variable {l l' : Lexer} {T : List Token} {bs : List Nat} {deeper : Bool}

theorem runs_value_key {n : Nat} {before : List Nat} {X : List Char} {fresh : Bool} {t : Token}
    {p : KeyPlace} (ho : Opens n bs fresh before deeper) (hf : l.Framed (t :: T) before deeper)
    (hrest : l.rest = ':' :: X) (htab : X.headD (Char.ofNat 0) ≠ '\t')
    (hplace : l.keyPlace = p) (hpos : p.possible = true) (htoken : p.token = T.length)
    (hcol : p.mark.column = n) :
    Runs value l () ({ l.pass 1 with
      keyPlaces := { p with possible := false } :: l.keyPlaces.drop 1
      keyAllowed := false }.framed
        (.value :: t :: .key :: (opening fresh .blockMappingStart ++ T)) (n :: bs) true) := by
  have hpair : (!l.pairOpen.isEmpty && !l.flowMappingStarted) = false := by simp [hf.pairOpen]
  have hf₁ : (l.pass 1).Framed (t :: T) before deeper := hf.move rfl rfl rfl rfl rfl rfl
  have hrest₁ : (l.pass 1).rest = X := rest_pass [':'] hrest
  have htab' : ((l.pass 1).peek 0 == '\t') = false := by
    rw [peek_zero, hrest₁]
    exact beq_eq_false_iff_ne.2 htab
  have hkey := hf₁.insertAt [t] T rfl .key
  have hf₂ := hf₁.reframe ([t] ++ .key :: T) before deeper
  have hopen := ho.openBlock_insert [t, .key] hf₂ .blockMappingStart
  have hf₃ := hf₂.reframe ([t, .key] ++ (opening fresh .blockMappingStart ++ T)) (n :: bs) false
  have hindent := hf₃.indentByOne (by simp)
  refine .bind (runs_get l) ?_
  simp only [hpair, Bool.false_eq_true, if_false]
  refine .bind (runs_modify _ l) ?_
  rw [advanceWord_of_pos Nat.one_pos]
  refine .bind (runs_peek 0 _) ?_
  simp only [htab', hplace, hpos, Bool.false_eq_true, if_false, if_true]
  refine .bind (runs_modify _ _) ?_
  rw [htoken, hkey]
  refine .bind (runs_modify _ _) ?_
  rw [hcol, hopen]
  refine .bind (runs_modify _ _) ?_
  rw [hindent]
  exact .bind (runs_modify _ _) (runs_modify _ _)

theorem runs_takeToken_value {X : List Char} (hrest : l.rest = ':' :: X)
    (hgap : isGap (X.headD (Char.ofNat 0)) = true) (hdeep : l.indent ≤ l.column)
    (hrun : Runs value l () l') : Runs takeToken l true l' := by
  have hp := peek_zero_eq hrest
  have hmark : l.marksValue = true := by
    rw [marksValue, peek_one_eq hrest, hgap]
    rfl
  have hend : isEnd ':' = false := rfl
  refine .bind (runs_get l) ?_
  simp only [hp, hend, Bool.false_eq_true, if_false]
  refine .bind (runs_require (not_column_lt hdeep) l) ?_
  simp only [threeMarks, hp, hmark, Char.reduceBEq, Bool.and_false, Bool.false_and,
    Bool.false_eq_true, if_false, Bool.and_true, if_true]
  refine .bind (runs_require ?_ l) (.bind hrun (runs_pure _ _))
  rw [peek_one_eq hrest, hgap]
  rfl

/-- The mark of a value behind a key. The key gets its mark, and so does the block if the key is the
first one of it. -/
theorem exists_value {s : Spot} {t : Token} {k n : Nat} {X : List Char} {fresh : Bool}
    (ho : Opens n bs fresh s.blocks s.deeper) (hn : s.column = n) (hpos : 0 < k) (hk : k ≤ 1024)
    (hkey : s.keyAllowed = true) (hgap : isGap (X.headD (Char.ofNat 0)) = true)
    (htab : X.headD (Char.ofNat 0) ≠ '\t') (hl : l.IsAt s) (htook : l.TookKey l' t s k X) :
    Runs settle l' () l' ∧ ∃ l'', Runs takeToken l' true l'' ∧ l''.AtMark X (n + k + 1)
      (.value :: t :: .key :: (opening fresh .blockMappingStart ++ s.tokens)) (n :: bs) false := by
  obtain ⟨deeper, hdeeper, hf⟩ := htook.framed
  obtain ⟨p, hplaces, hpossible, htoken, hmark⟩ : ∃ p, l'.keyPlaces = [p] ∧ p.possible = true ∧
      p.token = s.tokens.length ∧ p.mark = l.mark := by
    obtain ⟨q, hq, -⟩ := hl.place
    rw [htook.keyPlaces, notePlace, hl.keyAllowed, hkey, hq]
    exact ⟨_, rfl, rfl, hl.framed.count, rfl⟩
  have hcol : l'.mark.column = n + k := by rw [htook.mark, hl.column, hn]
  have hright : level s.blocks < l'.column := by
    have hle := ho.level_le
    rw [column, hcol]
    omega
  have hdeep : l'.indent ≤ l'.column := by
    rw [hf.indent]
    split <;> omega
  have hsettle : Runs settle l' () l' := by
    refine hf.runs_settle (htook.rest ▸ rfl) hplaces (fun _ => ?_) hright
    rw [htook.mark, hmark]
    exact ⟨Nat.le_refl _, Nat.add_le_add_left hk _⟩
  have hvalue := runs_value_key (ho.of_deeper hdeeper) hf htook.rest htab
    (by rw [keyPlace, hplaces]; rfl) hpossible htoken (hmark ▸ hl.column.trans hn)
  refine ⟨hsettle, _, runs_takeToken_value htook.rest hgap hdeep hvalue, ?_⟩
  exact {
    framed := ⟨rfl, hf.flowLevel, hf.pairOpen⟩
    rest := rest_pass [':'] htook.rest
    column := congrArg (· + 1) hcol
    right := by simp only [level]; omega
    keyAllowed := rfl
    place := ⟨{ p with possible := false }, by simp [framed, hplaces], rfl⟩ }

end Lexer

theorem Reads.of_key {s s' : Spot} {t : Token} {k n : Nat} {X : List Char} {bs : List Nat}
    {fresh : Bool} (ho : Opens n bs fresh s.blocks s.deeper) (hn : s.column = n) (hpos : 0 < k)
    (hk : k ≤ 1024) (hkey : s.keyAllowed = true) (hgap : isGap (X.headD (Char.ofNat 0)) = true)
    (htab : X.headD (Char.ofNat 0) ≠ '\t') (hlen : X.length + 1 < s.rest.length)
    (h : ∀ l : Lexer, l.IsAt s → ∃ l', Runs takeToken l true l' ∧ l.TookKey l' t s k X)
    (hs' : ∀ l : Lexer, l.AtMark X (n + k + 1)
      (.value :: t :: .key :: (opening fresh .blockMappingStart ++ s.tokens)) (n :: bs) false →
        l.Settles s') : Reads s s' := by
  refine .of_take_two fun l hl => ?_
  obtain ⟨l', hrun, htook⟩ := h l hl
  obtain ⟨hsettle, l'', hvalue, hat⟩ :=
    Lexer.exists_value ho hn hpos hk hkey hgap htab hl htook
  refine ⟨l', l', l'', hrun, hsettle, hvalue, ?_, ?_, hs' l'' hat⟩
  · rw [htook.rest, hl.rest]
    exact hlen
  · rw [htook.rest, hat.rest]
    exact Nat.lt_succ_self _

section Texts
variable {l : Lexer} {s : Spot} {cs X : List Char} {c : Char}

theorem exists_tookKey_plain (hcs : IsPlain cs) (hs : s.rest = cs ++ ':' :: X)
    (hgap : isGap (X.headD (Char.ofNat 0)) = true) (hcol : level s.blocks ≤ s.column)
    (hl : l.IsAt s) :
    ∃ l', Runs takeToken l true l' ∧
      l.TookKey l' (.scalar true (String.ofList cs)) s cs.length X := by
  have hrest := hl.rest.trans hs
  have hdoc : l.documentMark = false := documentMark_of_isPlain hcs hrest (.inl rfl)
  have hcol' : level s.blocks ≤ l.column := by
    rw [Lexer.column, hl.column]
    exact hcol
  have hend : plainWord 0 (':' :: X) = [] := by
    have hno : isGap ':' = false := rfl
    simp only [plainWord, Lexer.plainGoesOn.plainAt, hgap, hno, BEq.rfl, if_true, Bool.true_or,
      Bool.not_true, Bool.not_false, Bool.or_true]
  have hrest' : ((l.plainStart s.tokens s.blocks).pass cs.length).rest = ':' :: X :=
    Lexer.rest_pass _ hrest
  have hrun := runs_content_plain hcs hrest hl.framed hdoc hend hcol' rfl
    fun fuel => runs_plainTurn_colon hrest'
  have hstart : (l.plainStart s.tokens s.blocks).Framed s.tokens s.blocks false :=
    hl.framed.noted.reframe s.tokens s.blocks false
  refine ⟨_, runs_takeToken_plain hcs hrest hl.framed.flowLevel hl.deep hdoc hrun, ?_⟩
  exact {
    framed := by
      refine ⟨false, fun _ => rfl, Lexer.Framed.pushed ?_ _⟩
      exact hstart.move rfl rfl rfl rfl rfl rfl
    rest := hrest'
    mark := rfl
    keyPlaces := rfl }

theorem exists_tookKey_quoted {single : Bool} {mark : Char} {write : Char → List Char}
    {allowed : Char → Prop} (q : Quoting single mark write allowed) (hcs : ∀ c ∈ cs, allowed c)
    (hs : s.rest = mark :: (cs.flatMap write ++ mark :: ':' :: X)) (hl : l.IsAt s) :
    ∃ l', Runs takeToken l true l' ∧
      l.TookKey l' (.scalar false (String.ofList cs)) s ((cs.flatMap write).length + 2) X := by
  have hrest := hl.rest.trans hs
  have hquote := q.runs_quotedScalar (l := l.noted) hcs hrest (.inl rfl) hl.framed.flowLevel hl.deep
  have hrest' : (l.noted.pass ((cs.flatMap write).length + 2)).rest = ':' :: X := by
    refine Lexer.rest_pass_of_length (mark :: (cs.flatMap write ++ [mark])) ?_ (by simp)
    have hrest : l.noted.rest = _ := hrest
    simpa using hrest
  have hsolid : IsSolid (l.noted.pass ((cs.flatMap write).length + 2)).rest := by
    rw [hrest']
    rfl
  have hskip := runs_skipToToken_solid hsolid
    ((l.noted.pass ((cs.flatMap write).length + 2)).rest.length + 1)
  refine ⟨_, q.runs_takeToken (Lexer.peek_zero_eq hrest) hl.deep hquote hskip, ?_⟩
  exact {
    framed := by
      refine ⟨s.deeper, fun h => h, Lexer.Framed.pushed ?_ _⟩
      exact hl.framed.move rfl rfl rfl rfl rfl rfl
    rest := hrest'
    mark := rfl
    keyPlaces := rfl }

end Texts

end MeshRollout.Yaml

import MeshRollout.Proofs.Yaml.Keys

/-!
Reading marks that stand in the text: hyphens in front of items, the marks of a key on a line of its
own, and empty brackets.
-/
set_option autoImplicit false

namespace MeshRollout.Yaml
open Scan

namespace Lexer
variable {l l' : Lexer} {T : List Token} {bs : List Nat} {deeper : Bool}

theorem forgetPlace?_of_dead {p : KeyPlace} (hp : l.keyPlaces = [p]) (hdead : p.possible = false) :
    l.forgetPlace? = some l := by
  obtain ⟨possible, required, token, mark⟩ := p
  have hdead : possible = false := hdead
  subst hdead
  simp only [forgetPlace?, hp, Bool.false_and, Bool.false_eq_true, if_false]
  rw [← hp]

theorem Framed.settles_right {n : Nat} {p : KeyPlace} (hf : l.Framed T bs deeper)
    (hR : IsSolid l.rest) (hp : l.keyPlaces = [p]) (hdead : p.possible = false)
    (hcol : l.mark.column = n) (hright : level bs < n) :
    l.Settles ⟨l.rest, n, T, bs, deeper, l.keyAllowed⟩ := by
  have hs := settles_here hf hR hp fun hpos => nomatch hdead.symm.trans hpos
  rwa [hcol, Spot.onLine_of_level_lt hright] at hs

end Lexer

theorem runs_skipLayout_space {l : Lexer} {Y : List Char} (h : l.rest = ' ' :: Y)
    (hY : IsSolid Y) :
    Runs (skipLayout (l.rest.length + 1) false) l true (l.advance 1) := by
  have hrest : (l.advance 1).rest = Y := Lexer.rest_advance [' '] h
  have hs := isSolid_peek (hrest ▸ hY : IsSolid (l.advance 1).rest)
  refine .bind (runs_peek 0 l) ?_
  rw [Lexer.peek_zero_eq h]
  refine .bind (runs_modify _ l) ?_
  rw [h]
  refine .bind (runs_peek 0 _) ?_
  simp only [ne_blank_of_isSolid hs, isBreak_of_isSolid hs, ne_hash_of_isSolid hs,
    Bool.false_eq_true, if_false]
  exact runs_pure _ _

section Marks
variable {n : Nat} {Y : List Char} {T : List Token} {bs before : List Nat} {fresh deeper : Bool}
  {l l' : Lexer}

theorem runs_takeToken_keyMark (hrest : l.rest = '?' :: ' ' :: Y) (hdeep : l.indent ≤ l.column)
    (hrun : Runs markedKey l () l') : Runs takeToken l true l' := by
  have hgap : isGap (l.peek 1) = true := by
    rw [Lexer.peek_one_eq hrest]
    rfl
  have hend : isEnd '?' = false := rfl
  refine .bind (runs_get l) ?_
  simp only [Lexer.peek_zero_eq hrest, hend, Bool.false_eq_true, if_false]
  refine .bind (runs_require (Lexer.not_column_lt hdeep) l) ?_
  simp only [Lexer.threeMarks, Lexer.peek_zero_eq hrest, hgap, Char.reduceBEq, Bool.and_false,
    Bool.false_and, Bool.false_eq_true, if_false, Bool.and_true, if_true]
  exact .bind hrun (runs_pure _ _)

theorem runs_markedKey {l₁ : Lexer} (hopen : l.openBlock l.column none .blockMappingStart = l₁)
    (hforget : l₁.forgetPlace? = some l₁) (hrest : l₁.rest = '?' :: ' ' :: Y) (hY : IsSolid Y)
    (hflow : l.flowLevel = 0) (hkey : l.keyAllowed = true) :
    Runs markedKey l () (({ l₁ with keyAllowed := true }.pass 2).push .key) := by
  have hrest₁ : ({ l₁ with keyAllowed := true }.pass 1).rest = ' ' :: Y :=
    Lexer.rest_pass ['?'] hrest
  have hlayout := runs_skipLayout_space hrest₁ hY
  rw [Lexer.pass_advance] at hlayout
  have hrest₂ : ({ l₁ with keyAllowed := true }.pass 2).rest = Y :=
    Lexer.rest_pass ['?', ' '] hrest
  have htab : (({ l₁ with keyAllowed := true }.pass 2).peek 0 == '\t') = false :=
    ne_tab_of_isSolid (isSolid_peek (hrest₂ ▸ hY))
  refine .bind (runs_get l) ?_
  rw [if_pos hflow]
  refine .bind (runs_require hkey l) (.bind (runs_modify _ l) ?_)
  rw [hopen]
  refine .bind (runs_tryModify hforget) (.bind (runs_allowKey _ _) (.bind (runs_modify _ _) ?_))
  simp only [hflow, decide_true]
  rw [Lexer.advanceWord_of_pos Nat.one_pos]
  refine .bind (runs_fuel _) (.bind hlayout (.bind (runs_require rfl _) ?_))
  refine .bind (runs_peek 0 _) (.bind (runs_require ?_ _) (runs_modify _ _))
  simpa using htab

theorem reads_keyMark (ho : Opens n bs fresh before deeper) (hY : IsSolid Y) :
    Reads ⟨'?' :: ' ' :: Y, n, T, before, deeper, true⟩
      ⟨Y, n + 2, .key :: (opening fresh .blockMappingStart ++ T), n :: bs, false, true⟩ := by
  refine .of_take fun l hl => ?_
  obtain ⟨p, hp, hdead⟩ := hl.place
  have hrest : l.rest = '?' :: ' ' :: Y := hl.rest
  have hcol : l.column = n := congrArg Nat.cast hl.column
  have hopen := ho.openBlock_push hl.framed .blockMappingStart
  rw [← hcol] at hopen
  have hrun := runs_markedKey hopen (Lexer.forgetPlace?_of_dead hp hdead) hrest hY
    hl.framed.flowLevel hl.keyAllowed
  have hrest' : (l.pass 2).rest = Y := Lexer.rest_pass ['?', ' '] hrest
  refine ⟨_, runs_takeToken_keyMark hrest hl.deep hrun, ?_, ?_⟩
  · change (l.pass 2).rest.length < l.rest.length
    rw [hrest', hrest, List.length_cons, List.length_cons]
    omega
  · have hframed : (({ l.framed (opening fresh .blockMappingStart ++ T) (n :: bs) false with
        keyAllowed := true }.pass 2).push .key).Framed
          (.key :: (opening fresh .blockMappingStart ++ T)) (n :: bs) false :=
      ⟨rfl, hl.framed.flowLevel, hl.framed.pairOpen⟩
    have hs := hframed.settles_right (hrest' ▸ hY : IsSolid (l.pass 2).rest) hp hdead
      (congrArg (· + 2) hl.column) (by simp only [level]; omega)
    exact hrest' ▸ hs

theorem runs_value_alone {p : KeyPlace} (hrest : l.rest = ':' :: ' ' :: Y)
    (hf : l.Framed T (n :: bs) false) (hcol : l.mark.column = n) (hkey : l.keyAllowed = true)
    (hp : l.keyPlaces = [p]) (hdead : p.possible = false) :
    Runs value l () ({ l.pass 1 with keyAllowed := true }.framed (.value :: T) (n :: bs) true) := by
  have hpair : (!l.pairOpen.isEmpty && !l.flowMappingStarted) = false := by simp [hf.pairOpen]
  have hplace : l.keyPlace.possible = false := by simp [Lexer.keyPlace, hp, hdead]
  have hf₁ : (l.pass 1).Framed T (n :: bs) false := hf.move rfl rfl rfl rfl rfl rfl
  have hrest₁ : (l.pass 1).rest = ' ' :: Y := Lexer.rest_pass [':'] hrest
  have hcolumn : l.column = n := congrArg Nat.cast hcol
  refine .bind (runs_get l) ?_
  simp only [hpair, Bool.false_eq_true, if_false]
  refine .bind (runs_modify _ l) ?_
  rw [Lexer.advanceWord_of_pos Nat.one_pos]
  refine .bind (runs_peek 0 _) ?_
  rw [Lexer.peek_zero_eq hrest₁]
  simp only [Char.reduceBEq, hplace, hf.flowLevel, Bool.false_eq_true, if_false, if_true]
  refine .bind (runs_require hkey _) (.bind (runs_modify _ _) ?_)
  rw [hcolumn, hf₁.openBlock_same rfl rfl]
  refine .bind (runs_modify _ _) ?_
  rw [hf₁.indentByOne (by simp)]
  exact .bind (runs_allowKey _ _) (runs_modify _ _)

theorem reads_valueMark (hY : IsSolid Y) :
    Reads ⟨':' :: ' ' :: Y, n, T, n :: bs, false, true⟩
      ⟨Y, n + 2, .value :: T, n :: bs, true, true⟩ := by
  refine .of_take fun l hl => ?_
  obtain ⟨p, hp, hdead⟩ := hl.place
  have hrest : l.rest = ':' :: ' ' :: Y := hl.rest
  have hrest' : (l.pass 1).rest = ' ' :: Y := Lexer.rest_pass [':'] hrest
  have hrun := runs_value_alone hrest hl.framed hl.column hl.keyAllowed hp hdead
  refine ⟨_, Lexer.runs_takeToken_value hrest rfl hl.deep hrun, ?_, ?_⟩
  · change (l.pass 1).rest.length < l.rest.length
    rw [hrest', hrest]
    exact Nat.lt_succ_self _
  · refine Lexer.AtMark.settles_behind (X := ' ' :: Y) (c := n + 1) (T := .value :: T) ?_
      rfl hY
    exact {
      framed := ⟨rfl, hl.framed.flowLevel, hl.framed.pairOpen⟩
      rest := hrest'
      column := congrArg (· + 1) hl.column
      right := by simp only [level]; omega
      keyAllowed := rfl
      place := ⟨p, hp, hdead⟩ }

theorem runs_takeToken_dash (hrest : l.rest = '-' :: ' ' :: Y) (hdeep : l.indent ≤ l.column)
    (hrun : Runs blockEntry l () l') : Runs takeToken l true l' := by
  have hpeek := Lexer.peek_zero_eq hrest
  have hpeek' : l.peek 1 = ' ' := Lexer.peek_one_eq hrest
  have hgap : isGap ' ' = true := rfl
  have hend : isEnd '-' = false := rfl
  refine .bind (runs_get l) ?_
  simp only [hpeek, hend, Bool.false_eq_true, if_false]
  refine .bind (runs_require (Lexer.not_column_lt hdeep) l) ?_
  simp only [Lexer.threeMarks, hpeek, hpeek', hgap, Char.reduceBEq, Bool.and_false,
    Bool.false_and, Bool.false_eq_true, if_false, BEq.rfl, Bool.and_true, if_true]
  exact .bind hrun (runs_pure _ _)

theorem runs_blockEntry {l₁ l₂ : Lexer} {c : Char} (hkey : l.keyAllowed = true)
    (hflow : l.flowLevel = 0)
    (hopen : (l.pass 1).openBlock l.column none .blockSequenceStart = l₁)
    (hrest : l₁.rest = ' ' :: c :: Y) (hc : isSolid c = true)
    (hindent : (if isFlow c then (l₁.advance 1).indentByOne else l₁.advance 1) = l₂)
    (hforget : l₂.forgetPlace? = some l₂) :
    Runs blockEntry l () ({ l₂ with keyAllowed := true }.push .blockEntry) := by
  have hrest' : (l₁.advance 1).rest = c :: Y := Lexer.rest_advance [' '] hrest
  have hflow' : decide (l.flowLevel = 0) = true := decide_eq_true hflow
  have hbreak := isBreak_of_isSolid hc
  refine .bind (runs_get l) ?_
  refine .bind (runs_require (by rw [hflow', hkey]; rfl) l) (.bind (runs_modify _ l) ?_)
  rw [Lexer.advanceWord_of_pos Nat.one_pos]
  refine .bind (runs_modify _ _) ?_
  rw [hopen]
  refine .bind (runs_skipToLineEnd_blank hrest hc) (.bind (runs_peek 0 _) (.bind (runs_peek 1 _) ?_))
  refine .bind (runs_require rfl _) ?_
  refine .bind (runs_skipToLineEnd_none hrest' (isSpace_of_isSolid hc) (ne_hash_of_isSolid hc) _) ?_
  refine .bind (runs_peek 0 _) ?_
  rw [Lexer.peek_zero_eq hrest']
  simp only [hbreak, Bool.false_or]
  cases hc' : isFlow c with
  | true =>
    simp only [hc', if_true] at hindent ⊢
    refine .bind (runs_modify _ _) ?_
    rw [hindent]
    exact .bind (runs_tryModify hforget) (.bind (runs_allowKey true _) (runs_modify _ _))
  | false =>
    simp only [hc', Bool.false_eq_true, if_false] at hindent ⊢
    rw [hindent]
    exact .bind (runs_tryModify hforget) (.bind (runs_allowKey true _) (runs_modify _ _))

theorem reads_dash {c : Char} (ho : Opens n bs fresh before deeper) (hc : isSolid c = true) :
    Reads ⟨'-' :: ' ' :: c :: Y, n, T, before, deeper, true⟩
      ⟨c :: Y, n + 2, .blockEntry :: (opening fresh .blockSequenceStart ++ T), n :: bs, isFlow c,
        true⟩ := by
  refine .of_take fun l hl => ?_
  obtain ⟨p, hp, hdead⟩ := hl.place
  have hrest : l.rest = '-' :: ' ' :: c :: Y := hl.rest
  have hrest₁ : (l.pass 1).rest = ' ' :: c :: Y := Lexer.rest_pass ['-'] hrest
  have hrest₂ : ((l.pass 1).advance 1).rest = c :: Y := Lexer.rest_advance [' '] hrest₁
  have hcol : l.column = n := congrArg Nat.cast hl.column
  have hf₁ : (l.pass 1).Framed T before deeper := hl.framed.move rfl rfl rfl rfl rfl rfl
  have hopen := ho.openBlock_push hf₁ .blockSequenceStart
  rw [← hcol] at hopen
  generalize opening fresh .blockSequenceStart ++ T = T' at hopen ⊢
  have hindent : (if isFlow c then (((l.pass 1).framed T' (n :: bs) false).advance 1).indentByOne
      else ((l.pass 1).framed T' (n :: bs) false).advance 1)
        = ((l.pass 1).advance 1).framed T' (n :: bs) (isFlow c) := by
    cases isFlow c with
    | true =>
      have hf : (((l.pass 1).framed T' (n :: bs) false).advance 1).Framed T' (n :: bs) false :=
        ⟨rfl, hl.framed.flowLevel, hl.framed.pairOpen⟩
      exact hf.indentByOne (by simp)
    | false => rfl
  have hrun := runs_blockEntry hl.keyAllowed hl.framed.flowLevel hopen hrest₁ hc hindent
    (Lexer.forgetPlace?_of_dead hp hdead)
  refine ⟨_, runs_takeToken_dash hrest hl.deep hrun, ?_, ?_⟩
  · change ((l.pass 1).advance 1).rest.length < l.rest.length
    rw [hrest₂, hrest]
    simp
  · have hframed : ({ ((l.pass 1).advance 1).framed T' (n :: bs) (isFlow c) with
        keyAllowed := true }.push .blockEntry).Framed (.blockEntry :: T') (n :: bs) (isFlow c) :=
      ⟨rfl, hl.framed.flowLevel, hl.framed.pairOpen⟩
    have hs := hframed.settles_right (hrest₂ ▸ hc : IsSolid ((l.pass 1).advance 1).rest) hp hdead
      (congrArg (· + 2) hl.column) (by simp only [level]; omega)
    exact hrest₂ ▸ hs

end Marks

def bracketOpen (mapping : Bool) : Char := if mapping then '\x7b' else '['

def bracketClose (mapping : Bool) : Char := if mapping then '\x7d' else ']'

def flowStart (mapping : Bool) : Token := if mapping then .flowMappingStart else .flowSequenceStart

def flowEnd (mapping : Bool) : Token := if mapping then .flowMappingEnd else .flowSequenceEnd

section Brackets
variable {l l' : Lexer} {mapping : Bool} {R Y : List Char} {T : List Token} {bs : List Nat}
  {deeper : Bool}

def Lexer.inBrackets (mapping : Bool) (T : List Token) (bs : List Nat) (l : Lexer) : Lexer :=
  { (l.framed (flowStart mapping :: T) bs true).pass 1 with
    keyPlaces := Lexer.noKey :: l.keyPlaces
    flowLevel := l.flowLevel + 1
    keyAllowed := true
    flowMappingStarted := l.flowMappingStarted || mapping
    pairOpen := if mapping then l.pairOpen else false :: l.pairOpen }

theorem runs_openFlow (hf : l.notePlace.Framed T bs deeper) (hbs : bs ≠ [])
    (hrest : l.notePlace.rest = bracketOpen mapping :: bracketClose mapping :: Y) :
    Runs (openFlow mapping) l () (l.notePlace.inBrackets mapping T bs) := by
  have hrest' : (l.notePlace.pass 1).rest = bracketClose mapping :: Y :=
    Lexer.rest_pass [bracketOpen mapping] hrest
  have hlevel : (l.notePlace.framed T bs true).flowLevel = 0 := hf.flowLevel
  have hline (l' : Lexer) (h : l'.rest = bracketClose mapping :: Y) :
      Runs (skipToLineEnd true) l' (false, false) l' :=
    runs_skipToLineEnd_none h (by cases mapping <;> rfl) (by cases mapping <;> rfl) true
  refine .bind (runs_modify _ l) (.bind (runs_modify _ _) ?_)
  rw [hf.indentByOne hbs]
  refine .bind (runs_get _) (.bind (runs_require (by rw [hlevel]; rfl) _) ?_)
  refine .bind (runs_modify _ _) (.bind (runs_modify _ _) ?_)
  rw [Lexer.advanceWord_of_pos Nat.one_pos]
  exact .bind (hline _ hrest') (runs_modify _ _)

theorem runs_closeFlow (hflow : l.flowLevel = 0)
    (hrest : l.rest = bracketOpen mapping :: bracketClose mapping :: '\n' :: Y) :
    Runs (closeFlow mapping) (l.inBrackets mapping T bs) ()
      ({ (l.pass 1).pass 1 with
        keyAllowed := false
        flowMappingStarted := l.flowMappingStarted || mapping }.framed
          (flowEnd mapping :: flowStart mapping :: T) bs true) := by
  have hend (l' l'' : Lexer) (t : Token) (h : l'.rest = '\n' :: Y) (hout : ¬ l'.flowLevel > 0)
      (hpush : l'.push t = l'') :
      Runs (do
        let _ ← skipToLineEnd true
        modify fun l => if l.flowLevel > 0 then { l with adjacentValueAt := l.mark.index } else l
        Yaml.push t) l' () l'' := by
    subst hpush
    refine .bind (runs_skipToLineEnd_none h rfl rfl true) (.bind (runs_modify _ _) ?_)
    rw [if_neg hout]
    exact runs_modify _ _
  have hpassed : ((l.pass 1).pass 1).rest = '\n' :: Y := by
    rw [Lexer.pass_pass]
    exact Lexer.rest_pass [bracketOpen mapping, bracketClose mapping] hrest
  have hin : (l.inBrackets mapping T bs).flowLevel > 0 := Nat.succ_pos _
  have hout : ¬ l.flowLevel > 0 := by simp [hflow]
  refine .bind (runs_tryModify (m := l.inBrackets mapping T bs) rfl) (.bind (runs_modify _ _) ?_)
  rw [if_pos hin]
  refine .bind (runs_allowKey false _) ?_
  cases mapping with
  | true =>
    refine .bind (runs_modify _ _) ?_
    rw [Lexer.advanceWord_of_pos Nat.one_pos]
    exact hend _ _ .flowMappingEnd hpassed hout rfl
  | false =>
    refine .bind (runs_modify _ _) (.bind (runs_modify _ _) ?_)
    rw [Lexer.advanceWord_of_pos Nat.one_pos]
    exact hend _ _ .flowSequenceEnd hpassed hout rfl

theorem runs_takeToken_open (hrest : l.rest = bracketOpen mapping :: Y)
    (hdeep : l.indent ≤ l.column) (hrun : Runs (openFlow mapping) l () l') :
    Runs takeToken l true l' := by
  have hend : isEnd (bracketOpen mapping) = false := by cases mapping <;> rfl
  refine .bind (runs_get l) ?_
  simp only [Lexer.peek_zero_eq hrest, hend, Bool.false_eq_true, if_false]
  refine .bind (runs_require (Lexer.not_column_lt hdeep) l) ?_
  cases mapping <;>
    simp only [Lexer.threeMarks, Lexer.peek_zero_eq hrest, bracketOpen, Char.reduceBEq,
      Bool.and_false, Bool.false_and, Bool.false_eq_true, if_false, if_true] <;>
    exact .bind hrun (runs_pure _ _)

theorem runs_takeToken_close (hrest : l.rest = bracketClose mapping :: Y)
    (hdeep : l.indent ≤ l.column) (hrun : Runs (closeFlow mapping) l () l') :
    Runs takeToken l true l' := by
  have hend : isEnd (bracketClose mapping) = false := by cases mapping <;> rfl
  refine .bind (runs_get l) ?_
  simp only [Lexer.peek_zero_eq hrest, hend, Bool.false_eq_true, if_false]
  refine .bind (runs_require (Lexer.not_column_lt hdeep) l) ?_
  cases mapping <;>
    simp only [Lexer.threeMarks, Lexer.peek_zero_eq hrest, bracketClose, Char.reduceBEq,
      Bool.and_false, Bool.false_and, Bool.false_eq_true, if_false, if_true] <;>
    exact .bind hrun (runs_pure _ _)

theorem runs_settle_inBrackets (hrest : l.rest = bracketOpen mapping :: bracketClose mapping :: Y) :
    Runs settle (l.inBrackets mapping T bs) () (l.inBrackets mapping T bs) := by
  have hrest' : (l.pass 1).rest = bracketClose mapping :: Y :=
    Lexer.rest_pass [bracketOpen mapping] hrest
  have hsolid : IsSolid (l.inBrackets mapping T bs).rest := by
    change IsSolid (l.pass 1).rest
    rw [hrest']
    cases mapping <;> rfl
  have hin : (l.inBrackets mapping T bs).flowLevel > 0 := Nat.succ_pos _
  refine .bind (runs_fuel _) (.bind (runs_skipToToken_solid hsolid _) ?_)
  refine .bind (runs_tryModify (m := l.inBrackets mapping T bs) ?_) ?_
  · rw [Lexer.forgetStale?, if_pos hin]
  · have hrun := runs_modify (fun l => l.closeBlocks l.column) (l.inBrackets mapping T bs)
    simp only [Lexer.closeBlocks, if_pos hin] at hrun
    exact hrun

theorem reads_empty (mapping : Bool) {c m : Nat} {keyAllowed : Bool} (hbs : bs ≠ [])
    (hc : level bs < c) (hm : m ≤ level bs) (hR : IsSolid R) :
    Reads ⟨bracketOpen mapping :: bracketClose mapping :: '\n' :: (spaces m ++ R), c, T, bs, deeper,
        keyAllowed⟩
      (.onLine R m (flowEnd mapping :: flowStart mapping :: T) bs false true) := by
  refine .of_take_two fun l hl => ?_
  obtain ⟨p, hp, hpast⟩ := Lexer.exists_notePlace hl hc
  have hf : l.notePlace.Framed T bs deeper := by
    rw [l.notePlace_eq]
    exact hl.framed.move rfl rfl rfl rfl rfl rfl
  have hrest : l.notePlace.rest
      = bracketOpen mapping :: bracketClose mapping :: '\n' :: (spaces m ++ R) := by
    rw [l.notePlace_eq]
    exact hl.rest
  have hmark : l.notePlace.mark = l.mark := by rw [l.notePlace_eq]
  have hpassed : (l.notePlace.pass 1).rest = bracketClose mapping :: '\n' :: (spaces m ++ R) :=
    Lexer.rest_pass [bracketOpen mapping] hrest
  have hpassed' : ((l.notePlace.pass 1).pass 1).rest = '\n' :: (spaces m ++ R) :=
    Lexer.rest_pass [bracketClose mapping] hpassed
  have hopen := runs_openFlow hf hbs hrest
  have hclose : Runs _ (l.notePlace.inBrackets mapping T bs) _ _ :=
    runs_closeFlow hf.flowLevel hrest
  have hdeep : (l.notePlace.inBrackets mapping T bs).indent
      ≤ (l.notePlace.inBrackets mapping T bs).column := by
    change level bs + 1 ≤ ((l.notePlace.mark.column + 1 : Nat) : Int)
    rw [hmark, show l.mark.column = c from hl.column]
    omega
  refine ⟨_, _, _, runs_takeToken_open hl.rest hl.deep hopen, runs_settle_inBrackets hrest,
    runs_takeToken_close hpassed hdeep hclose, ?_, ?_, ?_⟩
  · change (l.notePlace.pass 1).rest.length < _
    rw [hpassed, hl.rest]
    exact Nat.lt_succ_self _
  · change ((l.notePlace.pass 1).pass 1).rest.length < (l.notePlace.pass 1).rest.length
    rw [hpassed', hpassed]
    exact Nat.lt_succ_self _
  · rw [Spot.onLine_deeper hm true]
    have hclosed : ({ (l.notePlace.pass 1).pass 1 with
        keyAllowed := false
        flowMappingStarted := l.notePlace.flowMappingStarted || mapping }.framed
          (flowEnd mapping :: flowStart mapping :: T) bs true).Framed
            (flowEnd mapping :: flowStart mapping :: T) bs true :=
      ⟨rfl, hf.flowLevel, hf.pairOpen⟩
    have hline : l.mark.line = l.notePlace.mark.line := by rw [hmark]
    exact Lexer.settles_below hclosed hpassed' hR hp fun hpos =>
      ⟨(hpast hpos).1, Nat.le_of_eq ((hpast hpos).2.trans hline)⟩

end Brackets

end MeshRollout.Yaml

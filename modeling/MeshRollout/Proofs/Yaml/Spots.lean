import MeshRollout.Proofs.Yaml.Blocks

/-!
Spots of YAML text where a token begins, and scanning from one spot to another. What stands between
tokens only moves the pass on; then a line may end blocks.
-/
set_option autoImplicit false

namespace MeshRollout.Yaml
open Scan

/-- Where a pass over blocks stands before a token: the text from here on, the column, the tokens so
far with the newest first, and the open blocks. -/
structure Spot where
  rest : List Char
  column : Nat
  tokens : List Token
  blocks : List Nat
  /-- Content has to stand right of the column of the innermost block. -/
  deeper : Bool
  keyAllowed : Bool

def Spot.onLine (rest : List Char) (column : Nat) (T : List Token) (bs : List Nat)
    (deeper keyAllowed : Bool) : Spot where
  rest := rest
  column := column
  tokens := endsAt column bs ++ T
  blocks := closedAt column bs
  deeper := deeper && decide (level bs < column)
  keyAllowed := keyAllowed

section Closing
variable {m : Int} {bs : List Nat}

theorem closedAt_of_level_le (h : level bs ≤ m) : closedAt m bs = bs := by
  cases bs with
  | nil => rfl
  | cons b bs => exact closedAt_cons_of_le h

theorem endsAt_of_level_le (h : level bs ≤ m) : endsAt m bs = [] := by
  cases bs with
  | nil => rfl
  | cons b bs => exact endsAt_cons_of_le h

theorem level_closedAt_le (m : Nat) (bs : List Nat) : level (closedAt m bs) ≤ m := by
  induction bs with
  | nil =>
    have hnone : level (closedAt m []) = -1 := rfl
    omega
  | cons b bs ih =>
    by_cases hb : (m : Int) < b
    · rw [closedAt_cons_of_lt hb]
      exact ih
    · have hle : (b : Int) ≤ m := by omega
      rw [closedAt_cons_of_le hle]
      exact hle

end Closing

section OnLine
variable {R : List Char} {m : Nat} {T : List Token} {bs : List Nat} {deeper keyAllowed : Bool}

theorem Spot.onLine_of_level_lt (h : level bs < m) :
    Spot.onLine R m T bs deeper keyAllowed = ⟨R, m, T, bs, deeper, keyAllowed⟩ := by
  simp [onLine, closedAt_of_level_le (Int.le_of_lt h), endsAt_of_level_le (Int.le_of_lt h), h]

theorem Spot.onLine_of_level_eq {b : Nat} :
    Spot.onLine R b T (b :: bs) deeper keyAllowed = ⟨R, b, T, b :: bs, false, keyAllowed⟩ := by
  simp [onLine, closedAt_cons_of_le, endsAt_cons_of_le, level]

theorem Spot.onLine_cons {b : Nat} (h : m ≤ level bs) (hb : m < b) (deeper' : Bool) :
    Spot.onLine R m T (b :: bs) deeper keyAllowed
      = Spot.onLine R m (.blockEnd :: T) bs deeper' keyAllowed := by
  have hb : (m : Int) < b := by omega
  have hn : ¬ level bs < m := by omega
  have hn' : ¬ level (b :: bs) < m := by
    have hl : level (b :: bs) = b := rfl
    omega
  simp [onLine, closedAt_cons_of_lt hb, endsAt_cons_of_lt hb, hn, hn']

theorem Spot.onLine_deeper (h : m ≤ level bs) (deeper' : Bool) :
    Spot.onLine R m T bs deeper keyAllowed = Spot.onLine R m T bs deeper' keyAllowed := by
  have hn : ¬ level bs < m := by omega
  simp [onLine, hn]

end OnLine

namespace Lexer

/-- The pass stands at the spot, and no key has begun before it. -/
structure IsAt (l : Lexer) (s : Spot) : Prop where
  framed : l.Framed s.tokens s.blocks s.deeper
  rest : l.rest = s.rest
  column : l.mark.column = s.column
  keyAllowed : l.keyAllowed = s.keyAllowed
  place : ∃ p, l.keyPlaces = [p] ∧ p.possible = false
  deep : l.indent ≤ l.column

def Settles (l : Lexer) (s : Spot) : Prop :=
  ∃ l', Runs settle l () l' ∧ l'.rest.length ≤ l.rest.length ∧ l'.IsAt s

variable {l l₁ : Lexer} {T : List Token} {bs : List Nat} {deeper : Bool} {R : List Char}

theorem forgetStale?_of_past {p : KeyPlace} (hflow : l.flowLevel = 0) (hp : l.keyPlaces = [p])
    (hpast : p.possible = true → p.required = false ∧ p.mark.line < l.mark.line) :
    l.forgetStale? = some { l with keyPlaces := [{ p with possible := false }] } := by
  obtain ⟨possible, required, token, mark⟩ := p
  cases possible with
  | false => simp [forgetStale?, hflow, hp]
  | true =>
    obtain ⟨rfl, hline⟩ := hpast rfl
    simp only at hline
    simp [forgetStale?, hflow, hp, hline]

theorem Settles.of_skip (hskip : Runs (skipToToken (l.rest.length + 1)) l () l₁)
    (hle : l₁.rest.length ≤ l.rest.length) (hf : l₁.Framed T bs deeper)
    (hplace : ∃ p, l₁.keyPlaces = [p] ∧
      (p.possible = true → p.required = false ∧ p.mark.line < l₁.mark.line)) :
    l.Settles (.onLine l₁.rest l₁.mark.column T bs deeper l₁.keyAllowed) := by
  obtain ⟨p, hp, hpast⟩ := hplace
  have hforget := forgetStale?_of_past hf.flowLevel hp hpast
  have hf' : { l₁ with keyPlaces := [{ p with possible := false }] }.Framed T bs deeper :=
    hf.move rfl rfl rfl rfl rfl rfl
  have hrun : Runs settle l () _ := .bind (runs_fuel l) (.bind hskip (.bind
    (runs_tryModify hforget) (runs_modify (fun l => l.closeBlocks l.column) _)))
  have hclose := hf'.closeBlocks l₁.mark.column
  refine ⟨_, hrun, ?_, ?_⟩
  · exact Nat.le_trans (Nat.le_of_eq (congrArg (fun l' : Lexer => l'.rest.length) hclose)) hle
  refine hclose ▸ ⟨hf'.reframe _ _ _, rfl, rfl, rfl, ⟨_, rfl, rfl⟩, ?_⟩
  have hlevel := level_closedAt_le l₁.mark.column bs
  change level _ + _ ≤ (l₁.mark.column : Int)
  by_cases hm : level bs < l₁.mark.column
  · rw [closedAt_of_level_le (Int.le_of_lt hm)]
    split <;> omega
  · simpa [hm] using hlevel

section Settling
variable (hf : l.Framed T bs deeper)
include hf

theorem settles_here {p : KeyPlace} (hR : IsSolid l.rest) (hp : l.keyPlaces = [p])
    (hpast : p.possible = true → p.required = false ∧ p.mark.line < l.mark.line) :
    l.Settles (.onLine l.rest l.mark.column T bs deeper l.keyAllowed) :=
  .of_skip (runs_skipToToken_solid hR _) (Nat.le_refl _) hf ⟨p, hp, hpast⟩

theorem settles_behind {n : Nat} {p : KeyPlace} (h : l.rest = spaces n ++ R) (hR : IsSolid R)
    (hp : l.keyPlaces = [p]) (hpast : p.possible = false) :
    l.Settles (.onLine R (l.mark.column + n) T bs deeper l.keyAllowed) := by
  have hskip : Runs (skipToToken (l.rest.length + 1)) l () (l.advance n) :=
    runs_skipToToken_spaces h hR (lt_length_of_spaces h)
  have hrest : (l.advance n).rest = R := by simp [advance, h, spaces]
  have hsettle := Settles.of_skip hskip (by simp [advance]) (hf.move rfl rfl rfl rfl rfl rfl)
    ⟨p, hp, fun h => absurd (hpast.symm.trans h) Bool.false_ne_true⟩
  rw [hrest] at hsettle
  exact hsettle

theorem settles_below {n : Nat} {p : KeyPlace} (h : l.rest = '\n' :: (spaces n ++ R))
    (hR : IsSolid R) (hp : l.keyPlaces = [p])
    (hpast : p.possible = true → p.required = false ∧ p.mark.line ≤ l.mark.line) :
    l.Settles (.onLine R n T bs deeper true) := by
  have hskip := runs_skipToToken_break h hR hf.flowLevel
    (lt_length_of_break h)
  have hrest := rest_newLine h
  have hsettle := Settles.of_skip hskip (by simp [newLine]) (hf.move rfl rfl rfl rfl rfl rfl)
    ⟨p, hp, fun h => ⟨(hpast h).1, Nat.lt_succ_of_le (hpast h).2⟩⟩
  change l.Settles (.onLine (l.newLine n).rest n T bs deeper true) at hsettle
  rw [hrest] at hsettle
  exact hsettle

end Settling

theorem notePlace_eq (l : Lexer) :
    l.notePlace = { l with keyPlaces := l.notePlace.keyPlaces } := by
  simp only [notePlace]
  split <;> rfl

def noted (l : Lexer) : Lexer :=
  { l with keyPlaces := l.notePlace.keyPlaces, keyAllowed := false }

theorem notePlace_noted (l : Lexer) : { l.notePlace with keyAllowed := false } = l.noted := by
  conv_lhs => rw [l.notePlace_eq]
  rfl

theorem Framed.noted (h : l.Framed T bs deeper) : l.noted.Framed T bs deeper :=
  h.move rfl rfl rfl rfl rfl rfl

/-- Right of the innermost block a key may begin, but none has to. -/
theorem exists_notePlace {s : Spot} (h : l.IsAt s) (hcol : level s.blocks < s.column) :
    ∃ p, l.notePlace.keyPlaces = [p] ∧
      (p.possible = true → p.required = false ∧ p.mark.line = l.mark.line) := by
  obtain ⟨p, hp, hdead⟩ := h.place
  cases hk : l.keyAllowed with
  | false => exact ⟨p, by simp [notePlace, hk, hp], fun hpos => nomatch hdead.symm.trans hpos⟩
  | true =>
    refine ⟨⟨true, l.flowLevel = 0 && l.indent == l.column && l.lastIndentIsBlock, l.count, l.mark⟩,
      by simp [notePlace, hk, hp], fun _ => ⟨?_, rfl⟩⟩
    have hlast : l.lastIndentIsBlock = (!s.deeper && !s.blocks.isEmpty) := by
      rw [← h.framed.eq, lastIndentIsBlock_framed]
    have hindent : s.deeper = false → (l.indent == l.column) = false := by
      intro hd
      rw [beq_eq_false_iff_ne, h.framed.indent, hd, column, h.column]
      simp only [Bool.false_eq_true, if_false]
      omega
    cases hd : s.deeper with
    | true => simp [hlast, hd]
    | false => simp [hindent hd]

structure TookLine (l l' : Lexer) (t : Token) (s : Spot) (R : List Char) (m : Nat) : Prop where
  framed : ∃ deeper, l'.Framed (t :: s.tokens) s.blocks deeper
  rest : l'.rest = R
  column : l'.mark.column = m
  line : l.mark.line < l'.mark.line
  keyAllowed : l'.keyAllowed = true
  keyPlaces : l'.keyPlaces = l.notePlace.keyPlaces

end Lexer

inductive Scans : Lexer → Lexer → Prop where
  | done (l : Lexer) : Scans l l
  | more {l l' l'' : Lexer} (h : Runs next l true l') (hlt : l'.rest.length < l.rest.length)
    (hs : Scans l' l'') : Scans l l''

theorem Scans.trans {l l' l'' : Lexer} (h : Scans l l') (h' : Scans l' l'') : Scans l l'' := by
  induction h with
  | done => exact h'
  | more hn hlt _ ih => exact .more hn hlt (ih h')

theorem Scans.runs_scanLoop {l l' l'' : Lexer} (h : Scans l l') (hend : Runs next l' false l'')
    {fuel : Nat} (hf : l.rest.length < fuel) : Runs (scanLoop fuel) l () l'' := by
  induction h generalizing fuel with
  | done l =>
    obtain ⟨fuel, rfl⟩ := Nat.exists_eq_add_of_lt hf
    exact .bind hend (runs_pure _ _)
  | more hn hlt _ ih =>
    obtain ⟨fuel, rfl⟩ := Nat.exists_eq_add_of_lt hf
    exact .bind hn (ih hend (by omega))

/-- A pass that stands at the one spot comes to the other one. -/
def Reads (s s' : Spot) : Prop :=
  ∀ l : Lexer, l.Settles s → ∃ l', Scans l l' ∧ l'.Settles s'

theorem Reads.trans {s s' s'' : Spot} (h : Reads s s') (h' : Reads s' s'') : Reads s s'' := by
  intro l hl
  obtain ⟨l', hscan, hl'⟩ := h l hl
  obtain ⟨l'', hscan', hl''⟩ := h' l' hl'
  exact ⟨l'', hscan.trans hscan', hl''⟩

theorem Reads.of_take {s s' : Spot}
    (h : ∀ l : Lexer, l.IsAt s → ∃ l', Runs takeToken l true l' ∧
      l'.rest.length < l.rest.length ∧ l'.Settles s') : Reads s s' := by
  rintro l ⟨l₀, hsettle, hle, hl₀⟩
  obtain ⟨l', htake, hlt, hl'⟩ := h l₀ hl₀
  exact ⟨l', .more (.bind hsettle htake) (by omega) (.done l'), hl'⟩

theorem Reads.of_line {s : Spot} {t : Token} {R : List Char} {m : Nat}
    (hcol : level s.blocks < s.column) (hm : m ≤ level s.blocks) (hR : IsSolid R)
    (hlen : R.length < s.rest.length)
    (h : ∀ l : Lexer, l.IsAt s → ∃ l', Runs takeToken l true l' ∧ l.TookLine l' t s R m) :
    Reads s (.onLine R m (t :: s.tokens) s.blocks false true) := by
  refine .of_take fun l hl => ?_
  obtain ⟨l', hrun, htook⟩ := h l hl
  obtain ⟨deeper, hframed⟩ := htook.framed
  obtain ⟨p, hp, hpast⟩ := Lexer.exists_notePlace hl hcol
  refine ⟨l', hrun, by rw [htook.rest, hl.rest]; exact hlen, ?_⟩
  have hsettle := Lexer.settles_here hframed (htook.rest ▸ hR) (htook.keyPlaces.trans hp)
    fun hpos => ⟨(hpast hpos).1, (hpast hpos).2 ▸ htook.line⟩
  rw [htook.rest, htook.column, htook.keyAllowed, Spot.onLine_deeper hm false] at hsettle
  exact hsettle

/-- Two tokens lead from the spot to the other one, and between them is no spot. -/
theorem Reads.of_take_two {s s' : Spot}
    (h : ∀ l : Lexer, l.IsAt s → ∃ l₁ l₂ l', Runs takeToken l true l₁ ∧ Runs settle l₁ () l₂ ∧
      Runs takeToken l₂ true l' ∧ l₁.rest.length < l.rest.length ∧
      l'.rest.length < l₁.rest.length ∧ l'.Settles s') : Reads s s' := by
  rintro l ⟨l₀, hsettle, hle, hl₀⟩
  obtain ⟨l₁, l₂, l', htake, hsettle', htake', hlt, hlt', hl'⟩ := h l₀ hl₀
  exact ⟨l', .more (.bind hsettle htake) (by omega)
    (.more (.bind hsettle' htake') hlt' (.done l')), hl'⟩

end MeshRollout.Yaml

import MeshRollout.Proofs.Yaml.Runs

/-!
The open blocks of a pass over YAML text, innermost first. A line that begins further left ends the
blocks right of it, and every block that ends gets its token.
-/
set_option autoImplicit false

namespace MeshRollout.Yaml

/-- The column of the innermost block; without blocks it lies left of every line. -/
def level : List Nat → Int
  | [] => -1
  | b :: _ => b

def outers : List Nat → List OuterIndent
  | [] => []
  | _ :: bs => ⟨level bs, true⟩ :: outers bs

def closedAt (column : Int) (bs : List Nat) : List Nat :=
  bs.dropWhile fun b : Nat => decide (column < b)

def endsAt (column : Int) (bs : List Nat) : List Token :=
  List.replicate (bs.takeWhile fun b : Nat => decide (column < b)).length .blockEnd

section Closing
variable {m : Int} {b : Nat} {bs : List Nat}

theorem closedAt_cons_of_lt (h : m < b) : closedAt m (b :: bs) = closedAt m bs :=
  List.dropWhile_cons_of_pos (by simpa using h)

theorem closedAt_cons_of_le (h : (b : Int) ≤ m) : closedAt m (b :: bs) = b :: bs :=
  List.dropWhile_cons_of_neg (by simpa using h)

theorem endsAt_cons_of_lt (h : m < b) (T : List Token) :
    endsAt m (b :: bs) ++ T = endsAt m bs ++ .blockEnd :: T := by
  rw [endsAt, List.takeWhile_cons_of_pos (by simpa using h), List.length_cons,
    List.replicate_succ', List.append_assoc]
  rfl

theorem endsAt_cons_of_le (h : (b : Int) ≤ m) : endsAt m (b :: bs) = [] := by
  rw [endsAt, List.takeWhile_cons_of_neg (by simpa using h)]
  rfl

end Closing

namespace Lexer

/-- The state with the given tokens, newest first, and the given open blocks; `deeper` tells that
content of the innermost block has to stand right of its column. -/
def framed (T : List Token) (bs : List Nat) (deeper : Bool) (l : Lexer) : Lexer :=
  { l with
    tokens := T
    count := T.length
    indent := level bs + (if deeper then 1 else 0)
    outerIndents := (if deeper then [⟨level bs, false⟩] else []) ++ outers bs }

structure Framed (l : Lexer) (T : List Token) (bs : List Nat) (deeper : Bool) : Prop where
  eq : l.framed T bs deeper = l
  flowLevel : l.flowLevel = 0
  pairOpen : l.pairOpen = []

variable {l : Lexer} {T : List Token} {bs : List Nat} {deeper : Bool}

namespace Framed
variable (h : l.Framed T bs deeper)
include h

theorem tokens : l.tokens = T := by
  rw [← h.eq]
  rfl

theorem count : l.count = T.length := by
  rw [← h.eq]
  rfl

theorem indent : l.indent = level bs + (if deeper then 1 else 0) := by
  rw [← h.eq]
  rfl

theorem outerIndents :
    l.outerIndents = (if deeper then [⟨level bs, false⟩] else []) ++ outers bs := by
  rw [← h.eq]
  rfl

theorem reframe (T' : List Token) (bs' : List Nat) (deeper' : Bool) :
    (l.framed T' bs' deeper').Framed T' bs' deeper' :=
  ⟨rfl, h.flowLevel, h.pairOpen⟩

/-- Whatever else has changed. -/
theorem move {l' : Lexer} (ht : l'.tokens = l.tokens) (hc : l'.count = l.count)
    (hi : l'.indent = l.indent) (ho : l'.outerIndents = l.outerIndents)
    (hf : l'.flowLevel = l.flowLevel) (hp : l'.pairOpen = l.pairOpen) : l'.Framed T bs deeper where
  eq := by
    obtain ⟨⟩ := l'
    simp only [framed, Lexer.mk.injEq, true_and, and_true] at *
    exact ⟨(ht.trans h.tokens).symm, (hc.trans h.count).symm, (hi.trans h.indent).symm,
      (ho.trans h.outerIndents).symm⟩
  flowLevel := hf.trans h.flowLevel
  pairOpen := hp.trans h.pairOpen

theorem push (t : Token) : l.push t = l.framed (t :: T) bs deeper := by
  rw [← h.eq]
  rfl

theorem pushed (t : Token) : (l.push t).Framed (t :: T) bs deeper := by
  rw [h.push t]
  exact h.reframe _ _ _

theorem insertAt (newer older : List Token) (hT : T = newer ++ older) (t : Token) :
    l.insertAt older.length t = l.framed (newer ++ t :: older) bs deeper := by
  have hn : T.length - older.length = newer.length := by simp [hT]
  rw [← h.eq]
  simp only [Lexer.insertAt, framed, hn, Lexer.mk.injEq, and_true, true_and]
  simp [hT]
  omega

end Framed

theorem lastIndentIsBlock_framed :
    (l.framed T bs deeper).lastIndentIsBlock = (!deeper && !bs.isEmpty) := by
  cases deeper with
  | true => rfl
  | false => cases bs <;> rfl

theorem closeBlocks_go_framed (m : Int) (l : Lexer) (T : List Token) :
    closeBlocks.go m (outers bs) (l.framed T bs false)
      = l.framed (endsAt m bs ++ T) (closedAt m bs) false := by
  induction bs generalizing T with
  | nil => rfl
  | cons b bs ih =>
    rw [outers, closeBlocks.go]
    have hindent : (l.framed T (b :: bs) false).indent = b := by simp [framed, level]
    rw [hindent]
    by_cases hb : m < b
    · have hpush : ({ l.framed T (b :: bs) false with
          indent := level bs, outerIndents := outers bs } : Lexer).push .blockEnd
            = l.framed (.blockEnd :: T) bs false := by
        simp [framed, Lexer.push]
      rw [if_pos hb, closedAt_cons_of_lt hb, endsAt_cons_of_lt hb, ← ih]
      exact congrArg _ hpush
    · rw [if_neg hb, closedAt_cons_of_le (by omega), endsAt_cons_of_le (by omega)]
      rfl

namespace Framed
variable (h : l.Framed T bs deeper)
include h

/-- What a line at a column leaves of the open blocks. -/
theorem closeBlocks (m : Int) :
    l.closeBlocks m
      = l.framed (endsAt m bs ++ T) (closedAt m bs) (deeper && decide (level bs < m)) := by
  have hflow : ¬ l.flowLevel > 0 := by simp [h.flowLevel]
  rw [Lexer.closeBlocks, if_neg hflow, h.outerIndents]
  cases deeper with
  | false =>
    have hl : l = l.framed T bs false := h.eq.symm
    simp only [Bool.false_eq_true, if_false, List.nil_append, Bool.false_and]
    conv_lhs => rw [hl]
    exact closeBlocks_go_framed m l T
  | true =>
    simp only [if_true, List.singleton_append, Bool.true_and]
    rw [closeBlocks.go, h.indent, if_pos rfl]
    by_cases hm : level bs < m
    · -- the line stands deep enough, and so it stands right of the block as well
      have hle : closedAt m bs = bs ∧ endsAt m bs = [] := by
        cases bs with
        | nil => exact ⟨rfl, rfl⟩
        | cons b bs =>
          have hb : (b : Int) ≤ m := by
            have hb : (b : Int) < m := hm
            omega
          exact ⟨closedAt_cons_of_le hb, endsAt_cons_of_le hb⟩
      rw [if_neg (by omega), hle.1, hle.2]
      simp only [hm, decide_true, List.nil_append]
      exact h.eq.symm
    · have hdrop : ({ l with indent := level bs, outerIndents := outers bs } : Lexer)
          = l.framed T bs false := by
        conv_lhs => rw [← h.eq]
        simp [framed]
      rw [if_pos (by omega)]
      simp only [Bool.false_eq_true, if_false, hm, decide_false]
      rw [hdrop]
      exact closeBlocks_go_framed m l T

theorem dropPlainIndents : l.dropPlainIndents = l.framed T bs false := by
  have hblock (l' : Lexer) : Lexer.dropPlainIndents.go (outers bs) l' = l' := by
    cases bs <;> rfl
  rw [Lexer.dropPlainIndents, h.outerIndents]
  cases deeper with
  | false =>
    simp only [Bool.false_eq_true, if_false, List.nil_append, hblock]
    exact h.eq.symm
  | true =>
    simp only [if_true, List.singleton_append, Lexer.dropPlainIndents.go, Bool.false_eq_true,
      if_false, hblock]
    conv_lhs => rw [← h.eq]
    simp [framed]

theorem indentByOne (hbs : bs ≠ []) : l.indentByOne = l.framed T bs true := by
  have hlast : l.lastIndentIsBlock = !deeper := by
    rw [← h.eq, lastIndentIsBlock_framed]
    simp [hbs]
  rw [Lexer.indentByOne, hlast]
  cases deeper with
  | false =>
    rw [← h.eq]
    simp [framed, h.flowLevel]
  | true =>
    simp only [Bool.not_true, Bool.and_false, Bool.false_eq_true, if_false]
    exact h.eq.symm

/-- A deeper line opens a block, of which the first token goes in front of what belongs to it. -/
theorem openBlock {n : Nat} (hn : level bs < n) (number : Option Nat) (t : Token) :
    l.openBlock n number t
      = match number with
        | some i => (l.framed T (n :: bs) false).insertAt i t
        | none => (l.framed T (n :: bs) false).push t := by
  have hflow : ¬ l.flowLevel > 0 := by simp [h.flowLevel]
  have hopen : ({ l.framed T bs false with
      outerIndents := ⟨level bs, true⟩ :: outers bs, indent := n } : Lexer)
        = l.framed T (n :: bs) false := by
    simp [framed, level, outers]
  cases deeper with
  | true =>
    -- an indent that is no block gives way first
    have hle : level bs + 1 ≤ n := by omega
    have hplain : ({ l with indent := level bs, outerIndents := outers bs } : Lexer)
        = l.framed T bs false := by
      conv_lhs => rw [← h.eq]
      simp [framed]
    have hout : l.outerIndents = ⟨level bs, false⟩ :: outers bs := h.outerIndents
    have hin : l.indent = level bs + 1 := h.indent
    rw [Lexer.openBlock, if_neg hflow]
    simp only [hout, hin, hle, decide_true, Bool.not_false, Bool.and_true, if_true, if_pos hn]
    refine hopen ▸ hplain ▸ ?_
    cases number <;> rfl
  | false =>
    have hin : l.indent = level bs := by simp [h.indent]
    have hkeep : ({ l with outerIndents := ⟨level bs, true⟩ :: outers bs, indent := n } : Lexer)
        = l.framed T (n :: bs) false := by
      conv_lhs => rw [← h.eq]
      exact hopen
    cases bs with
    | nil =>
      have hout : l.outerIndents = [] := h.outerIndents
      rw [Lexer.openBlock, if_neg hflow]
      simp only [hout, hin, if_pos hn]
      refine hkeep ▸ ?_
      cases number <;> rfl
    | cons b bs =>
      have hout : l.outerIndents = ⟨level bs, true⟩ :: outers bs := h.outerIndents
      rw [Lexer.openBlock, if_neg hflow]
      simp only [hout, hin, Bool.not_true, Bool.and_false, Bool.false_eq_true, if_false,
        if_pos hn]
      refine hkeep ▸ ?_
      cases number <;> rfl

theorem openBlock_same {b : Nat} {bs' : List Nat} (hbs : bs = b :: bs') (hd : deeper = false)
    (number : Option Nat) (t : Token) : l.openBlock b number t = l := by
  subst hbs hd
  have hflow : ¬ l.flowLevel > 0 := by simp [h.flowLevel]
  have hout : l.outerIndents = ⟨level bs', true⟩ :: outers bs' := h.outerIndents
  have hindent : l.indent = b := by simp [h.indent, level]
  simp [Lexer.openBlock, hflow, hout, hindent]

end Framed

end Lexer

end MeshRollout.Yaml

import Mathlib.Data.List.TakeWhile
import MeshRollout.Proofs.Yaml.Lines

/-!
The tokens of a whole document: a pass starts at the first token and goes on to the end of the text,
where the blocks that are still open end.
-/
set_option autoImplicit false

namespace MeshRollout.Yaml
open Scan

theorem isEnd_eq_false_of_written {c : Char} (h : isPlainlyWritten c = true) : isEnd c = false := by
  cases hb : isBreakMark c with
  | false => exact isEnd_eq_false h hb
  | true =>
    simp only [isBreakMark, Bool.or_eq_true, beq_iff_eq] at hb
    rcases hb with (((rfl | rfl) | rfl) | rfl) | rfl <;> decide

namespace Lexer
variable {t : List Char}

theorem rest_start (h : ∀ c ∈ t, isPlainlyWritten c = true) : (start t).rest = t := by
  refine List.takeWhile_eq_self_iff.2 fun c hc => ?_
  simpa using isEnd_eq_false_of_written (h c hc)

theorem settles_start (h : ∀ c ∈ t, isPlainlyWritten c = true) (ht : IsSolid t) :
    (start t).Settles ⟨t, 0, [], [], false, true⟩ := by
  have hrest := rest_start h
  have hframed : (start t).Framed [] [] false := ⟨rfl, rfl, rfl⟩
  have hsolid : IsSolid (start t).rest := hrest.symm ▸ ht
  have hsettle := settles_here hframed hsolid (p := noKey) rfl fun hpos => nomatch hpos
  have hleft : level [] < ((start t).mark.column : Int) :=
    (by decide : (-1 : Int) < 0)
  rwa [hrest, Spot.onLine_of_level_lt hleft] at hsettle

theorem IsAt.runs_takeToken_end {l : Lexer} {c : Nat} {T : List Token} {bs : List Nat}
    {deeper keyAllowed : Bool} (h : l.IsAt ⟨[], c, T, bs, deeper, keyAllowed⟩) :
    ∃ l', Runs takeToken l false l' ∧ l'.tokens = endsAt (-1) bs ++ T := by
  obtain ⟨p, hp, hdead⟩ := h.place
  have hc : l.peek 0 = Char.ofNat 0 := by
    rw [peek_zero, h.rest]
    rfl
  have hend : isEnd (Char.ofNat 0) = true := by decide
  have hnone : (!l.keyPlaces.any fun p => p.required && p.possible) = true := by
    simp [hp, hdead]
  refine ⟨l.closeBlocks (-1), ?_, by rw [h.framed.closeBlocks]; rfl⟩
  refine .bind (runs_get l) ?_
  simp only [hc, hend, if_true]
  exact .bind (runs_require hnone l) (.bind (runs_modify _ l) (runs_pure false _))

end Lexer

theorem Reads.tokens?_eq {t : List Char} {c : Nat} {T : List Token} {bs : List Nat}
    {deeper keyAllowed : Bool} (hwritten : ∀ c ∈ t, isPlainlyWritten c = true) (ht : IsSolid t)
    (h : Reads ⟨t, 0, [], [], false, true⟩ ⟨[], c, T, bs, deeper, keyAllowed⟩) :
    tokens? t = some (endsAt (-1) bs ++ T).reverse := by
  obtain ⟨l, hscan, l', hsettle, -, hl'⟩ := h _ (Lexer.settles_start hwritten ht)
  obtain ⟨l'', hend, htokens⟩ := hl'.runs_takeToken_end
  have hlen : (Lexer.start t).rest.length < t.length + 1 := by
    rw [Lexer.rest_start hwritten]
    exact Nat.lt_succ_self _
  have hrun : (scanLoop (t.length + 1)).run (Lexer.start t) = some ((), l'') :=
    hscan.runs_scanLoop (.bind hsettle hend) hlen
  rw [tokens?, hrun, ← htokens]
  rfl

theorem tokens?_record {f : String × Value} {fs : List (String × Value)}
    (hv : Printable (.record (f :: fs))) :
    tokens? (nodeText 0 (.record (f :: fs))) = some (nodeTokens (.record (f :: fs))) := by
  have hopens : Opens 0 [] true [] false := .first (by decide) false
  have hread := reads_fields (f :: fs) (by simp) hv.2 (T := []) hopens (Nat.le_refl 0) isSolid_nil
  rw [Spot.onLine_of_level_eq] at hread
  have hsolid := (HasHead.nodeText hv 0).isSolid []
  rw [List.append_nil] at hsolid
  have htokens := Reads.tokens?_eq (t := nodeText 0 (.record (f :: fs)))
    (isTail_node _ hv 0).written hsolid (by simpa [nodeText, spaces] using hread)
  rw [htokens]
  simp [endsAt, opening, nodeTokens]

end MeshRollout.Yaml

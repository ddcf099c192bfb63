import Mathlib.Data.List.TakeWhile
import MeshRollout.Proofs.Text.Split

/-!
Lines of a text. A line holds no line feed, and lines that are written with their line feeds are read
again, each without the carriage return that may stand at its end.
-/
set_option autoImplicit false

namespace MeshRollout.Text

variable {cs line : List Char} {ls : List (List Char)}

theorem dropReturn_cases (line : List Char) :
    dropReturn line = line ∨ line = dropReturn line ++ ['\r'] := by
  rw [dropReturn]
  split
  · rename_i r hr
    refine .inr ?_
    have hline := congrArg List.reverse hr
    rwa [List.reverse_reverse, List.reverse_cons] at hline
  · exact .inl rfl

theorem dropReturn_subset (line : List Char) : dropReturn line ⊆ line := by
  rcases dropReturn_cases line with h | h
  · rw [h]
    exact List.Subset.refl _
  · intro c hc
    rw [h]
    exact List.mem_append_left _ hc

theorem dropReturn_of_not_mem (h : '\r' ∉ line) : dropReturn line = line := by
  refine (dropReturn_cases line).resolve_right fun he => h ?_
  rw [he]
  exact List.mem_append_right _ (List.mem_singleton_self _)

theorem linesOf_append (a : List (List Char)) {b : List (List Char)} (h : b ≠ []) :
    linesOf (a ++ b) = a.map dropReturn ++ linesOf b := by
  induction a with
  | nil => rfl
  | cons l a ih =>
    obtain ⟨m, r, hr⟩ := List.exists_cons_of_ne_nil (List.append_ne_nil_of_right_ne_nil a h)
    rw [List.cons_append, hr, linesOf, ← hr, ih, List.map_cons, List.cons_append]
    exact List.cons_ne_nil _ _

theorem lines_append_lineFeed (a b : List Char) :
    lines (a ++ '\n' :: b) = (splitOn '\n' a).map dropReturn ++ lines b := by
  rw [lines, splitOn_around, linesOf_append _ (splitOn_ne_nil _ _), lines]

theorem exists_of_mem_linesOf (h : line ∈ linesOf ls) : ∃ p ∈ ls, line ⊆ p := by
  fun_induction linesOf ls with
  | case1 => nomatch h
  | case2 last hlast => nomatch h
  | case3 last hlast =>
    obtain rfl := List.mem_singleton.1 h
    exact ⟨_, List.mem_singleton_self _, List.Subset.refl _⟩
  | case4 p rest hrest ih =>
    rcases List.mem_cons.1 h with rfl | h
    · exact ⟨p, List.mem_cons_self, dropReturn_subset p⟩
    · obtain ⟨q, hq, hsub⟩ := ih h
      exact ⟨q, List.mem_cons_of_mem _ hq, hsub⟩

theorem subset_of_mem_lines (h : line ∈ lines cs) : line ⊆ cs ∧ '\n' ∉ line := by
  obtain ⟨p, hp, hsub⟩ := exists_of_mem_linesOf h
  exact ⟨fun c hc => subset_of_mem_splitOn hp (hsub hc), fun hn => not_mem_of_mem_splitOn hp (hsub hn)⟩

/-- A text that ends where a line ends is cut into lines apart from what follows. -/
theorem lines_append {a : List Char} (ha : a = [] ∨ ∃ c, a = c ++ ['\n']) (b : List Char) :
    lines (a ++ b) = lines a ++ lines b := by
  rcases ha with rfl | ⟨c, rfl⟩
  · rfl
  · have hnone : lines [] = [] := rfl
    rw [List.append_assoc, List.singleton_append, lines_append_lineFeed, lines_append_lineFeed c [],
      hnone, List.append_nil]

theorem lines_line (h : '\n' ∉ line) (b : List Char) :
    lines (line ++ '\n' :: b) = dropReturn line :: lines b := by
  rw [lines_append_lineFeed, splitOn_of_not_mem h, List.map_singleton, List.singleton_append]

theorem lines_flatMap_lineFeed (h : ∀ line ∈ ls, '\n' ∉ line) :
    lines (ls.flatMap fun line => line ++ ['\n']) = ls.map dropReturn := by
  induction ls with
  | nil => rfl
  | cons line ls ih =>
    obtain ⟨hline, hls⟩ := List.forall_mem_cons.1 h
    rw [List.flatMap_cons, List.append_assoc, List.singleton_append, lines_line hline, ih hls,
      List.map_cons]

theorem splitOn_flatMap_lineFeed (h : ∀ line ∈ ls, '\n' ∉ line) :
    splitOn '\n' (ls.flatMap fun line => line ++ ['\n']) = ls ++ [[]] := by
  induction ls with
  | nil => rfl
  | cons line ls ih =>
    obtain ⟨hline, hls⟩ := List.forall_mem_cons.1 h
    rw [List.flatMap_cons, List.append_assoc, List.singleton_append, splitOn_append hline, ih hls,
      List.cons_append]

theorem trim_append {a : List Char} (ha : ∀ c ∈ a, isBlank c = true) (cs : List Char) :
    trim (cs ++ a) = trim cs := by
  rw [trim, trimStart, List.dropWhile_append]
  split
  · rename_i hnone
    have hrest : a.dropWhile isBlank = [] := List.dropWhile_eq_nil_iff.2 ha
    rw [hrest, trim, trimStart, List.isEmpty_iff.1 hnone]
  · exact trimEnd_append ha

theorem isBlank_of_mem_return : ∀ c ∈ ['\r'], isBlank c = true := by
  intro c hc
  rw [List.mem_singleton.1 hc]
  rfl

theorem trim_dropReturn (line : List Char) : trim (dropReturn line) = trim line := by
  rcases dropReturn_cases line with h | h
  · rw [h]
  · exact (trim_append isBlank_of_mem_return _).symm.trans (congrArg trim h.symm)

end MeshRollout.Text

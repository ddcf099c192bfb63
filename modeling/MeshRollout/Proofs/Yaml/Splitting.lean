import Mathlib.Data.List.Flatten
import MeshRollout.Proofs.Text.Lines
import MeshRollout.Proofs.Yaml.Pieces

/-!
Cutting a manifest into documents loses no line that says something, and mixes no lines. What stands
in front of a separator and what stands behind it are cut apart from each other, and documents that
are joined by separators come apart again.
-/
set_option autoImplicit false

namespace MeshRollout.Yaml

variable {line : List Char} {ls : List (List Char)} {document text : String}

/-- A line that has to be found in a document again. -/
def isMeant (line : List Char) : Bool :=
  saysSomething line && !isSeparator line

def writtenLines (document : String) : List (List Char) :=
  (Text.splitOn '\n' document.toList).dropLast

theorem isSeparator_dropReturn (line : List Char) :
    isSeparator (Text.dropReturn line) = isSeparator line := by
  rw [isSeparator, isSeparator, Text.trim_dropReturn]

theorem saysSomething_append {a : List Char} (ha : ∀ c ∈ a, Text.isBlank c = true)
    (cs : List Char) : saysSomething (cs ++ a) = saysSomething cs := by
  have hall : a.all Text.isBlank = true := List.all_eq_true.2 ha
  rw [saysSomething, saysSomething, Text.isBlankText, Text.isBlankText, List.all_append, hall,
    Bool.and_true]
  by_cases hblank : cs.all Text.isBlank = true
  · rw [hblank]
    rfl
  · -- the first character that is no blank stays the first one
    have hne : cs.dropWhile Text.isBlank ≠ [] := fun h =>
      hblank (List.all_eq_true.2 (List.dropWhile_eq_nil_iff.1 h))
    rw [Text.trimStart, List.dropWhile_append, if_neg (by simpa using hne),
      List.head?_append_of_ne_nil _ hne]
    rfl

theorem saysSomething_dropReturn (line : List Char) :
    saysSomething (Text.dropReturn line) = saysSomething line := by
  rcases Text.dropReturn_cases line with h | h
  · rw [h]
  · have hsame := saysSomething_append Text.isBlank_of_mem_return (Text.dropReturn line)
    exact hsame.symm.trans (congrArg saysSomething h.symm)

theorem isMeant_dropReturn (line : List Char) : isMeant (Text.dropReturn line) = isMeant line := by
  rw [isMeant, isMeant, saysSomething_dropReturn, isSeparator_dropReturn]

theorem sections_around {sep : List Char} (hsep : isSeparator sep = true)
    (ls ms : List (List Char)) : sections (ls ++ sep :: ms) = sections ls ++ sections ms := by
  simp only [sections_eq_splitOnP, List.splitOnP_append_cons ls ms hsep]

theorem flatten_sections (ls : List (List Char)) :
    (sections ls).flatten = ls.filter fun line => !isSeparator line := by
  induction ls with
  | nil => rfl
  | cons line ls ih =>
    by_cases hline : isSeparator line = true
    · simp [sections, hline, ih]
    · obtain ⟨s, ss, hs⟩ := List.exists_cons_of_ne_nil (l := sections ls) (by
        rw [sections_eq_splitOnP]
        exact List.splitOnP_ne_nil _ _)
      simp_all [sections]

def groups (text : String) : List (List (List Char)) :=
  (sections (Text.lines text.toList)).filter fun s => s.any saysSomething

theorem split_eq (text : String) : split text = (groups text).map unlines := rfl

theorem mem_of_mem_groups {g : List (List Char)} (hg : g ∈ groups text) (hline : line ∈ g) :
    line ∈ Text.lines text.toList ∧ isSeparator line = false := by
  have hmem : line ∈ (sections (Text.lines text.toList)).flatten :=
    List.mem_flatten.2 ⟨g, (List.mem_filter.1 hg).1, hline⟩
  rw [flatten_sections, List.mem_filter, Bool.not_eq_true'] at hmem
  exact hmem

theorem writtenLines_unlines (h : ∀ line ∈ ls, '\n' ∉ line) : writtenLines (unlines ls) = ls := by
  rw [writtenLines, unlines, String.toList_ofList, Text.splitOn_flatMap_lineFeed h,
    List.dropLast_concat]

theorem lines_unlines (h : ∀ line ∈ ls, '\n' ∉ line) :
    Text.lines (unlines ls).toList = ls.map Text.dropReturn := by
  rw [unlines, String.toList_ofList, Text.lines_flatMap_lineFeed h]

theorem lineFeed_not_mem_of_mem_groups {g : List (List Char)} (hg : g ∈ groups text) :
    ∀ line ∈ g, '\n' ∉ line :=
  fun _ hline => (Text.subset_of_mem_lines (mem_of_mem_groups hg hline).1).2

/-- The documents consist of lines of the text, and each line that is meant is in one of them. -/
structure Distributes (ls : List (List Char)) (documents : List String) : Prop where
  whole : ∀ d ∈ documents, unlines (writtenLines d) = d
  inOrder : (documents.flatMap writtenLines).Sublist ls
  /-- Document after document, the lines that are meant are those of the text. -/
  meant : (documents.flatMap writtenLines).filter isMeant = ls.filter isMeant
  parted : ∀ d ∈ documents, ∀ line ∈ Text.lines d.toList, isSeparator line = false
  filled : ∀ d ∈ documents, ∃ line ∈ Text.lines d.toList, isMeant line = true

theorem flatMap_writtenLines_split (text : String) :
    (split text).flatMap writtenLines = (groups text).flatten := by
  rw [split_eq, List.flatMap_map, ← List.flatMap_id]
  exact List.flatMap_congr fun g hg => writtenLines_unlines (lineFeed_not_mem_of_mem_groups hg)

/-- Groups that are left out hold no line that is meant. -/
theorem filter_flatten_groups (text : String) :
    (groups text).flatten.filter isMeant = (Text.lines text.toList).filter isMeant := by
  have hkept (gs : List (List (List Char))) :
      (gs.filter fun g => g.any saysSomething).flatten.filter isMeant
        = gs.flatten.filter isMeant := by
    induction gs with
    | nil => rfl
    | cons g gs ih =>
      by_cases hg : g.any saysSomething = true
      · rw [List.filter_cons_of_pos (by exact hg), List.flatten_cons, List.flatten_cons,
          List.filter_append, List.filter_append, ih]
      · have hnone : g.filter isMeant = [] := by
          refine List.filter_eq_nil_iff.2 fun line hline hm => hg (List.any_eq_true.2 ⟨line, hline, ?_⟩)
          exact (Bool.and_eq_true_iff.1 hm).1
        rw [List.filter_cons_of_neg (by exact hg), List.flatten_cons, List.filter_append, hnone, ih,
          List.nil_append]
  have hsections (ls : List (List Char)) :
      (ls.filter fun line => !isSeparator line).filter isMeant = ls.filter isMeant := by
    rw [List.filter_filter]
    refine List.filter_congr fun line _ => ?_
    rw [isMeant, Bool.and_assoc, Bool.and_self]
  rw [groups, hkept, flatten_sections, hsections]

theorem distributes_split (text : String) :
    Distributes (Text.lines text.toList) (split text) where
  whole d hd := by
    obtain ⟨g, hg, rfl⟩ := List.mem_map.1 hd
    rw [writtenLines_unlines (lineFeed_not_mem_of_mem_groups hg)]
  inOrder := by
    rw [flatMap_writtenLines_split, groups]
    have hkept := (List.filter_sublist (p := fun g => g.any saysSomething)
      (l := sections (Text.lines text.toList))).flatten
    rw [flatten_sections] at hkept
    exact hkept.trans List.filter_sublist
  meant := by
    rw [flatMap_writtenLines_split, filter_flatten_groups]
  parted d hd line hline := by
    obtain ⟨g, hg, rfl⟩ := List.mem_map.1 hd
    rw [lines_unlines (lineFeed_not_mem_of_mem_groups hg)] at hline
    obtain ⟨l, hl, rfl⟩ := List.mem_map.1 hline
    rw [isSeparator_dropReturn]
    exact (mem_of_mem_groups hg hl).2
  filled d hd := by
    obtain ⟨g, hg, rfl⟩ := List.mem_map.1 hd
    obtain ⟨l, hl, hsays⟩ := List.any_eq_true.1 (List.mem_filter.1 hg).2
    refine ⟨Text.dropReturn l, ?_, ?_⟩
    · rw [lines_unlines (lineFeed_not_mem_of_mem_groups hg)]
      exact List.mem_map_of_mem hl
    · rw [isMeant_dropReturn, isMeant, hsays, (mem_of_mem_groups hg hl).2]
      rfl

/-- What stands in front of a separator and what stands behind it are split apart. -/
theorem split_around {a sep : String} (ha : a = "" ∨ ∃ c, a = c ++ "\n") (hline : '\n' ∉ sep.toList)
    (hsep : isSeparator sep.toList = true) (b : String) :
    split (a ++ sep ++ "\n" ++ b) = split a ++ split b := by
  have hchars : (a ++ sep ++ "\n" ++ b).toList = a.toList ++ (sep.toList ++ '\n' :: b.toList) := by
    simp [String.toList_append]
  have ha' : a.toList = [] ∨ ∃ c, a.toList = c ++ ['\n'] := by
    rcases ha with rfl | ⟨c, rfl⟩
    · exact .inl rfl
    · exact .inr ⟨c.toList, String.toList_append⟩
  have hsep' : isSeparator (Text.dropReturn sep.toList) = true := by rwa [isSeparator_dropReturn]
  rw [split, hchars, Text.lines_append ha', Text.lines_line hline, sections_around hsep',
    List.filter_append, List.map_append]
  rfl

/-- Documents of whole lines that are documents of their own come apart again. -/
theorem split_joinWith_of_whole {ds : List String}
    (h : ∀ d ∈ ds, (∃ c, d = c ++ "\n") ∧ split d = [d]) :
    split (Text.joinWith "---\n" ds) = ds := by
  induction ds with
  | nil => rfl
  | cons d ds ih =>
    obtain ⟨⟨hwhole, hd⟩, hds⟩ := List.forall_mem_cons.1 h
    cases ds with
    | nil => exact hd
    | cons e es =>
      have hjoin : Text.joinWith "---\n" (d :: e :: es)
          = d ++ "---" ++ "\n" ++ Text.joinWith "---\n" (e :: es) := by
        have hmark : d ++ "---" ++ "\n" = d ++ "---\n" := String.append_assoc
        rw [Text.joinWith, hmark]
        exact List.cons_ne_nil _ _
      rw [hjoin, split_around (.inr hwhole) (by decide) (by decide), hd, ih hds,
        List.singleton_append]

/-- A document of a text without carriage returns is cut no further. -/
theorem split_of_mem_split (hreturn : '\r' ∉ text.toList) (hd : document ∈ split text) :
    (∃ c, document = c ++ "\n") ∧ split document = [document] := by
  obtain ⟨g, hg, rfl⟩ := List.mem_map.1 hd
  obtain ⟨line, hline, hsays⟩ := List.any_eq_true.1 (List.mem_filter.1 hg).2
  have hlines : Text.lines (unlines g).toList = g := by
    rw [lines_unlines (lineFeed_not_mem_of_mem_groups hg)]
    refine (List.map_congr_left fun l hl => ?_).trans (List.map_id g)
    have hsub := (Text.subset_of_mem_lines (mem_of_mem_groups hg hl).1).1
    exact Text.dropReturn_of_not_mem fun hr => hreturn (hsub hr)
  refine ⟨?_, split_of_plain (by rw [hlines]) ?_ ?_⟩
  · -- the last line of a group ends with its line feed
    obtain ⟨front, last, rfl⟩ := (List.eq_nil_or_concat g).resolve_left (List.ne_nil_of_mem hline)
    exact ⟨unlines front ++ String.ofList last, by
      simp [unlines, String.ofList_append, String.append_assoc]⟩
  · rw [hlines]
    exact fun l hl => (mem_of_mem_groups hg hl).2
  · rw [hlines]
    exact ⟨line, hline, hsays⟩

/-- Splitting loses no line and mixes none. A separator parts what stands in front of it from what
stands behind it. The documents of a text distribute its lines, and joined by separators they come
apart again; a carriage return at the end of a line is lost each time. -/
theorem split_keeps_lines :
    (∀ a sep b : String, (a = "" ∨ ∃ c, a = c ++ "\n") → '\n' ∉ sep.toList →
      isSeparator sep.toList = true → split (a ++ sep ++ "\n" ++ b) = split a ++ split b) ∧
    ∀ text : String, Distributes (Text.lines text.toList) (split text) ∧
      ('\r' ∉ text.toList → split (Text.joinWith "---\n" (split text)) = split text) := by
  refine ⟨fun a sep b ha hline hsep => split_around ha hline hsep b, fun text => ?_⟩
  refine ⟨distributes_split text, fun hreturn => ?_⟩
  exact split_joinWith_of_whole fun d hd => split_of_mem_split hreturn hd

/-- A comment stands in front of the first separator, and the last document has no line feed. -/
theorem split_keeps_lines_of_unfinished :
    split ("# none\n" ++ " --- " ++ "\n" ++ "a: 1\n\n---\nb: 2")
      = split "# none\n" ++ split "a: 1\n\n---\nb: 2" ∧
    split "a: 1\n\n---\nb: 2" = ["a: 1\n\n", "b: 2\n"] ∧
    split (Text.joinWith "---\n" (split "a: 1\n\n---\nb: 2")) = split "a: 1\n\n---\nb: 2" := by
  obtain ⟨haround, hkept⟩ := split_keeps_lines
  refine ⟨haround _ _ _ (.inr ⟨"# none", rfl⟩) (by decide) (by decide), by decide, ?_⟩
  exact (hkept _).2 (by decide)

end MeshRollout.Yaml

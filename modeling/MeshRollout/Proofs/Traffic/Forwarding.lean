import MeshRollout.Proofs.Address
import MeshRollout.Proofs.Text.Split
import MeshRollout.Proofs.Traffic.Pattern

/-!
What the pattern for an address matches, compared with looking for the address among the elements of
the list. They differ in white space: the pattern allows it only next to a comma, and only white
space of ASCII.
-/
set_option autoImplicit false

namespace MeshRollout

namespace Pattern

def ofAddress (ip : List Char) : Pattern :=
  all <|
    [start, optional (all [star (letter .any), letter (.exactly ','), star (letter .blank)])]
      ++ (ip.map fun c => letter (.exactly c))
      ++ [optional (all [star (letter .blank), letter (.exactly ','), star (letter .any)]), finish]

theorem read?_addressRegex (ip : String) :
    read? (addressRegex ip) = some (ofAddress ip.toList) := by
  have hlead : "^(.*,\\s*)?".toList = ['^', '(', '.', '*', ',', '\\', 's', '*', ')', '?'] := by
    decide
  have htail : "(\\s*,.*)?$".toList = ['(', '\\', 's', '*', ',', '.', '*', ')', '?', '$'] := by
    decide
  have hopen (r : List Char) :
      readOn? (['^', '(', '.', '*', ',', '\\', 's', '*', ')', '?'] ++ r) false [] []
        = readOn? r false [] [optional (all [star (letter .any), letter (.exactly ','),
            star (letter .blank)]), start] := rfl
  have hclose (parts : List Pattern) :
      readOn? ['(', '\\', 's', '*', ',', '.', '*', ')', '?', '$'] false [] parts
        = some (all (finish :: optional (all [star (letter .blank), letter (.exactly ','),
            star (letter .any)]) :: parts).reverse) := rfl
  rw [read?, addressRegex, String.toList_append, String.toList_append, hlead, htail,
    List.append_assoc, hopen, regexLiteral, String.toList_ofList, readOn?_literal, hclose, ofAddress]
  simp

end Pattern

/-- The address is an element of the list, with white space of ASCII between it and the commas next
to it. No white space parts it from an end of the list. -/
def IsListed (value ip : List Char) : Prop :=
  ∃ before left right after,
    Text.splitOn ',' value = before ++ (left ++ ip ++ right) :: after ∧
      (∀ c ∈ left, isPatternBlank c = true) ∧ (∀ c ∈ right, isPatternBlank c = true) ∧
      (before = [] → left = []) ∧ (after = [] → right = [])

def IsLead (l : List Char) : Prop :=
  l = [] ∨ ∃ a left, l = a ++ ',' :: left ∧ '\n' ∉ a ∧ ∀ c ∈ left, isPatternBlank c = true

def IsTail (l : List Char) : Prop :=
  l = [] ∨ ∃ right b, l = right ++ ',' :: b ∧ (∀ c ∈ right, isPatternBlank c = true) ∧ '\n' ∉ b

namespace Pattern

theorem takes_any_iff {x : List Char} : (∀ c ∈ x, Letter.any.takes c = true) ↔ '\n' ∉ x := by
  simp only [Letter.takes, bne_iff_ne]
  exact ⟨fun h hm => h _ hm rfl, fun h c hc he => h (he ▸ hc)⟩

theorem takes_blank (c : Char) : Letter.blank.takes c = isPatternBlank c := rfl

variable {before x after : List Char}

theorem covers_all_cons_iff {p : Pattern} {ps : List Pattern} :
    Covers (all (p :: ps)) before x after ↔
      ∃ y z, x = y ++ z ∧ Covers p before y (z ++ after) ∧ Covers (all ps) (before ++ y) z after :=
  covers_both_iff

theorem covers_all_nil_iff : Covers (all []) before x after ↔ x = [] :=
  covers_empty_iff

theorem covers_lead_iff :
    Covers (optional (all [star (letter .any), letter (.exactly ','), star (letter .blank)]))
      before x after ↔ IsLead x := by
  rw [covers_optional_iff, IsLead]
  refine or_congr_right ?_
  simp only [covers_all_cons_iff, covers_all_nil_iff, covers_exactly_iff, covers_star_letter_iff,
    takes_any_iff, takes_blank]
  constructor
  · rintro ⟨a, u, rfl, ha, v, w, rfl, rfl, left, e, rfl, hleft, rfl⟩
    exact ⟨a, left, by simp, ha, hleft⟩
  · rintro ⟨a, left, rfl, ha, hleft⟩
    exact ⟨a, ',' :: left, rfl, ha, [','], left, rfl, rfl, left, [], by simp, hleft, rfl⟩

theorem covers_tail_iff :
    Covers (optional (all [star (letter .blank), letter (.exactly ','), star (letter .any)]))
      before x after ↔ IsTail x := by
  rw [covers_optional_iff, IsTail]
  refine or_congr_right ?_
  simp only [covers_all_cons_iff, covers_all_nil_iff, covers_exactly_iff, covers_star_letter_iff,
    takes_any_iff, takes_blank]
  constructor
  · rintro ⟨right, u, rfl, hright, v, w, rfl, rfl, b, e, rfl, hb, rfl⟩
    exact ⟨right, b, by simp, hright, hb⟩
  · rintro ⟨right, b, rfl, hright, hb⟩
    exact ⟨right, ',' :: b, rfl, hright, [','], b, rfl, rfl, b, [], by simp, hb, rfl⟩

/-- The anchors leave no text outside of what the pattern covers. -/
theorem matches_ofAddress_iff {ip : List Char} {value : String} :
    (ofAddress ip).Matches value ↔
      ∃ l r, value.toList = l ++ ip ++ r ∧ IsLead l ∧ IsTail r := by
  simp only [Matches, ofAddress, covers_all_append_iff, covers_word_iff, covers_all_cons_iff,
    covers_all_nil_iff, covers_start_iff, covers_finish_iff, covers_lead_iff, covers_tail_iff]
  constructor
  · rintro ⟨before, x, after, hv, y, z, rfl, ⟨u, v, rfl, ⟨s, t, rfl, ⟨rfl, rfl⟩, l, e, rfl, hl, rfl⟩,
      rfl⟩, r, w, rfl, hr, e', w', rfl, ⟨rfl, hafter⟩, rfl⟩
    obtain ⟨-, rfl⟩ := List.append_eq_nil_iff.1 hafter
    exact ⟨l, r, by simpa using hv, hl, hr⟩
  · rintro ⟨l, r, hv, hl, hr⟩
    refine ⟨[], l ++ ip ++ r, [], by simpa using hv, l ++ ip, r, rfl, ⟨l, ip, rfl, ?_, rfl⟩, ?_⟩
    · exact ⟨[], l, rfl, ⟨rfl, rfl⟩, l, [], by simp, hl, rfl⟩
    · exact ⟨r, [], by simp, hr, [], [], rfl, ⟨rfl, rfl⟩, rfl⟩

end Pattern

theorem comma_not_mem_of_blank {l : List Char} (h : ∀ c ∈ l, isPatternBlank c = true) : ',' ∉ l :=
  fun hm => absurd (h _ hm) (by decide)

section Listed
variable {ip value : List Char}

theorem isListed_of_parts (hip : ',' ∉ ip) {l r : List Char} (hl : IsLead l) (hr : IsTail r) :
    IsListed (l ++ ip ++ r) ip := by
  have hbare : Text.splitOn ',' ip = [ip] := Text.splitOn_of_not_mem hip
  have hmid (left right : List Char) (hleft : ∀ c ∈ left, isPatternBlank c = true)
      (hright : ∀ c ∈ right, isPatternBlank c = true) :
      Text.splitOn ',' (left ++ ip ++ right) = [left ++ ip ++ right] := by
    refine Text.splitOn_of_not_mem ?_
    simp [comma_not_mem_of_blank hleft, comma_not_mem_of_blank hright, hip]
  rcases hl with rfl | ⟨a, left, rfl, -, hleft⟩ <;> rcases hr with rfl | ⟨right, b, rfl, hright, -⟩
  · exact ⟨[], [], [], [], by simpa using hbare, by simp, by simp, fun _ => rfl, fun _ => rfl⟩
  · have hsplit := hmid [] right (by simp) hright
    refine ⟨[], [], right, Text.splitOn ',' b, ?_, by simp, hright, fun _ => rfl, ?_⟩
    · have h := Text.splitOn_around ',' ([] ++ ip ++ right) b
      rw [hsplit] at h
      simpa using h
    · exact fun h => absurd h (Text.splitOn_ne_nil _ _)
  · have hsplit := hmid left [] hleft (by simp)
    refine ⟨Text.splitOn ',' a, left, [], [], ?_, hleft, by simp, ?_, fun _ => rfl⟩
    · have h := Text.splitOn_around ',' a (left ++ ip ++ [])
      rw [hsplit] at h
      simpa using h
    · exact fun h => absurd h (Text.splitOn_ne_nil _ _)
  · refine ⟨Text.splitOn ',' a, left, right, Text.splitOn ',' b, ?_, hleft, hright, ?_, ?_⟩
    · have h := Text.splitOn_around ',' a (left ++ ip ++ right ++ ',' :: b)
      rw [Text.splitOn_around ',' (left ++ ip ++ right), hmid left right hleft hright] at h
      simpa using h
    · exact fun h => absurd h (Text.splitOn_ne_nil _ _)
    · exact fun h => absurd h (Text.splitOn_ne_nil _ _)

theorem exists_lead {before rest : List (List Char)} (hrest : rest ≠ []) (hline : '\n' ∉ value)
    (h : Text.splitOn ',' value = before ++ rest) :
    ∃ l v, value = l ++ v ∧ Text.splitOn ',' v = rest ∧
      (before = [] ∧ l = [] ∨ before ≠ [] ∧ ∃ a, l = a ++ [','] ∧ '\n' ∉ a) := by
  by_cases hb : before = []
  · subst hb
    exact ⟨[], value, rfl, h, .inl ⟨rfl, rfl⟩⟩
  · obtain ⟨a, v, rfl, -, hv⟩ := Text.exists_of_splitOn h hb hrest
    refine ⟨a ++ [','], v, by simp, hv, .inr ⟨hb, a, rfl, fun hm => hline ?_⟩⟩
    exact List.mem_append_left _ hm

theorem exists_tail {e : List Char} {after : List (List Char)} (hline : '\n' ∉ value)
    (h : Text.splitOn ',' value = e :: after) :
    ∃ r, value = e ++ r ∧
      (after = [] ∧ r = [] ∨ after ≠ [] ∧ ∃ b, r = ',' :: b ∧ '\n' ∉ b) := by
  by_cases ha : after = []
  · subst ha
    exact ⟨[], by simpa using Text.eq_of_splitOn_singleton h, .inl ⟨rfl, rfl⟩⟩
  · have h' : Text.splitOn ',' value = [e] ++ after := h
    obtain ⟨e', b, rfl, he, -⟩ := Text.exists_of_splitOn h' (List.cons_ne_nil _ _) ha
    rw [Text.eq_of_splitOn_singleton he]
    refine ⟨',' :: b, rfl, .inr ⟨ha, b, rfl, fun hm => hline ?_⟩⟩
    exact List.mem_append_right _ (List.mem_cons_of_mem _ hm)

theorem parts_of_isListed (hline : '\n' ∉ value) (h : IsListed value ip) :
    ∃ l r, value = l ++ ip ++ r ∧ IsLead l ∧ IsTail r := by
  obtain ⟨before, left, right, after, hsplit, hleft, hright, hfirst, hlast⟩ := h
  obtain ⟨l, v, rfl, hv, hl⟩ := exists_lead (List.cons_ne_nil _ _) hline hsplit
  have hline' : '\n' ∉ v := fun hm => hline (List.mem_append_right _ hm)
  obtain ⟨r, rfl, hr⟩ := exists_tail hline' hv
  refine ⟨l ++ left, right ++ r, by simp, ?_, ?_⟩
  · rcases hl with ⟨hb, rfl⟩ | ⟨-, a, rfl, ha⟩
    · exact .inl (hfirst hb)
    · exact .inr ⟨a, left, by simp, ha, hleft⟩
  · rcases hr with ⟨ha, rfl⟩ | ⟨-, b, rfl, hb⟩
    · exact .inl (by simpa using hlast ha)
    · exact .inr ⟨right, b, rfl, hright, hb⟩

end Listed

theorem isBlank_of_isPatternBlank {c : Char} (h : isPatternBlank c = true) :
    Text.isBlank c = true := by
  simp only [isPatternBlank, Bool.or_eq_true, beq_iff_eq] at h
  rcases h with (((rfl | rfl) | rfl) | rfl) | rfl <;> decide

/-- The list neither begins nor ends with white space, and has no white space but that of ASCII. -/
structure IsTidy (value : List Char) : Prop where
  first : ∀ c, value.head? = some c → Text.isBlank c = false
  last : ∀ c, value.getLast? = some c → Text.isBlank c = false
  ascii : ∀ c ∈ value, Text.isBlank c = true → isPatternBlank c = true

section Elements
variable {value ip : String}

theorem isForwardedFor_iff :
    isForwardedFor value ip = true ↔ ∃ e ∈ Text.splitOn ',' value.toList, Text.trim e = ip.toList := by
  simp [isForwardedFor]

theorem isForwardedFor_of_isListed (hip : ∀ c ∈ ip.toList, Text.isBlank c = false)
    (h : IsListed value.toList ip.toList) : isForwardedFor value ip = true := by
  obtain ⟨before, left, right, after, hsplit, hleft, hright, -, -⟩ := h
  refine isForwardedFor_iff.2 ⟨left ++ ip.toList ++ right, by simp [hsplit], ?_⟩
  exact Text.trim_around (fun c hc => isBlank_of_isPatternBlank (hleft c hc)) hip
    fun c hc => isBlank_of_isPatternBlank (hright c hc)

theorem isListed_of_isForwardedFor (ht : IsTidy value.toList) (hline : '\n' ∉ value.toList)
    (h : isForwardedFor value ip = true) : IsListed value.toList ip.toList := by
  obtain ⟨e, he, hip⟩ := isForwardedFor_iff.1 h
  obtain ⟨before, after, hsplit⟩ := List.append_of_mem he
  obtain ⟨left, right, hparts, hleft, hright⟩ := Text.exists_around_trim e
  rw [hip] at hparts
  obtain ⟨l, v, hvalue, hv, hl⟩ := exists_lead (List.cons_ne_nil _ _) hline hsplit
  have hline' : '\n' ∉ v := fun hm => hline (hvalue ▸ List.mem_append_right _ hm)
  obtain ⟨r, hrest, hr⟩ := exists_tail hline' hv
  have hwhole : value.toList = l ++ (left ++ ip.toList ++ right) ++ r := by
    rw [hvalue, hrest, hparts]
    simp
  refine ⟨before, left, right, after, hparts ▸ hsplit, fun c hc => ?_, fun c hc => ?_, ?_, ?_⟩
  · exact ht.ascii c (by simp [hwhole, hc]) (hleft c hc)
  · exact ht.ascii c (by simp [hwhole, hc]) (hright c hc)
  · -- white space in front of the first element would be the first of the list
    intro hb
    obtain ⟨-, rfl⟩ | ⟨hne, -⟩ := hl
    · cases left with
      | nil => rfl
      | cons c left =>
        have hc := ht.first c (by simp [hwhole])
        rw [hleft c List.mem_cons_self] at hc
        cases hc
    · exact absurd hb hne
  · intro ha
    obtain ⟨-, rfl⟩ | ⟨hne, -⟩ := hr
    · rcases List.eq_nil_or_concat right with rfl | ⟨right', c, rfl⟩
      · rfl
      · have hc := ht.last c (by simp [hwhole])
        rw [hright c (by simp)] at hc
        cases hc
    · exact absurd ha hne

end Elements

/-- For an address, the pattern matches the lists that hold it with white space of ASCII next to
commas only. Such a list holds it when split at its commas, and the other way round the pattern
matches a list that holds it if the list is tidy. -/
theorem addressPattern_matches_iff {ip value : String} (hip : Address.valid ip = true)
    (hline : '\n' ∉ value.toList) :
    ∃ p, Pattern.read? (addressRegex ip) = some p ∧
      (p.Matches value ↔ IsListed value.toList ip.toList) ∧
      (p.Matches value → isForwardedFor value ip = true) ∧
      (IsTidy value.toList → (p.Matches value ↔ isForwardedFor value ip = true)) := by
  have hblank : ∀ c ∈ ip.toList, Text.isBlank c = false := fun c hc =>
    Address.not_blank_of_isAddressChar (Address.isAddressChar_of_valid hip c hc)
  have hcomma : ',' ∉ ip.toList := fun hm =>
    absurd (Address.isAddressChar_of_valid hip _ hm) (by decide)
  have hlisted : (Pattern.ofAddress ip.toList).Matches value ↔ IsListed value.toList ip.toList := by
    rw [Pattern.matches_ofAddress_iff]
    constructor
    · rintro ⟨l, r, hv, hl, hr⟩
      exact hv ▸ isListed_of_parts hcomma hl hr
    · exact parts_of_isListed hline
  refine ⟨_, Pattern.read?_addressRegex ip, hlisted, fun h => ?_, fun ht => ⟨fun h => ?_, fun h => ?_⟩⟩
  · exact isForwardedFor_of_isListed hblank (hlisted.1 h)
  · exact isForwardedFor_of_isListed hblank (hlisted.1 h)
  · exact hlisted.2 (isListed_of_isForwardedFor ht hline h)

/-- White space between the elements of a list is no hindrance. -/
theorem addressPattern_matches_second :
    ∃ p, Pattern.read? (addressRegex "10.0.0.1") = some p ∧ p.Matches "10.0.0.2, 10.0.0.1" ∧
      isForwardedFor "10.0.0.2, 10.0.0.1" "10.0.0.1" = true := by
  have hvalid : Address.valid "10.0.0.1" = true := by decide +kernel
  have hline : '\n' ∉ "10.0.0.2, 10.0.0.1".toList := by decide
  have htidy : IsTidy "10.0.0.2, 10.0.0.1".toList :=
    { first := by simp; decide
      last := by simp; decide
      ascii := by simp; decide }
  have hfor : isForwardedFor "10.0.0.2, 10.0.0.1" "10.0.0.1" = true := by decide +kernel
  obtain ⟨p, hp, -, -, h⟩ := addressPattern_matches_iff hvalid hline
  exact ⟨p, hp, (h htidy).2 hfor, hfor⟩

/-- A list that begins with white space holds its first element, which the pattern does not match.
-/
theorem addressPattern_misses_spaced_first :
    Address.valid "10.0.0.1" = true ∧ '\n' ∉ " 10.0.0.1".toList ∧
      isForwardedFor " 10.0.0.1" "10.0.0.1" = true ∧
      ∃ p, Pattern.read? (addressRegex "10.0.0.1") = some p ∧ ¬p.Matches " 10.0.0.1" := by
  refine ⟨by decide +kernel, by decide, by decide +kernel, _, Pattern.read?_addressRegex _, ?_⟩
  rw [Pattern.matches_ofAddress_iff]
  rintro ⟨l, r, hv, hl, hr⟩
  -- nothing in this text is a comma, so that nothing may stand around the address
  have hcomma : ',' ∉ l ++ "10.0.0.1".toList ++ r := hv ▸ by decide
  have hl : l = [] := by
    rcases hl with rfl | ⟨a, left, rfl, -⟩
    · rfl
    · simp at hcomma
  have hr : r = [] := by
    rcases hr with rfl | ⟨right, b, rfl, -⟩
    · rfl
    · simp at hcomma
  subst hl hr
  exact absurd hv (by decide)

end MeshRollout

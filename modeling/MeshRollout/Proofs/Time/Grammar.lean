import MeshRollout.Proofs.Number.Digits
import MeshRollout.Proofs.Results
import MeshRollout.Proofs.Text.Split
import MeshRollout.Proofs.Time.Sums

/-!
Which texts denote durations, told by a grammar apart from the loop that reads them. The loop
accepts exactly the texts of the grammar, and what it gives is the sum of the components as far as
durations reach.
-/
set_option autoImplicit false

namespace MeshRollout

namespace TimeUnit

theorem isLetter_mark (u : TimeUnit) : ∀ l ∈ u.mark, Duration.isLetter l = true :=
  List.all_eq_true.1 (by cases u <;> decide)

theorem isDigit_of_mark (u : TimeUnit) (rest : List Char) :
    ∀ c ∈ (u.mark ++ rest).head?, Numeral.isDigit c = false := by
  cases u <;> simp [mark] <;> decide

end TimeUnit

namespace Duration

def IsLetter (c : Char) : Prop :=
  ('a' ≤ c ∧ c ≤ 'z') ∨ ('A' ≤ c ∧ c ≤ 'Z')

instance : DecidablePred IsLetter :=
  fun _ => inferInstanceAs (Decidable (_ ∨ _))

structure Component where
  digits : List Char
  unit : TimeUnit
  digits_ne_nil : digits ≠ []
  isDigit_digits : ∀ c ∈ digits, '0' ≤ c ∧ c ≤ '9'
  number_le : Nat.ofDigitChars 10 digits 0 ≤ Nat.pow 2 64 - 1

namespace Component

def number (c : Component) : Nat :=
  Nat.ofDigitChars 10 c.digits 0

def text (c : Component) : List Char :=
  c.digits ++ c.unit.mark

def millis (c : Component) : Nat :=
  c.number * c.unit.millis

end Component

/-- The components of a text in turn. The mark of a unit is all the letters behind a number. -/
inductive Spells : List Component → List Char → Prop where
  | nil : Spells [] []
  | cons (c : Component) {cs : List Component} {rest : List Char}
      (hmark : ∀ l ∈ rest.head?, ¬ IsLetter l) (hrest : Spells cs rest) :
      Spells (c :: cs) (c.text ++ rest)

def totalMillis (cs : List Component) : Nat :=
  (cs.map Component.millis).sum

section Components

theorem isDigit_iff {c : Char} : Numeral.isDigit c = true ↔ '0' ≤ c ∧ c ≤ '9' := by
  simp [Numeral.isDigit]

theorem isLetter_iff {c : Char} : isLetter c = true ↔ IsLetter c := by
  simp [isLetter, IsLetter]

theorem ofDigits_eq {ds : List Char} (h : ∀ c ∈ ds, '0' ≤ c ∧ c ≤ '9') :
    Numeral.ofDigits ds = Nat.ofDigitChars 10 ds 0 := by
  have hfrom (acc : Nat) :
      Numeral.digitsFrom? 10 acc ds = some (Nat.ofDigitChars 10 ds acc) := by
    induction ds generalizing acc with
    | nil => rfl
    | cons c ds ih =>
      obtain ⟨hc, hds⟩ := List.forall_mem_cons.1 h
      have hvalue : Numeral.digitValue? c = some (c.toNat - '0'.toNat) := by
        simp [Numeral.digitValue?, hc]
      have hle : c.toNat ≤ '9'.toNat := hc.2
      have hlt : c.toNat - '0'.toNat < 10 := by
        have hnine : '9'.toNat = '0'.toNat + 9 := rfl
        omega
      rw [Numeral.digitsFrom?, hvalue, Nat.ofDigitChars_cons]
      simp only [hlt, if_true]
      rw [Nat.mul_comm]
      exact ih hds _
  rw [Numeral.ofDigits, hfrom, Option.getD_some]

theorem ofUnit_eq_ok_iff {n : Nat} {unit : List Char} {d : Duration} :
    ofUnit n unit = .ok d ↔ ∃ u : TimeUnit, unit = u.mark ∧ d = u.duration n := by
  constructor
  · intro h
    unfold ofUnit at h
    split_ifs at h with hh hm hs hms hnone
    · exact ⟨.hour, hh, (Except.ok.inj h).symm⟩
    · exact ⟨.minute, hm, (Except.ok.inj h).symm⟩
    · exact ⟨.second, hs, (Except.ok.inj h).symm⟩
    · exact ⟨.millisecond, hms, (Except.ok.inj h).symm⟩
  · rintro ⟨u, rfl, rfl⟩
    cases u <;> rfl

theorem component_eq (cs : List Char) :
    component cs =
      if cs.takeWhile Numeral.isDigit = [] then .error .noNumber
      else if Nat.pow 2 64 ≤ Numeral.ofDigits (cs.takeWhile Numeral.isDigit) then .error .tooLarge
      else
        (ofUnit (Numeral.ofDigits (cs.takeWhile Numeral.isDigit))
          ((cs.dropWhile Numeral.isDigit).takeWhile isLetter)).map
            fun d => (d, (cs.dropWhile Numeral.isDigit).dropWhile isLetter) := by
  simp only [component, Numeral.spanDigits, List.isEmpty_iff, ge_iff_le]
  by_cases hnone : cs.takeWhile Numeral.isDigit = []
  · simp only [hnone, if_true]
    split <;> rfl
  by_cases hlarge : Nat.pow 2 64 ≤ Numeral.ofDigits (cs.takeWhile Numeral.isDigit)
  · simp only [hnone, hlarge, if_true, if_false]
    rfl
  · simp only [hnone, hlarge, if_false]
    cases ofUnit (Numeral.ofDigits (cs.takeWhile Numeral.isDigit))
        ((cs.dropWhile Numeral.isDigit).takeWhile isLetter) <;> rfl

theorem component_eq_ok_iff {cs rest : List Char} {d : Duration} :
    component cs = .ok (d, rest) ↔
      ∃ c : Component, cs = c.text ++ rest ∧ (∀ l ∈ rest.head?, ¬ IsLetter l) ∧
        d = c.unit.duration c.number := by
  rw [component_eq]
  constructor
  · intro h
    split_ifs at h with hnone hlarge
    have hdigits : ∀ c ∈ cs.takeWhile Numeral.isDigit, '0' ≤ c ∧ c ≤ '9' :=
      fun c hc => isDigit_iff.1 (List.all_eq_true.1 List.all_takeWhile c hc)
    rw [ofDigits_eq hdigits] at h hlarge
    obtain ⟨d', hunit, he⟩ := map_eq_ok_iff.1 h
    obtain ⟨rfl, rfl⟩ := Prod.mk.inj he
    obtain ⟨u, hmark, rfl⟩ := ofUnit_eq_ok_iff.1 hunit
    refine ⟨⟨cs.takeWhile Numeral.isDigit, u, hnone, hdigits, by omega⟩, ?_, ?_, rfl⟩
    · rw [Component.text, ← hmark, List.append_assoc, List.takeWhile_append_dropWhile,
        List.takeWhile_append_dropWhile]
    · intro l hl hletter
      exact absurd (isLetter_iff.2 hletter) (by simp [Text.stop_of_dropWhile l hl])
  · rintro ⟨c, rfl, hmark, rfl⟩
    have hdigits : ∀ x ∈ c.digits, Numeral.isDigit x = true :=
      fun x hx => isDigit_iff.2 (c.isDigit_digits x hx)
    have hstop : ∀ x ∈ (c.unit.mark ++ rest).head?, Numeral.isDigit x = false :=
      c.unit.isDigit_of_mark rest
    have hend : ∀ l ∈ rest.head?, isLetter l = false :=
      fun l hl => Bool.eq_false_iff.2 fun h => hmark l hl (isLetter_iff.1 h)
    have hfits : ¬ Nat.pow 2 64 ≤ Nat.ofDigitChars 10 c.digits 0 := by
      have hle := c.number_le
      have hpos : 0 < Nat.pow 2 64 := by decide
      omega
    rw [Component.text, List.append_assoc, Text.takeWhile_append_of_stop hdigits hstop,
      Text.dropWhile_append_of_stop hdigits hstop,
      Text.takeWhile_append_of_stop c.unit.isLetter_mark hend,
      Text.dropWhile_append_of_stop c.unit.isLetter_mark hend, ofDigits_eq c.isDigit_digits,
      if_neg c.digits_ne_nil, if_neg hfits, ofUnit_eq_ok_iff.2 ⟨c.unit, rfl, rfl⟩]
    rfl

end Components

section Loop
variable {text : List Char} {cs : List Component} {total d : Duration} {fuel m : Nat}

theorem Component.length_text_pos (c : Component) : 0 < c.text.length := by
  have hpos := List.length_pos_iff.2 c.digits_ne_nil
  rw [Component.text, List.length_append]
  omega

theorem length_lt_of_component {rest : List Char} (h : component text = .ok (d, rest)) :
    rest.length < text.length := by
  obtain ⟨c, rfl, -, -⟩ := component_eq_ok_iff.1 h
  have hpos := c.length_text_pos
  rw [List.length_append]
  omega

theorem Spells.eq_nil_iff (h : Spells cs text) : cs = [] ↔ text = [] := by
  cases h with
  | nil => simp
  | cons c _ _ => simp [List.length_pos_iff.1 c.length_text_pos]

theorem sum_of_ne_nil (h : text ≠ []) :
    sum (fuel + 1) total text = component text >>= fun p => sum fuel (total.add p.1) p.2 := by
  cases text with
  | nil => exact absurd rfl h
  | cons c text => rfl

theorem sum_nil : sum fuel total [] = .ok total := by
  cases fuel <;> rfl

/-- Each round takes a character at least, so the loop ends by itself. -/
theorem sum_congr_fuel {fuel' : Nat} (h : text.length ≤ fuel) (h' : text.length ≤ fuel') :
    sum fuel total text = sum fuel' total text := by
  induction fuel generalizing text total fuel' with
  | zero => rw [List.length_eq_zero_iff.1 (Nat.le_zero.1 h), sum_nil, sum_nil]
  | succ fuel ih =>
    by_cases hne : text = []
    · rw [hne, sum_nil, sum_nil]
    have hlen := List.length_pos_iff.2 hne
    obtain ⟨fuel', rfl⟩ := Nat.exists_eq_succ_of_ne_zero (show fuel' ≠ 0 by omega)
    rw [sum_of_ne_nil hne, sum_of_ne_nil hne]
    cases hc : component text with
    | error e => rfl
    | ok p =>
      have hshorter := length_lt_of_component hc
      exact ih (by omega) (by omega)

theorem sum_of_spells (h : Spells cs text) (hfuel : text.length ≤ fuel) (hm : total.Measures m) :
    ∃ d, sum fuel total text = .ok d ∧ d.Measures (m + totalMillis cs) := by
  induction h generalizing fuel total m with
  | nil => exact ⟨total, sum_nil, hm⟩
  | @cons c cs rest hmark hrest ih =>
    have hpos := c.length_text_pos
    rw [List.length_append] at hfuel
    obtain ⟨fuel, rfl⟩ := Nat.exists_eq_succ_of_ne_zero (show fuel ≠ 0 by omega)
    have hround : component (c.text ++ rest) = .ok (c.unit.duration c.number, rest) :=
      component_eq_ok_iff.2 ⟨c, rfl, hmark, rfl⟩
    have hne : c.text ++ rest ≠ [] :=
      List.append_ne_nil_of_left_ne_nil (List.length_pos_iff.1 hpos) rest
    have hadd : (total.add (c.unit.duration c.number)).Measures (m + c.millis) :=
      hm.add (measures_duration c.unit c.number_le)
    have hleft : rest.length ≤ fuel := by omega
    obtain ⟨d, hd, hmeasures⟩ := ih hleft hadd
    refine ⟨d, ?_, ?_⟩
    · rw [sum_of_ne_nil hne, hround]
      exact hd
    · rwa [totalMillis, List.map_cons, List.sum_cons, ← Nat.add_assoc]

theorem spells_of_sum (hfuel : text.length ≤ fuel) (h : sum fuel total text = .ok d) :
    ∃ cs, Spells cs text := by
  induction fuel generalizing text total with
  | zero => exact ⟨[], List.length_eq_zero_iff.1 (Nat.le_zero.1 hfuel) ▸ .nil⟩
  | succ fuel ih =>
    by_cases hne : text = []
    · exact ⟨[], hne ▸ .nil⟩
    rw [sum_of_ne_nil hne] at h
    cases hc : component text with
    | error e =>
      rw [hc] at h
      cases h
    | ok p =>
      rw [hc] at h
      have hshorter := length_lt_of_component hc
      obtain ⟨cs, hcs⟩ := ih (by omega) h
      obtain ⟨c, rfl, hmark, -⟩ := component_eq_ok_iff.1 hc
      exact ⟨c :: cs, .cons c hmark hcs⟩

end Loop

section Reading
variable {s : String} {cs : List Component} {d : Duration}

theorem readTrimmed_eq (text : List Char) :
    readTrimmed text =
      if text = [] then .error .empty
      else (sum text.length ⟨0, 0⟩ text).bind fun total =>
        if total = ⟨0, 0⟩ then .error .zero else .ok total := by
  rw [readTrimmed]
  cases text with
  | nil => rfl
  | cons c text =>
    cases sum (c :: text).length ⟨0, 0⟩ (c :: text) with
    | error e => rfl
    | ok total =>
      by_cases hzero : total = ⟨0, 0⟩
      · subst hzero
        rfl
      · simp [hzero, bind, Except.bind, pure, Except.pure]

theorem read_eq_ok_iff :
    read s = .ok d ↔ Text.trim s.toList ≠ [] ∧
      sum (Text.trim s.toList).length ⟨0, 0⟩ (Text.trim s.toList) = .ok d ∧ d ≠ ⟨0, 0⟩ := by
  rw [read, readTrimmed_eq]
  by_cases hempty : Text.trim s.toList = []
  · simp [hempty]
  rw [if_neg hempty]
  cases sum (Text.trim s.toList).length ⟨0, 0⟩ (Text.trim s.toList) with
  | error e => simp [Except.bind]
  | ok total =>
    rw [Except.bind]
    by_cases hzero : total = ⟨0, 0⟩
    · rw [if_pos hzero]
      constructor
      · rintro ⟨⟩
      · rintro ⟨-, ⟨⟩, hpos⟩
        exact absurd hzero hpos
    · rw [if_neg hzero]
      constructor
      · rintro ⟨⟩
        exact ⟨hempty, rfl, hzero⟩
      · rintro ⟨-, h, -⟩
        exact h

theorem measures_of_read (hd : read s = .ok d) (h : Spells cs (Text.trim s.toList)) :
    d.Measures (totalMillis cs) := by
  have hzero : (⟨0, 0⟩ : Duration).Measures 0 := measures_ofMillis (Nat.zero_le _)
  obtain ⟨total, hsum, htotal⟩ := sum_of_spells h (Nat.le_refl _) hzero
  obtain rfl : total = d := Except.ok.inj (hsum.symm.trans (read_eq_ok_iff.1 hd).2.1)
  rwa [Nat.zero_add] at htotal

theorem exists_spells_of_read (hd : read s = .ok d) :
    ∃ cs, cs ≠ [] ∧ Spells cs (Text.trim s.toList) ∧ totalMillis cs ≠ 0 := by
  obtain ⟨hne, hsum, hpos⟩ := read_eq_ok_iff.1 hd
  obtain ⟨cs, hcs⟩ := spells_of_sum (Nat.le_refl _) hsum
  exact ⟨cs, mt hcs.eq_nil_iff.1 hne, hcs,
    fun hzero => hpos ((measures_of_read hd hcs).eq_zero_iff.2 hzero)⟩

theorem read_of_spells (h : Spells cs (Text.trim s.toList)) (hpos : totalMillis cs ≠ 0) :
    ∃ d, read s = .ok d := by
  have hzero : (⟨0, 0⟩ : Duration).Measures 0 := measures_ofMillis (Nat.zero_le _)
  obtain ⟨d, hsum, hd⟩ := sum_of_spells h (Nat.le_refl _) hzero
  rw [Nat.zero_add] at hd
  refine ⟨d, read_eq_ok_iff.2 ⟨fun hempty => hpos ?_, hsum, mt hd.eq_zero_iff.1 hpos⟩⟩
  rw [h.eq_nil_iff.2 hempty]
  rfl

/-- Each round of the loop leaves a shorter text, so it ends by itself before its fuel is used up.
It gives a duration exactly if the text without white space around it is made of components, at
least one, whose sum is not zero. The duration is their sum; a sum from `2 ^ 64` seconds up gives a
duration of at least the longest number of seconds. -/
theorem read_accepts_grammar (s : String) :
    (∀ text d rest, component text = .ok (d, rest) → rest.length < text.length) ∧
    (∀ fuel total, (Text.trim s.toList).length ≤ fuel →
      sum fuel total (Text.trim s.toList)
        = sum (Text.trim s.toList).length total (Text.trim s.toList)) ∧
    ((∃ d, read s = .ok d) ↔
      ∃ cs, cs ≠ [] ∧ Spells cs (Text.trim s.toList) ∧ totalMillis cs ≠ 0) ∧
    ∀ cs d, Spells cs (Text.trim s.toList) → read s = .ok d →
      (totalMillis cs < Nat.pow 2 64 * 1000 →
        d.seconds * 1000000000 + d.nanos = totalMillis cs * 1000000) ∧
      (Nat.pow 2 64 * 1000 ≤ totalMillis cs → Nat.pow 2 64 - 1 ≤ d.seconds) := by
  have hlimit : (maxSeconds + 1) * 1000 = Nat.pow 2 64 * 1000 := by decide
  refine ⟨fun _ _ _ h => length_lt_of_component h,
    fun fuel total h => sum_congr_fuel h (Nat.le_refl _), ⟨?_, ?_⟩, fun cs d hcs hd => ?_⟩
  · rintro ⟨d, hd⟩
    exact exists_spells_of_read hd
  · rintro ⟨cs, -, hcs, hpos⟩
    exact read_of_spells hcs hpos
  · have hmeasures := measures_of_read hd hcs
    rw [← hlimit]
    constructor
    · intro h
      rw [hmeasures.exact h]
      simp only
      omega
    · intro h
      rcases hmeasures.cut h with rfl | ⟨k, -, rfl⟩ <;> exact Nat.le_refl _

end Reading

def longHours : Component where
  digits := "5124095576030432".toList
  unit := .hour
  digits_ne_nil := by decide
  isDigit_digits c hc := isDigit_iff.1 (List.all_eq_true.1 (by decide) c hc)
  number_le := by decide

def oneMilli : Component where
  digits := ['1']
  unit := .millisecond
  digits_ne_nil := by decide
  isDigit_digits c hc := isDigit_iff.1 (List.all_eq_true.1 (by decide) c hc)
  number_le := by decide

theorem longHours_accepted :
    ∃ d, read "5124095576030432h1ms" = .ok d ∧ Nat.pow 2 64 - 1 ≤ d.seconds := by
  have htext :
      Text.trim "5124095576030432h1ms".toList = longHours.text ++ (oneMilli.text ++ []) := by
    decide +kernel
  have hmark : ∀ l ∈ (oneMilli.text ++ []).head?, ¬ IsLetter l := by
    rintro l ⟨⟩
    decide
  have hspells : Spells [longHours, oneMilli] (Text.trim "5124095576030432h1ms".toList) := by
    rw [htext]
    exact .cons _ hmark (.cons _ nofun .nil)
  obtain ⟨-, -, haccepted, hsum⟩ := read_accepts_grammar "5124095576030432h1ms"
  obtain ⟨d, hd⟩ := haccepted.2 ⟨_, List.cons_ne_nil _ _, hspells, by decide +kernel⟩
  exact ⟨d, hd, (hsum _ d hspells hd).2 (by decide +kernel)⟩

end Duration

end MeshRollout

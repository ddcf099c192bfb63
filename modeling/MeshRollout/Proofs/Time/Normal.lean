import MeshRollout.Proofs.Name
import MeshRollout.Proofs.Text.Split
import MeshRollout.Proofs.Time.Grammar
import MeshRollout.Proofs.Yaml.Words

/-!
The normal form of a duration: whole seconds, or milliseconds where seconds are too coarse. It reads
back as the duration, unless its milliseconds are beyond what a number may be. Two durations share a
normal form only at the very end, where the fraction of the longest one is not whole milliseconds.
-/
set_option autoImplicit false

namespace MeshRollout.Duration

structure Attained (d : Duration) : Prop where
  ne_zero : d ≠ ⟨0, 0⟩
  seconds_le : d.seconds ≤ maxSeconds
  nanos : d = longest ∨ ∃ k < 1000, d.nanos = k * 1000000

/-- The duration whose fraction is the most whole milliseconds behind the most seconds. -/
def longestOfMillis : Duration := ⟨maxSeconds, 999000000⟩

def FitsNormalForm (d : Duration) : Prop :=
  d.nanos = 0 ∨ d.millis < Nat.pow 2 64

instance (d : Duration) : Decidable d.FitsNormalForm :=
  inferInstanceAs (Decidable (_ ∨ _))

section Attained
variable {s : String} {d e : Duration}

theorem attained_of_read (h : read s = .ok d) : d.Attained := by
  obtain ⟨cs, -, hcs, -⟩ := exists_spells_of_read h
  have hne := (read_eq_ok_iff.1 h).2.2
  rcases (measures_of_read h hcs).eq_longest_or with rfl | ⟨s, k, hk, hs, rfl⟩
  · exact ⟨hne, Nat.le_refl _, .inl rfl⟩
  · exact ⟨hne, hs, .inr ⟨k, hk, rfl⟩⟩

theorem normalize_eq_ok_iff {t : String} :
    normalize s = .ok t ↔ ∃ d, read s = .ok d ∧ d.text = t :=
  map_eq_ok_iff

def ofNumber (n : Nat) (u : TimeUnit) (h : n ≤ Nat.pow 2 64 - 1) : Component where
  digits := Nat.toDigits 10 n
  unit := u
  digits_ne_nil := Nat.toDigits_ne_nil
  isDigit_digits _ hc := isDigit_iff.1 (Numeral.isDigit_of_mem hc)
  number_le := by rwa [Nat.ofDigitChars_ten_toDigits]

theorem toList_text (d : Duration) :
    d.text.toList =
      if d.nanos = 0 then Nat.toDigits 10 d.seconds ++ TimeUnit.second.mark
      else Nat.toDigits 10 d.millis ++ TimeUnit.millisecond.mark := by
  rw [text]
  split_ifs <;> simp [String.toList_append, TimeUnit.mark]

theorem not_blank_of_digit {c : Char} (h : '0' ≤ c ∧ c ≤ '9') : Text.isBlank c = false := by
  have hlow : '0'.toNat ≤ c.toNat := h.1
  have hhigh : c.toNat ≤ '9'.toNat := h.2
  simp only [Char.reduceToNat] at hlow hhigh
  simp [Text.isBlank]
  omega

theorem trim_numbered (n : Nat) (u : TimeUnit) :
    Text.trim (Nat.toDigits 10 n ++ u.mark) = Nat.toDigits 10 n ++ u.mark := by
  have hmark : ∀ c ∈ u.mark, Text.isBlank c = false := by
    have hall : u.mark.all (fun c => !Text.isBlank c) = true := by cases u <;> decide
    simpa using hall
  refine Text.trim_of_not_blank fun c hc => ?_
  rcases List.mem_append.1 hc with hc | hc
  · exact not_blank_of_digit (isDigit_iff.1 (Numeral.isDigit_of_mem hc))
  · exact hmark c hc

theorem spells_ofNumber (n : Nat) (u : TimeUnit) (h : n ≤ Nat.pow 2 64 - 1) :
    Spells [ofNumber n u h] (Nat.toDigits 10 n ++ u.mark) := by
  have hcons : Spells [ofNumber n u h] ((ofNumber n u h).text ++ []) := .cons _ (by simp) .nil
  rwa [List.append_nil] at hcons

theorem read_numbered {n : Nat} {u : TimeUnit} (hs : s.toList = Nat.toDigits 10 n ++ u.mark)
    (hn : n ≤ maxSeconds) (hpos : n * u.millis ≠ 0)
    (hlimit : n * u.millis < (maxSeconds + 1) * 1000) :
    read s = .ok ⟨n * u.millis / 1000, n * u.millis % 1000 * 1000000⟩ := by
  have htotal : totalMillis [ofNumber n u hn] = n * u.millis := by
    simp [totalMillis, Component.millis, Component.number, ofNumber]
  have hspells : Spells [ofNumber n u hn] (Text.trim s.toList) := by
    rw [hs, trim_numbered]
    exact spells_ofNumber n u hn
  obtain ⟨d, hd⟩ := read_of_spells hspells (by rwa [htotal])
  have hmeasures := measures_of_read hd hspells
  rw [htotal] at hmeasures
  rw [hd, hmeasures.exact hlimit]

theorem read_numbered_of_large {n : Nat} {u : TimeUnit}
    (hs : s.toList = Nat.toDigits 10 n ++ u.mark) (hn : Nat.pow 2 64 ≤ n) :
    read s = .error .tooLarge := by
  have hdigits : ∀ c ∈ Nat.toDigits 10 n, Numeral.isDigit c = true :=
    fun c hc => Numeral.isDigit_of_mem hc
  have htake : (Nat.toDigits 10 n ++ u.mark).takeWhile Numeral.isDigit = Nat.toDigits 10 n := by
    have hstop := u.isDigit_of_mark []
    rw [List.append_nil] at hstop
    exact Text.takeWhile_append_of_stop hdigits hstop
  have hround : component (Nat.toDigits 10 n ++ u.mark) = .error .tooLarge := by
    rw [component_eq, htake, if_neg Nat.toDigits_ne_nil,
      ofDigits_eq fun c hc => isDigit_iff.1 (hdigits c hc), Nat.ofDigitChars_ten_toDigits,
      if_pos hn]
  have hne : Nat.toDigits 10 n ++ u.mark ≠ [] :=
    List.append_ne_nil_of_left_ne_nil Nat.toDigits_ne_nil _
  obtain ⟨k, hk⟩ := Nat.exists_eq_succ_of_ne_zero (mt List.length_eq_zero_iff.1 hne)
  rw [read, hs, trim_numbered, readTrimmed_eq, if_neg hne, hk, sum_of_ne_nil hne, hround]
  rfl

theorem Attained.read_text (h : d.Attained) (hfits : d.FitsNormalForm) : read d.text = .ok d := by
  obtain ⟨seconds, nanos⟩ := d
  have htext := toList_text ⟨seconds, nanos⟩
  have hle : seconds ≤ maxSeconds := h.seconds_le
  by_cases hnanos : nanos = 0
  · subst hnanos
    have hseconds : seconds ≠ 0 := fun hzero => h.ne_zero (by rw [hzero])
    rw [if_pos rfl] at htext
    rw [read_numbered htext hle]
    all_goals simp only [TimeUnit.millis, Except.ok.injEq, mk.injEq]
    all_goals omega
  · have hmillis : (Duration.mk seconds nanos).millis < Nat.pow 2 64 := hfits.resolve_left hnanos
    -- the longest duration is too long for milliseconds, so the fraction is whole milliseconds
    have hlarge : ¬ longest.millis < Nat.pow 2 64 := by decide
    obtain ⟨k, hk, hfraction⟩ := h.nanos.resolve_left fun he => hlarge (he ▸ hmillis)
    rw [if_neg hnanos] at htext
    simp only [millis] at htext hmillis hfraction
    have hmax : Nat.pow 2 64 = maxSeconds + 1 := by decide
    rw [read_numbered htext (by omega)]
    all_goals simp only [TimeUnit.millis, Except.ok.injEq, mk.injEq]
    all_goals omega

theorem read_text_of_not_fits (h : ¬ d.FitsNormalForm) : read d.text = .error .tooLarge := by
  obtain ⟨hnanos, hmillis⟩ := not_or.1 h
  have htext := toList_text d
  rw [if_neg hnanos] at htext
  exact read_numbered_of_large htext (Nat.not_lt.1 hmillis)

theorem Attained.fraction (h : d.Attained) :
    d.nanos / 1000000 < 1000 ∧ (d.nanos / 1000000 = 0 ↔ d.nanos = 0) := by
  rcases h.nanos with rfl | ⟨k, hk, hnanos⟩
  · decide
  · omega

theorem seconds_ne_millis (m n : Nat) : toString m ++ "s" ≠ toString n ++ "ms" := by
  intro h
  have hl : (toString m).toList ++ ['s'] = (toString n).toList ++ ['m'] ++ ['s'] := by
    simpa using congrArg String.toList h
  have hm : 'm' ∈ (toString m).toList := by
    rw [List.append_cancel_right hl]
    exact List.mem_append_right _ List.mem_cons_self
  exact absurd (isDigit_of_mem_number hm) (by decide)

/-- Texts tell durations apart by their whole milliseconds. -/
theorem Attained.text_eq_iff (hd : d.Attained) (he : e.Attained) :
    d.text = e.text ↔ d.millis = e.millis := by
  have hfd := hd.fraction
  have hfe := he.fraction
  rw [text, text]
  by_cases hzd : d.nanos = 0 <;> by_cases hze : e.nanos = 0
  · rw [if_pos hzd, if_pos hze, String.append_left_inj]
    have hseconds : d.millis = e.millis ↔ d.seconds = e.seconds := by
      simp only [millis]
      omega
    rw [hseconds]
    exact ⟨number_inj, congrArg _⟩
  · rw [if_pos hzd, if_neg hze]
    refine iff_of_false (seconds_ne_millis _ _) ?_
    simp only [millis]
    omega
  · rw [if_neg hzd, if_pos hze]
    refine iff_of_false (seconds_ne_millis _ _).symm ?_
    simp only [millis]
    omega
  · rw [if_neg hzd, if_neg hze, String.append_left_inj]
    exact ⟨number_inj, congrArg _⟩

theorem Attained.millis_eq_iff (hd : d.Attained) (he : e.Attained) :
    d.millis = e.millis ↔
      d = e ∨ d = longest ∧ e = longestOfMillis ∨ d = longestOfMillis ∧ e = longest := by
  obtain ⟨m, x⟩ := d
  obtain ⟨n, y⟩ := e
  have hm : m ≤ maxSeconds := hd.seconds_le
  have hn : n ≤ maxSeconds := he.seconds_le
  have hx := hd.nanos
  have hy := he.nanos
  simp only [millis, longest, longestOfMillis, Duration.mk.injEq] at hx hy ⊢
  rcases hx with hx | ⟨j, hj, hx⟩ <;> rcases hy with hy | ⟨k, hk, hy⟩ <;> omega

end Attained

/-- The normal form of an accepted text reads back as the duration exactly if the duration is whole
seconds or shorter than `2 ^ 64` milliseconds, and is refused as too large otherwise; so the same
durations are those that normalizing leaves as they are. Two accepted texts have the same normal
form exactly if they denote the same duration, but for the longest duration of all and the longest
one of whole milliseconds. -/
theorem normal_form_reads_back {s s' : String} {d d' : Duration} (hd : read s = .ok d)
    (hd' : read s' = .ok d') :
    (read d.text = .ok d ↔ d.FitsNormalForm) ∧
    (¬ d.FitsNormalForm → read d.text = .error .tooLarge) ∧
    (∀ t, normalize s = .ok t → (normalize t = .ok t ↔ d.FitsNormalForm)) ∧
    (normalize s = normalize s' ↔
      d = d' ∨ d = longest ∧ d' = longestOfMillis ∨ d = longestOfMillis ∧ d' = longest) := by
  have ha := attained_of_read hd
  have ha' := attained_of_read hd'
  have hfits {e : Duration} (h : read d.text = .ok e) : d.FitsNormalForm := by
    by_contra hlarge
    rw [read_text_of_not_fits hlarge] at h
    cases h
  refine ⟨⟨hfits, ha.read_text⟩, read_text_of_not_fits, fun t ht => ?_, ?_⟩
  · rw [normalize, hd] at ht
    obtain rfl := Except.ok.inj ht
    rw [normalize_eq_ok_iff]
    constructor
    · rintro ⟨e, he, -⟩
      exact hfits he
    · exact fun h => ⟨d, ha.read_text h, rfl⟩
  · rw [normalize, normalize, hd, hd', ← ha.millis_eq_iff ha', ← ha.text_eq_iff ha']
    exact ⟨Except.ok.inj, congrArg _⟩

theorem mostMillis_read_back :
    read "18446744073709551s615ms" = .ok ⟨18446744073709551, 615000000⟩ ∧
    read " 18446744073709551615ms" = .ok ⟨18446744073709551, 615000000⟩ ∧
    read "18446744073709551615ms" = .ok ⟨18446744073709551, 615000000⟩ ∧
    normalize "18446744073709551s615ms" = normalize " 18446744073709551615ms" := by
  have hs : read "18446744073709551s615ms" = .ok ⟨18446744073709551, 615000000⟩ := by
    decide +kernel
  have hs' : read " 18446744073709551615ms" = .ok ⟨18446744073709551, 615000000⟩ := by
    decide +kernel
  obtain ⟨hback, -, -, hsame⟩ := normal_form_reads_back hs hs'
  have htext : text ⟨18446744073709551, 615000000⟩ = "18446744073709551615ms" := by decide +kernel
  exact ⟨hs, hs', htext ▸ hback.2 (by decide), hsame.2 (.inl rfl)⟩

/-- Past `2 ^ 64` milliseconds a normal form need not read back, and at the very end two durations
share theirs. -/
theorem long_durations_not_read_back :
    (read "18446744073709552s1ms" = .ok ⟨18446744073709552, 1000000⟩ ∧
      normalize "18446744073709552s1ms" = .ok "18446744073709552001ms" ∧
      read "18446744073709552001ms" = .error .tooLarge) ∧
    (read "18446744073709551615s1s" = .ok longest ∧
      read "18446744073709551615s999ms" = .ok longestOfMillis ∧ longest ≠ longestOfMillis ∧
      normalize "18446744073709551615s1s" = normalize "18446744073709551615s999ms") := by
  decide +kernel

end MeshRollout.Duration

import MeshRollout.Time.Duration

/-!
Sums of durations against sums of milliseconds. A sum is exact as long as its seconds fit in 64
bits; a longer one is cut, and it stays cut whatever is added to it.
-/
set_option autoImplicit false

namespace MeshRollout

inductive TimeUnit where
  | hour
  | minute
  | second
  | millisecond
  deriving DecidableEq, Repr

namespace TimeUnit

def mark : TimeUnit → List Char
  | .hour => ['h']
  | .minute => ['m']
  | .second => ['s']
  | .millisecond => ['m', 's']

def millis : TimeUnit → Nat
  | .hour => 3600000
  | .minute => 60000
  | .second => 1000
  | .millisecond => 1

def duration (n : Nat) : TimeUnit → Duration
  | .hour => .ofSeconds (n * 3600)
  | .minute => .ofSeconds (n * 60)
  | .second => .ofSeconds n
  | .millisecond => .ofMillis n

end TimeUnit

namespace Duration

def IsCut (d : Duration) : Prop :=
  d = longest ∨ ∃ k < 1000, d = ⟨maxSeconds, k * 1000000⟩

/-- The duration of a number of milliseconds, cut where it is too long. -/
structure Measures (d : Duration) (n : Nat) : Prop where
  exact : n < (maxSeconds + 1) * 1000 → d = ⟨n / 1000, n % 1000 * 1000000⟩
  cut : (maxSeconds + 1) * 1000 ≤ n → d.IsCut

section Sums
variable {a b d : Duration} {m n : Nat}

theorem measures_ofMillis (hn : n ≤ maxSeconds) : (ofMillis n).Measures n where
  exact _ := rfl
  cut h := by omega

theorem measures_ofSeconds (n : Nat) : (ofSeconds n).Measures (n * 1000) where
  exact h := by
    have hle : n ≤ maxSeconds := by omega
    rw [ofSeconds, Nat.min_eq_left hle]
    simp
  cut h := by
    have hle : maxSeconds ≤ n := Nat.le_of_succ_le (Nat.le_of_mul_le_mul_right h (by decide))
    refine .inr ⟨0, by decide, ?_⟩
    rw [ofSeconds, Nat.min_eq_right hle]

theorem measures_duration (u : TimeUnit) (hn : n ≤ maxSeconds) :
    (u.duration n).Measures (n * u.millis) := by
  cases u with
  | hour =>
    have h := measures_ofSeconds (n * 3600)
    rwa [Nat.mul_assoc] at h
  | minute =>
    have h := measures_ofSeconds (n * 60)
    rwa [Nat.mul_assoc] at h
  | second => exact measures_ofSeconds n
  | millisecond => simpa [TimeUnit.duration, TimeUnit.millis] using measures_ofMillis hn

theorem add_comm (a b : Duration) : a.add b = b.add a := by
  simp only [add, Nat.add_comm]

theorem add_of_le (h : a.seconds + b.seconds + (a.nanos + b.nanos) / 1000000000 ≤ maxSeconds) :
    a.add b = ⟨a.seconds + b.seconds + (a.nanos + b.nanos) / 1000000000,
      (a.nanos + b.nanos) % 1000000000⟩ :=
  if_neg (Nat.not_lt.2 h)

theorem add_of_lt (h : maxSeconds < a.seconds + b.seconds + (a.nanos + b.nanos) / 1000000000) :
    a.add b = longest :=
  if_pos h

theorem longest_add (b : Duration) : longest.add b = longest := by
  by_cases h : maxSeconds < maxSeconds + b.seconds + (999999999 + b.nanos) / 1000000000
  · exact add_of_lt h
  · rw [add_of_le (Nat.not_lt.1 h)]
    simp only [longest, mk.injEq]
    omega

theorem Measures.eq_longest_or (h : d.Measures n) :
    d = longest ∨ ∃ s k, k < 1000 ∧ s ≤ maxSeconds ∧ d = ⟨s, k * 1000000⟩ := by
  by_cases hn : n < (maxSeconds + 1) * 1000
  · exact .inr ⟨n / 1000, n % 1000, by omega, by omega, h.exact hn⟩
  · rcases h.cut (Nat.not_lt.1 hn) with hd | ⟨k, hk, hd⟩
    · exact .inl hd
    · exact .inr ⟨maxSeconds, k, hk, Nat.le_refl _, hd⟩

theorem IsCut.add (ha : a.IsCut) (hb : b.Measures n) : (a.add b).IsCut := by
  rcases ha with rfl | ⟨k, hk, rfl⟩
  · exact .inl (longest_add b)
  rcases hb.eq_longest_or with rfl | ⟨s, j, hj, -, rfl⟩
  · exact .inl ((add_comm _ _).trans (longest_add _))
  by_cases h : maxSeconds < maxSeconds + s + (k * 1000000 + j * 1000000) / 1000000000
  · exact .inl (add_of_lt h)
  · refine .inr ⟨k + j, by omega, ?_⟩
    rw [add_of_le (Nat.not_lt.1 h)]
    simp only [mk.injEq]
    omega

/-- A sum that gets too long is cut, and it stays cut whatever is added. -/
theorem Measures.add (ha : a.Measures m) (hb : b.Measures n) : (a.add b).Measures (m + n) where
  exact h := by
    have ha := ha.exact (by omega)
    have hb := hb.exact (by omega)
    subst ha hb
    rw [add_of_le]
    · simp only [mk.injEq]
      omega
    · simp only
      omega
  cut h := by
    by_cases hm : (maxSeconds + 1) * 1000 ≤ m
    · exact (ha.cut hm).add hb
    by_cases hn : (maxSeconds + 1) * 1000 ≤ n
    · rw [add_comm]
      exact (hb.cut hn).add ha
    -- both are exact, and only their sum is too long
    have ha := ha.exact (by omega)
    have hb := hb.exact (by omega)
    subst ha hb
    refine .inl (add_of_lt ?_)
    simp only
    omega

theorem Measures.eq_zero_iff (h : d.Measures n) : d = ⟨0, 0⟩ ↔ n = 0 := by
  by_cases hn : n < (maxSeconds + 1) * 1000
  · simp only [h.exact hn, mk.injEq]
    omega
  · have hmax : 0 < maxSeconds := by decide
    have hd : maxSeconds ≤ d.seconds := by
      rcases h.cut (Nat.not_lt.1 hn) with rfl | ⟨k, -, rfl⟩ <;> exact Nat.le_refl _
    constructor
    · rintro rfl
      simp only at hd
      omega
    · omega

end Sums

end Duration

end MeshRollout

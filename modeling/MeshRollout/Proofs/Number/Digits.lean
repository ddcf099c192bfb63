import Mathlib.Tactic.Ring
import MeshRollout.Yaml.Writing

/-!
Reading back the digits of numbers.
-/
set_option autoImplicit false

namespace MeshRollout

namespace Numeral
variable {base : Nat}

theorem digitsFrom?_append (base acc : Nat) (a b : List Char) :
    digitsFrom? base acc (a ++ b)
      = (digitsFrom? base acc a).bind fun n => digitsFrom? base n b := by
  induction a generalizing acc with
  | nil => rfl
  | cons c a ih =>
    rw [List.cons_append, digitsFrom?, digitsFrom?]
    cases digitValue? c with
    | none => rfl
    | some d =>
      by_cases hd : d < base
      · simp only [hd, if_true]
        exact ih _
      · simp [hd]

theorem digitsFrom?_toDigits {f : Char → Char} (h1 : 1 < base)
    (hf : ∀ d < base, digitValue? (f d.digitChar) = some d) (acc n : Nat) :
    digitsFrom? base acc ((Nat.toDigits base n).map f)
      = some (acc * base ^ (Nat.toDigits base n).length + n) := by
  induction n using Nat.strongRecOn generalizing acc with
  | ind n ih =>
    by_cases hn : n < base
    · rw [Nat.toDigits_of_lt_base hn]
      simp [digitsFrom?, hf n hn, hn]
    · have hle : base ≤ n := by omega
      have hdiv : n / base < n := Nat.div_lt_self (by omega) h1
      have hmod : n % base < base := Nat.mod_lt n (by omega)
      rw [Nat.toDigits_of_base_le h1 hle, List.map_append, digitsFrom?_append, ih _ hdiv]
      simp only [Option.bind_some, List.map_cons, List.map_nil, digitsFrom?, hf _ hmod, hmod,
        if_true, List.length_append, List.length_cons, List.length_nil, Option.some.injEq]
      calc (acc * base ^ (Nat.toDigits base (n / base)).length + n / base) * base + n % base
        _ = acc * base ^ ((Nat.toDigits base (n / base)).length + 1)
            + (base * (n / base) + n % base) := by ring
        _ = acc * base ^ ((Nat.toDigits base (n / base)).length + 1) + n := by
          rw [Nat.div_add_mod]

theorem exists_of_mem_toDigits {c : Char} {n : Nat} (h1 : 1 < base) (h : c ∈ Nat.toDigits base n) :
    ∃ d < base, c = d.digitChar := by
  induction n using Nat.strongRecOn with
  | ind n ih =>
    by_cases hn : n < base
    · rw [Nat.toDigits_of_lt_base hn, List.mem_singleton] at h
      exact ⟨n, hn, h⟩
    · have hle : base ≤ n := by omega
      rw [Nat.toDigits_of_base_le h1 hle, List.mem_append, List.mem_singleton] at h
      rcases h with h | h
      · exact ih _ (Nat.div_lt_self (by omega) h1) h
      · exact ⟨_, Nat.mod_lt n (by omega), h⟩

theorem digitValue?_digitChar : ∀ d < 16, digitValue? d.digitChar = some d := by
  decide

theorem digitValue?_toUpper : ∀ d < 16, digitValue? d.digitChar.toUpper = some d := by
  decide

theorem digitsFrom?_zeros (k : Nat) (cs : List Char) (h1 : 1 < base) :
    digitsFrom? base 0 (List.replicate k '0' ++ cs) = digitsFrom? base 0 cs := by
  induction k with
  | zero => rfl
  | succ k ih =>
    have hzero : digitValue? '0' = some 0 := rfl
    rw [List.replicate_succ, List.cons_append, digitsFrom?, hzero]
    simp only [if_pos (Nat.lt_trans Nat.zero_lt_one h1), Nat.zero_mul, Nat.add_zero]
    exact ih

theorem digits?_of_ne_nil {cs : List Char} (h : cs ≠ []) :
    digits? base cs = digitsFrom? base 0 cs := by
  cases cs with
  | nil => exact absurd rfl h
  | cons c cs => rfl

theorem digits?_ten_toDigits (n : Nat) : digits? 10 (Nat.toDigits 10 n) = some n := by
  have hd := digitsFrom?_toDigits (f := id) (by decide : 1 < 10)
    (fun d hd => digitValue?_digitChar d (by omega)) 0 n
  rw [List.map_id, Nat.zero_mul, Nat.zero_add] at hd
  rw [digits?_of_ne_nil Nat.toDigits_ne_nil, hd]

theorem signed?_of_digit {c : Char} {cs : List Char} (h : isDigit c = true) :
    signed? base (c :: cs) = (digits? base (c :: cs)).map fun n => (n : Int) := by
  have hplus : c ≠ '+' := by
    rintro rfl
    exact absurd h (by decide)
  have hminus : c ≠ '-' := by
    rintro rfl
    exact absurd h (by decide)
  rw [signed?]
  · exact fun r hr => hplus (List.cons.inj hr).1
  · exact fun r hr => hminus (List.cons.inj hr).1

end Numeral

namespace Yaml

theorem length_hexNumeral {width n : Nat} (hw : 0 < width) (hn : n < 16 ^ width) :
    (hexNumeral width n).length = width := by
  have hle := (Nat.length_toDigits_le_iff (by decide : 1 < 16) hw).2 hn
  simp only [hexNumeral, List.length_append, List.length_replicate, List.length_map]
  omega

theorem digits?_hexNumeral {width : Nat} (hw : 0 < width) (n : Nat) (hn : n < 16 ^ width) :
    Numeral.digits? 16 (hexNumeral width n) = some n := by
  have hlen := length_hexNumeral hw hn
  have hne : hexNumeral width n ≠ [] := fun h => by
    rw [h, List.length_nil] at hlen
    omega
  rw [Numeral.digits?_of_ne_nil hne, hexNumeral, Numeral.digitsFrom?_zeros _ _ (by decide),
    Numeral.digitsFrom?_toDigits (by decide) Numeral.digitValue?_toUpper]
  simp

end Yaml

end MeshRollout

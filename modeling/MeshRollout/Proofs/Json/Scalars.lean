import Mathlib.Data.List.Basic
import MeshRollout.Json.Printer
import MeshRollout.Json.Reader
import MeshRollout.Proofs.Text.Split
import MeshRollout.Proofs.Yaml.Words

/-!
Reading back the strings and the whole numbers of JSON text.
-/
set_option autoImplicit false

namespace MeshRollout.Json

section Strings

def quotable (s : List Char) : List Char :=
  s.flatMap fun c => (escaped c).toList

theorem toList_string (s : String) :
    (string s).toList = '"' :: (quotable s.toList ++ ['"']) := by
  have hfold (cs : List Char) (t : String) :
      (cs.foldl (fun t c => t ++ escaped c) t).toList = t.toList ++ quotable cs := by
    induction cs generalizing t with
    | nil => simp [quotable]
    | cons c cs ih =>
      rw [List.foldl_cons, ih, String.toList_append, List.append_assoc]
      rfl
  rw [string, String.toList_append, String.foldl_eq_foldl_toList, hfold]
  rfl

theorem hexUnit_control : ∀ n < 32,
    Numeral.digits? 16 ['0', '0', Nat.digitChar (n / 16), Nat.digitChar (n % 16)] = some n := by
  decide

theorem numbered_control {c : Char} (h : c.toNat < 0x20) (r : List Char) :
    numbered ('0' :: '0' :: Nat.digitChar (c.toNat / 16) :: Nat.digitChar (c.toNat % 16) :: r)
      = .ok (c, r) := by
  have hlow : ¬ 0xDC00 ≤ c.toNat := by omega
  have hlead : ¬ 0xD800 ≤ c.toNat := by omega
  rw [numbered, hexUnit, hexUnit_control c.toNat h]
  simp [hlow, hlead, bind, Except.bind, pure, Except.pure]

theorem escaped_cases (c : Char) :
    (∃ m, (escaped c).toList = ['\\', m] ∧ m ≠ 'u' ∧ lettered? m = some c) ∨
      (c.toNat < 0x20 ∧ (escaped c).toList = ['\\', 'u', '0', '0', Nat.digitChar (c.toNat / 16),
        Nat.digitChar (c.toNat % 16)]) ∨
      ((escaped c).toList = [c] ∧ c ≠ '"' ∧ c ≠ '\\' ∧ ¬ c.toNat < 0x20) := by
  unfold escaped
  split_ifs with hquote hback hn hr ht hb hf hcontrol
  · exact .inl ⟨'"', rfl, by decide, congrArg some hquote.symm⟩
  · exact .inl ⟨'\\', rfl, by decide, congrArg some hback.symm⟩
  · exact .inl ⟨'n', rfl, by decide, congrArg some hn.symm⟩
  · exact .inl ⟨'r', rfl, by decide, congrArg some hr.symm⟩
  · exact .inl ⟨'t', rfl, by decide, congrArg some ht.symm⟩
  · exact .inl ⟨'b', rfl, by decide, congrArg some hb.symm⟩
  · exact .inl ⟨'f', rfl, by decide, congrArg some hf.symm⟩
  · refine .inr (.inl ⟨hcontrol, ?_⟩)
    simp
  · exact .inr (.inr ⟨String.toList_singleton c, hquote, hback, hcontrol⟩)

theorem stringFrom_escaped (fuel : Nat) (acc : List Char) (c : Char) (r : List Char) :
    stringFrom (fuel + 1) acc ((escaped c).toList ++ r) = stringFrom fuel (c :: acc) r := by
  rcases escaped_cases c with ⟨m, hm, hu, hletter⟩ | ⟨hcontrol, hdigits⟩ |
    ⟨hself, hquote, hback, hcontrol⟩
  · rw [hm]
    simp [stringFrom, hletter]
  · rw [hdigits]
    simp [stringFrom, numbered_control hcontrol, bind, Except.bind]
  · rw [hself]
    simp [stringFrom, hback, hcontrol]

theorem stringFrom_quotable {fuel : Nat} (acc s r : List Char) (h : s.length < fuel) :
    stringFrom fuel acc (quotable s ++ '"' :: r) = .ok (String.ofList (acc.reverse ++ s), r) := by
  induction s generalizing fuel acc with
  | nil =>
    obtain ⟨fuel, rfl⟩ := Nat.exists_eq_succ_of_ne_zero (Nat.ne_of_gt h)
    simp [quotable, stringFrom]
  | cons c s ih =>
    obtain ⟨fuel, rfl⟩ := Nat.exists_eq_succ_of_ne_zero (Nat.ne_zero_of_lt h)
    have hcons : quotable (c :: s) = (escaped c).toList ++ quotable s := rfl
    rw [hcons, List.append_assoc, stringFrom_escaped, ih _ (by simpa using h)]
    simp

theorem length_le_quotable (s : List Char) : s.length ≤ (quotable s).length := by
  induction s with
  | nil => exact Nat.zero_le _
  | cons c s ih =>
    have hpos : 1 ≤ (escaped c).toList.length := by
      rcases escaped_cases c with ⟨m, hm, -⟩ | ⟨-, hdigits⟩ | ⟨hself, -⟩
      · simp [hm]
      · simp [hdigits]
      · simp [hself]
    have hcons : quotable (c :: s) = (escaped c).toList ++ quotable s := rfl
    rw [hcons, List.length_append, List.length_cons]
    omega

theorem stringRest_quotable (s : String) (r : List Char) :
    stringRest (quotable s.toList ++ '"' :: r) = .ok (s, r) := by
  have hlength := length_le_quotable s.toList
  rw [stringRest, stringFrom_quotable [] s.toList r (by simp; omega)]
  simp

end Strings

section Numbers

def EndsNumber (r : List Char) : Prop :=
  ∀ c ∈ r.head?, Numeral.isDigit c = false ∧ c ≠ '.' ∧ c ≠ 'e' ∧ c ≠ 'E'

theorem spanDigits_append {ds r : List Char} (hds : ∀ c ∈ ds, Numeral.isDigit c = true)
    (hr : EndsNumber r) : Numeral.spanDigits (ds ++ r) = (ds, r) := by
  have hstop : ∀ c ∈ r.head?, Numeral.isDigit c = false := fun c hc => (hr c hc).1
  rw [Numeral.spanDigits, Text.takeWhile_append_of_stop hds hstop,
    Text.dropWhile_append_of_stop hds hstop]

theorem value_digitChar : ∀ d < 10, d.digitChar.toNat - '0'.toNat = d := by
  decide

/-- The digits of a number are gathered into the number as long as it has 64 bits. -/
theorem foldl_push_toDigits (n : Nat) (h : n < Nat.pow 2 64) :
    (Nat.toDigits 10 n).foldl (Significand.push false) ⟨0, 0, false⟩ = ⟨n, 0, false⟩ := by
  have hpush (m d : Nat) (hd : d < 10) (hm : m * 10 + d < Nat.pow 2 64) :
      Significand.push false ⟨m, 0, false⟩ d.digitChar = ⟨m * 10 + d, 0, false⟩ := by
    have hvalue : d.digitChar.toNat - '0'.toNat = d := value_digitChar d hd
    simp only [Significand.push, hvalue, Bool.false_or, decide_eq_true_eq, Nat.not_le.2 hm,
      if_false, Bool.false_eq_true]
  induction n using Nat.strongRecOn with
  | ind n ih =>
    by_cases hn : n < 10
    · rw [Nat.toDigits_of_lt_base hn, List.foldl_cons, List.foldl_nil, hpush 0 n hn (by omega),
        Nat.zero_mul, Nat.zero_add]
    · rw [Nat.toDigits_of_base_le (by decide) (by omega), List.foldl_append,
        ih (n / 10) (by omega) (by omega), List.foldl_cons, List.foldl_nil,
        hpush _ _ (Nat.mod_lt n (by decide)) (by omega)]
      congr 1
      omega

/-- Only the number zero is written with a zero in front. -/
theorem eq_nil_of_toDigits_eq {n : Nat} {ds : List Char} (h : Nat.toDigits 10 n = '0' :: ds) :
    ds = [] := by
  have hpos (m : Nat) (hm : 0 < m) : (Nat.toDigits 10 m).head? ≠ some '0' := by
    induction m using Nat.strongRecOn with
    | ind m ih =>
      by_cases hlt : m < 10
      · rw [Nat.toDigits_of_lt_base hlt]
        have hdigit : ∀ d < 10, 0 < d → [d.digitChar].head? ≠ some '0' := by decide
        exact hdigit m hlt hm
      · rw [Nat.toDigits_of_base_le (by decide) (by omega),
          List.head?_append_of_ne_nil _ Nat.toDigits_ne_nil]
        exact ih (m / 10) (by omega) (by omega)
  by_cases hn : 0 < n
  · exact absurd (by rw [h]; rfl) (hpos n hn)
  · obtain rfl : n = 0 := by omega
    exact (List.cons.inj h).2.symm

theorem number_toDigits {negative : Bool} {n : Nat} (hn : n < Nat.pow 2 64) {r : List Char}
    (hr : EndsNumber r) {v : Value} (hv : Significand.whole? negative ⟨n, 0, false⟩ = some v) :
    number negative (Nat.toDigits 10 n ++ r) = .ok (v, r) := by
  have hspan : Numeral.spanDigits (Nat.toDigits 10 n ++ r) = (Nat.toDigits 10 n, r) :=
    spanDigits_append (fun _ hc => Numeral.isDigit_of_mem hc) hr
  have hfinish : finish negative false ⟨n, 0, false⟩ r = .ok (v, r) := by
    cases r with
    | nil => simp [finish, hv, inRange]
    | cons c r =>
      obtain ⟨-, -, hlower, hupper⟩ := hr c rfl
      simp [finish, hv, inRange, hlower, hupper]
  simp only [number, hspan]
  split
  · rename_i hnil _
    exact absurd hnil Nat.toDigits_ne_nil
  · rename_i hnil _
    exact absurd hnil Nat.toDigits_ne_nil
  · rename_i hzero
    cases eq_nil_of_toDigits_eq hzero
  · rw [foldl_push_toDigits n hn]
    split
    · exact absurd rfl (hr '.' rfl).2.1
    · exact hfinish

end Numbers

end MeshRollout.Json

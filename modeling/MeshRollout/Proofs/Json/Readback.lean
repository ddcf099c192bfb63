import Mathlib.Tactic.IntervalCases
import MeshRollout.Proofs.Dict
import MeshRollout.Proofs.Json.Scalars
import MeshRollout.Proofs.Value

/-!
Values survive being written as JSON text: reading the text gives the value back, if its numbers are
whole and have 64 bits, its keys are in order and it is not nested too deep.
-/
set_option autoImplicit false

namespace MeshRollout.Json

/-- Values that JSON text holds as they are, in at most `depth` levels of lists and records. -/
inductive Exact : Nat → Value → Prop
  | null (depth : Nat) : Exact depth .null
  | bool (depth : Nat) (b : Bool) : Exact depth (.bool b)
  | int (depth : Nat) {n : Int} (hlow : -(Int.pow 2 63) ≤ n) (hhigh : n < Int.pow 2 64) :
      Exact depth (.int n)
  | str (depth : Nat) (s : String) : Exact depth (.str s)
  | list {depth : Nat} {vs : List Value} (h : ∀ v ∈ vs, Exact depth v) :
      Exact (depth + 1) (.list vs)
  | record {depth : Nat} {fs : List (String × Value)} (hs : Dict.Sorted fs)
      (h : ∀ p ∈ fs, Exact depth p.2) : Exact (depth + 1) (.record fs)

section Writing

mutual

theorem write_eq (out : String) (v : Value) : write out v = out ++ text v := by
  cases v with
  | list vs =>
    rw [text, write, write, writeItems_eq _ _ vs, writeItems_eq ("" ++ "[") _ vs]
    simp [String.append_assoc]
  | record fs =>
    rw [text, write, write, writeFields_eq _ _ fs, writeFields_eq ("" ++ "\x7b") _ fs]
    simp [String.append_assoc]
  | _ => simp [text, write]

theorem writeItems_eq (out sep : String) (vs : List Value) :
    writeItems out sep vs = out ++ writeItems "" sep vs := by
  cases vs with
  | nil => simp [writeItems]
  | cons v vs =>
    rw [writeItems, writeItems, write_eq _ v, write_eq ("" ++ sep) v, writeItems_eq _ _ vs,
      writeItems_eq ("" ++ sep ++ text v) _ vs]
    simp [String.append_assoc]

theorem writeFields_eq (out sep : String) (fs : List (String × Value)) :
    writeFields out sep fs = out ++ writeFields "" sep fs := by
  cases fs with
  | nil => simp [writeFields]
  | cons p fs =>
    obtain ⟨k, v⟩ := p
    rw [writeFields, writeFields, write_eq _ v, write_eq ("" ++ sep ++ string k ++ ":") v,
      writeFields_eq _ _ fs, writeFields_eq ("" ++ sep ++ string k ++ ":" ++ text v) _ fs]
    simp [String.append_assoc]

end

def chars (v : Value) : List Char :=
  (text v).toList

def fieldChars (p : String × Value) : List Char :=
  (string p.1).toList ++ ':' :: chars p.2

def moreItems (vs : List Value) : List Char :=
  vs.flatMap fun v => ',' :: chars v

def moreFields (fs : List (String × Value)) : List Char :=
  fs.flatMap fun p => ',' :: fieldChars p

theorem toList_writeItems (out : String) (vs : List Value) :
    (writeItems out "," vs).toList = out.toList ++ moreItems vs := by
  induction vs generalizing out with
  | nil => simp [writeItems, moreItems]
  | cons v vs ih => simp [writeItems, ih, write_eq _ v, moreItems, chars]

theorem toList_writeFields (out : String) (fs : List (String × Value)) :
    (writeFields out "," fs).toList = out.toList ++ moreFields fs := by
  induction fs generalizing out with
  | nil => simp [writeFields, moreFields]
  | cons p fs ih => simp [writeFields, ih, write_eq _ p.2, moreFields, fieldChars, chars]

theorem chars_list_cons (v : Value) (vs : List Value) :
    chars (.list (v :: vs)) = '[' :: (chars v ++ (moreItems vs ++ [']'])) := by
  rw [chars, text, write, writeItems, String.toList_append, toList_writeItems, write_eq _ v]
  simp [chars]

theorem chars_record_cons (p : String × Value) (fs : List (String × Value)) :
    chars (.record (p :: fs)) = '\x7b' :: (fieldChars p ++ (moreFields fs ++ ['\x7d'])) := by
  rw [chars, text, write, writeFields, String.toList_append, toList_writeFields, write_eq _ p.2]
  simp [fieldChars, chars]

end Writing

section Reading

/-- The value is read from what it is written with, as long as the text goes on with nothing that
could belong to a number. -/
def Comes (depth : Nat) (v : Value) : Prop :=
  ∀ fuel r, 2 * (chars v).length ≤ fuel → EndsNumber r →
    value fuel depth (chars v ++ r) = .ok (v, r)

theorem skipBlanks_cons {c : Char} (h : isBlank c = false) (cs : List Char) :
    skipBlanks (c :: cs) = c :: cs := by
  rw [skipBlanks, List.dropWhile_cons_of_neg (by simp [h])]

theorem chars_int (n : Int) :
    chars (.int n) = (if n < 0 then ['-'] else []) ++ Nat.toDigits 10 n.natAbs := by
  rw [← Numeral.toList_toString, chars, text, write, String.empty_append]

theorem chars_str (s : String) : chars (.str s) = '"' :: (quotable s.toList ++ ['"']) := by
  rw [← toList_string, chars, text, write, String.empty_append]

theorem exists_toDigits (n : Nat) :
    ∃ d < 10, ∃ ds, Nat.toDigits 10 n = d.digitChar :: ds := by
  obtain ⟨c, ds, h⟩ := List.exists_cons_of_ne_nil (Nat.toDigits_ne_nil : Nat.toDigits 10 n ≠ [])
  obtain ⟨d, hd, rfl⟩ := Numeral.exists_of_mem_toDigits (by decide) (h ▸ List.mem_cons_self)
  exact ⟨d, hd, ds, h⟩

theorem digitChar_is_no_mark : ∀ d < 10,
    isBlank d.digitChar = false ∧ d.digitChar ≠ ']' ∧ d.digitChar ≠ '\x7d' := by
  decide

theorem exists_chars {depth : Nat} {v : Value} (h : Exact depth v) :
    ∃ c cs, chars v = c :: cs ∧ isBlank c = false ∧ c ≠ ']' ∧ c ≠ '\x7d' := by
  cases h with
  | null => exact ⟨'n', _, rfl, by decide⟩
  | bool _ b =>
    cases b with
    | true => exact ⟨'t', _, rfl, by decide⟩
    | false => exact ⟨'f', _, rfl, by decide⟩
  | @int _ n =>
    rw [chars_int]
    split
    · exact ⟨'-', _, rfl, by decide⟩
    · obtain ⟨d, hd, ds, hdigits⟩ := exists_toDigits n.natAbs
      exact ⟨d.digitChar, ds, hdigits, digitChar_is_no_mark d hd⟩
  | str _ s => exact ⟨'"', _, chars_str s, by decide⟩
  | @list _ vs =>
    cases vs with
    | nil => exact ⟨'[', _, rfl, by decide⟩
    | cons v vs => exact ⟨'[', _, chars_list_cons v vs, by decide⟩
  | @record _ fs =>
    cases fs with
    | nil => exact ⟨'\x7b', _, rfl, by decide⟩
    | cons p fs => exact ⟨'\x7b', _, chars_record_cons p fs, by decide⟩

theorem endsNumber_cons {c : Char} (h : Numeral.isDigit c = false ∧ c ≠ '.' ∧ c ≠ 'e' ∧ c ≠ 'E')
    (r : List Char) : EndsNumber (c :: r) := by
  rintro _ ⟨⟩
  exact h

theorem items_last {fuel depth : Nat} {cs r : List Char} {v : Value}
    (h : value fuel depth cs = .ok (v, ']' :: r)) : items (fuel + 1) depth cs = .ok ([v], r) := by
  rw [items, h]
  rfl

theorem items_next {fuel depth : Nat} {c : Char} {cs ds r : List Char} {v : Value} {vs : List Value}
    (h : value fuel depth cs = .ok (v, ',' :: c :: ds)) (hc : isBlank c = false) (hne : c ≠ ']')
    (hvs : items fuel depth (c :: ds) = .ok (vs, r)) :
    items (fuel + 1) depth cs = .ok (v :: vs, r) := by
  have hcomma : skipBlanks (',' :: c :: ds) = ',' :: c :: ds := skipBlanks_cons (by decide) _
  rw [items, h]
  simp only [bind, Except.bind, hcomma, skipBlanks_cons hc]
  split
  · rename_i hnil
    cases hnil
  · rename_i hclose
    exact absurd (List.cons.inj hclose).1 hne
  · rw [hvs]
    rfl

theorem items_more {depth fuel : Nat} {v : Value} {vs : List Value} (hv : Comes depth v)
    (hvs : ∀ v ∈ vs, Exact depth v ∧ Comes depth v) (r : List Char)
    (hfuel : 2 * (chars v ++ moreItems vs).length < fuel) :
    items fuel depth (chars v ++ (moreItems vs ++ ']' :: r)) = .ok (v :: vs, r) := by
  induction vs generalizing v fuel with
  | nil =>
    obtain ⟨fuel, rfl⟩ := Nat.exists_eq_succ_of_ne_zero (Nat.ne_zero_of_lt hfuel)
    rw [List.length_append] at hfuel
    exact items_last (hv fuel _ (by omega) (endsNumber_cons (by decide) r))
  | cons v' vs ih =>
    obtain ⟨fuel, rfl⟩ := Nat.exists_eq_succ_of_ne_zero (Nat.ne_zero_of_lt hfuel)
    obtain ⟨⟨hexact, hv'⟩, hvs⟩ := List.forall_mem_cons.1 hvs
    obtain ⟨c, cs, hcs, hblank, hne, -⟩ := exists_chars hexact
    have hmore : moreItems (v' :: vs) = ',' :: (chars v' ++ moreItems vs) := rfl
    rw [hmore, List.length_append, List.length_cons] at hfuel
    have hrest := @ih fuel v' hv' hvs (by omega)
    have htext : moreItems (v' :: vs) ++ ']' :: r
        = ',' :: c :: (cs ++ (moreItems vs ++ ']' :: r)) := by
      rw [hmore, hcs, List.cons_append, List.append_assoc]
      rfl
    rw [hcs, List.cons_append] at hrest
    rw [htext]
    exact items_next (hv fuel _ (by omega) (endsNumber_cons (by decide) _)) hblank hne hrest

theorem fields_last {fuel depth : Nat} {k : String} {cs r : List Char} {v : Value}
    (h : value fuel depth cs = .ok (v, '\x7d' :: r)) :
    fields (fuel + 1) depth ((string k).toList ++ ':' :: cs) = .ok ([(k, v)], r) := by
  have hcolon : skipBlanks (':' :: cs) = ':' :: cs := skipBlanks_cons (by decide) _
  rw [toList_string, List.cons_append, List.append_assoc, fields, List.singleton_append,
    stringRest_quotable]
  simp only [bind, Except.bind, hcolon, h]
  rfl

theorem fields_next {fuel depth : Nat} {k : String} {cs ds r : List Char} {v : Value}
    {fs : List (String × Value)} (h : value fuel depth cs = .ok (v, ',' :: '"' :: ds))
    (hfs : fields fuel depth ('"' :: ds) = .ok (fs, r)) :
    fields (fuel + 1) depth ((string k).toList ++ ':' :: cs) = .ok ((k, v) :: fs, r) := by
  have hcolon : skipBlanks (':' :: cs) = ':' :: cs := skipBlanks_cons (by decide) _
  have hcomma : skipBlanks (',' :: '"' :: ds) = ',' :: '"' :: ds := skipBlanks_cons (by decide) _
  have hquote : skipBlanks ('"' :: ds) = '"' :: ds := skipBlanks_cons (by decide) _
  rw [toList_string, List.cons_append, List.append_assoc, fields, List.singleton_append,
    stringRest_quotable]
  simp only [bind, Except.bind, hcolon, h, hcomma, hquote]
  split
  · rename_i hnil
    cases hnil
  · rename_i hclose
    exact absurd (List.cons.inj hclose).1 (by decide)
  · rw [hfs]
    rfl

theorem fieldChars_eq (p : String × Value) : fieldChars p = '"' :: (fieldChars p).tail := by
  rw [fieldChars, toList_string]
  rfl

theorem fields_more {depth fuel : Nat} {p : String × Value} {fs : List (String × Value)}
    (hp : Comes depth p.2) (hfs : ∀ p ∈ fs, Comes depth p.2) (r : List Char)
    (hfuel : 2 * (fieldChars p ++ moreFields fs).length < fuel) :
    fields fuel depth (fieldChars p ++ (moreFields fs ++ '\x7d' :: r)) = .ok (p :: fs, r) := by
  have hvalue (q : String × Value) : (chars q.2).length ≤ (fieldChars q).length := by
    rw [fieldChars, List.length_append, List.length_cons]
    omega
  induction fs generalizing p fuel with
  | nil =>
    obtain ⟨fuel, rfl⟩ := Nat.exists_eq_succ_of_ne_zero (Nat.ne_zero_of_lt hfuel)
    rw [List.length_append] at hfuel
    rw [fieldChars, List.append_assoc]
    exact fields_last (hp fuel _ (by have := hvalue p; omega) (endsNumber_cons (by decide) r))
  | cons p' fs ih =>
    obtain ⟨fuel, rfl⟩ := Nat.exists_eq_succ_of_ne_zero (Nat.ne_zero_of_lt hfuel)
    obtain ⟨hp', hfs⟩ := List.forall_mem_cons.1 hfs
    have hmore : moreFields (p' :: fs) = ',' :: (fieldChars p' ++ moreFields fs) := rfl
    rw [hmore, List.length_append, List.length_cons] at hfuel
    have hrest := @ih fuel p' hp' hfs (by omega)
    have hquote := fieldChars_eq p'
    rw [hquote, List.cons_append] at hrest
    have htext : moreFields (p' :: fs) ++ '\x7d' :: r
        = ',' :: '"' :: ((fieldChars p').tail ++ (moreFields fs ++ '\x7d' :: r)) := by
      rw [hmore, List.cons_append, List.append_assoc, hquote]
      rfl
    rw [fieldChars, List.append_assoc, List.cons_append, htext]
    refine fields_next (hp fuel _ ?_ (endsNumber_cons (by decide) _)) hrest
    have := hvalue p
    omega

theorem value_digit {d : Nat} (hd : d < 10) (fuel depth : Nat) (cs : List Char) :
    value (fuel + 1) depth (d.digitChar :: cs) = number false (d.digitChar :: cs) := by
  interval_cases d <;> rfl

theorem whole?_of_nonneg {n : Int} (h : ¬ n < 0) :
    Significand.whole? false ⟨n.natAbs, 0, false⟩ = some (.int n) := by
  have hn : (n.natAbs : Int) = n := by omega
  rw [Significand.whole?, hn]
  rfl

theorem whole?_of_neg {n : Int} (h : n < 0) (hlow : -(Int.pow 2 63) ≤ n) :
    Significand.whole? true ⟨n.natAbs, 0, false⟩ = some (.int n) := by
  have hn : -(n.natAbs : Int) = n := by omega
  have hpow : Int.pow 2 63 = (Nat.pow 2 63 : Nat) := rfl
  rw [hpow] at hlow
  have hzero : n.natAbs ≠ 0 := by omega
  have hrange : ¬ n.natAbs > Nat.pow 2 63 := by omega
  simp only [Significand.whole?, hzero, hrange, hn, Bool.false_eq_true, Bool.not_true, decide_false,
    Bool.or_self, if_false]

theorem exists_fuel {depth fuel : Nat} {v : Value} (h : Exact depth v)
    (hfuel : 2 * (chars v).length ≤ fuel) : ∃ fuel', fuel = fuel' + 1 := by
  obtain ⟨c, cs, hcs, -⟩ := exists_chars h
  rw [hcs, List.length_cons] at hfuel
  exact ⟨fuel - 1, by omega⟩

theorem comes_int {depth : Nat} {n : Int} (hlow : -(Int.pow 2 63) ≤ n) (hhigh : n < Int.pow 2 64) :
    Comes depth (.int n) := by
  have hsmall : n.natAbs < Nat.pow 2 64 := by
    have hpow : Int.pow 2 64 = (Nat.pow 2 64 : Nat) := rfl
    have hpow' : Int.pow 2 63 = (Nat.pow 2 63 : Nat) := rfl
    have hless : Nat.pow 2 63 < Nat.pow 2 64 := by decide
    rw [hpow] at hhigh
    rw [hpow'] at hlow
    omega
  intro fuel r hfuel hr
  obtain ⟨fuel, rfl⟩ := exists_fuel (.int depth hlow hhigh) hfuel
  rw [chars_int]
  by_cases hn : n < 0
  · rw [if_pos hn]
    exact number_toDigits hsmall hr (whole?_of_neg hn hlow)
  · rw [if_neg hn, List.nil_append]
    have hread := number_toDigits hsmall hr (whole?_of_nonneg hn)
    obtain ⟨d, hd, ds, hdigits⟩ := exists_toDigits n.natAbs
    rw [hdigits, List.cons_append] at hread ⊢
    rw [value_digit hd, hread]

theorem comes_str (depth : Nat) (s : String) : Comes depth (.str s) := by
  intro fuel r hfuel _
  obtain ⟨fuel, rfl⟩ := exists_fuel (.str depth s) hfuel
  have hquote : skipBlanks ('"' :: (quotable s.toList ++ '"' :: r))
      = '"' :: (quotable s.toList ++ '"' :: r) := skipBlanks_cons (by decide) _
  rw [chars_str, List.cons_append, List.append_assoc, List.singleton_append, value, hquote]
  simp only [stringRest_quotable]
  rfl

theorem comes_list {depth : Nat} {vs : List Value}
    (h : ∀ v ∈ vs, Exact depth v ∧ Comes depth v) : Comes (depth + 1) (.list vs) := by
  intro fuel r hfuel _
  obtain ⟨fuel, rfl⟩ := exists_fuel (.list fun v hv => (h v hv).1) hfuel
  cases vs with
  | nil => rfl
  | cons v vs =>
    obtain ⟨⟨hexact, hv⟩, hvs⟩ := List.forall_mem_cons.1 h
    rw [chars_list_cons, List.length_cons, List.length_append, List.length_append] at hfuel
    have hread : items fuel depth (chars v ++ (moreItems vs ++ ']' :: r)) = .ok (v :: vs, r) :=
      items_more hv hvs r (by rw [List.length_append]; omega)
    obtain ⟨c, cs, hcs, hblank, hne, -⟩ := exists_chars hexact
    have htext : chars (.list (v :: vs)) ++ r = '[' :: c :: (cs ++ (moreItems vs ++ ']' :: r)) := by
      rw [chars_list_cons, hcs]
      simp
    have hopen (ds : List Char) : skipBlanks ('[' :: ds) = '[' :: ds := skipBlanks_cons (by decide) _
    rw [hcs, List.cons_append] at hread
    rw [htext, value, hopen]
    simp only [Nat.add_one_ne_zero, if_false, Nat.add_sub_cancel, skipBlanks_cons hblank]
    split
    · rename_i hnil
      cases hnil
    · rename_i hclose
      exact absurd (List.cons.inj hclose).1 hne
    · rw [hread]
      rfl

theorem comes_record {depth : Nat} {fs : List (String × Value)} (hs : Dict.Sorted fs)
    (h : ∀ p ∈ fs, Exact depth p.2 ∧ Comes depth p.2) : Comes (depth + 1) (.record fs) := by
  intro fuel r hfuel _
  obtain ⟨fuel, rfl⟩ := exists_fuel (.record hs fun p hp => (h p hp).1) hfuel
  cases fs with
  | nil => rfl
  | cons p fs =>
    obtain ⟨⟨-, hp⟩, hfs⟩ := List.forall_mem_cons.1 h
    rw [chars_record_cons, List.length_cons, List.length_append, List.length_append] at hfuel
    have hread : fields fuel depth (fieldChars p ++ (moreFields fs ++ '\x7d' :: r))
        = .ok (p :: fs, r) :=
      fields_more hp (fun q hq => (hfs q hq).2) r (by rw [List.length_append]; omega)
    have hquote := fieldChars_eq p
    have htext : chars (.record (p :: fs)) ++ r
        = '\x7b' :: '"' :: ((fieldChars p).tail ++ (moreFields fs ++ '\x7d' :: r)) := by
      rw [chars_record_cons, hquote]
      simp
    have hopen (ds : List Char) : skipBlanks ('\x7b' :: ds) = '\x7b' :: ds :=
      skipBlanks_cons (by decide) _
    have hmark (ds : List Char) : skipBlanks ('"' :: ds) = '"' :: ds :=
      skipBlanks_cons (by decide) _
    rw [hquote, List.cons_append] at hread
    rw [htext, value, hopen]
    simp only [Nat.add_one_ne_zero, if_false, Nat.add_sub_cancel, hmark]
    split
    · rename_i hnil
      cases hnil
    · rename_i hclose
      exact absurd (List.cons.inj hclose).1 (by decide)
    · rw [hread]
      simp only [bind, Except.bind, Dict.ofList_of_sorted hs]
      rfl

theorem Exact.comes {depth : Nat} {v : Value} (h : Exact depth v) : Comes depth v := by
  induction h with
  | null depth =>
    intro fuel r hfuel _
    obtain ⟨fuel, rfl⟩ := exists_fuel (.null depth) hfuel
    rfl
  | bool depth b =>
    intro fuel r hfuel _
    obtain ⟨fuel, rfl⟩ := exists_fuel (.bool depth b) hfuel
    cases b <;> rfl
  | int depth hlow hhigh => exact comes_int hlow hhigh
  | str depth s => exact comes_str depth s
  | list h ih => exact comes_list fun v hv => ⟨h v hv, ih v hv⟩
  | record hs h ih => exact comes_record hs fun p hp => ⟨h p hp, ih p hp⟩

/-- Reading the text of a value gives the value back. -/
theorem read?_text {v : Value} (h : Exact maxDepth v) : read? (text v) = some v := by
  have hfront : front (chars v) = .ok (v, []) := by
    have hv := h.comes (2 * (chars v).length + 2) [] (by omega) (fun c hc => by cases hc)
    rwa [List.append_nil] at hv
  have hwhole : whole (chars v) = .ok v := by
    rw [whole, hfront]
    rfl
  exact congrArg Except.toOption hwhole

end Reading

section Fitting
variable {depth : Nat}

theorem exact_nat {n : Nat} (h : n < Nat.pow 2 64) : Exact depth (.nat n) := by
  refine .int depth ?_ ?_
  · exact Int.le_trans (by decide) (Int.natCast_nonneg n)
  · have hpow : Int.pow 2 64 = (Nat.pow 2 64 : Nat) := rfl
    rw [hpow]
    exact_mod_cast h

theorem exact_nat32 {n : Nat} (h : n < Nat.pow 2 32) : Exact depth (.nat n) :=
  exact_nat (Nat.lt_trans h (by decide))

theorem exact_list_map {α : Type} {write : α → Value} {l : List α}
    (h : ∀ x ∈ l, Exact depth (write x)) : Exact (depth + 1) (.list (l.map write)) := by
  refine .list fun v hv => ?_
  obtain ⟨x, hx, rfl⟩ := List.mem_map.1 hv
  exact h x hx

theorem exact_strings (xs : List String) : Exact (depth + 1) (.strings xs) :=
  exact_list_map fun x _ => .str depth x

theorem exact_fields {fs : List (String × Value)} (hk : (fs.map Prod.fst).Pairwise (· < ·))
    (hv : ∀ p ∈ fs, Exact depth p.2) : Exact (depth + 1) (.record fs) :=
  .record (List.pairwise_map.1 hk) hv

theorem exact_object {fs : List (String × Option Value)} (hk : (fs.map Prod.fst).Pairwise (· < ·))
    (hv : ∀ p ∈ fs, ∀ v ∈ p.2, Exact depth v) : Exact (depth + 1) (.object fs) :=
  exact_fields (hk.sublist (Value.sublist_keys_object fs)) (Value.forall_mem_written.2 hv)

end Fitting

end MeshRollout.Json

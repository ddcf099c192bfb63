import MeshRollout.Address
import MeshRollout.Proofs.Owner

/-!
Of which characters the text of an address is made. Every reader of a part of an address takes only
such characters from the front of a text.
-/
set_option autoImplicit false

namespace MeshRollout.Address

def isAddressChar (c : Char) : Bool :=
  ('0' ≤ c && c ≤ '9') || ('a' ≤ c && c ≤ 'f') || ('A' ≤ c && c ≤ 'F') || c == ':' || c == '.'

def Leads (cs rest : List Char) : Prop :=
  ∃ front, cs = front ++ rest ∧ ∀ c ∈ front, isAddressChar c = true

variable {cs rest : List Char}

theorem Leads.refl (cs : List Char) : Leads cs cs :=
  ⟨[], rfl, by simp⟩

theorem Leads.trans {mid : List Char} (h : Leads cs mid) (h' : Leads mid rest) : Leads cs rest := by
  obtain ⟨a, rfl, ha⟩ := h
  obtain ⟨b, rfl, hb⟩ := h'
  refine ⟨a ++ b, by rw [List.append_assoc], fun c hc => ?_⟩
  exact (List.mem_append.1 hc).elim (ha c) (hb c)

theorem Leads.cons {c : Char} (hc : isAddressChar c = true) (h : Leads cs rest) :
    Leads (c :: cs) rest :=
  Leads.trans ⟨[c], rfl, by simpa using hc⟩ h

theorem isAddressChar_of_digit {base d : Nat} {c : Char} (hb : base ≤ 16)
    (h : Numeral.digitValue? c = some d) (hd : d < base) : isAddressChar c = true := by
  simp only [Numeral.digitValue?, Bool.and_eq_true, decide_eq_true_eq, Char.le_def,
    UInt32.le_iff_toNat_le] at h
  simp only [isAddressChar, Bool.or_eq_true, Bool.and_eq_true, decide_eq_true_eq, Char.le_def,
    UInt32.le_iff_toNat_le, beq_iff_eq]
  have hn (c : Char) : c.toNat = c.val.toNat := rfl
  have h0 : ('0' : Char).val.toNat = 48 := rfl
  have h9 : ('9' : Char).val.toNat = 57 := rfl
  have ha : ('a' : Char).val.toNat = 97 := rfl
  have hf : ('f' : Char).val.toNat = 102 := rfl
  have hz : ('z' : Char).val.toNat = 122 := rfl
  have hA : ('A' : Char).val.toNat = 65 := rfl
  have hF : ('F' : Char).val.toNat = 70 := rfl
  have hZ : ('Z' : Char).val.toNat = 90 := rfl
  simp only [hn, h0, h9, ha, hf, hz, hA, hF, hZ] at h ⊢
  split at h
  · omega
  · split at h
    · simp only [Option.some.injEq] at h
      omega
    · split at h
      · simp only [Option.some.injEq] at h
        omega
      · cases h

theorem digits?_leads {base width : Nat} {ds : List Char} (hb : base ≤ 16)
    (h : digits? base width cs = some (ds, rest)) : Leads cs rest := by
  simp only [digits?] at h
  split at h
  · nomatch h
  · simp only [Option.some.injEq, Prod.mk.injEq] at h
    obtain ⟨rfl, rfl⟩ := h
    refine ⟨_, (List.prefix_iff_eq_append.1 (List.takeWhile_prefix _)).symm, fun c hc => ?_⟩
    have hdigit := List.all_eq_true.1 List.all_takeWhile c hc
    cases hv : Numeral.digitValue? c with
    | none => simp [hv] at hdigit
    | some d => exact isAddressChar_of_digit hb hv (by simpa [hv] using hdigit)

theorem octet?_leads (h : octet? cs = some rest) : Leads cs rest := by
  obtain ⟨⟨ds, r⟩, hd, hr⟩ := Option.bind_eq_some_iff.1 h
  simp only [Option.ite_none_left_eq_some] at hr
  obtain ⟨-, hr⟩ := hr
  cases hr
  exact digits?_leads (by decide) hd

theorem octets?_leads {n : Nat} (h : octets? n cs = some rest) : Leads cs rest := by
  induction n generalizing cs with
  | zero =>
    cases h
    exact .refl _
  | succ n ih =>
    cases cs with
    | nil => nomatch h
    | cons c cs =>
      by_cases hc : c = '.'
      · subst hc
        obtain ⟨r, ho, hr⟩ := Option.bind_eq_some_iff.1 h
        exact .cons (by decide) ((octet?_leads ho).trans (ih hr))
      · simp [octets?, hc] at h

theorem version4?_leads (h : version4? cs = some rest) : Leads cs rest := by
  obtain ⟨r, ho, hr⟩ := Option.bind_eq_some_iff.1 h
  exact (octet?_leads ho).trans (octets?_leads hr)

theorem groups_leads {limit : Nat} {first : Bool} : Leads cs (groups limit first cs).2.2 := by
  induction limit generalizing first cs with
  | zero => exact .refl _
  | succ limit ih =>
    simp only [groups]
    split
    · exact .refl _
    · rename_i r hr
      have hfront : Leads cs r := by
        split at hr
        · cases hr
          exact .refl _
        · cases hr
          exact .cons (by decide) (.refl _)
        · nomatch hr
      split
      · rename_i rest h4
        split at h4
        · nomatch h4
        · exact hfront.trans (version4?_leads h4)
      · split
        · exact .refl _
        · rename_i rest hd
          exact (hfront.trans (digits?_leads (by decide) hd)).trans ih

theorem version6?_leads (h : version6? cs = some rest) : Leads cs rest := by
  have hfront : Leads cs (groups 8 true cs).2.2 := groups_leads
  simp only [version6?] at h
  split at h
  · cases h
    exact hfront
  · split at h
    · nomatch h
    · split at h
      · rename_i r hr
        rw [hr] at hfront
        cases h
        exact hfront.trans (.cons (by decide) (.cons (by decide) groups_leads))
      · nomatch h

theorem isAddressChar_of_valid {ip : String} (h : valid ip = true) :
    ∀ c ∈ ip.toList, isAddressChar c = true := by
  have hleads : Leads ip.toList [] := by
    simp only [valid] at h
    split at h
    · rename_i rest h4
      rw [List.isEmpty_iff.1 h] at h4
      exact version4?_leads h4
    · exact version6?_leads (by simpa using h)
  obtain ⟨front, hf, hc⟩ := hleads
  rw [hf, List.append_nil]
  exact hc

theorem not_blank_of_isAddressChar {c : Char} (h : isAddressChar c = true) :
    Text.isBlank c = false := by
  have hcode : 46 ≤ c.toNat ∧ c.toNat ≤ 102 := by
    simp only [isAddressChar, Bool.or_eq_true, Bool.and_eq_true, decide_eq_true_eq, Char.le_def,
      UInt32.le_iff_toNat_le, beq_iff_eq] at h
    have hn (c : Char) : c.toNat = c.val.toNat := rfl
    rcases h with (((h | h) | h) | rfl) | rfl
    · exact ⟨Nat.le_trans (by decide) h.1, Nat.le_trans h.2 (by decide)⟩
    · exact ⟨Nat.le_trans (by decide) h.1, Nat.le_trans h.2 (by decide)⟩
    · exact ⟨Nat.le_trans (by decide) h.1, Nat.le_trans h.2 (by decide)⟩
    · decide
    · decide
  obtain ⟨hlow, hhigh⟩ := hcode
  simp only [Text.isBlank, Bool.or_eq_false_iff, Bool.and_eq_false_iff, decide_eq_false_iff_not,
    beq_eq_false_iff_ne]
  omega

end MeshRollout.Address

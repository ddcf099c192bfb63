import MeshRollout.Proofs.Name
import MeshRollout.Proofs.Service.Valid
import MeshRollout.Proofs.Text.Split
import MeshRollout.Traffic.Tagging

/-!
Who is moved by a rollout. A caller has a place among the buckets that depends on the credential
alone, and the canary has the buckets below its ratio. So raising the ratio moves callers in one
direction only, and what keeps a session together also fixes its revision.
-/
set_option autoImplicit false

namespace MeshRollout

section Hash

theorem hashStep_lt (h : Nat) (byte : UInt8) : hashStep h byte < bucketTotal :=
  Nat.mod_lt _ (by decide)

theorem foldl_hashStep_lt {h : Nat} (hh : h < bucketTotal) (bytes : List UInt8) :
    bytes.foldl hashStep h < bucketTotal := by
  induction bytes generalizing h with
  | nil => exact hh
  | cons byte bytes ih => exact ih (hashStep_lt h byte)

theorem bucketOf_lt (credential : String) : bucketOf credential < bucketTotal :=
  foldl_hashStep_lt (by decide) _

/-- What is computed of a byte before the remainder is taken. -/
theorem hash_fits {h : Nat} (hh : h < bucketTotal) (byte : UInt8) :
    h * hashBase + byte.toNat < Nat.pow 2 32 := by
  have hbyte := byte.toNat_lt
  have hlt : h * hashBase + byte.toNat < 100 * 31 + 256 := by
    simp only [bucketTotal, hashBase] at hh ⊢
    omega
  exact Nat.lt_trans hlt (by decide)

end Hash

section Credentials

variable {value : String} {authorization : Option String}

def HasCredential (authorization : Option String) : Prop :=
  ∃ value, authorization = some value ∧ value ≠ "" ∧ value ≠ bearerMark

theorem credentialOf?_eq_none_iff :
    credentialOf? value = none ↔ value = "" ∨ value = bearerMark := by
  have hempty : value = "" ↔ value.toList = [] := by simp
  have hmark : value = bearerMark ↔ value.toList = bearerMark.toList := String.toList_inj.symm
  rw [credentialOf?, hempty, hmark]
  cases hd : Text.dropLead? bearerMark.toList value.toList with
  | none =>
    have hne : value.toList ≠ bearerMark.toList := fun he => by
      rw [Text.dropLead?_eq_some_iff.2 (he.trans (List.append_nil _).symm)] at hd
      cases hd
    simp [hne]
  | some rest =>
    rw [Text.dropLead?_eq_some_iff] at hd
    have hne : bearerMark.toList ≠ [] := by decide
    simp [hd, hne]

def bucket? (authorization : Option String) : Option Nat :=
  (authorization.bind credentialOf?).map bucketOf

theorem bucket?_eq_none_iff : bucket? authorization = none ↔ ¬ HasCredential authorization := by
  cases authorization with
  | none => simp [bucket?, HasCredential]
  | some value =>
    simp [bucket?, HasCredential, credentialOf?_eq_none_iff, Decidable.or_iff_not_imp_left]

theorem lt_of_bucket? {b : Nat} (h : bucket? authorization = some b) : b < bucketTotal := by
  obtain ⟨credential, -, rfl⟩ := Option.map_eq_some_iff.1 h
  exact bucketOf_lt credential

end Credentials

namespace Service

variable {s : Service}

def atRatio (s : Service) (ratio : Nat) : Service :=
  { s with ratio := some ratio }

def selected? (s : Service) (authorization : Option String) : Option String :=
  (s.tag authorization).map Tags.selector

/-- How requests are shared between two revisions while the ratio is raised. -/
structure SteadyRollout (s : Service) (stable canary : String) : Prop where
  revisions : s.revisions = [stable, canary]
  distinct : stable ≠ canary
  valid : ∀ ratio ≤ 100, (s.atRatio ratio).validate = .ok ()
  tagged : ∀ ratio authorization, (s.atRatio ratio).selected? authorization = some stable ∨
    (s.atRatio ratio).selected? authorization = some canary
  /-- Nobody is moved back. -/
  raised : ∀ ratio ratio' authorization, ratio ≤ ratio' → ratio' ≤ 100 →
    (s.atRatio ratio).selected? authorization = some canary →
      (s.atRatio ratio').selected? authorization = some canary
  none_at_zero : ∀ authorization, (s.atRatio 0).selected? authorization = some stable
  all_at_hundred : ∀ authorization, HasCredential authorization →
    (s.atRatio 100).selected? authorization = some canary
  anonymous : ∀ ratio authorization, ¬ HasCredential authorization →
    (s.atRatio ratio).selected? authorization = some stable
  session : s.type = .stickyCanary → ∀ authorization t, s.tag authorization = some t →
    (t.session = none ↔ ¬ HasCredential authorization) ∧
      ∀ x ∈ t.session, ∃ n < 100, x = toString n
  /-- One session stays with one revision. -/
  sticky : s.type = .stickyCanary → ∀ authorization authorization' t t',
    s.tag authorization = some t → s.tag authorization' = some t' → t.session = t'.session →
      t.selector = t'.selector

section Tagged
variable {stable canary : String} {authorization : Option String} {t : Tags}

theorem tag_eq (hs : s.type.sharesRequests = true) (hr : s.revisions = [stable, canary])
    (authorization : Option String) :
    s.tag authorization = some {
      selector :=
        match bucket? authorization with
        | some b => selectRevision b s.share stable canary
        | none => stable
      session := if s.type = .stickyCanary then (bucket? authorization).map toString else none
      dependencies := s.boundDependencies } := by
  rw [tag, hs, hr]
  rfl

theorem selected?_atRatio (hs : s.type.sharesRequests = true)
    (hr : s.revisions = [stable, canary]) (ratio : Nat) (authorization : Option String) :
    (s.atRatio ratio).selected? authorization
      = some (if (bucket? authorization).any (· < ratio) then canary else stable) := by
  have hs' : (s.atRatio ratio).type.sharesRequests = true := hs
  rw [selected?, tag_eq hs' hr]
  cases bucket? authorization with
  | none => rfl
  | some b => by_cases hb : b < ratio <;> simp [selectRevision, share, atRatio, hb]

/-- The canary has exactly the buckets below the ratio. -/
theorem selected?_eq_canary_iff (hs : s.type.sharesRequests = true)
    (hr : s.revisions = [stable, canary]) (hne : stable ≠ canary) {ratio : Nat} :
    (s.atRatio ratio).selected? authorization = some canary ↔
      ∃ b, bucket? authorization = some b ∧ b < ratio := by
  rw [selected?_atRatio hs hr]
  cases bucket? authorization with
  | none => simp [hne]
  | some b => simp [hne]

theorem selected?_eq_stable_iff (hs : s.type.sharesRequests = true)
    (hr : s.revisions = [stable, canary]) (hne : stable ≠ canary) {ratio : Nat} :
    (s.atRatio ratio).selected? authorization = some stable ↔
      ∀ b, bucket? authorization = some b → ratio ≤ b := by
  rw [selected?_atRatio hs hr]
  cases bucket? authorization with
  | none => simp
  | some b => simp [hne.symm]

theorem validate_atRatio (hv : s.validate = .ok ()) (hs : s.type.sharesRequests = true)
    {ratio : Nat} (hle : ratio ≤ 100) : (s.atRatio ratio).validate = .ok () := by
  have h := passed_of_validate hv
  have hpassed : (s.atRatio ratio).Passed :=
    { h with ratio := by simp [ratioFlaw?, atRatio, hs, hle] }
  exact hpassed.validate

theorem session_eq (hs : s.type.sharesRequests = true) (hr : s.revisions = [stable, canary])
    (hsticky : s.type = .stickyCanary) (ht : s.tag authorization = some t) :
    t.session = (bucket? authorization).map toString := by
  rw [tag_eq hs hr, Option.some_inj] at ht
  rw [← ht]
  exact if_pos hsticky

/-- The number of the session is the bucket, and the bucket fixes the revision. -/
theorem selector_eq_of_session_eq (hs : s.type.sharesRequests = true)
    (hr : s.revisions = [stable, canary]) (hsticky : s.type = .stickyCanary)
    {authorization' : Option String} {t' : Tags} (ht : s.tag authorization = some t)
    (ht' : s.tag authorization' = some t') (h : t.session = t'.session) :
    t.selector = t'.selector := by
  rw [session_eq hs hr hsticky ht, session_eq hs hr hsticky ht'] at h
  have hbucket := Option.map_injective (fun _ _ => number_inj) h
  rw [tag_eq hs hr, Option.some_inj] at ht ht'
  rw [← ht, ← ht', hbucket]

end Tagged

/-- A service that shares its requests has a steady rollout, and no step of the hash leaves 32 bits,
whatever bytes a credential has and however many. -/
theorem rollout_is_steady (hv : s.validate = .ok ()) (hs : s.type.sharesRequests = true) :
    (∃ stable canary, s.SteadyRollout stable canary) ∧
      ∀ (bytes : List UInt8) (byte : UInt8),
        bytes.foldl hashStep 0 * hashBase + byte.toNat < Nat.pow 2 32 := by
  have h := passed_of_validate hv
  obtain ⟨stable, canary, hr⟩ := h.revisions_eq hs
  have hne : stable ≠ canary := by
    have hd := h.distinct
    rw [hr, equalRevisions?] at hd
    simpa using hd
  refine ⟨⟨stable, canary, ?_⟩, fun bytes byte =>
    hash_fits (foldl_hashStep_lt (by decide) bytes) byte⟩
  constructor
  case revisions => exact hr
  case distinct => exact hne
  case valid => exact fun ratio hle => validate_atRatio hv hs hle
  case tagged =>
    intro ratio authorization
    rw [selected?_atRatio hs hr]
    split
    · exact .inr rfl
    · exact .inl rfl
  case raised =>
    intro ratio ratio' authorization hle _ hc
    obtain ⟨b, hb, hlt⟩ := (selected?_eq_canary_iff hs hr hne).1 hc
    exact (selected?_eq_canary_iff hs hr hne).2 ⟨b, hb, Nat.lt_of_lt_of_le hlt hle⟩
  case none_at_zero =>
    exact fun authorization => (selected?_eq_stable_iff hs hr hne).2 fun b _ => Nat.zero_le b
  case all_at_hundred =>
    intro authorization hc
    obtain ⟨b, hb⟩ := Option.ne_none_iff_exists'.1 fun hnone => bucket?_eq_none_iff.1 hnone hc
    exact (selected?_eq_canary_iff hs hr hne).2 ⟨b, hb, lt_of_bucket? hb⟩
  case anonymous =>
    intro ratio authorization hc
    refine (selected?_eq_stable_iff hs hr hne).2 fun b hb => ?_
    rw [bucket?_eq_none_iff.2 hc] at hb
    cases hb
  case session =>
    intro hsticky authorization t ht
    rw [session_eq hs hr hsticky ht, Option.map_eq_none_iff, bucket?_eq_none_iff]
    refine ⟨Iff.rfl, fun x hx => ?_⟩
    obtain ⟨b, hb, rfl⟩ := Option.map_eq_some_iff.1 hx
    exact ⟨b, lt_of_bucket? hb, rfl⟩
  case sticky =>
    intro hsticky authorization authorization' t t' ht ht' hsame
    exact selector_eq_of_session_eq hs hr hsticky ht ht' hsame

def risingCheckout : Service where
  name := "checkout"
  space := "shop"
  type := .stickyCanary
  revisions := ["r1", "r2"]
  ratio := some 5

/-- The caller stands in bucket 5, which goes to the canary as the ratio goes from 5 to 6. -/
theorem risingCheckout_is_steady :
    risingCheckout.validate = .ok () ∧ risingCheckout.type.sharesRequests = true ∧
      ((∃ stable canary, risingCheckout.SteadyRollout stable canary) ∧
        ∀ (bytes : List UInt8) (byte : UInt8),
          bytes.foldl hashStep 0 * hashBase + byte.toNat < Nat.pow 2 32) ∧
      risingCheckout.selected? (some "Bearer ab") = some "r1" ∧
      (risingCheckout.atRatio 6).selected? (some "Bearer ab") = some "r2" :=
  ⟨rfl, rfl, rollout_is_steady rfl rfl, by decide +kernel, by decide +kernel⟩

end Service

end MeshRollout

import MeshRollout.Proofs.Service.Valid

/-!
Which services are well formed, told without the order in which the rules are checked. The checks
accept exactly these services, and a refusal names a part that really breaks a rule.
-/
set_option autoImplicit false

namespace MeshRollout

structure IsLabel (s : String) : Prop where
  length : 1 ≤ s.length ∧ s.length ≤ 63
  chars : ∀ c ∈ s.toList, ('a' ≤ c ∧ c ≤ 'z') ∨ ('0' ≤ c ∧ c ≤ '9') ∨ c = '-'
  first : s.toList.head? ≠ some '-'
  last : s.toList.getLast? ≠ some '-'

structure IsRevision (s : String) : Prop where
  length : 1 ≤ s.length ∧ s.length ≤ 63
  chars : ∀ c ∈ s.toList,
    ('a' ≤ c ∧ c ≤ 'z') ∨ ('A' ≤ c ∧ c ≤ 'Z') ∨ ('0' ≤ c ∧ c ≤ '9') ∨ c = '.' ∨ c = '_' ∨ c = '-'

section Texts

variable {s : String}

theorem isLabelChar_iff {c : Char} :
    isLabelChar c = true ↔ ('a' ≤ c ∧ c ≤ 'z') ∨ ('0' ≤ c ∧ c ≤ '9') ∨ c = '-' := by
  simp [isLabelChar, isLowerOrDigit, or_assoc]

theorem isRevisionChar_iff {c : Char} :
    isRevisionChar c = true ↔
      ('a' ≤ c ∧ c ≤ 'z') ∨ ('A' ≤ c ∧ c ≤ 'Z') ∨ ('0' ≤ c ∧ c ≤ '9') ∨
        c = '.' ∨ c = '_' ∨ c = '-' := by
  simp only [isRevisionChar, isLowerOrDigit, Bool.or_eq_true, Bool.and_eq_true, decide_eq_true_eq,
    or_assoc]
  exact or_congr_right or_left_comm

theorem isRevisionChar_of_label {c : Char} (h : isLabelChar c = true) :
    isRevisionChar c = true := by
  rcases isLabelChar_iff.1 h with hc | hc | hc <;> simp [isRevisionChar_iff, hc]

theorem utf8Size_of_isRevisionChar {c : Char} (h : isRevisionChar c = true) : c.utf8Size = 1 := by
  refine Char.utf8Size_eq_one_iff.2 ?_
  rcases isRevisionChar_iff.1 h with ⟨-, hc⟩ | ⟨-, hc⟩ | ⟨-, hc⟩ | rfl | rfl | rfl
  · exact UInt32.le_trans hc (by decide)
  · exact UInt32.le_trans hc (by decide)
  · exact UInt32.le_trans hc (by decide)
  all_goals decide

/-- Where every character takes one byte, counting characters is counting bytes. -/
theorem utf8ByteSize_eq_length (h : ∀ c ∈ s.toList, isRevisionChar c = true) :
    s.utf8ByteSize = s.length := by
  have hsize (cs : List Char) (hcs : ∀ c ∈ cs, isRevisionChar c = true) :
      (String.ofList cs).utf8ByteSize = cs.length := by
    induction cs with
    | nil => rfl
    | cons c cs ih =>
      obtain ⟨hc, hcs⟩ := List.forall_mem_cons.1 hcs
      rw [String.ofList_cons, String.utf8ByteSize_append, String.utf8ByteSize_singleton, ih hcs,
        utf8Size_of_isRevisionChar hc, List.length_cons, Nat.add_comm]
  have hs := hsize s.toList h
  rwa [String.ofList_toList, String.length_toList] at hs

theorem one_le_length_iff : 1 ≤ s.length ↔ s.toList ≠ [] := by
  rw [← String.length_toList]
  exact List.length_pos_iff

theorem labelFault?_eq_none_iff_isLabel : labelFault? s = none ↔ IsLabel s := by
  rw [labelFault?_eq_none_iff]
  constructor
  · rintro ⟨hne, hsize, hchars, hfirst, hlast⟩
    rw [utf8ByteSize_eq_length fun c hc => isRevisionChar_of_label (hchars c hc)] at hsize
    exact ⟨⟨one_le_length_iff.2 hne, hsize⟩, fun c hc => isLabelChar_iff.1 (hchars c hc), hfirst,
      hlast⟩
  · rintro ⟨⟨hpos, hle⟩, hchars, hfirst, hlast⟩
    have hlabel (c : Char) (hc : c ∈ s.toList) : isLabelChar c = true :=
      isLabelChar_iff.2 (hchars c hc)
    rw [utf8ByteSize_eq_length fun c hc => isRevisionChar_of_label (hlabel c hc)]
    exact ⟨one_le_length_iff.1 hpos, hle, hlabel, hfirst, hlast⟩

theorem revisionFault?_eq_none_iff :
    revisionFault? s = none ↔
      s.toList ≠ [] ∧ s.utf8ByteSize ≤ maxLabelLength ∧
        ∀ c ∈ s.toList, isRevisionChar c = true := by
  simp only [revisionFault?]
  by_cases he : s.toList = []
  · simp [he]
  by_cases hl : maxLabelLength < s.utf8ByteSize
  · have hl' : ¬ s.utf8ByteSize ≤ maxLabelLength := by omega
    simp [he, hl, hl']
  · have hl' : s.utf8ByteSize ≤ maxLabelLength := by omega
    simp [he, hl, hl']

theorem revisionFault?_eq_none_iff_isRevision : revisionFault? s = none ↔ IsRevision s := by
  rw [revisionFault?_eq_none_iff]
  constructor
  · rintro ⟨hne, hsize, hchars⟩
    rw [utf8ByteSize_eq_length hchars] at hsize
    exact ⟨⟨one_le_length_iff.2 hne, hsize⟩, fun c hc => isRevisionChar_iff.1 (hchars c hc)⟩
  · rintro ⟨⟨hpos, hle⟩, hchars⟩
    have hrevision (c : Char) (hc : c ∈ s.toList) : isRevisionChar c = true :=
      isRevisionChar_iff.2 (hchars c hc)
    rw [utf8ByteSize_eq_length hrevision]
    exact ⟨one_le_length_iff.1 hpos, hle, hrevision⟩

theorem not_isLabel_of_fault {f : LabelFault} (h : labelFault? s = some f) : ¬ IsLabel s :=
  fun hs => Option.some_ne_none f (h.symm.trans (labelFault?_eq_none_iff_isLabel.2 hs))

theorem not_isRevision_of_fault {f : RevisionFault} (h : revisionFault? s = some f) :
    ¬ IsRevision s :=
  fun hs => Option.some_ne_none f (h.symm.trans (revisionFault?_eq_none_iff_isRevision.2 hs))

end Texts

structure Dependency.WellFormed (d : Dependency) : Prop where
  name : IsLabel d.name
  space : IsLabel d.space
  revisions : ∀ r ∈ d.revisions, IsRevision r

structure DarkRelease.WellFormed (r : DarkRelease) : Prop where
  revision : IsRevision r.revision
  ips : r.ips ≠ []
  addresses : ∀ ip ∈ r.ips, Address.valid ip = true

namespace Service

/-- Only requests that are shared have a share, and it is given in percent. -/
def RatioFits (s : Service) : Prop :=
  match s.type with
  | .standard => s.ratio = none
  | .canary | .stickyCanary => ∃ share, s.ratio = some share ∧ share ≤ 100

structure WellFormed (s : Service) : Prop where
  name : IsLabel s.name
  space : IsLabel s.space
  revisionCount : s.revisions.length = 1 ∨ s.revisions.length = 2
  revisions : ∀ r ∈ s.revisions, IsRevision r
  distinct : s.revisions.Nodup
  ratio : s.RatioFits
  twoRevisions : s.type ≠ .standard → s.revisions.length = 2
  session : ∀ seconds, s.sessionSeconds = some seconds → 1 ≤ seconds ∧ seconds ≤ 3600
  dependencies : ∀ d ∈ s.dependencies, d.WellFormed
  places : (s.dependencies.map fun d => (d.space, d.name)).Nodup
  darkReleases : ∀ r ∈ s.darkReleases, r.WellFormed

inductive Violates (s : Service) : String → Prop where
  | name (h : ¬ IsLabel s.name) : Violates s "name"
  | space (h : ¬ IsLabel s.space) : Violates s "namespace"
  | revisionCount (h : ¬ (s.revisions.length = 1 ∨ s.revisions.length = 2)) :
      Violates s "commitHashes"
  | revision {r : String} (hr : r ∈ s.revisions) (h : ¬ IsRevision r) : Violates s "commitHashes"
  | distinct (h : ¬ s.revisions.Nodup) : Violates s "commitHashes"
  | twoRevisions (hs : s.type ≠ .standard) (h : s.revisions.length ≠ 2) : Violates s "commitHashes"
  | ratio (h : ¬ s.RatioFits) : Violates s "ratio"
  | session {seconds : Nat} (hs : s.sessionSeconds = some seconds)
      (h : ¬ (1 ≤ seconds ∧ seconds ≤ 3600)) : Violates s "sessionDuration"
  | dependency {before after : List Dependency} {d : Dependency}
      (hd : s.dependencies = before ++ d :: after)
      (h : ¬ d.WellFormed ∨ (d.space, d.name) ∈ before.map fun e => (e.space, e.name)) :
      Violates s (Flaw.entry "dependencies" before.length)
  | darkRelease {before after : List DarkRelease} {r : DarkRelease}
      (hr : s.darkReleases = before ++ r :: after) (h : ¬ r.WellFormed) :
      Violates s (Flaw.entry "darknessReleases" before.length)

variable {s : Service}

theorem Violates.not_wellFormed {field : String} (h : s.Violates field) : ¬ s.WellFormed := by
  intro hs
  cases h with
  | name h => exact h hs.name
  | space h => exact h hs.space
  | revisionCount h => exact h hs.revisionCount
  | revision hr h => exact h (hs.revisions _ hr)
  | distinct h => exact h hs.distinct
  | twoRevisions ht h => exact h (hs.twoRevisions ht)
  | ratio h => exact h hs.ratio
  | session hn h => exact h (hs.session _ hn)
  | @dependency before after d hd h =>
    rcases h with h | h
    · exact h (hs.dependencies d (hd ▸ List.mem_append_right _ List.mem_cons_self))
    · have hn := hs.places
      rw [hd, List.map_append, List.map_cons] at hn
      exact (List.nodup_append.1 hn).2.2 _ h _ List.mem_cons_self rfl
  | @darkRelease before after r hr h =>
    exact h (hs.darkReleases r (hr ▸ List.mem_append_right _ List.mem_cons_self))

section Accepted

theorem sharesRequests_iff {t : Strategy} : t.sharesRequests = true ↔ t ≠ .standard := by
  cases t <;> simp [Strategy.sharesRequests]

theorem ratioFlaw?_eq_none_iff : s.ratioFlaw? = none ↔ s.RatioFits := by
  unfold ratioFlaw? RatioFits
  cases s.type <;> cases s.ratio <;> simp [Strategy.sharesRequests]

theorem equalRevisions?_eq_none {revisions : List String} (hl : revisions.length ≤ 2)
    (h : equalRevisions? revisions = none) : revisions.Nodup := by
  match revisions, hl, h with
  | [], _, _ => exact List.nodup_nil
  | [a], _, _ => exact List.pairwise_singleton _ a
  | [a, b], _, h => simpa [equalRevisions?] using h

theorem ips_of_darkFlaw? {i : Nat} {rs : List DarkRelease} (h : darkFlaw? i rs = none)
    {r : DarkRelease} (hr : r ∈ rs) : r.ips ≠ [] := by
  induction rs generalizing i with
  | nil => cases hr
  | cons r' rs ih =>
    simp only [darkFlaw?, firstOf_eq_none_iff, List.forall_mem_cons, ite_eq_right_iff,
      List.isEmpty_iff, reduceCtorEq, imp_false] at h
    obtain ⟨-, hips, -, hrest, -⟩ := h
    rcases List.mem_cons.1 hr with rfl | hr
    · exact hips
    · exact ih hrest hr

theorem Passed.wellFormed (h : s.Passed) : s.WellFormed where
  name := labelFault?_eq_none_iff_isLabel.1 h.name
  space := labelFault?_eq_none_iff_isLabel.1 h.space
  revisionCount := by
    have hpos := List.length_pos_iff.2 h.revisionCount.1
    have hle := h.revisionCount.2
    omega
  revisions r hr :=
    revisionFault?_eq_none_iff_isRevision.1 (revisionFlaw?_eq_none_iff.1 h.revisions r hr)
  distinct := equalRevisions?_eq_none h.revisionCount.2 h.distinct
  ratio := ratioFlaw?_eq_none_iff.1 h.ratio
  twoRevisions ht := h.twoRevisions (sharesRequests_iff.2 ht)
  session n hn := by
    have hs := h.session
    simp only [sessionFlaw?, hn, Option.bind_some, maxSessionSeconds, gt_iff_lt, Bool.or_eq_true,
      decide_eq_true_eq, ite_eq_right_iff, reduceCtorEq, imp_false] at hs
    omega
  dependencies d hd := by
    obtain ⟨hname, hspace, hrevisions⟩ := dependency_of_passed h.dependencies hd
    exact ⟨labelFault?_eq_none_iff_isLabel.1 hname, labelFault?_eq_none_iff_isLabel.1 hspace,
      fun r hr => revisionFault?_eq_none_iff_isRevision.1 (hrevisions r hr)⟩
  places := (dependencies_nodup h.dependencies).1
  darkReleases r hr := by
    obtain ⟨hrevision, haddresses⟩ := dark_of_passed h.darkReleases hr
    exact ⟨revisionFault?_eq_none_iff_isRevision.1 hrevision, ips_of_darkFlaw? h.darkReleases hr,
      haddresses⟩

end Accepted

section Refused

theorem mem_of_firstOf {α : Type} {l : List (Option α)} {x : α} (h : firstOf l = some x) :
    some x ∈ l := by
  induction l with
  | nil => cases h
  | cons y l ih =>
    cases y with
    | some y =>
      cases Option.some.inj h
      exact List.mem_cons_self
    | none => exact List.mem_cons_of_mem _ (ih h)

theorem exists_of_revisionFlaw? {flaw : String → RevisionFault → Flaw} {revisions : List String}
    {f : Flaw} (h : revisionFlaw? flaw revisions = some f) :
    ∃ r ∈ revisions, ∃ fault, revisionFault? r = some fault ∧ f = flaw r fault := by
  obtain ⟨r, hr, hf⟩ := List.exists_of_findSome?_eq_some h
  obtain ⟨fault, hfault, rfl⟩ := Option.map_eq_some_iff.1 hf
  exact ⟨r, hr, fault, hfault, rfl⟩

theorem exists_of_dependencyFlaw? (before : List Dependency) {ds : List Dependency} {f : Flaw}
    (h : dependencyFlaw? before.length (before.map fun d => (d.space, d.name)).reverse ds
      = some f) :
    ∃ checked d after, before ++ ds = checked ++ d :: after ∧
      f.field = Flaw.entry "dependencies" checked.length ∧
      (¬ d.WellFormed ∨ (d.space, d.name) ∈ checked.map fun e => (e.space, e.name)) := by
  induction ds generalizing before with
  | nil => cases h
  | cons d ds ih =>
    have hm := mem_of_firstOf h
    simp only [List.mem_cons, List.not_mem_nil, or_false] at hm
    rcases hm with hm | hm | hm | hm | hm
    · obtain ⟨fault, hfault, rfl⟩ := Option.map_eq_some_iff.1 hm.symm
      exact ⟨before, d, ds, rfl, rfl, .inl fun hd => not_isLabel_of_fault hfault hd.name⟩
    · obtain ⟨fault, hfault, rfl⟩ := Option.map_eq_some_iff.1 hm.symm
      exact ⟨before, d, ds, rfl, rfl, .inl fun hd => not_isLabel_of_fault hfault hd.space⟩
    · split at hm
      · rename_i hseen
        cases hm
        exact ⟨before, d, ds, rfl, rfl, .inr (by simpa using hseen)⟩
      · cases hm
    · obtain ⟨r, hr, fault, hfault, rfl⟩ := exists_of_revisionFlaw? hm.symm
      exact ⟨before, d, ds, rfl, rfl,
        .inl fun hd => not_isRevision_of_fault hfault (hd.revisions r hr)⟩
    · have hrest := ih (before ++ [d]) (by simpa using hm.symm)
      simpa using hrest

theorem exists_of_darkFlaw? (before : List DarkRelease) {rs : List DarkRelease} {f : Flaw}
    (h : darkFlaw? before.length rs = some f) :
    ∃ checked r after, before ++ rs = checked ++ r :: after ∧
      f.field = Flaw.entry "darknessReleases" checked.length ∧ ¬ r.WellFormed := by
  induction rs generalizing before with
  | nil => cases h
  | cons r rs ih =>
    have hm := mem_of_firstOf h
    simp only [List.mem_cons, List.not_mem_nil, or_false] at hm
    rcases hm with hm | hm | hm | hm
    · obtain ⟨fault, hfault, rfl⟩ := Option.map_eq_some_iff.1 hm.symm
      exact ⟨before, r, rs, rfl, rfl, fun hr => not_isRevision_of_fault hfault hr.revision⟩
    · split at hm
      · rename_i hempty
        cases hm
        exact ⟨before, r, rs, rfl, rfl, fun hr => hr.ips (List.isEmpty_iff.1 hempty)⟩
      · cases hm
    · obtain ⟨ip, hip, hf⟩ := List.exists_of_findSome?_eq_some hm.symm
      split at hf
      · cases hf
      · rename_i hvalid
        cases hf
        exact ⟨before, r, rs, rfl, rfl, fun hr => hvalid (hr.addresses ip hip)⟩
    · have hrest := ih (before ++ [r]) (by simpa using hm.symm)
      simpa using hrest

theorem violates_of_ratioFlaw? {f : Flaw} (h : s.ratioFlaw? = some f) : s.Violates f.field := by
  have hratio : ¬ s.RatioFits := fun hr =>
    Option.some_ne_none f (h.symm.trans (ratioFlaw?_eq_none_iff.2 hr))
  have hfield : f.field = "ratio" := by
    unfold ratioFlaw? at h
    split at h
    · cases h
      rfl
    · cases h
      rfl
    · split at h
      · cases h
        rfl
      · cases h
    · cases h
  exact hfield ▸ .ratio hratio

theorem violates_of_sessionFlaw? {f : Flaw} (h : s.sessionFlaw? = some f) :
    s.Violates f.field := by
  obtain ⟨n, hn, hf⟩ := Option.bind_eq_some_iff.1 h
  split at hf
  · rename_i hbad
    cases hf
    simp only [maxSessionSeconds, gt_iff_lt, Bool.or_eq_true, decide_eq_true_eq] at hbad
    exact .session hn (by omega)
  · cases hf

theorem violates_of_flaw? {f : Flaw} (h : s.flaw? = some f) : s.Violates f.field := by
  have hm := mem_of_firstOf h
  simp only [List.mem_cons, List.not_mem_nil, or_false] at hm
  rcases hm with hm | hm | hm | hm | hm | hm | hm | hm | hm | hm
  · obtain ⟨fault, hfault, rfl⟩ := Option.map_eq_some_iff.1 hm.symm
    exact .name (not_isLabel_of_fault hfault)
  · obtain ⟨fault, hfault, rfl⟩ := Option.map_eq_some_iff.1 hm.symm
    exact .space (not_isLabel_of_fault hfault)
  · split at hm
    · rename_i hcount
      cases hm
      simp only [Bool.or_eq_true, List.isEmpty_iff_length_eq_zero, decide_eq_true_eq] at hcount
      exact .revisionCount (by omega)
    · cases hm
  · obtain ⟨r, hr, fault, hfault, rfl⟩ := exists_of_revisionFlaw? hm.symm
    exact .revision hr (not_isRevision_of_fault hfault)
  · unfold equalRevisions? at hm
    split at hm
    · rename_i a b hab
      split at hm
      · rename_i heq
        cases hm
        exact .distinct (by simp [hab, heq])
      · cases hm
    · cases hm
  · exact violates_of_ratioFlaw? hm.symm
  · split at hm
    · rename_i htwo
      cases hm
      simp only [Bool.and_eq_true, sharesRequests_iff, decide_eq_true_eq] at htwo
      exact .twoRevisions htwo.1 htwo.2
    · cases hm
  · exact violates_of_sessionFlaw? hm.symm
  · obtain ⟨before, d, after, hd, hfield, hbad⟩ := exists_of_dependencyFlaw? [] hm.symm
    exact hfield ▸ .dependency hd hbad
  · obtain ⟨before, r, after, hr, hfield, hbad⟩ := exists_of_darkFlaw? [] hm.symm
    exact hfield ▸ .darkRelease hr hbad

end Refused

/-- The checks accept exactly the well-formed services. A refusal names the service and a part of
it that breaks a rule. -/
theorem validate_accepts_wellFormed (s : Service) :
    (s.validate = .ok () ↔ s.WellFormed) ∧
      ∀ f, s.validate = .error f →
        ∃ message field, f = .validation s.key message (some field) ∧ s.Violates field := by
  cases hf : s.flaw? with
  | none =>
    have hv : s.validate = .ok () := validate_eq_ok_iff.2 hf
    have hs : s.WellFormed := (flaw?_eq_none_iff.1 hf).wellFormed
    refine ⟨iff_of_true hv hs, fun f h => ?_⟩
    cases hv.symm.trans h
  | some flaw =>
    have hbad : s.Violates flaw.field := violates_of_flaw? hf
    have hv : s.validate = .error (.validation s.key flaw.message (some flaw.field)) := by
      rw [validate, hf]
    have hne : s.validate ≠ .ok () := by
      rw [hv]
      exact fun h => by cases h
    refine ⟨iff_of_false hne hbad.not_wellFormed, fun f h => ?_⟩
    obtain rfl := Except.error.inj (hv.symm.trans h)
    exact ⟨flaw.message, flaw.field, rfl, hbad⟩

def torn : Service where
  name := "shop"
  space := "web"
  revisions := ["1.4.0"]
  dependencies := [⟨"cart", "web", ["2.0"]⟩, ⟨"cart", "web", []⟩]

theorem torn_validate_accepts :
    (torn.validate = .ok () ↔ torn.WellFormed) ∧ ¬ torn.WellFormed ∧
      torn.Violates "dependencies[1]" := by
  obtain ⟨haccepts, hrefuses⟩ := validate_accepts_wellFormed torn
  have hflaw : torn.flaw? = some (.dependencyTwice 1 "web" "cart") := by decide +kernel
  have hv : torn.validate = .error (.validation "web/shop"
      "dependency web/cart listed more than once" (some "dependencies[1]")) := by
    rw [validate, hflaw]
    rfl
  obtain ⟨_, field, hf, hbad⟩ := hrefuses _ hv
  cases hf
  exact ⟨haccepts, hbad.not_wellFormed, hbad⟩

end Service

end MeshRollout

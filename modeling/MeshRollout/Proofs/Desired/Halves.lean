import MeshRollout.Proofs.Desired.Tidying

/-!
A pass over a manifest, told by its parts: the deletion of routes, the application of routes, and
the application of all other objects. A rejection in the first half does not keep the second one
from being made.
-/
set_option autoImplicit false

namespace MeshRollout

open MemoryStore (serve)
open Pass (on callsOn)
open Convergence (tidy Tidied Surplus InReach)

namespace Manifest

def routes (ds : List WantedObject) : List WantedObject :=
  ds.filter (WantedObject.isOf Route.resource)

def KeepsRoutesApart (ds : List WantedObject) : Prop :=
  ∀ d ∈ ds, d.identity.resource.group = Route.resource.group →
    d.identity.resource.plural = Route.resource.plural → d.isOf Route.resource = true

instance (ds : List WantedObject) : Decidable (KeepsRoutesApart ds) :=
  inferInstanceAs (Decidable (∀ d ∈ ds, _ → _ → _))

variable {ds : List WantedObject} {d : WantedObject}

theorem mem_routes : d ∈ routes ds ↔ d ∈ ds ∧ d.isOf Route.resource = true :=
  List.mem_filter

theorem mem_others : d ∈ others Route.resource ds ↔ d ∈ ds ∧ d.isOf Route.resource = false := by
  rw [others, List.mem_filter, Bool.not_eq_true']

theorem mem_halves : d ∈ routes ds ++ others Route.resource ds ↔ d ∈ ds := by
  rw [List.mem_append, mem_routes, mem_others]
  cases d.isOf Route.resource <;> simp

theorem length_halves (ds : List WantedObject) :
    (routes ds).length + (others Route.resource ds).length = ds.length := by
  induction ds with
  | nil => rfl
  | cons d ds ih =>
    rw [routes, others] at ih ⊢
    cases h : d.isOf Route.resource <;> simp [h] <;> omega

variable (hds : ∀ d ∈ ds, d.Typed)
include hds

theorem stray_managed (r : Resource) : Convergence.stray? r (managed r ds) = none := by
  simp only [Convergence.stray?, managed, List.find?_eq_none, List.mem_map, List.mem_filter]
  rintro _ ⟨d, ⟨hd, hr⟩, rfl⟩
  obtain ⟨apiVersion, kind, hid, ht⟩ := hds d hd
  simp only [WantedObject.isOf, hid, Bool.and_eq_true, beq_iff_eq] at hr
  have hkind : kind = r.kind := hr.2
  simp [ht, hkind]

variable (hapart : KeepsRoutesApart ds)
include hapart

theorem place_resource_iff (hd : d ∈ ds) :
    d.place.resource = StoreKey.resourceText Route.resource ↔ d.isOf Route.resource = true := by
  obtain ⟨apiVersion, kind, hid, -⟩ := hds d hd
  have hslash : '/' ∉ d.identity.resource.group.toList :=
    hid ▸ Resource.slash_not_mem_group apiVersion kind
  have htext : d.place.resource = StoreKey.resourceText Route.resource ↔
      d.identity.resource.group = Route.resource.group ∧
        d.identity.resource.plural = Route.resource.plural :=
    Resource.resourceText_eq_iff hslash Resource.slash_not_mem_routeGroup
  rw [htext]
  exact ⟨fun h => hapart d hd h.1 h.2, (hds d hd).plural_eq⟩

/-- What a document wants is never deleted. -/
theorem not_surplus (hd : d ∈ ds) :
    ¬ Surplus Route.resource (managed Route.resource ds) d.place := by
  rintro ⟨⟨hr, -⟩, hno⟩
  have hroute := (place_resource_iff hds hapart hd).1 hr
  have hkey := (hds d hd).ofObject_target
  rw [WantedObject.target, if_pos hroute] at hkey
  exact hno d.object (List.mem_map.2 ⟨d, List.mem_filter.2 ⟨hd, hroute⟩, rfl⟩) hkey

/-- The halves do not disturb each other. -/
theorem decides_halves (h : d.Decides ds) : d.Decides (routes ds ++ others Route.resource ds) := by
  rw [WantedObject.Decides.append_iff]
  -- routes come first, so a route must not be replaced by the second half either
  cases hr : d.isOf Route.resource with
  | true =>
    refine .inl ⟨h.filter hr, fun x hx he => ?_⟩
    obtain ⟨hx, hxr⟩ := mem_others.1 hx
    have hplace := (place_resource_iff hds hapart h.mem).2 hr
    rw [← he] at hplace
    nomatch hxr.symm.trans ((place_resource_iff hds hapart hx).1 hplace)
  | false => exact .inr (h.filter (by rw [hr]; rfl))

end Manifest

namespace Progress

variable {p q q' : Progress} {x : Except Failure Report} {r : Report}

theorem finish_of_none (h : p.rejection = none) : p.finish = .ok p.report := by
  rw [finish, h]

theorem finish_of_some {f : Failure} (h : p.rejection = some f) : p.finish = .error f := by
  rw [finish, h]

theorem rejection_of_finish (h : p.finish = .ok r) : p.rejection = none := by
  cases hp : p.rejection with
  | none => rfl
  | some f => nomatch (finish_of_some hp).symm.trans h

end Progress

namespace Alignment

open WantedObject (bringEach)
open Manifest (routes others managed)

variable {σ : Type} {answer : (c : Call) → σ → c.Answer × σ} {manager : String}
  {ds : List WantedObject} {p p' q q' : Progress} {x : Except Failure Report}

def bringAll (manager : String) (ds : List WantedObject) : Pass Report := do
  let p ← takingIn {} (Convergence.converge manager Route.resource (managed Route.resource ds))
  let p ← takingIn p (Convergence.applyOthers manager (others Route.resource ds))
  Pass.ofExcept p.finish

theorem pass_eq (manager : String) :
    pass manager = (do
      let text ← Pass.fetch
      let ds ← Pass.ofExcept (Manifest.read text)
      bringAll manager ds) :=
  rfl

theorem takeIn_of_rejection_none (h : takeIn q x = .ok q') (hq : q'.rejection = none) :
    q.rejection = none ∧ ∃ r, x = .ok r := by
  cases x with
  | ok r =>
    cases h
    exact ⟨hq, r, rfl⟩
  | error f =>
    simp only [takeIn] at h
    split at h
    · cases h
      simp at hq
    · nomatch h

def half (part : Pass Progress) : Pass Report := do
  let p ← part
  Pass.ofExcept p.finish

theorem on_takingIn (q : Progress) (part : Pass Progress) (s : σ) :
    on answer (takingIn q (half part)) s
      = (takeIn q ((on answer part s).1 >>= Progress.finish), (on answer part s).2) := by
  rw [takingIn, Pass.on_bind, Pass.on_attempt, half, Pass.on_bind]
  rcases on answer part s with ⟨result, s'⟩
  cases result with
  | ok p => rfl
  | error f => rfl

theorem callsOn_takingIn (q : Progress) (part : Pass Progress) (s : σ) :
    callsOn answer (takingIn q (half part)) s = callsOn answer part s := by
  rw [takingIn, Pass.callsOn_bind, Pass.on_attempt, Pass.callsOn_attempt, half, Pass.callsOn_bind]
  rcases on answer part s with ⟨result, s'⟩
  cases result with
  | ok p => simp
  | error f => simp

def bringRoutes (manager : String) (ds : List WantedObject) : Pass Progress := do
  let p ← tidy Route.resource (managed Route.resource ds)
  bringEach manager p (routes ds)

theorem bringAll_eq (hds : ∀ d ∈ ds, d.Typed) :
    bringAll manager ds = (do
      let p ← takingIn {} (half (bringRoutes manager ds))
      let p ← takingIn p (half (bringEach manager {} (others Route.resource ds)))
      Pass.ofExcept p.finish) := by
  have hroutes : Convergence.converge manager Route.resource (managed Route.resource ds)
      = half (bringRoutes manager ds) := by
    rw [Convergence.converge_eq manager (Manifest.stray_managed hds _), half, bringRoutes, bind_assoc]
    exact congrArg _ (funext fun p => congrArg (· >>= _)
      (WantedObject.applyAll_managed manager p ds))
  have hothers : Convergence.applyOthers manager (others Route.resource ds)
      = half (bringEach manager {} (others Route.resource ds)) :=
    congrArg half (WantedObject.applyEach_others manager {} ds)
  rw [bringAll, hroutes, hothers]

structure Parts (answer : (c : Call) → σ → c.Answer × σ) (manager : String)
    (ds : List WantedObject) (s : σ) (p₀ : Progress) (s₀ : σ) (p₁ : Progress) (s₁ : σ)
    (p₂ : Progress) (s₂ : σ) : Prop where
  tidied : on answer (tidy Route.resource (managed Route.resource ds)) s = (.ok p₀, s₀)
  first : on answer (bringEach manager p₀ (routes ds)) s₀ = (.ok p₁, s₁)
  second : on answer (bringEach manager {} (others Route.resource ds)) s₁ = (.ok p₂, s₂)

variable {s s₀ s₁ s₂ : σ} {p₀ p₁ p₂ : Progress}

theorem exists_on_takingIn (q : Progress) {part : Pass Progress} {s' : σ}
    (h : on answer part s = (.ok p, s'))
    (hp : ∀ f, p.rejection = some f → f.awaitsPrerequisite = true) :
    ∃ q', on answer (takingIn q (half part)) s = (.ok q', s') ∧
      q'.rejection = q.rejection.or p.rejection ∧
      (p.rejection = none → q'.report = q.report.merge p.report) := by
  have hon : on answer (takingIn q (half part)) s = (takeIn q p.finish, s') := by
    rw [on_takingIn, h]
    rfl
  rw [hon]
  cases hr : p.rejection with
  | none =>
    refine ⟨{ q with report := q.report.merge p.report }, ?_, (Option.or_none).symm, fun _ => rfl⟩
    rw [Progress.finish_of_none hr, takeIn]
  | some f =>
    refine ⟨{ q with rejection := q.rejection.or (some f) }, ?_, rfl, fun h => nomatch h⟩
    rw [Progress.finish_of_some hr, takeIn, if_pos (hp f hr)]

theorem takingIn_of_rejection_none {part : Pass Progress} {s' : σ}
    (h : on answer (takingIn q (half part)) s = (.ok q', s')) (hq : q'.rejection = none) :
    q.rejection = none ∧ ∃ p, on answer part s = (.ok p, s') ∧ p.rejection = none := by
  rw [on_takingIn] at h
  obtain ⟨htaken, hs'⟩ := Prod.mk.inj h
  obtain ⟨hprior, r, hr⟩ := takeIn_of_rejection_none htaken hq
  obtain ⟨p, hp, hfinish⟩ := ok_of_bind hr
  exact ⟨hprior, p, Prod.ext hp hs', Progress.rejection_of_finish hfinish⟩

theorem exists_parts (hds : ∀ d ∈ ds, d.Typed) {report : Report}
    (h : on answer (bringAll manager ds) s = (.ok report, s₂)) :
    ∃ p₀ s₀ p₁ s₁ p₂, Parts answer manager ds s p₀ s₀ p₁ s₁ p₂ s₂ ∧ p₁.rejection = none ∧
      p₂.rejection = none := by
  rw [bringAll_eq hds] at h
  obtain ⟨q₁, s₁, h₁, h⟩ := Pass.ok_of_on_bind h
  obtain ⟨q₂, s₂', h₂, h⟩ := Pass.ok_of_on_bind h
  obtain ⟨hfinish, rfl⟩ := Prod.mk.inj h
  obtain ⟨hq₁, p₂, hothers, hp₂⟩ :=
    takingIn_of_rejection_none h₂ (Progress.rejection_of_finish hfinish)
  obtain ⟨-, p₁, hfirst, hp₁⟩ := takingIn_of_rejection_none h₁ hq₁
  obtain ⟨p₀, s₀, htidy, hroutes⟩ := Pass.ok_of_on_bind hfirst
  exact ⟨p₀, s₀, p₁, s₁, p₂, ⟨htidy, hroutes, hothers⟩, hp₁, hp₂⟩

namespace Parts

variable (h : Parts answer manager ds s p₀ s₀ p₁ s₁ p₂ s₂)
include h

theorem on_bringRoutes : on answer (bringRoutes manager ds) s = (.ok p₁, s₁) := by
  rw [bringRoutes, Pass.on_bind, h.tidied]
  exact h.first

variable (hds : ∀ d ∈ ds, d.Typed)
  (h₁ : ∀ f, p₁.rejection = some f → f.awaitsPrerequisite = true)
include hds h₁

theorem callsOn_bringAll :
    callsOn answer (bringAll manager ds) s
      = callsOn answer (tidy Route.resource (managed Route.resource ds)) s
        ++ callsOn answer (bringEach manager p₀ (routes ds)) s₀
        ++ callsOn answer (bringEach manager {} (others Route.resource ds)) s₁ := by
  obtain ⟨q₁, hq₁, -⟩ := exists_on_takingIn {} h.on_bringRoutes h₁
  have hfirst : callsOn answer (bringRoutes manager ds) s
      = callsOn answer (tidy Route.resource (managed Route.resource ds)) s
        ++ callsOn answer (bringEach manager p₀ (routes ds)) s₀ := by
    rw [bringRoutes, Pass.callsOn_bind, h.tidied]
  have hsecond :
      callsOn answer (takingIn q₁ (half (bringEach manager {} (others Route.resource ds)))
        >>= fun p => Pass.ofExcept p.finish) s₁
      = callsOn answer (bringEach manager {} (others Route.resource ds)) s₁ := by
    rw [Pass.callsOn_bind, callsOn_takingIn]
    split <;> simp
  rw [bringAll_eq hds, Pass.callsOn_bind, callsOn_takingIn, hfirst, hq₁]
  exact congrArg _ hsecond

variable (h₂ : ∀ f, p₂.rejection = some f → f.awaitsPrerequisite = true)
include h₂

/-- A rejection in either half becomes the result at the end, the one in the first half first. -/
theorem on_bringAll :
    (on answer (bringAll manager ds) s).2 = s₂ ∧
      (∀ f, p₁.rejection.or p₂.rejection = some f →
        (on answer (bringAll manager ds) s).1 = .error f) ∧
      (p₁.rejection.or p₂.rejection = none → (on answer (bringAll manager ds) s).1
        = .ok ((Report.merge {} p₁.report).merge p₂.report)) := by
  obtain ⟨q₁, hq₁, hrej₁, hrep₁⟩ := exists_on_takingIn {} h.on_bringRoutes h₁
  obtain ⟨q₂, hq₂, hrej₂, hrep₂⟩ := exists_on_takingIn q₁ h.second h₂
  have hon : on answer (bringAll manager ds) s = (q₂.finish, s₂) := by
    simp only [bringAll_eq hds, Pass.on_bind, hq₁, hq₂, Pass.on_ofExcept]
  have hrej : q₂.rejection = p₁.rejection.or p₂.rejection := by
    rw [hrej₂, hrej₁]
    rfl
  rw [hon]
  refine ⟨rfl, fun f hf => Progress.finish_of_some (hrej.trans hf), fun hnone => ?_⟩
  obtain ⟨hn₁, hn₂⟩ := Option.or_eq_none_iff.1 hnone
  rw [Progress.finish_of_none (hrej.trans hnone), hrep₂ hn₂, hrep₁ hn₁]

end Parts

section Store

variable {s s₀ s₁ s₂ : MemoryStore} {d : WantedObject} (hds : ∀ d ∈ ds, d.Typed) (hs : s.Sound)
  (h : Parts serve manager ds s p₀ s₀ p₁ s₁ p₂ s₂)

namespace Parts

include hs h in
theorem tidied_store :
    p₀.rejection = none ∧ Tidied Route.resource (managed Route.resource ds) s s₀ ∧
      s₀.refusedApplies = s.refusedApplies := by
  obtain ⟨hp₀, htidied⟩ := Convergence.tidied hs h.tidied
  refine ⟨hp₀, htidied, ?_⟩
  rw [← Pass.refusedApplies_on (tidy Route.resource (managed Route.resource ds)) s, h.tidied]

include hds h in
theorem first_store :
    WantedObject.BroughtAll (routes ds) s₀ s₁ ∧
      p₁.rejection = p₀.rejection.or (WantedObject.firstRejection (routes ds) s₀) :=
  WantedObject.bringEach_stored (fun d hd => hds d (Manifest.mem_routes.1 hd).1) h.first

include hds h in
theorem second_store :
    WantedObject.BroughtAll (others Route.resource ds) s₁ s₂ ∧
      p₂.rejection = WantedObject.firstRejection (others Route.resource ds) s₁ :=
  WantedObject.bringEach_stored (fun d hd => hds d (Manifest.mem_others.1 hd).1) h.second

variable {k : StoreKey}
include hds hs h

theorem spared (hk : ¬ Surplus Route.resource (managed Route.resource ds) k)
    (hlive : s.find k ≠ none) : s₂.find k ≠ none := by
  obtain ⟨-, htidied, -⟩ := h.tidied_store hs
  obtain ⟨h₁, -⟩ := h.first_store hds
  obtain ⟨h₂, -⟩ := h.second_store hds
  exact h₂.kept k (h₁.kept k (by rwa [htidied.elsewhere k hk]))

theorem awaits :
    (∀ f, p₁.rejection = some f → f.awaitsPrerequisite = true) ∧
      ∀ f, p₂.rejection = some f → f.awaitsPrerequisite = true := by
  obtain ⟨hp₀, -, -⟩ := h.tidied_store hs
  obtain ⟨-, hp₁⟩ := h.first_store hds
  obtain ⟨-, hp₂⟩ := h.second_store hds
  rw [hp₁, hp₂, hp₀, Option.none_or]
  exact ⟨fun _ => WantedObject.awaits_of_firstRejection,
    fun _ => WantedObject.awaits_of_firstRejection⟩

variable (hapart : Manifest.KeepsRoutesApart ds)
include hapart

/-- What was deleted stays away, as no document wants it. -/
theorem none_surplus (hk : Surplus Route.resource (managed Route.resource ds) k) :
    s₂.find k = none := by
  obtain ⟨-, htidied, -⟩ := h.tidied_store hs
  obtain ⟨h₁, -⟩ := h.first_store hds
  obtain ⟨h₂, -⟩ := h.second_store hds
  refine ((h₁.append h₂).elsewhere k fun d hd he => ?_).trans (htidied.gone k hk)
  exact Manifest.not_surplus hds hapart (Manifest.mem_halves.1 hd) (he ▸ hk)

/-- The deletions do not change whether a document is rejected. -/
theorem rejected_eq (hd : d ∈ ds) : d.rejected s₀ = d.rejected s := by
  obtain ⟨-, htidied, hrefusals⟩ := h.tidied_store hs
  have hsame := htidied.elsewhere d.place (Manifest.not_surplus hds hapart hd)
  rw [WantedObject.rejected, WantedObject.rejected, WantedObject.fits_congr hsame,
    MemoryStore.refuses, MemoryStore.refuses, hrefusals]

theorem rejection_eq :
    p₁.rejection.or p₂.rejection
      = WantedObject.firstRejection (routes ds ++ others Route.resource ds) s := by
  obtain ⟨hp₀, -, hrefusals⟩ := h.tidied_store hs
  obtain ⟨h₁, hp₁⟩ := h.first_store hds
  obtain ⟨-, hp₂⟩ := h.second_store hds
  rw [hp₁, hp₂, hp₀, Option.none_or,
    WantedObject.firstRejection_congr (fun d _ => h₁.rejected_eq d) h₁.refusals,
    ← WantedObject.firstRejection_append]
  exact WantedObject.firstRejection_congr
    (fun d hd => h.rejected_eq hds hs hapart (Manifest.mem_halves.1 hd)) hrefusals

theorem fits (hd : d.Decides ds) (hr : d.rejected s = false) : d.fits s₂ = true := by
  obtain ⟨h₁, -⟩ := h.first_store hds
  obtain ⟨h₂, -⟩ := h.second_store hds
  refine (h₁.append h₂).fits d (Manifest.decides_halves hds hapart hd) ?_
  rw [h.rejected_eq hds hs hapart hd.mem, hr]

end Parts

end Store

section World

open Program

theorem deaf_bringAll (manager : String) (ds : List WantedObject) : (bringAll manager ds).Deaf := by
  refine (deaf_takingIn (Convergence.deaf_converge manager _ _) _).bind fun p => ?_
  refine (deaf_takingIn (Convergence.deaf_applyOthers manager _) p).bind fun _ => ?_
  exact Pass.deaf_ofExcept _

theorem uses_bringEach (p : Progress) (l : List WantedObject) :
    (bringEach manager p l).Uses fun c => c.isLocal = true := by
  have hbring (p : Progress) (d : WantedObject) :
      (WantedObject.bring manager p d).Uses fun c => c.isLocal = true := by
    refine Pass.Uses.bind ⟨rfl, fun _ => trivial⟩ fun found => ?_
    split
    · exact Pass.uses_pure _
    · have hattempt : (Pass.apply d.target d.object manager).attempt.Uses
          fun c => c.isLocal = true :=
        Pass.Uses.attempt ⟨rfl, fun _ => trivial⟩
      refine hattempt.bind fun result => ?_
      cases result with
      | ok o => exact (Pass.uses_notify (fun _ => rfl) _).bind fun _ => Pass.uses_pure _
      | error f =>
        simp only
        split
        · exact Pass.uses_pure _
        · exact (Pass.uses_notify (fun _ => rfl) _).bind fun _ => Pass.uses_throw f
  induction l generalizing p with
  | nil => exact Pass.uses_pure p
  | cons d l ih => exact (hbring p d).bind fun p' => ih p'

theorem uses_bringAll (hds : ∀ d ∈ ds, d.Typed) :
    (bringAll manager ds).Uses fun c => c.isLocal = true := by
  have htaking (q : Progress) {part : Pass Progress} (h : part.Uses fun c => c.isLocal = true) :
      (takingIn q (half part)).Uses fun c => c.isLocal = true :=
    (h.bind fun _ => Pass.uses_ofExcept _).attempt.bind fun _ => Pass.uses_ofExcept _
  have hroutes : (bringRoutes manager ds).Uses fun c => c.isLocal = true :=
    Pass.Uses.bind ((Convergence.uses_tidy _ _).mono fun _ => Convergence.Tidies.isLocal)
      fun p => uses_bringEach p _
  rw [bringAll_eq hds]
  refine (htaking _ hroutes).bind fun q => ?_
  exact (htaking q (uses_bringEach {} _)).bind fun _ => Pass.uses_ofExcept _

variable {answer : (c : Call) → Rehearsal → c.Answer × Rehearsal}
  {serve : (c : Call) → MemoryStore → c.Answer × MemoryStore} {w w₁ : Rehearsal} {text : String}

theorem on_pass_of_unread (manager : String) (hfetch : answer .fetch w = (.ok text, w₁))
    {f : Failure} (hread : Manifest.read text = .error f) :
    on answer (pass manager) w = (.error f, w₁) ∧ callsOn answer (pass manager) w = [.fetch] := by
  have hon : on answer Pass.fetch w = (.ok text, w₁) := hfetch
  have hcalls : callsOn answer Pass.fetch w = [.fetch] := rfl
  simp [pass_eq, Pass.on_bind, Pass.callsOn_bind, hon, hcalls, hread]

/-- After the manifest was read, the store alone tells what becomes of the pass. -/
theorem on_pass_of_read (manager : String) (hm : Mirrors answer serve)
    (hfetch : answer .fetch w = (.ok text, w₁)) (hstore : w₁.store = w.store) (hq : w₁.Quiet)
    (hread : Manifest.read text = .ok ds) :
    (on answer (pass manager) w).1 = (on serve (bringAll manager ds) w.store).1 ∧
      (on answer (pass manager) w).2.store = (on serve (bringAll manager ds) w.store).2 ∧
      callsOn answer (pass manager) w = .fetch :: callsOn serve (bringAll manager ds) w.store := by
  have htold := Program.Deaf.told (deaf_bringAll manager ds)
    (uses_bringAll (Manifest.typed_of_read hread)) hm hq
  have hon : on answer Pass.fetch w = (.ok text, w₁) := hfetch
  have hcalls : callsOn answer Pass.fetch w = [.fetch] := rfl
  have hrun : on answer (pass manager) w = on answer (bringAll manager ds) w₁ ∧
      callsOn answer (pass manager) w = .fetch :: callsOn answer (bringAll manager ds) w₁ := by
    simp [pass_eq, Pass.on_bind, Pass.callsOn_bind, hon, hcalls, hread]
  rw [hrun.1, hrun.2, ← hstore]
  exact ⟨htold.result, htold.store, congrArg _ htold.calls⟩

end World

end Alignment

theorem Rehearsal.fetch_of_cons {w : Rehearsal} {text : String}
    {rest : List (Except Failure String)} (h : w.manifests = .ok text :: rest) :
    Rehearsal.answer .fetch w = (.ok text, { w with manifests := rest }) := by
  rw [Rehearsal.answer, Rehearsal.fetch, h]
  rfl

end MeshRollout

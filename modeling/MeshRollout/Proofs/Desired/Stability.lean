import Mathlib.Data.List.Nodup
import MeshRollout.Proofs.Desired.Halves

/-!
A manifest that cannot be read as a whole is not brought into the cluster at all. One that is
brought there stays there: another pass over it finds every document as it should be.
-/
set_option autoImplicit false

namespace MeshRollout

open MemoryStore (serve)
open Pass (on callsOn)
open Convergence (tidy Surplus InReach)

namespace Manifest

def Distinct (ds : List WantedObject) : Prop :=
  (ds.map fun d => (d.identity.resource.group, d.identity.resource.plural, d.object.space,
    d.object.name)).Nodup

instance (ds : List WantedObject) : Decidable (Distinct ds) :=
  inferInstanceAs (Decidable (List.Nodup _))

variable {ds : List WantedObject}

theorem Distinct.places_nodup (h : Distinct ds) (hds : ∀ d ∈ ds, d.Typed) :
    (ds.map WantedObject.place).Nodup := by
  have hslash (d : WantedObject) (hd : d ∈ ds) : '/' ∉ d.identity.resource.group.toList := by
    obtain ⟨apiVersion, kind, hid, -⟩ := hds d hd
    exact hid ▸ Resource.slash_not_mem_group apiVersion kind
  refine (List.Nodup.of_map _ h).map_on fun x hx y hy he => List.inj_on_of_nodup_map h hx hy ?_
  obtain ⟨hresource, hspace, hname⟩ := StoreKey.mk.inj he
  obtain ⟨hgroup, hplural⟩ := (Resource.resourceText_eq_iff (hslash x hx) (hslash y hy)).1 hresource
  rw [hgroup, hplural, hspace, hname]

theorem managed_eq_nil_iff :
    managed Route.resource ds = [] ↔ ∀ d ∈ ds, d.isOf Route.resource = false := by
  simp [managed]

end Manifest

namespace Alignment

open WantedObject (bringEach)
open Manifest (routes others managed)

variable {manager : String} {ds : List WantedObject}

section Store

variable {s s₀ s₁ s₂ : MemoryStore} {p₀ p₁ p₂ : Progress} (hds : ∀ d ∈ ds, d.Typed)
  (hs : s.Sound)
include hds hs

/-- A pass finds nothing to do where every document fits and no route is left to delete. -/
theorem bringAll_idle (hfit : ∀ d ∈ ds, d.fits s = true)
    (hnone : ∀ k, Surplus Route.resource (managed Route.resource ds) k → s.find k = none) :
    on serve (bringAll manager ds) s = (.ok ⟨[], [], ds.length, []⟩, s) ∧
      ∀ c ∈ callsOn serve (bringAll manager ds) s, c.isRead = true := by
  obtain ⟨htidy, hreads⟩ := Convergence.tidy_idle hs hnone
  obtain ⟨hfirst, hcalls₁⟩ := WantedObject.bringEach_idle manager {}
    (fun d hd => hds d (Manifest.mem_routes.1 hd).1)
    (fun d hd => hfit d (Manifest.mem_routes.1 hd).1)
  obtain ⟨hsecond, hcalls₂⟩ := WantedObject.bringEach_idle manager {}
    (fun d hd => hds d (Manifest.mem_others.1 hd).1)
    (fun d hd => hfit d (Manifest.mem_others.1 hd).1)
  have hparts : Parts serve manager ds s _ _ _ _ _ _ := ⟨htidy, hfirst, hsecond⟩
  obtain ⟨hstore, -, hok⟩ := hparts.on_bringAll hds (fun _ h => nomatch h) (fun _ h => nomatch h)
  refine ⟨Prod.ext ((hok rfl).trans ?_) hstore, fun c hc => ?_⟩
  · simp [Report.merge, Manifest.length_halves]
  · rw [hparts.callsOn_bringAll hds (fun _ h => nomatch h), hcalls₁, hcalls₂, List.append_assoc,
      ← List.map_append] at hc
    rcases List.mem_append.1 hc with hc | hc
    · exact hreads c hc
    · obtain ⟨d, -, rfl⟩ := List.mem_map.1 hc
      rfl

end Store

/-- What a successful pass leaves: every document is live, nothing but routes was deleted, and
where no route is wanted none is left. -/
structure AsDeclared (ds : List WantedObject) (s s' : MemoryStore) : Prop where
  routes : ∀ d ∈ ds, d.isOf Route.resource = true →
    ∃ live, s'.find d.place = some live ∧ live.Agrees d.object
  others : ∀ d ∈ ds, d.isOf Route.resource = false →
    ∃ live, s'.find d.place = some live ∧ live.Matches d.object
  spared : ∀ k, k.resource ≠ StoreKey.resourceText Route.resource → s.find k ≠ none →
    s'.find k ≠ none
  emptied : (∀ d ∈ ds, d.isOf Route.resource = false) →
    ∀ k, k.resource = StoreKey.resourceText Route.resource → s'.find k = none

theorem AsDeclared.of_fits {s s' : MemoryStore} (hfit : ∀ d ∈ ds, d.fits s' = true)
    (hnone : ∀ k, Surplus Route.resource (managed Route.resource ds) k → s'.find k = none)
    (hspared : ∀ k, ¬ Surplus Route.resource (managed Route.resource ds) k → s.find k ≠ none →
      s'.find k ≠ none) : AsDeclared ds s s' where
  routes d hd hr := by
    obtain ⟨live, hl, hsame⟩ := WantedObject.fits_iff.1 (hfit d hd)
    rw [WantedObject.differs, if_pos hr] at hsame
    exact ⟨live, hl, (Object.isOutdated_eq_false_iff live d.object).1 hsame⟩
  others d hd hr := by
    obtain ⟨live, hl, hsame⟩ := WantedObject.fits_iff.1 (hfit d hd)
    rw [WantedObject.differs, if_neg (by simp [hr])] at hsame
    exact ⟨live, hl, (Object.contentDiffers_eq_false_iff live d.object).1 hsame⟩
  spared k hk := hspared k fun h => hk h.1.1
  emptied hno k hk := by
    refine hnone k ?_
    rw [Manifest.managed_eq_nil_iff.2 hno]
    exact Convergence.surplus_nil.2 hk

theorem bringAll_settles {s s' : MemoryStore} (hds : ∀ d ∈ ds, d.Typed) (hs : s.Sound)
    (hdistinct : Manifest.Distinct ds) (hapart : Manifest.KeepsRoutesApart ds) {report : Report}
    (hok : on serve (bringAll manager ds) s = (.ok report, s')) :
    AsDeclared ds s s' ∧
      on serve (bringAll manager ds) s' = (.ok ⟨[], [], ds.length, []⟩, s') ∧
      ∀ c ∈ callsOn serve (bringAll manager ds) s', c.isRead = true := by
  obtain ⟨p₀, s₀, p₁, s₁, p₂, hparts, hp₁, hp₂⟩ := exists_parts hds hok
  have hrejection := hparts.rejection_eq hds hs hapart
  rw [hp₁, hp₂] at hrejection
  -- the pass succeeded, so no document was rejected, and each is the last of its place
  have hnot := WantedObject.firstRejection_eq_none_iff.1 hrejection.symm
  have hfit (d : WantedObject) (hd : d ∈ ds) : d.fits s' = true :=
    hparts.fits hds hs hapart (.of_nodup (hdistinct.places_nodup hds) hd)
      (hnot d (Manifest.mem_halves.2 hd))
  have hnone (k : StoreKey) (hk : Surplus Route.resource (managed Route.resource ds) k) :
      s'.find k = none :=
    hparts.none_surplus hds hs hapart hk
  have hs' : s'.Sound := by
    have hsound := Pass.sound_on (bringAll manager ds) hs
    rwa [hok] at hsound
  refine ⟨.of_fits hfit hnone fun k hk hlive => hparts.spared hds hs hk hlive, ?_⟩
  exact bringAll_idle hds hs' hfit hnone

variable {w : Rehearsal} {text : String} {rest : List (Except Failure String)}

/-- A manifest that cannot be read as a whole leads to no call on the cluster. If a pass over a
manifest succeeds, and the documents are about different objects, then the cluster holds them all,
and another pass over the same manifest writes nothing. -/
theorem pass_settles (manager : String) (hq : w.Quiet) (hs : w.store.Reachable)
    (hm : w.manifests = .ok text :: rest) :
    ((∃ i piece, (Yaml.split text)[i]? = some piece ∧ Faulty i piece) →
      (∃ f, (Rehearsal.run (pass manager) w).1 = .error f) ∧
        Rehearsal.callsOf (pass manager) w = [.fetch]) ∧
    ∀ report, (Rehearsal.run (pass manager) w).1 = .ok report →
      ∃ ds, Manifest.read text = .ok ds ∧
        (Manifest.Distinct ds → Manifest.KeepsRoutesApart ds →
          AsDeclared ds w.store (Rehearsal.run (pass manager) w).2.store ∧
          ∀ w₁ rest', w₁.Quiet → w₁.store = (Rehearsal.run (pass manager) w).2.store →
            w₁.manifests = .ok text :: rest' →
            (Rehearsal.run (pass manager) w₁).1 = .ok ⟨[], [], ds.length, []⟩ ∧
              (Rehearsal.run (pass manager) w₁).2.store = w₁.store ∧
              ∀ c ∈ Rehearsal.callsOf (pass manager) w₁, c.isRead = true) := by
  have hfetch := Rehearsal.fetch_of_cons hm
  cases hread : Manifest.read text with
  | error f =>
    obtain ⟨hrun, hcalls⟩ := on_pass_of_unread manager hfetch hread
    have hresult : (Rehearsal.run (pass manager) w).1 = .error f := congrArg Prod.fst hrun
    exact ⟨fun _ => ⟨⟨f, hresult⟩, hcalls⟩, fun report hok => nomatch hresult.symm.trans hok⟩
  | ok ds =>
    refine ⟨fun ⟨i, piece, hi, hfaulty⟩ => ?_,
      fun report hok => ⟨ds, rfl, fun hdistinct hapart => ?_⟩⟩
    · exact absurd hfaulty (Manifest.not_faulty_of_read hread hi)
    · obtain ⟨hresult, hstore, -⟩ :=
        on_pass_of_read manager mirrors_serve hfetch rfl ⟨hq.faults, hq.races⟩ hread
      obtain ⟨hdeclared, hidle, hreads⟩ :=
        bringAll_settles (Manifest.typed_of_read hread) hs.sound hdistinct hapart
          (Prod.ext (hresult.symm.trans hok) hstore.symm)
      refine ⟨hdeclared, fun w₁ rest' hq₁ hw₁ hm₁ => ?_⟩
      obtain ⟨hresult₁, hstore₁, hcalls₁⟩ := on_pass_of_read manager mirrors_serve
        (Rehearsal.fetch_of_cons hm₁) rfl ⟨hq₁.faults, hq₁.races⟩ hread
      have hsame : w₁.store = (on Rehearsal.answer (pass manager) w).2.store := hw₁
      rw [hsame, hidle] at hresult₁ hstore₁
      refine ⟨hresult₁, hstore₁.trans hsame.symm, fun c hc => ?_⟩
      have hc' : c ∈ callsOn Rehearsal.answer (pass manager) w₁ := hc
      rw [hcalls₁, hsame] at hc'
      rcases List.mem_cons.1 hc' with rfl | hc'
      · rfl
      · exact hreads c hc'

def shopAndWeb : String :=
  "\x7bapiVersion: mesh-manager.meshmanager.com/v1, kind: IstioRoute, "
    ++ "metadata: \x7bname: shop\x7d\x7d\n"
    ++ "---\n\x7bapiVersion: v1, kind: Pod, metadata: \x7bname: web\x7d\x7d\n"

def leftover (text : String) : Rehearsal where
  store := ({} : MemoryStore).insert Route.resource
    { types := some (Route.apiVersion, Route.kind), metadata := { name := some "old" }, data := [] }
  manifests := [.ok text, .ok text]
  clock := ⟨0, 0⟩

theorem leftover_settles :
    (∃ f, (Rehearsal.run (pass "sync") (leftover "kind: Pod\n")).1 = .error f) ∧
      Rehearsal.callsOf (pass "sync") (leftover "kind: Pod\n") = [.fetch] ∧
      (Rehearsal.run (pass "sync") (leftover shopAndWeb)).1
        = .ok ⟨["/shop", "/web"], ["/old"], 0, []⟩ ∧
      ∃ ds s', Manifest.read shopAndWeb = .ok ds ∧
        (Rehearsal.run (pass "sync") (leftover shopAndWeb)).2.store = s' ∧
        AsDeclared ds (leftover shopAndWeb).store s' ∧
        (Rehearsal.run (pass "sync") { leftover shopAndWeb with store := s' }).1
          = .ok ⟨[], [], ds.length, []⟩ := by
  have hreach (text : String) : (leftover text).store.Reachable := .insert .empty _ _
  have hfaulty : Faulty 0 "kind: Pod\n" := by
    have hlacks : (match Yaml.decodeAt 0 "kind: Pod\n" with
        | .ok v => ((v.field "apiVersion").bind Value.text?).isNone
        | .error _ => false) = true := by
      decide +kernel
    split at hlacks
    · rename_i v hv
      exact .noApiVersion hv (Option.isNone_iff_eq_none.1 hlacks)
    · nomatch hlacks
  -- both facts are evaluated at once, so that the text is read only once
  have hread : (Rehearsal.run (pass "sync") (leftover shopAndWeb)).1
        = .ok ⟨["/shop", "/web"], ["/old"], 0, []⟩ ∧
      (match Manifest.read shopAndWeb with
        | .ok ds => decide (Manifest.Distinct ds ∧ Manifest.KeepsRoutesApart ds)
        | .error _ => false) = true := by
    decide +kernel
  obtain ⟨hok, hplain⟩ := hread
  obtain ⟨hbroken, -⟩ :=
    pass_settles (w := leftover "kind: Pod\n") "sync" ⟨rfl, rfl⟩ (hreach _) rfl
  obtain ⟨hfail, hcalls⟩ := hbroken ⟨0, "kind: Pod\n", by decide +kernel, hfaulty⟩
  obtain ⟨-, hdone⟩ := pass_settles (w := leftover shopAndWeb) "sync" ⟨rfl, rfl⟩ (hreach _) rfl
  obtain ⟨ds, hds, hsettled⟩ := hdone _ hok
  rw [hds] at hplain
  obtain ⟨hdistinct, hapart⟩ := of_decide_eq_true hplain
  obtain ⟨hdeclared, hagain⟩ := hsettled hdistinct hapart
  obtain ⟨s', hs'⟩ : ∃ s', (Rehearsal.run (pass "sync") (leftover shopAndWeb)).2.store = s' :=
    ⟨_, rfl⟩
  rw [hs'] at hdeclared hagain
  obtain ⟨hidle, -⟩ := hagain { leftover shopAndWeb with store := s' } _ ⟨rfl, rfl⟩ rfl rfl
  exact ⟨hfail, hcalls, hok, ds, s', hds, hs', hdeclared, hidle⟩

end Alignment

end MeshRollout

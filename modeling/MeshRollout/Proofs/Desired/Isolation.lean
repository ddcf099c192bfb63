import MeshRollout.Proofs.Desired.Halves

/-!
Rejections are isolated. When the cluster is not ready for some documents, a pass over the manifest
makes the same calls on the store as if it passed over them, and comes to the same store; it only
tells of the first of them at its end.
-/
set_option autoImplicit false

namespace MeshRollout

open MemoryStore (serve)
open Pass (on callsOn)

namespace Notice

theorem prefix_text (line : String) (lines : List String) :
    line.toList <+: (text (line :: lines)).toList := by
  cases lines with
  | nil => exact List.prefix_rfl
  | cons l lines =>
    simp only [text, Text.joinWith, String.toList_append, List.append_assoc]
    exact List.prefix_append _ _

theorem prefix_heading {lead : List Char} {icon : String} (h : lead <+: icon.toList)
    (kind done : String) (lines : List String) :
    lead <+: (text ((icon ++ kind ++ done) :: lines)).toList := by
  refine (h.trans ?_).trans (prefix_text (icon ++ kind ++ done) lines)
  rw [String.append_assoc, String.toList_append]
  exact List.prefix_append _ _

theorem prefix_notApplied (kind : String) (o : Object) (f : Failure) :
    [':', 'e'] <+: (notApplied kind o f).toList :=
  prefix_heading (by decide) kind _ _

theorem prefix_deleted (kind space name : String) :
    [':', 'w'] <+: (deleted kind space name).toList :=
  prefix_heading (by decide) kind _ _

theorem prefix_applied (kind : String) (o : Object) :
    [':', 'w'] <+: (applied kind o).toList := by
  rw [applied]
  split
  · rw [aboutRoute, String.toList_append, String.toList_append, List.append_assoc]
    exact (prefix_heading (by decide) Route.kind _ _).trans (List.prefix_append _ _)
  · exact prefix_heading (by decide) kind _ _

/-- The first letters of a message tell whether an application failed. -/
theorem notApplied_ne {message : String} (h : [':', 'w'] <+: message.toList) (kind : String)
    (o : Object) (f : Failure) : notApplied kind o f ≠ message := by
  rintro rfl
  have hboth := List.prefix_of_prefix_length_le h (prefix_notApplied kind o f) (Nat.le_refl 2)
  revert hboth
  decide

end Notice

namespace MemoryStore

variable {s s' : MemoryStore} {message name : String}

/-- Every refusal says that something is not configured yet. -/
def Mild (s : MemoryStore) : Prop :=
  ∀ name message, s.refusedApplies.get name = some message →
    Text.contains Failure.unconfiguredMark.toList message.toList = true

theorem exists_account (r : ErrorResponse) :
    ∃ rest, r.account = "ApiError: " ++ (r.message ++ rest) := by
  unfold ErrorResponse.account
  simp only [String.append_assoc]
  exact ⟨_, rfl⟩

theorem Mild.tellsUnconfigured (h : s.Mild) (hr : s.refusedApplies.get name = some message) :
    (badRequest message).tellsUnconfigured = true := by
  obtain ⟨rest, hrest⟩ := exists_account ⟨"Failure", message, "BadRequest", 400⟩
  have hmessage : (badRequest message).message
      = "kubernetes error: " ++ ("ApiError: " ++ (message ++ rest)) :=
    congrArg ("kubernetes error: " ++ ·) hrest
  rw [Failure.tellsUnconfigured, hmessage, String.toList_append, String.toList_append,
    String.toList_append]
  refine Text.contains_append_right (Text.contains_append_right ?_ _) _
  exact Text.contains_append_left (h name message hr) _

theorem Mild.of_forall (h : ∀ p ∈ s.refusedApplies,
    Text.contains Failure.unconfiguredMark.toList p.2.toList = true) : s.Mild :=
  fun _ _ hr => h _ (Dict.mem_of_get hr)

theorem Mild.congr (h : s.Mild) (hr : s'.refusedApplies = s.refusedApplies) : s'.Mild := by
  rw [Mild, hr]
  exact h

end MemoryStore

def Call.store? : Call → Option StoreCall
  | .store c => some c
  | _ => none

/-- Answers as before, but passes over what the store would refuse to apply, as if it were done. -/
def skipping {σ : Type} (f : σ → MemoryStore) (answer : (c : Call) → σ → c.Answer × σ)
    (c : Call) (x : σ) : c.Answer × σ :=
  match c with
  | .store (.apply r o manager) =>
    if (f x).refuses o.name then (.ok o, x) else answer (.store (.apply r o manager)) x
  | c => answer c x

theorem skipping_of_refused {σ : Type} {f : σ → MemoryStore} {x : σ} {o : Object}
    (h : (f x).refuses o.name = true) (answer : (c : Call) → σ → c.Answer × σ) (r : Resource)
    (manager : String) : skipping f answer (.store (.apply r o manager)) x = (.ok o, x) :=
  if_pos h

theorem skipping_of_free {σ : Type} {f : σ → MemoryStore} {x : σ} {o : Object}
    (h : (f x).refuses o.name = false) (answer : (c : Call) → σ → c.Answer × σ) (r : Resource)
    (manager : String) :
    skipping f answer (.store (.apply r o manager)) x
      = answer (.store (.apply r o manager)) x :=
  if_neg (by simp [h])

theorem skipping_of_ne {σ : Type} {c : Call} (hc : ∀ r o m, c ≠ .store (.apply r o m))
    (f : σ → MemoryStore) (answer : (c : Call) → σ → c.Answer × σ) (x : σ) :
    skipping f answer c x = answer c x := by
  cases c with
  | store c =>
    cases c with
    | apply r o m => exact absurd rfl (hc r o m)
    | get r space name => rfl
    | list r space selector => rfl
    | create r o => rfl
    | update r o => rfl
    | delete r space name => rfl
  | route c => rfl
  | notify message => rfl
  | cancelled => rfl
  | now => rfl
  | fetch => rfl

theorem mirrors_skipping :
    Mirrors (skipping Rehearsal.store Rehearsal.answer) (skipping id serve) where
  store {w} h c := by
    by_cases hc : ∃ r o m, c = .apply r o m
    · obtain ⟨r, o, m, rfl⟩ := hc
      cases hr : w.store.refuses o.name with
      | true =>
        rw [skipping_of_refused hr, skipping_of_refused (f := id) hr]
        exact ⟨rfl, rfl, h⟩
      | false =>
        rw [skipping_of_free hr, skipping_of_free (f := id) hr]
        exact mirrors_serve.store h (.apply r o m)
    · have hne (r : Resource) (o : Object) (m : String) :
          Call.store c ≠ .store (.apply r o m) :=
        fun he => hc ⟨r, o, m, Call.store.inj he⟩
      rw [skipping_of_ne hne, skipping_of_ne hne]
      exact mirrors_serve.store h c
  notify h message := mirrors_serve.notify h message

namespace WantedObject

variable {manager : String} {d : WantedObject} {ds ds' : List WantedObject} {p p' : Progress}
  {s s' : MemoryStore} {calls calls' : List Call}

structure Attempted (manager : String) (ds : List WantedObject) (s : MemoryStore)
    (calls : List Call) : Prop where
  lookups : ∀ d ∈ ds, d.lookup ∈ calls
  rejected : ∀ d ∈ ds, d.rejected s = true → d.application manager ∈ calls
  refused : ∀ r o m, Call.store (.apply r o m) ∈ calls → s.refuses o.name = true →
    ∃ d ∈ ds, d.rejected s = true ∧ d.application manager = .store (.apply r o m)
  silent : ∀ kind o f, Call.notify (Notice.notApplied kind o f) ∉ calls

namespace Attempted

theorem nil (s : MemoryStore) : Attempted manager [] s [] where
  lookups _ h := nomatch h
  rejected _ h := nomatch h
  refused _ _ _ h := nomatch h
  silent _ _ _ h := nomatch h

theorem append (h : Attempted manager ds s calls) (h' : Attempted manager ds' s calls') :
    Attempted manager (ds ++ ds') s (calls ++ calls') where
  lookups d hd := by
    rcases List.mem_append.1 hd with hd | hd
    · exact List.mem_append_left _ (h.lookups d hd)
    · exact List.mem_append_right _ (h'.lookups d hd)
  rejected d hd hr := by
    rcases List.mem_append.1 hd with hd | hd
    · exact List.mem_append_left _ (h.rejected d hd hr)
    · exact List.mem_append_right _ (h'.rejected d hd hr)
  refused r o m hc hr := by
    rcases List.mem_append.1 hc with hc | hc
    · obtain ⟨d, hd, hrej, he⟩ := h.refused r o m hc hr
      exact ⟨d, List.mem_append_left _ hd, hrej, he⟩
    · obtain ⟨d, hd, hrej, he⟩ := h'.refused r o m hc hr
      exact ⟨d, List.mem_append_right _ hd, hrej, he⟩
  silent kind o f hc := by
    rcases List.mem_append.1 hc with hc | hc
    · exact h.silent kind o f hc
    · exact h'.silent kind o f hc

theorem congr (h : Attempted manager ds s calls)
    (hrej : ∀ d ∈ ds, d.rejected s = d.rejected s')
    (href : s.refusedApplies = s'.refusedApplies) : Attempted manager ds s' calls where
  lookups := h.lookups
  rejected d hd hr := h.rejected d hd (hrej d hd ▸ hr)
  refused r o m hc hr := by
    have hr' : s.refuses o.name = true := by rwa [MemoryStore.refuses, href]
    obtain ⟨d, hd, hr, he⟩ := h.refused r o m hc hr'
    exact ⟨d, hd, hrej d hd ▸ hr, he⟩
  silent := h.silent

theorem of_mem_iff (h : Attempted manager ds s calls) (hmem : ∀ d, d ∈ ds ↔ d ∈ ds') :
    Attempted manager ds' s calls where
  lookups d hd := h.lookups d ((hmem d).2 hd)
  rejected d hd := h.rejected d ((hmem d).2 hd)
  refused r o m hc hr := by
    obtain ⟨d, hd, hd'⟩ := h.refused r o m hc hr
    exact ⟨d, (hmem d).1 hd, hd'⟩
  silent := h.silent

end Attempted

theorem Brought.attempted {x : Except Failure Progress} (hm : s.Mild)
    (h : Brought manager p d s (x, s') calls) :
    (∃ p', x = .ok p') ∧ Attempted manager [d] s calls := by
  have hnotify (kind kind' : String) (o o' : Object) (f : Failure) :
      Call.notify (Notice.notApplied kind o f) ≠ .notify (Notice.applied kind' o') := fun he =>
    Notice.notApplied_ne (Notice.prefix_applied kind' o') kind o f (Call.notify.inj he)
  cases h with
  | skipped fit =>
    have hnot := rejected_of_fits fit
    exact ⟨⟨_, rfl⟩, by simp, by simp [hnot], by simp [lookup], by simp [lookup]⟩
  | applied unfit free =>
    have hnot := rejected_of_free free
    refine ⟨⟨_, rfl⟩, by simp, by simp [hnot], fun r o m hc hr => ?_,
      by simp [lookup, application, hnotify]⟩
    obtain ⟨-, rfl, -⟩ : r = d.target ∧ o = d.object ∧ m = manager := by
      simpa [lookup, application] using hc
    nomatch (MemoryStore.refuses_eq_false_iff.2 free).symm.trans hr
  | refused unfit told mild =>
    have hrej := rejected_of_refused unfit told
    refine ⟨⟨_, rfl⟩, by simp, by simp, fun r o m hc hr => ?_, by simp [lookup, application]⟩
    obtain ⟨rfl, rfl, rfl⟩ : r = d.target ∧ o = d.object ∧ m = manager := by
      simpa [lookup, application] using hc
    exact ⟨d, List.mem_cons_self, hrej, rfl⟩
  | failed unfit told grave => nomatch (hm.tellsUnconfigured told).symm.trans grave

theorem bringEach_attempted (manager : String) (p : Progress) (hds : ∀ d ∈ ds, d.Typed)
    (hm : s.Mild) :
    (∃ p' s', on serve (bringEach manager p ds) s = (.ok p', s')) ∧
      Attempted manager ds s (callsOn serve (bringEach manager p ds) s) := by
  induction ds generalizing p s with
  | nil => exact ⟨⟨p, s, rfl⟩, .nil s⟩
  | cons d ds ih =>
    obtain ⟨ht, hds⟩ := List.forall_mem_cons.1 hds
    have hd := ht.brought manager p s
    cases hon : on serve (bring manager p d) s with
    | mk x s₁ =>
      rw [hon] at hd
      obtain ⟨⟨p₁, rfl⟩, hfirst⟩ := hd.attempted hm
      obtain ⟨hb, -⟩ := hd.stored ht
      obtain ⟨hdone, hrest⟩ := ih p₁ hds (hm.congr hb.refusals)
      rw [bringEach, Pass.on_bind, Pass.callsOn_bind, hon]
      exact ⟨hdone, hfirst.append (hrest.congr (fun x _ => hb.rejected_eq x) hb.refusals)⟩

theorem answering_skipping : Answering (skipping id serve) :=
  ⟨fun _ _ _ _ => rfl, fun _ _ => rfl⟩

theorem filterMap_messageAfter (d : WantedObject) (x : Except Failure Object) :
    (d.messageAfter x).filterMap Call.store? = [] := by
  cases x with
  | ok o => rfl
  | error f =>
    rw [messageAfter]
    split <;> rfl

/-- Passing over what is refused makes no difference to the calls on the store and to the store, but
nothing is rejected then. -/
theorem Typed.bring_skipping (ht : d.Typed) (manager : String) (p p' : Progress)
    (s : MemoryStore) :
    (∃ p₂, on (skipping id serve) (bring manager p' d) s
        = (.ok p₂, (on serve (bring manager p d) s).2) ∧ p₂.rejection = p'.rejection) ∧
      (callsOn (skipping id serve) (bring manager p' d) s).filterMap Call.store?
        = (callsOn serve (bring manager p d) s).filterMap Call.store? := by
  obtain ⟨hon, hcalls⟩ := ht.on_bring manager p answering_serve s
  obtain ⟨hon', hcalls'⟩ := ht.on_bring manager p' answering_skipping s
  have happly : serve (d.application manager) s = s.apply d.target d.object := rfl
  rw [hon, hcalls, hon', hcalls']
  cases hf : d.fits s with
  | true => exact ⟨⟨_, rfl, rfl⟩, rfl⟩
  | false =>
    have hsame (x y : Except Failure Object) :
        (d.lookup :: d.application manager :: d.messageAfter x).filterMap Call.store?
          = (d.lookup :: d.application manager :: d.messageAfter y).filterMap Call.store? := by
      simp only [List.filterMap_cons, filterMap_messageAfter]
    refine ⟨?_, hsame _ _⟩
    simp only [Bool.false_eq_true, ↓reduceIte]
    cases hr : s.refuses d.object.name with
    | true =>
      obtain ⟨message, hm⟩ := MemoryStore.refuses_iff.1 hr
      have hskip : skipping id serve (d.application manager) s = (.ok d.object, s) :=
        skipping_of_refused (f := id) hr serve d.target manager
      rw [happly, hskip, MemoryStore.apply_of_refused hm]
      exact ⟨_, rfl, rfl⟩
    | false =>
      obtain ⟨o, ho⟩ :=
        MemoryStore.apply_of_free (r := d.target) (MemoryStore.refuses_eq_false_iff.1 hr)
      have hskip : skipping id serve (d.application manager) s = s.apply d.target d.object :=
        skipping_of_free (f := id) hr serve d.target manager
      rw [happly, hskip, ho]
      exact ⟨_, rfl, rfl⟩

theorem bringEach_skipping (hds : ∀ d ∈ ds, d.Typed) (p₁ : Progress)
    (h : on serve (bringEach manager p ds) s = (.ok p', s')) :
    (∃ p₂, on (skipping id serve) (bringEach manager p₁ ds) s = (.ok p₂, s') ∧
        p₂.rejection = p₁.rejection) ∧
      (callsOn (skipping id serve) (bringEach manager p₁ ds) s).filterMap Call.store?
        = (callsOn serve (bringEach manager p ds) s).filterMap Call.store? := by
  induction ds generalizing p p₁ s with
  | nil =>
    cases h
    exact ⟨⟨p₁, rfl, rfl⟩, rfl⟩
  | cons d ds ih =>
    obtain ⟨ht, hds⟩ := List.forall_mem_cons.1 hds
    obtain ⟨⟨p₂, hon, hp₂⟩, hcalls⟩ := ht.bring_skipping manager p p₁ s
    obtain ⟨q, s₁, hfirst, hrest⟩ := Pass.ok_of_on_bind h
    obtain ⟨⟨p₃, hon', hp₃⟩, hcalls'⟩ := ih hds p₂ hrest
    rw [hfirst] at hon
    simp only [bringEach, Pass.on_bind, Pass.callsOn_bind, hon, hfirst, List.filterMap_append]
    exact ⟨⟨p₃, hon', hp₃.trans hp₂⟩, by rw [hcalls, hcalls']⟩

end WantedObject

namespace Alignment

open Convergence (tidy Tidies Surplus)
open WantedObject (Attempted bringEach firstRejection)
open Manifest (routes others managed)

variable {manager : String} {ds : List WantedObject}

/-- What a pass comes to that the cluster is not ready for in all parts: it does everything else,
leaves what is rejected as it is, and tells of the first rejection, where routes come first. -/
structure Isolated (manager : String) (ds : List WantedObject) (s : MemoryStore)
    (result : Except Failure Report) (s' : MemoryStore) (calls : List Call) : Prop where
  pruned : ∀ k, Surplus Route.resource (managed Route.resource ds) k → s'.find k = none
  attempted : Attempted manager ds s calls
  fits : ∀ d : WantedObject, d.Decides ds → d.rejected s = false → d.fits s' = true
  untouched : ∀ d ∈ ds, d.rejected s = true → s'.find d.place = s.find d.place
  told : ∀ d : WantedObject,
    ((routes ds ++ others Route.resource ds).find? fun d => d.rejected s) = some d →
    ∃ message, s.refusedApplies.get d.object.name = some message ∧
      result = .error (.notReady d.identity.resource.kind d.object.space d.object.name
        (MemoryStore.badRequest message).message)
  succeeded : (∀ d ∈ ds, d.rejected s = false) → ∃ report, result = .ok report

section Store

variable {s s₀ s₁ s₂ : MemoryStore} {p₀ p₁ p₂ : Progress} (hds : ∀ d ∈ ds, d.Typed)

/-- Where no deletion fails and every refusal is mild, a pass goes through all its parts. -/
theorem exists_parts_of_mild (hdel : s.refusedDeletions = []) (hm : s.Mild)
    (hds : ∀ d ∈ ds, d.Typed) (manager : String) :
    ∃ p₀ s₀ p₁ s₁ p₂ s₂, Parts serve manager ds s p₀ s₀ p₁ s₁ p₂ s₂ := by
  obtain ⟨p₀, s₀, htidy⟩ := Convergence.tidy_of_free Route.resource (managed Route.resource ds) hdel
  have hm₀ : s₀.Mild := hm.congr (by
    rw [← Pass.refusedApplies_on (tidy Route.resource (managed Route.resource ds)) s, htidy])
  obtain ⟨⟨p₁, s₁, hfirst⟩, -⟩ := WantedObject.bringEach_attempted manager p₀
    (fun d hd => hds d (Manifest.mem_routes.1 hd).1) hm₀
  have hm₁ : s₁.Mild := hm₀.congr (by
    rw [← Pass.refusedApplies_on (bringEach manager p₀ (routes ds)) s₀, hfirst])
  obtain ⟨⟨p₂, s₂, hsecond⟩, -⟩ := WantedObject.bringEach_attempted manager {}
    (fun d hd => hds d (Manifest.mem_others.1 hd).1) hm₁
  exact ⟨p₀, s₀, p₁, s₁, p₂, s₂, htidy, hfirst, hsecond⟩

theorem attempted_tidy (s : MemoryStore) (desired : List Object) :
    Attempted manager [] s (callsOn serve (tidy Route.resource desired) s) := by
  have htidies : ∀ c ∈ callsOn serve (tidy Route.resource desired) s, Tidies c :=
    Program.Uses.of_calls (Convergence.uses_tidy Route.resource desired) serve s
  refine ⟨by simp, by simp, fun r o m hc _ => ?_, fun kind o f hc => ?_⟩
  · rcases htidies _ hc with ⟨_, _, _, he⟩ | ⟨_, _, _, he⟩ | ⟨_, _, _, he⟩ <;> nomatch he
  · rcases htidies _ hc with ⟨_, _, _, he⟩ | ⟨_, _, _, he⟩ | ⟨_, _, _, he⟩
    · nomatch he
    · nomatch he
    · exact Notice.notApplied_ne (Notice.prefix_deleted ..) kind o f (Call.notify.inj he)

namespace Parts

variable (hs : s.Sound) (hapart : Manifest.KeepsRoutesApart ds)
  (h : Parts serve manager ds s p₀ s₀ p₁ s₁ p₂ s₂)
include hds hs hapart h

theorem attempted (hm : s.Mild) :
    Attempted manager ds s (callsOn serve (bringAll manager ds) s) := by
  obtain ⟨-, -, hrefusals⟩ := h.tidied_store hs
  obtain ⟨h₁, -⟩ := h.first_store hds
  obtain ⟨-, hfirst⟩ := WantedObject.bringEach_attempted manager p₀
    (fun d hd => hds d (Manifest.mem_routes.1 hd).1) (hm.congr hrefusals)
  obtain ⟨-, hsecond⟩ := WantedObject.bringEach_attempted manager {}
    (fun d hd => hds d (Manifest.mem_others.1 hd).1) (hm.congr (h₁.refusals.trans hrefusals))
  have hfirst' := hfirst.congr
    (fun d hd => h.rejected_eq hds hs hapart (Manifest.mem_routes.1 hd).1) hrefusals
  have hsecond' := hsecond.congr
    (fun d hd => (h₁.rejected_eq d).trans
      (h.rejected_eq hds hs hapart (Manifest.mem_others.1 hd).1))
    (h₁.refusals.trans hrefusals)
  rw [h.callsOn_bringAll hds (h.awaits hds hs).1]
  refine (((attempted_tidy s _).append hfirst').append hsecond').of_mem_iff fun d => ?_
  rw [List.nil_append]
  exact Manifest.mem_halves

theorem untouched {d : WantedObject} (hd : d ∈ ds) (hr : d.rejected s = true) :
    s₂.find d.place = s.find d.place := by
  obtain ⟨-, htidied, hrefusals⟩ := h.tidied_store hs
  obtain ⟨h₁, -⟩ := h.first_store hds
  obtain ⟨h₂, -⟩ := h.second_store hds
  have hrefused : s₀.refuses d.place.name = true := by
    rw [WantedObject.rejected, Bool.and_eq_true] at hr
    rw [MemoryStore.refuses, hrefusals]
    exact hr.2
  rw [h₂.refused _ (h₁.refuses_eq _ ▸ hrefused), h₁.refused _ hrefused,
    htidied.elsewhere _ (Manifest.not_surplus hds hapart hd)]

theorem isolated (hm : s.Mild) :
    Isolated manager ds s (on serve (bringAll manager ds) s).1 s₂
      (callsOn serve (bringAll manager ds) s) := by
  obtain ⟨hwait₁, hwait₂⟩ := h.awaits hds hs
  obtain ⟨-, hrejected, hdone⟩ := h.on_bringAll hds hwait₁ hwait₂
  rw [h.rejection_eq hds hs hapart] at hrejected hdone
  exact {
    pruned := fun k hk => h.none_surplus hds hs hapart hk
    attempted := h.attempted hds hs hapart hm
    fits := fun d hd hr => h.fits hds hs hapart hd hr
    untouched := fun d hd hr => h.untouched hds hs hapart hd hr
    told := fun d hd => by
      have hr : d.rejected s = true :=
        List.find?_some (p := fun d : WantedObject => d.rejected s) hd
      rw [WantedObject.rejected, Bool.and_eq_true, MemoryStore.refuses_iff] at hr
      obtain ⟨-, message, hmessage⟩ := hr
      refine ⟨message, hmessage, hrejected _ ?_⟩
      rw [firstRejection, hd, Option.bind_some, WantedObject.rejection, hmessage]
      rfl
    succeeded := fun hnone =>
      ⟨_, hdone (WantedObject.firstRejection_eq_none_iff.2 fun d hd =>
        hnone d (Manifest.mem_halves.1 hd))⟩ }

omit hapart in
theorem skipping_same :
    (∃ report, on (skipping id serve) (bringAll manager ds) s = (.ok report, s₂)) ∧
      (callsOn (skipping id serve) (bringAll manager ds) s).filterMap Call.store?
        = (callsOn serve (bringAll manager ds) s).filterMap Call.store? := by
  obtain ⟨hp₀, -, -⟩ := h.tidied_store hs
  -- the deletions make no call that could be skipped
  have hplain (c : Call) (s : MemoryStore) (hc : Tidies c) : skipping id serve c s = serve c s := by
    refine skipping_of_ne (fun r o m he => ?_) id serve s
    rw [he] at hc
    rcases hc with ⟨_, _, _, he⟩ | ⟨_, _, _, he⟩ | ⟨_, _, _, he⟩ <;> nomatch he
  obtain ⟨htidy, hcalls₀⟩ := Program.run_congr hplain
    (Convergence.uses_tidy Route.resource (managed Route.resource ds)) s
  obtain ⟨⟨p₁', hfirst, hp₁'⟩, hcalls₁⟩ := WantedObject.bringEach_skipping
    (fun d hd => hds d (Manifest.mem_routes.1 hd).1) p₀ h.first
  obtain ⟨⟨p₂', hsecond, hp₂'⟩, hcalls₂⟩ := WantedObject.bringEach_skipping
    (fun d hd => hds d (Manifest.mem_others.1 hd).1) {} h.second
  have hparts : Parts (skipping id serve) manager ds s p₀ s₀ p₁' s₁ p₂' s₂ :=
    ⟨Eq.trans htidy h.tidied, hfirst, hsecond⟩
  have hnone₁ : p₁'.rejection = none := hp₁'.trans hp₀
  have hwait₁ (f : Failure) (hf : p₁'.rejection = some f) : f.awaitsPrerequisite = true :=
    nomatch hnone₁.symm.trans hf
  have hwait₂ (f : Failure) (hf : p₂'.rejection = some f) : f.awaitsPrerequisite = true :=
    nomatch hp₂'.symm.trans hf
  obtain ⟨hstore, -, hdone⟩ := hparts.on_bringAll hds hwait₁ hwait₂
  refine ⟨⟨_, Prod.ext (hdone (by rw [hnone₁, hp₂']; rfl)) hstore⟩, ?_⟩
  have hcalls₀' : callsOn (skipping id serve) (tidy Route.resource (managed Route.resource ds)) s
      = callsOn serve (tidy Route.resource (managed Route.resource ds)) s :=
    hcalls₀
  rw [hparts.callsOn_bringAll hds hwait₁, h.callsOn_bringAll hds (h.awaits hds hs).1]
  simp only [List.filterMap_append, hcalls₀', hcalls₁, hcalls₂]

end Parts

end Store

variable {w : Rehearsal} {text : String} {rest : List (Except Failure String)}

/-- Where no deletion fails and every refusal says that something is not configured yet, a pass over
a manifest is isolated from what is rejected: it makes the same calls on the store as the pass that
skips what is refused, and leaves the same store. -/
theorem rejections_are_isolated (manager : String) (hq : w.Quiet) (hs : w.store.Reachable)
    (hm : w.manifests = .ok text :: rest) (hread : Manifest.read text = .ok ds)
    (hapart : Manifest.KeepsRoutesApart ds) (hdel : w.store.refusedDeletions = [])
    (hmild : w.store.Mild) :
    Isolated manager ds w.store (Rehearsal.run (pass manager) w).1
        (Rehearsal.run (pass manager) w).2.store (Rehearsal.callsOf (pass manager) w) ∧
      (∃ report, (on (skipping Rehearsal.store Rehearsal.answer) (pass manager) w).1 = .ok report) ∧
      (on (skipping Rehearsal.store Rehearsal.answer) (pass manager) w).2.store
        = (Rehearsal.run (pass manager) w).2.store ∧
      (callsOn (skipping Rehearsal.store Rehearsal.answer) (pass manager) w).filterMap Call.store?
        = (Rehearsal.callsOf (pass manager) w).filterMap Call.store? := by
  have hds := Manifest.typed_of_read hread
  obtain ⟨p₀, s₀, p₁, s₁, p₂, s₂, hparts⟩ := exists_parts_of_mild hdel hmild hds manager
  obtain ⟨hwait₁, hwait₂⟩ := hparts.awaits hds hs.sound
  obtain ⟨hend, -, -⟩ := hparts.on_bringAll hds hwait₁ hwait₂
  have hisolated := hparts.isolated hds hs.sound hapart hmild
  obtain ⟨⟨report, hskipped⟩, hsame⟩ := hparts.skipping_same hds hs.sound
  obtain ⟨hresult, hstore, hcalls⟩ := on_pass_of_read manager mirrors_serve
    (Rehearsal.fetch_of_cons hm) rfl ⟨hq.faults, hq.races⟩ hread
  obtain ⟨hresult', hstore', hcalls'⟩ := on_pass_of_read manager mirrors_skipping
    (Rehearsal.fetch_of_cons hm) rfl ⟨hq.faults, hq.races⟩ hread
  have hleft : (Rehearsal.run (pass manager) w).2.store = s₂ := hstore.trans hend
  have hmade : Rehearsal.callsOf (pass manager) w
      = .fetch :: callsOn serve (bringAll manager ds) w.store := hcalls
  have hgot : (Rehearsal.run (pass manager) w).1 = (on serve (bringAll manager ds) w.store).1 :=
    hresult
  rw [hskipped] at hresult' hstore'
  refine ⟨?_, ⟨report, hresult'⟩, hstore'.trans hleft.symm, ?_⟩
  · rw [hleft, hmade, hgot]
    have hfetched : Attempted manager [] w.store [.fetch] :=
      ⟨by simp, by simp, by simp, by simp⟩
    exact { hisolated with attempted := hfetched.append hisolated.attempted }
  · rw [hcalls', hmade]
    exact hsame

def webAndShop : String :=
  "\x7bapiVersion: v1, kind: Pod, metadata: \x7bname: web\x7d\x7d\n---\n"
    ++ "\x7bapiVersion: mesh-manager.meshmanager.com/v1, kind: IstioRoute, "
    ++ "metadata: \x7bname: shop\x7d\x7d\n"

/-- A cluster that is ready for neither of them, with a route that nobody wants any longer. -/
def unready : Rehearsal where
  store := { ({} : MemoryStore).insert Route.resource
      { types := some (Route.apiVersion, Route.kind), metadata := { name := some "old" },
        data := [] } with
    refusedApplies := [("shop", "mesh unconfigured"), ("web", "node unconfigured")] }
  manifests := [.ok webAndShop]
  clock := ⟨0, 0⟩

theorem unready_is_isolated :
    ∃ ds, Manifest.read webAndShop = .ok ds ∧
      Isolated "sync" ds unready.store (Rehearsal.run (pass "sync") unready).1
        (Rehearsal.run (pass "sync") unready).2.store
        (Rehearsal.callsOf (pass "sync") unready) ∧
      (Rehearsal.run (pass "sync") unready).1 = .error (.notReady "IstioRoute" "" "shop"
        (MemoryStore.badRequest "mesh unconfigured").message) := by
  have hread : (match Manifest.read webAndShop with
      | .ok ds => decide (Manifest.KeepsRoutesApart ds) &&
          ((routes ds ++ others Route.resource ds).find? fun d => d.rejected unready.store).map
            (fun d => (d.identity.resource.kind, d.object.space, d.object.name))
          == some ("IstioRoute", "", "shop")
      | .error _ => false) = true := by
    decide +kernel
  cases hds : Manifest.read webAndShop with
  | error f =>
    rw [hds] at hread
    nomatch hread
  | ok ds =>
    rw [hds, Bool.and_eq_true, beq_iff_eq] at hread
    obtain ⟨hapart, hfirst⟩ := hread
    obtain ⟨d, hd, hnames⟩ := Option.map_eq_some_iff.1 hfirst
    have hmild : unready.store.Mild := .of_forall (by decide)
    obtain ⟨hisolated, -⟩ := rejections_are_isolated (w := unready) "sync" ⟨rfl, rfl⟩
      (.refuse (.insert .empty _ _) _ _) rfl hds (of_decide_eq_true hapart) rfl hmild
    obtain ⟨message, hmessage, htold⟩ := hisolated.told d hd
    obtain ⟨hkind, hspace, hname⟩ : d.identity.resource.kind = "IstioRoute" ∧
        d.object.space = "" ∧ d.object.name = "shop" := by
      simpa using hnames
    rw [hname] at hmessage
    cases hmessage
    rw [hkind, hspace, hname] at htold
    exact ⟨ds, rfl, hisolated, htold⟩

end Alignment

end MeshRollout

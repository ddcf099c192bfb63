import Mathlib.Data.List.Infix
import MeshRollout.Proofs.Rollout.Account

/-!
The status of a route along a run of passes: when it is written, since when its condition has held,
and when people are told of a new phase. Who answers the calls of a pass is left open, so anything
may happen to the cluster between the passes and within them; only the status is nobody else's.
-/
set_option autoImplicit false

namespace MeshRollout

/-- What a pass that comes to an outcome has to account for, where a status is stored: it tries to
store what differs, and people are told of a new phase once it is stored. -/
structure Account.Exact (a : Account) (status : Option RouteStatus) (c : Conclusion) (x : Outcome) :
    Prop where
  attempted_iff : a.attempts ≠ [] ↔
    status.map RouteStatus.told ≠ some (x.toldFor c.route.metadata.generation)
  attempted : a.attempts = [] ∨ ∃ t, a.attempts = [x.status c.route t]
  stored : a.entries = [] ∨
    ∃ t, a.attempts = [x.status c.route t] ∧ a.entries = [⟨some t, x.status c.route t⟩]
  announced_iff : a.messages ≠ [] ↔
    a.entries ≠ [] ∧ status.map RouteStatus.phase ≠ some x.phase ∧ c.isExpected = false
  announced : a.messages = [] ∨ a.messages = [x.announcement c.route]

theorem Outcome.Recorded.exact {a : Account} {c : Conclusion} {x : Outcome}
    (h : x.Recorded c.route a) (hx : c.outcome? = some x) : a.Exact c.route.status c x := by
  cases h with
  | told htold =>
    exact {
      attempted_iff := by simp [Account.idle, Outcome.isTold_iff.1 htold]
      attempted := .inl rfl
      stored := .inl rfl
      announced_iff := by simp [Account.idle]
      announced := .inl rfl }
  | refused htold t =>
    have hdiffers := mt Outcome.isTold_iff.2 (Bool.eq_false_iff.1 htold)
    exact {
      attempted_iff := by simp [hdiffers]
      attempted := .inr ⟨t, rfl⟩
      stored := .inl rfl
      announced_iff := by simp
      announced := .inl rfl }
  | stored htold t =>
    have hdiffers := mt Outcome.isTold_iff.2 (Bool.eq_false_iff.1 htold)
    exact {
      attempted_iff := by simp [hdiffers]
      attempted := .inr ⟨t, rfl⟩
      stored := .inr ⟨t, rfl, rfl⟩
      announced_iff := by simp [c.announced_eq hx, and_comm]
      announced := by
        dsimp only
        split
        · exact .inr rfl
        · exact .inl rfl }

namespace Visit

variable {σ : Type} (answer : (c : Call) → σ → c.Answer × σ) (v : Visit σ)

def Reads (status : Option RouteStatus) : Prop :=
  ∀ found ∈ v.found? answer, found.1.status = status

instance (status : Option RouteStatus) : Decidable (v.Reads answer status) :=
  inferInstanceAs (Decidable (∀ found ∈ v.found? answer, found.1.status = status))

variable {answer v} in
theorem Reads.status_eq {status : Option RouteStatus} {c : Conclusion} (h : v.Reads answer status)
    (hc : v.conclusion? answer = some c) : c.route.status = status := by
  obtain ⟨s, hs⟩ := v.found?_of_conclusion? answer hc
  exact h _ hs

def TellsOnly (told : Phase × Option String × Option Int) : Prop :=
  ∀ c x, v.conclusion? answer = some c → c.outcome? = some x →
    x.toldFor c.route.metadata.generation = told

end Visit

def StatusEntry.ready? (e : StatusEntry) : Option ConditionStatus :=
  (e.status.conditions.find? (·.type == Condition.readyType)).map Condition.status

theorem StatusEntry.ready?_eq {e : StatusEntry} {c : Condition} (h : e.status.conditions = [c])
    (hc : c.type = Condition.readyType) : e.ready? = some c.status := by
  simp [ready?, h, hc]

namespace Condition

variable {c p : Condition}

theorem since_of_same (htype : p.type = c.type) (hstatus : p.status = c.status) :
    c.since [p] = { c with lastTransition := p.lastTransition } := by
  simp [since, htype, hstatus]

theorem since_of_changed (hstatus : p.status ≠ c.status) : c.since [p] = c := by
  simp [since, hstatus]

end Condition

/-- Since then the condition has had its status: the entry of that time gave it the status, and none
after it took it away. -/
def HeldSince (es : List StatusEntry) (c : Condition) : Prop :=
  ∃ before e after, es = before ++ e :: after ∧ e.time = some c.lastTransition ∧
    (∀ e' ∈ e :: after, e'.ready? = some c.status) ∧
      ∀ e' ∈ before.getLast?, e'.ready? ≠ some c.status

namespace HeldSince

variable {es : List StatusEntry} {e : StatusEntry} {c c' : Condition}

theorem turned (htime : e.time = some c.lastTransition) (he : e.ready? = some c.status)
    (hlast : ∀ e' ∈ es.getLast?, e'.ready? ≠ some c.status) : HeldSince (es ++ [e]) c :=
  ⟨es, e, [], rfl, htime, by simpa using he, hlast⟩

theorem extended (h : HeldSince es c) (htime : c'.lastTransition = c.lastTransition)
    (hstatus : c'.status = c.status) (he : e.ready? = some c'.status) :
    HeldSince (es ++ [e]) c' := by
  obtain ⟨before, first, after, rfl, hfirst, hheld, hlast⟩ := h
  refine ⟨before, first, after ++ [e], by simp, htime ▸ hfirst, ?_, hstatus ▸ hlast⟩
  intro e' he'
  rw [← List.cons_append, List.mem_append, List.mem_singleton] at he'
  obtain hmem | rfl := he'
  · exact hstatus ▸ hheld e' hmem
  · exact he

/-- The condition of a status that is stored next goes on from the one before. -/
theorem next {x : Outcome} {r : Route} {t : Instant}
    (hlast : r.status = es.getLast?.map StatusEntry.status)
    (hheld : ∀ s, r.status = some s →
      ∃ c, s.conditions = [c] ∧ c.type = Condition.readyType ∧ HeldSince es c) :
    ∃ c, (x.status r t).conditions = [c] ∧ c.type = Condition.readyType ∧
      HeldSince (es ++ [⟨some t, x.status r t⟩]) c := by
  have hnew {previous : List Condition}
      (hp : (r.status.map RouteStatus.conditions).getD [] = previous)
      (hsince : (x.condition t).since previous = x.condition t)
      (hturn : ∀ e ∈ es.getLast?, e.ready? ≠ some (x.condition t).status) :
      ∃ c, (x.status r t).conditions = [c] ∧ c.type = Condition.readyType ∧
        HeldSince (es ++ [⟨some t, x.status r t⟩]) c := by
    have hconditions : (x.status r t).conditions = [x.condition t] := by
      rw [Outcome.status, hp, hsince]
    exact ⟨x.condition t, hconditions, rfl,
      turned rfl (StatusEntry.ready?_eq hconditions rfl) hturn⟩
  cases hs : r.status with
  | none =>
    have hempty : es.getLast? = none := Option.map_eq_none_iff.1 (hlast.symm.trans hs)
    refine hnew (by rw [hs]) rfl fun e he => ?_
    rw [hempty] at he
    nomatch he
  | some s =>
    obtain ⟨p, hconditions, htype, hp⟩ := hheld s hs
    have hprevious : (r.status.map RouteStatus.conditions).getD [] = [p] := by
      rw [hs]
      exact hconditions
    by_cases hstatus : p.status = (x.condition t).status
    · have hsince := Condition.since_of_same (c := x.condition t) htype hstatus
      have hkept : (x.status r t).conditions
          = [{ x.condition t with lastTransition := p.lastTransition }] := by
        rw [Outcome.status, hprevious, hsince]
      exact ⟨_, hkept, rfl, hp.extended rfl hstatus.symm (StatusEntry.ready?_eq hkept rfl)⟩
    · refine hnew hprevious (Condition.since_of_changed hstatus) fun e he => ?_
      have he' : e.status = s := by
        rw [hs, Option.mem_def.1 he] at hlast
        exact (Option.some.inj hlast).symm
      rw [StatusEntry.ready?_eq (he' ▸ hconditions) htype]
      exact fun h => hstatus (Option.some.inj h)

end HeldSince

namespace History

variable {σ : Type} (answer : (c : Call) → σ → c.Answer × σ)

def entries (vs : List (Visit σ)) : List StatusEntry :=
  vs.flatMap fun v => (v.account answer).entries

def stored (vs : List (Visit σ)) : Option RouteStatus :=
  (entries answer vs).getLast?.map StatusEntry.status

/-- A run of passes over a route that had no status at first: each pass finds the route with the
status that was stored last. -/
inductive Faithful : List (Visit σ) → Prop where
  | start : Faithful []
  | pass {vs : List (Visit σ)} {v : Visit σ} (h : Faithful vs)
    (hv : v.Reads answer (stored answer vs)) : Faithful (vs ++ [v])

variable {answer} {vs : List (Visit σ)} {v : Visit σ}

theorem entries_concat (vs : List (Visit σ)) (v : Visit σ) :
    entries answer (vs ++ [v]) = entries answer vs ++ (v.account answer).entries := by
  simp [entries]

theorem Faithful.of_prefix {pre : List (Visit σ)} (h : Faithful answer vs) (hp : pre <+: vs) :
    Faithful answer pre := by
  induction h with
  | start =>
    rw [List.prefix_nil.1 hp]
    exact .start
  | pass h hv ih =>
    obtain rfl | hp := List.prefix_concat_iff.1 hp
    · exact .pass h hv
    · exact ih hp

theorem Faithful.reads (h : Faithful answer (vs ++ [v])) : v.Reads answer (stored answer vs) := by
  generalize hws : vs ++ [v] = ws at h
  cases h with
  | start => simp at hws
  | pass h hv =>
    obtain ⟨rfl, rfl⟩ := List.concat_inj.1 (by simpa using hws)
    exact hv

/-- Passes that have the same to tell store it once. -/
theorem Faithful.once {pre mid : List (Visit σ)} {told : Phase × Option String × Option Int}
    (h : Faithful answer (pre ++ mid)) (hmid : ∀ v ∈ mid, v.TellsOnly answer told) :
    entries answer (pre ++ mid) = entries answer pre ∨
      ∃ e, entries answer (pre ++ mid) = entries answer pre ++ [e] ∧ e.status.told = told := by
  induction mid using List.reverseRecOn with
  | nil => exact .inl (by rw [List.append_nil])
  | append_singleton mid v ih =>
    rw [← List.append_assoc] at h ⊢
    have hbefore := ih (h.of_prefix (List.prefix_append _ _))
      fun v hv => hmid v (List.mem_append_left _ hv)
    rw [entries_concat]
    obtain hnothing | ⟨c, x, t, hc, hx, hnot, hentry⟩ := v.entries_cases answer
    · rw [hnothing, List.append_nil]
      exact hbefore
    · have htold : x.toldFor c.route.metadata.generation = told := hmid v (by simp) c x hc hx
      obtain hsame | ⟨e, he, hkept⟩ := hbefore
      · exact .inr ⟨⟨some t, x.status c.route t⟩, by rw [hsame, hentry], htold⟩
      · -- it is stored already, so it would not be written again
        have hstored : c.route.status = some e.status := by
          rw [h.reads.status_eq hc, stored, he, List.getLast?_concat, Option.map_some]
        have hagain : x.isTold c.route = true := by
          rw [Outcome.isTold_iff, hstored, htold, ← hkept, Option.map_some]
        rw [hnot] at hagain
        nomatch hagain

theorem Faithful.ready_since {s : RouteStatus} (h : Faithful answer vs)
    (hs : stored answer vs = some s) :
    ∃ c, s.conditions = [c] ∧ c.type = Condition.readyType ∧
      HeldSince (entries answer vs) c := by
  induction h generalizing s with
  | start => nomatch hs
  | @pass vs v h hv ih =>
    rw [stored, entries_concat] at hs
    rw [entries_concat]
    obtain hnothing | ⟨c, x, t, hc, -, -, hentry⟩ := v.entries_cases answer
    · rw [hnothing, List.append_nil] at hs ⊢
      exact ih hs
    · have hstatus := hv.status_eq hc
      rw [hentry] at hs ⊢
      rw [List.getLast?_concat, Option.map_some, Option.some.injEq] at hs
      subst hs
      exact HeldSince.next hstatus fun s hs => ih (hstatus ▸ hs)

variable (answer vs) in
structure StatusExact : Prop where
  /-- A pass that comes to an outcome tells what differs from the status that it finds. -/
  concluded : ∀ pre v, pre ++ [v] <+: vs → ∀ c x, v.conclusion? answer = some c →
    c.outcome? = some x → (v.account answer).Exact (stored answer pre) c x
  /-- A pass that does not come to the route, or is stopped, tells nothing. -/
  idle : ∀ v ∈ vs, (v.conclusion? answer).bind Conclusion.outcome? = none →
    v.account answer = .idle
  /-- However many passes have the same to tell, they store it once. -/
  once : ∀ pre mid told, pre ++ mid <+: vs → (∀ v ∈ mid, v.TellsOnly answer told) →
    (entries answer (pre ++ mid)).length ≤ (entries answer pre).length + 1
  /-- At every point, the condition that is stored tells since when it has had its status. -/
  since : ∀ pre s, pre <+: vs → stored answer pre = some s →
    ∃ c, s.conditions = [c] ∧ c.type = Condition.readyType ∧ HeldSince (entries answer pre) c

/-- Along every run of passes over a route that has no status at first, whatever happens to the
cluster and to the rest of the route meanwhile, and whichever of the calls fail, the status is
written when it would change, keeps the time of its last turn, and is announced in a new phase. -/
theorem status_exact (h : Faithful answer vs) : StatusExact answer vs where
  concluded pre v hp c x hc hx := by
    rw [← (h.of_prefix hp).reads.status_eq hc]
    exact (Visit.recorded_of_conclusion? hc hx).exact hx
  idle v _ := Visit.account_eq_idle
  once pre mid told hp hmid := by
    obtain hsame | ⟨e, he, -⟩ := (h.of_prefix hp).once hmid
    · rw [hsame]
      exact Nat.le_succ _
    · rw [he, List.length_append, List.length_singleton]
  since pre s hp := (h.of_prefix hp).ready_since

end History

def shopVisit (status : Option RouteStatus) (generation : Int) (services : List Service)
    (t : Instant) (faults : List Fault) : Visit Rehearsal where
  edgeSpace := "istio-system"
  metadata := heldShop.metadata
  start := {
    routes := [(("a", "rollout"), {
      metadata := { heldShop.metadata with generation := some generation }
      spec := ⟨services⟩
      status })]
    faults
    clock := t }

open Rehearsal (answer)
open History

/-- A service without revisions fails, and fails again after an edit; the third pass finds nothing
new. When the service is gone the route is ready, but the status cannot be stored before the fifth
pass. -/
def shopRun : List (Visit Rehearsal) :=
  let broken : Service := { name := "shop", space := "b", revisions := [] }
  let lost : Fault := ⟨"patch_route_status", "", "", 1, .store Route.kind "connection lost"⟩
  let first := shopVisit none 1 [broken] ⟨10, 0⟩ []
  let second := shopVisit (stored answer [first]) 2 [broken] ⟨20, 0⟩ []
  let third := shopVisit (stored answer [second]) 2 [broken] ⟨30, 0⟩ []
  let fourth := shopVisit (stored answer [second]) 3 [] ⟨40, 0⟩ [lost]
  let fifth := shopVisit (stored answer [second]) 3 [] ⟨50, 0⟩ []
  [first, second, third, fourth, fifth]

theorem shopRun_status_exact :
    Faithful answer shopRun ∧ StatusExact answer shopRun ∧
      (shopRun.map fun v => (v.account answer).attempts.length) = [1, 1, 0, 1, 1] ∧
      (entries answer shopRun).map StatusEntry.time
        = [some ⟨10, 0⟩, some ⟨20, 0⟩, some ⟨50, 0⟩] ∧
      (shopRun.map fun v => (v.account answer).messages.length) = [1, 0, 0, 0, 1] := by
  have hfirst : Faithful answer (shopRun.take 1) :=
    .pass .start (by decide +kernel)
  have hsecond : Faithful answer (shopRun.take 2) :=
    .pass hfirst (by decide +kernel)
  have hthird : Faithful answer (shopRun.take 3) :=
    .pass hsecond (by decide +kernel)
  have hfourth : Faithful answer (shopRun.take 4) :=
    .pass hthird (by decide +kernel)
  have hfifth : Faithful answer shopRun :=
    .pass hfourth (by decide +kernel)
  exact ⟨hfifth, status_exact hfifth, by decide +kernel, by decide +kernel, by decide +kernel⟩

end MeshRollout

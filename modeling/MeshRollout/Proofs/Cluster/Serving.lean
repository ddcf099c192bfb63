import MeshRollout.Proofs.Cluster.Traces
import MeshRollout.Proofs.Delivery

/-!
Passes that only call the store and send messages. Where no call is made to fail, all that such a
pass comes to is told by the objects that the store holds: its result, the store that it leaves, and
its calls.
-/
set_option autoImplicit false

namespace MeshRollout

def Call.isLocal : Call → Bool
  | .store _ | .notify _ => true
  | .route _ | .cancelled | .now | .fetch => false

def MemoryStore.serve (c : Call) (s : MemoryStore) : c.Answer × MemoryStore :=
  match c with
  | .store c => s.answer c
  | .notify _ => (.ok (), s)
  | .route c => (c.failed (.internal Failure.unknown "no route"), s)
  | .cancelled => (false, s)
  | .now => (⟨0, 0⟩, s)
  | .fetch => (.error (.internal Failure.unknown "no manifest"), s)

@[simp] theorem MemoryStore.serve_notify (message : String) (s : MemoryStore) :
    serve (.notify message) s = (.ok (), s) := rfl

open MemoryStore Rehearsal

structure Mirrors (answer : (c : Call) → Rehearsal → c.Answer × Rehearsal)
    (serve : (c : Call) → MemoryStore → c.Answer × MemoryStore) : Prop where
  store : ∀ {w}, w.Quiet → ∀ c,
    (answer (.store c) w).1 = (serve (.store c) w.store).1 ∧
      (answer (.store c) w).2.store = (serve (.store c) w.store).2 ∧ (answer (.store c) w).2.Quiet
  notify : ∀ {w}, w.Quiet → ∀ message,
    (answer (.notify message) w).2.store = (serve (.notify message) w.store).2 ∧
      (answer (.notify message) w).2.Quiet

theorem mirrors_serve : Mirrors Rehearsal.answer serve where
  store h c := answerStore_of_quiet h c
  notify {w} h message := by
    show (w.notify message).2.store = w.store ∧ (w.notify message).2.Quiet
    cases hs : w.sink <;> rw [Rehearsal.notify, hs] <;> exact ⟨rfl, h.faults, h.races⟩

namespace Program

variable {α σ : Type} {w : Rehearsal} {answer : (c : Call) → Rehearsal → c.Answer × Rehearsal}
  {serve : (c : Call) → MemoryStore → c.Answer × MemoryStore}

/-- The rehearsal of a program comes to what the store alone makes of the program. -/
structure Told (answer : (c : Call) → Rehearsal → c.Answer × Rehearsal)
    (serve : (c : Call) → MemoryStore → c.Answer × MemoryStore) (p : Program α) (w : Rehearsal) :
    Prop where
  result : (p.run answer w).1 = (p.run serve w.store).1
  store : (p.run answer w).2.store = (p.run serve w.store).2
  quiet : (p.run answer w).2.Quiet
  calls : p.calls answer w = p.calls serve w.store

theorem Told.call {c : Call} {next : c.Answer → Program α}
    (hnext : next (answer c w).1 = next (serve c w.store).1)
    (hstore : (answer c w).2.store = (serve c w.store).2)
    (h : (next (answer c w).1).Told answer serve (answer c w).2) :
    (Program.call c next).Told answer serve w where
  result := h.result.trans (by rw [hnext, hstore]; rfl)
  store := h.store.trans (by rw [hnext, hstore]; rfl)
  quiet := h.quiet
  calls := congrArg (c :: ·) (h.calls.trans (by rw [hnext, hstore]))

/-- Where no call is made to fail, the store alone tells what becomes of a program that cares for
nothing else. -/
theorem Deaf.told {p : Program α} (h : p.Deaf) (hlocal : p.Uses fun c => c.isLocal = true)
    (hm : Mirrors answer serve) (hq : w.Quiet) : p.Told answer serve w := by
  induction h generalizing w with
  | done x => exact ⟨rfl, rfl, hq, rfl⟩
  | @notify message next same _ ih =>
    -- the delivery may fail on one side only, but what follows is the same
    obtain ⟨hstore, hquiet⟩ := hm.notify hq message
    exact .call (same _ _) hstore (ih _ (hlocal.2 _) hquiet)
  | @call c next hc _ ih =>
    cases c with
    | store c =>
      obtain ⟨hans, hstore, hquiet⟩ := hm.store hq c
      exact .call (congrArg next hans) hstore (ih _ (hlocal.2 _) hquiet)
    | notify message => exact absurd rfl (hc message)
    | route c => nomatch hlocal.1
    | cancelled => nomatch hlocal.1
    | now => nomatch hlocal.1
    | fetch => nomatch hlocal.1

theorem run_congr {allowed : Call → Prop} {a b : (c : Call) → σ → c.Answer × σ}
    (hab : ∀ c s, allowed c → a c s = b c s) {p : Program α} (hp : p.Uses allowed) (s : σ) :
    p.run a s = p.run b s ∧ p.calls a s = p.calls b s := by
  induction p generalizing s with
  | done x => exact ⟨rfl, rfl⟩
  | call c next ih =>
    obtain ⟨hrun, hcalls⟩ := ih _ (hp.2 _) (b c s).2
    simp only [run, calls, hab c s hp.1]
    exact ⟨hrun, congrArg (c :: ·) hcalls⟩

end Program

namespace Pass

variable {α β σ : Type} (answer : (c : Call) → σ → c.Answer × σ)

def on (p : Pass α) (s : σ) : Except Failure α × σ :=
  Program.run (α := Except Failure α) answer p s

def callsOn (p : Pass α) (s : σ) : List Call :=
  Program.calls (α := Except Failure α) answer p s

section Flow

variable (s : σ)

@[simp] theorem on_notify (message : String) :
    on answer (notify message) s = (.ok (), (answer (.notify message) s).2) := rfl

@[simp] theorem on_pure (x : α) : on answer (pure x) s = (.ok x, s) := rfl

@[simp] theorem on_ofExcept (x : Except Failure α) : on answer (ofExcept x) s = (x, s) := rfl

@[simp] theorem callsOn_pure (x : α) : callsOn answer (pure x) s = [] := rfl

@[simp] theorem callsOn_ofExcept (x : Except Failure α) : callsOn answer (ofExcept x) s = [] := rfl

@[simp] theorem callsOn_get (r : Resource) (space : Option String) (name : String) :
    callsOn answer (get r space name) s = [.store (.get r space name)] := rfl

@[simp] theorem callsOn_list (r : Resource) (space selector : Option String) :
    callsOn answer (list r space selector) s = [.store (.list r space selector)] := rfl

@[simp] theorem callsOn_apply (r : Resource) (o : Object) (manager : String) :
    callsOn answer (apply r o manager) s = [.store (.apply r o manager)] := rfl

@[simp] theorem callsOn_notify (message : String) :
    callsOn answer (notify message) s = [.notify message] := rfl

theorem on_bind (p : Pass α) (f : α → Pass β) :
    on answer (p >>= f) s
      = match on answer p s with
        | (.ok x, s') => on answer (f x) s'
        | (.error e, s') => (.error e, s') := by
  have h := Program.run_bind (α := Except Failure α) answer p (ExceptT.bindCont f) s
  refine Eq.trans h ?_
  simp only [on]
  split
  · rename_i x s' hx
    rw [hx]
    rfl
  · rename_i e s' hx
    rw [hx]
    rfl

theorem on_keeps {P : σ → Prop} (h : ∀ c s, P s → P (answer c s).2) (p : Pass α) {s : σ}
    (hs : P s) : P (on answer p s).2 := by
  have hrun (q : Program (Except Failure α)) (s : σ) (hs : P s) : P (q.run answer s).2 := by
    induction q generalizing s with
    | done x => exact hs
    | call c next ih => exact ih _ _ (h c s hs)
  exact hrun p s hs

variable {s} in
theorem ok_of_on_bind {answer : (c : Call) → σ → c.Answer × σ} {p : Pass α} {f : α → Pass β}
    {y : β} {s'' : σ} (h : on answer (p >>= f) s = (.ok y, s'')) :
    ∃ x s', on answer p s = (.ok x, s') ∧ on answer (f x) s' = (.ok y, s'') := by
  rw [on_bind] at h
  split at h
  · rename_i x s' hx
    exact ⟨x, s', hx, h⟩
  · nomatch h

@[simp] theorem on_attempt (p : Pass α) :
    on answer p.attempt s = (.ok (on answer p s).1, (on answer p s).2) :=
  Program.run_bind (α := Except Failure α) answer p (fun r => .done (Except.ok r)) s

theorem callsOn_bind (p : Pass α) (f : α → Pass β) :
    callsOn answer (p >>= f) s
      = callsOn answer p s ++ match on answer p s with
        | (.ok x, s') => callsOn answer (f x) s'
        | (.error _, _) => [] := by
  have h := Program.calls_bind (α := Except Failure α) answer p (ExceptT.bindCont f) s
  refine Eq.trans h (congrArg (callsOn answer p s ++ ·) ?_)
  simp only [on]
  split
  · rename_i x s' hx
    rw [hx]
    rfl
  · rename_i e s' hx
    rw [hx]
    rfl

@[simp] theorem callsOn_attempt (p : Pass α) :
    callsOn answer p.attempt s = callsOn answer p s :=
  (Program.calls_bind (α := Except Failure α) answer p (fun r => .done (Except.ok r)) s).trans
    (List.append_nil _)

end Flow

section Store

variable (s : MemoryStore)

@[simp] theorem on_get (r : Resource) (space : Option String) (name : String) :
    on serve (get r space name) s = (.ok (s.find (.of r (space.getD "") name)), s) := rfl

@[simp] theorem on_list (r : Resource) (space selector : Option String) :
    on serve (list r space selector) s = (.ok (s.list r space selector), s) := rfl

@[simp] theorem on_delete (r : Resource) (space : Option String) (name : String) :
    on serve (delete r space name) s = s.delete r space name := rfl

end Store

theorem sound_on (p : Pass α) {s : MemoryStore} (hs : s.Sound) : (on serve p s).2.Sound := by
  refine on_keeps serve (fun c s hs => ?_) p hs
  cases c with
  | store c => exact hs.answer c
  | route c => exact hs
  | notify message => exact hs
  | cancelled => exact hs
  | now => exact hs
  | fetch => exact hs

theorem refusedApplies_on (p : Pass α) (s : MemoryStore) :
    (on serve p s).2.refusedApplies = s.refusedApplies := by
  refine on_keeps (P := fun s' => s'.refusedApplies = s.refusedApplies) serve (fun c s' hs => ?_) p
    rfl
  cases c with
  | store c => exact (s'.refusedApplies_answer c).trans hs
  | route c => exact hs
  | notify message => exact hs
  | cancelled => exact hs
  | now => exact hs
  | fetch => exact hs

theorem Deaf.of_yields {p : Pass α} {s s' : MemoryStore} {x : α} {Q : α → MemoryStore → Prop}
    {G : Call → Rehearsal → Rehearsal → Prop} (hd : p.Deaf)
    (hlocal : p.Uses fun c => c.isLocal = true)
    (h : alone.Yields G p (fun x w' => Q x w'.store) { store := s, clock := ⟨0, 0⟩ })
    (hon : on serve p s = (.ok x, s')) : Q x s' := by
  have hrun := Program.Deaf.told hd hlocal mirrors_serve (w := { store := s, clock := ⟨0, 0⟩ })
    ⟨rfl, rfl⟩
  have hstore : (Program.run Rehearsal.answer p { store := s, clock := ⟨0, 0⟩ }).2.store = s' :=
    hrun.store.trans (congrArg Prod.snd hon)
  have hend : Q x (Program.run Rehearsal.answer p { store := s, clock := ⟨0, 0⟩ }).2.store :=
    h.reaches (alone_reaches_run _ _) _ (Alike.refl _) x
      (hrun.result.trans (congrArg Prod.fst hon))
  exact hstore ▸ hend

end Pass

end MeshRollout

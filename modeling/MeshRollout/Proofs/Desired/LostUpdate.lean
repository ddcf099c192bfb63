import MeshRollout.Proofs.Cluster.Turns
import MeshRollout.Proofs.Cluster.Versions
import MeshRollout.Proofs.Desired.Agreement
import MeshRollout.Traffic.Bundle

/-!
Any number of clients write objects of one store at the same time, and others create, change and
delete objects meanwhile. A client reads the object and then makes one write at most. The write
replaces exactly what was read, or it takes a free place, or it is refused and changes nothing.
-/
set_option autoImplicit false

namespace MeshRollout

namespace MemoryStore

def serve? (s : MemoryStore) (c : Call) : Option (c.Answer × MemoryStore) :=
  match c with
  | .store c => some (s.answer c)
  | .route _ | .notify _ | .cancelled | .now | .fetch => none

inductive Serves : (c : Call) → MemoryStore → c.Answer → MemoryStore → Prop where
  | store (c : StoreCall) (s : MemoryStore) : Serves (.store c) s (s.answer c).1 (s.answer c).2

def Touched (s s' : MemoryStore) : Prop :=
  ∃ c : StoreCall, s' = (s.answer c).2

structure Onward (s s' : MemoryStore) : Prop where
  later : Later s s'
  stamped : s.Stamped → s'.Stamped

namespace Onward

theorem refl (s : MemoryStore) : Onward s s :=
  ⟨.refl s, id⟩

theorem trans {s s' s'' : MemoryStore} (h : Onward s s') (h' : Onward s' s'') : Onward s s'' :=
  ⟨h.later.trans h'.later, fun hs => h'.stamped (h.stamped hs)⟩

theorem of_touched {s s' : MemoryStore} (h : Touched s s') : Onward s s' := by
  obtain ⟨c, rfl⟩ := h
  exact ⟨.answer s c, fun hs => hs.answer c⟩

end Onward

theorem Serves.of_serve? {c : Call} {s s' : MemoryStore} {a : c.Answer}
    (h : s.serve? c = some (a, s')) : Serves c s a s' := by
  cases c with
  | store c =>
    have hans : s.answer c = (a, s') := Option.some.inj h
    have hserves := Serves.store c s
    rwa [hans] at hserves
  | route c => cases h
  | notify message => cases h
  | cancelled => cases h
  | now => cases h
  | fetch => cases h

theorem Serves.touched {c : Call} {s s' : MemoryStore} {a : c.Answer} (h : Serves c s a s') :
    Touched s s' := by
  cases h with
  | store c => exact ⟨c, rfl⟩

end MemoryStore

def Object.replacing (o live : Object) : Object :=
  { o with metadata := { o.metadata with resourceVersion := live.metadata.resourceVersion } }

namespace Contention

open MemoryStore Convergence

variable {ι : Type} {i : ι} {r : Resource} {o : Object} {t : List (Moment ι MemoryStore)}

def afterReading (r : Resource) (o : Object) : Option Object → Pass WriteResult
  | none => do
    let _ ← Pass.create r o
    return .created
  | some live =>
    if !live.isOutdated o then return .unchanged
    else do
      let _ ← Pass.update r (o.replacing live)
      return .updated

theorem writeObject_eq (r : Resource) (o : Object) :
    writeObject r o = (do afterReading r o (← Pass.get r o.spaceArg o.name)) := by
  refine congrArg (Pass.get r o.spaceArg o.name >>= ·) (funext fun found => ?_)
  cases found <;> rfl

/-- The reading and the write of a client, and what happened before, between and after them. -/
structure Attempt (r : Resource) (o : Object) (i : ι) (t : List (Moment ι MemoryStore)) where
  early : List (Moment ι MemoryStore)
  read : Moment ι MemoryStore
  between : List (Moment ι MemoryStore)
  write : Moment ι MemoryStore
  late : List (Moment ι MemoryStore)
  history : t = early ++ read :: (between ++ write :: late)
  reads : read.call? = some (i, .store (.get r o.spaceArg o.name))
  writes : ∃ c, c.target? = some (.ofObject r o) ∧ write.call? = some (i, .store c)
  idle : ∀ m ∈ early ++ between ++ late, ¬ m.IsBy i

namespace Attempt

def seen (a : Attempt r o i t) : Option Object :=
  a.read.before.find (.ofObject r o)

def replaced (a : Attempt r o i t) : Option Object :=
  a.write.before.find (.ofObject r o)

def Disturbed (a : Attempt r o i t) : Prop :=
  ∃ m ∈ a.between, m.after.find (.ofObject r o) ≠ m.before.find (.ofObject r o)

structure Tells (a : Attempt r o i t) (result : Except Failure WriteResult) : Prop where
  created : result = .ok .created → a.seen = none ∧ a.replaced = none ∧
    ∃ new, a.write.after.find (.ofObject r o) = some new ∧ new.Carries o
  updated : result = .ok .updated → ∃ live new, a.seen = some live ∧ a.replaced = some live ∧
    a.write.after.find (.ofObject r o) = some new ∧ new.Carries o
  refused : (∃ f, result = .error f) →
    a.read.after = a.read.before ∧ a.write.after = a.write.before
  refused_iff : (∃ f, result = .error f) ↔ a.replaced ≠ a.seen
  wrote : result ≠ .ok .unchanged
  disturbed : a.Disturbed → (a.seen = none ∧ a.replaced = none) ∨ ∃ f, result = .error f

end Attempt

inductive Wrote (r : Resource) (o : Object) (s : MemoryStore) :
    Option Object → Except Failure WriteResult → MemoryStore → Prop where
  | refused {found : Option Object} (f : Failure) (late : s.find (.ofObject r o) ≠ found) :
      Wrote r o s found (.error f) s
  | created {new : Object} {s' : MemoryStore} (absent : s.find (.ofObject r o) = none)
      (placed : s'.find (.ofObject r o) = some new) (carries : new.Carries o) :
      Wrote r o s none (.ok .created) s'
  | updated (live : Object) {now new : Object} {s' : MemoryStore}
      (stands : s.find (.ofObject r o) = some now)
      (version : now.metadata.resourceVersion = live.metadata.resourceVersion)
      (placed : s'.find (.ofObject r o) = some new) (carries : new.Carries o) :
      Wrote r o s (some live) (.ok .updated) s'

theorem afterReading_answered {found : Option Object} {c : Call}
    {next : c.Answer → Program (Except Failure WriteResult)} {s s' : MemoryStore} {a : c.Answer}
    (hp : afterReading r o found = Program.call c next) (ha : Serves c s a s') :
    ∃ sc result, c = .store sc ∧ sc.target? = some (.ofObject r o) ∧ next a = .done result ∧
      Wrote r o s found result s' := by
  cases found with
  | none =>
    cases hp
    cases ha
    refine ⟨.create r o, ?_⟩
    rcases create_cases s r o with ⟨taken, f, h⟩ | ⟨absent, x, s', h⟩
    · have hans : s.answer (.create r o) = (.error f, s) := h
      rw [hans]
      exact ⟨.error f, rfl, rfl, rfl, .refused f taken⟩
    · have hans : s.answer (.create r o) = (.ok x, s') := h
      obtain ⟨new, placed, carries⟩ := find_create_of_ok (congrArg Prod.fst h)
      rw [h] at placed
      rw [hans]
      exact ⟨.ok .created, rfl, rfl, rfl, .created absent placed carries⟩
  | some live =>
    rw [afterReading] at hp
    split at hp
    · cases hp
    · cases hp
      cases ha
      refine ⟨.update r (o.replacing live), ?_⟩
      rcases update_cases s r (o.replacing live) with
        ⟨late, f, h⟩ | ⟨now, stands, version, x, s', h⟩
      · have hans : s.answer (.update r (o.replacing live)) = (.error f, s) := h
        rw [hans]
        exact ⟨.error f, rfl, rfl, rfl, .refused f fun hl => late live hl rfl⟩
      · have hans : s.answer (.update r (o.replacing live)) = (.ok x, s') := h
        obtain ⟨new, placed, carries⟩ := find_update_of_ok (congrArg Prod.fst h)
        rw [h] at placed
        rw [hans]
        exact ⟨.ok .updated, rfl, rfl, rfl, .updated live stands version placed
          ⟨carries.labels, carries.annotations, carries.spec⟩⟩

def Attempt.extend (a : Attempt r o i t) {m : Moment ι MemoryStore} (hm : ¬ m.IsBy i) :
    Attempt r o i (t ++ [m]) where
  early := a.early
  read := a.read
  between := a.between
  write := a.write
  late := a.late ++ [m]
  history := (congrArg (· ++ [m]) a.history).trans (by simp)
  reads := a.reads
  writes := a.writes
  idle m' hm' := by
    rw [← List.append_assoc, List.mem_append, List.mem_singleton] at hm'
    rcases hm' with hold | rfl
    · exact a.idle m' hold
    · exact hm

inductive Stage (r : Resource) (o : Object) (i : ι) (t : List (Moment ι MemoryStore))
    (p : Program (Except Failure WriteResult)) : Prop where
  | fresh (program : p = writeObject r o) (idle : ∀ m ∈ t, ¬ m.IsBy i)
  | seen {early between : List (Moment ι MemoryStore)} {read : Moment ι MemoryStore}
      (history : t = early ++ read :: between)
      (reads : read.call? = some (i, .store (.get r o.spaceArg o.name)))
      (unmoved : read.after = read.before) (idle : ∀ m ∈ early ++ between, ¬ m.IsBy i)
      (program : p = afterReading r o (read.before.find (.ofObject r o)))
  | wrote (a : Attempt r o i t) {result : Except Failure WriteResult}
      (unmoved : a.read.after = a.read.before)
      (effect : Wrote r o a.write.before a.seen result a.write.after) (program : p = .done result)

namespace Stage

variable {p : Program (Except Failure WriteResult)} {m : Moment ι MemoryStore}

theorem idle_append {ms : List (Moment ι MemoryStore)} (h : ∀ m' ∈ ms, ¬ m'.IsBy i)
    (hm : ¬ m.IsBy i) : ∀ m' ∈ ms ++ [m], ¬ m'.IsBy i := by
  intro m' hm'
  rcases List.mem_append.1 hm' with hold | hnew
  · exact h m' hold
  · cases List.mem_singleton.1 hnew
    exact hm

theorem skip (h : Stage r o i t p) (hm : ¬ m.IsBy i) : Stage r o i (t ++ [m]) p := by
  cases h with
  | fresh program idle => exact .fresh program (idle_append idle hm)
  | @seen early between read history reads unmoved idle program =>
    have hlonger : t ++ [m] = early ++ read :: (between ++ [m]) := by rw [history]; simp
    refine .seen hlonger reads unmoved ?_ program
    rw [← List.append_assoc]
    exact idle_append idle hm
  | wrote a unmoved effect program => exact .wrote (a.extend hm) unmoved effect program

theorem call (h : Stage r o i t p) {c : Call}
    {next : c.Answer → Program (Except Failure WriteResult)} {s s' : MemoryStore} {a : c.Answer}
    (hp : p = .call c next) (ha : Serves c s a s') :
    Stage r o i (t ++ [⟨some (i, c), s, s'⟩]) (next a) := by
  cases h with
  | fresh program idle =>
    have hget := program.symm.trans hp
    rw [writeObject_eq] at hget
    cases hget
    cases ha
    refine .seen rfl rfl rfl (by simpa using idle) ?_
    rw [StoreKey.ofObject, ← Object.spaceArg_getD]
    rfl
  | @seen early between read history reads unmoved idle program =>
    obtain ⟨sc, result, rfl, target, hresult, effect⟩ :=
      afterReading_answered (program.symm.trans hp) ha
    refine .wrote ⟨early, read, between, ⟨_, s, s'⟩, [], by simp [history], reads,
      ⟨sc, target, rfl⟩, by simpa using idle⟩ unmoved effect hresult
  | wrote a unmoved effect program => cases program.symm.trans hp

variable [DecidableEq ι] {x y : Crowd ι MemoryStore (Except Failure WriteResult)}

theorem turn (h : Stage r o i t (x.programs i)) (ht : Crowd.Turn Serves Touched x m y) :
    Stage r o i (t ++ [m]) (y.programs i) := by
  cases ht with
  | @call j c next a s' hp ha =>
    by_cases hj : i = j
    · subst hj
      simpa using h.call hp ha
    · have hm : ¬ Moment.IsBy ⟨some (j, c), x.state, s'⟩ i := by
        rintro ⟨c', hc⟩
        cases hc
        exact hj rfl
      simpa [hj] using h.skip hm
  | others ho =>
    refine h.skip ?_
    rintro ⟨c, hc⟩
    cases hc

theorem of_runs (hx : x.programs i = writeObject r o)
    (h : Crowd.Runs Serves Touched x t y) : Stage r o i t (y.programs i) := by
  induction h with
  | start => exact .fresh hx (by simp)
  | turn _ hlast ih => exact ih.turn hlast

end Stage

theorem related_of_runs [DecidableEq ι]
    {x y : Crowd ι MemoryStore (Except Failure WriteResult)}
    (h : Crowd.Runs Serves Touched x t y) :
    Onward x.state y.state ∧
      (∀ m ∈ t, Onward x.state m.before ∧ Onward m.after y.state) ∧
      t.Pairwise fun m m' => Onward m.after m'.before :=
  h.related (fun _ _ _ _ ha => Onward.of_touched ha.touched) (fun _ _ => Onward.of_touched)
    Onward.refl fun _ _ _ => Onward.trans

namespace Attempt

structure Ordered (a : Attempt r o i t) : Prop where
  stamped : a.read.after.Stamped
  whole : Onward a.read.after a.write.before
  turns : ∀ m ∈ a.between, Onward a.read.after m.before ∧ Onward m.before m.after ∧
    Onward m.after a.write.before

theorem ordered [DecidableEq ι] {x y : Crowd ι MemoryStore (Except Failure WriteResult)}
    (hs : x.state.Stamped) (h : Crowd.Runs Serves Touched x t y) (a : Attempt r o i t) :
    a.Ordered := by
  have heach := h.each (fun _ _ _ _ ha => Onward.of_touched ha.touched) fun _ _ => Onward.of_touched
  obtain ⟨-, hmem, hpair⟩ := related_of_runs h
  rw [a.history] at heach hmem hpair
  obtain ⟨-, hlate, -⟩ := List.pairwise_append.1 hpair
  obtain ⟨hread, hrest⟩ := List.pairwise_cons.1 hlate
  obtain ⟨-, -, hwrite⟩ := List.pairwise_append.1 hrest
  refine ⟨?_, hread a.write (by simp), fun m hm => ⟨hread m (by simp [hm]), heach m (by simp [hm]),
    hwrite m hm a.write (by simp)⟩⟩
  exact (heach a.read (by simp)).stamped ((hmem a.read (by simp)).1.stamped hs)

variable {a : Attempt r o i t} {live : Object}

theorem Ordered.replaced_ne (h : a.Ordered) (unmoved : a.read.after = a.read.before)
    (hseen : a.seen = some live) (hd : a.Disturbed) : a.replaced ≠ some live := by
  obtain ⟨m, hm, hchange⟩ := hd
  obtain ⟨hbefore, hturn, hafter⟩ := h.turns m hm
  have hfound : a.read.after.find (.ofObject r o) = some live := by rw [unmoved]; exact hseen
  -- deleting the object and creating it again does not bring back the version that was read
  by_cases hstill : m.before.find (.ofObject r o) = some live
  · have hgone : m.after.find (.ofObject r o) ≠ some live := fun he =>
      hchange (he.trans hstill.symm)
    exact (hbefore.trans hturn).later.gone hafter.later h.stamped hfound hgone
  · exact hbefore.later.gone (hturn.trans hafter).later h.stamped hfound hstill

theorem Ordered.tells (h : a.Ordered) (unmoved : a.read.after = a.read.before)
    {result : Except Failure WriteResult}
    (effect : Wrote r o a.write.before a.seen result a.write.after) : a.Tells result := by
  generalize hseen : a.seen = seen at effect
  generalize hafter : a.write.after = s' at effect
  cases effect with
  | refused f late =>
    exact {
      created := fun he => by cases he
      updated := fun he => by cases he
      refused := fun _ => ⟨unmoved, hafter⟩
      refused_iff := ⟨fun _ => hseen ▸ late, fun _ => ⟨f, rfl⟩⟩
      wrote := fun he => by cases he
      disturbed := fun _ => .inr ⟨f, rfl⟩ }
  | @created new _ absent placed carries =>
    exact {
      created := fun _ => ⟨hseen, absent, new, hafter ▸ placed, carries⟩
      updated := fun he => by cases he
      refused := fun ⟨_, he⟩ => by cases he
      refused_iff := iff_of_false (by simp) (not_not_intro (absent.trans hseen.symm))
      wrote := fun he => by cases he
      disturbed := fun _ => .inl ⟨hseen, absent⟩ }
  | @updated live now new _ stands version placed carries =>
    have hfound : a.read.after.find (.ofObject r o) = some live := by rw [unmoved]; exact hseen
    -- versions are never used twice, so the version that matched is that of what was read
    have hsame := h.whole.later.eq_of_version h.stamped hfound stands version
    subst hsame
    exact {
      created := fun he => by cases he
      updated := fun _ => ⟨now, new, hseen, stands, hafter ▸ placed, carries⟩
      refused := fun ⟨_, he⟩ => by cases he
      refused_iff := iff_of_false (by simp) (not_not_intro (stands.trans hseen.symm))
      wrote := fun he => by cases he
      disturbed := fun hd => absurd stands (h.replaced_ne unmoved hseen hd) }

end Attempt

theorem afterReading_done {found : Option Object} {result : Except Failure WriteResult}
    (h : afterReading r o found = Program.done result) : result = .ok .unchanged := by
  cases found with
  | none => cases h
  | some live =>
    rw [afterReading] at h
    split at h
    · cases h
      rfl
    · cases h

/-- Whatever turns many clients take on one store, with others in between: every client that is done
either found its object as it should be and wrote nothing, or its result tells truly what its write
replaced, and a write that came too late was refused and changed nothing. And as long as an object
is there, nobody gives it another identity. -/
theorem writeObject_loses_no_update [DecidableEq ι] (r : ι → Resource) (o : ι → Object)
    {s : MemoryStore} (hs : s.Reachable) {t : List (Moment ι MemoryStore)}
    {y : Crowd ι MemoryStore (Except Failure WriteResult)}
    (h : Crowd.Runs Serves Touched ⟨s, fun i => writeObject (r i) (o i)⟩ t y) :
    (∀ m ∈ t, ∀ k old new, m.before.find k = some old → m.after.find k = some new →
      new.metadata.uid = old.metadata.uid) ∧
    ∀ i result, y.programs i = .done result →
      (result = .ok .unchanged ∧ ∀ m ∈ t, m.IsBy i → m.after = m.before) ∨
        ∃ a : Attempt (r i) (o i) i t, a.Tells result := by
  refine ⟨fun m hm k old new hold hnew => ?_, fun i result hdone => ?_⟩
  · obtain ⟨c, hc⟩ : Touched m.before m.after :=
      h.each (F := Touched) (fun _ _ _ _ ha => ha.touched) (fun _ _ ht => ht) m hm
    have hstamped := ((related_of_runs h).2.1 m hm).1.stamped hs.stamped
    exact uid_answer hstamped c hold (hc ▸ hnew)
  · have hstage : Stage (r i) (o i) i t (y.programs i) := .of_runs rfl h
    rw [hdone] at hstage
    cases hstage with
    | fresh program idle =>
      rw [writeObject_eq] at program
      cases program
    | @seen early between read history reads unmoved idle program =>
      refine .inl ⟨afterReading_done program.symm, fun m hm hby => ?_⟩
      rw [history, List.mem_append, List.mem_cons] at hm
      rcases hm with hearly | rfl | hbetween
      · exact absurd hby (idle m (List.mem_append_left _ hearly))
      · exact unmoved
      · exact absurd hby (idle m (List.mem_append_right _ hbetween))
    | wrote a unmoved effect program =>
      cases program
      exact .inr ⟨a, (a.ordered hs.stamped h).tells unmoved effect⟩

def contested (label : String) : Object where
  types := none
  metadata := { name := some "edge", space := some "c", labels := some [("by", label)] }
  data := []

def contestedStore : MemoryStore :=
  ({} : MemoryStore).insert GatewaySpec.kind.resource (contested "nobody")

def contest : Crowd Bool MemoryStore (Except Failure WriteResult) where
  state := contestedStore
  programs late :=
    writeObject GatewaySpec.kind.resource (contested (if late then "late" else "early"))

def contestEnd : Crowd Bool MemoryStore (Except Failure WriteResult) :=
  Crowd.play (fun c s => s.serve? c) [false, true, false, true] contest

theorem contest_loses_no_update :
    contestedStore.Reachable ∧
    ∃ t, Crowd.Runs Serves Touched contest t contestEnd ∧
      (∃ a : Attempt GatewaySpec.kind.resource (contested "early") false t,
        a.Tells (.ok .updated)) ∧
      ∃ a : Attempt GatewaySpec.kind.resource (contested "late") true t,
        a.Tells (.error (conflict GatewaySpec.kind.resource (contested "late") modified)) := by
  have hreach : contestedStore.Reachable := Reachable.empty.insert _ _
  obtain ⟨t, ht⟩ : ∃ t, Crowd.Runs Serves Touched contest t contestEnd :=
    Crowd.runs_play (fun _ _ _ _ => Serves.of_serve?) [false, true, false, true] contest
  obtain ⟨-, hends⟩ := writeObject_loses_no_update (fun _ => GatewaySpec.kind.resource)
    (fun late : Bool => contested (if late then "late" else "early")) hreach ht
  have hearly : contestEnd.programs false = .done (.ok .updated) := by rfl
  have hlate : contestEnd.programs true
      = .done (.error (conflict GatewaySpec.kind.resource (contested "late") modified)) := by rfl
  refine ⟨hreach, t, ht, ?_, ?_⟩
  · exact (hends false _ hearly).resolve_left (by simp)
  · exact (hends true _ hlate).resolve_left (by simp)

def lateWriter : Crowd Unit MemoryStore (Except Failure WriteResult) where
  state := {}
  programs _ := writeObject GatewaySpec.kind.resource (contested "late")

/-- A place that was taken and left again between reading and write is free to the write. -/
theorem created_after_disturbance :
    ∃ t y, Crowd.Runs Serves Touched lateWriter t y ∧ y.programs () = .done (.ok .created) ∧
      ∃ a : Attempt GatewaySpec.kind.resource (contested "late") () t, ∃ m ∈ a.between,
        m.before.find (.ofObject GatewaySpec.kind.resource (contested "late")) = none ∧
          m.after.find (.ofObject GatewaySpec.kind.resource (contested "late")) ≠ none := by
  have hread : Crowd.Runs Serves Touched lateWriter _ _ :=
    .turn .start (.call (i := ()) rfl (.store (.get GatewaySpec.kind.resource (some "c") "edge") {}))
  have hcreated := hread.turn
    (.others ⟨.create GatewaySpec.kind.resource (contested "early"), rfl⟩)
  have hdeleted := hcreated.turn
    (.others ⟨.delete GatewaySpec.kind.resource (some "c") "edge", rfl⟩)
  have hwrite := hdeleted.turn
    (.call (i := ()) rfl (.store (.create GatewaySpec.kind.resource (contested "late")) _))
  refine ⟨_, _, hwrite, rfl, ⟨[], _, [_, _], _, [], rfl, rfl, ⟨_, rfl, rfl⟩, ?_⟩, ?_⟩
  · simp [Moment.IsBy]
  · exact ⟨_, List.mem_cons_self, rfl, Option.some_ne_none _⟩

end Contention

end MeshRollout

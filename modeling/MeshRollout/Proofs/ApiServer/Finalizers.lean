import MeshRollout.ApiServer.Routes
import MeshRollout.Json.Printer

/-!
An edit of the finalizers of a route is a reading and a merge, and others may change the route
between the two. The merge replaces the list that it finds by the edited list of the reading, so it
undoes what became of the finalizers meanwhile.
-/
set_option autoImplicit false

namespace MeshRollout

structure Serving (σ : Type) where
  before : σ
  request : Request
  reply : Reply
  after : σ

namespace Exchange

variable {α σ : Type}

/-- What an exchange may come to. Between its requests others change the state as they like, so that
nothing ties what one request leaves to what the next one finds. -/
def Comes (serves : Serving σ → Prop) : Exchange α → List (Serving σ) → α → Prop
  | .done x, t, y => t = [] ∧ x = y
  | .send q next, t, y =>
    ∃ m t', t = m :: t' ∧ m.request = q ∧ serves m ∧ (next m.reply).Comes serves t' y

end Exchange

def Value.texts : Value → List String
  | .list items => items.filterMap Value.text?
  | _ => []

@[simp] theorem Value.texts_strings (xs : List String) : (Value.strings xs).texts = xs := by
  induction xs with
  | nil => rfl
  | cons x xs ih => exact congrArg (x :: ·) ih

def Request.change? (q : Request) (k : String) : Option Value := do
  (← (← q.payload).value.field "metadata").field k

namespace ApiServer

/-- How a server that holds a route treats requests for it. A merge replaces a list as a whole, and
it is refused for its version only if it names one; the reply to it may be lost. -/
inductive Serves (path : String) (m : Serving Route) : Prop where
  | shown (get : m.request.method = .get) (there : m.request.path = path)
      (same : m.after = m.before) (shows : m.reply.decode Route.read = .ok m.before)
  | merged (patch : m.request.method = .patch) (there : m.request.path = path)
      (fits : ∀ v, m.request.change? "resourceVersion" = some v →
        v.text? = m.before.metadata.resourceVersion)
      (merges : finalizersOf m.after =
        ((m.request.change? "finalizers").map Value.texts).getD (finalizersOf m.before))
  | refused (same : m.after = m.before) (e : ClusterError) (lives : e.isNotFound = false)
      (fails : m.reply.decode Route.read = .error e)

theorem told_ask_bind {α β γ : Type} (tell : Except ClusterError β → Except Failure γ)
    (q : Request) (read : Reading α) (f : α → Dialogue β) :
    told tell (Dialogue.ask q read >>= f) =
      .send q fun reply =>
        match reply.decode read with
        | .ok x => told tell (f x)
        | .error e => .done (tell (.error e)) := by
  refine congrArg (Exchange.send q) (funext fun reply => ?_)
  dsimp only
  generalize reply.decode read = a
  cases a with
  | ok x => rfl
  | error e => rfl

theorem told_found_ask_bind {α β γ : Type} (tell : Except ClusterError β → Except Failure γ)
    (q : Request) (read : Reading α) (f : Option α → Dialogue β) :
    told tell (Dialogue.found (Dialogue.ask q read) >>= f) =
      .send q fun reply =>
        match reply.decode read with
        | .ok x => told tell (f (some x))
        | .error e => if e.isNotFound then told tell (f none) else .done (tell (.error e)) := by
  refine congrArg (Exchange.send q) (funext fun reply => ?_)
  dsimp only
  generalize reply.decode read = a
  cases a with
  | ok x => rfl
  | error e =>
    cases h : e.isNotFound with
    | false => simp [Exchange.bind, ExceptT.bindCont, h]; rfl
    | true => simp [Exchange.bind, ExceptT.bindCont, h]; rfl

inductive Edit where
  | hold
  | release

namespace Edit

variable {manager space name ours : String} {t : List (Serving Route)}
  {result : Except Failure Unit}

def exchange (manager space name finalizer : String) : Edit → Exchange (Except Failure Unit)
  | .hold => onRoutes manager (.hold space name finalizer)
  | .release => onRoutes manager (.release space name finalizer)

def Holds (finalizer : String) (l : List String) : Edit → Prop
  | .hold => finalizer ∈ l
  | .release => finalizer ∉ l

def edited (finalizer : String) (l : List String) : Edit → List String
  | .hold => l ++ [finalizer]
  | .release => l.filter (· != finalizer)

instance (finalizer : String) (l : List String) (e : Edit) : Decidable (e.Holds finalizer l) :=
  match e with
  | .hold => inferInstanceAs (Decidable (finalizer ∈ l))
  | .release => inferInstanceAs (Decidable (finalizer ∉ l))

theorem holds_edited (finalizer : String) (l : List String) (e : Edit) :
    e.Holds finalizer (e.edited finalizer l) := by
  cases e with
  | hold => exact List.mem_append_right l (List.mem_singleton_self finalizer)
  | release => simp [Holds, edited]

theorem mem_edited_of_ne {finalizer f : String} (h : f ≠ finalizer) (l : List String) (e : Edit) :
    f ∈ e.edited finalizer l ↔ f ∈ l := by
  cases e with
  | hold => simp [edited, h]
  | release => simp [edited, h]

def reading (space name : String) : Request where
  method := .get
  path := routePath space name

def merging (manager space name : String) (finalizers : List String) : Request where
  method := .patch
  path := routePath space name
  query := [("fieldManager", manager)]
  payload := some ⟨"application/merge-patch+json",
    .record [("metadata", .record [("finalizers", .strings finalizers)])]⟩

def unread (e : ClusterError) : Edit → Except Failure Unit
  | .hold => .error (.cluster e)
  | .release => if e.isNotFound then .ok () else .error (.cluster e)

def afterReading (manager space name finalizer : String) (e : Edit) :
    Except ClusterError Route → Exchange (Except Failure Unit)
  | .error err => .done (e.unread err)
  | .ok r =>
    if e.Holds finalizer (finalizersOf r) then .done (.ok ())
    else told plain (writeFinalizers manager space name (e.edited finalizer (finalizersOf r)))

theorem getRoute_eq (hname : name.isEmpty = false) :
    getRoute space name = Dialogue.ask (reading space name) Route.read := by
  unfold getRoute Dialogue.checkName
  rw [hname]
  rfl

theorem exchange_eq (hname : name.isEmpty = false) (e : Edit) :
    e.exchange manager space name ours =
      .send (reading space name) fun reply =>
        e.afterReading manager space name ours (reply.decode Route.read) := by
  cases e with
  | hold =>
    change told plain (ApiServer.hold manager space name ours) = _
    unfold ApiServer.hold
    rw [getRoute_eq hname, told_ask_bind]
    refine congrArg (Exchange.send _) (funext fun reply => ?_)
    cases reply.decode Route.read with
    | error err => rfl
    | ok r =>
      by_cases held : ours ∈ finalizersOf r
      · simp [afterReading, Holds, held]; rfl
      · simp [afterReading, Holds, held]; rfl
  | release =>
    change told plain (ApiServer.release manager space name ours) = _
    unfold ApiServer.release
    rw [getRoute_eq hname, told_found_ask_bind]
    refine congrArg (Exchange.send _) (funext fun reply => ?_)
    cases reply.decode Route.read with
    | error err => cases h : err.isNotFound <;> simp [afterReading, unread, h, plain] <;> rfl
    | ok r =>
      by_cases held : ours ∈ finalizersOf r
      · simp [afterReading, Holds, held]; rfl
      · simp [afterReading, Holds, held]; rfl

theorem change_finalizers (manager space name : String) (l : List String) :
    (merging manager space name l).change? "finalizers" = some (.strings l) :=
  rfl

theorem change_version (manager space name : String) (l : List String) :
    (merging manager space name l).change? "resourceVersion" = none :=
  rfl

def merged : Except ClusterError Route → Except Failure Unit
  | .ok _ => .ok ()
  | .error e => .error (.cluster e)

theorem write_of_unfit (hname : name.isEmpty = false) (l : List String)
    (hmanager : Dialogue.maxManager < manager.utf8ByteSize) :
    told plain (writeFinalizers manager space name l) =
      .done (.error (.cluster (.badRequest "Failed to validate PatchParams::field_manager!"))) := by
  unfold writeFinalizers mergeInto Dialogue.checkName Dialogue.checkManager
  rw [hname, if_pos hmanager]
  rfl

theorem write_of_fit (hname : name.isEmpty = false) (l : List String)
    (hmanager : ¬ Dialogue.maxManager < manager.utf8ByteSize) :
    told plain (writeFinalizers manager space name l) =
      .send (merging manager space name l) fun reply =>
        .done (merged (reply.decode Route.read)) := by
  unfold writeFinalizers mergeInto Dialogue.checkName Dialogue.checkManager
  rw [hname, if_neg hmanager]
  refine congrArg (Exchange.send _) (funext fun reply => ?_)
  dsimp only
  generalize reply.decode Route.read = a
  cases a with
  | ok x => rfl
  | error e => rfl

theorem exchange_of_unnamed (hname : name.isEmpty = true) (e : Edit) :
    e.exchange manager space name ours =
      .done (.error (.cluster (.badRequest "A non-empty name is required"))) := by
  have hget : getRoute space name = throw (.badRequest "A non-empty name is required") := by
    unfold getRoute Dialogue.checkName
    rw [hname]
    rfl
  cases e with
  | hold =>
    change told plain (ApiServer.hold manager space name ours) = _
    unfold ApiServer.hold
    rw [hget]
    rfl
  | release =>
    change told plain (ApiServer.release manager space name ours) = _
    unfold ApiServer.release
    rw [hget]
    rfl

structure Merges (e : Edit) (ours : String) (read merge : Serving Route) : Prop where
  same : read.after = read.before
  needed : ¬ e.Holds ours (finalizersOf read.before)
  merges : finalizersOf merge.after = e.edited ours (finalizersOf read.before)

theorem of_write (hname : name.isEmpty = false) {l : List String}
    (h : (told plain (writeFinalizers manager space name l)).Comes (Serves (routePath space name))
      t result) :
    (∀ m ∈ t, m.after = m.before) ∧ result ≠ .ok () ∨
      ∃ merge, t = [merge] ∧ finalizersOf merge.after = l := by
  by_cases hmanager : Dialogue.maxManager < manager.utf8ByteSize
  · rw [write_of_unfit hname _ hmanager] at h
    obtain ⟨rfl, rfl⟩ := h
    exact .inl ⟨fun m hm => absurd hm List.not_mem_nil, nofun⟩
  · rw [write_of_fit hname _ hmanager] at h
    obtain ⟨merge, t, rfl, hmerge, hserves, rfl, rfl⟩ := h
    obtain ⟨get, -⟩ | ⟨-, -, -, merges⟩ | ⟨same, err, -, fails⟩ := hserves
    · rw [hmerge] at get
      nomatch get
    · refine .inr ⟨merge, rfl, ?_⟩
      rw [merges, hmerge, change_finalizers]
      exact Value.texts_strings l
    · rw [fails]
      exact .inl ⟨by simpa using same, nofun⟩

/-- An edit leaves the route alone, or it merges the edited list of its reading. -/
theorem merges_of_comes (e : Edit)
    (h : (e.exchange manager space name ours).Comes (Serves (routePath space name)) t result) :
    ((∀ m ∈ t, m.after = m.before) ∧
        (result = .ok () → ∃ read, t = [read] ∧ e.Holds ours (finalizersOf read.before))) ∨
      ∃ read merge, t = [read, merge] ∧ e.Merges ours read merge := by
  cases hname : name.isEmpty with
  | true =>
    rw [exchange_of_unnamed hname] at h
    obtain ⟨rfl, rfl⟩ := h
    exact .inl ⟨fun m hm => absurd hm List.not_mem_nil, nofun⟩
  | false =>
    rw [exchange_eq hname] at h
    obtain ⟨read, t, rfl, hread, hserves, h⟩ := h
    dsimp only at h
    obtain ⟨-, -, same, shows⟩ | ⟨patch, -⟩ | ⟨same, err, lives, fails⟩ := hserves
    · rw [shows] at h
      by_cases held : e.Holds ours (finalizersOf read.before)
      · rw [afterReading, if_pos held] at h
        obtain ⟨rfl, rfl⟩ := h
        exact .inl ⟨by simpa using same, fun _ => ⟨read, rfl, held⟩⟩
      · rw [afterReading, if_neg held] at h
        obtain ⟨hsame, hfailed⟩ | ⟨merge, rfl, hmerges⟩ := of_write hname h
        · refine .inl ⟨?_, fun hok => absurd hok hfailed⟩
          rw [List.forall_mem_cons]
          exact ⟨same, hsame⟩
        · exact .inr ⟨read, merge, rfl, same, held, hmerges⟩
    · rw [hread] at patch
      nomatch patch
    · rw [fails] at h
      obtain ⟨rfl, rfl⟩ := h
      refine .inl ⟨by simpa using same, fun hok => ?_⟩
      cases e with
      | hold => nomatch hok
      | release =>
        rw [unread, if_neg (by simp [lives])] at hok
        nomatch hok

def OthersAgree (ours : String) (l l' : List String) : Prop :=
  ∀ f, f ≠ ours → (f ∈ l ↔ f ∈ l')

theorem Merges.othersAgree_iff {e : Edit} {read merge : Serving Route}
    (h : e.Merges ours read merge) :
    OthersAgree ours (finalizersOf merge.before) (finalizersOf merge.after) ↔
      OthersAgree ours (finalizersOf read.before) (finalizersOf merge.before) := by
  refine forall₂_congr fun f hf => ?_
  rw [h.merges, mem_edited_of_ne hf]
  exact Iff.comm

/-- Since a merge names no version, the server takes it whatever the route has become after the
reading. -/
theorem comes_of_reading (hname : name.isEmpty = false)
    (hmanager : ¬ Dialogue.maxManager < manager.utf8ByteSize) (e : Edit) {seen : Route}
    {shown : Reply} (shows : shown.decode Route.read = .ok seen)
    (needed : ¬ e.Holds ours (finalizersOf seen)) (found left : Route) (reply : Reply)
    (hleft : finalizersOf left = e.edited ours (finalizersOf seen)) :
    (e.exchange manager space name ours).Comes (Serves (routePath space name))
      [⟨seen, reading space name, shown, seen⟩,
        ⟨found, merging manager space name (e.edited ours (finalizersOf seen)), reply, left⟩]
      (merged (reply.decode Route.read)) := by
  rw [exchange_eq hname]
  refine ⟨_, _, rfl, rfl, .shown rfl rfl rfl shows, ?_⟩
  dsimp only
  rw [shows, afterReading, if_neg needed, write_of_fit hname _ hmanager]
  refine ⟨_, _, rfl, rfl, .merged rfl rfl ?_ ?_, rfl, rfl⟩
  · intro v hv
    rw [change_version] at hv
    nomatch hv
  · rw [change_finalizers, hleft]
    exact (Value.texts_strings _).symm

def showing : Reply :=
  .answer 200 ("\x7b\"metadata\": \x7b\"name\": \"shop\", \"finalizers\": [\"other/backup\"]\x7d, "
    ++ "\"spec\": \x7b\"services\": []\x7d\x7d")

theorem exists_shown :
    ∃ seen, showing.decode Route.read = .ok seen ∧ finalizersOf seen = ["other/backup"] := by
  have h : (showing.decode Route.read).toOption.map finalizersOf = some ["other/backup"] := by
    decide +kernel
  cases hshown : showing.decode Route.read with
  | error e =>
    rw [hshown] at h
    nomatch h
  | ok seen =>
    rw [hshown] at h
    exact ⟨seen, rfl, Option.some.inj h⟩

def withFinalizers (r : Route) (l : List String) : Route :=
  { r with metadata := { r.metadata with finalizers := some l } }

/-- Whatever list takes the place of the one that was shown, adding ours goes through. -/
theorem hold_comes (meanwhile : List String) :
    ∃ read merge : Serving Route,
      (hold.exchange "meshagent" "a" "shop" "ours").Comes (Serves (routePath "a" "shop"))
        [read, merge] (.ok ()) ∧
      finalizersOf read.before = ["other/backup"] ∧ finalizersOf merge.before = meanwhile ∧
      finalizersOf merge.after = ["other/backup", "ours"] := by
  obtain ⟨seen, shows, hseen⟩ := exists_shown
  have needed : ¬ hold.Holds "ours" (finalizersOf seen) := by
    rw [hseen]
    decide
  have hleft : finalizersOf (withFinalizers seen ["other/backup", "ours"]) =
      hold.edited "ours" (finalizersOf seen) := by
    rw [hseen]
    rfl
  have hcomes : (hold.exchange "meshagent" "a" "shop" "ours").Comes
      (Serves (routePath "a" "shop")) _ _ :=
    comes_of_reading (by decide) (by decide) hold shows needed (withFinalizers seen meanwhile) _
      showing hleft
  rw [shows] at hcomes
  exact ⟨_, _, hcomes, hseen, rfl, rfl⟩

/-- A successful edit leaves the list as it wants it. An edit that writes keeps what became of other
finalizers if and only if nothing became of them between the reading and the merge. -/
theorem edit_keeps_others_iff (e : Edit)
    (h : (e.exchange manager space name ours).Comes (Serves (routePath space name)) t result) :
    ((∀ m ∈ t, m.after = m.before) ∧
        (result = .ok () → ∃ read, t = [read] ∧ e.Holds ours (finalizersOf read.before))) ∨
      ∃ read merge, t = [read, merge] ∧ read.after = read.before ∧
        ¬ e.Holds ours (finalizersOf read.before) ∧ e.Holds ours (finalizersOf merge.after) ∧
        (∀ f, f ≠ ours → (f ∈ finalizersOf merge.after ↔ f ∈ finalizersOf read.before)) ∧
        (OthersAgree ours (finalizersOf merge.before) (finalizersOf merge.after) ↔
          OthersAgree ours (finalizersOf read.before) (finalizersOf merge.before)) := by
  obtain idle | ⟨read, merge, ht, hm⟩ := merges_of_comes e h
  · exact .inl idle
  · refine .inr ⟨read, merge, ht, hm.same, hm.needed, ?_, fun f hf => ?_, hm.othersAgree_iff⟩
    · rw [hm.merges]
      exact holds_edited ours _ e
    · rw [hm.merges]
      exact mem_edited_of_ne hf _ e

/-- A finalizer that its owner removed after the reading is there again after the merge. -/
theorem hold_brings_back_removed :
    ∃ read merge : Serving Route,
      (hold.exchange "meshagent" "a" "shop" "ours").Comes (Serves (routePath "a" "shop"))
        [read, merge] (.ok ()) ∧
      finalizersOf merge.before = [] ∧ "other/backup" ∈ finalizersOf merge.after := by
  obtain ⟨read, merge, hcomes, hread, hbefore, hafter⟩ := hold_comes []
  refine ⟨read, merge, hcomes, hbefore, ?_⟩
  obtain ⟨hsame, -⟩ | ⟨read', merge', ht, -, -, -, hothers, -⟩ := edit_keeps_others_iff hold hcomes
  · have hkept := hsame merge (by simp)
    rw [hkept, hbefore] at hafter
    nomatch hafter
  · obtain ⟨rfl, rfl⟩ : read = read' ∧ merge = merge' := by simpa using ht
    rw [hothers "other/backup" (by decide), hread]
    exact List.mem_singleton_self _

/-- A finalizer that somebody added after the reading is gone after the merge. -/
theorem hold_loses_added_finalizer :
    ¬ ∀ (e : Edit) (manager space name ours : String) (read merge : Serving Route)
        (result : Except Failure Unit),
      (e.exchange manager space name ours).Comes (Serves (routePath space name)) [read, merge]
        result →
      OthersAgree ours (finalizersOf merge.before) (finalizersOf merge.after) := by
  intro h
  obtain ⟨read, merge, hcomes, -, hbefore, hafter⟩ := hold_comes ["other/backup", "other/audit"]
  have hagree := h hold _ _ _ _ read merge _ hcomes "other/audit" (by decide)
  rw [hbefore, hafter] at hagree
  revert hagree
  decide

end Edit

end ApiServer

end MeshRollout

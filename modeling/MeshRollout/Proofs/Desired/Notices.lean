import Mathlib.Data.List.Nodup
import MeshRollout.Proofs.Cluster.Interactions
import MeshRollout.Proofs.Desired.Isolation
import MeshRollout.Proofs.Desired.Tidying

/-!
What the messages of a pass are worth. Beside the messages stand the deeds: what each call on the
store did to an object, told by the store before and after. The messages follow the deeds one by
one, with one exception: a deletion is told before it is tried, and also if it is refused then.
-/
set_option autoImplicit false

namespace MeshRollout

open Pass (on interactionsOn)
open Rehearsal (answer)

namespace Notice

/-- What a message is about; its icon tells. -/
inductive Topic where
  | deletion
  | application
  | failure
  deriving DecidableEq, Repr

def Topic.icon : Topic → String
  | .deletion => ":wastebasket:"
  | .application => ":white_check_mark:"
  | .failure => ":exclamation:"

def isOf (t : Topic) (message : String) : Bool :=
  t.icon.toList.isPrefixOf message.toList

theorem topic_unique {t t' : Topic} {message : String} (h : isOf t message = true)
    (h' : isOf t' message = true) : t = t' := by
  have hprefix := List.prefix_or_prefix_of_prefix (List.isPrefixOf_iff_prefix.1 h)
    (List.isPrefixOf_iff_prefix.1 h')
  revert hprefix
  cases t <;> cases t' <;> decide

end Notice

inductive Deed where
  | removed (r : Resource) (o : Object)
  /-- The deletion failed. -/
  | spared (r : Resource) (o : Object)
  | placed (r : Resource) (o : Object)
  /-- Applying failed, for another reason than that the cluster is not ready. -/
  | failed (r : Resource) (o : Object) (f : Failure)

namespace Deed

def topic : Deed → Notice.Topic
  | removed .. | spared .. => .deletion
  | placed .. => .application
  | failed .. => .failure

def isRemoval : Deed → Bool
  | removed .. => true
  | _ => false

def isSparing : Deed → Bool
  | spared .. => true
  | _ => false

def notice : Deed → String
  | removed r o | spared r o => Notice.deleted r.kind o.space o.name
  | placed r o => Notice.applied r.kind o
  | failed r o f => Notice.notApplied r.kind o f

def logLine? : Deed → Option String
  | removed r o => some (MemoryStore.logLine "delete" r o.space o.name)
  | placed r o => some (MemoryStore.logLine "apply" r o.space o.name)
  | spared .. | failed .. => none

theorem isOf_notice (d : Deed) : Notice.isOf d.topic d.notice = true := by
  rw [Notice.isOf, List.isPrefixOf_iff_prefix]
  cases d with
  | removed r o | spared r o =>
    have hicon : Notice.Topic.deletion.icon.toList <+: ":wastebasket: ".toList := by decide
    exact Notice.prefix_heading hicon r.kind _ _
  | placed r o =>
    have hroute : Notice.Topic.application.icon.toList <+: ":white_check_mark: *".toList := by
      decide
    have hother : Notice.Topic.application.icon.toList <+: ":white_check_mark: ".toList := by
      decide
    rw [notice, Notice.applied]
    split
    · rw [Notice.aboutRoute, String.toList_append, String.toList_append, List.append_assoc]
      exact (Notice.prefix_heading hroute Route.kind _ _).trans (List.prefix_append _ _)
    · exact Notice.prefix_heading hother r.kind _ _
  | failed r o f =>
    have hicon : Notice.Topic.failure.icon.toList <+: ":exclamation: ".toList := by decide
    exact Notice.prefix_heading hicon r.kind _ _

theorem isOf_notice_eq (d : Deed) (t : Notice.Topic) :
    Notice.isOf t d.notice = decide (d.topic = t) := by
  by_cases h : d.topic = t
  · rw [← h, isOf_notice]
    simp
  · have hnot : Notice.isOf t d.notice ≠ true := fun ht =>
      h (Notice.topic_unique d.isOf_notice ht)
    simpa [h] using hnot

end Deed

def Interaction.deed? (e : Interaction Rehearsal) : Option Deed :=
  match e with
  | ⟨w, .store (.delete r space name), _, w'⟩ =>
    let k := StoreKey.of r (space.getD "") name
    match w.store.find k, w'.store.find k with
    | some o, none => some (.removed r o)
    | some o, some _ => some (.spared r o)
    | none, _ => none
  | ⟨w, .store (.apply r o _), a, w'⟩ =>
    if w.store.version < w'.store.version then some (.placed r o)
    else
      match a with
      | .ok _ => none
      | .error f => if f.tellsUnconfigured then none else some (.failed r o f)
  | _ => none

namespace Rehearsal.Intact

variable {α : Type} {w w' : Rehearsal}

theorem answered (hw : w.Intact) (c : Call) : (answer c w).2.Intact :=
  Answers.served.intact hw

theorem on {p : Pass α} {x : Except Failure α} (hw : w.Intact) (h : on answer p w = (x, w')) :
    w'.Intact := by
  have hend := Pass.on_keeps (P := Rehearsal.Intact) answer (fun c _ hs => hs.answered c) p hw
  rw [h] at hend
  exact hend

theorem read (hw : w.Intact) (c : StoreCall) (hc : ∀ s : MemoryStore, (s.answer c).2 = s) :
    (answer (.store c) w).2.store = w.store := by
  obtain ⟨-, -, ⟨-, hs⟩ | ⟨-, hs⟩⟩ := Rehearsal.answerStore_cases c hw.races
  · exact hs
  · exact hs.trans (hc w.store)

end Rehearsal.Intact

namespace Pass

variable {α β : Type}

def messagesOn (p : Pass α) (w : Rehearsal) : List String :=
  (interactionsOn answer p w).filterMap Interaction.message?

def deedsOn (p : Pass α) (w : Rehearsal) : List Deed :=
  (interactionsOn answer p w).filterMap Interaction.deed?

/-- Nothing is spared but the last object, and then the pass fails. -/
def SparesLast (x : Except Failure α) (ds : List Deed) : Prop :=
  ∃ done, (∀ d ∈ done, d.isSparing = false) ∧
    (ds = done ∨ ∃ r o f, ds = done ++ [.spared r o] ∧ x = .error f)

structure Accounted (p : Pass α) (w : Rehearsal) : Prop where
  messages : messagesOn p w = (deedsOn p w).map Deed.notice
  writes : (on answer p w).2.store.writes
    = w.store.writes ++ (deedsOn p w).filterMap Deed.logLine?
  last : SparesLast (on answer p w).1 (deedsOn p w)

/-- What the messages of a pass are worth: those of each topic are, in order and one for one, about
what was done, except that the object whose deletion was refused at the end of the pass is told as
deleted too. -/
structure Truthful (p : Pass α) (w : Rehearsal) : Prop where
  /-- What a call did is told by the log of the store, too. -/
  logged : (on answer p w).2.store.writes
    = w.store.writes ++ (deedsOn p w).filterMap Deed.logLine?
  /-- Each message has one topic. -/
  topics : ∀ message ∈ messagesOn p w, ∃ t, ∀ t', Notice.isOf t' message = decide (t = t')
  deletions : (messagesOn p w).filter (Notice.isOf .deletion)
    = ((deedsOn p w).filter Deed.isRemoval ++ (deedsOn p w).filter Deed.isSparing).map Deed.notice
  applications : (messagesOn p w).filter (Notice.isOf .application)
    = ((deedsOn p w).filter (·.topic = .application)).map Deed.notice
  failures : (messagesOn p w).filter (Notice.isOf .failure)
    = ((deedsOn p w).filter (·.topic = .failure)).map Deed.notice
  /-- A pass in which a deletion is refused ends there. -/
  refused : (deedsOn p w).filter Deed.isSparing = [] ∨
    ∃ r o f, (deedsOn p w).getLast? = some (.spared r o) ∧
      (deedsOn p w).filter Deed.isSparing = [.spared r o] ∧ (on answer p w).1 = .error f
  /-- So the messages about deletions tell what was deleted exactly if none was refused. -/
  told_iff : (messagesOn p w).filter (Notice.isOf .deletion)
      = ((deedsOn p w).filter Deed.isRemoval).map Deed.notice ↔
    (deedsOn p w).filter Deed.isSparing = []

section Parts

variable {w w' : Rehearsal}

theorem messagesOn_bind_of_ok {p : Pass α} {f : α → Pass β} {x : α}
    (h : on answer p w = (.ok x, w')) :
    messagesOn (p >>= f) w = messagesOn p w ++ messagesOn (f x) w' := by
  simp only [messagesOn, interactionsOn_bind, h, List.filterMap_append]

theorem deedsOn_bind_of_ok {p : Pass α} {f : α → Pass β} {x : α}
    (h : on answer p w = (.ok x, w')) :
    deedsOn (p >>= f) w = deedsOn p w ++ deedsOn (f x) w' := by
  simp only [deedsOn, interactionsOn_bind, h, List.filterMap_append]

theorem SparesLast.of_ok {x : α} {ds : List Deed} (h : SparesLast (.ok x) ds) :
    ∀ d ∈ ds, d.isSparing = false := by
  obtain ⟨done, hdone, rfl | ⟨_, _, _, -, he⟩⟩ := h
  · exact hdone
  · nomatch he

theorem SparesLast.append {x : Except Failure α} {ds ds' : List Deed}
    (hds : ∀ d ∈ ds, d.isSparing = false) (h : SparesLast x ds') : SparesLast x (ds ++ ds') := by
  obtain ⟨done, hdone, hlast⟩ := h
  refine ⟨ds ++ done, fun d hd => (List.mem_append.1 hd).elim (hds d) (hdone d), ?_⟩
  rcases hlast with rfl | ⟨r, o, f, rfl, hx⟩
  · exact .inl rfl
  · exact .inr ⟨r, o, f, (List.append_assoc _ _ _).symm, hx⟩

/-- Among the deeds about deletions, the one that spares an object is the last. -/
theorem SparesLast.deletions {x : Except Failure α} {ds : List Deed} (h : SparesLast x ds) :
    ds.filter (·.topic = .deletion) = ds.filter Deed.isRemoval ++ ds.filter Deed.isSparing := by
  obtain ⟨done, hdone, hds⟩ := h
  have hkept : done.filter (·.topic = .deletion) = done.filter Deed.isRemoval := by
    refine List.filter_congr fun d hd => ?_
    have hd := hdone d hd
    cases d with
    | spared r o => nomatch hd
    | removed r o | placed r o | failed r o f => rfl
  have hnone : done.filter Deed.isSparing = [] :=
    List.filter_eq_nil_iff.2 fun d hd => by simp [hdone d hd]
  rcases hds with rfl | ⟨r, o, f, rfl, -⟩
  · rw [hkept, hnone, List.append_nil]
  · have hlast : [Deed.spared r o].filter Deed.isRemoval = [] := rfl
    rw [List.filter_append, List.filter_append, List.filter_append, hkept, hnone, hlast,
      List.append_nil]
    rfl

theorem SparesLast.refused {x : Except Failure α} {ds : List Deed} (h : SparesLast x ds) :
    ds.filter Deed.isSparing = [] ∨
      ∃ r o f, ds.getLast? = some (.spared r o) ∧ ds.filter Deed.isSparing = [.spared r o] ∧
        x = .error f := by
  obtain ⟨done, hdone, hds⟩ := h
  have hnone : done.filter Deed.isSparing = [] :=
    List.filter_eq_nil_iff.2 fun d hd => by simp [hdone d hd]
  rcases hds with rfl | ⟨r, o, f, rfl, hx⟩
  · exact .inl hnone
  · exact .inr ⟨r, o, f, by simp, by simp [hnone, Deed.isSparing], hx⟩

namespace Accounted

/-- The messages about a topic belong to the deeds of that topic. -/
theorem filter_messages {p : Pass α} (h : Accounted p w) (t : Notice.Topic) :
    (messagesOn p w).filter (Notice.isOf t)
      = ((deedsOn p w).filter (·.topic = t)).map Deed.notice := by
  rw [h.messages, List.filter_map]
  exact congrArg _ (List.filter_congr fun d _ => d.isOf_notice_eq t)

theorem truthful {p : Pass α} (h : Accounted p w) : Truthful p w := by
  have hdeletions := (h.filter_messages .deletion).trans (congrArg _ h.last.deletions)
  exact {
    logged := h.writes
    topics := fun message hm => by
      rw [h.messages] at hm
      obtain ⟨d, -, rfl⟩ := List.mem_map.1 hm
      exact ⟨d.topic, d.isOf_notice_eq⟩
    deletions := hdeletions
    applications := h.filter_messages .application
    failures := h.filter_messages .failure
    refused := h.last.refused
    told_iff := by
      rw [hdeletions, List.map_append]
      simp }

theorem bind {p : Pass α} {f : α → Pass β} (hp : Accounted p w) (hw : w.Intact)
    (hf : ∀ x w', on answer p w = (.ok x, w') → w'.Intact → Accounted (f x) w') :
    Accounted (p >>= f) w := by
  obtain ⟨hmessages, hwrites, hlast⟩ := hp
  rcases hon : on answer p w with ⟨e | x, w'⟩
  · have hrun : on answer (p >>= f) w = (.error e, w') := by rw [on_bind, hon]
    have hinteractions : interactionsOn answer (p >>= f) w = interactionsOn answer p w := by
      rw [interactionsOn_bind, hon, List.append_nil]
    rw [hon] at hwrites hlast
    obtain ⟨done, hdone, hlast⟩ := hlast
    refine ⟨?_, ?_, done, hdone, ?_⟩
    · rw [messagesOn, deedsOn, hinteractions]
      exact hmessages
    · rw [hrun, deedsOn, hinteractions]
      exact hwrites
    · rw [hrun, deedsOn, hinteractions]
      exact hlast.imp id fun ⟨r, o, g, hds, hx⟩ => ⟨r, o, g, hds, by cases hx; rfl⟩
  · have hrun : on answer (p >>= f) w = on answer (f x) w' := by rw [on_bind, hon]
    have hnext := hf x w' hon (hw.on hon)
    rw [hon] at hlast hwrites
    refine ⟨?_, ?_, ?_⟩
    · rw [messagesOn_bind_of_ok hon, deedsOn_bind_of_ok hon, List.map_append, hmessages,
        hnext.messages]
    · rw [hrun, deedsOn_bind_of_ok hon, List.filterMap_append, ← List.append_assoc, ← hwrites]
      exact hnext.writes
    · rw [hrun, deedsOn_bind_of_ok hon]
      exact .append hlast.of_ok hnext.last

theorem of_deeds {p : Pass α} {ds : List Deed} (hdeeds : deedsOn p w = ds)
    (hmessages : messagesOn p w = ds.map Deed.notice)
    (hwrites : (on answer p w).2.store.writes = w.store.writes ++ ds.filterMap Deed.logLine?)
    (hds : ∀ d ∈ ds, d.isSparing = false) : Accounted p w := by
  subst hdeeds
  exact ⟨hmessages, hwrites, _, hds, .inl rfl⟩

theorem of_call {p : Pass α} {e : Interaction Rehearsal} {es : List (Interaction Rehearsal)}
    (ds : List Deed) (hp : interactionsOn answer p w = e :: es) (he : e.deed?.toList = ds)
    (hquiet : e.message? = none) (hes : es.filterMap Interaction.deed? = [])
    (hmessages : es.filterMap Interaction.message? = ds.map Deed.notice)
    (hwrites : (on answer p w).2.store.writes = w.store.writes ++ ds.filterMap Deed.logLine?)
    (hds : ∀ d ∈ ds, d.isSparing = false) : Accounted p w := by
  have hdeeds : deedsOn p w = ds := by
    rw [deedsOn, hp, ← he]
    cases hd : e.deed? with
    | none => rw [List.filterMap_cons_none hd, hes, Option.toList_none]
    | some d => rw [List.filterMap_cons_some hd, hes, Option.toList_some]
  refine of_deeds hdeeds ?_ hwrites hds
  rw [messagesOn, hp, List.filterMap_cons_none hquiet, hmessages]

theorem of_silent {p : Pass α} (hstore : (on answer p w).2.store = w.store)
    (hdeeds : deedsOn p w = []) (hmessages : messagesOn p w = []) : Accounted p w :=
  of_deeds hdeeds hmessages ((congrArg _ hstore).trans (List.append_nil _).symm) (by simp)

theorem pure (x : α) (w : Rehearsal) : Accounted (pure x) w :=
  of_silent rfl rfl rfl

theorem throw (f : Failure) (w : Rehearsal) : Accounted (throw f : Pass α) w :=
  of_silent rfl rfl rfl

theorem ofExcept (x : Except Failure α) (w : Rehearsal) : Accounted (ofExcept x) w :=
  of_silent rfl rfl rfl

end Accounted

variable (hw : w.Intact)
include hw

theorem accounted_get (r : Resource) (space : Option String) (name : String) :
    Accounted (Pass.get r space name) w :=
  .of_silent (hw.read (.get r space name) fun _ => rfl) rfl rfl

theorem accounted_list (r : Resource) (space selector : Option String) :
    Accounted (Pass.list r space selector) w :=
  .of_silent (hw.read (.list r space selector) fun _ => rfl) rfl rfl

end Parts

end Pass

namespace Convergence

open MemoryStore (logLine find_remove)
open StoreKey (ofObject)

variable {r : Resource} {w : Rehearsal}

theorem delete_live {s : MemoryStore} {live : Object} (h : s.find (ofObject r live) = some live) :
    (∃ f, s.delete r live.spaceArg live.name = (.error f, s)) ∨
      s.delete r live.spaceArg live.name
        = (.ok true, { s.remove (ofObject r live) with
            writes := s.writes ++ [logLine "delete" r live.space live.name] }) := by
  have hkey : StoreKey.of r (live.spaceArg.getD "") live.name = ofObject r live := by
    rw [live.spaceArg_getD]
    rfl
  simp only [MemoryStore.delete]
  split
  · exact .inl ⟨_, rfl⟩
  · rw [hkey, h]
    exact .inr (by rw [live.spaceArg_getD])

def announceDeletion (r : Resource) (live : Object) : Pass Bool := do
  Pass.notify (Notice.deleted r.kind live.space live.name)
  Pass.delete r live.spaceArg live.name

theorem prune_eq (live : Object) (p : Progress) :
    prune r live p = announceDeletion r live >>= fun gone =>
      if gone then pure (p.delete live.key) else pure p := by
  rw [announceDeletion, bind_assoc]
  rfl

theorem notify_store (message : String) (w : Rehearsal) :
    (answer (.notify message) w).2.store = w.store := by
  show (w.notify message).2.store = w.store
  cases hs : w.sink <;> rw [Rehearsal.notify, hs]

/-- Where a live object is to be deleted, the deletion fails and the object stays, or the object is
gone. -/
theorem answer_delete_live {live : Object} (hw : w.Intact)
    (h : w.store.find (ofObject r live) = some live) :
    (∃ f, (w.answerStore (.delete r live.spaceArg live.name)).1 = .error f ∧
        (w.answerStore (.delete r live.spaceArg live.name)).2.store = w.store) ∨
      ((w.answerStore (.delete r live.spaceArg live.name)).1 = .ok true ∧
        (w.answerStore (.delete r live.spaceArg live.name)).2.store
          = { w.store.remove (ofObject r live) with
              writes := w.store.writes ++ [logLine "delete" r live.space live.name] }) := by
  obtain ⟨-, -, ⟨⟨f, hf⟩, hs⟩ | ⟨ha, hs⟩⟩ :=
    Rehearsal.answerStore_cases (.delete r live.spaceArg live.name) hw.races
  · exact .inl ⟨f, hf, hs⟩
  · rcases delete_live h with ⟨f, hd⟩ | hd
    · exact .inl ⟨f, ha.trans (congrArg Prod.fst hd), hs.trans (congrArg Prod.snd hd)⟩
    · exact .inr ⟨ha.trans (congrArg Prod.fst hd), hs.trans (congrArg Prod.snd hd)⟩

theorem deed?_delete {live : Object} (h : w.store.find (ofObject r live) = some live) :
    Interaction.deed? (.of answer (.store (.delete r live.spaceArg live.name)) w)
      = some (if ((w.answerStore (.delete r live.spaceArg live.name)).2.store.find
            (ofObject r live)).isNone then .removed r live
          else .spared r live) := by
  have hkey : StoreKey.of r (live.spaceArg.getD "") live.name = ofObject r live := by
    rw [live.spaceArg_getD]
    rfl
  simp only [Interaction.of, Interaction.deed?, hkey, h]
  show _ = some (if ((answer (.store (.delete r live.spaceArg live.name)) w).2.store.find
    (ofObject r live)).isNone then _ else _)
  cases (answer (.store (.delete r live.spaceArg live.name)) w).2.store.find (ofObject r live) <;>
    rfl

theorem accounted_announceDeletion {live : Object} (hw : w.Intact)
    (h : w.store.find (ofObject r live) = some live) :
    (announceDeletion r live).Accounted w ∧
      ∀ k, k ≠ ofObject r live →
        (on answer (announceDeletion r live) w).2.store.find k = w.store.find k := by
  have hstore := notify_store (Notice.deleted r.kind live.space live.name) w
  have hw₁ := hw.answered (.notify (Notice.deleted r.kind live.space live.name))
  have hmessages : Pass.messagesOn (announceDeletion r live) w
      = [Notice.deleted r.kind live.space live.name] := rfl
  have hon : on answer (announceDeletion r live) w
      = (answer (.notify (Notice.deleted r.kind live.space live.name)) w).2.answerStore
          (.delete r live.spaceArg live.name) := rfl
  have hdeeds : Pass.deedsOn (announceDeletion r live) w
      = [Interaction.of answer (.store (.delete r live.spaceArg live.name))
          (answer (.notify (Notice.deleted r.kind live.space live.name)) w).2].filterMap
        Interaction.deed? := rfl
  generalize (answer (.notify (Notice.deleted r.kind live.space live.name)) w).2 = w₁
    at hstore hw₁ hon hdeeds
  have hlive : w₁.store.find (ofObject r live) = some live := hstore ▸ h
  rw [List.filterMap_cons_some (deed?_delete hlive), List.filterMap_nil] at hdeeds
  rcases answer_delete_live hw₁ hlive with ⟨f, hf, hs⟩ | ⟨hok, hs⟩
  · -- the object stays, and the pass ends here
    have hend : (on answer (announceDeletion r live) w).2.store = w.store := by
      rw [hon, hs, hstore]
    rw [hs, hlive] at hdeeds
    refine ⟨⟨?_, ?_, ?_⟩, fun k _ => by rw [hend]⟩
    · rw [hmessages, hdeeds]
      rfl
    · rw [hend, hdeeds]
      exact (List.append_nil _).symm
    · rw [hdeeds]
      exact ⟨[], fun _ hd => (nomatch hd), .inr ⟨r, live, f, rfl, (congrArg Prod.fst hon).trans hf⟩⟩
  · have hend : (on answer (announceDeletion r live) w).2.store
        = { w.store.remove (ofObject r live) with
            writes := w.store.writes ++ [logLine "delete" r live.space live.name] } := by
      rw [hon, hs, hstore]
    have hfind (k : StoreKey) : (on answer (announceDeletion r live) w).2.store.find k
        = if k = ofObject r live then none else w.store.find k := by
      rw [hend]
      exact find_remove w.store _ k
    have hgone := hfind (ofObject r live)
    rw [hon, if_pos rfl] at hgone
    rw [hgone] at hdeeds
    refine ⟨.of_deeds hdeeds hmessages (by rw [hend]; rfl) ?_,
      fun k hk => (hfind k).trans (if_neg hk)⟩
    exact fun d hd => by rw [List.mem_singleton.1 hd]; rfl

theorem accounted_prune {live : Object} (p : Progress) (hw : w.Intact)
    (h : w.store.find (ofObject r live) = some live) :
    (prune r live p).Accounted w ∧
      ∀ k, k ≠ ofObject r live →
        (on answer (prune r live p) w).2.store.find k = w.store.find k := by
  obtain ⟨haccounted, hothers⟩ := accounted_announceDeletion hw h
  rw [prune_eq]
  refine ⟨haccounted.bind hw fun gone w' hon hw' => ?_, fun k hk => ?_⟩
  · cases gone with
    | true => exact .pure _ w'
    | false => exact .pure _ w'
  · rw [← hothers k hk, Pass.on_bind]
    split
    · rename_i gone w' hon
      rw [hon]
      cases gone <;> rfl
    · rename_i f w' hon
      rw [hon]

theorem accounted_pruneAll {l : List Object} (p : Progress) (hw : w.Intact)
    (hlive : ∀ x ∈ l, w.store.find (ofObject r x) = some x) (hl : (l.map (ofObject r)).Nodup) :
    (pruneAll r p l).Accounted w := by
  induction l generalizing w p with
  | nil => exact .pure p w
  | cons x l ih =>
    obtain ⟨hx, hl⟩ := List.nodup_cons.1 hl
    obtain ⟨haccounted, hothers⟩ := accounted_prune p hw (hlive x List.mem_cons_self)
    refine haccounted.bind hw fun p' w' hon hw' => ?_
    rw [hon] at hothers
    refine ih p' hw' (fun y hy => ?_) hl
    have hne : ofObject r y ≠ ofObject r x := fun he => hx (he ▸ List.mem_map_of_mem hy)
    rw [hothers _ hne, hlive y (List.mem_cons_of_mem _ hy)]

theorem listed {space selector : Option String} {live : List Object} {w' : Rehearsal}
    (hw : w.Intact) (h : on answer (Pass.list r space selector) w = (.ok live, w')) :
    live = w.store.list r space selector ∧ w'.store = w.store := by
  have hon : w.answerStore (.list r space selector) = (.ok live, w') := h
  obtain ⟨-, -, hresult⟩ := Rehearsal.answerStore_cases (.list r space selector) hw.races
  rw [hon] at hresult
  rcases hresult with ⟨⟨f, hf⟩, -⟩ | ⟨hok, hs⟩
  · nomatch hf
  · exact ⟨Except.ok.inj hok, hs⟩

theorem accounted_pruneSpaces (ws : Dict (List String)) (p : Progress) (hw : w.Intact) :
    (pruneSpaces r p ws).Accounted w := by
  induction ws generalizing w p with
  | nil => exact .pure p w
  | cons q ws ih =>
    obtain ⟨space, names⟩ := q
    refine (Pass.accounted_list hw r _ none).bind hw fun live w₁ hlist hw₁ => ?_
    obtain ⟨rfl, hstore⟩ := listed hw hlist
    refine (accounted_pruneAll p hw₁ (fun x hx => ?_) ?_).bind hw₁ fun p' w₂ _ hw₂ => ih p' hw₂
    · rw [hstore]
      exact ((mem_unwanted hw.sound).1 hx).1
    · exact (hw.sound.nodup_list r _ none).sublist (List.filter_sublist.map _)

def afterApplying (r : Resource) (o : Object) (p : Progress) : Except Failure Object → Pass Progress
  | .ok _ => do
    Pass.notify (Notice.applied r.kind o)
    return p.apply o.key
  | .error f => do
    if f.tellsUnconfigured then
      return p.reject o.key (.notReady r.kind o.space o.name f.message)
    Pass.notify (Notice.notApplied r.kind o f)
    throw f

theorem applyUnlessSame_eq (manager : String) (r : Resource) (differs : Object → Object → Bool)
    (o : Object) (p : Progress) :
    applyUnlessSame manager r differs o p = Pass.get r o.spaceArg o.name >>= fun live =>
      if (live.map fun l => differs l o) == some false then pure p.skip
      else (Pass.apply r o manager).attempt >>= afterApplying r o p :=
  rfl

theorem answer_apply (manager : String) (o : Object) (hw : w.Intact) :
    (∃ f, (w.answerStore (.apply r o manager)).1 = .error f ∧
        (w.answerStore (.apply r o manager)).2.store = w.store) ∨
      (∃ o', (w.answerStore (.apply r o manager)).1 = .ok o' ∧
        (w.answerStore (.apply r o manager)).2.store.version = w.store.version + 1 ∧
        (w.answerStore (.apply r o manager)).2.store.writes
          = w.store.writes ++ [logLine "apply" r o.space o.name]) := by
  obtain ⟨-, -, ⟨⟨f, hf⟩, hs⟩ | ⟨ha, hs⟩⟩ :=
    Rehearsal.answerStore_cases (.apply r o manager) hw.races
  · exact .inl ⟨f, hf, hs⟩
  · rw [ha, hs]
    simp only [MemoryStore.answer, MemoryStore.apply]
    split
    · exact .inl ⟨_, rfl, rfl⟩
    · exact .inr ⟨_, rfl, rfl, rfl⟩

theorem accounted_apply (manager : String) (o : Object) (p : Progress) (hw : w.Intact) :
    ((Pass.apply r o manager).attempt >>= afterApplying r o p).Accounted w := by
  have hcases := answer_apply (r := r) manager o hw
  have hon : on answer ((Pass.apply r o manager).attempt >>= afterApplying r o p) w
      = on answer (afterApplying r o p (w.answerStore (.apply r o manager)).1)
          (w.answerStore (.apply r o manager)).2 := by
    rw [Pass.on_bind, Pass.on_attempt]
    rfl
  have hinteractions : interactionsOn answer
      ((Pass.apply r o manager).attempt >>= afterApplying r o p) w
        = ⟨w, .store (.apply r o manager), (w.answerStore (.apply r o manager)).1,
            (w.answerStore (.apply r o manager)).2⟩
          :: interactionsOn answer (afterApplying r o p (w.answerStore (.apply r o manager)).1)
            (w.answerStore (.apply r o manager)).2 := by
    rw [Pass.interactionsOn_bind, Pass.on_attempt, Pass.interactionsOn_attempt]
    rfl
  generalize w.answerStore (.apply r o manager) = y at hcases hon hinteractions
  obtain ⟨a, w'⟩ := y
  rcases hcases with ⟨f, rfl, hs⟩ | ⟨o', rfl, hversion, hwrites⟩
  · have hstore : w'.store = w.store := hs
    have hsame : ¬ w.store.version < w'.store.version := by
      rw [hstore]
      exact Nat.lt_irrefl _
    cases hf : f.tellsUnconfigured with
    | true =>
      rw [afterApplying, if_pos hf] at hon hinteractions
      refine .of_call [] hinteractions ?_ rfl rfl rfl ?_ (by simp)
      · simp [Interaction.deed?, hsame, hf]
      · rw [hon]
        exact (congrArg _ hstore).trans (List.append_nil _).symm
    | false =>
      have hnot : ¬ f.tellsUnconfigured = true := by simp [hf]
      rw [afterApplying, if_neg hnot] at hon hinteractions
      refine .of_call [.failed r o f] hinteractions ?_ rfl rfl rfl ?_ (by simp [Deed.isSparing])
      · simp [Interaction.deed?, hsame, hf]
      · rw [hon]
        exact (congrArg _ ((notify_store _ w').trans hstore)).trans (List.append_nil _).symm
  · have hgrown : w.store.version < w'.store.version := hversion ▸ Nat.lt_succ_self _
    refine .of_call [.placed r o] hinteractions ?_ rfl rfl rfl ?_ (by simp [Deed.isSparing])
    · simp [Interaction.deed?, hgrown]
    · rw [hon]
      exact (congrArg _ (notify_store _ w')).trans hwrites

theorem accounted_applyUnlessSame (manager : String) (differs : Object → Object → Bool)
    (o : Object) (p : Progress) (hw : w.Intact) :
    (applyUnlessSame manager r differs o p).Accounted w := by
  rw [applyUnlessSame_eq]
  refine (Pass.accounted_get hw r _ _).bind hw fun live w' _ hw' => ?_
  split
  · exact .pure _ w'
  · exact accounted_apply manager o p hw'

theorem accounted_applyAll (manager : String) (os : List Object) (p : Progress)
    (hw : w.Intact) : (applyAll manager r p os).Accounted w := by
  induction os generalizing w p with
  | nil => exact .pure p w
  | cons o os ih =>
    exact (accounted_applyUnlessSame manager _ o p hw).bind hw fun p' w' _ hw' => ih p' hw'

theorem accounted_applyEach (manager : String) (ds : List WantedObject) (p : Progress)
    (hw : w.Intact) : (applyEach manager p ds).Accounted w := by
  induction ds generalizing w p with
  | nil => exact .pure p w
  | cons d ds ih =>
    exact (accounted_applyUnlessSame manager _ d.object p hw).bind hw fun p' w' _ hw' => ih p' hw'

theorem accounted_converge (manager : String) (r : Resource) (desired : List Object)
    (hw : w.Intact) : (converge manager r desired).Accounted w := by
  cases hkinds : stray? r desired with
  | some o =>
    rw [converge_of_stray manager hkinds]
    exact .throw _ w
  | none =>
    by_cases hne : desired = []
    · subst hne
      rw [converge_nil]
      refine (Pass.accounted_list hw r none none).bind hw fun live w₁ hlist hw₁ => ?_
      obtain ⟨rfl, hstore⟩ := listed hw hlist
      refine (accounted_pruneAll {} hw₁ (fun x hx => ?_)
        (hw.sound.nodup_list r none none)).bind hw₁ fun p w₂ _ _ => .pure _ w₂
      rw [hstore]
      exact (hw.sound.mem_list.1 hx).1
    · rw [converge_of_ne manager hkinds hne]
      refine (accounted_pruneSpaces (wanted desired) {} hw).bind hw fun p w₁ _ hw₁ => ?_
      exact (accounted_applyAll manager desired p hw₁).bind hw₁ fun p w₂ _ _ =>
        .ofExcept _ w₂

theorem accounted_applyOthers (manager : String) (ds : List WantedObject) (hw : w.Intact) :
    (applyOthers manager ds).Accounted w :=
  (accounted_applyEach manager ds {} hw).bind hw fun _ w' _ _ => .ofExcept _ w'

/-- The messages of both sorts of passes are worth the same, whatever calls fail, and whether or not
messages arrive. -/
theorem notices_tell_deeds (manager : String) (r : Resource) (desired : List Object)
    (ds : List WantedObject) {w : Rehearsal} (hs : w.store.Reachable) (hr : w.races = []) :
    (converge manager r desired).Truthful w ∧ (applyOthers manager ds).Truthful w :=
  ⟨(accounted_converge manager r desired ⟨hs.sound, hr⟩).truthful,
    (accounted_applyOthers manager ds ⟨hs.sound, hr⟩).truthful⟩

def namedRoute (name : String) : Object where
  types := some (Route.apiVersion, Route.kind)
  metadata := { name := some name, space := some "shop" }
  data := []

/-- A cluster with a route that nobody wants any longer, which may refuse to delete it. -/
def withOldRoute (refusedDeletions : Dict String) : Rehearsal where
  store :=
    { ({} : MemoryStore).insert Route.resource (namedRoute "old") with
      refusedApplies :=
        [("late", "gateway " ++ Failure.unconfiguredMark), ("lost", "etcd unavailable")],
      refusedDeletions }
  clock := ⟨0, 0⟩

def shopRoutes : List Object :=
  ["new", "late", "lost", "last"].map namedRoute

/-- One route is deleted, one is applied, for one the cluster is not ready, and one fails. -/
theorem shopRoutes_tell_deeds :
    (Pass.deedsOn (converge "sync" Route.resource shopRoutes) (withOldRoute [])).map Deed.topic
      = [.deletion, .application, .failure] ∧
    (converge "sync" Route.resource shopRoutes).Truthful (withOldRoute []) ∧
      (applyOthers "sync" []).Truthful (withOldRoute []) := by
  have hreach : (withOldRoute []).store.Reachable := .refuse (.insert .empty _ _) _ _
  exact ⟨by decide +kernel, notices_tell_deeds "sync" Route.resource shopRoutes [] hreach rfl⟩

/-- The old route is told to be deleted, but it is still there. -/
theorem refused_deletion_told :
    (Pass.messagesOn (converge "sync" Route.resource shopRoutes)
        (withOldRoute [("old", "etcd unavailable")])).filter (Notice.isOf .deletion)
      = [Notice.deleted Route.kind "shop" "old"] ∧
    ((Pass.deedsOn (converge "sync" Route.resource shopRoutes)
        (withOldRoute [("old", "etcd unavailable")])).filter Deed.isRemoval).map Deed.notice = [] ∧
    ((on answer (converge "sync" Route.resource shopRoutes)
        (withOldRoute [("old", "etcd unavailable")])).2.store.find
      (ofObject Route.resource (namedRoute "old"))).isSome = true := by
  decide +kernel

end Convergence

end MeshRollout

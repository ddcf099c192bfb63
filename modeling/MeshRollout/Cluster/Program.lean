import MeshRollout.Route.Basic

/-!
Programs that talk to the cluster. A program is a tree: it is done, or it makes a call and goes on
with the answer. So what a program does can be told without saying who answers, and calls of several
programs can take turns.
-/
set_option autoImplicit false

namespace MeshRollout

/-- Calls on the objects of the cluster. Without a namespace all namespaces are meant. -/
inductive StoreCall where
  | get (r : Resource) (space : Option String) (name : String)
  | list (r : Resource) (space : Option String) (selector : Option String)
  | create (r : Resource) (o : Object)
  | update (r : Resource) (o : Object)
  | apply (r : Resource) (o : Object) (manager : String)
  | delete (r : Resource) (space : Option String) (name : String)
  deriving Repr

def StoreCall.Answer : StoreCall → Type
  | .get .. => Except Failure (Option Object)
  | .list .. => Except Failure (List Object)
  | .create .. | .update .. | .apply .. => Except Failure Object
  | .delete .. => Except Failure Bool

inductive RouteCall where
  | get (space name : String)
  | hold (space name finalizer : String)
  | release (space name finalizer : String)
  | patchStatus (space name : String) (s : RouteStatus)
  deriving Repr

def RouteCall.Answer : RouteCall → Type
  | .get .. => Except Failure (Option Route)
  | _ => Except Failure Unit

inductive Call where
  | store (c : StoreCall)
  | route (c : RouteCall)
  | notify (message : String)
  /-- Whether the program has been asked to stop. -/
  | cancelled
  | now
  /-- The text of the desired state. -/
  | fetch
  deriving Repr

def Call.Answer : Call → Type
  | .store c => c.Answer
  | .route c => c.Answer
  | .notify _ => Except Failure Unit
  | .cancelled => Bool
  | .now => Instant
  | .fetch => Except Failure String

inductive Program (α : Type) where
  | done (x : α)
  | call (c : Call) (next : c.Answer → Program α)

namespace Program
variable {α β σ : Type}

protected def bind (p : Program α) (f : α → Program β) : Program β :=
  match p with
  | .done x => f x
  | .call c next => .call c fun a => (next a).bind f

instance : Monad Program where
  pure := .done
  bind := Program.bind

@[simp] theorem done_bind (x : α) (f : α → Program β) : (Program.done x).bind f = f x := rfl

@[simp] theorem call_bind (c : Call) (next : c.Answer → Program α) (f : α → Program β) :
    (Program.call c next).bind f = .call c fun a => (next a).bind f := rfl

theorem bind_assoc {γ : Type} (p : Program α) (f : α → Program β) (g : β → Program γ) :
    (p.bind f).bind g = p.bind fun x => (f x).bind g := by
  induction p with
  | done x => rfl
  | call c next ih => exact congrArg (Program.call c) (funext ih)

theorem bind_done (p : Program α) : p.bind .done = p := by
  induction p with
  | done x => rfl
  | call c next ih => exact congrArg (Program.call c) (funext ih)

instance : LawfulMonad Program :=
  .mk' Program bind_done (fun _ _ => rfl) bind_assoc

def ask (c : Call) : Program c.Answer :=
  .call c .done

def run (answer : (c : Call) → σ → c.Answer × σ) : Program α → σ → α × σ
  | .done x, s => (x, s)
  | .call c next, s =>
    let (a, s) := answer c s
    (next a).run answer s

end Program

abbrev Pass (α : Type) := ExceptT Failure Program α

namespace Pass
variable {α : Type}

def ofCall (p : Program (Except Failure α)) : Pass α := p

def ofExcept (r : Except Failure α) : Pass α :=
  ofCall (.done r)

def attempt (p : Pass α) : Pass (Except Failure α) :=
  let q : Program (Except Failure α) := p
  ofCall (q.bind fun r => .done (.ok r))

def get (r : Resource) (space : Option String) (name : String) : Pass (Option Object) :=
  ofCall (.ask (.store (.get r space name)))

def list (r : Resource) (space selector : Option String) : Pass (List Object) :=
  ofCall (.ask (.store (.list r space selector)))

def create (r : Resource) (o : Object) : Pass Object :=
  ofCall (.ask (.store (.create r o)))

def update (r : Resource) (o : Object) : Pass Object :=
  ofCall (.ask (.store (.update r o)))

def apply (r : Resource) (o : Object) (manager : String) : Pass Object :=
  ofCall (.ask (.store (.apply r o manager)))

def delete (r : Resource) (space : Option String) (name : String) : Pass Bool :=
  ofCall (.ask (.store (.delete r space name)))

def getRoute (space name : String) : Pass (Option Route) :=
  ofCall (.ask (.route (.get space name)))

def hold (space name finalizer : String) : Pass Unit :=
  ofCall (.ask (.route (.hold space name finalizer)))

def release (space name finalizer : String) : Pass Unit :=
  ofCall (.ask (.route (.release space name finalizer)))

def patchStatus (space name : String) (s : RouteStatus) : Pass Unit :=
  ofCall (.ask (.route (.patchStatus space name s)))

def fetch : Pass String :=
  ofCall (.ask .fetch)

/-- Sends a message. That it does not arrive is no failure. -/
def notify (message : String) : Pass Unit := do
  let sent : Pass Unit := ofCall (.ask (.notify message))
  let _ ← sent.attempt
  pure ()

def cancelled : Pass Bool :=
  ExceptT.lift (.ask .cancelled)

def now : Pass Instant :=
  ExceptT.lift (.ask .now)

/-- Stops here if the program has been asked to. -/
def checkpoint (stage : String) : Pass Unit := do
  if ← cancelled then throw (.cancelled stage)

end Pass

end MeshRollout

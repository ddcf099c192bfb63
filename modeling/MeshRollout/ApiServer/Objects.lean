import MeshRollout.Cluster.Program
import MeshRollout.ApiServer.Exchange

/-!
Calls on objects as requests to the API server.
-/
set_option autoImplicit false

namespace MeshRollout.ApiServer

def readList : Reading (List Object) :=
  (Fields.required "items" (fun v => match v with
    | .null => .ok []
    | v => Reading.list Object.read v)).readRecord "struct ObjectList"

/-- What answers a deletion: an account of it, or the object. -/
def readDeleted (v : Value) : Except Mismatch Unit :=
  match v.field "kind" with
  | some (.str "Status") => .ok ()
  | _ => (Object.read v).map fun _ => ()

/-- A namespace without a name stands for all of them. -/
def spaceOf (space : Option String) : Option String :=
  space.filter fun s => !s.isEmpty

def getObject (r : Resource) (space : Option String) (name : String) : Dialogue (Option Object) :=
  Dialogue.found do
    Dialogue.checkName name
    Dialogue.ask { method := .get, path := r.objectPath (spaceOf space) name } Object.read

def listObjects (r : Resource) (space selector : Option String) : Dialogue (List Object) :=
  Dialogue.ask
    { method := .get, path := r.path (spaceOf space)
      query := (selector.map fun s => ("labelSelector", s)).toList }
    readList

def createObject (r : Resource) (o : Object) : Dialogue Object :=
  Dialogue.ask
    { method := .post, path := r.path (spaceOf o.metadata.space)
      payload := Dialogue.json o.toValue }
    Object.read

def updateObject (r : Resource) (o : Object) : Dialogue Object :=
  Dialogue.ask
    { method := .put, path := r.objectPath (spaceOf o.metadata.space) o.name
      payload := Dialogue.json o.toValue }
    Object.read

def applyObject (r : Resource) (o : Object) (manager : String) : Dialogue Object := do
  Dialogue.checkManager manager
  Dialogue.ask
    { method := .patch, path := r.objectPath (spaceOf o.metadata.space) o.name
      query := [("fieldManager", manager), ("force", "true")]
      payload := some ⟨"application/apply-patch+yaml", o.toValue⟩ }
    Object.read

def deleteObject (r : Resource) (space : Option String) (name : String) : Dialogue Unit := do
  Dialogue.checkName name
  Dialogue.ask
    { method := .delete, path := r.objectPath (spaceOf space) name
      payload := Dialogue.json (.record []) }
    readDeleted

def plain {α : Type} (a : Except ClusterError α) : Except Failure α :=
  a.mapError .cluster

/-- A failure of a write, where another write may have come before it. -/
def written {α : Type} (r : Resource) (o : Object) (a : Except ClusterError α) : Except Failure α :=
  a.mapError fun e =>
    match e with
    | .api x => if x.code = 409 then .conflict r.kind o.space o.name x.message else .cluster e
    | e => .cluster e

def deleted (a : Except ClusterError Unit) : Except Failure Bool :=
  match a with
  | .ok () => .ok true
  | .error (.api x) => if x.code = 404 then .ok false else .error (.cluster (.api x))
  | .error e => .error (.cluster e)

def told {α β : Type} (tell : Except ClusterError α → Except Failure β) (d : Dialogue α) :
    Exchange (Except Failure β) :=
  let e : Exchange (Except ClusterError α) := d
  e.bind fun a => .done (tell a)

/-- Writes of objects without a name are not sent. -/
def named (r : Resource) (o : Object) (e : Exchange (Except Failure Object)) :
    Exchange (Except Failure Object) :=
  if o.name.isEmpty then .done (.error (.store r.kind "object has no name")) else e

def onObjects (c : StoreCall) : Exchange c.Answer :=
  match c with
  | .get r space name => told plain (getObject r space name)
  | .list r space selector => told plain (listObjects r space selector)
  | .create r o => named r o (told (written r o) (createObject r o))
  | .update r o => named r o (told (written r o) (updateObject r o))
  | .apply r o manager => named r o (told plain (applyObject r o manager))
  | .delete r space name => told deleted (deleteObject r space name)

end MeshRollout.ApiServer

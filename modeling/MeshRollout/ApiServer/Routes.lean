import MeshRollout.ApiServer.Objects

/-!
Calls on a route itself as requests to the API server. Finalizers are read before they are written,
and written only if they change.
-/
set_option autoImplicit false

namespace MeshRollout.ApiServer

def routePath (space name : String) : String :=
  Route.resource.objectPath (some space) name

def getRoute (space name : String) : Dialogue Route := do
  Dialogue.checkName name
  Dialogue.ask { method := .get, path := routePath space name } Route.read

def mergeInto (manager name path : String) (change : Value) : Dialogue Unit := do
  Dialogue.checkName name
  Dialogue.checkManager manager
  let _ ← Dialogue.ask
    { method := .patch, path, query := [("fieldManager", manager)]
      payload := some ⟨"application/merge-patch+json", change⟩ }
    Route.read

def writeFinalizers (manager space name : String) (finalizers : List String) : Dialogue Unit :=
  mergeInto manager name (routePath space name)
    (.record [("metadata", .record [("finalizers", .strings finalizers)])])

def finalizersOf (r : Route) : List String :=
  r.metadata.finalizers.getD []

def hold (manager space name finalizer : String) : Dialogue Unit := do
  let r ← getRoute space name
  if (finalizersOf r).contains finalizer then return
  writeFinalizers manager space name (finalizersOf r ++ [finalizer])

/-- A route that is gone holds no finalizer. -/
def release (manager space name finalizer : String) : Dialogue Unit := do
  match ← Dialogue.found (getRoute space name) with
  | none => return
  | some r =>
    if !(finalizersOf r).contains finalizer then return
    writeFinalizers manager space name ((finalizersOf r).filter (· != finalizer))

def writeStatus (manager space name : String) (s : RouteStatus) : Dialogue Unit :=
  mergeInto manager name (routePath space name ++ "/status") (.record [("status", s.toValue)])

def onRoutes (manager : String) (c : RouteCall) : Exchange c.Answer :=
  match c with
  | .get space name => told plain (Dialogue.found (getRoute space name))
  | .hold space name finalizer => told plain (hold manager space name finalizer)
  | .release space name finalizer =>
    told plain (release manager space name finalizer)
  | .patchStatus space name s => told plain (writeStatus manager space name s)

end MeshRollout.ApiServer

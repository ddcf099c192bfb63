import MeshRollout.ApiServer.Routes

/-!
A cluster behind a line of replies: every request takes the next reply, and all requests are written
down.
-/
set_option autoImplicit false

namespace MeshRollout

structure Session where
  replies : List Reply := []
  requests : List Request := []
  /-- The manager under which routes are changed. -/
  manager : String
  clock : Instant

namespace Session

def reply (q : Request) (s : Session) : Reply × Session :=
  let s := { s with requests := s.requests ++ [q] }
  match s.replies with
  | [] => (.failure "no response left", s)
  | r :: rest => (r, { s with replies := rest })

/-- Messages are dropped, nobody asks to stop, and there is nothing to fetch. -/
def answer (c : Call) (s : Session) : c.Answer × Session :=
  match c with
  | .store c => (ApiServer.onObjects c).run reply s
  | .route c => (ApiServer.onRoutes s.manager c).run reply s
  | .notify _ => (.ok (), s)
  | .cancelled => (false, s)
  | .now => (s.clock, s)
  | .fetch => (.error (.internal Failure.unknown "no manifest"), s)

def run {α : Type} (p : Pass α) (s : Session) : Except Failure α × Session :=
  Program.run answer p s

end Session

end MeshRollout

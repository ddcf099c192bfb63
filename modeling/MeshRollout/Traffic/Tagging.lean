import MeshRollout.Service.Basic
import MeshRollout.Text.Blank
import MeshRollout.Text.Split

/-!
How a request is tagged at the edge. A credential falls into one of a hundred buckets, and the
buckets below the ratio belong to the canary; headers carry the choice and the revisions of
dependencies.
-/
set_option autoImplicit false

namespace MeshRollout

namespace Header

/-- Carries the revision that was chosen. -/
def selector : String := "x-canary-version"

/-- Keeps a session at its revision. -/
def session : String := "x-session-id"

def credential : String := "authorization"
def forwardedFor : String := "x-forwarded-for"

def dependencyStem : String := "x-dep-"

end Header

def bearerMark : String := "Bearer "

def hashBase : Nat := 31
def bucketTotal : Nat := 100

def Dependency.header (d : Dependency) : String :=
  Header.dependencyStem ++ d.space ++ "." ++ d.name

/-- The credential in the value of an authorization header; an empty one is none. -/
def credentialOf? (value : String) : Option String :=
  let cs := value.toList
  let token := (Text.dropLead? bearerMark.toList cs).getD cs
  if token.isEmpty then none else some (String.ofList token)

/-- One step of the rolling hash over the bytes of a credential. -/
def hashStep (h : Nat) (byte : UInt8) : Nat :=
  (h * hashBase + byte.toNat) % bucketTotal

def bucketOf (credential : String) : Nat :=
  credential.toUTF8.toList.foldl hashStep 0

def selectRevision (bucket ratio : Nat) (stable canary : String) : String :=
  if bucket < ratio then canary else stable

def isRegexMark (c : Char) : Bool :=
  "\\.+*?()|[]\x7b\x7d^$".toList.contains c

def regexLiteral (s : String) : String :=
  String.ofList (s.toList.flatMap fun c => if isRegexMark c then ['\\', c] else [c])

/-- Matches a list of addresses, parted by commas, in which the given one stands. -/
def addressRegex (ip : String) : String :=
  "^(.*,\\s*)?" ++ regexLiteral ip ++ "(\\s*,.*)?$"

/-- What that expression means: one element of the list is the address. -/
def isForwardedFor (value ip : String) : Bool :=
  (Text.splitOn ',' value.toList).any fun element => Text.trim element == ip.toList

structure Tags where
  selector : String
  session : Option String
  dependencies : List (String × String)
  deriving DecidableEq, Repr

namespace Service

def boundDependencies (s : Service) : List (String × String) :=
  s.dependencies.filterMap fun d => d.boundRevision.map fun r => (d.header, r)

/-- The tags that a request gets; a service that is not split tags nothing. -/
def tag (s : Service) (authorization : Option String) : Option Tags :=
  match s.type.sharesRequests, s.revisions with
  | true, stable :: canary :: _ =>
    let bucket := (authorization.bind credentialOf?).map bucketOf
    some {
      selector :=
        match bucket with
        | some b => selectRevision b s.share stable canary
        | none => stable
      session := if s.type = .stickyCanary then bucket.map toString else none
      dependencies := s.boundDependencies }
  | _, _ => none

end Service

end MeshRollout

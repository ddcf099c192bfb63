import MeshRollout.ApiServer.StatusCode
import MeshRollout.Desired.Alignment
import MeshRollout.Failure

/-!
Fetching the text of a manifest from the service that publishes it: the target of the request, and
what the answer means.
-/
set_option autoImplicit false

namespace MeshRollout

namespace WebPath

def isEncoded (c : Char) : Bool :=
  c.toNat ≤ 0x20 || 0x7f ≤ c.toNat || "\"<>".toList.contains c

def isEncodedInPath (c : Char) : Bool :=
  isEncoded c || "\x60\x7b\x7d".toList.contains c

def isEncodedInQuery (c : Char) : Bool :=
  isEncoded c || c.toNat = 39

def encodedByte (b : UInt8) : List Char :=
  let ds := (Nat.toDigits 16 b.toNat).map Char.toUpper
  '%' :: List.replicate (2 - ds.length) '0' ++ ds

def encoded (encodes : Char → Bool) (cs : List Char) : List Char :=
  cs.flatMap fun c =>
    if encodes c then c.toString.toUTF8.toList.flatMap encodedByte else [c]

def isHere (segment : List Char) : Bool :=
  segment == ['.'] || segment == ['%', '2', 'e'] || segment == ['%', '2', 'E']

def isAbove (segment : List Char) : Bool :=
  match segment with
  | '.' :: r => isHere r
  | '%' :: '2' :: e :: r => isHere ['%', '2', e] && isHere r
  | _ => false

/-- Walks a path, where `done` holds the segments so far, the last one first. A step to the segment
itself or above it leaves an empty segment at the end of the path. -/
def walk (done : List (List Char)) : List (List Char) → List (List Char)
  | [] => done.reverse
  | s :: rest =>
    let ended (done : List (List Char)) := if rest.isEmpty then [] :: done else done
    if isHere s then walk (ended done) rest
    else if isAbove s then walk (ended done.tail) rest
    else walk (s :: done) rest

/-- Blanks and controls at the end and line ends anywhere do not count. -/
def cleaned (cs : List Char) : List Char :=
  ((cs.reverse.dropWhile fun c => decide (c.toNat ≤ 0x20)).reverse).filter fun c =>
    c ≠ '\t' && c ≠ '\n' && c ≠ '\r'

/-- The path as it stands in a request. A backslash divides as a slash does. -/
def pathText (cs : List Char) : List Char :=
  let cs := cs.map fun c => if c = '\\' then '/' else c
  let segments := Text.splitOn '/' cs
  let segments := if segments.head? == some [] then segments.tail else segments
  (walk [] segments).flatMap fun s => '/' :: encoded isEncodedInPath s

/-- The target of a request for a path with what follows it. What comes after a hash is not sent. -/
def target (path : String) : String :=
  let cs := (cleaned path.toList).takeWhile (· != '#')
  match Text.splitOnce '?' cs with
  | some (p, q) => String.ofList (pathText p ++ '?' :: encoded isEncodedInQuery q)
  | none => String.ofList (pathText cs)

end WebPath

structure Publisher where
  server : String
  path : String
  deriving DecidableEq, Repr

namespace Publisher

def address (p : Publisher) (agent : String) : String :=
  Alignment.manifestAddress (p.server ++ p.path) agent

def target (p : Publisher) (agent : String) : String :=
  WebPath.target (Alignment.manifestAddress p.path agent)

def requestLine (p : Publisher) (agent : String) : String :=
  "GET " ++ p.target agent ++ " HTTP/1.1"

end Publisher

/-- What comes back for a request. The body may break off. -/
inductive Fetched where
  | unreachable
  | answer (status : Nat) (body : Option String)
  deriving DecidableEq, Repr

namespace Fetched

def text (p : Publisher) (agent : String) : Fetched → Except Failure String
  | .unreachable =>
    failed ("request failed: error sending request for url (" ++ p.server ++ p.target agent ++ ")")
  | .answer status body =>
    let body := if StatusCode.hasBody status then body else some ""
    if !StatusCode.isSuccess status then
      failed ("unexpected status " ++ StatusCode.text status ++ ": " ++ body.getD "")
    else
      match body with
      | some text => .ok text
      | none => failed "failed to read body: error decoding response body"
where
  failed (message : String) : Except Failure String :=
    .error (.transport (p.address agent) message)

end Fetched

end MeshRollout

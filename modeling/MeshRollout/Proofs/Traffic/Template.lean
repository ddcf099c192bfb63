import Mathlib.Data.List.Basic
import MeshRollout.Proofs.Name
import MeshRollout.Traffic.Script

/-!
The script as a template with values filled in. The fixed text of each line is read as the
interpreter of scripts reads it, far enough to tell strings, comments and code apart: whatever plain
text is filled in stays in the string, the comment or the number that it was meant for.
-/
set_option autoImplicit false

namespace MeshRollout

section Plain

def isPlainChar (c : Char) : Bool :=
  isRevisionChar c || c = ' '

def Plain (s : String) : Prop :=
  ∀ c ∈ s.toList, isPlainChar c = true

instance (s : String) : Decidable (Plain s) :=
  decidable_of_iff (s.toList.all isPlainChar = true) List.all_eq_true

def isScriptMark (c : Char) : Bool :=
  c = '"' || c = '\\' || c.toNat < 0x20 || (0x7f ≤ c.toNat && c.toNat < 0xa0)
    || c = '\u2028' || c = '\u2029'

theorem code_of_isPlainChar {c : Char} (h : isPlainChar c = true) :
    0x20 ≤ c.toNat ∧ c.toNat < 0x7f := by
  simp only [isPlainChar, isRevisionChar, isLowerOrDigit, Bool.or_eq_true, Bool.and_eq_true,
    decide_eq_true_eq, Char.le_def, UInt32.le_iff_toNat_le] at h
  rw [Char.toNat]
  rcases h with (((((⟨hl, hu⟩ | ⟨hl, hu⟩) | ⟨hl, hu⟩) | rfl) | rfl) | rfl) | rfl
  · change 97 ≤ c.val.toNat at hl
    change c.val.toNat ≤ 122 at hu
    omega
  · change 48 ≤ c.val.toNat at hl
    change c.val.toNat ≤ 57 at hu
    omega
  · change 65 ≤ c.val.toNat at hl
    change c.val.toNat ≤ 90 at hu
    omega
  all_goals decide

theorem isScriptMark_of_isPlainChar {c : Char} (h : isPlainChar c = true) :
    isScriptMark c = false := by
  obtain ⟨hlow, hhigh⟩ := code_of_isPlainChar h
  by_contra hmark
  simp only [isScriptMark, Bool.not_eq_false, Bool.or_eq_true, Bool.and_eq_true,
    decide_eq_true_eq] at hmark
  rcases hmark with ((((rfl | rfl) | hc) | ⟨hc, -⟩) | rfl) | rfl
  · exact absurd h (by decide)
  · exact absurd h (by decide)
  · omega
  · omega
  · exact absurd h (by decide)
  · exact absurd h (by decide)

theorem Plain.append {s t : String} (hs : Plain s) (ht : Plain t) : Plain (s ++ t) := by
  intro c hc
  rw [String.toList_append, List.mem_append] at hc
  exact hc.elim (hs c) (ht c)

end Plain

/-- What a template leaves open. The last two gaps stand in the line that is written for each
dependency. -/
inductive Gap where
  | host
  | form
  | ratio
  | stable
  | canary
  | credential
  | bearer
  | hashBase
  | bucketTotal
  | selector
  | session
  | header
  | revision
  deriving DecidableEq, Repr

inductive Piece where
  | text (s : String)
  | gap (x : Gap)
  deriving DecidableEq, Repr

namespace Piece

def filled (v : Gap → String) : Piece → String
  | text s => s
  | gap x => v x

def joined (v : Gap → String) (ps : List Piece) : String :=
  ps.foldr (fun p rest => p.filled v ++ rest) ""

def quoted (x : Gap) : List Piece :=
  [text "\"", gap x, text "\""]

end Piece

inductive Part where
  | line (ps : List Piece)
  | eachDependency (ps : List Piece)
  deriving DecidableEq, Repr

namespace Part

def pieces : Part → List Piece
  | line ps => ps
  | eachDependency ps => ps

def filled (v : String × String → Gap → String) (ds : List (String × String)) :
    Part → List String
  | line ps => [Piece.joined (v ("", "")) ps]
  | eachDependency ps => ds.map fun d => Piece.joined (v d) ps

def fixed (s : String) : Part :=
  line [.text s]

end Part

namespace Template

open Piece MeshRollout.Part

def prelude : List Part := [
  line [text "-- mesh-agent bucketing script for ", gap .host, text " (", gap .form, text ")"],
  line ([text "local HOST = "] ++ quoted .host),
  line [text "local RATIO = ", gap .ratio],
  line ([text "local STABLE = "] ++ quoted .stable),
  line ([text "local CANARY = "] ++ quoted .canary),
  fixed "",
  fixed "local function targets_service(headers)",
  fixed "  local authority = headers:get(\":authority\")",
  fixed "  if authority == nil then",
  fixed "    return false",
  fixed "  end",
  fixed "  authority = string.gsub(authority, \":%d+$\", \"\")",
  fixed "  return authority == HOST",
  fixed "end",
  fixed "",
  fixed "local function credential(headers)",
  line ([text "  local value = headers:get("] ++ quoted .credential ++ [text ")"]),
  fixed "  if value == nil then",
  fixed "    return nil",
  fixed "  end",
  line ([text "  local prefix = "] ++ quoted .bearer),
  fixed "  if string.sub(value, 1, string.len(prefix)) == prefix then",
  fixed "    value = string.sub(value, string.len(prefix) + 1)",
  fixed "  end",
  fixed "  if value == \"\" then",
  fixed "    return nil",
  fixed "  end",
  fixed "  return value",
  fixed "end",
  fixed "",
  fixed "local function bucket(value)",
  fixed "  local hash = 0",
  fixed "  for i = 1, string.len(value) do",
  line [text "    hash = (hash * ", gap .hashBase, text " + string.byte(value, i)) % ",
    gap .bucketTotal],
  fixed "  end",
  fixed "  return hash",
  fixed "end",
  fixed "",
  fixed "local function select_revision(b)",
  fixed "  if b < RATIO then",
  fixed "    return CANARY",
  fixed "  end",
  fixed "  return STABLE",
  fixed "end"]

def replacing (x : Gap) (expression : List Piece) : List Piece :=
  [text "headers:replace("] ++ quoted x ++ [text ", "] ++ expression ++ [text ")"]

def binding : List Part := [
  fixed "local function pin_dependencies(headers)",
  eachDependency (text "  " :: replacing .header (quoted .revision)),
  fixed "end",
  fixed ""]

def handler (f : ScriptForm) : List Part :=
  [fixed "function envoy_on_request(request_handle)",
   fixed "  local headers = request_handle:headers()",
   fixed "  if not targets_service(headers) then",
   fixed "    return",
   fixed "  end"]
    ++ (if f.binding then [fixed "  pin_dependencies(headers)"] else [])
    ++ (if f.sticky then
          [line ([text "  headers:remove("] ++ quoted .session ++ [text ")"])]
        else [])
    ++ [fixed "  local token = credential(headers)",
        fixed "  if token == nil then",
        line (text "    " :: replacing .selector [text "STABLE"]),
        fixed "    return",
        fixed "  end"]
    ++ (if f.sticky then
          [fixed "  local b = bucket(token)",
           line (text "  " :: replacing .selector [text "select_revision(b)"]),
           line (text "  " :: replacing .session [text "tostring(b)"])]
        else
          [line (text "  " :: replacing .selector [text "select_revision(bucket(token))"])])
    ++ [fixed "end"]

/-- The parts of all templates. Sessions that do not stick need a line of their own. -/
def parts : List Part :=
  prelude ++ binding ++ handler ⟨true, true⟩
    ++ [line (text "  " :: replacing .selector [text "select_revision(bucket(token))"])]

end Template

def ScriptForm.template (f : ScriptForm) : List Part :=
  Template.prelude ++ (if f.binding then Template.binding else []) ++ Template.handler f

theorem ScriptForm.mem_parts {f : ScriptForm} {p : Part} (h : p ∈ f.template) :
    p ∈ Template.parts := by
  simp only [template, Template.handler, List.mem_append] at h
  simp only [Template.parts, Template.handler, List.mem_append]
  cases hs : f.sticky <;> cases hb : f.binding <;>
    simp only [hs, hb, Bool.false_eq_true, if_true, if_false] at h ⊢ <;> tauto

namespace ScriptInput

def value (i : ScriptInput) (d : String × String) : Gap → String
  | .host => i.host
  | .form => i.form.text
  | .ratio => toString i.ratio
  | .stable => i.stable
  | .canary => i.canary
  | .credential => Header.credential
  | .bearer => bearerMark
  | .hashBase => toString hashBase
  | .bucketTotal => toString bucketTotal
  | .selector => Header.selector
  | .session => Header.session
  | .header => d.1
  | .revision => d.2

theorem replace_eq (header expression : String) :
    replace header expression
      = "headers:replace(" ++ literal header ++ ", " ++ expression ++ ")" :=
  rfl

section Lines

variable (i : ScriptInput)

theorem prelude_eq :
    i.prelude = Template.prelude.flatMap (Part.filled i.value i.dependencies) := by
  simp only [prelude, Template.prelude, Part.filled, Part.fixed, Piece.joined, Piece.filled,
    Piece.quoted, literal, value, List.flatMap_cons, List.flatMap_nil, List.foldr_cons,
    List.foldr_nil, List.cons_append, List.nil_append, List.append_nil, String.append_assoc,
    String.append_empty]

theorem binding_eq :
    i.binding = Template.binding.flatMap (Part.filled i.value i.dependencies) := by
  simp only [binding, Template.binding, Template.replacing, Part.filled, Part.fixed, Piece.joined,
    Piece.filled, Piece.quoted, literal, replace_eq, value, List.flatMap_cons, List.flatMap_nil,
    List.foldr_cons, List.foldr_nil, List.cons_append, List.nil_append, List.append_nil,
    String.append_assoc, String.append_empty]

theorem handler_eq :
    i.handler = (Template.handler i.form).flatMap (Part.filled i.value i.dependencies) := by
  cases hs : i.form.sticky <;> cases hb : i.form.binding <;>
    simp only [handler, Template.handler, Template.replacing, Part.filled, Part.fixed,
      Piece.joined, Piece.filled, Piece.quoted, literal, replace_eq, value, hs, hb,
      List.flatMap_cons, List.flatMap_nil, List.foldr_cons, reduceIte, Bool.false_eq_true,
      List.foldr_nil, List.cons_append, List.nil_append, List.append_nil, String.append_assoc,
      String.append_empty]

theorem lines_eq : i.lines = i.form.template.flatMap (Part.filled i.value i.dependencies) := by
  rw [lines, ScriptForm.template, prelude_eq, binding_eq, handler_eq, List.flatMap_append,
    List.flatMap_append]
  split <;> rfl

end Lines

end ScriptInput

section Modes

/-- Where a reader of a script stands. In code, a single quote or an opening bracket could begin
text of another sort; templates have none there, and a reader that meets one is lost. -/
inductive ScriptMode where
  | code
  /-- Behind one hyphen; a second one begins a comment. -/
  | dash
  | dashes
  | comment
  | text
  | lost
  deriving DecidableEq, Repr

namespace ScriptMode

def isLineEnd (c : Char) : Bool :=
  c = '\n' || c = '\r'

def ofCode (c : Char) : ScriptMode :=
  if c = '"' then .text
  else if c = '-' then .dash
  else if c = '\'' || c = '[' then .lost
  else .code

def step : ScriptMode → Char → ScriptMode
  | .code, c => ofCode c
  | .dash, c => if c = '-' then .dashes else ofCode c
  | .dashes, c => if c = '[' then .lost else if isLineEnd c then .code else .comment
  | .comment, c => if isLineEnd c then .code else .comment
  | .text, c => if c = '"' then .code else if c = '\\' || isLineEnd c then .lost else .text
  | .lost, _ => .lost

def read (m : ScriptMode) (s : String) : ScriptMode :=
  s.toList.foldl step m

theorem read_append (m : ScriptMode) (s t : String) : m.read (s ++ t) = (m.read s).read t := by
  rw [read, String.toList_append, List.foldl_append]
  rfl

theorem read_of_kept {m : ScriptMode} {s : String} (h : ∀ c ∈ s.toList, m.step c = m) :
    m.read s = m := by
  rw [read]
  generalize s.toList = cs at h
  induction cs with
  | nil => rfl
  | cons c cs ih =>
    rw [List.foldl_cons, h c List.mem_cons_self]
    exact ih fun c' hc' => h c' (List.mem_cons_of_mem _ hc')

theorem read_lines {ls : List String} (h : ∀ l ∈ ls, (code.read l).step '\n' = .code) :
    code.read (ls.foldr (fun l rest => l ++ "\n" ++ rest) "") = .code := by
  induction ls with
  | nil => rfl
  | cons l ls ih =>
    have hbreak (m : ScriptMode) : m.read "\n" = m.step '\n' := by
      have hlist : "\n".toList = ['\n'] := by decide
      rw [read, hlist]
      rfl
    rw [List.foldr_cons, read_append, read_append, hbreak, h l List.mem_cons_self]
    exact ih fun l' hl => h l' (List.mem_cons_of_mem _ hl)

theorem step_text_of_plain {c : Char} (h : isPlainChar c = true) : text.step c = .text := by
  have hne {d : Char} (hd : isPlainChar d = false) : c ≠ d := fun he => by simp [he, hd] at h
  have hquote : c ≠ '"' := hne (by decide)
  have hbackslash : c ≠ '\\' := hne (by decide)
  have hfeed : c ≠ '\n' := hne (by decide)
  have hreturn : c ≠ '\r' := hne (by decide)
  simp [step, isLineEnd, hquote, hbackslash, hfeed, hreturn]

theorem step_comment_of_plain {c : Char} (h : isPlainChar c = true) :
    comment.step c = .comment := by
  have hne {d : Char} (hd : isPlainChar d = false) : c ≠ d := fun he => by simp [he, hd] at h
  have hfeed : c ≠ '\n' := hne (by decide)
  have hreturn : c ≠ '\r' := hne (by decide)
  simp [step, isLineEnd, hfeed, hreturn]

theorem step_code_of_digit {c : Char} (h : c.isDigit = true) : code.step c = .code := by
  have hne {d : Char} (hd : d.isDigit = false) : c ≠ d := fun he => by simp [he, hd] at h
  have hquote : c ≠ '"' := hne (by decide)
  have hhyphen : c ≠ '-' := hne (by decide)
  have hsingle : c ≠ '\'' := hne (by decide)
  have hbracket : c ≠ '[' := hne (by decide)
  simp [step, ofCode, hquote, hhyphen, hsingle, hbracket]

end ScriptMode

namespace Gap

def isNumber : Gap → Bool
  | .ratio | .hashBase | .bucketTotal => true
  | _ => false

/-- Numbers stand in code, all other values in strings and comments. -/
def fits (x : Gap) (m : ScriptMode) : Bool :=
  if x.isNumber then m = .code else m = .text || m = .comment

structure Accepts (x : Gap) (s : String) : Prop where
  plain : Plain s
  digits : x.isNumber = true → ∀ c ∈ s.toList, c.isDigit = true

theorem Accepts.step {x : Gap} {s : String} (h : x.Accepts s) {m : ScriptMode}
    (hm : x.fits m = true) : ∀ c ∈ s.toList, m.step c = m := by
  intro c hc
  rw [fits] at hm
  split at hm
  · rename_i hnumber
    rw [of_decide_eq_true hm]
    exact ScriptMode.step_code_of_digit (h.digits hnumber c hc)
  · rcases Bool.or_eq_true_iff.1 hm with hm | hm
    · rw [of_decide_eq_true hm]
      exact ScriptMode.step_text_of_plain (h.plain c hc)
    · rw [of_decide_eq_true hm]
      exact ScriptMode.step_comment_of_plain (h.plain c hc)

end Gap

namespace Piece

def modeAfter (m : ScriptMode) (s : String) : Option ScriptMode :=
  s.toList.foldlM (fun m c => if c = '\n' then none else some (m.step c)) m

/-- The mode behind the pieces of a line, if every gap stands where its value belongs. -/
def through : ScriptMode → List Piece → Option ScriptMode
  | m, [] => some m
  | m, .text s :: ps => (modeAfter m s).bind (through · ps)
  | m, .gap x :: ps => if x.fits m then through m ps else none

def Kept (v : Gap → String) : ScriptMode → List Piece → Prop
  | _, [] => True
  | m, .text s :: ps => Kept v (m.read s) ps
  | m, .gap x :: ps => x.fits m = true ∧ (∀ c ∈ (v x).toList, m.step c = m) ∧ Kept v m ps

variable {v : Gap → String} {m m' : ScriptMode} {ps : List Piece}

theorem read_of_modeAfter {s : String} (h : modeAfter m s = some m') :
    '\n' ∉ s.toList ∧ m.read s = m' := by
  rw [modeAfter] at h
  rw [ScriptMode.read]
  generalize s.toList = cs at h
  induction cs generalizing m with
  | nil => exact ⟨List.not_mem_nil, Option.some.inj h⟩
  | cons c cs ih =>
    rw [List.foldlM_cons] at h
    split at h
    · nomatch h
    · rename_i hc
      obtain ⟨hmem, hread⟩ := ih h
      exact ⟨fun hm => (List.mem_cons.1 hm).elim (hc ·.symm) hmem, hread⟩

theorem joined_cons (v : Gap → String) (p : Piece) (ps : List Piece) :
    joined v (p :: ps) = p.filled v ++ joined v ps :=
  rfl

/-- Reading the template is enough: acceptable values change nothing. -/
theorem kept_of_through (hv : ∀ x : Gap, x.Accepts (v x)) (h : through m ps = some m') :
    Kept v m ps ∧ m.read (joined v ps) = m' := by
  induction ps generalizing m with
  | nil => exact ⟨trivial, Option.some.inj h⟩
  | cons p ps ih =>
    rw [joined_cons, ScriptMode.read_append]
    cases p with
    | text s =>
      obtain ⟨after, hafter, hrest⟩ := Option.bind_eq_some_iff.1 h
      rw [← (read_of_modeAfter hafter).2] at hrest
      exact ih hrest
    | gap x =>
      rw [through] at h
      split at h
      · rename_i hx
        have hstep := (hv x).step hx
        obtain ⟨hkept, hread⟩ := ih h
        refine ⟨⟨hx, hstep, hkept⟩, ?_⟩
        rw [filled, ScriptMode.read_of_kept hstep]
        exact hread
      · nomatch h

theorem no_break_of_through (hv : ∀ x, '\n' ∉ (v x).toList) (h : through m ps = some m') :
    '\n' ∉ (joined v ps).toList := by
  induction ps generalizing m with
  | nil => exact List.not_mem_nil
  | cons p ps ih =>
    rw [joined_cons, String.toList_append, List.mem_append]
    cases p with
    | text s =>
      obtain ⟨after, hafter, hrest⟩ := Option.bind_eq_some_iff.1 h
      exact fun hm => hm.elim (read_of_modeAfter hafter).1 (ih hrest)
    | gap x =>
      rw [through] at h
      split at h
      · exact fun hm => hm.elim (hv x) (ih h)
      · nomatch h

theorem count_joined {c : Char} (h : ∀ x, c ∉ (v x).toList) (ps : List Piece) :
    (joined v ps).toList.count c = (joined (fun _ => "") ps).toList.count c := by
  induction ps with
  | nil => rfl
  | cons p ps ih =>
    rw [joined_cons, joined_cons, String.toList_append, String.toList_append, List.count_append,
      List.count_append, ih]
    cases p with
    | text s => rfl
    | gap x => rw [filled, List.count_eq_zero_of_not_mem (h x)]; rfl

end Piece

end Modes

def ScriptForm.bare (f : ScriptForm) (n : Nat) : String :=
  Text.joinWith "\n"
    (f.template.flatMap (Part.filled (fun _ _ => "") (List.replicate n ("", ""))))

/-- Every line of every template begins in code, ends in code and has its gaps in their places. -/
theorem ScriptForm.through_template (f : ScriptForm) :
    ∀ p ∈ f.template, (Piece.through .code p.pieces).map (ScriptMode.step · '\n') = some .code := by
  have hparts : ∀ p ∈ Template.parts,
      (Piece.through .code p.pieces).map (ScriptMode.step · '\n') = some .code := by
    decide +kernel
  exact fun p hp => hparts p (mem_parts hp)

namespace Part

variable {v : String × String → Gap → String} {ds : List (String × String)} {c : Char}

theorem mem_filled {p : Part} {line : String} (h : line ∈ p.filled v ds) :
    ∃ d ∈ ("", "") :: ds, line = Piece.joined (v d) p.pieces := by
  cases p with
  | line ps => exact ⟨_, List.mem_cons_self, List.mem_singleton.1 h⟩
  | eachDependency ps =>
    obtain ⟨d, hd, rfl⟩ := List.mem_map.1 h
    exact ⟨d, List.mem_cons_of_mem _ hd, rfl⟩

theorem count_filled (h : ∀ d ∈ ("", "") :: ds, ∀ x, c ∉ (v d x).toList) (p : Part) :
    (p.filled v ds).map (·.toList.count c)
      = (p.filled (fun _ _ => "") (List.replicate ds.length ("", ""))).map (·.toList.count c) := by
  cases p with
  | line ps =>
    exact congrArg (fun n => [n]) (Piece.count_joined (h _ List.mem_cons_self) ps)
  | eachDependency ps =>
    have hcount : ∀ d ∈ ds, (Piece.joined (v d) ps).toList.count c
        = (Piece.joined (fun _ => "") ps).toList.count c := fun d hd =>
      Piece.count_joined (h d (List.mem_cons_of_mem _ hd)) ps
    simp only [filled, List.map_map, Function.comp_def, List.map_replicate]
    rw [List.map_congr_left hcount, List.map_const']

end Part

end MeshRollout

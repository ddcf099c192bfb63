import MeshRollout.Proofs.Service.Valid
import MeshRollout.Proofs.Text.Split
import MeshRollout.Proofs.Traffic.Subsets
import MeshRollout.Proofs.Traffic.Synthesis
import MeshRollout.Proofs.Traffic.Template

/-!
What the script of a checked service is. Nothing that is filled in can leave its place, so the
script has the shape of its template, and nothing is lost: a service is told by its script.
-/
set_option autoImplicit false

namespace MeshRollout

section PlainText

theorem isPlainChar_of_label {c : Char} (h : isLabelChar c = true) : isPlainChar c = true := by
  simp only [isLabelChar, Bool.or_eq_true, decide_eq_true_eq] at h
  rcases h with h | h <;> simp [isPlainChar, isRevisionChar, h]

theorem plain_of_label {s : String} (h : labelFault? s = none) : Plain s := fun c hc =>
  isPlainChar_of_label ((labelFault?_eq_none_iff.1 h).2.2.1 c hc)

theorem plain_of_revision {s : String} (h : revisionFault? s = none) : Plain s := by
  intro c hc
  simp only [revisionFault?] at h
  split at h
  · nomatch h
  · split at h
    · nomatch h
    · have hchar := List.find?_eq_none.1 (Option.map_eq_none_iff.1 h) c hc
      have hrevision : isRevisionChar c = true := by simpa using hchar
      rw [isPlainChar, hrevision, Bool.true_or]

theorem isPlainChar_of_digit {c : Char} (h : c.isDigit = true) : isPlainChar c = true := by
  have hdigit : '0' ≤ c ∧ c ≤ '9' := by
    simpa [Char.isDigit, Char.le_def] using h
  simp [isPlainChar, isRevisionChar, isLowerOrDigit, hdigit]

theorem plain_number (n : Nat) : Plain (toString n) := fun _ hc =>
  isPlainChar_of_digit (isDigit_of_mem_number hc)

theorem Plain.not_mem {s : String} (h : Plain s) {c : Char} (hc : isScriptMark c = true) :
    c ∉ s.toList := by
  intro hm
  rw [isScriptMark_of_isPlainChar (h c hm)] at hc
  nomatch hc

end PlainText

theorem ScriptForm.plain_text (f : ScriptForm) : Plain f.text := by
  rcases f with ⟨sticky, binding⟩
  cases sticky <;> cases binding <;> decide

theorem ScriptForm.text_injective {f g : ScriptForm} (h : f.text = g.text) : f = g := by
  rcases f with ⟨sticky, binding⟩
  rcases g with ⟨sticky', binding'⟩
  revert h
  cases sticky <;> cases binding <;> cases sticky' <;> cases binding' <;> decide

structure ScriptInput.Checked (i : ScriptInput) : Prop where
  host : Plain i.host
  stable : Plain i.stable
  canary : Plain i.canary
  dependencies : ∀ d ∈ i.dependencies, Plain d.1 ∧ Plain d.2
  bound : i.form.binding = false → i.dependencies = []

/-- The script has the shape of its template, whatever its values are. -/
structure ScriptInput.Sealed (i : ScriptInput) : Prop where
  /-- The lines are those of the template, with the values filled in. -/
  lines : i.lines = i.form.template.flatMap (Part.filled i.value i.dependencies)
  /-- No value holds a quote, a backslash, a line break or a control character. -/
  unmarked : ∀ d ∈ ("", "") :: i.dependencies, ∀ x, ∀ c ∈ (i.value d x).toList,
    isScriptMark c = false
  /-- Of each of these, the script has as many as its template without values. -/
  marks : ∀ c, isScriptMark c = true →
    i.source.toList.count c = (i.form.bare i.dependencies.length).toList.count c
  /-- Each value stands in a string, in a comment or as a number, and does not end it. -/
  kept : ∀ p ∈ i.form.template, ∀ d ∈ ("", "") :: i.dependencies,
    Piece.Kept (i.value d) .code p.pieces
  /-- Behind the lines before it, each line begins in code. -/
  begins : ∀ before line after, i.lines = before ++ line :: after →
    ScriptMode.code.read (before.foldr (fun l rest => l ++ "\n" ++ rest) "") = .code

namespace ScriptInput

variable {i j : ScriptInput}

namespace Checked

variable (h : i.Checked)
include h

theorem accepts {d : String × String} (hd : d ∈ ("", "") :: i.dependencies) (x : Gap) :
    x.Accepts (i.value d x) := by
  have hplain : Plain d.1 ∧ Plain d.2 := by
    rcases List.mem_cons.1 hd with rfl | hd
    · decide
    · exact h.dependencies d hd
  refine ⟨?plain, ?digits⟩
  case plain =>
    cases x with
    | host => exact h.host
    | form => exact i.form.plain_text
    | stable => exact h.stable
    | canary => exact h.canary
    | ratio | hashBase | bucketTotal => exact plain_number _
    | credential => exact show Plain Header.credential by decide
    | bearer => exact show Plain bearerMark by decide
    | selector => exact show Plain Header.selector by decide
    | session => exact show Plain Header.session by decide
    | header => exact hplain.1
    | revision => exact hplain.2
  case digits =>
    intro hx c hc
    cases x with
    | ratio | hashBase | bucketTotal => exact isDigit_of_mem_number hc
    | _ => nomatch hx

theorem not_mem_value {c : Char} (hc : isScriptMark c = true) :
    ∀ d ∈ ("", "") :: i.dependencies, ∀ x, c ∉ (i.value d x).toList := fun _ hd x =>
  (h.accepts hd x).plain.not_mem hc

theorem through_line {line : String} (hline : line ∈ i.lines) :
    '\n' ∉ line.toList ∧ (ScriptMode.code.read line).step '\n' = .code := by
  rw [lines_eq] at hline
  obtain ⟨p, hp, hfilled⟩ := List.mem_flatMap.1 hline
  obtain ⟨d, hd, rfl⟩ := Part.mem_filled hfilled
  obtain ⟨m, hm, hstep⟩ := Option.map_eq_some_iff.1 (i.form.through_template p hp)
  rw [(Piece.kept_of_through (h.accepts hd) hm).2]
  exact ⟨Piece.no_break_of_through (h.not_mem_value (by decide) d hd) hm, hstep⟩

theorem is_sealed : i.Sealed where
  lines := i.lines_eq
  unmarked := fun _ hd x c hc => isScriptMark_of_isPlainChar ((h.accepts hd x).plain c hc)
  marks := fun c hc => by
    refine Text.count_joinWith c "\n" ?_
    rw [lines_eq, List.map_flatMap, List.map_flatMap]
    exact congrArg (fun f => i.form.template.flatMap f)
      (funext fun p => Part.count_filled (h.not_mem_value hc) p)
  kept := fun p hp d hd => by
    obtain ⟨m, hm, -⟩ := Option.map_eq_some_iff.1 (i.form.through_template p hp)
    exact (Piece.kept_of_through (h.accepts hd) hm).1
  begins := fun before line after hlines => by
    refine ScriptMode.read_lines fun l hl => (h.through_line ?_).2
    rw [hlines]
    exact List.mem_append_left _ hl

end Checked

theorem literal_injective {s t : String} (h : literal s = literal t) : s = t :=
  (String.append_right_inj _).1 ((String.append_left_inj _).1 h)

theorem bindingLine_injective {d e : String × String} (hd : Plain d.1) (he : Plain e.1)
    (h : "  " ++ replace d.1 (literal d.2) = "  " ++ replace e.1 (literal e.2)) : d = e := by
  have hquote : "\"".toList = ['"'] := by decide
  have hcall := congrArg String.toList ((String.append_right_inj _).1 h)
  simp only [replace_eq, literal, String.toList_append, hquote, List.append_assoc,
    List.cons_append, List.nil_append] at hcall
  have hbehind := (List.cons.inj (List.append_cancel_left hcall)).2
  obtain ⟨hheader, hrest⟩ := append_mark_inj (hd.not_mem (by decide)) (he.not_mem (by decide))
    hbehind
  have hrevision := (List.cons.inj (List.append_cancel_left hrest)).2
  exact Prod.ext (String.toList_injective hheader)
    (String.toList_injective (List.append_cancel_right hrevision))

theorem bindingLines_injective {ds es : List (String × String)} (hds : ∀ d ∈ ds, Plain d.1)
    (hes : ∀ e ∈ es, Plain e.1)
    (h : (ds.map fun (header, revision) => "  " ++ replace header (literal revision))
      = es.map fun (header, revision) => "  " ++ replace header (literal revision)) : ds = es := by
  induction ds generalizing es with
  | nil => exact (List.map_eq_nil_iff.1 h.symm).symm
  | cons d ds ih =>
    obtain ⟨e, es, rfl⟩ := List.exists_cons_of_ne_nil fun he : es = [] => by simp [he] at h
    obtain ⟨hline, hlines⟩ := List.cons.inj h
    rw [bindingLine_injective (hds d List.mem_cons_self) (hes e List.mem_cons_self) hline,
      ih (fun d' hd => hds d' (List.mem_cons_of_mem _ hd))
        (fun e' he => hes e' (List.mem_cons_of_mem _ he)) hlines]

theorem prelude_injective (h : i.prelude = j.prelude) :
    i.host = j.host ∧ i.form = j.form ∧ i.ratio = j.ratio ∧ i.stable = j.stable ∧
      i.canary = j.canary := by
  simp only [prelude, List.cons.injEq] at h
  obtain ⟨htitle, hhost, hratio, hstable, hcanary, -⟩ := h
  have hsame := literal_injective ((String.append_right_inj _).1 hhost)
  have hform : i.form.text = j.form.text := by
    rw [hsame] at htitle
    exact (String.append_right_inj _).1 ((String.append_left_inj _).1 htitle)
  exact ⟨hsame, ScriptForm.text_injective hform, number_inj ((String.append_right_inj _).1 hratio),
    literal_injective ((String.append_right_inj _).1 hstable),
    literal_injective ((String.append_right_inj _).1 hcanary)⟩

theorem handler_congr (h : i.form = j.form) : i.handler = j.handler := by
  rw [handler, handler, h]

theorem binding_injective (hi : i.Checked) (hj : j.Checked) (h : i.binding = j.binding) :
    i.dependencies = j.dependencies :=
  bindingLines_injective (fun d hd => (hi.dependencies d hd).1)
    (fun d hd => (hj.dependencies d hd).1) (List.append_cancel_left (List.append_cancel_right h))

/-- The lines of a script tell what it is made of: first its head, then what is bound. -/
theorem lines_injective (hi : i.Checked) (hj : j.Checked) (h : i.lines = j.lines) : i = j := by
  rw [lines, lines, List.append_assoc, List.append_assoc] at h
  obtain ⟨hhead, hrest⟩ := List.append_inj h rfl
  obtain ⟨hhost, hform, hratio, hstable, hcanary⟩ := prelude_injective hhead
  have hdependencies : i.dependencies = j.dependencies := by
    rw [handler_congr hform, ← hform] at hrest
    cases hb : i.form.binding with
    | false => rw [hi.bound hb, hj.bound (hform ▸ hb)]
    | true =>
      simp only [hb, if_true] at hrest
      exact binding_injective hi hj (List.append_cancel_right hrest)
  cases i
  cases j
  simp_all

theorem source_injective (hi : i.Checked) (hj : j.Checked) (h : i.source = j.source) : i = j := by
  have hne (k : ScriptInput) : k.lines ≠ [] := List.cons_ne_nil _ _
  exact lines_injective hi hj (Text.joinWith_inj (by decide) (hne i) (hne j)
    (fun _ hline => (hi.through_line hline).1) (fun _ hline => (hj.through_line hline).1) h)

end ScriptInput

/-- Of the two that share requests, only one has sessions. -/
theorem Strategy.eq_of_sticky {a b : Strategy} (ha : a.sharesRequests = true)
    (hb : b.sharesRequests = true)
    (h : decide (a = .stickyCanary) = decide (b = .stickyCanary)) : a = b := by
  revert ha hb h
  cases a <;> cases b <;> decide

namespace Service

variable {s t : Service} {i : ScriptInput}

theorem Passed.scriptInput?_eq (h : s.Passed) (hs : s.type.sharesRequests = true) :
    ∃ stable canary, s.revisions = [stable, canary] ∧
      s.scriptInput? = some {
        form := ⟨s.type = .stickyCanary, !s.dependencies.isEmpty⟩, host := s.host
        ratio := s.share, stable, canary, dependencies := s.boundDependencies } := by
  obtain ⟨stable, canary, hr⟩ := h.revisions_eq hs
  refine ⟨stable, canary, hr, ?_⟩
  simp [scriptInput?, ScriptForm.ofService?, hs, hr]

theorem Passed.plain_host (h : s.Passed) : Plain s.host :=
  ((((plain_of_label h.name).append (by decide)).append (plain_of_label h.space)).append
    (by decide))

theorem Passed.plain_boundDependencies (h : s.Passed) :
    ∀ d ∈ s.boundDependencies, Plain d.1 ∧ Plain d.2 := by
  intro p hp
  obtain ⟨d, hd, hbound⟩ := List.mem_filterMap.1 hp
  obtain ⟨r, hr, rfl⟩ := Option.map_eq_some_iff.1 hbound
  obtain ⟨hname, hspace, hrevisions⟩ := dependency_of_passed h.dependencies hd
  have hstem : Plain Header.dependencyStem := by decide
  exact ⟨(((hstem.append (plain_of_label hspace)).append (by decide)).append
    (plain_of_label hname)), plain_of_revision (hrevisions r (List.mem_of_mem_head? hr))⟩

theorem Passed.shares_of_script (h : s.Passed) (hi : s.scriptInput? = some i) :
    s.type.sharesRequests = true := by
  rw [← scriptInput?_isSome h, hi]
  rfl

theorem Passed.checked (h : s.Passed) (hi : s.scriptInput? = some i) : i.Checked := by
  obtain ⟨stable, canary, hr, heq⟩ := h.scriptInput?_eq (h.shares_of_script hi)
  obtain rfl := Option.some.inj (hi.symm.trans heq)
  have hrevision : ∀ r ∈ s.revisions, Plain r := fun r hmem =>
    plain_of_revision (revisionFlaw?_eq_none_iff.1 h.revisions r hmem)
  rw [hr] at hrevision
  exact {
    host := h.plain_host
    stable := hrevision stable (by simp)
    canary := hrevision canary (by simp)
    dependencies := h.plain_boundDependencies
    bound := fun hb => by
      have hnone : s.dependencies = [] := by simpa using hb
      rw [boundDependencies, hnone]
      rfl }

/-- What tells a service from others, as far as its script goes. -/
theorem eq_of_scriptInput? (hs : s.Passed) (ht : t.Passed) (hsi : s.scriptInput? = some i)
    (hti : t.scriptInput? = some i) :
    t.type = s.type ∧ t.name = s.name ∧ t.space = s.space ∧ t.ratio = s.ratio ∧
      t.revisions = s.revisions ∧ t.boundDependencies = s.boundDependencies := by
  have hss := hs.shares_of_script hsi
  have hts := ht.shares_of_script hti
  obtain ⟨stable, canary, hsr, hseq⟩ := hs.scriptInput?_eq hss
  obtain ⟨stable', canary', htr, hteq⟩ := ht.scriptInput?_eq hts
  obtain ⟨m, hm⟩ := hs.ratio_eq hss
  obtain ⟨n, hn⟩ := ht.ratio_eq hts
  have heq := Option.some.inj (hteq.symm.trans (hti.trans (hsi.symm.trans hseq)))
  injection heq with hform hhost hratio hstable hcanary hdependencies
  obtain ⟨hspace, hname⟩ := host_injective ht.name hs.name hhost
  refine ⟨?type, hname, hspace, ?ratio, ?revisions, hdependencies⟩
  case type => exact Strategy.eq_of_sticky hts hss (ScriptForm.mk.inj hform).1
  case ratio =>
    rw [share, share, hm, hn] at hratio
    rw [hm, hn]
    exact congrArg some hratio
  case revisions => rw [hsr, htr, hstable, hcanary]

/-- A checked service that shares its requests has a script of the shape of its template, and no
checked service that differs in what a script is about has the same one. -/
theorem script_sealed {s : Service} (h : s.validate = .ok ())
    (hs : s.type = .canary ∨ s.type = .stickyCanary) :
    ∃ i, s.scriptInput? = some i ∧ i.Sealed ∧
      ∀ (t : Service) (j : ScriptInput), t.validate = .ok () → t.scriptInput? = some j →
        j.source = i.source → t.type = s.type ∧ t.name = s.name ∧ t.space = s.space ∧
          t.ratio = s.ratio ∧ t.revisions = s.revisions ∧
          t.boundDependencies = s.boundDependencies := by
  have hpassed := passed_of_validate h
  obtain ⟨stable, canary, -, hi⟩ := hpassed.scriptInput?_eq (Strategy.sharesRequests_iff.2 hs)
  have hchecked := hpassed.checked hi
  refine ⟨_, hi, hchecked.is_sealed, fun t j ht hj hsource => ?_⟩
  have hpassed' := passed_of_validate ht
  obtain rfl := ScriptInput.source_injective (hpassed'.checked hj) hchecked hsource
  exact eq_of_scriptInput? hpassed hpassed' hi hj

/-- Sticky sessions, and dependencies of which only one is bound. -/
def boundCheckout : Service where
  name := "checkout"
  space := "shop"
  type := .stickyCanary
  revisions := ["v1.0", "v1.0-rc_2"]
  ratio := some 30
  dependencies := [⟨"payments", "pay", ["p7", "p8"]⟩, ⟨"ledger", "pay", []⟩]

theorem boundCheckout_sealed :
    boundCheckout.validate = .ok () ∧ boundCheckout.type = .stickyCanary ∧
      boundCheckout.boundDependencies = [("x-dep-pay.payments", "p7")] ∧
      ∃ i, boundCheckout.scriptInput? = some i ∧ i.Sealed ∧
        ∀ (t : Service) (j : ScriptInput), t.validate = .ok () → t.scriptInput? = some j →
          j.source = i.source → t.type = .stickyCanary ∧ t.name = "checkout" ∧
            t.space = "shop" ∧ t.ratio = some 30 ∧ t.revisions = ["v1.0", "v1.0-rc_2"] ∧
            t.boundDependencies = [("x-dep-pay.payments", "p7")] := by
  have h : boundCheckout.validate = .ok () := by decide +kernel
  have hbound : boundCheckout.boundDependencies = [("x-dep-pay.payments", "p7")] := by
    decide +kernel
  have hsealed := script_sealed h (.inr rfl)
  rw [hbound] at hsealed
  exact ⟨h, rfl, hbound, hsealed⟩

end Service

end MeshRollout

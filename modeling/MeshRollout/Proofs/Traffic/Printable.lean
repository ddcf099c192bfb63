import MeshRollout.Proofs.Address
import MeshRollout.Proofs.Mesh.Printable
import MeshRollout.Proofs.Shape.Accepted
import MeshRollout.Proofs.Traffic.Consistency
import MeshRollout.Proofs.Traffic.Tagged

/-!
The objects of a checked service can be written: what the checks leave of its texts stands on one
line, and no line of its script looks like a line between documents.
-/
set_option autoImplicit false

namespace MeshRollout
open Yaml

section Texts
variable {s : String}

theorem IsDnsName.plain (h : IsDnsName s) : Plain s := by
  intro c hc
  have hchar := h c hc
  simp only [isDnsChar, Bool.or_eq_true, decide_eq_true_eq] at hchar
  rcases hchar with hlabel | rfl
  · exact isPlainChar_of_label hlabel
  · decide

theorem Plain.isPortable (h : Plain s) : IsPortable s :=
  (unbroken_of_plain h).isPortable

theorem unbroken_addressRegex {ip : String} (h : Address.valid ip = true) :
    Unbroken (addressRegex ip) := by
  have hliteral : Unbroken (regexLiteral ip) := by
    intro c hc
    rw [regexLiteral, String.toList_ofList, List.mem_flatMap] at hc
    obtain ⟨d, hd, hc⟩ := hc
    have haddress := Address.isAddressChar_of_valid h d hd
    have hbreak : isBreakMark d = false := by
      refine Bool.eq_false_iff.2 fun hb => ?_
      simp only [isBreakMark, Bool.or_eq_true, beq_iff_eq] at hb
      rcases hb with (((rfl | rfl) | rfl) | rfl) | rfl <;> exact absurd haddress (by decide)
    split at hc
    · simp only [List.mem_cons, List.not_mem_nil, or_false] at hc
      rcases hc with rfl | rfl
      · decide
      · exact hbreak
    · obtain rfl : c = d := by simpa using hc
      exact hbreak
  exact (Unbroken.append (by decide) hliteral).append (by decide)

theorem Duration.plain_text (d : Duration) : Plain d.text := by
  rw [Duration.text]
  split
  · exact (plain_number _).append (by decide)
  · exact (plain_number _).append (by decide)

theorem Duration.exists_of_normalize {t x : String}
    (h : (Duration.normalize t).toOption = some x) : ∃ d : Duration, d.text = x := by
  cases hd : Duration.read t with
  | error e => simp [normalize, hd, Except.map, Except.toOption] at h
  | ok d => exact ⟨d, by simpa [normalize, hd, Except.map, Except.toOption] using h⟩

end Texts

section Scripts

namespace Piece

def fixed : Piece → String
  | text s => s
  | gap _ => ""

def isCode (ps : List Piece) : Bool :=
  ps.all (fun p => p.fixed.toList.all fun c => !isBreakMark c) &&
    (ps == [text ""] ||
      ps.any fun p => p.fixed.toList.any fun c => !Text.isBlank c && c != '-')

variable {v : Gap → String} {ps : List Piece}

theorem unbroken_joined (hv : ∀ x, Unbroken (v x)) (h : isCode ps = true) :
    Unbroken (joined v ps) := by
  simp only [isCode, Bool.and_eq_true] at h
  have hfixed := h.1
  clear h
  induction ps with
  | nil => exact fun c hc => by simp [joined] at hc
  | cons p ps ih =>
    rw [List.all_cons, Bool.and_eq_true] at hfixed
    rw [joined_cons]
    refine Unbroken.append ?_ (ih hfixed.2)
    cases p with
    | text s => simpa [Unbroken, filled, fixed] using hfixed.1
    | gap x => exact hv x

theorem mem_joined {p : Piece} (hp : p ∈ ps) {c : Char} (hc : c ∈ p.fixed.toList) :
    c ∈ (joined v ps).toList := by
  induction ps with
  | nil => cases hp
  | cons q ps ih =>
    rw [joined_cons, String.toList_append, List.mem_append]
    rcases List.mem_cons.1 hp with rfl | hp
    · cases p with
      | text s => exact .inl hc
      | gap x => simp [fixed] at hc
    · exact .inr (ih hp)

theorem isSeparator_joined (h : isCode ps = true) : isSeparator (joined v ps).toList = false := by
  simp only [isCode, Bool.and_eq_true, Bool.or_eq_true, beq_iff_eq, List.any_eq_true,
    Bool.not_eq_true', bne_iff_ne] at h
  rcases h.2 with rfl | ⟨p, hp, c, hc, hblank, hne⟩
  · rfl
  · exact isSeparator_of_mem (mem_joined hp hc) hblank hne

end Piece

theorem ScriptForm.isCode_template (f : ScriptForm) :
    ∀ p ∈ f.template, Piece.isCode p.pieces = true := by
  have hparts : ∀ p ∈ Template.parts, Piece.isCode p.pieces = true := by decide +kernel
  exact fun p hp => hparts p (mem_parts hp)

theorem ScriptInput.Checked.isPortable_source {i : ScriptInput} (h : i.Checked) :
    IsPortable i.source := by
  have hline {line : String} (hline : line ∈ i.lines) :
      Unbroken line ∧ isSeparator line.toList = false := by
    rw [lines_eq] at hline
    obtain ⟨p, hp, hfilled⟩ := List.mem_flatMap.1 hline
    obtain ⟨d, hd, rfl⟩ := Part.mem_filled hfilled
    have hcode := i.form.isCode_template p hp
    exact ⟨Piece.unbroken_joined (fun x => unbroken_of_plain (h.accepts hd x).plain) hcode,
      Piece.isSeparator_joined hcode⟩
  have hne : i.lines ≠ [] := by simp [lines, prelude]
  have hsplit : Text.splitOn '\n' i.source.toList = i.lines.map String.toList :=
    Text.splitOn_joinWith (by decide) hne fun l hl => (h.through_line hl).1
  refine ⟨fun c hc => ?_, fun _ => ?_⟩
  · have hparts : c ∈ (Text.splitOn '\n' i.source.toList).flatMap (· ++ ['\n']) := by
      rw [Text.flatMap_splitOn]
      exact List.mem_append_left _ hc
    rw [hsplit] at hparts
    obtain ⟨p, hp, hcp⟩ := List.mem_flatMap.1 hparts
    obtain ⟨l, hl, rfl⟩ := List.mem_map.1 hp
    rcases List.mem_append.1 hcp with hcl | hbreak
    · exact (hline hl).1.isPortable.chars c hcl
    · rw [List.mem_singleton.1 hbreak]
      decide
  · rw [hsplit]
    intro line hmem
    obtain ⟨l, hl, rfl⟩ := List.mem_map.1 hmem
    exact (hline hl).2

end Scripts

namespace Service
variable {s : Service}

theorem portable_allTo {host : String} {subset : Option String} (hhost : IsPortable host)
    (hsubset : ∀ x ∈ subset, IsPortable x) : ∀ d ∈ allTo host subset, d.Portable := by
  intro d hd
  rw [List.mem_singleton.1 hd]
  exact ⟨hhost, hsubset, nofun⟩

theorem mem_darkRulesFrom {host : String} {i : Nat} {ps : List (String × String)} {rule : HttpRule}
    (h : rule ∈ darkRulesFrom host i ps) : ∃ j, ∃ p ∈ ps, rule = darkRule host j p.1 p.2 := by
  induction ps generalizing i with
  | nil => nomatch h
  | cons p ps ih =>
    rcases List.mem_cons.1 h with rfl | h
    · exact ⟨i, p, List.mem_cons_self, rfl⟩
    · obtain ⟨j, q, hq, hrule⟩ := ih h
      exact ⟨j, q, List.mem_cons_of_mem _ hq, hrule⟩

theorem rule_cases {rule : HttpRule} (h : rule ∈ s.rules) :
    (∃ i, ∃ p ∈ s.darkPairs, rule = darkRule s.host i p.1 p.2) ∨
      (∃ r ∈ s.revisions, rule = s.canaryRule r ∨ rule = s.defaultRule r) ∨
        rule = s.dependencyRule := by
  rw [rules_eq, List.mem_append, List.mem_append, taggedRules, lastRules] at h
  rcases h with h | h | h
  · exact .inl (mem_darkRulesFrom h)
  · split at h
    · obtain ⟨r, hr, rfl⟩ := List.mem_map.1 h
      exact .inr (.inl ⟨r, hr, .inl rfl⟩)
    · split at h
      · cases h
      · exact .inr (.inr (List.mem_singleton.1 h))
  · split at h
    · cases h
    · obtain ⟨r, hr, rfl⟩ := Option.map_eq_some_iff.1 (Option.mem_toList.1 h)
      exact .inr (.inl ⟨r, mem_revisions_of_fallback hr, .inr rfl⟩)

namespace Passed
variable (h : s.Passed)
include h

theorem plain_revision {r : String} (hr : r ∈ s.revisions) : Plain r :=
  plain_of_revision (revisionFlaw?_eq_none_iff.1 h.revisions r hr)

theorem plain_subsetName {x : String} (hx : x ∈ s.subsetNames) : Plain x := by
  rcases mem_subsetNames.1 hx with hx | hx
  · exact h.plain_revision hx
  · obtain ⟨r, hr, rfl⟩ := mem_revisionsKeptDark_iff.1 hx
    exact plain_of_revision (dark_of_passed h.darkReleases hr).1

theorem portable_dependencyHeaders :
    ∀ p ∈ s.dependencyHeaders, IsKey p.1 ∧ IsPortable p.2.pattern := by
  intro p hp
  obtain ⟨q, hq, rfl⟩ := List.mem_map.1 (Dict.mem_of_mem_ofList hp)
  obtain ⟨hheader, hrevision⟩ := h.plain_boundDependencies q hq
  obtain ⟨d, -, hd⟩ := List.mem_filterMap.1 hq
  obtain ⟨r, -, rfl⟩ := Option.map_eq_some_iff.1 hd
  exact ⟨⟨hheader.isPortable, isLegible_of_head d.header_toList (by decide)⟩, hrevision.isPortable⟩

theorem portable_rules : ∀ rule ∈ s.rules, rule.Portable := by
  have hhost : IsPortable s.host := h.plain_host.isPortable
  have hsorted : s.dependencyHeaders.Sorted := Dict.sorted_ofList _
  have hkey (k : String) (hk : isFieldName k = true) : IsKey k := isKey_of_fieldName hk
  intro rule hrule
  rcases rule_cases hrule with ⟨i, p, hp, rfl⟩ | ⟨r, hr, rfl | rfl⟩ | rfl
  · obtain ⟨release, hrelease, hmem⟩ := List.mem_flatMap.1 hp
    obtain ⟨ip, hip, rfl⟩ := List.mem_map.1 hmem
    obtain ⟨hrevision, hips⟩ := dark_of_passed h.darkReleases hrelease
    have hplain := plain_of_revision hrevision
    have hdark : Plain "dark-" := by decide
    have hname := ((hdark.append hplain).append (show Plain "-" by decide)).append (plain_number i)
    refine ⟨hname.isPortable, ?_, portable_allTo hhost (by simpa using hplain.isPortable)⟩
    exact List.forall_mem_singleton.2 ⟨List.pairwise_singleton _ _, List.forall_mem_singleton.2
      ⟨hkey Header.forwardedFor (by decide), (unbroken_addressRegex (hips ip hip)).isPortable⟩⟩
  · have hplain := h.plain_revision hr
    have hname := (show Plain "canary-" by decide).append hplain
    refine ⟨hname.isPortable, ?_, portable_allTo hhost (by simpa using hplain.isPortable)⟩
    refine List.forall_mem_singleton.2 ⟨hsorted.put, fun p hp => ?_⟩
    rcases Dict.mem_put hp with rfl | hp
    · exact ⟨hkey Header.selector (by decide), hplain.isPortable⟩
    · exact h.portable_dependencyHeaders p hp
  · have hname : Plain "default" := by decide
    exact ⟨hname.isPortable, nofun,
      portable_allTo hhost (by simpa using (h.plain_revision hr).isPortable)⟩
  · have hname : Plain "dependencies" := by decide
    exact ⟨hname.isPortable,
      List.forall_mem_singleton.2 ⟨hsorted, h.portable_dependencyHeaders⟩, portable_allTo hhost nofun⟩

theorem printable_subsets : ∀ x ∈ s.subsets, Printable x.toValue := by
  intro x hx
  obtain ⟨r, hr, rfl⟩ := List.mem_map.1 hx
  have hplain := (h.plain_subsetName hr).isPortable
  exact Subset.printable (areTexts_singleton
    (isKey_of_fieldName (show isFieldName revisionLabel = true by decide)) hplain) hplain

end Passed

theorem portable_ejectionPolicy {o : OutlierDetection} (h : o.Bounded) :
    (ejectionPolicy o).Portable where
  serverErrors n hn := Nat.lt_trans (h.1 n hn) (by decide)
  gatewayErrors n hn := Nat.lt_trans (h.2 n hn) (by decide)
  interval x hx := by
    obtain ⟨t, -, hx⟩ := Option.bind_eq_some_iff.1 hx
    obtain ⟨d, rfl⟩ := Duration.exists_of_normalize hx
    exact d.plain_text.isPortable
  baseEjectionTime := (show Plain "30s" by decide).isPortable
  maxEjectionPercent := show 100 < Nat.pow 2 63 by decide
  minHealthPercent := show 50 < Nat.pow 2 63 by decide

section Objects

theorem areTexts_edgeSelector : AreTexts edgeSelector := by
  have hvalue : Unbroken "ingressgateway" := by decide
  exact areTexts_singleton (isKey_of_fieldName (show isFieldName "istio" = true by decide))
    hvalue.isPortable

namespace Passed
variable (h : s.Passed)
include h

theorem printable_virtualService {gateways : List String} (hg : ∀ x ∈ gateways, IsPortable x) :
    Printable (VirtualServiceSpec.mk [s.host] gateways s.rules).toValue :=
  VirtualServiceSpec.printable (List.forall_mem_singleton.2 h.plain_host.isPortable) hg
    h.portable_rules

theorem printable_gateway : Printable s.gateway.spec.toValue := by
  have hname : Unbroken "http" := by decide
  have hprotocol : Unbroken "HTTP" := by decide
  refine GatewaySpec.printable areTexts_edgeSelector (List.forall_mem_singleton.2 ?_)
  exact GatewayServer.printable (List.forall_mem_singleton.2 h.plain_host.isPortable)
    hname.isPortable hprotocol.isPortable (show 80 < Nat.pow 2 63 by decide)

theorem printable_destinationRule (hb : s.Bounded) : Printable s.destinationRule.spec.toValue := by
  have hsession : Unbroken Header.session := by decide
  refine DestinationRuleSpec.printable h.plain_host.isPortable h.printable_subsets ?_ ?_
  · intro b hmem
    change b ∈ ite _ _ _ at hmem
    split at hmem
    · cases hmem
      exact LoadBalancer.printable hsession.isPortable
    · cases hmem
  · intro p hmem
    change p ∈ ite _ _ _ at hmem
    split at hmem
    · obtain ⟨o, ho, rfl⟩ := Option.map_eq_some_iff.1 hmem
      exact portable_ejectionPolicy (hb o ho)
    · cases hmem

theorem printable_edgeFilter {i : ScriptInput} (hi : s.scriptInput? = some i) (edgeSpace : String) :
    Printable (s.edgeFilter edgeSpace i).spec.toValue := by
  have hcontext : Unbroken scriptPlace.context := by decide
  have hfilter : Unbroken scriptPlace.filter.name := by decide
  have hrouter : Unbroken "envoy.filters.http.router" := by decide
  have hkind : Unbroken "HTTP_FILTER" := by decide
  have hoperation : Unbroken "INSERT_BEFORE" := by decide
  have hplace : Printable scriptPlace.toValue :=
    PatchPlace.printable hcontext.isPortable hfilter.isPortable
      (by simpa [scriptPlace] using hrouter.isPortable)
  refine EnvoyFilterSpec.printable areTexts_edgeSelector (List.forall_mem_singleton.2 ?_)
  exact ConfigPatch.printable hkind.isPortable hplace hoperation.isPortable
    (LuaFilter.printable_inline (h.checked hi).isPortable_source)

end Passed

theorem Passed.isDocument_objects (h : s.Passed) (hb : s.Bounded) {o : Owner} (ho : o.Portable)
    {edgeSpace : String} (he : IsPortable edgeSpace) :
    ∀ b ∈ ((s.bundle edgeSpace).markedFor o none).objects, IsDocument b.object.toValue := by
  have hname : Plain s.name := plain_of_label h.name
  have hspace : Plain s.space := plain_of_label h.space
  have hgateway : Plain s.gatewayName := hname.append (by decide)
  have hingress : Plain s.ingressName := hname.append (by decide)
  have hfilter : Plain s.filterName := ((hspace.append (by decide)).append hname).append (by decide)
  have hdocument {σ : Type} {k : MeshKind} {spec : σ → Value} {name space : String} {x : σ}
      (hk : Unbroken k.apiVersion ∧ Unbroken k.kind) (hn : IsPortable name) (hs : IsPortable space)
      (hx : Printable (spec x)) :
      IsDocument (({ MeshObject.new k { name, space } x with
        metadata := Bundle.own o none { name, space } } : MeshObject σ).toObject spec).toValue :=
    MeshObject.isDocument hk.1.isPortable hk.2.isPortable (ho.own hn hs) hx
  simp only [Bundle.objects, List.forall_mem_append, List.forall_mem_cons, List.not_mem_nil,
    false_imp_iff, implies_true, and_true]
  refine ⟨⟨?rules, ?gateway, ?ingress, ?destination⟩, ?filter⟩
  case rules =>
    exact hdocument (by decide) hname.isPortable hspace.isPortable
      (h.printable_virtualService (by simp))
  case gateway =>
    exact hdocument (by decide) hgateway.isPortable hspace.isPortable h.printable_gateway
  case ingress =>
    exact hdocument (by decide) hingress.isPortable hspace.isPortable
      (h.printable_virtualService (List.forall_mem_singleton.2 hgateway.isPortable))
  case destination =>
    exact hdocument (by decide) hname.isPortable hspace.isPortable (h.printable_destinationRule hb)
  case filter =>
    intro b hmem
    obtain ⟨f, hf, rfl⟩ := Option.map_eq_some_iff.1 (Option.mem_toList.1 hmem)
    obtain ⟨g, hg, rfl⟩ := Option.map_eq_some_iff.1 hf
    obtain ⟨i, hi, rfl⟩ := Option.map_eq_some_iff.1 hg
    exact hdocument (by decide) hfilter.isPortable he (h.printable_edgeFilter hi edgeSpace)

end Objects

end Service

end MeshRollout

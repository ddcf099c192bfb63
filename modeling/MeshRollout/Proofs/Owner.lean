import MeshRollout.Cluster.MemoryStore
import MeshRollout.Name
import MeshRollout.Owner
import MeshRollout.Proofs.Dict
import MeshRollout.Proofs.Text.Split

/-!
The text that selects the objects of a route selects exactly the objects that carry its mark, since
neither commas nor equals signs stand in names of the domain name system.
-/
set_option autoImplicit false

namespace MeshRollout

def isDnsChar (c : Char) : Bool :=
  isLabelChar c || c = '.'

def IsDnsName (s : String) : Prop :=
  ∀ c ∈ s.toList, isDnsChar c = true

instance (s : String) : Decidable (IsDnsName s) :=
  decidable_of_iff (s.toList.all isDnsChar = true) List.all_eq_true

theorem toNat_of_isDnsChar {c : Char} (h : isDnsChar c = true) : 45 ≤ c.toNat ∧ c.toNat ≤ 122 := by
  have val_le (a b : Char) : a ≤ b ↔ a.toNat ≤ b.toNat := by
    rw [Char.le_def, UInt32.le_iff_toNat_le]; rfl
  simp only [isDnsChar, isLabelChar, isLowerOrDigit, Bool.or_eq_true, Bool.and_eq_true,
    decide_eq_true_eq, val_le] at h
  have ha : 'a'.toNat = 97 := rfl
  have hz : 'z'.toNat = 122 := rfl
  have h0 : '0'.toNat = 48 := rfl
  have h9 : '9'.toNat = 57 := rfl
  rcases h with ((h | h) | rfl) | rfl
  · omega
  · omega
  · decide
  · decide

theorem not_blank_of_isDnsChar {c : Char} (h : isDnsChar c = true) : Text.isBlank c = false := by
  obtain ⟨hl, hu⟩ := toNat_of_isDnsChar h
  simp only [Text.isBlank, Bool.or_eq_false_iff, Bool.and_eq_false_iff, decide_eq_false_iff_not,
    beq_eq_false_iff_ne, ne_eq]
  omega

namespace IsDnsName

variable {s : String} (h : IsDnsName s)
include h

theorem not_mem {c : Char} (hc : isDnsChar c = false) : c ∉ s.toList := by
  intro hm
  rw [h c hm] at hc
  cases hc

theorem trim_eq : String.ofList (Text.trim s.toList) = s := by
  rw [Text.trim_of_not_blank fun c hc => not_blank_of_isDnsChar (h c hc), String.ofList_toList]

end IsDnsName

namespace Owner

theorem readSelector_selector {o : Owner} (hname : IsDnsName o.name) (hspace : IsDnsName o.space) :
    MemoryStore.readSelector o.selector = [(nameLabel, o.name), (spaceLabel, o.space)] := by
  have hc : ",".toList = [','] := by decide
  have he : "=".toList = ['='] := by decide
  have hsel : o.selector.toList
      = (nameLabel.toList ++ '=' :: o.name.toList) ++ ',' ::
          (spaceLabel.toList ++ '=' :: o.space.toList) := by
    simp [selector, String.toList_append, hc, he]
  have hn : ',' ∉ nameLabel.toList ++ '=' :: o.name.toList := by
    have hl : ',' ∉ nameLabel.toList := by decide
    simp [hl, hname.not_mem (show isDnsChar ',' = false by decide)]
  have hs : ',' ∉ spaceLabel.toList ++ '=' :: o.space.toList := by
    have hl : ',' ∉ spaceLabel.toList := by decide
    simp [hl, hspace.not_mem (show isDnsChar ',' = false by decide)]
  rw [MemoryStore.readSelector, hsel, Text.splitOn_append hn, Text.splitOn_of_not_mem hs]
  have hen : '=' ∉ nameLabel.toList := by decide
  have hes : '=' ∉ spaceLabel.toList := by decide
  have htn : String.ofList (Text.trim nameLabel.toList) = nameLabel := by decide
  have hts : String.ofList (Text.trim spaceLabel.toList) = spaceLabel := by decide
  simp [Text.splitOnce_append hen, Text.splitOnce_append hes, htn, hts, hname.trim_eq,
    hspace.trim_eq]

theorem selected_selector {o : Owner} (hname : IsDnsName o.name) (hspace : IsDnsName o.space)
    (x : Object) : MemoryStore.selected (some o.selector) x = o.owns x.labels := by
  simp [MemoryStore.selected, readSelector_selector hname hspace, owns]

theorem labels_eq (o : Owner) :
    o.labels = [(managerLabel, managerName), (nameLabel, o.name), (spaceLabel, o.space)] := by
  have hspace : ¬ spaceLabel = nameLabel ∧ ¬ spaceLabel < nameLabel := by decide
  have hmanager : ¬ managerLabel = nameLabel ∧ managerLabel < nameLabel := by decide
  simp only [labels, Dict.ofList, Dict.putAll, List.foldl_cons, List.foldl_nil, Dict.put, hspace,
    hmanager, ↓reduceIte]

/-- Labels that were marked carry the mark, whatever they were before. -/
theorem owns_putAll (o : Owner) (labels : Dict String) :
    o.owns (labels.putAll o.labels) = true := by
  simp [owns, Dict.get_putAll, labels_eq, List.lookup_cons, nameLabel, spaceLabel, managerLabel]

/-- Labels carry the mark of one route at most. -/
theorem same_of_owns {o o' : Owner} {labels : Dict String} (h : o.owns labels = true)
    (h' : o'.owns labels = true) : (o.space, o.name) = (o'.space, o'.name) := by
  simp only [owns, Bool.and_eq_true, beq_iff_eq] at h h'
  have hname : o.name = o'.name := Option.some.inj (h.1.symm.trans h'.1)
  have hspace : o.space = o'.space := Option.some.inj (h.2.symm.trans h'.2)
  rw [hname, hspace]

end Owner

end MeshRollout

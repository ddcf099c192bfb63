/-!
Dictionaries from text keys, kept in the order of their keys. Keys compare by code point, which is
also the order of their bytes.
-/
set_option autoImplicit false

namespace MeshRollout

abbrev Dict (α : Type) := List (String × α)

namespace Dict
variable {α : Type}

def get (k : String) : Dict α → Option α
  | [] => none
  | (k', v) :: r => if k = k' then some v else get k r

/-- Adds an entry in its place, or replaces the value of an entry that is there. -/
def put (k : String) (v : α) : Dict α → Dict α
  | [] => [(k, v)]
  | (k', v') :: r =>
    if k = k' then (k, v) :: r
    else if k < k' then (k, v) :: (k', v') :: r
    else (k', v') :: put k v r

def drop (k : String) : Dict α → Dict α
  | [] => []
  | (k', v) :: r => if k = k' then r else (k', v) :: drop k r

/-- Enters every pair in turn, so that a later one wins. -/
def putAll (d : Dict α) (pairs : List (String × α)) : Dict α :=
  pairs.foldl (fun d p => put p.1 p.2 d) d

def ofList (pairs : List (String × α)) : Dict α :=
  putAll [] pairs

def keys (d : Dict α) : List String :=
  d.map Prod.fst

def Sorted (d : Dict α) : Prop :=
  d.Pairwise fun a b => a.1 < b.1

@[simp] theorem get_nil (k : String) : get k ([] : Dict α) = none := rfl

@[simp] theorem get_put_self (k : String) (v : α) (d : Dict α) : get k (put k v d) = some v := by
  induction d with
  | nil => simp [put, get]
  | cons p r ih =>
    obtain ⟨k', v'⟩ := p
    by_cases h : k = k'
    · simp [put, get, h]
    · by_cases hl : k < k'
      · simp [put, get, h, hl]
      · simp [put, get, h, hl, ih]

@[simp] theorem get_put_of_ne {k k' : String} (h : k ≠ k') (v : α) (d : Dict α) :
    get k (put k' v d) = get k d := by
  induction d with
  | nil => simp [put, get, h]
  | cons p r ih =>
    obtain ⟨k'', v''⟩ := p
    by_cases h' : k' = k''
    · subst h'
      simp [put, get, h]
    · by_cases hl : k' < k''
      · simp [put, get, h, h', hl]
      · simp [put, get, h', hl, ih]

end Dict

end MeshRollout

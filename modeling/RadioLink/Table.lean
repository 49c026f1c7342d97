/-!
# Tables

What is kept under names or addresses, in the order of the keys: the radios of an air, the devices a
node knows, its sessions. `get?` is all that the rest of the library looks at; the order of
`entries` matters only where a table is shown.
-/

namespace RadioLink

/-- Values under keys. -/
structure Table (κ α : Type) where
  entries : List (κ × α) := []

namespace Table

variable {κ α : Type} [DecidableEq κ]

instance : EmptyCollection (Table κ α) := ⟨⟨[]⟩⟩

/-- The value under `k`. -/
def get? (t : Table κ α) (k : κ) : Option α := (t.entries.find? fun e => e.1 = k).map (·.2)

/-- Takes out what is under `k`. -/
def erase (t : Table κ α) (k : κ) : Table κ α := ⟨t.entries.filter fun e => e.1 ≠ k⟩

/-- Takes out the values with the property `p`. -/
def discard (t : Table κ α) (p : α → Bool) : Table κ α := ⟨t.entries.filter fun e => !p e.2⟩

/-- The number of entries. -/
def size (t : Table κ α) : Nat := t.entries.length

/-- The values in the order of their keys. -/
def values (t : Table κ α) : List α := t.entries.map (·.2)

@[simp] theorem get?_empty (k : κ) : (∅ : Table κ α).get? k = none := rfl

@[simp] theorem get?_erase (t : Table κ α) (k k' : κ) :
    (t.erase k).get? k' = if k = k' then none else t.get? k' := by
  simp only [get?, erase]
  induction t.entries with
  | nil => simp
  | cons e rest ih =>
    by_cases h : e.1 = k
    · simp only [List.filter_cons, List.find?_cons]
      by_cases h' : k = k' <;> simp_all
    · simp only [List.filter_cons, List.find?_cons]
      by_cases h' : e.1 = k' <;> by_cases h'' : k = k' <;> simp_all

variable [LT κ] [DecidableLT κ]

/-- Puts `(k, a)` at its place among entries in order. -/
def insertEntry (k : κ) (a : α) : List (κ × α) → List (κ × α)
  | [] => [(k, a)]
  | e :: rest =>
    if k = e.1 then (k, a) :: rest
    else if k < e.1 then (k, a) :: e :: rest
    else e :: insertEntry k a rest

/-- Puts `a` under `k`, in place of what is there. -/
def insert (t : Table κ α) (k : κ) (a : α) : Table κ α := ⟨insertEntry k a t.entries⟩

theorem find?_insertEntry (k k' : κ) (a : α) (l : List (κ × α)) :
    ((insertEntry k a l).find? fun e => e.1 = k').map (·.2)
      = if k = k' then some a else (l.find? fun e => e.1 = k').map (·.2) := by
  induction l with
  | nil => by_cases h : k = k' <;> simp [insertEntry, h]
  | cons e rest ih =>
    simp only [insertEntry]
    split
    · next he => by_cases h : k = k' <;> simp_all
    · next he =>
      split
      · by_cases h : k = k' <;> simp_all
      · simp only [List.find?_cons]
        by_cases h : k = k'
        · have hk : ¬ e.1 = k' := fun h' => he (h.trans h'.symm)
          simpa [hk] using ih
        · by_cases h' : e.1 = k' <;> simp_all

@[simp] theorem get?_insert (t : Table κ α) (k k' : κ) (a : α) :
    (t.insert k a).get? k' = if k = k' then some a else t.get? k' :=
  find?_insertEntry k k' a t.entries

end Table
end RadioLink

/-!
# Dictionaries

Entries are kept in the order of their keys, so that listing them gives the
same order every time.
-/

namespace HybridShell

/-- Bindings of texts to values, in the order of the texts. -/
structure Dictionary (α : Type) where
  entries : List (String × α)

namespace Dictionary

variable {α : Type}

instance : EmptyCollection (Dictionary α) := ⟨⟨[]⟩⟩

instance : Inhabited (Dictionary α) := ⟨∅⟩

/-- Put an entry at its place among ordered entries, replacing one of the same key. -/
def insertEntry (key : String) (value : α) : List (String × α) → List (String × α)
  | [] => [(key, value)]
  | entry :: rest =>
    if entry.1 = key then (key, value) :: rest
    else if key < entry.1 then (key, value) :: entry :: rest
    else entry :: insertEntry key value rest

def get? (dictionary : Dictionary α) (key : String) : Option α :=
  (dictionary.entries.find? (·.1 = key)).map Prod.snd

def contains (dictionary : Dictionary α) (key : String) : Bool :=
  (dictionary.get? key).isSome

def insert (dictionary : Dictionary α) (key : String) (value : α) : Dictionary α :=
  ⟨insertEntry key value dictionary.entries⟩

def erase (dictionary : Dictionary α) (key : String) : Dictionary α :=
  ⟨dictionary.entries.filter (·.1 ≠ key)⟩

def keys (dictionary : Dictionary α) : List String :=
  dictionary.entries.map Prod.fst

/-- The dictionary of some bindings; later ones win. -/
def ofList (bindings : List (String × α)) : Dictionary α :=
  bindings.foldl (fun dictionary binding => dictionary.insert binding.1 binding.2) ∅

@[simp] theorem get?_empty (key : String) : (∅ : Dictionary α).get? key = none := rfl

@[simp] theorem get?_insert_self (dictionary : Dictionary α) (key : String) (value : α) :
    (dictionary.insert key value).get? key = some value := by
  obtain ⟨entries⟩ := dictionary
  simp only [get?, insert]
  induction entries with
  | nil => simp [insertEntry]
  | cons entry rest ih =>
    unfold insertEntry
    split
    · simp
    · split
      · simp
      · next different _ => simpa [different] using ih

theorem get?_insert_of_ne (dictionary : Dictionary α) {key other : String} (value : α)
    (different : other ≠ key) :
    (dictionary.insert key value).get? other = dictionary.get? other := by
  obtain ⟨entries⟩ := dictionary
  have unequal : ¬ key = other := fun equal => different equal.symm
  simp only [get?, insert]
  induction entries with
  | nil => simp [insertEntry, unequal]
  | cons entry rest ih =>
    unfold insertEntry
    split
    · next equal => subst equal; simp [unequal]
    · split
      · simp [unequal]
      · by_cases found : entry.1 = other
        · simp [found]
        · simpa [found] using ih

end Dictionary

end HybridShell

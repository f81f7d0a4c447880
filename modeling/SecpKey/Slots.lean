/-
  SecpKey.Slots

  Values under names, in the order in which the names were first used.  `get?_put` says
  what is read after a value was put.
-/

namespace SecpKey

/-- Values under names; the first entry of a name counts. -/
structure Slots (α : Type) where
  entries : List (String × α)
  deriving DecidableEq, Repr

namespace Slots

variable {α : Type}

def empty : Slots α := ⟨[]⟩

/-- The value of the first entry of a name. -/
def getEntry (name : String) : List (String × α) → Option α
  | [] => none
  | (n, v) :: rest => if n = name then some v else getEntry name rest

/-- Entries with the value of `name` replaced, or added at the end. -/
def putEntry (name : String) (value : α) : List (String × α) → List (String × α)
  | [] => [(name, value)]
  | (n, v) :: rest => if n = name then (n, value) :: rest else (n, v) :: putEntry name value rest

/-- The value under a name. -/
def get? (slots : Slots α) (name : String) : Option α := getEntry name slots.entries

/-- Put a value under a name. -/
def put (slots : Slots α) (name : String) (value : α) : Slots α :=
  ⟨putEntry name value slots.entries⟩

theorem getEntry_putEntry (name other : String) (value : α) (entries : List (String × α)) :
    getEntry other (putEntry name value entries)
      = if name = other then some value else getEntry other entries := by
  induction entries with
  | nil => simp [putEntry, getEntry]
  | cons e rest ih =>
    obtain ⟨n, v⟩ := e
    by_cases hn : n = name
    · subst hn
      simp only [putEntry, getEntry, if_true]
      split <;> rfl
    · simp only [putEntry, getEntry, if_neg hn, ih]
      by_cases ho : n = other
      · have : ¬ name = other := fun h => hn (ho.trans h.symm)
        simp [ho, this]
      · simp [ho]

theorem get?_put (slots : Slots α) (name other : String) (value : α) :
    (slots.put name value).get? other = if name = other then some value else slots.get? other :=
  getEntry_putEntry name other value slots.entries

end Slots

end SecpKey

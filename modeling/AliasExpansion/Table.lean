-- SUMMARY: Finite maps as association lists that keep insertion order.

/-!
# Tables

A table maps keys to values and remembers the order in which keys were first inserted. Inserting
a key again replaces its value in place.
-/

namespace AliasExpansion

structure Table (κ α : Type) where
  entries : List (κ × α)

namespace Table

variable {κ α : Type} [DecidableEq κ]

def empty : Table κ α where
  entries := []

def size (table : Table κ α) : Nat :=
  table.entries.length

def find? (table : Table κ α) (key : κ) : Option α :=
  (table.entries.find? fun entry => entry.1 = key).map Prod.snd

def contains (table : Table κ α) (key : κ) : Bool :=
  (table.find? key).isSome

def insertInto (key : κ) (value : α) : List (κ × α) → List (κ × α)
  | [] => [(key, value)]
  | entry :: rest =>
    if entry.1 = key then (key, value) :: rest else entry :: insertInto key value rest

def insert (table : Table κ α) (key : κ) (value : α) : Table κ α where
  entries := insertInto key value table.entries

def ofList (entries : List (κ × α)) : Table κ α :=
  entries.foldl (fun table entry => table.insert entry.1 entry.2) empty

-- ---------------------------------------------------------------------------
-- Lookup after insertion
-- ---------------------------------------------------------------------------

@[simp] theorem find?_empty (key : κ) : (empty : Table κ α).find? key = none := rfl

theorem find?_insert_self (table : Table κ α) (key : κ) (value : α) :
    (table.insert key value).find? key = some value := by
  obtain ⟨entries⟩ := table
  simp only [find?, insert]
  induction entries with
  | nil => simp [insertInto]
  | cons entry rest ih =>
    by_cases h : entry.1 = key
    · simp [insertInto, h]
    · simpa [insertInto, h] using ih

theorem find?_insert_of_ne (table : Table κ α) {key other : κ} (value : α) (h : key ≠ other) :
    (table.insert key value).find? other = table.find? other := by
  obtain ⟨entries⟩ := table
  simp only [find?, insert]
  induction entries with
  | nil => simp [insertInto, h]
  | cons entry rest ih =>
    by_cases hk : entry.1 = key
    · subst hk
      simp [insertInto, h]
    · by_cases ho : entry.1 = other
      · subst ho
        simp [insertInto, hk]
      · simpa [insertInto, hk, ho] using ih

end Table

end AliasExpansion

/-!
# Tables

Finite maps that keep their keys in the order in which they first came.  A key has one value:
putting another in its place leaves the order alone.

* `Table.get?_insert`, `Table.get?_erase`: a write changes what is found under its key, and nothing
  else;
* `Table.nodup_insert`, `Table.nodup_erase`: no key occurs twice.
-/

namespace Mailshot

/-- Keys with their values. -/
structure Table (κ α : Type) where
  entries : List (κ × α) := []
  deriving Repr, Inhabited

namespace Table

variable {κ α : Type} [DecidableEq κ]

/-- The table without keys. -/
def empty : Table κ α := ⟨[]⟩

/-- The value of a key among entries. -/
def find (key : κ) : List (κ × α) → Option α
  | [] => none
  | (k, v) :: rest => if k = key then some v else find key rest

/-- Entries with a value put in its key's place, at the end if the key is new. -/
def put (key : κ) (value : α) : List (κ × α) → List (κ × α)
  | [] => [(key, value)]
  | (k, v) :: rest => if k = key then (key, value) :: rest else (k, v) :: put key value rest

/-- Entries without a key. -/
def remove (key : κ) (entries : List (κ × α)) : List (κ × α) :=
  entries.filter fun entry => entry.1 ≠ key

/-- The value of a key. -/
def get? (t : Table κ α) (key : κ) : Option α := find key t.entries

/-- Is there a value for the key? -/
def contains (t : Table κ α) (key : κ) : Bool := (t.get? key).isSome

/-- Gives a key its value. -/
def insert (t : Table κ α) (key : κ) (value : α) : Table κ α := ⟨put key value t.entries⟩

/-- Takes a key away. -/
def erase (t : Table κ α) (key : κ) : Table κ α := ⟨remove key t.entries⟩

/-- The keys in order. -/
def keys (t : Table κ α) : List κ := t.entries.map (·.1)

/-- The values in the order of their keys. -/
def values (t : Table κ α) : List α := t.entries.map (·.2)

theorem find_put (key other : κ) (value : α) (entries : List (κ × α)) :
    find other (put key value entries) =
      if key = other then some value else find other entries := by
  induction entries with
  | nil => simp [put, find]
  | cons entry rest ih =>
    obtain ⟨k, v⟩ := entry
    by_cases hk : k = key
    · subst hk
      by_cases ho : k = other <;> simp [put, find, ho]
    · by_cases ho : k = other
      · subst ho
        have : ¬ key = k := fun h => hk h.symm
        simp [put, find, hk, this]
      · simp [put, find, hk, ho, ih]

theorem find_remove (key other : κ) (entries : List (κ × α)) :
    find other (remove key entries) = if key = other then none else find other entries := by
  induction entries with
  | nil => simp [remove, find]
  | cons entry rest ih =>
    obtain ⟨k, v⟩ := entry
    by_cases hk : k = key
    · subst hk
      have skip : remove k ((k, v) :: rest) = remove k rest := by simp [remove]
      rw [skip, ih]
      by_cases ho : k = other <;> simp [find, ho]
    · have keep : remove key ((k, v) :: rest) = (k, v) :: remove key rest := by simp [remove, hk]
      by_cases ho : k = other
      · subst ho
        have : ¬ key = k := fun h => hk h.symm
        simp [keep, find, this]
      · simp [keep, find, ho, ih]

/-- A write changes what is found under its key, and nothing else. -/
theorem get?_insert (t : Table κ α) (key other : κ) (value : α) :
    (t.insert key value).get? other = if key = other then some value else t.get? other :=
  find_put key other value t.entries

/-- What was taken away is not found, and nothing else changes. -/
theorem get?_erase (t : Table κ α) (key other : κ) :
    (t.erase key).get? other = if key = other then none else t.get? other :=
  find_remove key other t.entries

theorem mem_keys_put {key other : κ} {value : α} {entries : List (κ × α)} :
    other ∈ (put key value entries).map (·.1) ↔ other = key ∨ other ∈ entries.map (·.1) := by
  induction entries with
  | nil => simp [put]
  | cons entry rest ih =>
    obtain ⟨k, v⟩ := entry
    by_cases hk : k = key
    · subst hk
      simp [put]
    · simp only [put, hk, if_false, List.map_cons, List.mem_cons, ih]
      grind

/-- No key occurs twice after a write, if none did before. -/
theorem nodup_insert {t : Table κ α} (h : t.keys.Nodup) (key : κ) (value : α) :
    (t.insert key value).keys.Nodup := by
  suffices ∀ entries : List (κ × α), (entries.map (·.1)).Nodup →
      ((put key value entries).map (·.1)).Nodup from this t.entries h
  intro entries
  induction entries with
  | nil => simp [put]
  | cons entry rest ih =>
    obtain ⟨k, v⟩ := entry
    intro hnodup
    obtain ⟨hfresh, hrest⟩ := List.nodup_cons.mp hnodup
    by_cases hk : k = key
    · subst hk
      simpa [put] using ⟨by simpa using hfresh, hrest⟩
    · simp only [put, hk, if_false, List.map_cons, List.nodup_cons]
      refine ⟨fun hmem => ?_, ih hrest⟩
      rcases mem_keys_put.mp hmem with h' | h'
      · exact hk h'
      · exact hfresh h'

/-- No key occurs twice after one was taken away, if none did before. -/
theorem nodup_erase {t : Table κ α} (h : t.keys.Nodup) (key : κ) :
    (t.erase key).keys.Nodup :=
  h.sublist (List.filter_sublist.map _)

end Table

end Mailshot

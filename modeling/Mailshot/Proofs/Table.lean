import Mailshot.Table

/-!
# What is in a table

* `Table.find_of_mem`, `Table.mem_of_find`: what is under a key is found there, and what is found is
  there;
* `Table.mem_of_mem_put`: after a write there is nothing new but what was written.
-/

namespace Mailshot.Table

variable {κ α : Type} [DecidableEq κ] {key : κ} {value : α} {entries : List (κ × α)}

/-- What is under a key is found there, if no key occurs twice. -/
theorem find_of_mem (hkeys : (entries.map (·.1)).Nodup) (h : (key, value) ∈ entries) :
    find key entries = some value := by
  induction entries with
  | nil => cases h
  | cons entry rest ih =>
      obtain ⟨k, v⟩ := entry
      obtain ⟨hfresh, hrest⟩ := List.nodup_cons.mp hkeys
      rcases List.mem_cons.mp h with heq | h
      · obtain ⟨rfl, rfl⟩ := Prod.mk.inj heq
        simp [find]
      · have hne : k ≠ key := fun hk => hfresh (List.mem_map.mpr ⟨_, h, hk.symm⟩)
        rw [find, if_neg hne]
        exact ih hrest h

theorem mem_of_find (h : find key entries = some value) : (key, value) ∈ entries := by
  induction entries with
  | nil => cases h
  | cons entry rest ih =>
      obtain ⟨k, v⟩ := entry
      by_cases hk : k = key
      · rw [find, if_pos hk] at h
        obtain rfl := Option.some.inj h
        exact hk ▸ List.mem_cons_self
      · rw [find, if_neg hk] at h
        exact List.mem_cons_of_mem _ (ih h)

theorem get?_of_mem {t : Table κ α} (hkeys : t.keys.Nodup) (h : (key, value) ∈ t.entries) :
    t.get? key = some value :=
  find_of_mem hkeys h

/-- What is found under a key is among the values. -/
theorem mem_values_of_get? {t : Table κ α} (h : t.get? key = some value) : value ∈ t.values :=
  List.mem_map.mpr ⟨_, mem_of_find h, rfl⟩

theorem mem_of_mem_put {entry : κ × α} (h : entry ∈ put key value entries) :
    entry = (key, value) ∨ entry ∈ entries := by
  induction entries with
  | nil => exact .inl (List.mem_singleton.mp h)
  | cons first rest ih =>
      obtain ⟨k, v⟩ := first
      rw [put] at h
      split at h
      · rcases List.mem_cons.mp h with rfl | h
        · exact .inl rfl
        · exact .inr (List.mem_cons_of_mem _ h)
      · rcases List.mem_cons.mp h with rfl | h
        · exact .inr List.mem_cons_self
        · exact (ih h).imp_right (List.mem_cons_of_mem _)

end Mailshot.Table

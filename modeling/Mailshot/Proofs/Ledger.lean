import Mailshot.Ledger

/-!
# What the ledger tells

When an event is entered shows in the time of change only.  All else of the rows that a campaign
goes through is settled by its row at the start and by the events for it, in order: events for other
campaigns in between leave no trace.

* `Campaign.timeless`: a row with the time of change left out;
* `Campaign.trail`: the rows that events make of a campaign;
* `Ledger.Follows`: the ledger tells the trail of a campaign;
* `Ledger.Follows.enter`: it does so after any event, for whichever campaign;
* `Ledger.Within`: the ledger knows of some campaigns only.
-/

namespace Mailshot

namespace Campaign

/-- The row with the time of its creation as the time of change. -/
def timeless (c : Campaign) : Campaign := { c with updatedAt := c.createdAt }

/-- The row after events for the campaign. -/
def after (c : Campaign) (events : List Event) : Campaign :=
  events.foldl (fun c e => c.merge e.delta) c

/-- The rows that events for the campaign lead through. -/
def trail : Campaign → List Event → List Campaign
  | _, [] => []
  | c, e :: rest => c.merge e.delta :: trail (c.merge e.delta) rest

/-- The rows that events for the campaign lead through when the clock stands at `now`. -/
def stamped (now : Instant) : Campaign → List Event → List Campaign
  | _, [] => []
  | c, e :: rest => (c.apply now e.delta).1 :: stamped now (c.apply now e.delta).1 rest

theorem stamped_snoc (now : Instant) (c : Campaign) (es : List Event) (e : Event) :
    c.stamped now (es ++ [e]) =
      c.stamped now es ++ [(((c.stamped now es).getLast?.getD c).apply now e.delta).1] := by
  induction es generalizing c with
  | nil => rfl
  | cons d rest ih =>
      show _ :: stamped now _ (rest ++ [e]) = _
      rw [ih, stamped, List.getLast?_cons, Option.getD_some]
      rfl

@[simp] theorem merge_id (c : Campaign) (d : Delta) : (c.merge d).id = c.id := rfl

@[simp] theorem timeless_id (c : Campaign) : c.timeless.id = c.id := rfl

theorem timeless_merge (c : Campaign) (d : Delta) :
    (c.merge d).timeless = c.timeless.merge d := rfl

/-- Apart from the time of change, a delta that is applied is merged. -/
theorem timeless_apply (now : Instant) (c : Campaign) (d : Delta) :
    (c.apply now d).1.timeless = c.timeless.merge d := by
  by_cases h : c.merge d = c
  · simp [apply, h, ← timeless_merge]
  · rw [apply, if_neg h]
    rfl

@[simp] theorem apply_id (now : Instant) (c : Campaign) (d : Delta) :
    (c.apply now d).1.id = c.id := by
  by_cases h : c.merge d = c <;> simp [apply, h]

@[simp] theorem after_append (c : Campaign) (es fs : List Event) :
    c.after (es ++ fs) = (c.after es).after fs := by
  simp [after]

theorem trail_append (c : Campaign) (es fs : List Event) :
    c.trail (es ++ fs) = c.trail es ++ (c.after es).trail fs := by
  induction es generalizing c with
  | nil => rfl
  | cons e rest ih =>
      show _ :: trail _ (rest ++ fs) = _
      rw [ih]
      rfl

/-- Apart from the times of change, the rows are the trail. -/
theorem timeless_stamped (now : Instant) (c : Campaign) (es : List Event) :
    (c.stamped now es).map (·.timeless) = c.timeless.trail es := by
  induction es generalizing c with
  | nil => rfl
  | cons e rest ih =>
      rw [stamped, List.map_cons, ih, timeless_apply]
      rfl

/-- The trail ends where the events lead. -/
theorem getLast?_trail (c : Campaign) (es : List Event) :
    (c.trail es).getLast?.getD c = c.after es := by
  induction es generalizing c with
  | nil => rfl
  | cons e rest ih =>
      rw [trail, List.getLast?_cons]
      exact ih (c.merge e.delta)

end Campaign

namespace Ledger

/-- The rows that came of what was entered, in order. -/
def rowsEntered (l : Ledger) : List Campaign :=
  l.entries.reverse.filterMap (·.row)

/-- The row that is found is the row of the campaign asked for. -/
theorem id_of_row? {l : Ledger} {id : Uuid} {c : Campaign} (h : l.row? id = some c) : c.id = id := by
  simpa using List.find?_some h

theorem entry_of_none {l : Ledger} {e : Event} (h : l.row? e.campaign = none) (now : Instant) :
    l.entry now e = ⟨e, none, false⟩ := by
  simp [entry, h]

theorem entry_of_some {l : Ledger} {e : Event} {c : Campaign} (h : l.row? e.campaign = some c)
    (now : Instant) :
    l.entry now e = ⟨e, some (c.apply now e.delta).1, (c.apply now e.delta).2⟩ := by
  simp [entry, h]

/-- The row that comes of an event is one of its campaign. -/
theorem id_of_entry {l : Ledger} {now : Instant} {e : Event} {row : Campaign}
    (h : (l.entry now e).row = some row) : row.id = e.campaign := by
  cases hrow : l.row? e.campaign with
  | none => simp [entry_of_none hrow] at h
  | some c =>
      simp only [entry_of_some hrow, Option.some.injEq] at h
      rw [← h, Campaign.apply_id, id_of_row? hrow]

@[simp] theorem event_entry (l : Ledger) (now : Instant) (e : Event) :
    (l.entry now e).event = e := by
  cases hrow : l.row? e.campaign with
  | none => rw [entry_of_none hrow]
  | some c => rw [entry_of_some hrow]

@[simp] theorem events_enter (l : Ledger) (now : Instant) (e : Event) :
    (l.enter now e).events = l.events ++ [e] := by
  simp [enter, events]

@[simp] theorem rowsEntered_enter (l : Ledger) (now : Instant) (e : Event) :
    (l.enter now e).rowsEntered = l.rowsEntered ++ (l.entry now e).row.toList := by
  cases hrow : (l.entry now e).row <;> simp [enter, rowsEntered, hrow]

theorem states_enter (l : Ledger) (now : Instant) (e : Event) (id : Uuid) :
    (l.enter now e).states id =
      l.states id ++ if e.campaign = id then (l.entry now e).row.toList else [] := by
  by_cases hid : e.campaign = id <;> cases hrow : (l.entry now e).row <;>
    simp [enter, states, List.filter_append, hid, hrow]

/-- A row that is put in its place is found there, and all others are as before. -/
theorem find?_replace (row : Campaign) (rows : List Campaign) (id : Uuid) :
    (replace row rows).find? (·.id = id) =
      if row.id = id then (rows.find? (·.id = id)).map fun _ => row
      else rows.find? (·.id = id) := by
  induction rows with
  | nil => simp [replace]
  | cons c rest ih =>
      rw [replace, List.map_cons, List.find?_cons, List.find?_cons, ← replace, ih]
      by_cases hc : c.id = row.id
      · by_cases hid : row.id = id <;> simp [hc, hid]
      · by_cases hid : c.id = id
        · have hrow : row.id ≠ id := fun h => hc (hid.trans h.symm)
          simp [hid, hrow, Ne.symm hrow]
        · simp [hc, hid]

/-- An event changes the row of its own campaign only. -/
theorem row?_enter (l : Ledger) (now : Instant) (e : Event) (id : Uuid) :
    (l.enter now e).row? id = if e.campaign = id then (l.entry now e).row else l.row? id := by
  cases hrow : l.row? e.campaign with
  | none =>
      have hsame : (l.enter now e).row? id = l.row? id := by
        simp [enter, entry_of_none hrow, row?]
      rw [hsame, entry_of_none hrow]
      split
      · next hid => rw [← hid, hrow]
      · rfl
  | some c =>
      have hc : (c.apply now e.delta).1.id = e.campaign := by
        rw [Campaign.apply_id, id_of_row? hrow]
      have hnew : (l.enter now e).row? id =
          (replace (c.apply now e.delta).1 l.rows).find? (·.id = id) := by
        simp [enter, entry_of_some hrow, row?]
      rw [hnew, find?_replace, hc, entry_of_some hrow]
      split
      · next hid =>
          subst hid
          have hfind : l.rows.find? (·.id = e.campaign) = some c := hrow
          rw [hfind]
          rfl
      · rfl

/-- The ledger tells what became of a campaign since the start. -/
structure Follows (l : Ledger) (c : Campaign) : Prop where
  /-- The row is the last one that the campaign went through. -/
  row : l.row? c.id = some ((l.states c.id).getLast?.getD c)
  trail : (l.states c.id).map (·.timeless) =
    c.timeless.trail (l.events.filter (·.campaign = c.id))
  entered : l.rowsEntered.filter (·.id = c.id) = l.states c.id

/-- The row of a campaign is where the events for it lead. -/
theorem Follows.timeless_row {l : Ledger} {c : Campaign} (h : l.Follows c) :
    (l.row? c.id).map (·.timeless) =
      some (c.timeless.after (l.events.filter (·.campaign = c.id))) := by
  rw [h.row, ← Campaign.getLast?_trail, ← h.trail, List.getLast?_map]
  cases (l.states c.id).getLast? <;> rfl

/-- **Every entry keeps the account.** -/
theorem Follows.enter {l : Ledger} {c : Campaign} (h : l.Follows c) (now : Instant) (e : Event) :
    (l.enter now e).Follows c := by
  by_cases hid : e.campaign = c.id
  · obtain ⟨last, hlast, hlastrow⟩ : ∃ last, (l.states c.id).getLast?.getD c = last ∧
        l.row? e.campaign = some last := ⟨_, rfl, hid ▸ h.row⟩
    have hentry : (l.entry now e).row = some (last.apply now e.delta).1 := by
      rw [entry_of_some hlastrow]
    have htimeless : last.timeless =
        c.timeless.after (l.events.filter (·.campaign = c.id)) := by
      have hrow := h.timeless_row
      rw [← hid, hlastrow] at hrow
      simpa [hid] using hrow
    refine ⟨?_, ?_, ?_⟩
    · simp [row?_enter, states_enter, hid, hentry]
    · simp [states_enter, hid, hentry, h.trail, Campaign.trail_append, Campaign.trail,
        Campaign.timeless_apply, htimeless]
    · have hlastid : last.id = c.id := (id_of_row? hlastrow).trans hid
      simp [states_enter, hid, hentry, h.entered, hlastid]
  · refine ⟨?_, ?_, ?_⟩
    · simpa [row?_enter, states_enter, hid] using h.row
    · simpa [states_enter, hid] using h.trail
    · have hother : (l.entry now e).row.toList.filter (·.id = c.id) = [] := by
        rw [List.filter_eq_nil_iff]
        intro row hrow
        simpa [id_of_entry (Option.mem_toList.mp hrow)] using hid
      simpa [states_enter, hid, hother] using h.entered

/-- Whatever changed was entered at time `now`. -/
def At (l : Ledger) (now : Instant) : Prop :=
  ∀ entry ∈ l.entries, entry.changed = true → ∀ row ∈ entry.row, row.updatedAt = now

instance (l : Ledger) (now : Instant) : Decidable (l.At now) :=
  inferInstanceAs (Decidable (∀ entry ∈ l.entries, entry.changed = true →
    ∀ row ∈ entry.row, row.updatedAt = now))

theorem At.of_enter {l : Ledger} {now t : Instant} {e : Event} (h : (l.enter t e).At now) :
    l.At now := by
  intro entry hentry
  exact h entry (List.mem_cons_of_mem _ hentry)

/-- While the clock stands still, an entry is made at its time, or changes nothing. -/
theorem At.apply_eq {l : Ledger} {now t : Instant} {e : Event} {c : Campaign}
    (h : (l.enter t e).At now) (hrow : l.row? e.campaign = some c) :
    (c.apply t e.delta).1 = (c.apply now e.delta).1 := by
  have hlast := h (l.entry t e) List.mem_cons_self
  rw [entry_of_some hrow] at hlast
  by_cases hsame : c.merge e.delta = c
  · rw [Campaign.apply, Campaign.apply, if_pos hsame, if_pos hsame]
  · simp only [Campaign.apply, if_neg hsame, Option.mem_def, Option.some.injEq, forall_eq',
      forall_const] at hlast ⊢
    rw [hlast]

/-- **While the clock stands still**, the rows of a campaign are settled with their times of
change. -/
theorem Follows.stamped_enter {l : Ledger} {c : Campaign} (h : l.Follows c) {now t : Instant}
    {e : Event}
    (hstates : l.states c.id = c.stamped now (l.events.filter (·.campaign = c.id)))
    (hat : (l.enter t e).At now) :
    (l.enter t e).states c.id =
      c.stamped now ((l.enter t e).events.filter (·.campaign = c.id)) := by
  by_cases hid : e.campaign = c.id
  · have hrow : l.row? e.campaign = some ((l.states c.id).getLast?.getD c) := by
      rw [hid]
      exact h.row
    rw [states_enter, events_enter, if_pos hid, entry_of_some hrow, hat.apply_eq hrow, hstates]
    simp [List.filter_append, hid, Campaign.stamped_snoc]
  · rw [states_enter, events_enter, if_neg hid, hstates]
    simp [List.filter_append, hid]

/-- The ledger has rows of these campaigns only. -/
structure Within (l : Ledger) (ids : List Uuid) : Prop where
  rows : ∀ id, id ∉ ids → l.row? id = none
  entered : ∀ row ∈ l.rowsEntered, row.id ∈ ids

/-- No entry brings in a campaign that has no row. -/
theorem Within.enter {l : Ledger} {ids : List Uuid} (h : l.Within ids) (now : Instant) (e : Event) :
    (l.enter now e).Within ids where
  rows id hid := by
    rw [row?_enter]
    split
    · next hsame => rw [entry_of_none (hsame ▸ h.rows id hid)]
    · exact h.rows id hid
  entered row hrow := by
    rw [rowsEntered_enter] at hrow
    rcases List.mem_append.mp hrow with hrow | hrow
    · exact h.entered row hrow
    · have hentry := Option.mem_toList.mp hrow
      rw [id_of_entry hentry]
      refine Decidable.byContradiction fun hid => ?_
      rw [entry_of_none (h.rows _ hid)] at hentry
      cases hentry

/-- Rows that are kept were there. -/
theorem distinct_subset (rows : List Campaign) : distinct rows ⊆ rows := by
  induction rows with
  | nil => exact List.Subset.refl _
  | cons c rest ih =>
      rw [distinct]
      split
      · exact List.subset_cons_of_subset c ih
      · exact List.cons_subset_cons c ih

/-- A ledger has rows of the campaigns that it starts on. -/
theorem within_ofRows (rows : List Campaign) : (ofRows rows).Within (rows.map (·.id)) where
  rows id hid := by
    rw [ofRows, row?, List.find?_eq_none]
    intro c hc hcid
    exact hid (List.mem_map.mpr ⟨c, distinct_subset rows hc, by simpa using hcid⟩)
  entered := by simp [ofRows, rowsEntered]

/-- Rows with different identifiers are all kept. -/
theorem distinct_eq {rows : List Campaign} (hids : (rows.map (·.id)).Nodup) :
    distinct rows = rows := by
  induction rows with
  | nil => rfl
  | cons c rest ih =>
      obtain ⟨hc, hrest⟩ := List.nodup_cons.mp hids
      have hnone : rest.any (·.id = c.id) = false := by
        simpa using hc
      simp [distinct, hnone, ih hrest]

/-- Among rows with different identifiers, each is found by its own. -/
theorem find?_of_mem {rows : List Campaign} (hids : (rows.map (·.id)).Nodup) {c : Campaign}
    (hc : c ∈ rows) : rows.find? (·.id = c.id) = some c := by
  induction rows with
  | nil => cases hc
  | cons d rest ih =>
      obtain ⟨hd, hrest⟩ := List.nodup_cons.mp hids
      rcases List.mem_cons.mp hc with rfl | hc
      · simp
      · have hne : d.id ≠ c.id := fun h => hd (List.mem_map.mpr ⟨c, hc, h.symm⟩)
        rw [List.find?_cons, decide_eq_false hne]
        exact ih hrest hc

/-- The rows of a ledger that starts on rows with different identifiers. -/
theorem row?_ofRows {rows : List Campaign} (hids : (rows.map (·.id)).Nodup) {c : Campaign}
    (hc : c ∈ rows) : (ofRows rows).row? c.id = some c := by
  rw [ofRows, distinct_eq hids, row?]
  exact find?_of_mem hids hc

/-- A ledger that starts on rows with different identifiers follows each of them. -/
theorem follows_ofRows {rows : List Campaign} (hids : (rows.map (·.id)).Nodup) {c : Campaign}
    (hc : c ∈ rows) : (ofRows rows).Follows c :=
  ⟨row?_ofRows hids hc, rfl, rfl⟩

end Ledger

end Mailshot

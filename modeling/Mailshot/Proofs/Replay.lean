import Mathlib.Data.List.Basic
import Mathlib.Data.List.Induction
import Mailshot.Proofs.Ledger

/-!
# Entries replayed

A ledger is what its rows at the start and the entries since make of it, times of change included.
Of rows with one identifier only the last counts, and an event whose campaign has no row comes to
nothing.

* `Campaign.standing`: where a campaign stands after what was entered;
* `Campaign.standings`: the rows that came of it, each right after its event;
* `Campaign.getLast?_standings`: the last one of a campaign is where it stands;
* `Ledger.row?_replay`, `Ledger.rowsEntered_replay`: a ledger tells just that.
-/

namespace Mailshot

namespace Campaign

/-- The row after events for the campaign, each entered at its time. -/
def through (c : Campaign) (entered : List (Instant × Event)) : Campaign :=
  entered.foldl (fun c p => (c.apply p.1 p.2.delta).1) c

/-- Where the campaign with an identifier stands: its row at the start, the last one if there are
more, changed by its own events. -/
def standing (rows : List Campaign) (entered : List (Instant × Event)) (id : Uuid) :
    Option Campaign :=
  (rows.reverse.find? (·.id = id)).map (·.through (entered.filter (·.2.campaign = id)))

/-- The rows that came of what was entered, each right after its event. -/
def standings (rows : List Campaign) (entered : List (Instant × Event)) : List Campaign :=
  entered.zipIdx.filterMap fun (p, k) => standing rows (entered.take (k + 1)) p.2.campaign

theorem through_snoc (c : Campaign) (entered : List (Instant × Event)) (now : Instant) (e : Event) :
    c.through (entered ++ [(now, e)]) = ((c.through entered).apply now e.delta).1 := by
  simp [through]

@[simp] theorem through_id (c : Campaign) (entered : List (Instant × Event)) :
    (c.through entered).id = c.id := by
  induction entered using List.reverseRecOn with
  | nil => rfl
  | append_singleton entered p ih => rw [through_snoc, apply_id, ih]

theorem standing_snoc (rows : List Campaign) (entered : List (Instant × Event)) (now : Instant)
    (e : Event) (id : Uuid) :
    standing rows (entered ++ [(now, e)]) id =
      if e.campaign = id then
        (standing rows entered id).map fun c => (c.apply now e.delta).1
      else standing rows entered id := by
  by_cases hid : e.campaign = id
  · simp [standing, List.filter_append, hid, through_snoc, Function.comp_def]
  · simp [standing, List.filter_append, hid]

theorem standings_snoc (rows : List Campaign) (entered : List (Instant × Event)) (now : Instant)
    (e : Event) :
    standings rows (entered ++ [(now, e)]) =
      standings rows entered ++ (standing rows (entered ++ [(now, e)]) e.campaign).toList := by
  have hearlier : (entered.zipIdx.filterMap fun (p, k) =>
      standing rows ((entered ++ [(now, e)]).take (k + 1)) p.2.campaign) =
        standings rows entered := by
    apply List.filterMap_congr
    rintro ⟨p, k⟩ hp
    have hk : k < entered.length := by
      simpa using (List.mem_zipIdx hp).2.1
    simp only
    rw [List.take_append_of_le_length hk]
  have hlast : (entered ++ [(now, e)]).take (entered.length + 1) = entered ++ [(now, e)] := by
    apply List.take_of_length_le
    simp
  rw [standings, List.zipIdx_append, List.filterMap_append, hearlier, List.zipIdx_singleton]
  cases hrow : standing rows (entered ++ [(now, e)]) e.campaign <;>
    simp only [List.filterMap_cons, List.filterMap_nil, Nat.zero_add, hlast, hrow,
      Option.toList_none, Option.toList_some]

theorem id_of_standing {rows : List Campaign} {entered : List (Instant × Event)} {id : Uuid}
    {c : Campaign} (h : standing rows entered id = some c) : c.id = id := by
  obtain ⟨start, hstart, rfl⟩ := Option.map_eq_some_iff.mp h
  rw [through_id]
  simpa using List.find?_some hstart

/-- The last row that came of events for a campaign is where it stands. -/
theorem getLast?_standings {rows : List Campaign} {entered : List (Instant × Event)} {id : Uuid}
    {row : Campaign} (h : ((standings rows entered).filter (·.id = id)).getLast? = some row) :
    standing rows entered id = some row := by
  induction entered using List.reverseRecOn with
  | nil => cases h
  | append_singleton entered p ih =>
      obtain ⟨now, e⟩ := p
      rw [standings_snoc, List.filter_append] at h
      by_cases hid : e.campaign = id
      · subst hid
        cases hlast : standing rows (entered ++ [(now, e)]) e.campaign with
        | none =>
            -- a campaign without a row now had none before
            rw [hlast, Option.toList_none, List.filter_nil, List.append_nil] at h
            rw [standing_snoc, if_pos rfl, ih h] at hlast
            cases hlast
        | some c =>
            have hc : c.id = e.campaign := id_of_standing hlast
            simpa [hlast, hc] using h
      · have hother : (standing rows (entered ++ [(now, e)]) e.campaign).toList.filter
            (·.id = id) = [] := by
          rw [List.filter_eq_nil_iff]
          intro c hc
          simpa [id_of_standing (Option.mem_toList.mp hc)] using hid
        rw [hother, List.append_nil] at h
        rw [standing_snoc, if_neg hid, ih h]

end Campaign

namespace Ledger

/-- The ledger after entries, each made at its time. -/
def replay (l : Ledger) (entered : List (Instant × Event)) : Ledger :=
  entered.foldl (fun l p => l.enter p.1 p.2) l

theorem replay_snoc (l : Ledger) (entered : List (Instant × Event)) (now : Instant) (e : Event) :
    l.replay (entered ++ [(now, e)]) = (l.replay entered).enter now e := by
  simp [replay]

theorem events_replay (rows : List Campaign) (entered : List (Instant × Event)) :
    ((ofRows rows).replay entered).events = entered.map (·.2) := by
  induction entered using List.reverseRecOn with
  | nil => rfl
  | append_singleton entered p ih =>
      obtain ⟨now, e⟩ := p
      rw [replay_snoc, events_enter, ih, List.map_append]
      rfl

/-- Of rows with the same identifier, the last counts. -/
theorem row?_ofRows_eq (rows : List Campaign) (id : Uuid) :
    (ofRows rows).row? id = rows.reverse.find? (·.id = id) := by
  unfold ofRows row?
  simp only
  induction rows with
  | nil => rfl
  | cons c rest ih =>
      rw [List.reverse_cons, List.find?_append, ← ih, distinct]
      by_cases hmore : rest.any (·.id = c.id) = true
      · rw [if_pos hmore]
        by_cases hid : c.id = id
        · have hsome : (rest.reverse.find? (·.id = id)).isSome := by
            rw [List.find?_isSome]
            obtain ⟨d, hd, hsame⟩ := List.any_eq_true.mp hmore
            exact ⟨d, List.mem_reverse.mpr hd, by simpa [← hid] using hsame⟩
          obtain ⟨d, hd⟩ := Option.isSome_iff_exists.mp (ih ▸ hsome)
          simp [hd]
        · simp [hid]
      · rw [if_neg hmore]
        by_cases hid : c.id = id
        · have hnone : (distinct rest).find? (·.id = id) = none := by
            rw [ih, List.find?_eq_none]
            intro d hd hsame
            apply hmore
            rw [List.any_eq_true]
            exact ⟨d, List.mem_reverse.mp hd, by simpa [hid] using hsame⟩
          simp [hnone, hid]
        · simp [hid]

theorem row_entry (l : Ledger) (now : Instant) (e : Event) :
    (l.entry now e).row = (l.row? e.campaign).map fun c => (c.apply now e.delta).1 := by
  cases hrow : l.row? e.campaign with
  | none => rw [entry_of_none hrow, Option.map_none]
  | some c => rw [entry_of_some hrow, Option.map_some]

/-- **The row of a campaign** is where the campaign stands. -/
theorem row?_replay (rows : List Campaign) (entered : List (Instant × Event)) (id : Uuid) :
    ((ofRows rows).replay entered).row? id = Campaign.standing rows entered id := by
  induction entered using List.reverseRecOn with
  | nil =>
      show (ofRows rows).row? id = _
      rw [row?_ofRows_eq, Campaign.standing]
      cases rows.reverse.find? (·.id = id) <;> rfl
  | append_singleton entered p ih =>
      obtain ⟨now, e⟩ := p
      rw [replay_snoc, row?_enter, Campaign.standing_snoc, ← ih, row_entry]
      by_cases hid : e.campaign = id
      · rw [if_pos hid, if_pos hid, hid]
      · rw [if_neg hid, if_neg hid]

/-- **The rows that came of what was entered**, in order. -/
theorem rowsEntered_replay (rows : List Campaign) (entered : List (Instant × Event)) :
    ((ofRows rows).replay entered).rowsEntered = Campaign.standings rows entered := by
  induction entered using List.reverseRecOn with
  | nil => rfl
  | append_singleton entered p ih =>
      obtain ⟨now, e⟩ := p
      rw [replay_snoc, rowsEntered_enter, ih, Campaign.standings_snoc, Campaign.standing_snoc,
        if_pos rfl, row_entry, row?_replay]

end Ledger

end Mailshot

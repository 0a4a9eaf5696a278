import Mailshot.Proofs.Run.Roster

/-!
# Whose calls, whose events

Where due campaigns have different identifiers, a call names its campaign as the owner and an event
names the campaign that it is for, so the deeds of one worker can be told from those of all others:
the calls for a campaign are those of its worker, and the events for it are those of its worker,
followed by the foreman's report where the worker broke.

* `Run.Chronicle.callsFor_eq`: the calls for a campaign;
* `Run.Chronicle.events_for`: the events for a campaign.
-/

namespace Mailshot

namespace Run

variable {σ : Type} {room : Mailroom σ} {due : List Campaign} {capacity : Nat} {s : σ} {r : Run σ}
  {past : List (Turn × Deed)}

/-- Things that are all kept or all left out. -/
theorem filter_of_forall {α : Type} {p : α → Bool} {q : Prop} [Decidable q] {l : List α}
    (h : ∀ a ∈ l, p a = decide q) : l.filter p = if q then l else [] := by
  by_cases hq : q
  · simpa [hq, List.filter_eq_self] using h
  · simpa [hq, List.filter_eq_nil_iff] using h

/-- Workers at different places are for campaigns with different identifiers. -/
theorem Chronicle.id_eq_iff (hids : (due.map (·.id)).Nodup)
    (h : Chronicle room (opened due capacity s) past r) {i j : Nat} {c : Campaign} {k : Worker}
    (hc : due[i]? = some c) (hk : r.workers[j]? = some k) : k.campaign.id = c.id ↔ j = i := by
  have hdue := h.due_at hk
  constructor
  · exact place_unique hids hdue hc
  · rintro rfl
    obtain rfl : k.campaign = c := by simpa [hdue] using hc
    rfl

/-- The call of a worker counts for the campaign at a place if the worker is the one there. -/
theorem Chronicle.callsFor_of_move (hids : (due.map (·.id)).Nodup)
    (h : Chronicle room (opened due capacity s) past r) {i j : Nat} {c : Campaign} {k : Worker}
    {d : Deed} {phase : Phase} (hc : due[i]? = some c) (hk : r.workers[j]? = some k)
    (hmove : Worker.Move room k.campaign k.phase d phase) :
    Call.callsFor c.id (Deed.calls [d]) = if j = i then Deed.calls [d] else [] := by
  refine filter_of_forall fun made hmade => ?_
  simp [hmove.call_owner made hmade, h.id_eq_iff hids hc hk]

/-- What a worker reports counts for the campaign at a place if the worker is the one there. -/
theorem Chronicle.events_of_move (hids : (due.map (·.id)).Nodup)
    (h : Chronicle room (opened due capacity s) past r) {i j : Nat} {c : Campaign} {k : Worker}
    {d : Deed} {phase : Phase} (hc : due[i]? = some c) (hk : r.workers[j]? = some k)
    (hmove : Worker.Move room k.campaign k.phase d phase) :
    (Deed.events [d]).filter (·.campaign = c.id) = if j = i then Deed.events [d] else [] := by
  refine filter_of_forall fun e he => ?_
  simp [hmove.event_campaign e he, h.id_eq_iff hids hc hk]

/-- **The calls for a campaign are those of its worker.** -/
theorem Chronicle.callsFor_eq (hids : (due.map (·.id)).Nodup)
    (h : Chronicle room (opened due capacity s) past r) {i : Nat} {c : Campaign}
    (hc : due[i]? = some c) :
    Call.callsFor c.id (Deed.calls (deeds past)) = Deed.calls (deedsOf i past) := by
  induction h using Chronicle.transition_induction with
  | refl => rfl
  | @tail past t turn d u hpast _ hstep ih =>
      simp only [deeds_append, deeds_told, Deed.calls_append, Call.callsFor_append, deedsOf_append,
        deedsOf_told, ih, List.append_cancel_left_eq]
      cases hstep with
      | @act j _ _ _ _ _ hk hmove =>
          rw [Option.toList_some, hpast.callsFor_of_move hids hc hk hmove]
          by_cases hji : j = i <;> simp [hji]
      | @report j _ _ _ _ _ hk hmove =>
          rw [Option.toList_some, hpast.callsFor_of_move hids hc hk hmove]
          by_cases hji : j = i <;> simp [hji]
      | store | storeCrash =>
          simp [Deed.calls, Deed.call?, Call.callsFor, Call.isUpdate]
      | _ => rfl

/-- What the foreman has reported of the worker at a place. -/
def aftermath (room : Mailroom σ) (r : Run σ) (i : Nat) : Option Event :=
  if i < r.joined then r.workers[i]?.bind (Worker.parting? (room.task i)) else none

theorem aftermath_congr {r t : Run σ} {i : Nat} (hjoined : t.joined = r.joined)
    (hworkers : t.workers = r.workers) : t.aftermath room i = r.aftermath room i := by
  simp [aftermath, hjoined, hworkers]

/-- Once one more worker was looked after, what had to be reported of it was. -/
theorem aftermath_join {t : Run σ} {j : Nat} {k : Worker} (hk : r.workers[j]? = some k)
    (hjoined : r.joined = j) (hnext : t.joined = j + 1) (hworkers : t.workers = r.workers)
    (i : Nat) : (t.aftermath room i).toList =
      (r.aftermath room i).toList ++ if j = i then (k.parting? (room.task j)).toList else [] := by
  rcases Nat.lt_trichotomy i j with hij | rfl | hij
  · have hi : i < r.joined := by omega
    have hi' : i < t.joined := by omega
    simp [aftermath, hi, hi', hworkers, Nat.ne_of_gt hij]
  · simp [aftermath, hjoined, hnext, hworkers, hk]
  · have hi : ¬ i < r.joined := by omega
    have hi' : ¬ i < t.joined := by omega
    simp [aftermath, hi, hi', Nat.ne_of_lt hij]

/-- Nothing was reported of a worker that moves, and nothing is when it does. -/
theorem Seen.aftermath_move (h : Seen room r) {t : Run σ} {j : Nat} {k : Worker} {d : Deed}
    {phase : Phase} (hk : r.workers[j]? = some k)
    (hmove : Worker.Move room k.campaign k.phase d phase)
    (hworkers : t.workers = r.workers.set j { k with phase }) (hforeman : t.foreman = r.foreman) :
    r.aftermath room j = none ∧ ∀ i, t.aftermath room i = r.aftermath room i := by
  have hle := h.joined_le_of_move hk hmove
  have hjoined : t.joined = r.joined := by simp [joined, hforeman, hworkers]
  have hj : ¬ j < r.joined := by omega
  refine ⟨by simp [aftermath, hj], fun i => ?_⟩
  by_cases hji : j = i
  · subst hji
    simp [aftermath, hjoined, hj]
  · simp [aftermath, hjoined, hworkers, hji]

/-- What a turn brings for the campaign at a place is brought by the worker there, of which nothing
was reported yet, or is the report of that worker. -/
theorem Chronicle.events_of_turn (hids : (due.map (·.id)).Nodup)
    (h : Chronicle room (opened due capacity s) past r) {turn : Turn} {d : Option Deed} {t : Run σ}
    (hstep : Transition room r turn d t) {i : Nat} {c : Campaign} (hc : due[i]? = some c) :
    (r.aftermath room i).toList ++ (Deed.events d.toList).filter (·.campaign = c.id) =
      (if turn = .worker i then Deed.events d.toList else []) ++ (t.aftermath room i).toList := by
  have hsilent : Deed.events d.toList = [] → t.aftermath room i = r.aftermath room i →
      (r.aftermath room i).toList ++ (Deed.events d.toList).filter (·.campaign = c.id) =
        (if turn = .worker i then Deed.events d.toList else []) ++ (t.aftermath room i).toList := by
    intro hnone haftermath
    simp [hnone, haftermath]
  have hmoved : ∀ {j : Nat} {k : Worker} {e : Deed} {phase : Phase}, turn = .worker j →
      d = some e → r.workers[j]? = some k → Worker.Move room k.campaign k.phase e phase →
      t.workers = r.workers.set j { k with phase } → t.foreman = r.foreman →
      (r.aftermath room i).toList ++ (Deed.events d.toList).filter (·.campaign = c.id) =
        (if turn = .worker i then Deed.events d.toList else []) ++ (t.aftermath room i).toList := by
    rintro j k e phase rfl rfl hk hmove hworkers hforeman
    obtain ⟨hnone, hsame⟩ := h.seen.aftermath_move hk hmove hworkers hforeman
    rw [Option.toList_some, h.events_of_move hids hc hk hmove, hsame]
    by_cases hji : j = i
    · subst hji
      simp [hnone]
    · simp [hji]
  have hjoined : ∀ {j : Nat} {k : Worker}, r.workers[j]? = some k → r.joined = j →
      t.joined = j + 1 → t.workers = r.workers → (t.aftermath room i).toList =
        (r.aftermath room i).toList ++ if j = i then (k.parting? (room.task j)).toList else [] :=
    fun hk hjoined hnext hworkers => aftermath_join hk hjoined hnext hworkers i
  cases hstep with
  | act hk hmove => exact hmoved rfl rfl hk hmove rfl rfl
  | report hk hmove => exact hmoved rfl rfl hk hmove rfl rfl
  | joinMailed hforeman hk hphase =>
      rw [hjoined hk (by simp [joined, hforeman]) (by simp [joined]) rfl]
      simp [Worker.parting?, hphase]
  | joinFailed hforeman hk hphase =>
      rw [hjoined hk (by simp [joined, hforeman]) (by simp [joined]) rfl]
      simp [Worker.parting?, hphase]
  | @reportBroken j _ text _ _ hforeman _ =>
      obtain ⟨k, hk, hphase, rfl⟩ := h.seen.broken _ _ _ hforeman
      rw [hjoined hk (by simp [joined, hforeman]) (by simp [joined]) rfl]
      by_cases hji : j = i <;>
        simp [hji, h.id_eq_iff hids hc hk, Worker.parting?, hphase, brokenEvent, Event.failed]
  | @joinedAll j hforeman hnone =>
      refine hsilent rfl (aftermath_congr ?_ rfl)
      have hle := h.seen.joined_le
      have hlength : r.workers.length ≤ j := List.getElem?_eq_none_iff.mp hnone
      simp only [joined, hforeman] at hle ⊢
      omega
  | spawn hforeman => exact hsilent rfl (by simp [aftermath, joined, hforeman])
  | spawned hforeman | joinBroken hforeman | finish hforeman =>
      exact hsilent rfl (aftermath_congr (by simp [joined, hforeman]) rfl)
  | _ => exact hsilent rfl rfl

/-- **The events for a campaign** are those of its worker, and then the foreman's report of it. -/
theorem Chronicle.events_for (hids : (due.map (·.id)).Nodup)
    (h : Chronicle room (opened due capacity s) past r) {i : Nat} {c : Campaign}
    (hc : due[i]? = some c) :
    (Deed.events (deeds past)).filter (·.campaign = c.id) =
      Deed.events (deedsOf i past) ++ (r.aftermath room i).toList := by
  induction h using Chronicle.transition_induction with
  | refl => simp [opened, aftermath, joined, deeds, deedsOf]
  | @tail past t turn d u hpast _ hstep ih =>
      have hturn := hpast.events_of_turn hids hstep hc
      have hown : Deed.events (deedsOf i (told turn d)) =
          if turn = .worker i then Deed.events d.toList else [] := by
        by_cases hturn : turn = .worker i <;> simp [hturn]
      rw [deeds_append, deeds_told, Deed.events_append, List.filter_append, ih, List.append_assoc,
        hturn, deedsOf_append, Deed.events_append, hown, List.append_assoc]

end Run

end Mailshot

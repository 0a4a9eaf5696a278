import Mailshot.Proofs.Run.Count
import Mailshot.Proofs.Run.Ending
import Mailshot.Proofs.Worker.Scope

/-!
# Two runs over the same campaigns

Where the workers at each place do the same as far as both get, two runs over the same campaigns come
to the same: in mailrooms that are alike, in whatever worlds, and in whatever order turns are taken.
What is told of a worker that broke is the same as far as its task has the same name in both.
And where the one is over, the other one comes to its end, too.

* `Run.Comparable`: of the deeds at each place, one run has the beginning of those of the other;
* `Run.EndsSurely`: a run that can go on until it is over, and does not go on forever;
* `Run.endsSurely_of_pages`: so does one whose workers fetch a bounded number of pages;
* `Run.Chronicle.comparable_of_separate`: two runs in a world that keeps campaigns apart are so;
* `Run.Chronicle.workers_same`, `Run.Chronicle.firstFault_same`: both runs come to the same result;
* `Run.Chronicle.upshot_same`, `Run.Chronicle.counters_same`: to the same for each campaign, and to
  the same counts;
* `Run.Chronicle.endsSurely`: both come to their ends if one does.
-/

namespace Mailshot

namespace Run

variable {σ τ : Type} {room : Mailroom σ} {room' : Mailroom τ} {due : List Campaign}
  {capacity capacity' : Nat} {s : σ} {s' : τ} {r : Run σ} {r' : Run τ}
  {past past' : List (Turn × Deed)} {i : Nat} {c : Campaign}

/-- Of the deeds at each place, one is the beginning of the other. -/
def Comparable (past past' : List (Turn × Deed)) : Prop :=
  ∀ i, deedsOf i past <+: deedsOf i past' ∨ deedsOf i past' <+: deedsOf i past

/-- Short of its end a run can always go on, and it does not go on forever. -/
structure EndsSurely (room : Mailroom σ) (start : Run σ) : Prop where
  enabled : ∀ past t, Chronicle room start past t → t.foreman ≠ .finished → ∃ u, Step room t u
  bounded : ∀ runs : Nat → Run σ, runs 0 = start → ¬ ∀ n, Step room (runs n) (runs (n + 1))

/-- Short of its end a run can go on. -/
theorem Chronicle.exists_step (h : Chronicle room (opened due capacity s) past r)
    (hfinished : r.foreman ≠ .finished) : ∃ t, Step room r t := by
  obtain ⟨turn, hturn⟩ := h.enabled hfinished default
  obtain ⟨t, ht⟩ := Option.isSome_iff_exists.mp hturn
  exact ⟨t, turn, ht⟩

/-- A run whose workers do a bounded number of deeds ends surely. -/
theorem endsSurely_of_bound (most : Nat → Nat)
    (hmost : ∀ past r, Chronicle room (opened due capacity s) past r →
      ∀ i, (deedsOf i past).length ≤ most i) : EndsSurely room (opened due capacity s) where
  enabled _ _ h hfinished := h.exists_step hfinished
  bounded runs hstart hsteps := by
    choose turns hturns using hsteps
    exact not_endless hstart hturns fun i n => hmost _ _ (chronicle_pastOf hstart hturns n) i

/-- A run whose workers fetch a bounded number of pages ends surely. -/
theorem endsSurely_of_pages (most : Nat → Nat)
    (hmost : ∀ past r, Chronicle room (opened due capacity s) past r →
      ∀ i k, r.workers[i]? = some k → k.phase.gathered ≤ most i) :
    EndsSurely room (opened due capacity s) where
  enabled _ _ h hfinished := h.exists_step hfinished
  bounded runs hstart hsteps := by
    choose turns hturns using hsteps
    choose bound hbound using fun i => bounded_deeds (i := i) hstart hturns fun n k hk =>
      hmost _ _ (chronicle_pastOf hstart hturns n) i k hk
    exact not_endless hstart hturns hbound

/-- Nobody is at a place that no campaign is due at. -/
theorem Chronicle.deedsOf_eq_nil (h : Chronicle room (opened due capacity s) past r)
    (hc : due[i]? = none) : deedsOf i past = [] := by
  cases hk : r.workers[i]? with
  | none => exact (h.courses i).2 (List.getElem?_eq_none_iff.mp hk)
  | some k =>
      rw [h.due_at hk] at hc
      cases hc

/-- The course of the worker at a place, which has not moved where it has not started. -/
theorem Chronicle.exists_course (h : Chronicle room (opened due capacity s) past r)
    (hc : due[i]? = some c) : ∃ p, Worker.Course room c (deedsOf i past) p := by
  cases hk : r.workers[i]? with
  | none =>
      rw [(h.courses i).2 (List.getElem?_eq_none_iff.mp hk)]
      exact ⟨_, .nil⟩
  | some k =>
      obtain rfl : c = k.campaign := by simpa [hc] using h.due_at hk
      exact ⟨_, h.course hk⟩

/-- At the end of a run there are as many workers as due campaigns. -/
theorem Chronicle.length_workers (h : Chronicle room (opened due capacity s) past r)
    (hfinished : r.foreman = .finished) : r.workers.length = due.length := by
  simpa using congrArg List.length (h.roster_of_finished hfinished)

/-- In a world that keeps campaigns apart workers do the same, as far as both get. -/
theorem Chronicle.comparable_of_separate {room' : Mailroom σ} {r' : Run σ}
    (hrooms : room.Alike room') (hworld : room'.world = room.world) (hids : (due.map (·.id)).Nodup)
    (hapart : room.world.Separate s) (h : Chronicle room (opened due capacity s) past r)
    (h' : Chronicle room' (opened due capacity' s) past' r') : Comparable past past' := by
  intro i
  cases hc : due[i]? with
  | none =>
      rw [h.deedsOf_eq_nil hc]
      exact Or.inl List.nil_prefix
  | some c =>
      have hbefore : room.world.History s [] s := rfl
      have hbefore' : room'.world.History s [] s := rfl
      obtain ⟨p, hcourse⟩ := h.exists_course hc
      obtain ⟨p', hcourse'⟩ := h'.exists_course hc
      have hanswered' := h'.answered hids hbefore' (by simp) hc
      rw [← hworld] at hapart
      refine (hcourse.alike hrooms).comparable hapart hcourse' ?_ hanswered'
      rw [hworld]
      exact h.answered hids hbefore (by simp) hc

section Over

variable (hrooms : room.Alike room') (hcomparable : Comparable past past')
  (h : Chronicle room (opened due capacity s) past r)
  (h' : Chronicle room' (opened due capacity' s') past' r')
  (hfinished : r.foreman = .finished) (hfinished' : r'.foreman = .finished)

include hrooms hcomparable h h' hfinished hfinished'

/-- Once both runs are over, their workers have done the same and ended the same way. -/
theorem Chronicle.ended_same (hc : due[i]? = some c) :
    deedsOf i past' = deedsOf i past ∧
      ∃ o, r.workers[i]? = some ⟨c, .ended o⟩ ∧ r'.workers[i]? = some ⟨c, .ended o⟩ := by
  obtain ⟨o, hk⟩ := h.ended_of_finished hfinished hc
  obtain ⟨o', hk'⟩ := h'.ended_of_finished hfinished' hc
  have hcourse : Worker.Course room' c (deedsOf i past) (.ended o) :=
    Worker.Course.alike (h.course hk) hrooms
  obtain ⟨hsame, rfl⟩ := hcourse.ended_eq (h'.course hk') (hcomparable i)
  exact ⟨hsame, _, hk, hk'⟩

theorem Chronicle.deedsOf_same (i : Nat) : deedsOf i past' = deedsOf i past := by
  cases hc : due[i]? with
  | none => rw [h.deedsOf_eq_nil hc, h'.deedsOf_eq_nil hc]
  | some c => exact (h.ended_same hrooms hcomparable h' hfinished hfinished' hc).1

theorem Chronicle.workers_same : r'.workers = r.workers := by
  apply List.ext_getElem?
  intro i
  cases hc : due[i]? with
  | none =>
      have hi := List.getElem?_eq_none_iff.mp hc
      rw [List.getElem?_eq_none (by rwa [h'.length_workers hfinished']),
        List.getElem?_eq_none (by rwa [h.length_workers hfinished])]
  | some c =>
      obtain ⟨-, o, hk, hk'⟩ := h.ended_same hrooms hcomparable h' hfinished hfinished' hc
      rw [hk, hk']

/-- **Both runs have the same result** if their tasks have the same names. -/
theorem Chronicle.firstFault_same (hnames : room'.task = room.task) :
    r'.firstFault = r.firstFault := by
  have hworkers := h.workers_same hrooms hcomparable h' hfinished hfinished'
  have hfaults : r'.faultAt room' = r.faultAt room := by
    funext i
    rw [faultAt, faultAt, hworkers, hnames]
  rw [h.firstFault_eq hfinished, h'.firstFault_eq hfinished', hworkers, hfaults]

/-- **Both runs come to the same for each campaign**: the calls, the rows handed over and the row at
the end. -/
theorem Chronicle.upshot_same (hnames : room'.task = room.task) (hids : (due.map (·.id)).Nodup)
    (hstored : Stored past) (hstored' : Stored past') (hc : c ∈ due) :
    r'.upshot past' c = r.upshot past c := by
  obtain ⟨i, hi⟩ := List.mem_iff_getElem?.mp hc
  obtain ⟨hsame, o, hk, hk'⟩ := h.ended_same hrooms hcomparable h' hfinished hfinished' hi
  rw [h.upshot_eq hids hstored hfinished hk, h'.upshot_eq hids hstored' hfinished' hk', hsame,
    hnames]

/-- The same events are entered for each campaign. -/
theorem Chronicle.events_same (hnames : room'.task = room.task) (hids : (due.map (·.id)).Nodup)
    (hstored : Stored past) (hstored' : Stored past') (hc : c ∈ due) :
    r'.desk.ledger.events.filter (·.campaign = c.id) =
      r.desk.ledger.events.filter (·.campaign = c.id) := by
  obtain ⟨i, hi⟩ := List.mem_iff_getElem?.mp hc
  obtain ⟨hsame, o, hk, hk'⟩ := h.ended_same hrooms hcomparable h' hfinished hfinished' hi
  rw [h.events_entered hids hstored hfinished hk, h'.events_entered hids hstored' hfinished' hk',
    hsame, hnames]

/-- **Both runs count the same** where the same rows are stored. -/
theorem Chronicle.counters_same (hnames : room'.task = room.task) (hids : (due.map (·.id)).Nodup)
    (hstored : Stored past) (hstored' : Stored past')
    (hrows : ∀ c ∈ due, Call.rowsFor c.id (Deed.calls (deeds past')) =
      Call.rowsFor c.id (Deed.calls (deeds past))) : r'.counters = r.counters := by
  have hworkers := h.workers_same hrooms hcomparable h' hfinished hfinished'
  have hnobody : ∀ {id : Uuid}, id ∉ due.map (·.id) →
      (∀ made ∈ Deed.calls (deeds past), made.owner ≠ id) ∧
        ∀ made ∈ Deed.calls (deeds past'), made.owner ≠ id := by
    intro id hid
    refine ⟨fun made hmade howner => hid ?_, fun made hmade howner => hid ?_⟩
    · exact howner ▸ h.owner_mem hstored made hmade
    · exact howner ▸ h'.owner_mem hstored' made hmade
  have hsum : ((Deed.calls (deeds past')).map Call.tick).sum =
      ((Deed.calls (deeds past)).map Call.tick).sum := by
    refine Call.sum_tick_eq ?_ ?_ <;> intro id <;> by_cases hid : id ∈ due.map (·.id)
    · obtain ⟨c, hc, rfl⟩ := List.mem_map.mp hid
      exact congrArg Upshot.calls
        (h.upshot_same hrooms hcomparable h' hfinished hfinished' hnames hids hstored hstored' hc)
    · rw [Call.callsFor_eq_nil (hnobody hid).1, Call.callsFor_eq_nil (hnobody hid).2]
    · obtain ⟨c, hc, rfl⟩ := List.mem_map.mp hid
      exact hrows c hc
    · rw [Call.rowsFor_eq_nil (hnobody hid).1, Call.rowsFor_eq_nil (hnobody hid).2]
  have hchanges : r'.desk.ledger.changes = r.desk.ledger.changes := by
    refine Ledger.changes_eq fun id => ?_
    by_cases hid : id ∈ due.map (·.id)
    · obtain ⟨c, hc, rfl⟩ := List.mem_map.mp hid
      rw [h.changesOf_eq hids hc, h'.changesOf_eq hids hc,
        h.events_same hrooms hcomparable h' hfinished hfinished' hnames hids hstored hstored' hc]
    · rw [h.changesOf_eq_zero hid, h'.changesOf_eq_zero hid]
  rw [h.counters_eq hstored hfinished, h'.counters_eq hstored' hfinished', hworkers, hsum, hchanges]

end Over

/-- **Where one run is over, the others come to their ends.** -/
theorem Chronicle.endsSurely (hrooms : room.Alike room')
    (h : Chronicle room (opened due capacity s) past r) (hfinished : r.foreman = .finished)
    (hcomparable : ∀ past' r', Chronicle room' (opened due capacity' s') past' r' →
      Comparable past past') : EndsSurely room' (opened due capacity' s') := by
  refine endsSurely_of_bound (fun i => (deedsOf i past).length) ?_
  intro past' r' h' i
  cases hc : due[i]? with
  | none =>
      rw [h'.deedsOf_eq_nil hc]
      exact Nat.zero_le _
  | some c =>
      obtain ⟨o, hk⟩ := h.ended_of_finished hfinished hc
      have hcourse : Worker.Course room c (deedsOf i past) (.ended o) := h.course hk
      obtain ⟨p, hcourse'⟩ := h'.exists_course hc
      exact (hcourse.alike hrooms).length_le hcourse' (hcomparable past' r' h' i)

end Run

end Mailshot

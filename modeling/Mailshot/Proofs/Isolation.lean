import Mailshot.Proofs.Rehearsal
import Mailshot.Proofs.Run.Retold

/-!
# Neighbours leave no trace

What a run does for a campaign does not depend on the other campaigns that are due with it.  Two runs,
in two worlds that agree about the campaign and about nothing else, do the same for it, however many
neighbours there are, whether these succeed, fail or break, and whoever takes turns.

* `Campaign.Alone`: no other due campaign has its segment or one of its variants;
* `Run.Chronicle.apart`: then the calls for others leave the campaign alone;
* `Run.Chronicle.told`: its worker is told what the world says about the campaign;
* `Run.Chronicle.isolated`: two runs do the same for the campaign, but for the name of a task;
* `Run.Chronicle.isolated_tells_names`: this does differ.
-/

namespace Mailshot

/-- No other of the due campaigns has the segment or a variant of `c`. -/
def Campaign.Alone (c : Campaign) (due : List Campaign) : Prop :=
  ∀ d ∈ due, d.id ≠ c.id →
    d.segment ≠ c.segment ∧ ∀ v ∈ d.variants, ∀ u ∈ c.variants, v.id ≠ u.id

instance (c : Campaign) (due : List Campaign) : Decidable (c.Alone due) :=
  inferInstanceAs (Decidable (∀ d ∈ due, d.id ≠ c.id →
    d.segment ≠ c.segment ∧ ∀ v ∈ d.variants, ∀ u ∈ c.variants, v.id ≠ u.id))

namespace Run

variable {σ τ : Type} {room : Mailroom σ} {room' : Mailroom τ} {due due' : List Campaign}
  {capacity capacity' : Nat} {s : σ} {s' : τ} {r : Run σ} {r' : Run τ}
  {past past' : List (Turn × Deed)} {i i' : Nat} {c : Campaign}

/-- The calls of the worker at a place are about the campaign there. -/
theorem Chronicle.call_of_place (hc : due[i]? = some c)
    (h : Chronicle room (opened due capacity s) past r) {made : Call}
    (hmade : made ∈ Deed.calls (deedsOf i past)) : made.Of c := by
  cases hk : r.workers[i]? with
  | none =>
      rw [(h.courses i).2 (List.getElem?_eq_none_iff.mp hk)] at hmade
      cases hmade
  | some k =>
      obtain rfl : c = k.campaign := by simpa [hc] using h.due_at hk
      exact (h.course hk).call_of made hmade

/-- The calls of a run are about its campaigns. -/
theorem Chronicle.call_of (hids : (due.map (·.id)).Nodup)
    (h : Chronicle room (opened due capacity s) past r) (hstored : Stored past) {made : Call}
    (hmade : made ∈ Deed.calls (deeds past)) : ∃ d ∈ due, made.Of d := by
  obtain ⟨d, hd, howner⟩ := List.mem_map.mp (h.owner_mem hstored made hmade)
  refine ⟨d, hd, ?_⟩
  cases hupdate : made.isUpdate with
  | true =>
      cases made with
      | update row reply => exact .update howner.symm reply
      | _ => cases hupdate
  | false =>
      obtain ⟨i, hi⟩ := List.mem_iff_getElem?.mp hd
      have hown : made ∈ Call.callsFor d.id (Deed.calls (deeds past)) := by
        rw [Call.callsFor, List.mem_filter]
        exact ⟨hmade, by simp [hupdate, howner]⟩
      rw [h.callsFor_eq hids hi] at hown
      exact h.call_of_place hi hown

/-- **Neighbours leave a campaign alone** that shares nothing with them. -/
theorem Chronicle.apart (hids : (due.map (·.id)).Nodup) (hc : due[i]? = some c)
    (halone : c.Alone due) (h : Chronicle room (opened due capacity s) past r)
    (hstored : Stored past) : Call.Apart c (Deed.calls (deeds past)) := by
  intro made hmade
  obtain ⟨d, hd, hof⟩ := h.call_of hids hstored hmade
  by_cases hid : d.id = c.id
  · obtain ⟨j, hj⟩ := List.mem_iff_getElem?.mp hd
    obtain rfl := place_unique hids hj hc hid
    obtain rfl : d = c := Option.some.inj (hj.symm.trans hc)
    exact Or.inl hof
  · obtain ⟨hsegment, hvariants⟩ := halone d hd hid
    exact Or.inr (hof.spares hid hsegment hvariants)

/-- The calls of a worker got the replies that the world gives about its campaign. -/
theorem Chronicle.told (hids : (due.map (·.id)).Nodup) (hc : due[i]? = some c)
    (halone : c.Alone due) (h : Chronicle room (opened due capacity s) past r)
    (hstored : Stored past) (before : List Call) (made : Call) (after : List Call)
    (hcalls : Deed.calls (deedsOf i past) = before ++ made :: after) :
    room.world.Told s c before made := by
  have hof : made.Of c := by
    apply h.call_of_place hc
    rw [hcalls]
    simp
  have hapart := h.apart hids hc halone hstored
  rw [← h.callsFor_eq hids hc] at hcalls
  obtain ⟨xs, rest, u, v, hsplit, hbefore, hearlier, hanswer⟩ := h.history.split_call hcalls
  exact ⟨hof, xs, u, v, hearlier, hapart.mono ⟨_, hsplit.symm⟩, hbefore, hanswer⟩

/-- While the clock stands still, the events for a campaign settle its rows with their times of
change. -/
theorem Chronicle.states_eq (hids : (due.map (·.id)).Nodup)
    (h : Chronicle room (opened due capacity s) past r) (hc : c ∈ due) {now : Instant}
    (hat : r.desk.ledger.At now) :
    r.desk.ledger.states c.id =
      c.stamped now (r.desk.ledger.events.filter (·.campaign = c.id)) := by
  induction h using Chronicle.transition_induction with
  | refl => rfl
  | @tail past t turn d u hpast _ hstep ih =>
      cases hstep with
      | enter => exact (hpast.follows hids hc).stamped_enter (ih hat.of_enter) hat
      | reportBroken _ hoffer =>
          rw [Desk.offer_ledger hoffer] at hat ⊢
          exact ih hat
      | report _ _ hoffer =>
          rw [Desk.offer_ledger hoffer] at hat ⊢
          exact ih hat
      | _ => exact ih hat

/-- What a run comes to for a campaign, with the times of change. -/
def datedUpshot (r : Run σ) (past : List (Turn × Deed)) (c : Campaign) : Upshot where
  calls := Call.callsFor c.id (Deed.calls (deeds past))
  rows := ((Deed.updates (deeds past)).map (·.1)).filter (·.id = c.id)
  row := r.desk.ledger.row? c.id

/-- While the clock stands still, the worker of a campaign settles this, too. -/
theorem Chronicle.datedUpshot_eq (hids : (due.map (·.id)).Nodup)
    (h : Chronicle room (opened due capacity s) past r) (hstored : Stored past)
    (hfinished : r.foreman = .finished) {o : Outcome} (hk : r.workers[i]? = some ⟨c, .ended o⟩)
    {now : Instant} (hat : r.desk.ledger.At now) :
    r.datedUpshot past c = Worker.datedUpshot c now (room.task i) (deedsOf i past) o := by
  have hi := h.due_at hk
  have hfollows := h.follows hids (List.mem_of_getElem? hi)
  have hcalls : Call.callsFor c.id (Deed.calls (deeds past)) = Deed.calls (deedsOf i past) :=
    h.callsFor_eq hids hi
  have hstates : r.desk.ledger.states c.id = c.stamped now (Deed.events (deedsOf i past) ++
      (Worker.parting? (room.task i) ⟨c, .ended o⟩).toList) := by
    rw [h.states_eq hids (List.mem_of_getElem? hi) hat, h.events_entered hids hstored hfinished hk]
  have hrows : ((Deed.updates (deeds past)).map (·.1)).filter (·.id = c.id) =
      r.desk.ledger.states c.id := by
    rw [(h.finished_served hstored hfinished).2, hfollows.entered]
  rw [datedUpshot, hcalls, hrows, hfollows.row, hstates]
  rfl

/-- Of the deeds for a campaign in two runs, one is the beginning of the other. -/
theorem Chronicle.comparable (hrooms : room.Alike room')
    (hagree : room.world.Agree room'.world s s' c) (hids : (due.map (·.id)).Nodup)
    (hids' : (due'.map (·.id)).Nodup) (hc : due[i]? = some c) (hc' : due'[i']? = some c)
    (halone : c.Alone due) (halone' : c.Alone due')
    (h : Chronicle room (opened due capacity s) past r)
    (h' : Chronicle room' (opened due' capacity' s') past' r') (hstored : Stored past)
    (hstored' : Stored past') :
    deedsOf i past <+: deedsOf i' past' ∨ deedsOf i' past' <+: deedsOf i past := by
  cases hk : r.workers[i]? with
  | none =>
      rw [(h.courses i).2 (List.getElem?_eq_none_iff.mp hk)]
      exact Or.inl List.nil_prefix
  | some k =>
      cases hk' : r'.workers[i']? with
      | none =>
          rw [(h'.courses i').2 (List.getElem?_eq_none_iff.mp hk')]
          exact Or.inr List.nil_prefix
      | some k' =>
          obtain rfl : c = k.campaign := by simpa [hc] using h.due_at hk
          have hsame : k'.campaign = k.campaign := by simpa [hc'] using (h'.due_at hk').symm
          have hcourse' := h'.course hk'
          rw [hsame] at hcourse'
          refine Worker.Course.comparable_of ?_ ((h.course hk).alike hrooms) hcourse'
            (h.told hids hc halone hstored) (h'.told hids' hc' halone' hstored')
          intro before made made' htold htold' hquestion _
          exact hagree.told_unique hquestion htold htold'

/-- **Neighbours leave no trace.**  In two runs, in worlds that agree about a campaign which shares
neither its segment nor a variant with its neighbours, the calls for the campaign are the same as far
as both got.  Once both runs are over they have come to the same for it: the same calls with the same
replies, the same rows handed over, and the same row at the end.  Only where its worker broke, the
last row tells it with the name of the task, which depends on how many were started before.  The same
rows are stored, except that a last row with another name may be answered otherwise if the world reads
it.  Times of change depend on the clock, and agree where both clocks stand still at one time, for a
campaign that had not failed before. -/
theorem Chronicle.isolated (hrooms : room.Alike room')
    (hagree : room.world.Agree room'.world s s' c) (hids : (due.map (·.id)).Nodup)
    (hids' : (due'.map (·.id)).Nodup) (hc : due[i]? = some c) (hc' : due'[i']? = some c)
    (halone : c.Alone due) (halone' : c.Alone due')
    (h : Chronicle room (opened due capacity s) past r)
    (h' : Chronicle room' (opened due' capacity' s') past' r') (hstored : Stored past)
    (hstored' : Stored past') :
    (Call.callsFor c.id (Deed.calls (deeds past)) <+: Call.callsFor c.id (Deed.calls (deeds past')) ∨
      Call.callsFor c.id (Deed.calls (deeds past')) <+:
        Call.callsFor c.id (Deed.calls (deeds past))) ∧
      (r.foreman = .finished → r'.foreman = .finished →
        Upshot.Retold (room.task i) (room'.task i') (r.upshot past c) (r'.upshot past' c) ∧
        ((Call.repliesFor c.id (Deed.calls (deeds past'))).dropLast =
            (Call.repliesFor c.id (Deed.calls (deeds past))).dropLast ∧
          (room.world.Unread ∨ r'.upshot past' c = r.upshot past c →
            Call.repliesFor c.id (Deed.calls (deeds past')) =
              Call.repliesFor c.id (Deed.calls (deeds past)))) ∧
        (c.status ≠ .failed → ∀ now, r.desk.ledger.At now → r'.desk.ledger.At now →
          Upshot.Retold (room.task i) (room'.task i') (r.datedUpshot past c)
            (r'.datedUpshot past' c))) := by
  have hdeeds := h.comparable hrooms hagree hids hids' hc hc' halone halone' h' hstored hstored'
  refine ⟨?_, ?_⟩
  · rw [h.callsFor_eq hids hc, h'.callsFor_eq hids' hc']
    exact hdeeds.imp (·.filterMap _) (·.filterMap _)
  · intro hfinished hfinished'
    obtain ⟨o, hk⟩ := h.ended_of_finished hfinished hc
    obtain ⟨o', hk'⟩ := h'.ended_of_finished hfinished' hc'
    have hcourse : Worker.Course room c (deedsOf i past) (.ended o) := h.course hk
    have hcourse' : Worker.Course room' c (deedsOf i' past') (.ended o') := h'.course hk'
    -- both workers are at their ends, so neither did more than the other
    obtain ⟨hsame, rfl⟩ := (hcourse.alike hrooms).ended_eq hcourse' hdeeds
    have hretold := hcourse.retold (room.task i) (room'.task i')
    have hupshot := h.upshot_eq hids hstored hfinished hk
    have hupshot' := h'.upshot_eq hids' hstored' hfinished' hk'
    rw [hsame] at hupshot'
    rw [← hupshot, ← hupshot'] at hretold
    refine ⟨hretold, ?_, ?_⟩
    · refine hretold.replies ?_ h.history h'.history rfl rfl
      intro xs ys u v row other hxs hys hearlier hearlier' hid _ htimeless hbefore
      exact hagree.update hearlier hearlier' ((h.apart hids hc halone hstored).mono hxs)
        ((h'.apart hids' hc' halone' hstored').mono hys) hbefore hid htimeless
    · intro hstatus now hat hat'
      rw [h.datedUpshot_eq hids hstored hfinished hk hat,
        h'.datedUpshot_eq hids' hstored' hfinished' hk' hat', hsame]
      exact hcourse.retold_dated hstatus now _ _

end Run

namespace Season

/-- The run with storm alone, in the world with frost. -/
def stormRun : List (Run.Turn × Deed) × Run Rehearsal :=
  Run.follow wet turns (Run.start wet [storm] { rows := [storm] })

theorem stormChronicle :
    Run.Chronicle wet (Run.start wet [storm] { rows := [storm] }) stormRun.1 stormRun.2 :=
  Run.chronicle_follow _ _ _

theorem summer_agree :
    wetScript.world.Agree dryScript.world { rows := wetDue } { rows := dryDue } summer := by
  refine Script.agree rfl rfl (by decide) ?_ ?_ rfl (by decide) rfl
  · intro v hv before
    apply Mishap.find?_append_others
    revert v
    decide
  · intro before
    apply Mishap.find?_append_others
    decide

theorem storm_agree :
    wetScript.world.Agree wetScript.world { rows := wetDue } { rows := [storm] } storm :=
  Script.agree rfl rfl (fun _ _ => rfl) (fun _ _ _ => rfl) (fun _ => rfl) rfl (fun _ _ => rfl) rfl

end Season

/-- Summer comes to the same beside storm and frost as beside hail, and so does storm, in another
task, on its own. -/
theorem Run.Chronicle.isolated_of_season :
    (Season.dryRun.2.upshot Season.dryRun.1 Season.summer =
        Season.wetRun.2.upshot Season.wetRun.1 Season.summer ∧
      Season.dryRun.2.desk.ledger.row? Season.summer.id =
        Season.wetRun.2.desk.ledger.row? Season.summer.id) ∧
      Upshot.Retold "3" "2" (Season.wetRun.2.upshot Season.wetRun.1 Season.storm)
        (Season.stormRun.2.upshot Season.stormRun.1 Season.storm) := by
  have hrooms : Season.wet.Alike Season.dry := ⟨rfl, rfl, rfl⟩
  have hwet : Season.wetDue[0]? = some Season.summer := rfl
  have hdry : Season.dryDue[1]? = some Season.summer := rfl
  obtain ⟨-, hover⟩ := Season.wetChronicle.isolated hrooms Season.summer_agree (by decide)
    (by decide) hwet hdry (by decide) (by decide) Season.dryChronicle (by decide +kernel)
    (by decide +kernel)
  obtain ⟨hretold, -, hdated⟩ := hover (by decide +kernel) (by decide +kernel)
  have hclocks := hdated (by decide) Sample.now (by decide +kernel) (by decide +kernel)
  have hsame := hretold.eq_of_sound (by decide +kernel)
  have hrow := congrArg Upshot.row (hclocks.eq_of_sound (by decide +kernel))
  simp only [datedUpshot] at hrow
  have hroom : Season.wet.Alike Season.wet := ⟨rfl, rfl, rfl⟩
  have hstorm : Season.wetDue[1]? = some Season.storm := rfl
  have hown : [Season.storm][0]? = some Season.storm := rfl
  obtain ⟨-, hover'⟩ := Season.wetChronicle.isolated hroom Season.storm_agree (by decide)
    (by decide) hstorm hown (by decide) (by decide) Season.stormChronicle (by decide +kernel)
    (by decide +kernel)
  have hbroken := (hover' (by decide +kernel) (by decide +kernel)).1
  have hthree : Season.wet.task 1 = "3" := by decide
  have htwo : Season.wet.task 0 = "2" := by decide
  rw [hthree, htwo] at hbroken
  exact ⟨⟨hsame, hrow⟩, hbroken⟩

/-- **Names of tasks are told.**  Storm breaks in the task 3 beside summer and frost, and in the task 2
on its own, and its row at the end says so. -/
theorem Run.Chronicle.isolated_tells_names :
    (Season.wet.world.Agree Season.wet.world { rows := Season.wetDue } { rows := [Season.storm] }
        Season.storm ∧
      Season.storm.isDue 0 = true ∧ Season.storm ∈ Season.wetDue ∧
      (Season.wetDue.map (·.id)).Nodup ∧ Season.storm.Alone Season.wetDue ∧
      Chronicle Season.wet (start Season.wet Season.wetDue { rows := Season.wetDue })
        Season.wetRun.1 Season.wetRun.2 ∧
      Chronicle Season.wet (start Season.wet [Season.storm] { rows := [Season.storm] })
        Season.stormRun.1 Season.stormRun.2 ∧
      Stored Season.wetRun.1 ∧ Stored Season.stormRun.1 ∧ Season.wetRun.2.foreman = .finished ∧
      Season.stormRun.2.foreman = .finished) ∧
    ((Season.wetRun.2.upshot Season.wetRun.1 Season.storm).row.map (·.failureReason) =
        some (some (Fault.brokenTask "out of paper" "3")) ∧
      (Season.stormRun.2.upshot Season.stormRun.1 Season.storm).row.map (·.failureReason) =
        some (some (Fault.brokenTask "out of paper" "2")) ∧
      Season.stormRun.2.upshot Season.stormRun.1 Season.storm ≠
        Season.wetRun.2.upshot Season.wetRun.1 Season.storm) := by
  refine ⟨⟨Season.storm_agree, by decide, by decide, by decide, by decide, Season.wetChronicle,
    Season.stormChronicle, by decide +kernel, by decide +kernel, by decide +kernel,
    by decide +kernel⟩, by decide +kernel, by decide +kernel, by decide +kernel⟩

end Mailshot

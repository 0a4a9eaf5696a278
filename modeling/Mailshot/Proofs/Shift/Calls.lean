import Mailshot.Proofs.Rehearsal
import Mailshot.Proofs.Shift.Progress

/-!
# Calls under way

A worker waits for the reply to one call before it makes the next, so of its calls to the provider all
have come back but one at most.  A worker with a call under way is at work, and so it has a badge; and
there are no more badges than campaigns that may be at work.

* `Worker.Course.starts`: the calls that a worker started, and those that came back;
* `Run.Chronicle.starts`: the same for all workers together;
* `Shift.play_peak_le`: the peak of the run that the program plays;
* `Shift.Reach.bounded`: how many may be at work, and how many calls may be under way.
-/

namespace Mailshot

namespace Phase

/-- The mail of the call to the provider that is under way. -/
def underWay? : Phase → Option Mail
  | .awaiting _ m _ => some m.mail
  | _ => none

theorem underWay?_toPosting (c : Campaign) (t : Tally) (ms : List Mailing) :
    (Worker.toPosting c t ms).underWay? = none := by
  cases ms <;> rfl

theorem underWay?_toContent {σ : Type} (room : Mailroom σ) (c : Campaign) (tenant : Tenant)
    (audience bodies : List String) (vs : List Variant) :
    (Worker.toContent room c tenant audience bodies vs).underWay? = none := by
  cases vs with
  | nil => exact underWay?_toPosting _ _ _
  | cons v rest => rfl

end Phase

namespace Worker

variable {σ : Type} {room : Mailroom σ} {c : Campaign}

/-- A call to the provider is under way from its start until it comes back. -/
theorem Move.starts {p q : Phase} {d : Deed} (h : Move room c p d q) :
    p.underWay?.toList ++ Deed.starts [d] =
      (Deed.mails [d]).map (·.1) ++ q.underWay?.toList := by
  cases h with
  | lookup reply => cases reply <;> rfl
  | page tenant p reply =>
      cases p.take reply <;> rfl
  | announce tenant audience =>
      rw [Phase.underWay?_toContent]
      rfl
  | template tenant audience bodies next rest reply =>
      cases hbody : Content.ofReply next.template reply with
      | ok html =>
          rw [afterBody, Phase.underWay?_toContent]
          rfl
      | fault | crash => rfl
  | start | fail => rfl
  | send t m rest reply => cases reply <;> rfl
  | progress t percent rest =>
      rw [Phase.underWay?_toPosting]
      rfl

/-- **The calls that a worker started** are those that came back, in order, and the one under way. -/
theorem Course.starts {deeds : List Deed} {p : Phase} (h : Course room c deeds p) :
    Deed.starts deeds = (Deed.mails deeds).map (·.1) ++ p.underWay?.toList := by
  induction h with
  | nil => rfl
  | snoc _ hmove ih =>
      rw [Deed.starts_append, ih, List.append_assoc, hmove.starts, Deed.mails_append, List.map_append,
        List.append_assoc]

theorem isSending_toNat (k : Worker) : k.isSending.toNat = k.phase.underWay?.toList.length := by
  obtain ⟨c, p⟩ := k
  cases p <;> rfl

end Worker

namespace Run

variable {σ : Type} {room : Mailroom σ} {due : List Campaign} {capacity : Nat} {s : σ} {r : Run σ}
  {past : List (Turn × Deed)}

/-- One deed of a worker starts a call, or one comes back, or neither. -/
theorem sending_set {i : Nat} {k : Worker} {d : Deed} {phase : Phase}
    (hk : r.workers[i]? = some k) (hmove : Worker.Move room k.campaign k.phase d phase) :
    (Deed.starts [d]).length + r.workers.countP (·.isSending) =
      (Deed.mails [d]).length + (r.workers.set i { k with phase }).countP (·.isSending) := by
  have hcount := countP_set_add (y := { k with phase }) (·.isSending) hk
  have hlength := congrArg List.length hmove.starts
  simp only [Worker.isSending_toNat] at hcount
  simp only [List.length_append, List.length_map] at hlength
  omega

/-- **The calls that all workers started** are as many as came back and are under way. -/
theorem Chronicle.starts (h : Chronicle room (opened due capacity s) past r) :
    (Deed.starts (deeds past)).length = (Deed.mails (deeds past)).length + r.sending.length := by
  have hsending : ∀ t : Run σ, t.sending.length = t.workers.countP (·.isSending) := by
    intro t
    rw [sending, ← List.countP_eq_length_filter]
  rw [hsending]
  induction h using Chronicle.transition_induction with
  | refl => rfl
  | @tail past t turn d u _ _ hstep ih =>
      simp only [deeds_append, deeds_told, Deed.starts_append, Deed.mails_append, List.length_append,
        ih]
      cases hstep with
      | spawn =>
          simp only [List.countP_append]
          rfl
      | act hk hmove | report hk hmove =>
          have hset := sending_set hk hmove
          simp only [Option.toList_some]
          omega
      | _ => rfl

end Run

namespace Shift

variable {σ : Type} {room : Mailroom σ} {h : Shift σ} {due : List Campaign} {capacity : Nat} {s : σ}

/-- No more workers are inside than may be at work. -/
theorem Reach.inside_le (hreach : Reach room (opened room due capacity s) h) :
    h.inside ≤ max 1 room.settings.maxConcurrency := by
  have hbadges := hreach.kept.badges
  rw [DispatchSettings.concurrency, Nat.max_comm] at hbadges
  omega

/-- No more calls to the provider are under way than campaigns may be at work. -/
theorem Reach.sending_le (hreach : Reach room (opened room due capacity s) h) :
    h.run.sending.length ≤ max 1 room.settings.maxConcurrency := by
  have hbusy : h.run.sending.length ≤ h.run.busy.length := by
    rw [Run.sending, Run.busy, ← List.countP_eq_length_filter, ← List.countP_eq_length_filter]
    refine List.countP_mono_left fun k _ hk => ?_
    obtain ⟨c, p⟩ := k
    cases p with
    | awaiting => rfl
    | _ => cases hk
  exact (hbusy.trans hreach.kept.busy_le).trans hreach.inside_le

/-- From whatever a run has come to, its peak stays within what may be at work. -/
theorem playFrom_peak_le {now : Instant} {fuel peak : Nat} {r : Run σ}
    (hpeak : peak ≤ max 1 room.settings.maxConcurrency)
    (hreach : Run.Reach room (Run.opened due capacity s) r) :
    (Run.playFrom room now fuel peak r).2 ≤ max 1 room.settings.maxConcurrency := by
  induction fuel generalizing peak r with
  | zero => exact hpeak
  | succ fuel ih =>
      rw [Run.playFrom]
      split
      · rename_i t ht
        obtain ⟨turn, -, hstep⟩ := List.exists_of_findSome?_eq_some ht
        have hnext : Run.Reach room (Run.opened due capacity s) t := hreach.tail ⟨turn, hstep⟩
        obtain ⟨h, hshift, rfl⟩ := reach_iff.mp hnext
        exact ih (max_le hpeak hshift.sending_le) hnext
      · exact hpeak

/-- **The peak of a run** that the program plays is within what may be at work. -/
theorem play_peak_le (room : Mailroom σ) (now : Instant) (due : List Campaign) (s : σ) :
    (Run.play room now due s).2 ≤ max 1 room.settings.maxConcurrency :=
  playFrom_peak_le (Nat.zero_le _) .refl

/-- **So many may be at work, and so many calls may be under way.**  The workers that were let in and
have not ended are never more than may be at work, whatever becomes of them.  Of the calls to the
provider that a worker started, one at most has not come back; over all workers, as many have not come
back as workers have one under way, each for a due campaign of its own, and these are no more than may
be at work.  Every due campaign has one worker or waits for it, and has had it by the end. -/
theorem Reach.bounded (hreach : Reach room (opened room due capacity s) h) :
    (h.run.busy.length ≤ h.inside ∧ h.inside ≤ max 1 room.settings.maxConcurrency) ∧
      (∀ past, Run.Chronicle room (Run.opened due capacity s) past h.run →
        (∀ i k, h.run.workers[i]? = some k → Deed.starts (Run.deedsOf i past) =
          (Deed.mails (Run.deedsOf i past)).map (·.1) ++ k.phase.underWay?.toList) ∧
        (Deed.starts (Run.deeds past)).length =
          (Deed.mails (Run.deeds past)).length + h.run.sending.length) ∧
      h.run.sending.length ≤ max 1 room.settings.maxConcurrency ∧
      (h.run.sending.map (·.campaign)).Sublist due ∧
      h.run.workers.map (·.campaign) ++ h.run.waiting = due ∧
      (h.run.foreman = .finished →
        h.run.workers.map (·.campaign) = due ∧ h.inside = 0) := by
  obtain ⟨past, hpast⟩ := Run.reach_iff_chronicle.mp hreach.toRun
  refine ⟨⟨hreach.kept.busy_le, hreach.inside_le⟩, ?_, hreach.sending_le, ?_, hpast.roster, ?_⟩
  · intro past' hpast'
    exact ⟨fun i k hk => (hpast'.course hk).starts, hpast'.starts⟩
  · have hworkers : (h.run.workers.map (·.campaign)).Sublist due := by
      rw [← hpast.roster]
      exact List.sublist_append_left _ _
    exact (List.filter_sublist.map _).trans hworkers
  · intro hfinished
    exact ⟨hpast.roster_of_finished hfinished, hreach.kept.inside_eq_zero hfinished⟩

end Shift

namespace Season

/-- The shift with storm and frost after so many turns. -/
def shift (turns : List Run.Turn) : Shift Rehearsal :=
  Shift.follow wet turns (Shift.opened wet wetDue 2 { rows := wetDue })

theorem reach_shift (turns : List Run.Turn) :
    Shift.Reach wet (Shift.opened wet wetDue 2 { rows := wetDue }) (shift turns) :=
  Shift.reach_follow _ _ _

end Season

namespace Shift

/-- Two campaigns may be at work, and both have a call under way while frost waits; in the end frost
had its worker too. -/
theorem Reach.bounded_of_season :
    ((Season.shift (Season.turns.take 33)).inside ≤ 2 ∧
        (Season.shift (Season.turns.take 33)).run.sending.length ≤ 2) ∧
      ((Season.shift (Season.turns.take 33)).run.sending.map (·.campaign) =
          [Season.summer, Season.storm] ∧
        (Season.shift (Season.turns.take 33)).run.waiting = [Season.frost]) ∧
      (Season.shift Season.turns).run.foreman = .finished ∧
      (Season.shift Season.turns).run.workers.map (·.campaign) = Season.wetDue := by
  obtain ⟨⟨-, hinside⟩, -, hsending, -⟩ := (Season.reach_shift (Season.turns.take 33)).bounded
  obtain ⟨-, -, -, -, -, hend⟩ := (Season.reach_shift Season.turns).bounded
  have hfinished : (Season.shift Season.turns).run.foreman = .finished := by decide +kernel
  refine ⟨⟨hinside, hsending⟩, ⟨?_, ?_⟩, hfinished, (hend hfinished).1⟩
  · decide +kernel
  · decide +kernel

end Shift

end Mailshot

import Mailshot.Proofs.Run.Twin
import Mailshot.Proofs.Store.Settled
import Mailshot.Proofs.Tracking

/-!
# Runs over a store

In a world that answers from a store every run comes to its end, since pages are fetched only while
members are left.  What the run comes to for a campaign is what the store at the start makes of it,
in whatever order turns are taken, and the rows on file say so.

* `Run.Chronicle.told_by_store`: the calls of workers get the answers of the store at the start;
* `Run.endsSurely_of_stocked`: such runs end;
* `Run.lettersFor`: what the recipients of a campaign were handed;
* `Run.Chronicle.settled_of_stocked`: the mail for a campaign, and its row at the end;
* `Mailroom.Dispatched.settled`: what a dispatch leaves on file;
* `Mailroom.Dispatched.campaign?_of_not_due`: other campaigns are as they were.
-/

namespace Mailshot

namespace Run

variable {σ : Type} {room : Mailroom σ} {store : σ → Store} {due : List Campaign} {capacity : Nat}
  {s t : σ} {r : Run σ} {past : List (Turn × Deed)} {i : Nat} {c : Campaign} {cutoff : Int}

/-- What one worker calls is called in the run. -/
theorem calls_deedsOf_subset (i : Nat) (past : List (Turn × Deed)) :
    Deed.calls (deedsOf i past) ⊆ Deed.calls (deeds past) := by
  intro made hmade
  obtain ⟨d, hd, hcall⟩ := List.mem_filterMap.mp hmade
  obtain ⟨p, hp, hown⟩ := List.mem_filterMap.mp hd
  refine List.mem_filterMap.mpr ⟨d, ?_, hcall⟩
  split at hown
  · exact Option.some.inj hown ▸ List.mem_map_of_mem hp
  · cases hown

/-- **The calls of a worker get the answers of the store at the start.** -/
theorem Chronicle.told_by_store (hw : room.world.Stocked store)
    (h : Chronicle room (opened due capacity s) past r) (i : Nat) :
    Worker.Told (store s) (deedsOf i past) :=
  fun made hmade => (hw.history h.history).1 made (calls_deedsOf_subset i past hmade)

/-- **Runs over a store end.** -/
theorem endsSurely_of_stocked (hw : room.world.Stocked store) (hfit : (store s).Fits)
    (due : List Campaign) (capacity : Nat) : EndsSurely room (opened due capacity s) := by
  refine endsSurely_of_pages (fun i => (due[i]?.bind fun c =>
    (store s).segments.get? c.segment).elim 0 List.length + 1) ?_
  intro past r h i k hk
  have hgathered := (h.course hk).gathered_le (h.told_by_store hw i) hfit
  rw [h.due_at hk]
  exact hgathered

/-- The mail of a campaign that was handed to the provider, told recipient by recipient, in order. -/
def lettersFor (past : List (Turn × Deed)) (id : Uuid) : List Mail :=
  ((Call.posted (Call.callsFor id (Deed.calls (deeds past)))).map (·.1)).flatMap Mail.letters

/-- **What a run over a store comes to for a campaign** is what the store makes of it. -/
theorem Chronicle.settled_of_stocked (hw : room.world.Stocked store) (hfit : (store s).Fits)
    (hids : (due.map (·.id)).Nodup) (h : Chronicle room (opened due capacity s) past r)
    (hfinished : r.foreman = .finished) (hc : c ∈ due) :
    lettersFor past c.id = (store s).letters room.sender c ∧
      ∃ row, r.desk.ledger.row? c.id = some row ∧ row.timeless = (store s).settled c := by
  obtain ⟨i, hi⟩ := List.mem_iff_getElem?.mp hc
  obtain ⟨o, hk⟩ := h.ended_of_finished hfinished hi
  obtain ⟨hletters, hrow, hsound⟩ := (h.course hk).settled (h.told_by_store hw i) hfit
  refine ⟨?_, ?_⟩
  · rw [lettersFor, h.callsFor_eq hids hi, Call.posted_calls]
    exact hletters
  · obtain ⟨row, hledger, htimeless⟩ := h.final_row hids (h.stored hw.returns) hfinished hk
    have hparting : Worker.parting? (room.task i) ⟨c, .ended o⟩ = none := by
      cases o with
      | broken text => exact (hsound text rfl).elim
      | mailed | failed => rfl
    rw [hparting, Option.toList_none, List.append_nil, hrow] at htimeless
    exact ⟨row, hledger, htimeless⟩

end Run

namespace Mailroom

variable {σ : Type} {room : Mailroom σ} {store : σ → Store} {s u : σ} {cutoff : Int}
  {past : List (Run.Turn × Deed)} {v : Verdict}

/-- The due campaigns of a world with a store. -/
theorem due_of_stocked (hw : room.world.Stocked store) (cutoff : Int) (s : σ) :
    ∃ t, room.world.due cutoff s = (.ok ((store s).due cutoff), t) ∧ store t = store s :=
  ⟨_, Prod.ext (hw.due cutoff s).1 rfl, (hw.due cutoff s).2⟩

/-- **What a dispatch leaves on file**: of due campaigns what the store at the start makes of them,
and every other campaign as it was. -/
theorem Dispatched.settled (hw : room.world.Stocked store) (hsound : (store s).Sound)
    (hfit : (store s).Fits) (hadmits : room.admits ((store s).due cutoff).length = true)
    (h : room.Dispatched cutoff s past v u) :
    (∀ c ∈ (store s).due cutoff,
      Run.lettersFor past c.id = (store s).letters room.sender c ∧
        ((store u).campaign? c.id).map (·.timeless) = some ((store s).settled c)) ∧
      ∀ id, id ∉ ((store s).due cutoff).map (·.id) →
        (store u).campaign? id = (store s).campaign? id := by
  obtain ⟨t, hdue, hsame⟩ := due_of_stocked hw cutoff s
  rcases h.run_cases hdue hadmits with ⟨hnone, -, -, rfl⟩ | ⟨r, hrun, hfinished, -, rfl⟩
  · exact ⟨by simp [hnone], fun id _ => by rw [hsame]⟩
  · have hids := (hsound.due cutoff).1
    have hstored := hrun.stored hw.returns
    refine ⟨fun c hc => ?_, fun id hid => ?_⟩
    · have hrow : ((store t).campaign? c.id).isSome := by
        rw [hsame, ((hsound.due cutoff).2 c hc).1]
        rfl
      have hown : ∀ row reply, Call.update row reply ∈ Deed.calls (Run.deeds past) →
          row.id = c.id → reply = .ok () := fun row reply hmade =>
        hw.files.ok_of_history (fun _ => hw.takes) (hsame ▸ hsound) hrow hrun.history
          (fun row reply hmade _ => hstored (row, reply) (Deed.mem_updates.mpr hmade)) hmade
      obtain ⟨hletters, row, hledger, htimeless⟩ :=
        hrun.settled_of_stocked hw (hsame ▸ hfit) hids hfinished hc
      obtain ⟨filed, hledger', hfiled, -⟩ :=
        hrun.row?_ledger hw.files hsound hdue hfinished hc hown hstored
      obtain rfl : row = filed := Option.some.inj (hledger.symm.trans hledger')
      rw [hsame] at hletters htimeless
      exact ⟨hletters, by rw [hfiled, Option.map_some, htimeless]⟩
    · rw [← hsame]
      refine hw.campaign?_of_untouched hrun.history fun row reply hmade heq => hid ?_
      rw [← heq]
      exact hrun.owner_mem hstored _ hmade

/-- **A campaign that was not due has the row that it had.** -/
theorem Dispatched.campaign?_of_not_due (hw : room.world.Stocked store) (hsound : (store s).Sound)
    (hfit : (store s).Fits) (hadmits : room.admits ((store s).due cutoff).length = true)
    (h : room.Dispatched cutoff s past v u) {id : Uuid} {row : Campaign}
    (hrow : (store s).campaign? id = some row) (hnotdue : row.isDue cutoff = false) :
    (store u).campaign? id = some row := by
  rw [(h.settled hw hsound hfit hadmits).2 id ?_, hrow]
  intro hid
  obtain ⟨c, hc, rfl⟩ := List.mem_map.mp hid
  obtain ⟨hfiled, hdue⟩ := hsound.mem_due.mp hc
  obtain rfl := Option.some.inj (hfiled.symm.trans hrow)
  rw [hnotdue] at hdue
  cases hdue

end Mailroom

end Mailshot

import Mailshot.Proofs.Office
import Mailshot.Proofs.Refusal

/-!
# Tuning

How many members a page has, how many recipients a call, how many campaigns are at work at a time and
how many events may wait is for the operator to choose.  Pages and batches, and the order of turns,
are different then, and the provider may refuse other calls; what recipients get and what is on file
in the end is not.

* `Mailroom.Dispatched.tuned`: two dispatches over stores with the same content come to the same;
* `Mailroom.tuning_unseen`: so it is in offices, whatever the settings are and whoever takes the mail.
-/

namespace Mailshot

namespace Mailroom

variable {σ τ ρ ρ' : Type} {room : Mailroom σ} {room' : Mailroom τ} {store : σ → Store}
  {store' : τ → Store} {s u : σ} {s' u' : τ} {cutoff : Int} {past past' : List (Run.Turn × Deed)}
  {v v' : Verdict}

/-- Two dispatches over stores with the same content hand over the same and leave the same on file,
whatever the settings are. -/
theorem Dispatched.tuned (h : room.Dispatched cutoff s past v u)
    (h' : room'.Dispatched cutoff s' past' v' u') (hw : room.world.Stocked store)
    (hw' : room'.world.Stocked store')
    (hsound : (store s).Sound) (hsound' : (store' s').Sound) (hsame : (store s).Same (store' s'))
    (hfit : (store s).Fits) (hsender : room'.sender = room.sender)
    (hadmits : room.admits ((store s).due cutoff).length = true)
    (hadmits' : room'.admits ((store' s').due cutoff).length = true) :
    (∀ c ∈ (store s).due cutoff, Run.lettersFor past' c.id = Run.lettersFor past c.id) ∧
      ∀ id, ((store' u').campaign? id).map (·.timeless) =
        ((store u).campaign? id).map (·.timeless) := by
  have hfit' : (store' s').Fits := hsame.toAlike.fits hfit
  have hdue : ∀ c, c ∈ (store' s').due cutoff ↔ c ∈ (store s).due cutoff :=
    fun c => hsame.mem_due hsound hsound'
  obtain ⟨hpicked, hothers⟩ := h.settled hw hsound hfit hadmits
  obtain ⟨hpicked', hothers'⟩ := h'.settled hw' hsound' hfit' hadmits'
  refine ⟨fun c hc => ?_, fun id => ?_⟩
  · rw [(hpicked' c ((hdue c).mpr hc)).1, (hpicked c hc).1, hsender, hsame.toAlike.letters]
  · by_cases hid : id ∈ ((store s).due cutoff).map (·.id)
    · obtain ⟨c, hc, rfl⟩ := List.mem_map.mp hid
      rw [(hpicked' c ((hdue c).mpr hc)).2, (hpicked c hc).2, hsame.toAlike.settled]
    · have hid' : id ∉ ((store' s').due cutoff).map (·.id) := by
        rintro hmem
        obtain ⟨c, hc, rfl⟩ := List.mem_map.mp hmem
        exact hid (List.mem_map_of_mem ((hdue c).mp hc))
      rw [hothers' id hid', hothers id hid, hsame.campaigns]

/-- The mailroom of an office whose mail goes out by courier. -/
def byCourier (settings : DispatchSettings) (sender : String) (task : Nat → String)
    (k : Courier ρ) : Mailroom (Office × ρ) :=
  (⟨Office.world, settings, sender, task⟩ : Mailroom Office).via k

theorem stocked_byCourier (settings : DispatchSettings) (sender : String) (task : Nat → String)
    (k : Courier ρ) : (byCourier settings sender task k).world.Stocked fun s => s.1.store :=
  Office.stocked.via k

open Run in
/-- **Tuning does not change what is delivered.**  Take two offices whose stores have the same content
and are in order, as every store is that was built up from nothing, with any settings each, and with
any two couriers, which may refuse different mail.  Every run over what is due comes to its end in
both.  Then the recipients of each due campaign were handed the same, one after another: for the same
variant, from the same sender, with the same subject and HTML.  And every campaign is on file with the
same row, but for the time of change: with the same status, size of its audience, progress and reason
of its failure.  This is so for all ratios, and for campaigns that lack something as well. -/
theorem tuning_unseen (settings settings' : DispatchSettings) (sender : String)
    (task task' : Nat → String) (k : Courier ρ) (k' : Courier ρ') {o o' : Office} (q : ρ) (q' : ρ')
    {cutoff : Int} (hsound : o.store.Sound) (hsound' : o'.store.Sound)
    (hsame : o.store.Same o'.store) (hfit : o.store.Fits)
    (hadmits : (byCourier settings sender task k).admits (o.store.due cutoff).length = true)
    (hadmits' : (byCourier settings' sender task' k').admits (o'.store.due cutoff).length = true) :
    EndsSurely (byCourier settings sender task k)
        (start (byCourier settings sender task k) (o.store.due cutoff) (o, q)) ∧
      EndsSurely (byCourier settings' sender task' k')
        (start (byCourier settings' sender task' k') (o'.store.due cutoff) (o', q')) ∧
      ∀ past v u past' v' u',
        (byCourier settings sender task k).Dispatched cutoff (o, q) past v u →
        (byCourier settings' sender task' k').Dispatched cutoff (o', q') past' v' u' →
        (∀ c ∈ o.store.due cutoff, lettersFor past' c.id = lettersFor past c.id) ∧
          ∀ id, (u'.1.store.campaign? id).map (·.timeless) =
            (u.1.store.campaign? id).map (·.timeless) := by
  have hstocked := stocked_byCourier settings sender task k
  have hstocked' := stocked_byCourier settings' sender task' k'
  refine ⟨endsSurely_of_stocked hstocked hfit _ _,
    endsSurely_of_stocked hstocked' (hsame.toAlike.fits hfit) _ _, ?_⟩
  intro past v u past' v' u' h h'
  exact h.tuned h' hstocked hstocked' hsound hsound' hsame hfit rfl hadmits hadmits'

end Mailroom

namespace Season

/-- The branch with pages and batches of two, where every second mail is refused. -/
def wide : Mailroom (Office × Nat) := .byCourier wet.settings wet.sender wet.task Sample.fickle

/-- The branch with the smallest pages and batches, one worker at a time, and no refusals. -/
def narrow : Mailroom (Office × Unit) :=
  .byCourier ⟨0, 0, 0, 0, 0⟩ wet.sender wet.task Sample.steady

/-- The run over what is due in the one. -/
def wideRun : List (Run.Turn × Deed) × Run (Office × Nat) :=
  Run.follow wide turns (Run.start wide [summer] (branch, 0))

/-- The run over what is due in the other, by another schedule. -/
def narrowRun : List (Run.Turn × Deed) × Run (Office × Unit) :=
  Run.follow narrow turns.reverse (Run.start narrow [summer] (branch, ()))

theorem wide_dispatched : wide.Dispatched 0 (branch, 0) wideRun.1
    (wideRun.2.firstFault.elim .ok .failed) wideRun.2.world := by
  have hdue : wide.world.due 0 (branch, 0) = (.ok [summer], (branch, 0)) :=
    congrArg (fun p => (p.1, p.2, 0)) branch_due
  exact .done hdue (by decide) (by decide) (Run.chronicle_follow _ _ _) (by decide +kernel)

theorem narrow_dispatched : narrow.Dispatched 0 (branch, ()) narrowRun.1
    (narrowRun.2.firstFault.elim .ok .failed) narrowRun.2.world := by
  have hdue : narrow.world.due 0 (branch, ()) = (.ok [summer], (branch, ())) :=
    congrArg (fun p => (p.1, p.2, ())) branch_due
  exact .done hdue (by decide) (by decide) (Run.chronicle_follow _ _ _) (by decide +kernel)

end Season

/-- Summer goes out in two calls or in three, one of them refused or none, and its members cannot tell;
nor can the row on file. -/
theorem Mailroom.tuning_unseen_of_season :
    (Call.posted (Deed.calls (Run.deeds Season.wideRun.1))).length = 2 ∧
      (Call.posted (Deed.calls (Run.deeds Season.narrowRun.1))).length = 3 ∧
      Run.lettersFor Season.narrowRun.1 Season.summer.id =
        Run.lettersFor Season.wideRun.1 Season.summer.id ∧
      (Season.narrowRun.2.world.1.store.campaign? Season.summer.id).map (·.timeless) =
        (Season.wideRun.2.world.1.store.campaign? Season.summer.id).map (·.timeless) := by
  have hsame : Season.branch.store.Same Season.branch.store := ⟨.refl _, fun _ => rfl⟩
  have hdue := Season.branch_store_due
  have hwide : Season.wide.admits (Season.branch.store.due 0).length = true := by
    rw [hdue]
    decide
  have hnarrow : Season.narrow.admits (Season.branch.store.due 0).length = true := by
    rw [hdue]
    decide
  obtain ⟨-, -, h⟩ := tuning_unseen Season.wet.settings ⟨0, 0, 0, 0, 0⟩ Season.wet.sender
    Season.wet.task Season.wet.task Sample.fickle Sample.steady 0 ()
    Season.branch_orderly.toSound Season.branch_orderly.toSound hsame Season.branch_fits hwide
    hnarrow
  obtain ⟨hletters, hrows⟩ := h _ _ _ _ _ _ Season.wide_dispatched Season.narrow_dispatched
  exact ⟨by decide +kernel, by decide +kernel, hletters _ (by simp [hdue]), hrows _⟩

end Mailshot

import Mailshot.Proofs.Run.Progress
import Mailshot.Proofs.Run.Retold
import Mailshot.Proofs.Run.Twin

/-!
# Side by side is one after another

Workers share the desk and the world.  In a world that keeps campaigns apart a run over many due
campaigns nevertheless comes to the same, for each of them, as runs over one campaign at a time, in
due order: every call with its reply, every row, and the result of the whole.  Only what the task of a
worker is called may differ, as each run starts tasks of its own, so the last row of a campaign whose
worker broke is the same but for this name.

* `Run.Series`: runs over one campaign at a time, each from where the one before it left the world;
* `Run.Series.settled`: such runs deal with each campaign;
* `Run.exists_series`: they come to their ends;
* `Run.Series.settled_alike`: the worker of a campaign does the same in both;
* `Run.Chronicle.sequential`: a run over all campaigns comes to the same, but for the names of tasks;
* `Run.Chronicle.sequential_tells_names`: these do differ.
-/

namespace Mailshot

/-- The mailroom where every task has this name. -/
def Mailroom.called {σ : Type} (room : Mailroom σ) (name : String) : Mailroom σ :=
  { room with task := fun _ => name }

theorem Mailroom.called_alike {σ : Type} (room : Mailroom σ) (name : String) :
    (room.called name).Alike room :=
  ⟨rfl, rfl, rfl⟩

namespace Run

variable {σ : Type} {room : Mailroom σ} {due : List Campaign} {capacity size : Nat} {s t : σ}
  {r : Run σ} {past : List (Turn × Deed)} {task : String} {c : Campaign} {i : Nat}

/-- A run over one campaign, with the name of the task of its worker. -/
structure Solo (σ : Type) where
  task : String
  past : List (Turn × Deed)
  run : Run σ

/-- Campaigns are mailed out one after another: each in a run of its own, which is over before the
next one starts. -/
inductive Series (room : Mailroom σ) (size : Nat) : σ → List Campaign → List (Solo σ) → Prop where
  | nil {s : σ} : Series room size s [] []
  | cons {s : σ} {c : Campaign} {rest : List Campaign} {solo : Solo σ} {solos : List (Solo σ)}
      (h : Chronicle (room.called solo.task) (opened [c] size s) solo.past solo.run)
      (hfinished : solo.run.foreman = .finished)
      (hrest : Series room size solo.run.world rest solos) :
      Series room size s (c :: rest) (solo :: solos)

theorem Series.length_eq {solos : List (Solo σ)} (h : Series room size s due solos) :
    solos.length = due.length := by
  induction h with
  | nil => rfl
  | cons _ _ _ ih => rw [List.length_cons, List.length_cons, ih]

theorem ids_nodup_singleton (c : Campaign) : (([c] : List Campaign).map (·.id)).Nodup :=
  List.nodup_singleton _

/-- After the run over the first of some campaigns, nothing was called for the others yet. -/
theorem Chronicle.silent_after {rest : List Campaign}
    (h : Chronicle room (opened [c] size t) past r) (hstored : Stored past) {before : List Call}
    (hc : c.id ∉ rest.map (·.id)) (hsilent : ∀ d ∈ c :: rest, ∀ made ∈ before, made.owner ≠ d.id) :
    ∀ d ∈ rest, ∀ made ∈ before ++ Deed.calls (deeds past), made.owner ≠ d.id := by
  intro d hd made hmade
  rcases List.mem_append.mp hmade with hmade | hmade
  · exact hsilent d (List.mem_cons_of_mem _ hd) made hmade
  · have howner : made.owner = c.id := by simpa using h.owner_mem hstored made hmade
    rw [howner]
    exact fun hid => hc (List.mem_map.mpr ⟨d, hd, hid.symm⟩)

/-- What tasks are called does not matter for what a worker does. -/
theorem Settled.of_called {done : List Deed} {o : Outcome} {name : String}
    (h : Settled (room.called name) s c past r task done o) : Settled room s c past r task done o where
  course := h.course.alike (room.called_alike name)
  answered := h.answered
  upshot := h.upshot
  handed := h.handed

/-- A run over one campaign deals with it, and its fault is that of the only worker. -/
theorem Chronicle.settled_solo {solo : Solo σ} (hstored : Stored solo.past)
    (h : Chronicle (room.called solo.task) (opened [c] size t) solo.past solo.run)
    (hfinished : solo.run.foreman = .finished) {before : List Call}
    (hbefore : room.world.History s before t) (hsilent : ∀ made ∈ before, made.owner ≠ c.id) :
    ∃ done o, Settled room s c solo.past solo.run solo.task done o ∧
      solo.run.firstFault = Worker.fault? solo.task ⟨c, .ended o⟩ := by
  have hfirst : ([c] : List Campaign)[0]? = some c := rfl
  obtain ⟨o, hk⟩ := h.ended_of_finished hfinished hfirst
  have hsettled := h.settled (ids_nodup_singleton c) hstored hfinished hbefore hsilent hk
  refine ⟨_, o, hsettled.of_called, ?_⟩
  have hone : solo.run.workers.length = 1 := h.length_workers hfinished
  rw [h.firstFault_eq hfinished, hone, List.range_one, List.findSome?_singleton, faultAt, hk]
  rfl

/-- **Runs one after another deal with each campaign.** -/
theorem Series.settled {solos : List (Solo σ)}
    (hreturns : ∀ row s, (room.world.update row s).1.Returns) (h : Series room size t due solos)
    (hids : (due.map (·.id)).Nodup) {before : List Call} (hbefore : room.world.History s before t)
    (hsilent : ∀ c ∈ due, ∀ made ∈ before, made.owner ≠ c.id) {solo : Solo σ}
    (hc : due[i]? = some c) (hsolo : solos[i]? = some solo) :
    ∃ done o, Settled room s c solo.past solo.run solo.task done o ∧
      solo.run.firstFault = Worker.fault? solo.task ⟨c, .ended o⟩ := by
  induction h generalizing before i with
  | nil => cases hc
  | @cons t d rest first solos hfirst hfinished _ ih =>
      obtain ⟨hd, hrest⟩ := List.nodup_cons.mp hids
      have hstored := hfirst.stored hreturns
      cases i with
      | zero =>
          obtain rfl : d = c := Option.some.inj hc
          obtain rfl : first = solo := Option.some.inj hsolo
          exact hfirst.settled_solo hstored hfinished hbefore (hsilent d List.mem_cons_self)
      | succ i =>
          have hnext : room.world.History s (before ++ Deed.calls (deeds first.past))
              first.run.world := World.history_append.mpr ⟨t, hbefore, hfirst.history⟩
          exact ih hrest hnext (hfirst.silent_after hstored hd hsilent) hc hsolo

/-- A worker that comes to its end once does no more deeds in any run over its campaign alone. -/
theorem Chronicle.length_deedsOf_le {done : List Deed} {o : Outcome} {name : String}
    (hapart : room.world.Separate s) (hdone : Worker.Course room c done (.ended o))
    (hanswered : room.world.Answered s c.id (Deed.calls done))
    (h : Chronicle (room.called name) (opened [c] size t) past r) {before : List Call}
    (hbefore : room.world.History s before t) (hsilent : ∀ made ∈ before, made.owner ≠ c.id)
    (i : Nat) : (deedsOf i past).length ≤ done.length := by
  cases hk : r.workers[i]? with
  | none =>
      rw [(h.courses i).2 (List.getElem?_eq_none_iff.mp hk)]
      exact Nat.zero_le _
  | some k =>
      have hi := h.due_at hk
      obtain ⟨rfl, rfl⟩ : i = 0 ∧ c = k.campaign := by
        simpa [List.getElem?_singleton] using hi
      have hcalls := h.answered (ids_nodup_singleton k.campaign) hbefore hsilent hi
      have hcourse := (h.course hk).alike (room.called_alike name)
      exact hdone.length_le hcourse (hcourse.comparable hapart hdone hcalls hanswered).symm

/-- **Runs one after another come to their ends** where the worker of each campaign does, whatever
their tasks are called. -/
theorem exists_series (hapart : room.world.Separate s)
    (hreturns : ∀ row s, (room.world.update row s).1.Returns) (hids : (due.map (·.id)).Nodup)
    (hends : ∀ c ∈ due, ∃ done o, Worker.Course room c done (.ended o) ∧
      room.world.Answered s c.id (Deed.calls done)) {before : List Call}
    (hbefore : room.world.History s before t)
    (hsilent : ∀ c ∈ due, ∀ made ∈ before, made.owner ≠ c.id) (names : Nat → String) :
    ∃ solos, Series room size t due solos ∧
      ∀ (i : Nat) (solo : Solo σ), solos[i]? = some solo → solo.task = names i := by
  induction due generalizing t before names with
  | nil => exact ⟨[], .nil, by simp⟩
  | cons c rest ih =>
      obtain ⟨hc, hrest⟩ := List.nodup_cons.mp hids
      obtain ⟨done, o, hdone, hanswered⟩ := hends c List.mem_cons_self
      have hcsilent := hsilent c List.mem_cons_self
      have hmost : ∀ past r, Chronicle (room.called (names 0)) (opened [c] size t) past r →
          ∀ i, (deedsOf i past).length ≤ done.length := fun _ _ h =>
        h.length_deedsOf_le hapart hdone hanswered hbefore hcsilent
      obtain ⟨past, r, hsolo, hfinished⟩ := Chronicle.finishes hmost .refl
      have hstored := hsolo.stored hreturns
      have hnext : room.world.History s (before ++ Deed.calls (deeds past)) r.world :=
        World.history_append.mpr ⟨t, hbefore, hsolo.history⟩
      obtain ⟨solos, hsolos, hnames⟩ := ih hrest (fun d hd => hends d (List.mem_cons_of_mem _ hd))
        hnext (hsolo.silent_after hstored hc hsilent) fun i => names (i + 1)
      refine ⟨⟨names 0, past, r⟩ :: solos, .cons hsolo hfinished hsolos, ?_⟩
      intro i solo hsolo
      cases i with
      | zero =>
          obtain rfl := Option.some.inj hsolo
          rfl
      | succ i => exact hnames i solo hsolo

/-- A run that is over has dealt with the due campaign at each place. -/
theorem Chronicle.settled_at (hids : (due.map (·.id)).Nodup)
    (h : Chronicle room (opened due capacity s) past r) (hstored : Stored past)
    (hfinished : r.foreman = .finished) (hc : due[i]? = some c) :
    ∃ done o, Settled room s c past r (room.task i) done o ∧
      r.workers[i]? = some ⟨c, .ended o⟩ := by
  obtain ⟨o, hk⟩ := h.ended_of_finished hfinished hc
  have hbefore : room.world.History s [] s := rfl
  exact ⟨_, o, h.settled hids hstored hfinished hbefore (by simp) hk, hk⟩

/-- What is found first in a list, and what is found first by its places, go together where the things
that are found at each place do. -/
theorem findSome?_places {α β γ : Type} {found : α → Option β} {foundAt : Nat → Option γ}
    {R : Nat → α → β → γ → Prop} {xs : List α}
    (h : ∀ i x, xs[i]? = some x → Option.Rel (R i x) (found x) (foundAt i)) :
    Option.Rel (fun a b => ∃ i x, xs[i]? = some x ∧ R i x a b) (xs.findSome? found)
      ((List.range xs.length).findSome? foundAt) := by
  induction xs using List.reverseRecOn with
  | nil => exact .none
  | append_singleton xs last ih =>
      have hlast := h xs.length last List.getElem?_concat_length
      have hbefore : ∀ {i : Nat} {x : α}, xs[i]? = some x → (xs ++ [last])[i]? = some x := by
        intro i x hx
        rw [List.getElem?_append_left (List.getElem?_eq_some_iff.mp hx).1, hx]
      have hearlier := ih fun i x hx => h i x (hbefore hx)
      rw [List.findSome?_append, List.length_append, List.length_singleton, List.range_succ,
        List.findSome?_append, List.findSome?_singleton, List.findSome?_singleton]
      generalize xs.findSome? found = a at hearlier
      generalize (List.range xs.length).findSome? foundAt = b at hearlier
      cases hearlier with
      | some hboth =>
          obtain ⟨i, x, hx, hR⟩ := hboth
          exact .some ⟨i, x, hbefore hx, hR⟩
      | none =>
          rw [Option.none_or, Option.none_or]
          generalize found last = a at hlast
          generalize foundAt xs.length = b at hlast
          cases hlast with
          | some hR => exact .some ⟨_, last, List.getElem?_concat_length, hR⟩
          | none => exact .none

/-- In the run over all campaigns and in one of its own, the worker of a campaign does the same and ends
in the same way. -/
theorem Series.settled_alike {solos : List (Solo σ)} (hsolos : Series room size s due solos)
    (hids : (due.map (·.id)).Nodup) (hapart : room.world.Separate s)
    (hreturns : ∀ row s, (room.world.update row s).1.Returns)
    (h : Chronicle room (opened due capacity s) past r) (hfinished : r.foreman = .finished)
    {solo : Solo σ} (hc : due[i]? = some c) (hsolo : solos[i]? = some solo) :
    ∃ done o, Settled room s c past r (room.task i) done o ∧
      Settled room s c solo.past solo.run solo.task done o ∧
      r.faultAt room i = Worker.fault? (room.task i) ⟨c, .ended o⟩ ∧
      solo.run.firstFault = Worker.fault? solo.task ⟨c, .ended o⟩ := by
  obtain ⟨done, o, hsettled, hk⟩ := h.settled_at hids (h.stored hreturns) hfinished hc
  have hbefore : room.world.History s [] s := rfl
  obtain ⟨done', o', hsettled', hfault⟩ := hsolos.settled hreturns hids hbefore (by simp) hc hsolo
  obtain ⟨rfl, rfl⟩ := hsettled.ended_unique hapart hsettled'
  refine ⟨_, _, hsettled, hsettled', ?_, hfault⟩
  rw [faultAt, hk]
  rfl

/-- Runs one after another have the result of the run over all campaigns, but for the name of a
task. -/
theorem Series.firstFault_retold {solos : List (Solo σ)} (hsolos : Series room size s due solos)
    (hids : (due.map (·.id)).Nodup) (hapart : room.world.Separate s)
    (hreturns : ∀ row s, (room.world.update row s).1.Returns)
    (h : Chronicle room (opened due capacity s) past r) (hfinished : r.foreman = .finished) :
    Option.Rel (fun f g => ∃ (i : Nat) (solo : Solo σ), solos[i]? = some solo ∧
      Fault.Retold solo.task (room.task i) f g) (solos.findSome? (·.run.firstFault))
        r.firstFault := by
  have hlength : solos.length = r.workers.length := by
    rw [hsolos.length_eq, h.length_workers hfinished]
  rw [h.firstFault_eq hfinished, ← hlength]
  apply findSome?_places
  intro i solo hsolo
  have hi : i < due.length := by
    rw [← hsolos.length_eq]
    exact (List.getElem?_eq_some_iff.mp hsolo).1
  obtain ⟨done, o, -, -, hfault, hfault'⟩ :=
    hsolos.settled_alike hids hapart hreturns h hfinished (List.getElem?_eq_getElem hi) hsolo
  rw [hfault, hfault']
  exact Worker.fault_retold _ _ _

/-- **Side by side is one after another.**  In a world that keeps campaigns apart and where storing a
row never crashes, take a run that is over, whatever turns were taken, with room for however many
workers and events.  Runs over one campaign after another, in due order, come to their ends, whatever
their tasks are called.  They come to the same for each campaign: the same calls with the same replies,
the same rows handed over and the same row at the end, times of change aside; and they have the same
result.  Only where a worker broke, the last row tells it with the name of the task, which is the
one of its run, and so does the result.  Where storing a row depends on the rows of its campaign
alone, the same rows are stored, except that a last row with another name may be answered otherwise
if the world reads it.  A run over all campaigns with room for another number of workers, say one,
comes to exactly the same if its tasks have the same names. -/
theorem Chronicle.sequential (hids : (due.map (·.id)).Nodup) (hapart : room.world.Separate s)
    (hreturns : ∀ row s, (room.world.update row s).1.Returns)
    (h : Chronicle room (opened due capacity s) past r) (hfinished : r.foreman = .finished)
    (size : Nat) :
    (∀ names : Nat → String, ∃ solos, Series room size s due solos ∧
      ∀ (i : Nat) (solo : Solo σ), solos[i]? = some solo → solo.task = names i) ∧
    (∀ solos, Series room size s due solos →
      (∀ (i : Nat) (c : Campaign) (solo : Solo σ), due[i]? = some c → solos[i]? = some solo →
        Upshot.Retold solo.task (room.task i) (solo.run.upshot solo.past c) (r.upshot past c) ∧
        (room.world.StoresApart s →
          (Call.repliesFor c.id (Deed.calls (deeds past))).dropLast =
            (Call.repliesFor c.id (Deed.calls (deeds solo.past))).dropLast ∧
          (room.world.Unread ∨ r.upshot past c = solo.run.upshot solo.past c →
            Call.repliesFor c.id (Deed.calls (deeds past)) =
              Call.repliesFor c.id (Deed.calls (deeds solo.past))))) ∧
      Option.Rel (fun f g => ∃ (i : Nat) (solo : Solo σ), solos[i]? = some solo ∧
        Fault.Retold solo.task (room.task i) f g) (solos.findSome? (·.run.firstFault))
          r.firstFault) ∧
    ∀ (most capacity' : Nat) (past' : List (Turn × Deed)) (r' : Run σ),
      Chronicle { room with settings := { room.settings with maxConcurrency := most } }
        (opened due capacity' s) past' r' → r'.foreman = .finished →
      (∀ c ∈ due, r'.upshot past' c = r.upshot past c ∧
        (room.world.StoresApart s → Call.rowsFor c.id (Deed.calls (deeds past')) =
          Call.rowsFor c.id (Deed.calls (deeds past)))) ∧
      r'.firstFault = r.firstFault := by
  have hbefore : room.world.History s [] s := rfl
  have hstored := h.stored hreturns
  refine ⟨?_, ?_, ?_⟩
  · refine exists_series hapart hreturns hids ?_ hbefore (by simp)
    intro c hc
    obtain ⟨i, hi⟩ := List.mem_iff_getElem?.mp hc
    obtain ⟨done, o, hsettled, -⟩ := h.settled_at hids hstored hfinished hi
    exact ⟨done, o, hsettled.course, hsettled.answered⟩
  · intro solos hsolos
    refine ⟨?_, hsolos.firstFault_retold hids hapart hreturns h hfinished⟩
    intro i c solo hc hsolo
    obtain ⟨done, o, hsettled, hsettled', -⟩ :=
      hsolos.settled_alike hids hapart hreturns h hfinished hc hsolo
    have hretold := hsettled.course.retold solo.task (room.task i)
    rw [← hsettled.upshot, ← hsettled'.upshot] at hretold
    exact ⟨hretold, fun hstores => hsettled'.replies hstores hsettled hretold⟩
  · intro most capacity' past' r' h' hfinished'
    have hrooms : room.Alike { room with settings := { room.settings with maxConcurrency := most } } :=
      ⟨rfl, rfl, rfl⟩
    have hcomparable := h.comparable_of_separate hrooms rfl hids hapart h'
    refine ⟨fun c hc => ?_, h.firstFault_same hrooms hcomparable h' hfinished hfinished' rfl⟩
    have hupshot := h.upshot_same hrooms hcomparable h' hfinished hfinished' rfl hids hstored
      (h'.stored hreturns) hc
    refine ⟨hupshot, fun hstores => ?_⟩
    exact World.rows_unique hstores h'.history h.history (congrArg Upshot.rows hupshot)

end Run

namespace Sample

/-- A due campaign in a run of its own, by the same schedule. -/
def solo (c : Campaign) (task : String) : Run.Solo Unit where
  task
  past := (Run.follow (room.called task) turns (Run.opened [c] 3 ())).1
  run := (Run.follow (room.called task) turns (Run.opened [c] 3 ())).2

theorem soloChronicle (c : Campaign) (task : String) (s : Unit) :
    Run.Chronicle (room.called (solo c task).task) (Run.opened [c] 3 s) (solo c task).past
      (solo c task).run := by
  simp only [solo]
  exact Run.chronicle_follow _ _ _

/-- Spring and autumn one after another.  Each run has a clerk of its own, whose task takes a number,
so the workers' tasks have the numbers 2 and 4. -/
def solos : List (Run.Solo Unit) := [solo spring "2", solo autumn "4"]

theorem series : Run.Series room 3 () due solos :=
  .cons (soloChronicle spring "2" ()) (by decide +kernel)
    (.cons (soloChronicle autumn "4" _) (by decide +kernel) .nil)

theorem separate : room.world.Separate () :=
  ⟨fun _ _ _ _ _ => rfl, fun _ _ _ _ _ => rfl, fun _ _ _ _ _ _ => rfl, fun _ _ _ _ _ => rfl⟩

theorem returns (row : Campaign) (s : Unit) : (room.world.update row s).1.Returns := by
  intro text hcrash
  cases hcrash

end Sample

/-- Mailed out after spring, autumn breaks all the same, in the task 4 instead of 3. -/
theorem Run.Chronicle.sequential_of_sample :
    (∃ solos, Series Sample.room 3 () Sample.due solos) ∧
      Upshot.Retold "4" "3" ((Sample.solo Sample.autumn "4").run.upshot
        (Sample.solo Sample.autumn "4").past Sample.autumn)
        (Sample.run.2.upshot Sample.run.1 Sample.autumn) := by
  obtain ⟨hexists, hall, -⟩ := Sample.chronicle.sequential (by decide) Sample.separate
    Sample.returns (by decide +kernel) 3
  obtain ⟨solos, hsolos, -⟩ := hexists fun i => toString (2 * i + 2)
  obtain ⟨heach, -⟩ := hall _ Sample.series
  have hretold := (heach 1 Sample.autumn (Sample.solo Sample.autumn "4") rfl rfl).1
  have hthree : Sample.room.task 1 = "3" := by decide
  rw [hthree] at hretold
  exact ⟨⟨solos, hsolos⟩, hretold⟩

/-- **Names of tasks are told.**  The row of autumn and the result are not the same when it is mailed
out after spring as when both are mailed out in one run. -/
theorem Run.Chronicle.sequential_tells_names :
    ((Sample.due.map (·.id)).Nodup ∧ Sample.room.world.Separate () ∧
      (∀ row s, (Sample.room.world.update row s).1.Returns) ∧
      Chronicle Sample.room (opened Sample.due 1 ()) Sample.run.1 Sample.run.2 ∧
      Sample.run.2.foreman = .finished ∧ Series Sample.room 3 () Sample.due Sample.solos) ∧
    ((Sample.run.2.upshot Sample.run.1 Sample.autumn).row ≠
      ((Sample.solo Sample.autumn "4").run.upshot (Sample.solo Sample.autumn "4").past
        Sample.autumn).row ∧
      Sample.run.2.firstFault = some (brokenFault Sample.autumn.id "3" "out of paper") ∧
      Sample.solos.findSome? (·.run.firstFault) =
        some (brokenFault Sample.autumn.id "4" "out of paper") ∧
      Sample.run.2.firstFault ≠ Sample.solos.findSome? (·.run.firstFault)) := by
  refine ⟨⟨by decide, Sample.separate, Sample.returns, Sample.chronicle, by decide +kernel,
    Sample.series⟩, by decide +kernel, by decide +kernel, by decide +kernel, by decide +kernel⟩

end Mailshot

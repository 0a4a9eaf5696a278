import Mailshot.Feed
import Mailshot.Proofs.Desk
import Mailshot.Proofs.Replay

/-!
# The log of a feed

What happens while producers feed a desk is put down in a log: an event that a producer brings, an
event that the clerk enters, and a row that the clerk hands over to be stored.  Until a crash breaks
the clerk, every event brought is entered in its turn or waits, and every row that came of an entry is
handed over or about to be.

* `Feed.Transition`: every way in which a feed goes on;
* `Feed.Chronicle`: turns one after another, with their log;
* `Feed.Chronicle.history`: the rows handed over are a history of the world;
* `Feed.Kept`: what the log tells of the desk and of the producers;
* `Feed.Kept.transition`, `Feed.Chronicle.kept`: it does so after every transition, and all along.
-/

namespace Mailshot.Feed

/-- What is put down in the log. -/
inductive Mark where
  | brought (i : Nat) (e : Event)
  | entered (now : Instant) (e : Event)
  | stored (row : Campaign) (reply : Reply Unit)
  deriving DecidableEq, Repr

/-- The events brought, each with the place of its producer. -/
def brought (log : List Mark) : List (Nat × Event) :=
  log.filterMap fun
    | .brought i e => some (i, e)
    | _ => none

/-- The events entered, each with its time. -/
def entered (log : List Mark) : List (Instant × Event) :=
  log.filterMap fun
    | .entered now e => some (now, e)
    | _ => none

/-- The rows handed over to be stored, with how each call came back. -/
def stored (log : List Mark) : List (Campaign × Reply Unit) :=
  log.filterMap fun
    | .stored row reply => some (row, reply)
    | _ => none

@[simp] theorem brought_append (xs ys : List Mark) : brought (xs ++ ys) = brought xs ++ brought ys := by
  simp [brought]

@[simp] theorem entered_append (xs ys : List Mark) : entered (xs ++ ys) = entered xs ++ entered ys := by
  simp [entered]

@[simp] theorem stored_append (xs ys : List Mark) : stored (xs ++ ys) = stored xs ++ stored ys := by
  simp [stored]

@[simp] theorem brought_brought (i : Nat) (e : Event) : brought [.brought i e] = [(i, e)] := rfl

@[simp] theorem brought_entered (now : Instant) (e : Event) : brought [.entered now e] = [] := rfl

@[simp] theorem brought_stored (row : Campaign) (reply : Reply Unit) :
    brought [.stored row reply] = [] := rfl

@[simp] theorem entered_brought (i : Nat) (e : Event) : entered [.brought i e] = [] := rfl

@[simp] theorem entered_entered (now : Instant) (e : Event) :
    entered [.entered now e] = [(now, e)] := rfl

@[simp] theorem entered_stored (row : Campaign) (reply : Reply Unit) :
    entered [.stored row reply] = [] := rfl

@[simp] theorem stored_brought (i : Nat) (e : Event) : stored [.brought i e] = [] := rfl

@[simp] theorem stored_entered (now : Instant) (e : Event) : stored [.entered now e] = [] := rfl

@[simp] theorem stored_stored (row : Campaign) (reply : Reply Unit) :
    stored [.stored row reply] = [(row, reply)] := rfl

variable {σ : Type}

/-- Producers with the events that they have yet to bring, at a desk for some campaigns. -/
def opened (rows : List Campaign) (lists : List (List Event)) (capacity : Nat) (s : σ) : Feed σ :=
  { producers := lists.map some, desk := .opened rows capacity, world := s }

/-- What a turn puts down in the log, if anything. -/
def mark? (w : World σ) (f : Feed σ) : Turn → Option Mark
  | .producer i =>
    match f.producers[i]? with
    | some (some (e :: _)) => some (.brought i e)
    | _ => none
  | .clerk now =>
    match f.desk.clerk with
    | .waiting => f.desk.queue.head?.map (.entered now)
    | .storing row => some (.stored row (w.update row f.world).1)
    | _ => none

section Mark

variable {w : World σ} {f : Feed σ} {i : Nat} {e : Event} {now : Instant}

theorem mark?_bring {rest : List Event} (hi : f.producers[i]? = some (some (e :: rest))) :
    mark? w f (.producer i) = some (.brought i e) := by
  simp only [mark?, hi]

theorem mark?_leave (hi : f.producers[i]? = some (some [])) : mark? w f (.producer i) = none := by
  simp only [mark?, hi]

theorem mark?_enter {rest : List Event} (hclerk : f.desk.clerk = .waiting)
    (hqueue : f.desk.queue = e :: rest) : mark? w f (.clerk now) = some (.entered now e) := by
  simp only [mark?, hclerk, hqueue, List.head?_cons, Option.map_some]

theorem mark?_close (hclerk : f.desk.clerk = .waiting) (hqueue : f.desk.queue = []) :
    mark? w f (.clerk now) = none := by
  simp only [mark?, hclerk, hqueue, List.head?_nil, Option.map_none]

theorem mark?_store {row : Campaign} {reply : Reply Unit} {t : σ}
    (hclerk : f.desk.clerk = .storing row) (hreply : w.update row f.world = (reply, t)) :
    mark? w f (.clerk now) = some (.stored row reply) := by
  simp only [mark?, hclerk, hreply]

end Mark

/-- Every way in which a feed goes on. -/
inductive Transition (w : World σ) (f : Feed σ) : Turn → Feed σ → Prop where
  | bring {i : Nat} {e : Event} {rest : List Event} {desk : Desk} {counters : Counters}
      (hi : f.producers[i]? = some (some (e :: rest)))
      (hoffer : f.desk.offer e = some (desk, counters)) :
      Transition w f (.producer i)
        { f with producers := f.producers.set i (some rest), desk,
                 counters := f.counters + counters }
  | leave {i : Nat} (hi : f.producers[i]? = some (some [])) :
      Transition w f (.producer i) { f with producers := f.producers.set i none }
  | clerk {now : Instant} {desk : Desk} {counters : Counters} {t : σ}
      (hwork : Desk.Working w now f.held f.desk f.world desk counters t) :
      Transition w f (.clerk now) { f with desk, counters := f.counters + counters, world := t }

/-- **A turn is a transition.** -/
theorem step_transition {w : World σ} {f g : Feed σ} {turn : Turn} (h : step w f turn = some g) :
    Transition w f turn g := by
  cases turn with
  | producer i =>
      unfold step at h
      cases hi : f.producers[i]? with
      | none => simp [hi] at h
      | some list =>
          cases list with
          | none => simp [hi] at h
          | some events =>
              cases events with
              | nil =>
                  simp only [hi, Option.some.injEq] at h
                  exact h ▸ .leave hi
              | cons e rest =>
                  simp only [hi, Option.map_eq_some_iff] at h
                  obtain ⟨⟨desk, counters⟩, hoffer, rfl⟩ := h
                  exact .bring hi hoffer
  | clerk now =>
      simp only [step, Option.map_eq_some_iff] at h
      obtain ⟨⟨desk, counters, t⟩, hwork, rfl⟩ := h
      exact .clerk (Desk.work_working hwork)

/-- Turns lead from one state to another, with this log. -/
inductive Chronicle (w : World σ) (f : Feed σ) : List Mark → Feed σ → Prop where
  | refl : Chronicle w f [] f
  | tail {log g turn h} : Chronicle w f log g → step w g turn = some h →
      Chronicle w f (log ++ (mark? w g turn).toList) h

variable {w : World σ} {rows : List Campaign} {lists : List (List Event)} {capacity : Nat} {s : σ}
  {f g : Feed σ} {log : List Mark}

/-- The states that are reached are those that chronicles lead to. -/
theorem reach_iff_chronicle : Reach w f g ↔ ∃ log, Chronicle w f log g := by
  constructor
  · intro h
    induction h with
    | refl => exact ⟨[], .refl⟩
    | tail _ hstep ih =>
        obtain ⟨log, hlog⟩ := ih
        obtain ⟨turn, hturn⟩ := hstep
        exact ⟨_, hlog.tail hturn⟩
  · rintro ⟨log, h⟩
    induction h with
    | refl => exact .refl
    | tail _ hturn ih => exact .tail ih ⟨_, hturn⟩

/-- Takes turns one after another, passing over those in which nobody can go on. -/
def follow (w : World σ) (turns : List Turn) (f : Feed σ) : List Mark × Feed σ :=
  turns.foldl (fun p turn =>
    match step w p.2 turn with
    | some g => (p.1 ++ (mark? w p.2 turn).toList, g)
    | none => p) ([], f)

theorem chronicle_follow (w : World σ) (turns : List Turn) (f : Feed σ) :
    Chronicle w f (follow w turns f).1 (follow w turns f).2 := by
  unfold follow
  induction turns using List.reverseRecOn with
  | nil => exact .refl
  | append_singleton turns turn ih =>
      rw [List.foldl_append, List.foldl_cons, List.foldl_nil]
      split
      · next g hg => exact ih.tail hg
      · exact ih

/-- What the program comes to when it runs, some chronicle leads to. -/
theorem chronicle_play (w : World σ) (now : Instant) (rows : List Campaign)
    (lists : List (List Event)) (capacity : Nat) (s : σ) :
    ∃ log, Chronicle w (opened rows lists capacity s) log
      (play w now lists (.opened rows capacity) s) := by
  have hreach : ∀ fuel g, Reach w (opened rows lists capacity s) g →
      Reach w (opened rows lists capacity s) (playFrom w now fuel g) := by
    intro fuel
    induction fuel with
    | zero => exact fun _ h => h
    | succ fuel ih =>
        intro g hg
        unfold playFrom
        simp only
        split
        · rename_i next hnext
          obtain ⟨turn, -, hstep⟩ := List.exists_of_findSome?_eq_some hnext
          exact ih next (hg.tail ⟨turn, hstep⟩)
        · exact hg
  exact reach_iff_chronicle.mp (hreach turnLimit _ .refl)

/-- **The rows handed over are a history of the world.** -/
theorem Chronicle.history (h : Chronicle w f log g) :
    w.History f.world ((stored log).map fun p => .update p.1 p.2) g.world := by
  induction h with
  | refl => rfl
  | @tail log g turn h _ hstep ih =>
      have hlast : w.History g.world
          ((stored (mark? w g turn).toList).map fun p => .update p.1 p.2) h.world := by
        cases step_transition hstep with
        | bring hi =>
            rw [mark?_bring hi]
            rfl
        | leave hi =>
            rw [mark?_leave hi]
            rfl
        | clerk hwork =>
            cases hwork with
            | enter hclerk hqueue =>
                rw [mark?_enter hclerk hqueue]
                rfl
            | close hclerk hqueue =>
                rw [mark?_close hclerk hqueue]
                rfl
            | store hclerk hreply | storeCrash hclerk hreply =>
                rw [mark?_store hclerk hreply]
                exact World.history_singleton.mpr hreply
      rw [stored_append, List.map_append]
      exact World.history_append.mpr ⟨_, ih, hlast⟩

/-- The events that the producer at a place has yet to bring. -/
def left (f : Feed σ) (i : Nat) : List Event :=
  (f.producers[i]?.bind id).getD []

/-- What the log tells of a feed whose clerk is not broken. -/
structure Kept (rows : List Campaign) (lists : List (List Event)) (log : List Mark) (g : Feed σ) :
    Prop where
  ledger : g.desk.ledger = (Ledger.ofRows rows).replay (entered log)
  /-- What each producer brought is the beginning of its list, and it has the rest. -/
  lists : ∀ i, ((brought log).filter (·.1 = i)).map (·.2) ++ g.left i = lists[i]?.getD []
  queue : (brought log).map (·.2) = (entered log).map (·.2) ++ g.desk.queue
  handed : (stored log).map (·.1) ++ g.desk.clerk.row?.toList = g.desk.ledger.rowsEntered
  returned : ∀ p ∈ stored log, p.2.Returns
  /-- Nobody holds a desk that is closed. -/
  closed : g.desk.clerk = .closed → g.desk.queue = [] ∧ g.held = false

/-- A producer that has not let go holds the desk. -/
theorem held_of_producer {i : Nat} {list : List Event} (hi : f.producers[i]? = some (some list)) :
    f.held = true := by
  rw [held, List.any_eq_true]
  exact ⟨some list, List.mem_of_getElem? hi, rfl⟩

/-- Only the producer whose turn it is has less to bring. -/
theorem left_set {i : Nat} {list : List Event} {next : Option (List Event)}
    (hi : f.producers[i]? = some (some list)) (hproducers : g.producers = f.producers.set i next)
    (j : Nat) : g.left j = if i = j then next.getD [] else f.left j := by
  have hlt : i < f.producers.length := (List.getElem?_eq_some_iff.mp hi).1
  rw [left, hproducers, List.getElem?_set]
  by_cases hij : i = j
  · rw [if_pos hij, if_pos hij, if_pos hlt]
    rfl
  · rw [if_neg hij, if_neg hij]
    rfl

/-- A clerk that is broken stays so. -/
theorem Transition.broken {turn : Turn} {text : String} (h : Transition w f turn g)
    (hbroken : f.desk.clerk = .broken text) : g.desk.clerk = .broken text := by
  cases h with
  | bring _ hoffer => exact (Desk.offer_frame hoffer).2.1.trans hbroken
  | leave => exact hbroken
  | clerk hwork => cases hwork <;> simp_all

/-- At the start all is yet to be brought. -/
theorem kept_opened : Kept rows lists [] (opened rows lists capacity s) where
  ledger := rfl
  lists i := by
    show [] ++ (((lists.map some)[i]?).bind id).getD [] = _
    rw [List.getElem?_map]
    cases lists[i]? <;> rfl
  queue := rfl
  handed := rfl
  returned _ hp := by cases hp
  closed hclosed := by cases hclosed

/-- Whoever brings events holds the desk, so it is not closed. -/
theorem Kept.ne_closed {i : Nat} {list : List Event} (hk : Kept rows lists log f)
    (hi : f.producers[i]? = some (some list)) : f.desk.clerk ≠ .closed := by
  intro hclosed
  have hheld := (hk.closed hclosed).2
  rw [held_of_producer hi] at hheld
  cases hheld

/-- An event that is brought waits in the queue. -/
theorem Kept.bring {i : Nat} {e : Event} {rest : List Event} {counters : Counters}
    (hk : Kept rows lists log f) (hi : f.producers[i]? = some (some (e :: rest))) :
    Kept rows lists (log ++ [.brought i e])
      { f with producers := f.producers.set i (some rest)
               desk := { f.desk with queue := f.desk.queue ++ [e] }
               counters } where
  ledger := by simpa using hk.ledger
  lists j := by
    have hleft : f.left i = e :: rest := by
      simp [left, hi]
    rw [left_set hi rfl, ← hk.lists j]
    by_cases hij : i = j
    · simp [← hij, hleft]
    · simp [hij]
  queue := by simp [hk.queue]
  handed := by simpa using hk.handed
  returned := by simpa using hk.returned
  closed hclosed := (hk.ne_closed hi hclosed).elim

/-- A producer lets go that has nothing left to bring. -/
theorem Kept.leave {i : Nat} (hk : Kept rows lists log f) (hi : f.producers[i]? = some (some [])) :
    Kept rows lists log { f with producers := f.producers.set i none } where
  ledger := hk.ledger
  lists j := by
    have hleft : f.left i = [] := by
      simp [left, hi]
    rw [left_set hi rfl, ← hk.lists j]
    by_cases hij : i = j
    · simp [← hij, hleft]
    · simp [hij]
  queue := hk.queue
  handed := hk.handed
  returned := hk.returned
  closed hclosed := (hk.ne_closed hi hclosed).elim

/-- The first event of the queue is entered, and the row that came of it is about to be stored. -/
theorem Kept.enter {now : Instant} {e : Event} {rest : List Event} {counters : Counters}
    (hk : Kept rows lists log f) (hclerk : f.desk.clerk = .waiting)
    (hqueue : f.desk.queue = e :: rest) :
    Kept rows lists (log ++ [.entered now e])
      { f with
        desk := { f.desk with
                  queue := rest
                  ledger := f.desk.ledger.enter now e
                  clerk := Desk.afterEntry (f.desk.ledger.entry now e) }
        counters } where
  ledger := by
    rw [entered_append, entered_entered, Ledger.replay_snoc, ← hk.ledger]
  lists := by
    rw [brought_append, brought_entered, List.append_nil]
    exact hk.lists
  queue := by simp [hk.queue, hqueue]
  handed := by simp [← hk.handed, hclerk]
  returned := by simpa using hk.returned
  closed hclosed := (Desk.afterEntry_ne_closed _ hclosed).elim

/-- The row of the last entry is handed over. -/
theorem Kept.store {row : Campaign} {reply : Reply Unit} {counters : Counters} {t : σ}
    (hk : Kept rows lists log f) (hclerk : f.desk.clerk = .storing row) (hreturns : reply.Returns) :
    Kept rows lists (log ++ [.stored row reply])
      { f with desk := { f.desk with clerk := .waiting }, counters, world := t } where
  ledger := by simpa using hk.ledger
  lists := by
    rw [brought_append, brought_stored, List.append_nil]
    exact hk.lists
  queue := by simpa using hk.queue
  handed := by simpa [hclerk] using hk.handed
  returned p hp := by
    rw [stored_append, stored_stored, List.mem_append, List.mem_singleton] at hp
    rcases hp with hp | rfl
    · exact hk.returned p hp
    · exact hreturns
  closed hclosed := by cases hclosed

/-- **Every transition that leaves the clerk sound keeps the account.** -/
theorem Kept.transition {turn : Turn} (hk : Kept rows lists log f) (h : Transition w f turn g)
    (hsound : ∀ text, g.desk.clerk ≠ .broken text) :
    Kept rows lists (log ++ (mark? w f turn).toList) g := by
  cases h with
  | @bring i e rest desk counters hi hoffer =>
      have hover : f.desk.isOver = false := by
        -- not closed, as the producer holds the desk, nor broken, as the clerk would have stayed so
        cases hclerk : f.desk.clerk with
        | waiting | storing => simp [Desk.isOver, hclerk]
        | closed => exact (hk.ne_closed hi hclerk).elim
        | broken text => exact (hsound text ((Desk.offer_frame hoffer).2.1.trans hclerk)).elim
      obtain rfl := Desk.offer_queue hover hoffer
      rw [mark?_bring hi]
      exact hk.bring hi
  | leave hi =>
      rw [mark?_leave hi, Option.toList_none, List.append_nil]
      exact hk.leave hi
  | clerk hwork =>
      cases hwork with
      | enter hclerk hqueue =>
          rw [mark?_enter hclerk hqueue]
          exact hk.enter hclerk hqueue
      | close hclerk hqueue hheld =>
          rw [mark?_close hclerk hqueue, Option.toList_none, List.append_nil]
          exact { hk with handed := by simpa [hclerk] using hk.handed
                          closed := fun _ => ⟨hqueue, hheld⟩ }
      | store hclerk hreply hreturns =>
          rw [mark?_store hclerk hreply]
          exact hk.store hclerk hreturns
      | @storeCrash row text => exact (hsound text rfl).elim

/-- **What the log tells.** -/
theorem Chronicle.kept (h : Chronicle w (opened rows lists capacity s) log g)
    (hsound : ∀ text, g.desk.clerk ≠ .broken text) : Kept rows lists log g := by
  induction h with
  | refl => exact kept_opened
  | tail _ hstep ih =>
      have htrans := step_transition hstep
      exact (ih fun text hbroken => hsound text (htrans.broken hbroken)).transition htrans hsound

end Mailshot.Feed

import Mailshot.Proofs.Batch
import Mailshot.Proofs.Progress
import Mailshot.Proofs.Worker.Stage

/-!
# What is told of a campaign

Nothing checks the order of events at the desk, but workers report in one order only: first the size
of the audience, then progress that never goes back, and where the campaign fails, that, as the last
word.  The foreman reports a worker that broke only if it has not reported a failure itself.

* `Worker.Underway`: reports of a campaign that has not failed;
* `Worker.Tale`: the same, with a failure at the end perhaps;
* `Worker.percents_eq`, `Worker.percents_sorted`: the progress reported, told from the batches alone,
  never goes back;
* `Worker.Stage.tale`: the reports of a worker tell a tale, which a worker that broke leaves open.
-/

namespace Mailshot.Worker

variable {σ : Type}

/-- The reports of a campaign that has not failed: none, or the size of its audience and then
progress that never goes back. -/
inductive Underway (id : Uuid) : List Event → Prop
  | nothing : Underway id []
  | running (n : Nat) {percents : List Nat} (hsorted : percents.Pairwise (· ≤ ·)) :
      Underway id (.running id n :: percents.map (Event.progress id))

/-- The reports of a campaign, which end with its failure if it has failed. -/
def Tale (id : Uuid) (events : List Event) : Prop :=
  ∃ before, Underway id before ∧
    (events = before ∨ ∃ reason, events = before ++ [.failed id reason])

theorem Underway.tale {id : Uuid} {events : List Event} (h : Underway id events) :
    Tale id events :=
  ⟨events, h, .inl rfl⟩

theorem Underway.failed {id : Uuid} {events : List Event} (h : Underway id events)
    (reason : String) : Tale id (events ++ [.failed id reason]) :=
  ⟨events, h, .inr ⟨reason, rfl⟩⟩

/-- What was reported until some moment is a tale of its own. -/
theorem Underway.of_beginning {id : Uuid} {events before : List Event} (h : Underway id events)
    (hbefore : before <+: events) : Underway id before := by
  cases h with
  | nothing =>
      obtain rfl := List.prefix_nil.mp hbefore
      exact .nothing
  | @running n percents hsorted =>
      cases before with
      | nil => exact .nothing
      | cons e rest =>
          obtain ⟨rfl, hrest⟩ := List.cons_prefix_cons.mp hbefore
          obtain ⟨k, rfl⟩ : ∃ k, rest = (percents.take k).map (Event.progress id) := by
            refine ⟨rest.length, ?_⟩
            rw [List.map_take]
            exact List.prefix_iff_eq_take.mp hrest
          exact .running n (hsorted.sublist (List.take_sublist _ _))

/-- What was reported until some moment is a tale of its own. -/
theorem Tale.of_beginning {id : Uuid} {events before : List Event} (h : Tale id events)
    (hbefore : before <+: events) : Tale id before := by
  obtain ⟨underway, hunderway, rfl | ⟨reason, rfl⟩⟩ := h
  · exact (hunderway.of_beginning hbefore).tale
  · rcases List.prefix_concat_iff.mp hbefore with rfl | hbefore
    · exact hunderway.failed reason
    · exact (hunderway.of_beginning hbefore).tale

/-- The progress reported for mailings that came back. -/
def percents : Tally → List (Mailing × Reply Unit) → List Nat
  | _, [] => []
  | t, (m, reply) :: rest =>
    (t.note m reply.isOk).2 :: percents (t.note m reply.isOk).1 rest

theorem events_posts (owner : Uuid) (t : Tally) (sent : List (Mailing × Reply Unit)) :
    Deed.events (posts owner t sent) = (percents t sent).map (Event.progress owner) := by
  induction sent generalizing t with
  | nil => rfl
  | cons p rest ih =>
      obtain ⟨m, reply⟩ := p
      simp [posts, percents, ih]

/-- What counts of a call for the progress that is reported. -/
def weight (p : Mailing × Reply Unit) : Nat × Bool :=
  (p.1.mail.recipients.length, p.1.closing)

/-- The progress reported is that of batches recorded one after another, whatever the replies. -/
theorem percents_eq (t : Tally) (sent : List (Mailing × Reply Unit)) :
    percents t sent = t.progress.percents (sent.map weight) := by
  induction sent generalizing t with
  | nil => rfl
  | cons p rest ih =>
      obtain ⟨m, reply⟩ := p
      rw [percents, ih]
      rfl

/-- **Reported progress never goes back**, where only the last call closes the campaign. -/
theorem percents_sorted {t : Tally} {sent : List (Mailing × Reply Unit)}
    (hclosing : ∀ before p after, sent = before ++ p :: after → p.1.closing = true → after = []) :
    (percents t sent).Pairwise (· ≤ ·) := by
  rw [percents_eq]
  refine Progress.pairwise_percents _ ?_
  rw [← List.map_dropLast]
  refine List.forall_mem_map.mpr fun p hp => Bool.eq_false_iff.mpr fun hlast => ?_
  obtain ⟨before, after, hsplit⟩ := List.append_of_mem hp
  have hne : sent ≠ [] := by
    rintro rfl
    cases hp
  have hall : sent = before ++ p :: (after ++ [sent.getLast hne]) := by
    rw [← List.cons_append, ← List.append_assoc, ← hsplit, List.dropLast_append_getLast]
  exact List.append_ne_nil_of_right_ne_nil _ (List.cons_ne_nil _ _)
    (hclosing before p _ hall hlast)

/-- The reports of a worker that delivers its plan are progress that never goes back. -/
theorem Delivers.events {room : Mailroom σ} {c : Campaign} {tenant : Tenant}
    {audience bodies : List String} {t : Tally} {deeds : List Deed} {p : Phase}
    (h : Delivers c t (plan room c tenant audience bodies) deeds p) :
    ∃ percents : List Nat, percents.Pairwise (· ≤ ·) ∧
      Deed.events deeds = percents.map (Event.progress c.id) := by
  have hsorted : ∀ {sent : List (Mailing × Reply Unit)} {rest : List Mailing},
      plan room c tenant audience bodies = sent.map (·.1) ++ rest →
      (percents t sent).Pairwise (· ≤ ·) := by
    intro sent rest hplan
    refine percents_sorted ?_
    intro before p after hsplit hlast
    rw [hsplit, List.map_append, List.map_cons, List.append_assoc, List.cons_append] at hplan
    exact List.map_eq_nil_iff.mp (List.append_eq_nil_iff.mp (Batch.plan_closing hplan hlast)).1
  cases h with
  | between hplan | started hplan | returned hplan | broken hplan =>
      exact ⟨_, hsorted hplan, by simp [events_posts]⟩

/-- What a worker reported before its first batch, when it failed or broke there. -/
theorem Fails.underway {room : Mailroom σ} {c : Campaign} {cause : Fault} {deeds : List Deed}
    (h : Fails room c cause deeds) : Underway c.id (Deed.events deeds) := by
  cases h with
  | tenant => exact .nothing
  | page => simpa [found] using Underway.nothing
  | template hgather hread =>
      rw [Deed.events_append, Deed.events_append, Deed.events_cons_report, hgather.silent.2,
        hread.silent.2]
      exact .running _ .nil

theorem Breaks.underway {room : Mailroom σ} {c : Campaign} {text : String} {deeds : List Deed}
    (h : Breaks room c text deeds) : Underway c.id (Deed.events deeds) := by
  cases h with
  | tenant => exact .nothing
  | page => simpa [found] using Underway.nothing
  | template _ hgather hread =>
      rw [Deed.events_append, Deed.events_append, Deed.events_cons_report, hgather.silent.2,
        hread.silent.2]
      exact .running _ .nil

/-- **The reports of a worker tell a tale.**  One that has not failed has reported no failure. -/
theorem Stage.tale {room : Mailroom σ} {c : Campaign} {deeds : List Deed} {p : Phase}
    (h : Stage room c deeds p) :
    Tale c.id (Deed.events deeds) ∧
      ((∀ cause, p ≠ .ended (.failed cause)) → Underway c.id (Deed.events deeds)) := by
  have hopen : Underway c.id (Deed.events deeds) → Tale c.id (Deed.events deeds) ∧
      ((∀ cause, p ≠ .ended (.failed cause)) → Underway c.id (Deed.events deeds)) :=
    fun hunderway => ⟨hunderway.tale, fun _ => hunderway⟩
  cases h with
  | lookup => exact hopen .nothing
  | paging => exact hopen (by simpa [found] using Underway.nothing)
  | announcing hgather =>
      refine hopen ?_
      rw [hgather.silent.2]
      exact .nothing
  | content hgather hread =>
      refine hopen ?_
      rw [Deed.events_append, Deed.events_cons_report, hgather.silent.2, hread.silent.2]
      exact .running _ .nil
  | delivering hresolve hdeliver =>
      obtain ⟨percents, hsorted, hevents⟩ := hdeliver.events
      refine hopen ?_
      rw [Deed.events_append, hresolve.events_eq, hevents]
      exact .running _ hsorted
  | failing hfail => exact hopen hfail.underway
  | failed hfail =>
      rw [Deed.events_append]
      exact ⟨hfail.underway.failed _, fun hnot => (hnot _ rfl).elim⟩
  | broken hbreak => exact hopen hbreak.underway

/-- A worker does not end in silence, unless it breaks. -/
theorem Stage.told {room : Mailroom σ} {c : Campaign} {deeds : List Deed} {o : Outcome}
    (h : Stage room c deeds (.ended o)) (hwhole : ∀ text, o ≠ .broken text) :
    Deed.events deeds ≠ [] := by
  generalize hphase : Phase.ended o = p at h
  cases h with
  | lookup | paging | announcing | content | failing => cases hphase
  | delivering hresolve =>
      rw [Deed.events_append, hresolve.events_eq]
      simp
  | failed => simp
  | broken => exact (hwhole _ (Phase.ended.inj hphase)).elim

end Mailshot.Worker

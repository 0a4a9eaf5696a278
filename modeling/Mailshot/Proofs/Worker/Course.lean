import Mathlib.Data.List.Induction
import Mailshot.Proofs.Deed
import Mailshot.Worker

/-!
# The course of a worker

A worker does one deed at each of its turns, and its phase and the reply, if the deed is a call,
settle the phase after it.  So the deeds done so far tell the phase, whatever the world is like.

* `Worker.Move`: one deed, from phase to phase, for every reply the world may give;
* `Worker.act_move`, `Worker.report_move`: the turns of a worker are moves;
* `Worker.Course`: moves from the start, with the deeds done;
* `Worker.Course.phase_unique`, `Worker.Course.split`: the deeds tell every phase on the way.
-/

namespace Mailshot.Worker

variable {σ : Type}

/-- The deed that is a worker's next in a state of the world. -/
def deed? (room : Mailroom σ) (k : Worker) (s : σ) : Option Deed :=
  let c := k.campaign
  match k.phase with
  | .lookup => some (.call (.tenant c.id c.tenant (room.world.tenant c.id c.tenant s).1))
  | .paging tenant p =>
    some (.call (.page c.id (p.request tenant) (room.world.page c.id (p.request tenant) s).1))
  | .content tenant _ _ next _ =>
    some (.call (.template c.id tenant next.template
      (room.world.template c.id tenant next.template s).1))
  | .posting _ m _ => some (.start m.mail)
  | .awaiting _ m _ => some (.call (.send c.id m.mail (room.world.send c.id m.mail s).1))
  | _ => (k.report room).map fun (e, _) => .report e

/-- What the reply to the lookup of the tenant makes of the phase. -/
def afterLookup (room : Mailroom σ) (c : Campaign) : Reply Tenant → Phase
  | .ok tenant => .paging tenant (.start c.segment room.settings.pageSize)
  | .fault cause => .failing (tenantFault c.tenant cause)
  | .crash text => .ended (.broken text)

/-- What the HTML of a template makes of the phase. -/
def afterBody (room : Mailroom σ) (c : Campaign) (tenant : Tenant) (audience bodies : List String)
    (rest : List Variant) : Reply String → Phase
  | .ok html => toContent room c tenant audience (bodies ++ [html]) rest
  | .fault cause => .failing cause
  | .crash text => .ended (.broken text)

/-- What the reply of the provider makes of the phase. -/
def afterSend (t : Tally) (m : Mailing) (rest : List Mailing) : Reply Unit → Phase
  | .crash text => .ended (.broken text)
  | reply => .reporting (t.note m reply.isOk).1 (t.note m reply.isOk).2 rest

/-- One deed of the worker of campaign `c`, from a phase to the next. -/
inductive Move (room : Mailroom σ) (c : Campaign) : Phase → Deed → Phase → Prop where
  | lookup (reply : Reply Tenant) :
      Move room c .lookup (.call (.tenant c.id c.tenant reply)) (afterLookup room c reply)
  | page (tenant : Tenant) (p : Pager) (reply : Reply Page) :
      Move room c (.paging tenant p) (.call (.page c.id (p.request tenant) reply))
        (afterPage tenant (p.take reply)).1
  | announce (tenant : Tenant) (audience : List String) :
      Move room c (.announcing tenant audience) (.report (.running c.id audience.length))
        (toContent room c tenant audience [] c.variants)
  | template (tenant : Tenant) (audience bodies : List String) (next : Variant)
      (rest : List Variant) (reply : Reply Template) :
      Move room c (.content tenant audience bodies next rest)
        (.call (.template c.id tenant next.template reply))
        (afterBody room c tenant audience bodies rest (Content.ofReply next.template reply))
  | start (t : Tally) (m : Mailing) (rest : List Mailing) :
      Move room c (.posting t m rest) (.start m.mail) (.awaiting t m rest)
  | send (t : Tally) (m : Mailing) (rest : List Mailing) (reply : Reply Unit) :
      Move room c (.awaiting t m rest) (.call (.send c.id m.mail reply)) (afterSend t m rest reply)
  | progress (t : Tally) (percent : Nat) (rest : List Mailing) :
      Move room c (.reporting t percent rest) (.report (.progress c.id percent))
        (toPosting c t rest)
  | fail (cause : Fault) :
      Move room c (.failing cause) (.report (.failed c.id cause.message))
        (.ended (.failed (cause.forCampaign c.id)))

/-- A worker that has an event to bring brings it, and moves on. -/
theorem report_move {room : Mailroom σ} {k : Worker} {e : Event} {phase : Phase}
    (h : k.report room = some (e, phase)) (s : σ) :
    k.deed? room s = some (.report e) ∧ Move room k.campaign k.phase (.report e) phase := by
  obtain ⟨c, p⟩ := k
  cases p <;> simp only [report, reduceCtorEq, Option.some.injEq, Prod.mk.injEq] at h
  all_goals obtain ⟨rfl, rfl⟩ := h
  · exact ⟨rfl, .announce _ _⟩
  · exact ⟨rfl, .progress _ _ _⟩
  · exact ⟨rfl, .fail _⟩

/-- A worker that calls the world does one deed, which is no report, and moves on as the reply
says. -/
theorem act_move {room : Mailroom σ} {k : Worker} {s t : σ} {phase : Phase} {counters : Counters}
    (h : k.act room s = some (phase, counters, t)) :
    ∃ d, k.deed? room s = some d ∧ d.event? = none ∧ Move room k.campaign k.phase d phase ∧
      room.world.History s (Deed.calls [d]) t := by
  obtain ⟨c, p⟩ := k
  cases p with
  | lookup =>
      refine ⟨_, rfl, rfl, ?_⟩
      cases hreply : room.world.tenant c.id c.tenant s with
      | mk reply u =>
          cases reply <;>
            simp only [act, hreply, Option.some.injEq, Prod.mk.injEq] at h <;>
            obtain ⟨rfl, rfl, rfl⟩ := h <;>
            exact ⟨.lookup _, World.history_singleton.mpr (by simp [World.Answers, hreply])⟩
  | paging tenant p =>
      refine ⟨_, rfl, rfl, ?_⟩
      simp only [act, Option.some.injEq, Prod.mk.injEq] at h
      obtain ⟨rfl, rfl, rfl⟩ := h
      exact ⟨.page _ _ _, World.history_singleton.mpr rfl⟩
  | content tenant audience bodies next rest =>
      refine ⟨_, rfl, rfl, ?_⟩
      have hmove : Move room c _ _ _ := .template tenant audience bodies next rest
        (room.world.template c.id tenant next.template s).1
      have hworld : room.world.History s
          (Deed.calls [.call (.template c.id tenant next.template
            (room.world.template c.id tenant next.template s).1)])
          (room.world.template c.id tenant next.template s).2 :=
        World.history_singleton.mpr rfl
      cases hbody : Content.ofReply next.template
          (room.world.template c.id tenant next.template s).1 <;>
        simp only [act, Content.resolve, hbody, Option.some.injEq, Prod.mk.injEq] at h <;>
        obtain ⟨rfl, rfl, rfl⟩ := h <;>
        rw [hbody] at hmove <;>
        exact ⟨hmove, hworld⟩
  | posting t m rest =>
      simp only [act, Option.some.injEq, Prod.mk.injEq] at h
      obtain ⟨rfl, rfl, rfl⟩ := h
      exact ⟨_, rfl, rfl, .start _ _ _, rfl⟩
  | awaiting tally m rest =>
      refine ⟨_, rfl, rfl, ?_⟩
      cases hreply : room.world.send c.id m.mail s with
      | mk reply u =>
          cases reply <;>
            simp only [act, hreply, Option.some.injEq, Prod.mk.injEq] at h <;>
            obtain ⟨rfl, rfl, rfl⟩ := h <;>
            exact ⟨.send _ _ _ _, World.history_singleton.mpr (by simp [World.Answers, hreply])⟩
  | announcing | reporting | failing | ended => simp [act] at h

/-- Where there is a next deed, the worker has an event to bring or can call the world. -/
theorem report_or_act {room : Mailroom σ} {k : Worker} (hbusy : k.isOver = false) (s : σ) :
    (∃ e phase, k.report room = some (e, phase)) ∨
      k.report room = none ∧ ∃ phase counters t, k.act room s = some (phase, counters, t) := by
  obtain ⟨c, p⟩ := k
  cases p with
  | announcing tenant audience => exact Or.inl ⟨_, _, rfl⟩
  | reporting t percent rest => exact Or.inl ⟨_, _, rfl⟩
  | failing cause => exact Or.inl ⟨_, _, rfl⟩
  | ended outcome => simp [isOver] at hbusy
  | paging tenant p => exact Or.inr ⟨rfl, _, _, _, rfl⟩
  | posting t m rest => exact Or.inr ⟨rfl, _, _, _, rfl⟩
  | lookup =>
      refine Or.inr ⟨rfl, ?_⟩
      simp only [act]
      split <;> exact ⟨_, _, _, rfl⟩
  | content tenant audience bodies next rest =>
      refine Or.inr ⟨rfl, ?_⟩
      simp only [act]
      split <;> exact ⟨_, _, _, rfl⟩
  | awaiting t m rest =>
      refine Or.inr ⟨rfl, ?_⟩
      simp only [act]
      split <;> exact ⟨_, _, _, rfl⟩

/-- A worker that has ended moves no more. -/
theorem not_move_ended {room : Mailroom σ} {c : Campaign} {o : Outcome} {d : Deed} {q : Phase} :
    ¬ Move room c (.ended o) d q := by
  rintro ⟨⟩

/-- The deed settles the phase after it. -/
theorem Move.phase_unique {room : Mailroom σ} {c : Campaign} {p q q' : Phase} {d : Deed}
    (h : Move room c p d q) (h' : Move room c p d q') : q = q' := by
  cases h <;> cases h' <;> rfl

/-- What a worker reports is for its campaign. -/
theorem Move.event_campaign {room : Mailroom σ} {c : Campaign} {p q : Phase} {d : Deed}
    (h : Move room c p d q) : ∀ e ∈ Deed.events [d], e.campaign = c.id := by
  cases h <;> simp [Deed.events, Deed.event?, Event.running, Event.progress, Event.failed]

/-- The calls of a worker are for its campaign, and store no row. -/
theorem Move.call_owner {room : Mailroom σ} {c : Campaign} {p q : Phase} {d : Deed}
    (h : Move room c p d q) :
    ∀ made ∈ Deed.calls [d], made.owner = c.id ∧ made.isUpdate = false := by
  cases h <;> simp [Deed.calls, Deed.call?, Call.owner, Call.isUpdate]

/-- A worker hands over no row to be stored. -/
theorem Move.updates_eq_nil {room : Mailroom σ} {c : Campaign} {p q : Phase} {d : Deed}
    (h : Move room c p d q) : Deed.updates [d] = [] := by
  cases h <;> rfl

/-- The deeds of a worker from its start, and the phase they lead to. -/
inductive Course (room : Mailroom σ) (c : Campaign) : List Deed → Phase → Prop where
  | nil : Course room c [] .lookup
  | snoc {deeds p d q} : Course room c deeds p → Move room c p d q → Course room c (deeds ++ [d]) q

/-- A course ends with a move. -/
theorem course_snoc {room : Mailroom σ} {c : Campaign} {deeds : List Deed} {d : Deed} {q : Phase} :
    Course room c (deeds ++ [d]) q ↔ ∃ p, Course room c deeds p ∧ Move room c p d q := by
  constructor
  · intro h
    generalize hall : deeds ++ [d] = all at h
    cases h with
    | nil => simp at hall
    | snoc hcourse hmove =>
        obtain ⟨rfl, hlast⟩ := List.append_inj' hall rfl
        obtain rfl := List.singleton_inj.mp hlast
        exact ⟨_, hcourse, hmove⟩
  · rintro ⟨p, hcourse, hmove⟩
    exact .snoc hcourse hmove

/-- The deeds done tell the phase. -/
theorem Course.phase_unique {room : Mailroom σ} {c : Campaign} {deeds : List Deed} {p q : Phase}
    (hp : Course room c deeds p) (hq : Course room c deeds q) : p = q := by
  induction hp generalizing q with
  | nil =>
      generalize hall : ([] : List Deed) = all at hq
      cases hq with
      | nil => rfl
      | snoc => simp at hall
  | snoc _ hmove ih =>
      obtain ⟨p, hcourse, hmove'⟩ := course_snoc.mp hq
      obtain rfl := ih hcourse
      exact hmove.phase_unique hmove'

/-- Deeds on the way have a phase of their own, from which the next deed leads on. -/
theorem Course.split {room : Mailroom σ} {c : Campaign} {before after : List Deed} {d : Deed}
    {q : Phase} (h : Course room c (before ++ d :: after) q) :
    ∃ p p', Course room c before p ∧ Move room c p d p' := by
  induction after using List.reverseRecOn generalizing q with
  | nil =>
      obtain ⟨p, hcourse, hmove⟩ := course_snoc.mp h
      exact ⟨p, q, hcourse, hmove⟩
  | append_singleton after last ih =>
      obtain ⟨p, hcourse, _⟩ := course_snoc.mp
        (by simpa only [← List.cons_append, ← List.append_assoc] using h)
      exact ih hcourse

/-- **Nothing follows the end.**  The deeds of a worker that has ended are all it ever does. -/
theorem Course.ended_maximal {room : Mailroom σ} {c : Campaign} {deeds more : List Deed}
    {o : Outcome} {q : Phase} (h : Course room c deeds (.ended o))
    (hmore : Course room c (deeds ++ more) q) : more = [] := by
  cases more with
  | nil => rfl
  | cons d rest =>
      obtain ⟨p, p', hcourse, hmove⟩ := hmore.split
      obtain rfl := hcourse.phase_unique h
      exact (not_move_ended hmove).elim

/-- Nobody does more than a worker that has ended and did the same so far. -/
theorem Course.length_le {room : Mailroom σ} {c : Campaign} {deeds more : List Deed} {o : Outcome}
    {p : Phase} (h : Course room c deeds (.ended o)) (hmore : Course room c more p)
    (hcomparable : deeds <+: more ∨ more <+: deeds) : more.length ≤ deeds.length := by
  rcases hcomparable with ⟨rest, rfl⟩ | hbeginning
  · simp [h.ended_maximal hmore]
  · exact hbeginning.length_le

end Mailshot.Worker

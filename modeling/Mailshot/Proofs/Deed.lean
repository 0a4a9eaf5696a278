import Mailshot.World

/-!
# Deeds

What happens in a run shows in deeds: a call to the world with its reply, the start of a call to the
provider, and an event that comes to the desk.  The calls among them, in order, lead the world from
one state to another, and the world alone decides the replies.

* `Reply.Returns`: a call that came back;
* `World.Answers`: one call, the reply the world gives and the state it is left in;
* `World.History`: calls one after another;
* `Call.callsFor`: the calls that a worker makes for a campaign;
* `Deed.calls`, `Deed.events`: the two views of a list of deeds.
-/

namespace Mailshot

/-- The call came back at all, with a value or a fault. -/
def Reply.Returns {α : Type} (reply : Reply α) : Prop :=
  ∀ text, reply ≠ .crash text

instance {α : Type} : (reply : Reply α) → Decidable reply.Returns
  | .ok _ => isTrue (by simp [Reply.Returns])
  | .fault _ => isTrue (by simp [Reply.Returns])
  | .crash text => isFalse fun h => h text rfl

namespace Call

/-- The campaign that a call is made for. -/
def owner : Call → Uuid
  | .update row _ => row.id
  | .tenant owner _ _ => owner
  | .page owner _ _ => owner
  | .template owner _ _ _ => owner
  | .send owner _ _ => owner

/-- Is a row stored? -/
def isUpdate : Call → Bool
  | .update .. => true
  | _ => false

/-- The calls for a campaign that are not for storing its row. -/
def callsFor (id : Uuid) (calls : List Call) : List Call :=
  calls.filter fun made => !made.isUpdate && made.owner = id

@[simp] theorem callsFor_append (id : Uuid) (xs ys : List Call) :
    callsFor id (xs ++ ys) = callsFor id xs ++ callsFor id ys := by
  simp [callsFor]

/-- The calls of others are not for the campaign. -/
theorem callsFor_eq_nil {id : Uuid} {calls : List Call} (h : ∀ made ∈ calls, made.owner ≠ id) :
    callsFor id calls = [] := by
  rw [callsFor, List.filter_eq_nil_iff]
  intro made hmade
  simp [h made hmade]

end Call

/-- What a turn of a run does that can be seen from outside. -/
inductive Deed where
  | call (made : Call)
  /-- A call to the provider gets under way. -/
  | start (mail : Mail)
  | report (event : Event)
  deriving DecidableEq, Repr

namespace Deed

/-- The call that a deed is. -/
def call? : Deed → Option Call
  | .call made => some made
  | _ => none

/-- The event that a deed brings to the desk. -/
def event? : Deed → Option Event
  | .report event => some event
  | _ => none

/-- The calls among deeds, in order. -/
def calls (deeds : List Deed) : List Call :=
  deeds.filterMap call?

/-- The events among deeds, in order. -/
def events (deeds : List Deed) : List Event :=
  deeds.filterMap event?

@[simp] theorem calls_nil : calls [] = [] := rfl

@[simp] theorem calls_append (ds es : List Deed) : calls (ds ++ es) = calls ds ++ calls es := by
  simp [calls]

@[simp] theorem calls_cons_call (made : Call) (ds : List Deed) :
    calls (.call made :: ds) = made :: calls ds := rfl

@[simp] theorem calls_cons_start (mail : Mail) (ds : List Deed) :
    calls (.start mail :: ds) = calls ds := rfl

@[simp] theorem calls_cons_report (e : Event) (ds : List Deed) :
    calls (.report e :: ds) = calls ds := rfl

@[simp] theorem events_nil : events [] = [] := rfl

@[simp] theorem events_append (ds es : List Deed) :
    events (ds ++ es) = events ds ++ events es := by
  simp [events]

@[simp] theorem events_cons_call (made : Call) (ds : List Deed) :
    events (.call made :: ds) = events ds := rfl

@[simp] theorem events_cons_start (mail : Mail) (ds : List Deed) :
    events (.start mail :: ds) = events ds := rfl

@[simp] theorem events_cons_report (e : Event) (ds : List Deed) :
    events (.report e :: ds) = e :: events ds := rfl

/-- Deeds split where the calls among them do. -/
theorem calls_eq_append_cons {deeds : List Deed} {before after : List Call} {made : Call}
    (h : calls deeds = before ++ made :: after) :
    ∃ ds es, deeds = ds ++ .call made :: es ∧ calls ds = before ∧ calls es = after := by
  obtain ⟨ds, rest, rfl, hds, hrest⟩ := List.filterMap_eq_append_iff.mp h
  obtain ⟨skipped, d, es, rfl, hskipped, hd, hes⟩ := List.filterMap_eq_cons_iff.mp hrest
  have hmade : d = .call made := by
    cases d with
    | call other => simpa [call?] using hd
    | start | report => cases hd
  have hnone : calls skipped = [] := List.filterMap_eq_nil_iff.mpr hskipped
  refine ⟨ds ++ skipped, es, by rw [hmade, List.append_assoc], ?_, hes⟩
  rw [calls_append, hnone, List.append_nil]
  exact hds

/-- The mail handed to the provider, with how each call came back. -/
def mails (deeds : List Deed) : List (Mail × Reply Unit) :=
  (calls deeds).filterMap fun
    | .send _ mail reply => some (mail, reply)
    | _ => none

/-- The rows handed over to be stored, with how each call came back. -/
def updates (deeds : List Deed) : List (Campaign × Reply Unit) :=
  (calls deeds).filterMap fun
    | .update row reply => some (row, reply)
    | _ => none

/-- The mail whose calls to the provider got under way. -/
def starts (deeds : List Deed) : List Mail :=
  deeds.filterMap fun
    | .start mail => some mail
    | _ => none

@[simp] theorem starts_append (ds es : List Deed) : starts (ds ++ es) = starts ds ++ starts es := by
  simp [starts]

@[simp] theorem mails_append (ds es : List Deed) : mails (ds ++ es) = mails ds ++ mails es := by
  simp [mails]

@[simp] theorem updates_append (ds es : List Deed) :
    updates (ds ++ es) = updates ds ++ updates es := by
  simp [updates]

end Deed

namespace World

variable {σ : Type}

/-- The world in state `s` gives the reply of a call and is left in state `t`. -/
def Answers (w : World σ) (s : σ) : Call → σ → Prop
  | .update row reply, t => w.update row s = (reply, t)
  | .tenant owner id reply, t => w.tenant owner id s = (reply, t)
  | .page owner request reply, t => w.page owner request s = (reply, t)
  | .template owner tenant id reply, t => w.template owner tenant id s = (reply, t)
  | .send owner mail reply, t => w.send owner mail s = (reply, t)

/-- Calls, one after another, lead the world from one state to another. -/
def History (w : World σ) (s : σ) : List Call → σ → Prop
  | [], t => t = s
  | call :: rest, t => ∃ u, w.Answers s call u ∧ History w u rest t

theorem history_singleton {w : World σ} {s t : σ} {call : Call} :
    w.History s [call] t ↔ w.Answers s call t := by
  simp [History]

/-- Histories split where lists do. -/
theorem history_append {w : World σ} {s t : σ} {before after : List Call} :
    w.History s (before ++ after) t ↔ ∃ u, w.History s before u ∧ w.History u after t := by
  induction before generalizing s with
  | nil => simp [History]
  | cons call rest ih =>
      simp only [List.cons_append, History, ih]
      constructor
      · rintro ⟨u, hcall, v, hrest, hafter⟩
        exact ⟨v, ⟨u, hcall, hrest⟩, hafter⟩
      · rintro ⟨v, ⟨u, hcall, hrest⟩, hafter⟩
        exact ⟨u, hcall, v, hrest, hafter⟩

/-- The world keeping an account answers as the world itself, and writes the call down. -/
theorem answers_recorded {w : World σ} {r q : Recorded σ} {call : Call} :
    w.recorded.Answers r call q ↔ w.Answers r.state call q.state ∧ q.calls = call :: r.calls := by
  obtain ⟨s, calls⟩ := r
  obtain ⟨t, calls'⟩ := q
  cases call <;> simp only [Answers, recorded, note, Recorded.mk.injEq, Prod.ext_iff]
  all_goals
    constructor
    · rintro ⟨rfl, rfl, rfl⟩
      exact ⟨⟨rfl, rfl⟩, rfl⟩
    · rintro ⟨⟨rfl, rfl⟩, rfl⟩
      exact ⟨rfl, rfl, rfl⟩

/-- **The account is the history.**  What a recorded world has written down is what was called. -/
theorem history_recorded {w : World σ} {r q : Recorded σ} {calls : List Call} :
    w.recorded.History r calls q ↔
      w.History r.state calls q.state ∧ q.calls = calls.reverse ++ r.calls := by
  induction calls generalizing r with
  | nil =>
      obtain ⟨s, _⟩ := r
      obtain ⟨t, _⟩ := q
      simp [History]
  | cons call rest ih =>
      simp only [History, answers_recorded, ih]
      constructor
      · rintro ⟨u, ⟨hcall, hnoted⟩, hrest, hcalls⟩
        exact ⟨⟨u.state, hcall, hrest⟩, by simp [hcalls, hnoted]⟩
      · rintro ⟨⟨t, hcall, hrest⟩, hcalls⟩
        exact ⟨⟨t, call :: r.calls⟩, ⟨hcall, rfl⟩, hrest, by simp [hcalls]⟩

end World

end Mailshot

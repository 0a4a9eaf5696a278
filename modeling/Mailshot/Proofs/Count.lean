import Mathlib.Algebra.BigOperators.Group.Finset.Basic
import Mathlib.Algebra.GroupWithZero.Nat
import Mailshot.Proofs.Separate

/-!
# What is counted

Counts are added up, in whatever order.  A call adds what its kind and its reply say, a worker adds
its failure, and the ledger tells which events changed a row.

* `length_eq_sum_count`: a list is as long as its members are counted;
* `Call.tick`, `Call.sum_tick_eq`: what calls add;
* `Worker.act_counters`: what a worker counts;
* `Campaign.changes`, `Ledger.changes`: the events that change rows.
-/

namespace Mailshot

/-- **A list is as long as its members are counted**, one after another. -/
theorem length_eq_sum_count {α : Type} [DecidableEq α] {xs keys : List α} (hkeys : keys.Nodup)
    (hknown : xs ⊆ keys) : xs.length = (keys.map fun key => xs.count key).sum := by
  have hall : ∀ key ∈ (xs : Multiset α), key ∈ keys.toFinset := fun key hkey =>
    List.mem_toFinset.mpr (hknown hkey)
  calc xs.length = ∑ key ∈ keys.toFinset, (xs : Multiset α).count key :=
        (Multiset.sum_count_eq_card hall).symm
    _ = ∑ key ∈ keys.toFinset, xs.count key :=
        Finset.sum_congr rfl fun key _ => Multiset.coe_count _ _
    _ = (keys.map fun key => xs.count key).sum := List.sum_toFinset _ hkeys

namespace Counters

instance : Zero Counters := ⟨{}⟩

instance : AddCommMonoid Counters where
  add_assoc a b c := by
    show add (add a b) c = add a (add b c)
    simp only [add, Nat.add_assoc]
  zero_add a := by
    show add {} a = a
    simp only [add, Nat.zero_add]
  add_zero a := by
    show add a {} = a
    simp only [add, Nat.add_zero]
  add_comm a b := by
    show add a b = add b a
    simp only [add, Nat.add_comm]
  nsmul := nsmulRec

end Counters

/-- What a call that came back adds to the counters. -/
def Call.tick : Call → Counters
  | .page _ _ reply => Pager.tick reply
  | .send _ _ (.crash _) => {}
  | .send _ mail reply => Tally.tick ⟨mail, false⟩ reply.isOk
  | .update _ (.fault _) => { persistErrors := 1 }
  | _ => {}

namespace Worker

/-- Has the worker failed? -/
def hasFailed (k : Worker) : Bool :=
  match k.phase with
  | .failing _ | .ended (.failed _) => true
  | _ => false

/-- Has the worker broken? -/
def hasBroken (k : Worker) : Bool :=
  match k.phase with
  | .ended (.broken _) => true
  | _ => false

variable {σ : Type} {room : Mailroom σ} {k : Worker}

theorem hasFailed_toPosting (c : Campaign) (t : Tally) (rest : List Mailing) :
    hasFailed ⟨c, toPosting c t rest⟩ = false := by
  cases rest <;> rfl

theorem hasFailed_toContent (c : Campaign) (tenant : Tenant) (audience bodies : List String)
    (rest : List Variant) :
    hasFailed ⟨c, toContent room c tenant audience bodies rest⟩ = false := by
  cases rest with
  | nil => exact hasFailed_toPosting _ _ _
  | cons => rfl

/-- **What a worker counts** is what its call adds, and its failure if it fails. -/
theorem act_counters {s t : σ} {d : Deed} {phase : Phase} {counters : Counters}
    (h : k.act room s = some (phase, counters, t))
    (hmove : Move room k.campaign k.phase d phase)
    (hworld : room.world.History s (Deed.calls [d]) t) :
    k.hasFailed = false ∧ counters = ((Deed.calls [d]).map Call.tick).sum +
      { campaignsFailed := if hasFailed { k with phase } then 1 else 0 } := by
  obtain ⟨c, p⟩ := k
  cases hmove with
  | lookup reply =>
      refine ⟨rfl, ?_⟩
      have hreply : room.world.tenant c.id c.tenant s = (reply, t) :=
        World.history_singleton.mp hworld
      cases reply <;> simp only [act, hreply, Option.some.injEq, Prod.mk.injEq] at h <;>
        rw [← h.2.1] <;> rfl
  | page tenant p reply =>
      refine ⟨rfl, ?_⟩
      have hreply : room.world.page c.id (p.request tenant) s = (reply, t) :=
        World.history_singleton.mp hworld
      simp only [act, hreply, Option.some.injEq, Prod.mk.injEq] at h
      rw [← h.2.1, Deed.calls_cons_call, Deed.calls_nil, List.map_singleton, List.sum_singleton]
      cases p.take reply <;> rfl
  | template tenant audience bodies next rest reply =>
      refine ⟨rfl, ?_⟩
      have hreply : room.world.template c.id tenant next.template s = (reply, t) :=
        World.history_singleton.mp hworld
      simp only [act, Content.resolve, hreply] at h
      cases hbody : Content.ofReply next.template reply <;>
        simp only [hbody, Option.some.injEq, Prod.mk.injEq] at h <;>
        rw [← h.2.1]
      · simp only [afterBody, hasFailed_toContent]
        rfl
      · rfl
      · rfl
  | start =>
      simp only [act, Option.some.injEq, Prod.mk.injEq] at h
      rw [← h.2.1]
      exact ⟨rfl, rfl⟩
  | send tally m rest reply =>
      refine ⟨rfl, ?_⟩
      have hreply : room.world.send c.id m.mail s = (reply, t) :=
        World.history_singleton.mp hworld
      cases reply <;> simp only [act, hreply, Option.some.injEq, Prod.mk.injEq] at h <;>
        rw [← h.2.1] <;> rfl
  | announce | progress | fail => simp [act] at h

/-- A worker that brings an event has failed before if it has after. -/
theorem hasFailed_report {e : Event} {phase : Phase}
    (h : Move room k.campaign k.phase (.report e) phase) :
    hasFailed { k with phase } = k.hasFailed := by
  obtain ⟨c, p⟩ := k
  cases h with
  | announce => exact hasFailed_toContent _ _ _ _ _
  | progress => exact hasFailed_toPosting _ _ _
  | fail => rfl

end Worker

/-! ### Changes -/

/-- The events that change the row of a campaign. -/
def Campaign.changes : Campaign → List Event → Nat
  | _, [] => 0
  | c, e :: rest => (if c.merge e.delta = c then 0 else 1) + changes (c.merge e.delta) rest

theorem Campaign.changes_append (c : Campaign) (es fs : List Event) :
    c.changes (es ++ fs) = c.changes es + (c.after es).changes fs := by
  induction es generalizing c with
  | nil => simp [changes, after]
  | cons e rest ih => simp [changes, after, ih, Nat.add_assoc]

/-- Whether a delta changes a row does not depend on when the row was changed before. -/
theorem Campaign.merge_timeless_iff (c : Campaign) (d : Delta) :
    c.timeless.merge d = c.timeless ↔ c.merge d = c := by
  obtain ⟨⟩ := c
  simp [merge, timeless]

theorem Campaign.apply_changed (now : Instant) (c : Campaign) (d : Delta) :
    (c.apply now d).2 = decide (c.timeless.merge d ≠ c.timeless) := by
  by_cases h : c.merge d = c <;> simp [apply, h, merge_timeless_iff]

namespace Ledger

/-- The events that changed a row. -/
def changes (l : Ledger) : Nat :=
  l.entries.countP (·.changed)

/-- The events that changed the row of one campaign. -/
def changesOf (l : Ledger) (id : Uuid) : Nat :=
  l.entries.countP fun entry => entry.changed && entry.event.campaign = id

theorem changes_enter (l : Ledger) (now : Instant) (e : Event) :
    (l.enter now e).changes = l.changes + if (l.entry now e).changed then 1 else 0 := by
  simp [changes, enter, List.countP_cons]

theorem changesOf_enter (l : Ledger) (now : Instant) (e : Event) (id : Uuid) :
    (l.enter now e).changesOf id =
      l.changesOf id + if (l.entry now e).changed ∧ e.campaign = id then 1 else 0 := by
  simp [changesOf, enter, List.countP_cons]

/-- A campaign whose row was changed is named as often as that. -/
theorem count_changed (l : Ledger) (id : Uuid) :
    ((l.entries.filter (·.changed)).map (·.event.campaign)).count id = l.changesOf id := by
  rw [List.count, List.countP_map, List.countP_filter, changesOf]
  congr 1
  funext entry
  exact Bool.and_comm _ _

/-- Ledgers with as many changes of each campaign have as many in all. -/
theorem changes_eq {l l' : Ledger} (h : ∀ id, l.changesOf id = l'.changesOf id) :
    l.changes = l'.changes := by
  have hperm : ((l.entries.filter (·.changed)).map (·.event.campaign)).Perm
      ((l'.entries.filter (·.changed)).map (·.event.campaign)) := by
    rw [List.perm_iff_count]
    intro id
    rw [count_changed, count_changed, h]
  simpa [changes, List.countP_eq_length_filter] using hperm.length_eq

end Ledger

/-! ### Calls -/

namespace Call

/-- The rows handed over to be stored, apart from their times of change, with how each call came
back. -/
def rows (calls : List Call) : List (Campaign × Reply Unit) :=
  calls.filterMap fun
    | .update row reply => some (row.timeless, reply)
    | _ => none

theorem callsFor_eq_filter (id : Uuid) (calls : List Call) :
    callsFor id calls = (calls.filter (!·.isUpdate)).filter (·.owner = id) := by
  rw [List.filter_filter, callsFor]
  exact List.filter_congr fun made _ => Bool.and_comm _ _

theorem rowsFor_eq_filter (id : Uuid) (calls : List Call) :
    rowsFor id calls = (rows calls).filter (·.1.id = id) := by
  rw [rows, List.filter_filterMap, rowsFor]
  refine List.filterMap_congr fun made _ => ?_
  cases made with
  | update row reply => by_cases hid : row.id = id <;> simp [Option.filter, hid]
  | _ => rfl

/-- Lists are the same but for their order where their parts by key are the same. -/
theorem perm_of_filter_eq {α : Type} [DecidableEq α] {xs ys : List α} (key : α → Uuid)
    (h : ∀ id, xs.filter (key · = id) = ys.filter (key · = id)) : xs.Perm ys := by
  rw [List.perm_iff_count]
  intro a
  have hown : ∀ zs : List α, (zs.filter (key · = key a)).count a = zs.count a := fun zs =>
    List.count_filter (by simp)
  rw [← hown, h, hown]

theorem sum_tick (calls : List Call) :
    (calls.map tick).sum = ((calls.filter (!·.isUpdate)).map tick).sum +
      ((rows calls).map fun p => tick (.update p.1 p.2)).sum := by
  induction calls with
  | nil => rfl
  | cons made rest ih =>
      rw [List.map_cons, List.sum_cons, ih]
      cases made with
      | update row reply =>
          have htick : tick (.update row.timeless reply) = tick (.update row reply) := by
            cases reply <;> rfl
          simp only [isUpdate, rows, List.filter_cons, List.filterMap_cons, Bool.not_true,
            Bool.false_eq_true, if_false, List.map_cons, List.sum_cons, htick]
          exact add_left_comm _ _ _
      | _ =>
          simp only [isUpdate, rows, List.filter_cons, List.filterMap_cons, Bool.not_false, if_true,
            List.map_cons, List.sum_cons]
          exact (add_assoc _ _ _).symm

/-- What is called the same for each campaign, times of change aside, adds the same. -/
theorem sum_tick_eq {xs ys : List Call} (hcalls : ∀ id, callsFor id xs = callsFor id ys)
    (hrows : ∀ id, rowsFor id xs = rowsFor id ys) :
    (xs.map tick).sum = (ys.map tick).sum := by
  have hworkers : (xs.filter (!·.isUpdate)).Perm (ys.filter (!·.isUpdate)) :=
    perm_of_filter_eq owner fun id => by
      rw [← callsFor_eq_filter, ← callsFor_eq_filter, hcalls]
  have hclerk : (rows xs).Perm (rows ys) :=
    perm_of_filter_eq (·.1.id) fun id => by
      rw [← rowsFor_eq_filter, ← rowsFor_eq_filter, hrows]
  rw [sum_tick xs, sum_tick ys, (hworkers.map tick).sum_eq, (hclerk.map _).sum_eq]

end Call

end Mailshot

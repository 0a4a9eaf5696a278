import Mathlib.Data.List.Basic
import Mathlib.Data.List.Induction
import Mailshot.Office
import Mailshot.Proofs.Deed
import Mailshot.Rehearsal

/-!
# Rows that are kept

Of the rows of a campaign that are handed over, the world keeps the last one that it took.  A row that
it refused leaves the one before in its place, and rows of others do not matter.

* `World.Keeps`: a world that keeps the row of a campaign;
* `World.Keeps.row?_of_history`: the row that is kept after any calls;
* `World.Keeps.row?_eq`: the row that is kept after any number were handed over;
* `World.Keeps.row?_of_last`: it is the last one of all where that was taken;
* `Office.keeps`, `Script.keeps`: offices do so, and rehearsals.
-/

namespace Mailshot

namespace Call

/-- The rows of a campaign that were stored, in order. -/
def storedFor (id : Uuid) (calls : List Call) : List Campaign :=
  calls.filterMap fun
    | .update row (.ok _) => if row.id = id then some row else none
    | _ => none

/-- Every call for storing a row of the campaign failed. -/
def NoneStored (id : Uuid) (calls : List Call) : Prop :=
  ∀ row reply, .update row reply ∈ calls → row.id = id → reply.isOk = false

theorem mem_storedFor {id : Uuid} {calls : List Call} {row : Campaign} :
    row ∈ storedFor id calls ↔ .update row (.ok ()) ∈ calls ∧ row.id = id := by
  rw [storedFor, List.mem_filterMap]
  constructor
  · rintro ⟨made, hmade, hrow⟩
    cases made with
    | update other reply =>
        cases reply with
        | ok =>
            obtain ⟨hid, hsame⟩ := Option.ite_none_right_eq_some.mp hrow
            obtain rfl := Option.some.inj hsame
            exact ⟨hmade, hid⟩
        | fault | crash => cases hrow
    | _ => cases hrow
  · rintro ⟨hmade, hid⟩
    exact ⟨_, hmade, by simp [hid]⟩

theorem storedFor_eq_nil_iff {id : Uuid} {calls : List Call} :
    storedFor id calls = [] ↔ NoneStored id calls := by
  rw [List.eq_nil_iff_forall_not_mem]
  simp only [mem_storedFor, not_and]
  constructor
  · intro h row reply hmade hid
    cases reply with
    | ok => exact (h row hmade hid).elim
    | fault | crash => rfl
  · intro h row hmade hid
    cases h row _ hmade hid

end Call

/-- From a state on, the world keeps the row of a campaign: `row?` finds it in later states. -/
structure World.Keeps {σ : Type} (w : World σ) (s : σ) (id : Uuid) (row? : σ → Option Campaign) :
    Prop where
  stores {calls : List Call} {row : Campaign} {t u : σ} : w.History s calls t →
    w.update row t = (.ok (), u) → row.id = id → row? u = some row
  refuses {calls : List Call} {row : Campaign} {fault : Fault} {t u : σ} : w.History s calls t →
    w.update row t = (.fault fault, u) → row? u = row? t
  spares {calls : List Call} {row : Campaign} {reply : Reply Unit} {t u : σ} :
    w.History s calls t → w.update row t = (reply, u) → row.id ≠ id → row? u = row? t

namespace World.Keeps

variable {σ : Type} {w : World σ} {s t : σ} {id : Uuid} {row? : σ → Option Campaign}

/-- **The last row that was stored is kept**, or the one at the start when none was, if no other call
changes it. -/
theorem row?_of_history (hk : w.Keeps s id row?) {calls : List Call}
    (haside : ∀ {before : List Call} {made : Call} {t u : σ}, made ∈ calls →
      made.isUpdate = false → w.History s before t → w.Answers t made u → row? u = row? t)
    (hreturned : ∀ row reply, Call.update row reply ∈ calls → row.id = id → reply.Returns)
    (h : w.History s calls t) : row? t = (Call.storedFor id calls).getLast?.or (row? s) := by
  induction calls using List.reverseRecOn generalizing t with
  | nil =>
      obtain rfl : t = s := h
      rfl
  | append_singleton calls made ih =>
      obtain ⟨u, hbefore, hlast⟩ := World.history_append.mp h
      have hanswer := World.history_singleton.mp hlast
      have ih := ih (fun hmade => haside (List.mem_append_left _ hmade))
        (fun row reply hmade => hreturned row reply (List.mem_append_left _ hmade)) hbefore
      cases made with
      | update row reply =>
          have hupdate : w.update row u = (reply, t) := hanswer
          by_cases hid : row.id = id
          · cases reply with
            | ok =>
                rw [hk.stores hbefore hupdate hid]
                simp [Call.storedFor, hid]
            | fault =>
                rw [hk.refuses hbefore hupdate, ih]
                simp [Call.storedFor]
            | crash text => exact (hreturned row _ (by simp) hid text rfl).elim
          · rw [hk.spares hbefore hupdate hid, ih]
            cases reply <;> simp [Call.storedFor, hid]
      | tenant | page | template | send =>
          rw [haside (by simp) rfl hbefore hanswer, ih]
          simp [Call.storedFor]

/-- Of rows that are handed over, the last one that was taken is kept. -/
theorem row?_eq (hk : w.Keeps s id row?) {updates : List (Campaign × Reply Unit)}
    (hreturned : ∀ p ∈ updates, p.2.Returns)
    (h : w.History s (updates.map fun p => .update p.1 p.2) t) :
    row? t =
      ((updates.filter fun p => p.1.id = id && p.2.isOk).getLast?.map (·.1)).or (row? s) := by
  have hstored : ∀ updates : List (Campaign × Reply Unit),
      Call.storedFor id (updates.map fun p => .update p.1 p.2) =
        (updates.filter fun p => p.1.id = id && p.2.isOk).map (·.1) := by
    intro updates
    induction updates with
    | nil => rfl
    | cons p rest ih =>
        obtain ⟨row, reply⟩ := p
        rw [Call.storedFor] at ih ⊢
        by_cases hid : row.id = id <;> cases reply <;> simp [hid, Reply.isOk, ih]
  rw [hk.row?_of_history ?_ ?_ h, hstored, List.getLast?_map]
  · intro before made t u hmade hworker
    obtain ⟨p, -, rfl⟩ := List.mem_map.mp hmade
    cases hworker
  · intro row reply hmade _
    obtain ⟨p, hp, hsame⟩ := List.mem_map.mp hmade
    obtain ⟨rfl, rfl⟩ := Call.update.inj hsame
    exact hreturned p hp

/-- When the last row was taken, it is kept. -/
theorem row?_of_last (hk : w.Keeps s id row?) {updates : List (Campaign × Reply Unit)}
    (hreturned : ∀ p ∈ updates, p.2.Returns)
    (h : w.History s (updates.map fun p => .update p.1 p.2) t) {row : Campaign}
    (hlast : (updates.filter (·.1.id = id)).getLast? = some (row, .ok ())) :
    row? t = some row := by
  obtain ⟨before, hbefore⟩ := List.getLast?_eq_some_iff.mp hlast
  have htaken : (updates.filter fun p => p.1.id = id && p.2.isOk) =
      before.filter (·.2.isOk) ++ [(row, .ok ())] := by
    simp only [Bool.and_comm (decide _), ← List.filter_filter, hbefore, List.filter_append]
    rfl
  rw [hk.row?_eq hreturned h, htaken, List.getLast?_concat]
  rfl

end World.Keeps

namespace Office

/-- An office takes a row, or refuses it and stays as it was. -/
theorem update_cases {o u : Office} {row : Campaign} {reply : Reply Unit}
    (h : o.update row = (reply, u)) :
    (reply = .ok () ∧ u.store = o.store.insertCampaign row) ∨
      (∃ fault, reply = .fault fault) ∧ u = o := by
  by_cases hrow : o.store.campaigns.contains row.id = true
  · simp only [update, Store.update, if_pos hrow, Prod.mk.injEq] at h
    obtain ⟨rfl, rfl⟩ := h
    exact .inl ⟨rfl, rfl⟩
  · simp only [update, Store.update, if_neg hrow, Prod.mk.injEq] at h
    exact .inr ⟨⟨_, h.1.symm⟩, h.2.symm⟩

/-- **An office keeps the row of each campaign.** -/
theorem keeps (o : Office) (id : Uuid) :
    Office.world.Keeps o id fun o => o.store.campaign? id where
  stores {_ row _ u} _ hupdate hid := by
    rcases update_cases hupdate with ⟨-, hstore⟩ | ⟨⟨fault, hfault⟩, -⟩
    · simp only [hstore, Store.campaign?, Store.insertCampaign, Table.get?_insert, if_pos hid]
    · cases hfault
  refuses _ hupdate := by
    rcases update_cases hupdate with ⟨hok, -⟩ | ⟨-, rfl⟩
    · cases hok
    · rfl
  spares _ hupdate hid := by
    rcases update_cases hupdate with ⟨-, hstore⟩ | ⟨-, rfl⟩
    · simp only [hstore, Store.campaign?, Store.insertCampaign, Table.get?_insert, if_neg hid]
    · rfl

end Office

namespace Rehearsal

/-- The first row with the identifier makes place for the new one. -/
theorem find?_replaceFirst (row : Campaign) (rows : List Campaign) (id : Uuid) :
    (replaceFirst row rows).find? (·.id = id) =
      if row.id = id then (rows.find? (·.id = id)).map fun _ => row
      else rows.find? (·.id = id) := by
  induction rows with
  | nil => simp [replaceFirst]
  | cons c rest ih =>
      rw [replaceFirst]
      by_cases hc : c.id = row.id
      · by_cases hid : row.id = id <;> simp [hc, hid]
      · by_cases hid : c.id = id
        · have hrow : row.id ≠ id := fun h => hc (hid.trans h.symm)
          simp [hid, hrow, Ne.symm hrow]
        · simp [hc, hid, ih]

end Rehearsal

namespace Script

variable {script : Script} {r t : Rehearsal} {id : Uuid}

/-- A row takes its place, or the script has another reply for it and the rows stay as they were. -/
theorem update_cases {row : Campaign} {reply : Reply Unit} (h : script.update row r = (reply, t)) :
    (reply = .ok () ∧ t.rows = Rehearsal.replaceFirst row r.rows) ∨
      (∃ m ∈ script.updates, m.id = row.id ∧ m.reply = reply) ∧ t.rows = r.rows := by
  unfold update at h
  cases hfind : Mishap.find? script.updates row.id (r.updates.count row.id) with
  | none =>
      simp only [hfind, Prod.mk.injEq] at h
      exact .inl ⟨h.1.symm, by rw [← h.2]⟩
  | some found =>
      simp only [hfind, Prod.mk.injEq] at h
      obtain ⟨m, hm, hreply⟩ := Option.map_eq_some_iff.mp hfind
      have hid := List.find?_some hm
      simp only [Bool.and_eq_true, decide_eq_true_eq] at hid
      exact .inr ⟨⟨m, List.mem_of_find?_eq_some hm, hid.1, hreply.trans h.1⟩, by rw [← h.2]⟩

/-- Only a row that is handed over changes the rows. -/
theorem rows_of_answers {made : Call} (h : script.world.Answers r made t)
    (hworker : made.isUpdate = false) : t.rows = r.rows := by
  cases made with
  | update => cases hworker
  | page owner request reply =>
      have hpage : script.page request r = (reply, t) := h
      unfold page at hpage
      split at hpage <;> rw [← (Prod.mk.inj hpage).2]
  | tenant | template | send =>
      obtain ⟨-, rfl⟩ := Prod.mk.inj h
      rfl

/-- No call takes a row away. -/
theorem isSome_of_answers {made : Call} (h : script.world.Answers r made t)
    (hrow : (r.rows.find? (·.id = id)).isSome) : (t.rows.find? (·.id = id)).isSome := by
  cases hworker : made.isUpdate with
  | false => rwa [rows_of_answers h hworker]
  | true =>
      obtain ⟨row, reply, rfl⟩ : ∃ row reply, made = .update row reply := by
        cases made with
        | update row reply => exact ⟨row, reply, rfl⟩
        | _ => cases hworker
      rcases update_cases h with ⟨-, hrows⟩ | ⟨-, hrows⟩
      · rw [hrows, Rehearsal.find?_replaceFirst]
        split
        · rwa [Option.isSome_map]
        · exact hrow
      · rwa [hrows]

theorem isSome_of_history {calls : List Call} (h : script.world.History r calls t)
    (hrow : (r.rows.find? (·.id = id)).isSome) : (t.rows.find? (·.id = id)).isSome := by
  induction calls generalizing r with
  | nil =>
      obtain rfl : t = r := h
      exact hrow
  | cons made rest ih =>
      obtain ⟨u, hmade, hrest⟩ := h
      exact ih hrest (isSome_of_answers hmade hrow)

/-- **A rehearsal keeps the row that it has of a campaign**, unless it is to say so of a row that it
does not store. -/
theorem keeps (hrow : (r.rows.find? (·.id = id)).isSome)
    (hfails : ∀ m ∈ script.updates, m.id = id → m.reply.isOk = false) :
    script.world.Keeps r id fun r => r.rows.find? (·.id = id) where
  stores {_ row t u} h hupdate hid := by
    rcases update_cases hupdate with ⟨-, hrows⟩ | ⟨⟨m, hm, hmid, hreply⟩, -⟩
    · obtain ⟨c, hc⟩ := Option.isSome_iff_exists.mp (isSome_of_history h hrow)
      simp only [hrows, Rehearsal.find?_replaceFirst, if_pos hid, hc, Option.map_some]
    · have hfailed := hfails m hm (hmid.trans hid)
      rw [hreply] at hfailed
      cases hfailed
  refuses _ hupdate := by
    rcases update_cases hupdate with ⟨hok, -⟩ | ⟨-, hrows⟩
    · cases hok
    · simp only [hrows]
  spares _ hupdate hid := by
    rcases update_cases hupdate with ⟨-, hrows⟩ | ⟨-, hrows⟩
    · simp only [hrows, Rehearsal.find?_replaceFirst, if_neg hid]
    · simp only [hrows]

end Script

end Mailshot

import Mailshot.Proofs.Rounds

/-!
# Tracking beside a campaign that cannot be stored

All rows go through the hands of one clerk.  A row that is refused is passed over, and the rows of other
campaigns are stored as if nothing had happened.  A crash breaks the clerk: what waits for others at
that moment is lost with it, and what they report later is dropped, while their mail goes out.

* `Run.Entered.crash_last`: a crash is the last that comes of any row;
* `Run.Chronicle.row?_ledger`: the last row of a campaign is on file;
* `Run.Chronicle.tracked`: what is on file of the others at the end of a run.
-/

namespace Mailshot

/-- The rows of a campaign that are handed over, in order. -/
def Deed.handed (id : Uuid) (ds : List Deed) : List Campaign :=
  ((updates ds).map (·.1)).filter (·.id = id)

/-- Where all rows of a campaign are stored that are handed over. -/
theorem Deed.storedFor_calls {id : Uuid} {ds : List Deed}
    (hown : ∀ row reply, .update row reply ∈ calls ds → row.id = id → reply = .ok ()) :
    Call.storedFor id (calls ds) = handed id ds := by
  unfold handed updates
  generalize calls ds = made at hown
  induction made with
  | nil => rfl
  | cons first rest ih =>
      have ih := ih fun row reply hmade => hown row reply (List.mem_cons_of_mem _ hmade)
      rw [Call.storedFor] at ih ⊢
      cases first with
      | update row reply =>
          by_cases hid : row.id = id
          · obtain rfl := hown row reply List.mem_cons_self hid
            simp [hid, ih]
          · cases reply <;> simp [hid, ih]
      | tenant | page | template | send => simpa using ih

theorem Deed.mem_handed {id : Uuid} {ds : List Deed} {row : Campaign} :
    row ∈ handed id ds ↔ (∃ p ∈ updates ds, p.1 = row) ∧ row.id = id := by
  rw [handed, List.mem_filter, List.mem_map, decide_eq_true_eq]

namespace Run

variable {σ : Type} {room : Mailroom σ} {due : List Campaign} {s t : σ} {r : Run σ}
  {past : List (Turn × Deed)} {c : Campaign} {Sound : σ → Prop}
  {row? : Uuid → σ → Option Campaign} {cutoff : Int}

/-- **A crash is the last that comes of any row.** -/
theorem Entered.crash_last (h : Entered r past) {before after : List (Campaign × Reply Unit)}
    {row : Campaign} {text : String}
    (hcrash : Deed.updates (deeds past) = before ++ (row, .crash text) :: after) : after = [] := by
  have hbroken : ∃ text, r.desk.clerk = .broken text := by
    by_contra hsound
    exact h.sound (fun text hbroken => hsound ⟨text, hbroken⟩) (row, .crash text)
      (by simp [hcrash]) text rfl
  obtain ⟨text', hbroken⟩ := hbroken
  obtain ⟨earlier, last, hupdates, hreturned⟩ := h.broken text' hbroken
  rcases List.eq_nil_or_concat after with hnil | ⟨init, final, rfl⟩
  · exact hnil
  · have hsplit : (before ++ (row, .crash text) :: init) ++ [final] =
        earlier ++ [(last, .crash text')] := by
      rw [← hupdates, hcrash]
      simp
    have hearlier := (List.append_inj' hsplit rfl).1
    exact (hreturned (row, .crash text) (by simp [← hearlier]) text rfl).elim

/-- What is on file of a campaign whose own rows were all stored is the last one handed over, which is
not pending, or the one at the start where none was. -/
theorem Chronicle.row?_handed (hf : room.world.Files Sound row?) (hs : Sound s)
    (hdue : room.world.due cutoff s = (.ok due, t)) (h : Chronicle room (start room due t) past r)
    (hc : c ∈ due)
    (hown : ∀ row reply, .update row reply ∈ Deed.calls (deeds past) → row.id = c.id →
      reply = .ok ()) :
    row? c.id r.world = (Deed.handed c.id (deeds past)).getLast?.or (some c) ∧
      ∀ row ∈ Deed.handed c.id (deeds past), row.status = .running ∨ row.status = .failed := by
  obtain ⟨hids, hfiled⟩ := hf.due hs hdue
  obtain ⟨ht, hsame⟩ := hf.asked hs hdue
  have hstart : row? c.id t = some c := (hsame c.id).trans (hfiled c hc).1
  constructor
  · rw [← Deed.storedFor_calls hown, ← hstart]
    refine hf.row?_of_history ht (by simp [hstart]) h.history fun row reply hmade hid => ?_
    rw [hown row reply hmade hid]
    simp [Reply.Returns]
  · intro row hrow
    obtain ⟨⟨⟨_, reply⟩, hmade, rfl⟩, -⟩ := Deed.mem_handed.mp hrow
    exact h.updates_begun hids (Deed.mem_updates.mp hmade)

/-- Where all rows that are handed over of a campaign are stored, and no call for storing another one
crashes, the row on file is in the end the one in the ledger. -/
theorem Chronicle.row?_ledger (hf : room.world.Files Sound row?) (hs : Sound s)
    (hdue : room.world.due cutoff s = (.ok due, t)) (h : Chronicle room (start room due t) past r)
    (hfinished : r.foreman = .finished) (hc : c ∈ due)
    (hown : ∀ row reply, .update row reply ∈ Deed.calls (deeds past) → row.id = c.id →
      reply = .ok ()) (hstored : Stored past) :
    ∃ row, r.desk.ledger.row? c.id = some row ∧ row? c.id r.world = some row ∧
      (row.status = .running ∨ row.status = .failed) := by
  obtain ⟨hids, -⟩ := hf.due hs hdue
  obtain ⟨hend, hbegun⟩ := h.row?_handed hf hs hdue hc hown
  -- all that was brought is entered, so the last row handed over is the one in the ledger
  have hfollows := h.follows hids hc
  have hstates : Deed.handed c.id (deeds past) = r.desk.ledger.states c.id := by
    rw [Deed.handed, (h.finished_served hstored hfinished).2, hfollows.entered]
  obtain ⟨row, reply, hmade, hid⟩ := h.updates_ne_nil hids hstored hfinished hc
  have hrow : row ∈ Deed.handed c.id (deeds past) :=
    Deed.mem_handed.mpr ⟨⟨_, Deed.mem_updates.mpr hmade, rfl⟩, hid⟩
  have hsome := List.getLast?_isSome.mpr (List.ne_nil_of_mem hrow)
  obtain ⟨last, hlast⟩ := Option.isSome_iff_exists.mp hsome
  refine ⟨last, ?_, ?_, hbegun last (List.mem_of_getLast? hlast)⟩
  · rw [hfollows.row, ← hstates, hlast, Option.getD_some]
  · rw [hend, hlast, Option.some_or]

/-- **Refusals of one campaign's rows leave the others tracked, and a crash does not.**  Take a run
over what is due in a world that has rows on file, and a campaign whose own rows were all stored when
they were handed over.  If no call for storing a row crashed, however many were refused, the row on
file is in the end the one in the ledger, and it is running or failed.  If a call crashed, no row was
handed over after that, and the row on file is running or failed exactly if a row of the campaign was
handed over before. -/
theorem Chronicle.tracked (hf : room.world.Files Sound row?) (hs : Sound s)
    (hdue : room.world.due cutoff s = (.ok due, t)) (h : Chronicle room (start room due t) past r)
    (hfinished : r.foreman = .finished) (hc : c ∈ due)
    (hown : ∀ row reply, .update row reply ∈ Deed.calls (deeds past) → row.id = c.id →
      reply = .ok ()) :
    (Stored past → ∃ row, r.desk.ledger.row? c.id = some row ∧ row? c.id r.world = some row ∧
      (row.status = .running ∨ row.status = .failed)) ∧
    ∀ before row text after, Deed.updates (deeds past) = before ++ (row, .crash text) :: after →
      after = [] ∧ ∃ kept, row? c.id r.world = some kept ∧
        ((kept.status = .running ∨ kept.status = .failed) ↔ ∃ p ∈ before, p.1.id = c.id) := by
  obtain ⟨hids, hfiled⟩ := hf.due hs hdue
  obtain ⟨hend, hbegun⟩ := h.row?_handed hf hs hdue hc hown
  refine ⟨h.row?_ledger hf hs hdue hfinished hc hown, fun before row text after hcrash => ?_⟩
  obtain rfl := h.entered.crash_last hcrash
  have hother : row.id ≠ c.id := by
    intro hid
    cases hown row (.crash text) (Deed.mem_updates.mp (by simp [hcrash])) hid
  have hbefore : Deed.handed c.id (deeds past) = (before.map (·.1)).filter (·.id = c.id) := by
    simp [Deed.handed, hcrash, List.filter_append, hother]
  refine ⟨rfl, ?_⟩
  cases hlast : (Deed.handed c.id (deeds past)).getLast? with
  | none =>
      rw [hlast, Option.none_or] at hend
      have hnone := List.getLast?_eq_none_iff.mp hlast
      rw [hbefore, List.filter_eq_nil_iff] at hnone
      have hpending : c.status = .pending := by
        simpa using (Bool.and_eq_true_iff.mp (hfiled c hc).2).1
      refine ⟨c, hend, iff_of_false (by simp [hpending]) ?_⟩
      rintro ⟨p, hp, hid⟩
      exact hnone p.1 (List.mem_map_of_mem hp) (by simpa using hid)
  | some last =>
      rw [hlast, Option.some_or] at hend
      have hmem := List.mem_of_getLast? hlast
      refine ⟨last, hend, iff_of_true (hbegun last hmem) ?_⟩
      rw [hbefore, List.mem_filter, List.mem_map] at hmem
      obtain ⟨⟨p, hp, rfl⟩, hid⟩ := hmem
      exact ⟨p, hp, by simpa using hid⟩

end Run

namespace Season

/-- A campaign of which nothing goes wrong. -/
def breeze : Campaign :=
  campaign 60 1 56 "breeze" [Sample.variant 60 61 3 100 "Air"]

/-- The version with breeze, in which storing a row of summer crashes. -/
def burntScript : Script :=
  { common with
    segments := common.segments ++ [(.ofNat 56, .replies [.ok ⟨["gil@example.com"], ""⟩])]
    updates := [{ id := summer.id, reply := .crash "disk on fire" }] }

/-- The campaigns that are due with breeze. -/
def burntDue : List Campaign := [summer, breeze]

/-- The run with breeze. -/
def burntRun : List (Run.Turn × Deed) × Run Rehearsal :=
  runIn burntScript.world burntDue { rows := burntDue }

theorem burntChronicle : Run.Chronicle (moved burntScript.world)
    (Run.start (moved burntScript.world) burntDue { rows := burntDue }) burntRun.1 burntRun.2 :=
  chronicle_runIn _ _ _

theorem burntFiles : burntScript.world.Files (fun r => (r.rows.map (·.id)).Nodup) fun id r =>
    r.rows.find? (·.id = id) :=
  Script.files rfl (by decide +kernel)

theorem burnt_due : burntScript.world.due 0 { rows := burntDue } =
    (.ok burntDue, { rows := burntDue }) := by decide +kernel

/-- No row of breeze is handed over. -/
theorem burnt_own : ∀ row reply, Call.update row reply ∈ Deed.calls (Run.deeds burntRun.1) →
    row.id ≠ breeze.id := by
  have hall : ∀ p ∈ Deed.updates (Run.deeds burntRun.1), p.1.id ≠ breeze.id := by decide +kernel
  exact fun row reply hmade => hall (row, reply) (Deed.mem_updates.mpr hmade)

end Season

/-- Nothing can be stored of frost, and storm is tracked to its failure all the same.  The crash over
summer leaves breeze as it was, since no row of it was handed over before. -/
theorem Run.Chronicle.tracked_of_season :
    (∃ row, Season.wetRun.2.world.rows.find? (·.id = Season.storm.id) = some row ∧
      (row.status = .running ∨ row.status = .failed)) ∧
    ∃ kept, Season.burntRun.2.world.rows.find? (·.id = Season.breeze.id) = some kept ∧
      ¬ (kept.status = .running ∨ kept.status = .failed) := by
  constructor
  · have hfiles : Season.wetScript.world.Files (fun r => (r.rows.map (·.id)).Nodup) fun id r =>
        r.rows.find? (·.id = id) := Script.files rfl (by decide +kernel)
    have hdue : Season.wetScript.world.due 0 { rows := Season.wetDue } =
        (.ok Season.wetDue, { rows := Season.wetDue }) := by decide +kernel
    have hall : ∀ p ∈ Deed.updates (deeds Season.wetRun.1), p.1.id = Season.storm.id →
        p.2 = .ok () := by decide +kernel
    have hstorm : Season.storm ∈ Season.wetDue := by decide
    obtain ⟨hstored, -⟩ := tracked hfiles (by decide) hdue Season.wetChronicle (by decide +kernel)
      hstorm fun row reply hmade => hall (row, reply) (Deed.mem_updates.mpr hmade)
    obtain ⟨row, -, hrow, hbegun⟩ := hstored (by decide +kernel)
    exact ⟨row, hrow, hbegun⟩
  · have hbreeze : Season.breeze ∈ Season.burntDue := by decide
    obtain ⟨-, hcrash⟩ := tracked Season.burntFiles (by decide) Season.burnt_due
      Season.burntChronicle (by decide +kernel) hbreeze
      fun row reply hmade hid => (Season.burnt_own row reply hmade hid).elim
    obtain ⟨-, kept, hkept, hiff⟩ := hcrash []
      { Season.summer with status := .running, segmentSize := 3 } "disk on fire" []
      (by decide +kernel)
    exact ⟨kept, hkept, fun hbegun => by simpa using hiff.mp hbegun⟩

/-- **A crash over one campaign leaves another pending whose mail went out**, so it is not so that each
campaign is tracked whose own rows neither fail nor crash. -/
theorem Run.Chronicle.untracked_of_crash :
    ¬ ∀ {σ : Type} {room : Mailroom σ} {Sound : σ → Prop} {row? : Uuid → σ → Option Campaign}
        {cutoff : Int} {s t : σ} {due : List Campaign} {past : List (Turn × Deed)} {r : Run σ}
        {c : Campaign}, room.world.Files Sound row? → Sound s →
      room.world.due cutoff s = (.ok due, t) → Chronicle room (start room due t) past r →
      r.foreman = .finished → c ∈ due →
      (∀ row reply, .update row reply ∈ Deed.calls (deeds past) → row.id = c.id →
        reply = .ok ()) →
      (∃ mail, .send c.id mail (.ok ()) ∈ Deed.calls (deeds past)) →
      ∃ row, row? c.id r.world = some row ∧ (row.status = .running ∨ row.status = .failed) := by
  intro htracked
  have hbreeze : Season.breeze ∈ Season.burntDue := by decide
  have hsent : Call.send Season.breeze.id ⟨.ofNat 61, "room@example.com", ["gil@example.com"], "Air",
      "<b>"⟩ (.ok ()) ∈ Deed.calls (deeds Season.burntRun.1) := by decide +kernel
  obtain ⟨row, hrow, hbegun⟩ := htracked Season.burntFiles (by decide) Season.burnt_due
    Season.burntChronicle (by decide +kernel) hbreeze
    (fun row reply hmade hid => (Season.burnt_own row reply hmade hid).elim) ⟨_, hsent⟩
  have hleft : Season.burntRun.2.world.rows.find? (·.id = Season.breeze.id) = some Season.breeze := by
    decide +kernel
  obtain rfl : row = Season.breeze := Option.some.inj (hrow.symm.trans hleft)
  rcases hbegun with hbegun | hbegun <;> cases hbegun

end Mailshot

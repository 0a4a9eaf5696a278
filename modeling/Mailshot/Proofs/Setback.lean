import Mailshot.Proofs.Rehearsal
import Mailshot.Proofs.Run.Desk
import Mailshot.Proofs.Worker.Setback

/-!
# All or nothing

Either all content of a campaign is at hand before its first batch goes out, or nothing is sent.  A
worker that fails says why, and one that breaks is reported by the foreman, so both leave the row
failed with a reason; what a crash of the provider cuts short is the plan.

* `Run.Chronicle.failed_row`, `Run.Chronicle.broken_row`: the row that a worker leaves;
* `Run.Chronicle.all_or_nothing`: the calls and the row of a campaign that fails or breaks.
-/

namespace Mailshot.Run

variable {σ : Type} {room : Mailroom σ} {due : List Campaign} {capacity : Nat} {s : σ} {r : Run σ}
  {past : List (Turn × Deed)} {i : Nat} {c : Campaign} {o : Outcome} {before after : List Call}
  {made : Call} {cause : Fault} {mail : Mail} {text : String}

/-- The row of a campaign whose worker failed: it keeps its progress, and its size unless the
audience was known. -/
theorem Chronicle.failed_row (hids : (due.map (·.id)).Nodup)
    (h : Chronicle room (opened due capacity s) past r) (hstored : Stored past)
    (hfinished : r.foreman = .finished) (hk : r.workers[i]? = some ⟨c, .ended o⟩)
    (hcalls : Deed.calls (deedsOf i past) = before ++ made :: after)
    (hraised : Worker.raised? c before made = some cause) :
    ∃ row, r.desk.ledger.row? c.id = some row ∧ row.status = .failed ∧
      row.failureReason = some cause.message ∧ row.progress = c.progress ∧
      row.segmentSize = if made.isTemplate then
        ((Call.arrived before).flatMap (·.recipients)).length else c.segmentSize := by
  have hcourse : Worker.Course room c (deedsOf i past) (.ended o) := h.course hk
  obtain ⟨-, rfl, -, hevents⟩ := hcourse.setback hcalls hraised
  obtain ⟨row, hrow, htimeless⟩ := h.final_row hids hstored hfinished hk
  have hparting : Worker.parting? (room.task i)
      ⟨c, .ended (.failed (cause.forCampaign c.id))⟩ = none := rfl
  rw [hevents, hparting, Option.toList_none, List.append_nil] at htimeless
  have hfinal : row.timeless =
      { c.timeless with
        status := .failed
        failureReason := some cause.message
        segmentSize := if made.isTemplate then
          ((Call.arrived before).flatMap (·.recipients)).length else c.segmentSize } := by
    rw [htimeless]
    cases made.isTemplate <;> rfl
  have hstatus : row.timeless.status = .failed := by rw [hfinal]
  have hreason : row.timeless.failureReason = some cause.message := by rw [hfinal]
  have hprogress : row.timeless.progress = c.progress := by rw [hfinal]; rfl
  have hsize : row.timeless.segmentSize = if made.isTemplate then
      ((Call.arrived before).flatMap (·.recipients)).length else c.segmentSize := by rw [hfinal]
  exact ⟨row, hrow, hstatus, hreason, hprogress, hsize⟩

/-- The row of a campaign whose worker broke in a call to the provider: it has the size of the
audience and the progress of the call before. -/
theorem Chronicle.broken_row (hids : (due.map (·.id)).Nodup)
    (h : Chronicle room (opened due capacity s) past r) (hstored : Stored past)
    (hfinished : r.foreman = .finished) (hk : r.workers[i]? = some ⟨c, .ended (.broken text)⟩)
    {tenant : Tenant} {audience bodies : List String} {resolution more : List Deed}
    {sent : List (Mailing × Reply Unit)} (hopen : ∀ p ∈ sent, p.1.closing = false)
    (hresolve : Worker.Resolves room c tenant audience bodies resolution)
    (hdeeds : deedsOf i past =
      resolution ++ (Worker.posts c.id (Worker.opening audience) sent ++ more))
    (hsilent : Deed.events more = []) :
    ∃ row, r.desk.ledger.row? c.id = some row ∧ row.status = .failed ∧
      row.failureReason = some (Fault.brokenTask text (room.task i)) ∧
      row.segmentSize = audience.length ∧ row.progress = if sent = [] then c.progress else
        Progress.percent (Worker.handed (sent.map fun p => (p.1.mail, p.2))) audience.length := by
  obtain ⟨row, hrow, htimeless⟩ := h.final_row hids hstored hfinished hk
  have hevents : Deed.events (deedsOf i past) = .running c.id audience.length ::
      (Worker.percents (Worker.opening audience) sent).map (Event.progress c.id) := by
    rw [hdeeds, Deed.events_append, Deed.events_append, hresolve.events_eq, hsilent,
      Worker.events_posts, List.append_nil, List.singleton_append]
  have hafter := Campaign.after_progress c.id (c.timeless.merge (Event.running c.id
    audience.length).delta) (Worker.percents (Worker.opening audience) sent)
  have hlast : ((Worker.percents (Worker.opening audience) sent).getLast?.map Campaign.cap).getD
      c.progress = if sent = [] then c.progress else
        Progress.percent (Worker.handed (sent.map fun p => (p.1.mail, p.2))) audience.length := by
    rw [Worker.getLast?_percents _ hopen]
    by_cases hnone : sent = []
    · simp [hnone]
    · have hcap : ∀ a n, Campaign.cap (Progress.percent a n) = Progress.percent a n :=
        fun a n => Nat.min_eq_left (Progress.percent_le a n)
      simp [hnone, Worker.opening, hcap]
  have hfinal : row.timeless =
      { c.timeless with
        status := .failed
        failureReason := some (Fault.brokenTask text (room.task i))
        segmentSize := audience.length
        progress := if sent = [] then c.progress else
          Progress.percent (Worker.handed (sent.map fun p => (p.1.mail, p.2)))
            audience.length } := by
    rw [htimeless, hevents, Campaign.after_append, ← hlast]
    exact congrArg (Campaign.merge · (brokenEvent c.id (room.task i) text).delta) hafter
  have hstatus : row.timeless.status = .failed := by rw [hfinal]
  have hreason : row.timeless.failureReason = some (Fault.brokenTask text (room.task i)) := by
    rw [hfinal]
  have hsize : row.timeless.segmentSize = audience.length := by rw [hfinal]
  have hprogress : row.timeless.progress = if sent = [] then c.progress else
      Progress.percent (Worker.handed (sent.map fun p => (p.1.mail, p.2))) audience.length := by
    rw [hfinal]
  exact ⟨row, hrow, hstatus, hreason, hsize, hprogress⟩

/-- **All or nothing.**  Where the tenant, a page or a template of a campaign comes back with a fault,
or a body cannot be read, that call is the last one made for the campaign, and no mail was handed to
the provider.  The campaign has failed with the wording of the fault, at the progress it had, with
the size of its audience if that was known.  Where the provider crashes instead, that call is the last
one, too: what was handed over is the beginning of the plan up to this call, and the campaign has
failed with what is told of the crash, at the progress of the calls that came back. -/
theorem Chronicle.all_or_nothing (hids : (due.map (·.id)).Nodup)
    (h : Chronicle room (opened due capacity s) past r) (hstored : Stored past)
    (hfinished : r.foreman = .finished) (hi : due[i]? = some c) :
    (∀ before made after cause,
      Call.callsFor c.id (Deed.calls (deeds past)) = before ++ made :: after →
      Worker.raised? c before made = some cause →
        after = [] ∧ Call.posted (Call.callsFor c.id (Deed.calls (deeds past))) = [] ∧
        ∃ row, r.desk.ledger.row? c.id = some row ∧ row.status = .failed ∧
          row.failureReason = some cause.message ∧ row.progress = c.progress ∧
          row.segmentSize = if made.isTemplate then
            ((Call.arrived before).flatMap (·.recipients)).length else c.segmentSize) ∧
    ∀ before mail text after,
      Call.callsFor c.id (Deed.calls (deeds past)) =
          before ++ .send c.id mail (.crash text) :: after →
        after = [] ∧ ∃ tenant audience bodies resolution rest,
          Worker.Resolves room c tenant audience bodies resolution ∧
          Deed.calls resolution <+: before ∧
          (Worker.plan room c tenant audience bodies).map (·.mail) =
            (Call.posted before).map (·.1) ++ mail :: rest ∧
          (∀ p ∈ Call.posted before, p.2.Returns) ∧
          ∃ row, r.desk.ledger.row? c.id = some row ∧ row.status = .failed ∧
            row.failureReason = some (Fault.brokenTask text (room.task i)) ∧
            row.segmentSize = audience.length ∧
            row.progress = if Call.posted before = [] then c.progress else
              Progress.percent (Worker.handed (Call.posted before)) audience.length := by
  obtain ⟨o, hk⟩ := h.ended_of_finished hfinished hi
  have hcourse : Worker.Course room c (deedsOf i past) (.ended o) := h.course hk
  rw [h.callsFor_eq hids hi]
  refine ⟨?_, ?_⟩
  · intro before made after cause hcalls hraised
    obtain ⟨hlast, -, hmails, -⟩ := hcourse.setback hcalls hraised
    exact ⟨hlast, hmails, h.failed_row hids hstored hfinished hk hcalls hraised⟩
  · intro before mail text after hcalls
    obtain ⟨hlast, rfl, tenant, audience, bodies, resolution, sent, m, rest, hresolve, hplan, hmail,
      hsent, hdeeds⟩ := hcourse.cut_short hcalls
    have hopen : ∀ p ∈ sent, p.1.closing = false := by
      -- a mailing that closes the campaign is the last one planned, and these have one after them
      intro p hp
      obtain ⟨xs, ys, rfl⟩ := List.append_of_mem hp
      by_contra hclosing
      rw [List.map_append, List.map_cons, List.append_assoc, List.cons_append] at hplan
      have hnil := Batch.plan_closing hplan (by simpa using hclosing)
      simp at hnil
    have hbefore : before = Deed.calls resolution ++
        Deed.calls (Worker.posts c.id (Worker.opening audience) sent) := by
      have hall := hcalls.symm.trans (congrArg Deed.calls hdeeds)
      rw [hlast, Deed.calls_append, Deed.calls_append, ← List.append_assoc] at hall
      exact (List.append_inj' hall rfl).1
    have hposted : Call.posted before = sent.map fun p => (p.1.mail, p.2) := by
      rw [hbefore, Call.posted_append, Call.posted_calls, Call.posted_calls,
        hresolve.mails_eq_nil, Worker.mails_posts, List.nil_append]
    refine ⟨hlast, tenant, audience, bodies, resolution, rest.map (·.mail), hresolve,
      ⟨_, hbefore.symm⟩, ?_, ?_, ?_⟩
    · rw [hplan, hposted, ← hmail]
      simp
    · rw [hposted]
      intro p hp
      obtain ⟨q, hq, rfl⟩ := List.mem_map.mp hp
      exact hsent q hq
    · rw [hposted]
      simpa using h.broken_row hids hstored hfinished hk hopen hresolve hdeeds rfl

/-- A body of frost cannot be read, so nothing of it is sent; storm breaks in its second call, at the
progress of the first. -/
theorem Chronicle.all_or_nothing_of_season :
    (Call.posted (Call.callsFor Season.frost.id (Deed.calls (deeds Season.wetRun.1))) = [] ∧
      ∃ row, Season.wetRun.2.desk.ledger.row? Season.frost.id = some row ∧
        row.failureReason = some (Fault.message (Content.decodeFault (.ofNat 4)
          (.base64 (.invalidLength 1)))) ∧ row.segmentSize = 1) ∧
    ∃ (audience : List String) (row : Campaign),
      Season.wetRun.2.desk.ledger.row? Season.storm.id = some row ∧
      row.failureReason = some (Fault.brokenTask "out of paper" "3") ∧
      row.segmentSize = audience.length ∧ row.progress = Progress.percent 1 audience.length := by
  have hids : (Season.wetDue.map (·.id)).Nodup := by decide
  have hstored : Stored Season.wetRun.1 := by decide +kernel
  have hfinished : Season.wetRun.2.foreman = .finished := by decide +kernel
  constructor
  · have hfrost : Season.wetDue[2]? = some Season.frost := rfl
    obtain ⟨hfailed, -⟩ := Season.wetChronicle.all_or_nothing hids hstored hfinished hfrost
    obtain ⟨-, hmails, row, hrow, -, hreason, -, hsize⟩ := hfailed
      ((Call.callsFor Season.frost.id (Deed.calls (deeds Season.wetRun.1))).take 3)
      (.template Season.frost.id Sample.acme (.ofNat 4)
        (.ok { Sample.template (.ofNat 4) with body := "P" })) []
      (Content.decodeFault (.ofNat 4) (.base64 (.invalidLength 1)))
      (by decide +kernel) (by decide +kernel)
    refine ⟨hmails, row, hrow, hreason, ?_⟩
    rw [hsize]
    decide +kernel
  · have hstorm : Season.wetDue[1]? = some Season.storm := rfl
    have htask : Season.wet.task 1 = "3" := by decide
    obtain ⟨-, hbroken⟩ := Season.wetChronicle.all_or_nothing hids hstored hfinished hstorm
    obtain ⟨-, -, audience, -, -, -, -, -, -, -, row, hrow, -, hreason, hsize, hprogress⟩ := hbroken
      ((Call.callsFor Season.storm.id (Deed.calls (deeds Season.wetRun.1))).take 5)
      ⟨.ofNat 22, "room@example.com", ["eve@example.com"], "Rain", "<b>"⟩ "out of paper" []
      (by decide +kernel)
    rw [htask] at hreason
    refine ⟨audience, row, hrow, hreason, hsize, hprogress.trans ?_⟩
    have hfirst : Call.posted ((Call.callsFor Season.storm.id
        (Deed.calls (deeds Season.wetRun.1))).take 5) =
          [(⟨.ofNat 21, "room@example.com", ["dan@example.com"], "Wind", "<b>"⟩, .ok ())] := by
      decide +kernel
    rw [hfirst]
    rfl

end Mailshot.Run

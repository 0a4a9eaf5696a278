import Mathlib.Algebra.Order.Floor.Div
import Mailshot.Proofs.Accounts
import Mailshot.Proofs.Run.Stocked

/-!
# How a bucket is mailed

A bucket is cut into pieces, and for each piece there is one call to the provider.  A provider that
always comes back, be it with a fault, is called for every piece, in order: what it refuses is counted
and passed over.  After each call, and before the next one starts, progress is told; it is a forced
hundred only after the last call for the last variant.

* `Batch.Cut`, `Batch.cut_chunks`: the pieces of a bucket;
* `Batch.milestones`: the progress after each piece, told from the pieces alone;
* `Batch.deliver_of_returns`: what comes of calls that all come back;
* `Worker.rounds`: calls, each followed by its progress;
* `Run.Chronicle.delivering`: from the first batch on, a worker of any run delivers what is planned;
* `Run.Chronicle.first_calls`: the first calls of a plan, made and told one after another;
* `Batch.bucket_delivered`: all of it, for one bucket.
-/

namespace Mailshot

/-- Where the provider always comes back to the calls for a campaign, every such call of a history
did. -/
theorem World.History.returns {σ : Type} {w : World σ} {s t : σ} {owner : Uuid} {calls : List Call}
    (hreturns : ∀ mail s, (w.send owner mail s).1.Returns) (h : w.History s calls t) {mail : Mail}
    {reply : Reply Unit} (hmade : .send owner mail reply ∈ calls) : reply.Returns := by
  induction calls generalizing s with
  | nil => cases hmade
  | cons made rest ih =>
      obtain ⟨u, hanswers, hrest⟩ := h
      rcases List.mem_cons.mp hmade with rfl | hmade
      · have hreply : (w.send owner mail s).1 = reply := congrArg Prod.fst hanswers
        exact hreply ▸ hreturns mail s
      · exact ih hrest hmade

/-- A script in which no call to the provider crashes lets every one come back. -/
theorem Script.send_returns (script : Script) (h : ∀ m ∈ script.sends, m.reply.Returns)
    (mail : Mail) (r : Rehearsal) : (script.send mail r).1.Returns := by
  rw [send]
  cases hfind : Mishap.find? script.sends mail.variant (r.sends.count mail.variant) with
  | none => simp [Reply.Returns]
  | some reply =>
      obtain ⟨m, hm, rfl⟩ := Option.map_eq_some_iff.mp hfind
      exact h m (List.mem_of_find?_eq_some hm)

namespace Tally

variable (t : Tally) {sent : List (Mailing × Reply Unit)}

/-- The tally counts the calls that came back, and the faults among them. -/
theorem counts_after (hsent : ∀ p ∈ sent, p.2.Returns) :
    (t.after sent).batches = t.batches + sent.length ∧
      (t.after sent).failed = t.failed + (sent.map (·.2)).countP (·.isFault) := by
  induction sent generalizing t with
  | nil => exact ⟨rfl, rfl⟩
  | cons p rest ih =>
      obtain ⟨m, reply⟩ := p
      obtain ⟨hreply, hrest⟩ := List.forall_mem_cons.mp hsent
      obtain ⟨hbatches, hfailed⟩ := ih (t.note m reply.isOk).1 hrest
      have hafter : t.after ((m, reply) :: rest) = (t.note m reply.isOk).1.after rest := rfl
      rw [hafter, hbatches, hfailed]
      cases reply with
      | crash text => exact (hreply text rfl).elim
      | ok | fault => simp [note, Reply.isOk, Reply.isFault, Nat.add_assoc, Nat.add_comm 1]

/-- **The tally after calls that came back.** -/
theorem after_eq (hsent : ∀ p ∈ sent, p.2.Returns) :
    t.after sent =
      { progress := ⟨t.progress.segmentSize,
          t.progress.attempted + Worker.handed (sent.map fun p => (p.1.mail, p.2))⟩
        batches := t.batches + sent.length
        failed := t.failed + (sent.map (·.2)).countP (·.isFault) } := by
  obtain ⟨hbatches, hfailed⟩ := t.counts_after hsent
  rw [← Worker.progress_after, ← hbatches, ← hfailed]

end Tally

namespace Batch

/-! ### The pieces -/

/-- The pieces of a bucket: as many as it takes, none of them empty, all full except perhaps the last
one, and together the bucket. -/
structure Cut (size : Nat) (bucket : List String) (pieces : List (List String)) : Prop where
  length_eq : pieces.length = bucket.length ⌈/⌉ size
  flatten_eq : pieces.flatten = bucket
  nonempty : ∀ piece ∈ pieces, piece ≠ []
  length_le : ∀ piece ∈ pieces, piece.length ≤ size
  full : ∀ piece ∈ pieces.dropLast, piece.length = size

/-- Every piece but the last is full. -/
theorem length_of_mem_dropLast {α : Type} {size : Nat} {xs piece : List α}
    (h : piece ∈ (chunks size xs).dropLast) : piece.length = size := by
  fun_induction chunks size xs with
  | case1 => cases h
  | case2 xs hgo ih =>
      cases hrest : chunks size (xs.drop size) with
      | nil => simp [hrest] at h
      | cons next rest =>
          rw [hrest, List.dropLast_cons_cons] at h
          rcases List.mem_cons.mp h with rfl | h
          · -- another piece follows, so more is left than this one takes
            have hmore : xs.drop size ≠ [] := by
              intro hnil
              simp [hnil, chunks] at hrest
            have hleft := List.length_pos_iff.mpr hmore
            rw [List.length_drop] at hleft
            rw [List.length_take]
            omega
          · exact ih (hrest ▸ h)

/-- **A bucket is cut into pieces** of the size asked for. -/
theorem cut_chunks {size : Nat} (hsize : 0 < size) (bucket : List String) :
    Cut size bucket (chunks size bucket) where
  length_eq := by rw [length_chunks hsize, Nat.ceilDiv_eq_add_pred_div]
  flatten_eq := flatten_chunks hsize bucket
  nonempty _ hpiece := (of_mem_chunks hpiece).1
  length_le _ hpiece := (of_mem_chunks hpiece).2
  full _ hpiece := length_of_mem_dropLast hpiece

/-! ### The progress after each piece -/

/-- The progress after each piece that is mailed: the part of the audience mailed to by then, and a
hundred after the last piece for the last variant. -/
def milestones (last : Bool) (p : Progress) (pieces : List (List String)) : List Nat :=
  (List.range pieces.length).map fun k =>
    if last ∧ k + 1 = pieces.length then 100
    else Progress.percent (p.attempted + (pieces.take (k + 1)).flatten.length) p.segmentSize

@[simp] theorem length_milestones (last : Bool) (p : Progress) (pieces : List (List String)) :
    (milestones last p pieces).length = pieces.length := by
  simp [milestones]

/-- A piece that others follow brings progress to the part mailed to, and they go on from there. -/
theorem milestones_cons (last : Bool) (p : Progress) (piece : List String)
    {rest : List (List String)} (hrest : rest ≠ []) :
    milestones last p (piece :: rest) =
      Progress.percent (p.attempted + piece.length) p.segmentSize ::
        milestones last { p with attempted := p.attempted + piece.length } rest := by
  rw [milestones, List.length_cons, List.range_succ_eq_map, List.map_cons, List.map_map, milestones]
  congr 1
  · simp [hrest]
  · refine List.map_congr_left fun k _ => ?_
    simp [Nat.add_assoc]

/-- **The progress that is told** for the calls of a bucket, whatever they came back with. -/
theorem percents_mailingsOf {sender : String} {v : Variant} {html : String} {last : Bool}
    {pieces : List (List String)} {t : Tally} {sent : List (Mailing × Reply Unit)}
    (hsent : sent.map (·.1) = mailingsOf sender v html last pieces) :
    Worker.percents t sent = milestones last t.progress pieces := by
  fun_induction mailingsOf sender v html last pieces generalizing t sent with
  | case1 =>
      obtain rfl := List.map_eq_nil_iff.mp hsent
      rfl
  | case2 piece =>
      obtain ⟨⟨m, reply⟩, rfl, rfl⟩ := List.map_eq_singleton_iff.mp hsent
      simp [Worker.percents, Tally.note, Progress.record, milestones]
  | case3 piece rest hmore ih =>
      obtain ⟨⟨m, reply⟩, sent, rfl, rfl, hothers⟩ := List.map_eq_cons_iff.mp hsent
      rw [Worker.percents, ih hothers, milestones_cons last t.progress piece fun hnil => hmore hnil]
      simp [Tally.note, Progress.record]

/-! ### The calls -/

/-- **Calls that all come back are all made**, in order; they are tallied, counted, and followed by
progress each. -/
theorem deliver_of_returns {σ : Type} {w : World σ} {owner : Uuid}
    (hreturns : ∀ mail s, (w.send owner mail s).1.Returns) (planned : List Mailing) (t : Tally)
    (s : σ) :
    ∃ sent u, sent.map (·.1) = planned ∧ (∀ p ∈ sent, p.2.Returns) ∧
      w.History s (sent.map fun p => .send owner p.1.mail p.2) u ∧
      deliver w owner planned t s = ⟨t.after sent, Worker.percents t sent,
        ((sent.map fun p => Call.send owner p.1.mail p.2).map Call.tick).sum, none, u⟩ := by
  induction planned generalizing t s with
  | nil => exact ⟨[], s, rfl, List.forall_mem_nil _, rfl, rfl⟩
  | cons m rest ih =>
      have hback := hreturns m.mail s
      cases hreply : w.send owner m.mail s with
      | mk reply u =>
          rw [hreply] at hback
          obtain ⟨sent, u', rfl, hsent, hhistory, hdeliver⟩ := ih (t.note m reply.isOk).1 u
          refine ⟨(m, reply) :: sent, u', rfl, List.forall_mem_cons.mpr ⟨hback, hsent⟩,
            ⟨u, hreply, hhistory⟩, ?_⟩
          cases reply with
          | crash text => exact (hback text rfl).elim
          | ok | fault =>
              simp only [deliver, hreply, hdeliver]
              rfl

end Batch

/-! ### The calls and their progress -/

namespace Worker

/-- Calls, each started, made, and followed by its progress before the next one starts. -/
def rounds (owner : Uuid) (mails : List Mail) (replies : List (Reply Unit)) (percents : List Nat) :
    List Deed :=
  (mails.zip (replies.zip percents)).flatMap fun (mail, reply, percent) =>
    [.start mail, .call (.send owner mail reply), .report (.progress owner percent)]

/-- The deeds of mailings that came back are rounds. -/
theorem posts_eq_rounds (owner : Uuid) (t : Tally) (sent : List (Mailing × Reply Unit)) :
    posts owner t sent =
      rounds owner (sent.map (·.1.mail)) (sent.map (·.2)) (percents t sent) := by
  induction sent generalizing t with
  | nil => rfl
  | cons p rest ih =>
      obtain ⟨m, reply⟩ := p
      rw [posts, ih]
      rfl

theorem length_posts (owner : Uuid) (t : Tally) (sent : List (Mailing × Reply Unit)) :
    (posts owner t sent).length = 3 * sent.length := by
  induction sent generalizing t with
  | nil => rfl
  | cons p rest ih =>
      obtain ⟨m, reply⟩ := p
      simp only [posts, List.length_cons, ih]
      omega

variable {c : Campaign} {t : Tally} {planned : List Mailing} {deeds : List Deed} {p : Phase}

/-- What a worker has handed over came back, where no call of its campaign crashed. -/
theorem Delivers.mails_return (h : Delivers c t planned deeds p)
    (hcalls : ∀ mail reply, .send c.id mail reply ∈ Deed.calls deeds → Reply.Returns reply) :
    ∀ p ∈ Deed.mails deeds, p.2.Returns := by
  have hposts : ∀ {sent : List (Mailing × Reply Unit)}, (∀ p ∈ sent, p.2.Returns) →
      ∀ p ∈ Deed.mails (posts c.id t sent), p.2.Returns := by
    intro sent hsent
    rw [mails_posts]
    exact List.forall_mem_map.mpr hsent
  cases h with
  | between _ hsent => exact hposts hsent
  | started _ hsent =>
      rw [Deed.mails_append]
      exact List.forall_mem_append.mpr ⟨hposts hsent, List.forall_mem_nil _⟩
  | returned _ hsent hreply =>
      rw [Deed.mails_append]
      exact List.forall_mem_append.mpr ⟨hposts hsent, List.forall_mem_singleton.mpr hreply⟩
  | @broken sent m rest text => exact (hcalls m.mail (.crash text) (by simp) text rfl).elim

/-- **What a worker has done is the beginning of its calls**, with some replies to those that it has
yet to make. -/
theorem Delivers.exists_posts (h : Delivers c t planned deeds p)
    (hmails : ∀ p ∈ Deed.mails deeds, p.2.Returns) :
    ∃ sent, sent.map (·.1) = planned ∧ (∀ p ∈ sent, p.2.Returns) ∧
      deeds <+: posts c.id t sent := by
  -- the calls that are left may as well be taken
  have hgo : ∀ (sent : List (Mailing × Reply Unit)) (rest : List Mailing),
      planned = sent.map (·.1) ++ rest → (∀ p ∈ sent, p.2.Returns) →
      deeds <+: posts c.id t sent →
      ∃ sent, sent.map (·.1) = planned ∧ (∀ p ∈ sent, p.2.Returns) ∧
        deeds <+: posts c.id t sent := by
    intro sent rest hplan hsent hdone
    refine ⟨sent ++ rest.map fun m => (m, .ok ()), by simp [hplan, Function.comp_def], ?_, ?_⟩
    · refine List.forall_mem_append.mpr ⟨hsent, List.forall_mem_map.mpr fun m _ => ?_⟩
      simp [Reply.Returns]
    · rw [posts_append]
      exact hdone.trans (List.prefix_append _ _)
  cases h with
  | between hplan hsent => exact hgo _ _ hplan hsent (List.prefix_refl _)
  | @started sent m rest hplan hsent =>
      refine hgo (sent ++ [(m, .ok ())]) rest (by simpa using hplan) ?_ ?_
      · exact List.forall_mem_append.mpr
          ⟨hsent, List.forall_mem_singleton.mpr (by simp [Reply.Returns])⟩
      · rw [posts_append, List.prefix_append_right_inj]
        exact ⟨_, rfl⟩
  | @returned sent m rest reply hplan hsent hreply =>
      refine hgo (sent ++ [(m, reply)]) rest (by simpa using hplan) ?_ ?_
      · exact List.forall_mem_append.mpr ⟨hsent, List.forall_mem_singleton.mpr hreply⟩
      · rw [posts_append, List.prefix_append_right_inj]
        exact ⟨_, rfl⟩
  | @broken sent m rest text =>
      exact (hmails (m.mail, .crash text) (by simp [Deed.mails]) text rfl).elim

end Worker

namespace Run

variable {σ : Type} {room : Mailroom σ} {r t : Run σ} {past : List (Turn × Deed)} {i : Nat}
  {c : Campaign} {tally : Tally} {planned : List Mailing}

/-- **From the first batch on a worker delivers what is planned**, whatever the others do. -/
theorem Chronicle.delivering (h : Chronicle room r past t)
    (hstart : r.workers[i]? = some ⟨c, Worker.toPosting c tally planned⟩) :
    ∃ p, t.workers[i]? = some ⟨c, p⟩ ∧
      Worker.Delivers c tally planned (deedsOf i past) p :=
  h.kept_by_moves (.between (List.nil_append _).symm (List.forall_mem_nil _))
    (fun hdeliver hmove => hdeliver.move hmove) hstart

/-- **The first calls that are planned** are made and told one after another, and the worker does not
end before.  Here the provider always comes back. -/
theorem Chronicle.first_calls (hreturns : ∀ mail s, (room.world.send c.id mail s).1.Returns)
    (h : Chronicle room r past t) {first rest : List Mailing}
    (hstart : r.workers[i]? = some ⟨c, Worker.toPosting c tally (first ++ rest)⟩) :
    (∃ sent, sent.map (·.1) = first ∧ (∀ p ∈ sent, p.2.Returns) ∧
      (deedsOf i past).take (3 * first.length) <+: Worker.posts c.id tally sent) ∧
    ((deedsOf i past).length < 3 * first.length →
      ∃ k, t.workers[i]? = some k ∧ k.isOver = false) := by
  obtain ⟨p, hk, hdeliver⟩ := h.delivering hstart
  have hmails := hdeliver.mails_return fun mail reply hmade =>
    h.history.returns hreturns (calls_deedsOf_subset i past hmade)
  constructor
  · obtain ⟨all, hall, hback, hdone⟩ := hdeliver.exists_posts hmails
    obtain ⟨sent, others, rfl, rfl, -⟩ := List.map_eq_append_iff.mp hall
    refine ⟨sent, rfl, (List.forall_mem_append.mp hback).1, ?_⟩
    have htaken := hdone.take (3 * (sent.map (·.1)).length)
    rwa [Worker.posts_append, List.take_left' (by simp [Worker.length_posts])] at htaken
  · intro hless
    refine ⟨_, hk, ?_⟩
    cases p with
    | ended o =>
        -- a worker that has ended has made all calls, those after the first ones too
        obtain ⟨sent, hplan, hdeeds, -⟩ := hdeliver.posted hmails
        have hlength := congrArg List.length hplan
        rw [hdeeds, Worker.length_posts] at hless
        simp only [List.length_append, List.length_map] at hlength
        omega
    | _ => rfl

end Run

namespace Batch

variable {σ : Type} {size : Nat} {sender : String} {v : Variant} {html : String} {last : Bool}
  {bucket : List String} {sent : List (Mailing × Reply Unit)}

/-- Calls made for a bucket are the mail for it. -/
theorem mail_of_mailings (hsent : sent.map (·.1) = mailings size sender v html last bucket) :
    sent.map (·.1.mail) = mailsOf size sender v html bucket := by
  rw [mailsOf, ← mail_mailingsOf sender v html last, ← mailings, ← hsent, List.map_map]
  rfl

/-- They go to its members. -/
theorem handed_mailings (hsize : 0 < size)
    (hsent : sent.map (·.1) = mailings size sender v html last bucket) :
    Worker.handed (sent.map fun p => (p.1.mail, p.2)) = bucket.length := by
  calc Worker.handed (sent.map fun p => (p.1.mail, p.2))
      = (recipients (sent.map (·.1.mail))).length := by
        rw [Worker.handed_eq, recipients, List.flatMap_map, List.flatMap_map]
    _ = bucket.length := by rw [mail_of_mailings hsent, recipients_mailsOf hsize]

/-- What calls that came back add to the counters. -/
theorem sum_tick_sends (owner : Uuid) (hsent : ∀ p ∈ sent, p.2.Returns) :
    ((sent.map fun p => Call.send owner p.1.mail p.2).map Call.tick).sum =
      { batchesSent := (sent.map (·.2)).countP (·.isOk)
        batchErrors := (sent.map (·.2)).countP (·.isFault)
        recipientsAttempted := Worker.handed (sent.map fun p => (p.1.mail, p.2)) } := by
  have hposted : Call.posted (sent.map fun p => Call.send owner p.1.mail p.2) =
      sent.map fun p => (p.1.mail, p.2) := by
    simp [Call.posted, List.filterMap_map]
  have hreturned : (sent.map fun p => (p.1.mail, p.2)).filter (fun p => p.2.Returns) =
      sent.map fun p => (p.1.mail, p.2) := by
    rw [List.filter_eq_self]
    exact List.forall_mem_map.mpr fun p hp => decide_eq_true (hsent p hp)
  rw [Call.sum_tick_by_counter, hposted, hreturned]
  simp [List.countP_map, Function.comp_def, Call.arrived, Call.rows]

/-- **A bucket is mailed piece by piece.**  Let the provider come back to every call for a campaign,
with a value or a fault.  For every bucket and every size asked for, the bucket is cut into pieces of
that size, within bounds, and there is one call for each piece.  Made one after another, all of them
are made; they are tallied, with the faults among them, and every member counts as attempted.  In a
run, whoever else is at work, the worker starts each call, makes it and tells its progress before it
starts the next one, and it does not end before the last one is told. -/
theorem bucket_delivered {room : Mailroom σ} {c : Campaign}
    (hreturns : ∀ mail s, (room.world.send c.id mail s).1.Returns) (requested : Nat)
    (sender : String) (v : Variant) (html : String) (last : Bool) (bucket : List String)
    (t : Tally) :
    let size := min (max requested 1) 10
    let pieces := chunks size bucket
    let mails := pieces.map fun piece => (⟨v.id, sender, piece, v.subject, html⟩ : Mail)
    let percents := milestones last t.progress pieces
    let planned := mailings (batchSizeOf requested) sender v html last bucket
    Cut size bucket pieces ∧ percents.length = mails.length ∧
      (∀ s, ∃ replies u, replies.length = mails.length ∧ (∀ reply ∈ replies, reply.Returns) ∧
        room.world.History s ((mails.zip replies).map fun (mail, reply) => .send c.id mail reply)
          u ∧
        deliver room.world c.id planned t s =
          { tally :=
              { progress := ⟨t.progress.segmentSize, t.progress.attempted + bucket.length⟩
                batches := t.batches + pieces.length
                failed := t.failed + replies.countP (·.isFault) }
            percents
            counters :=
              { batchesSent := replies.countP (·.isOk)
                batchErrors := replies.countP (·.isFault)
                recipientsAttempted := bucket.length }
            crash := none
            state := u }) ∧
      ∀ rest i r past r', r.workers[i]? = some ⟨c, Worker.toPosting c t (planned ++ rest)⟩ →
        Run.Chronicle room r past r' →
        (∃ replies, replies.length = mails.length ∧ (∀ reply ∈ replies, reply.Returns) ∧
          (Run.deedsOf i past).take (3 * mails.length) <+:
            Worker.rounds c.id mails replies percents) ∧
        ((Run.deedsOf i past).length < 3 * mails.length →
          ∃ k, r'.workers[i]? = some k ∧ k.isOver = false) := by
  intro size pieces mails percents planned
  have hsize : 0 < size := by simp [size]
  have hlength : planned.length = mails.length := by
    rw [← List.length_map (f := Mailing.mail)]
    exact congrArg List.length (mail_mailingsOf sender v html last pieces)
  refine ⟨cut_chunks hsize bucket, by simp [percents, mails], ?_, ?_⟩
  · intro s
    obtain ⟨sent, u, hsent, hback, hhistory, hdeliver⟩ := deliver_of_returns hreturns planned t s
    have hmail : sent.map (·.1.mail) = mails := mail_of_mailings hsent
    have hhanded := handed_mailings hsize hsent
    refine ⟨sent.map (·.2), u, ?_, List.forall_mem_map.mpr hback, ?_, ?_⟩
    · rw [← hmail, List.length_map, List.length_map]
    · rwa [← hmail, List.zip_map', List.map_map]
    · have hcount : sent.length = pieces.length := by
        rw [← List.length_map (f := fun p => p.1.mail), hmail, List.length_map]
      rw [hdeliver, t.after_eq hback, sum_tick_sends c.id hback, percents_mailingsOf hsent, hhanded,
        hcount]
      rfl
  · intro rest i r past r' hstart h
    obtain ⟨⟨sent, hsent, hback, hdone⟩, hbusy⟩ := h.first_calls hreturns hstart
    have hmail : sent.map (·.1.mail) = mails := mail_of_mailings hsent
    rw [hlength] at hdone hbusy
    refine ⟨⟨sent.map (·.2), ?_, List.forall_mem_map.mpr hback, ?_⟩, hbusy⟩
    · rw [← hmail, List.length_map, List.length_map]
    · rwa [Worker.posts_eq_rounds, hmail, percents_mailingsOf hsent] at hdone

/-- Summer's last variant goes to three of four members in two calls, both of which are refused. -/
theorem bucket_delivered_of_summer :
    let mail : List String → Mail := fun piece =>
      ⟨.ofNat 12, "room@example.com", piece, "Sea", "<b>"⟩
    let planned := mailings (batchSizeOf 2) "room@example.com" (Sample.variant 10 12 3 40 "Sea")
      "<b>" true ["bob@example.com", "cleo@example.com", "dan@example.com"]
    let before : Tally := ⟨⟨4, 1⟩, 1, 0⟩
    let start : Run Rehearsal :=
      { Run.opened [Season.summer] 1 { rows := [Season.summer] } with
        waiting := []
        workers := [⟨Season.summer, Worker.toPosting Season.summer before planned⟩] }
    let past := (Run.follow Season.dry Season.turns start).1
    (deliver Season.dry.world Season.summer.id planned before start.world).tally.progress =
        ⟨4, 4⟩ ∧
      (deliver Season.dry.world Season.summer.id planned before start.world).percents = [75, 100] ∧
      (Run.deedsOf 0 past).length = 6 ∧
      ∃ replies, replies.length = 2 ∧ Run.deedsOf 0 past <+:
        Worker.rounds Season.summer.id
          [mail ["bob@example.com", "cleo@example.com"], mail ["dan@example.com"]] replies
          [75, 100] := by
  intro mail planned before start past
  have hreturns : ∀ mail s, (Season.dry.world.send Season.summer.id mail s).1.Returns :=
    Season.dryScript.send_returns (by decide)
  obtain ⟨-, -, hdeliver, hrun⟩ := bucket_delivered hreturns 2 "room@example.com"
    (Sample.variant 10 12 3 40 "Sea") "<b>" true
    ["bob@example.com", "cleo@example.com", "dan@example.com"] before
  obtain ⟨_, _, -, -, -, hall⟩ := hdeliver start.world
  obtain ⟨⟨replies, hlength, -, hdone⟩, -⟩ := hrun [] 0 start past _
    (by rw [List.append_nil]; rfl) (Run.chronicle_follow _ _ _)
  have hdeeds : (Run.deedsOf 0 past).length = 6 := by decide +kernel
  have hpieces : chunks (min (max 2 1) 10) ["bob@example.com", "cleo@example.com",
      "dan@example.com"] = [["bob@example.com", "cleo@example.com"], ["dan@example.com"]] := by
    decide +kernel
  have hpercents : milestones true before.progress [["bob@example.com", "cleo@example.com"],
      ["dan@example.com"]] = [75, 100] := by decide
  rw [hpieces] at hlength hdone hall
  rw [hpercents] at hdone hall
  rw [List.take_of_length_le (by simp [hdeeds])] at hdone
  exact ⟨congrArg (·.tally.progress) hall, congrArg (·.percents) hall, hdeeds, replies, hlength,
    hdone⟩

end Batch

end Mailshot

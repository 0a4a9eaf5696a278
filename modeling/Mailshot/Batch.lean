import Mailshot.World
import Mailshot.Counters
import Mailshot.Progress
import Mailshot.Settings.Basic

/-!
# Batches

A bucket is mailed in consecutive batches, each full except perhaps the last.  A batch that the
provider does not take is counted and passed over: it is never sent again and never ends the
campaign.

* `Batch.chunks`: a list in pieces of one size;
* `Batch.mailings`, `Batch.plan`: the calls of a bucket, and of all buckets of a campaign;
* `Tally.note`: what one call adds to the counts;
* `Batch.deliver`: the calls made one after another.
-/

namespace Mailshot

/-- A call to the provider.  The closing one of a campaign completes its progress. -/
structure Mailing where
  mail : Mail
  closing : Bool
  deriving DecidableEq, Repr, Inhabited

/-- What was handed over so far. -/
structure Tally where
  progress : Progress
  batches : Nat := 0
  failed : Nat := 0
  deriving DecidableEq, Repr, Inhabited

namespace Tally

/-- Counts a call and gives the progress after it. -/
def note (t : Tally) (m : Mailing) (ok : Bool) : Tally × Nat :=
  let (progress, percent) := t.progress.record m.mail.recipients.length m.closing
  ({ progress, batches := t.batches + 1, failed := t.failed + (if ok then 0 else 1) }, percent)

/-- What a call that came back adds to the counters. -/
def tick (m : Mailing) (ok : Bool) : Counters :=
  { batchesSent := if ok then 1 else 0
    batchErrors := if ok then 0 else 1
    recipientsAttempted := m.mail.recipients.length }

end Tally

namespace Batch

/-- A list in pieces of `size`, the last one perhaps shorter. -/
def chunks (size : Nat) (xs : List α) : List (List α) :=
  if _ : xs = [] ∨ size = 0 then []
  else xs.take size :: chunks size (xs.drop size)
termination_by xs.length
decreasing_by
  rename_i h
  have : 0 < xs.length := List.length_pos_iff.mpr fun e => h (.inl e)
  simp only [List.length_drop]
  omega

/-- One variant's mailings: a call for each piece.  Where the variant is the campaign's `last`, its
final call closes the campaign. -/
def mailingsOf (sender : String) (v : Variant) (html : String) (last : Bool) :
    List (List String) → List Mailing
  | [] => []
  | [piece] => [⟨⟨v.id, sender, piece, v.subject, html⟩, last⟩]
  | piece :: rest =>
    ⟨⟨v.id, sender, piece, v.subject, html⟩, false⟩ :: mailingsOf sender v html last rest

/-- The mailings of a bucket. -/
def mailings (size : Nat) (sender : String) (v : Variant) (html : String) (last : Bool)
    (bucket : List String) : List Mailing :=
  mailingsOf sender v html last (chunks size bucket)

/-- The mailings of all variants, each with its HTML and its bucket. -/
def plan (size : Nat) (sender : String) : List (Variant × String × List String) → List Mailing
  | [] => []
  | [(v, html, bucket)] => mailings size sender v html true bucket
  | (v, html, bucket) :: rest =>
    mailings size sender v html false bucket ++ plan size sender rest

/-- What came of making calls one after another. -/
structure Delivery (σ : Type) where
  tally : Tally
  /-- The progress after each call that came back. -/
  percents : List Nat
  counters : Counters
  /-- The text of the crash that broke the calls off. -/
  crash : Option String
  state : σ

/-- Makes the calls of `mailings` one after another. -/
def deliver (w : World σ) (owner : Uuid) : List Mailing → Tally → σ → Delivery σ
  | [], t, s => ⟨t, [], {}, none, s⟩
  | m :: rest, t, s =>
    match w.send owner m.mail s with
    | (.crash text, s) => ⟨t, [], {}, some text, s⟩
    | (reply, s) =>
      let (t, percent) := t.note m reply.isOk
      let d := deliver w owner rest t s
      { d with percents := percent :: d.percents, counters := Tally.tick m reply.isOk + d.counters }

end Batch

end Mailshot

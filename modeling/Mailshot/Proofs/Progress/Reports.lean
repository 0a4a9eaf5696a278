import Mailshot.Proofs.Worker.Tale

/-!
# Progress that is reported

A percentage is rounded down from a product that may stop, and stops itself at a hundred.  None of
that disturbs the order: more recipients are never told as less progress, and a hundred percent of
an audience is told only when all its members were handed over.  So batch by batch, with the total
carried along, progress goes up to a hundred and does not get there early, unless the last batch
says that it closes the campaign.

* `Progress.percent_mono`, `Progress.percent_le`, `Progress.le_of_percent_eq`: the percentage in
  order;
* `Progress.reports_steady`: the percentages of any number of batches, as they are told.
-/

namespace Mailshot.Progress

/-- A batch that leaves the campaign open is told as a hundred percent only once all members were
handed over. -/
theorem le_sum_of_percents (p : Progress) {batches : List (Nat × Bool)} {i recipients : Nat}
    (hopen : batches[i]? = some (recipients, false))
    (hwhole : (p.percents batches)[i]? = some 100) :
    p.segmentSize ≤ p.attempted + ((batches.take (i + 1)).map (·.1)).sum := by
  rw [getElem?_percents, hopen, Option.map_some, Option.some.injEq, if_neg Bool.false_ne_true]
    at hwhole
  exact (le_of_percent_eq hwhole).2

/-- **Progress is reported steadily.**  For an audience of any size, percentages keep the order of
what was attempted, never exceed a hundred, and are a hundred only where all members were attempted.
So for any batches, none of which closes the campaign but perhaps the last, there is a percentage
for each; they never go back, and none of a batch that leaves the campaign open is a hundred before
all members were handed over.  They are what a worker reports when it mails batches of these sizes,
whatever the provider replies. -/
theorem reports_steady (n : Nat) :
    (∀ a b, a ≤ b → percent a n ≤ percent b n) ∧
    (∀ a, percent a n ≤ 100) ∧
    (0 < n → ∀ a, percent a n = 100 → n ≤ a) ∧
    ∀ batches : List (Nat × Bool), (∀ b ∈ batches.dropLast, b.2 = false) →
      let told := percents ⟨n, 0⟩ batches
      told.length = batches.length ∧
      told.Pairwise (· ≤ ·) ∧
      (∀ i recipients, batches[i]? = some (recipients, false) → told[i]? = some 100 →
        n ≤ ((batches.take (i + 1)).map (·.1)).sum) ∧
      ∀ owner sent, sent.map Worker.weight = batches →
        Deed.events (Worker.posts owner ⟨⟨n, 0⟩, 0, 0⟩ sent) =
          told.map (Event.progress owner) := by
  refine ⟨fun _ _ => percent_mono n, fun a => percent_le a n,
    fun _ a hwhole => (le_of_percent_eq hwhole).2, fun batches hclosing => ?_⟩
  refine ⟨length_percents _ _, pairwise_percents _ hclosing, fun i recipients hopen hwhole => ?_,
    fun owner sent hsent => ?_⟩
  · have hall := le_sum_of_percents _ hopen hwhole
    rwa [Nat.zero_add] at hall
  · rw [Worker.events_posts, Worker.percents_eq, hsent]

example : percents ⟨23, 0⟩ [(10, false), (10, false), (3, true)] = [43, 86, 100] := by decide

end Mailshot.Progress

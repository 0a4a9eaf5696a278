import Mailshot.Proofs.Run.Progress
import Mailshot.Proofs.Worker.Span

/-!
# Every run comes to its end

Turns cannot be taken forever, in whatever order, unless an audience never ends: a run that goes on
and on keeps asking for pages of one and the same campaign, more than any number.

* `Run.pastOf`: what was done so far in a run that goes on and on;
* `Run.bounded_deeds`: a worker that fetches a bounded number of pages does a bounded number of deeds;
* `Run.not_endless`: then the run does not go on forever;
* `Run.endless_pages`: what a run that never ends does.
-/

namespace Mailshot.Run

variable {σ : Type} {room : Mailroom σ} {due : List Campaign} {capacity : Nat} {s : σ}
  {runs : Nat → Run σ} {turns : Nat → Turn} {i : Nat}

/-- What was done in the first `n` turns of a run that goes on and on. -/
def pastOf (room : Mailroom σ) (runs : Nat → Run σ) (turns : Nat → Turn) :
    Nat → List (Turn × Deed)
  | 0 => []
  | n + 1 => pastOf room runs turns n ++ told (turns n) (deed? room (runs n) (turns n))

/-- What a worker did so far is no more than what it does later. -/
theorem length_deedsOf_mono {m n : Nat} (hmn : m ≤ n) :
    (deedsOf i (pastOf room runs turns m)).length ≤
      (deedsOf i (pastOf room runs turns n)).length := by
  induction n, hmn using Nat.le_induction with
  | base => exact Nat.le_refl _
  | succ n _ ih =>
      rw [pastOf, deedsOf_append, List.length_append]
      exact ih.trans (Nat.le_add_right _ _)

section Endless

variable (hstart : runs 0 = opened due capacity s)
  (hsteps : ∀ n, step room (runs n) (turns n) = some (runs (n + 1)))

include hsteps

/-- Once the audience of a worker is complete, what it did and what it has left to do at most are no
more than they were. -/
theorem length_add_left_le {n : Nat} {k : Worker} (hk : (runs n).workers[i]? = some k)
    (hcomplete : k.phase.isGathering = false) (m : Nat) :
    ∃ phase, (runs (n + m)).workers[i]? = some { k with phase } ∧ phase.isGathering = false ∧
      (deedsOf i (pastOf room runs turns (n + m))).length + Worker.left k.campaign phase ≤
        (deedsOf i (pastOf room runs turns n)).length + Worker.left k.campaign k.phase := by
  induction m with
  | zero => exact ⟨k.phase, hk, hcomplete, Nat.le_refl _⟩
  | succ m ih =>
      obtain ⟨phase, hat, hgathered, hle⟩ := ih
      have hturn := (step_transition (hsteps (n + m))).worker_at hat
      rw [← Nat.add_assoc, pastOf, deedsOf_append, deedsOf_told]
      rcases hturn with ⟨hother, hnext⟩ | ⟨e, phase', hown, hdeed, hmove, hnext⟩
      · exact ⟨phase, hnext, hgathered, by simpa [hother] using hle⟩
      · obtain ⟨hgathered', hless⟩ := hmove.left_lt hgathered
        refine ⟨phase', hnext, hgathered', ?_⟩
        rw [hdeed, hown]
        simp only [if_true, Option.toList_some, List.length_append, List.length_singleton]
        simp only at hless
        omega

include hstart

theorem chronicle_pastOf (n : Nat) :
    Chronicle room (opened due capacity s) (pastOf room runs turns n) (runs n) := by
  induction n with
  | zero =>
      rw [hstart]
      exact .refl
  | succ n ih => exact ih.tail (hsteps n)

/-- **A worker that fetches a bounded number of pages does a bounded number of deeds.** -/
theorem bounded_deeds {most : Nat}
    (hpages : ∀ n k, (runs n).workers[i]? = some k → k.phase.gathered ≤ most) :
    ∃ bound, ∀ n, (deedsOf i (pastOf room runs turns n)).length ≤ bound := by
  by_cases hcomplete : ∃ n k, (runs n).workers[i]? = some k ∧ k.phase.isGathering = false
  · obtain ⟨n, k, hk, hgathered⟩ := hcomplete
    refine ⟨(deedsOf i (pastOf room runs turns n)).length + Worker.left k.campaign k.phase, ?_⟩
    intro m
    -- later turns are bounded by what was left, earlier ones by what was done
    rcases Nat.le_total n m with hnm | hmn
    · obtain ⟨more, rfl⟩ := Nat.exists_eq_add_of_le hnm
      obtain ⟨phase, -, -, hle⟩ := length_add_left_le hsteps hk hgathered more
      omega
    · have hmono : (deedsOf i (pastOf room runs turns m)).length ≤
          (deedsOf i (pastOf room runs turns n)).length := length_deedsOf_mono hmn
      omega
  · refine ⟨most, fun n => ?_⟩
    have hchronicle := chronicle_pastOf hstart hsteps n
    cases hk : (runs n).workers[i]? with
    | none =>
        rw [(hchronicle.courses i).2 (List.getElem?_eq_none_iff.mp hk)]
        exact Nat.zero_le _
    | some k =>
        have hgathering : k.phase.isGathering = true := by
          cases hphase : k.phase.isGathering with
          | true => rfl
          | false => exact (hcomplete ⟨n, k, hk, hphase⟩).elim
        rw [(hchronicle.course hk).length_gathering hgathering]
        exact hpages n k hk

/-- Workers that do a bounded number of deeds do not keep a run going forever. -/
theorem not_endless {most : Nat → Nat}
    (hmost : ∀ i n, (deedsOf i (pastOf room runs turns n)).length ≤ most i) : False := by
  -- what is left to do gets less with every turn
  have hless : ∀ n, toDo most due.length (pastOf room runs turns n) (runs n) + n ≤
      toDo most due.length [] (runs 0) := by
    intro n
    induction n with
    | zero => exact Nat.le_refl _
    | succ n ih =>
        have hturn := (chronicle_pastOf hstart hsteps n).toDo_lt (step_transition (hsteps n))
          fun i => hmost i (n + 1)
        rw [pastOf]
        omega
  have hlast := hless (toDo most due.length [] (runs 0) + 1)
  omega

end Endless

/-- **What a run that never ends does.**  It asks for more pages of one due campaign than any
number. -/
theorem endless_pages (hstart : runs 0 = opened due capacity s)
    (hsteps : ∀ n, Step room (runs n) (runs (n + 1))) :
    ∃ (i : Nat) (c : Campaign), due[i]? = some c ∧ ∀ most : Nat, ∃ n tenant, ∃ p : Pager,
      (runs n).workers[i]? = some (⟨c, .paging tenant p⟩ : Worker) ∧ most ≤ p.fetched := by
  by_contra hnone
  choose turns hturns using hsteps
  have hpages : ∀ i : Nat, ∃ most : Nat, ∀ (n : Nat) (k : Worker),
      (runs n).workers[i]? = some k → k.phase.gathered ≤ most := by
    intro i
    cases hc : due[i]? with
    | none =>
        refine ⟨0, fun n k hk => ?_⟩
        rw [(chronicle_pastOf hstart hturns n).due_at hk] at hc
        cases hc
    | some c =>
        by_contra hmany
        refine hnone ⟨i, c, hc, fun most => ?_⟩
        by_contra hfew
        refine hmany ⟨most, fun n k hk => ?_⟩
        obtain ⟨c', p⟩ := k
        obtain rfl : c' = c := by
          simpa [hc] using ((chronicle_pastOf hstart hturns n).due_at hk).symm
        cases p with
        | paging tenant p =>
            by_contra hmore
            refine hfew ⟨n, tenant, p, hk, ?_⟩
            simp only [Phase.gathered] at hmore
            omega
        | _ => exact Nat.zero_le _
  choose most hmost using hpages
  choose bound hbound using fun i => bounded_deeds (i := i) hstart hturns (hmost i)
  exact not_endless hstart hturns hbound

end Mailshot.Run

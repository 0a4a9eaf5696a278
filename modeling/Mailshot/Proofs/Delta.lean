import Mailshot.Proofs.Replay
import Mailshot.Proofs.Run.Chronicle

/-!
# The last delta wins

A delta says what some of four fields become, so after many deltas each of these fields is as the last
delta has it that names it: deltas come to one.  Progress is capped when it is written, and it is the
capped one that is compared, so a delta that was just applied never changes anything.

* `Delta.followedBy`, `Delta.collapse`: what two deltas, and what many, say together;
* `Campaign.tracked`: the four fields of a row;
* `Campaign.merge_followedBy`, `Campaign.timeless_through`: merging is all that deltas do, one after
  another or taken together;
* `Campaign.apply_changed_iff`: what counts as a change;
* `Campaign.last_delta_wins`: all that deltas make of a row.
-/

namespace Mailshot

namespace Delta

/-- What two deltas say together: the later one has the say on the fields that it names. -/
def followedBy (d e : Delta) : Delta where
  status := e.status.or d.status
  segmentSize := e.segmentSize.or d.segmentSize
  progress := e.progress.or d.progress
  failureReason := e.failureReason.or d.failureReason

/-- What deltas say together: each field as the last one has it that names it. -/
def collapse (deltas : List Delta) : Delta where
  status := (deltas.filterMap (·.status)).getLast?
  segmentSize := (deltas.filterMap (·.segmentSize)).getLast?
  progress := (deltas.filterMap (·.progress)).getLast?
  failureReason := (deltas.filterMap (·.failureReason)).getLast?

/-- The last of the values named is the newest one, if it is named, and else the last one before. -/
theorem getLast?_named {α : Type} (field : Delta → Option α) (deltas : List Delta) (d : Delta) :
    ((deltas ++ [d]).filterMap field).getLast? =
      (field d).or (deltas.filterMap field).getLast? := by
  rw [List.filterMap_append]
  cases hfield : field d with
  | none => simp [hfield]
  | some value => simp [hfield]

theorem collapse_snoc (deltas : List Delta) (d : Delta) :
    collapse (deltas ++ [d]) = (collapse deltas).followedBy d := by
  simp only [collapse, getLast?_named, followedBy]

end Delta

namespace Campaign

/-- The fields of a row that deltas are about. -/
def tracked (c : Campaign) : Status × Nat × Nat × Option String :=
  (c.status, c.segmentSize, c.progress, c.failureReason)

/-- **Merging two deltas is merging what they say together.** -/
theorem merge_followedBy (c : Campaign) (d e : Delta) :
    (c.merge d).merge e = c.merge (d.followedBy e) := by
  simp [merge, Delta.followedBy, Option.getD_or, Option.or_assoc, Option.map_or]

/-- A row that has taken a delta has nothing to take from it. -/
theorem merge_merge (c : Campaign) (d : Delta) : (c.merge d).merge d = c.merge d := by
  rw [merge_followedBy]
  simp [Delta.followedBy]

/-- Whether there is anything to take shows in the four fields. -/
theorem merge_eq_self_iff (c : Campaign) (d : Delta) :
    c.merge d = c ↔ (c.merge d).tracked = c.tracked := by
  constructor
  · intro h
    rw [h]
  · intro h
    obtain ⟨hstatus, hsize, hprogress, hreason⟩ : _ ∧ _ ∧ _ ∧ _ := by
      simpa only [tracked, Prod.mk.injEq] using h
    calc c.merge d
        = { c with
            status := (c.merge d).status
            segmentSize := (c.merge d).segmentSize
            progress := (c.merge d).progress
            failureReason := (c.merge d).failureReason } := rfl
      _ = c := by rw [hstatus, hsize, hprogress, hreason]

/-- Merging caps progress, and leaves it as it is where there is none to merge. -/
theorem progress_merge_le {c : Campaign} (h : c.progress ≤ 100) (d : Delta) :
    (c.merge d).progress ≤ 100 := by
  cases hprogress : d.progress with
  | none => simpa [merge, hprogress] using h
  | some percent =>
      simp only [merge, hprogress, Option.map_some, Option.getD_some]
      exact Nat.min_le_right percent 100

/-! ### Applying a delta -/

variable (c : Campaign) (now : Instant) (d : Delta)

theorem tracked_apply : (c.apply now d).1.tracked = (c.merge d).tracked := by
  unfold apply
  split
  · next hsame => rw [hsame]
  · rfl

/-- **A change shows in the four fields**, and in nothing else. -/
theorem apply_changed_iff : (c.apply now d).2 = true ↔ (c.apply now d).1.tracked ≠ c.tracked := by
  rw [tracked_apply, ne_eq, ← merge_eq_self_iff]
  by_cases hsame : c.merge d = c <;> simp [apply, hsame]

/-- The time of change is the time of the last change. -/
theorem updatedAt_apply :
    (c.apply now d).1.updatedAt = if (c.apply now d).2 then now else c.updatedAt := by
  by_cases hsame : c.merge d = c <;> simp [apply, hsame]

/-- **A delta applied again changes nothing.** -/
theorem apply_apply (later : Instant) :
    (c.apply now d).1.apply later d = ((c.apply now d).1, false) := by
  have htaken : (c.apply now d).1.merge d = (c.apply now d).1 := by
    by_cases hsame : c.merge d = c
    · rw [apply, if_pos hsame]
      exact hsame
    · rw [apply, if_neg hsame]
      exact congrArg (fun row : Campaign => { row with updatedAt := now }) (c.merge_merge d)
  rw [apply, if_pos htaken]

/-! ### Applying deltas one after another -/

/-- **Deltas one after another come to what they say together**, the time of change aside. -/
theorem timeless_through (entered : List (Instant × Event)) :
    (c.through entered).timeless =
      c.timeless.merge (Delta.collapse (entered.map (·.2.delta))) := by
  induction entered using List.reverseRecOn with
  | nil => rfl
  | append_singleton entered p ih =>
      rw [through_snoc, timeless_apply, ih, merge_followedBy, List.map_append, List.map_singleton,
        Delta.collapse_snoc]

theorem tracked_through (entered : List (Instant × Event)) :
    (c.through entered).tracked =
      (c.merge (Delta.collapse (entered.map (·.2.delta)))).tracked :=
  show (c.through entered).timeless.tracked = _ by rw [timeless_through]; rfl

/-- Deltas leave all other fields as they are. -/
theorem through_aside (entered : List (Instant × Event)) :
    ∃ status segmentSize progress failureReason updatedAt, c.through entered =
      { c with status, segmentSize, progress, failureReason, updatedAt } := by
  induction entered using List.reverseRecOn with
  | nil => exact ⟨c.status, c.segmentSize, c.progress, c.failureReason, c.updatedAt, rfl⟩
  | append_singleton entered p ih =>
      obtain ⟨status, size, progress, reason, time, hrow⟩ := ih
      rw [through_snoc, hrow, apply]
      split <;> exact ⟨_, _, _, _, _, rfl⟩

/-- Progress stays within a hundred percent. -/
theorem progress_through_le {c : Campaign} (h : c.progress ≤ 100)
    (entered : List (Instant × Event)) : (c.through entered).progress ≤ 100 := by
  have hmerged : (c.through entered).progress = (c.merge _).progress :=
    congrArg (·.2.2.1) (c.tracked_through entered)
  rw [hmerged]
  exact progress_merge_le h _

/-- **The last delta wins.**  Applied to a row, a delta gives the fields that it names their values,
progress capped, and leaves the others.  So two deltas do what they say together, and any number of
them what the last ones say that name a field.  A row counts as changed, and its time of change is
set, exactly if one of the four fields is different afterwards; the same delta once more changes
nothing.  No other field is ever touched, and progress that is within a hundred percent stays there.
-/
theorem last_delta_wins :
    (∀ now d, (c.apply now d).1.tracked =
      (d.status.getD c.status, d.segmentSize.getD c.segmentSize,
        (d.progress.map (min · 100)).getD c.progress, d.failureReason.or c.failureReason)) ∧
    (∀ t u now d e, ((c.apply t d).1.apply u e).1.tracked =
      (c.apply now (d.followedBy e)).1.tracked) ∧
    (∀ now entered, (c.through entered).tracked =
      (c.apply now (Delta.collapse (entered.map (·.2.delta)))).1.tracked) ∧
    (∀ now d, ((c.apply now d).2 = true ↔ (c.apply now d).1.tracked ≠ c.tracked) ∧
      (c.apply now d).1.updatedAt = if (c.apply now d).2 then now else c.updatedAt) ∧
    (∀ t u d, (c.apply t d).1.apply u d = ((c.apply t d).1, false)) ∧
    (∀ entered, ∃ status segmentSize progress failureReason updatedAt, c.through entered =
      { c with status, segmentSize, progress, failureReason, updatedAt }) ∧
    (c.progress ≤ 100 → ∀ entered, (c.through entered).progress ≤ 100) := by
  refine ⟨c.tracked_apply, ?_, ?_, ?_, ?_, c.through_aside, progress_through_le⟩
  · intro t u now d e
    calc ((c.apply t d).1.apply u e).1.tracked
        = ((c.apply t d).1.merge e).tracked := tracked_apply _ u e
      _ = ((c.apply t d).1.timeless.merge e).tracked := rfl
      _ = (c.timeless.merge (d.followedBy e)).tracked := by rw [timeless_apply, merge_followedBy]
      _ = (c.merge (d.followedBy e)).tracked := rfl
      _ = (c.apply now (d.followedBy e)).1.tracked := (c.tracked_apply now _).symm
  · intro now entered
    rw [tracked_through, tracked_apply]
  · exact fun now d => ⟨c.apply_changed_iff now d, c.updatedAt_apply now d⟩
  · exact fun t u d => c.apply_apply t d u

/-- Spring takes progress beyond a hundred percent as a hundred, and keeps it when it fails. -/
theorem last_delta_wins_of_spring :
    let entered : List (Instant × Event) :=
      [(Sample.now, .running Sample.spring.id 3), (Sample.now, .progress Sample.spring.id 66),
        (Sample.now, .progress Sample.spring.id 250), (Sample.now, .failed Sample.spring.id "gone")]
    Sample.spring.progress ≤ 100 ∧ (Sample.spring.through entered).progress ≤ 100 ∧
      (Sample.spring.through entered).tracked = (.failed, 3, 100, some "gone") := by
  intro entered
  have hstart : Sample.spring.progress ≤ 100 := by decide
  obtain ⟨hfields, -, htogether, -, -, -, hbound⟩ := Sample.spring.last_delta_wins
  refine ⟨hstart, hbound hstart entered, ?_⟩
  rw [htogether Sample.now entered, hfields]
  decide

end Campaign

end Mailshot

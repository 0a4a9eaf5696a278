import Mathlib.Algebra.GroupWithZero.Nat
import Mailshot.Progress

/-!
# Progress in 64 bits

A percentage is meant to be whole percents of the exact product, a hundred at most.  But the product
stops at the greatest count of 64 bits, so the percentage stops as well: at the greatest number whose
multiple of the audience can still be counted.  An audience that can be counted a hundred times never
comes to feel that; of a greater one, not even all members are a hundred percent.

* `Progress.wholePercent`: whole percents of the exact product;
* `Progress.percent_eq_min`: where the percentage stops;
* `Progress.percent_of_le`: parts of an audience that can be counted a hundred times;
* `Progress.percent_whole_iff`: when the percentage is exact;
* `Progress.percent_not_whole`: it is not always so;
* `Progress.percents`, `Progress.getElem?_percents`: the percentages of many batches, each told from
  what was handed over by then;
* `Progress.pairwise_percents`: they never go back.
-/

namespace Mailshot.Progress

/-- Whole percents of the audience, none of an empty one, where no product stops. -/
def wholePercent (attempted segmentSize : Nat) : Nat :=
  if segmentSize = 0 then 0 else min 100 (attempted * 100 / segmentSize)

variable {attempted segmentSize : Nat}

/-- More recipients, more progress. -/
theorem percent_mono {a b : Nat} (n : Nat) (hab : a ≤ b) : percent a n ≤ percent b n := by
  have hproduct : product a 100 ≤ product b 100 := by
    simp only [product]
    omega
  have hquotient := Nat.div_le_div_right (c := n) hproduct
  unfold percent
  split
  · exact Nat.le_refl _
  · omega

theorem percent_le (a n : Nat) : percent a n ≤ 100 := by
  unfold percent
  split <;> omega

/-- **Where the percentage stops**: at the greatest number whose multiple of the audience can be
counted. -/
theorem percent_eq_min (attempted segmentSize : Nat) :
    percent attempted segmentSize =
      min (wholePercent attempted segmentSize) (Share.limit / segmentSize) := by
  unfold percent wholePercent
  split
  · exact (Nat.zero_min _).symm
  · rcases Nat.le_total Share.limit (attempted * 100) with hstop | hfit
    · have hquotient := Nat.div_le_div_right (c := segmentSize) hstop
      rw [product, Nat.min_eq_left hstop]
      omega
    · have hquotient := Nat.div_le_div_right (c := segmentSize) hfit
      rw [product, Nat.min_eq_right hfit]
      omega

/-- The percentage is exact where its multiple of the audience can be counted. -/
theorem percent_eq_whole_iff :
    percent attempted segmentSize = wholePercent attempted segmentSize ↔
      wholePercent attempted segmentSize * segmentSize ≤ Share.limit := by
  rw [percent_eq_min]
  rcases Nat.eq_zero_or_pos segmentSize with rfl | hpos
  · simp [wholePercent]
  · rw [← Nat.le_div_iff_mul_le hpos]
    omega

/-- All of an audience is a hundred percent of it, where no product stops. -/
theorem wholePercent_self (hpos : 0 < segmentSize) :
    wholePercent segmentSize segmentSize = 100 := by
  rw [wholePercent, if_neg (Nat.ne_of_gt hpos), Nat.mul_div_cancel_left _ hpos, Nat.min_self]

/-- All of an audience is a hundred percent of it if it can be counted a hundred times. -/
theorem percent_self_iff :
    percent segmentSize segmentSize = 100 ↔
      0 < segmentSize ∧ 100 * segmentSize ≤ Share.limit := by
  rcases Nat.eq_zero_or_pos segmentSize with rfl | hpos
  · simp [percent]
  · rw [← wholePercent_self hpos, percent_eq_whole_iff, wholePercent_self hpos]
    exact ⟨fun hfit => ⟨hpos, hfit⟩, fun h => h.2⟩

/-- A part of an audience that can be counted a hundred times is told in whole percents. -/
theorem percent_of_le (hle : attempted ≤ segmentSize) (hfit : 100 * segmentSize ≤ Share.limit) :
    percent attempted segmentSize = 100 * attempted / segmentSize := by
  have hmost : 100 * attempted / segmentSize ≤ 100 :=
    Nat.div_le_of_le_mul (by rw [Nat.mul_comm segmentSize]; exact Nat.mul_le_mul_left 100 hle)
  have hwhole : wholePercent attempted segmentSize = 100 * attempted / segmentSize := by
    unfold wholePercent
    split
    · next hnone => rw [hnone, Nat.div_zero]
    · rw [Nat.mul_comm attempted, Nat.min_eq_right hmost]
  rw [percent_eq_whole_iff.mpr, hwhole]
  rw [hwhole]
  exact Nat.le_trans (Nat.mul_le_mul_right segmentSize hmost) hfit

/-- **When the percentage is exact.**  It is whole percents of the exact product unless these make
too many of the audience to be counted in 64 bits; then it is the greatest number that does not.  So
all of an audience is a hundred percent of it exactly if a hundred times the audience can be counted,
and no part of such an audience is told wrongly. -/
theorem percent_whole_iff (attempted segmentSize : Nat) :
    percent attempted segmentSize =
        min (wholePercent attempted segmentSize) (Share.limit / segmentSize) ∧
      (percent attempted segmentSize = wholePercent attempted segmentSize ↔
        wholePercent attempted segmentSize * segmentSize ≤ Share.limit) ∧
      (percent segmentSize segmentSize = 100 ↔
        0 < segmentSize ∧ 100 * segmentSize ≤ Share.limit) :=
  ⟨percent_eq_min attempted segmentSize, percent_eq_whole_iff, percent_self_iff⟩

/-- **The percentage is not always exact**, not even for counts of 64 bits: all members of an audience
of `2 ^ 63` are one percent of it. -/
theorem percent_not_whole :
    ¬ ∀ attempted segmentSize, attempted ≤ Share.limit → segmentSize ≤ Share.limit →
      percent attempted segmentSize = wholePercent attempted segmentSize := by
  intro hall
  have hwhole := hall (2 ^ 63) (2 ^ 63) (by decide) (by decide)
  exact absurd hwhole (by decide)

/-! ### Many batches -/

/-- A hundred percent is told of all members only, whether products stop or not. -/
theorem le_of_percent_eq (h : percent attempted segmentSize = 100) :
    0 < segmentSize ∧ segmentSize ≤ attempted := by
  rcases Nat.eq_zero_or_pos segmentSize with rfl | hpos
  · simp [percent] at h
  · have hquotient : 100 ≤ product attempted 100 / segmentSize := by
      rw [percent, if_neg (Nat.ne_of_gt hpos)] at h
      omega
    have hproduct := (Nat.le_div_iff_mul_le hpos).mp hquotient
    simp only [product] at hproduct
    exact ⟨hpos, by omega⟩

/-- The percentages for batches recorded one after another, each with its recipients and whether it
closes the campaign. -/
def percents : Progress → List (Nat × Bool) → List Nat
  | _, [] => []
  | p, (recipients, closing) :: rest =>
    (p.record recipients closing).2 :: percents (p.record recipients closing).1 rest

@[simp] theorem length_percents (p : Progress) (batches : List (Nat × Bool)) :
    (p.percents batches).length = batches.length := by
  induction batches generalizing p with
  | nil => rfl
  | cons b rest ih => rw [percents, List.length_cons, List.length_cons, ih]

/-- **Each percentage** is a hundred if its batch closes the campaign, and else that of the members
handed over by then. -/
theorem getElem?_percents (p : Progress) (batches : List (Nat × Bool)) (i : Nat) :
    (p.percents batches)[i]? = batches[i]?.map fun b =>
      if b.2 then 100
      else percent (p.attempted + ((batches.take (i + 1)).map (·.1)).sum) p.segmentSize := by
  induction batches generalizing p i with
  | nil => rfl
  | cons b rest ih =>
      cases i with
      | zero => rfl
      | succ i =>
          rw [percents, List.getElem?_cons_succ, List.getElem?_cons_succ, ih]
          simp [record, Nat.add_assoc]

/-- **Percentages never go back** where no batch but the last closes the campaign. -/
theorem pairwise_percents (p : Progress) {batches : List (Nat × Bool)}
    (hclosing : ∀ b ∈ batches.dropLast, b.2 = false) :
    (p.percents batches).Pairwise (· ≤ ·) := by
  have hvalue {i : Nat} (hi : i < batches.length) (htold : i < (p.percents batches).length) :
      (p.percents batches)[i] = if batches[i].2 then 100
        else percent (p.attempted + ((batches.take (i + 1)).map (·.1)).sum) p.segmentSize := by
    have hfound := p.getElem?_percents batches i
    rwa [List.getElem?_eq_getElem htold, List.getElem?_eq_getElem hi, Option.map_some,
      Option.some.injEq] at hfound
  refine List.pairwise_iff_getElem.mpr fun i j htoldi htoldj hless => ?_
  have hi := length_percents p batches ▸ htoldi
  have hj := length_percents p batches ▸ htoldj
  have hopen : batches[i].2 = false := by
    refine hclosing _ (List.mem_iff_getElem.mpr ⟨i, ?_, List.getElem_dropLast _⟩)
    rw [List.length_dropLast]
    omega
  rw [hvalue hi htoldi, hvalue hj htoldj, hopen, if_neg Bool.false_ne_true]
  split
  · exact percent_le _ _
  · -- what is handed over by the earlier batch is part of what is by the later one
    have hsplit : batches.take (j + 1) =
        batches.take (i + 1) ++ (batches.drop (i + 1)).take (j - i) := by
      rw [← List.take_add]
      congr 1
      omega
    rw [hsplit, List.map_append, List.sum_append]
    exact percent_mono _ (by omega)

end Mailshot.Progress

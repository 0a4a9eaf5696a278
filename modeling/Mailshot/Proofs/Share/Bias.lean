import Mailshot.Proofs.Share

/-!
# The bias of shares

Shares are rounded up, so each takes less than a member more than its ratio gives it, and the variants
after it pay for that.  A variant may therefore fall short of its exact share, but by no more members
than there are variants before it, also where the audience ends inside its share or before it.

* `Share.sum_count_le`: what shares take together;
* `Share.length_bucket`: the members of a bucket, from the shares before it and its own;
* `Share.partition_bias`: how far a bucket is from the exact share, above and below.
-/

namespace Mailshot.Share

open Number (precision)

/-- Shares take less than a member each beyond what their ratios give them. -/
theorem sum_count_le {n : Nat} {ratios : List Nat}
    (h : ∀ ratio ∈ ratios, n * ratio ≤ 2 ^ precision) :
    100 * (ratios.map (count n)).sum ≤ n * ratios.sum + 99 * ratios.length := by
  induction ratios with
  | nil => simp
  | cons ratio rest ih =>
      have hrest := ih fun r hr => h r (List.mem_cons_of_mem _ hr)
      have hfirst := count_exact (h ratio List.mem_cons_self)
      rw [List.map_cons, List.sum_cons, List.sum_cons, List.length_cons, hfirst, Nat.mul_add,
        Nat.mul_add]
      omega

/-- The members of a bucket: those of its share that the audience still has. -/
theorem length_bucket {α : Type} (audience : List α) {ratios : List Nat} {i ratio : Nat}
    (hi : ratios[i]? = some ratio) :
    ∃ bucket, (partition audience ratios)[i]? = some bucket ∧
      bucket.length =
        min audience.length (min limit
          (((ratios.take i).map (count audience.length)).sum + count audience.length ratio)) -
        min audience.length (min limit ((ratios.take i).map (count audience.length)).sum) := by
  obtain ⟨hlt, hratio⟩ := List.getElem?_eq_some_iff.mp hi
  refine ⟨_, getElem?_partition audience hlt, ?_⟩
  rw [List.extract_eq_take_drop, List.length_take, List.length_drop, before, before,
    List.take_succ_eq_append_getElem hlt, hratio, List.map_append, List.sum_append, List.map_singleton,
    List.sum_singleton]
  exact min_eq_left (Nat.sub_le_sub_right (min_le_left _ _) _)

/-- The ratios before a variant leave it its own. -/
theorem sum_take_add_le {ratios : List Nat} {i ratio most : Nat} (hi : ratios[i]? = some ratio)
    (hsum : ratios.sum ≤ most) : (ratios.take i).sum + ratio ≤ most := by
  obtain ⟨hlt, hratio⟩ := List.getElem?_eq_some_iff.mp hi
  have hsplit := congrArg List.sum (List.take_append_drop (i + 1) ratios)
  rw [List.sum_append, List.take_succ_eq_append_getElem hlt, hratio, List.sum_append,
    List.sum_singleton] at hsplit
  omega

/-- **Rounding favours the earlier variants, within bounds.**  Where ratios come to a hundred at most
and products have 53 bits, a bucket has less than a member more than its exact share, and falls short
of it by one member at most for each variant before it.  A variant without a ratio gets nothing. -/
theorem partition_bias {α : Type} (audience : List α) {ratios : List Nat}
    (hsum : ratios.sum ≤ 100) (h : ∀ ratio ∈ ratios, audience.length * ratio ≤ 2 ^ 53)
    {i ratio : Nat} (hi : ratios[i]? = some ratio) :
    ∃ bucket, (partition audience ratios)[i]? = some bucket ∧
      100 * bucket.length < audience.length * ratio + 100 ∧
      audience.length * ratio ≤ 100 * bucket.length + 100 * i ∧
      (ratio = 0 → bucket = []) := by
  obtain ⟨bucket, hbucket, hlength⟩ := length_bucket audience hi
  have hmem : ratio ∈ ratios := List.mem_of_getElem? hi
  have hcount := count_exact (h ratio hmem)
  have hshare : bucket.length ≤ count audience.length ratio := by
    rw [hlength]
    generalize limit = most
    omega
  refine ⟨bucket, hbucket, by omega, ?_, ?_⟩
  · rcases Nat.eq_zero_or_pos ratio with rfl | hpos
    · omega
    · have hprecise : 2 ^ 53 ≤ limit := by decide
      have hcounted : audience.length ≤ limit :=
        (Nat.le_mul_of_pos_right _ hpos).trans ((h ratio hmem).trans hprecise)
      rw [← min_assoc, ← min_assoc, min_eq_left hcounted] at hlength
      -- what the variants before take, and what their ratios leave for this one
      have hbefore : ∀ r ∈ ratios.take i, audience.length * r ≤ 2 ^ precision := fun r hr =>
        h r (List.mem_of_mem_take hr)
      have htaken := sum_count_le hbefore
      have hleft := Nat.mul_le_mul_left audience.length (sum_take_add_le hi hsum)
      rw [Nat.mul_add] at hleft
      have hplace := List.length_take_le i ratios
      omega
  · rintro rfl
    rw [← List.length_eq_zero_iff]
    omega

/-- Seven members in the ratio 33 to 33 to 34: the third variant would get three of them, and is left
with one, where its exact share is 2.38. -/
theorem partition_bias_of_seven :
    ([33, 33, 34] : List Nat).sum ≤ 100 ∧ (∀ ratio ∈ [33, 33, 34], 7 * ratio ≤ 2 ^ 53) ∧
      ∃ bucket, (partition [1, 2, 3, 4, 5, 6, 7] [33, 33, 34])[2]? = some bucket ∧
        bucket = [7] ∧ 100 * bucket.length < 7 * 34 + 100 ∧ 7 * 34 ≤ 100 * bucket.length + 100 * 2 := by
  have hsum : ([33, 33, 34] : List Nat).sum ≤ 100 := by decide
  have hproducts : ∀ ratio ∈ [33, 33, 34], 7 * ratio ≤ 2 ^ 53 := by decide
  obtain ⟨bucket, hbucket, habove, hbelow, -⟩ :=
    partition_bias [1, 2, 3, 4, 5, 6, 7] hsum hproducts (i := 2) rfl
  have hlast : (partition [1, 2, 3, 4, 5, 6, 7] [33, 33, 34])[2]? = some [7] := by decide +kernel
  exact ⟨hsum, hproducts, bucket, hbucket, Option.some.inj (hbucket.symm.trans hlast), habove, hbelow⟩

end Mailshot.Share

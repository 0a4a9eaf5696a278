import Mathlib.Algebra.GroupWithZero.Nat
import Mathlib.Algebra.Order.BigOperators.Group.List
import Mathlib.Algebra.Order.Group.Nat
import Mathlib.Data.List.Forall2

/-!
# Lists by place

Whoever takes turns has a place in a list, and a turn changes what is at that place.  These are the
facts about such a change: what is summed or counted over all places changes by the difference at the
one, and two lists that match place by place still do.

* `sum_map_set`, `countP_set_add`: sums and counts after a change;
* `forall₂_getElem?`, `forall₂_of_getElem?`, `forall₂_set`: matching lists;
* `countP_le_of_forall₂`: counts over matching lists.
-/

namespace Mailshot

variable {α β : Type}

/-- A sum over places changes as the summand at the one place does. -/
theorem sum_map_set (f : α → Nat) {xs : List α} {i : Nat} {x y : α} (hi : xs[i]? = some x) :
    ((xs.set i y).map f).sum + f x = (xs.map f).sum + f y := by
  induction xs generalizing i with
  | nil => cases hi
  | cons z xs ih =>
      cases i with
      | zero =>
          obtain rfl : z = x := by simpa using hi
          simp only [List.set_cons_zero, List.map_cons, List.sum_cons]
          omega
      | succ i =>
          have hrest := ih (i := i) (by simpa using hi)
          simp only [List.set_cons_succ, List.map_cons, List.sum_cons]
          omega

/-- A count over places changes as what is at the one place does. -/
theorem countP_set_add (q : α → Bool) {xs : List α} {i : Nat} {x y : α} (hi : xs[i]? = some x) :
    (xs.set i y).countP q + (q x).toNat = xs.countP q + (q y).toNat := by
  -- a count is a sum of zeros and ones
  have hcount : ∀ zs : List α, zs.countP q = (zs.map fun z => (q z).toNat).sum := by
    intro zs
    induction zs with
    | nil => rfl
    | cons z zs ih => cases hz : q z <;> simp [hz, ih, Nat.add_comm]
  rw [hcount, hcount]
  exact sum_map_set (fun z => (q z).toNat) hi

theorem set_eq_self {xs : List α} {i : Nat} {x : α} (hi : xs[i]? = some x) : xs.set i x = xs := by
  obtain ⟨hlt, rfl⟩ := List.getElem?_eq_some_iff.mp hi
  exact List.set_getElem_self hlt

theorem le_sum_map (f : α → Nat) {xs : List α} {i : Nat} {x : α} (hi : xs[i]? = some x) :
    f x ≤ (xs.map f).sum :=
  List.le_sum_of_mem (List.mem_map_of_mem (List.mem_of_getElem? hi))

variable {R : α → β → Prop} {xs : List α} {ys : List β}

theorem forall₂_getElem? (h : List.Forall₂ R xs ys) {i : Nat} {x : α} {y : β}
    (hx : xs[i]? = some x) (hy : ys[i]? = some y) : R x y := by
  obtain ⟨hi, rfl⟩ := List.getElem?_eq_some_iff.mp hx
  obtain ⟨hi', rfl⟩ := List.getElem?_eq_some_iff.mp hy
  exact h.get hi hi'

theorem forall₂_of_getElem? (hlength : xs.length = ys.length)
    (h : ∀ (i : Nat) (x : α) (y : β), xs[i]? = some x → ys[i]? = some y → R x y) :
    List.Forall₂ R xs ys :=
  List.forall₂_iff_get.mpr ⟨hlength, fun i hi hi' => h i _ _ (List.getElem?_eq_getElem hi)
    (List.getElem?_eq_getElem hi')⟩

/-- Lists that match still do after a change at one place to what matches. -/
theorem forall₂_set (h : List.Forall₂ R xs ys) {x : α} {y : β} (hxy : R x y) (i : Nat) :
    List.Forall₂ R (xs.set i x) (ys.set i y) := by
  induction h generalizing i with
  | nil => exact .nil
  | cons hhead htail ih =>
      cases i with
      | zero => exact .cons hxy htail
      | succ i => exact .cons hhead (ih i)

/-- What is counted in one list is counted in a matching one. -/
theorem countP_le_of_forall₂ (h : List.Forall₂ R xs ys) {p : α → Bool} {q : β → Bool}
    (hpq : ∀ x y, R x y → p x = true → q y = true) : xs.countP p ≤ ys.countP q := by
  induction h with
  | nil => exact Nat.le_refl _
  | @cons x y xs ys hxy _ ih =>
      rw [List.countP_cons, List.countP_cons]
      by_cases hx : p x = true
      · rw [if_pos hx, if_pos (hpq x y hxy hx)]
        exact Nat.add_le_add_right ih 1
      · rw [if_neg hx]
        exact Nat.le_add_right_of_le ih

end Mailshot

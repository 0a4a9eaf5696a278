import Mathlib.Data.List.Induction
import Mailshot.Number.Decimal
import Mailshot.Proofs.Text.Digit

/-!
# Integers in texts

An integer may be written with a plus sign or with zeros before it, but it is spelt without.  So not
every text that is read as an integer comes back.

* `Decimal.Writes`, `Decimal.int?_eq_some_iff`: the texts that are read as integers;
* `Decimal.Spelt`, `Decimal.toString_eq_iff`: those of them that come back.
-/

namespace Mailshot

open Text (isDigit ofDigits Tight)

namespace Number.Decimal

variable {cs ds : List Char} {low high i : Int}

/-- Digits and nothing else. -/
def Digits (ds : List Char) : Prop := ds ≠ [] ∧ ∀ c ∈ ds, isDigit c = true

/-- A text of digits, with a sign before them or without, and the integer that it writes. -/
inductive Writes : List Char → Int → Prop
  | plain {ds : List Char} (hds : Digits ds) : Writes ds (ofDigits ds)
  | plus {ds : List Char} (hds : Digits ds) : Writes ('+' :: ds) (ofDigits ds)
  | minus {ds : List Char} (hds : Digits ds) : Writes ('-' :: ds) (-ofDigits ds)

theorem digits?_eq_some_iff {n : Nat} : digits? ds = some n ↔ Digits ds ∧ ofDigits ds = n := by
  rw [digits?]
  split
  · next h =>
      refine ⟨fun hnone => (nomatch hnone), fun ⟨⟨hne, hall⟩, _⟩ => ?_⟩
      simp [hne, List.all_eq_true.mpr hall] at h
  · next h =>
      have hds : Digits ds := by simpa [Digits] using h
      simp [hds]

theorem not_digits_cons {c : Char} (hc : isDigit c = false) : ¬ Digits (c :: ds) := fun h => by
  have := h.2 c List.mem_cons_self
  rw [hc] at this
  cases this

theorem writes_minus_iff : Writes ('-' :: ds) i ↔ Digits ds ∧ -Int.ofNat (ofDigits ds) = i := by
  refine ⟨fun h => ?_, fun ⟨hds, hi⟩ => hi ▸ .minus hds⟩
  cases h with
  | plain hds => exact absurd hds (not_digits_cons (by decide))
  | minus hds => exact ⟨hds, rfl⟩

theorem writes_plus_iff : Writes ('+' :: ds) i ↔ Digits ds ∧ Int.ofNat (ofDigits ds) = i := by
  refine ⟨fun h => ?_, fun ⟨hds, hi⟩ => hi ▸ .plus hds⟩
  cases h with
  | plain hds => exact absurd hds (not_digits_cons (by decide))
  | plus hds => exact ⟨hds, rfl⟩

theorem writes_iff_of_ne (hminus : ∀ rest, cs ≠ '-' :: rest) (hplus : ∀ rest, cs ≠ '+' :: rest) :
    Writes cs i ↔ Digits cs ∧ Int.ofNat (ofDigits cs) = i := by
  refine ⟨fun h => ?_, fun ⟨hds, hi⟩ => hi ▸ .plain hds⟩
  cases h with
  | plain hds => exact ⟨hds, rfl⟩
  | plus => exact absurd rfl (hplus _)
  | minus => exact absurd rfl (hminus _)

/-- The integer of digits, if it is within bounds. -/
theorem digits?_within_iff {f : Nat → Int} :
    (((digits? ds).map f).bind fun j => if low ≤ j ∧ j ≤ high then some j else none) = some i ↔
      (Digits ds ∧ f (ofDigits ds) = i) ∧ low ≤ i ∧ i ≤ high := by
  simp only [Option.bind_eq_some_iff, Option.map_eq_some_iff, digits?_eq_some_iff,
    Option.ite_none_right_eq_some, Option.some.injEq]
  constructor
  · rintro ⟨_, ⟨_, ⟨hds, rfl⟩, rfl⟩, hrange, rfl⟩
    exact ⟨⟨hds, rfl⟩, hrange⟩
  · rintro ⟨⟨hds, rfl⟩, hrange⟩
    exact ⟨_, ⟨_, ⟨hds, rfl⟩, rfl⟩, hrange, rfl⟩

/-- The integers that are read are those that are written, within bounds. -/
theorem int?_eq_some_iff : int? low high cs = some i ↔ Writes cs i ∧ low ≤ i ∧ i ≤ high := by
  have hminus (rest : List Char) : int? low high ('-' :: rest) =
      ((digits? rest).map fun n => -Int.ofNat n).bind fun j =>
        if low ≤ j ∧ j ≤ high then some j else none := by
    rw [int?]
    cases digits? rest <;> rfl
  have hother (h : ∀ rest, cs ≠ '-' :: rest) : int? low high cs =
      ((digits? (dropPlus cs)).map Int.ofNat).bind fun j =>
        if low ≤ j ∧ j ≤ high then some j else none := by
    unfold int?
    split
    · exact absurd rfl (h _)
    · cases digits? (dropPlus cs) <;> rfl
  by_cases hm : ∃ rest, cs = '-' :: rest
  · obtain ⟨rest, rfl⟩ := hm
    rw [hminus, digits?_within_iff, writes_minus_iff]
  · have hm := not_exists.mp hm
    rw [hother hm, digits?_within_iff]
    by_cases hp : ∃ rest, cs = '+' :: rest
    · obtain ⟨rest, rfl⟩ := hp
      rw [writes_plus_iff]
      rfl
    · have hp := not_exists.mp hp
      rw [writes_iff_of_ne hm hp, dropPlus]
      exact hp

/-! ### Integers written back -/

/-- An integer as it is spelt: no plus sign, no zero too many and no minus sign before zero. -/
inductive Spelt : List Char → Prop
  | plain {ds : List Char} (hds : Digits ds) (htight : Tight ds) : Spelt ds
  | minus {ds : List Char} (hds : Digits ds) (hlead : ds.head? ≠ some '0') : Spelt ('-' :: ds)

theorem digits_toDigits (n : Nat) : Digits (Nat.toDigits 10 n) :=
  ⟨Nat.toDigits_ne_nil, fun _ => Text.isDigit_of_mem_toDigits⟩

theorem toList_toString (n : Nat) : (toString (n : Int)).toList = Nat.toDigits 10 n :=
  Nat.toList_repr

theorem toList_toString_neg {n : Nat} (hn : 0 < n) :
    (toString (-(n : Int))).toList = '-' :: Nat.toDigits 10 n := by
  obtain ⟨m, rfl⟩ := Nat.exists_eq_add_one_of_ne_zero (Nat.ne_of_gt hn)
  show ("-" ++ (m + 1).repr).toList = _
  rw [String.toList_append, Nat.toList_repr]
  rfl

/-- Digits that begin with no zero write no zero. -/
theorem ofDigits_pos (hds : Digits ds) (hlead : ds.head? ≠ some '0') : 0 < ofDigits ds := by
  refine Nat.pos_of_ne_zero fun hzero => hlead ?_
  have hdigits := Text.toDigits_ofDigits hds.2 hds.1 fun h => absurd h hlead
  rw [← hdigits, hzero]
  rfl

theorem not_spelt_plus : ¬ Spelt ('+' :: ds) := fun h => by
  cases h with
  | plain hds => exact not_digits_cons (by decide) hds

/-- **What is read as an integer is spelt the same again** just if it is spelt as integers are. -/
theorem toString_eq_iff (h : Writes cs i) : (toString i).toList = cs ↔ Spelt cs := by
  cases h with
  | plain hds =>
      rw [toList_toString, Text.toDigits_ofDigits_iff hds.2 hds.1]
      refine ⟨.plain hds, fun hspelt => ?_⟩
      cases hspelt with
      | plain _ htight => exact htight
      | minus => exact absurd hds (not_digits_cons (by decide))
  | @plus ds hds =>
      refine ⟨fun hsame => ?_, fun hspelt => absurd hspelt not_spelt_plus⟩
      rw [toList_toString] at hsame
      exact absurd (hsame ▸ digits_toDigits (ofDigits ds)) (not_digits_cons (by decide))
  | @minus ds hds =>
      by_cases hlead : ds.head? = some '0'
      · refine iff_of_false (fun hsame => ?_) fun hspelt => ?_
        · rcases Nat.eq_zero_or_pos (ofDigits ds) with hzero | hpos
          · have hspelling : (toString (-((0 : Nat) : Int))).toList = ['0'] := by decide
            rw [hzero, hspelling] at hsame
            exact absurd (List.cons.inj hsame).1 (by decide)
          · rw [toList_toString_neg hpos] at hsame
            have hdigits := (List.cons.inj hsame).2
            have hall := (Text.toDigits_ofDigits_iff hds.2 hds.1).mp hdigits hlead
            rw [hall] at hpos
            exact absurd hpos (by decide)
        · cases hspelt with
          | plain hminus => exact not_digits_cons (by decide) hminus
          | minus _ hne => exact hne hlead
      · rw [toList_toString_neg (ofDigits_pos hds hlead),
          Text.toDigits_ofDigits hds.2 hds.1 fun h => absurd h hlead]
        exact iff_of_true rfl (.minus hds hlead)

end Number.Decimal

end Mailshot

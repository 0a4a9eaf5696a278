import Mathlib.Tactic.Ring
import Mailshot.Campaign.Json

/-!
# Identifiers read back

The canonical spelling of an identifier is its 32 digits with hyphens between them.  Reading takes
the hyphens out again and adds the digits up, the greatest first.

* `Uuid.parseHyphenated?_hyphenate`: hyphens come out where they went in;
* `Uuid.number?_digits`: the digits add up to the number;
* `Uuid.parse?_toString`, `Uuid.ofJson?_toJson`: every identifier is read back.
-/

namespace Mailshot.Uuid

theorem hexDigit?_digitChar : ∀ d < 16, Text.hexDigit? (Nat.digitChar d) = some d := by decide

/-- The last digits of a number, after what stands before them. -/
theorem number?_digits (u : Uuid) (before k : Nat) :
    number? before ((List.range k).reverse.map u.digitAt) =
      some (before * 16 ^ k + u.toNat % 16 ^ k) := by
  induction k generalizing before with
  | zero => simp [number?, Nat.mod_one]
  | succ k ih =>
      have hdigit : Text.hexDigit? (u.digitAt k) = some (u.toNat / 16 ^ k % 16) :=
        hexDigit?_digitChar _ (Nat.mod_lt _ (by decide))
      rw [List.range_succ, List.reverse_append, List.reverse_singleton, List.singleton_append,
        List.map_cons, number?, hdigit]
      simp only [ih, Option.some.injEq]
      rw [Nat.mod_pow_succ, Nat.pow_succ]
      ring

theorem length_digits (u : Uuid) : u.digits.length = 32 := by
  simp [digits]

/-- Five groups of digits are the digits. -/
theorem groups_append (ds : List Char) :
    ds.take 8 ++ ((ds.drop 8).take 4 ++ ((ds.drop 12).take 4 ++ ((ds.drop 16).take 4 ++
      ds.drop 20))) = ds := by
  have hgroup (k : Nat) : (ds.drop k).take 4 ++ ds.drop (k + 4) = ds.drop k := by
    rw [← List.drop_drop, List.take_append_drop]
  rw [hgroup 16, hgroup 12, hgroup 8, List.take_append_drop]

/-- **Hyphens come out where they went in.** -/
theorem parseHyphenated?_hyphenate {ds : List Char} (h : ds.length = 32) :
    parseHyphenated? (hyphenate ds) = parseSimple? ds := by
  have hmarks : (hyphenate ds).length = 36 ∧ (hyphenate ds)[8]? = some '-' ∧
      (hyphenate ds)[13]? = some '-' ∧ (hyphenate ds)[18]? = some '-' ∧
      (hyphenate ds)[23]? = some '-' := by
    simp [hyphenate, h]
  rw [parseHyphenated?, if_pos hmarks]
  conv_rhs => rw [← groups_append ds]
  simp [hyphenate, h, List.drop_append, List.drop_take]

/-- **Every identifier is read back.** -/
theorem parse?_toString (u : Uuid) : parse? u.toString = some u := by
  have hlength : (hyphenate u.digits).length = 36 := by
    simp [hyphenate, length_digits]
  have hnumber : number? 0 u.digits = some u.toNat := by
    rw [digits, number?_digits, Nat.zero_mul, Nat.zero_add, Nat.mod_eq_of_lt]
    exact u.bits.isLt
  rw [parse?, toString, String.toList_ofList, parseChars?, hlength]
  simp only [Nat.reduceEqDiff, if_false, if_true]
  rw [parseHyphenated?_hyphenate u.length_digits, parseSimple?, if_pos u.length_digits, hnumber]
  simp [ofNat, toNat]

/-- An identifier is read back from JSON. -/
theorem ofJson?_toJson (u : Uuid) : ofJson? u.toJson = some u := by
  simp only [ofJson?, toJson, Json.string?, Option.bind_eq_bind, Option.bind_some, parse?_toString]

end Mailshot.Uuid

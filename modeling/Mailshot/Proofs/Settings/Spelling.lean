import Mailshot.Proofs.Number.Decimal
import Mailshot.Settings.Environment
import Mailshot.Settings.Field

/-!
# How variables spell texts

A text in a variable is read before it is known what it is wanted for.  What spells a truth value,
an integer of 64 bits or another number is read as that, and is spelt anew where a text is wanted.
So an identifier of digits loses the zeros before it, while no address is ever changed, since there
is no at sign in a number.

* `Environment.Respelt`, `Environment.text?_value`: what becomes of a text in a variable;
* `Environment.Kept`, `Environment.Respelt.eq_iff`: the texts that stay as they are;
* `Environment.kept_digits_iff`, `Environment.kept_of_stray`, `Environment.not_kept_of_mark`:
  digits, texts with a character that no number has, and numbers with a plus sign or an exponent.
-/

namespace Mailshot

open Mailshot.Field (text?)
open Number (Binary64)
open Number.Decimal (Digits Writes Spelt int?_eq_some_iff toString_eq_iff)
open Text (isDigit ofDigits Tight)

namespace Environment

variable {s t : String} {b : Bool} {i : Int} {x : Binary64}

/-- A text that is a truth value, in whatever case. -/
def Word (s : String) (b : Bool) : Prop := lowerCase s = toString b

/-- A text that is an integer of 64 bits. -/
def Whole (s : String) (i : Int) : Prop :=
  Writes s.toList i ∧ -9223372036854775808 ≤ i ∧ i ≤ 9223372036854775807

/-- **What becomes of a text in a variable** where a text is wanted: what it spells is spelt anew.
-/
inductive Respelt (s : String) : String → Prop
  | word {b : Bool} (h : Word s b) : Respelt s (toString b)
  | integer {i : Int} (hword : ∀ b, ¬ Word s b) (h : Whole s i) : Respelt s (toString i)
  | number {x : Binary64} (hword : ∀ b, ¬ Word s b) (hinteger : ∀ i, ¬ Whole s i)
      (h : number? s.toList = some x) : Respelt s x.positional
  | same (hword : ∀ b, ¬ Word s b) (hinteger : ∀ i, ¬ Whole s i) (h : number? s.toList = none) :
      Respelt s s

/-- **Texts that stay as they are**: those that spell nothing, and those that are spelt as what they
spell is. -/
inductive Kept (s : String) : Prop
  | word (b : Bool) (h : s = toString b)
  | integer {i : Int} (hword : ∀ b, ¬ Word s b) (h : Whole s i) (hspelt : Spelt s.toList)
  | number {x : Binary64} (hword : ∀ b, ¬ Word s b) (hinteger : ∀ i, ¬ Whole s i)
      (h : number? s.toList = some x) (hspelt : x.positional = s)
  | same (hword : ∀ b, ¬ Word s b) (hinteger : ∀ i, ¬ Whole s i) (h : number? s.toList = none)

theorem word_toString (b : Bool) : Word (toString b) b := by
  cases b <;> (unfold Word; decide)

section Value

theorem value_of_word (h : Word s b) : value s = .bool b := by
  cases b with
  | true => exact if_pos h
  | false =>
      have hne : lowerCase s ≠ "true" := fun htrue => absurd (htrue.symm.trans h) (by decide)
      exact (if_neg hne).trans (if_pos h)

theorem value_of_not_word (h : ∀ b, ¬ Word s b) : value s =
    match Number.Decimal.int? (-9223372036854775808) 9223372036854775807 s.toList with
    | some i => .int i
    | none =>
      match number? s.toList with
      | some x => .double x
      | none => .text s :=
  (if_neg (h true)).trans (if_neg (h false))

theorem int?_eq_none (h : ∀ i, ¬ Whole s i) :
    Number.Decimal.int? (-9223372036854775808) 9223372036854775807 s.toList = none :=
  Option.eq_none_iff_forall_ne_some.mpr fun i hi => h i (int?_eq_some_iff.mp hi)

/-- **What a variable has** becomes one text. -/
theorem text?_value (h : Respelt s t) : text? (value s) = .ok t := by
  cases h with
  | @word b h =>
      rw [value_of_word h]
      cases b <;> rfl
  | integer hword h => rw [value_of_not_word hword, int?_eq_some_iff.mpr h]; rfl
  | number hword hinteger h => rw [value_of_not_word hword, int?_eq_none hinteger, h]; rfl
  | same hword hinteger h => rw [value_of_not_word hword, int?_eq_none hinteger, h]; rfl

example : ["007", "+5", "-0", "1e3", "True", "Infinity", "7up"].map
      (fun s => (text? (value s)).toOption) =
    [some "7", some "5", some "0", some "1000", some "true", some "inf", some "7up"] := by
  decide +kernel

theorem Respelt.unique {u : String} (h : Respelt s t) (h' : Respelt s u) : t = u :=
  Except.ok.inj ((text?_value h).symm.trans (text?_value h'))

theorem exists_respelt (s : String) : ∃ t, Respelt s t := by
  by_cases hword : ∃ b, Word s b
  · obtain ⟨b, h⟩ := hword
    exact ⟨_, .word h⟩
  · have hword := not_exists.mp hword
    by_cases hinteger : ∃ i, Whole s i
    · obtain ⟨i, h⟩ := hinteger
      exact ⟨_, .integer hword h⟩
    · have hinteger := not_exists.mp hinteger
      cases h : number? s.toList with
      | some x => exact ⟨_, .number hword hinteger h⟩
      | none => exact ⟨_, .same hword hinteger h⟩

end Value

/-! ### Texts that stay -/

theorem Kept.respelt (h : Kept s) : Respelt s s := by
  cases h with
  | word b h => exact h ▸ .word (word_toString b)
  | integer hword h hspelt =>
      have hsame := String.toList_injective ((toString_eq_iff h.1).mpr hspelt)
      exact (congrArg (Respelt s) hsame).mp (.integer hword h)
  | number hword hinteger h hspelt =>
      exact (congrArg (Respelt s) hspelt).mp (.number hword hinteger h)
  | same hword hinteger h => exact .same hword hinteger h

/-- **A text stays as it is** just if it is one of those that do. -/
theorem Respelt.eq_iff (h : Respelt s t) : t = s ↔ Kept s := by
  refine ⟨fun hsame => ?_, fun hkept => h.unique hkept.respelt⟩
  cases h with
  | word h => exact .word _ hsame.symm
  | integer hword h =>
      exact .integer hword h ((toString_eq_iff h.1).mp (congrArg String.toList hsame))
  | number hword hinteger h => exact .number hword hinteger h hsame
  | same hword hinteger h => exact .same hword hinteger h

/-- A letter in lower case was a letter, apart from the Kelvin sign. -/
theorem isAlpha_of_lowerChar {c : Char} (h : (lowerChar c).isLower = true)
    (hkelvin : lowerChar c ≠ 'k') : c.isAlpha = true := by
  rw [lowerChar] at h hkelvin
  split at h
  · next hc => exact absurd (if_pos hc) hkelvin
  · by_cases hupper : c.isUpper = true
    · exact Bool.or_eq_true_iff.mpr (.inl hupper)
    · have hsame : c.toLower = c := dif_neg fun h => hupper (decide_eq_true h)
      rw [hsame] at h
      exact Bool.or_eq_true_iff.mpr (.inr h)

/-- Words have letters only. -/
theorem isAlpha_of_lowerCase {name : String} {c : Char} (h : lowerCase s = name)
    (hname : (name.toList.all fun d => d.isLower && d != 'k') = true) (hc : c ∈ s.toList) :
    c.isAlpha = true := by
  have hlist : s.toList.map lowerChar = name.toList := by
    rw [← h]
    exact String.toList_ofList.symm
  have hlower := List.all_eq_true.mp hname (lowerChar c) (hlist ▸ List.mem_map_of_mem hc)
  obtain ⟨hletter, hkelvin⟩ := Bool.and_eq_true_iff.mp hlower
  exact isAlpha_of_lowerChar hletter (bne_iff_ne.mp hkelvin)

theorem not_word {c : Char} (hc : c ∈ s.toList) (halpha : c.isAlpha = false) (b : Bool) :
    ¬ Word s b := fun h => by
  have hletter := isAlpha_of_lowerCase h (by cases b <;> decide) hc
  rw [halpha] at hletter
  cases hletter

theorem isAlpha_of_isDigit {c : Char} (h : isDigit c = true) : c.isAlpha = false := by
  have hcode : 48 ≤ c.val.toNat ∧ c.val.toNat ≤ 57 := Text.toNat_of_isDigit h
  refine Bool.or_eq_false_iff.mpr
    ⟨Bool.eq_false_iff.mpr fun hupper => ?_, Bool.eq_false_iff.mpr fun hlower => ?_⟩
  · have : 65 ≤ c.val.toNat := (of_decide_eq_true hupper).1
    omega
  · have : 97 ≤ c.val.toNat := of_decide_eq_true (Bool.and_eq_true_iff.mp hlower).1
    omega

/-- **Digits stay** unless they begin with a zero too many. -/
theorem kept_digits_iff (hds : Digits s.toList) (hrange : ofDigits s.toList ≤ 9223372036854775807) :
    Kept s ↔ Tight s.toList := by
  obtain ⟨c, hc⟩ := List.exists_mem_of_ne_nil _ hds.1
  have hword : ∀ b, ¬ Word s b := not_word hc (isAlpha_of_isDigit (hds.2 c hc))
  have hwhole : Whole s (ofDigits s.toList) := ⟨.plain hds, by omega, by omega⟩
  rw [← (Respelt.integer hword hwhole).eq_iff, ← String.toList_inj,
    Number.Decimal.toList_toString, Text.toDigits_ofDigits_iff hds.2 hds.1]

/-- A character that is in no number and in no word for a value. -/
def Stray (c : Char) : Prop := c.isAlphanum = false ∧ c ∉ ['+', '-', '.']

section Stray

variable {c : Char} {cs ds : List Char}

theorem Stray.not_alpha (h : Stray c) : c.isAlpha = false :=
  (Bool.or_eq_false_iff.mp h.1).1

theorem Stray.not_digit (h : Stray c) : isDigit c = false := by
  have hdigit := (Bool.or_eq_false_iff.mp h.1).2
  simpa [isDigit, Char.isDigit, Char.le_def] using hdigit

theorem Stray.not_sign (h : Stray c) : c ≠ '+' ∧ c ≠ '-' ∧ c ≠ '.' := by
  simpa using h.2

theorem not_digits_of_stray (hc : c ∈ ds) (hstray : Stray c) : ¬ Digits ds := fun h => by
  have hdigit := h.2 c hc
  rw [hstray.not_digit] at hdigit
  cases hdigit

theorem digits?_of_stray (hc : c ∈ ds) (hstray : Stray c) : Number.Decimal.digits? ds = none :=
  Option.eq_none_iff_forall_ne_some.mpr fun _ hn =>
    not_digits_of_stray hc hstray (Number.Decimal.digits?_eq_some_iff.mp hn).1

theorem not_writes_of_stray (hc : c ∈ cs) (hstray : Stray c) (i : Int) : ¬ Writes cs i := by
  intro h
  obtain ⟨hplus, hminus, -⟩ := hstray.not_sign
  cases h with
  | plain hds => exact not_digits_of_stray hc hstray hds
  | plus hds => exact not_digits_of_stray ((List.mem_cons.mp hc).resolve_left hplus) hstray hds
  | minus hds => exact not_digits_of_stray ((List.mem_cons.mp hc).resolve_left hminus) hstray hds

theorem exponent?_of_stray (hc : c ∈ cs) (hstray : Stray c) : exponent? cs = none := by
  obtain ⟨hplus, hminus, -⟩ := hstray.not_sign
  unfold exponent?
  split
  · cases hc
  · next e rest =>
      split
      · next he =>
          have hrest : c ∈ rest := by
            refine (List.mem_cons.mp hc).resolve_left ?_
            rintro rfl
            have halpha := hstray.not_alpha
            simp only [Bool.or_eq_true, decide_eq_true_eq] at he
            rcases he with rfl | rfl <;> exact absurd halpha (by decide)
          split
          · rw [digits?_of_stray ((List.mem_cons.mp hrest).resolve_left hminus) hstray]
            rfl
          · rw [digits?_of_stray ((List.mem_cons.mp hrest).resolve_left hplus) hstray]
            rfl
          · rw [digits?_of_stray hrest hstray]
            rfl
      · rfl

theorem mem_dropWhile_of_stray (hc : c ∈ cs) (hstray : Stray c) : c ∈ cs.dropWhile isDigit := by
  rw [← List.takeWhile_append_dropWhile (p := isDigit) (l := cs)] at hc
  refine (List.mem_append.mp hc).resolve_left fun htaken => ?_
  have hdigit := List.mem_takeWhile_imp htaken
  rw [hstray.not_digit] at hdigit
  cases hdigit

theorem mem_fraction_of_stray (hc : c ∈ cs) (hstray : Stray c) : c ∈ (fraction cs).2 := by
  unfold fraction
  split
  · exact mem_dropWhile_of_stray ((List.mem_cons.mp hc).resolve_left hstray.not_sign.2.2) hstray
  · exact hc

theorem unsigned?_of_stray (hc : c ∈ cs) (hstray : Stray c) (negative : Bool) :
    unsigned? negative cs = none := by
  have hname (name : String) (hletters : (name.toList.all fun d => d.isLower && d != 'k') = true) :
      lowerCase (String.ofList cs) ≠ name := fun h => by
    have halpha := isAlpha_of_lowerCase h hletters (by rwa [String.toList_ofList])
    rw [hstray.not_alpha] at halpha
    cases halpha
  have hrest : exponent? (fraction (cs.dropWhile isDigit)).2 = none :=
    exponent?_of_stray (mem_fraction_of_stray (mem_dropWhile_of_stray hc hstray) hstray) hstray
  simp [unsigned?, hname "inf" (by decide), hname "infinity" (by decide),
    hname "nan" (by decide), hrest]

theorem number?_of_stray (hc : c ∈ cs) (hstray : Stray c) : number? cs = none := by
  obtain ⟨hplus, hminus, -⟩ := hstray.not_sign
  unfold number?
  split
  · exact unsigned?_of_stray ((List.mem_cons.mp hc).resolve_left hminus) hstray true
  · exact unsigned?_of_stray ((List.mem_cons.mp hc).resolve_left hplus) hstray false
  · exact unsigned?_of_stray hc hstray false

/-- **A text with a stray character stays.** -/
theorem kept_of_stray (hc : c ∈ s.toList) (hstray : Stray c) : Kept s :=
  .same (not_word hc hstray.not_alpha) (fun i h => not_writes_of_stray hc hstray i h.1)
    (number?_of_stray hc hstray)

end Stray

/-! ### Numbers that do not stay -/

/-- A character of a finite number that is spelt out. -/
def Plain (c : Char) : Prop := isDigit c = true ∨ c = '-' ∨ c = '.'

section Plain

variable {c : Char}

theorem plain_zero : Plain '0' := .inl (by decide)

theorem plain_of_mem_toDigits {n : Nat} (hc : c ∈ Nat.toDigits 10 n) : Plain c :=
  .inl (Text.isDigit_of_mem_toDigits hc)

theorem plain_of_mem_zeros {n : Nat} (hc : c ∈ List.replicate n '0') : Plain c :=
  List.eq_of_mem_replicate hc ▸ plain_zero

theorem plain_of_mem_writePositional {digits : Nat} {power : Int}
    (hc : c ∈ Binary64.writePositional digits power) : Plain c := by
  unfold Binary64.writePositional at hc
  dsimp only at hc
  split at hc
  · exact List.mem_singleton.mp hc ▸ plain_zero
  · split at hc
    · exact (List.mem_append.mp hc).elim plain_of_mem_toDigits plain_of_mem_zeros
    · split at hc
      · simp only [List.mem_append, List.mem_cons, List.not_mem_nil, or_false] at hc
        rcases hc with ((rfl | rfl) | hzeros) | hdigits
        · exact plain_zero
        · exact .inr (.inr rfl)
        · exact plain_of_mem_zeros hzeros
        · exact plain_of_mem_toDigits hdigits
      · rcases List.mem_append.mp hc with hwhole | hrest
        · exact plain_of_mem_toDigits (List.mem_of_mem_take hwhole)
        · rcases List.mem_cons.mp hrest with rfl | hplaces
          · exact .inr (.inr rfl)
          · exact plain_of_mem_toDigits (List.mem_of_mem_drop hplaces)

theorem plain_of_mem_positional {negative : Bool} {m : Number.Magnitude}
    (hc : c ∈ (Binary64.finite negative m).positional.toList) : Plain c := by
  rw [Binary64.positional, String.toList_ofList] at hc
  rcases List.mem_append.mp hc with hsign | hrest
  · split at hsign
    · exact .inr (.inl (List.mem_singleton.mp hsign))
    · cases hsign
  · exact plain_of_mem_writePositional hrest

theorem plain_of_spelt {cs : List Char} (h : Spelt cs) (hc : c ∈ cs) : Plain c := by
  cases h with
  | plain hds => exact .inl (hds.2 c hc)
  | minus hds =>
      rcases List.mem_cons.mp hc with rfl | hc
      · exact .inr (.inl rfl)
      · exact .inl (hds.2 c hc)

/-- **A finite number with a plus sign or an exponent never stays.** -/
theorem not_kept_of_mark {negative : Bool} {m : Number.Magnitude}
    (hnumber : number? s.toList = some (.finite negative m)) (hc : c ∈ s.toList)
    (hmark : c ∈ ['+', 'e', 'E']) : ¬ Kept s := by
  have hplain : ¬ Plain c := by
    simp only [List.mem_cons, List.not_mem_nil, or_false] at hmark
    rcases hmark with rfl | rfl | rfl <;> simp [Plain] <;> decide
  intro h
  cases h with
  | word b h =>
      have hnone : number? (toString b).toList = none := by cases b <;> decide
      rw [h, hnone] at hnumber
      cases hnumber
  | integer _ _ hspelt => exact hplain (plain_of_spelt hspelt hc)
  | number _ _ h hspelt =>
      obtain rfl := Option.some.inj (h.symm.trans hnumber)
      exact hplain (plain_of_mem_positional (hspelt.symm ▸ hc))
  | same _ _ h =>
      rw [h] at hnumber
      cases hnumber

end Plain

end Environment

end Mailshot

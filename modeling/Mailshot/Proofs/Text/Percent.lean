import Mailshot.Proofs.Text.Utf8
import Mailshot.Text.Percent

/-!
# Bytes read back from percent escapes

An unreserved byte stands for itself and every other byte is escaped, the percent sign and the plus
sign among them.  So each percent sign of a spelling starts an escape, and no plus sign is left that
could be taken for a space.

* `Percent.utf8_encode_plain`, `Percent.utf8_encode_escape`: the spelling of one byte;
* `Percent.decode_encode`: bytes are read back from their spelling;
* `Percent.badEscape?_encode`: every percent sign of a spelling starts an escape;
* `Percent.ne_plus_of_mem_encode`: a spelling has no plus sign;
* `Percent.badEscape?_eq_none_iff`, `Percent.badEscape?_eq_some_iff`: the check passes three bytes over
  at each escape, and still finds the first of all percent signs that start none.
-/

namespace Mailshot.Text.Percent

/-- The byte of a hexadecimal digit. -/
def digitByte (v : Nat) : UInt8 :=
  UInt8.ofNat (digit v).toNat

theorem digit_ascii : ∀ v < 16, (digit v).toNat < 0x80 := by decide

theorem digit?_digitByte : ∀ v < 16, digit? (digitByte v) = some v := by decide

theorem digitByte_ne_plus : ∀ v < 16, digitByte v ≠ 43 := by decide

theorem toNat_ofNat_ascii : ∀ n < 0x80, (Char.ofNat n).toNat = n := by decide

theorem toNat_of_isUnreserved {b : UInt8} (h : isUnreserved b = true) : b.toNat < 0x80 := by
  simp only [isUnreserved, Bool.or_eq_true, Bool.and_eq_true, decide_eq_true_eq] at h
  omega

theorem ne_sign_of_isUnreserved {b : UInt8} (h : isUnreserved b = true) : b ≠ sign := by
  rintro rfl
  cases h

/-- The two digits of an escape give its byte. -/
theorem byteOf?_digitByte (b : UInt8) :
    byteOf? (digitByte (b.toNat / 16)) (digitByte (b.toNat % 16)) = some b := by
  have hb : b.toNat < 256 := b.toNat_lt
  have hsum : b.toNat / 16 * 16 + b.toNat % 16 = b.toNat := by omega
  rw [byteOf?, digit?_digitByte _ (by omega), digit?_digitByte _ (by omega)]
  simp only [hsum, UInt8.ofNat_toNat]

/-- An unreserved byte stands for itself. -/
theorem utf8_encode_plain {b : UInt8} (h : isUnreserved b = true) (bytes : List UInt8) :
    Utf8.encode (encode (b :: bytes)) = b :: Utf8.encode (encode bytes) := by
  have hascii : b.toNat < 0x80 := toNat_of_isUnreserved h
  have hb : (Char.ofNat b.toNat).toNat = b.toNat := toNat_ofNat_ascii _ hascii
  rw [encode, List.flatMap_cons, encodeByte, if_pos h, List.singleton_append,
    Utf8.encode_cons_ascii (by omega), hb, UInt8.ofNat_toNat]
  rfl

/-- Any other byte is a percent sign and two digits. -/
theorem utf8_encode_escape {b : UInt8} (h : isUnreserved b = false) (bytes : List UInt8) :
    Utf8.encode (encode (b :: bytes)) =
      sign :: digitByte (b.toNat / 16) :: digitByte (b.toNat % 16) ::
        Utf8.encode (encode bytes) := by
  have hb : b.toNat < 256 := b.toNat_lt
  rw [encode, List.flatMap_cons, encodeByte, if_neg (by simp [h])]
  simp only [List.cons_append, List.nil_append]
  rw [Utf8.encode_cons_ascii (by decide), Utf8.encode_cons_ascii (digit_ascii _ (by omega)),
    Utf8.encode_cons_ascii (digit_ascii _ (by omega))]
  rfl

/-! ### Reading -/

/-- A byte other than the percent sign is kept. -/
theorem decode_cons_of_ne {a : UInt8} (h : a ≠ sign) (rest : List UInt8) :
    decode (a :: rest) = a :: decode rest := by
  match rest with
  | [] => rfl
  | [_] => rfl
  | _ :: _ :: _ => rw [decode, if_neg h]

theorem decode_escape {h l b : UInt8} (hbyte : byteOf? h l = some b) (rest : List UInt8) :
    decode (sign :: h :: l :: rest) = b :: decode rest := by
  rw [decode, if_pos rfl, hbyte]

theorem badEscape?_cons_of_ne {a : UInt8} (h : a ≠ sign) (rest : List UInt8) :
    badEscape? (a :: rest) = badEscape? rest := by
  match rest with
  | [] => simp [badEscape?, h]
  | [_] => simp [badEscape?, h]
  | _ :: _ :: _ => rw [badEscape?, if_neg h]

theorem badEscape?_escape {h l b : UInt8} (hbyte : byteOf? h l = some b) (rest : List UInt8) :
    badEscape? (sign :: h :: l :: rest) = badEscape? rest := by
  rw [badEscape?, if_pos rfl, hbyte]

/-- **Bytes are read back from their spelling.** -/
theorem decode_encode (bytes : List UInt8) : decode (Utf8.encode (encode bytes)) = bytes := by
  induction bytes with
  | nil => rfl
  | cons b bytes ih =>
      cases h : isUnreserved b with
      | true => rw [utf8_encode_plain h, decode_cons_of_ne (ne_sign_of_isUnreserved h), ih]
      | false => rw [utf8_encode_escape h, decode_escape (byteOf?_digitByte b), ih]

/-- Every percent sign of a spelling starts an escape. -/
theorem badEscape?_encode (bytes : List UInt8) : badEscape? (Utf8.encode (encode bytes)) = none := by
  induction bytes with
  | nil => rfl
  | cons b bytes ih =>
      cases h : isUnreserved b with
      | true => rw [utf8_encode_plain h, badEscape?_cons_of_ne (ne_sign_of_isUnreserved h), ih]
      | false => rw [utf8_encode_escape h, badEscape?_escape (byteOf?_digitByte b), ih]

/-- A spelling has no plus sign, for a literal one is escaped. -/
theorem ne_plus_of_mem_encode {bytes : List UInt8} :
    ∀ b ∈ Utf8.encode (encode bytes), b ≠ 43 := by
  induction bytes with
  | nil => simp [encode, Utf8.encode]
  | cons c bytes ih =>
      have hc : c.toNat < 256 := c.toNat_lt
      intro b hb
      cases h : isUnreserved c with
      | true =>
          rw [utf8_encode_plain h, List.mem_cons] at hb
          rcases hb with rfl | hb
          · rintro rfl
            cases h
          · exact ih b hb
      | false =>
          rw [utf8_encode_escape h] at hb
          simp only [List.mem_cons] at hb
          rcases hb with rfl | rfl | rfl | hb
          · decide
          · exact digitByte_ne_plus _ (by omega)
          · exact digitByte_ne_plus _ (by omega)
          · exact ih b hb

/-! ### Stray percent signs -/

/-- Two hexadecimal digits follow place `i`. -/
def EscapeAt (bytes : List UInt8) (i : Nat) : Prop :=
  ∃ h l, bytes[i + 1]? = some h ∧ bytes[i + 2]? = some l ∧
    (digit? h).isSome ∧ (digit? l).isSome

/-- The percent sign at place `i` starts no escape. -/
def StrayAt (bytes : List UInt8) (i : Nat) : Prop :=
  bytes[i]? = some sign ∧ ¬EscapeAt bytes i

/-- Place `i` is that of the leftmost stray percent sign. -/
structure FirstStray (bytes : List UInt8) (i : Nat) : Prop where
  stray : StrayAt bytes i
  first : ∀ j < i, ¬StrayAt bytes j

/-- Two hexadecimal digits follow every percent sign. -/
def Escaped (bytes : List UInt8) : Prop :=
  ∀ i, bytes[i]? = some sign → EscapeAt bytes i

theorem escaped_iff {bytes : List UInt8} : Escaped bytes ↔ ∀ i, ¬StrayAt bytes i := by
  constructor
  · rintro hescaped i ⟨hsign, hnone⟩
    exact hnone (hescaped i hsign)
  · intro hnone i hsign
    exact Classical.byContradiction fun hstray => hnone i ⟨hsign, hstray⟩

theorem FirstStray.unique {bytes : List UInt8} {i j : Nat} (hi : FirstStray bytes i)
    (hj : FirstStray bytes j) : i = j := by
  rcases Nat.lt_trichotomy i j with hlt | heq | hgt
  · exact absurd hi.stray (hj.first i hlt)
  · exact heq
  · exact absurd hj.stray (hi.first j hgt)

theorem not_escaped_of_firstStray {bytes : List UInt8} {i : Nat} (h : FirstStray bytes i) :
    ¬Escaped bytes :=
  fun hescaped => escaped_iff.mp hescaped i h.stray

/-- Bytes in front only move the places. -/
theorem strayAt_append (before rest : List UInt8) (i : Nat) :
    StrayAt (before ++ rest) (before.length + i) ↔ StrayAt rest i := by
  have hplace : ∀ k, (before ++ rest)[before.length + k]? = rest[k]? := by
    intro k
    rw [List.getElem?_append_right (Nat.le_add_right _ _), Nat.add_sub_cancel_left]
  simp only [StrayAt, EscapeAt, Nat.add_assoc, hplace]

/-- Bytes without a stray sign may be passed over. -/
theorem not_strayAt_append {before rest : List UInt8} {j : Nat}
    (hbefore : ∀ j < before.length, ¬StrayAt (before ++ rest) j)
    (hrest : ∀ k, j = before.length + k → ¬StrayAt rest k) : ¬StrayAt (before ++ rest) j := by
  rcases Nat.lt_or_ge j before.length with hlt | hge
  · exact hbefore j hlt
  · obtain ⟨k, rfl⟩ := Nat.exists_eq_add_of_le hge
    rw [strayAt_append]
    exact hrest k rfl

theorem FirstStray.append {before rest : List UInt8} {i : Nat}
    (hbefore : ∀ j < before.length, ¬StrayAt (before ++ rest) j) (h : FirstStray rest i) :
    FirstStray (before ++ rest) (before.length + i) where
  stray := (strayAt_append before rest i).mpr h.stray
  first j hj := not_strayAt_append hbefore fun k hk => h.first k (by omega)

theorem Escaped.append {before rest : List UInt8}
    (hbefore : ∀ j < before.length, ¬StrayAt (before ++ rest) j) (h : Escaped rest) :
    Escaped (before ++ rest) := by
  refine escaped_iff.mpr fun j => ?_
  exact not_strayAt_append hbefore fun k _ => escaped_iff.mp h k

/-- Two bytes give a byte exactly if both are digits. -/
theorem byteOf?_eq_some_iff {h l b : UInt8} : byteOf? h l = some b ↔
    ∃ p q, digit? h = some p ∧ digit? l = some q ∧ b = UInt8.ofNat (p * 16 + q) := by
  unfold byteOf?
  split
  · next p q hp hq => simp [hp, hq, eq_comm]
  · next hnone =>
      refine iff_of_false nofun ?_
      rintro ⟨p, q, hp, hq, -⟩
      exact hnone p q hp hq

/-- No percent sign is stray within an escape, for its digits are no percent signs. -/
theorem not_strayAt_escape {h l b : UInt8} (hbyte : byteOf? h l = some b) (rest : List UInt8) :
    ∀ j < 3, ¬StrayAt (sign :: h :: l :: rest) j := by
  obtain ⟨p, q, hp, hq, -⟩ := byteOf?_eq_some_iff.mp hbyte
  rintro j hj ⟨hsign, hnone⟩
  rcases j with _ | _ | _ | j
  · exact hnone ⟨h, l, rfl, rfl, by rw [hp]; rfl, by rw [hq]; rfl⟩
  · obtain rfl : h = sign := Option.some.inj hsign
    cases hp
  · obtain rfl : l = sign := Option.some.inj hsign
    cases hq
  · omega

theorem not_strayAt_of_ne {a : UInt8} (h : a ≠ sign) (rest : List UInt8) :
    ∀ j < 1, ¬StrayAt (a :: rest) j := by
  rintro j hj ⟨hsign, -⟩
  obtain rfl := Nat.lt_one_iff.mp hj
  exact h (Option.some.inj hsign)

/-- What a check comes to: every percent sign starts an escape, or the first that starts none is named
with what follows it. -/
inductive Checked (bytes : List UInt8) : Option (List UInt8) → Prop where
  | sound (hescaped : Escaped bytes) : Checked bytes none
  | stray (i : Nat) (hfirst : FirstStray bytes i) : Checked bytes (some ((bytes.drop i).take 3))

/-- After bytes without a stray sign, the rest decides. -/
theorem Checked.append (before : List UInt8) {rest : List UInt8} {found : Option (List UInt8)}
    (hbefore : ∀ j < before.length, ¬StrayAt (before ++ rest) j) (h : Checked rest found) :
    Checked (before ++ rest) found := by
  cases h with
  | sound hescaped => exact .sound (hescaped.append hbefore)
  | stray i hfirst =>
      have hdrop : (before ++ rest).drop (before.length + i) = rest.drop i :=
        List.drop_length_add_append i
      rw [← hdrop]
      exact .stray _ (hfirst.append hbefore)

theorem Checked.nil : Checked [] none :=
  .sound fun _ hsign => nomatch hsign

theorem Checked.front {bytes : List UInt8} (h : StrayAt bytes 0) :
    Checked bytes (some (bytes.take 3)) :=
  .stray 0 ⟨h, fun _ hj => absurd hj (Nat.not_lt_zero _)⟩

/-- **The check finds the first stray percent sign.** -/
theorem checked_badEscape? (bytes : List UInt8) : Checked bytes (badEscape? bytes) := by
  fun_induction badEscape? bytes with
  | case1 => exact .nil
  | case2 => exact .front ⟨rfl, by simp [EscapeAt]⟩
  | case3 a hne => exact Checked.append [a] (not_strayAt_of_ne hne []) .nil
  | case4 => exact .front ⟨rfl, by simp [EscapeAt]⟩
  | case5 a b hne ih => exact Checked.append [a] (not_strayAt_of_ne hne [b]) ih
  | case6 h l rest b hbyte ih =>
      exact Checked.append [sign, h, l] (not_strayAt_escape hbyte rest) ih
  | case7 h l rest hbyte =>
      refine .front ⟨rfl, ?_⟩
      rintro ⟨h', l', hh, hl, hp, hq⟩
      obtain ⟨rfl, rfl⟩ : h = h' ∧ l = l' := ⟨Option.some.inj hh, Option.some.inj hl⟩
      obtain ⟨p, hp⟩ := Option.isSome_iff_exists.mp hp
      obtain ⟨q, hq⟩ := Option.isSome_iff_exists.mp hq
      have hsome := byteOf?_eq_some_iff.mpr ⟨p, q, hp, hq, rfl⟩
      rw [hbyte] at hsome
      cases hsome
  | case8 a h l rest hne ih => exact Checked.append [a] (not_strayAt_of_ne hne (h :: l :: rest)) ih

/-- The check finds nothing exactly if every percent sign starts an escape. -/
theorem badEscape?_eq_none_iff {bytes : List UInt8} : badEscape? bytes = none ↔ Escaped bytes := by
  generalize hfound : badEscape? bytes = found
  cases hfound ▸ checked_badEscape? bytes with
  | sound hescaped => exact iff_of_true rfl hescaped
  | stray i hfirst => exact iff_of_false nofun (not_escaped_of_firstStray hfirst)

/-- **The check names the leftmost stray percent sign**, with the two bytes after it if there are so
many. -/
theorem badEscape?_eq_some_iff {bytes bad : List UInt8} :
    badEscape? bytes = some bad ↔ ∃ i, FirstStray bytes i ∧ bad = (bytes.drop i).take 3 := by
  generalize hfound : badEscape? bytes = found
  cases hfound ▸ checked_badEscape? bytes with
  | sound hescaped =>
      refine iff_of_false nofun ?_
      rintro ⟨i, hfirst, -⟩
      exact not_escaped_of_firstStray hfirst hescaped
  | stray i hfirst =>
      constructor
      · intro hbad
        exact ⟨i, hfirst, (Option.some.inj hbad).symm⟩
      · rintro ⟨j, hj, rfl⟩
        rw [hfirst.unique hj]

end Mailshot.Text.Percent

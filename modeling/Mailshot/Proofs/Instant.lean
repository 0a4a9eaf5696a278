import Mailshot.Instant.Text
import Mailshot.Proofs.Text.Digit

/-!
# Instants read back

An instant is written with fixed separators between its numbers, so that each reader stops where
the next one starts.  Whatever is read, with any offset, is a point of the calendar and the clock:
offsets are whole minutes, so a leap second stays second fifty-nine of its minute.

* `Instant.Representable`: a point of the calendar and the clock;
* `Instant.readYear_writeYear`, `Instant.readFraction_writeFraction`: years out of four digits, and
  the three lengths of a fraction;
* `Instant.parse?_toString`: what is written is read back;
* `Instant.representable_of_parse?`: what is read can be written.
-/

namespace Mailshot.Instant

open Text

/-- A point of the calendar and the clock.  Only the last second of a minute is ever a leap second.
-/
structure Representable (t : Instant) : Prop where
  date : t.date.isValid = true
  hour : t.hour < 24
  minute : t.minute < 60
  second : t.second < 60
  nano : t.nano < secondNanos ∨ t.second = 59 ∧ t.nano < 2 * secondNanos

variable {width n : Nat} {c mark : Char} {cs rest : List Char}

/-! ### Numbers -/

theorem isDigit_of_mem_padded (h : c ∈ padded width n) : isDigit c = true := by
  rcases List.mem_append.mp h with hzero | hdigit
  · rw [List.eq_of_mem_replicate hzero]
    decide
  · exact isDigit_of_mem_toDigits hdigit

theorem ofDigits_padded (width n : Nat) : ofDigits (padded width n) = n :=
  (ofDigits_zeros _ _).trans (ofDigits_toDigits n)

theorem padded_ne_nil (width n : Nat) : padded width n ≠ [] := by
  simp [padded, Nat.toDigits_ne_nil]

theorem length_padded (hwidth : 0 < width) (h : n < 10 ^ width) :
    (padded width n).length = width := by
  have hlength := (Nat.length_toDigits_le_iff (by decide) hwidth).mpr h
  simp only [padded, List.length_append, List.length_replicate]
  omega

theorem readNumber_padded (hwidth : 0 < width) (h : n < 10 ^ width) (rest : List Char) :
    readNumber width (padded width n ++ rest) = some (n, rest) := by
  have hdigits : ∀ c ∈ padded width n, isDigit c = true := fun _ => isDigit_of_mem_padded
  rw [readNumber, trimStart_digits hdigits (padded_ne_nil width n),
    List.take_left' (length_padded hwidth h), List.takeWhile_eq_self_iff.mpr hdigits]
  simp [padded_ne_nil, ofDigits_padded]

theorem readLong_padded (width n : Nat) (hc : isDigit c = false) (rest : List Char) :
    readLong (padded width n ++ c :: rest) = some (n, c :: rest) := by
  have hdigits : ∀ c ∈ padded width n, isDigit c = true := fun _ => isDigit_of_mem_padded
  rw [readLong, takeWhile_digits hdigits hc]
  simp [padded_ne_nil, ofDigits_padded]

theorem readMark_cons (h : isBlank mark = false) (rest : List Char) :
    readMark mark (mark :: rest) = some rest := by
  simp [readMark, trimStart, h]

theorem readYear_of_isDigit (h : isDigit c = true) (cs : List Char) :
    readYear (c :: cs) = (readNumber 4 (c :: cs)).map fun (n, rest) => ((n : Int), rest) := by
  have htrim : trimStart (c :: cs) = c :: cs := by
    simp [trimStart, isBlank_of_isDigit h]
  rw [readYear, htrim]
  split
  · next hminus =>
      obtain rfl := (List.cons.inj hminus).1
      exact absurd h (by decide)
  · next hplus =>
      obtain rfl := (List.cons.inj hplus).1
      exact absurd h (by decide)
  · rfl

/-- **Years are read back**, those out of four digits by their sign. -/
theorem readYear_writeYear (year : Int) (rest : List Char) :
    readYear (writeYear year ++ '-' :: rest) = some (year, '-' :: rest) := by
  rw [writeYear]
  split
  · next hfour =>
      have hread := readNumber_padded (by decide : 0 < 4) (by omega : year.toNat < 10 ^ 4) ('-' :: rest)
      obtain ⟨c, more, hc⟩ := List.exists_cons_of_ne_nil (padded_ne_nil 4 year.toNat)
      have hdigit : isDigit c = true := isDigit_of_mem_padded (hc ▸ List.mem_cons_self)
      rw [hc, List.cons_append] at hread ⊢
      rw [readYear_of_isDigit hdigit, hread]
      simp [Int.toNat_of_nonneg hfour.1]
  · next hlong =>
      have hblank : isBlank '-' = false ∧ isBlank '+' = false := by decide
      have hread (n : Nat) : readLong (padded 4 n ++ '-' :: rest) = some (n, '-' :: rest) :=
        readLong_padded 4 n (by decide) rest
      by_cases hnegative : year < 0
      · have hyear : -(year.natAbs : Int) = year := by omega
        rw [if_pos hnegative, List.cons_append]
        simp only [readYear, trimStart, List.dropWhile_cons, hblank.1, Bool.false_eq_true, if_false,
          hread, Option.map_some, hyear]
      · have hyear : (year.natAbs : Int) = year := by omega
        rw [if_neg hnegative, List.cons_append]
        simp only [readYear, trimStart, List.dropWhile_cons, hblank.2, Bool.false_eq_true, if_false,
          hread, Option.map_some, hyear]

/-! ### Fractions -/

theorem readFraction_padded (hwidth : 0 < width) (hnine : width ≤ 9) (h : n < 10 ^ width)
    (rest : List Char) : readFraction ('.' :: (padded width n ++ 'Z' :: rest)) =
      some (n * 10 ^ (9 - width), 'Z' :: rest) := by
  have hdigits : ∀ c ∈ padded width n, isDigit c = true := fun _ => isDigit_of_mem_padded
  have hlength := length_padded hwidth h
  rw [readFraction, takeWhile_digits hdigits (by decide),
    List.take_of_length_le (hlength.le.trans hnine)]
  simp [padded_ne_nil, ofDigits_padded, hlength]

/-- **Fractions are read back**, whichever of the three lengths they have. -/
theorem readFraction_writeFraction {nano : Nat} (h : nano < secondNanos) (rest : List Char) :
    readFraction (writeFraction nano ++ 'Z' :: rest) = some (nano, 'Z' :: rest) := by
  rw [secondNanos] at h
  rw [writeFraction]
  split
  · next hnone => simp [readFraction, hnone]
  split
  · next hmillis =>
      rw [List.cons_append, readFraction_padded (by decide) (by decide) (by omega)]
      simp only [Option.some.injEq, Prod.mk.injEq, and_true]
      omega
  split
  · next hmicros =>
      rw [List.cons_append, readFraction_padded (by decide) (by decide) (by omega)]
      simp only [Option.some.injEq, Prod.mk.injEq, and_true]
      omega
  · rw [List.cons_append, readFraction_padded (by decide) (by decide) (by omega)]
    simp

/-- A fraction that is read is less than a second. -/
theorem readFraction_lt {nano : Nat} (h : readFraction cs = some (nano, rest)) :
    nano < secondNanos := by
  rw [readFraction.eq_def] at h
  split at h
  · next digits =>
      simp only [Option.ite_none_left_eq_some, Option.some.injEq, Prod.mk.injEq] at h
      obtain ⟨-, rfl, -⟩ := h
      have hdigits : ∀ c ∈ (digits.takeWhile isDigit).take 9, isDigit c = true := fun c hc =>
        List.mem_takeWhile_imp (List.mem_of_mem_take hc)
      have hlength : ((digits.takeWhile isDigit).take 9).length ≤ 9 :=
        List.length_take_le 9 _
      have hlt := ofDigits_lt hdigits
      generalize (digits.takeWhile isDigit).take 9 = kept at *
      calc ofDigits kept * 10 ^ (9 - kept.length)
          < 10 ^ kept.length * 10 ^ (9 - kept.length) :=
            Nat.mul_lt_mul_of_pos_right hlt (Nat.pow_pos (by decide))
        _ = secondNanos := by rw [← Nat.pow_add, Nat.add_sub_cancel' hlength]; rfl
  · simp only [Option.some.injEq, Prod.mk.injEq] at h
    rw [← h.1, secondNanos]
    decide

/-! ### Clocks -/

variable {t : Instant}

theorem month_lt (h : t.Representable) : t.date.month < 10 ^ 2 := by
  have hdate := h.date
  simp only [Date.isValid, Bool.and_eq_true, decide_eq_true_eq] at hdate
  omega

theorem day_lt (h : t.Representable) : t.date.day < 10 ^ 2 := by
  have hdate := h.date
  simp only [Date.isValid, Bool.and_eq_true, decide_eq_true_eq] at hdate
  have hdays : Date.daysIn t.date.year t.date.month ≤ 31 := by
    rw [Date.daysIn]
    repeat' split
    all_goals decide
  omega

theorem secondOfDay_lt (h : t.Representable) : t.secondOfDay < daySeconds := by
  have := h.hour
  have := h.minute
  have := h.second
  simp only [secondOfDay, daySeconds]
  omega

theorem atSecond_secondOfDay (h : t.Representable) :
    atSecond t.date t.secondOfDay t.nano = t := by
  obtain ⟨date, hour, minute, second, nano⟩ := t
  have hhour : hour < 24 := h.hour
  have hminute : minute < 60 := h.minute
  have hsecond : second < 60 := h.second
  simp only [atSecond, secondOfDay, Instant.mk.injEq, true_and, and_true]
  omega

theorem shift?_zero (h : t.Representable) : t.shift? 0 = some t := by
  have hlt := secondOfDay_lt h
  rw [shift?]
  simp only [Int.sub_zero]
  rw [if_neg (by omega), if_neg (by omega), Int.toNat_natCast, atSecond_secondOfDay h]

/-- The clock reading that is written for an instant is that instant in UTC. -/
theorem ofClock?_written (h : t.Representable) :
    ofClock? t.date t.hour t.minute (if secondNanos ≤ t.nano then t.second + 1 else t.second)
      (if secondNanos ≤ t.nano then t.nano - secondNanos else t.nano) 0 = some t := by
  have hshift := shift?_zero h
  obtain ⟨date, hour, minute, second, nano⟩ := t
  have hdate : date.isValid = true := h.date
  have hhour : hour < 24 := h.hour
  have hminute : minute < 60 := h.minute
  have hsecond : second < 60 := h.second
  have hnano : nano < secondNanos ∨ second = 59 ∧ nano < 2 * secondNanos := h.nano
  by_cases hleap : secondNanos ≤ nano
  · obtain rfl : second = 59 := by omega
    simpa [ofClock?, hleap, hdate, hhour, hminute, Nat.sub_add_cancel hleap] using hshift
  · have hsixty : second ≠ 60 ∧ second ≤ 60 := by omega
    simpa [ofClock?, hleap, hdate, hhour, hminute, hsixty] using hshift

/-! ### Instants -/

/-- The marks between the numbers of an instant. -/
theorem isBlank_marks : isBlank '-' = false ∧ isBlank ':' = false ∧ isBlank 'Z' = false := by
  decide

/-- **Every instant is read back.** -/
theorem parseChars?_write (h : t.Representable) : parseChars? t.write = some t := by
  have hread {n : Nat} (hn : n < 10 ^ 2) (rest : List Char) :
      readNumber 2 (padded 2 n ++ rest) = some (n, rest) := readNumber_padded (by decide) hn rest
  have hhour : t.hour < 10 ^ 2 := by have := h.hour; omega
  have hminute : t.minute < 10 ^ 2 := by have := h.minute; omega
  have hsecond : (if secondNanos ≤ t.nano then t.second + 1 else t.second) < 10 ^ 2 := by
    have := h.second
    split <;> omega
  have hnano : (if secondNanos ≤ t.nano then t.nano - secondNanos else t.nano) < secondNanos := by
    have := h.nano
    split <;> omega
  obtain ⟨hminus, hcolon, hzulu⟩ := isBlank_marks
  have hzone : readZone (trimStart ['Z']) = some (0, []) := by decide
  simp only [parseChars?, write, List.append_assoc, List.cons_append, Option.bind_eq_bind,
    readYear_writeYear, Option.bind_some, readMark_cons hminus, readMark_cons hcolon,
    hread (month_lt h), hread (day_lt h), hread hhour, hread hminute, hread hsecond, readMiddle,
    Bool.or_eq_true, decide_eq_true_eq, true_or, if_true,
    readFraction_writeFraction hnano, hzone]
  exact ofClock?_written h

theorem parse?_toString (h : t.Representable) : parse? t.toString = some t := by
  rw [parse?, toString, String.toList_ofList, parseChars?_write h]

/-! ### What is read -/

/-- Offsets are whole minutes. -/
theorem dvd_of_readZone {offset : Int} (h : readZone cs = some (offset, rest)) : 60 ∣ offset := by
  rw [readZone] at h
  split at h
  · obtain rfl := (Prod.mk.inj (Option.some.inj h)).1
    exact Int.dvd_zero 60
  rw [readOffset.eq_def] at h
  split at h
  · split at h
    · obtain rfl := (Prod.mk.inj (Option.some.inj h)).1
      exact Int.dvd_zero 60
    simp only at h
    split at h
    · split at h
      · next sign hours _ _ _ _ minutes _ _ =>
          simp only [Option.ite_none_right_eq_some, Option.some.injEq, Prod.mk.injEq] at h
          obtain ⟨-, rfl, -⟩ := h
          exact Int.dvd_mul_of_dvd_right ⟨(hours * 60 + minutes : Int), Int.mul_comm ..⟩
      · cases h
    · cases h
  · cases h

/-- The next and the previous day are days of the calendar. -/
theorem isValid_of_next? {d e : Date} (h : d.next? = some e) : e.isValid = true := by
  simp only [Date.next?, Option.ite_none_right_eq_some, Option.some.injEq] at h
  exact h.2 ▸ h.1

theorem isValid_of_previous? {d e : Date} (h : d.previous? = some e) : e.isValid = true := by
  simp only [Date.previous?, Option.ite_none_right_eq_some, Option.some.injEq] at h
  exact h.2 ▸ h.1

/-- A second of a day, in the place of a second `second` of its minute. -/
theorem representable_atSecond {date : Date} {s nano : Nat} (hdate : date.isValid = true)
    (hs : s < daySeconds) (hnano : nano < secondNanos ∨ s % 60 = 59 ∧ nano < 2 * secondNanos) :
    (atSecond date s nano).Representable where
  date := hdate
  hour := by simp only [atSecond, daySeconds] at hs ⊢; omega
  minute := Nat.mod_lt _ (by decide)
  second := Nat.mod_lt _ (by decide)
  nano := hnano

/-- An offset of whole minutes leads from a point of the clock to one. -/
theorem representable_of_shift? {offset : Int} {u : Instant} (h : t.Representable)
    (hoffset : 60 ∣ offset) (hday : -daySeconds < offset ∧ offset < daySeconds)
    (hshift : t.shift? offset = some u) : u.Representable := by
  have hlt := secondOfDay_lt h
  have hsixty : t.secondOfDay % 60 = t.second := by
    have := h.second
    simp only [secondOfDay]
    omega
  have hnano (s : Nat) (hs : s % 60 = t.second) :
      t.nano < secondNanos ∨ s % 60 = 59 ∧ t.nano < 2 * secondNanos := by
    rw [hs]
    exact h.nano
  have hseconds : daySeconds = 86400 := rfl
  simp only [shift?] at hshift
  split at hshift
  · obtain ⟨e, he, rfl⟩ := Option.map_eq_some_iff.mp hshift
    exact representable_atSecond (isValid_of_previous? he) (by omega) (hnano _ (by omega))
  split at hshift
  · obtain ⟨e, he, rfl⟩ := Option.map_eq_some_iff.mp hshift
    exact representable_atSecond (isValid_of_next? he) (by omega) (hnano _ (by omega))
  · obtain rfl := Option.some.inj hshift
    exact representable_atSecond h.date (by omega) (hnano _ (by omega))

theorem representable_of_ofClock? {date : Date} {hour minute second nano : Nat} {offset : Int}
    (hnano : nano < secondNanos) (hoffset : 60 ∣ offset)
    (h : ofClock? date hour minute second nano offset = some t) : t.Representable := by
  simp only [ofClock?, Option.ite_none_right_eq_some, Bool.and_eq_true, decide_eq_true_eq] at h
  obtain ⟨⟨⟨⟨⟨⟨hdate, hhour⟩, hminute⟩, hsecond⟩, hlow⟩, hhigh⟩, hshift⟩ := h
  refine representable_of_shift? ?_ hoffset ⟨hlow, hhigh⟩ hshift
  split
  · exact ⟨hdate, hhour, hminute, Nat.lt_add_one 59, .inr ⟨rfl, by simp only; omega⟩⟩
  · exact ⟨hdate, hhour, hminute, by simp only; omega, .inl hnano⟩

/-- **What is read can be written.** -/
theorem representable_of_parseChars? (h : parseChars? cs = some t) : t.Representable := by
  simp only [parseChars?, Option.bind_eq_bind, Option.bind_eq_some_iff,
    Option.ite_none_right_eq_some, Prod.exists] at h
  obtain ⟨year, _, -, _, -, month, _, -, _, -, day, _, -, _, -, hour, _, -, _, -, minute, _, -, _, -,
    second, _, -, nano, _, hfraction, offset, _, hzone, -, hclock⟩ := h
  exact representable_of_ofClock? (readFraction_lt hfraction) (dvd_of_readZone hzone) hclock

theorem representable_of_parse? {s : String} (h : parse? s = some t) : t.Representable :=
  representable_of_parseChars? h

end Mailshot.Instant

import Mailshot.Text.Utf8

/-!
# Text read back from its bytes

A character takes one to four bytes, as its value has up to 7, 11, 16 or 21 bits.  For each of the
four widths the lead byte tells how many bytes follow, and the value comes out of their low bits, so
the reader stops exactly where the character ends, whatever stands after it.  It reads nothing else:
the ranges of the second byte keep out all that is no character's spelling.

* `Utf8.next_encodeChar`: one character off the front of its bytes;
* `Utf8.decode_encode`: a text is read back from its bytes;
* `Utf8.encode_cons_ascii`: an ASCII character is one byte;
* `Utf8.eq_of_next`: bytes that are read as a character are its bytes;
* `Utf8.decode_eq_ok_iff`: bytes are read as a text exactly if they are its bytes;
* `Utf8.decodeLossy_take`: a text that is cut is shown up to the cut.
-/

namespace Mailshot.Text.Utf8

theorem toNat_byte {n : Nat} (h : n < 256) : (UInt8.ofNat n).toNat = n := by
  rw [UInt8.toNat_ofNat', Nat.mod_eq_of_lt h]

/-- Six bits make a continuation byte. -/
theorem isTail_low (n : Nat) : isTail (n % 64 + 128) = true := by
  simp only [isTail, Bool.and_eq_true, decide_eq_true_eq]
  omega

/-- Seven bits make a byte that stands alone. -/
theorem next_one {v : Nat} (h : v ≤ 0x7F) (rest : List UInt8) :
    next (UInt8.ofNat v) rest = .character (Char.ofNat v) rest := by
  have hlead : (UInt8.ofNat v).toNat = v := toNat_byte (by omega)
  simp only [next, hlead]
  rw [if_pos (by omega)]

/-- A lead byte with five bits, and one byte with six. -/
theorem next_two {v : Nat} (hlow : 0x80 ≤ v) (hhigh : v ≤ 0x7FF) (rest : List UInt8) :
    next (UInt8.ofNat (v / 64 % 32 + 192)) (UInt8.ofNat (v % 64 + 128) :: rest) =
      .character (Char.ofNat v) rest := by
  have hlead : (UInt8.ofNat (v / 64 % 32 + 192)).toNat = v / 64 % 32 + 192 := toNat_byte (by omega)
  have hsecond : (UInt8.ofNat (v % 64 + 128)).toNat = v % 64 + 128 := toNat_byte (by omega)
  have hvalue : (v / 64 % 32 + 192 - 0xC0) * 64 + (v % 64 + 128 - 0x80) = v := by omega
  simp only [next, hlead, hsecond, isTail_low, if_true, hvalue]
  rw [if_neg (by omega), if_pos (by omega)]

/-- A lead byte with four bits, and two bytes with six.  No long spelling and no surrogate comes of a
scalar value. -/
theorem next_three {v : Nat} (hlow : 0x800 ≤ v) (hhigh : v ≤ 0xFFFF)
    (hscalar : v < 0xD800 ∨ 0xDFFF < v) (rest : List UInt8) :
    next (UInt8.ofNat (v / 4096 % 16 + 224))
        (UInt8.ofNat (v / 64 % 64 + 128) :: UInt8.ofNat (v % 64 + 128) :: rest) =
      .character (Char.ofNat v) rest := by
  have hlead : (UInt8.ofNat (v / 4096 % 16 + 224)).toNat = v / 4096 % 16 + 224 :=
    toNat_byte (by omega)
  have hsecond : (UInt8.ofNat (v / 64 % 64 + 128)).toNat = v / 64 % 64 + 128 := toNat_byte (by omega)
  have hthird : (UInt8.ofNat (v % 64 + 128)).toNat = v % 64 + 128 := toNat_byte (by omega)
  have hfits : isSecond (v / 4096 % 16 + 224) (v / 64 % 64 + 128) = true := by
    simp only [isSecond, secondRange, Bool.and_eq_true]
    grind
  have hvalue : (v / 4096 % 16 + 224 - 0xE0) * 4096 + (v / 64 % 64 + 128 - 0x80) * 64 +
      (v % 64 + 128 - 0x80) = v := by omega
  simp only [next, hlead, hsecond, hthird, hfits, isTail_low, if_true, hvalue]
  rw [if_neg (by omega), if_neg (by omega), if_pos (by omega)]

/-- A lead byte with three bits, and three bytes with six. -/
theorem next_four {v : Nat} (hlow : 0x10000 ≤ v) (hhigh : v < 0x110000) (rest : List UInt8) :
    next (UInt8.ofNat (v / 262144 % 8 + 240))
        (UInt8.ofNat (v / 4096 % 64 + 128) :: UInt8.ofNat (v / 64 % 64 + 128) ::
          UInt8.ofNat (v % 64 + 128) :: rest) =
      .character (Char.ofNat v) rest := by
  have hlead : (UInt8.ofNat (v / 262144 % 8 + 240)).toNat = v / 262144 % 8 + 240 :=
    toNat_byte (by omega)
  have hsecond : (UInt8.ofNat (v / 4096 % 64 + 128)).toNat = v / 4096 % 64 + 128 :=
    toNat_byte (by omega)
  have hthird : (UInt8.ofNat (v / 64 % 64 + 128)).toNat = v / 64 % 64 + 128 := toNat_byte (by omega)
  have hfourth : (UInt8.ofNat (v % 64 + 128)).toNat = v % 64 + 128 := toNat_byte (by omega)
  have hfits : isSecond (v / 262144 % 8 + 240) (v / 4096 % 64 + 128) = true := by
    simp only [isSecond, secondRange, Bool.and_eq_true]
    grind
  have hvalue : (v / 262144 % 8 + 240 - 0xF0) * 262144 + (v / 4096 % 64 + 128 - 0x80) * 4096 +
      (v / 64 % 64 + 128 - 0x80) * 64 + (v % 64 + 128 - 0x80) = v := by omega
  simp only [next, hlead, hsecond, hthird, hfourth, hfits, isTail_low, if_true, hvalue]
  rw [if_neg (by omega), if_neg (by omega), if_neg (by omega), if_pos (by omega)]

/-- **A character is read back from its bytes**, whatever follows them. -/
theorem next_encodeChar (c : Char) (rest : List UInt8) :
    ∃ lead tail, String.utf8EncodeChar c = lead :: tail ∧
      next lead (tail ++ rest) = .character c rest := by
  have hscalar : c.toNat < 0xD800 ∨ 0xDFFF < c.toNat ∧ c.toNat < 0x110000 := c.valid
  have hread : Char.ofNat c.toNat = c := Char.ofNat_toNat c
  simp only [String.utf8EncodeChar, show c.val.toNat = c.toNat from rfl]
  -- one case for each width, in the order of the encoder
  split
  · next hone => exact ⟨_, _, rfl, (next_one hone rest).trans (by rw [hread])⟩
  split
  · next htwo => exact ⟨_, _, rfl, (next_two (by omega) htwo rest).trans (by rw [hread])⟩
  split
  · next hthree =>
      exact ⟨_, _, rfl, (next_three (by omega) hthree (by omega) rest).trans (by rw [hread])⟩
  · exact ⟨_, _, rfl, (next_four (by omega) (by omega) rest).trans (by rw [hread])⟩

theorem encode_cons (c : Char) (cs : List Char) :
    encode (c :: cs) = String.utf8EncodeChar c ++ encode cs :=
  List.flatMap_cons

/-- An ASCII character is one byte. -/
theorem encode_cons_ascii {c : Char} (h : c.toNat < 0x80) (cs : List Char) :
    encode (c :: cs) = UInt8.ofNat c.toNat :: encode cs := by
  have hbytes : String.utf8EncodeChar c = [UInt8.ofNat c.toNat] := by
    simp only [String.utf8EncodeChar, show c.val.toNat = c.toNat from rfl]
    rw [if_pos (by omega)]
  rw [encode_cons, hbytes, List.singleton_append]

theorem decodeFrom_encode (offset : Nat) (cs : List Char) :
    decodeFrom offset (encode cs) = .ok cs := by
  induction cs generalizing offset with
  | nil => simp [encode, decodeFrom]
  | cons c cs ih =>
      obtain ⟨lead, tail, hbytes, hnext⟩ := next_encodeChar c (encode cs)
      rw [encode_cons, hbytes, List.cons_append, decodeFrom]
      split
      · next d rest h =>
          obtain ⟨rfl, rfl⟩ : c = d ∧ encode cs = rest := by simpa [hnext] using h
          rw [ih]
          rfl
      · next h => simp [hnext] at h
      · next h => simp [hnext] at h

/-- **A text is read back from its bytes.** -/
theorem decode_encode (cs : List Char) : decode (encode cs) = .ok cs :=
  decodeFrom_encode 0 cs

/-! ### Nothing else is read -/

/-- What the ranges of the second byte let through. -/
theorem second_of_isSecond {a b : Nat} (h : isSecond a b = true) :
    (0x80 ≤ b ∧ b ≤ 0xBF) ∧ (a = 0xE0 → 0xA0 ≤ b) ∧ (a = 0xED → b ≤ 0x9F) ∧
      (a = 0xF0 → 0x90 ≤ b) ∧ (a = 0xF4 → b ≤ 0x8F) := by
  simp only [isSecond, secondRange, Bool.and_eq_true] at h
  grind

theorem tail_of_isTail {b : Nat} (h : isTail b = true) : 0x80 ≤ b ∧ b ≤ 0xBF := by
  simpa [isTail] using h

theorem byte_eq {n : Nat} {a : UInt8} (h : n = a.toNat) : UInt8.ofNat n = a := by
  rw [h, UInt8.ofNat_toNat]

/-- The bytes of a scalar value. -/
theorem encodeChar_ofNat {v : Nat} (h : v < 0xD800 ∨ 0xDFFF < v ∧ v < 0x110000) :
    String.utf8EncodeChar (Char.ofNat v) =
      if v ≤ 0x7F then [UInt8.ofNat v]
      else if v ≤ 0x7FF then [UInt8.ofNat (v / 64 % 32 + 192), UInt8.ofNat (v % 64 + 128)]
      else if v ≤ 0xFFFF then
        [UInt8.ofNat (v / 4096 % 16 + 224), UInt8.ofNat (v / 64 % 64 + 128),
          UInt8.ofNat (v % 64 + 128)]
      else
        [UInt8.ofNat (v / 262144 % 8 + 240), UInt8.ofNat (v / 4096 % 64 + 128),
          UInt8.ofNat (v / 64 % 64 + 128), UInt8.ofNat (v % 64 + 128)] := by
  have hvalue : (Char.ofNat v).val.toNat = v := by
    rw [Char.ofNat, dif_pos h]
    rfl
  rw [String.utf8EncodeChar, hvalue]

theorem encodeChar_one {a : UInt8} (ha : a.toNat < 0x80) :
    String.utf8EncodeChar (Char.ofNat a.toNat) = [a] := by
  rw [encodeChar_ofNat (by omega), if_pos (by omega), byte_eq rfl]

theorem encodeChar_two {a b : UInt8} (ha : 0xC2 ≤ a.toNat ∧ a.toNat ≤ 0xDF)
    (hb : isTail b.toNat = true) :
    String.utf8EncodeChar (Char.ofNat ((a.toNat - 0xC0) * 64 + (b.toNat - 0x80))) = [a, b] := by
  have := tail_of_isTail hb
  rw [encodeChar_ofNat (by omega), if_neg (by omega), if_pos (by omega), byte_eq (a := a) (by omega),
    byte_eq (a := b) (by omega)]

/-- The second byte keeps out values of two bytes, and surrogates. -/
theorem encodeChar_three {a b c : UInt8} (ha : 0xE0 ≤ a.toNat ∧ a.toNat ≤ 0xEF)
    (hb : isSecond a.toNat b.toNat = true) (hc : isTail c.toNat = true) :
    String.utf8EncodeChar (Char.ofNat
      ((a.toNat - 0xE0) * 4096 + (b.toNat - 0x80) * 64 + (c.toNat - 0x80))) = [a, b, c] := by
  have := second_of_isSecond hb
  have := tail_of_isTail hc
  rw [encodeChar_ofNat (by omega), if_neg (by omega), if_neg (by omega), if_pos (by omega),
    byte_eq (a := a) (by omega), byte_eq (a := b) (by omega), byte_eq (a := c) (by omega)]

/-- The second byte keeps out values of three bytes, and those past the last scalar value. -/
theorem encodeChar_four {a b c d : UInt8} (ha : 0xF0 ≤ a.toNat ∧ a.toNat ≤ 0xF4)
    (hb : isSecond a.toNat b.toNat = true) (hc : isTail c.toNat = true)
    (hd : isTail d.toNat = true) :
    String.utf8EncodeChar (Char.ofNat
      ((a.toNat - 0xF0) * 262144 + (b.toNat - 0x80) * 4096 + (c.toNat - 0x80) * 64 +
        (d.toNat - 0x80))) = [a, b, c, d] := by
  have := second_of_isSecond hb
  have := tail_of_isTail hc
  have := tail_of_isTail hd
  rw [encodeChar_ofNat (by omega), if_neg (by omega), if_neg (by omega), if_neg (by omega),
    byte_eq (a := a) (by omega), byte_eq (a := b) (by omega), byte_eq (a := c) (by omega),
    byte_eq (a := d) (by omega)]

/-- **Bytes that are read as a character are its bytes.** -/
theorem eq_of_next {a : UInt8} {bytes rest : List UInt8} {c : Char}
    (h : next a bytes = .character c rest) : a :: bytes = String.utf8EncodeChar c ++ rest := by
  simp only [next] at h
  -- one case for each width, in the order of the reader
  split at h
  · next hone =>
      rw [Next.character.injEq] at h
      obtain ⟨rfl, rfl⟩ := h
      rw [encodeChar_one hone]
      rfl
  split at h
  · next htwo =>
      obtain _ | ⟨b, bytes⟩ := bytes
      · cases h
      simp only at h
      split at h
      · next hb =>
          rw [Next.character.injEq] at h
          obtain ⟨rfl, rfl⟩ := h
          rw [encodeChar_two htwo hb]
          rfl
      · cases h
  split at h
  · next hthree =>
      obtain _ | ⟨b, _ | ⟨c, bytes⟩⟩ := bytes
      · cases h
      · grind
      simp only at h
      split at h
      · next hb =>
          split at h
          · next hc =>
              rw [Next.character.injEq] at h
              obtain ⟨rfl, rfl⟩ := h
              rw [encodeChar_three hthree hb hc]
              rfl
          · cases h
      · cases h
  split at h
  · next hfour =>
      obtain _ | ⟨b, _ | ⟨c, _ | ⟨d, bytes⟩⟩⟩ := bytes
      · cases h
      · grind
      · grind
      simp only at h
      split at h
      · next hb =>
          split at h
          · next hc =>
              split at h
              · next hd =>
                  rw [Next.character.injEq] at h
                  obtain ⟨rfl, rfl⟩ := h
                  rw [encodeChar_four hfour hb hc hd]
                  rfl
              · cases h
          · cases h
      · cases h
  · cases h

/-- What is read from a place on is the text of the bytes there. -/
theorem eq_of_decodeFrom {offset : Nat} {bytes : List UInt8} {cs : List Char}
    (h : decodeFrom offset bytes = .ok cs) : bytes = encode cs := by
  induction offset, bytes using decodeFrom.induct generalizing cs with
  | case1 offset =>
      simp only [decodeFrom, Except.ok.injEq] at h
      subst h
      rfl
  | case2 offset a bytes c rest hnext ih =>
      rw [decodeFrom] at h
      split at h
      · next d rest' hread =>
          rw [hnext, Next.character.injEq] at hread
          obtain ⟨rfl, rfl⟩ := hread
          cases hmore : decodeFrom (offset + c.utf8Size) rest with
          | error => simp [hmore, Except.map] at h
          | ok ds =>
              obtain rfl : c :: ds = cs := by simpa [hmore, Except.map] using h
              rw [eq_of_next hnext, ih hmore, encode_cons]
      · cases h
      · cases h
  | case3 offset a bytes | case4 offset a bytes =>
      rename_i hnext
      rw [decodeFrom] at h
      split at h
      · next hread => simp [hnext] at hread
      · cases h
      · cases h

/-- **Bytes are read as a text exactly if they are its bytes.** -/
theorem decode_eq_ok_iff {bytes : List UInt8} {cs : List Char} :
    decode bytes = .ok cs ↔ bytes = encode cs := by
  refine ⟨eq_of_decodeFrom, ?_⟩
  rintro rfl
  exact decode_encode cs

/-- Different texts have different bytes. -/
theorem encode_injective : Function.Injective encode := by
  intro cs ds hsame
  have hread := decode_encode cs
  rw [hsame, decode_encode] at hread
  exact (Except.ok.inj hread).symm

/-! ### A text that is cut -/

/-- The bytes after the first byte of a character are no ASCII characters. -/
theorem le_of_mem_tail {c : Char} {b : UInt8} (h : b ∈ (String.utf8EncodeChar c).tail) :
    0x80 ≤ b.toNat := by
  have hlow : ∀ n, 0x80 ≤ (UInt8.ofNat (n % 64 + 128)).toNat := by
    intro n
    rw [toNat_byte (by omega)]
    omega
  unfold String.utf8EncodeChar at h
  grind

/-- From an ASCII character on, a text is a text. -/
theorem exists_drop_encode {cs : List Char} {i : Nat} {b : UInt8} (hb : (encode cs)[i]? = some b)
    (hascii : b.toNat < 0x80) : ∃ rest, (encode cs).drop i = encode rest := by
  induction cs generalizing i with
  | nil => simp [encode] at hb
  | cons c cs ih =>
      rw [encode_cons] at hb ⊢
      rcases Nat.lt_or_ge i (String.utf8EncodeChar c).length with hlt | hge
      · rw [List.getElem?_append_left hlt] at hb
        cases i with
        | zero => exact ⟨c :: cs, by rw [List.drop_zero, encode_cons]⟩
        | succ i =>
            have hmem : b ∈ (String.utf8EncodeChar c).tail := by
              rw [← List.getElem?_tail] at hb
              exact List.mem_of_getElem? hb
            exact absurd (le_of_mem_tail hmem) (by omega)
      · obtain ⟨j, rfl⟩ := Nat.exists_eq_add_of_le hge
        rw [List.getElem?_append_right hge, Nat.add_sub_cancel_left] at hb
        rw [List.drop_length_add_append]
        exact ih hb

/-- A character that is cut off is not read. -/
theorem next_take {lead : UInt8} {bytes rest : List UInt8} {c : Char}
    (h : next lead bytes = .character c rest) {k : Nat} (hk : k + rest.length < bytes.length) :
    next lead (bytes.take k) = .cut := by
  simp only [next] at h
  split at h
  · grind
  split at h
  · next htwo =>
      obtain _ | ⟨b, bytes⟩ := bytes
      · cases h
      obtain rfl : k = 0 := by grind
      simp only [next]
      grind
  split at h
  · next hthree =>
      obtain _ | ⟨b, _ | ⟨c, bytes⟩⟩ := bytes
      · cases h
      · grind
      simp only [next]
      rcases k with _ | _ | k <;> grind
  split at h
  · next hfour =>
      obtain _ | ⟨b, _ | ⟨c, _ | ⟨d, bytes⟩⟩⟩ := bytes
      · cases h
      · grind
      · grind
      simp only [next]
      rcases k with _ | _ | _ | k <;> grind
  · cases h

/-- What is shown of a text in so much room: the characters whose bytes there is room for, and a
replacement mark for one of which there is only a part. -/
def shown (room : Nat) : List Char → List Char
  | [] => []
  | c :: cs =>
    if c.utf8Size ≤ room then c :: shown (room - c.utf8Size) cs
    else if room = 0 then [] else [replacement]

theorem decodeLossy_of_character {lead : UInt8} {bytes rest : List UInt8} {c : Char}
    (h : next lead bytes = .character c rest) :
    decodeLossy (lead :: bytes) = c :: decodeLossy rest := by
  rw [decodeLossy]
  split
  · next d rest' hnext =>
      rw [h, Next.character.injEq] at hnext
      obtain ⟨rfl, rfl⟩ := hnext
      rfl
  · next hnext => simp [h] at hnext
  · next hnext => simp [h] at hnext

theorem decodeLossy_of_cut {lead : UInt8} {bytes : List UInt8} (h : next lead bytes = .cut) :
    decodeLossy (lead :: bytes) = [replacement] := by
  rw [decodeLossy]
  split
  · next hnext => simp [h] at hnext
  · next hnext => simp [h] at hnext
  · rfl

/-- **A text that is cut is shown up to the cut.** -/
theorem decodeLossy_take (cs : List Char) (room : Nat) :
    decodeLossy ((encode cs).take room) = shown room cs := by
  induction cs generalizing room with
  | nil => simp [encode, shown, decodeLossy]
  | cons c cs ih =>
      have hlength : (String.utf8EncodeChar c).length = c.utf8Size := String.length_utf8EncodeChar c
      rw [encode_cons, shown]
      by_cases hfits : c.utf8Size ≤ room
      · obtain ⟨lead, tail, hbytes, hnext⟩ :=
          next_encodeChar c ((encode cs).take (room - c.utf8Size))
        rw [if_pos hfits, List.take_append, List.take_of_length_le (by omega), hlength, ← ih, hbytes,
          List.cons_append, decodeLossy_of_character hnext]
      · obtain ⟨lead, tail, hbytes, hnext⟩ := next_encodeChar c []
        rw [List.append_nil] at hnext
        rw [hbytes, List.length_cons] at hlength
        rw [if_neg hfits, hbytes]
        cases room with
        | zero => simp [decodeLossy]
        | succ k =>
            have hcut : next lead (tail.take k) = .cut := by
              refine next_take hnext ?_
              rw [List.length_nil]
              omega
            rw [List.cons_append, List.take_succ_cons, List.take_append_of_le_length (by omega),
              decodeLossy_of_cut hcut, if_neg (Nat.succ_ne_zero k)]

end Mailshot.Text.Utf8

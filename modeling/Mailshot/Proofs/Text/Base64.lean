import Mailshot.Proofs.Text.Utf8
import Mailshot.Text.Base64

/-!
# Bytes read back from base64

Three bytes are four symbols, and the last one or two bytes are padded to four, so a spelling is
nothing but quads.  All quads but the last are read symbol by symbol, and the last by a reader of its
own, which finds the padding where the spelling puts it and no bits left over.  Nothing else gets past
the two readers, so bytes have one spelling only.

* `Base64.utf8_encode_one`, `utf8_encode_two`, `utf8_encode_three`: the quads of a spelling;
* `Base64.mem_encode`: every character of a spelling is a symbol or the padding;
* `Base64.decode_encode`: bytes are read back from their spelling;
* `Base64.decode_eq_ok_iff`: a text is read as bytes exactly if it is their spelling.
-/

namespace Mailshot.Text.Base64

/-- The byte of the symbol for a six-bit value. -/
def symbolByte (v : Nat) : UInt8 :=
  UInt8.ofNat (symbol v).toNat

theorem symbol_ascii : ∀ v < 64, (symbol v).toNat < 0x80 := by decide

theorem value?_symbolByte : ∀ v < 64, value? (symbolByte v) = some v := by decide

/-- Padding is no symbol. -/
theorem symbolByte_ne_pad {v : Nat} (hv : v < 64) : symbolByte v ≠ pad := by
  intro h
  have hvalue := value?_symbolByte v hv
  rw [h] at hvalue
  cases hvalue

theorem utf8_symbol {v : Nat} (hv : v < 64) (cs : List Char) :
    Utf8.encode (symbol v :: cs) = symbolByte v :: Utf8.encode cs :=
  Utf8.encode_cons_ascii (symbol_ascii v hv) cs

theorem utf8_pad (cs : List Char) : Utf8.encode ('=' :: cs) = pad :: Utf8.encode cs :=
  Utf8.encode_cons_ascii (by decide) cs

/-! ### Quads -/

/-- A last byte: two symbols, the second with four bits that are zero. -/
theorem utf8_encode_one (a : UInt8) :
    Utf8.encode (encode [a]) =
      [symbolByte (a.toNat / 4), symbolByte (a.toNat % 4 * 16), pad, pad] := by
  have ha : a.toNat < 256 := a.toNat_lt
  rw [encode, utf8_symbol (by omega), utf8_symbol (by omega), utf8_pad, utf8_pad]
  rfl

/-- Two last bytes: three symbols, the third with two bits that are zero. -/
theorem utf8_encode_two (a b : UInt8) :
    Utf8.encode (encode [a, b]) =
      [symbolByte (a.toNat / 4), symbolByte (a.toNat % 4 * 16 + b.toNat / 16),
        symbolByte (b.toNat % 16 * 4), pad] := by
  have ha : a.toNat < 256 := a.toNat_lt
  have hb : b.toNat < 256 := b.toNat_lt
  rw [encode, utf8_symbol (by omega), utf8_symbol (by omega), utf8_symbol (by omega), utf8_pad]
  rfl

/-- Three bytes: four symbols. -/
theorem utf8_encode_three (a b c : UInt8) (rest : List UInt8) :
    Utf8.encode (encode (a :: b :: c :: rest)) =
      symbolByte (a.toNat / 4) :: symbolByte (a.toNat % 4 * 16 + b.toNat / 16)
        :: symbolByte (b.toNat % 16 * 4 + c.toNat / 64) :: symbolByte (c.toNat % 64)
        :: Utf8.encode (encode rest) := by
  have ha : a.toNat < 256 := a.toNat_lt
  have hb : b.toNat < 256 := b.toNat_lt
  have hc : c.toNat < 256 := c.toNat_lt
  rw [encode, utf8_symbol (by omega), utf8_symbol (by omega), utf8_symbol (by omega),
    utf8_symbol (by omega)]

/-- Every character of a spelling is a symbol or the padding. -/
theorem mem_encode {bytes : List UInt8} {c : Char} (h : c ∈ encode bytes) :
    (∃ v < 64, c = symbol v) ∨ c = '=' := by
  induction bytes using encode.induct with
  | case1 => simp [encode] at h
  | case2 a =>
      have ha : a.toNat < 256 := a.toNat_lt
      simp only [encode, List.mem_cons, List.not_mem_nil, or_false] at h
      rcases h with rfl | rfl | rfl | rfl
      · exact Or.inl ⟨_, by omega, rfl⟩
      · exact Or.inl ⟨_, by omega, rfl⟩
      · exact Or.inr rfl
      · exact Or.inr rfl
  | case3 a b =>
      have ha : a.toNat < 256 := a.toNat_lt
      have hb : b.toNat < 256 := b.toNat_lt
      simp only [encode, List.mem_cons, List.not_mem_nil, or_false] at h
      rcases h with rfl | rfl | rfl | rfl
      · exact Or.inl ⟨_, by omega, rfl⟩
      · exact Or.inl ⟨_, by omega, rfl⟩
      · exact Or.inl ⟨_, by omega, rfl⟩
      · exact Or.inr rfl
  | case4 a b c' rest ih =>
      have ha : a.toNat < 256 := a.toNat_lt
      have hb : b.toNat < 256 := b.toNat_lt
      have hc : c'.toNat < 256 := c'.toNat_lt
      simp only [encode, List.mem_cons] at h
      rcases h with rfl | rfl | rfl | rfl | h
      · exact Or.inl ⟨_, by omega, rfl⟩
      · exact Or.inl ⟨_, by omega, rfl⟩
      · exact Or.inl ⟨_, by omega, rfl⟩
      · exact Or.inl ⟨_, by omega, rfl⟩
      · exact ih h

/-- A spelling has no part of a quad left over. -/
theorem length_utf8_encode (bytes : List UInt8) :
    (Utf8.encode (encode bytes)).length % 4 = 0 := by
  induction bytes using encode.induct with
  | case1 => rfl
  | case2 a => simp [utf8_encode_one]
  | case3 a b => simp [utf8_encode_two]
  | case4 a b c rest ih =>
      rw [utf8_encode_three]
      simp only [List.length_cons]
      omega

/-! ### Reading -/

theorem symbolAt_symbolByte {v : Nat} (hv : v < 64) (offset : Nat) :
    symbolAt offset (symbolByte v) = .ok v := by
  simp [symbolAt, value?_symbolByte v hv]

/-- A quad that more follows is read symbol by symbol. -/
theorem decodeQuads_quad {p q r s : Nat} (hp : p < 64) (hq : q < 64) (hr : r < 64) (hs : s < 64)
    (start : Nat) {more : List UInt8} (hmore : more ≠ []) :
    decodeQuads start (symbolByte p :: symbolByte q :: symbolByte r :: symbolByte s :: more) =
      (decodeQuads (start + 4) more).map fun bytes =>
        UInt8.ofNat (p * 4 + q / 16) :: UInt8.ofNat (q % 16 * 16 + r / 4)
          :: UInt8.ofNat (r % 4 * 64 + s) :: bytes := by
  obtain ⟨e, rest, rfl⟩ := List.exists_cons_of_ne_nil hmore
  rw [decodeQuads, symbolAt_symbolByte hp, symbolAt_symbolByte hq, symbolAt_symbolByte hr,
    symbolAt_symbolByte hs]
  cases decodeQuads (start + 4) (e :: rest) <;> rfl

/-- A symbol in the last quad is noted with its value, as long as no padding came before it. -/
theorem scanTail_symbolByte {v : Nat} (hv : v < 64) (start place : Nat) {t : Tail}
    (hpads : t.pads = 0) (bytes : List UInt8) :
    scanTail start place t (symbolByte v :: bytes) =
      scanTail start (place + 1) { t with symbols := t.symbols ++ [(symbolByte v, v)] } bytes := by
  rw [scanTail, if_neg (symbolByte_ne_pad hv), if_neg (by omega), value?_symbolByte v hv]

theorem decodeLast_one {p q : Nat} (hp : p < 64) (hq : q < 64) (hrest : q % 16 = 0) (start : Nat) :
    decodeLast start [symbolByte p, symbolByte q, pad, pad] = .ok [UInt8.ofNat (p * 4 + q / 16)] := by
  rw [decodeLast, scanTail_symbolByte hp _ _ rfl, scanTail_symbolByte hq _ _ rfl]
  simp [scanTail, closeTail, hrest, bind, Except.bind]

theorem decodeLast_two {p q r : Nat} (hp : p < 64) (hq : q < 64) (hr : r < 64) (hrest : r % 4 = 0)
    (start : Nat) :
    decodeLast start [symbolByte p, symbolByte q, symbolByte r, pad] =
      .ok [UInt8.ofNat (p * 4 + q / 16), UInt8.ofNat (q % 16 * 16 + r / 4)] := by
  rw [decodeLast, scanTail_symbolByte hp _ _ rfl, scanTail_symbolByte hq _ _ rfl,
    scanTail_symbolByte hr _ _ rfl]
  simp [scanTail, closeTail, hrest, bind, Except.bind]

theorem decodeLast_three {p q r s : Nat} (hp : p < 64) (hq : q < 64) (hr : r < 64) (hs : s < 64)
    (start : Nat) :
    decodeLast start [symbolByte p, symbolByte q, symbolByte r, symbolByte s] =
      .ok [UInt8.ofNat (p * 4 + q / 16), UInt8.ofNat (q % 16 * 16 + r / 4),
        UInt8.ofNat (r % 4 * 64 + s)] := by
  rw [decodeLast, scanTail_symbolByte hp _ _ rfl, scanTail_symbolByte hq _ _ rfl,
    scanTail_symbolByte hr _ _ rfl, scanTail_symbolByte hs _ _ rfl]
  simp [scanTail, closeTail, bind, Except.bind]

/-- The first byte of a quad comes out of its first symbol and the high bits of its second. -/
theorem first_byte (a : UInt8) {n : Nat} (hn : n < 16) :
    UInt8.ofNat (a.toNat / 4 * 4 + (a.toNat % 4 * 16 + n) / 16) = a := by
  have hsum : a.toNat / 4 * 4 + (a.toNat % 4 * 16 + n) / 16 = a.toNat := by omega
  rw [hsum, UInt8.ofNat_toNat]

theorem second_byte (a b : UInt8) {n : Nat} (hn : n < 4) :
    UInt8.ofNat ((a.toNat % 4 * 16 + b.toNat / 16) % 16 * 16 + (b.toNat % 16 * 4 + n) / 4) = b := by
  have hb : b.toNat < 256 := b.toNat_lt
  have hsum : (a.toNat % 4 * 16 + b.toNat / 16) % 16 * 16 + (b.toNat % 16 * 4 + n) / 4 =
      b.toNat := by omega
  rw [hsum, UInt8.ofNat_toNat]

theorem third_byte (b c : UInt8) :
    UInt8.ofNat ((b.toNat % 16 * 4 + c.toNat / 64) % 4 * 64 + c.toNat % 64) = c := by
  have hc : c.toNat < 256 := c.toNat_lt
  have hsum : (b.toNat % 16 * 4 + c.toNat / 64) % 4 * 64 + c.toNat % 64 = c.toNat := by omega
  rw [hsum, UInt8.ofNat_toNat]

/-- A spelling is empty only for no bytes. -/
theorem utf8_encode_ne_nil (b : UInt8) (bytes : List UInt8) :
    Utf8.encode (encode (b :: bytes)) ≠ [] := by
  rcases bytes with _ | ⟨c, _ | ⟨d, rest⟩⟩
  · rw [utf8_encode_one]
    exact List.cons_ne_nil _ _
  · rw [utf8_encode_two]
    exact List.cons_ne_nil _ _
  · rw [utf8_encode_three]
    exact List.cons_ne_nil _ _

/-- Bytes are read back quad by quad, from wherever their spelling starts. -/
theorem decodeQuads_encode (start : Nat) (bytes : List UInt8) :
    decodeQuads start (Utf8.encode (encode bytes)) = .ok bytes := by
  induction bytes using encode.induct generalizing start with
  | case1 => rfl
  | case2 a =>
      have ha : a.toNat < 256 := a.toNat_lt
      have hfirst := first_byte a (show 0 < 16 by decide)
      rw [Nat.add_zero] at hfirst
      rw [utf8_encode_one]
      change decodeLast start _ = _
      rw [decodeLast_one (by omega) (by omega) (by omega), hfirst]
  | case3 a b =>
      have ha : a.toNat < 256 := a.toNat_lt
      have hb : b.toNat < 256 := b.toNat_lt
      have hsecond := second_byte a b (show 0 < 4 by decide)
      rw [Nat.add_zero] at hsecond
      rw [utf8_encode_two]
      change decodeLast start _ = _
      rw [decodeLast_two (by omega) (by omega) (by omega) (by omega), first_byte a (by omega), hsecond]
  | case4 a b c rest ih =>
      have ha : a.toNat < 256 := a.toNat_lt
      have hb : b.toNat < 256 := b.toNat_lt
      have hc : c.toNat < 256 := c.toNat_lt
      rw [utf8_encode_three]
      -- a full quad is the last one exactly if nothing follows the three bytes
      cases rest with
      | nil =>
          change decodeLast start _ = _
          rw [show Utf8.encode (encode []) = [] from rfl,
            decodeLast_three (by omega) (by omega) (by omega) (by omega), first_byte a (by omega),
            second_byte a b (by omega), third_byte b c]
      | cons d rest =>
          rw [decodeQuads_quad (by omega) (by omega) (by omega) (by omega) _
              (utf8_encode_ne_nil d rest), ih, first_byte a (by omega), second_byte a b (by omega),
            third_byte b c]
          rfl

/-- **Bytes are read back from their spelling.** -/
theorem decode_encode (bytes : List UInt8) : decode (Utf8.encode (encode bytes)) = .ok bytes := by
  rw [decode, strayEnd?, if_neg (by simp [length_utf8_encode])]
  exact decodeQuads_encode 0 bytes

/-! ### Nothing else is read -/

/-- What comes out well has come through the step it builds on. -/
theorem exists_of_bind {ε α β : Type} {x : Except ε α} {f : α → Except ε β} {b : β}
    (h : x >>= f = .ok b) : ∃ a, x = .ok a ∧ f a = .ok b := by
  cases x with
  | error => cases h
  | ok a => exact ⟨a, rfl, h⟩

/-- A byte with a value is the symbol for it. -/
theorem symbolByte_of_value? {b : UInt8} {v : Nat} (h : value? b = some v) :
    v < 64 ∧ symbolByte v = b := by
  have hall : ∀ n < 256, (value? (UInt8.ofNat n)).all
      (fun v => v < 64 && symbolByte v == UInt8.ofNat n) = true := by decide +kernel
  have hb := hall b.toNat b.toNat_lt
  rw [UInt8.ofNat_toNat, h] at hb
  simpa using hb

theorem symbolAt_eq_ok {offset : Nat} {b : UInt8} {v : Nat} (h : symbolAt offset b = .ok v) :
    v < 64 ∧ symbolByte v = b := by
  unfold symbolAt at h
  split at h
  · next hvalue =>
      cases h
      exact symbolByte_of_value? hvalue
  · cases h

/-- Four symbols spell the three bytes that they are read as. -/
theorem utf8_encode_quad {p q r s : Nat} (hp : p < 64) (hq : q < 64) (hr : r < 64) (hs : s < 64)
    (bytes : List UInt8) :
    Utf8.encode (encode (UInt8.ofNat (p * 4 + q / 16) :: UInt8.ofNat (q % 16 * 16 + r / 4) ::
      UInt8.ofNat (r % 4 * 64 + s) :: bytes)) =
      symbolByte p :: symbolByte q :: symbolByte r :: symbolByte s ::
        Utf8.encode (encode bytes) := by
  have hfirst : (p * 4 + q / 16) / 4 = p := by omega
  have hsecond : (p * 4 + q / 16) % 4 * 16 + (q % 16 * 16 + r / 4) / 16 = q := by omega
  have hthird : (q % 16 * 16 + r / 4) % 16 * 4 + (r % 4 * 64 + s) / 64 = r := by omega
  have hfourth : (r % 4 * 64 + s) % 64 = s := by omega
  rw [utf8_encode_three, Utf8.toNat_byte (by omega), Utf8.toNat_byte (by omega),
    Utf8.toNat_byte (by omega), hfirst, hsecond, hthird, hfourth]

/-- Three symbols spell two bytes, if no bits are left over. -/
theorem utf8_encode_triple {p q r : Nat} (hp : p < 64) (hq : q < 64) (hr : r < 64)
    (hrest : r % 4 = 0) :
    Utf8.encode (encode [UInt8.ofNat (p * 4 + q / 16), UInt8.ofNat (q % 16 * 16 + r / 4)]) =
      [symbolByte p, symbolByte q, symbolByte r, pad] := by
  have hfirst : (p * 4 + q / 16) / 4 = p := by omega
  have hsecond : (p * 4 + q / 16) % 4 * 16 + (q % 16 * 16 + r / 4) / 16 = q := by omega
  have hthird : (q % 16 * 16 + r / 4) % 16 * 4 = r := by omega
  rw [utf8_encode_two, Utf8.toNat_byte (by omega), Utf8.toNat_byte (by omega), hfirst, hsecond,
    hthird]

/-- Two symbols spell one byte, if no bits are left over. -/
theorem utf8_encode_pair {p q : Nat} (hp : p < 64) (hq : q < 64) (hrest : q % 16 = 0) :
    Utf8.encode (encode [UInt8.ofNat (p * 4 + q / 16)]) =
      [symbolByte p, symbolByte q, pad, pad] := by
  have hfirst : (p * 4 + q / 16) / 4 = p := by omega
  have hsecond : (p * 4 + q / 16) % 4 * 16 = q := by omega
  rw [utf8_encode_one, Utf8.toNat_byte (by omega), hfirst, hsecond]

/-- **The last quad**, once read, is symbols with their values, then padding. -/
theorem scanTail_eq_ok {start place : Nat} {t u : Tail} {bytes : List UInt8}
    (h : scanTail start place t bytes = .ok u) :
    ∃ (symbols : List (UInt8 × Nat)) (pads : Nat),
      u.symbols = t.symbols ++ symbols ∧ u.pads = t.pads + pads ∧
      bytes = symbols.map (·.1) ++ List.replicate pads pad ∧
      (∀ s ∈ symbols, value? s.1 = some s.2) ∧ (0 < t.pads → symbols = []) := by
  induction bytes generalizing place t with
  | nil =>
      obtain rfl := Except.ok.inj h
      exact ⟨[], 0, by simp, rfl, rfl, by simp, fun _ => rfl⟩
  | cons b bytes ih =>
      unfold scanTail at h
      split at h
      · next hpad =>
          split at h
          · cases h
          · obtain ⟨symbols, pads, hsymbols, hpads, rfl, hvalues, hnone⟩ := ih h
            obtain rfl := hnone (Nat.succ_pos _)
            refine ⟨[], pads + 1, hsymbols, ?_, ?_, by simp, fun _ => rfl⟩
            · rw [hpads]
              simp only
              omega
            · rw [hpad]
              rfl
      split at h
      · cases h
      · next hnopad =>
          split at h
          · cases h
          · next v hvalue =>
              obtain ⟨symbols, pads, hsymbols, hpads, rfl, hvalues, -⟩ := ih h
              refine ⟨(b, v) :: symbols, pads, ?_, hpads, rfl, ?_, fun hpos => absurd hpos hnopad⟩
              · rw [hsymbols, List.append_assoc]
                rfl
              · exact List.forall_mem_cons.mpr ⟨hvalue, hvalues⟩

/-- Symbols that are closed to bytes spell these bytes, with the padding that makes them a quad. -/
theorem eq_of_closeTail {start : Nat} {symbols : List (UInt8 × Nat)} {out : List UInt8}
    (hvalues : ∀ s ∈ symbols, value? s.1 = some s.2) (h : closeTail start symbols = .ok out) :
    symbols.map (·.1) ++ List.replicate (4 - symbols.length) pad = Utf8.encode (encode out) := by
  unfold closeTail at h
  split at h
  · next x p y q =>
      split at h
      · cases h
      · next hrest =>
          obtain rfl := Except.ok.inj h
          obtain ⟨hp, hx⟩ := symbolByte_of_value? (hvalues (x, p) (by simp))
          obtain ⟨hq, hy⟩ := symbolByte_of_value? (hvalues (y, q) (by simp))
          rw [utf8_encode_pair hp hq (Decidable.not_not.mp hrest), hx, hy]
          rfl
  · next x p y q z r =>
      split at h
      · cases h
      · next hrest =>
          obtain rfl := Except.ok.inj h
          obtain ⟨hp, hx⟩ := symbolByte_of_value? (hvalues (x, p) (by simp))
          obtain ⟨hq, hy⟩ := symbolByte_of_value? (hvalues (y, q) (by simp))
          obtain ⟨hr, hz⟩ := symbolByte_of_value? (hvalues (z, r) (by simp))
          rw [utf8_encode_triple hp hq hr (Decidable.not_not.mp hrest), hx, hy, hz]
          rfl
  · next x p y q z r w s =>
      obtain rfl := Except.ok.inj h
      obtain ⟨hp, hx⟩ := symbolByte_of_value? (hvalues (x, p) (by simp))
      obtain ⟨hq, hy⟩ := symbolByte_of_value? (hvalues (y, q) (by simp))
      obtain ⟨hr, hz⟩ := symbolByte_of_value? (hvalues (z, r) (by simp))
      obtain ⟨hs, hw⟩ := symbolByte_of_value? (hvalues (w, s) (by simp))
      rw [utf8_encode_quad hp hq hr hs, hx, hy, hz, hw]
      rfl
  · cases h

/-- The last quad spells the bytes that it is read as. -/
theorem eq_of_decodeLast {start : Nat} {last out : List UInt8} (hlength : last.length ≤ 4)
    (h : decodeLast start last = .ok out) : last = Utf8.encode (encode out) := by
  unfold decodeLast at h
  obtain ⟨u, hscan, h⟩ := exists_of_bind h
  obtain ⟨symbols, pads, hsymbols, hpads, hlast, hvalues, -⟩ := scanTail_eq_ok hscan
  obtain rfl : u.symbols = symbols := hsymbols
  obtain rfl : u.pads = pads := hpads.trans (Nat.zero_add _)
  split at h
  · cases h
  split at h
  · cases h
  · next hsome hfull =>
      have hfour : u.pads = 4 - u.symbols.length := by
        rw [hlast, List.length_append, List.length_map, List.length_replicate] at hlength
        omega
      rw [hlast, hfour]
      exact eq_of_closeTail hvalues h

/-- Quads spell the bytes that they are read as. -/
theorem eq_of_decodeQuads {start : Nat} {bytes out : List UInt8}
    (h : decodeQuads start bytes = .ok out) : bytes = Utf8.encode (encode out) := by
  induction start, bytes using decodeQuads.induct generalizing out with
  | case1 start a b c d e rest ih =>
      rw [decodeQuads] at h
      obtain ⟨p, hreadp, h⟩ := exists_of_bind h
      obtain ⟨q, hreadq, h⟩ := exists_of_bind h
      obtain ⟨r, hreadr, h⟩ := exists_of_bind h
      obtain ⟨s, hreads, h⟩ := exists_of_bind h
      obtain ⟨more, hmore, h⟩ := exists_of_bind h
      obtain rfl := Except.ok.inj h
      obtain ⟨hp, rfl⟩ := symbolAt_eq_ok hreadp
      obtain ⟨hq, rfl⟩ := symbolAt_eq_ok hreadq
      obtain ⟨hr, rfl⟩ := symbolAt_eq_ok hreadr
      obtain ⟨hs, rfl⟩ := symbolAt_eq_ok hreads
      rw [utf8_encode_quad hp hq hr hs, ih hmore]
  | case2 start =>
      obtain rfl := Except.ok.inj h
      rfl
  | case3 start last hlong hnil =>
      rcases last with _ | ⟨a, _ | ⟨b, _ | ⟨c, _ | ⟨d, _ | ⟨e, rest⟩⟩⟩⟩⟩
      · exact absurd rfl hnil
      · exact eq_of_decodeLast (by simp) h
      · exact eq_of_decodeLast (by simp) h
      · exact eq_of_decodeLast (by simp) h
      · exact eq_of_decodeLast (by simp) h
      · exact absurd rfl (hlong a b c d e rest)

/-- **A text is read as bytes exactly if it is their spelling.** -/
theorem decode_eq_ok_iff {cs : List Char} {bytes : List UInt8} :
    decode (Utf8.encode cs) = .ok bytes ↔ cs = encode bytes := by
  constructor
  · intro h
    unfold decode at h
    split at h
    · cases h
    · exact Utf8.encode_injective (eq_of_decodeQuads h)
  · rintro rfl
    exact decode_encode bytes

end Mailshot.Text.Base64

import Mailshot.Content
import Mailshot.Proofs.Body

/-!
# What is read as a stored body

Reading goes through four stages, and each asks something of the bytes that the one before it left:
they are spelled in base64, they are text, every percent sign of theirs starts an escape, and what they
stand for is text.  A stored form is read exactly if all four hold, and otherwise the flaw is that of
the first which does not.

* `Body.Unescapes`: what escaped bytes stand for, byte by byte;
* `Body.unescapes_iff`: where every percent sign starts an escape, these are the bytes that reading
  goes on with;
* `Body.Reading`: what reading comes to, stage by stage;
* `Body.decode_stages`: the stored forms of each HTML and of each flaw.
-/

namespace Mailshot.Body

open Text

/-- Without the white space around it, the stored form is the padded spelling of the bytes. -/
def Spells (stored : String) (bytes : List UInt8) : Prop :=
  trim stored.toList = Base64.encode bytes

/-- The bytes are those of a text. -/
def IsText (bytes : List UInt8) : Prop :=
  ∃ cs, bytes = Utf8.encode cs

/-- What escaped bytes stand for: a plus sign for a space, a percent sign and two hexadecimal digits
for a byte, and every other byte for itself. -/
inductive Unescapes : List UInt8 → List UInt8 → Prop where
  | nil : Unescapes [] []
  | plus {rest out : List UInt8} (h : Unescapes rest out) : Unescapes (43 :: rest) (32 :: out)
  | escape {a b : UInt8} {p q : Nat} {rest out : List UInt8} (hp : Percent.digit? a = some p)
      (hq : Percent.digit? b = some q) (h : Unescapes rest out) :
      Unescapes (Percent.sign :: a :: b :: rest) (UInt8.ofNat (p * 16 + q) :: out)
  | plain {a : UInt8} {rest out : List UInt8} (hplus : a ≠ 43) (hsign : a ≠ Percent.sign)
      (h : Unescapes rest out) : Unescapes (a :: rest) (a :: out)

/-! ### Escaped bytes -/

theorem plusToSpace_of_ne {a : UInt8} (h : a ≠ 43) : plusToSpace a = a :=
  if_neg h

/-- A space is no percent sign, so no escape comes of a plus sign. -/
theorem unescape_cons_of_ne {a : UInt8} (h : a ≠ Percent.sign) (rest : List UInt8) :
    unescape (a :: rest) = plusToSpace a :: unescape rest := by
  refine Percent.decode_cons_of_ne ?_ _
  unfold plusToSpace
  split
  · decide
  · exact h

/-- The digits of an escape are no plus signs. -/
theorem unescape_escape {a b c : UInt8} (h : Percent.byteOf? a b = some c) (rest : List UInt8) :
    unescape (Percent.sign :: a :: b :: rest) = c :: unescape rest := by
  obtain ⟨p, q, hp, hq, -⟩ := Percent.byteOf?_eq_some_iff.mp h
  have ha : plusToSpace a = a := plusToSpace_of_ne fun hplus => by simp [hplus, Percent.digit?] at hp
  have hb : plusToSpace b = b := plusToSpace_of_ne fun hplus => by simp [hplus, Percent.digit?] at hq
  rw [unescape, List.map_cons, List.map_cons, List.map_cons, ha, hb]
  exact Percent.decode_escape h _

theorem Unescapes.eq_unescape {bytes out : List UInt8} (h : Unescapes bytes out) :
    out = unescape bytes := by
  induction h with
  | nil => rfl
  | plus _ ih => rw [unescape_cons_of_ne (by decide), ← ih]; rfl
  | escape hp hq _ ih => rw [unescape_escape (Percent.byteOf?_eq_some_iff.mpr ⟨_, _, hp, hq, rfl⟩), ← ih]
  | plain hplus hsign _ ih => rw [unescape_cons_of_ne hsign, plusToSpace_of_ne hplus, ← ih]

theorem Unescapes.cons_of_ne {a : UInt8} (hsign : a ≠ Percent.sign) {rest : List UInt8}
    (h : Unescapes rest (unescape rest)) : Unescapes (a :: rest) (unescape (a :: rest)) := by
  rw [unescape_cons_of_ne hsign]
  by_cases hplus : a = 43
  · subst hplus
    exact h.plus
  · rw [plusToSpace_of_ne hplus]
    exact h.plain hplus hsign

/-- Where the check finds nothing, every byte stands for something. -/
theorem unescapes_of_badEscape? {bytes : List UInt8} (h : Percent.badEscape? bytes = none) :
    Unescapes bytes (unescape bytes) := by
  fun_induction Percent.badEscape? bytes with
  | case1 => exact .nil
  | case2 | case4 | case7 => cases h
  | case3 a hne => exact .cons_of_ne hne .nil
  | case5 a b hne ih | case8 a b c rest hne ih => exact .cons_of_ne hne (ih h)
  | case6 a b rest c hbyte ih =>
      obtain ⟨p, q, hp, hq, rfl⟩ := Percent.byteOf?_eq_some_iff.mp hbyte
      rw [unescape_escape hbyte]
      exact (ih h).escape hp hq

/-- **Escaped bytes stand for the bytes that reading goes on with**, and for no others. -/
theorem unescapes_iff {bytes out : List UInt8} (h : Percent.Escaped bytes) :
    Unescapes bytes out ↔ out = unescape bytes := by
  refine ⟨Unescapes.eq_unescape, ?_⟩
  rintro rfl
  exact unescapes_of_badEscape? (Percent.badEscape?_eq_none_iff.mpr h)

/-! ### Stages -/

/-- A percent sign is no part of another character, so the bytes from there on are text. -/
theorem exists_rest_of_strayAt {bytes : List UInt8} {i : Nat} (htext : IsText bytes)
    (hstray : Percent.StrayAt bytes i) : ∃ rest, bytes.drop i = Utf8.encode rest := by
  obtain ⟨cs, rfl⟩ := htext
  exact Utf8.exists_drop_encode hstray.1 (by decide)

/-- Bytes that are no text are not read. -/
theorem exists_flaw_of_not_isText {bytes : List UInt8} (h : ¬IsText bytes) :
    ∃ flaw, Utf8.decode bytes = .error flaw := by
  cases hread : Utf8.decode bytes with
  | error flaw => exact ⟨flaw, rfl⟩
  | ok cs => exact absurd ⟨cs, Utf8.decode_eq_ok_iff.mp hread⟩ h

section Spelled

variable {stored : String} {bytes : List UInt8}

theorem decode_of_not_spells (h : ¬∃ bytes, Spells stored bytes) :
    ∃ flaw, decode stored = .error (.base64 flaw) := by
  cases hread : Base64.decode (Utf8.encode (trim stored.toList)) with
  | error flaw =>
      refine ⟨flaw, ?_⟩
      rw [decode, hread]
      rfl
  | ok bytes => exact absurd ⟨bytes, Base64.decode_eq_ok_iff.mp hread⟩ h

/-- Past the first stage, the bytes are at hand. -/
theorem base64_of_spells (h : Spells stored bytes) :
    Base64.decode (Utf8.encode (trim stored.toList)) = .ok bytes :=
  Base64.decode_eq_ok_iff.mpr h

theorem decode_of_not_isText (h : Spells stored bytes) (htext : ¬IsText bytes) :
    ∃ flaw, decode stored = .error (.utf8 flaw) := by
  obtain ⟨flaw, hflaw⟩ := exists_flaw_of_not_isText htext
  refine ⟨flaw, ?_⟩
  rw [decode, base64_of_spells h]
  simp only [mapError_ok, bind, Except.bind, hflaw]
  rfl

theorem decode_of_firstStray (h : Spells stored bytes) (htext : IsText bytes) {i : Nat}
    (hfirst : Percent.FirstStray bytes i) :
    decode stored = .error (.escape ((bytes.drop i).take 3)) := by
  obtain ⟨cs, hcs⟩ := htext
  have hbad : Percent.badEscape? bytes = some ((bytes.drop i).take 3) :=
    Percent.badEscape?_eq_some_iff.mpr ⟨i, hfirst, rfl⟩
  rw [decode, base64_of_spells h]
  simp only [mapError_ok, bind, Except.bind, Utf8.decode_eq_ok_iff.mpr hcs, hbad]
  rfl

/-- Past the third stage, only the last one is left. -/
theorem decode_of_escaped (h : Spells stored bytes) (htext : IsText bytes)
    (hescaped : Percent.Escaped bytes) :
    decode stored =
      ((Utf8.decode (unescape bytes)).mapError .unescaped).map String.ofList := by
  obtain ⟨cs, hcs⟩ := htext
  rw [decode, base64_of_spells h]
  simp only [mapError_ok, bind, Except.bind, Utf8.decode_eq_ok_iff.mpr hcs,
    Percent.badEscape?_eq_none_iff.mpr hescaped]
  cases Utf8.decode (unescape bytes) <;> rfl

theorem decode_of_not_isText_unescape (h : Spells stored bytes) (htext : IsText bytes)
    (hescaped : Percent.Escaped bytes) (hnone : ¬IsText (unescape bytes)) :
    ∃ flaw, decode stored = .error (.unescaped flaw) := by
  obtain ⟨flaw, hflaw⟩ := exists_flaw_of_not_isText hnone
  refine ⟨flaw, ?_⟩
  rw [decode_of_escaped h htext hescaped, hflaw]
  rfl

theorem decode_of_unescape (h : Spells stored bytes) (htext : IsText bytes)
    (hescaped : Percent.Escaped bytes) {cs : List Char} (hcs : unescape bytes = Utf8.encode cs) :
    decode stored = .ok (String.ofList cs) := by
  rw [decode_of_escaped h htext hescaped, Utf8.decode_eq_ok_iff.mpr hcs]
  rfl

end Spelled

/-- What reading comes to: HTML, or a flaw of the first stage that asks too much. -/
inductive Reading (stored : String) : Except Flaw String → Prop where
  | base64 (flaw : Base64.Flaw) (h : ¬∃ bytes, Spells stored bytes) :
      Reading stored (.error (.base64 flaw))
  | utf8 (flaw : Utf8.Flaw) {bytes : List UInt8} (h : Spells stored bytes)
      (htext : ¬IsText bytes) : Reading stored (.error (.utf8 flaw))
  | escape {bytes : List UInt8} {i : Nat} (h : Spells stored bytes) (htext : IsText bytes)
      (hfirst : Percent.FirstStray bytes i) :
      Reading stored (.error (.escape ((bytes.drop i).take 3)))
  | unescaped (flaw : Utf8.Flaw) {bytes : List UInt8} (h : Spells stored bytes)
      (htext : IsText bytes) (hescaped : Percent.Escaped bytes)
      (hnone : ¬IsText (unescape bytes)) : Reading stored (.error (.unescaped flaw))
  | html {bytes : List UInt8} {cs : List Char} (h : Spells stored bytes) (htext : IsText bytes)
      (hescaped : Percent.Escaped bytes) (hcs : unescape bytes = Utf8.encode cs) :
      Reading stored (.ok (String.ofList cs))

/-- **Reading comes to what the stages ask for.** -/
theorem reading_decode (stored : String) : Reading stored (decode stored) := by
  by_cases hspells : ∃ bytes, Spells stored bytes
  · obtain ⟨bytes, h⟩ := hspells
    by_cases htext : IsText bytes
    · cases hbad : Percent.badEscape? bytes with
      | some bad =>
          obtain ⟨i, hfirst, -⟩ := Percent.badEscape?_eq_some_iff.mp hbad
          rw [decode_of_firstStray h htext hfirst]
          exact .escape h htext hfirst
      | none =>
          have hescaped := Percent.badEscape?_eq_none_iff.mp hbad
          by_cases hout : IsText (unescape bytes)
          · obtain ⟨cs, hcs⟩ := hout
            rw [decode_of_unescape h htext hescaped hcs]
            exact .html h htext hescaped hcs
          · obtain ⟨flaw, hflaw⟩ := decode_of_not_isText_unescape h htext hescaped hout
            rw [hflaw]
            exact .unescaped flaw h htext hescaped hout
    · obtain ⟨flaw, hflaw⟩ := decode_of_not_isText h htext
      rw [hflaw]
      exact .utf8 flaw h htext
  · obtain ⟨flaw, hflaw⟩ := decode_of_not_spells hspells
    rw [hflaw]
    exact .base64 flaw hspells

/-- The wording of a stray percent sign. -/
theorem message_escape (bad : List UInt8) : (Flaw.escape bad).message =
    "url unescape: invalid escape " ++ Quoted.quote (String.ofList (Utf8.decodeLossy bad)) := rfl

/-- **Which stored forms are read, and why the others are not.**  HTML is read exactly off the forms
that get through all four stages to its bytes.  Every other form is refused by the first stage that it
does not get through, and fails the template that it is the body of.  A stray percent sign is quoted
with what follows it, three bytes at most, and a mark stands for a character that is cut. -/
theorem decode_stages (stored : String) :
    (∀ html, decode stored = .ok html ↔
      ∃ bytes, Spells stored bytes ∧ IsText bytes ∧ Percent.Escaped bytes ∧
        Unescapes bytes (Utf8.encode html.toList)) ∧
    ((∃ flaw, decode stored = .error (.base64 flaw)) ↔ ¬∃ bytes, Spells stored bytes) ∧
    ((∃ flaw, decode stored = .error (.utf8 flaw)) ↔
      ∃ bytes, Spells stored bytes ∧ ¬IsText bytes) ∧
    (∀ bad, decode stored = .error (.escape bad) ↔
      ∃ bytes i rest, Spells stored bytes ∧ IsText bytes ∧ Percent.FirstStray bytes i ∧
        bytes.drop i = Utf8.encode rest ∧ bad = (Utf8.encode rest).take 3) ∧
    ((∃ flaw, decode stored = .error (.unescaped flaw)) ↔
      ∃ bytes out, Spells stored bytes ∧ IsText bytes ∧ Percent.Escaped bytes ∧
        Unescapes bytes out ∧ ¬IsText out) ∧
    (∀ rest, (Flaw.escape ((Utf8.encode rest).take 3)).message =
      "url unescape: invalid escape " ++ Quoted.quote (String.ofList (Utf8.shown 3 rest))) ∧
    ∀ id key tenant name, Content.ofReply id (.ok ⟨key, tenant, name, stored⟩) =
      .ofExcept ((decode stored).mapError fun flaw =>
        .contentDecode s!"email {id}: {flaw.message}") := by
  refine ⟨fun html => ⟨fun hhtml => ?_, ?_⟩, ⟨?_, decode_of_not_spells⟩, ⟨?_, ?_⟩,
    fun bad => ⟨fun hbad => ?_, ?_⟩, ⟨?_, ?_⟩, fun rest => ?_, fun id key tenant name => ?_⟩
  · cases hhtml ▸ reading_decode stored with
    | html h htext hescaped hcs =>
        refine ⟨_, h, htext, hescaped, (unescapes_iff hescaped).mpr ?_⟩
        rw [String.toList_ofList, hcs]
  · rintro ⟨bytes, h, htext, hescaped, hout⟩
    rw [decode_of_unescape h htext hescaped hout.eq_unescape.symm, String.ofList_toList]
  · rintro ⟨flaw, hflaw⟩
    cases hflaw ▸ reading_decode stored with
    | base64 _ hnone => exact hnone
  · rintro ⟨flaw, hflaw⟩
    cases hflaw ▸ reading_decode stored with
    | utf8 _ h htext => exact ⟨_, h, htext⟩
  · rintro ⟨bytes, h, htext⟩
    exact decode_of_not_isText h htext
  · cases hbad ▸ reading_decode stored with
    | escape h htext hfirst =>
        obtain ⟨rest, hrest⟩ := exists_rest_of_strayAt htext hfirst.stray
        exact ⟨_, _, rest, h, htext, hfirst, hrest, by rw [hrest]⟩
  · rintro ⟨bytes, i, rest, h, htext, hfirst, hrest, rfl⟩
    rw [← hrest]
    exact decode_of_firstStray h htext hfirst
  · rintro ⟨flaw, hflaw⟩
    cases hflaw ▸ reading_decode stored with
    | unescaped _ h htext hescaped hnone =>
        exact ⟨_, _, h, htext, hescaped, (unescapes_iff hescaped).mpr rfl, hnone⟩
  · rintro ⟨bytes, out, h, htext, hescaped, hout, hnone⟩
    rw [hout.eq_unescape] at hnone
    exact decode_of_not_isText_unescape h htext hescaped hnone
  · rw [message_escape, Utf8.decodeLossy_take]
  · rw [Content.ofReply]
    cases decode stored <;> rfl

/-- The euro sign after the stray percent sign is cut after the first of its three bytes. -/
example : decode " MTAwJXrigqw=\n" = .error (.escape [37, 122, 226]) := by cbv

end Mailshot.Body

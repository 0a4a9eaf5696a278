import Mailshot.Body
import Mailshot.Proofs.Text.Base64
import Mailshot.Proofs.Text.Percent

/-!
# Bodies read back

A stored body is base64 of percent escapes, so it holds no white space, and white space around it is
all that reading cuts off.  Each stage of reading undoes one stage of writing, and the two checks
between them find nothing: what writing escapes is ASCII, every percent sign starts an escape, and no
plus sign is left to be read as a space.

* `trim_between`: cutting off what is blank around text without blanks;
* `Body.decode_encode`: the HTML of a stored body is read back;
* `Body.decode_between_blanks`: also with white space around it, so no two bodies are stored alike.
-/

namespace Mailshot

namespace Text

/-- Text without blanks is left as it is at its start. -/
theorem dropWhile_isBlank {cs : List Char} (h : ∀ c ∈ cs, isBlank c = false) :
    cs.dropWhile isBlank = cs := by
  cases cs with
  | nil => rfl
  | cons c cs => rw [List.dropWhile_cons_of_neg (by simp [h c List.mem_cons_self])]

/-- **Blanks around text are cut off**, and nothing else where the text has none. -/
theorem trim_between {before cs after : List Char} (hbefore : ∀ c ∈ before, isBlank c = true)
    (hcs : ∀ c ∈ cs, isBlank c = false) (hafter : ∀ c ∈ after, isBlank c = true) :
    trim (before ++ cs ++ after) = cs := by
  have hstart : trimStart (before ++ cs ++ after) = trimStart (cs ++ after) := by
    rw [trimStart, List.append_assoc, List.dropWhile_append_of_pos hbefore, trimStart]
  have hend : trimEnd (cs ++ after) = cs := by
    have hreverse : ∀ c ∈ after.reverse, isBlank c = true := by simpa using hafter
    rw [trimEnd, List.reverse_append, List.dropWhile_append_of_pos hreverse,
      dropWhile_isBlank (by simpa using hcs), List.reverse_reverse]
  rw [trim, hstart]
  cases cs with
  | nil =>
      have hnone : (after ++ []).dropWhile isBlank = [] := List.dropWhile_append_of_pos hafter
      rw [List.append_nil] at hnone
      rw [List.nil_append, trimStart, hnone]
      rfl
  | cons c cs =>
      have hc : isBlank c = false := hcs c List.mem_cons_self
      rwa [trimStart, List.cons_append, List.dropWhile_cons_of_neg (by simp [hc])]

theorem isBlank_symbol : ∀ v < 64, isBlank (Base64.symbol v) = false := by decide

end Text

namespace Body

open Text

/-- The bytes between the two stages of writing: percent escapes. -/
def escaped (html : String) : List UInt8 :=
  Utf8.encode (Percent.encode (Utf8.encode html.toList))

theorem toList_encode (html : String) : (encode html).toList = Base64.encode (escaped html) := by
  rw [encode, String.toList_ofList, escaped]

/-- A stored body holds no white space. -/
theorem isBlank_of_mem_encode {html : String} : ∀ c ∈ (encode html).toList, isBlank c = false := by
  intro c hc
  rw [toList_encode] at hc
  rcases Base64.mem_encode hc with ⟨v, hv, rfl⟩ | rfl
  · exact isBlank_symbol v hv
  · rfl

/-- No escaped byte is a plus sign, so reading plus signs as spaces changes nothing. -/
theorem unescape_escaped (html : String) : unescape (escaped html) = Utf8.encode html.toList := by
  have hsame : (escaped html).map plusToSpace = escaped html := by
    refine (List.map_congr_left fun b hb => ?_).trans (List.map_id _)
    rw [plusToSpace, if_neg (Percent.ne_plus_of_mem_encode b hb), id]
  rw [unescape, hsame, escaped, Percent.decode_encode]

theorem mapError_ok {ε ε' α : Type} (f : ε → ε') (a : α) :
    (Except.ok a).mapError f = .ok a := rfl

/-- The HTML of a stored body is read back from any text that is the stored body between blanks. -/
theorem decode_of_trim {stored html : String}
    (h : trim stored.toList = (encode html).toList) : decode stored = .ok html := by
  have hutf8 : Utf8.decode (escaped html) = .ok (Percent.encode (Utf8.encode html.toList)) :=
    Utf8.decode_encode _
  have hsound : Percent.badEscape? (escaped html) = none := Percent.badEscape?_encode _
  have hhtml : Utf8.decode (unescape (escaped html)) = .ok html.toList := by
    rw [unescape_escaped, Utf8.decode_encode]
  rw [decode, h, toList_encode, Base64.decode_encode]
  simp only [mapError_ok, bind, Except.bind, hutf8, hsound, hhtml, String.ofList_toList]
  rfl

/-- **The HTML of a stored body is read back.** -/
theorem decode_encode (html : String) : decode (encode html) = .ok html := by
  have hnone : ∀ c ∈ ([] : List Char), isBlank c = true := by simp
  refine decode_of_trim ?_
  simpa using trim_between hnone isBlank_of_mem_encode hnone

/-- **Bodies are read back, with any white space around them**, so no two bodies are stored alike. -/
theorem decode_between_blanks :
    (∀ html before after : String, (∀ c ∈ before.toList, isBlank c = true) →
      (∀ c ∈ after.toList, isBlank c = true) →
      decode (before ++ encode html ++ after) = .ok html) ∧ Function.Injective encode := by
  refine ⟨fun html before after hbefore hafter => ?_, fun html other hsame => ?_⟩
  · refine decode_of_trim ?_
    rw [String.toList_append, String.toList_append]
    exact trim_between hbefore isBlank_of_mem_encode hafter
  · have hread : Except.ok html = Except.ok other :=
      (decode_encode html).symm.trans ((congrArg decode hsame).trans (decode_encode other))
    exact Except.ok.inj hread

/-- A body with all that could go wrong: percent and plus signs, blanks, and characters of one to four
bytes, between a line feed and an em space. -/
theorem decode_between_blanks_of_sale :
    (∀ c ∈ " \n".toList, isBlank c = true) ∧ (∀ c ∈ "\u2003".toList, isBlank c = true) ∧
      decode (" \n" ++ encode " 50% off + é€😀\n" ++ "\u2003") = .ok " 50% off + é€😀\n" := by
  have hbefore : ∀ c ∈ " \n".toList, isBlank c = true := List.all_eq_true.mp (by decide)
  have hafter : ∀ c ∈ "\u2003".toList, isBlank c = true := List.all_eq_true.mp (by decide)
  exact ⟨hbefore, hafter, decode_between_blanks.1 _ _ _ hbefore hafter⟩

end Body

end Mailshot

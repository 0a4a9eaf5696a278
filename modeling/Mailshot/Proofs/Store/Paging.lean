import Mailshot.Proofs.Text.Digit
import Mailshot.Proofs.Worker.Setback
import Mailshot.Store.Basic

/-!
# Paging through a stored segment

The store hands out cursors that spell the offset of the next member, and takes them back for what
they spell.  So pages of one size follow one another without a gap, and the cursor runs out when the
last member has come.

* `Number.Decimal.natTo_toDigits`: digits that a number is written with are read as that number;
* `Store.offset?_toString`: a cursor is read as the offset that it spells;
* `Pager.Within`: an audience on its way holds the members before its cursor;
* `Pager.Within.page`: the next page of the store leads on, or completes the audience.
-/

namespace Mailshot

namespace Number.Decimal

open Text (isDigit)

/-- The digits of a number are read as the number, if it is not too large. -/
theorem natTo_toDigits {high n : Nat} (h : n ≤ high) :
    natTo high (Nat.toDigits 10 n) = .ok n := by
  have hdigits : ∀ c ∈ Nat.toDigits 10 n, isDigit c = true := fun c =>
    Text.isDigit_of_mem_toDigits
  have hne : Nat.toDigits 10 n ≠ [] := Nat.toDigits_ne_nil
  have hplus : dropPlus (Nat.toDigits 10 n) = Nat.toDigits 10 n := by
    cases hds : Nat.toDigits 10 n with
    | nil => rfl
    | cons c rest =>
        have hc : c ≠ '+' := by
          rintro rfl
          exact absurd (hdigits '+' (by simp [hds])) (by decide)
        simp [dropPlus, hc]
  have hall : (Nat.toDigits 10 n).takeWhile isDigit = Nat.toDigits 10 n :=
    List.takeWhile_eq_self_iff.mpr hdigits
  simp [natTo, hplus, hall, hne, Text.ofDigits_toDigits, Nat.not_lt.mpr h]

end Number.Decimal

namespace Store

theorem toString_ne_empty (n : Nat) : toString n ≠ "" := by
  have hne : Nat.toDigits 10 n ≠ [] := Nat.toDigits_ne_nil
  intro h
  have hlist := congrArg String.toList h
  simp [Nat.repr_eq_ofList_toDigits, hne] at hlist

/-- **A cursor is read as the offset that it spells.** -/
theorem offset?_toString {n : Nat} (h : n ≤ Share.limit) : offset? (toString n) = some n := by
  have hdigits : (toString n).toList = Nat.toDigits 10 n := by
    simp [Nat.repr_eq_ofList_toDigits]
  rw [offset?, if_neg (toString_ne_empty n), hdigits, Number.Decimal.natTo_toDigits h]
  rfl

/-- A page from an offset within a segment ends `size` members later, or with the segment. -/
theorem pageFrom_eq {members : List String} {k size : Nat} (hmembers : members.length ≤ Share.limit)
    (hk : k ≤ members.length) (hsize : 0 < size) :
    pageFrom members k size =
      { recipients := (members.drop k).take size
        nextCursor := if k + size < members.length then toString (k + size) else "" } := by
  have hstop : min members.length (Share.add (min k members.length) (max size 1)) =
      min members.length (k + size) := by
    simp only [Share.add]
    omega
  have hpart : (members.drop k).take (min members.length (k + size) - k) =
      (members.drop k).take size := by
    rw [List.take_eq_take_iff, List.length_drop]
    omega
  rw [pageFrom, hstop, Nat.min_eq_left hk, hpart]
  by_cases hmore : k + size < members.length
  · simp [Nat.min_eq_right hmore.le, hmore]
  · simp [Nat.min_eq_left (Nat.not_lt.mp hmore), hmore]

end Store

namespace Pager

/-- **An audience on its way** through a stored segment: it holds the members before its cursor, and
there is one after them, unless no page was fetched yet. -/
structure Within (p : Pager) (members : List String) : Prop where
  offset : Store.offset? p.cursor = some (p.fetched * p.limit)
  audience : p.audience = members.take (p.fetched * p.limit)
  more : p.fetched = 0 ∨ p.fetched * p.limit < members.length

theorem Within.le {p : Pager} {members : List String} (h : p.Within members) :
    p.fetched * p.limit ≤ members.length := by
  rcases h.more with hnone | hmore
  · simp [hnone]
  · exact hmore.le

/-- Every page but the first was asked for because a member was left. -/
theorem Within.fetched_le {p : Pager} {members : List String} (h : p.Within members)
    (hlimit : 0 < p.limit) : p.fetched ≤ members.length :=
  (Nat.le_mul_of_pos_right _ hlimit).trans h.le

theorem within_start (segment : Uuid) (pageSize : Nat) (members : List String) :
    (start segment pageSize).Within members where
  offset := by simp [start, Store.offset?]
  audience := by simp [start]
  more := .inl rfl

/-- The store serves the next page. -/
theorem Within.served {p : Pager} {members : List String} (h : p.Within members) {s : Store}
    (hsegment : s.segments.get? p.segment = some members) (tenant : Tenant) :
    s.page (p.request tenant) = .ok (Store.pageFrom members (p.fetched * p.limit) p.limit) := by
  simp [Store.page, request, h.offset, hsegment]

/-- **The next page** leads on while members are left, and completes the audience when none is. -/
theorem Within.page {p : Pager} {members : List String} (h : p.Within members)
    (hmembers : members.length ≤ Share.limit) (hlimit : 0 < p.limit) {page : Page}
    (hpage : page = Store.pageFrom members (p.fetched * p.limit) p.limit) :
    (p.fetched + 1) * p.limit < members.length ∧ page.nextCursor ≠ "" ∧
        (p.next page).Within members ∨
      members.length ≤ (p.fetched + 1) * p.limit ∧ page.nextCursor = "" ∧
        p.audience ++ page.recipients = members := by
  rw [Store.pageFrom_eq hmembers h.le hlimit, ← Nat.add_one_mul] at hpage
  have hjoin : p.audience ++ page.recipients = members.take ((p.fetched + 1) * p.limit) := by
    rw [h.audience, hpage, Nat.add_one_mul, List.take_add]
  by_cases hmore : (p.fetched + 1) * p.limit < members.length
  · have hcursor : page.nextCursor = toString ((p.fetched + 1) * p.limit) := by
      simp only [hpage, if_pos hmore]
    refine .inl ⟨hmore, hcursor ▸ Store.toString_ne_empty _, ?_, hjoin, .inr hmore⟩
    show Store.offset? page.nextCursor = _
    rw [hcursor]
    exact Store.offset?_toString (hmore.le.trans hmembers)
  · refine .inr ⟨Nat.not_lt.mp hmore, by simp only [hpage, if_neg hmore], ?_⟩
    rw [hjoin, List.take_of_length_le (Nat.not_lt.mp hmore)]

end Pager

end Mailshot

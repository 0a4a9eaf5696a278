import Mathlib.Algebra.Order.Floor.Div
import Mailshot.Proofs.Count
import Mailshot.Proofs.Store.Paging
import Mailshot.Proofs.Store.Shelf

/-!
# The audience of a stored segment

Page by page, a stored segment is fetched from its first member to its last.  Each page starts where
the members before it end, for its cursor spells their number, and the cursor after it is empty only
when no member is left.  So there are as many pages as it takes, one for a segment without members, and
fetching them ends although nothing but the cursors ends it.

* `Store.pageCount`, `Store.cursorAt`, `Store.pageAt`: the pages of a segment and their cursors;
* `Store.page_cursorAt`: the store serves each page at its cursor;
* `Pager.take_pageAt`: a page leads on to the next one, and the last page completes the audience;
* `Audience.resolve_stocked`: the audience of a stored segment, with all calls that are made for it.
-/

namespace Mailshot

namespace Store

/-- How many pages of `size` members it takes: one at least. -/
def pageCount (total size : Nat) : Nat :=
  max 1 (total ⌈/⌉ size)

/-- The cursor of page `k`, which is empty for the first one and after the last one. -/
def cursorAt (total size k : Nat) : String :=
  if k = 0 ∨ total ≤ k * size then "" else toString (k * size)

/-- Page `k` of a segment. -/
def pageAt (members : List String) (size k : Nat) : Page where
  recipients := (members.drop (k * size)).take size
  nextCursor := cursorAt members.length size (k + 1)

variable {members : List String} {size k : Nat}

/-- There is a next page exactly if a member is left for it. -/
theorem lt_pageCount {total : Nat} (hsize : 0 < size) :
    k < pageCount total size ↔ k = 0 ∨ k * size < total := by
  rw [pageCount, lt_max_iff, Nat.lt_one_iff, ← not_le (b := k), ceilDiv_le_iff_le_smul hsize,
    smul_eq_mul, not_le, Nat.mul_comm]

/-- No page but that of an empty segment is empty. -/
theorem pageCount_le (total : Nat) (hsize : 0 < size) : pageCount total size ≤ max 1 total := by
  refine max_le_max_left 1 ?_
  rw [ceilDiv_le_iff_le_smul hsize, smul_eq_mul]
  exact Nat.le_mul_of_pos_left total hsize

theorem cursorAt_eq_empty {total : Nat} : cursorAt total size k = "" ↔ k = 0 ∨ total ≤ k * size := by
  unfold cursorAt
  split
  · next h => exact iff_of_true rfl h
  · next h => exact iff_of_false (toString_ne_empty _) h

/-- **The cursor of a page is read as its place**: all members before it have been served. -/
theorem offset?_cursorAt (hsize : 0 < size) (hmembers : members.length ≤ Share.limit)
    (hk : k < pageCount members.length size) :
    offset? (cursorAt members.length size k) = some (k * size) := by
  by_cases hempty : k = 0
  · subst hempty
    simp [cursorAt, offset?]
  · have hlt : k * size < members.length := ((lt_pageCount hsize).mp hk).resolve_left hempty
    rw [cursorAt, if_neg (by omega)]
    exact offset?_toString (hlt.le.trans hmembers)

theorem mul_le_of_lt_pageCount (hsize : 0 < size) (hk : k < pageCount members.length size) :
    k * size ≤ members.length := by
  rcases (lt_pageCount hsize).mp hk with rfl | hlt
  · simp
  · exact hlt.le

/-- **The store serves each page at its cursor.** -/
theorem page_cursorAt {s : Store} {segment : Uuid} (hsegment : s.segments.get? segment = some members)
    (hsize : 0 < size) (hmembers : members.length ≤ Share.limit)
    (hk : k < pageCount members.length size) (tenant : Tenant) :
    s.page ⟨tenant, segment, cursorAt members.length size k, size⟩ = .ok (pageAt members size k) := by
  simp only [page, offset?_cursorAt hsize hmembers hk, hsegment]
  rw [pageFrom_eq hmembers (mul_le_of_lt_pageCount hsize hk) hsize, pageAt, cursorAt,
    Nat.add_one_mul]
  grind

/-- The pages up to one hold the members up to its end, in order. -/
theorem flatMap_pageAt (members : List String) (size k : Nat) :
    (List.range k).flatMap (fun j => (pageAt members size j).recipients) =
      members.take (k * size) := by
  induction k with
  | zero => simp
  | succ k ih =>
      rw [List.range_succ, List.flatMap_append, ih, List.flatMap_singleton, pageAt, Nat.add_one_mul,
        List.take_add]

end Store

namespace Pager

open Store (pageCount cursorAt pageAt)

variable {members : List String} {size k : Nat}

/-- An audience of which `k` pages have been fetched. -/
def reached (segment : Uuid) (members : List String) (size k : Nat) : Pager where
  segment
  limit := size
  fetched := k
  cursor := cursorAt members.length size k
  audience := members.take (k * size)

theorem start_eq_reached (segment : Uuid) (pageSize : Nat) (members : List String) :
    start segment pageSize = reached segment members (max pageSize 1) 0 := by
  simp [start, reached, cursorAt]

theorem join_pageAt (members : List String) (size k : Nat) :
    members.take (k * size) ++ (pageAt members size k).recipients = members.take ((k + 1) * size) := by
  rw [pageAt, Nat.add_one_mul, List.take_add]

/-- A page leads on to the next one, as long as there is one. -/
theorem take_pageAt (hsize : 0 < size) (segment : Uuid)
    (hk : k + 1 < pageCount members.length size) :
    (reached segment members size k).take (.ok (pageAt members size k)) =
      .more (reached segment members size (k + 1)) := by
  have hmore : (k + 1) * size < members.length :=
    ((Store.lt_pageCount hsize).mp hk).resolve_left (Nat.succ_ne_zero k)
  have hcursor : (pageAt members size k).nextCursor ≠ "" := by
    rw [pageAt, ne_eq, Store.cursorAt_eq_empty]
    omega
  simp only [take, if_neg hcursor, reached, join_pageAt]
  rfl

/-- **The last page completes the audience.** -/
theorem take_pageAt_last (hsize : 0 < size) (segment : Uuid)
    (hk : pageCount members.length size ≤ k + 1) :
    (reached segment members size k).take (.ok (pageAt members size k)) = .complete members := by
  have hall : members.length ≤ (k + 1) * size := by
    have hnone := mt (Store.lt_pageCount hsize).mpr (Nat.not_lt.mpr hk)
    omega
  have hcursor : (pageAt members size k).nextCursor = "" :=
    Store.cursorAt_eq_empty.mpr (.inr hall)
  simp only [take, if_pos hcursor, reached, join_pageAt, List.take_of_length_le hall]

end Pager

namespace Audience

open Store (pageCount cursorAt pageAt)

/-- The call for page `k` of a segment, and the page that it brings. -/
def pageCall (owner : Uuid) (tenant : Tenant) (segment : Uuid) (members : List String)
    (size k : Nat) : Call :=
  .page owner ⟨tenant, segment, cursorAt members.length size k, size⟩ (.ok (pageAt members size k))

variable {σ : Type} {w : World σ} {store : σ → Store} {segment : Uuid} {members : List String}
  {size : Nat}

/-- The store brings the next page, and the call is noted. -/
theorem page_recorded (hw : w.Stocked store) {s : σ}
    (hsegment : (store s).segments.get? segment = some members) (hsize : 0 < size)
    (hmembers : members.length ≤ Share.limit) (owner : Uuid) (tenant : Tenant) {k : Nat}
    (hk : k < pageCount members.length size) :
    ∃ t, store t = store s ∧ ∀ calls,
      w.recorded.page owner ((Pager.reached segment members size k).request tenant) ⟨s, calls⟩ =
        (.ok (pageAt members size k), ⟨t, pageCall owner tenant segment members size k :: calls⟩) := by
  rcases hcall : w.page owner ⟨tenant, segment, cursorAt members.length size k, size⟩ s
    with ⟨reply, t⟩
  have hanswer : w.Answers s (.page owner _ reply) t := hcall
  have hreply : reply = .ofExcept ((store s).page _) := hw.replies hanswer
  rw [Store.page_cursorAt hsegment hsize hmembers hk] at hreply
  subst hreply
  refine ⟨t, hw.aside hanswer rfl, fun calls => ?_⟩
  simp only [World.recorded, World.note, Pager.request, Pager.reached, hcall, pageCall]
  rfl

/-- **From any page on**, the pages that are left are fetched one after another, and the last one
completes the audience. -/
theorem resolveFrom_reached (hw : w.Stocked store)
    (hsize : 0 < size) (hmembers : members.length ≤ Share.limit) (owner : Uuid) (tenant : Tenant)
    {left k : Nat} (hleft : k + left + 1 = pageCount members.length size) {s : σ}
    (hsegment : (store s).segments.get? segment = some members) :
    ∃ t, store t = store s ∧ ∀ turns, left < turns → ∀ fetched calls,
      resolveFrom w.recorded owner tenant turns (.reached segment members size k)
          { pagesFetched := fetched } ⟨s, calls⟩ =
        (some (.ok members), { pagesFetched := fetched + (left + 1) },
          ⟨t, ((List.range' k (left + 1)).map
            (pageCall owner tenant segment members size)).reverse ++ calls⟩) := by
  induction left generalizing k s with
  | zero =>
      obtain ⟨u, hsame, hpage⟩ :=
        page_recorded hw hsegment hsize hmembers owner tenant (k := k) (by omega)
      have hend : pageCount members.length size ≤ k + 1 := by omega
      have hlast := Pager.take_pageAt_last hsize segment hend
      refine ⟨u, hsame, fun turns hturns fetched calls => ?_⟩
      obtain ⟨turns, rfl⟩ := Nat.exists_eq_add_of_lt hturns
      rw [Nat.zero_add, resolveFrom, hpage]
      simp only [hlast, Pager.tick, pagesFetched_add]
      rfl
  | succ left ih =>
      obtain ⟨u, hsame, hpage⟩ :=
        page_recorded hw hsegment hsize hmembers owner tenant (k := k) (by omega)
      have hmore : k + 1 < pageCount members.length size := by omega
      have hnext := Pager.take_pageAt hsize segment hmore
      obtain ⟨t, hrest, hresolve⟩ := ih (k := k + 1) (s := u) (by omega) (hsame ▸ hsegment)
      refine ⟨t, hrest.trans hsame, fun turns hturns fetched calls => ?_⟩
      obtain ⟨turns, rfl⟩ := Nat.exists_eq_add_of_lt hturns
      rw [resolveFrom, hpage]
      simp only [hnext, Pager.tick, pagesFetched_add]
      rw [hresolve _ (by omega), List.range'_succ (s := k), List.map_cons, List.reverse_cons,
        List.append_assoc]
      grind

/-- **The audience of a stored segment** is all its members, once each and in order, after as many
calls as there are pages, whatever the size of a page; a size of zero counts as one.  Any turns past
these are not taken, and no segment that a machine holds needs more than there are.  Every cursor that
the store hands out is read as the number of the members served before it, which has 64 bits as the
number of all members has, and it is empty exactly when all have been served. -/
theorem resolve_stocked (hw : w.Stocked store) {s : σ}
    (hsegment : (store s).segments.get? segment = some members)
    (hmembers : members.length ≤ Share.limit) (owner : Uuid) (tenant : Tenant) (pageSize : Nat) :
    let size := max pageSize 1
    let count := max 1 (members.length ⌈/⌉ size)
    (∃ t, store t = store s ∧
      let outcome : Option (Reply (List String)) × Counters × Recorded σ :=
        (some (.ok members), { pagesFetched := count },
          ⟨t, ((List.range count).map (pageCall owner tenant segment members size)).reverse⟩)
      (∀ turns, count ≤ turns →
        resolveFrom w.recorded owner tenant turns (.start segment pageSize) {} ⟨s, []⟩ = outcome) ∧
      (members.length ≤ turnLimit →
        resolve w.recorded owner tenant segment pageSize ⟨s, []⟩ = outcome)) ∧
    ∀ k < count,
      Store.offset? (cursorAt members.length size k) = some (k * size) ∧
      (List.range (k + 1)).flatMap (fun j => (pageAt members size j).recipients) =
        members.take ((k + 1) * size) ∧
      ((pageAt members size k).nextCursor = "" ↔ members.length ≤ (k + 1) * size) := by
  intro size count
  have hsize : 0 < size := lt_max_of_lt_right Nat.one_pos
  have hpos : 0 < count := lt_max_of_lt_left Nat.one_pos
  have hcount : count = pageCount members.length size := rfl
  have hstart : Pager.start segment pageSize = .reached segment members size 0 :=
    Pager.start_eq_reached segment pageSize members
  clear_value size count
  have hleft : 0 + (count - 1) + 1 = pageCount members.length size := by omega
  obtain ⟨t, hsame, hresolve⟩ := resolveFrom_reached hw hsize hmembers owner tenant hleft hsegment
  refine ⟨⟨t, hsame, ?_⟩, fun k hk => ?_⟩
  · intro outcome
    have hturns : ∀ turns, count ≤ turns →
        resolveFrom w.recorded owner tenant turns (.start segment pageSize) {} ⟨s, []⟩ = outcome := by
      intro turns hle
      have hrun := hresolve turns (by omega) 0 []
      rw [Nat.sub_add_cancel hpos, Nat.zero_add, List.append_nil, ← List.range_eq_range'] at hrun
      rw [hstart]
      exact hrun
    refine ⟨hturns, fun hlimit => hturns turnLimit ?_⟩
    have hle : count ≤ max 1 members.length := hcount ▸ Store.pageCount_le members.length hsize
    exact hle.trans (max_le (by decide) hlimit)
  · refine ⟨Store.offset?_cursorAt hsize hmembers (hcount ▸ hk), Store.flatMap_pageAt _ _ _, ?_⟩
    rw [pageAt, Store.cursorAt_eq_empty]
    omega

/-- Four members in pages of two: two calls, the second of which brings the empty cursor. -/
theorem resolve_stocked_of_four :
    let members := ["ann@example.com", "bob@example.com", "cleo@example.com", "dan@example.com"]
    let office : Office := { store := Store.empty.insertSegment (.ofNat 51) members }
    (office.store.segments.get? (.ofNat 51) = some members ∧ members.length ≤ Share.limit ∧
        members.length ≤ turnLimit) ∧
      ∃ t, t.store = office.store ∧
        resolve Office.world.recorded default default (.ofNat 51) 2 ⟨office, []⟩ =
          (some (.ok members), { pagesFetched := 2 },
            ⟨t, [.page default ⟨default, .ofNat 51, "2", 2⟩ (.ok ⟨members.drop 2, ""⟩),
              .page default ⟨default, .ofNat 51, "", 2⟩ (.ok ⟨members.take 2, "2"⟩)]⟩) := by
  intro members office
  have hsegment : office.store.segments.get? (.ofNat 51) = some members := by decide
  have hmembers : members.length ≤ Share.limit := by decide
  have hlimit : members.length ≤ turnLimit := by decide
  obtain ⟨⟨t, hsame, -, hresolve⟩, -⟩ :=
    resolve_stocked Office.stocked (s := office) hsegment hmembers default default 2
  have hcount : max 1 (members.length ⌈/⌉ max 2 1) = 2 := by
    simp [members, Nat.ceilDiv_eq_add_pred_div]
  have hcalls : (List.range 2).map (pageCall default default (.ofNat 51) members (max 2 1)) =
      [.page default ⟨default, .ofNat 51, "", 2⟩ (.ok ⟨members.take 2, "2"⟩),
        .page default ⟨default, .ofNat 51, "2", 2⟩ (.ok ⟨members.drop 2, ""⟩)] := by decide
  refine ⟨⟨hsegment, hmembers, hlimit⟩, t, hsame, ?_⟩
  rw [hresolve hlimit, hcount, hcalls]
  rfl

end Audience

end Mailshot

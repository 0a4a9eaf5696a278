import Mathlib.Data.List.Nodup
import Mailshot.Batch

/-!
# What is in the batches

Cutting a bucket into pieces loses nobody and names nobody twice.  A plan goes through the variants
in order, and only its very last call may close the campaign.

* `Batch.flatten_chunks`, `Batch.of_mem_chunks`, `Batch.length_chunks`: the pieces of a list;
* `Batch.mailsOf`: the mail for a bucket;
* `Batch.mail_plan`: the mail of a plan is that of its buckets, one after another;
* `Batch.recipients_of_variant`: the mail for a variant goes to its bucket;
* `Batch.letters_mailsOf`: told recipient by recipient, it does not depend on the size of the pieces;
* `Batch.plan_closing`: a call that closes the campaign is the last one;
* `Batch.getLast?_plan`: it does so exactly where somebody is left for the last variant.
-/

namespace Mailshot

/-- Mail told recipient by recipient: what each of them gets. -/
def Mail.letters (mail : Mail) : List Mail :=
  mail.recipients.map fun address => { mail with recipients := [address] }

namespace Batch

/-- The pieces of a list make up the list. -/
theorem flatten_chunks {α : Type} {size : Nat} (hsize : 0 < size) (xs : List α) :
    (chunks size xs).flatten = xs := by
  fun_induction chunks size xs with
  | case1 xs hstop =>
      rcases hstop with rfl | hzero
      · rfl
      · omega
  | case2 xs _ ih => rw [List.flatten_cons, ih, List.take_append_drop]

/-- Every piece has members, and no more than fit. -/
theorem of_mem_chunks {α : Type} {size : Nat} {xs piece : List α} (h : piece ∈ chunks size xs) :
    piece ≠ [] ∧ piece.length ≤ size := by
  fun_induction chunks size xs with
  | case1 => simp at h
  | case2 xs hgo ih =>
      obtain ⟨hxs, hsize⟩ := not_or.mp hgo
      rcases List.mem_cons.mp h with rfl | h
      · exact ⟨by simp [hxs, hsize], List.length_take_le size xs⟩
      · exact ih h

/-- **The number of pieces**: every piece but the last is full. -/
theorem length_chunks {α : Type} {size : Nat} (hsize : 0 < size) (xs : List α) :
    (chunks size xs).length = (xs.length + size - 1) / size := by
  fun_induction chunks size xs with
  | case1 xs hstop =>
      have hnil : xs = [] := hstop.resolve_right (by omega)
      rw [hnil, List.length_nil, List.length_nil, Nat.div_eq_of_lt (by omega)]
  | case2 xs hgo ih =>
      have hpos : 0 < xs.length := List.length_pos_iff.mpr (not_or.mp hgo).1
      rw [List.length_cons, ih, List.length_drop]
      rcases Nat.le_total xs.length size with hle | hle
      · rw [Nat.sub_eq_zero_of_le hle, Nat.div_eq_of_lt (by omega),
          Nat.div_eq_of_lt_le (k := 1) (by omega) (by omega)]
      · rw [← Nat.add_div_right _ hsize]
        congr 1
        omega

/-- The mail for a bucket: one call for each piece. -/
def mailsOf (size : Nat) (sender : String) (v : Variant) (html : String) (bucket : List String) :
    List Mail :=
  (chunks size bucket).map fun piece => ⟨v.id, sender, piece, v.subject, html⟩

/-- The recipients of mail, in order. -/
def recipients (mails : List Mail) : List String :=
  mails.flatMap (·.recipients)

/-- The mail for a bucket goes to the bucket. -/
theorem recipients_mailsOf {size : Nat} (hsize : 0 < size) (sender : String) (v : Variant)
    (html : String) (bucket : List String) :
    recipients (mailsOf size sender v html bucket) = bucket := by
  simp [recipients, mailsOf, List.flatMap_map, List.flatMap_id', flatten_chunks hsize]

/-- **Told recipient by recipient, the mail for a bucket does not depend on the size of the pieces.**
-/
theorem letters_mailsOf {size : Nat} (hsize : 0 < size) (sender : String) (v : Variant)
    (html : String) (bucket : List String) :
    (mailsOf size sender v html bucket).flatMap Mail.letters =
      bucket.map fun address => ⟨v.id, sender, [address], v.subject, html⟩ := by
  calc (mailsOf size sender v html bucket).flatMap Mail.letters
      = (chunks size bucket).flatMap fun piece =>
          piece.map fun address => ⟨v.id, sender, [address], v.subject, html⟩ := by
        rw [mailsOf, List.flatMap_map]
        rfl
    _ = (chunks size bucket).flatten.map fun address =>
          ⟨v.id, sender, [address], v.subject, html⟩ := by
        rw [List.map_flatten, List.flatMap_def]
    _ = bucket.map fun address => ⟨v.id, sender, [address], v.subject, html⟩ := by
        rw [flatten_chunks hsize]

/-- The mail for a bucket is for the variant of the bucket. -/
theorem filter_mailsOf (size : Nat) (sender : String) (v : Variant) (html : String)
    (bucket : List String) (id : Uuid) :
    (mailsOf size sender v html bucket).filter (·.variant = id) =
      if v.id = id then mailsOf size sender v html bucket else [] := by
  by_cases hid : v.id = id
  · rw [if_pos hid, List.filter_eq_self]
    simp [mailsOf, hid]
  · rw [if_neg hid, List.filter_eq_nil_iff]
    simp [mailsOf, hid]

/-- **The mail for a variant goes to its bucket**, where variants have different identifiers. -/
theorem recipients_of_variant {size : Nat} (hsize : 0 < size) (sender : String)
    {lots : List (Variant × String × List String)} (hids : (lots.map (·.1.id)).Nodup) {v : Variant}
    {html : String} {bucket : List String} (h : (v, html, bucket) ∈ lots) :
    recipients ((lots.flatMap fun (v, html, bucket) => mailsOf size sender v html bucket).filter
      (·.variant = v.id)) = bucket := by
  have hnone : ∀ others : List (Variant × String × List String),
      (∀ lot ∈ others, lot.1.id ≠ v.id) →
      (others.flatMap fun (v, html, bucket) => mailsOf size sender v html bucket).filter
        (·.variant = v.id) = [] := by
    intro others hothers
    rw [List.filter_flatMap, List.flatMap_eq_nil_iff]
    intro lot hlot
    rw [filter_mailsOf, if_neg (hothers lot hlot)]
  obtain ⟨before, after, rfl⟩ := List.append_of_mem h
  rw [List.map_append, List.map_cons, List.nodup_middle, List.nodup_cons, ← List.map_append] at hids
  have hothers : ∀ lot ∈ before ++ after, lot.1.id ≠ v.id := fun lot hlot hid =>
    hids.1 (List.mem_map.mpr ⟨lot, hlot, hid⟩)
  rw [List.flatMap_append, List.flatMap_cons, List.filter_append, List.filter_append,
    hnone before fun lot hlot => hothers lot (List.mem_append_left _ hlot),
    hnone after fun lot hlot => hothers lot (List.mem_append_right _ hlot),
    filter_mailsOf, if_pos rfl, List.nil_append, List.append_nil, recipients_mailsOf hsize]

/-- Mail that goes to somebody makes no more calls than there are recipients. -/
theorem length_le_recipients {mails : List Mail} (h : ∀ mail ∈ mails, mail.recipients ≠ []) :
    mails.length ≤ (recipients mails).length := by
  induction mails with
  | nil => exact Nat.zero_le _
  | cons mail rest ih =>
      obtain ⟨hmail, hrest⟩ := List.forall_mem_cons.mp h
      have hone := List.length_pos_iff.mpr hmail
      have hothers := ih hrest
      simp only [recipients, List.flatMap_cons, List.length_append, List.length_cons] at hothers ⊢
      omega

theorem mail_mailingsOf (sender : String) (v : Variant) (html : String) (last : Bool)
    (pieces : List (List String)) :
    (mailingsOf sender v html last pieces).map (·.mail) =
      pieces.map fun piece => ⟨v.id, sender, piece, v.subject, html⟩ := by
  fun_induction mailingsOf sender v html last pieces with
  | case1 => rfl
  | case2 piece => rfl
  | case3 piece rest _ ih => rw [List.map_cons, List.map_cons, ih]

/-- **The mail of a plan** is the mail for its buckets, one after another. -/
theorem mail_plan (size : Nat) (sender : String) (lots : List (Variant × String × List String)) :
    (plan size sender lots).map (·.mail) =
      lots.flatMap fun (v, html, bucket) => mailsOf size sender v html bucket := by
  fun_induction plan size sender lots with
  | case1 => rfl
  | case2 v html bucket => simp [mailings, mail_mailingsOf, mailsOf]
  | case3 v html bucket rest _ ih =>
      simp [mailings, mail_mailingsOf, mailsOf, ih]

/-- The calls for a bucket that is not the last one close nothing. -/
theorem closing_mailingsOf (sender : String) (v : Variant) (html : String)
    (pieces : List (List String)) :
    ∀ m ∈ mailingsOf sender v html false pieces, m.closing = false := by
  fun_induction mailingsOf sender v html false pieces with
  | case1 => simp
  | case2 => simp
  | case3 piece rest _ ih => simpa using ih

/-- A call that closes the campaign is the last one for its bucket. -/
theorem mailingsOf_closing {sender : String} {v : Variant} {html : String} {last : Bool}
    {pieces : List (List String)} {before after : List Mailing} {m : Mailing}
    (h : mailingsOf sender v html last pieces = before ++ m :: after) (hm : m.closing = true) :
    after = [] := by
  fun_induction mailingsOf sender v html last pieces generalizing before with
  | case1 => simp at h
  | case2 piece =>
      obtain ⟨-, hnil⟩ | ⟨-, hnil⟩ := List.singleton_eq_append_iff.mp h
      · exact (List.cons_eq_cons.mp hnil).2
      · cases hnil
  | case3 piece rest _ ih =>
      cases before with
      | nil =>
          obtain ⟨rfl, -⟩ := List.cons_eq_cons.mp h
          cases hm
      | cons first before => exact ih (List.cons_eq_cons.mp h).2

/-- **A call that closes the campaign is the last one** of the plan. -/
theorem plan_closing {size : Nat} {sender : String}
    {lots : List (Variant × String × List String)} {before after : List Mailing} {m : Mailing}
    (h : plan size sender lots = before ++ m :: after) (hm : m.closing = true) : after = [] := by
  fun_induction plan size sender lots generalizing before with
  | case1 => simp at h
  | case2 v html bucket => exact mailingsOf_closing h hm
  | case3 v html bucket rest _ ih =>
      obtain ⟨more, -, hrest⟩ | ⟨more, hbucket, hafter⟩ := List.append_eq_append_iff.mp h
      · exact ih hrest
      · cases more with
        | nil =>
            have hfirst : plan size sender rest = [] ++ m :: after := hafter.symm
            exact ih hfirst
        | cons first more =>
            obtain ⟨rfl, -⟩ := List.cons_eq_cons.mp hafter
            have hopen := closing_mailingsOf sender v html (chunks size bucket) m
              (by rw [mailings] at hbucket; simp [hbucket])
            rw [hopen] at hm
            cases hm

/-- The last call for a bucket closes the campaign if the bucket is its last one. -/
theorem getLast?_mailingsOf (sender : String) (v : Variant) (html : String) (last : Bool)
    (pieces : List (List String)) :
    (mailingsOf sender v html last pieces).getLast?.map (·.closing) =
      pieces.getLast?.map fun _ => last := by
  fun_induction mailingsOf sender v html last pieces with
  | case1 => rfl
  | case2 => rfl
  | case3 piece rest hmore ih =>
      have hrest : rest ≠ [] := fun hnil => hmore hnil
      rw [List.getLast?_cons_of_ne_nil hrest, ← ih, List.getLast?_cons_of_ne_nil]
      rw [← List.length_pos_iff, ← List.length_map (f := Mailing.mail), mail_mailingsOf]
      simpa using List.length_pos_iff.mpr hrest

/-- Is somebody left for the last variant? -/
def reachesLast (lots : List (Variant × String × List String)) : Bool :=
  lots.getLast?.any fun lot => lot.2.2 ≠ []

/-- A bucket is in pieces unless it is empty. -/
theorem chunks_eq_nil {α : Type} {size : Nat} (hsize : 0 < size) {xs : List α} :
    chunks size xs = [] ↔ xs = [] := by
  constructor
  · intro h
    rw [← flatten_chunks hsize xs, h, List.flatten_nil]
  · rintro rfl
    simp [chunks]

/-- **The last call of a plan closes the campaign exactly where somebody is left for the last variant.**
-/
theorem getLast?_plan {size : Nat} (hsize : 0 < size) (sender : String)
    (lots : List (Variant × String × List String)) :
    (plan size sender lots).getLast?.map (·.closing) =
      if lots.flatMap (·.2.2) = [] then none else some (reachesLast lots) := by
  fun_induction plan size sender lots with
  | case1 => rfl
  | case2 v html bucket =>
      rw [mailings, getLast?_mailingsOf]
      by_cases hbucket : bucket = []
      · simp [hbucket, chunks]
      · have hpieces := mt (chunks_eq_nil hsize).mp hbucket
        simp [hbucket, reachesLast, List.getLast?_eq_some_getLast hpieces]
  | case3 v html bucket rest hmore ih =>
      have hrest : rest ≠ [] := fun hnil => hmore hnil
      have hreaches : reachesLast ((v, html, bucket) :: rest) = reachesLast rest := by
        rw [reachesLast, reachesLast, List.getLast?_cons_of_ne_nil hrest]
      rw [List.getLast?_append, hreaches, List.flatMap_cons]
      by_cases hnone : rest.flatMap (·.2.2) = []
      · -- nobody is left after this bucket, so its own last call is the last one and closes nothing
        rw [if_pos hnone, Option.map_eq_none_iff] at ih
        have hlast : reachesLast rest = false := by
          rw [reachesLast, List.getLast?_eq_some_getLast hrest, Option.any_some]
          simpa using List.flatMap_eq_nil_iff.mp hnone _ (List.getLast_mem hrest)
        rw [ih, Option.none_or, mailings, getLast?_mailingsOf, hnone, List.append_nil, hlast]
        by_cases hbucket : bucket = []
        · simp [hbucket, chunks]
        · have hpieces := mt (chunks_eq_nil hsize).mp hbucket
          simp [hbucket, List.getLast?_eq_some_getLast hpieces]
      · rw [if_neg hnone] at ih
        obtain ⟨m, hm, hclosing⟩ := Option.map_eq_some_iff.mp ih
        rw [hm, Option.some_or, Option.map_some, hclosing, if_neg]
        exact fun hall => hnone (List.append_eq_nil_iff.mp hall).2

end Batch

end Mailshot

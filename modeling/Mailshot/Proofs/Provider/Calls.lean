import Mailshot.Proofs.Provider
import Mailshot.Proofs.Uuid

/-!
# Calls to the provider, one after another

Whether a call is taken depends on the number of its recipients and on nothing else, so refused calls
and taken ones may come in any order: each is answered as if it were alone, and the counts are what
the taken calls add up to.  On the wire each recipient has a personalization of its own, in which no
text occurs but its address and the identifier of the variant.

* `Provider.sendAll`: calls one after another;
* `Provider.refusal?_eq_some`, `Provider.send_refused`: what becomes of calls with nobody, or with too
  many;
* `Provider.counts_of_sendAll`: the counts after any calls;
* `Json.texts`, `Provider.personalizations`, `Provider.addressees`: what a payload shows, and to whom;
* `Provider.sendAll_counted`: all of it, from the first call on.
-/

namespace Mailshot

namespace Json

mutual

/-- The texts that occur in a value, in their order. -/
def texts : Json → List String
  | .text s => [s]
  | .list items => textsOfItems items
  | .object members => textsOfMembers members
  | _ => []

/-- The texts that occur in values. -/
def textsOfItems : List Json → List String
  | [] => []
  | v :: rest => texts v ++ textsOfItems rest

/-- The texts that occur in the values of members. -/
def textsOfMembers : List (String × Json) → List String
  | [] => []
  | (_, v) :: rest => texts v ++ textsOfMembers rest

end

/-- The items of a list that is a member of an object; of what else there is, none. -/
def itemsAt (key : String) (v : Json) : List Json :=
  match v.get? key with
  | some (.list items) => items
  | _ => []

end Json

namespace Provider

variable (p : Provider) (mail : Mail) (mails : List Mail)

/-- Calls one after another: how each came back, and the provider after the last one. -/
def sendAll (p : Provider) : List Mail → List (Except Fault Unit) × Provider
  | [] => ([], p)
  | mail :: rest =>
    let (reply, q) := p.send mail
    let (replies, r) := q.sendAll rest
    (reply :: replies, r)

/-- The recipients of the calls that were taken, of those that `counts` is about. -/
def recipientsTaken (counts : Mail → Bool) (mails : List Mail)
    (replies : List (Except Fault Unit)) : Nat :=
  (((mails.zip replies).filter fun made => made.2.isOk && counts made.1).map
    (·.1.recipients.length)).sum

/-! ### One call -/

/-- **Nobody is too few, and more than ten are too many**, and the provider says so. -/
theorem refusal?_eq_some {recipients : Nat} (h : ¬ (0 < recipients ∧ recipients ≤ batchCap)) :
    refusal? recipients = some (.send (if recipients = 0 then "no recipients"
      else s!"{recipients} recipients exceeds provider limit of {batchCap}")) := by
  unfold refusal?
  by_cases hnobody : recipients = 0
  · simp [hnobody]
  · have hmany : batchCap < recipients := by omega
    simp [hnobody, hmany]

theorem send_taken (h : 0 < mail.recipients.length ∧ mail.recipients.length ≤ batchCap) :
    p.send mail = (.ok (),
      { p with
        sent := p.sent.insert mail.variant (p.sentCount mail.variant + mail.recipients.length)
        requests := p.requests + 1 }) := by
  rw [send, refusal?_eq_none.mpr h]

/-- **A call that is refused leaves the provider as it was.** -/
theorem send_refused (h : ¬ (0 < mail.recipients.length ∧ mail.recipients.length ≤ batchCap)) :
    p.send mail = (.error (.send (if mail.recipients.length = 0 then "no recipients"
      else s!"{mail.recipients.length} recipients exceeds provider limit of {batchCap}")), p) := by
  rw [send, refusal?_eq_some h]

/-- A call is taken if it has one to ten recipients, whatever was taken before. -/
theorem send_eq_ok_iff :
    (p.send mail).1 = .ok () ↔ 0 < mail.recipients.length ∧ mail.recipients.length ≤ batchCap := by
  by_cases hfits : 0 < mail.recipients.length ∧ mail.recipients.length ≤ batchCap
  · simp [send_taken p mail hfits, hfits]
  · simp [send_refused p mail hfits, hfits]

/-! ### The counts -/

/-- A value that grows in its place makes the sum of all values grow as much. -/
theorem sum_put {κ : Type} [DecidableEq κ] (key : κ) (n : Nat) (entries : List (κ × Nat)) :
    ((Table.put key ((Table.find key entries).getD 0 + n) entries).map (·.2)).sum =
      (entries.map (·.2)).sum + n := by
  induction entries with
  | nil => simp [Table.put, Table.find]
  | cons entry rest ih =>
      obtain ⟨k, count⟩ := entry
      by_cases hk : k = key
      · simp only [Table.put, Table.find, hk, if_true, Option.getD_some, List.map_cons, List.sum_cons]
        omega
      · simp only [Table.put, Table.find, hk, if_false, List.map_cons, List.sum_cons, ih]
        omega

theorem total_eq_sum : p.total = p.sent.values.sum := by
  rw [total, List.sum_eq_foldl]

/-- The recipients taken by a list of calls, from those of the first one. -/
theorem recipientsTaken_cons (counts : Mail → Bool) (reply : Except Fault Unit)
    (replies : List (Except Fault Unit)) :
    recipientsTaken counts (mail :: mails) (reply :: replies) =
      (if reply.isOk && counts mail then mail.recipients.length else 0) +
        recipientsTaken counts mails replies := by
  simp only [recipientsTaken, List.zip_cons_cons, List.filter_cons]
  split <;> simp

/-- What one call adds to the counts. -/
theorem counts_of_send :
    (p.send mail).2.requests = p.requests + (if (p.send mail).1.isOk then 1 else 0) ∧
      (∀ id, (p.send mail).2.sentCount id = p.sentCount id +
        if (p.send mail).1.isOk && mail.variant = id then mail.recipients.length else 0) ∧
      (p.send mail).2.total = p.total +
        if (p.send mail).1.isOk then mail.recipients.length else 0 := by
  by_cases hfits : 0 < mail.recipients.length ∧ mail.recipients.length ≤ batchCap
  · rw [send_taken p mail hfits]
    refine ⟨by simp [Except.isOk, Except.toBool], fun id => ?_, ?_⟩
    · by_cases hid : mail.variant = id
      · simp [sentCount, Table.get?_insert, hid, Except.isOk, Except.toBool]
      · simp [sentCount, Table.get?_insert, hid]
    · rw [total_eq_sum, total_eq_sum]
      exact sum_put mail.variant mail.recipients.length p.sent.entries
  · rw [send_refused p mail hfits]
    simp [Except.isOk, Except.toBool]

/-- **The counts after any calls**: those before, and what the calls add that were taken. -/
theorem counts_of_sendAll :
    (p.sendAll mails).1.length = mails.length ∧
      (p.sendAll mails).2.requests = p.requests + (p.sendAll mails).1.countP (·.isOk) ∧
      (∀ id, (p.sendAll mails).2.sentCount id = p.sentCount id +
        recipientsTaken (·.variant = id) mails (p.sendAll mails).1) ∧
      (p.sendAll mails).2.total = p.total +
        recipientsTaken (fun _ => true) mails (p.sendAll mails).1 := by
  induction mails generalizing p with
  | nil => simp [sendAll, recipientsTaken]
  | cons mail rest ih =>
      obtain ⟨hlength, hrequests, hsent, htotal⟩ := ih (p.send mail).2
      obtain ⟨hone, hvariant, hsum⟩ := p.counts_of_send mail
      refine ⟨?_, ?_, fun id => ?_, ?_⟩
      · simp only [sendAll, List.length_cons, hlength]
      · simp only [sendAll, hrequests, hone, List.countP_cons]
        omega
      · simp only [sendAll, hsent, hvariant, recipientsTaken_cons, Nat.add_assoc]
      · simp only [sendAll, htotal, hsum, recipientsTaken_cons, Bool.and_true, Nat.add_assoc]

/-- A call among others comes back as it does from the provider after those before it. -/
theorem getElem?_sendAll (before after : List Mail) :
    (p.sendAll (before ++ mail :: after)).1[before.length]? =
      some ((p.sendAll before).2.send mail).1 := by
  induction before generalizing p with
  | nil => simp [sendAll]
  | cons first before ih => simpa [sendAll] using ih (p.send first).2

/-! ### The payload -/

/-- The personalizations of a payload. -/
def personalizations (payload : Json) : List Json := payload.itemsAt "personalizations"

/-- The addresses that a personalization is for. -/
def addressees (part : Json) : List String :=
  (part.itemsAt "to").filterMap fun entry => (entry.get? "email").bind Json.string?

/-- The variant that a personalization says it is of. -/
def variantOf? (part : Json) : Option Uuid :=
  ((part.get? "custom_args").bind (·.get? "campaign_email_id")).bind Uuid.ofJson?

theorem personalizations_payload (settings : EmailSettings) :
    personalizations (payload settings mail) =
      mail.recipients.map (personalization mail.variant) := rfl

theorem addressees_personalization (variant : Uuid) (address : String) :
    addressees (personalization variant address) = [address] := rfl

theorem variantOf?_personalization (variant : Uuid) (address : String) :
    variantOf? (personalization variant address) = some variant := by
  have hfound : (personalization variant address).get? "custom_args" =
      some (.object [("campaign_email_id", variant.toJson)]) := rfl
  have hid : (Json.object [("campaign_email_id", variant.toJson)]).get? "campaign_email_id" =
      some variant.toJson := rfl
  rw [variantOf?, hfound, Option.bind_some, hid, Option.bind_some, variant.ofJson?_toJson]

/-- A personalization shows nothing but its address and its variant. -/
theorem texts_personalization (variant : Uuid) (address : String) :
    (personalization variant address).texts = [address, variant.toString] := rfl

/-- **A payload names each recipient to itself alone.** -/
theorem payload_addressed (settings : EmailSettings) :
    let parts := personalizations (payload settings mail)
    parts.map addressees = mail.recipients.map ([·]) ∧
    parts.flatMap addressees = mail.recipients ∧
    (∀ part ∈ parts, variantOf? part = some mail.variant) ∧
    parts.map Json.texts = mail.recipients.map ([·, mail.variant.toString]) := by
  intro parts
  have hparts : parts = mail.recipients.map (personalization mail.variant) :=
    personalizations_payload mail settings
  have haddressees : parts.map addressees = mail.recipients.map ([·]) := by
    rw [hparts, List.map_map]
    exact List.map_congr_left fun address _ => addressees_personalization _ address
  refine ⟨haddressees, ?_, ?_, ?_⟩
  · rw [List.flatMap_def, haddressees, ← List.flatMap_def]
    exact List.flatMap_singleton' _
  · intro part hpart
    obtain ⟨address, -, rfl⟩ := List.mem_map.mp (hparts ▸ hpart)
    exact variantOf?_personalization _ address
  · rw [hparts, List.map_map]
    exact List.map_congr_left fun address _ => texts_personalization _ address

/-! ### From the first call on -/

/-- **Calls are taken or refused each by itself, and counted as they are taken.**  Whatever calls come
one after another to a new provider, each is taken exactly if it has one to ten recipients; else it is
refused as mail that cannot be sent, and the provider stays as it was.  In the end the provider has
counted the calls that were taken, and their recipients for each variant and in all.

In a payload each recipient has one personalization, in their order, for its address alone, with the
identifier of the variant.  No other text occurs in it, and it is the same whoever the others are, so
the recipients can be told from the payload, but not from the personalization of one of them. -/
theorem sendAll_counted (settings : EmailSettings) (mails : List Mail) :
    let start : Provider := { settings }
    let replies := (start.sendAll mails).1
    let finish := (start.sendAll mails).2
    replies.length = mails.length ∧
    (∀ before mail after, mails = before ++ mail :: after →
      let p := (start.sendAll before).2
      replies[before.length]? = some (p.send mail).1 ∧
      ((p.send mail).1 = .ok () ↔ 1 ≤ mail.recipients.length ∧ mail.recipients.length ≤ 10) ∧
      (¬ (1 ≤ mail.recipients.length ∧ mail.recipients.length ≤ 10) →
        (∃ text, (p.send mail).1 = .error (.send text)) ∧ (p.send mail).2 = p)) ∧
    finish.requests = replies.countP (·.isOk) ∧
    (∀ variant, finish.sentCount variant =
      recipientsTaken (·.variant = variant) mails replies) ∧
    finish.total = recipientsTaken (fun _ => true) mails replies ∧
    ∀ mail : Mail,
      let parts := personalizations (payload settings mail)
      parts.map addressees = mail.recipients.map ([·]) ∧
      parts.flatMap addressees = mail.recipients ∧
      (∀ part ∈ parts, variantOf? part = some mail.variant) ∧
      parts.map Json.texts = mail.recipients.map ([·, mail.variant.toString]) ∧
      ∀ (others : EmailSettings) (other : Mail) (k : Nat), other.variant = mail.variant →
        other.recipients[k]? = mail.recipients[k]? →
        (personalizations (payload others other))[k]? = parts[k]? := by
  intro start replies finish
  obtain ⟨hlength, hrequests, hsent, htotal⟩ := start.counts_of_sendAll mails
  refine ⟨hlength, ?_, ?_, fun variant => ?_, ?_, fun mail => ?_⟩
  · rintro before mail after rfl p
    refine ⟨start.getElem?_sendAll mail before after, p.send_eq_ok_iff mail, fun hunfit => ?_⟩
    rw [p.send_refused mail hunfit]
    exact ⟨⟨_, rfl⟩, rfl⟩
  · exact hrequests.trans (Nat.zero_add _)
  · exact (hsent variant).trans (Nat.zero_add _)
  · exact htotal.trans (Nat.zero_add _)
  · intro parts
    obtain ⟨halone, hall, hvariant, htexts⟩ := payload_addressed mail settings
    refine ⟨halone, hall, hvariant, htexts, fun others other k hsame hrecipient => ?_⟩
    simp only [parts, personalizations_payload, List.getElem?_map, hsame, hrecipient]

/-- Calls with one address twice, with eleven recipients, with nobody and with ten: the first and the
last are taken, and the second one leaves the provider as the first one left it. -/
theorem sendAll_counted_of_twins :
    let mail (count : Nat) : Mail :=
      { variant := .ofNat 7, sender := "news@acme.test",
        recipients := List.replicate count "ann@example.com", subject := "Sale", html := "<b>" }
    let calls := [mail 2] ++ mail 11 :: [mail 0, mail 10]
    let start : Provider := { settings := {} }
    let first := (start.sendAll [mail 2]).2
    let finish := (start.sendAll calls).2
    ¬ (1 ≤ (mail 11).recipients.length ∧ (mail 11).recipients.length ≤ 10) ∧
      (first.send (mail 11)).2 = first ∧ finish.requests = 2 ∧ finish.sentCount (.ofNat 7) = 12 ∧
      finish.sentCount (.ofNat 8) = 0 ∧ finish.total = 12 ∧
      (personalizations (payload {} (mail 2))).flatMap addressees =
        ["ann@example.com", "ann@example.com"] ∧
      (personalizations (payload { fromName := "Acme" } (mail 11)))[1]? =
        (personalizations (payload {} (mail 2)))[1]? := by
  intro mail calls start first finish
  obtain ⟨-, hcalls, hrequests, hsent, htotal, hpayload⟩ := sendAll_counted {} calls
  obtain ⟨-, hall, -, -, hothers⟩ := hpayload (mail 2)
  have hunfit : ¬ (1 ≤ (mail 11).recipients.length ∧ (mail 11).recipients.length ≤ 10) := by decide
  exact ⟨hunfit, ((hcalls [mail 2] (mail 11) [mail 0, mail 10] rfl).2.2 hunfit).2, hrequests,
    hsent _, hsent _, htotal, hall, hothers _ (mail 11) 1 rfl rfl⟩

end Provider

end Mailshot

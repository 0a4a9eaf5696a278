import Mailshot.Store.Basic

/-!
# Demonstration data

A store to try things out with: one tenant with a segment of shoppers, two templates, a campaign
that is due at once and one that is due in an hour.
-/

namespace Mailshot.Store

/-- A number with at least three digits. -/
def threeDigits (n : Nat) : String :=
  let ds := Nat.toDigits 10 n
  String.ofList (List.replicate (3 - ds.length) '0' ++ ds)

/-- The shoppers. -/
def shoppers : List String :=
  (List.range 137).map fun i => s!"shopper{threeDigits i}@example.com"

/-- The store at a second since the epoch, its campaigns made at two times.  The identifiers are
`fresh 0` for the tenant, then the segment, two templates, the first campaign with two variants, and
the second campaign with one. -/
def demo (fresh : Nat → Uuid) (first next : Instant) (second : Int) : Store :=
  let tenant := fresh 0
  let segment := fresh 1
  let welcome := fresh 2
  let reminder := fresh 3
  let sale : Draft :=
    ⟨tenant, "Spring Sale A/B", segment, second,
      [⟨welcome, "Spring is here", 70⟩, ⟨reminder, "Last chance for spring", 30⟩]⟩
  let followUp : Draft :=
    ⟨tenant, "Spring Sale Follow-up", segment, second + 3600,
      [⟨reminder, "Still thinking it over?", 100⟩]⟩
  Store.empty
    |>.insertTenant ⟨tenant, "Acme Retail", some "news@acme-retail.example"⟩
    |>.insertSegment segment shoppers
    |>.insertTemplate (.ofHtml welcome tenant "Spring welcome"
        "<html><body><h1>Spring is here</h1><p>Take 20% off today.</p></body></html>")
    |>.insertTemplate (.ofHtml reminder tenant "Spring reminder"
        "<html><body><h1>Last chance</h1><p>Your 20% off ends tonight.</p></body></html>")
    |>.insertCampaign (sale.campaign (fresh 4) [fresh 5, fresh 6] first)
    |>.insertCampaign (followUp.campaign (fresh 7) [fresh 8] next)

end Mailshot.Store

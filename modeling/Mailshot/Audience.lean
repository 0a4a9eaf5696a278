import Mailshot.World
import Mailshot.Counters

/-!
# Audiences

An audience comes in pages: each page names the cursor of the next, and an empty cursor ends it.
The first page that cannot be fetched ends it too, and nothing is kept of the pages before.

* `Pager.request`: the call to make next;
* `Pager.take`: what its reply means;
* `Audience.resolve`: all pages of a segment.
-/

namespace Mailshot

/-- More turns than any machine takes: the bound on loops that end when the world outside lets
them. -/
def turnLimit : Nat := 4611686018427387903

/-- An audience on its way: the pages fetched so far and where the next one starts. -/
structure Pager where
  segment : Uuid
  limit : Nat
  fetched : Nat := 0
  cursor : String := ""
  audience : List String := []
  deriving DecidableEq, Repr, Inhabited

/-- What a page makes of an audience on its way. -/
inductive Paging where
  | more (p : Pager)
  | complete (audience : List String)
  | failed (cause : Fault)
  | crashed (text : String)

namespace Pager

/-- Starts on a segment.  A page holds one member at least. -/
def start (segment : Uuid) (pageSize : Nat) : Pager :=
  { segment, limit := max pageSize 1 }

/-- The call for the next page. -/
def request (p : Pager) (tenant : Tenant) : PageRequest :=
  ⟨tenant, p.segment, p.cursor, p.limit⟩

/-- Why a page could not be fetched.  A fault of this very kind is not named twice. -/
def reason : Fault → String
  | .audienceResolution text => text
  | other => other.message

/-- The fault of the page that could not be fetched. -/
def fault (p : Pager) (cause : Fault) : Fault :=
  .audienceResolution s!"segment {p.segment} page {p.fetched}: {reason cause}"

/-- Takes the reply to the call for the next page. -/
def take (p : Pager) : Reply Page → Paging
  | .ok page =>
    let audience := p.audience ++ page.recipients
    if page.nextCursor = "" then .complete audience
    else .more { p with fetched := p.fetched + 1, cursor := page.nextCursor, audience }
  | .fault cause => .failed (p.fault cause)
  | .crash text => .crashed text

/-- A page that arrived counts. -/
def tick : Reply Page → Counters
  | .ok _ => { pagesFetched := 1 }
  | _ => {}

end Pager

namespace Audience

/-- Fetches pages until the audience ends, `fuel` pages at most. -/
def resolveFrom (w : World σ) (owner : Uuid) (tenant : Tenant) :
    Nat → Pager → Counters → σ → Option (Reply (List String)) × Counters × σ
  | 0, _, counters, s => (none, counters, s)
  | fuel + 1, p, counters, s =>
    let (reply, s) := w.page owner (p.request tenant) s
    let counters := counters + Pager.tick reply
    match p.take reply with
    | .more q => resolveFrom w owner tenant fuel q counters s
    | .complete audience => (some (.ok audience), counters, s)
    | .failed cause => (some (.fault cause), counters, s)
    | .crashed text => (some (.crash text), counters, s)

/-- The whole audience of a segment, in pages of `pageSize`; none where it never ends. -/
def resolve (w : World σ) (owner : Uuid) (tenant : Tenant) (segment : Uuid) (pageSize : Nat)
    (s : σ) : Option (Reply (List String)) × Counters × σ :=
  resolveFrom w owner tenant turnLimit (.start segment pageSize) {} s

end Audience

end Mailshot

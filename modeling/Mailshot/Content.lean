import Mailshot.World
import Mailshot.Body

/-!
# Content

The HTML of a template.  A template that cannot be fetched or whose stored body cannot be read ends
its campaign, so both faults name the template.

* `Content.ofReply`: what the reply to a call for a template means;
* `Content.resolve`: the HTML of one template.
-/

namespace Mailshot.Content

/-- The fault of a template that could not be fetched.  One of this very kind is kept as it is. -/
def fetchFault (id : Uuid) : Fault → Fault
  | .contentFetch text => .contentFetch text
  | other => .contentFetch s!"email {id}: {other.message}"

/-- The fault of a template whose body could not be read. -/
def decodeFault (id : Uuid) (flaw : Body.Flaw) : Fault :=
  .contentDecode s!"email {id}: {flaw.message}"

/-- The HTML that a reply brings. -/
def ofReply (id : Uuid) : Reply Template → Reply String
  | .ok template =>
    match Body.decode template.body with
    | .ok html => .ok html
    | .error flaw => .fault (decodeFault id flaw)
  | .fault cause => .fault (fetchFault id cause)
  | .crash text => .crash text

/-- The HTML of a tenant's template. -/
def resolve (w : World σ) (owner : Uuid) (tenant : Tenant) (id : Uuid) (s : σ) :
    Reply String × σ :=
  let (reply, s) := w.template owner tenant id s
  (ofReply id reply, s)

end Mailshot.Content

import Mailshot.Command.Session

/-!
# The page of counts

What a session has counted, shown to whoever asks for it over HTTP.  A count that is still zero is
not shown.

* `Session.page`: the counts, one after the other;
* `response`: a page as an answer over HTTP.
-/

namespace Mailshot.Command

/-- A name as it is shown, without points. -/
def shownName (name : String) : String :=
  name.map fun c => if c = '.' then '_' else c

/-- A count of some kind. -/
def shown (kind : String) (name : String) (n : Nat) : String :=
  let name := shownName name
  s!"# TYPE {name} {kind}\n{name} {n}\n\n"

/-- What the session has counted. -/
def Session.page (s : Session) : String :=
  let mail := ("sendgrid.emails_sent", s.office.provider.total)
  let counts := (mail :: s.counters.toList).filter fun (_, n) => n ≠ 0
  let due := s.due.toList.map (shown "gauge" "dispatch.campaigns_due")
  String.join (counts.map (fun (name, n) => shown "counter" name n) ++ due)

/-- A page as an answer over HTTP. -/
def response (page : String) : String :=
  "\r\n".intercalate
    ["HTTP/1.1 200 OK", "content-type: text/plain", s!"content-length: {page.utf8ByteSize}",
      "connection: close", "", page]

end Mailshot.Command

import Mailshot.Share

/-!
# Progress

Progress counts the recipients that a campaign handed over, whether or not the calls succeeded, in
percent of its audience.  It is computed in 64 bits, where products stop at the greatest count.

* `Progress.percent`: whole percents, rounded down, a hundred at most;
* `Progress.record`: the progress after one more batch.  The closing batch always completes it.
-/

namespace Mailshot

/-- How far a campaign has come. -/
structure Progress where
  segmentSize : Nat
  attempted : Nat := 0
  deriving DecidableEq, Repr, Inhabited

namespace Progress

/-- A product that stops at the greatest count of 64 bits. -/
def product (a b : Nat) : Nat := min Share.limit (a * b)

/-- Whole percents of the audience, none of an empty one. -/
def percent (attempted segmentSize : Nat) : Nat :=
  if segmentSize = 0 then 0 else min 100 (product attempted 100 / segmentSize)

/-- Counts a batch and gives the new progress in percent. -/
def record (p : Progress) (recipients : Nat) (closing : Bool) : Progress × Nat :=
  let q := { p with attempted := p.attempted + recipients }
  (q, if closing then 100 else percent q.attempted q.segmentSize)

end Progress

end Mailshot

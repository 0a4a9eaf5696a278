import Mailshot.Proofs.Feed.Chronicle
import Mailshot.Proofs.Keeping
import Mailshot.Proofs.Rehearsal

/-!
# A desk that is closed

Once the clerk has closed the desk, all that was brought is entered, and nothing else.  Each campaign
is where its own events lead, and each row that came of an entry was handed over once, at its time.

* `Feed.Chronicle.drained`: what came of everything that was brought.
-/

namespace Mailshot.Feed

variable {σ : Type} {w : World σ} {rows : List Campaign} {lists : List (List Event)}
  {capacity : Nat} {s : σ} {f g : Feed σ} {log : List Mark}

/-- Who let go has nothing left to bring. -/
theorem left_of_held (h : f.held = false) (i : Nat) : f.left i = [] := by
  unfold left
  cases hi : f.producers[i]? with
  | none => rfl
  | some next =>
      cases next with
      | none => rfl
      | some list => exact absurd (h.symm.trans (held_of_producer hi)) (by decide)

/-- At a closed desk no row is left to hand over. -/
theorem Kept.stored_eq (hk : Kept rows lists log g) (hclosed : g.desk.clerk = .closed) :
    (stored log).map (·.1) = Campaign.standings rows (entered log) := by
  have hhanded := hk.handed
  rw [hclosed, Clerk.row?_closed, Option.toList_none, List.append_nil, hk.ledger,
    Ledger.rowsEntered_replay] at hhanded
  exact hhanded

/-- The last row handed over for a campaign is where it stands. -/
theorem Kept.row?_of_last {id : Uuid} {row : Campaign} {reply : Reply Unit}
    (hk : Kept rows lists log g) (hclosed : g.desk.clerk = .closed)
    (hlast : ((stored log).filter (·.1.id = id)).getLast? = some (row, reply)) :
    g.desk.ledger.row? id = some row := by
  rw [hk.ledger, Ledger.row?_replay]
  apply Campaign.getLast?_standings
  rw [← hk.stored_eq hclosed, List.filter_map, List.getLast?_map]
  exact congrArg (Option.map (·.1)) hlast

/-- **Once the desk is closed**, all that was brought is entered: each event once, and those of each
producer in its order.  The ledger tells where every campaign stands after its own events.  Each event
whose campaign is known made for one call, with the row right after it, and nothing else did.  So the
world has the last row of a campaign that it took, and where it took the last one that it was handed,
this is the row of the ledger. -/
theorem Chronicle.drained (h : Chronicle w (opened rows lists capacity s) log g)
    (hclosed : g.desk.clerk = .closed) :
    ((brought log).map (·.2) = g.desk.ledger.events ∧
      (∀ i, ((brought log).filter (·.1 = i)).map (·.2) = lists[i]?.getD []) ∧
      g.desk.queue = [] ∧ g.held = false) ∧
    ((entered log).map (·.2) = g.desk.ledger.events ∧
      ∀ id, g.desk.ledger.row? id = Campaign.standing rows (entered log) id) ∧
    ((stored log).map (·.1) = Campaign.standings rows (entered log) ∧
      w.History s ((stored log).map fun p => .update p.1 p.2) g.world) ∧
    ∀ id row?, w.Keeps s id row? →
      row? g.world =
        (((stored log).filter fun p => p.1.id = id && p.2.isOk).getLast?.map (·.1)).or (row? s) ∧
      ∀ row, ((stored log).filter (·.1.id = id)).getLast? = some (row, .ok ()) →
        row? g.world = g.desk.ledger.row? id := by
  have hk := h.kept fun text hbroken => by
    rw [hclosed] at hbroken
    cases hbroken
  obtain ⟨hqueue, hheld⟩ := hk.closed hclosed
  have hevents : (entered log).map (·.2) = g.desk.ledger.events := by
    rw [hk.ledger, Ledger.events_replay]
  refine ⟨⟨?_, fun i => ?_, hqueue, hheld⟩, ⟨hevents, fun id => ?_⟩,
    ⟨hk.stored_eq hclosed, h.history⟩, fun id row? hkeeps => ?_⟩
  · rw [hk.queue, hqueue, List.append_nil, hevents]
  · rw [← hk.lists i, left_of_held hheld, List.append_nil]
  · rw [hk.ledger, Ledger.row?_replay]
  · refine ⟨hkeeps.row?_eq hk.returned h.history, fun row hlast => ?_⟩
    rw [hkeeps.row?_of_last hk.returned h.history hlast, hk.row?_of_last hclosed hlast]

end Mailshot.Feed

namespace Mailshot.Season

/-- What two producers bring: the one for summer, the other for storm and for hail. -/
def lists : List (List Event) :=
  [[.running summer.id 3, .progress summer.id 60, .progress summer.id 100],
    [.running hail.id 1, .failed storm.id "out of paper"]]

/-- Turn about: a producer and the clerk. -/
def feedTurns : List Feed.Turn :=
  (List.replicate 20
    [.producer 0, .clerk Sample.now, .producer 1, .clerk Sample.now]).flatten

/-- The feed of a desk for summer and storm, with no room but the least. -/
def fed : List Feed.Mark × Feed Rehearsal :=
  Feed.follow common.world feedTurns
    (Feed.opened [summer, storm] lists 0 { rows := [summer, storm] })

theorem fedChronicle :
    Feed.Chronicle common.world (Feed.opened [summer, storm] lists 0 { rows := [summer, storm] })
      fed.1 fed.2 :=
  Feed.chronicle_follow _ _ _

end Mailshot.Season

namespace Mailshot.Feed

/-- The second of three rows of summer was not stored, and the third one made up for it. -/
theorem Chronicle.drained_of_season :
    (stored Season.fed.1).map (·.1) =
        Campaign.standings [Season.summer, Season.storm] (entered Season.fed.1) ∧
      Season.fed.2.world.rows.find? (·.id = Season.summer.id) =
        Season.fed.2.desk.ledger.row? Season.summer.id := by
  have hclosed : Season.fed.2.desk.clerk = .closed := by decide +kernel
  have hkeeps : Season.common.world.Keeps { rows := [Season.summer, Season.storm] }
      Season.summer.id fun r => r.rows.find? (·.id = Season.summer.id) :=
    Script.keeps (by decide) (by decide)
  have hlast : ((stored Season.fed.1).filter (·.1.id = Season.summer.id)).getLast? =
      (Season.fed.2.desk.ledger.row? Season.summer.id).map fun row => (row, .ok ()) := by
    decide +kernel
  have hrow : (Season.fed.2.desk.ledger.row? Season.summer.id).isSome := by decide +kernel
  obtain ⟨row, hrow⟩ := Option.isSome_iff_exists.mp hrow
  rw [hrow, Option.map_some] at hlast
  obtain ⟨-, -, ⟨hstored, -⟩, hkept⟩ := Season.fedChronicle.drained hclosed
  exact ⟨hstored, (hkept _ _ hkeeps).2 row hlast⟩

end Mailshot.Feed

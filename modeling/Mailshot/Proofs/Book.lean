import Mailshot.Proofs.Run.Twin

/-!
# Storing rows never steers delivery

Whether a row is stored, is refused or breaks the clerk shows at the desk and in the rows, and nowhere
else.  A worker waits for room at the desk, and goes on whether its event is taken or dropped.  So
where workers are told what their calls and their own earlier calls settle, two runs over the same
campaigns make the same calls and have the same result, whatever becomes of rows in either.

* `Book`, `World.ByBook`: workers are answered by the book, whatever becomes of rows;
* `Run.placed`: the calls of a run, each with the place of the worker that makes it;
* `Run.Chronicle.says`: every call of a worker got the reply of its book;
* `Run.Chronicle.unsteered`: two runs deliver the same.
-/

namespace Mailshot

/-- What the worker of a campaign is told in reply to a call, after its calls so far. -/
structure Book where
  tenant (before : List Call) (id : Uuid) : Reply Tenant
  page (before : List Call) (request : PageRequest) : Reply Page
  template (before : List Call) (tenant : Tenant) (id : Uuid) : Reply Template
  send (before : List Call) (mail : Mail) : Reply Unit

/-- The call of a worker got the reply of its book.  Books say nothing of rows. -/
def Book.Says (book : Book) (before : List Call) : Call → Prop
  | .tenant _ id reply => reply = book.tenant before id
  | .page _ request reply => reply = book.page before request
  | .template _ tenant id reply => reply = book.template before tenant id
  | .send _ mail reply => reply = book.send before mail
  | .update .. => True

/-- The same question gets the same reply by the same book. -/
theorem Book.says_unique {book : Book} {before : List Call} {made made' : Call}
    (h : book.Says before made) (h' : book.Says before made') (hsame : made.SameQuestion made') :
    made = made' := by
  cases hsame with
  | tenant owner id reply reply' => exact congrArg (Call.tenant owner id) (h.trans h'.symm)
  | page owner request reply reply' => exact congrArg (Call.page owner request) (h.trans h'.symm)
  | template owner tenant id reply reply' =>
      exact congrArg (Call.template owner tenant id) (h.trans h'.symm)
  | send owner mail reply reply' => exact congrArg (Call.send owner mail) (h.trans h'.symm)

/-- A call with the place of the worker that makes it, or with none where a row is stored. -/
abbrev Placed := Option Nat × Call

namespace Placed

/-- No worker stores rows, and the worker at a place calls for the campaign that is due there. -/
def Fits (due : List Campaign) : Placed → Prop
  | (none, made) => made.isUpdate = true
  | (some i, made) => made.isUpdate = false ∧ ∃ c, due[i]? = some c ∧ made.owner = c.id

/-- The calls of the worker at a place. -/
def callsAt (i : Nat) (calls : List Placed) : List Call :=
  calls.filterMap fun p => if p.1 = some i then some p.2 else none

end Placed

/-- **The world answers by the book.**  From some state on, in whatever order calls come and whatever
becomes of rows, a worker gets the reply that the book of its place has for the call after the
earlier calls of that worker. -/
def World.ByBook {σ : Type} (w : World σ) (s : σ) (due : List Campaign) (books : Nat → Book) : Prop :=
  ∀ {calls : List Placed} {i : Nat} {made : Call} {t u : σ}, (∀ p ∈ calls, Placed.Fits due p) →
    w.History s (calls.map (·.2)) t → Placed.Fits due (some i, made) → w.Answers t made u →
    (books i).Says (Placed.callsAt i calls) made

namespace Run

variable {σ τ : Type} {room : Mailroom σ} {room' : Mailroom τ} {due : List Campaign}
  {capacity capacity' : Nat} {s : σ} {s' : τ} {r : Run σ} {r' : Run τ}
  {past past' : List (Turn × Deed)} {i : Nat} {books : Nat → Book}

/-- The place of the worker whose turn it is. -/
def Turn.place? : Turn → Option Nat
  | .worker i => some i
  | _ => none

/-- The calls of a chronicle, each with the place of the worker that made it. -/
def placed (past : List (Turn × Deed)) : List Placed :=
  past.filterMap fun p => p.2.call?.map (p.1.place?, ·)

@[simp] theorem placed_append (past more : List (Turn × Deed)) :
    placed (past ++ more) = placed past ++ placed more := by
  simp [placed]

theorem map_placed (past : List (Turn × Deed)) :
    (placed past).map (·.2) = Deed.calls (deeds past) := by
  rw [placed, List.map_filterMap, Deed.calls, deeds, List.filterMap_map]
  refine List.filterMap_congr fun p _ => ?_
  cases hcall : p.2.call? <;> simp [hcall]

theorem callsAt_placed (i : Nat) (past : List (Turn × Deed)) :
    Placed.callsAt i (placed past) = Deed.calls (deedsOf i past) := by
  rw [Placed.callsAt, placed, List.filterMap_filterMap, Deed.calls, deedsOf, List.filterMap_filterMap]
  refine List.filterMap_congr fun p _ => ?_
  obtain ⟨turn, d⟩ := p
  cases hcall : d.call? with
  | none => by_cases hturn : turn = .worker i <;> simp [hturn, hcall]
  | some made =>
      cases turn with
      | worker j => by_cases hji : j = i <;> simp [Turn.place?, hji, hcall]
      | foreman | clerk => simp [Turn.place?]

/-- **The calls of a run fit its due campaigns.** -/
theorem Chronicle.fits (h : Chronicle room (opened due capacity s) past r) :
    ∀ p ∈ placed past, Placed.Fits due p := by
  induction h using Chronicle.transition_induction with
  | refl => simp [placed]
  | @tail past t turn d u hpast _ hstep ih =>
      have hmoved : ∀ {j : Nat} {k : Worker} {e : Deed} {phase : Phase},
          t.workers[j]? = some k → Worker.Move room k.campaign k.phase e phase →
          ∀ p ∈ placed (Run.told (.worker j) (some e)), Placed.Fits due p := by
        intro j k e phase hk hmove p hp
        obtain ⟨made, hmade, rfl⟩ : ∃ made, e.call? = some made ∧ (some j, made) = p := by
          simpa [placed, Run.told, Turn.place?] using hp
        have hcall : made ∈ Deed.calls [e] := by simp [Deed.calls, hmade]
        obtain ⟨howner, hworker⟩ := hmove.call_owner made hcall
        exact ⟨hworker, k.campaign, hpast.due_at hk, howner⟩
      have hlast : ∀ p ∈ placed (Run.told turn d), Placed.Fits due p := by
        cases hstep with
        | act hk hmove => exact hmoved hk hmove
        | report hk hmove => exact hmoved hk hmove
        | store | storeCrash => simp [placed, Run.told, Deed.call?, Turn.place?, Placed.Fits, Call.isUpdate]
        | _ => simp [placed, Run.told, Deed.call?]
      intro p hp
      rw [placed_append] at hp
      rcases List.mem_append.mp hp with hp | hp
      · exact ih p hp
      · exact hlast p hp

/-- **Every call of a worker got the reply of its book.** -/
theorem Chronicle.says (hbook : room.world.ByBook s due books)
    (h : Chronicle room (opened due capacity s) past r) {before after : List Call} {made : Call}
    (hcalls : Deed.calls (deedsOf i past) = before ++ made :: after) :
    (books i).Says before made := by
  rw [← callsAt_placed] at hcalls
  -- the call stands among those of all others, after the earlier ones of its worker
  obtain ⟨xs, rest, hsplit, hbefore, hrest⟩ := List.filterMap_eq_append_iff.mp hcalls
  obtain ⟨skipped, p, ys, rfl, hskipped, hp, -⟩ := List.filterMap_eq_cons_iff.mp hrest
  obtain ⟨place, made'⟩ := p
  obtain ⟨rfl, rfl⟩ : place = some i ∧ made' = made := by simpa using hp
  have hearlier : Placed.callsAt i (xs ++ skipped) = before := by
    rw [Placed.callsAt, List.filterMap_append, List.filterMap_eq_nil_iff.mpr hskipped,
      List.append_nil]
    exact hbefore
  have hfits := h.fits
  have hhistory := h.history
  rw [← map_placed, hsplit, ← List.append_assoc, List.map_append, World.history_append] at hhistory
  obtain ⟨t, hxs, u, hanswer, -⟩ := hhistory
  rw [hsplit, ← List.append_assoc] at hfits
  rw [← hearlier]
  exact hbook (fun p hp => hfits p (List.mem_append_left _ hp)) hxs
    (hfits _ (List.mem_append_right _ List.mem_cons_self)) hanswer

/-- By the same books, the workers at each place do the same, as far as both get. -/
theorem Chronicle.comparable_of_book (hrooms : room.Alike room')
    (hbook : room.world.ByBook s due books) (hbook' : room'.world.ByBook s' due books)
    (h : Chronicle room (opened due capacity s) past r)
    (h' : Chronicle room' (opened due capacity' s') past' r') : Comparable past past' := by
  intro i
  cases hc : due[i]? with
  | none =>
      rw [h.deedsOf_eq_nil hc]
      exact Or.inl List.nil_prefix
  | some c =>
      obtain ⟨p, hcourse⟩ := h.exists_course hc
      obtain ⟨p', hcourse'⟩ := h'.exists_course hc
      refine Worker.Course.comparable_of ?_ (hcourse.alike hrooms) hcourse'
        (fun _ _ _ => h.says hbook) (fun _ _ _ => h'.says hbook')
      intro before made made' hsays hsays' hsame _
      exact Book.says_unique hsays hsays' hsame

/-- **Storing rows never steers delivery.**  Take two mailrooms that are alike but for how many may be
at work and how many events may wait, in worlds that answer workers by the same books and do with
rows whatever they do: store them, refuse them, or crash and break the clerk, at any call.  Of runs
over the same campaigns, whatever turns are taken, the workers at each place do the same as far as
both get.  Where one run is over, the other comes to its end; and once both are, every worker has
made the same calls with the same replies, and the results are the same, as both start the same tasks
in the same order and so have the same names for them.  Where the campaigns have different
identifiers, the calls for each are the same. -/
theorem Chronicle.unsteered (hrooms : room.Alike room') (hbook : room.world.ByBook s due books)
    (hbook' : room'.world.ByBook s' due books)
    (h : Chronicle room (opened due capacity s) past r)
    (h' : Chronicle room' (opened due capacity' s') past' r') :
    Comparable past past' ∧
      (r.foreman = .finished → EndsSurely room' (opened due capacity' s') ∧
        (r'.foreman = .finished →
          (∀ i, deedsOf i past' = deedsOf i past) ∧
          (room'.task = room.task → r'.firstFault = r.firstFault) ∧
          ((due.map (·.id)).Nodup → ∀ c ∈ due,
            Call.callsFor c.id (Deed.calls (deeds past')) =
              Call.callsFor c.id (Deed.calls (deeds past))))) := by
  have hcomparable := h.comparable_of_book hrooms hbook hbook' h'
  refine ⟨hcomparable, fun hfinished => ⟨?_, fun hfinished' => ?_⟩⟩
  · exact h.endsSurely hrooms hfinished fun _ _ => h.comparable_of_book hrooms hbook hbook'
  · have hdeeds := h.deedsOf_same hrooms hcomparable h' hfinished hfinished'
    refine ⟨hdeeds, h.firstFault_same hrooms hcomparable h' hfinished hfinished', ?_⟩
    intro hids c hc
    obtain ⟨i, hi⟩ := List.mem_iff_getElem?.mp hc
    rw [h.callsFor_eq hids hi, h'.callsFor_eq hids hi, hdeeds]

end Run

namespace Sample

/-- What the workers of both campaigns are told. -/
def book : Book where
  tenant _ _ := .ok acme
  page _ request := .ok (if request.cursor = "" then firstPage else lastPage)
  template _ _ id := .ok (template id)
  send _ mail := sent mail.variant

/-- The mailroom where no row can be stored: the clerk breaks over the first one. -/
def jammed : Mailroom Unit :=
  { room with world := { world with update := fun _ s => (.crash "no ink", s) } }

/-- The run without a clerk, at a desk with more room and by another schedule. -/
def jammedRun : List (Run.Turn × Deed) × Run Unit :=
  Run.follow jammed (List.replicate 40 round.reverse).flatten (Run.opened due 4 ())

theorem byBook : room.world.ByBook () due fun _ => book := by
  intro calls i made t u _ _ hfits hanswer
  cases made with
  | update => cases hfits.1
  | _ => exact (congrArg Prod.fst hanswer).symm

theorem jammed_byBook : jammed.world.ByBook () due fun _ => book := by
  intro calls i made t u _ _ hfits hanswer
  cases made with
  | update => cases hfits.1
  | _ => exact (congrArg Prod.fst hanswer).symm

end Sample

/-- Spring and autumn are mailed out all the same when the clerk breaks over the first row. -/
theorem Run.Chronicle.unsteered_of_sample :
    Sample.jammedRun.2.desk.clerk = .broken "no ink" ∧
      (∀ i, deedsOf i Sample.jammedRun.1 = deedsOf i Sample.run.1) ∧
      Sample.jammedRun.2.firstFault = Sample.run.2.firstFault := by
  have hjammed : Chronicle Sample.jammed (opened Sample.due 4 ()) Sample.jammedRun.1
      Sample.jammedRun.2 := chronicle_follow _ _ _
  have hrooms : Sample.room.Alike Sample.jammed := ⟨rfl, rfl, rfl⟩
  obtain ⟨-, hover⟩ := Sample.chronicle.unsteered hrooms Sample.byBook Sample.jammed_byBook hjammed
  obtain ⟨-, hboth⟩ := hover (by decide +kernel)
  obtain ⟨hdeeds, hfault, -⟩ := hboth (by decide +kernel)
  exact ⟨by decide +kernel, hdeeds, hfault rfl⟩

end Mailshot

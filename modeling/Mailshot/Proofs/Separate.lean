import Mailshot.Proofs.Ledger
import Mailshot.Proofs.Worker.Course

/-!
# Worlds that keep campaigns apart

A run does the same for a campaign whatever else goes on only in a world that keeps campaigns apart:
one whose reply to a worker depends on the call and on the earlier calls of the workers of that
campaign.  Then two workers of one campaign do the same deeds, as far as both get.

* `World.Separate`: the world keeps the calls of workers apart;
* `World.StoresApart`: it keeps stored rows apart, and does not look at times of change;
* `Worker.Course.comparable_of`: of two courses, one is the beginning of the other where the earlier
  calls settle the replies;
* `World.StoresAlike`: in two histories the rows handed over earlier settle whether a row is stored;
* `World.rows_agree`: then of the same rows, the same are stored;
* `Worker.Course.comparable`, `World.rows_unique`: so it is in worlds that keep campaigns apart.
-/

namespace Mailshot

namespace Call

/-- The rows of a campaign that are handed over to be stored, apart from their times of change, with
how each call came back. -/
def rowsFor (id : Uuid) (calls : List Call) : List (Campaign × Reply Unit) :=
  calls.filterMap fun
    | .update row reply => if row.id = id then some (row.timeless, reply) else none
    | _ => none

@[simp] theorem rowsFor_append (id : Uuid) (xs ys : List Call) :
    rowsFor id (xs ++ ys) = rowsFor id xs ++ rowsFor id ys := by
  simp [rowsFor]

/-- How the calls for storing the rows of a campaign came back. -/
def repliesFor (id : Uuid) (calls : List Call) : List (Reply Unit) :=
  (rowsFor id calls).map (·.2)

/-- Two calls of a worker ask the same, whatever came back. -/
inductive SameQuestion : Call → Call → Prop where
  | tenant (owner id : Uuid) (reply reply' : Reply Tenant) :
      SameQuestion (.tenant owner id reply) (.tenant owner id reply')
  | page (owner : Uuid) (request : PageRequest) (reply reply' : Reply Page) :
      SameQuestion (.page owner request reply) (.page owner request reply')
  | template (owner : Uuid) (tenant : Tenant) (id : Uuid) (reply reply' : Reply Template) :
      SameQuestion (.template owner tenant id reply) (.template owner tenant id reply')
  | send (owner : Uuid) (mail : Mail) (reply reply' : Reply Unit) :
      SameQuestion (.send owner mail reply) (.send owner mail reply')

/-- The rows of others are not those of the campaign. -/
theorem rowsFor_eq_nil {id : Uuid} {calls : List Call} (h : ∀ made ∈ calls, made.owner ≠ id) :
    rowsFor id calls = [] := by
  rw [rowsFor, List.filterMap_eq_nil_iff]
  intro made hmade
  cases made with
  | update row reply => exact if_neg (h _ hmade)
  | _ => rfl

end Call

namespace World

variable {σ : Type} {w : World σ} {s t : σ} {id : Uuid}

/-- From some state on, a reply to a worker depends on its call and on the earlier calls of workers
for the same campaign.  Rows do not count among these: it is up to the turns when they are stored. -/
structure Separate (w : World σ) (s : σ) : Prop where
  tenant : ∀ {xs ys t u} (owner id), w.History s xs t → w.History s ys u →
    Call.callsFor owner xs = Call.callsFor owner ys →
    (w.tenant owner id t).1 = (w.tenant owner id u).1
  page : ∀ {xs ys t u} (owner request), w.History s xs t → w.History s ys u →
    Call.callsFor owner xs = Call.callsFor owner ys →
    (w.page owner request t).1 = (w.page owner request u).1
  template : ∀ {xs ys t u} (owner tenant id), w.History s xs t → w.History s ys u →
    Call.callsFor owner xs = Call.callsFor owner ys →
    (w.template owner tenant id t).1 = (w.template owner tenant id u).1
  send : ∀ {xs ys t u} (owner mail), w.History s xs t → w.History s ys u →
    Call.callsFor owner xs = Call.callsFor owner ys →
    (w.send owner mail t).1 = (w.send owner mail u).1

/-- From some state on, whether a row is stored depends on the row and on those handed over earlier
for the same campaign, and not on their times of change. -/
def StoresApart (w : World σ) (s : σ) : Prop :=
  ∀ {xs ys t u} {row other : Campaign}, w.History s xs t → w.History s ys u →
    row.timeless = other.timeless → Call.rowsFor row.id xs = Call.rowsFor row.id ys →
    (w.update row t).1 = (w.update other u).1

/-- Whether a row is stored does not depend on the wording of its failure. -/
def Unread (w : World σ) : Prop :=
  ∀ (row : Campaign) (reason : Option String) (s : σ),
    (w.update { row with failureReason := reason } s).1 = (w.update row s).1

/-- In two histories, whether a row of a campaign is stored depends on the row and on those handed
over earlier, and not on their times of change. -/
def StoresAlike {τ : Type} (w : World σ) (w' : World τ) (s : σ) (s' : τ) (id : Uuid)
    (calls calls' : List Call) : Prop :=
  ∀ {xs ys u v} {row other : Campaign}, xs <+: calls → ys <+: calls' →
    w.History s xs u → w'.History s' ys v → row.id = id → other.id = id →
    row.timeless = other.timeless → Call.rowsFor id xs = Call.rowsFor id ys →
    (w.update row u).1 = (w'.update other v).1

/-- The world gives the reply of a call where the earlier calls for the campaign were `before`,
whatever was called for others in between. -/
def Replied (w : World σ) (s : σ) (id : Uuid) (before : List Call) (made : Call) : Prop :=
  ∃ xs t u, w.History s xs t ∧ Call.callsFor id xs = before ∧ w.Answers t made u

/-- Each of some calls for a campaign got the reply that the world gives after those before it. -/
def Answered (w : World σ) (s : σ) (id : Uuid) (calls : List Call) : Prop :=
  ∀ before made after, calls = before ++ made :: after → w.Replied s id before made

/-- A call whose reply the earlier calls for a campaign settle gets one reply after the same calls. -/
theorem replied_unique {α : Type} {ask : σ → Reply α × σ} (entry : Reply α → Call)
    (hentry : ∀ t reply u, w.Answers t (entry reply) u → ask t = (reply, u))
    (hapart : ∀ {xs ys t u}, w.History s xs t → w.History s ys u →
      Call.callsFor id xs = Call.callsFor id ys → (ask t).1 = (ask u).1)
    {before : List Call} {reply reply' : Reply α} (h : w.Replied s id before (entry reply))
    (h' : w.Replied s id before (entry reply')) : reply = reply' := by
  obtain ⟨xs, t, _, hxs, hbefore, hanswer⟩ := h
  obtain ⟨ys, u, _, hys, hbefore', hanswer'⟩ := h'
  have hsame := hapart hxs hys (hbefore.trans hbefore'.symm)
  simpa [hentry _ _ _ hanswer, hentry _ _ _ hanswer'] using hsame

/-- In a world that keeps campaigns apart, the same question gets one reply after the same calls. -/
theorem Separate.replied_unique (hapart : w.Separate s) {before : List Call} {made made' : Call}
    (hsame : made.SameQuestion made') (howner : made.owner = id)
    (h : w.Replied s id before made) (h' : w.Replied s id before made') : made = made' := by
  subst howner
  cases hsame with
  | tenant owner tenant reply reply' =>
      rw [World.replied_unique (.tenant owner tenant) (fun _ _ _ h => h)
        (hapart.tenant owner tenant) h h']
  | page owner request reply reply' =>
      rw [World.replied_unique (.page owner request) (fun _ _ _ h => h)
        (hapart.page owner request) h h']
  | template owner tenant template reply reply' =>
      rw [World.replied_unique (.template owner tenant template) (fun _ _ _ h => h)
        (hapart.template owner tenant template) h h']
  | send owner mail reply reply' =>
      rw [World.replied_unique (.send owner mail) (fun _ _ _ h => h)
        (hapart.send owner mail) h h']

/-- A call for a campaign in a history was made in some state, after the calls before it. -/
theorem History.split_call {calls before after : List Call} {made : Call}
    (h : w.History s calls t) (hsplit : Call.callsFor id calls = before ++ made :: after) :
    ∃ xs rest u v, calls = xs ++ made :: rest ∧ Call.callsFor id xs = before ∧
      w.History s xs u ∧ w.Answers u made v := by
  obtain ⟨xs, rest, rfl, hbefore, hrest⟩ := List.filter_eq_append_iff.mp hsplit
  obtain ⟨skipped, ys, rfl, hskipped, -, -⟩ := List.filter_eq_cons_iff.mp hrest
  rw [← List.append_assoc] at h
  obtain ⟨u, hearlier, v, hmade, -⟩ := history_append.mp h
  have hnone : Call.callsFor id skipped = [] := by
    rw [Call.callsFor, List.filter_eq_nil_iff]
    exact hskipped
  refine ⟨xs ++ skipped, ys, u, v, (List.append_assoc _ _ _).symm, ?_, hearlier, hmade⟩
  rw [Call.callsFor_append, hnone, List.append_nil]
  exact hbefore

/-- The calls for a campaign in a history were answered. -/
theorem History.answered {calls : List Call} (h : w.History s calls t) (id : Uuid) :
    w.Answered s id (Call.callsFor id calls) := by
  intro before made after hsplit
  obtain ⟨xs, -, u, v, -, hbefore, hearlier, hmade⟩ := h.split_call hsplit
  exact ⟨xs, u, v, hearlier, hbefore, hmade⟩

/-- A row that was handed over for a campaign was so after a history of its own. -/
theorem History.row_at {calls : List Call} (h : w.History s calls t) {n : Nat} {row : Campaign}
    {reply : Reply Unit} (hrow : (Call.rowsFor id calls)[n]? = some (row, reply)) :
    ∃ xs u full, xs <+: calls ∧ w.History s xs u ∧
      Call.rowsFor id xs = (Call.rowsFor id calls).take n ∧
      full.id = id ∧ full.timeless = row ∧ (w.update full u).1 = reply := by
  obtain ⟨hn, hat⟩ := List.getElem?_eq_some_iff.mp hrow
  have hsplit : Call.rowsFor id calls = (Call.rowsFor id calls).take n ++
      (row, reply) :: (Call.rowsFor id calls).drop (n + 1) := by
    rw [← hat, List.getElem_cons_drop, List.take_append_drop]
  obtain ⟨xs, rest, hcalls, hbefore, hrest⟩ := List.filterMap_eq_append_iff.mp hsplit
  obtain ⟨skipped, made, ys, rfl, hskipped, hmade, -⟩ := List.filterMap_eq_cons_iff.mp hrest
  rw [← List.append_assoc] at hcalls
  have hbeginning : xs ++ skipped <+: calls := ⟨_, hcalls.symm⟩
  rw [hcalls] at h
  obtain ⟨u, hearlier, v, hanswer, -⟩ := history_append.mp h
  have hnone : Call.rowsFor id skipped = [] := List.filterMap_eq_nil_iff.mpr hskipped
  cases made with
  | update full stored =>
      by_cases hid : full.id = id
      · simp only [hid, if_true, Option.some.injEq, Prod.mk.injEq] at hmade
        obtain ⟨rfl, rfl⟩ := hmade
        refine ⟨xs ++ skipped, u, full, hbeginning, hearlier, ?_, hid, rfl,
          congrArg Prod.fst hanswer⟩
        rw [Call.rowsFor_append, hnone, List.append_nil]
        exact hbefore
      · simp [hid] at hmade
  | _ => simp at hmade

/-- As far as the rows are the same, the same are stored: the replies agree one after another, as each
depends on the rows before it. -/
theorem StoresAlike.take_eq {τ : Type} {w' : World τ} {s' t' : τ} {calls calls' : List Call}
    (hsame : w.StoresAlike w' s s' id calls calls') (h : w.History s calls t)
    (h' : w'.History s' calls' t') {n : Nat}
    (hrows : ((Call.rowsFor id calls).take n).map (·.1) =
      ((Call.rowsFor id calls').take n).map (·.1)) :
    (Call.rowsFor id calls).take n = (Call.rowsFor id calls').take n := by
  induction n with
  | zero => rfl
  | succ n ih =>
      have hearlier : (Call.rowsFor id calls).take n = (Call.rowsFor id calls').take n := by
        have hcut := congrArg (List.take n) hrows
        simp only [← List.map_take, List.take_take, Nat.min_eq_left (Nat.le_succ n)] at hcut
        exact ih hcut
      have hrow : ((Call.rowsFor id calls)[n]?).map (·.1) =
          ((Call.rowsFor id calls')[n]?).map (·.1) := by
        have hat := congrArg (·[n]?) hrows
        simpa [List.getElem?_take_of_lt] using hat
      have hnext : (Call.rowsFor id calls)[n]? = (Call.rowsFor id calls')[n]? := by
        cases hx : (Call.rowsFor id calls)[n]? with
        | none =>
            rw [hx] at hrow
            exact (Option.map_eq_none_iff.mp hrow.symm).symm
        | some p =>
            rw [hx] at hrow
            obtain ⟨q, hy, hpq⟩ := Option.map_eq_some_iff.mp hrow.symm
            obtain ⟨row, reply⟩ := p
            obtain ⟨other, reply'⟩ := q
            obtain rfl : other = row := hpq
            obtain ⟨xs, v, full, hxs, hhistory, hbefore, hid, hfull, rfl⟩ := h.row_at hx
            obtain ⟨ys, v', full', hys, hhistory', hbefore', hid', hfull', rfl⟩ := h'.row_at hy
            have hreply := hsame hxs hys hhistory hhistory' hid hid' (hfull.trans hfull'.symm)
              (by rw [hbefore, hbefore', hearlier])
            rw [hy, hreply]
      rw [List.take_add_one, List.take_add_one, hearlier, hnext]

/-- **Of the same rows, the same are stored**, in two worlds where that depends on the rows before. -/
theorem rows_agree {τ : Type} {w' : World τ} {s' t' : τ} {calls calls' : List Call}
    (hsame : w.StoresAlike w' s s' id calls calls') (h : w.History s calls t)
    (h' : w'.History s' calls' t')
    (hrows : (Call.rowsFor id calls).map (·.1) = (Call.rowsFor id calls').map (·.1)) :
    Call.rowsFor id calls = Call.rowsFor id calls' := by
  have hlength : (Call.rowsFor id calls).length = (Call.rowsFor id calls').length := by
    simpa using congrArg List.length hrows
  have hall := hsame.take_eq (n := (Call.rowsFor id calls).length) h h'
    (by rw [List.map_take, List.map_take, hrows])
  rwa [List.take_length, hlength, List.take_length] at hall

/-- A world that keeps stored rows apart does so in any two histories. -/
theorem StoresApart.alike (hstores : w.StoresApart s) (calls calls' : List Call) :
    w.StoresAlike w s s id calls calls' := by
  intro xs ys u v row other _ _ hxs hys hid _ htimeless hbefore
  subst hid
  exact hstores hxs hys htimeless hbefore

/-- **Of the same rows, the same are stored** in a world that keeps stored rows apart. -/
theorem rows_unique (hstores : w.StoresApart s) {xs ys : List Call} {u : σ}
    (hxs : w.History s xs t) (hys : w.History s ys u)
    (hrows : (Call.rowsFor id xs).map (·.1) = (Call.rowsFor id ys).map (·.1)) :
    Call.rowsFor id xs = Call.rowsFor id ys := by
  exact rows_agree (hstores.alike xs ys) hxs hys hrows

end World

namespace Worker

variable {σ : Type} {room : Mailroom σ} {c : Campaign} {s : σ}

/-- The phase settles the next deed, up to the reply if that is a call. -/
theorem Move.same_question {p q q' : Phase} {d d' : Deed} (h : Move room c p d q)
    (h' : Move room c p d' q') :
    d = d' ∨ ∃ made made', d = .call made ∧ d' = .call made' ∧ made.SameQuestion made' := by
  cases h with
  | lookup reply =>
      cases h' with
      | lookup reply' => exact Or.inr ⟨_, _, rfl, rfl, .tenant _ _ reply reply'⟩
  | page tenant p reply =>
      cases h' with
      | page _ _ reply' => exact Or.inr ⟨_, _, rfl, rfl, .page _ _ reply reply'⟩
  | template tenant audience bodies next rest reply =>
      cases h' with
      | template _ _ _ _ _ reply' => exact Or.inr ⟨_, _, rfl, rfl, .template _ _ _ reply reply'⟩
  | send t m rest reply =>
      cases h' with
      | send _ _ _ reply' => exact Or.inr ⟨_, _, rfl, rfl, .send _ _ reply reply'⟩
  | announce | start | progress | fail =>
      cases h'
      exact Or.inl rfl

/-- **Of two courses, one is the beginning of the other**, where the calls before a question settle
the reply to it: `got` and `got'` say after which calls a call was made with its reply. -/
theorem Course.comparable_of {got got' : List Call → Call → Prop} {deeds more : List Deed}
    {p q : Phase}
    (hreply : ∀ {before made made'}, got before made → got' before made' →
      made.SameQuestion made' → made.owner = c.id → made = made')
    (h : Course room c deeds p) (hmore : Course room c more q)
    (hgot : ∀ before made after, Deed.calls deeds = before ++ made :: after → got before made)
    (hgot' : ∀ before made after, Deed.calls more = before ++ made :: after → got' before made) :
    deeds <+: more ∨ more <+: deeds := by
  induction h with
  | nil => exact Or.inl List.nil_prefix
  | @snoc deeds p d p' hcourse hmove ih =>
      have hearlier : ∀ before made after, Deed.calls deeds = before ++ made :: after →
          got before made := by
        intro before made after hcalls
        refine hgot before made (after ++ Deed.calls [d]) ?_
        rw [Deed.calls_append, hcalls, List.append_assoc, List.cons_append]
      rcases ih hearlier with ⟨rest, rfl⟩ | hbeginning
      · cases rest with
        | nil => exact Or.inr ⟨[d], by simp⟩
        | cons d' rest =>
            obtain ⟨_, p'', hcourse', hmove'⟩ := hmore.split
            obtain rfl := hcourse.phase_unique hcourse'
            have hsame : d = d' := by
              rcases hmove.same_question hmove' with rfl | ⟨made, made', rfl, rfl, hquestion⟩
              · rfl
              · have hfirst := hgot (Deed.calls deeds) made [] (by simp)
                have hsecond := hgot' (Deed.calls deeds) made' (Deed.calls rest) (by simp)
                have howner := (hmove.call_owner made (by simp)).1
                rw [hreply hfirst hsecond hquestion howner]
            subst hsame
            exact Or.inl ⟨rest, by simp⟩
      · exact Or.inr (hbeginning.trans (List.prefix_append _ _))

/-- **Of two courses, one is the beginning of the other**, in a world that keeps campaigns apart. -/
theorem Course.comparable (hapart : room.world.Separate s) {deeds more : List Deed} {p q : Phase}
    (h : Course room c deeds p) (hmore : Course room c more q)
    (hanswered : room.world.Answered s c.id (Deed.calls deeds))
    (hanswered' : room.world.Answered s c.id (Deed.calls more)) :
    deeds <+: more ∨ more <+: deeds := by
  refine Course.comparable_of ?_ h hmore hanswered hanswered'
  intro before made made' hreplied hreplied' hsame howner
  exact hapart.replied_unique hsame howner hreplied hreplied'

/-- Of two courses of which one is the beginning of the other, both at their ends, each is all of
the other. -/
theorem Course.ended_eq {deeds others : List Deed} {o o' : Outcome}
    (h : Course room c deeds (.ended o)) (h' : Course room c others (.ended o'))
    (hcomparable : deeds <+: others ∨ others <+: deeds) : others = deeds ∧ o' = o := by
  obtain rfl : others = deeds := by
    rcases hcomparable with ⟨rest, rfl⟩ | ⟨rest, rfl⟩
    · rw [h.ended_maximal h', List.append_nil]
    · rw [h'.ended_maximal h, List.append_nil]
  exact ⟨rfl, Phase.ended.inj (h'.phase_unique h)⟩

/-- A worker that comes to its end does the same deeds wherever its campaign is kept apart. -/
theorem Course.ended_unique (hapart : room.world.Separate s) {deeds others : List Deed}
    {o o' : Outcome} (h : Course room c deeds (.ended o)) (h' : Course room c others (.ended o'))
    (hanswered : room.world.Answered s c.id (Deed.calls deeds))
    (hanswered' : room.world.Answered s c.id (Deed.calls others)) : others = deeds ∧ o' = o :=
  h.ended_eq h' (h.comparable hapart h' hanswered hanswered')

end Worker

end Mailshot

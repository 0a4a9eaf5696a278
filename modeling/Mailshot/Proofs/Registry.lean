import Mathlib.Data.List.Induction
import Mathlib.Data.String.Basic
import Mailshot.Proofs.Table
import Mailshot.Registry

/-!
# Where payloads go

What a registry does can be told from the calls made to it alone.  A kind has the handler of its
latest registration, unless it was unregistered since; a payload goes to that handler, once and as
it is, and the reply comes back as the handler gave it.  What a handler replies has no bearing on
any registration, not even if it fails.

A handler may call on the registry itself, and others may while it is at work, so calls come with
the calls made in between, and the account of them follows the order in which they began.

* `Registry.makeAll`: calls made one after another, and the account of them;
* `Registry.Holds`: the handler that a kind has after some calls, told from the account;
* `Registry.Routed`: accounts in which everything goes where it should;
* `Registry.Tracks`: a registry that knows the handlers it should;
* `Registry.calls_routed`: the account of any calls is like that.
-/

namespace Mailshot.Registry

variable {η π : Type}

/-- A call on a registry.  A payload goes with what comes of it if there is a handler to take it:
the calls made while that one is at work, and its reply. -/
inductive Request (η π : Type) where
  | register (kind : String) (handler : η)
  | unregister (kind : String)
  | kinds
  | dispatch (kind : String) (payload : π) (meanwhile : List (Request η π)) (reply : Reply Unit)

/-- What a handler was given, and what it replied. -/
structure Receipt (η π : Type) where
  handler : η
  payload : π
  reply : Reply Unit

/-- A call with its answer, and with what handlers received for it. -/
inductive Entry (η π : Type) where
  | registered (kind : String) (handler : η) (displaced : Option η)
  | unregistered (kind : String) (found : Bool)
  | listed (kinds : List String)
  | dispatched (kind : String) (payload : π) (receipts : List (Receipt η π)) (answer : Reply Unit)

/-- A registry with what happened to it since some moment: what handlers received then, and the
calls made in the meantime. -/
structure Scene (η π : Type) where
  registry : Registry η
  receipts : List (Receipt η π) := []
  entries : List (Entry η π) := []

mutual

/-- Makes a call: the account of it and of the calls within, and the registry after. -/
def make : Request η π → Registry η → List (Entry η π) × Registry η
  | .register kind handler, r =>
    ([.registered kind handler (r.register kind handler).1], (r.register kind handler).2)
  | .unregister kind, r => ([.unregistered kind (r.unregister kind).1], (r.unregister kind).2)
  | .kinds, r => ([.listed r.kinds], r)
  | .dispatch kind payload meanwhile reply, r =>
    let handle (handler : η) (payload : π) (s : Scene η π) : Reply Unit × Scene η π :=
      let (entries, registry) := makeAll meanwhile s.registry
      (reply, ⟨registry, s.receipts ++ [⟨handler, payload, reply⟩], s.entries ++ entries⟩)
    let (answer, s) := r.dispatch handle kind payload { registry := r }
    (.dispatched kind payload s.receipts answer :: s.entries, s.registry)

/-- Makes calls one after another: the account of all of them, and the registry after. -/
def makeAll : List (Request η π) → Registry η → List (Entry η π) × Registry η
  | [], r => ([], r)
  | c :: rest, r =>
    ((make c r).1 ++ (makeAll rest (make c r).2).1, (makeAll rest (make c r).2).2)

end

/-! ### What the account says -/

/-- Does the entry settle which handler a kind has? -/
def Entry.Settles (kind : String) : Entry η π → Prop
  | .registered other .. | .unregistered other _ => other = kind
  | .listed _ | .dispatched .. => False

/-- **The handler that a kind has** after some calls: that of the latest registration, unless it was
unregistered since. -/
def Holds (past : List (Entry η π)) (kind : String) (handler : η) : Prop :=
  ∃ before displaced after, past = before ++ .registered kind handler displaced :: after ∧
    ∀ e ∈ after, ¬ e.Settles kind

/-- **Everything goes where it should**: an account of some calls, with what happened in the past.
Each call has its entry, followed by those of the calls within.  Registering tells which handler is
displaced, and unregistering whether there was one; the kinds listed are those that have a handler,
in ascending order.  A payload goes to the handler of its kind, once and unchanged, and the answer
is the reply of that handler; without a handler nobody receives it, and the answer names the kind.
-/
inductive Routed : List (Entry η π) → List (Request η π) → List (Entry η π) → Prop
  | done (past : List (Entry η π)) : Routed past [] []
  | register {past calls log} {kind : String} {handler : η} {displaced : Option η}
      (hdisplaced : ∀ h, displaced = some h ↔ Holds past kind h)
      (hrest : Routed (past ++ [.registered kind handler displaced]) calls log) :
      Routed past (.register kind handler :: calls) (.registered kind handler displaced :: log)
  | unregister {past calls log} {kind : String} {found : Bool}
      (hfound : found = true ↔ ∃ h, Holds past kind h)
      (hrest : Routed (past ++ [.unregistered kind found]) calls log) :
      Routed past (.unregister kind :: calls) (.unregistered kind found :: log)
  | kinds {past calls log} {names : List String} (hascending : names.Pairwise (· < ·))
      (hnames : ∀ kind, kind ∈ names ↔ ∃ h, Holds past kind h)
      (hrest : Routed (past ++ [.listed names]) calls log) :
      Routed past (.kinds :: calls) (.listed names :: log)
  | deliver {past calls log meanwhile within} {kind : String} {handler : η} {payload : π}
      {reply : Reply Unit} (hholds : Holds past kind handler)
      (hwithin : Routed (past ++ [.dispatched kind payload [⟨handler, payload, reply⟩] reply])
        meanwhile within)
      (hrest : Routed
        (past ++ .dispatched kind payload [⟨handler, payload, reply⟩] reply :: within) calls log) :
      Routed past (.dispatch kind payload meanwhile reply :: calls)
        (.dispatched kind payload [⟨handler, payload, reply⟩] reply :: within ++ log)
  | refuse {past calls log meanwhile} {kind : String} {payload : π} {reply : Reply Unit}
      (hnone : ∀ h, ¬ Holds past kind h)
      (hrest : Routed (past ++ [.dispatched kind payload [] (.fault (.unknownPayload kind))])
        calls log) :
      Routed past (.dispatch kind payload meanwhile reply :: calls)
        (.dispatched kind payload [] (.fault (.unknownPayload kind)) :: log)

section Holds

variable {past : List (Entry η π)} {e : Entry η π} {kind : String} {h g : η}

theorem not_holds_nil : ¬ Holds ([] : List (Entry η π)) kind h := by
  rintro ⟨before, displaced, after, hpast, -⟩
  exact List.append_ne_nil_of_right_ne_nil _ (List.cons_ne_nil _ _) hpast.symm

/-- One more call gives a kind its handler, or leaves it the one that it has. -/
theorem holds_snoc : Holds (past ++ [e]) kind h ↔
    (∃ displaced, e = .registered kind h displaced) ∨ ¬ e.Settles kind ∧ Holds past kind h := by
  constructor
  · rintro ⟨before, displaced, after, hpast, hafter⟩
    rcases List.eq_nil_or_concat after with rfl | ⟨init, last, rfl⟩
    · obtain ⟨-, hlast⟩ := List.append_inj' hpast rfl
      exact .inl ⟨displaced, (List.cons.inj hlast).1⟩
    · rw [List.concat_eq_append, ← List.cons_append, ← List.append_assoc] at hpast
      obtain ⟨hinit, hlast⟩ := List.append_inj' hpast rfl
      obtain rfl := (List.cons.inj hlast).1
      rw [List.concat_eq_append] at hafter
      exact .inr ⟨hafter e (by simp), before, displaced, init, hinit,
        fun d hd => hafter d (List.mem_append_left _ hd)⟩
  · rintro (⟨displaced, rfl⟩ | ⟨he, before, displaced, after, rfl, hafter⟩)
    · exact ⟨past, displaced, [], rfl, List.forall_mem_nil _⟩
    · refine ⟨before, displaced, after ++ [e], by simp, ?_⟩
      exact List.forall_mem_append.mpr ⟨hafter, List.forall_mem_singleton.mpr he⟩

/-- A kind has one handler. -/
theorem Holds.unique (hh : Holds past kind h) (hg : Holds past kind g) : h = g := by
  induction past using List.reverseRecOn with
  | nil => exact absurd hh not_holds_nil
  | append_singleton past e ih =>
      rcases holds_snoc.mp hh with ⟨displaced, rfl⟩ | ⟨he, hh⟩
      · rcases holds_snoc.mp hg with ⟨displaced', heq⟩ | ⟨he, -⟩
        · exact (Entry.registered.inj heq).2.1
        · exact absurd rfl he
      · rcases holds_snoc.mp hg with ⟨displaced', rfl⟩ | ⟨-, hg⟩
        · exact absurd rfl he
        · exact ih hh hg

end Holds

/-! ### Registries that keep track -/

/-- A registry that knows for each kind the handler that it has by the account. -/
structure Tracks (past : List (Entry η π)) (r : Registry η) : Prop where
  handler {kind : String} {h : η} : r.handler? kind = some h ↔ Holds past kind h
  once : r.handlers.keys.Nodup

namespace Tracks

variable {past : List (Entry η π)} {r : Registry η}

theorem start : Tracks ([] : List (Entry η π)) ({} : Registry η) where
  handler {_ _} := ⟨fun hfind => (nomatch hfind), fun hholds => absurd hholds not_holds_nil⟩
  once := List.nodup_nil

theorem handler_none (ht : Tracks past r) {kind : String} :
    r.handler? kind = none ↔ ∀ h, ¬ Holds past kind h := by
  rw [Option.eq_none_iff_forall_ne_some]
  exact forall_congr' fun h => not_congr ht.handler

theorem contains (ht : Tracks past r) {kind : String} :
    r.handlers.contains kind = true ↔ ∃ h, Holds past kind h := by
  rw [Table.contains, Option.isSome_iff_exists]
  exact exists_congr fun h => ht.handler

/-- A registration is kept track of. -/
theorem register (ht : Tracks past r) (kind : String) (handler : η) (displaced : Option η) :
    Tracks (past ++ [.registered kind handler displaced]) (r.register kind handler).2 where
  handler {other h} := by
    have hbefore : r.handler? other = some h ↔ Holds past other h := ht.handler
    rw [handler?] at hbefore
    show (r.handlers.insert kind handler).get? other = some h ↔ _
    rw [Table.get?_insert, holds_snoc]
    by_cases hkind : kind = other
    · subst hkind
      simp [Entry.Settles]
    · rw [if_neg hkind]
      simpa [Entry.Settles, hkind] using hbefore
  once := Table.nodup_insert ht.once kind handler

/-- So is that a kind was unregistered. -/
theorem unregister (ht : Tracks past r) (kind : String) (found : Bool) :
    Tracks (past ++ [.unregistered kind found]) (r.unregister kind).2 where
  handler {other h} := by
    have hbefore : r.handler? other = some h ↔ Holds past other h := ht.handler
    rw [handler?] at hbefore
    show (r.handlers.erase kind).get? other = some h ↔ _
    rw [Table.get?_erase, holds_snoc]
    by_cases hkind : kind = other
    · subst hkind
      simp [Entry.Settles]
    · rw [if_neg hkind]
      simpa [Entry.Settles, hkind] using hbefore
  once := Table.nodup_erase ht.once kind

/-- Other calls change nothing that is kept track of. -/
theorem aside (ht : Tracks past r) {e : Entry η π} (he : ∀ kind, ¬ e.Settles kind) :
    Tracks (past ++ [e]) r where
  handler {kind h} := by
    have hnot : ¬ ∃ displaced, e = .registered kind h displaced := by
      rintro ⟨displaced, rfl⟩
      exact he kind rfl
    rw [ht.handler, holds_snoc]
    simp [hnot, he kind]
  once := ht.once

/-- The kinds listed are those that have a handler. -/
theorem mem_kinds (ht : Tracks past r) {kind : String} :
    kind ∈ r.kinds ↔ ∃ h, Holds past kind h := by
  have hfound : kind ∈ r.handlers.keys ↔ ∃ h, r.handler? kind = some h := by
    constructor
    · intro hmem
      obtain ⟨⟨key, h⟩, hentry, rfl⟩ := List.mem_map.mp hmem
      exact ⟨h, Table.get?_of_mem ht.once hentry⟩
    · rintro ⟨h, hfind⟩
      exact List.mem_map.mpr ⟨_, Table.mem_of_find hfind, rfl⟩
  rw [kinds, List.mem_mergeSort, hfound]
  exact exists_congr fun h => ht.handler

/-- They are listed in ascending order. -/
theorem ascending_kinds (ht : Tracks past r) : r.kinds.Pairwise (· < ·) := by
  have hsorted : r.kinds.Pairwise (fun a b => decide (a ≤ b) = true) :=
    List.pairwise_mergeSort (fun a b c hab hbc => by
      simp only [decide_eq_true_eq] at hab hbc ⊢
      exact String.le_trans hab hbc) (fun a b => by
      simpa using String.le_total a b) _
  have hnodup : r.kinds.Nodup := (List.mergeSort_perm _ _).nodup_iff.mpr ht.once
  refine (hsorted.and hnodup).imp fun ⟨hle, hne⟩ => ?_
  exact lt_of_le_of_ne (of_decide_eq_true hle) hne

end Tracks

/-! ### Any calls -/

section Make

variable {r : Registry η} {kind : String} {payload : π} {meanwhile : List (Request η π)}
  {reply : Reply Unit} {h : η}

/-- A payload that finds a handler. -/
theorem make_dispatch_some (hfind : r.handler? kind = some h) :
    make (.dispatch kind payload meanwhile reply) r =
      (.dispatched kind payload [⟨h, payload, reply⟩] reply :: (makeAll meanwhile r).1,
        (makeAll meanwhile r).2) := by
  simp [make, dispatch, hfind]

/-- A payload that finds none. -/
theorem make_dispatch_none (hfind : r.handler? kind = none) :
    make (.dispatch kind payload meanwhile reply) r =
      ([.dispatched kind payload [] (.fault (.unknownPayload kind))], r) := by
  simp [make, dispatch, hfind]

/-- What a handler replies changes no registration. -/
theorem make_dispatch_alone (r : Registry η) (kind : String) (payload : π) (reply : Reply Unit) :
    (make (.dispatch kind payload [] reply) r).2 = r := by
  cases hfind : r.handler? kind with
  | none => rw [make_dispatch_none hfind]
  | some h =>
      rw [make_dispatch_some hfind]
      rfl

end Make

mutual

/-- **One call** goes where it should, and is kept track of. -/
theorem make_routed (c : Request η π) {past : List (Entry η π)} {r : Registry η}
    (ht : Tracks past r) :
    Tracks (past ++ (make c r).1) (make c r).2 ∧
      ∀ {calls log}, Routed (past ++ (make c r).1) calls log →
        Routed past (c :: calls) ((make c r).1 ++ log) := by
  cases c with
  | register kind handler =>
      exact ⟨ht.register kind handler _, fun hrest => .register (fun h => ht.handler) hrest⟩
  | unregister kind =>
      exact ⟨ht.unregister kind _, fun hrest => .unregister ht.contains hrest⟩
  | kinds =>
      exact ⟨ht.aside fun _ => id,
        fun hrest => .kinds ht.ascending_kinds (fun kind => ht.mem_kinds) hrest⟩
  | dispatch kind payload meanwhile reply =>
      cases hfind : r.handler? kind with
      | none =>
          rw [make_dispatch_none hfind]
          exact ⟨ht.aside fun _ => id, fun hrest => .refuse (ht.handler_none.mp hfind) hrest⟩
      | some h =>
          rw [make_dispatch_some hfind]
          obtain ⟨hafter, hwithin⟩ := makeAll_routed meanwhile
            (ht.aside (e := .dispatched kind payload [⟨h, payload, reply⟩] reply) fun _ => id)
          rw [List.append_assoc] at hafter
          exact ⟨hafter, fun hrest => .deliver (ht.handler.mp hfind) hwithin hrest⟩

/-- **Calls one after another** all go where they should. -/
theorem makeAll_routed (calls : List (Request η π)) {past : List (Entry η π)} {r : Registry η}
    (ht : Tracks past r) :
    Tracks (past ++ (makeAll calls r).1) (makeAll calls r).2 ∧
      Routed past calls (makeAll calls r).1 := by
  cases calls with
  | nil => exact ⟨by rwa [makeAll, List.append_nil], .done past⟩
  | cons c rest =>
      obtain ⟨hfirst, hrouted⟩ := make_routed c ht
      obtain ⟨hafter, hrest⟩ := makeAll_routed rest hfirst
      rw [List.append_assoc] at hafter
      exact ⟨hafter, hrouted hrest⟩

end

/-! ### What each handler received -/

open Classical in
/-- The payload that a handler should receive for a call: that of a kind that it has. -/
noncomputable def owed (h : η) (past : List (Entry η π)) : Entry η π → List π
  | .dispatched kind payload _ _ => if Holds past kind h then [payload] else []
  | _ => []

/-- The payloads that a handler should have received, in order. -/
noncomputable def addressed (h : η) : List (Entry η π) → List (Entry η π) → List π
  | _, [] => []
  | past, e :: rest => owed h past e ++ addressed h (past ++ [e]) rest

/-- What handlers received for a call. -/
def Entry.receipts : Entry η π → List (Receipt η π)
  | .dispatched _ _ receipts _ => receipts
  | _ => []

open Classical in
/-- The payloads that a handler received, in order. -/
noncomputable def received (h : η) (log : List (Entry η π)) : List π :=
  ((log.flatMap Entry.receipts).filter fun x => x.handler = h).map (·.payload)

theorem addressed_append (h : η) (past first rest : List (Entry η π)) :
    addressed h past (first ++ rest) =
      addressed h past first ++ addressed h (past ++ first) rest := by
  induction first generalizing past with
  | nil => rw [List.append_nil]; rfl
  | cons e more ih =>
      rw [List.cons_append, addressed, ih, addressed, List.append_assoc, List.append_assoc,
        List.singleton_append]

theorem received_append (h : η) (first rest : List (Entry η π)) :
    received h (first ++ rest) = received h first ++ received h rest := by
  simp [received]

/-- **A handler received what it should have.** -/
theorem Routed.received_eq {past log : List (Entry η π)} {calls : List (Request η π)}
    (hrouted : Routed past calls log) (h : η) : received h log = addressed h past log := by
  induction hrouted with
  | done => rfl
  | register _ _ ih | unregister _ _ ih | kinds _ _ _ ih => exact ih
  | @deliver past calls log meanwhile within kind handler payload reply hholds _ _ ihwithin
      ihrest =>
      have hthis : handler = h ↔ Holds past kind h :=
        ⟨fun heq => heq ▸ hholds, fun hh => hholds.unique hh⟩
      rw [received_append, addressed_append, ihrest, ← List.singleton_append, received_append,
        ihwithin, addressed_append]
      congr 2
      by_cases hhandler : handler = h
      · simp [received, addressed, owed, Entry.receipts, hhandler, hthis.mp hhandler]
      · simp [received, addressed, owed, Entry.receipts, hhandler, mt hthis.mpr hhandler]
  | refuse hnone _ ih =>
      rw [addressed, owed, if_neg (hnone h), List.nil_append, ← ih]
      rfl

/-- **Payloads go where they should.**  Take any calls on a registry that starts without handlers,
each payload with any calls that are made while it is handled and any reply.  Every call goes as it
should: registering tells which handler is displaced, unregistering whether there was one, and the
kinds listed are those that have a handler, in ascending order; a payload goes to the handler that
its kind has, whose reply is the answer, and where there is none to nobody, with an answer that
names the kind.  So each handler received exactly the payloads of the calls whose kind it had.  In
the end the registry has the handlers and the kinds that it should, and what a handler replies
changes no registration. -/
theorem calls_routed (calls : List (Request η π)) :
    let log := (makeAll calls {}).1
    let r := (makeAll calls {}).2
    Routed [] calls log ∧
    (∀ h, received h log = addressed h [] log) ∧
    (∀ kind h, r.handler? kind = some h ↔ Holds log kind h) ∧
    r.kinds.Pairwise (· < ·) ∧ (∀ kind, kind ∈ r.kinds ↔ ∃ h, Holds log kind h) ∧
    ∀ kind payload reply (s : Registry η),
      (make (π := π) (.dispatch kind payload [] reply) s).2 = s := by
  intro log r
  obtain ⟨ht, hrouted⟩ := makeAll_routed calls (Tracks.start (η := η) (π := π))
  rw [List.nil_append] at ht
  exact ⟨hrouted, hrouted.received_eq, fun kind h => ht.handler, ht.ascending_kinds,
    fun kind => ht.mem_kinds, fun kind payload reply s => make_dispatch_alone s kind payload reply⟩

/-- A handler takes its own kind away and fails; the next payload of that kind finds no handler. -/
example :
    (makeAll [.register "due" 1, .register "due" 2,
      .dispatch "due" "noon" [.unregister "due", .kinds] (.fault (.internal "late")),
      .dispatch "due" "night" [] (.ok ())] ({} : Registry Nat)).1 =
    [.registered "due" 1 none, .registered "due" 2 (some 1),
      .dispatched "due" "noon" [⟨2, "noon", .fault (.internal "late")⟩] (.fault (.internal "late")),
      .unregistered "due" true, .listed [],
      .dispatched "due" "night" [] (.fault (.unknownPayload "due"))] := by
  cbv

end Mailshot.Registry

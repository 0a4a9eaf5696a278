import Mailshot.Proofs.Courier
import Mailshot.Proofs.Files

/-!
# Worlds with a store

A world may have a store on its shelf and answer from that, with whoever takes the mail.  Tenants,
segments and templates are never changed by a call, so all that a run asks for comes from the store
as it was at the start; rows are stored, and they are on file.

* `Store.Alike`, `Store.Same`: stores with the same content, in whatever order they keep it;
* `Store.Orderly`: everything is under its own identifier;
* `World.Stocked`: a world that answers from a store;
* `World.Stocked.history`: the calls of a run get the answers of the store at the start;
* `World.Stocked.files`: its rows are on file;
* `Office.stocked`, `World.Stocked.via`: offices have a store, also where mail goes out by courier.
-/

namespace Mailshot

theorem Reply.returns_ofExcept {α : Type} (result : Except Fault α) :
    (Reply.ofExcept result).Returns := by
  cases result <;> simp [ofExcept, Returns]

namespace Store

/-- The stores have the same tenants, segments and templates. -/
structure Alike (s t : Store) : Prop where
  tenants (id : Uuid) : t.tenants.get? id = s.tenants.get? id
  segments (id : Uuid) : t.segments.get? id = s.segments.get? id
  templates (id : Uuid) : t.templates.get? id = s.templates.get? id

/-- The stores have the same content. -/
structure Same (s t : Store) : Prop extends s.Alike t where
  campaigns (id : Uuid) : t.campaign? id = s.campaign? id

/-- Campaigns and tenants are under their own identifiers. -/
structure Orderly (s : Store) : Prop extends s.Sound where
  tenants {id : Uuid} {tenant : Tenant} : s.tenants.get? id = some tenant → tenant.id = id

/-- **Every store is in order.** -/
theorem Built.orderly {s : Store} (h : s.Built) : s.Orderly := by
  suffices ∀ id tenant, s.tenants.get? id = some tenant → tenant.id = id from
    { h.sound with tenants := this _ _ }
  induction h with
  | empty => simp [Store.empty, Table.empty, Table.get?, Table.find]
  | @insertTenant s t _ ih =>
      intro id tenant hget
      simp only [Store.insertTenant, Table.get?_insert] at hget
      split at hget
      · next hid =>
          obtain rfl := Option.some.inj hget
          exact hid
      · exact ih id tenant hget
  | @removeTenant s other _ ih =>
      intro id tenant hget
      simp only [Store.removeTenant, Table.get?_erase] at hget
      split at hget
      · cases hget
      · exact ih id tenant hget
  | insertSegment | insertTemplate | insertCampaign =>
      rename_i ih
      exact ih
  | @update s t row _ hrow ih =>
      unfold Store.update at hrow
      split at hrow
      · cases hrow
        exact ih
      · cases hrow

namespace Alike

variable {s t u : Store}

theorem refl (s : Store) : s.Alike s :=
  ⟨fun _ => rfl, fun _ => rfl, fun _ => rfl⟩

theorem trans (h : s.Alike t) (h' : t.Alike u) : s.Alike u where
  tenants id := (h'.tenants id).trans (h.tenants id)
  segments id := (h'.segments id).trans (h.segments id)
  templates id := (h'.templates id).trans (h.templates id)

theorem insertCampaign (s : Store) (row : Campaign) : s.Alike (s.insertCampaign row) :=
  ⟨fun _ => rfl, fun _ => rfl, fun _ => rfl⟩

theorem tenant (h : s.Alike t) (id : Uuid) : t.tenant id = s.tenant id := by
  simp only [Store.tenant, h.tenants]

theorem page (h : s.Alike t) (request : PageRequest) : t.page request = s.page request := by
  simp only [Store.page, h.segments]

theorem template (h : s.Alike t) (tenant : Tenant) (id : Uuid) :
    t.template tenant id = s.template tenant id := by
  simp only [Store.template, h.templates]

end Alike

/-- The call of a worker got the answer of the store, and mail was handed over without a crash. -/
def Says (s : Store) : Call → Prop
  | .tenant _ id reply => reply = .ofExcept (s.tenant id)
  | .page _ request reply => reply = .ofExcept (s.page request)
  | .template _ tenant id reply => reply = .ofExcept (s.template tenant id)
  | .send _ _ reply => reply.Returns
  | .update .. => True

theorem Alike.agree {s t : Store} (h : s.Alike t) {made : Call} (hanswer : t.Says made) :
    s.Says made := by
  cases made with
  | tenant owner id reply => exact hanswer.trans (by rw [h.tenant])
  | page owner request reply => exact hanswer.trans (by rw [h.page])
  | template owner tenant id reply => exact hanswer.trans (by rw [h.template])
  | send | update => exact hanswer

/-- A row that is stored takes the place of the one before. -/
theorem update_ok {s t : Store} {row : Campaign} (h : s.update row = .ok t) :
    t = s.insertCampaign row := by
  unfold update at h
  split at h
  · exact (Except.ok.inj h).symm
  · cases h

/-- A row is due where it is on file and its campaign is. -/
theorem Sound.mem_due {s : Store} (h : s.Sound) {cutoff : Int} {c : Campaign} :
    c ∈ s.due cutoff ↔ s.campaign? c.id = some c ∧ c.isDue cutoff = true := by
  refine ⟨(h.due cutoff).2 c, fun ⟨hrow, hdue⟩ => ?_⟩
  have hperm : (s.due cutoff).Perm (s.campaigns.values.filter (·.isDue cutoff)) :=
    List.mergeSort_perm _ _
  exact hperm.mem_iff.mpr (List.mem_filter.mpr ⟨Table.mem_values_of_get? hrow, hdue⟩)

/-- Stores with the same content have the same campaigns due. -/
theorem Same.mem_due {s t : Store} (h : s.Same t) (hs : s.Sound) (ht : t.Sound) {cutoff : Int}
    {c : Campaign} : c ∈ t.due cutoff ↔ c ∈ s.due cutoff := by
  rw [ht.mem_due, hs.mem_due, h.campaigns]

end Store

/-- A call of a world with a courier is one of the world itself, but for mail, which the courier takes
or refuses. -/
theorem World.exists_answers_of_via {σ ρ : Type} {w : World σ} {k : Courier ρ} {s t : σ × ρ}
    {made : Call} (h : (w.via k).Answers s made t) :
    ∃ asked, w.Answers s.1 asked t.1 ∧ asked.isUpdate = made.isUpdate ∧
      (asked = made ∨ ∃ owner mail reply, made = .send owner mail reply ∧ reply.Returns) := by
  cases made with
  | update row reply | tenant owner id reply | page owner request reply
  | template owner tenant id reply =>
      obtain ⟨hreply, hstate⟩ := Prod.mk.inj h
      refine ⟨_, ?_, rfl, .inl rfl⟩
      exact Prod.ext hreply (congrArg Prod.fst hstate)
  | send owner mail reply =>
      obtain ⟨rfl, rfl⟩ := Prod.mk.inj h
      refine ⟨.send owner mail (w.send owner mail s.1).1, rfl, rfl, .inr ⟨_, _, _, rfl, ?_⟩⟩
      cases (k.refusal owner mail s.2).1 <;> simp [Reply.Returns]

/-- **The world answers from a store**: `store` is the one that it has in a state.  Whoever takes the
mail does not crash. -/
structure World.Stocked {σ : Type} (w : World σ) (store : σ → Store) : Prop where
  due (cutoff : Int) (s : σ) :
    (w.due cutoff s).1 = .ok ((store s).due cutoff) ∧ store (w.due cutoff s).2 = store s
  replies {s t : σ} {made : Call} : w.Answers s made t → (store s).Says made
  aside {s t : σ} {made : Call} : w.Answers s made t → made.isUpdate = false → store t = store s
  update {s t : σ} {row : Campaign} {reply : Reply Unit} : w.update row s = (reply, t) →
    (reply = .ok () ∧ (store s).update row = .ok (store t)) ∨
      ∃ cause, reply = .fault cause ∧ (store s).update row = .error cause ∧ store t = store s

namespace World.Stocked

variable {σ ρ : Type} {w : World σ} {store : σ → Store} {s t : σ} {made : Call} {calls : List Call}

/-- A call leaves tenants, segments and templates as they are. -/
theorem alike (hw : w.Stocked store) (h : w.Answers s made t) : (store s).Alike (store t) := by
  cases hworker : made.isUpdate with
  | false =>
      rw [hw.aside h hworker]
      exact .refl _
  | true =>
      cases made with
      | update row reply =>
          rcases hw.update h with ⟨-, hstored⟩ | ⟨-, -, -, hsame⟩
          · rw [Store.update_ok hstored]
            exact .insertCampaign _ _
          · rw [hsame]
            exact .refl _
      | _ => cases hworker

/-- **All calls get the answers of the store at the start**, whatever rows are stored meanwhile. -/
theorem history (hw : w.Stocked store) (h : w.History s calls t) :
    (∀ made ∈ calls, (store s).Says made) ∧ (store s).Alike (store t) := by
  induction calls generalizing s with
  | nil =>
      obtain rfl : t = s := h
      exact ⟨by simp, .refl _⟩
  | cons made rest ih =>
      obtain ⟨u, hmade, hrest⟩ := h
      obtain ⟨hanswers, halike⟩ := ih hrest
      refine ⟨List.forall_mem_cons.mpr ⟨hw.replies hmade, fun made hmem => ?_⟩,
        (hw.alike hmade).trans halike⟩
      exact (hw.alike hmade).agree (hanswers made hmem)

/-- Storing a row never crashes. -/
theorem returns (hw : w.Stocked store) (row : Campaign) (s : σ) : (w.update row s).1.Returns := by
  have hstep : w.update row s = ((w.update row s).1, (w.update row s).2) := rfl
  rcases hw.update hstep with ⟨hreply, -⟩ | ⟨cause, hreply, -⟩
  · simp [hreply, Reply.Returns]
  · simp [hreply, Reply.Returns]

theorem campaign?_update {a b : Store} {row : Campaign} (h : a.update row = .ok b) (id : Uuid) :
    b.campaign? id = if row.id = id then some row else a.campaign? id := by
  rw [Store.update_ok h, Store.campaign?, Store.insertCampaign, Table.get?_insert]
  rfl

/-- **A world with a store has rows on file**, where the store is in order. -/
theorem files (hw : w.Stocked store) :
    w.Files (fun s => (store s).Sound) fun id s => (store s).campaign? id where
  due {cutoff s t due} hs hdue := by
    have hreply := (hw.due cutoff s).1
    rw [hdue] at hreply
    obtain rfl := Reply.ok.inj hreply
    exact hs.due cutoff
  asked {cutoff s t reply} hs hdue := by
    have hsame := (hw.due cutoff s).2
    rw [hdue] at hsame
    exact ⟨hsame.symm ▸ hs, fun id => by rw [hsame]⟩
  sound {s t made} hs hanswer := by
    cases hworker : made.isUpdate with
    | false => exact (hw.aside hanswer hworker).symm ▸ hs
    | true =>
        cases made with
        | update row reply =>
            rcases hw.update hanswer with ⟨-, hstored⟩ | ⟨-, -, -, hsame⟩
            · exact (Store.update_ok hstored).symm ▸ hs.insertCampaign row
            · exact hsame.symm ▸ hs
        | _ => cases hworker
  keeps {s id} _ _ :=
    { stores := by
        intro calls row t u _ hupdate hid
        rcases hw.update hupdate with ⟨-, hstored⟩ | ⟨cause, hfault, -⟩
        · rw [campaign?_update hstored, if_pos hid]
        · cases hfault
      refuses := by
        intro calls row fault t u _ hupdate
        rcases hw.update hupdate with ⟨hok, -⟩ | ⟨-, -, -, hsame⟩
        · cases hok
        · rw [hsame]
      spares := by
        intro calls row reply t u _ hupdate hid
        rcases hw.update hupdate with ⟨-, hstored⟩ | ⟨-, -, -, hsame⟩
        · rw [campaign?_update hstored, if_neg hid]
        · rw [hsame] }
  aside id _ hanswer hworker := by rw [hw.aside hanswer hworker]

/-- A row on file is never refused. -/
theorem takes (hw : w.Stocked store) {row : Campaign} (hrow : ((store s).campaign? row.id).isSome) :
    (w.update row s).1 = .ok () := by
  have hcontains : (store s).campaigns.contains row.id = true := hrow
  have hstep : w.update row s = ((w.update row s).1, (w.update row s).2) := rfl
  rcases hw.update hstep with ⟨hreply, -⟩ | ⟨cause, -, hrefused, -⟩
  · exact hreply
  · rw [Store.update, if_pos hcontains] at hrefused
    cases hrefused

/-- Rows that are not handed over stay as they are. -/
theorem campaign?_of_untouched (hw : w.Stocked store) (h : w.History s calls t) {id : Uuid}
    (huntouched : ∀ row reply, Call.update row reply ∈ calls → row.id ≠ id) :
    (store t).campaign? id = (store s).campaign? id := by
  induction calls generalizing s with
  | nil =>
      obtain rfl : t = s := h
      rfl
  | cons made rest ih =>
      obtain ⟨u, hmade, hrest⟩ := h
      rw [ih hrest fun row reply hmem => huntouched row reply (List.mem_cons_of_mem _ hmem)]
      cases made with
      | update row reply =>
          have hid : row.id ≠ id := huntouched row reply List.mem_cons_self
          rcases hw.update hmade with ⟨-, hstored⟩ | ⟨-, -, -, hsame⟩
          · rw [campaign?_update hstored, if_neg hid]
          · rw [hsame]
      | _ => rw [hw.aside hmade rfl]

/-- **Mail may go out by any courier.** -/
theorem via (hw : w.Stocked store) (k : Courier ρ) : (w.via k).Stocked fun s => store s.1 where
  due cutoff s := hw.due cutoff s.1
  replies {s t made} h := by
    obtain ⟨asked, hasked, -, rfl | ⟨owner, mail, reply, rfl, hreturns⟩⟩ := exists_answers_of_via h
    · exact hw.replies hasked
    · exact hreturns
  aside {s t made} h hworker := by
    obtain ⟨asked, hasked, hsame, -⟩ := exists_answers_of_via h
    exact hw.aside hasked (hsame.trans hworker)
  update {s t row reply} h := by
    obtain ⟨rfl, rfl⟩ := Prod.mk.inj h
    exact hw.update rfl

end World.Stocked

/-- **An office has a store.** -/
theorem Office.stocked : world.Stocked (·.store) where
  due _ _ := ⟨rfl, rfl⟩
  replies {o u made} h := by
    cases made with
    | tenant | page | template => exact (Prod.mk.inj h).1.symm
    | send owner mail reply =>
        obtain ⟨rfl, -⟩ := Prod.mk.inj h
        exact Reply.returns_ofExcept _
    | update => trivial
  aside h hworker := store_of_answers h hworker
  update {o u row reply} h := by
    have hupdate : o.update row = (reply, u) := h
    unfold Office.update at hupdate
    cases hstored : o.store.update row with
    | ok store =>
        simp only [hstored, Prod.mk.injEq] at hupdate
        obtain ⟨rfl, rfl⟩ := hupdate
        exact .inl ⟨rfl, rfl⟩
    | error cause =>
        simp only [hstored, Prod.mk.injEq] at hupdate
        obtain ⟨rfl, rfl⟩ := hupdate
        exact .inr ⟨cause, rfl, rfl, rfl⟩

end Mailshot

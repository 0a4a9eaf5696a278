import Mailshot.Proofs.Body
import Mailshot.Proofs.Store.Shelf

/-!
# A store is four maps

Whatever is done to a store, each thing done concerns one of its four maps and leaves the others
alone.  Identifiers that the store makes are new, so what was put under one is changed only by what
names it: a tenant by its removal, a campaign by a row that is stored.  Segments and templates are
never changed.

* `Store.Act`, `Store.after`: what can be done to a store, and the store after it;
* `Store.Fresh`: identifiers are made once;
* `Store.after_only`: each map is what was done to it;
* `Store.onward_keeps`: what nothing touches stays;
* `Store.tenant_error_iff`, `Store.template_of_insertEmail`: who is there, and who reads a template;
* `Store.campaign?_of_created`: a campaign's row is the last one that was stored;
* `Store.four_maps`: all that a store answers, told from what was done to it.
-/

namespace Mailshot.Store

/-- The maps of a store. -/
inductive Part where
  | tenants
  | segments
  | templates
  | campaigns
  deriving DecidableEq, Repr

/-- What can be done to a store.  Identifiers and times that are made for it come with it. -/
inductive Act where
  | insertTenant (id : Uuid) (name : String) (fromEmail : Option String)
  | removeTenant (id : Uuid)
  | insertSegment (id : Uuid) (members : List String)
  | insertEmail (id tenant : Uuid) (name html : String)
  | createCampaign (id : Uuid) (variants : List Uuid) (draft : Draft) (now : Instant)
  | update (row : Campaign)
  deriving DecidableEq, Repr

namespace Act

/-- The map that is concerned. -/
def part : Act → Part
  | insertTenant .. | removeTenant .. => .tenants
  | insertSegment .. => .segments
  | insertEmail .. => .templates
  | createCampaign .. | update .. => .campaigns

/-- The identifier that is made, and the map that it is made for. -/
def made? : Act → Option (Part × Uuid)
  | insertTenant id .. => some (.tenants, id)
  | insertSegment id .. => some (.segments, id)
  | insertEmail id .. => some (.templates, id)
  | createCampaign id .. => some (.campaigns, id)
  | removeTenant .. | update .. => none

end Act

/-- The store after something was done to it.  A row that is refused changes nothing. -/
def act (s : Store) : Act → Store
  | .insertTenant id name fromEmail => s.insertTenant ⟨id, name, fromEmail⟩
  | .removeTenant id => s.removeTenant id
  | .insertSegment id members => s.insertSegment id members
  | .insertEmail id tenant name html => s.insertTemplate (.ofHtml id tenant name html)
  | .createCampaign id variants draft now => s.insertCampaign (draft.campaign id variants now)
  | .update row =>
    match s.update row with
    | .ok t => t
    | .error _ => s

/-- What a store has become. -/
def onward (s : Store) (acts : List Act) : Store := acts.foldl act s

/-- The store that was empty, after all that was done to it. -/
def after (acts : List Act) : Store := empty.onward acts

/-- Identifiers are made once. -/
def Fresh (acts : List Act) : Prop := (acts.filterMap Act.made?).Nodup

instance (acts : List Act) : Decidable (Fresh acts) :=
  inferInstanceAs (Decidable (List.Nodup _))

/-- The row that is stored under an identifier, if it is one that takes its place there. -/
def storedBy (id : Uuid) (s : Store) : Act → Option Campaign
  | .update row => if row.id = id ∧ (s.update row).isOk then some row else none
  | _ => none

/-- The rows that were stored under an identifier, in order. -/
def rowsStored (id : Uuid) (s : Store) : List Act → List Campaign
  | [] => []
  | a :: rest => (storedBy id s a).toList ++ rowsStored id (s.act a) rest

/-- The store with one map, the others being empty. -/
def only (s : Store) : Part → Store
  | .tenants => { tenants := s.tenants }
  | .segments => { segments := s.segments }
  | .templates => { templates := s.templates }
  | .campaigns => { campaigns := s.campaigns }

variable {s : Store} {acts before later : List Act} {id : Uuid}

@[simp] theorem onward_nil (s : Store) : s.onward [] = s := rfl

@[simp] theorem onward_cons (s : Store) (a : Act) (rest : List Act) :
    s.onward (a :: rest) = (s.act a).onward rest := rfl

theorem onward_append (s : Store) (before later : List Act) :
    s.onward (before ++ later) = (s.onward before).onward later :=
  List.foldl_append

theorem after_snoc (acts : List Act) (a : Act) : after (acts ++ [a]) = (after acts).act a :=
  onward_append empty acts [a]

/-! ### One thing done -/

/-- What can become of a row: it is unknown and refused, or it takes its place. -/
theorem update_cases (s : Store) (row : Campaign) :
    (s.campaign? row.id = none ∧
      s.update row = .error (.persistence s!"campaign {row.id} not found") ∧
      s.act (.update row) = s) ∨
    ((s.campaign? row.id).isSome ∧ s.update row = .ok (s.insertCampaign row) ∧
      s.act (.update row) = s.insertCampaign row) := by
  cases hrow : s.campaign? row.id with
  | none =>
      have hcontains : s.campaigns.contains row.id = false := by
        have hget : s.campaigns.get? row.id = none := hrow
        simp [Table.contains, hget]
      have hrefused : s.update row = .error (.persistence s!"campaign {row.id} not found") := by
        rw [Store.update, hcontains]
        rfl
      exact .inl ⟨rfl, hrefused, by simp only [act, hrefused]⟩
  | some old =>
      have hcontains : s.campaigns.contains row.id = true := by
        have hget : s.campaigns.get? row.id = some old := hrow
        simp [Table.contains, hget]
      have hstored : s.update row = .ok (s.insertCampaign row) := by
        rw [Store.update, if_pos hcontains]
      exact .inr ⟨rfl, hstored, by simp only [act, hstored]⟩

theorem campaign?_insertCampaign (s : Store) (c : Campaign) (id : Uuid) :
    (s.insertCampaign c).campaign? id = if c.id = id then some c else s.campaign? id :=
  Table.get?_insert s.campaigns c.id id c

/-- What is done changes the map that it concerns, whatever the others hold, and no other. -/
theorem act_only (s : Store) (a : Act) (part : Part) :
    (s.act a).only part = if a.part = part then ((s.only part).act a).only part else s.only part := by
  have hupdate : ∀ row, (s.act (.update row)).only part =
      if Part.campaigns = part then ((s.only part).act (.update row)).only part
      else s.only part := by
    intro row
    rcases s.update_cases row with ⟨hunknown, -, hsame⟩ | ⟨hknown, -, hstored⟩
    · rw [hsame]
      split
      · next hpart =>
          subst hpart
          rcases (s.only .campaigns).update_cases row with ⟨-, -, hsame'⟩ | ⟨hknown, -, -⟩
          · rw [hsame']
            rfl
          · exact absurd hunknown (Option.isSome_iff_ne_none.mp hknown)
      · rfl
    · rw [hstored]
      split
      · next hpart =>
          subst hpart
          rcases (s.only .campaigns).update_cases row with ⟨hunknown, -, -⟩ | ⟨-, -, hstored'⟩
          · exact absurd hunknown (Option.isSome_iff_ne_none.mp hknown)
          · rw [hstored']
            rfl
      · next hpart => cases part <;> first | rfl | exact absurd rfl hpart
  cases a with
  | update row => exact hupdate row
  | insertTenant | removeTenant | insertSegment | insertEmail | createCampaign =>
      cases part <;> rfl

/-- **Each map is what was done to it.** -/
theorem after_only (acts : List Act) (part : Part) :
    (after acts).only part = (after (acts.filter (·.part = part))).only part := by
  induction acts using List.reverseRecOn with
  | nil => rfl
  | append_singleton acts a ih =>
      rw [after_snoc, act_only, List.filter_append]
      by_cases hpart : a.part = part
      · have hfilter : [a].filter (·.part = part) = [a] := by simp [hpart]
        rw [if_pos hpart, ih, hfilter, after_snoc, act_only (after (acts.filter _)), if_pos hpart]
      · have hfilter : [a].filter (·.part = part) = [] := by simp [hpart]
        rw [if_neg hpart, ih, hfilter, List.append_nil]

/-! ### One thing after another -/

/-- What is true of a store stays true if nothing that is done makes it false. -/
theorem onward_keeps {P : Store → Prop} (hs : P s) (h : ∀ a ∈ acts, ∀ t, P t → P (t.act a)) :
    P (s.onward acts) := by
  induction acts generalizing s with
  | nil => exact hs
  | cons a rest ih =>
      exact ih (h a List.mem_cons_self s hs) fun b hb => h b (List.mem_cons_of_mem _ hb)

/-- An identifier that was made is not made again. -/
theorem Fresh.not_made {a : Act} {key : Part × Uuid} (h : Fresh (before ++ a :: later))
    (hmade : a.made? = some key) :
    (∀ b ∈ before, b.made? ≠ some key) ∧ ∀ b ∈ later, b.made? ≠ some key := by
  have hkeys : (before.filterMap Act.made? ++ key :: later.filterMap Act.made?).Nodup := by
    rw [Fresh, List.filterMap_append, List.filterMap_cons_some hmade] at h
    exact h
  obtain ⟨-, hlater, hapart⟩ := List.nodup_append.mp hkeys
  refine ⟨fun b hb hsame => ?_, fun b hb hsame => ?_⟩
  · exact hapart key (List.mem_filterMap.mpr ⟨b, hb, hsame⟩) key List.mem_cons_self rfl
  · exact (List.nodup_cons.mp hlater).1 (List.mem_filterMap.mpr ⟨b, hb, hsame⟩)

/-- Every store came about by what was done to it. -/
theorem built_after (acts : List Act) : (after acts).Built := by
  induction acts using List.reverseRecOn with
  | nil => exact .empty
  | append_singleton acts a ih =>
      rw [after_snoc]
      cases a with
      | insertTenant id name fromEmail => exact .insertTenant _ ih
      | removeTenant id => exact .removeTenant id ih
      | insertSegment id members => exact .insertSegment id members ih
      | insertEmail id tenant name html => exact .insertTemplate _ ih
      | createCampaign id variants draft now => exact .insertCampaign _ ih
      | update row =>
          rcases (after acts).update_cases row with ⟨-, -, hsame⟩ | ⟨-, hok, hstored⟩
          · exact hsame.symm ▸ ih
          · exact hstored.symm ▸ ih.update hok

/-! ### What is under an identifier -/

/-- What is done changes no map that it does not concern. -/
theorem act_aside (s : Store) (a : Act) (part : Part) (h : a.part ≠ part) :
    (s.act a).only part = s.only part := by
  rw [act_only, if_neg h]

/-- The tenant under an identifier, after one thing was done. -/
theorem tenant_act (s : Store) (a : Act) (id : Uuid) :
    (s.act a).tenants.get? id =
      match a with
      | .insertTenant other name fromEmail =>
        if other = id then some ⟨other, name, fromEmail⟩ else s.tenants.get? id
      | .removeTenant other => if other = id then none else s.tenants.get? id
      | _ => s.tenants.get? id := by
  have haside := s.act_aside a .tenants
  cases a with
  | insertTenant => exact Table.get?_insert ..
  | removeTenant => exact Table.get?_erase ..
  | insertSegment | insertEmail | createCampaign | update =>
      exact congrArg (·.tenants.get? id) (haside (by simp [Act.part]))

/-- The segment under an identifier, after one thing was done. -/
theorem segment_act (s : Store) (a : Act) (id : Uuid) :
    (s.act a).segments.get? id =
      match a with
      | .insertSegment other members => if other = id then some members else s.segments.get? id
      | _ => s.segments.get? id := by
  have haside := s.act_aside a .segments
  cases a with
  | insertSegment => exact Table.get?_insert ..
  | insertTenant | removeTenant | insertEmail | createCampaign | update =>
      exact congrArg (·.segments.get? id) (haside (by simp [Act.part]))

/-- The template under an identifier, after one thing was done. -/
theorem template_act (s : Store) (a : Act) (id : Uuid) :
    (s.act a).templates.get? id =
      match a with
      | .insertEmail other tenant name html =>
        if other = id then some (.ofHtml other tenant name html) else s.templates.get? id
      | _ => s.templates.get? id := by
  have haside := s.act_aside a .templates
  cases a with
  | insertEmail => exact Table.get?_insert ..
  | insertTenant | removeTenant | insertSegment | createCampaign | update =>
      exact congrArg (·.templates.get? id) (haside (by simp [Act.part]))

/-- The row under an identifier, after one thing was done. -/
theorem campaign_act (s : Store) (a : Act) (id : Uuid) :
    (s.act a).campaign? id =
      match a with
      | .createCampaign other variants draft now =>
        if other = id then some (draft.campaign other variants now) else s.campaign? id
      | _ => (storedBy id s a).or (s.campaign? id) := by
  cases a with
  | createCampaign => exact campaign?_insertCampaign ..
  | insertTenant | removeTenant | insertSegment | insertEmail => rfl
  | update row =>
      rcases s.update_cases row with ⟨-, hrefused, hsame⟩ | ⟨-, hok, hstored⟩
      · simp [hsame, storedBy, hrefused, Except.isOk, Except.toBool]
      · rw [hstored, campaign?_insertCampaign]
        by_cases hid : row.id = id <;> simp [storedBy, hok, hid, Except.isOk, Except.toBool]

/-! ### Tenants, segments and templates -/

/-- A tenant that is not there is there only once it is inserted. -/
theorem tenant_missing (hs : s.tenants.get? id = none)
    (hlater : ∀ a ∈ later, a.made? ≠ some (.tenants, id)) :
    (s.onward later).tenants.get? id = none := by
  refine onward_keeps (P := fun s => s.tenants.get? id = none) hs fun a ha t ht => ?_
  rw [tenant_act]
  cases a with
  | insertTenant other =>
      have hother : other ≠ id := fun h => hlater _ ha (by rw [h]; rfl)
      exact (if_neg hother).trans ht
  | removeTenant => simp [ht]
  | insertSegment | insertEmail | createCampaign | update => exact ht

/-- A tenant that is there stays until it is removed. -/
theorem tenant_kept {tenant : Tenant} (hs : s.tenants.get? id = some tenant)
    (hlater : ∀ a ∈ later, a.made? ≠ some (.tenants, id)) (hkept : .removeTenant id ∉ later) :
    (s.onward later).tenants.get? id = some tenant := by
  refine onward_keeps (P := fun s => s.tenants.get? id = some tenant) hs fun a ha t ht => ?_
  rw [tenant_act]
  cases a with
  | insertTenant other =>
      have hother : other ≠ id := fun h => hlater _ ha (by rw [h]; rfl)
      exact (if_neg hother).trans ht
  | removeTenant other =>
      have hother : other ≠ id := fun h => hkept (h ▸ ha)
      exact (if_neg hother).trans ht
  | insertSegment | insertEmail | createCampaign | update => exact ht

/-- What there is of a segment stays until one is inserted. -/
theorem segment_kept {members? : Option (List String)} (hs : s.segments.get? id = members?)
    (hlater : ∀ a ∈ later, a.made? ≠ some (.segments, id)) :
    (s.onward later).segments.get? id = members? := by
  refine onward_keeps (P := fun s => s.segments.get? id = members?) hs fun a ha t ht => ?_
  rw [segment_act]
  cases a with
  | insertSegment other =>
      have hother : other ≠ id := fun h => hlater _ ha (by rw [h]; rfl)
      exact (if_neg hother).trans ht
  | insertTenant | removeTenant | insertEmail | createCampaign | update => exact ht

/-- What there is of a template stays until one is inserted. -/
theorem template_kept {template? : Option Template} (hs : s.templates.get? id = template?)
    (hlater : ∀ a ∈ later, a.made? ≠ some (.templates, id)) :
    (s.onward later).templates.get? id = template? := by
  refine onward_keeps (P := fun s => s.templates.get? id = template?) hs fun a ha t ht => ?_
  rw [template_act]
  cases a with
  | insertEmail other =>
      have hother : other ≠ id := fun h => hlater _ ha (by rw [h]; rfl)
      exact (if_neg hother).trans ht
  | insertTenant | removeTenant | insertSegment | createCampaign | update => exact ht

/-! ### Campaigns -/

theorem rowsStored_append (id : Uuid) (s : Store) (before later : List Act) :
    rowsStored id s (before ++ later) =
      rowsStored id s before ++ rowsStored id (s.onward before) later := by
  induction before generalizing s with
  | nil => rfl
  | cons a rest ih => simp [rowsStored, ih]

/-- No row is stored before the campaign is there. -/
theorem rowsStored_missing (hs : s.campaign? id = none)
    (hlater : ∀ a ∈ later, a.made? ≠ some (.campaigns, id)) :
    rowsStored id s later = [] ∧ (s.onward later).campaign? id = none := by
  induction later generalizing s with
  | nil => exact ⟨rfl, hs⟩
  | cons a rest ih =>
      have hnone : storedBy id s a = none := by
        cases a with
        | update row =>
            rw [storedBy, if_neg]
            rintro ⟨rfl, hok⟩
            rcases s.update_cases row with ⟨-, hrefused, -⟩ | ⟨hknown, -, -⟩
            · rw [hrefused] at hok
              cases hok
            · rw [hs] at hknown
              cases hknown
        | insertTenant | removeTenant | insertSegment | insertEmail | createCampaign => rfl
      have hact : (s.act a).campaign? id = none := by
        rw [campaign_act]
        have hmade := hlater a List.mem_cons_self
        cases a with
        | createCampaign other =>
            have hother : other ≠ id := fun h => hmade (by rw [h]; rfl)
            exact (if_neg hother).trans hs
        | insertTenant | removeTenant | insertSegment | insertEmail | update =>
            simp only [hnone, hs, Option.or_none]
      obtain ⟨hrows, hmissing⟩ := ih hact fun b hb => hlater b (List.mem_cons_of_mem _ hb)
      exact ⟨by rw [rowsStored, hnone, hrows]; rfl, hmissing⟩

/-- A campaign's row is the last one that was stored since. -/
theorem campaign?_onward {c : Campaign} (hs : s.campaign? id = some c)
    (hlater : ∀ a ∈ later, a.made? ≠ some (.campaigns, id)) :
    (s.onward later).campaign? id = some ((rowsStored id s later).getLast?.getD c) := by
  induction later generalizing s c with
  | nil => exact hs
  | cons a rest ih =>
      have hrest : ∀ b ∈ rest, b.made? ≠ some (.campaigns, id) := fun b hb =>
        hlater b (List.mem_cons_of_mem _ hb)
      have hact : (s.act a).campaign? id = some ((storedBy id s a).getD c) := by
        rw [campaign_act]
        have hmade := hlater a List.mem_cons_self
        cases a with
        | createCampaign other =>
            have hother : other ≠ id := fun h => hmade (by rw [h]; rfl)
            exact (if_neg hother).trans hs
        | insertTenant | removeTenant | insertSegment | insertEmail => exact hs
        | update row =>
            show (storedBy id s (.update row)).or (s.campaign? id) = _
            rw [hs, Option.or_some]
      rw [onward_cons, ih hact hrest, rowsStored]
      cases storedBy id s a <;> simp [List.getLast?_cons]

/-- **A campaign's row is the last one that was stored**, or the one it was created with. -/
theorem campaign?_of_created {variants : List Uuid} {draft : Draft} {now : Instant}
    (h : Fresh acts) (hcreated : .createCampaign id variants draft now ∈ acts) :
    (after acts).campaign? id =
      some ((rowsStored id empty acts).getLast?.getD (draft.campaign id variants now)) := by
  obtain ⟨before, later, rfl⟩ := List.append_of_mem hcreated
  obtain ⟨hbefore, hlater⟩ := h.not_made rfl
  obtain ⟨hnone, hmissing⟩ := rowsStored_missing (s := empty) rfl hbefore
  have hcreated : ((empty.onward before).act (.createCampaign id variants draft now)).campaign? id =
      some (draft.campaign id variants now) := by
    rw [campaign_act]
    exact if_pos rfl
  rw [after, onward_append, onward_cons, campaign?_onward hcreated hlater, rowsStored_append, hnone,
    rowsStored]
  rfl

/-! ### All that is answered -/

theorem made_tenant_iff :
    (∀ a ∈ acts, a.made? ≠ some (.tenants, id)) ↔
      ∀ name fromEmail, .insertTenant id name fromEmail ∉ acts := by
  refine ⟨fun h name fromEmail hmem => h _ hmem rfl, fun h a ha hmade => ?_⟩
  cases a with
  | insertTenant other name fromEmail =>
      simp only [Act.made?, Option.some.injEq, Prod.mk.injEq, true_and] at hmade
      exact h name fromEmail (hmade ▸ ha)
  | removeTenant | insertSegment | insertEmail | createCampaign | update => simp [Act.made?] at hmade

/-- A tenant was never inserted, or it was removed since. -/
def TenantGone (id : Uuid) (acts : List Act) : Prop :=
  (∀ name fromEmail, .insertTenant id name fromEmail ∉ acts) ∨
    ∃ before later, acts = before ++ .removeTenant id :: later ∧
      ∀ name fromEmail, .insertTenant id name fromEmail ∉ later

theorem tenant_of_gone (h : TenantGone id acts) :
    (after acts).tenant id = .error (.tenantLookup id "tenant not found") := by
  have hnone : (after acts).tenants.get? id = none := by
    rcases h with hnever | ⟨before, later, rfl, hlater⟩
    · exact tenant_missing rfl (made_tenant_iff.mpr hnever)
    · rw [after, onward_append, onward_cons]
      refine tenant_missing ?_ (made_tenant_iff.mpr hlater)
      rw [tenant_act]
      exact if_pos rfl
  simp only [Store.tenant, hnone]

/-- A tenant that was inserted is removed since, or it is there. -/
theorem tenant_of_inserted {name : String} {fromEmail : Option String} (h : Fresh acts)
    (hinserted : .insertTenant id name fromEmail ∈ acts) :
    TenantGone id acts ∨ (after acts).tenant id = .ok ⟨id, name, fromEmail⟩ := by
  obtain ⟨before, later, rfl⟩ := List.append_of_mem hinserted
  obtain ⟨-, hlater⟩ := h.not_made rfl
  by_cases hremoved : .removeTenant id ∈ later
  · obtain ⟨middle, rest, rfl⟩ := List.append_of_mem hremoved
    refine .inl (.inr ⟨before ++ .insertTenant id name fromEmail :: middle, rest, by simp, ?_⟩)
    exact made_tenant_iff.mp fun a ha =>
      hlater a (List.mem_append_right _ (List.mem_cons_of_mem _ ha))
  · refine .inr ?_
    have hthere : ((empty.onward before).act (.insertTenant id name fromEmail)).tenants.get? id =
        some ⟨id, name, fromEmail⟩ := by
      rw [tenant_act]
      exact if_pos rfl
    simp only [Store.tenant, after, onward_append, onward_cons,
      tenant_kept hthere hlater hremoved]

/-- **A tenant is not found exactly if it was never inserted or was removed since.** -/
theorem tenant_error_iff (h : Fresh acts) :
    (∃ fault, (after acts).tenant id = .error fault) ↔ TenantGone id acts := by
  refine ⟨fun ⟨fault, hfault⟩ => ?_, fun hgone => ⟨_, tenant_of_gone hgone⟩⟩
  by_cases hnever : ∀ name fromEmail, .insertTenant id name fromEmail ∉ acts
  · exact .inl hnever
  · simp only [not_forall, not_not] at hnever
    obtain ⟨name, fromEmail, hinserted⟩ := hnever
    refine (tenant_of_inserted h hinserted).resolve_right fun hok => ?_
    rw [hok] at hfault
    cases hfault

theorem segment_of_inserted {members : List String} (h : Fresh acts)
    (hinserted : .insertSegment id members ∈ acts) :
    (after acts).segments.get? id = some members := by
  obtain ⟨before, later, rfl⟩ := List.append_of_mem hinserted
  rw [after, onward_append, onward_cons]
  refine segment_kept ?_ (h.not_made rfl).2
  rw [segment_act]
  exact if_pos rfl

/-- **A template is its own tenant's**, who reads the HTML in it.  No other tenant gets it. -/
theorem template_of_insertEmail {owner : Uuid} {name html : String} (h : Fresh acts)
    (hinserted : .insertEmail id owner name html ∈ acts) (tenant : Tenant) :
    (after acts).template tenant id =
      if owner = tenant.id then .ok (.ofHtml id owner name html)
      else .error (.contentFetch s!"email {id} not found for tenant {tenant.id}") := by
  obtain ⟨before, later, rfl⟩ := List.append_of_mem hinserted
  have hthere : (after (before ++ .insertEmail id owner name html :: later)).templates.get? id =
      some (.ofHtml id owner name html) := by
    rw [after, onward_append, onward_cons]
    refine template_kept ?_ (h.not_made rfl).2
    rw [template_act]
    exact if_pos rfl
  simp only [Store.template, hthere]
  rfl

/-- The campaigns that are due are those on file that are, each once, the longest due first. -/
theorem due_after (acts : List Act) (cutoff : Int) :
    (((after acts).due cutoff).map (·.id)).Nodup ∧
    ((after acts).due cutoff).Pairwise (·.schedule ≤ ·.schedule) ∧
    ∀ c, c ∈ (after acts).due cutoff ↔
      (∃ id, (after acts).campaign? id = some c) ∧ c.status = .pending ∧ c.schedule ≤ cutoff := by
  have hsound := (built_after acts).sound
  refine ⟨(hsound.due cutoff).1, ?_, fun c => ?_⟩
  · let le (a b : Campaign) : Bool := a.schedule ≤ b.schedule
    have htrans (a b c : Campaign) (hab : le a b = true) (hbc : le b c = true) :
        le a c = true := by
      simp only [le, decide_eq_true_eq] at hab hbc ⊢
      exact hab.trans hbc
    have htotal (a b : Campaign) : (le a b || le b a) = true := by
      simpa [le] using le_total a.schedule b.schedule
    have hsorted := List.pairwise_mergeSort htrans htotal
      ((after acts).campaigns.values.filter (·.isDue cutoff))
    exact hsorted.imp fun hle => of_decide_eq_true hle
  · rw [hsound.mem_due]
    have hdue : c.isDue cutoff = true ↔ c.status = .pending ∧ c.schedule ≤ cutoff := by
      simp [Campaign.isDue]
    rw [hdue]
    refine and_congr_left fun _ => ⟨fun h => ⟨_, h⟩, fun ⟨id, h⟩ => ?_⟩
    exact hsound.campaign?_of_mem (Table.mem_values_of_get? h)

/-- No campaign is under an identifier that none was created with. -/
theorem campaign?_of_never (hnever : ∀ variants draft now,
    .createCampaign id variants draft now ∉ acts) : (after acts).campaign? id = none := by
  refine (rowsStored_missing (s := empty) rfl fun a ha hmade => ?_).2
  cases a with
  | createCampaign other variants draft now =>
      simp only [Act.made?, Option.some.injEq, Prod.mk.injEq, true_and] at hmade
      exact hnever variants draft now (hmade ▸ ha)
  | insertTenant | removeTenant | insertSegment | insertEmail | update => simp [Act.made?] at hmade

/-- **A store answers as four maps do.**  Each of them is what was done to it.  What is due are the
pending campaigns on file whose time has come, each once and the longest due first; a campaign's row
is the last one that was stored, or the one it was created with; a row with an unknown identifier is
refused and changes nothing, any other takes its place and changes nothing else; a tenant is not
found exactly if it was never inserted or was removed since; a segment has the members it was
inserted with; and the tenant of an email, no other, reads the HTML it was inserted with. -/
theorem four_maps (h : Fresh acts) :
    let s := after acts
    (∀ part, s.only part = (after (acts.filter (·.part = part))).only part) ∧
    (∀ cutoff, ((s.due cutoff).map (·.id)).Nodup ∧
      (s.due cutoff).Pairwise (·.schedule ≤ ·.schedule) ∧
      ∀ c, c ∈ s.due cutoff ↔
        (∃ id, s.campaign? id = some c) ∧ c.status = .pending ∧ c.schedule ≤ cutoff) ∧
    (∀ id, (∀ variants draft now, .createCampaign id variants draft now ∈ acts →
        s.campaign? id =
          some ((rowsStored id empty acts).getLast?.getD (draft.campaign id variants now))) ∧
      ((∀ variants draft now, .createCampaign id variants draft now ∉ acts) →
        s.campaign? id = none)) ∧
    (∀ row, (s.campaign? row.id = none →
        s.update row = .error (.persistence s!"campaign {row.id} not found") ∧
        s.act (.update row) = s) ∧
      ((s.campaign? row.id).isSome →
        s.update row = .ok (s.act (.update row)) ∧
        (∀ part, part ≠ .campaigns → (s.act (.update row)).only part = s.only part) ∧
        ∀ id, (s.act (.update row)).campaign? id =
          if row.id = id then some row else s.campaign? id)) ∧
    (∀ id, ((∃ fault, s.tenant id = .error fault) ↔ TenantGone id acts) ∧
      (TenantGone id acts → s.tenant id = .error (.tenantLookup id "tenant not found")) ∧
      ∀ name fromEmail, .insertTenant id name fromEmail ∈ acts →
        TenantGone id acts ∨ s.tenant id = .ok ⟨id, name, fromEmail⟩) ∧
    (∀ id members, .insertSegment id members ∈ acts → s.segments.get? id = some members) ∧
    (∀ id owner name html, .insertEmail id owner name html ∈ acts → ∀ tenant : Tenant,
      (tenant.id = owner →
        ∃ t, s.template tenant id = .ok t ∧ Body.decode t.body = .ok html) ∧
      (tenant.id ≠ owner →
        s.template tenant id =
          .error (.contentFetch s!"email {id} not found for tenant {tenant.id}"))) := by
  refine ⟨after_only acts, due_after acts, fun id => ⟨fun _ _ _ => campaign?_of_created h,
    campaign?_of_never⟩, fun row => ⟨fun hunknown => ?_, fun hknown => ?_⟩, fun id =>
    ⟨tenant_error_iff h, tenant_of_gone, fun _ _ => tenant_of_inserted h⟩,
    fun _ _ => segment_of_inserted h, fun id owner name html hinserted tenant =>
    ⟨fun hown => ?_, fun hother => ?_⟩⟩
  · rcases (after acts).update_cases row with ⟨-, hrefused, hsame⟩ | ⟨hknown, -, -⟩
    · exact ⟨hrefused, hsame⟩
    · simp [hunknown] at hknown
  · rcases (after acts).update_cases row with ⟨hunknown, -, -⟩ | ⟨-, hok, hstored⟩
    · simp [hunknown] at hknown
    · refine ⟨by rw [hok, hstored], fun part hpart => act_aside _ _ _ (Ne.symm hpart), fun id => ?_⟩
      rw [hstored, campaign?_insertCampaign]
  · refine ⟨.ofHtml id owner name html, ?_, Body.decode_encode html⟩
    rw [template_of_insertEmail h hinserted, if_pos hown.symm]
  · rw [template_of_insertEmail h hinserted, if_neg (Ne.symm hother)]

/-- A campaign of the first of two tenants. -/
def springRow : Campaign :=
  (⟨.ofNat 1, "spring", .ofNat 3, 10, []⟩ : Draft).campaign (.ofNat 5) [] .epoch

/-- Two tenants, of whom the second is gone in the end, and a campaign that has started to run. -/
def spring : List Act :=
  [.insertTenant (.ofNat 1) "Acme" none, .insertTenant (.ofNat 2) "Bold" none,
    .insertSegment (.ofNat 3) ["ada@example.com"],
    .insertEmail (.ofNat 4) (.ofNat 1) "note" "<b>hello</b>",
    .createCampaign (.ofNat 5) [] ⟨.ofNat 1, "spring", .ofNat 3, 10, []⟩ .epoch,
    .update { springRow with status := .running },
    .update { springRow with id := .ofNat 6 },
    .removeTenant (.ofNat 2)]

theorem four_maps_of_spring :
    Fresh spring ∧
    (after spring).campaign? (.ofNat 5) = some { springRow with status := .running } ∧
    (∀ c ∈ (after spring).due 10, c.status = .pending) ∧
    (after spring).tenant (.ofNat 1) = .ok ⟨.ofNat 1, "Acme", none⟩ ∧
    (∃ fault, (after spring).tenant (.ofNat 2) = .error fault) ∧
    (∃ t, (after spring).template ⟨.ofNat 1, "Acme", none⟩ (.ofNat 4) = .ok t ∧
      Body.decode t.body = .ok "<b>hello</b>") := by
  have hfresh : Fresh spring := by decide
  obtain ⟨-, hdue, hrows, -, htenants, -, hemails⟩ := four_maps hfresh
  have hgone : TenantGone (.ofNat 2) spring :=
    .inr ⟨spring.take 7, [], rfl, by simp⟩
  refine ⟨hfresh, ?_, fun c hc => (((hdue 10).2.2 c).mp hc).2.1, rfl,
    (htenants (.ofNat 2)).1.mpr hgone, ?_⟩
  · rw [(hrows (.ofNat 5)).1 [] ⟨.ofNat 1, "spring", .ofNat 3, 10, []⟩ .epoch (by decide)]
    rfl
  · exact (hemails (.ofNat 4) (.ofNat 1) "note" "<b>hello</b>" (by decide) _).1 rfl

end Mailshot.Store

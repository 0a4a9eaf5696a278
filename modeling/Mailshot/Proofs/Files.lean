import Mailshot.Proofs.Keeping
import Mailshot.Proofs.Ledger
import Mailshot.Proofs.Table

/-!
# Rows on file

A world may have the rows of campaigns on file, one under each identifier.  What is due is picked from
the file, and the file changes only where a row is stored: that row takes the place of the one before,
and a row that is refused takes no place.

* `World.Files`: a world that has rows on file;
* `World.Files.row?_of_history`: the row on file after any calls;
* `World.Files.ok_of_history`: where rows on file are never refused;
* `Store.Built.sound`: in a store every campaign is under its own identifier;
* `Office.files`, `Script.files`: offices have rows on file, and rehearsals.
-/

namespace Mailshot

/-- The world has rows on file in sound states: `row?` finds the one under an identifier. -/
structure World.Files {σ : Type} (w : World σ) (Sound : σ → Prop)
    (row? : Uuid → σ → Option Campaign) : Prop where
  /-- What is due is on file, pending, and named once. -/
  due {cutoff : Int} {s t : σ} {due : List Campaign} : Sound s → w.due cutoff s = (.ok due, t) →
    (due.map (·.id)).Nodup ∧ ∀ c ∈ due, row? c.id s = some c ∧ c.isDue cutoff = true
  asked {cutoff : Int} {s t : σ} {reply : Reply (List Campaign)} : Sound s →
    w.due cutoff s = (reply, t) → Sound t ∧ ∀ id, row? id t = row? id s
  sound {s t : σ} {made : Call} : Sound s → w.Answers s made t → Sound t
  keeps {s : σ} {id : Uuid} : Sound s → (row? id s).isSome → w.Keeps s id (row? id)
  aside {s t : σ} {made : Call} (id : Uuid) : Sound s → w.Answers s made t →
    made.isUpdate = false → row? id t = row? id s

namespace World.Files

variable {σ : Type} {w : World σ} {Sound : σ → Prop} {row? : Uuid → σ → Option Campaign} {s t : σ}
  {calls : List Call} {id : Uuid}

theorem sound_of_history (hf : w.Files Sound row?) (hs : Sound s) (h : w.History s calls t) :
    Sound t := by
  induction calls generalizing s with
  | nil =>
      obtain rfl : t = s := h
      exact hs
  | cons made rest ih =>
      obtain ⟨u, hmade, hrest⟩ := h
      exact ih (hf.sound hs hmade) hrest

/-- **The row on file** is the last one that was stored, or the one at the start when none was. -/
theorem row?_of_history (hf : w.Files Sound row?) (hs : Sound s) (hrow : (row? id s).isSome)
    (h : w.History s calls t)
    (hreturned : ∀ row reply, Call.update row reply ∈ calls → row.id = id → reply.Returns) :
    row? id t = (Call.storedFor id calls).getLast?.or (row? id s) := by
  refine (hf.keeps hs hrow).row?_of_history ?_ hreturned h
  intro before made t u _ hworker hbefore hanswer
  exact hf.aside id (hf.sound_of_history hs hbefore) hanswer hworker

/-- Where rows on file are never refused, none of a campaign on file is. -/
theorem ok_of_history (hf : w.Files Sound row?)
    (htakes : ∀ {s : σ} {row : Campaign}, Sound s → (row? row.id s).isSome →
      (w.update row s).1 = .ok ())
    (hs : Sound s) (hrow : (row? id s).isSome) (h : w.History s calls t)
    (hreturned : ∀ row reply, Call.update row reply ∈ calls → row.id = id → reply.Returns)
    {row : Campaign} {reply : Reply Unit} (hmade : .update row reply ∈ calls) (hid : row.id = id) :
    reply = .ok () := by
  obtain ⟨before, after, rfl⟩ := List.append_of_mem hmade
  obtain ⟨u, hbefore, v, hanswer, -⟩ := World.history_append.mp h
  have hupdate : w.update row u = (reply, v) := hanswer
  have hsome : (row? row.id u).isSome := by
    rw [hid, hf.row?_of_history hs hrow hbefore fun other reply' hother =>
      hreturned other reply' (List.mem_append_left _ hother)]
    cases (Call.storedFor id before).getLast? <;> simp [hrow]
  have htaken := htakes (hf.sound_of_history hs hbefore) hsome
  rwa [hupdate] at htaken

end World.Files

namespace Store

/-- Every campaign is under its own identifier, and no identifier is there twice. -/
structure Sound (s : Store) : Prop where
  keys : s.campaigns.keys.Nodup
  filed : ∀ entry ∈ s.campaigns.entries, entry.2.id = entry.1

/-- A store that came about by the calls there are. -/
inductive Built : Store → Prop where
  | empty : Built .empty
  | insertTenant {s : Store} (t : Tenant) (h : Built s) : Built (s.insertTenant t)
  | removeTenant {s : Store} (id : Uuid) (h : Built s) : Built (s.removeTenant id)
  | insertSegment {s : Store} (id : Uuid) (members : List String) (h : Built s) :
      Built (s.insertSegment id members)
  | insertTemplate {s : Store} (t : Template) (h : Built s) : Built (s.insertTemplate t)
  | insertCampaign {s : Store} (c : Campaign) (h : Built s) : Built (s.insertCampaign c)
  | update {s t : Store} {row : Campaign} (h : Built s) (hrow : s.update row = .ok t) : Built t

theorem Sound.insertCampaign {s : Store} (h : s.Sound) (c : Campaign) : (s.insertCampaign c).Sound where
  keys := Table.nodup_insert h.keys c.id c
  filed entry hentry := by
    rcases Table.mem_of_mem_put hentry with rfl | hentry
    · rfl
    · exact h.filed entry hentry

/-- **Every store is sound.** -/
theorem Built.sound {s : Store} (h : s.Built) : s.Sound := by
  induction h with
  | empty => exact ⟨List.nodup_nil, by simp [Store.empty, Table.empty]⟩
  | insertTenant | removeTenant | insertSegment | insertTemplate =>
      rename_i ih
      exact ⟨ih.keys, ih.filed⟩
  | insertCampaign c _ ih => exact ih.insertCampaign c
  | @update s t row _ hrow ih =>
      unfold Store.update at hrow
      split at hrow
      · cases hrow
        exact ih.insertCampaign row
      · cases hrow

theorem Sound.campaign?_of_mem {s : Store} (h : s.Sound) {c : Campaign}
    (hc : c ∈ s.campaigns.values) : s.campaign? c.id = some c := by
  obtain ⟨⟨key, value⟩, hentry, rfl⟩ := List.mem_map.mp hc
  obtain rfl : value.id = key := h.filed _ hentry
  exact Table.get?_of_mem h.keys hentry

theorem Sound.nodup_ids {s : Store} (h : s.Sound) : (s.campaigns.values.map (·.id)).Nodup := by
  have hids : s.campaigns.values.map (·.id) = s.campaigns.keys := by
    rw [Table.values, List.map_map, Table.keys]
    exact List.map_congr_left h.filed
  exact hids ▸ h.keys

/-- What is due is in the store, named once. -/
theorem Sound.due {s : Store} (h : s.Sound) (cutoff : Int) :
    ((s.due cutoff).map (·.id)).Nodup ∧
      ∀ c ∈ s.due cutoff, s.campaign? c.id = some c ∧ c.isDue cutoff = true := by
  have hperm : (s.due cutoff).Perm (s.campaigns.values.filter (·.isDue cutoff)) :=
    List.mergeSort_perm _ _
  refine ⟨?_, fun c hc => ?_⟩
  · rw [(hperm.map _).nodup_iff]
    exact h.nodup_ids.sublist (List.filter_sublist.map _)
  · obtain ⟨hvalue, hdue⟩ := List.mem_filter.mp (hperm.mem_iff.mp hc)
    exact ⟨h.campaign?_of_mem hvalue, hdue⟩

end Store

namespace Office

/-- Only a row that is handed over changes the store. -/
theorem store_of_answers {o u : Office} {made : Call} (h : world.Answers o made u)
    (hworker : made.isUpdate = false) : u.store = o.store := by
  cases made with
  | update => cases hworker
  | tenant | page | template | send =>
      obtain ⟨-, rfl⟩ := Prod.mk.inj h
      rfl

/-- **An office has rows on file**, where its store is sound. -/
theorem files : world.Files (·.store.Sound) fun id o => o.store.campaign? id where
  due hs hdue := by
    obtain ⟨hreply, -⟩ := Prod.mk.inj hdue
    obtain rfl := Reply.ok.inj hreply
    exact hs.due _
  asked hs hdue := by
    obtain ⟨-, rfl⟩ := Prod.mk.inj hdue
    exact ⟨hs, fun _ => rfl⟩
  sound {o u made} hs hanswer := by
    cases hworker : made.isUpdate with
    | false => exact (store_of_answers hanswer hworker).symm ▸ hs
    | true =>
        cases made with
        | update row reply =>
            rcases update_cases hanswer with ⟨-, hstore⟩ | ⟨-, rfl⟩
            · exact hstore ▸ hs.insertCampaign row
            · exact hs
        | _ => cases hworker
  keeps {o id} _ _ := keeps o id
  aside id _ hanswer hworker := by rw [store_of_answers hanswer hworker]

/-- A row on file is never refused. -/
theorem update_of_isSome {o : Office} {row : Campaign} (h : (o.store.campaign? row.id).isSome) :
    (world.update row o).1 = .ok () := by
  show (o.update row).1 = .ok ()
  have hcontains : o.store.campaigns.contains row.id = true := h
  simp only [update, Store.update, if_pos hcontains]

end Office

namespace Rehearsal

/-- A row that takes its place leaves the identifiers alone. -/
theorem ids_replaceFirst (row : Campaign) (rows : List Campaign) :
    (replaceFirst row rows).map (·.id) = rows.map (·.id) := by
  induction rows with
  | nil => rfl
  | cons c rest ih =>
      rw [replaceFirst]
      split
      · next hid => simp [hid]
      · simp [ih]

end Rehearsal

/-- **A rehearsal has rows on file** where they have different identifiers, unless it is to say
something else of what is due, or that it stored a row which it does not store. -/
theorem Script.files {script : Script} (hdue : script.due = none)
    (hfails : ∀ m ∈ script.updates, m.reply.isOk = false) :
    script.world.Files (fun r => (r.rows.map (·.id)).Nodup) fun id r =>
      r.rows.find? (·.id = id) where
  due {cutoff r t due} hids hreply := by
    have hreply : (script.dueReply cutoff r, r) = (.ok due, t) := hreply
    simp only [dueReply, hdue, Option.getD_none, Prod.mk.injEq, Reply.ok.injEq] at hreply
    obtain ⟨rfl, -⟩ := hreply
    refine ⟨hids.sublist (List.filter_sublist.map _), fun c hc => ?_⟩
    obtain ⟨hrow, hisDue⟩ := List.mem_filter.mp hc
    exact ⟨Ledger.find?_of_mem hids hrow, hisDue⟩
  asked hids hreply := by
    obtain ⟨-, rfl⟩ := Prod.mk.inj hreply
    exact ⟨hids, fun _ => rfl⟩
  sound {r t made} hids hanswer := by
    cases hworker : made.isUpdate with
    | false => rwa [rows_of_answers hanswer hworker]
    | true =>
        cases made with
        | update row reply =>
            rcases update_cases hanswer with ⟨-, hrows⟩ | ⟨-, hrows⟩
            · rwa [hrows, Rehearsal.ids_replaceFirst]
            · rwa [hrows]
        | _ => cases hworker
  keeps _ hrow := keeps hrow fun m hm _ => hfails m hm
  aside _ _ hanswer hworker := by rw [rows_of_answers hanswer hworker]

end Mailshot

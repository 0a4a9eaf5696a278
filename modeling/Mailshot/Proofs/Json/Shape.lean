import Mathlib.Data.List.Nodup
import Mathlib.Data.List.Perm.Basic
import Mailshot.Json.Record

/-!
# The ways to write a record

A record whose fields all have defaults can be written in many ways: as an object or as a list, with
fields left out, with keys that mean nothing, and the records inside it likewise.  What may be
changed without changing what is read, and what is refused, both follow from the shape of the record
alone.

* `Shape`: what a value may be, records with their fields and defaults among it;
* `Shape.Restated`: two ways to write the same, by single changes at any depth;
* `Shape.Wrong`: values that are not of a shape, the reason being at any depth;
* `Shape.Reads`: a reader that sees no difference between two ways to write the same, and that
  refuses what is wrong and nothing else;
* `Shape.Takes`, `Shape.Takes.reads`: a record that is taken field by field has such a reader if its
  fields have.
-/

namespace Mailshot.Json

/-- A field of a record: its name, what stands for it where it is missing, and what it may be. -/
structure Slot (σ : Type) where
  name : String
  default : Json
  shape : σ

/-- What a value may be. -/
inductive Shape where
  | text
  | flag
  /-- A natural number up to a bound. -/
  | count (high : Nat)
  | record (slots : List (Slot Shape))

namespace Shape

/-- The names of fields. -/
abbrev names (slots : List (Slot Shape)) : List String := slots.map (·.name)

/-- **Two ways to write the same.** -/
inductive Restated : Shape → Json → Json → Prop
  | refl {shape : Shape} (v : Json) : Restated shape v v
  | symm {shape : Shape} {v w : Json} (h : Restated shape v w) : Restated shape w v
  | trans {shape : Shape} {u v w : Json} (h : Restated shape u v) (h' : Restated shape v w) :
      Restated shape u w
  /-- Keys may be left out where their values are the defaults. -/
  | missing {slots : List (Slot Shape)} {members omitted : List (String × Json)}
      (hfresh : ∀ m ∈ omitted, m.1 ∉ members.map (·.1))
      (hdefault : ∀ m ∈ omitted, ∃ slot ∈ slots, m = (slot.name, slot.default)) :
      Restated (.record slots) (.object members) (.object (members ++ omitted))
  /-- So may elements at the end of a list. -/
  | shorter {slots : List (Slot Shape)} {items omitted : List Json}
      (hdefault : omitted <+: (slots.drop items.length).map (·.default)) :
      Restated (.record slots) (.list items) (.list (items ++ omitted))
  /-- Keys that name no field may be there or not. -/
  | unknown {slots : List (Slot Shape)} {members others : List (String × Json)}
      (hothers : ∀ m ∈ others, m.1 ∉ names slots) :
      Restated (.record slots) (.object members) (.object (members ++ others))
  /-- Keys come in any order. -/
  | order {slots : List (Slot Shape)} {members others : List (String × Json)}
      (hperm : members.Perm others) (hkeys : (members.map (·.1)).Nodup) :
      Restated (.record slots) (.object members) (.object others)
  /-- A list gives the fields in their order. -/
  | list {slots : List (Slot Shape)} {items : List Json} (hfits : items.length ≤ slots.length) :
      Restated (.record slots) (.list items) (.object ((names slots).zip items))
  /-- The value of a key may be written in another way. -/
  | member {slots : List (Slot Shape)} {slot : Slot Shape} {before after : List (String × Json)}
      {v w : Json} (hslot : slot ∈ slots) (h : Restated slot.shape v w) :
      Restated (.record slots) (.object (before ++ (slot.name, v) :: after))
        (.object (before ++ (slot.name, w) :: after))
  /-- So may an element of a list. -/
  | item {slots : List (Slot Shape)} {slot : Slot Shape} {items : List Json} {i : Nat} {v w : Json}
      (hslot : slots[i]? = some slot) (hitem : items[i]? = some v) (h : Restated slot.shape v w) :
      Restated (.record slots) (.list items) (.list (items.set i w))

/-- **What is not of a shape.** -/
inductive Wrong : Shape → Json → Prop
  | text {v : Json} (h : ∀ s, v ≠ .text s) : Wrong .text v
  | flag {v : Json} (h : ∀ b, v ≠ .bool b) : Wrong .flag v
  | count {high : Nat} {v : Json} (h : ∀ n, n ≤ high → v ≠ .nat n) : Wrong (.count high) v
  /-- A record is an object or a list. -/
  | record {slots : List (Slot Shape)} {v : Json} (hobject : ∀ members, v ≠ .object members)
      (hlist : ∀ items, v ≠ .list items) : Wrong (.record slots) v
  | longer {slots : List (Slot Shape)} {items : List Json} (h : slots.length < items.length) :
      Wrong (.record slots) (.list items)
  /-- A field that is there is wrong inside.  Keys do not occur twice; if they did, the first one
  would count. -/
  | member {slots : List (Slot Shape)} {slot : Slot Shape} {before after : List (String × Json)}
      {v : Json} (hslot : slot ∈ slots) (hfirst : slot.name ∉ before.map (·.1))
      (h : Wrong slot.shape v) : Wrong (.record slots) (.object (before ++ (slot.name, v) :: after))
  | item {slots : List (Slot Shape)} {slot : Slot Shape} {items : List Json} {i : Nat} {v : Json}
      (hslot : slots[i]? = some slot) (hitem : items[i]? = some v) (h : Wrong slot.shape v) :
      Wrong (.record slots) (.list items)

/-- Null is of no shape. -/
theorem wrong_null (shape : Shape) : Wrong shape .null := by
  cases shape with
  | text => exact .text fun _ => Json.noConfusion
  | flag => exact .flag fun _ => Json.noConfusion
  | count high => exact .count fun _ _ => Json.noConfusion
  | record slots => exact .record (fun _ => Json.noConfusion) fun _ => Json.noConfusion

/-- **A reader of a shape** sees no difference between two ways to write the same, and refuses what
is wrong and nothing else. -/
structure Reads {α : Type} (shape : Shape) (read : Json → Option α) : Prop where
  restated {v w : Json} : Restated shape v w → read v = read w
  eq_none_iff {v : Json} : read v = none ↔ Wrong shape v

/-- What is neither a record nor in one is written in one way. -/
theorem Restated.eq_of_leaf {shape : Shape} {v w : Json} (h : Restated shape v w)
    (hleaf : ∀ slots, shape ≠ .record slots) : v = w := by
  induction h with
  | refl => rfl
  | symm _ ih => exact (ih hleaf).symm
  | trans _ _ ih ih' => exact (ih hleaf).trans (ih' hleaf)
  | missing | shorter | unknown | order | list | member | item => exact absurd rfl (hleaf _)

/-- So a reader of such a value has only to refuse what is wrong. -/
theorem reads_of_leaf {α : Type} {shape : Shape} {read : Json → Option α}
    (hleaf : ∀ slots, shape ≠ .record slots) (hnone : ∀ v, read v = none ↔ Wrong shape v) :
    Reads shape read where
  restated h := congrArg read (h.eq_of_leaf hleaf)
  eq_none_iff := hnone _

theorem reads_text : Reads .text string? := by
  refine reads_of_leaf (fun _ => Shape.noConfusion) fun v =>
    ⟨fun hnone => .text ?_, fun hwrong => ?_⟩
  · rintro s rfl
    cases hnone
  · cases hwrong with
    | text h =>
        cases v with
        | text s => exact absurd rfl (h s)
        | null | bool | int | double | list | object => rfl

theorem reads_flag : Reads .flag bool? := by
  refine reads_of_leaf (fun _ => Shape.noConfusion) fun v =>
    ⟨fun hnone => .flag ?_, fun hwrong => ?_⟩
  · rintro b rfl
    cases hnone
  · cases hwrong with
    | flag h =>
        cases v with
        | bool b => exact absurd rfl (h b)
        | null | int | double | text | list | object => rfl

theorem reads_count (high : Nat) : Reads (.count high) (natTo? high) := by
  refine reads_of_leaf (fun _ => Shape.noConfusion) fun v =>
    ⟨fun hnone => .count ?_, fun hwrong => ?_⟩
  · rintro n hn rfl
    simp [natTo?, intIn?, Json.nat, hn] at hnone
  · cases hwrong with
    | count h =>
        cases v with
        | int i =>
            have hrange : ¬ (0 ≤ i ∧ i ≤ high) := fun ⟨hlow, hhigh⟩ =>
              h i.toNat (by omega) (by rw [Json.nat, Int.toNat_of_nonneg hlow])
            simp [natTo?, intIn?, hrange]
        | null | bool | double | text | list | object => rfl

/-! ### Fields -/

/-- A reader of a field with a default. -/
structure Fills {α : Type} (slot : Slot Shape) (default : α) (read : Json → Option α) : Prop where
  reads : Reads slot.shape read
  default : read slot.default = some default

/-- Two records that are the same to all readers of a field. -/
structure Alike (slot : Slot Shape) (r s : Record) : Prop where
  optional_eq {α : Type} {default : α} {read : Json → Option α} : Fills slot default read →
    r.optional slot.name default read = s.optional slot.name default read

namespace Alike

variable {slot : Slot Shape} {r s : Record} {v w : Json}

theorem of_eq (h : r.get? slot.name = s.get? slot.name) : Alike slot r s where
  optional_eq _ := by rw [Record.optional, h, ← Record.optional]

theorem of_missing (hr : r.get? slot.name = none) (hs : s.get? slot.name = some slot.default) :
    Alike slot r s where
  optional_eq hfills := by simp only [Record.optional, hr, hs, hfills.default]

theorem of_restated (hr : r.get? slot.name = some v) (hs : s.get? slot.name = some w)
    (h : Restated slot.shape v w) : Alike slot r s where
  optional_eq hfills := by simp only [Record.optional, hr, hs, hfills.reads.restated h]

end Alike

/-- **A record taken field by field**, and nothing else of it. -/
inductive Takes {α : Type} : List (Slot Shape) → (Record → Option α) → Prop
  | done (x : α) : Takes [] fun _ => some x
  | field {β : Type} {slot : Slot Shape} {slots : List (Slot Shape)} {default : β}
      {read : Json → Option β} {next : β → Record → Option α} (hfills : Fills slot default read)
      (hnext : ∀ x, Takes slots (next x)) :
      Takes (slot :: slots) fun r => (r.optional slot.name default read).bind fun x => next x r

section Takes

variable {α : Type} {slots : List (Slot Shape)} {take : Record → Option α} {r s : Record}

theorem Takes.eq (htakes : Takes slots take) (h : ∀ slot ∈ slots, Alike slot r s) :
    take r = take s := by
  induction htakes with
  | done => rfl
  | field hfills _ ih =>
      obtain ⟨hfirst, hrest⟩ := List.forall_mem_cons.mp h
      simp only [hfirst.optional_eq hfills, ih _ hrest]

/-- What is refused has a field that is wrong. -/
theorem Takes.eq_none_iff (htakes : Takes slots take) :
    take r = none ↔ ∃ slot ∈ slots, ∃ v, r.get? slot.name = some v ∧ Wrong slot.shape v := by
  induction htakes with
  | done => simp
  | @field _ slot rest default read next hfills _ ih =>
      have hfirst : r.optional slot.name default read = none ↔
          ∃ v, r.get? slot.name = some v ∧ Wrong slot.shape v := by
        rw [Record.optional]
        cases r.get? slot.name with
        | none => simp
        | some v => simp [hfills.reads.eq_none_iff]
      rw [List.exists_mem_cons_iff, ← hfirst]
      cases hread : r.optional slot.name default read with
      | none => simp [hread]
      | some x => simp [hread, ih x]

end Takes

/-! ### Look-ups -/

section Lookup

variable {members others before after : List (String × Json)} {name key : String} {v : Json}

theorem bne_of_notMem (h : name ∉ before.map (·.1)) : ∀ m ∈ before, (name != m.1) = true :=
  fun _ hm => bne_iff_ne.mpr fun heq => h (heq ▸ List.mem_map_of_mem hm)

theorem lookup_eq_none (h : name ∉ members.map (·.1)) : members.lookup name = none :=
  List.lookup_eq_none_iff.mpr (bne_of_notMem h)

/-- Among keys that do not occur twice, what is under a key is found there. -/
theorem lookup_eq_some_iff_mem (hkeys : (members.map (·.1)).Nodup) :
    members.lookup name = some v ↔ (name, v) ∈ members := by
  refine ⟨fun h => ?_, fun h => ?_⟩
  · obtain ⟨before, after, rfl, -⟩ := List.lookup_eq_some_iff.mp h
    simp
  · obtain ⟨before, after, rfl⟩ := List.append_of_mem h
    rw [List.map_append, List.map_cons, List.nodup_middle, List.nodup_cons] at hkeys
    have hfresh : name ∉ before.map (·.1) := fun hmem => hkeys.1 (List.mem_append_left _ hmem)
    exact List.lookup_eq_some_iff.mpr ⟨before, after, rfl, bne_of_notMem hfresh⟩

theorem lookup_perm (hperm : members.Perm others) (hkeys : (members.map (·.1)).Nodup)
    (name : String) : members.lookup name = others.lookup name := by
  have hothers : (others.map (·.1)).Nodup := (hperm.map _).nodup_iff.mp hkeys
  refine Option.ext fun v => ?_
  rw [lookup_eq_some_iff_mem hkeys, lookup_eq_some_iff_mem hothers, hperm.mem_iff]

theorem lookup_append_of_some (h : before.lookup name = some v) :
    (before ++ after).lookup name = some v := by
  rw [List.lookup_append, h, Option.some_or]

theorem lookup_append_of_none (h : before.lookup name = none) :
    (before ++ after).lookup name = after.lookup name := by
  rw [List.lookup_append, h, Option.none_or]

theorem lookup_insert_self (h : before.lookup key = none) :
    (before ++ (key, v) :: after).lookup key = some v := by
  rw [lookup_append_of_none h, List.lookup_cons_self]

theorem lookup_insert_of_ne (h : name ≠ key) :
    (before ++ (key, v) :: after).lookup name = (before ++ after).lookup name := by
  rw [List.lookup_append, List.lookup_append, List.lookup_cons, beq_false_of_ne h]

/-- The element of a list under the name of its place. -/
theorem lookup_zip {names : List String} {items : List Json} {i : Nat} (hnames : names.Nodup)
    (hname : names[i]? = some name) : (names.zip items).lookup name = items[i]? := by
  induction names generalizing items i with
  | nil => cases hname
  | cons first rest ih =>
      obtain ⟨hfresh, hrest⟩ := List.nodup_cons.mp hnames
      cases items with
      | nil => rfl
      | cons item items =>
          cases i with
          | zero =>
              obtain rfl := Option.some.inj hname
              exact List.lookup_cons_self
          | succ i =>
              have hne : name ≠ first := fun h => hfresh (h ▸ List.mem_of_getElem? hname)
              rw [List.zip_cons_cons, List.lookup_cons, beq_false_of_ne hne]
              exact ih hrest hname

end Lookup

/-! ### Records -/

section Record

variable {slots : List (Slot Shape)}

theorem lookup_items {slot : Slot Shape} {items : List Json} {i : Nat}
    (hnames : (names slots).Nodup) (hslot : slots[i]? = some slot) :
    ((names slots).zip items).lookup slot.name = items[i]? :=
  lookup_zip hnames (by rw [List.getElem?_map, hslot, Option.map_some])

/-- The record of an object. -/
abbrev keyed (members : List (String × Json)) : Record := ⟨fun name => members.lookup name⟩

/-- There is one field of a name. -/
theorem eq_of_name {slot other : Slot Shape} (hnames : (names slots).Nodup) (hslot : slot ∈ slots)
    (hother : other ∈ slots) (h : slot.name = other.name) : slot = other :=
  List.inj_on_of_nodup_map hnames hslot hother h

section Alike

variable {slot given : Slot Shape} {members omitted others before after : List (String × Json)}
  {items rest : List Json} {i place : Nat} {r s : Record} {v w : Json}

namespace Alike

/-- More members are nothing to a field that they give its default, if anything. -/
theorem append (hothers : ∀ v, others.lookup slot.name = some v → v = slot.default) :
    Alike slot (keyed members) (keyed (members ++ others)) := by
  cases hmembers : members.lookup slot.name with
  | some v => exact of_eq (hmembers.trans (lookup_append_of_some hmembers).symm)
  | none =>
      have happend : (members ++ others).lookup slot.name = others.lookup slot.name :=
        lookup_append_of_none hmembers
      cases hfound : others.lookup slot.name with
      | none => exact of_eq (hmembers.trans (happend.trans hfound).symm)
      | some v =>
          obtain rfl := hothers v hfound
          exact of_missing hmembers (happend.trans hfound)

theorem append_missing (hnames : (names slots).Nodup)
    (hdefault : ∀ m ∈ omitted, ∃ slot ∈ slots, m = (slot.name, slot.default))
    (hslot : slot ∈ slots) : Alike slot (keyed members) (keyed (members ++ omitted)) := by
  refine append fun v hfound => ?_
  obtain ⟨before, after, rfl, -⟩ := List.lookup_eq_some_iff.mp hfound
  obtain ⟨other, hother, heq⟩ := hdefault (slot.name, v) (by simp)
  obtain ⟨hname, rfl⟩ := Prod.mk.inj heq
  rw [eq_of_name hnames hslot hother hname]

theorem append_unknown (hothers : ∀ m ∈ others, m.1 ∉ names slots) (hslot : slot ∈ slots) :
    Alike slot (keyed members) (keyed (members ++ others)) := by
  refine append fun v hfound => ?_
  obtain ⟨before, after, rfl, -⟩ := List.lookup_eq_some_iff.mp hfound
  exact absurd (List.mem_map_of_mem hslot) (hothers (slot.name, v) (by simp))

/-- A value that is written in another way is nothing to any field. -/
theorem insert_restated (hnames : (names slots).Nodup) (hgiven : given ∈ slots)
    (h : Restated given.shape v w) (hslot : slot ∈ slots) :
    Alike slot (keyed (before ++ (given.name, v) :: after))
      (keyed (before ++ (given.name, w) :: after)) := by
  by_cases hname : slot.name = given.name
  · obtain rfl := eq_of_name hnames hslot hgiven hname
    cases hbefore : before.lookup slot.name with
    | some u =>
        exact of_eq ((lookup_append_of_some hbefore).trans (lookup_append_of_some hbefore).symm)
    | none => exact of_restated (lookup_insert_self hbefore) (lookup_insert_self hbefore) h
  · exact of_eq ((lookup_insert_of_ne hname).trans (lookup_insert_of_ne hname).symm)

/-- Elements that are left out at the end of a list. -/
theorem append_defaults (hdefault : rest <+: (slots.drop items.length).map (·.default))
    (hslot : slots[i]? = some slot) (hr : r.get? slot.name = items[i]?)
    (hs : s.get? slot.name = (items ++ rest)[i]?) : Alike slot r s := by
  rcases Nat.lt_or_ge i items.length with hin | hout
  · exact of_eq (hr.trans ((List.getElem?_append_left hin).symm.trans hs.symm))
  · rw [List.getElem?_eq_none hout] at hr
    rw [List.getElem?_append_right hout] at hs
    cases hrest : rest[i - items.length]? with
    | none => exact of_eq (hr.trans (hs.trans hrest).symm)
    | some v =>
        obtain ⟨more, hmore⟩ := hdefault
        have hv : ((slots.drop items.length).map (·.default))[i - items.length]? = some v := by
          rw [← hmore, List.getElem?_append_left (List.getElem?_eq_some_iff.mp hrest).1, hrest]
        rw [List.getElem?_map, List.getElem?_drop, Nat.add_sub_of_le hout, hslot] at hv
        exact of_missing hr (hs.trans (hrest.trans hv.symm))

/-- An element that is written in another way. -/
theorem set_restated (hgiven : slots[place]? = some given) (hitem : items[place]? = some v)
    (h : Restated given.shape v w) (hslot : slots[i]? = some slot)
    (hr : r.get? slot.name = items[i]?) (hs : s.get? slot.name = (items.set place w)[i]?) :
    Alike slot r s := by
  by_cases hplace : place = i
  · subst hplace
    obtain rfl := Option.some.inj (hgiven.symm.trans hslot)
    have hin : place < items.length := (List.getElem?_eq_some_iff.mp hitem).1
    exact of_restated (hr.trans hitem) (hs.trans (List.getElem?_set_self hin)) h
  · exact of_eq (hr.trans ((List.getElem?_set_ne hplace).symm.trans hs.symm))

end Alike

end Alike

/-- The fields of a list that is not too long. -/
theorem ofJson?_list {items : List Json} (h : items.length ≤ slots.length) :
    Record.ofJson? (names slots) (.list items) =
      some (keyed ((names slots).zip items)) :=
  if_pos (by rw [List.length_map]; exact h)

theorem ofJson?_list_of_longer {items : List Json} (h : slots.length < items.length) :
    Record.ofJson? (names slots) (.list items) = none :=
  if_neg (by rw [List.length_map]; omega)

section Takes

variable {α : Type} {take : Record → Option α} {v w : Json}

/-- Lists are taken as the same if they are to all readers of their fields. -/
theorem Takes.eq_of_items (htakes : Takes slots take) (hnames : (names slots).Nodup)
    {items others : List Json}
    (hfits : items.length ≤ slots.length ↔ others.length ≤ slots.length)
    (h : ∀ (i : Nat) (slot : Slot Shape), slots[i]? = some slot → ∀ r s : Record,
      r.get? slot.name = items[i]? → s.get? slot.name = others[i]? → Alike slot r s) :
    (Record.ofJson? (names slots) (.list items)).bind take =
      (Record.ofJson? (names slots) (.list others)).bind take := by
  by_cases hitems : items.length ≤ slots.length
  · rw [ofJson?_list hitems, ofJson?_list (hfits.mp hitems)]
    refine htakes.eq fun slot hslot => ?_
    obtain ⟨i, hi⟩ := List.mem_iff_getElem?.mp hslot
    exact h i slot hi _ _ (lookup_items hnames hi) (lookup_items hnames hi)
  · rw [ofJson?_list_of_longer (by omega), ofJson?_list_of_longer (by omega)]

/-- **What is written in two ways is taken as the same.** -/
theorem Takes.eq_of_restated (htakes : Takes slots take) (hnames : (names slots).Nodup)
    (h : Restated (.record slots) v w) :
    (Record.ofJson? (names slots) v).bind take = (Record.ofJson? (names slots) w).bind take := by
  -- What changes inside a field is up to the field's own reader, so records are all that matters.
  generalize hshape : Shape.record slots = shape at h
  induction h with
  | refl => rfl
  | symm _ ih => exact (ih hshape).symm
  | trans _ _ ih ih' => exact (ih hshape).trans (ih' hshape)
  | missing _ hdefault =>
      obtain rfl := Shape.record.inj hshape
      exact htakes.eq fun _ hslot => Alike.append_missing hnames hdefault hslot
  | shorter hdefault =>
      obtain rfl := Shape.record.inj hshape
      have hlength := hdefault.length_le
      rw [List.length_map, List.length_drop] at hlength
      refine htakes.eq_of_items hnames (by rw [List.length_append]; omega) ?_
      exact fun i slot hslot r s => Alike.append_defaults hdefault hslot
  | unknown hothers =>
      obtain rfl := Shape.record.inj hshape
      exact htakes.eq fun _ hslot => Alike.append_unknown hothers hslot
  | order hperm hkeys =>
      obtain rfl := Shape.record.inj hshape
      exact htakes.eq fun slot _ => Alike.of_eq (lookup_perm hperm hkeys slot.name)
  | list hfits =>
      obtain rfl := Shape.record.inj hshape
      rw [ofJson?_list hfits]
      rfl
  | member hgiven h _ =>
      obtain rfl := Shape.record.inj hshape
      exact htakes.eq fun _ hslot => Alike.insert_restated hnames hgiven h hslot
  | item hgiven hitem h _ =>
      obtain rfl := Shape.record.inj hshape
      refine htakes.eq_of_items hnames (by rw [List.length_set]) ?_
      exact fun i slot hslot r s => Alike.set_restated hgiven hitem h hslot

/-- What is wrong has a field that is, unless it is no record at all. -/
theorem wrong_record_iff (hnames : (names slots).Nodup) :
    Wrong (.record slots) v ↔ ∀ r, Record.ofJson? (names slots) v = some r →
      ∃ slot ∈ slots, ∃ w, r.get? slot.name = some w ∧ Wrong slot.shape w := by
  refine ⟨fun hwrong r hr => ?_, fun h => ?_⟩
  · cases hwrong with
    | record hobject hlist =>
        cases v with
        | object members => exact absurd rfl (hobject members)
        | list items => exact absurd rfl (hlist items)
        | null | bool | int | double | text => cases hr
    | longer hlonger =>
        rw [ofJson?_list_of_longer hlonger] at hr
        cases hr
    | @member _ slot before after w hslot hfirst hwrong =>
        obtain rfl := Option.some.inj hr
        exact ⟨slot, hslot, w, lookup_insert_self (lookup_eq_none hfirst), hwrong⟩
    | @item _ slot items i w hslot hitem hwrong =>
        by_cases hfits : items.length ≤ slots.length
        · rw [ofJson?_list hfits] at hr
          obtain rfl := Option.some.inj hr
          have hget := (lookup_items hnames hslot).trans hitem
          exact ⟨slot, List.mem_of_getElem? hslot, w, hget, hwrong⟩
        · rw [ofJson?_list_of_longer (by omega)] at hr
          cases hr
  · cases v with
    | object members =>
        obtain ⟨slot, hslot, w, hget, hwrong⟩ := h _ rfl
        obtain ⟨before, after, rfl, hfirst⟩ := List.lookup_eq_some_iff.mp hget
        refine .member hslot (fun hmem => ?_) hwrong
        obtain ⟨m, hm, hname⟩ := List.mem_map.mp hmem
        exact bne_iff_ne.mp (hfirst m hm) hname.symm
    | list items =>
        by_cases hfits : items.length ≤ slots.length
        · obtain ⟨slot, hslot, w, hget, hwrong⟩ := h _ (ofJson?_list hfits)
          obtain ⟨i, hi⟩ := List.mem_iff_getElem?.mp hslot
          exact .item hi ((lookup_items hnames hi).symm.trans hget) hwrong
        · exact .longer (by omega)
    | null | bool | int | double | text =>
        exact .record (fun _ => Json.noConfusion) fun _ => Json.noConfusion

/-- **A record taken field by field** has a reader of its shape. -/
theorem Takes.reads (htakes : Takes slots take) (hnames : (names slots).Nodup) :
    Reads (.record slots) fun v => (Record.ofJson? (names slots) v).bind take where
  restated h := htakes.eq_of_restated hnames h
  eq_none_iff {v} := by
    simp only [Option.bind_eq_none_iff, htakes.eq_none_iff, wrong_record_iff hnames]

end Takes

end Record

end Shape

end Mailshot.Json

import Mailshot.Campaign.Json
import Mailshot.Proofs.Instant
import Mailshot.Proofs.Uuid

/-!
# Campaign records read back

A record is written in one way only: an object with every field, identifiers in the canonical
spelling, instants in UTC.  It may be read in many ways, but whatever is read comes back from what
is written for it.  So reading and writing once settles how a record looks.

* `Json.Settled`: a type of values that come back, which is to say that they are written
  canonically, `Json.Canonical`;
* `Json.Settled.of_required`, `Json.Settled.required_write`: what is read from a field, and that a
  field which was written is read, also where it has a default;
* `Variant.settled`, `Campaign.settled`, `Tenant.settled`: records come back since their fields do;
* `Campaign.records_canonical`: all the records there are.
-/

namespace Mailshot

namespace Json

variable {α : Type} {read : Json → Option α} {write : α → Json} {P : α → Prop}

/-- **Values come back**: those that can be read are those that are `P`, and each is read from what
is written for it. -/
structure Settled (read : Json → Option α) (write : α → Json) (P : α → Prop) : Prop where
  read_write {x : α} : P x → read (write x) = some x
  of_read {v : Json} {x : α} : read v = some x → P x

/-- **Writing is canonical.**  Whatever is read, what is written for it is read as the same value
and written the same again; and the values that are `P`, which are those that can be read at all,
are read from what is written for them. -/
structure Canonical (read : Json → Option α) (write : α → Json) (P : α → Prop) : Prop where
  again {v : Json} {x : α} : read v = some x →
    read (write x) = some x ∧ (read (write x)).map write = some (write x)
  read_write {x : α} : P x → read (write x) = some x
  iff {x : α} : P x ↔ ∃ v, read v = some x

namespace Settled

theorem canonical (h : Settled read write P) : Canonical read write P where
  again {v x} hread := by
    have hback := h.read_write (h.of_read hread)
    exact ⟨hback, by rw [hback, Option.map_some]⟩
  read_write := h.read_write
  iff {x} := ⟨fun hx => ⟨_, h.read_write hx⟩, fun ⟨_, hread⟩ => h.of_read hread⟩

/-- Lists of values come back if the values do. -/
theorem list (h : Settled read write P) :
    Settled (listOf? read) (fun xs => .list (xs.map write)) fun xs => ∀ x ∈ xs, P x where
  read_write {xs} hxs := by
    show (xs.map write).mapM read = some xs
    induction xs with
    | nil => rfl
    | cons x rest ih =>
        have hrest := ih fun y hy => hxs y (List.mem_cons_of_mem _ hy)
        simp [h.read_write (hxs x List.mem_cons_self), hrest]
  of_read {v xs} hread := by
    cases v with
    | list items =>
        replace hread : items.mapM read = some xs := hread
        induction items generalizing xs with
        | nil =>
            obtain rfl : [] = xs := by simpa using hread
            simp
        | cons item rest ih =>
            simp only [List.mapM_cons, Option.bind_eq_bind, Option.pure_def,
              Option.bind_eq_some_iff, Option.some.injEq] at hread
            obtain ⟨x, hitem, ys, hrest, rfl⟩ := hread
            exact List.forall_mem_cons.mpr ⟨h.of_read hitem, ih hrest⟩
    | null | bool | int | double | text | object => cases hread

end Settled

/-! ### Values of fields -/

theorem settled_string : Settled string? .text fun _ => True where
  read_write _ := rfl
  of_read _ := trivial

theorem settled_intIn (low high : Int) :
    Settled (intIn? low high) .int fun i => low ≤ i ∧ i ≤ high where
  read_write h := if_pos h
  of_read {v i} h := by
    cases v with
    | int j =>
        simp only [intIn?, Option.ite_none_right_eq_some, Option.some.injEq] at h
        exact h.2 ▸ h.1
    | null | bool | double | text | list | object => cases h

theorem settled_natTo (high : Nat) : Settled (natTo? high) .nat (· ≤ high) where
  read_write {n} h := by
    have hint := (settled_intIn 0 high).read_write (x := n) ⟨by omega, by omega⟩
    rw [natTo?, nat, hint]
    rfl
  of_read h := by
    obtain ⟨i, hint, rfl⟩ := Option.map_eq_some_iff.mp h
    have := (settled_intIn 0 high).of_read hint
    omega

theorem settled_nullable : Settled (nullable? string?) text? fun _ => True where
  read_write {s?} _ := by cases s? <;> rfl
  of_read _ := trivial

/-! ### Fields -/

section Fields

variable {r : Record} {name : String} {x d : α}

theorem Settled.of_required (h : Settled read write P) (hread : r.required name read = some x) :
    P x := by
  rw [Record.required] at hread
  split at hread
  · exact h.of_read hread
  · cases hread

theorem Settled.of_optional (h : Settled read write P) (hd : P d)
    (hread : r.optional name d read = some x) : P x := by
  rw [Record.optional] at hread
  split at hread
  · exact h.of_read hread
  · exact Option.some.inj hread ▸ hd

/-- A field that was written is read, whether it has to be there or not. -/
theorem Settled.required_write (h : Settled read write P) (hx : P x)
    (hget : r.get? name = some (write x)) : r.required name read = some x := by
  rw [Record.required, hget]
  exact h.read_write hx

theorem Settled.optional_write (h : Settled read write P) (hx : P x)
    (hget : r.get? name = some (write x)) : r.optional name d read = some x := by
  rw [Record.optional, hget]
  exact h.read_write hx

/-- An object has the fields that it has as a value. -/
theorem Record.of_object (names : List String) {v : Json} {ms : List (String × Json)}
    (h : v = .object ms) :
    ∃ r, ofJson? names v = some r ∧ ∀ name, r.get? name = v.get? name := by
  subst h
  exact ⟨_, rfl, fun _ => rfl⟩

/-- What was read is handed on. -/
theorem bind_read {β : Type} {a : Option β} {y : β} {next : β → Option α} (h : a = some y) :
    (a >>= next) = next y := by
  rw [h]
  rfl

end Fields

end Json

open Json (Settled Record bind_read settled_string settled_nullable settled_natTo settled_intIn)

/-! ### Records -/

theorem Uuid.settled : Settled Uuid.ofJson? Uuid.toJson fun _ => True where
  read_write {u} _ := u.ofJson?_toJson
  of_read _ := trivial

theorem Instant.settled : Settled Instant.ofJson? Instant.toJson Instant.Representable where
  read_write h := by
    simp only [ofJson?, toJson, Json.string?, Option.bind_eq_bind, Option.bind_some,
      parse?_toString h]
  of_read h := by
    simp only [ofJson?, ↓Option.bind_eq_bind, Option.bind_eq_some_iff] at h
    obtain ⟨s, -, hparse⟩ := h
    exact representable_of_parse? hparse

theorem Status.settled : Settled Status.ofJson? Status.toJson fun _ => True where
  read_write {s} _ := by cases s <;> rfl
  of_read _ := trivial

namespace Variant

/-- The numbers of a variant have 32 and 64 bits. -/
structure Representable (v : Variant) : Prop where
  ratio : v.ratio ≤ greatest32
  opens : v.opens ≤ greatest64
  clicks : v.clicks ≤ greatest64

theorem settled : Settled ofJson? toJson Representable where
  read_write {v} h := by
    obtain ⟨r, hr, hget⟩ := Record.of_object fields (rfl : v.toJson = .object _)
    have hid := Uuid.settled.required_write (x := v.id) trivial (hget "id")
    have hcampaign := Uuid.settled.required_write (x := v.campaign) trivial (hget "campaign_id")
    have htemplate := Uuid.settled.required_write (x := v.template) trivial (hget "email_id")
    have hsubject := settled_string.required_write (x := v.subject) trivial (hget "subject")
    have hratio := (settled_natTo _).required_write h.ratio (hget "ratio")
    have hopens := (settled_natTo _).optional_write (d := 0) h.opens (hget "open_count")
    have hclicks := (settled_natTo _).optional_write (d := 0) h.clicks (hget "click_counts")
    rw [ofJson?, bind_read hr, bind_read hid, bind_read hcampaign, bind_read htemplate,
      bind_read hsubject, bind_read hratio, bind_read hopens, bind_read hclicks]
    rfl
  of_read {j v} h := by
    obtain ⟨r, -, h⟩ := Option.bind_eq_some_iff.mp h
    obtain ⟨id, -, h⟩ := Option.bind_eq_some_iff.mp h
    obtain ⟨campaign, -, h⟩ := Option.bind_eq_some_iff.mp h
    obtain ⟨template, -, h⟩ := Option.bind_eq_some_iff.mp h
    obtain ⟨subject, -, h⟩ := Option.bind_eq_some_iff.mp h
    obtain ⟨ratio, hratio, h⟩ := Option.bind_eq_some_iff.mp h
    obtain ⟨opens, hopens, h⟩ := Option.bind_eq_some_iff.mp h
    obtain ⟨clicks, hclicks, h⟩ := Option.bind_eq_some_iff.mp h
    obtain rfl := Option.some.inj h
    exact
      { ratio := (settled_natTo _).of_required hratio
        opens := (settled_natTo _).of_optional (Nat.zero_le _) hopens
        clicks := (settled_natTo _).of_optional (Nat.zero_le _) hclicks }

end Variant

namespace Campaign

/-- The numbers of a campaign have 8 and 64 bits, and its times are points of the calendar and the
clock. -/
structure Representable (c : Campaign) : Prop where
  segmentSize : c.segmentSize ≤ greatest64
  progress : c.progress ≤ greatest8
  variants : ∀ v ∈ c.variants, v.Representable
  schedule : leastSigned64 ≤ c.schedule ∧ c.schedule ≤ greatestSigned64
  createdAt : c.createdAt.Representable
  updatedAt : c.updatedAt.Representable

theorem settled : Settled ofJson? toJson Representable where
  read_write {c} h := by
    obtain ⟨r, hr, hget⟩ := Record.of_object fields (rfl : c.toJson = .object _)
    have hid := Uuid.settled.required_write (x := c.id) trivial (hget "id")
    have htenant := Uuid.settled.required_write (x := c.tenant) trivial (hget "tenant_id")
    have hname := settled_string.required_write (x := c.name) trivial (hget "name")
    have hdescription := settled_nullable.optional_write (x := c.description) (d := none) trivial
      (hget "description")
    have hsegment := Uuid.settled.required_write (x := c.segment) trivial (hget "segment_id")
    have hsize := (settled_natTo _).optional_write (d := 0) h.segmentSize (hget "segment_size")
    have hprogress := (settled_natTo _).optional_write (d := 0) h.progress (hget "progress")
    have hstatus := Status.settled.required_write (x := c.status) trivial (hget "status")
    have hreason := settled_nullable.optional_write (x := c.failureReason) (d := none) trivial
      (hget "failure_reason")
    have hvariants := Variant.settled.list.required_write h.variants (hget "emails")
    have hschedule := (settled_intIn _ _).required_write h.schedule (hget "schedule")
    have hcreatedAt := Instant.settled.required_write h.createdAt (hget "created_at")
    have hupdatedAt := Instant.settled.required_write h.updatedAt (hget "updated_at")
    rw [ofJson?, bind_read hr, bind_read hid, bind_read htenant, bind_read hname,
      bind_read hdescription, bind_read hsegment, bind_read hsize, bind_read hprogress,
      bind_read hstatus, bind_read hreason, bind_read hvariants, bind_read hschedule,
      bind_read hcreatedAt, bind_read hupdatedAt]
    rfl
  of_read {j c} h := by
    obtain ⟨r, -, h⟩ := Option.bind_eq_some_iff.mp h
    obtain ⟨id, -, h⟩ := Option.bind_eq_some_iff.mp h
    obtain ⟨tenant, -, h⟩ := Option.bind_eq_some_iff.mp h
    obtain ⟨name, -, h⟩ := Option.bind_eq_some_iff.mp h
    obtain ⟨description, -, h⟩ := Option.bind_eq_some_iff.mp h
    obtain ⟨segment, -, h⟩ := Option.bind_eq_some_iff.mp h
    obtain ⟨segmentSize, hsize, h⟩ := Option.bind_eq_some_iff.mp h
    obtain ⟨progress, hprogress, h⟩ := Option.bind_eq_some_iff.mp h
    obtain ⟨status, -, h⟩ := Option.bind_eq_some_iff.mp h
    obtain ⟨failureReason, -, h⟩ := Option.bind_eq_some_iff.mp h
    obtain ⟨variants, hvariants, h⟩ := Option.bind_eq_some_iff.mp h
    obtain ⟨schedule, hschedule, h⟩ := Option.bind_eq_some_iff.mp h
    obtain ⟨createdAt, hcreatedAt, h⟩ := Option.bind_eq_some_iff.mp h
    obtain ⟨updatedAt, hupdatedAt, h⟩ := Option.bind_eq_some_iff.mp h
    obtain rfl := Option.some.inj h
    exact
      { segmentSize := (settled_natTo _).of_optional (Nat.zero_le _) hsize
        progress := (settled_natTo _).of_optional (Nat.zero_le _) hprogress
        variants := Variant.settled.list.of_required hvariants
        schedule := (settled_intIn _ _).of_required hschedule
        createdAt := Instant.settled.of_required hcreatedAt
        updatedAt := Instant.settled.of_required hupdatedAt }

end Campaign

theorem Tenant.settled : Settled Tenant.ofJson? Tenant.toJson fun _ => True where
  read_write {t} _ := by
    obtain ⟨r, hr, hget⟩ := Record.of_object Tenant.fields (rfl : t.toJson = .object _)
    have hid := Uuid.settled.required_write (x := t.id) trivial (hget "id")
    have hname := settled_string.required_write (x := t.name) trivial (hget "name")
    have hsender := settled_nullable.optional_write (x := t.fromEmail) (d := none) trivial
      (hget "from_email")
    rw [ofJson?, bind_read hr, bind_read hid, bind_read hname, bind_read hsender]
    rfl
  of_read _ := trivial

theorem Template.settled : Settled Template.ofJson? Template.toJson fun _ => True where
  read_write {t} _ := by
    obtain ⟨r, hr, hget⟩ := Record.of_object Template.fields (rfl : t.toJson = .object _)
    have hid := Uuid.settled.required_write (x := t.id) trivial (hget "id")
    have htenant := Uuid.settled.required_write (x := t.tenant) trivial (hget "tenant_id")
    have hname := settled_string.required_write (x := t.name) trivial (hget "name")
    have hbody := settled_string.required_write (x := t.body) trivial (hget "html_encoded")
    rw [ofJson?, bind_read hr, bind_read hid, bind_read htenant, bind_read hname, bind_read hbody]
    rfl
  of_read _ := trivial

namespace Campaign

/-- **All records are written canonically**: campaigns and variants whose numbers have their widths
and whose times are points of the calendar and the clock, and all statuses, tenants and templates.
-/
theorem records_canonical :
    Json.Canonical ofJson? toJson Representable ∧
    Json.Canonical Variant.ofJson? Variant.toJson Variant.Representable ∧
    Json.Canonical Status.ofJson? Status.toJson (fun _ => True) ∧
    Json.Canonical Tenant.ofJson? Tenant.toJson (fun _ => True) ∧
    Json.Canonical Template.ofJson? Template.toJson fun _ => True :=
  ⟨settled.canonical, Variant.settled.canonical, Status.settled.canonical,
    Tenant.settled.canonical, Template.settled.canonical⟩

/-- A campaign as a list, made in a leap second that is past the end of year 9999 in UTC. -/
def newYear : Json :=
  .list [.text "\x7b00000000-0000-0000-0000-000000000001\x7d",
    .text "0000000000000000000000000000000A", .text "new year", .null,
    .text "urn:uuid:00000000-0000-0000-0000-000000000003", .nat 2, .nat 0,
    .object [("running", .null)], .null,
    .list [.list [.text "00000000-0000-0000-0000-000000000004",
      .text "00000000-0000-0000-0000-000000000001", .text "00000000-0000-0000-0000-000000000005",
      .text "cheers", .nat 100]],
    .int (-1), .text "9999-12-31T23:59:60.5-00:30", .text "-0001-01-01 00:00:00.000000001z"]

theorem records_canonical_of_newYear :
    ∃ c, ofJson? newYear = some c ∧
      c.createdAt = ⟨⟨10000, 1, 1⟩, 0, 29, 59, 1500000000⟩ ∧
      c.createdAt.toString = "+10000-01-01T00:29:60.500Z" ∧
      ofJson? c.toJson = some c ∧ (ofJson? c.toJson).map toJson = some c.toJson := by
  have hcreated : (ofJson? newYear).map (·.createdAt) =
      some ⟨⟨10000, 1, 1⟩, 0, 29, 59, 1500000000⟩ := by decide +kernel
  obtain ⟨c, hread, hcreated⟩ := Option.map_eq_some_iff.mp hcreated
  refine ⟨c, hread, hcreated, ?_, records_canonical.1.again hread⟩
  rw [hcreated]
  decide +kernel

end Campaign

end Mailshot

import Mailshot.Audience
import Mailshot.Proofs.Deed

/-!
# The audience of any source

A source may answer a call as it likes, after all calls before.  What fetching an audience comes to is
settled by the answers alone: as long as each page names another cursor, that cursor is asked for, and
the first answer that does not is the last.  So a run that ends tells one chain of pages, and such a
chain decides how the run ends.

* `Pager.next`, `Pager.read`: an audience on its way after a page that arrived, and after some;
* `Audience.calls`: the calls of a chain of pages;
* `Audience.Ends`: what the answer to the last call makes of the pages before it;
* `Audience.resolveFrom_of_history`, `Audience.exists_history`: runs that end are chains, and chains
  are runs that end;
* `Audience.resolve_chain`: both, for an audience from its first page on.
-/

namespace Mailshot

namespace Pager

/-- The pager after a page that arrived and names another. -/
def next (p : Pager) (page : Page) : Pager :=
  { p with
    fetched := p.fetched + 1
    cursor := page.nextCursor
    audience := p.audience ++ page.recipients }

/-- A page that names no other completes the audience. -/
theorem take_ok (p : Pager) (page : Page) :
    p.take (.ok page) =
      if page.nextCursor = "" then .complete (p.audience ++ page.recipients)
      else .more (p.next page) := rfl

/-- The pager after some pages. -/
def read (p : Pager) (pages : List Page) : Pager :=
  pages.foldl next p

@[simp] theorem read_append (p : Pager) (xs ys : List Page) :
    p.read (xs ++ ys) = (p.read xs).read ys := by
  simp [read]

/-- Pages add their recipients, in order. -/
theorem read_audience (p : Pager) (pages : List Page) :
    (p.read pages).audience = p.audience ++ pages.flatMap (·.recipients) := by
  induction pages generalizing p with
  | nil => simp [read]
  | cons page rest ih =>
      show ((p.next page).read rest).audience = _
      rw [ih]
      simp [next]

@[simp] theorem read_segment (p : Pager) (pages : List Page) :
    (p.read pages).segment = p.segment := by
  induction pages generalizing p with
  | nil => rfl
  | cons page rest ih => exact ih (p.next page)

@[simp] theorem read_limit (p : Pager) (pages : List Page) : (p.read pages).limit = p.limit := by
  induction pages generalizing p with
  | nil => rfl
  | cons page rest ih => exact ih (p.next page)

/-- Pages are counted as they arrive. -/
theorem read_fetched (p : Pager) (pages : List Page) :
    (p.read pages).fetched = p.fetched + pages.length := by
  induction pages generalizing p with
  | nil => rfl
  | cons page rest ih =>
      refine (ih (p.next page)).trans ?_
      simp only [next, List.length_cons]
      omega

end Pager

namespace Audience

/-- The calls for pages that arrive one after another and for what comes last.  The first call is for
`cursor`, every later one for the cursor that the page before it names. -/
def chain (owner : Uuid) (tenant : Tenant) (segment : Uuid) (limit : Nat) (cursor : String)
    (pages : List Page) (last : Reply Page) : List Call :=
  List.zipWith (fun cursor reply => .page owner ⟨tenant, segment, cursor, limit⟩ reply)
    (cursor :: pages.map (·.nextCursor)) (pages.map .ok ++ [last])

/-- **How an audience ends.**  After pages that each named another, the last answer settles what comes
of all of them, and how many arrived. -/
inductive Ends (segment : Uuid) (pages : List Page) : Reply Page → Reply (List String) → Nat → Prop
  | complete {page : Page} (hlast : page.nextCursor = "") :
      Ends segment pages (.ok page) (.ok ((pages ++ [page]).flatMap (·.recipients)))
        (pages.length + 1)
  /-- A fault of this very kind is not named twice. -/
  | unresolved (text : String) :
      Ends segment pages (.fault (.audienceResolution text))
        (.fault (.audienceResolution s!"segment {segment} page {pages.length}: {text}"))
        pages.length
  | failed {cause : Fault} (hkind : ∀ text, cause ≠ .audienceResolution text) :
      Ends segment pages (.fault cause)
        (.fault (.audienceResolution s!"segment {segment} page {pages.length}: {cause.message}"))
        pages.length
  | crashed (text : String) : Ends segment pages (.crash text) (.crash text) pages.length

end Audience

/-- What fetching comes to with a page, none where another one is to be fetched. -/
def Paging.reply? : Paging → Option (Reply (List String))
  | .more _ => none
  | .complete audience => some (.ok audience)
  | .failed cause => some (.fault cause)
  | .crashed text => some (.crash text)

namespace Audience

variable {σ : Type} {w : World σ} {owner : Uuid} {tenant : Tenant} {segment : Uuid} {p : Pager}
  {s t : σ} {turns : Nat} {pages : List Page} {last : Reply Page} {reply : Reply (List String)}

theorem pagesFetched_add (m n : Nat) :
    ({ pagesFetched := m } : Counters) + { pagesFetched := n } = { pagesFetched := m + n } := rfl

/-- An answer adds to the pages that arrived, and to nothing else. -/
theorem tick_eq (last : Reply Page) :
    Pager.tick last = { pagesFetched := (Pager.tick last).pagesFetched } := by
  cases last <;> rfl

/-- A fault that is not of this very kind is told with its message. -/
theorem reason_of_kind {cause : Fault} (hkind : ∀ text, cause ≠ .audienceResolution text) :
    Pager.reason cause = cause.message := by
  cases cause with
  | audienceResolution text => exact (hkind text rfl).elim
  | _ => rfl

/-- An audience ends as the pager has it that has read the pages before. -/
theorem ends_iff (pageSize : Nat) {n : Nat} :
    Ends segment pages last reply n ↔
      (((Pager.start segment pageSize).read pages).take last).reply? = some reply ∧
        n = pages.length + (Pager.tick last).pagesFetched := by
  have haudience := Pager.read_audience (.start segment pageSize) pages
  have hfetched := Pager.read_fetched (.start segment pageSize) pages
  have hsegment := Pager.read_segment (.start segment pageSize) pages
  generalize (Pager.start segment pageSize).read pages = p at haudience hfetched hsegment ⊢
  simp only [Pager.start, List.nil_append, Nat.zero_add] at haudience hfetched hsegment
  constructor
  · intro h
    cases h with
    | complete hlast => simp [Pager.take_ok, hlast, Paging.reply?, haudience, Pager.tick]
    | unresolved | crashed =>
        simp [Pager.take, Pager.fault, Pager.reason, Paging.reply?, hfetched, hsegment, Pager.tick]
    | failed hkind =>
        simp [Pager.take, Pager.fault, reason_of_kind hkind, Paging.reply?, hfetched, hsegment,
          Pager.tick]
  · rintro ⟨hreply, rfl⟩
    cases last with
    | ok page =>
        by_cases hlast : page.nextCursor = ""
        · rw [Pager.take_ok, if_pos hlast, haudience] at hreply
          obtain rfl := Option.some.inj hreply
          have hends : Ends segment pages _ _ _ := .complete hlast
          rwa [List.flatMap_append, List.flatMap_singleton] at hends
        · rw [Pager.take_ok, if_neg hlast] at hreply
          cases hreply
    | fault cause =>
        simp only [Pager.take, Pager.fault, hsegment, hfetched] at hreply
        obtain rfl := Option.some.inj hreply
        by_cases hkind : ∃ text, cause = .audienceResolution text
        · obtain ⟨text, rfl⟩ := hkind
          exact .unresolved text
        · have hother : ∀ text, cause ≠ .audienceResolution text := fun text h => hkind ⟨text, h⟩
          rw [reason_of_kind hother]
          exact .failed hother
    | crash text =>
        obtain rfl := Option.some.inj hreply
        exact .crashed text

/-- A page that names another one is read, and fetching goes on. -/
theorem resolveFrom_more {page : Page} (hpage : w.page owner (p.request tenant) s = (.ok page, t))
    (hmore : page.nextCursor ≠ "") (fetched : Nat) :
    resolveFrom w owner tenant (turns + 1) p { pagesFetched := fetched } s =
      resolveFrom w owner tenant turns (p.next page) { pagesFetched := fetched + 1 } t := by
  simp only [resolveFrom, hpage, Pager.take_ok, if_neg hmore, Pager.tick, pagesFetched_add]

/-- Any other answer is the last. -/
theorem resolveFrom_last (hpage : w.page owner (p.request tenant) s = (last, t))
    (hlast : (p.take last).reply? = some reply) (fetched : Nat) :
    resolveFrom w owner tenant (turns + 1) p { pagesFetched := fetched } s =
      (some reply, { pagesFetched := fetched + (Pager.tick last).pagesFetched }, t) := by
  simp only [resolveFrom, hpage]
  rw [tick_eq, pagesFetched_add]
  cases htake : p.take last with
  | more q => simp [htake, Paging.reply?] at hlast
  | complete | failed | crashed =>
      rw [htake] at hlast
      obtain rfl := Option.some.inj hlast
      rfl

/-- **A chain of pages decides how a run ends**, where there are turns enough for it. -/
theorem resolveFrom_of_history (hmore : ∀ page ∈ pages, page.nextCursor ≠ "")
    (hlast : ((p.read pages).take last).reply? = some reply)
    (hhistory : w.History s (chain owner tenant p.segment p.limit p.cursor pages last) t)
    (hturns : pages.length < turns) (fetched : Nat) :
    resolveFrom w owner tenant turns p { pagesFetched := fetched } s =
      (some reply, { pagesFetched := fetched + (pages.length + (Pager.tick last).pagesFetched) },
        t) := by
  obtain ⟨turns, rfl⟩ := Nat.exists_eq_add_one_of_ne_zero (Nat.ne_zero_of_lt hturns)
  induction pages generalizing turns p fetched s with
  | nil =>
      rw [resolveFrom_last (World.history_singleton.mp hhistory) hlast]
      simp
  | cons page rest ih =>
      obtain ⟨hpage, hrest⟩ := List.forall_mem_cons.mp hmore
      obtain ⟨u, hcall, hhistory⟩ := hhistory
      have hturns' : rest.length < turns := by simpa using hturns
      obtain ⟨turns, rfl⟩ := Nat.exists_eq_add_one_of_ne_zero (Nat.ne_zero_of_lt hturns')
      rw [resolveFrom_more hcall hpage, ih hrest hlast hhistory (fetched + 1) turns hturns',
        List.length_cons]
      congr 3
      omega

/-- **A run that ends tells a chain of pages.** -/
theorem exists_history (fetched : Nat) {counters : Counters}
    (h : resolveFrom w owner tenant turns p { pagesFetched := fetched } s =
      (some reply, counters, t)) :
    ∃ pages last, pages.length < turns ∧ (∀ page ∈ pages, page.nextCursor ≠ "") ∧
      ((p.read pages).take last).reply? = some reply ∧
      w.History s (chain owner tenant p.segment p.limit p.cursor pages last) t := by
  induction turns generalizing p fetched s with
  | zero => cases h
  | succ turns ih =>
      rcases hpage : w.page owner (p.request tenant) s with ⟨answer, u⟩
      cases hend : (p.take answer).reply? with
      | some first =>
          rw [resolveFrom_last hpage hend] at h
          obtain ⟨rfl, -, rfl⟩ := h
          exact ⟨[], answer, Nat.succ_pos _, by simp, hend, World.history_singleton.mpr hpage⟩
      | none =>
          -- only a page that names another one leaves anything to do
          obtain ⟨page, rfl, hmore⟩ : ∃ page, answer = .ok page ∧ page.nextCursor ≠ "" := by
            cases answer with
            | ok page =>
                refine ⟨page, rfl, fun hlast => ?_⟩
                rw [Pager.take_ok, if_pos hlast] at hend
                cases hend
            | fault | crash => cases hend
          rw [resolveFrom_more hpage hmore] at h
          obtain ⟨pages, last, hturns, hpages, hlast, hhistory⟩ := ih (fetched + 1) h
          exact ⟨page :: pages, last, Nat.succ_lt_succ hturns,
            List.forall_mem_cons.mpr ⟨hmore, hpages⟩, hlast, u, hpage, hhistory⟩

/-- **The audience of any source.**  A run that ends, after whatever number of turns, has asked for
page after page, the first time without a cursor and each later time with the cursor of the page
before, always for as many members as fit in a page and one at least, and has stopped at the first
answer that names no other page.  If that is a page, all pages make up the audience; if it is a fault,
nothing is kept of them, and the fault tells the segment and the number of the page.  And every chain
of such answers, the source being what it is after the calls before, is a run that ends so, if only
the turns suffice. -/
theorem resolve_chain (w : World σ) (owner : Uuid) (tenant : Tenant) (segment : Uuid)
    (pageSize : Nat) (s : σ) (reply : Reply (List String)) (counters : Counters) (r : Recorded σ) :
    let chained := fun turns : Nat =>
      ∃ pages last n, pages.length < turns ∧ (∀ page ∈ pages, page.nextCursor ≠ "") ∧
        Ends segment pages last reply n ∧ counters = { pagesFetched := n } ∧
        w.History s (chain owner tenant segment (max pageSize 1) "" pages last) r.state ∧
        r.calls.reverse = chain owner tenant segment (max pageSize 1) "" pages last
    (resolve w.recorded owner tenant segment pageSize ⟨s, []⟩ = (some reply, counters, r) ↔
        chained turnLimit) ∧
      ∀ turns, resolveFrom w.recorded owner tenant turns (.start segment pageSize) {} ⟨s, []⟩ =
        (some reply, counters, r) ↔ chained turns := by
  intro chained
  have hturns : ∀ turns,
      resolveFrom w.recorded owner tenant turns (.start segment pageSize) {} ⟨s, []⟩ =
        (some reply, counters, r) ↔ chained turns := by
    intro turns
    constructor
    · intro h
      obtain ⟨pages, last, hturns, hmore, hlast, hhistory⟩ := exists_history 0 h
      have hrun := resolveFrom_of_history hmore hlast hhistory hturns 0
      obtain rfl : counters = { pagesFetched := _ } := by simpa using h.symm.trans hrun
      obtain ⟨hanswers, hcalls⟩ := World.history_recorded.mp hhistory
      exact ⟨pages, last, _, hturns, hmore, (ends_iff pageSize).mpr ⟨hlast, rfl⟩, rfl, hanswers,
        by rw [hcalls, List.append_nil, List.reverse_reverse]; rfl⟩
    · rintro ⟨pages, last, n, hturns, hmore, hends, rfl, hanswers, hcalls⟩
      obtain ⟨hlast, rfl⟩ := (ends_iff pageSize).mp hends
      have hhistory : w.recorded.History ⟨s, []⟩ _ r :=
        World.history_recorded.mpr ⟨hanswers, by rw [← hcalls]; simp⟩
      have hrun := resolveFrom_of_history (p := .start segment pageSize) hmore hlast hhistory hturns 0
      rwa [Nat.zero_add] at hrun
  exact ⟨hturns turnLimit, hturns⟩

end Audience

end Mailshot

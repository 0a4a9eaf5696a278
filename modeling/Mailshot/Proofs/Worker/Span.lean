import Mailshot.Proofs.Worker.Setback

/-!
# How long a worker goes on

Only its audience can keep a worker busy forever: as long as each page names another, there is a
page to fetch.  Once the audience is complete, every deed leaves fewer to do, whatever the replies
are.

* `Phase.isGathering`: is the audience yet to be completed?
* `Worker.left`: the deeds that a worker has left at most, once its audience is complete;
* `Worker.Course.length_gathering`: the deeds of a worker on its way there;
* `Worker.Move.left_lt`: each deed after that leaves fewer.
-/

namespace Mailshot

/-- Is the audience of a worker in this phase yet to be completed? -/
def Phase.isGathering : Phase → Bool
  | .lookup | .paging .. => true
  | _ => false

/-- The deeds that lead to a phase in which the audience is yet to be completed. -/
def Phase.gathered : Phase → Nat
  | .paging _ p => p.fetched + 1
  | _ => 0

namespace Worker

variable {σ : Type} {room : Mailroom σ} {c : Campaign} {p q : Phase} {d : Deed}

/-- A plan makes no more calls than its audience has members. -/
theorem length_plan_le (tenant : Tenant) (audience bodies : List String) :
    (plan room c tenant audience bodies).length ≤ audience.length := by
  have hnonempty : ∀ mail ∈ (plan room c tenant audience bodies).map (·.mail),
      mail.recipients ≠ [] := by
    intro mail hmail
    obtain ⟨m, hm, rfl⟩ := List.mem_map.mp hmail
    exact (recipients_of_mem_plan hm).1
  have hcalls := Batch.length_le_recipients hnonempty
  have hreached := (buckets_lots c audience bodies).flatten.length_le
  rw [recipients_lots, List.length_map] at hcalls
  rw [Share.flatten_partition, List.length_take] at hreached
  omega

/-- The deeds that a worker of campaign `c` has left at most, once its audience is complete.  A call
to the provider takes three: it is started, made and reported. -/
def left (c : Campaign) : Phase → Nat
  | .announcing _ audience => 3 * audience.length + c.variants.length + 2
  | .content _ audience _ _ rest => 3 * audience.length + rest.length + 2
  | .posting _ _ rest => 3 * rest.length + 3
  | .awaiting _ _ rest => 3 * rest.length + 2
  | .reporting _ _ rest => 3 * rest.length + 1
  | .failing _ => 1
  | _ => 0

theorem left_toPosting (t : Tally) (rest : List Mailing) :
    (toPosting c t rest).isGathering = false ∧ left c (toPosting c t rest) = 3 * rest.length := by
  cases rest with
  | nil => exact ⟨rfl, rfl⟩
  | cons m rest => exact ⟨rfl, rfl⟩

theorem left_toContent (tenant : Tenant) (audience bodies : List String) (rest : List Variant) :
    (toContent room c tenant audience bodies rest).isGathering = false ∧
      left c (toContent room c tenant audience bodies rest) ≤
        3 * audience.length + rest.length + 1 := by
  cases rest with
  | nil =>
      obtain ⟨hgathered, hleft⟩ := left_toPosting (c := c) ⟨⟨audience.length, 0⟩, 0, 0⟩
        (plan room c tenant audience bodies)
      have hplan : (plan room c tenant audience bodies).length ≤ audience.length :=
        length_plan_le tenant audience bodies
      refine ⟨hgathered, ?_⟩
      rw [toContent, hleft]
      omega
  | cons v rest =>
      refine ⟨rfl, ?_⟩
      simp only [toContent, left, List.length_cons]
      omega

/-- **Each deed leaves fewer to do**, once the audience is complete. -/
theorem Move.left_lt (h : Move room c p d q) (hp : p.isGathering = false) :
    q.isGathering = false ∧ left c q < left c p := by
  cases h with
  | lookup | page => cases hp
  | announce tenant audience =>
      exact And.imp_right Nat.lt_succ_of_le (left_toContent tenant audience [] c.variants)
  | template tenant audience bodies next rest reply =>
      cases hbody : Content.ofReply next.template reply with
      | ok html =>
          exact And.imp_right Nat.lt_succ_of_le
            (left_toContent tenant audience (bodies ++ [html]) rest)
      | fault cause =>
          refine ⟨rfl, ?_⟩
          simp only [afterBody, left]
          omega
      | crash text => exact ⟨rfl, Nat.succ_pos _⟩
  | start t m rest => exact ⟨rfl, Nat.lt_succ_self _⟩
  | send t m rest reply =>
      cases reply with
      | ok | fault => exact ⟨rfl, Nat.lt_succ_self _⟩
      | crash text => exact ⟨rfl, Nat.succ_pos _⟩
  | progress t percent rest =>
      obtain ⟨hgathered, hleft⟩ := left_toPosting (c := c) t rest
      refine ⟨hgathered, ?_⟩
      rw [hleft]
      exact Nat.lt_succ_self _
  | fail cause => exact ⟨rfl, Nat.succ_pos _⟩

/-- On the way to its audience a worker has looked up the tenant and fetched pages, and no more. -/
theorem Course.length_gathering {deeds : List Deed} (h : Course room c deeds p)
    (hp : p.isGathering = true) : deeds.length = p.gathered := by
  induction h with
  | nil => rfl
  | @snoc deeds p d q _ hmove ih =>
      rw [List.length_append, List.length_singleton]
      cases hbefore : p.isGathering with
      | false =>
          rw [(hmove.left_lt hbefore).1] at hp
          cases hp
      | true =>
          rw [ih hbefore]
          cases hmove with
          | lookup reply => cases reply <;> first | rfl | cases hp
          | page tenant p reply =>
              cases reply with
              | ok page =>
                  by_cases hlast : page.nextCursor = ""
                  · rw [Pager.take_ok, if_pos hlast] at hp
                    cases hp
                  · rw [Pager.take_ok, if_neg hlast]
                    rfl
              | fault | crash => cases hp
          | _ => cases hbefore

end Worker

end Mailshot

import Mailshot.Proofs.Worker.Scope

/-!
# Worlds that agree about a campaign

Two worlds may have one campaign in common and nothing else: what they say of its tenant, its segment,
its templates, mail for its variants, and its row is the same, and they are free in all the rest.  A
worker of the campaign cannot tell which one it is in.

* `World.Agree`: two worlds agree about a campaign;
* `World.Told`: a reply that the world gives about a campaign;
* `World.Agree.told_unique`: the same question about it gets the same reply in both.
-/

namespace Mailshot

/-- Two worlds agree about campaign `c`: as long as the calls for others leave it alone, each question
about it gets the same reply in both, after the same calls for it.  Whether a row of it is stored may
depend on the rows handed over before, but not on their times of change. -/
structure World.Agree {σ τ : Type} (w : World σ) (w' : World τ) (s : σ) (s' : τ) (c : Campaign) :
    Prop where
  tenant : ∀ {xs ys t u}, w.History s xs t → w'.History s' ys u → Call.Apart c xs → Call.Apart c ys →
    Call.callsFor c.id xs = Call.callsFor c.id ys →
    (w.tenant c.id c.tenant t).1 = (w'.tenant c.id c.tenant u).1
  page : ∀ {xs ys t u} (request : PageRequest), w.History s xs t → w'.History s' ys u →
    Call.Apart c xs → Call.Apart c ys → Call.callsFor c.id xs = Call.callsFor c.id ys →
    request.segment = c.segment → (w.page c.id request t).1 = (w'.page c.id request u).1
  template : ∀ {xs ys t u} (tenant : Tenant) (v : Variant), w.History s xs t → w'.History s' ys u →
    Call.Apart c xs → Call.Apart c ys → Call.callsFor c.id xs = Call.callsFor c.id ys →
    v ∈ c.variants →
    (w.template c.id tenant v.template t).1 = (w'.template c.id tenant v.template u).1
  send : ∀ {xs ys t u} (mail : Mail) (v : Variant), w.History s xs t → w'.History s' ys u →
    Call.Apart c xs → Call.Apart c ys → Call.callsFor c.id xs = Call.callsFor c.id ys →
    v ∈ c.variants → mail.variant = v.id → (w.send c.id mail t).1 = (w'.send c.id mail u).1
  update : ∀ {xs ys t u} {row other : Campaign}, w.History s xs t → w'.History s' ys u →
    Call.Apart c xs → Call.Apart c ys → Call.rowsFor c.id xs = Call.rowsFor c.id ys →
    row.id = c.id → row.timeless = other.timeless → (w.update row t).1 = (w'.update other u).1

namespace World

variable {σ τ : Type} {w : World σ} {w' : World τ} {s : σ} {s' : τ} {c : Campaign}

/-- The world gives the reply of a call about campaign `c` where the earlier calls for it were
`before` and the calls for others left it alone. -/
def Told (w : World σ) (s : σ) (c : Campaign) (before : List Call) (made : Call) : Prop :=
  made.Of c ∧ ∃ xs t u, w.History s xs t ∧ Call.Apart c xs ∧ Call.callsFor c.id xs = before ∧
    w.Answers t made u

/-- Where two worlds agree about a campaign, the same question about it gets the same reply. -/
theorem Agree.told_unique (h : w.Agree w' s s' c) {before : List Call} {made made' : Call}
    (hsame : made.SameQuestion made') (htold : w.Told s c before made)
    (htold' : w'.Told s' c before made') : made = made' := by
  obtain ⟨hof, xs, t, v, hxs, hapart, hbefore, hanswer⟩ := htold
  obtain ⟨-, ys, u, v', hys, hapart', hbefore', hanswer'⟩ := htold'
  have hcalls := hbefore.trans hbefore'.symm
  have hreply : ∀ {α : Type} {a : Reply α × σ} {b : Reply α × τ} {reply reply' : Reply α},
      a = (reply, v) → b = (reply', v') → a.1 = b.1 → reply = reply' := by
    rintro α a b reply reply' rfl rfl heq
    exact heq
  cases hsame with
  | tenant =>
      cases hof with
      | tenant =>
          have heq := h.tenant hxs hys hapart hapart' hcalls
          rw [hreply hanswer hanswer' heq]
  | page owner request =>
      cases hof with
      | page hsegment =>
          have heq := h.page request hxs hys hapart hapart' hcalls hsegment
          rw [hreply hanswer hanswer' heq]
  | template owner tenant id =>
      cases hof with
      | template hv =>
          have heq := h.template tenant _ hxs hys hapart hapart' hcalls hv
          rw [hreply hanswer hanswer' heq]
  | send owner mail =>
      cases hof with
      | send hv hmail =>
          have heq := h.send mail _ hxs hys hapart hapart' hcalls hv hmail
          rw [hreply hanswer hanswer' heq]

end World

end Mailshot

import Mailshot.Mailroom
import Mailshot.Provider
import Mailshot.Store.Basic

/-!
# The office

A store and a provider together are a world to mail out campaigns in.
-/

namespace Mailshot

/-- A store and a provider. -/
structure Office where
  store : Store := .empty
  provider : Provider := {}
  deriving Repr, Inhabited

namespace Office

/-- The row takes its place in the store, if it has one there. -/
def update (row : Campaign) (o : Office) : Reply Unit × Office :=
  match o.store.update row with
  | .ok store => (.ok (), { o with store })
  | .error fault => (.fault fault, o)

/-- The provider takes the mail or refuses it. -/
def send (mail : Mail) (o : Office) : Reply Unit × Office :=
  let (result, provider) := o.provider.send mail
  (.ofExcept result, { o with provider })

/-- The world of a store and a provider. -/
def world : World Office where
  due cutoff o := (.ok (o.store.due cutoff), o)
  update row o := o.update row
  tenant _ id o := (.ofExcept (o.store.tenant id), o)
  page _ request o := (.ofExcept (o.store.page request), o)
  template _ tenant id o := (.ofExcept (o.store.template tenant id), o)
  send _ mail o := o.send mail

/-- The mailroom of an office.  Mail of tenants without a sender is from the one in the settings. -/
def mailroom (settings : Settings) (task : Nat → String := Mailroom.unnamed) : Mailroom Office :=
  { world, settings := settings.dispatch, sender := settings.email.fromEmail, task }

/-- An office over a store. -/
def ofStore (store : Store) (settings : Settings) : Office :=
  { store, provider := { settings := settings.email } }

end Office

end Mailshot

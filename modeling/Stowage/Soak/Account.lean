import Stowage.Repository.Basic
/-!
Accounts: the objects a soak run drives.

An account is an identity and a balance. Its record holds the balance as the field `balance`;
a record without an integer balance cannot be read back. A reloaded copy is always taken in,
by copying its balance; no other hook does anything.
-/
namespace Stowage.Soak

open Stowage.Json

/-- An account. -/
structure Account where
  id : Identity
  balance : Int
  deriving Inhabited

/-- The kind of account identities. -/
def accountKind : String := "account"

/-- The balance a record holds, if it is a 64-bit integer. -/
def balanceOf? (r : Record) : Option Int :=
  match r.get? "balance" with
  | some (.num (.int b)) => if -Int.pow 2 63 ≤ b && b < Int.pow 2 63 then some b else none
  | _ => none

/-- How accounts are stored, read back and refreshed. -/
def Account.model : ObjectModel Account where
  identity a := a.id
  beforePersist a := a
  afterPersist a _ := a
  afterLoad a _ _ _ := a
  absorb live peer := some { live with balance := peer.balance }
  markDeleted a := a
  encode a := Record.empty.set "balance" (.num (.int a.balance))
  decode _ id r :=
    match balanceOf? r with
    | some b => .ok ⟨id, b⟩
    | none => .error (.serialization (id.render ++ ": balance missing"))

end Stowage.Soak

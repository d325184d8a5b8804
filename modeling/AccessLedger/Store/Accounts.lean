import AccessLedger.Backend
import AccessLedger.Store.Statement

/-!
# Accounts in the store
-/

namespace AccessLedger.Store

/-- Add an account, which gets the next number. -/
def createAccount (fullName email username : Option String) (now : Instant) :
    StoreProgram AccountInfo := do
  let id ← Program.query (Statement.insertAccount fullName email username now)
  return ⟨id, fullName, email, username⟩

/-- What is known of these accounts; those that are not there are left out. -/
def accounts (ids : List AccountId) : StoreProgram (List AccountInfo) :=
  if ids.isEmpty then .done [] else Program.query (Statement.accounts ids)

/-- The book of some accounts. -/
def bookOf (infos : List AccountInfo) : AccountBook := fun id => infos.find? (·.id = id)

end AccessLedger.Store

import AccessLedger.Json.Record

/-!
# Accounts

An account is known by its number.  `AccountInfo` is what is shown of it; an
account that could not be looked up is shown by its number alone
(`AccountInfo.stub`).
-/

namespace AccessLedger

/-- The number of an account. -/
structure AccountId where
  value : UInt32
  deriving DecidableEq, Repr

namespace AccountId

/-- The number as a natural number. -/
def toNat (a : AccountId) : Nat := a.value.toNat

/-- The number in decimal digits. -/
def display (a : AccountId) : String := String.ofList (Text.digits a.toNat)

/-- The account with this number, if there can be one. -/
def ofInt? (i : Int) : Option AccountId := (uint32? i).map mk

@[simp]
theorem ofInt?_toNat (a : AccountId) : ofInt? a.toNat = some a := by
  simp [ofInt?, toNat]

def codec : Codec AccountId := Codec.uint32.imap AccountId.mk AccountId.value

end AccountId

/-- What is shown of an account. -/
structure AccountInfo where
  id : AccountId
  name : Option String
  email : Option String
  username : Option String
  deriving DecidableEq, Repr

namespace AccountInfo

/-- An account of which only the number is known. -/
def stub (id : AccountId) : AccountInfo := ⟨id, none, none, none⟩

def fields : Fields (AccountId × Option String × Option String × Option String × Unit) :=
  .cons (.required "_account_id" AccountId.codec) <|
  .cons (.optional "name" .string) <|
  .cons (.optional "email" .string) <|
  .cons (.optional "username" .string) .nil

def codec : Codec AccountInfo :=
  fields.record.imap (fun (id, name, email, username, _) => ⟨id, name, email, username⟩)
    fun a => (a.id, a.name, a.email, a.username, ())

end AccountInfo

end AccessLedger

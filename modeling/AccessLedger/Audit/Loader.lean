import AccessLedger.Backend

/-!
# Looking up accounts in one batch

Every account that will be needed is registered first and is stood for by a
slot.  Then all of them are looked up with one question, and each slot can be
turned into what is shown of its account.
-/

namespace AccessLedger

/-- Stands for an account that will be looked up: its place in a batch, and its number. -/
structure Slot where
  index : Nat
  id : AccountId
  deriving DecidableEq, Repr

/-- An index in which each of some accounts is found with its place among them. -/
def Indexes (index : List (AccountId × Slot)) (ids : List AccountId) : Prop :=
  ∀ id, index.lookup id = (ids.idxOf? id).map fun i => ⟨i, id⟩

/-- An account that is not there yet is added in the next place. -/
theorem Indexes.concat {index : List (AccountId × Slot)} {ids : List AccountId} {id : AccountId}
    (h : Indexes index ids) (hnew : index.lookup id = none) :
    Indexes ((id, ⟨ids.length, id⟩) :: index) (ids ++ [id]) := by
  intro other
  have hplace : (ids ++ [id]).idxOf? other =
      (ids.idxOf? other).or (if id = other then some ids.length else none) := by
    simp only [List.idxOf?, List.findIdx?_append, List.findIdx?_singleton, beq_iff_eq]
    split <;> simp
  by_cases hsame : other = id
  · subst hsame
    rw [h other, Option.map_eq_none_iff] at hnew
    simp [hplace, hnew]
  · simp [hplace, List.lookup_cons, beq_false_of_ne hsame, Ne.symm hsame, h other]

/-- A batch of accounts to look up. -/
structure IdentityLoader where
  /-- The registered accounts, without repetitions, in the order of their slots. -/
  ids : List AccountId
  /-- The slots that have been issued, each under its account. -/
  index : List (AccountId × Slot)
  /-- What has been found, in the same order. -/
  resolved : List AccountInfo
  /-- Whether the batch has been looked up. -/
  filled : Bool
  indexes : Indexes index ids

namespace IdentityLoader

/-- A batch without accounts. -/
def empty : IdentityLoader := ⟨[], [], [], false, fun _ => rfl⟩

/-- The batch with one more account. -/
def append (l : IdentityLoader) (id : AccountId) (hnew : l.index.lookup id = none) :
    IdentityLoader :=
  { l with
    ids := l.ids ++ [id]
    index := (id, ⟨l.ids.length, id⟩) :: l.index
    indexes := l.indexes.concat hnew }

/-- The slot of an account, which is added to the batch unless it is there. -/
def register (l : IdentityLoader) (id : AccountId) : Slot × IdentityLoader :=
  match hfound : l.index.lookup id with
  | some slot => (slot, l)
  | none => (⟨l.ids.length, id⟩, l.append id hfound)

/-- Register an account, which may not be done once the batch has been looked up. -/
def register? (l : IdentityLoader) (id : AccountId) : Option (Slot × IdentityLoader) :=
  if l.filled then none else some (l.register id)

/-- The number of accounts in the batch. -/
def size (l : IdentityLoader) : Nat := l.ids.length

/-- The batch with what a book says of its accounts, and stubs for those it does not have. -/
def fillFrom (l : IdentityLoader) (book : AccountBook) : IdentityLoader :=
  { l with
    resolved := l.ids.map fun id => (book id).getD (AccountInfo.stub id)
    filled := true }

/--
Look up the whole batch that is kept, with one question, or with none if there
is nothing to look up.
-/
def fill : Program (Keeping IdentityLoader Backend) Failure Unit := do
  let l ← Program.current
  let book ← if l.ids.isEmpty then pure fun _ => none else Program.other (.accounts l.ids)
  Program.replace (l.fillFrom book)

/-- A look-up fills the batch from the answer to one question, or asks none of an empty batch. -/
theorem keep_fill (l : IdentityLoader) : fill.keep l =
    if l.ids = [] then .done ((), l.fillFrom fun _ => none)
    else .ask (.accounts l.ids) fun book => .done ((), l.fillFrom book) := by
  simp only [fill, Program.current, Program.query, bind, Program.andThen, Program.keep,
    List.isEmpty_iff]
  split <;> rfl

/-- What has been found for a slot, if that is what is known of the account of the slot. -/
def get (l : IdentityLoader) (slot : Slot) : Option AccountInfo :=
  (l.resolved[slot.index]?).filter (·.id = slot.id)

/-- What is shown of the account of a slot. -/
def resolve (l : IdentityLoader) (slot : Slot) : AccountInfo :=
  (l.get slot).getD (AccountInfo.stub slot.id)

end IdentityLoader

end AccessLedger

import CoffeeOs.Listing

/-!
The service of modifiers.

Within a type, names are compared up to letter case, by the database; `fold` is its folding of a
name. A modifier that is in use is not deleted but made inactive.
-/

namespace CoffeeOs.Modifiers

open CoffeeOs.KeyedTable CoffeeOs.Payload CoffeeOs.Requests CoffeeOs.Requests.Request
open CoffeeOs.Listing CoffeeOs.Schema

structure CreateModifierDto where
  name : NotEmpty
  type : ModifierType
  priceDelta : Property ℚ := .undefined
  active : Property Bool := .undefined

structure UpdateModifierDto where
  name : Property NotEmpty := .undefined
  type : Property ModifierType := .undefined
  priceDelta : Property ℚ := .undefined
  active : Property Bool := .undefined

structure QueryModifiersDto where
  skip : Option ℕ := none
  take : Option ℕ := none
  active : Option Bool := none
  type : Option ModifierType := none
  search : Option String := none

/-! ### What the client includes with a modifier -/

structure ModifierView where
  id : Id
  row : Modifier
  products : ℕ

def countProducts (db : Db) (id : Id) : ℕ :=
  (db.productModifiers.filter fun m => m.modifierId = id).length

def countTicketLineModifiers (db : Db) (id : Id) : ℕ :=
  (db.ticketLineModifiers.filter fun m => m.modifierId = id).length

def viewOf (id : Id) (row : Modifier) (db : Db) : ModifierView where
  id := id
  row := row
  products := countProducts db id

structure ListedModifierView extends ModifierView where
  ticketLineModifiers : ℕ

def listedViewOf (id : Id) (row : Modifier) (db : Db) : ListedModifierView where
  toModifierView := viewOf id row db
  ticketLineModifiers := countTicketLineModifiers db id

/-! ### The service -/

def typeText : ModifierType → String
  | .size => "SIZE"
  | .milk => "MILK"
  | .extra => "EXTRA"
  | .syrup => "SYRUP"
  | .decaf => "DECAF"

/-- The rows that a query asks for. -/
def QueryModifiersDto.selects (contains : String → String → Bool) (query : QueryModifiersDto)
    (row : Modifier) : Bool :=
  (query.active.all fun active => row.active = active) &&
  (query.type.all fun type => row.type = type) &&
    searchIn contains query.search [some row.name]

/-- In the order of the types and, within a type, of the names. -/
def findAll (contains : String → String → Bool) (arrange : Arrange Modifier)
    (query : QueryModifiersDto) : Api (Page ListedModifierView) :=
  findPage modifier (query.selects contains) arrange (query.skip.getD 0) (query.take.getD 50)
    listedViewOf

/-- In the order of the types and, within a type, of the names. -/
def findAllActive (arrange : Arrange Modifier) : Api (List ModifierView) :=
  look fun db => (arrange (matching modifier (fun row => row.active) db)).map
    fun e => viewOf e.1 e.2 db

/-- The keys of the enumeration, in their order. -/
def validTypes : List ModifierType := [.size, .milk, .extra, .syrup, .decaf]

/-- `validTypes.join(', ')`. -/
def validTypesText : String := ", ".intercalate (validTypes.map typeText)

/-- The type of a text in any letter case; `upper` is `toUpperCase`. -/
def typeOf (upper : String → String) (typeString : String) : Option ModifierType :=
  validTypes.find? fun type => typeText type = upper typeString

/-- In the order of the names. -/
def findByType (upper : String → String) (arrange : Arrange Modifier) (typeString : String) :
    Api (List ModifierView) := do
  let type ← orThrow (.badRequest s!"Invalid modifier type. Valid types are: {validTypesText}")
    (typeOf upper typeString)
  look fun db => (arrange (matching modifier (fun row => row.type = type && row.active) db)).map
    fun e => viewOf e.1 e.2 db

variable (fold : String → String)

/-- The new row of a payload. -/
def CreateModifierDto.row (dto : CreateModifierDto) : Option Modifier := do
  let priceDelta ← dto.priceDelta.intoRequired 0
  let active ← dto.active.intoRequired true
  return { name := dto.name, type := dto.type, priceDelta, active }

def create (newId : Id) (dto : CreateModifierDto) : Api ModifierView := do
  let existing ← modifier.findFirst fun row => fold row.name = fold dto.name && row.type = dto.type
  throwIf existing.isSome (.badRequest
    s!"Modifier \"{dto.name.val}\" of type {typeText dto.type} already exists")
  modifier.createFrom newId dto.row (viewOf newId)

/-- The row after an update by the payload. -/
def UpdateModifierDto.apply (dto : UpdateModifierDto) (row : Modifier) : Option Modifier := do
  let name ← (dto.name.map Subtype.val).intoRequired row.name
  let type ← dto.type.intoRequired row.type
  let priceDelta ← dto.priceDelta.intoRequired row.priceDelta
  let active ← dto.active.intoRequired row.active
  return { name, type, priceDelta, active }

/-- The name and the type the check of `update` looks for, if it is made: the payload has a name
or a type, and one of them is not that of the row. -/
def UpdateModifierDto.sought (dto : UpdateModifierDto) (row : Modifier) :
    Option (String × ModifierType) :=
  if (dto.name.toOption.isSome ∨ dto.type.toOption.isSome) ∧
      (dto.name.map Subtype.val ≠ .val row.name ∨ dto.type ≠ .val row.type) then
    some ((dto.name.map Subtype.val).orElse row.name, dto.type.orElse row.type)
  else none

/-- If updating name or type, check for conflicts. -/
def checkName (id : Id) (dto : UpdateModifierDto) (row : Modifier) : Api Unit :=
  checkSome (dto.sought row) fun sought => do
    let existing ← modifier.findFirstNot id fun row =>
      fold row.name = fold sought.1 && row.type = sought.2
    throwIf existing.isSome (.badRequest
      s!"Modifier \"{sought.1}\" of type {typeText sought.2} already exists")

def update (id : Id) (dto : UpdateModifierDto) : Api ModifierView := do
  let found ← modifier.findUnique id
  let row ← orThrow (.notFound s!"Modifier with ID {id} not found") found
  checkName fold id dto row
  modifier.update id dto.apply (viewOf id)

/-- The rows that go with a modifier: its links to products. -/
def cascade (id : Id) (db : Db) : Db :=
  { db with productModifiers := db.productModifiers.filter fun m => m.modifierId ≠ id }

/-- Soft delete if modifier is being used. -/
def remove (id : Id) : Api Modifier :=
  modifier.removeUnused id (.notFound s!"Modifier with ID {id} not found")
    (fun db => countProducts db id > 0 ∨ countTicketLineModifiers db id > 0)
    (fun row => { row with active := false }) (cascade id)

/-- A call of the service that writes; the id of a new row comes with it. -/
inductive Op
  | create (newId : Id) (dto : CreateModifierDto)
  | update (id : Id) (dto : UpdateModifierDto)
  | remove (id : Id)

/-- The tables after a call that runs alone. -/
def step (db : Db) : Op → Db
  | .create newId dto => ((create fold newId dto).exec db).2
  | .update id dto => ((update fold id dto).exec db).2
  | .remove id => ((remove id).exec db).2

/-! ### The tables after each call -/

variable {fold} {db : Db} {id : Id}

lemma step_create (newId : Id) (dto : CreateModifierDto) :
    step fold db (.create newId dto) =
      if ¬ (db.modifiers.Any fun _ row => fold row.name = fold dto.name && row.type = dto.type) ∧
          db.modifiers.find? newId = none then
        match dto.row with
        | none => db
        | some row => { db with modifiers := db.modifiers.put newId row }
      else db := by
  show ((create fold newId dto).exec db).2 = _
  rw [create, Delegate.store_findFirst_throwIf, Delegate.store_createFrom, ← ite_and]
  rcases dto.row with _ | row <;> rfl

/-- The name and type the check of `update` looks for are no other modifier's. -/
def NameFree (fold : String → String) (db : Db) (id : Id) (dto : UpdateModifierDto)
    (row : Modifier) : Prop :=
  ∀ sought ∈ dto.sought row,
    ¬ db.modifiers.Any fun k other =>
      k ≠ id && (fold other.name = fold sought.1 && other.type = sought.2)

instance (dto : UpdateModifierDto) (row : Modifier) : Decidable (NameFree fold db id dto row) :=
  inferInstanceAs (Decidable (∀ sought ∈ _, _))

lemma checks_checkName (dto : UpdateModifierDto) (row : Modifier) :
    (checkName fold id dto row).Checks db (NameFree fold db id dto row) :=
  checks_checkSome fun _ _ => Delegate.checks_findFirstNot _ _

lemma step_update (dto : UpdateModifierDto) :
    step fold db (.update id dto) = match db.modifiers.find? id with
      | none => db
      | some row =>
        if NameFree fold db id dto row then
          match dto.apply row with
          | none => db
          | some row' => { db with modifiers := db.modifiers.put id row' }
        else db := by
  show ((update fold id dto).exec db).2 = _
  rw [update, Delegate.exec_findUnique_orThrow, modifier]
  rcases hrow : db.modifiers.find? id with _ | row
  · rfl
  dsimp only
  rw [(checks_checkName dto row).store, Delegate.exec_update_stored hrow]
  split
  · rcases dto.apply row with _ | row' <;> rfl
  · rfl

lemma step_remove : step fold db (.remove id) = match db.modifiers.find? id with
    | none => db
    | some row =>
      if countProducts db id > 0 ∨ countTicketLineModifiers db id > 0 then
        { db with modifiers := db.modifiers.put id { row with active := false } }
      else cascade id { db with modifiers := db.modifiers.erase id } := by
  show ((remove id).exec db).2 = _
  rw [remove, Delegate.exec_removeUnused, modifier]
  rcases db.modifiers.find? id with _ | row
  · rfl
  · simp only [decide_eq_true_eq]

/-- What a call makes of the tables. -/
inductive Outcome (fold : String → String) (db : Db) : Op → Db → Prop
  | kept (op : Op) : Outcome fold db op db
  | created {newId : Id} {dto : CreateModifierDto} {row : Modifier}
      (free : ¬ db.modifiers.Any fun _ row => fold row.name = fold dto.name && row.type = dto.type)
      (unused : db.modifiers.find? newId = none) (applied : dto.row = some row) :
      Outcome fold db (.create newId dto) { db with modifiers := db.modifiers.put newId row }
  | updated {id : Id} {dto : UpdateModifierDto} {row row' : Modifier}
      (stored : db.modifiers.find? id = some row) (free : NameFree fold db id dto row)
      (applied : dto.apply row = some row') :
      Outcome fold db (.update id dto) { db with modifiers := db.modifiers.put id row' }
  | retired {id : Id} {row : Modifier} (stored : db.modifiers.find? id = some row) :
      Outcome fold db (.remove id)
        { db with modifiers := db.modifiers.put id { row with active := false } }
  | removed {id : Id} {row : Modifier} (stored : db.modifiers.find? id = some row) :
      Outcome fold db (.remove id) (cascade id { db with modifiers := db.modifiers.erase id })

/-- **One call.** A call lets the tables be, or has the outcome of its kind. -/
theorem step_outcome (op : Op) : Outcome fold db op (step fold db op) := by
  cases op with
  | create newId dto =>
    rw [step_create]
    split
    · rename_i hc
      rcases hrow : dto.row with _ | row
      · exact .kept _
      · exact .created hc.1 hc.2 hrow
    · exact .kept _
  | update id dto =>
    rw [step_update]
    rcases hrow : db.modifiers.find? id with _ | row
    · exact .kept _
    dsimp only
    split
    · rename_i hfree
      rcases ha : dto.apply row with _ | row'
      · exact .kept _
      · exact .updated hrow hfree ha
    · exact .kept _
  | remove id =>
    rw [step_remove]
    rcases hrow : db.modifiers.find? id with _ | row
    · exact .kept _
    dsimp only
    split
    · exact .retired hrow
    · exact .removed hrow

/-- A call changes the modifiers and their links to products, and nothing else. -/
lemma step_frame (op : Op) : step fold db op = { db with
    modifiers := (step fold db op).modifiers
    productModifiers := (step fold db op).productModifiers } := by
  have h : Outcome fold db op (step fold db op) := step_outcome op
  generalize step fold db op = db' at h ⊢
  cases h <;> rfl

lemma stores_step {op : Op} (hop : ∀ k, op ≠ .remove k) :
    db.modifiers.Stores (step fold db op).modifiers := by
  have h : Outcome fold db op (step fold db op) := step_outcome op
  generalize step fold db op = db' at h ⊢
  cases h with
  | kept => exact Table.stores_refl
  | removed => exact absurd rfl (hop _)
  | _ => exact Table.stores_put

/-- A call keeps a modifier, unless it removes it and neither a product nor a line of a ticket has
it. -/
lemma stored_step_iff {k : Id} (op : Op) (h : (db.modifiers.find? k).isSome) :
    ((step fold db op).modifiers.find? k).isSome ↔
      (op = .remove k → countProducts db k > 0 ∨ countTicketLineModifiers db k > 0) := by
  by_cases hop : ∀ k, op ≠ .remove k
  · exact iff_of_true ((stores_step hop).isSome h) fun he => absurd he (hop k)
  obtain ⟨id, rfl⟩ := not_forall_not.mp hop
  show ((modifier.get ((remove id).exec db).2).find? k).isSome ↔ _
  rw [remove, Delegate.stored_removeUnused_iff (cascade id) (fun _ _ => rfl) (fun _ => rfl) h,
    Op.remove.injEq]
  exact imp_congr_right fun hid => by rw [hid, decide_eq_true_eq]

/-! ### The name and the type of a row -/

lemma row_name {dto : CreateModifierDto} {row : Modifier} (h : dto.row = some row) :
    row.name = dto.name ∧ row.type = dto.type := by
  unfold CreateModifierDto.row at h
  simp only [Option.bind_eq_bind, Option.bind_eq_some_iff] at h
  obtain ⟨priceDelta, -, active, -, h⟩ := h
  rw [← Option.some.inj h]
  exact ⟨rfl, rfl⟩

/-- An update that is written carries no `null` for the name or the type. -/
lemma apply_name {dto : UpdateModifierDto} {row row' : Modifier} (h : dto.apply row = some row') :
    (dto.name ≠ .null ∧ row'.name = (dto.name.map Subtype.val).orElse row.name) ∧
    (dto.type ≠ .null ∧ row'.type = dto.type.orElse row.type) := by
  unfold UpdateModifierDto.apply at h
  simp only [Option.bind_eq_bind, Option.bind_eq_some_iff] at h
  obtain ⟨name, hname, type, htype, priceDelta, -, active, -, h⟩ := h
  rw [← Option.some.inj h]
  refine ⟨?_, ?_⟩
  · rcases hd : dto.name with _ | _ | n <;> rw [hd] at hname <;> cases hname <;>
      exact ⟨by simp, rfl⟩
  · rcases hd : dto.type with _ | _ | t <;> rw [hd] at htype <;> cases htype <;>
      exact ⟨by simp, rfl⟩

end CoffeeOs.Modifiers

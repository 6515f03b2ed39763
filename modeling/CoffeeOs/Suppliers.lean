import CoffeeOs.Listing

/-!
The suppliers service.

The code of a supplier is looked for before it is stored. A supplier that has inventory items is
not deleted but made inactive; unlike its siblings the call answers with nothing when it deletes.
-/

namespace CoffeeOs.Suppliers

open CoffeeOs.KeyedTable CoffeeOs.Listing CoffeeOs.Payload CoffeeOs.Requests
open CoffeeOs.Requests.Request CoffeeOs.Schema

def codeChar (c : Char) : Bool := c.isUpper || c.isDigit || c == '-'

/-- `@Matches(/^[A-Z0-9-]+$/)` and `@MaxLength(50)`. -/
abbrev SupplierCode := {s : String // s ≠ "" ∧ s.toList.all codeChar ∧ s.length ≤ 50}

/-- `@IsInt() @Min(0)`: days for delivery. -/
abbrev LeadTime := {n : ℤ // 0 ≤ n}

structure CreateSupplierDto where
  code : SupplierCode
  name : NotEmpty
  contactName : NotEmpty
  email : Property String := .undefined
  phone : Property String := .undefined
  address : Property String := .undefined
  city : Property String := .undefined
  state : Property String := .undefined
  postalCode : Property String := .undefined
  country : Property String := .undefined
  leadTime : Property LeadTime := .undefined
  notes : Property String := .undefined

structure UpdateSupplierDto where
  code : Property SupplierCode := .undefined
  name : Property NotEmpty := .undefined
  contactName : Property NotEmpty := .undefined
  email : Property String := .undefined
  phone : Property String := .undefined
  address : Property String := .undefined
  city : Property String := .undefined
  state : Property String := .undefined
  postalCode : Property String := .undefined
  country : Property String := .undefined
  leadTime : Property LeadTime := .undefined
  notes : Property String := .undefined
  active : Property Bool := .undefined

structure QuerySuppliersDto where
  skip : Option ℕ := some 0
  take : Option ℕ := some 50
  active : Option Bool := none
  search : Option String := none

/-! ### What the client includes with a supplier -/

def countInventoryItems (db : Db) (id : Id) : ℕ :=
  (db.inventoryItems.rows.filter fun e => e.2.supplierId = some id).length

structure SupplierView where
  id : Id
  row : Supplier
  inventoryItems : ℕ

def viewOf (id : Id) (row : Supplier) (db : Db) : SupplierView where
  id := id
  row := row
  inventoryItems := countInventoryItems db id

/-- The columns of an item that come with its supplier. -/
structure InventoryItemSelect where
  id : Id
  code : String
  name : String
  active : Bool

structure SupplierDetail extends SupplierView where
  items : List InventoryItemSelect

def itemsOf (db : Db) (id : Id) : List InventoryItemSelect :=
  (db.inventoryItems.rows.filter fun e => e.2.supplierId = some id).map
    fun e => ⟨e.1, e.2.code, e.2.name, e.2.active⟩

def detailOf (id : Id) (row : Supplier) (db : Db) : SupplierDetail where
  toSupplierView := viewOf id row db
  items := itemsOf db id

/-! ### The service -/

/-- The new row of a payload. -/
def CreateSupplierDto.row (dto : CreateSupplierDto) : Supplier where
  code := dto.code
  name := dto.name
  contactName := some dto.contactName
  email := dto.email.toOption
  phone := dto.phone.toOption
  address := dto.address.toOption
  city := dto.city.toOption
  state := dto.state.toOption
  postalCode := dto.postalCode.toOption
  country := dto.country.toOption
  leadTime := dto.leadTime.toOption.map Subtype.val
  notes := dto.notes.toOption

def create (newId : Id) (dto : CreateSupplierDto) : Api SupplierView := do
  let existing ← supplier.findFirst fun row => row.code = dto.code
  throwIf existing.isSome (.conflict s!"Supplier with code {dto.code.val} already exists")
  supplier.create newId dto.row (viewOf newId dto.row)

/-- The rows that a query asks for. -/
def QuerySuppliersDto.selects (contains : String → String → Bool) (query : QuerySuppliersDto)
    (row : Supplier) : Bool :=
  (query.active.all fun active => row.active = active) &&
    searchIn contains query.search [some row.name, some row.code, row.contactName, row.email]

/-- In the order of the names. -/
def findAll (contains : String → String → Bool) (arrange : Arrange Supplier)
    (query : QuerySuppliersDto) : Api (Page SupplierView) :=
  findPage supplier (query.selects contains) arrange (query.skip.getD 0) (query.take.getD 50) viewOf

/-- In the order of the names. -/
def findAllActive (arrange : Arrange Supplier) : Api (List SupplierView) :=
  look fun db => (arrange (matching supplier (fun row => row.active) db)).map
    fun e => viewOf e.1 e.2 db

def findOne (id : Id) : Api SupplierDetail := do
  let found ← look fun db => (db.suppliers.find? id).map fun row => detailOf id row db
  orThrow (.notFound s!"Supplier with ID {id} not found") found

def findByCode (code : String) : Api SupplierView := do
  let found ← supplier.findUniqueBy Supplier.code code viewOf
  orThrow (.notFound s!"Supplier with code {code} not found") found

/-- The row after an update by the payload. -/
def UpdateSupplierDto.apply (dto : UpdateSupplierDto) (row : Supplier) : Option Supplier := do
  let code ← (dto.code.map Subtype.val).intoRequired row.code
  let name ← (dto.name.map Subtype.val).intoRequired row.name
  let active ← dto.active.intoRequired row.active
  return {
    code, name, active
    contactName := (dto.contactName.map Subtype.val).intoNullable row.contactName
    email := dto.email.intoNullable row.email
    phone := dto.phone.intoNullable row.phone
    address := dto.address.intoNullable row.address
    city := dto.city.intoNullable row.city
    state := dto.state.intoNullable row.state
    postalCode := dto.postalCode.intoNullable row.postalCode
    country := dto.country.intoNullable row.country
    leadTime := (dto.leadTime.map Subtype.val).intoNullable row.leadTime
    notes := dto.notes.intoNullable row.notes }

/-- Check if new code conflicts with existing supplier. -/
def checkCode (code : Property SupplierCode) (row : Supplier) : Api Unit :=
  checkSome (code.toOption.filter fun code => code.val ≠ row.code) fun code => do
    let existing ← supplier.findFirst fun row => row.code = code
    throwIf existing.isSome (.conflict s!"Supplier with code {code.val} already exists")

def update (id : Id) (dto : UpdateSupplierDto) : Api SupplierView := do
  let found ← supplier.findUnique id
  let row ← orThrow (.notFound s!"Supplier with ID {id} not found") found
  checkCode dto.code row
  supplier.update id dto.apply (viewOf id)

/-- Soft delete if supplier has inventory items. -/
def remove (id : Id) : Api (Option Supplier) := do
  let found ← look fun db => (db.suppliers.find? id).map fun _ => countInventoryItems db id
  let inventoryItems ← orThrow (.notFound s!"Supplier with ID {id} not found") found
  if inventoryItems > 0 then
    supplier.update id (fun row => some { row with active := false }) fun row _ => some row
  else do
    supplier.delete id
    pure none

/-- A call of the service that writes; the id of a new row comes with it. -/
inductive Op
  | create (newId : Id) (dto : CreateSupplierDto)
  | update (id : Id) (dto : UpdateSupplierDto)
  | remove (id : Id)

/-- The tables after a call that runs alone. -/
def step (db : Db) : Op → Db
  | .create newId dto => ((create newId dto).exec db).2
  | .update id dto => ((update id dto).exec db).2
  | .remove id => ((remove id).exec db).2

/-! ### The tables after each call -/

lemma exec_remove (db : Db) (id : Id) : ((remove id).exec db).2 = match db.suppliers.find? id with
    | none => db
    | some row =>
      if countInventoryItems db id > 0 then
        { db with suppliers := db.suppliers.put id { row with active := false } }
      else { db with suppliers := db.suppliers.erase id } := by
  rw [remove, exec_look_bind]
  rcases hrow : db.suppliers.find? id with _ | row
  · rfl
  rw [Option.map_some, exec_orThrow_some]
  dsimp only
  split
  · rw [Delegate.exec_update_some (d := supplier) hrow]
    rfl
  · rw [exec_bind, Delegate.exec_delete (d := supplier) hrow]
    rfl

variable {db : Db} {id : Id}

lemma step_create (newId : Id) (dto : CreateSupplierDto) : step db (.create newId dto) =
    if ¬ (db.suppliers.Any fun _ row => row.code = dto.code.val) ∧
        db.suppliers.find? newId = none then
      { db with suppliers := db.suppliers.put newId dto.row }
    else db := by
  show ((create newId dto).exec db).2 = _
  rw [create, Delegate.store_findFirst_throwIf]
  show (if _ then ((supplier.createFrom newId (some dto.row) (viewOf newId)).exec db).2 else db) = _
  rw [Delegate.store_createFrom, ← ite_and]
  rfl

/-- The code of a payload, if it is new, is free. -/
def CodeFree (db : Db) (code : Property SupplierCode) (row : Supplier) : Prop :=
  ∀ c ∈ code.toOption.filter fun c => c.val ≠ row.code,
    ¬ db.suppliers.Any fun _ other => other.code = c.val

instance (db : Db) (code : Property SupplierCode) (row : Supplier) :
    Decidable (CodeFree db code row) := inferInstanceAs (Decidable (∀ c ∈ _, _))

lemma checks_checkCode (code : Property SupplierCode) (row : Supplier) :
    (checkCode code row).Checks db (CodeFree db code row) :=
  checks_checkSome fun _ _ => Delegate.checks_findFirst _ _

lemma step_update (dto : UpdateSupplierDto) :
    step db (.update id dto) = match db.suppliers.find? id with
      | none => db
      | some row =>
        if CodeFree db dto.code row then
          match dto.apply row with
          | none => db
          | some row' => { db with suppliers := db.suppliers.put id row' }
        else db := by
  show ((update id dto).exec db).2 = _
  rw [update, Delegate.exec_findUnique_orThrow, supplier]
  rcases hrow : db.suppliers.find? id with _ | row
  · rfl
  dsimp only
  rw [(checks_checkCode dto.code row).store, Delegate.exec_update_stored hrow]
  rcases dto.apply row with _ | row' <;> rfl

/-- What a call makes of the tables. -/
inductive Outcome (db : Db) : Op → Db → Prop
  | kept (op : Op) : Outcome db op db
  | created {newId : Id} {dto : CreateSupplierDto}
      (free : ¬ db.suppliers.Any fun _ row => row.code = dto.code.val)
      (unused : db.suppliers.find? newId = none) :
      Outcome db (.create newId dto) { db with suppliers := db.suppliers.put newId dto.row }
  | updated {id : Id} {dto : UpdateSupplierDto} {row row' : Supplier}
      (stored : db.suppliers.find? id = some row) (free : CodeFree db dto.code row)
      (applied : dto.apply row = some row') :
      Outcome db (.update id dto) { db with suppliers := db.suppliers.put id row' }
  | retired {id : Id} {row : Supplier} (stored : db.suppliers.find? id = some row) :
      Outcome db (.remove id)
        { db with suppliers := db.suppliers.put id { row with active := false } }
  | removed {id : Id} {row : Supplier} (stored : db.suppliers.find? id = some row)
      (unused : countInventoryItems db id = 0) :
      Outcome db (.remove id) { db with suppliers := db.suppliers.erase id }

/-- **One call.** A call lets the tables be, or has the outcome of its kind. -/
theorem step_outcome (op : Op) : Outcome db op (step db op) := by
  cases op with
  | create newId dto =>
    rw [step_create]
    split
    · rename_i hc
      exact .created hc.1 hc.2
    · exact .kept _
  | update id dto =>
    rw [step_update]
    rcases hrow : db.suppliers.find? id with _ | row
    · exact .kept _
    dsimp only
    split
    · rename_i hfree
      rcases ha : dto.apply row with _ | row'
      · exact .kept _
      · exact .updated hrow hfree ha
    · exact .kept _
  | remove id =>
    show Outcome db (.remove id) ((remove id).exec db).2
    rw [exec_remove]
    rcases hrow : db.suppliers.find? id with _ | row
    · exact .kept _
    dsimp only
    split
    · -- the supplier still has items, and is only switched off
      exact .retired hrow
    · rename_i hcount
      exact .removed hrow (Nat.eq_zero_of_not_pos hcount)

/-- A call changes the suppliers and nothing else. -/
lemma step_frame (op : Op) : step db op = { db with suppliers := (step db op).suppliers } := by
  have h : Outcome db op (step db op) := step_outcome op
  generalize step db op = db' at h ⊢
  cases h <;> rfl

/-- An update keeps the code, or sets the one its payload carries. -/
lemma apply_code {dto : UpdateSupplierDto} {row row' : Supplier} (h : dto.apply row = some row') :
    row'.code = row.code ∨ ∃ code, dto.code = .val code ∧ row'.code = code := by
  unfold UpdateSupplierDto.apply at h
  simp only [Option.bind_eq_bind, Option.bind_eq_some_iff] at h
  obtain ⟨code, hcode, name, -, active, -, h⟩ := h
  rw [← Option.some.inj h]
  rcases Property.intoRequired_eq_some_iff.mp hcode with ⟨-, hold⟩ | hnew
  · exact Or.inl hold
  · obtain ⟨c, hc, rfl⟩ := Property.map_eq_val_iff.mp hnew
    exact Or.inr ⟨c, hc, rfl⟩

end CoffeeOs.Suppliers

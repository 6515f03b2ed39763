import CoffeeOs.Listing

/-!
The service of categories.

Names are compared up to letter case, by the database; `fold` is its folding of a name. A
category that has products is not deleted but made inactive.
-/

namespace CoffeeOs.Categories

open CoffeeOs.KeyedTable CoffeeOs.Payload CoffeeOs.Requests CoffeeOs.Requests.Request
open CoffeeOs.Listing CoffeeOs.Schema

structure CreateCategoryDto where
  name : NotEmpty
  description : Property String := .undefined
  color : Property String := .undefined
  icon : Property String := .undefined
  sortOrder : Property ℕ := .undefined
  active : Property Bool := .undefined

structure UpdateCategoryDto where
  name : Property NotEmpty := .undefined
  description : Property String := .undefined
  color : Property String := .undefined
  icon : Property String := .undefined
  sortOrder : Property ℕ := .undefined
  active : Property Bool := .undefined

structure QueryCategoriesDto where
  skip : Option ℕ := none
  take : Option ℕ := none
  active : Option Bool := none
  search : Option String := none

/-! ### What the client includes with a category -/

structure CategoryView where
  id : Id
  row : Category
  products : ℕ

def countProducts (db : Db) (id : Id) : ℕ :=
  (db.products.rows.filter fun e => e.2.categoryId = id).length

lemma countProducts_pos_iff {db : Db} {id : Id} :
    countProducts db id > 0 ↔ ∃ p ∈ db.products.values, p.categoryId = id :=
  Table.length_filter_pos_iff (p := fun p : Product => p.categoryId = id)

def viewOf (id : Id) (row : Category) (db : Db) : CategoryView where
  id := id
  row := row
  products := countProducts db id

/-! ### The service -/

variable (fold : String → String)

/-- Get the highest sortOrder, if there is a category. -/
def highestSortOrder : Api (Option ℤ) :=
  look fun db => (db.categories.rows.map fun e => e.2.sortOrder).max?

/-- The new row of a payload. -/
def CreateCategoryDto.row (dto : CreateCategoryDto) (highest : Option ℤ) : Option Category := do
  let active ← dto.active.intoRequired true
  return {
    name := dto.name, active
    description := dto.description.toOption
    color := dto.color.toOption
    icon := dto.icon.toOption
    sortOrder := (dto.sortOrder.toOption.map Int.ofNat).getD (highest.getD 0 + 1) }

def create (newId : Id) (dto : CreateCategoryDto) : Api CategoryView := do
  let existing ← category.findFirst fun row => fold row.name = fold dto.name
  throwIf existing.isSome (.badRequest s!"Category with name \"{dto.name.val}\" already exists")
  let highest ← highestSortOrder
  category.createFrom newId (dto.row highest) (viewOf newId)

/-- The rows that a query asks for. -/
def QueryCategoriesDto.selects (contains : String → String → Bool) (query : QueryCategoriesDto)
    (row : Category) : Bool :=
  (query.active.all fun active => row.active = active) &&
    searchIn contains query.search [some row.name, row.description]

/-- In the order of the sort orders. -/
def findAll (contains : String → String → Bool) (arrange : Arrange Category)
    (query : QueryCategoriesDto) : Api (Page CategoryView) :=
  findPage category (query.selects contains) arrange (query.skip.getD 0) (query.take.getD 50) viewOf

/-- The row after an update by the payload. -/
def UpdateCategoryDto.apply (dto : UpdateCategoryDto) (row : Category) : Option Category := do
  let name ← (dto.name.map Subtype.val).intoRequired row.name
  let sortOrder ← (dto.sortOrder.map Int.ofNat).intoRequired row.sortOrder
  let active ← dto.active.intoRequired row.active
  return {
    name, sortOrder, active
    description := dto.description.intoNullable row.description
    color := dto.color.intoNullable row.color
    icon := dto.icon.intoNullable row.icon }

/-- If updating name, check for conflicts. -/
def checkName (id : Id) (name : Property NotEmpty) (row : Category) : Api Unit :=
  checkSome (name.toOption.filter fun name => name.val ≠ row.name) fun name => do
    let existing ← category.findFirstNot id fun row => fold row.name = fold name
    throwIf existing.isSome (.badRequest s!"Category with name \"{name.val}\" already exists")

/-- The row read at the beginning of a call. -/
def findCategory (id : Id) : Api Category := do
  let found ← category.findUnique id
  orThrow (.notFound s!"Category with ID {id} not found") found

def update (id : Id) (dto : UpdateCategoryDto) : Api CategoryView := do
  let row ← findCategory id
  checkName fold id dto.name row
  category.update id dto.apply (viewOf id)

def updateSortOrder (id : Id) (sortOrder : ℤ) : Api Category := do
  let _ ← findCategory id
  category.update id (fun row => some { row with sortOrder }) fun row _ => row

/-- Soft delete if category has products. -/
def remove (id : Id) : Api Category :=
  category.removeUnused id (.notFound s!"Category with ID {id} not found")
    (fun db => countProducts db id > 0) (fun row => { row with active := false }) fun db => db

/-- A call of the service that writes; the id of a new row comes with it. -/
inductive Op
  | create (newId : Id) (dto : CreateCategoryDto)
  | update (id : Id) (dto : UpdateCategoryDto)
  | updateSortOrder (id : Id) (sortOrder : ℤ)
  | remove (id : Id)

/-- The tables after a call that runs alone. -/
def step (db : Db) : Op → Db
  | .create newId dto => ((create fold newId dto).exec db).2
  | .update id dto => ((update fold id dto).exec db).2
  | .updateSortOrder id sortOrder => ((updateSortOrder id sortOrder).exec db).2
  | .remove id => ((remove id).exec db).2

/-! ### The tables after each call -/

variable {fold} {db : Db} {id : Id}

lemma exec_create (newId : Id) (dto : CreateCategoryDto) : (create fold newId dto).exec db =
    if db.categories.Any fun _ row => fold row.name = fold dto.name then
      (.error (.badRequest s!"Category with name \"{dto.name.val}\" already exists"), db)
    else (category.createFrom newId
      (dto.row (db.categories.rows.map fun e => e.2.sortOrder).max?) (viewOf newId)).exec db := by
  rw [create, Delegate.findFirst, exec_look_bind, exec_throwIf_bind]
  rfl

lemma step_create (newId : Id) (dto : CreateCategoryDto) :
    step fold db (.create newId dto) =
      if ¬ (db.categories.Any fun _ row => fold row.name = fold dto.name) ∧
          db.categories.find? newId = none then
        match dto.row (db.categories.rows.map fun e => e.2.sortOrder).max? with
        | none => db
        | some row => { db with categories := db.categories.put newId row }
      else db := by
  show ((create fold newId dto).exec db).2 = _
  rw [create, Delegate.store_findFirst_throwIf, highestSortOrder, exec_look_bind,
    Delegate.store_createFrom, ← ite_and]
  rcases dto.row _ with _ | row <;> rfl

lemma exec_findCategory_bind {α : Type} (f : Category → Api α) :
    (findCategory id >>= f).exec db = match db.categories.find? id with
      | none => (.error (.notFound s!"Category with ID {id} not found"), db)
      | some row => (f row).exec db := by
  rw [findCategory, Delegate.exec_found_bind, category]
  rcases db.categories.find? id with _ | row <;> rfl

/-- The new name of a payload, if it is new, is no other category's. -/
def NameFree (fold : String → String) (db : Db) (id : Id) (name : Property NotEmpty)
    (row : Category) : Prop :=
  ∀ n ∈ name.toOption.filter fun n => n.val ≠ row.name,
    ¬ db.categories.Any fun k other => k ≠ id && fold other.name = fold n

instance (name : Property NotEmpty) (row : Category) :
    Decidable (NameFree fold db id name row) := inferInstanceAs (Decidable (∀ n ∈ _, _))

lemma checks_checkName (name : Property NotEmpty) (row : Category) :
    (checkName fold id name row).Checks db (NameFree fold db id name row) :=
  checks_checkSome fun _ _ => Delegate.checks_findFirstNot _ _

lemma step_update (dto : UpdateCategoryDto) :
    step fold db (.update id dto) = match db.categories.find? id with
      | none => db
      | some row =>
        if NameFree fold db id dto.name row then
          match dto.apply row with
          | none => db
          | some row' => { db with categories := db.categories.put id row' }
        else db := by
  show ((update fold id dto).exec db).2 = _
  rw [update, exec_findCategory_bind]
  rcases hrow : db.categories.find? id with _ | row
  · rfl
  dsimp only
  rw [(checks_checkName dto.name row).store, Delegate.exec_update_stored (d := category) hrow]
  split
  · rcases dto.apply row with _ | row' <;> rfl
  · rfl

lemma step_updateSortOrder (sortOrder : ℤ) :
    step fold db (.updateSortOrder id sortOrder) = match db.categories.find? id with
      | none => db
      | some row => { db with categories := db.categories.put id { row with sortOrder } } := by
  show ((updateSortOrder id sortOrder).exec db).2 = _
  rw [updateSortOrder, exec_findCategory_bind]
  rcases hrow : db.categories.find? id with _ | row
  · rfl
  · dsimp only
    rw [Delegate.exec_update_some (d := category) hrow]
    rfl

lemma step_remove : step fold db (.remove id) = match db.categories.find? id with
    | none => db
    | some row =>
      if countProducts db id > 0 then
        { db with categories := db.categories.put id { row with active := false } }
      else { db with categories := db.categories.erase id } := by
  show ((remove id).exec db).2 = _
  rw [remove, Delegate.exec_removeUnused, category]
  rcases db.categories.find? id with _ | row
  · rfl
  · simp only [decide_eq_true_eq]

/-- What a call makes of the tables. -/
inductive Outcome (fold : String → String) (db : Db) : Op → Db → Prop
  | kept (op : Op) : Outcome fold db op db
  | created {newId : Id} {dto : CreateCategoryDto} {row : Category}
      (free : ¬ db.categories.Any fun _ row => fold row.name = fold dto.name)
      (unused : db.categories.find? newId = none)
      (applied : dto.row (db.categories.rows.map fun e => e.2.sortOrder).max? = some row) :
      Outcome fold db (.create newId dto) { db with categories := db.categories.put newId row }
  | updated {id : Id} {dto : UpdateCategoryDto} {row row' : Category}
      (stored : db.categories.find? id = some row) (free : NameFree fold db id dto.name row)
      (applied : dto.apply row = some row') :
      Outcome fold db (.update id dto) { db with categories := db.categories.put id row' }
  | reordered {id : Id} {sortOrder : ℤ} {row : Category}
      (stored : db.categories.find? id = some row) :
      Outcome fold db (.updateSortOrder id sortOrder)
        { db with categories := db.categories.put id { row with sortOrder } }
  | retired {id : Id} {row : Category} (stored : db.categories.find? id = some row) :
      Outcome fold db (.remove id)
        { db with categories := db.categories.put id { row with active := false } }
  | removed {id : Id} {row : Category} (stored : db.categories.find? id = some row) :
      Outcome fold db (.remove id) { db with categories := db.categories.erase id }

/-- **One call.** A call lets the tables be, or has the outcome of its kind. -/
theorem step_outcome (op : Op) : Outcome fold db op (step fold db op) := by
  cases op with
  | create newId dto =>
    rw [step_create]
    split
    · rename_i hc
      rcases hrow : dto.row _ with _ | row
      · exact .kept _
      · exact .created hc.1 hc.2 hrow
    · exact .kept _
  | update id dto =>
    rw [step_update]
    rcases hrow : db.categories.find? id with _ | row
    · exact .kept _
    dsimp only
    split
    · rename_i hfree
      rcases ha : dto.apply row with _ | row'
      · exact .kept _
      · exact .updated hrow hfree ha
    · exact .kept _
  | updateSortOrder id sortOrder =>
    rw [step_updateSortOrder]
    rcases hrow : db.categories.find? id with _ | row
    · exact .kept _
    · exact .reordered hrow
  | remove id =>
    rw [step_remove]
    rcases hrow : db.categories.find? id with _ | row
    · exact .kept _
    dsimp only
    split
    · -- the category still has products, and is only switched off
      exact .retired hrow
    · exact .removed hrow

/-- A call changes the categories and nothing else. -/
lemma step_frame (op : Op) :
    step fold db op = { db with categories := (step fold db op).categories } := by
  have h : Outcome fold db op (step fold db op) := step_outcome op
  generalize step fold db op = db' at h ⊢
  cases h <;> rfl

lemma stores_step {op : Op} (hop : ∀ k, op ≠ .remove k) :
    db.categories.Stores (step fold db op).categories := by
  have h : Outcome fold db op (step fold db op) := step_outcome op
  generalize step fold db op = db' at h ⊢
  cases h with
  | kept => exact Table.stores_refl
  | removed => exact absurd rfl (hop _)
  | _ => exact Table.stores_put

/-- A call keeps a category, unless it removes it and no product is in it. -/
lemma stored_step_iff {k : Id} (op : Op) (h : (db.categories.find? k).isSome) :
    ((step fold db op).categories.find? k).isSome ↔ (op = .remove k → countProducts db k > 0) := by
  by_cases hop : ∀ k, op ≠ .remove k
  · exact iff_of_true ((stores_step hop).isSome h) fun he => absurd he (hop k)
  obtain ⟨id, rfl⟩ := not_forall_not.mp hop
  show ((category.get ((remove id).exec db).2).find? k).isSome ↔ _
  rw [remove, Delegate.stored_removeUnused_iff (fun db => db) (fun _ _ => rfl) (fun _ => rfl) h,
    Op.remove.injEq]
  exact imp_congr_right fun hid => by rw [hid, decide_eq_true_eq]

/-! ### The name of a row -/

lemma row_name {dto : CreateCategoryDto} {highest : Option ℤ} {row : Category}
    (h : dto.row highest = some row) : row.name = dto.name := by
  unfold CreateCategoryDto.row at h
  simp only [Option.bind_eq_bind, Option.bind_eq_some_iff] at h
  obtain ⟨active, -, h⟩ := h
  rw [← Option.some.inj h]

/-- A payload without a sort order leaves it to the categories that are stored. -/
lemma row_sortOrder {dto : CreateCategoryDto} {highest : Option ℤ} {row : Category}
    (hdto : dto.sortOrder.toOption = none) (h : dto.row highest = some row) :
    row.sortOrder = highest.getD 0 + 1 := by
  unfold CreateCategoryDto.row at h
  simp only [Option.bind_eq_bind, Option.bind_eq_some_iff] at h
  obtain ⟨active, -, h⟩ := h
  rw [← Option.some.inj h, hdto]
  rfl

/-- An update keeps the name, or sets the one its payload carries. -/
lemma apply_name {dto : UpdateCategoryDto} {row row' : Category} (h : dto.apply row = some row') :
    row'.name = row.name ∨ ∃ name, dto.name = .val name ∧ row'.name = name := by
  unfold UpdateCategoryDto.apply at h
  simp only [Option.bind_eq_bind, Option.bind_eq_some_iff] at h
  obtain ⟨name, hname, sortOrder, -, active, -, h⟩ := h
  rw [← Option.some.inj h]
  rcases Property.intoRequired_eq_some_iff.mp hname with ⟨-, hold⟩ | hnew
  · exact Or.inl hold
  · obtain ⟨n, hn, rfl⟩ := Property.map_eq_val_iff.mp hnew
    exact Or.inr ⟨n, hn, rfl⟩

lemma apply_sortOrder {dto : UpdateCategoryDto} {row row' : Category}
    (hdto : dto.sortOrder.toOption = none) (h : dto.apply row = some row') :
    row'.sortOrder = row.sortOrder := by
  unfold UpdateCategoryDto.apply at h
  simp only [Option.bind_eq_bind, Option.bind_eq_some_iff] at h
  obtain ⟨name, -, sortOrder, hsort, active, -, h⟩ := h
  rw [← Option.some.inj h]
  rcases Property.intoRequired_eq_some_iff.mp hsort with ⟨-, hold⟩ | hnew
  · exact hold
  · obtain ⟨n, hn, -⟩ := Property.map_eq_val_iff.mp hnew
    rw [hn] at hdto
    cases hdto

end CoffeeOs.Categories

import CoffeeOs.Loops
import CoffeeOs.Payload
import CoffeeOs.Schema
import Mathlib.Algebra.BigOperators.Group.List.Lemmas
import Mathlib.Data.Rat.Defs

/-!
The service of taxes.

One tax is computed from its own row, and several from the rows that a single query returns, which
leaves out the inactive ones and has an order of its own. The two ways come to the same.
-/

namespace CoffeeOs.Taxes

open CoffeeOs.KeyedTable CoffeeOs.Loops CoffeeOs.Payload CoffeeOs.Requests
open CoffeeOs.Requests.Request CoffeeOs.Schema

/-- `@Min(0)` and `@Max(100)`. -/
abbrev Percentage := {q : ℚ // 0 ≤ q ∧ q ≤ 100}

structure CreateTaxDto where
  name : String
  description : Property String := .undefined
  category : TaxCategory
  rate : Percentage
  isActive : Property Bool := .undefined
  organizationId : Id

structure UpdateTaxDto where
  name : Property String := .undefined
  description : Property String := .undefined
  category : Property TaxCategory := .undefined
  rate : Property Percentage := .undefined
  isActive : Property Bool := .undefined
  organizationId : Property Id := .undefined

structure TaxView where
  id : Id
  row : Tax

/-! ### The service -/

/-- The new row of a payload. -/
def CreateTaxDto.row (dto : CreateTaxDto) : Option Tax := do
  let isActive ← dto.isActive.intoRequired true
  return {
    name := dto.name, category := dto.category, rate := dto.rate
    description := dto.description.toOption
    isActive, organizationId := dto.organizationId }

def create (newId : Id) (dto : CreateTaxDto) : Api TaxView :=
  tax.createFrom newId dto.row fun row _ => ⟨newId, row⟩

def findOne (id : Id) : Api Tax := do
  let found ← tax.findUnique id
  orThrow (.notFound s!"Tax with ID \"{id}\" not found") found

/-- The row after an update by the payload. -/
def UpdateTaxDto.apply (dto : UpdateTaxDto) (row : Tax) : Option Tax := do
  let name ← dto.name.intoRequired row.name
  let category ← dto.category.intoRequired row.category
  let rate ← (dto.rate.map Subtype.val).intoRequired row.rate
  let isActive ← dto.isActive.intoRequired row.isActive
  let organizationId ← dto.organizationId.intoRequired row.organizationId
  return {
    name, category, rate, isActive, organizationId
    description := dto.description.intoNullable row.description }

def update (id : Id) (dto : UpdateTaxDto) : Api TaxView := do
  let _ ← findOne id
  tax.update id dto.apply fun row _ => ⟨id, row⟩

def remove (id : Id) : Api Tax := do
  let _ ← findOne id
  tax.deleteRow id fun db => db

def calculateTax (taxId : Id) (subtotal : ℚ) : Api ℚ := do
  let tax ← findOne taxId
  if ¬ tax.isActive then
    return 0
  return subtotal * tax.rate / 100

structure TaxAmount where
  taxId : Id
  amount : ℚ

structure MultipleTaxes where
  total : ℚ
  breakdown : List TaxAmount

/-- The rows that the query for the listed taxes matches. -/
def activeIn (db : Db) (taxIds : List Id) : List (Id × Tax) :=
  db.taxes.rows.filter fun e => decide (e.1 ∈ taxIds) && e.2.isActive

/-- `calculateMultipleTaxes`, where the database returns the rows of the query as `arrange` has
them. -/
def calculateMultipleTaxes (arrange : List (Id × Tax) → List (Id × Tax)) (taxIds : List Id)
    (subtotal : ℚ) : Api MultipleTaxes := do
  let taxes ← look fun db => arrange (activeIn db taxIds)
  let breakdown := taxes.map fun tax =>
    { taxId := tax.1, amount := subtotal * tax.2.rate / 100 : TaxAmount }
  let total := breakdown.foldl (fun sum item => sum + item.amount) 0
  return { total, breakdown }

/-- A call of the service that writes; the id of a new row comes with it. -/
inductive Op
  | create (newId : Id) (dto : CreateTaxDto)
  | update (id : Id) (dto : UpdateTaxDto)
  | remove (id : Id)

/-- The tables after a call that runs alone. -/
def step (db : Db) : Op → Db
  | .create newId dto => ((create newId dto).exec db).2
  | .update id dto => ((update id dto).exec db).2
  | .remove id => ((remove id).exec db).2

/-! ### The tables after each call -/

section Calls

variable {db : Db} {id : Id} {row : Tax}

lemma step_create (newId : Id) (dto : CreateTaxDto) : step db (.create newId dto) =
    if db.taxes.find? newId = none then
      match dto.row with
      | none => db
      | some row => { db with taxes := db.taxes.put newId row }
    else db := by
  show ((create newId dto).exec db).2 = _
  rw [create, Delegate.store_createFrom]
  rcases dto.row with _ | row <;> rfl

lemma exec_findOne_bind {α : Type} (f : Tax → Api α) :
    (findOne id >>= f).exec db = match db.taxes.find? id with
      | none => (.error (.notFound s!"Tax with ID \"{id}\" not found"), db)
      | some row => (f row).exec db := by
  rw [findOne, Delegate.exec_found_bind, tax]
  rcases db.taxes.find? id with _ | row <;> rfl

lemma step_update (dto : UpdateTaxDto) : step db (.update id dto) =
    match db.taxes.find? id with
    | none => db
    | some row =>
      match dto.apply row with
      | none => db
      | some row' => { db with taxes := db.taxes.put id row' } := by
  show ((update id dto).exec db).2 = _
  rw [update, exec_findOne_bind]
  rcases hrow : db.taxes.find? id with _ | row
  · rfl
  dsimp only
  rw [Delegate.exec_update_stored (d := tax) hrow]
  rcases dto.apply row with _ | row' <;> rfl

lemma step_remove : step db (.remove id) = match db.taxes.find? id with
    | none => db
    | some _ => { db with taxes := db.taxes.erase id } := by
  show ((remove id).exec db).2 = _
  rw [remove, exec_findOne_bind]
  rcases hrow : db.taxes.find? id with _ | row
  · rfl
  · dsimp only
    rw [Delegate.exec_deleteRow (d := tax) hrow]
    rfl

/-- A call changes the taxes and nothing else. -/
lemma step_frame (op : Op) : step db op = { db with taxes := (step db op).taxes } := by
  cases op with
  | create newId dto =>
    rw [step_create]
    split
    · rcases dto.row with _ | row <;> rfl
    · rfl
  | update id dto =>
    rw [step_update]
    rcases db.taxes.find? id with _ | row
    · rfl
    · dsimp only
      rcases dto.apply row with _ | row' <;> rfl
  | remove id => rw [step_remove]; rcases db.taxes.find? id with _ | row <;> rfl

lemma row_rate {dto : CreateTaxDto} (h : dto.row = some row) : row.rate = dto.rate := by
  unfold CreateTaxDto.row at h
  simp only [Option.bind_eq_bind, Option.bind_eq_some_iff] at h
  obtain ⟨isActive, -, h⟩ := h
  rw [← Option.some.inj h]

/-- An update keeps the rate, or sets the one its payload carries. -/
lemma apply_rate {dto : UpdateTaxDto} {row' : Tax} (h : dto.apply row = some row') :
    row'.rate = row.rate ∨ ∃ rate, dto.rate = .val rate ∧ row'.rate = rate := by
  unfold UpdateTaxDto.apply at h
  simp only [Option.bind_eq_bind, Option.bind_eq_some_iff] at h
  obtain ⟨name, -, category, -, rate, hrate, isActive, -, organizationId, -, h⟩ := h
  rw [← Option.some.inj h]
  rcases Property.intoRequired_eq_some_iff.mp hrate with ⟨-, hold⟩ | hnew
  · exact Or.inl hold
  · obtain ⟨r, hr, rfl⟩ := Property.map_eq_val_iff.mp hnew
    exact Or.inr ⟨r, hr, rfl⟩

end Calls

/-! ### The two ways -/

variable {db : Db} {arrange : List (Id × Tax) → List (Id × Tax)} {taxIds : List Id} {subtotal : ℚ}

/-- The distinct listed ids that exist. -/
def listed (db : Db) (taxIds : List Id) : List Id :=
  taxIds.dedup.filter fun k => (db.taxes.find? k).isSome

/-- The breakdown has one entry for each listed tax that exists and is active, with the amount that
`calculateTax` answers, and the total is the sum of these amounts and that of what `calculateTax`
answers for all listed taxes. -/
structure Agrees (db : Db) (taxIds : List Id) (subtotal : ℚ) (r : MultipleTaxes) : Prop where
  distinct : (r.breakdown.map TaxAmount.taxId).Nodup
  entries : ∀ k, k ∈ r.breakdown.map TaxAmount.taxId ↔
    k ∈ taxIds ∧ ∃ tax, db.taxes.find? k = some tax ∧ tax.isActive
  amounts : ∀ item ∈ r.breakdown, ((calculateTax item.taxId subtotal).exec db).1 = .ok item.amount
  total : r.total = (r.breakdown.map TaxAmount.amount).sum
  single : ∃ amounts, (listed db taxIds).mapM
    (fun k => ((calculateTax k subtotal).exec db).1) = .ok amounts ∧ r.total = amounts.sum

/-- What a tax comes to, which is nothing unless it is active. -/
def amountOf (subtotal : ℚ) (tax : Tax) : ℚ := if tax.isActive then subtotal * tax.rate / 100 else 0

lemma exec_calculateTax {k : Id} {row : Tax} (h : db.taxes.find? k = some row) :
    ((calculateTax k subtotal).exec db).1 = .ok (amountOf subtotal row) := by
  rw [calculateTax, findOne, Delegate.exec_found_bind, tax, h]
  unfold amountOf
  dsimp only
  rcases row.isActive <;> rfl

lemma exec_calculateMultipleTaxes :
    ((calculateMultipleTaxes arrange taxIds subtotal).exec db).1 = .ok {
      total := ((arrange (activeIn db taxIds)).map fun e => subtotal * e.2.rate / 100).sum
      breakdown := (arrange (activeIn db taxIds)).map fun e =>
        ⟨e.1, subtotal * e.2.rate / 100⟩ } := by
  rw [calculateMultipleTaxes, exec_look_bind]
  dsimp only
  rw [foldl_add_map TaxAmount.amount, List.map_map]
  rfl

lemma mem_keys_activeIn_iff {k : Id} : k ∈ (activeIn db taxIds).map Prod.fst ↔
    k ∈ taxIds ∧ ∃ row, db.taxes.find? k = some row ∧ row.isActive := by
  rw [List.mem_map]
  refine ⟨?_, ?_⟩
  · rintro ⟨e, he, rfl⟩
    obtain ⟨hrow, hmatch⟩ := List.mem_filter.mp he
    obtain ⟨hlisted, hactive⟩ := Bool.and_eq_true_iff.mp hmatch
    exact ⟨of_decide_eq_true hlisted, e.2, Table.mem_rows_iff.mp hrow, hactive⟩
  · rintro ⟨hlisted, row, hrow, hactive⟩
    have hmatch : (decide (k ∈ taxIds) && row.isActive) = true :=
      Bool.and_eq_true_iff.mpr ⟨decide_eq_true hlisted, hactive⟩
    exact ⟨(k, row), List.mem_filter.mpr ⟨Table.mem_rows_iff.mpr hrow, hmatch⟩, rfl⟩

/-- What the tax under an id comes to. -/
def amountAt (db : Db) (subtotal : ℚ) (k : Id) : ℚ :=
  ((db.taxes.find? k).map (amountOf subtotal)).getD 0

lemma mapM_calculateTax : (listed db taxIds).mapM
    (fun k => ((calculateTax k subtotal).exec db).1) =
      .ok ((listed db taxIds).map (amountAt db subtotal)) := by
  refine mapM_ok fun k hk => ?_
  obtain ⟨row, hrow⟩ := Option.isSome_iff_exists.mp (List.mem_filter.mp hk).2
  rw [exec_calculateTax hrow, amountAt, hrow]
  rfl

/-- Leaving the inactive taxes out of the query is adding nothing for them, and the rows found come
to what the listed ids come to. -/
lemma sum_activeIn : ((activeIn db taxIds).map fun e => subtotal * e.2.rate / 100).sum =
    ((listed db taxIds).map (amountAt db subtotal)).sum := by
  set found := db.taxes.rows.filter fun e => decide (e.1 ∈ taxIds) with hfound
  have hactive : activeIn db taxIds = found.filter fun e => e.2.isActive := by
    rw [hfound, List.filter_filter]
    exact List.filter_congr fun e _ => Bool.and_comm _ _
  have hamounts : found.map (fun e => amountOf subtotal e.2) =
      (found.map Prod.fst).map (amountAt db subtotal) := by
    rw [List.map_map]
    refine List.map_congr_left fun e he => ?_
    have hrow : db.taxes.find? e.1 = some e.2 := Table.mem_rows_iff.mp (List.mem_of_mem_filter he)
    rw [Function.comp_apply, amountAt, hrow]
    rfl
  calc ((activeIn db taxIds).map fun e => subtotal * e.2.rate / 100).sum
      = (found.map fun e => amountOf subtotal e.2).sum := by
        rw [hactive]
        exact sum_selected (fun e : Id × Tax => e.2.isActive) _ found
    _ = ((found.map Prod.fst).map (amountAt db subtotal)).sum := congrArg List.sum hamounts
    _ = ((listed db taxIds).map (amountAt db subtotal)).sum :=
        ((Table.keys_listed_perm taxIds).map _).sum_eq

/-- **Taxes.** Whatever order the database returns the rows in, the taxes computed together have
one amount for each listed tax that exists and is active, and come to what the listed taxes come
to one by one. -/
theorem taxes_agree (arrange : List (Id × Tax) → List (Id × Tax))
    (harrange : ∀ rows, (arrange rows).Perm rows) (db : Db) (taxIds : List Id) (subtotal : ℚ) :
    ∃ r, ((calculateMultipleTaxes arrange taxIds subtotal).exec db).1 = .ok r ∧
      Agrees db taxIds subtotal r := by
  -- the database may return the rows in any order
  have hperm : (arrange (activeIn db taxIds)).Perm (activeIn db taxIds) := harrange _
  have hids : (((arrange (activeIn db taxIds)).map fun e =>
      (⟨e.1, subtotal * e.2.rate / 100⟩ : TaxAmount)).map TaxAmount.taxId).Perm
        ((activeIn db taxIds).map Prod.fst) := by
    rw [List.map_map]
    exact hperm.map _
  have hsum : ((arrange (activeIn db taxIds)).map fun e => subtotal * e.2.rate / 100).sum =
      ((listed db taxIds).map (amountAt db subtotal)).sum := by
    rw [(hperm.map _).sum_eq, sum_activeIn]
  refine ⟨_, exec_calculateMultipleTaxes, hids.nodup_iff.mpr (Table.nodup_keys_filter _),
    fun k => hids.mem_iff.trans mem_keys_activeIn_iff, fun item hitem => ?_, ?_, _,
    mapM_calculateTax, hsum⟩
  · obtain ⟨e, he, rfl⟩ := List.mem_map.mp hitem
    obtain ⟨hrow, hmatch⟩ := List.mem_filter.mp (hperm.mem_iff.mp he)
    have hactive : e.2.isActive = true := (Bool.and_eq_true_iff.mp hmatch).2
    rw [exec_calculateTax (Table.mem_rows_iff.mp hrow), amountOf, if_pos hactive]
  · rw [List.map_map]
    rfl

/-- Two taxes, and one that is charged no more. -/
def taxTable : Db where
  taxes := (((∅ : Table Id Tax).put "iva"
    { name := "IVA", category := .iva, rate := 16, organizationId := "shop" }).put "ieps"
    { name := "IEPS", category := .ieps, rate := 8, organizationId := "shop" }).put "old"
    { name := "Old", category := .other, rate := 5, isActive := false, organizationId := "shop" }

/-- One tax is listed twice, one is not active, and one does not exist. -/
theorem taxTable_agrees : ∃ r, ((calculateMultipleTaxes List.reverse
    ["old", "ieps", "iva", "ieps", "none"] 100).exec taxTable).1 = .ok r ∧
      Agrees taxTable ["old", "ieps", "iva", "ieps", "none"] 100 r :=
  taxes_agree List.reverse List.reverse_perm taxTable _ 100

end CoffeeOs.Taxes

import CoffeeOs.Numerals
import CoffeeOs.Schema

/-!
The service of discounts.

A discount is granted by `calculateDiscount`, which looks at its row and writes nothing, and
counted by `incrementUsage`, which looks at nothing and writes. The checks of a payload are
made on the payload alone.
-/

namespace CoffeeOs.Discounts

open CoffeeOs.KeyedTable CoffeeOs.Payload CoffeeOs.Requests CoffeeOs.Requests.Request
open CoffeeOs.Numerals CoffeeOs.Schema

/-- A date is the instant its text names. -/
structure CreateDiscountDto where
  code : String
  name : String
  description : Property String := .undefined
  type : DiscountType
  value : AtLeast 0
  maxDiscountAmount : Property (AtLeast 0) := .undefined
  minPurchaseAmount : Property (AtLeast 0) := .undefined
  validFrom : Property Instant := .undefined
  validUntil : Property Instant := .undefined
  usageLimit : Property (AtLeast 1) := .undefined
  usageCount : Property (AtLeast 0) := .undefined
  isActive : Property Bool := .undefined
  organizationId : Id

structure UpdateDiscountDto where
  code : Property String := .undefined
  name : Property String := .undefined
  description : Property String := .undefined
  type : Property DiscountType := .undefined
  value : Property (AtLeast 0) := .undefined
  maxDiscountAmount : Property (AtLeast 0) := .undefined
  minPurchaseAmount : Property (AtLeast 0) := .undefined
  validFrom : Property Instant := .undefined
  validUntil : Property Instant := .undefined
  usageLimit : Property (AtLeast 1) := .undefined
  usageCount : Property (AtLeast 0) := .undefined
  isActive : Property Bool := .undefined
  organizationId : Property Id := .undefined

structure DiscountView where
  id : Id
  row : Discount

/-! ### The service -/

/-- `validFrom && validUntil && new Date(validFrom) > new Date(validUntil)`. -/
def DatesReversed : Property Instant → Property Instant → Prop
  | .val validFrom, .val validUntil => validUntil < validFrom
  | _, _ => False

instance (validFrom validUntil : Property Instant) :
    Decidable (DatesReversed validFrom validUntil) :=
  match validFrom, validUntil with
  | .val f, .val u => inferInstanceAs (Decidable (u < f))
  | .val _, .undefined | .val _, .null | .undefined, _ | .null, _ => isFalse id

/-- The new row of a payload. -/
def CreateDiscountDto.row (dto : CreateDiscountDto) : Option Discount := do
  let usageCount ← (dto.usageCount.map Subtype.val).intoRequired 0
  let isActive ← dto.isActive.intoRequired true
  return {
    code := dto.code, name := dto.name, type := dto.type, value := dto.value
    description := dto.description.toOption
    maxDiscountAmount := dto.maxDiscountAmount.toOption.map Subtype.val
    minPurchaseAmount := dto.minPurchaseAmount.toOption.map Subtype.val
    validFrom := dto.validFrom.toOption, validUntil := dto.validUntil.toOption
    usageLimit := dto.usageLimit.toOption.map Subtype.val
    usageCount, isActive, organizationId := dto.organizationId }

/-- The index on the codes is left out: while the call runs alone, its check has found the code
free. -/
def create (newId : Id) (dto : CreateDiscountDto) : Api DiscountView := do
  let existing ← discount.findFirst fun row => row.code = dto.code
  throwIf existing.isSome (.badRequest s!"Discount with code \"{dto.code}\" already exists")
  throwIf (dto.type = .percentage ∧ (dto.value.val < 0 ∨ dto.value.val > 100))
    (.badRequest "Percentage must be between 0 and 100")
  throwIf (dto.type = .fixedAmount ∧ dto.value.val ≤ 0)
    (.badRequest "Fixed amount must be positive")
  throwIf (DatesReversed dto.validFrom dto.validUntil)
    (.badRequest "validFrom must be before validUntil")
  discount.createFrom newId dto.row fun row _ => ⟨newId, row⟩

/-- The filter of `findActive`; no comparison with `null` holds. -/
def ActiveAt (now : Instant) (row : Discount) : Prop :=
  row.isActive ∧
    ((row.validFrom.any (fun validFrom => validFrom ≤ now) ∧
        row.validUntil.any (fun validUntil => validUntil ≥ now)) ∨
      (row.validFrom = none ∧ row.validUntil = none) ∨
      (row.validFrom.any (fun validFrom => validFrom ≤ now) ∧ row.validUntil = none) ∨
      (row.validFrom = none ∧ row.validUntil.any (fun validUntil => validUntil ≥ now)))

instance (now : Instant) (row : Discount) : Decidable (ActiveAt now row) :=
  inferInstanceAs (Decidable (_ ∧ _))

/-- The active discounts, those created last first; `now` is the clock reading of the call. -/
def findActive (now : Instant) : Api (List DiscountView) :=
  look fun db => ((db.discounts.rows.filter fun e => ActiveAt now e.2).map fun e =>
    DiscountView.mk e.1 e.2).reverse

def findOne (id : Id) : Api Discount := do
  let found ← discount.findUnique id
  orThrow (.notFound s!"Discount with ID \"{id}\" not found") found

def findByCode (code : String) : Api DiscountView := do
  let found ← discount.findUniqueBy Discount.code code fun id row _ => ⟨id, row⟩
  orThrow (.notFound s!"Discount with code \"{code}\" not found") found

/-- If updating code, check uniqueness. -/
def checkCode (id : Id) (code : Property String) : Api Unit :=
  checkSome (code.toOption.filter (· ≠ "")) fun code => do
    let existing ← discount.findFirst fun row => row.code = code
    throwIf (existing.any fun e => e.1 ≠ id)
      (.badRequest s!"Discount with code \"{code}\" already exists")

/-- The number a comparison takes a property for: `null` counts as 0. -/
def number : Property (AtLeast 0) → Option ℚ
  | .undefined => none
  | .null => some 0
  | .val value => some value

/-- The row after an update by the payload. -/
def UpdateDiscountDto.apply (dto : UpdateDiscountDto) (row : Discount) : Option Discount := do
  let code ← dto.code.intoRequired row.code
  let name ← dto.name.intoRequired row.name
  let type ← dto.type.intoRequired row.type
  let value ← (dto.value.map Subtype.val).intoRequired row.value
  let usageCount ← (dto.usageCount.map Subtype.val).intoRequired row.usageCount
  let isActive ← dto.isActive.intoRequired row.isActive
  let organizationId ← dto.organizationId.intoRequired row.organizationId
  return {
    code, name, type, value, usageCount, isActive, organizationId
    description := dto.description.intoNullable row.description
    maxDiscountAmount := (dto.maxDiscountAmount.map Subtype.val).intoNullable row.maxDiscountAmount
    minPurchaseAmount := (dto.minPurchaseAmount.map Subtype.val).intoNullable row.minPurchaseAmount
    validFrom := dto.validFrom.intoNullable row.validFrom
    validUntil := dto.validUntil.intoNullable row.validUntil
    usageLimit := (dto.usageLimit.map Subtype.val).intoNullable row.usageLimit }

def update (id : Id) (dto : UpdateDiscountDto) : Api DiscountView := do
  let _ ← findOne id
  checkCode id dto.code
  throwIf (dto.type = .val .percentage ∧ (number dto.value).any fun v => v < 0 ∨ v > 100)
    (.badRequest "Percentage must be between 0 and 100")
  throwIf (dto.type = .val .fixedAmount ∧ (number dto.value).any fun v => v ≤ 0)
    (.badRequest "Fixed amount must be positive")
  throwIf (DatesReversed dto.validFrom dto.validUntil)
    (.badRequest "validFrom must be before validUntil")
  discount.update id dto.apply fun row _ => ⟨id, row⟩

def activate (id : Id) : Api DiscountView := do
  let _ ← findOne id
  discount.update id (fun row => some { row with isActive := true }) fun row _ => ⟨id, row⟩

def deactivate (id : Id) : Api DiscountView := do
  let _ ← findOne id
  discount.update id (fun row => some { row with isActive := false }) fun row _ => ⟨id, row⟩

def remove (id : Id) : Api Discount := do
  let _ ← findOne id
  discount.deleteRow id fun db => db

/-- Apply max discount amount, and don't allow the discount to exceed the subtotal; an amount of
0 is falsy. -/
def capped (maxDiscountAmount : Option ℚ) (subtotal discountAmount : ℚ) : ℚ :=
  let discountAmount :=
    match maxDiscountAmount with
    | some cap => if cap ≠ 0 ∧ discountAmount > cap then cap else discountAmount
    | none => discountAmount
  if discountAmount > subtotal then subtotal else discountAmount

/-- What the discount is worth before it is capped. -/
def rawAmount (discount : Discount) (subtotal : ℚ) : ℚ :=
  match discount.type with
  | .percentage => subtotal * discount.value / 100
  | .fixedAmount => discount.value
  | .buyXGetY => 0

/-- The tests and the amount, once the row is read; limits of 0 are falsy. -/
def grant (discount : Discount) (subtotal : ℚ) (now : Instant) : Api ℚ := do
  throwIf (¬ discount.isActive) (.badRequest "Discount is not active")
  throwIf (discount.validFrom.any fun validFrom => validFrom > now)
    (.badRequest "Discount is not yet valid")
  throwIf (discount.validUntil.any fun validUntil => validUntil < now)
    (.badRequest "Discount has expired")
  throwIf (discount.minPurchaseAmount.any fun least => least ≠ 0 ∧ subtotal < least)
    (.badRequest
      s!"Minimum purchase amount of {numberText (discount.minPurchaseAmount.getD 0)} not met")
  throwIf (discount.usageLimit.any fun limit => limit ≠ 0 ∧ discount.usageCount ≥ limit)
    (.badRequest "Discount usage limit reached")
  pure (capped discount.maxDiscountAmount subtotal (rawAmount discount subtotal))

/-- `now` is the clock reading of the call. -/
def calculateDiscount (discountId : Id) (subtotal : ℚ) (now : Instant) : Api ℚ := do
  let discount ← findOne discountId
  grant discount subtotal now

def incrementUsage (discountId : Id) : Api DiscountView :=
  discount.update discountId (fun row => some { row with usageCount := row.usageCount + 1 })
    fun row _ => ⟨discountId, row⟩

/-- A call of the service that writes; the id of a new row comes with it. -/
inductive Op
  | create (newId : Id) (dto : CreateDiscountDto)
  | update (id : Id) (dto : UpdateDiscountDto)
  | activate (id : Id)
  | deactivate (id : Id)
  | incrementUsage (id : Id)
  | remove (id : Id)

/-- The tables after a call that runs alone. -/
def step (db : Db) : Op → Db
  | .create newId dto => ((create newId dto).exec db).2
  | .update id dto => ((update id dto).exec db).2
  | .activate id => ((activate id).exec db).2
  | .deactivate id => ((deactivate id).exec db).2
  | .incrementUsage id => ((incrementUsage id).exec db).2
  | .remove id => ((remove id).exec db).2

variable {db : Db} {id : Id} {d : Discount}

/-! ### The amount -/

lemma exec_findOne_bind {α : Type} (f : Discount → Api α) :
    (findOne id >>= f).exec db = match db.discounts.find? id with
      | none => (.error (.notFound s!"Discount with ID \"{id}\" not found"), db)
      | some row => (f row).exec db := by
  rw [findOne, Delegate.exec_found_bind, discount]
  rcases db.discounts.find? id with _ | row <;> rfl

/-- The tests, one after another, and the amount. -/
lemma exec_grant (d : Discount) (subtotal : ℚ) (now : Instant) :
    ((grant d subtotal now).exec db).1 =
      if ¬ d.isActive then .error (.badRequest "Discount is not active")
      else if d.validFrom.any fun validFrom => validFrom > now then
        .error (.badRequest "Discount is not yet valid")
      else if d.validUntil.any fun validUntil => validUntil < now then
        .error (.badRequest "Discount has expired")
      else if d.minPurchaseAmount.any fun least => least ≠ 0 ∧ subtotal < least then
        .error (.badRequest
          s!"Minimum purchase amount of {numberText (d.minPurchaseAmount.getD 0)} not met")
      else if d.usageLimit.any fun limit => limit ≠ 0 ∧ d.usageCount ≥ limit then
        .error (.badRequest "Discount usage limit reached")
      else .ok (capped d.maxDiscountAmount subtotal (rawAmount d subtotal)) := by
  simp only [grant, exec_throwIf_bind, apply_ite Prod.fst]
  rfl

lemma exec_calculateDiscount (h : db.discounts.find? id = some d) (subtotal : ℚ) (now : Instant) :
    (calculateDiscount id subtotal now).exec db = (grant d subtotal now).exec db := by
  rw [calculateDiscount, exec_findOne_bind, h]

/-- An amount that is granted is the one of the stored row. -/
lemma amount_of_granted {subtotal a : ℚ} {now : Instant}
    (h : ((calculateDiscount id subtotal now).exec db).1 = .ok a) :
    ∃ d, db.discounts.find? id = some d ∧
      a = capped d.maxDiscountAmount subtotal (rawAmount d subtotal) := by
  rcases hd : db.discounts.find? id with _ | d
  · rw [calculateDiscount, exec_findOne_bind, hd] at h
    cases h
  rw [exec_calculateDiscount hd, exec_grant] at h
  refine ⟨d, rfl, ?_⟩
  split_ifs at h
  exact (Except.ok.inj h).symm

/-! ### The tables after each call -/

/-- The payload passes the checks of `create`. -/
def CreateChecked (db : Db) (dto : CreateDiscountDto) : Prop :=
  ¬ (db.discounts.Any fun _ row => row.code = dto.code) ∧
  ¬ (dto.type = .percentage ∧ (dto.value.val < 0 ∨ dto.value.val > 100)) ∧
  ¬ (dto.type = .fixedAmount ∧ dto.value.val ≤ 0) ∧
  ¬ DatesReversed dto.validFrom dto.validUntil

instance (db : Db) (dto : CreateDiscountDto) : Decidable (CreateChecked db dto) :=
  inferInstanceAs (Decidable (_ ∧ _))

/-- No other discount has the code of a payload of `update`, if it has one. -/
def CodeFree (db : Db) (id : Id) (code : Property String) : Prop :=
  ∀ c ∈ code.toOption.filter (· ≠ ""),
    ¬ (db.discounts.rows.find? fun e => e.2.code = c).any fun e => e.1 ≠ id

instance (db : Db) (id : Id) (code : Property String) : Decidable (CodeFree db id code) :=
  inferInstanceAs (Decidable (∀ c ∈ _, _))

/-- The payload passes the checks of `update`. -/
def UpdateChecked (db : Db) (id : Id) (dto : UpdateDiscountDto) : Prop :=
  CodeFree db id dto.code ∧
  ¬ (dto.type = .val .percentage ∧ (number dto.value).any fun v => v < 0 ∨ v > 100) ∧
  ¬ (dto.type = .val .fixedAmount ∧ (number dto.value).any fun v => v ≤ 0) ∧
  ¬ DatesReversed dto.validFrom dto.validUntil

instance (db : Db) (id : Id) (dto : UpdateDiscountDto) : Decidable (UpdateChecked db id dto) :=
  inferInstanceAs (Decidable (_ ∧ _))

lemma step_create (newId : Id) (dto : CreateDiscountDto) :
    step db (.create newId dto) =
      if CreateChecked db dto ∧ db.discounts.find? newId = none then
        match dto.row with
        | none => db
        | some row => { db with discounts := db.discounts.put newId row }
      else db := by
  show ((create newId dto).exec db).2 = _
  rw [create, Delegate.store_findFirst_throwIf, checks_throwIf.store, checks_throwIf.store,
    checks_throwIf.store, Delegate.store_createFrom, ← ite_and, ← ite_and, ← ite_and, ← ite_and]
  refine if_congr ?_ ?_ rfl
  · simp only [CreateChecked, and_assoc]
    rfl
  · rcases dto.row with _ | row <;> rfl

lemma checks_checkCode (db : Db) (id : Id) (code : Property String) :
    (checkCode id code).Checks db (CodeFree db id code) :=
  checks_checkSome fun _ _ =>
    checks_look_throwIf _ fun existing : Option (Id × Discount) =>
      (existing.any fun e => decide (e.1 ≠ id)) = true

lemma step_update (dto : UpdateDiscountDto) :
    step db (.update id dto) = match db.discounts.find? id with
      | none => db
      | some row =>
        if UpdateChecked db id dto then
          match dto.apply row with
          | none => db
          | some row' => { db with discounts := db.discounts.put id row' }
        else db := by
  show ((update id dto).exec db).2 = _
  rw [update, exec_findOne_bind]
  rcases hrow : db.discounts.find? id with _ | row
  · rfl
  dsimp only
  rw [(checks_checkCode db id dto.code).store, checks_throwIf.store, checks_throwIf.store,
    checks_throwIf.store, Delegate.exec_update_stored (d := discount) hrow, ← ite_and, ← ite_and,
    ← ite_and]
  refine if_congr ?_ ?_ rfl
  · simp only [UpdateChecked, and_assoc]
  · rcases dto.apply row with _ | row' <;> rfl

/-- The calls that rewrite a stored row without looking at a payload. -/
lemma exec_rewrite (f : Discount → Discount) :
    ((discount.update id (fun row => some (f row)) fun row _ => DiscountView.mk id row).exec db).2 =
      match db.discounts.find? id with
      | none => db
      | some row => { db with discounts := db.discounts.put id (f row) } := by
  rcases hrow : db.discounts.find? id with _ | row
  · rw [Delegate.update, exec_atomically, discount, hrow]
  · rw [Delegate.exec_update_some (d := discount) hrow]
    rfl

lemma exec_found_rewrite (f : Discount → Discount) :
    ((findOne id >>= fun _ => discount.update id (fun row => some (f row)) fun row _ =>
      DiscountView.mk id row).exec db).2 =
      match db.discounts.find? id with
      | none => db
      | some row => { db with discounts := db.discounts.put id (f row) } := by
  rw [exec_findOne_bind]
  rcases hrow : db.discounts.find? id with _ | row
  · rfl
  · dsimp only
    rw [exec_rewrite, hrow]

lemma step_activate : step db (.activate id) = match db.discounts.find? id with
    | none => db
    | some row => { db with discounts := db.discounts.put id { row with isActive := true } } :=
  exec_found_rewrite fun row => { row with isActive := true }

lemma step_deactivate : step db (.deactivate id) = match db.discounts.find? id with
    | none => db
    | some row => { db with discounts := db.discounts.put id { row with isActive := false } } :=
  exec_found_rewrite fun row => { row with isActive := false }

lemma step_incrementUsage : step db (.incrementUsage id) = match db.discounts.find? id with
    | none => db
    | some row => { db with
        discounts := db.discounts.put id { row with usageCount := row.usageCount + 1 } } :=
  exec_rewrite fun row => { row with usageCount := row.usageCount + 1 }

lemma step_remove : step db (.remove id) = match db.discounts.find? id with
    | none => db
    | some _ => { db with discounts := db.discounts.erase id } := by
  show ((remove id).exec db).2 = _
  rw [remove, exec_findOne_bind]
  rcases hrow : db.discounts.find? id with _ | row
  · rfl
  · dsimp only
    rw [Delegate.exec_deleteRow (d := discount) hrow]
    rfl

/-! ### The rows after a call -/

/-- Where a row that is stored after a call comes from. -/
inductive RowStep (db : Db) (id : Id) : Op → Discount → Prop
  | kept {op : Op} {d : Discount} (stored : db.discounts.find? id = some d) : RowStep db id op d
  | created {dto : CreateDiscountDto} {d : Discount} (checked : CreateChecked db dto)
      (row : dto.row = some d) : RowStep db id (.create id dto) d
  | updated {dto : UpdateDiscountDto} {d d' : Discount} (stored : db.discounts.find? id = some d)
      (checked : UpdateChecked db id dto) (applied : dto.apply d = some d') :
      RowStep db id (.update id dto) d'
  | activated {d : Discount} (stored : db.discounts.find? id = some d) :
      RowStep db id (.activate id) { d with isActive := true }
  | deactivated {d : Discount} (stored : db.discounts.find? id = some d) :
      RowStep db id (.deactivate id) { d with isActive := false }
  | counted {d : Discount} (stored : db.discounts.find? id = some d) :
      RowStep db id (.incrementUsage id) { d with usageCount := d.usageCount + 1 }

/-- **One call.** A row that is stored after a call was there, or is what the call makes of one. -/
theorem step_row {op : Op} (h : (step db op).discounts.find? id = some d) :
    RowStep db id op d := by
  cases op with
  | create newId dto =>
    rw [step_create] at h
    split at h
    swap
    · exact .kept h
    rename_i hc
    rcases hrow : dto.row with _ | row <;> rw [hrow] at h
    · exact .kept h
    · rcases Table.of_find?_put h with ⟨rfl, rfl⟩ | ⟨-, h⟩
      · exact .created hc.1 hrow
      · exact .kept h
  | update k dto =>
    rw [step_update] at h
    rcases hold : db.discounts.find? k with _ | old <;> rw [hold] at h
    · exact .kept h
    dsimp only at h
    split at h
    swap
    · exact .kept h
    rename_i hc
    rcases ha : dto.apply old with _ | row <;> rw [ha] at h
    · exact .kept h
    · rcases Table.of_find?_put h with ⟨rfl, rfl⟩ | ⟨-, h⟩
      · exact .updated hold hc ha
      · exact .kept h
  | activate k =>
    rw [step_activate] at h
    rcases hold : db.discounts.find? k with _ | old <;> rw [hold] at h
    · exact .kept h
    · rcases Table.of_find?_put h with ⟨rfl, rfl⟩ | ⟨-, h⟩
      · exact .activated hold
      · exact .kept h
  | deactivate k =>
    rw [step_deactivate] at h
    rcases hold : db.discounts.find? k with _ | old <;> rw [hold] at h
    · exact .kept h
    · rcases Table.of_find?_put h with ⟨rfl, rfl⟩ | ⟨-, h⟩
      · exact .deactivated hold
      · exact .kept h
  | incrementUsage k =>
    rw [step_incrementUsage] at h
    rcases hold : db.discounts.find? k with _ | old <;> rw [hold] at h
    · exact .kept h
    · rcases Table.of_find?_put h with ⟨rfl, rfl⟩ | ⟨-, h⟩
      · exact .counted hold
      · exact .kept h
  | remove k =>
    rw [step_remove] at h
    rcases hold : db.discounts.find? k with _ | old <;> rw [hold] at h
    · exact .kept h
    · -- what is still there after a deletion was there before
      exact .kept (Table.of_find?_erase h).2

/-! ### The code of a row -/

lemma row_code {dto : CreateDiscountDto} (h : dto.row = some d) : d.code = dto.code := by
  unfold CreateDiscountDto.row at h
  simp only [Option.bind_eq_bind, Option.bind_eq_some_iff] at h
  obtain ⟨usageCount, -, isActive, -, h⟩ := h
  rw [← Option.some.inj h]

/-- An update keeps the code, or sets the one its payload carries. -/
lemma apply_code {dto : UpdateDiscountDto} {d' : Discount} (h : dto.apply d = some d') :
    d'.code = d.code ∨ dto.code = .val d'.code := by
  unfold UpdateDiscountDto.apply at h
  simp only [Option.bind_eq_bind, Option.bind_eq_some_iff] at h
  obtain ⟨code, hcode, name, -, type, -, value, -, usageCount, -, isActive, -, organizationId, -,
    h⟩ := h
  rw [← Option.some.inj h]
  exact (Property.intoRequired_eq_some_iff.mp hcode).imp_left And.right

/-- A call changes the discounts and nothing else. -/
lemma step_frame (op : Op) : step db op = { db with discounts := (step db op).discounts } := by
  cases op with
  | create newId dto =>
    rw [step_create]
    split
    · rcases dto.row with _ | row <;> rfl
    · rfl
  | update id dto =>
    rw [step_update]
    rcases db.discounts.find? id with _ | row
    · rfl
    dsimp only
    split
    · rcases dto.apply row with _ | row' <;> rfl
    · rfl
  | activate id => rw [step_activate]; rcases db.discounts.find? id with _ | row <;> rfl
  | deactivate id => rw [step_deactivate]; rcases db.discounts.find? id with _ | row <;> rfl
  | incrementUsage id =>
    rw [step_incrementUsage]
    rcases db.discounts.find? id with _ | row <;> rfl
  | remove id => rw [step_remove]; rcases db.discounts.find? id with _ | row <;> rfl

end CoffeeOs.Discounts

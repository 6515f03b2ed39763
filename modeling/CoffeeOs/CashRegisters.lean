import CoffeeOs.Schema

/-!
The service of cash registers.

The cash of a register is counted denomination by denomination, in a row for each, and its
expenses are rows as well. The figures of the register are computed from the rows when these are
stored: the counted cash from the rows of the same call, the expenses from all there are. A summary
adds the rows up anew.
-/

namespace CoffeeOs.CashRegisters

open CoffeeOs.KeyedTable CoffeeOs.Payload CoffeeOs.Requests CoffeeOs.Requests.Request
open CoffeeOs.Schema

structure CreateCashRegisterDto where
  shiftId : Id
  expectedCash : AtLeast 0
  countedCash : Property (AtLeast 0) := .undefined
  totalExpenses : Property (AtLeast 0) := .undefined
  notes : Property String := .undefined
  locationId : Id
  organizationId : Id

structure UpdateCashRegisterDto where
  shiftId : Property Id := .undefined
  expectedCash : Property (AtLeast 0) := .undefined
  countedCash : Property (AtLeast 0) := .undefined
  totalExpenses : Property (AtLeast 0) := .undefined
  notes : Property String := .undefined
  locationId : Property Id := .undefined
  organizationId : Property Id := .undefined

/-- The count of each bill and coin. -/
structure RecordDenominationDto where
  count1000 : AtLeast 0
  count500 : AtLeast 0
  count200 : AtLeast 0
  count100 : AtLeast 0
  count50 : AtLeast 0
  count20 : AtLeast 0
  count10 : AtLeast 0
  count5 : AtLeast 0
  count2 : AtLeast 0
  count1 : AtLeast 0
  count05 : AtLeast 0

/-- `Object.entries`: the integers in ascending order, then the other key. -/
def RecordDenominationDto.entries (dto : RecordDenominationDto) : List (ℚ × ℚ) :=
  [(1, dto.count1), (2, dto.count2), (5, dto.count5), (10, dto.count10), (20, dto.count20),
    (50, dto.count50), (100, dto.count100), (200, dto.count200), (500, dto.count500),
    (1000, dto.count1000), (1 / 2, dto.count05)]

structure RecordExpenseDto where
  amount : AtLeast 0
  description : String
  category : Property String := .undefined
  recipient : Property String := .undefined

/-! ### What the client includes with a register -/

structure CashRegisterView where
  id : Id
  row : CashRegister
  denominations : List CashDenomination
  expenses : List CashExpense

def denominationsOf (db : Db) (id : Id) : List CashDenomination :=
  db.cashDenominations.filter fun d => d.cashRegisterId = id

def expensesOf (db : Db) (id : Id) : List CashExpense :=
  db.cashExpenses.filter fun e => e.cashRegisterId = id

def viewOf (id : Id) (row : CashRegister) (db : Db) : CashRegisterView where
  id := id
  row := row
  denominations := denominationsOf db id
  expenses := expensesOf db id

/-! ### The service -/

/-- The new row of a payload. -/
def CreateCashRegisterDto.row (dto : CreateCashRegisterDto) : CashRegister where
  shiftId := dto.shiftId
  expectedCash := dto.expectedCash
  countedCash := dto.countedCash.toOption.map Subtype.val
  totalExpenses := dto.totalExpenses.toOption.map Subtype.val
  notes := dto.notes.toOption
  locationId := dto.locationId
  organizationId := dto.organizationId

def create (newId : Id) (dto : CreateCashRegisterDto) : Api CashRegister :=
  cashRegister.create newId dto.row fun _ => dto.row

def findOne (id : Id) : Api CashRegisterView := do
  let found ← look fun db => (db.cashRegisters.find? id).map fun row => viewOf id row db
  orThrow (.notFound s!"Cash register with ID \"{id}\" not found") found

/-- The row after an update by the payload. -/
def UpdateCashRegisterDto.apply (dto : UpdateCashRegisterDto) (row : CashRegister) :
    Option CashRegister := do
  let shiftId ← dto.shiftId.intoRequired row.shiftId
  let expectedCash ← (dto.expectedCash.map Subtype.val).intoRequired row.expectedCash
  let locationId ← dto.locationId.intoRequired row.locationId
  let organizationId ← dto.organizationId.intoRequired row.organizationId
  return {
    shiftId, expectedCash, locationId, organizationId
    countedCash := (dto.countedCash.map Subtype.val).intoNullable row.countedCash
    totalExpenses := (dto.totalExpenses.map Subtype.val).intoNullable row.totalExpenses
    notes := dto.notes.intoNullable row.notes }

def update (id : Id) (dto : UpdateCashRegisterDto) : Api CashRegisterView := do
  let _ ← findOne id
  cashRegister.update id dto.apply (viewOf id)

/-- The row of an entry. -/
def denominationRow (id : Id) (entry : ℚ × ℚ) : CashDenomination where
  cashRegisterId := id
  denomination := entry.1
  count := entry.2
  total := entry.1 * entry.2

def createDenomination (row : CashDenomination) : Api CashDenomination :=
  atomically fun db => .ok (row, { db with cashDenominations := db.cashDenominations ++ [row] })

def writeCounted (id : Id) (total : ℚ) : Api CashRegister :=
  cashRegister.update id (fun row => some { row with countedCash := some total }) fun row _ => row

/-- The body of `recordDenominations` for a record with any denominations for keys, in the order in
which `Object.entries` lists them; the calls are made through `via`. -/
def recordEntriesVia {σ : Type} (via : {α : Type} → Api α → Request σ Error α) (id : Id)
    (entries : List (ℚ × ℚ)) : Request σ Error CashRegisterView := do
  let _ ← via (findOne id)
  let denominations ← all (entries.map fun entry =>
    if entry.2 = 0 then pure none
    else some <$> via (createDenomination (denominationRow id entry)))
  let total := (denominations.filterMap fun d => d).foldl (fun sum d => sum + d.total) 0
  let _ ← via (writeCounted id total)
  via (findOne id)

def recordEntries (id : Id) (entries : List (ℚ × ℚ)) : Api CashRegisterView :=
  recordEntriesVia (fun p => p) id entries

/-- `recordDenominations`, whose calls are made through `via`. -/
def recordDenominationsVia {σ : Type} (via : {α : Type} → Api α → Request σ Error α) (id : Id)
    (dto : RecordDenominationDto) : Request σ Error CashRegisterView :=
  recordEntriesVia via id dto.entries

def recordDenominations (id : Id) (dto : RecordDenominationDto) : Api CashRegisterView :=
  recordDenominationsVia (fun p => p) id dto

/-- The new row of a payload. -/
def RecordExpenseDto.row (dto : RecordExpenseDto) (id : Id) : CashExpense where
  cashRegisterId := id
  amount := dto.amount
  description := dto.description
  category := dto.category.toOption
  recipient := dto.recipient.toOption

def createExpense (row : CashExpense) : Api CashExpense :=
  atomically fun db => .ok (row, { db with cashExpenses := db.cashExpenses ++ [row] })

def writeExpenses (id : Id) (totalExpenses : ℚ) : Api CashRegister :=
  cashRegister.update id (fun row => some { row with totalExpenses := some totalExpenses })
    fun row _ => row

def recordExpense (id : Id) (dto : RecordExpenseDto) : Api CashRegisterView := do
  let _ ← findOne id
  let _ ← createExpense (dto.row id)
  let expenses ← look fun db => expensesOf db id
  let totalExpenses := expenses.foldl (fun sum exp => sum + exp.amount) 0
  let _ ← writeExpenses id totalExpenses
  findOne id

structure Summary where
  id : Id
  shiftId : Id
  expectedCash : ℚ
  countedCash : ℚ
  variance : ℚ
  totalExpenses : ℚ
  netCash : ℚ
  denominations : List CashDenomination
  expenses : List CashExpense
  notes : Option String

/-- The figures of a register and its rows. A counted cash of 0 is falsy, as a missing one is, and
the rows of all counts stand in for it. -/
def summaryOf (register : CashRegisterView) : Summary :=
  let denominationsTotal := register.denominations.foldl (fun sum d => sum + d.total) 0
  let expensesTotal := register.expenses.foldl (fun sum e => sum + e.amount) 0
  let expectedCash := register.row.expectedCash
  let countedCash := (register.row.countedCash.filter (· ≠ 0)).getD denominationsTotal
  { id := register.id, shiftId := register.row.shiftId, expectedCash, countedCash
    variance := countedCash - expectedCash
    totalExpenses := expensesTotal
    netCash := countedCash - expensesTotal
    denominations := register.denominations
    expenses := register.expenses
    notes := register.row.notes }

def getSummary (id : Id) : Api Summary := do
  let register ← findOne id
  return summaryOf register

def deleteDenominations (id : Id) : Api Unit :=
  atomically fun db => .ok ((), { db with
    cashDenominations := db.cashDenominations.filter fun d => d.cashRegisterId ≠ id })

def deleteExpenses (id : Id) : Api Unit :=
  atomically fun db => .ok ((), { db with
    cashExpenses := db.cashExpenses.filter fun e => e.cashRegisterId ≠ id })

def remove (id : Id) : Api Unit := do
  let _ ← findOne id
  deleteDenominations id
  deleteExpenses id
  cashRegister.delete id

/-- The sum over the entries of a record, in the order in which `Object.entries` lists them. -/
def calculateDenominations (entries : List (ℚ × ℚ)) : ℚ :=
  entries.foldl (fun total entry => total + entry.1 * entry.2) 0

/-- A call of the service; the id of a new row comes with it. -/
inductive Op
  | create (newId : Id) (dto : CreateCashRegisterDto)
  | update (id : Id) (dto : UpdateCashRegisterDto)
  | recordDenominations (id : Id) (dto : RecordDenominationDto)
  | recordExpense (id : Id) (dto : RecordExpenseDto)
  | remove (id : Id)

/-- The tables after a call that runs alone. -/
def step (db : Db) : Op → Db
  | .create newId dto => ((create newId dto).exec db).2
  | .update id dto => ((update id dto).exec db).2
  | .recordDenominations id dto => ((recordDenominations id dto).exec db).2
  | .recordExpense id dto => ((recordExpense id dto).exec db).2
  | .remove id => ((remove id).exec db).2

/-! ### The tables after a count, and after an expense -/

/-- The rows that `recordDenominations` creates. -/
def denominationRows (id : Id) (entries : List (ℚ × ℚ)) : List CashDenomination :=
  (entries.filter fun entry => entry.2 ≠ 0).map (denominationRow id)

def withDenominations (rows : List CashDenomination) (db : Db) : Db :=
  { db with cashDenominations := db.cashDenominations ++ rows }

def withCounted (id : Id) (row : CashRegister) (total : ℚ) (db : Db) : Db :=
  { db with cashRegisters := db.cashRegisters.put id { row with countedCash := some total } }

def withExpense (row : CashExpense) (db : Db) : Db :=
  { db with cashExpenses := db.cashExpenses ++ [row] }

def withTotal (id : Id) (row : CashRegister) (total : ℚ) (db : Db) : Db :=
  { db with cashRegisters := db.cashRegisters.put id { row with totalExpenses := some total } }

variable {db : Db} {id : Id} {row : CashRegister} {entries : List (ℚ × ℚ)}

lemma denominationRows_cons_zero {entry : ℚ × ℚ} (h : entry.2 = 0) :
    denominationRows id (entry :: entries) = denominationRows id entries := by
  rw [denominationRows, List.filter_cons_of_neg (by simpa using h)]
  rfl

lemma denominationRows_cons {entry : ℚ × ℚ} (h : entry.2 ≠ 0) :
    denominationRows id (entry :: entries) =
      denominationRow id entry :: denominationRows id entries := by
  rw [denominationRows, List.filter_cons_of_pos (by simpa using h)]
  rfl

lemma cashRegisterId_denominationRows :
    ∀ d ∈ denominationRows id entries, d.cashRegisterId = id := by
  intro d hd
  obtain ⟨entry, -, rfl⟩ := List.mem_map.mp hd
  rfl

lemma withDenominations_append (rows rows' : List CashDenomination) :
    withDenominations rows' (withDenominations rows db) = withDenominations (rows ++ rows') db := by
  unfold withDenominations
  dsimp only
  rw [List.append_assoc]

lemma withDenominations_nil : withDenominations [] db = db := by
  unfold withDenominations
  rw [List.append_nil]

/-! ### The calls on a stored register -/

lemma exec_findOne : (findOne id).exec db = match db.cashRegisters.find? id with
    | none => (.error (.notFound s!"Cash register with ID \"{id}\" not found"), db)
    | some row => (.ok (viewOf id row db), db) := by
  rw [findOne, exec_look_bind]
  rcases db.cashRegisters.find? id with _ | row <;> rfl

lemma exec_findOne_some (h : db.cashRegisters.find? id = some row) :
    (findOne id).exec db = (.ok (viewOf id row db), db) := by
  rw [exec_findOne, h]

lemma exec_findOne_snd : ((findOne id).exec db).2 = db := by
  rw [exec_findOne]
  split <;> rfl

lemma exec_writeCounted (total : ℚ) (h : db.cashRegisters.find? id = some row) :
    (writeCounted id total).exec db =
      (.ok { row with countedCash := some total }, withCounted id row total db) :=
  Delegate.exec_update_some (d := cashRegister) h _ _

lemma exec_writeExpenses (total : ℚ) (h : db.cashRegisters.find? id = some row) :
    (writeExpenses id total).exec db =
      (.ok { row with totalExpenses := some total }, withTotal id row total db) :=
  Delegate.exec_update_some (d := cashRegister) h _ _

/-- A count creates a row for each entry that is not zero. -/
lemma exec_creates (id : Id) (entries : List (ℚ × ℚ)) (db : Db) : ∃ created,
    (all (entries.map fun entry => if entry.2 = 0 then pure none
      else some <$> createDenomination (denominationRow id entry)) : Api _).exec db =
      (.ok created, withDenominations (denominationRows id entries) db) ∧
    (created.filterMap fun d => d) = denominationRows id entries := by
  induction entries generalizing db with
  | nil => exact ⟨[], congrArg (Prod.mk _) withDenominations_nil.symm, rfl⟩
  | cons entry entries ih =>
    by_cases hzero : entry.2 = 0
    · obtain ⟨created, hexec, hcreated⟩ := ih db
      refine ⟨none :: created, ?_, ?_⟩
      · rw [List.map_cons, if_pos hzero, exec_all_cons, exec_pure, hexec,
          denominationRows_cons_zero hzero]
        rfl
      · rw [denominationRows_cons_zero hzero]
        exact hcreated
    · obtain ⟨created, hexec, hcreated⟩ :=
        ih (withDenominations [denominationRow id entry] db)
      have hcreate : (some <$> createDenomination (denominationRow id entry)).exec db =
          (.ok (some (denominationRow id entry)),
            withDenominations [denominationRow id entry] db) := rfl
      refine ⟨some (denominationRow id entry) :: created, ?_, ?_⟩
      · rw [List.map_cons, if_neg hzero, exec_all_cons, hcreate, hexec,
          withDenominations_append, denominationRows_cons hzero]
        rfl
      · rw [denominationRows_cons hzero]
        exact congrArg (denominationRow id entry :: ·) hcreated

/-- A count of a stored register creates its rows, writes their sum, and answers with both. -/
lemma exec_recordEntries (h : db.cashRegisters.find? id = some row) (entries : List (ℚ × ℚ)) :
    let total := ((denominationRows id entries).map CashDenomination.total).sum
    let db' := withCounted id row total (withDenominations (denominationRows id entries) db)
    (recordEntries id entries).exec db =
      (.ok (viewOf id { row with countedCash := some total } db'), db') := by
  have hshape : recordEntries id entries = findOne id >>= fun _ =>
      all (entries.map fun entry => if entry.2 = 0 then pure none
        else some <$> createDenomination (denominationRow id entry)) >>= fun created =>
      writeCounted id ((created.filterMap fun d => d).foldl (fun sum d => sum + d.total) 0) >>=
        fun _ => findOne id := rfl
  obtain ⟨created, hexec, hcreated⟩ := exec_creates id entries db
  have hrow : (withDenominations (denominationRows id entries) db).cashRegisters.find? id =
      some row := h
  rw [hshape, exec_bind, exec_findOne_some h]
  dsimp only
  rw [exec_bind, hexec]
  dsimp only
  rw [hcreated, foldl_add_map CashDenomination.total, exec_bind, exec_writeCounted _ hrow]
  exact exec_findOne_some Table.find?_put_self

lemma exec_recordDenominations (h : db.cashRegisters.find? id = some row)
    (dto : RecordDenominationDto) :
    ((recordDenominations id dto).exec db).2 =
      withCounted id row ((denominationRows id dto.entries).map CashDenomination.total).sum
        (withDenominations (denominationRows id dto.entries) db) :=
  congrArg Prod.snd (exec_recordEntries h dto.entries)

/-! ### The tables after each call -/

lemma exec_findOne_bind {α : Type} (f : CashRegisterView → Api α) :
    (findOne id >>= f).exec db = match db.cashRegisters.find? id with
      | none => (.error (.notFound s!"Cash register with ID \"{id}\" not found"), db)
      | some row => (f (viewOf id row db)).exec db := by
  rw [exec_bind, exec_findOne]
  rcases db.cashRegisters.find? id with _ | row <;> rfl

lemma step_create (newId : Id) (dto : CreateCashRegisterDto) : step db (.create newId dto) =
    if db.cashRegisters.find? newId = none then
      { db with cashRegisters := db.cashRegisters.put newId dto.row }
    else db := by
  show ((create newId dto).exec db).2 = _
  rcases h : db.cashRegisters.find? newId with _ | row
  · rw [create, Delegate.exec_create_new h, if_pos rfl]
    rfl
  · rw [create, Delegate.exec_create_stored h, if_neg (by simp)]

lemma step_update (dto : UpdateCashRegisterDto) : step db (.update id dto) =
    match db.cashRegisters.find? id with
    | none => db
    | some row =>
      match dto.apply row with
      | none => db
      | some row' => { db with cashRegisters := db.cashRegisters.put id row' } := by
  show ((update id dto).exec db).2 = _
  rw [update, exec_findOne_bind]
  rcases h : db.cashRegisters.find? id with _ | row
  · rfl
  dsimp only
  rw [Delegate.exec_update_stored (d := cashRegister) h (viewOf id)]
  rcases dto.apply row with _ | row' <;> rfl

lemma step_recordDenominations (dto : RecordDenominationDto) :
    step db (.recordDenominations id dto) = match db.cashRegisters.find? id with
      | none => db
      | some row =>
        withCounted id row ((denominationRows id dto.entries).map CashDenomination.total).sum
          (withDenominations (denominationRows id dto.entries) db) := by
  show ((recordDenominations id dto).exec db).2 = _
  rcases h : db.cashRegisters.find? id with _ | row
  · have hshape : recordDenominations id dto = findOne id >>= _ := rfl
    rw [hshape, exec_findOne_bind, h]
  · rw [exec_recordDenominations h]

lemma step_recordExpense (dto : RecordExpenseDto) : step db (.recordExpense id dto) =
    match db.cashRegisters.find? id with
    | none => db
    | some row =>
      let db' := withExpense (dto.row id) db
      withTotal id row ((expensesOf db' id).map CashExpense.amount).sum db' := by
  show ((recordExpense id dto).exec db).2 = _
  have hcreate : (createExpense (dto.row id)).exec db =
      (.ok (dto.row id), withExpense (dto.row id) db) := rfl
  rw [recordExpense, exec_findOne_bind]
  rcases h : db.cashRegisters.find? id with _ | row
  · rfl
  have hrow : (withExpense (dto.row id) db).cashRegisters.find? id = some row := h
  dsimp only
  rw [exec_bind, hcreate]
  dsimp only
  rw [exec_look_bind, foldl_add_map CashExpense.amount, exec_bind, exec_writeExpenses _ hrow]
  dsimp only
  rw [exec_findOne_snd]

lemma step_remove : step db (.remove id) = match db.cashRegisters.find? id with
    | none => db
    | some _ => { db with
        cashDenominations := db.cashDenominations.filter fun d => d.cashRegisterId ≠ id
        cashExpenses := db.cashExpenses.filter fun e => e.cashRegisterId ≠ id
        cashRegisters := db.cashRegisters.erase id } := by
  show ((remove id).exec db).2 = _
  rw [remove, exec_findOne_bind]
  rcases h : db.cashRegisters.find? id with _ | row
  · rfl
  dsimp only
  have hclear : (deleteDenominations id >>= fun _ => deleteExpenses id >>= fun _ =>
      cashRegister.delete id).exec db = (cashRegister.delete id).exec { db with
        cashDenominations := db.cashDenominations.filter fun d => d.cashRegisterId ≠ id
        cashExpenses := db.cashExpenses.filter fun e => e.cashRegisterId ≠ id } := rfl
  rw [hclear, Delegate.exec_delete]
  · rfl
  · exact h

/-- A call changes the registers with their counts and expenses, and nothing else. -/
lemma step_frame (op : Op) : step db op = { db with
    cashRegisters := (step db op).cashRegisters
    cashDenominations := (step db op).cashDenominations
    cashExpenses := (step db op).cashExpenses } := by
  cases op with
  | create newId dto => rw [step_create]; split <;> rfl
  | update id dto =>
    rw [step_update]
    rcases db.cashRegisters.find? id with _ | row
    · rfl
    · dsimp only
      rcases dto.apply row with _ | row' <;> rfl
  | recordDenominations id dto =>
    rw [step_recordDenominations]
    rcases db.cashRegisters.find? id with _ | row <;> rfl
  | recordExpense id dto =>
    rw [step_recordExpense]
    rcases db.cashRegisters.find? id with _ | row <;> rfl
  | remove id => rw [step_remove]; rcases db.cashRegisters.find? id with _ | row <;> rfl

end CoffeeOs.CashRegisters

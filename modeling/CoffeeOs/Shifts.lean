import CoffeeOs.Runs
import CoffeeOs.Schema

/-!
The service of shifts.

A shift is opened at a location with some cash in the drawer and closed with what is there at
the end. The figures of the closing are computed once, from the row as it is then; an update may
change any column that came with the opening, before and after.
-/

namespace CoffeeOs.Shifts

open CoffeeOs.KeyedTable CoffeeOs.Payload CoffeeOs.Requests CoffeeOs.Requests.Request
open CoffeeOs.Schema

structure CreateShiftDto where
  openingCash : AtLeast 0
  openingNotes : Property String := .undefined
  userId : Id
  locationId : Id
  organizationId : Id

structure UpdateShiftDto where
  openingCash : Property (AtLeast 0) := .undefined
  openingNotes : Property String := .undefined
  userId : Property Id := .undefined
  locationId : Property Id := .undefined
  organizationId : Property Id := .undefined

structure CloseShiftDto where
  closingCash : AtLeast 0
  closingCard : AtLeast 0
  closingTransfers : AtLeast 0
  closingOther : AtLeast 0
  notes : Property String := .undefined

structure ShiftView where
  id : Id
  row : Shift

/-! ### The service -/

/-- The shift is the active one of the location. -/
def ActiveAt (organizationId locationId : Id) (row : Shift) : Prop :=
  row.organizationId = organizationId ∧ row.locationId = locationId ∧ row.status = .open

instance (organizationId locationId : Id) (row : Shift) :
    Decidable (ActiveAt organizationId locationId row) :=
  inferInstanceAs (Decidable (_ ∧ _ ∧ _))

/-- The new row of a payload. -/
def CreateShiftDto.row (dto : CreateShiftDto) (openedAt : Instant) : Shift where
  openingCash := dto.openingCash
  openingNotes := dto.openingNotes.toOption
  userId := dto.userId
  locationId := dto.locationId
  organizationId := dto.organizationId
  status := .open
  openedAt := openedAt

def create (newId : Id) (dto : CreateShiftDto) (now : Instant) : Api ShiftView := do
  let activeShift ← shift.findFirst fun row => ActiveAt dto.organizationId dto.locationId row
  throwIf activeShift.isSome (.badRequest
    "There is already an active shift for this location. Close it before opening a new one.")
  shift.create newId (dto.row now) fun _ => ⟨newId, dto.row now⟩

def findOne (id : Id) : Api Shift := do
  let found ← shift.findUnique id
  orThrow (.notFound s!"Shift with ID \"{id}\" not found") found

/-- The row after an update by the payload. -/
def UpdateShiftDto.apply (dto : UpdateShiftDto) (row : Shift) : Option Shift := do
  let openingCash ← (dto.openingCash.map Subtype.val).intoRequired row.openingCash
  let userId ← dto.userId.intoRequired row.userId
  let locationId ← dto.locationId.intoRequired row.locationId
  let organizationId ← dto.organizationId.intoRequired row.organizationId
  return { row with
    openingCash, userId, locationId, organizationId
    openingNotes := dto.openingNotes.intoNullable row.openingNotes }

def update (id : Id) (dto : UpdateShiftDto) : Api ShiftView := do
  let _ ← findOne id
  shift.update id dto.apply fun row _ => ⟨id, row⟩

def CloseShiftDto.totalClosing (dto : CloseShiftDto) : ℚ :=
  dto.closingCash + dto.closingCard + dto.closingTransfers + dto.closingOther

/-- The row after a closing, whose figures were computed when the shift was `read`. -/
def CloseShiftDto.apply (dto : CloseShiftDto) (read : Shift) (now : Instant) (row : Shift) :
    Shift :=
  let totalExpected := read.openingCash
  { row with
    status := .closed
    closedAt := some now
    closingCash := some dto.closingCash
    closingCard := some dto.closingCard
    closingTransfers := some dto.closingTransfers
    closingOther := some dto.closingOther
    totalClosing := some dto.totalClosing
    totalExpected := some totalExpected
    variance := some (dto.totalClosing - totalExpected)
    closingNotes := dto.notes.intoNullable row.closingNotes }

def close (id : Id) (dto : CloseShiftDto) (now : Instant) : Api ShiftView := do
  let read ← findOne id
  throwIf (read.status = .closed) (.badRequest "Shift is already closed")
  shift.update id (fun row => some (dto.apply read now row)) fun row _ => ⟨id, row⟩

def remove (id : Id) : Api Unit := do
  let row ← findOne id
  throwIf (row.status = .open) (.badRequest "Cannot delete an open shift. Close it first.")
  shift.delete id

structure ShiftSummary where
  shiftId : Id
  openedAt : Instant
  closedAt : Option Instant
  status : ShiftStatus
  openingCash : ℚ
  totalClosing : ℚ
  totalExpected : ℚ
  variance : ℚ

def summary (id : Id) (row : Shift) : ShiftSummary where
  shiftId := id
  openedAt := row.openedAt
  closedAt := row.closedAt
  status := row.status
  openingCash := row.openingCash
  totalClosing := row.totalClosing.getD 0
  totalExpected := row.totalExpected.getD 0
  variance := row.variance.getD 0

def calculateShiftSummary (shiftId : Id) : Api ShiftSummary := do
  let row ← findOne shiftId
  return summary shiftId row

/-- A call of the service; the id of a new row and the clock readings come with it. -/
inductive Op
  | create (newId : Id) (dto : CreateShiftDto) (now : Instant)
  | update (id : Id) (dto : UpdateShiftDto)
  | close (id : Id) (dto : CloseShiftDto) (now : Instant)
  | remove (id : Id)

/-- The tables after a call that runs alone. -/
def step (db : Db) : Op → Db
  | .create newId dto now => ((create newId dto now).exec db).2
  | .update id dto => ((update id dto).exec db).2
  | .close id dto now => ((close id dto now).exec db).2
  | .remove id => ((remove id).exec db).2

/-! ### The tables after each call -/

variable {db : Db} {id : Id} {row row' : Shift} {now : Instant}

/-- No stored shift is the active one of the location. -/
def NoneActive (db : Db) (organizationId locationId : Id) : Prop :=
  ∀ id row, db.shifts.find? id = some row → ¬ ActiveAt organizationId locationId row

/-- What `create` finds in its way. -/
def activeShiftAt (organizationId locationId : Id) (db : Db) : Option (Id × Shift) :=
  db.shifts.rows.find? fun e => ActiveAt organizationId locationId e.2

lemma activeShiftAt_eq_none_iff {organizationId locationId : Id} :
    activeShiftAt organizationId locationId db = none ↔
      NoneActive db organizationId locationId := by
  rw [activeShiftAt, List.find?_eq_none]
  refine ⟨fun h id row hrow => ?_, fun h e he => ?_⟩
  · simpa using h (id, row) (Table.mem_rows_iff.mpr hrow)
  · simpa using h e.1 e.2 (Table.mem_rows_iff.mp he)

lemma exec_findOne_bind {α : Type} (f : Shift → Api α) :
    (findOne id >>= f).exec db = match db.shifts.find? id with
      | none => (.error (.notFound s!"Shift with ID \"{id}\" not found"), db)
      | some row => (f row).exec db := by
  rw [findOne, Delegate.exec_found_bind, shift]
  rcases db.shifts.find? id with _ | row <;> rfl

/-- The tables with the shift stored. -/
def withShift (id : Id) (row : Shift) (db : Db) : Db := { db with shifts := db.shifts.put id row }

/-- What is left of `create` once it has looked for an active shift. -/
def insert (newId : Id) (dto : CreateShiftDto) (now : Instant) : Api ShiftView :=
  shift.create newId (dto.row now) fun _ => ⟨newId, dto.row now⟩

/-- `create` looks for an active shift first and is turned away if there is one. -/
lemma create_eq (newId : Id) (dto : CreateShiftDto) (now : Instant) :
    ∃ f : Option (Id × Shift) → Api ShiftView,
      create newId dto now = look (activeShiftAt dto.organizationId dto.locationId) >>= f ∧
      f none = insert newId dto now ∧ ∀ e, ∃ error, f (some e) = .done (.error error) :=
  ⟨_, rfl, rfl, fun _ => ⟨_, rfl⟩⟩

lemma exec_create (newId : Id) (dto : CreateShiftDto) (now : Instant) :
    (NoneActive db dto.organizationId dto.locationId ∧
      (create newId dto now).exec db = (insert newId dto now).exec db) ∨
    (¬ NoneActive db dto.organizationId dto.locationId ∧
      ∃ e, (create newId dto now).exec db = (.error e, db)) := by
  obtain ⟨f, hf, hnone, hsome⟩ := create_eq newId dto now
  rw [hf, exec_look_bind]
  rcases hactive : activeShiftAt dto.organizationId dto.locationId db with _ | e
  · exact Or.inl ⟨activeShiftAt_eq_none_iff.mp hactive, by rw [hnone]⟩
  · obtain ⟨error, herror⟩ := hsome e
    refine Or.inr ⟨fun h => ?_, error, by rw [herror]; rfl⟩
    rw [activeShiftAt_eq_none_iff.mpr h] at hactive
    cases hactive

lemma step_create (newId : Id) (dto : CreateShiftDto) (now : Instant) :
    (NoneActive db dto.organizationId dto.locationId ∧ db.shifts.find? newId = none ∧
      step db (.create newId dto now) = withShift newId (dto.row now) db) ∨
    step db (.create newId dto now) = db := by
  have hstep : step db (.create newId dto now) = ((create newId dto now).exec db).2 := rfl
  rw [hstep]
  rcases exec_create newId dto now with ⟨hnone, hexec⟩ | ⟨-, e, hexec⟩ <;> rw [hexec]
  · rcases hid : db.shifts.find? newId with _ | row
    · rw [insert, Delegate.exec_create_new hid]
      exact Or.inl ⟨hnone, rfl, rfl⟩
    · rw [insert, Delegate.exec_create_stored hid]
      exact Or.inr rfl
  · exact Or.inr rfl

/-- The payload writes `null` to no required column. -/
def UpdateShiftDto.Writable (dto : UpdateShiftDto) : Prop :=
  dto.openingCash ≠ .null ∧ dto.userId ≠ .null ∧ dto.locationId ≠ .null ∧
    dto.organizationId ≠ .null

/-- The row after an update that can be written. -/
def UpdateShiftDto.merge (dto : UpdateShiftDto) (row : Shift) : Shift :=
  { row with
    openingCash := (dto.openingCash.map Subtype.val).orElse row.openingCash
    openingNotes := dto.openingNotes.intoNullable row.openingNotes
    userId := dto.userId.orElse row.userId
    locationId := dto.locationId.orElse row.locationId
    organizationId := dto.organizationId.orElse row.organizationId }

lemma apply_of_writable {dto : UpdateShiftDto} (h : dto.Writable) (row : Shift) :
    dto.apply row = some (dto.merge row) := by
  obtain ⟨hcash, huser, hlocation, horganization⟩ := h
  unfold UpdateShiftDto.apply
  rw [Property.intoRequired_of_ne_null (Property.map_ne_null hcash),
    Property.intoRequired_of_ne_null huser, Property.intoRequired_of_ne_null hlocation,
    Property.intoRequired_of_ne_null horganization]
  rfl

lemma apply_of_not_writable {dto : UpdateShiftDto} (h : ¬ dto.Writable) (row : Shift) :
    dto.apply row = none := by
  by_contra hsome
  obtain ⟨row', hrow'⟩ := Option.ne_none_iff_exists'.mp hsome
  unfold UpdateShiftDto.apply at hrow'
  simp only [Option.bind_eq_bind, Option.bind_eq_some_iff] at hrow'
  obtain ⟨_, hcash, _, huser, _, hlocation, _, horganization, -⟩ := hrow'
  refine h ⟨fun hnull => ?_, fun hnull => ?_, fun hnull => ?_, fun hnull => ?_⟩
  · rw [hnull] at hcash; cases hcash
  · rw [hnull] at huser; cases huser
  · rw [hnull] at hlocation; cases hlocation
  · rw [hnull] at horganization; cases horganization

lemma step_update (id : Id) (dto : UpdateShiftDto) :
    (∃ row, db.shifts.find? id = some row ∧ dto.Writable ∧
      step db (.update id dto) = withShift id (dto.merge row) db) ∨
    ((∀ row, db.shifts.find? id = some row → ¬ dto.Writable) ∧
      step db (.update id dto) = db) := by
  have hstep : step db (.update id dto) = ((update id dto).exec db).2 := rfl
  rw [hstep, update, exec_findOne_bind]
  rcases hrow : db.shifts.find? id with _ | row
  · exact Or.inr ⟨fun _ h => (by cases h), rfl⟩
  dsimp only
  by_cases hw : dto.Writable
  · rw [Delegate.exec_update hrow (apply_of_writable hw row)]
    exact Or.inl ⟨row, rfl, hw, rfl⟩
  · rw [Delegate.exec_update_null hrow (apply_of_not_writable hw row)]
    exact Or.inr ⟨fun _ _ => hw, rfl⟩

lemma step_close (id : Id) (dto : CloseShiftDto) (now : Instant) :
    (∃ row, db.shifts.find? id = some row ∧ row.status = .open ∧
      step db (.close id dto now) = withShift id (dto.apply row now row) db) ∨
    step db (.close id dto now) = db := by
  have hstep : step db (.close id dto now) = ((close id dto now).exec db).2 := rfl
  rw [hstep, close, exec_findOne_bind]
  rcases hrow : db.shifts.find? id with _ | row
  · exact Or.inr rfl
  dsimp only
  rcases hs : row.status with _ | _
  · rw [exec_throwIf_bind_neg (by simp), Delegate.exec_update_some (d := shift) hrow]
    exact Or.inl ⟨row, rfl, hs, rfl⟩
  · rw [exec_throwIf_bind_pos rfl]
    exact Or.inr rfl

lemma step_remove (id : Id) :
    (∃ row, db.shifts.find? id = some row ∧ row.status = .closed ∧
      step db (.remove id) = { db with shifts := db.shifts.erase id }) ∨
    step db (.remove id) = db := by
  have hstep : step db (.remove id) = ((remove id).exec db).2 := rfl
  rw [hstep, remove, exec_findOne_bind]
  rcases hrow : db.shifts.find? id with _ | row
  · exact Or.inr rfl
  dsimp only
  rcases hs : row.status with _ | _
  · rw [exec_throwIf_bind_pos rfl]
    exact Or.inr rfl
  · rw [exec_throwIf_bind_neg (by simp), Delegate.exec_delete hrow]
    exact Or.inl ⟨row, rfl, hs, rfl⟩

/-- A call changes the shifts and nothing else. -/
lemma step_frame (op : Op) : step db op = { db with shifts := (step db op).shifts } := by
  cases op with
  | create newId dto now =>
    rcases @step_create db newId dto now with ⟨-, -, h⟩ | h <;> rw [h] <;> rfl
  | update id dto =>
    rcases @step_update db id dto with ⟨_, -, -, h⟩ | ⟨-, h⟩ <;> rw [h] <;> rfl
  | close id dto now =>
    rcases @step_close db id dto now with ⟨_, -, -, h⟩ | h <;> rw [h] <;> rfl
  | remove id =>
    rcases @step_remove db id with ⟨_, -, -, h⟩ | h <;> rw [h]

end CoffeeOs.Shifts

import CoffeeOs.Interleaving
import CoffeeOs.OpenShifts

/-!
Shifts that are opened and closed at the same time.

A request to open a shift looks for an open one and stores its own in a second call that does
not look again. A location keeps to one open shift as long as each request still finds none when
it stores its own.
-/

namespace CoffeeOs.ShiftRace

open CoffeeOs.KeyedTable CoffeeOs.OpenShifts CoffeeOs.Requests CoffeeOs.Requests.Request
open CoffeeOs.Interleaving CoffeeOs.Interleaving.Pool CoffeeOs.Runs CoffeeOs.Schema
open CoffeeOs.Shifts hiding step

inductive Call
  | create (newId : Id) (dto : CreateShiftDto) (now : Instant)
  | close (id : Id) (dto : CloseShiftDto) (now : Instant)

def Call.request : Call → Api ShiftView
  | .create newId dto now => Shifts.create newId dto now
  | .close id dto now => Shifts.close id dto now

variable {ι : Type} {call : ι → Call}

/-- Requests to open and to close shifts. -/
def race (call : ι → Call) (db : Db) : Pool ι Db Error ShiftView :=
  ⟨db, fun i => (call i).request⟩

/-- A request stores a shift under a new id only while its location has no open shift. -/
def StillNone (q : Pool ι Db Error ShiftView) (i : ι) : Prop :=
  ∀ newId dto now, q.requests i = insert newId dto now → q.store.shifts.find? newId = none →
    NoneActive q.store dto.organizationId dto.locationId

/-- What is left of `close` once it has read the shift. -/
def closing (id : Id) (dto : CloseShiftDto) (now : Instant) (read : Shift) : Api ShiftView :=
  shift.update id (fun row => some (dto.apply read now row)) fun row _ => ⟨id, row⟩

/-- How far a request has come. -/
inductive Stage : Api ShiftView → Prop
  | unread (call : Call) : Stage call.request
  | inserting (newId : Id) (dto : CreateShiftDto) (now : Instant) : Stage (insert newId dto now)
  | closing (id : Id) (dto : CloseShiftDto) (now : Instant) (read : Shift) :
      Stage (closing id dto now read)
  | answered (r : Except Error ShiftView) : Stage (.done r)

variable [DecidableEq ι] {q : Pool ι Db Error ShiftView} {i : ι}

/-! ### The calls of a request -/

/-- `close` reads the shift first and is turned away if there is none or it is closed. -/
lemma close_eq (id : Id) (dto : CloseShiftDto) (now : Instant) :
    ∃ f : Option Shift → Api ShiftView,
      Shifts.close id dto now = look (fun db => db.shifts.find? id) >>= f ∧ ∀ found,
        (∃ e, f found = .done (.error e)) ∨
        ∃ read, found = some read ∧ read.status = .open ∧ f found = closing id dto now read := by
  refine ⟨fun found => orThrow (.notFound s!"Shift with ID \"{id}\" not found") found >>=
    fun read => throwIf (read.status = .closed) (.badRequest "Shift is already closed") >>=
      fun _ => closing id dto now read, rfl, fun found => ?_⟩
  dsimp only
  rcases found with _ | read
  · exact Or.inl ⟨_, orThrow_none_bind _⟩
  rw [orThrow_some_bind]
  rcases hs : read.status with _ | _
  · exact Or.inr ⟨read, rfl, hs, throwIf_bind_neg (by decide) _⟩
  · exact Or.inl ⟨_, throwIf_bind_pos rfl _⟩

/-- The first call of a request only looks. -/
lemma request_eq (call : Call) : ∃ k, call.request = .call id k ∧ ∀ db, Stage (k db) := by
  cases call with
  | create newId dto now =>
    obtain ⟨f, hf, hnone, hsome⟩ := create_eq newId dto now
    refine ⟨fun db => f (activeShiftAt dto.organizationId dto.locationId db), hf, fun db => ?_⟩
    dsimp only
    rcases activeShiftAt dto.organizationId dto.locationId db with _ | e
    · -- no shift is open at the location
      rw [hnone]
      exact .inserting newId dto now
    · obtain ⟨error, herror⟩ := hsome e
      rw [herror]
      exact .answered _
  | close id dto now =>
    obtain ⟨f, hf, hcases⟩ := close_eq id dto now
    refine ⟨fun db => f (db.shifts.find? id), hf, fun db => ?_⟩
    dsimp only
    rcases hcases (db.shifts.find? id) with ⟨e, he⟩ | ⟨read, -, -, hread⟩
    · rw [he]
      exact .answered _
    · rw [hread]
      exact .closing id dto now read

lemma step_insert_new {newId : Id} {dto : CreateShiftDto} {now : Instant}
    (h : q.requests i = insert newId dto now) (hid : q.store.shifts.find? newId = none) :
    q.step i = ⟨withShift newId (dto.row now) q.store,
      Function.update q.requests i (.done (.ok ⟨newId, dto.row now⟩))⟩ :=
  step_atomically_ok h (by rw [shift, hid]; rfl)

lemma step_insert_stored {newId : Id} {dto : CreateShiftDto} {now : Instant} {row : Shift}
    (h : q.requests i = insert newId dto now) (hid : q.store.shifts.find? newId = some row) :
    q.step i = ⟨q.store,
      Function.update q.requests i (.done (.error (.prisma .uniqueConstraint)))⟩ :=
  step_atomically_error h (by rw [shift, hid])

lemma step_closing {id : Id} {dto : CloseShiftDto} {now : Instant} {read : Shift}
    (h : q.requests i = closing id dto now read) :
    (∃ row, q.step i = ⟨withShift id (dto.apply read now row) q.store,
      Function.update q.requests i (.done (.ok ⟨id, dto.apply read now row⟩))⟩) ∨
    q.step i = ⟨q.store,
      Function.update q.requests i (.done (.error (.prisma .recordNotFound)))⟩ := by
  rcases hrow : q.store.shifts.find? id with _ | row
  · exact Or.inr (step_atomically_error h (by rw [shift, hrow]))
  · exact Or.inl ⟨row, step_atomically_ok h (by rw [shift, hrow]; rfl)⟩

/-! ### Every request of the pool, at any time -/

lemma stage_update {r : Api ShiftView} (h : ∀ i, Stage (q.requests i)) (hr : Stage r) (j : ι) :
    Stage (Function.update q.requests i r j) :=
  (Function.forall_update_iff q.requests fun _ r => Stage r).mpr ⟨hr, fun j _ => h j⟩ j

lemma stage_step (i : ι) (h : ∀ i, Stage (q.requests i)) (j : ι) :
    Stage ((q.step i).requests j) := by
  have hi : Stage (q.requests i) := h i
  generalize hreq : q.requests i = r at hi
  cases hi with
  | unread call =>
    obtain ⟨k, hk, hstage⟩ := request_eq call
    rw [step_of_call (hreq.trans hk)]
    exact stage_update h (hstage _) j
  | inserting newId dto now =>
    rcases hid : q.store.shifts.find? newId with _ | row
    · rw [step_insert_new hreq hid]
      exact stage_update h (.answered _) j
    · rw [step_insert_stored hreq hid]
      exact stage_update h (.answered _) j
  | closing id dto now read =>
    rcases step_closing hreq with ⟨row, hstep⟩ | hstep <;> rw [hstep] <;>
      exact stage_update h (.answered _) j
  | answered r =>
    rw [step_of_done hreq]
    exact h j

lemma noneOther_insert_iff {db : Db} {newId organizationId locationId : Id}
    (hid : db.shifts.find? newId = none) :
    NoneOther db newId organizationId locationId ↔ NoneActive db organizationId locationId := by
  refine ⟨fun h j row hrow => h j row ?_ hrow, noneOther_of_noneActive⟩
  rintro rfl
  cases hid.symm.trans hrow

/-- One turn keeps the locations apart exactly if it stores no shift at a location that has an
open one. -/
lemma oneOpen_step_iff (hall : ∀ i, Stage (q.requests i)) (h : OneOpen q.store) :
    OneOpen (q.step i).store ↔ StillNone q i := by
  -- only an insert can open a shift, and it looks at nothing before it does
  have hinsert {newId : Id} {dto : CreateShiftDto} {now : Instant}
      (hreq : q.requests i = insert newId dto now) (hid : q.store.shifts.find? newId = none) :
      OneOpen (q.step i).store ↔ NoneActive q.store dto.organizationId dto.locationId := by
    rw [step_insert_new hreq hid, oneOpen_withShift_iff h, noneOther_insert_iff hid]
    exact ⟨fun hopen => hopen rfl, fun hnone _ => hnone⟩
  refine ⟨fun hone newId dto now hreq hid => (hinsert hreq hid).mp hone, fun hstill => ?_⟩
  have hi : Stage (q.requests i) := hall i
  generalize hreq : q.requests i = r at hi
  cases hi with
  | unread call =>
    obtain ⟨k, hk, -⟩ := request_eq call
    rw [step_of_call (hreq.trans hk)]
    exact h
  | inserting newId dto now =>
    rcases hid : q.store.shifts.find? newId with _ | row
    · exact (hinsert hreq hid).mpr (hstill newId dto now hreq hid)
    · rw [step_insert_stored hreq hid]
      exact h
  | closing id dto now read =>
    rcases step_closing hreq with ⟨row, hstep⟩ | hstep <;> rw [hstep]
    · exact (oneOpen_withShift_iff h).mpr fun hopen => by cases hopen
    · exact h
  | answered r =>
    rw [step_of_done hreq]
    exact h

/-- **The race.** However the calls of the requests are interleaved, at most one shift is open
at each location throughout exactly if every request that stores a shift still finds none open
at its location. -/
theorem one_open_race_iff {db : Db} (call : ι → Call) (h : OneOpen db) (is : List ι) :
    Always step (fun q => OneOpen q.store) (race call db) is ↔
      Along step StillNone (race call db) is :=
  always_iff_along_of_invariant (I := fun q => ∀ i, Stage (q.requests i))
    (fun _ i hall => stage_step i hall) (fun _ _ hall hone => oneOpen_step_iff hall hone)
    (fun i => .unread (call i)) h

/-- Two tills that open a shift at the same location. -/
def tills : Bool → Call := fun i => .create (if i then "b" else "a") (opening "bar") 0

theorem one_open_race_iff_tills : OneOpen ∅ ∧
    (Always step (fun q => OneOpen q.store) (race tills ∅) [true, true, false] ↔
      Along step StillNone (race tills ∅) [true, true, false]) := by
  have hnone : OneOpen ∅ := fun _ _ _ _ _ _ h => by cases h
  exact ⟨hnone, one_open_race_iff tills hnone _⟩

/-- Both tills look, then both open a shift. -/
theorem opened_twice :
    ¬ Always step (fun q => OneOpen q.store) (race tills ∅) [false, true, false, true] := by
  exact fun h => not_oneOpen (by decide +kernel) h.last

end CoffeeOs.ShiftRace

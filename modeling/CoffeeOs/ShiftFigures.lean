import CoffeeOs.Shifts

/-!
The figures of a closed shift.

The totals and the variance of a closing are computed from the cash the shift was opened with,
which stays open to updates after the closing; they are not computed again.
-/

namespace CoffeeOs.ShiftFigures

open CoffeeOs.KeyedTable CoffeeOs.Payload CoffeeOs.Requests CoffeeOs.Requests.Request
open CoffeeOs.Runs CoffeeOs.Schema CoffeeOs.Shifts

/-- The amounts counted at a closing. -/
structure Amounts where
  cash : ℚ
  card : ℚ
  transfers : ℚ
  other : ℚ

def Amounts.total (a : Amounts) : ℚ := a.cash + a.card + a.transfers + a.other

/-- The row holds these amounts and the figures that come of them. -/
structure Holds (a : Amounts) (row : Shift) : Prop where
  cash : row.closingCash = some a.cash
  card : row.closingCard = some a.card
  transfers : row.closingTransfers = some a.transfers
  other : row.closingOther = some a.other
  totalClosing : row.totalClosing = some a.total
  totalExpected : row.totalExpected = some row.openingCash
  variance : row.variance = some (a.total - row.openingCash)

/-- `calculateShiftSummary` reports the figures that come of these amounts. -/
def Reports (a : Amounts) (id : Id) (row : Shift) (db : Db) : Prop :=
  ∃ s, ((calculateShiftSummary id).exec db).1 = .ok s ∧ s.totalClosing = a.total ∧
    s.totalExpected = row.openingCash ∧ s.variance = a.total - row.openingCash

/-- Every closed shift is reconciled, and reported so. -/
def Reconciled (db : Db) : Prop := ∀ id row, db.shifts.find? id = some row →
  row.status = .closed → ∃ a, Holds a row ∧ Reports a id row db

/-- An update of a closed shift carries no other opening cash than the shift has. -/
def KeepsOpeningCash (db : Db) : Op → Prop
  | .update id dto => ∀ row openingCash, db.shifts.find? id = some row → row.status = .closed →
    dto.Writable → dto.openingCash = .val openingCash → openingCash = row.openingCash
  | _ => True

variable {db : Db} {id : Id} {row row' : Shift} {op : Op} {a : Amounts}

/-! ### What is stored is reported -/

lemma reports_of_holds (hrow : db.shifts.find? id = some row) (h : Holds a row) :
    Reports a id row db := by
  have hsummary : ((calculateShiftSummary id).exec db).1 = .ok (summary id row) := by
    rw [calculateShiftSummary, exec_findOne_bind, hrow]
    rfl
  refine ⟨summary id row, hsummary, ?_, ?_, ?_⟩
  · rw [summary, h.totalClosing, Option.getD_some]
  · rw [summary, h.totalExpected, Option.getD_some]
  · rw [summary, h.variance, Option.getD_some]

lemma reconciled_iff : Reconciled db ↔ ∀ id row, db.shifts.find? id = some row →
    row.status = .closed → ∃ a, Holds a row :=
  ⟨fun h id row hrow hs => (h id row hrow hs).imp fun _ ha => ha.1,
    fun h id row hrow hs => (h id row hrow hs).imp fun _ ha => ⟨ha, reports_of_holds hrow ha⟩⟩

/-! ### What each call does to the figures -/

/-- A shift is reconciled if it is closed. -/
def Sound (row : Shift) : Prop := row.status = .closed → ∃ a, Holds a row

lemma reconciled_withShift_iff (h : Reconciled db) :
    Reconciled (withShift id row db) ↔ Sound row := by
  rw [reconciled_iff] at h ⊢
  refine ⟨fun hall => hall id row Table.find?_put_self, fun hsound j r hr => ?_⟩
  rcases Table.of_find?_put hr with ⟨-, rfl⟩ | ⟨-, hr'⟩
  · exact hsound
  · exact h j r hr'

lemma reconciled_erase (h : Reconciled db) :
    Reconciled { db with shifts := db.shifts.erase id } := by
  rw [reconciled_iff] at h ⊢
  exact fun j r hr => h j r (Table.of_find?_erase hr).2

/-- The figures of a closing come of the row that is closed. -/
lemma holds_close (dto : CloseShiftDto) (now : Instant) (row : Shift) :
    Holds ⟨dto.closingCash, dto.closingCard, dto.closingTransfers, dto.closingOther⟩
      (dto.apply row now row) := ⟨rfl, rfl, rfl, rfl, rfl, rfl, rfl⟩

/-- The figures of a closed shift stand under an update exactly if the opening cash does. -/
lemma sound_merge_iff {dto : UpdateShiftDto} (h : Sound row) : Sound (dto.merge row) ↔
    (row.status = .closed →
      ∀ openingCash, dto.openingCash = .val openingCash → openingCash = row.openingCash) := by
  have hcash {openingCash : AtLeast 0} (hdto : dto.openingCash = .val openingCash) :
      (dto.merge row).openingCash = openingCash := by
    rw [UpdateShiftDto.merge, hdto]
    rfl
  refine ⟨fun hmerged hs openingCash hdto => ?_, fun hkeeps hs => ?_⟩
  · -- both the old and the new row expect the opening cash that was closed with
    obtain ⟨a, ha⟩ := h hs
    obtain ⟨a', ha'⟩ := hmerged hs
    have hexpected : some (dto.merge row).openingCash = some row.openingCash :=
      ha'.totalExpected.symm.trans ha.totalExpected
    rw [← hcash hdto, Option.some.inj hexpected]
  · obtain ⟨a, ha⟩ := h hs
    have hsame : (dto.merge row).openingCash = row.openingCash := by
      rcases hdto : dto.openingCash with _ | _ | openingCash
      · rw [UpdateShiftDto.merge, hdto]
        rfl
      · rw [UpdateShiftDto.merge, hdto]
        rfl
      · rw [hcash hdto, hkeeps hs openingCash hdto]
    refine ⟨a, ha.cash, ha.card, ha.transfers, ha.other, ha.totalClosing, ?_, ?_⟩
    · rw [hsame]
      exact ha.totalExpected
    · rw [hsame]
      exact ha.variance

lemma reconciled_step_iff (h : Reconciled db) :
    Reconciled (step db op) ↔ KeepsOpeningCash db op := by
  cases op with
  | create newId dto now =>
    refine iff_of_true ?_ trivial
    rcases step_create newId dto now with ⟨-, -, hdb⟩ | hdb <;> rw [hdb]
    · -- a new shift is open, and has nothing to reconcile
      exact (reconciled_withShift_iff h).mpr fun hs => by cases hs
    · exact h
  | update id dto =>
    rcases step_update id dto with ⟨row, hrow, hw, hdb⟩ | ⟨hnone, hdb⟩ <;> rw [hdb]
    · rw [reconciled_withShift_iff h, sound_merge_iff (reconciled_iff.mp h id row hrow)]
      refine ⟨fun hkeeps r openingCash hr hs _ hdto => ?_,
        fun hkeeps hs openingCash hdto => hkeeps row openingCash hrow hs hw hdto⟩
      obtain rfl := Option.some.inj (hrow.symm.trans hr)
      exact hkeeps hs openingCash hdto
    · exact iff_of_true h fun r _ hr _ hw => absurd hw (hnone r hr)
  | close id dto now =>
    refine iff_of_true ?_ trivial
    rcases step_close id dto now with ⟨row, -, -, hdb⟩ | hdb <;> rw [hdb]
    · exact (reconciled_withShift_iff h).mpr fun _ => ⟨_, holds_close dto now row⟩
    · exact h
  | remove id =>
    refine iff_of_true ?_ trivial
    rcases step_remove id with ⟨row, -, -, hdb⟩ | hdb <;> rw [hdb]
    · exact reconciled_erase h
    · exact h

/-- **Reconciliations.** Every closed shift is reconciled and reported so throughout a run
exactly if no update carries another opening cash into a closed shift. -/
theorem reconciled_always_iff (h : Reconciled db) (ops : List Op) :
    Always step Reconciled db ops ↔ Along step KeepsOpeningCash db ops :=
  always_iff_along (fun _ _ => reconciled_step_iff) h

def opening : CreateShiftDto where
  openingCash := AtLeast.ofNat 500
  userId := "ana"
  locationId := "bar"
  organizationId := "shop"

def counted : CloseShiftDto where
  closingCash := AtLeast.ofNat 650
  closingCard := AtLeast.ofNat 0
  closingTransfers := AtLeast.ofNat 0
  closingOther := AtLeast.ofNat 0

/-- A shift that is opened with 500 and closed with 650. -/
def day : List Op := [.create "a" opening 0, .close "a" counted 36000000]

theorem reconciled_always_iff_day : Reconciled ∅ ∧
    (Always step Reconciled ∅ day ↔ Along step KeepsOpeningCash ∅ day) := by
  have hnone : Reconciled ∅ := fun _ _ h => by cases h
  exact ⟨hnone, reconciled_always_iff hnone _⟩

/-- The opening cash of the closed shift is corrected, and its variance stays the old one. -/
theorem variance_stale : ¬ Always step Reconciled ∅
    (day ++ [.update "a" { openingCash := .val (AtLeast.ofNat 600) }]) := by
  intro h
  set db := run step ∅ (day ++ [.update "a" { openingCash := .val (AtLeast.ofNat 600) }]) with hdb
  have hrow : (db.shifts.find? "a").map (fun row =>
      (row.status, row.openingCash, row.totalExpected)) = some (.closed, 600, some 500) := by
    rw [hdb]; decide +kernel
  obtain ⟨row, hfind, hboth⟩ := Option.map_eq_some_iff.mp hrow
  obtain ⟨hs, hcash, hexpected⟩ : row.status = .closed ∧ row.openingCash = 600 ∧
      row.totalExpected = some 500 := by simpa using hboth
  obtain ⟨a, ha, -⟩ := h.last "a" row hfind hs
  have hsame : (500 : ℚ) = 600 :=
    Option.some.inj (hexpected.symm.trans (ha.totalExpected.trans (congrArg some hcash)))
  exact absurd hsame (by decide)

end CoffeeOs.ShiftFigures

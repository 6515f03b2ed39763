import CoffeeOs.Shifts

/-!
The open shifts of a location.

A shift is opened only at a location that has no open one. An update may move an open shift to
another location, and does not look whether a shift is open there.
-/

namespace CoffeeOs.OpenShifts

open CoffeeOs.KeyedTable CoffeeOs.Payload CoffeeOs.Requests CoffeeOs.Requests.Request
open CoffeeOs.Runs CoffeeOs.Schema CoffeeOs.Shifts

/-- At most one shift is open at each location of each organization. -/
def OneOpen (db : Db) : Prop := ∀ organizationId locationId i j row row',
  db.shifts.find? i = some row → ActiveAt organizationId locationId row →
  db.shifts.find? j = some row' → ActiveAt organizationId locationId row' → i = j

/-- No stored shift but `id` is the active one of the location. -/
def NoneOther (db : Db) (id organizationId locationId : Id) : Prop :=
  ∀ j row, j ≠ id → db.shifts.find? j = some row → ¬ ActiveAt organizationId locationId row

/-- An update of an open shift leaves it at a location where no other shift is open. -/
def MovesClear (db : Db) : Op → Prop
  | .update id dto => ∀ row, db.shifts.find? id = some row → row.status = .open → dto.Writable →
    NoneOther db id (dto.organizationId.orElse row.organizationId)
      (dto.locationId.orElse row.locationId)
  | _ => True

variable {db : Db} {id : Id} {row : Shift} {op : Op}

lemma oneOpen_withShift_iff (h : OneOpen db) :
    OneOpen (withShift id row db) ↔
      (row.status = .open → NoneOther db id row.organizationId row.locationId) := by
  have hself : (withShift id row db).shifts.find? id = some row := Table.find?_put_self
  have hother {j : Id} (hj : j ≠ id) :
      (withShift id row db).shifts.find? j = db.shifts.find? j := Table.find?_put_ne hj
  refine ⟨fun hone hopen j row' hj hrow' hactive => hj ?_,
    fun hnone o l i j r r' hi ha hj ha' => ?_⟩
  · exact hone _ _ j id row' row ((hother hj).trans hrow') hactive hself ⟨rfl, rfl, hopen⟩
  · -- of two open shifts at one location, neither is the one just stored
    have hne {k m : Id} {s s' : Shift} (hk : k = id) (hm : m ≠ id)
        (hs : (withShift id row db).shifts.find? k = some s) (has : ActiveAt o l s)
        (hs' : (withShift id row db).shifts.find? m = some s') (has' : ActiveAt o l s') :
        False := by
      rw [hk, hself] at hs
      obtain rfl := Option.some.inj hs
      obtain ⟨rfl, rfl, hopen⟩ := has
      exact hnone hopen m s' hm ((hother hm).symm.trans hs') has'
    by_cases hi' : i = id <;> by_cases hj' : j = id
    · rw [hi', hj']
    · exact (hne hi' hj' hi ha hj ha').elim
    · exact (hne hj' hi' hj ha' hi ha).elim
    · exact h o l i j r r' ((hother hi').symm.trans hi) ha ((hother hj').symm.trans hj) ha'

lemma oneOpen_erase (h : OneOpen db) : OneOpen { db with shifts := db.shifts.erase id } := by
  have hstored {j : Id} {r : Shift}
      (hr : ({ db with shifts := db.shifts.erase id } : Db).shifts.find? j = some r) :
      db.shifts.find? j = some r := (Table.of_find?_erase hr).2
  exact fun o l i j r r' hi ha hj ha' => h o l i j r r' (hstored hi) ha (hstored hj) ha'

lemma noneOther_of_rows {organizationId locationId : Id}
    (h : ∀ e ∈ db.shifts.rows, e.1 ≠ id → ¬ ActiveAt organizationId locationId e.2) :
    NoneOther db id organizationId locationId :=
  fun j row hj hrow => h (j, row) (Table.mem_rows_iff.mpr hrow) hj

lemma noneOther_of_noneActive {organizationId locationId : Id}
    (h : NoneActive db organizationId locationId) : NoneOther db id organizationId locationId :=
  fun j row _ hrow => h j row hrow

/-- One call keeps the locations apart exactly if it does not move an open shift to another
one. -/
lemma oneOpen_step_iff (h : OneOpen db) : OneOpen (step db op) ↔ MovesClear db op := by
  cases op with
  | create newId dto now =>
    refine iff_of_true ?_ trivial
    rcases step_create newId dto now with ⟨hnone, -, hdb⟩ | hdb <;> rw [hdb]
    · -- the create has found no open shift at the location
      exact (oneOpen_withShift_iff h).mpr fun _ => noneOther_of_noneActive hnone
    · exact h
  | update id dto =>
    rcases step_update id dto with ⟨row, hrow, hw, hdb⟩ | ⟨hnone, hdb⟩ <;> rw [hdb]
    · rw [oneOpen_withShift_iff h]
      refine ⟨fun hother r hr hopen _ => ?_, fun hclear hopen => hclear row hrow hopen hw⟩
      obtain rfl := Option.some.inj (hrow.symm.trans hr)
      exact hother hopen
    · -- the update is refused, or is not writable
      exact iff_of_true h fun r hr _ hw => absurd hw (hnone r hr)
  | close id dto now =>
    refine iff_of_true ?_ trivial
    rcases step_close id dto now with ⟨row, -, -, hdb⟩ | hdb <;> rw [hdb]
    · exact (oneOpen_withShift_iff h).mpr fun hopen => by cases hopen
    · exact h
  | remove id =>
    refine iff_of_true ?_ trivial
    rcases step_remove id with ⟨row, -, -, hdb⟩ | hdb <;> rw [hdb]
    · exact oneOpen_erase h
    · exact h

/-- **Open shifts.** At most one shift is open at each location throughout a run exactly if no
update leaves an open shift at a location where another one is open. -/
theorem one_open_iff (h : OneOpen db) (ops : List Op) :
    Always step OneOpen db ops ↔ Along step MovesClear db ops :=
  always_iff_along (fun _ _ => oneOpen_step_iff) h

/-- The opening of a shift at a location of the shop. -/
def opening (locationId : Id) : CreateShiftDto :=
  { openingCash := AtLeast.ofNat 500, userId := "ana", locationId, organizationId := "shop" }

/-- The shift at the bar is closed, and the one on the patio moves there. -/
def handover : List Op :=
  [.create "a" (opening "bar") 0, .create "b" (opening "patio") 1000,
   .close "a" { closingCash := .ofNat 600, closingCard := .ofNat 250, closingTransfers := .ofNat 0,
                closingOther := .ofNat 0 } 2000,
   .update "b" { locationId := .val "bar" }]

theorem one_open_iff_handover : OneOpen ∅ ∧
    (Always step OneOpen ∅ handover ↔ Along step MovesClear ∅ handover) ∧
    Along step MovesClear ∅ handover ∧
    (run step ∅ handover).shifts.values.map (fun row => (row.locationId, row.status)) =
      [("bar", .closed), ("bar", .open)] := by
  have hnone : OneOpen ∅ := fun _ _ _ _ _ _ h => by cases h
  refine ⟨hnone, one_open_iff hnone _, ⟨trivial, trivial, trivial, fun row hrow _ _ => ?_, trivial⟩,
    by decide +kernel⟩
  -- when the shift is moved, the only other one is closed
  have hstored : (run step ∅ (handover.take 3)).shifts.find? "b" =
      some ((opening "patio").row 1000) := by decide +kernel
  obtain rfl := Option.some.inj (hstored.symm.trans hrow)
  exact noneOther_of_rows (by decide +kernel)

lemma not_oneOpen (h : (db.shifts.find? "a").any (fun row => ActiveAt "shop" "bar" row) ∧
    (db.shifts.find? "b").any (fun row => ActiveAt "shop" "bar" row)) : ¬ OneOpen db := by
  intro hone
  simp only [Option.any_eq_true, decide_eq_true_eq] at h
  obtain ⟨⟨a, ha, ha'⟩, b, hb, hb'⟩ := h
  exact absurd (hone "shop" "bar" "a" "b" a b ha ha' hb hb') (by decide)

/-- Of two open shifts one is moved to the location of the other. -/
theorem two_open : ¬ Always step OneOpen ∅
    [.create "a" (opening "bar") 0, .create "b" (opening "patio") 1000,
      .update "b" { locationId := .val "bar" }] :=
  fun h => not_oneOpen (by decide +kernel) h.last

end CoffeeOs.OpenShifts

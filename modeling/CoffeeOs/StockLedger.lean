import CoffeeOs.InventoryMovements
import CoffeeOs.Runs
import Mathlib.Order.Interval.Set.UnorderedInterval
import Mathlib.Tactic.Linarith
import Mathlib.Tactic.Ring

/-!
The stock of an item by its ledger: what it opened with, and what was moved in and out since.

The service refuses a movement out of an item against the column it reads, which stays at the
opening stock whatever is moved. The first theorem says when that agrees with the ledger, the
others which calls keep every ledger from falling below zero.
-/

namespace CoffeeOs.StockLedger

open CoffeeOs.KeyedTable CoffeeOs.Payload CoffeeOs.Requests CoffeeOs.Requests.Request
open CoffeeOs.Runs CoffeeOs.Schema CoffeeOs.InventoryMovements

/-- The quantity of a movement, if it is of this type and for this item. -/
def quantityOf (type : MovementType) (k : Id) (m : InventoryMovement) : ℚ :=
  if m.inventoryItemId = k ∧ m.type = type then m.quantity else 0

/-- The sum of the stored quantities of a type of movement of an item. -/
def moved (type : MovementType) (k : Id) (db : Db) : ℚ :=
  db.inventoryMovements.total fun _ m => quantityOf type k m

/-- The opening stock of an item, plus what was moved in, minus what was moved out. -/
def ledger (k : Id) (db : Db) : ℚ := stockOf db k + moved .in k db - moved .out k db

/-- What a movement adds to the ledger of an item. -/
def added (k : Id) (m : InventoryMovement) : ℚ := quantityOf .in k m - quantityOf .out k m

variable {db : Db} {k id : Id} {m m' : InventoryMovement}

/-! ### The ledger after each call -/

lemma ledger_put_new (h : db.inventoryMovements.find? id = none) :
    ledger k { db with inventoryMovements := db.inventoryMovements.put id m } =
      ledger k db + added k m := by
  have hmoved (type : MovementType) :
      moved type k { db with inventoryMovements := db.inventoryMovements.put id m } =
        moved type k db + quantityOf type k m := Table.total_put_new h
  unfold ledger added
  rw [hmoved, hmoved]
  show stockOf db k + _ - _ = _
  ring

lemma ledger_put (h : db.inventoryMovements.find? id = some m) :
    ledger k { db with inventoryMovements := db.inventoryMovements.put id m' } + added k m =
      ledger k db + added k m' := by
  have hmoved (type : MovementType) :
      moved type k { db with inventoryMovements := db.inventoryMovements.put id m' } +
        quantityOf type k m = moved type k db + quantityOf type k m' := Table.total_put h
  have hin := hmoved .in
  have hout := hmoved .out
  unfold ledger added
  show stockOf db k + _ - _ + _ = _
  linarith

lemma ledger_erase (h : db.inventoryMovements.find? id = some m) :
    ledger k { db with inventoryMovements := db.inventoryMovements.erase id } + added k m =
      ledger k db := by
  have hmoved (type : MovementType) :
      moved type k { db with inventoryMovements := db.inventoryMovements.erase id } +
        quantityOf type k m = moved type k db := Table.total_erase h
  have hin := hmoved .in
  have hout := hmoved .out
  unfold ledger added
  show stockOf db k + _ - _ + _ = _
  linarith

/-! ### What is refused -/

lemma inventoryItems_run (ops : List Op) :
    (run step db ops).inventoryItems = db.inventoryItems :=
  run_of_step (P := fun s : Db => s.inventoryItems = db.inventoryItems)
    (fun _ op h => (step_inventoryItems op).trans h) rfl

lemma stockOf_congr {db' : Db} (h : db'.inventoryItems = db.inventoryItems) :
    stockOf db' k = stockOf db k := by
  unfold stockOf
  rw [h]

/-- **The guard.** After any calls of the service, a movement out of an item is accepted exactly
when the ledger of the item has it, if and only if its quantity is not between the opening
stock and the ledger: above the smaller of the two and up to the larger. -/
theorem out_accepted_iff (hitem : (db.inventoryItems.find? k).isSome) (ops : List Op) (newId : Id)
    (hnew : (run step db ops).inventoryMovements.find? newId = none)
    (dto : CreateInventoryMovementDto) (hk : dto.inventoryItemId = k) (hout : dto.type = .out) :
    ((create newId dto).Accepts (run step db ops) ↔
      (dto.quantity : ℚ) ≤
        stockOf db k + moved .in k (run step db ops) - moved .out k (run step db ops)) ↔
    (dto.quantity : ℚ) ∉ Set.uIoc (stockOf db k) (ledger k (run step db ops)) := by
  have hitems : (run step db ops).inventoryItems = db.inventoryItems := inventoryItems_run ops
  -- the check reads the stock of the item, which no movement writes
  have haccepts : (create newId dto).Accepts (run step db ops) ↔
      (dto.quantity : ℚ) ≤ stockOf db k := by
    rw [accepts_create_iff, Checked, hk, hitems, stockOf_congr hitems]
    simp [hitem, hnew, hout]
  have hledger : ledger k (run step db ops) =
      stockOf db k + moved .in k (run step db ops) - moved .out k (run step db ops) := by
    rw [ledger, stockOf_congr hitems]
  rw [haccepts, ← hledger, Set.mem_uIoc]
  rcases le_or_gt (dto.quantity : ℚ) (stockOf db k) with h1 | h1 <;>
    rcases le_or_gt (dto.quantity : ℚ) (ledger k (run step db ops)) with h2 | h2
  · simp [h1, h2, h1.not_gt, h2.not_gt]
  · simp [h1, h2, h2.not_ge]
  · simp [h1, h2, h1.not_ge]
  · simp [h1.not_ge, h2.not_ge]

/-- A store room with ten kilos of beans. -/
def storeRoom : Db where
  inventoryItems := (∅ : Table Id InventoryItem).put "beans"
    { code := "BEANS", name := "Beans", unitOfMeasure := "kg", currentStock := some 10 }

/-- Beans that are used up. -/
def usage (quantity : Positive) : CreateInventoryMovementDto :=
  { inventoryItemId := "beans", type := .out, reason := .usage, quantity }

def delivery (quantity : Positive) : CreateInventoryMovementDto :=
  { inventoryItemId := "beans", type := .in, reason := .purchase, quantity }

/-- A delivery, and a usage that the store room had the beans for. -/
def firstWeek : List Op :=
  [.create "d1" (delivery ⟨5, by decide +kernel⟩), .create "u1" (usage ⟨10, by decide +kernel⟩)]

/-- Five kilos are left: four are granted as they should be. -/
theorem out_accepted_iff_firstWeek :
    (((create "u2" (usage ⟨4, by decide +kernel⟩)).Accepts (run step storeRoom firstWeek) ↔
      (4 : ℚ) ≤ stockOf storeRoom "beans" + moved .in "beans" (run step storeRoom firstWeek) -
        moved .out "beans" (run step storeRoom firstWeek)) ↔
    (4 : ℚ) ∉ Set.uIoc (stockOf storeRoom "beans")
      (ledger "beans" (run step storeRoom firstWeek))) ∧
    moved .in "beans" (run step storeRoom firstWeek) = 5 ∧
    moved .out "beans" (run step storeRoom firstWeek) = 10 :=
  ⟨out_accepted_iff (by decide +kernel) firstWeek "u2" (by decide +kernel)
    (usage ⟨4, by decide +kernel⟩) rfl rfl, by decide +kernel, by decide +kernel⟩

/-- All beans are used up, and four more kilos are used all the same. -/
theorem out_overdrawn :
    let db := run step storeRoom [.create "u1" (usage ⟨10, by decide +kernel⟩)]
    (create "u2" (usage ⟨4, by decide +kernel⟩)).Accepts db ∧
      ¬ (4 : ℚ) ≤ stockOf storeRoom "beans" + moved .in "beans" db - moved .out "beans" db := by
  decide +kernel

/-! ### Never below zero -/

/-- No item has a ledger below zero. -/
def Nonneg (db : Db) : Prop := ∀ k, (db.inventoryItems.find? k).isSome → 0 ≤ ledger k db

/-- What the call takes out of an item is in its ledger. -/
def Covered (db : Db) : Op → Prop
  | .create newId dto => Checked db dto → db.inventoryMovements.find? newId = none →
    0 ≤ ledger dto.inventoryItemId db + added dto.inventoryItemId dto.row
  | .update id dto => ∀ m m', db.inventoryMovements.find? id = some m → dto.apply m = some m' →
    ∀ k, (db.inventoryItems.find? k).isSome → added k m - added k m' ≤ ledger k db
  | .remove id => ∀ m, db.inventoryMovements.find? id = some m →
    ∀ k, (db.inventoryItems.find? k).isSome → added k m ≤ ledger k db

lemma added_of_ne (h : m.inventoryItemId ≠ k) : added k m = 0 := by
  unfold added quantityOf
  simp [h]

lemma nonneg_create_iff (newId : Id) (dto : CreateInventoryMovementDto) (h : Nonneg db) :
    Nonneg (step db (.create newId dto)) ↔ Covered db (.create newId dto) := by
  rw [step_create]
  by_cases hc : Checked db dto ∧ db.inventoryMovements.find? newId = none
  swap
  · rw [if_neg hc]
    exact iff_of_true h fun h1 h2 => absurd ⟨h1, h2⟩ hc
  rw [if_pos hc]
  refine ⟨fun h' _ _ => ?_, fun hcov k hk => ?_⟩
  · have := h' dto.inventoryItemId hc.1.1
    rwa [ledger_put_new hc.2] at this
  · rw [ledger_put_new hc.2]
    by_cases hkey : dto.row.inventoryItemId = k
    · subst hkey
      exact hcov hc.1 hc.2
    · rw [added_of_ne hkey, add_zero]
      exact h k hk

lemma nonneg_update_iff (dto : UpdateInventoryMovementDto) (h : Nonneg db) :
    Nonneg (step db (.update id dto)) ↔ Covered db (.update id dto) := by
  rw [step_update]
  rcases hm : db.inventoryMovements.find? id with _ | m
  · exact iff_of_true h fun _ _ h' => by rw [hm] at h'; cases h'
  dsimp only
  rcases ha : dto.apply m with _ | m'
  · refine iff_of_true h fun m₁ m₂ h₁ h₂ => ?_
    obtain rfl : m = m₁ := Option.some.inj (hm.symm.trans h₁)
    rw [ha] at h₂; cases h₂
  refine ⟨fun h' m₁ m₂ h₁ h₂ k hk => ?_, fun hcov k hk => ?_⟩
  · obtain rfl : m = m₁ := Option.some.inj (hm.symm.trans h₁)
    obtain rfl : m' = m₂ := Option.some.inj (ha.symm.trans h₂)
    have hput : ledger k { db with inventoryMovements := db.inventoryMovements.put id m' } +
        added k m = ledger k db + added k m' := ledger_put hm
    have := h' k hk
    linarith
  · -- the ledger moves by the difference of what the two rows bring
    have hput : ledger k { db with inventoryMovements := db.inventoryMovements.put id m' } +
        added k m = ledger k db + added k m' := ledger_put hm
    have := hcov m m' hm ha k hk
    linarith

lemma nonneg_remove_iff (h : Nonneg db) :
    Nonneg (step db (.remove id)) ↔ Covered db (.remove id) := by
  rw [step_remove]
  rcases hm : db.inventoryMovements.find? id with _ | m
  · exact iff_of_true h fun _ h' => by rw [hm] at h'; cases h'
  refine ⟨fun h' m₁ h₁ k hk => ?_, fun hcov k hk => ?_⟩
  · obtain rfl : m = m₁ := Option.some.inj (hm.symm.trans h₁)
    have herase : ledger k { db with inventoryMovements := db.inventoryMovements.erase id } +
        added k m = ledger k db := ledger_erase hm
    have := h' k hk
    linarith
  · have herase : ledger k { db with inventoryMovements := db.inventoryMovements.erase id } +
        added k m = ledger k db := ledger_erase hm
    have := hcov m hm k hk
    linarith

/-- **Runs.** A run keeps every ledger from falling below zero throughout exactly when each of
its calls is covered. -/
theorem nonneg_always_iff (h : Nonneg db) (ops : List Op) :
    Always step Nonneg db ops ↔ Along step Covered db ops := by
  refine always_iff_along (fun db op h => ?_) h
  cases op with
  | create newId dto => exact nonneg_create_iff newId dto h
  | update id dto => exact nonneg_update_iff dto h
  | remove id => exact nonneg_remove_iff h

/-- **Edits.** An update or a removal of a movement keeps every ledger from falling below zero
exactly when what it takes out of an item is in the ledger of the item. -/
theorem edits_nonneg_iff (h : Nonneg db) :
    (∀ id dto, Nonneg (step db (.update id dto)) ↔ Covered db (.update id dto)) ∧
    (∀ id, Nonneg (step db (.remove id)) ↔ Covered db (.remove id)) :=
  ⟨fun _ dto => nonneg_update_iff dto h, fun _ => nonneg_remove_iff h⟩

lemma nonneg_of_beans (hitems : db.inventoryItems = storeRoom.inventoryItems)
    (h : 0 ≤ ledger "beans" db) : Nonneg db := by
  intro k hk
  by_cases hkey : k = "beans"
  · subst hkey
    exact h
  · rw [hitems, storeRoom, Table.find?_put_ne hkey] at hk
    cases hk

/-- After the first week the usage is raised to twelve kilos, or the delivery is removed: both are
accepted, and the ledger has what they take out. -/
theorem edits_nonneg_iff_firstWeek :
    let db := run step storeRoom firstWeek
    let raised : UpdateInventoryMovementDto := { quantity := .val ⟨12, by decide +kernel⟩ }
    Nonneg db ∧
    ((∀ id dto, Nonneg (step db (.update id dto)) ↔ Covered db (.update id dto)) ∧
      (∀ id, Nonneg (step db (.remove id)) ↔ Covered db (.remove id))) ∧
    (update "u1" raised).Accepts db ∧ Nonneg (step db (.update "u1" raised)) ∧
    (remove "d1").Accepts db ∧ Nonneg (step db (.remove "d1")) := by
  have h : Nonneg (run step storeRoom firstWeek) :=
    nonneg_of_beans (inventoryItems_run _) (by decide +kernel)
  refine ⟨h, edits_nonneg_iff h, by decide +kernel, ?_, by decide +kernel, ?_⟩
  · exact nonneg_of_beans ((step_inventoryItems _).trans (inventoryItems_run _)) (by decide +kernel)
  · exact nonneg_of_beans ((step_inventoryItems _).trans (inventoryItems_run _)) (by decide +kernel)

/-- A usage is raised over the stock, and a delivery is removed that was used up. -/
theorem edits_overdraw :
    (let db := run step storeRoom [.create "u1" (usage ⟨10, by decide +kernel⟩)]
     Nonneg db ∧ ¬ Nonneg (step db (.update "u1" { quantity := .val ⟨15, by decide +kernel⟩ }))) ∧
    (let db := run step storeRoom [.create "d1" (delivery ⟨5, by decide +kernel⟩),
       .create "u1" (usage ⟨10, by decide +kernel⟩), .create "u2" (usage ⟨5, by decide +kernel⟩)]
     Nonneg db ∧ ¬ Nonneg (step db (.remove "d1"))) := by
  have below {db : Db} (hitem : (db.inventoryItems.find? "beans").isSome)
      (hlt : ledger "beans" db < 0) : ¬ Nonneg db :=
    fun h => absurd (h "beans" hitem) (not_le.mpr hlt)
  refine ⟨⟨?_, ?_⟩, ?_, ?_⟩
  · exact nonneg_of_beans (inventoryItems_run _) (by decide +kernel)
  · exact below (by decide +kernel) (by decide +kernel)
  · exact nonneg_of_beans (inventoryItems_run _) (by decide +kernel)
  · exact below (by decide +kernel) (by decide +kernel)

end CoffeeOs.StockLedger

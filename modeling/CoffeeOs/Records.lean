import CoffeeOs.AnyOrder
import CoffeeOs.OrderLife

/-!
What is recorded while the calls of all services are under way.

A call that creates a row draws an id for it that no other call draws and no row has, and stores the
row last. So a row appears at most once, and what one call has recorded no other call takes back.
-/

namespace CoffeeOs.Records

open CoffeeOs.AnyOrder CoffeeOs.Interleaving CoffeeOs.Interleaving.Pool CoffeeOs.Permanence
open CoffeeOs.RelyGuarantee CoffeeOs.Requests CoffeeOs.Requests.Request CoffeeOs.Runs
open CoffeeOs.Schema CoffeeOs.Terms
open CoffeeOs.Services (Op TableName)

variable (midnight : Instant → Instant) (fold : String → String)

/-! ### Calls that create a row -/

lemma writesLast_transactions_create (newId : Id) (dto : Transactions.CreateTransactionDto) :
    (Transactions.create newId dto).WritesLast := by
  unfold Transactions.create
  split
  · exact ((onlyLooks_look _).bind fun _ => onlyLooks_throwIf).writesLast fun _ => .atomically _
  · exact .atomically _

lemma writesLast_inventoryMovements_create (newId : Id)
    (dto : InventoryMovements.CreateInventoryMovementDto) :
    (InventoryMovements.create newId dto).WritesLast := by
  refine Delegate.onlyLooks_findUnique.writesLast fun _ => onlyLooks_orThrow.writesLast fun _ => ?_
  split
  · exact (onlyLooks_look _).writesLast fun _ => onlyLooks_throwIf.writesLast fun _ =>
      Delegate.writesLast_create
  · exact Delegate.writesLast_create

lemma writesLast_recipes_create (newId : Id) (dto : Recipes.CreateRecipeDto) :
    (Recipes.create newId dto).WritesLast := by
  refine Delegate.onlyLooks_findUnique.writesLast fun _ => onlyLooks_orThrow.writesLast fun _ => ?_
  split
  · exact (onlyLooks_verifyIngredients _).writesLast fun _ => .atomically _
  · exact .atomically _

/-- A call that creates a row does so last. -/
lemma writesLast_request {op : Op} (h : (creates op).isSome) :
    (request midnight fold op).WritesLast := by
  cases op with
  | transactions op =>
    cases op with
    | create newId dto => exact (writesLast_transactions_create newId dto).map _
    | _ => cases h
  | payments op =>
    cases op with
    | create newId dto =>
      refine WritesLast.map ?_ _
      exact Delegate.onlyLooks_findUnique.writesLast fun _ => onlyLooks_orThrow.writesLast fun _ =>
        Delegate.writesLast_create
    | _ => cases h
  | orders op =>
    cases op with
    | create newId dto now createdAt => exact OrderLife.writesLast_create.map _
    | _ => cases h
  | categories op =>
    cases op with
    | create newId dto =>
      refine WritesLast.map ?_ _
      exact (onlyLooks_look _).writesLast fun _ => onlyLooks_throwIf.writesLast fun _ =>
        (onlyLooks_look _).writesLast fun _ => Delegate.writesLast_createFrom
    | _ => cases h
  | products op =>
    cases op with
    | create newId dto =>
      refine WritesLast.map ?_ _
      exact (onlyLooks_look _).writesLast fun _ => onlyLooks_throwIf.writesLast fun _ =>
        (onlyLooks_verifyCategory _).writesLast fun _ => Delegate.writesLast_createFrom
    | _ => cases h
  | modifiers op =>
    cases op with
    | create newId dto =>
      refine WritesLast.map ?_ _
      exact (onlyLooks_look _).writesLast fun _ => onlyLooks_throwIf.writesLast fun _ =>
        Delegate.writesLast_createFrom
    | _ => cases h
  | discounts op _ =>
    cases op with
    | create newId dto =>
      refine WritesLast.map ?_ _
      exact (onlyLooks_look _).writesLast fun _ => onlyLooks_throwIf.writesLast fun _ =>
        onlyLooks_throwIf.writesLast fun _ => onlyLooks_throwIf.writesLast fun _ =>
          onlyLooks_throwIf.writesLast fun _ => Delegate.writesLast_createFrom
    | _ => cases h
  | inventoryItems op =>
    cases op with
    | create newId dto =>
      refine WritesLast.map ?_ _
      exact (onlyLooks_look _).writesLast fun _ => onlyLooks_throwIf.writesLast fun _ =>
        (onlyLooks_verifySupplier _).writesLast fun _ => Delegate.writesLast_createFrom
    | _ => cases h
  | inventoryMovements op =>
    cases op with
    | create newId dto => exact (writesLast_inventoryMovements_create newId dto).map _
    | _ => cases h
  | suppliers op =>
    cases op with
    | create newId dto =>
      refine WritesLast.map ?_ _
      exact (onlyLooks_look _).writesLast fun _ => onlyLooks_throwIf.writesLast fun _ =>
        Delegate.writesLast_create
    | _ => cases h
  | recipes op _ =>
    cases op with
    | create newId dto => exact (writesLast_recipes_create newId dto).map _
    | _ => cases h
  | shifts op =>
    cases op with
    | create newId dto now =>
      refine WritesLast.map ?_ _
      exact (onlyLooks_look _).writesLast fun _ => onlyLooks_throwIf.writesLast fun _ =>
        Delegate.writesLast_create
    | _ => cases h
  | cashRegisters op =>
    cases op with
    | create newId dto => exact Delegate.writesLast_create.map _
    | _ => cases h
  | taxes op =>
    cases op with
    | create newId dto => exact Delegate.writesLast_createFrom.map _
    | _ => cases h

/-! ### Runs -/

variable {ι : Type} [DecidableEq ι] (db : Db) (ops : ι → Op) (is : List ι)

/-- The calls, none of which has had a turn. -/
def start : Pool ι Db Error Unit := ⟨db, fun i => request midnight fold (ops i)⟩

/-- Each call that creates a row draws an id of its own for it, which no row has. -/
structure Drawn : Prop where
  once : ∀ i j t id, creates (ops i) = some (t, id) → creates (ops j) = some (t, id) → i = j
  fresh : ∀ i t id, creates (ops i) = some (t, id) → Absent db t id

/-- A call that is under way after these turns is going to create the row, which has not been there
before. -/
structure Awaited (t : TableName) (id : Id) : Prop where
  pending : ∃ i, creates (ops i) = some (t, id) ∧
    (run Pool.step (start midnight fold db ops) is).Pending i
  never : Always Pool.step (fun q => Absent q.store t id) (start midnight fold db ops) is

/-- A call that is under way after these turns is going to remove the register. -/
def Doomed (id : Id) : Prop := ∃ i, removes (ops i) = some id ∧
  (run Pool.step (start midnight fold db ops) is).Pending i

variable {db ops is}

/-- What a call owes, as long as it is under way. -/
def owed (db : Db) (ops : ι → Op) (i : ι) : Contract (Given db Db.WellFormed) :=
  terms db (fun t id => creates (ops i) = some (t, id)) fun id => removes (ops i) = some id

omit [DecidableEq ι] in
lemma honours_owed (i : ι) : Honours (owed db ops i) (request midnight fold (ops i)) :=
  honours_request midnight fold (ops i) (fun _ _ h => h) fun _ h => h

/-- A row is not there before the call that creates it has made its last call. -/
lemma absent_of_pending (hdrawn : Drawn db ops) {i : ι} {t : TableName} {id : Id}
    (hi : creates (ops i) = some (t, id))
    (hpending : (run Pool.step (start midnight fold db ops) is).Pending i) :
    Absent (run Pool.step (start midnight fold db ops) is).store t id := by
  have hlast : (request midnight fold (ops i)).WritesLast :=
    writesLast_request midnight fold (Option.isSome_of_eq_some hi)
  refine holds_while_pending (p := start midnight fold db ops) (D := owed db ops)
    (A := fun s => Absent s t id) (honours_owed midnight fold) (fun h => h) hlast ?_
    (hdrawn.fresh i t id hi) hpending
  exact fun j hj s u hallows => Permanent.absent hallows fun hj' =>
    hj (hdrawn.once j i t id hj' hi)

/-- **Records stay.** Whatever calls of the API are under way and in whatever order their turns
come, nothing that is recorded at one turn is taken back until a later one. -/
theorem records_stay (hdrawn : Drawn db ops) (js : List ι) :
    Permanent (Awaited midnight fold db ops is) (Doomed midnight fold db ops is)
      (run Pool.step (start midnight fold db ops) is).store
      (run Pool.step (start midnight fold db ops) (is ++ js)).store := by
  obtain ⟨howed, hinv⟩ := upheld_run (p := start midnight fold db ops) (D := owed db ops)
    (honours_owed midnight fold) (fun h => h) is
  -- what a request may still write is only what it owed at the start
  have hrest : ∀ i, Honours
      (terms db (Awaited midnight fold db ops is) (Doomed midnight fold db ops is))
      ((run Pool.step (start midnight fold db ops) is).requests i) := by
    intro i
    rcases hreq : (run Pool.step (start midnight fold db ops) is).requests i with r | ⟨w, rest⟩
    · exact honours_of_onlyLooks (.done r)
    -- a request that has not answered has not created its row yet
    have hpending : (run Pool.step (start midnight fold db ops) is).Pending i :=
      pending_iff.mpr ⟨w, rest, hreq⟩
    rw [← hreq]
    refine Upholds.mono (C := owed db ops i) (fun s u h => Permanent.mono h
      (fun t id hi => ⟨⟨i, hi, hpending⟩, always_iff.mpr fun pre post his => ?_⟩)
      fun id hi => ⟨i, hi, hpending⟩) (howed i)
    rw [his, run_append] at hpending
    exact absent_of_pending midnight fold hdrawn hi (pending_of_run hpending)
  rw [run_append]
  exact (permits_run hrest hinv js).allows

lemma drawn_morning : Drawn ∅ morning where
  once i j t id hi hj := by
    have hids : ∀ i j, (creates (morning i)).isSome → creates (morning i) = creates (morning j) →
        i = j := by decide
    exact hids i j (Option.isSome_of_eq_some hi) (hi.trans hj.symm)
  fresh _ t _ _ := by cases t <;> trivial

/-- The shift is open and the first order on its way when the till is set up. -/
theorem records_stay_morning :
    Permanent (Awaited (fun t => t) String.toLower ∅ morning [0, 4, 0])
      (Doomed (fun t => t) String.toLower ∅ morning [0, 4, 0])
      (run Pool.step (start (fun t => t) String.toLower ∅ morning) [0, 4, 0]).store
      (run Pool.step (start (fun t => t) String.toLower ∅ morning)
        ([0, 4, 0] ++ [1, 2, 4, 1, 3])).store :=
  records_stay (fun t => t) String.toLower drawn_morning [1, 2, 4, 1, 3]

end CoffeeOs.Records

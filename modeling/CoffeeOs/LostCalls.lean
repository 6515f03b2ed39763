import CoffeeOs.CashRegisters
import CoffeeOs.Faults
import CoffeeOs.Recipes
import CoffeeOs.TransactionSpec

/-!
Operations of several writes, one of whose calls is lost.

No operation runs in a transaction of the database, so that an operation that throws after its
first write leaves what it has written. Each of the operations that write more than once is
followed to every place where it may throw, and what it leaves there is given by the number of the
call that is lost.
-/

namespace CoffeeOs.LostCalls

open CoffeeOs.CashRegisters CoffeeOs.Faults CoffeeOs.KeyedTable CoffeeOs.Payload
open CoffeeOs.Requests CoffeeOs.Requests.Request CoffeeOs.Schema CoffeeOs.Transactions
open CoffeeOs.TransactionSpec

variable {db : Db} {id : Id}

/-! ### The tables between the writes -/

lemma apply_eq_none {dto : UpdateTransactionDto} {row : Transaction} (h : dto.apply row = none) :
    dto.status = .null := by
  unfold UpdateTransactionDto.apply at h
  rw [Option.map_eq_none_iff] at h
  rcases hs : dto.status with _ | _ | status
  · rw [hs] at h; cases h
  · rfl
  · rw [hs] at h; cases h

/-- The payload writes `null` to a required column. -/
def NullsRequired (dto : Recipes.UpdateRecipeDto) : Prop :=
  dto.productId = .null ∨ dto.name = .null ∨ dto.active = .null

lemma apply_recipe_eq_none {dto : Recipes.UpdateRecipeDto} {row : Recipe}
    (h : dto.apply row = none) : NullsRequired dto := by
  by_contra hnulls
  obtain ⟨hproduct, hname, hactive⟩ : dto.productId ≠ .null ∧ dto.name ≠ .null ∧
      dto.active ≠ .null := by simpa [NullsRequired] using hnulls
  unfold Recipes.UpdateRecipeDto.apply at h
  rw [Property.intoRequired_of_ne_null hproduct, Property.intoRequired_of_ne_null hname,
    Property.intoRequired_of_ne_null hactive] at h
  cases h

/-- What is left of an update once it has checked the product. -/
def replacing (id : Id) (dto : Recipes.UpdateRecipeDto) : Api Recipes.RecipeView := do
  if 0 < dto.items.length then
    Recipes.verifyIngredients dto.items
    Recipes.deleteIngredients id
  Recipes.writeUpdate id dto

section Counts

variable {lost : Error} {entries : List (ℚ × ℚ)} {fuse : Option ℕ}

/-- The calls that create the rows of a count. -/
def creates (lost : Error) (id : Id) (entries : List (ℚ × ℚ)) :
    Request (Db × Option ℕ) Error (List (Option CashDenomination)) :=
  all (entries.map fun entry => if entry.2 = 0 then pure none
    else some <$> losing lost (createDenomination (denominationRow id entry)))

/-- The calls of a count after the creations: the one that writes the sum and the one that reads
the register again. -/
def counted (lost : Error) (id : Id) (total : ℚ) :
    Request (Db × Option ℕ) Error CashRegisterView := do
  let _ ← losing lost (writeCounted id total)
  losing lost (CashRegisters.findOne id)

variable {dto : RecordDenominationDto}

variable {row : CashRegister}

end Counts

/-! ### The four operations -/

inductive Call
  | updateTransaction (id : Id) (dto : UpdateTransactionDto)
  | removeTransaction (id : Id)
  | updateRecipe (id : Id) (dto : Recipes.UpdateRecipeDto)
  | recordDenominations (id : Id) (dto : RecordDenominationDto)

/-- The calls that an operation makes if none is lost. -/
def Call.calls (db : Db) : Call → ℕ
  | .updateTransaction id dto => Faults.calls (Transactions.update id dto) db
  | .removeTransaction id => Faults.calls (Transactions.remove id) db
  | .updateRecipe id dto => Faults.calls (Recipes.update id dto) db
  | .recordDenominations id dto => Faults.calls (CashRegisters.recordDenominations id dto) db

/-- A pending sale with a payment, a recipe with an ingredient, and a register. -/
def shop : Db :=
  { transactions := (∅ : Table Id Transaction).put "sale" { status := .pending }
    lineItems := [{ transactionId := "sale", productId := "latte", quantity := 2, unitPrice := 45 }]
    payments := (∅ : Table Id Payment).put "cash"
      { transactionId := "sale", amount := 90, method := .cash, status := .completed }
    products := (∅ : Table Id Product).put "latte"
      { categoryId := "coffee", sku := "LATTE", name := "Latte", price := 45 }
    inventoryItems := (∅ : Table Id InventoryItem).put "milk"
      { code := "MILK", name := "Milk", unitOfMeasure := "ml" }
    recipes := (∅ : Table Id Recipe).put "recipe" { productId := "latte", name := "Latte" }
    recipeIngredients :=
      [{ recipeId := "recipe", inventoryItemId := "milk", quantity := 200, unit := "ml" }]
    cashRegisters := (∅ : Table Id CashRegister).put "till"
      { shiftId := "day", expectedCash := 500, locationId := "bar", organizationId := "shop" } }

end CoffeeOs.LostCalls

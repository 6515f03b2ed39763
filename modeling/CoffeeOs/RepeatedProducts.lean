import CoffeeOs.TransactionTotals

/-!
Line items that name a product more than once.

The check of the products compares how many are found with how many ids there are. A product that
is named twice is found once, so the check takes it for one that is missing.
-/

namespace CoffeeOs.RepeatedProducts

open CoffeeOs.KeyedTable CoffeeOs.Payload CoffeeOs.Requests CoffeeOs.Requests.Request
open CoffeeOs.Schema CoffeeOs.Transactions CoffeeOs.TransactionSpec
open CoffeeOs.TransactionTotals (bar)

def Rejects {α : Type} (p : Api α) (db : Db) : Prop :=
  (p.exec db).1 = .error (.badRequest "One or more products not found")

/-- The product of some line item is not stored. -/
def Missing (db : Db) (items : List TransactionLineItemDto) : Prop :=
  ∃ item ∈ items, db.products.find? item.productId = none

/-- No two line items name the same product. -/
def Distinct (items : List TransactionLineItemDto) : Prop := (items.map (·.productId)).Nodup

instance (items : List TransactionLineItemDto) : Decidable (Distinct items) :=
  inferInstanceAs (Decidable (List.Nodup _))

variable {db : Db} {id : Id} {row : Transaction} {items : List TransactionLineItemDto}

lemma not_missing_iff : ¬ Missing db items ↔
    ∀ k ∈ items.map (·.productId), (db.products.find? k).isSome := by
  simp [Missing, Option.isSome_iff_ne_none]

/-- The check is about missing products unless it is the repetition alone that fails it. -/
lemma verified_iff_not_missing_iff :
    (¬ Verified db items ↔ Missing db items) ↔ Distinct items ∨ Missing db items := by
  have hverified : Verified db items ↔ Distinct items ∧ ¬ Missing db items := by
    rw [verified_iff, not_missing_iff, Distinct]
  rw [hverified]
  by_cases hmissing : Missing db items
  · exact iff_of_true (iff_of_true (fun h => h.2 hmissing) hmissing) (Or.inr hmissing)
  · simp [hmissing]

lemma rejects_create_iff (newId : Id) (dto : CreateTransactionDto) :
    Rejects (create newId dto) db ↔ ¬ Verified db dto.lineItems := by
  unfold Rejects
  rw [exec_create]
  by_cases hverified : Verified db dto.lineItems
  · rw [if_neg (not_not.mpr hverified)]
    refine iff_of_false ?_ (not_not.mpr hverified)
    rcases db.transactions.find? newId with _ | row <;> simp
  · rw [if_pos hverified]
    exact iff_of_true rfl hverified

lemma rejects_update_iff (dto : UpdateTransactionDto) (hrow : db.transactions.find? id = some row)
    (hopen : row.status ≠ .completed) :
    Rejects (update id dto) db ↔ ¬ Verified db dto.items := by
  unfold Rejects
  rw [exec_update, hrow]
  dsimp only
  rw [if_neg hopen]
  by_cases hverified : Verified db dto.items
  · rw [if_neg (not_not.mpr hverified)]
    refine iff_of_false ?_ (not_not.mpr hverified)
    rcases dto.apply row with _ | row' <;> simp
  · rw [if_pos hverified]
    exact iff_of_true rfl hverified

/-- **The check of the products.** `create`, and `update` of a transaction that is not completed,
reject the line items for a missing product and for nothing else exactly if no product is
repeated or some product is missing indeed. -/
theorem rejects_missing_iff (db : Db) :
    (∀ newId (dto : CreateTransactionDto),
      (Rejects (create newId dto) db ↔ Missing db dto.lineItems) ↔
        Distinct dto.lineItems ∨ Missing db dto.lineItems) ∧
    ∀ id row (dto : UpdateTransactionDto), db.transactions.find? id = some row →
      row.status ≠ .completed →
      ((Rejects (update id dto) db ↔ Missing db dto.items) ↔
        Distinct dto.items ∨ Missing db dto.items) := by
  refine ⟨fun newId dto => ?_, fun id row dto hrow hopen => ?_⟩
  · rw [rejects_create_iff]
    exact verified_iff_not_missing_iff
  · rw [rejects_update_iff dto hrow hopen]
    exact verified_iff_not_missing_iff

/-- A latte with oat milk, and one without. -/
def lattes : List TransactionLineItemDto :=
  [{ productId := "latte", quantity := .least _, unitPrice := .ofNat 45
     modifiers := .val ["oat"] },
   { productId := "latte", quantity := .least _, unitPrice := .ofNat 45 }]

/-- A sale of nothing yet. -/
def opened : Db := { bar with
  transactions := (∅ : Table Id Transaction).put "sale" { status := .pending } }

theorem lattes_rejects_missing_iff :
    ((Rejects (create "next" { lineItems := lattes }) opened ↔ Missing opened lattes) ↔
      Distinct lattes ∨ Missing opened lattes) ∧
    ((Rejects (update "sale" { lineItems := .val lattes }) opened ↔ Missing opened lattes) ↔
      Distinct lattes ∨ Missing opened lattes) :=
  ⟨(rejects_missing_iff opened).1 "next" { lineItems := lattes },
    (rejects_missing_iff opened).2 "sale" { status := .pending } { lineItems := .val lattes } rfl
      (by decide)⟩

/-- Both calls reject the two lattes, though the shop sells lattes. -/
theorem lattes_rejected : ¬ Missing opened lattes ∧
    Rejects (create "next" { lineItems := lattes }) opened ∧
    Rejects (update "sale" { lineItems := .val lattes }) opened := by
  have hrepeated : ¬ Verified opened lattes := by decide +kernel
  exact ⟨not_missing_iff.mpr (by decide), (rejects_create_iff "next" _).mpr hrepeated,
    (rejects_update_iff _ rfl (by decide)).mpr hrepeated⟩

end CoffeeOs.RepeatedProducts

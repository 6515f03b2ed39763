import CoffeeOs.Discounts
import CoffeeOs.InventoryItems
import CoffeeOs.Products
import CoffeeOs.Suppliers

/-!
Codes that no two rows share.

Four services look for a code before they store it, each in a way of its own: three pass over an
update that keeps the code, the fourth looks for the code in any case and lets its own row have
it. What is looked for stays free until the same call stores it.

The database has an index on each of these columns, which is left out here: while the calls come
one after another it has nothing to refuse.
-/

namespace CoffeeOs.Codes

open CoffeeOs.KeyedTable CoffeeOs.Payload CoffeeOs.Schema

variable {db : Db} {id : Id}

/-- No two products have the same SKU, and no two items, suppliers or discounts the same code. -/
structure CodesUnique (db : Db) : Prop where
  products : db.products.Unique Product.sku
  inventoryItems : db.inventoryItems.Unique InventoryItem.code
  suppliers : db.suppliers.Unique Supplier.code
  discounts : db.discounts.Unique Discount.code

/-- The payload carries no empty code: `@MinLength(2)`. -/
def Validated : Discounts.Op → Prop
  | .update _ dto => dto.code ≠ .val ""
  | _ => True

lemma codesUnique_empty : CodesUnique ∅ :=
  ⟨Table.unique_empty, Table.unique_empty, Table.unique_empty, Table.unique_empty⟩

/-! ### Rows with a code that is free -/

section Free

variable {ρ : Type} {column : ρ → String} {t : Table Id ρ} {row row' : ρ}

lemma unique_put_free (h : t.Unique column)
    (hfree : ¬ t.Any fun _ other => column other = column row) : (t.put id row).Unique column :=
  Table.unique_put h fun k other _ hother he =>
    hfree (Table.any_iff.mpr ⟨k, other, hother, decide_eq_true he⟩)

/-- A row that keeps its code or takes one that is free. -/
lemma unique_put_updated (h : t.Unique column) (hrow : t.find? id = some row)
    (hfree : column row' ≠ column row → ¬ t.Any fun _ other => column other = column row') :
    (t.put id row').Unique column := by
  by_cases hsame : column row' = column row
  · exact Table.unique_put_of_eq h hrow hsame
  · exact unique_put_free h (hfree hsame)

end Free

/-! ### The services -/

lemma products_step (op : Products.Op) (h : db.products.Unique Product.sku) :
    (Products.step db op).products.Unique Product.sku := by
  have houtcome : Products.Outcome db op (Products.step db op) := Products.step_outcome op
  generalize Products.step db op = db' at houtcome ⊢
  cases houtcome with
  | kept => exact h
  | created hchecked _ hrow =>
    refine unique_put_free h ?_
    rw [Products.row_sku hrow]
    exact hchecked.1
  | updated hrow hfree _ ha =>
    refine unique_put_updated h hrow fun hne => ?_
    obtain ⟨sku, hval, hnew⟩ := (Products.apply_sku ha).resolve_left hne
    rw [hnew] at hne ⊢
    exact hfree sku (by simp [hval, Property.toOption, Option.filter, hne])
  | retired hrow => exact Table.unique_put_of_eq h hrow rfl
  | removed => exact Table.unique_erase h

lemma inventoryItems_step (op : InventoryItems.Op)
    (h : db.inventoryItems.Unique InventoryItem.code) :
    (InventoryItems.step db op).inventoryItems.Unique InventoryItem.code := by
  have houtcome : InventoryItems.Outcome db op (InventoryItems.step db op) :=
    InventoryItems.step_outcome op
  generalize InventoryItems.step db op = db' at houtcome ⊢
  cases houtcome with
  | kept => exact h
  | created hfree _ _ hrow =>
    refine unique_put_free h ?_
    rw [(InventoryItems.row_code hrow).1]
    exact hfree
  | updated hrow hfree _ ha =>
    refine unique_put_updated h hrow fun hne => ?_
    obtain ⟨code, hval, hnew⟩ := (InventoryItems.apply_code ha).1.resolve_left hne
    rw [hnew] at hne ⊢
    exact hfree code (by simp [hval, Property.toOption, Option.filter, hne])
  | retired hrow => exact Table.unique_put_of_eq h hrow rfl
  | removed => exact Table.unique_erase h

lemma suppliers_step (op : Suppliers.Op) (h : db.suppliers.Unique Supplier.code) :
    (Suppliers.step db op).suppliers.Unique Supplier.code := by
  have houtcome : Suppliers.Outcome db op (Suppliers.step db op) := Suppliers.step_outcome op
  generalize Suppliers.step db op = db' at houtcome ⊢
  cases houtcome with
  | kept => exact h
  | created hfree => exact unique_put_free h hfree
  | updated hrow hfree ha =>
    refine unique_put_updated h hrow fun hne => ?_
    obtain ⟨code, hval, hnew⟩ := (Suppliers.apply_code ha).resolve_left hne
    rw [hnew] at hne ⊢
    exact hfree code (by simp [hval, Property.toOption, Option.filter, hne])
  | retired hrow => exact Table.unique_put_of_eq h hrow rfl
  | removed => exact Table.unique_erase h

/-- A code that the check lets an update of the discount `id` have is no other discount's. -/
lemma code_free_of_checked {d : Discount} {c : String} {k : Id} (hc : c ≠ "")
    (h : db.discounts.Unique Discount.code) (hfree : Discounts.CodeFree db id (.val c))
    (hd : db.discounts.find? k = some d) (hcode : d.code = c) : k = id := by
  have hnone := hfree c (by simp [Property.toOption, Option.filter, hc])
  rcases hfound : db.discounts.rows.find? fun e => e.2.code = c with _ | e
  · have hnot := List.find?_eq_none.mp hfound (k, d) (Table.mem_rows_iff.mpr hd)
    exact absurd (decide_eq_true hcode) hnot
  · rw [hfound] at hnone
    have he : e.1 = id := by simpa using hnone
    have hcode' : e.2.code = c := of_decide_eq_true (List.find?_some hfound :)
    have hrow : db.discounts.find? e.1 = some e.2 :=
      Table.mem_rows_iff.mp (List.mem_of_find?_eq_some hfound)
    exact (h k e.1 d e.2 hd hrow (hcode.trans hcode'.symm)).trans he

lemma discounts_put_updated {dto : Discounts.UpdateDiscountDto} {d d' : Discount}
    (hv : dto.code ≠ .val "") (h : db.discounts.Unique Discount.code)
    (hd : db.discounts.find? id = some d) (hfree : Discounts.CodeFree db id dto.code)
    (ha : dto.apply d = some d') : (db.discounts.put id d').Unique Discount.code := by
  rcases Discounts.apply_code ha with hsame | hval
  · exact Table.unique_put_of_eq h hd hsame
  rw [hval] at hv hfree
  have hc : d'.code ≠ "" := fun he => hv (by rw [he])
  exact Table.unique_put h fun k other hk hother he =>
    hk (code_free_of_checked hc h hfree hother he)

lemma discounts_step {op : Discounts.Op} (hv : Validated op)
    (h : db.discounts.Unique Discount.code) :
    (Discounts.step db op).discounts.Unique Discount.code := by
  cases op with
  | create newId dto =>
    rw [Discounts.step_create]
    split
    swap
    · exact h
    rename_i hc
    rcases hrow : dto.row with _ | row
    · exact h
    · -- the code was looked for and not found
      refine unique_put_free h ?_
      rw [Discounts.row_code hrow]
      exact hc.1.1
  | update id dto =>
    rw [Discounts.step_update]
    rcases hd : db.discounts.find? id with _ | d
    · exact h
    dsimp only
    split
    swap
    · exact h
    rename_i hc
    rcases ha : dto.apply d with _ | d'
    · exact h
    · -- the code that is written, or the one that stays, belongs to this row alone
      exact discounts_put_updated hv h hd hc.1 ha
  | activate id =>
    rw [Discounts.step_activate]
    rcases hd : db.discounts.find? id with _ | d
    · exact h
    · exact Table.unique_put_of_eq h hd rfl
  | deactivate id =>
    rw [Discounts.step_deactivate]
    rcases hd : db.discounts.find? id with _ | d
    · exact h
    · exact Table.unique_put_of_eq h hd rfl
  | incrementUsage id =>
    rw [Discounts.step_incrementUsage]
    rcases hd : db.discounts.find? id with _ | d
    · exact h
    · exact Table.unique_put_of_eq h hd rfl
  | remove id =>
    rw [Discounts.step_remove]
    rcases hd : db.discounts.find? id with _ | d
    · exact h
    · exact Table.unique_erase h

end CoffeeOs.Codes

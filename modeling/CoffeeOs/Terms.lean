import CoffeeOs.Permanence
import CoffeeOs.RelyGuarantee
import CoffeeOs.WellFormed
import Mathlib.Algebra.Order.BigOperators.Group.List

/-!
What every call owes to the rows, whatever other calls come between its own.

The contract asks that rows are well-formed if they were at the start, and that what is recorded
stays. Of a table it asks the same of each row, so that calls of the client keep to it if the row
that they write does.
-/

namespace CoffeeOs.Terms

open CoffeeOs.Interleaving CoffeeOs.KeyedTable CoffeeOs.Payload CoffeeOs.RelyGuarantee
open CoffeeOs.Requests CoffeeOs.Requests.Request CoffeeOs.Runs CoffeeOs.Schema
open CoffeeOs.Permanence
open CoffeeOs.Services (Op TableName)

/-! ### The contract -/

section Contract

variable (db₀ : Db) (born : TableName → Id → Prop) (gone : Id → Prop)

/-- The row has the property, if the rows of `db₀` are well-formed. -/
def Given {ρ : Type} (db₀ : Db) (P : ρ → Prop) (row : ρ) : Prop := db₀.WellFormed → P row

/-- Rows are well-formed, if those of `db₀` are, and what is recorded stays. -/
def terms : Contract (Given db₀ Db.WellFormed) where
  allows := Permanent born gone
  refl := .refl
  trans := .trans

end Contract

/-! ### The calls of the client -/

section Delegates

variable {ρ α β : Type} {I : Db → Prop} {C : Contract I} {new : Id → Prop} {d : Delegate ρ}
  {P : ρ → Prop} {R : ρ → ρ → Prop} {id : Id} {row : ρ} {f : ρ → Option ρ}

/-- Of the table the contract asks that all rows have `P`, that rows appear where they are `new`,
and that they change as `R` has it, and no more. -/
structure Demands (C : Contract I) (new : Id → Prop) (d : Delegate ρ) (P : ρ → Prop)
    (R : ρ → ρ → Prop) : Prop where
  each : ∀ {db}, I db → ∀ row ∈ (d.get db).values, P row
  set : ∀ {db t}, I db → (∀ row ∈ t.values, P row) → Steady new R (d.get db) t →
    C.Permits db (d.set t db)
  refl : ∀ row, R row row

lemma Demands.found (hd : Demands C new d P R) {db : Db} (hdb : I db)
    (h : (d.get db).find? id = some row) : P row :=
  hd.each hdb row (Table.mem_values_iff.mpr ⟨id, h⟩)

lemma Demands.put (hd : Demands C new d P R) {db : Db} (hdb : I db) (hid : new id)
    (hrow : P row) : C.Permits db (d.set ((d.get db).put id row) db) :=
  hd.set hdb (fun r hr => (Table.of_mem_values_put hr).elim (fun he => he ▸ hrow) (hd.each hdb r))
    (.create hd.refl hid)

lemma Demands.rewrite (hd : Demands C new d P R) {db : Db} {old : ρ} (hdb : I db)
    (hold : (d.get db).find? id = some old) (hrow : P row) (hR : R old row) :
    C.Permits db (d.set ((d.get db).put id row) db) :=
  hd.set hdb (fun r hr => (Table.of_mem_values_put hr).elim (fun he => he ▸ hrow) (hd.each hdb r))
    (.update hd.refl hold hR)

lemma Demands.keep (hd : Demands C new d P R) {db : Db} (hdb : I db) (p : Id → ρ → Bool) :
    C.Permits db (d.set ((d.get db).keep p) db) :=
  hd.set hdb (fun r hr => hd.each hdb r (Table.of_mem_values_keep hr)) (.keep hd.refl p)

lemma Demands.create (hd : Demands C new d P R) (hid : new id) (hrow : P row) (view : Db → α) :
    Honours C (d.create id row view) := by
  refine honours_atomically fun db a db' hdb h => ?_
  split at h
  · cases h
  · obtain ⟨-, rfl⟩ := Prod.mk.inj (Except.ok.inj h)
    exact hd.put hdb hid hrow

lemma Demands.createFrom (hd : Demands C new d P R) {row : Option ρ} (hid : new id)
    (hrow : ∀ r, row = some r → P r) (view : ρ → Db → α) :
    Honours C (d.createFrom id row view) := by
  cases row with
  | none => exact Upholds.error _
  | some r => exact hd.create hid (hrow r rfl) _

lemma Demands.update (hd : Demands C new d P R)
    (hf : ∀ r r', P r → f r = some r' → P r' ∧ R r r') (view : ρ → Db → α) :
    Honours C (d.update id f view) := by
  refine honours_atomically fun db a db' hdb h => ?_
  split at h
  · cases h
  rename_i row hrow
  split at h
  · cases h
  · rename_i row' hrow'
    obtain ⟨-, rfl⟩ := Prod.mk.inj (Except.ok.inj h)
    obtain ⟨hP, hR⟩ := hf row row' (hd.found hdb hrow) hrow'
    exact hd.rewrite hdb hrow hP hR

lemma Demands.updateSome (hd : Demands C new d P R) {g : ρ → ρ}
    (hg : ∀ r, P r → P (g r) ∧ R r (g r)) (view : ρ → Db → α) :
    Honours C (d.update id (fun row => some (g row)) view) :=
  hd.update (fun r _ hr h => Option.some.inj h ▸ hg r hr) view

lemma Demands.delete (hd : Demands C new d P R) : Honours C (d.delete id) := by
  refine honours_atomically fun db a db' hdb h => ?_
  split at h
  · cases h
  · obtain ⟨-, rfl⟩ := Prod.mk.inj (Except.ok.inj h)
    exact hd.keep hdb _

lemma Demands.deleteRow (hd : Demands C new d P R) {cascade : Db → Db}
    (hcascade : ∀ db, I db → C.Permits db (cascade db)) :
    Honours C (d.deleteRow id cascade) := by
  refine honours_atomically fun db a db' hdb h => ?_
  split at h
  · cases h
  · obtain ⟨-, rfl⟩ := Prod.mk.inj (Except.ok.inj h)
    exact (hd.keep hdb fun k _ => k ≠ id).trans (hcascade _)

lemma Demands.removeUnused (hd : Demands C new d P R) {missing : Error} {used : Db → Bool}
    {retire : ρ → ρ} {cascade : Db → Db} (hretire : ∀ r, P r → P (retire r) ∧ R r (retire r))
    (hcascade : ∀ db, I db → C.Permits db (cascade db)) :
    Honours C (d.removeUnused id missing used retire cascade) := by
  refine .after (onlyLooks_look _) fun _ => .after onlyLooks_orThrow fun used => ?_
  split
  · exact hd.updateSome hretire _
  · exact hd.deleteRow hcascade

/-- Reading a row that has to be there: it has `P`, whatever becomes of it. -/
lemma Demands.found_bind (hd : Demands C new d P R) {e : Error} {g : ρ → Api α}
    (h : ∀ r, P r → Honours C (g r)) :
    Honours C ((d.findUnique id >>= fun found => orThrow e found) >>= g) := by
  have hlook : Upholds C (fun found => ∀ r, found = some r → P r) (d.findUnique id) :=
    upholds_look_bind (f := fun found => pure found) fun db hdb => .ok fun r hr => hd.found hdb hr
  exact (hlook.bind fun found hfound => upholds_orThrow hfound).bind h

end Delegates

/-! ### The tables of the database -/

section Tables

variable {db₀ : Db} {born : TableName → Id → Prop} {gone : Id → Prop}

lemma transactions : Demands (terms db₀ born gone) (born .transactions) transaction
    (Given db₀ Transaction.WellFormed) TransactionKeeps where
  each h row hrow hw := (h hw).transactions row hrow
  set {db _} h ht hsteady := ⟨{ Permanent.refl db with transactions := hsteady },
    fun hw => { h hw with transactions := fun row hrow => ht row hrow hw }⟩
  refl := transactionKeeps_refl

lemma payments : Demands (terms db₀ born gone) (born .payments) payment
    (Given db₀ Payment.WellFormed) PaymentKeeps where
  each h row hrow hw := (h hw).payments row hrow
  set {db _} h ht hsteady := ⟨{ Permanent.refl db with payments := hsteady },
    fun hw => { h hw with payments := fun row hrow => ht row hrow hw }⟩
  refl := paymentKeeps_refl

lemma orders : Demands (terms db₀ born gone) (born .orders) order
    (Given db₀ Order.WellFormed) OrderKeeps where
  each h row hrow hw := (h hw).orders row hrow
  set {db _} h ht hsteady := ⟨{ Permanent.refl db with orders := hsteady },
    fun hw => { h hw with orders := fun row hrow => ht row hrow hw }⟩
  refl := orderKeeps_refl

lemma categories : Demands (terms db₀ born gone) (born .categories) category
    (Given db₀ Category.WellFormed) Free where
  each h row hrow hw := (h hw).categories row hrow
  set {db _} h ht hsteady := ⟨{ Permanent.refl db with categories := hsteady },
    fun hw => { h hw with categories := fun row hrow => ht row hrow hw }⟩
  refl := free_refl

lemma products : Demands (terms db₀ born gone) (born .products) product
    (Given db₀ Product.WellFormed) Free where
  each h row hrow hw := (h hw).products row hrow
  set {db _} h ht hsteady := ⟨{ Permanent.refl db with products := hsteady },
    fun hw => { h hw with products := fun row hrow => ht row hrow hw }⟩
  refl := free_refl

lemma modifiers : Demands (terms db₀ born gone) (born .modifiers) modifier
    (Given db₀ Modifier.WellFormed) Free where
  each h row hrow hw := (h hw).modifiers row hrow
  set {db _} h ht hsteady := ⟨{ Permanent.refl db with modifiers := hsteady },
    fun hw => { h hw with modifiers := fun row hrow => ht row hrow hw }⟩
  refl := free_refl

lemma discounts : Demands (terms db₀ born gone) (born .discounts) discount
    (Given db₀ Discount.WellFormed) Free where
  each h row hrow hw := (h hw).discounts row hrow
  set {db _} h ht hsteady := ⟨{ Permanent.refl db with discounts := hsteady },
    fun hw => { h hw with discounts := fun row hrow => ht row hrow hw }⟩
  refl := free_refl

lemma inventoryItems : Demands (terms db₀ born gone) (born .inventoryItems) inventoryItem
    (Given db₀ InventoryItem.WellFormed) InventoryItemKeeps where
  each h row hrow hw := (h hw).inventoryItems row hrow
  set {db _} h ht hsteady := ⟨{ Permanent.refl db with inventoryItems := hsteady },
    fun hw => { h hw with inventoryItems := fun row hrow => ht row hrow hw }⟩
  refl := inventoryItemKeeps_refl

lemma inventoryMovements :
    Demands (terms db₀ born gone) (born .inventoryMovements) inventoryMovement
      (Given db₀ InventoryMovement.WellFormed) Free where
  each h row hrow hw := (h hw).inventoryMovements row hrow
  set {db _} h ht hsteady := ⟨{ Permanent.refl db with inventoryMovements := hsteady },
    fun hw => { h hw with inventoryMovements := fun row hrow => ht row hrow hw }⟩
  refl := free_refl

lemma suppliers : Demands (terms db₀ born gone) (born .suppliers) supplier
    (Given db₀ Supplier.WellFormed) Free where
  each h row hrow hw := (h hw).suppliers row hrow
  set {db _} h ht hsteady := ⟨{ Permanent.refl db with suppliers := hsteady },
    fun hw => { h hw with suppliers := fun row hrow => ht row hrow hw }⟩
  refl := free_refl

lemma recipes : Demands (terms db₀ born gone) (born .recipes) recipe
    (Given db₀ Recipe.WellFormed) Free where
  each h row hrow hw := (h hw).recipes row hrow
  set {db _} h ht hsteady := ⟨{ Permanent.refl db with recipes := hsteady },
    fun hw => { h hw with recipes := fun row hrow => ht row hrow hw }⟩
  refl := free_refl

lemma shifts : Demands (terms db₀ born gone) (born .shifts) shift
    (Given db₀ Shift.WellFormed) ShiftKeeps where
  each h row hrow hw := (h hw).shifts row hrow
  set {db _} h ht hsteady := ⟨{ Permanent.refl db with shifts := hsteady },
    fun hw => { h hw with shifts := fun row hrow => ht row hrow hw }⟩
  refl := shiftKeeps_refl

lemma cashRegisters : Demands (terms db₀ born gone) (born .cashRegisters) cashRegister
    (Given db₀ CashRegister.WellFormed) Free where
  each h row hrow hw := (h hw).cashRegisters row hrow
  set {db _} h ht hsteady := ⟨{ Permanent.refl db with cashRegisters := hsteady },
    fun hw => { h hw with cashRegisters := fun row hrow => ht row hrow hw }⟩
  refl := free_refl

lemma taxes : Demands (terms db₀ born gone) (born .taxes) tax
    (Given db₀ Tax.WellFormed) Free where
  each h row hrow hw := (h hw).taxes row hrow
  set {db _} h ht hsteady := ⟨{ Permanent.refl db with taxes := hsteady },
    fun hw => { h hw with taxes := fun row hrow => ht row hrow hw }⟩
  refl := free_refl

variable {db : Db} {id : Id}

lemma lineItems_append {items : List LineItem} (h : Given db₀ Db.WellFormed db)
    (hitems : ∀ row ∈ items, row.WellFormed) :
    (terms db₀ born gone).Permits db { db with lineItems := db.lineItems ++ items } :=
  ⟨{ Permanent.refl db with }, fun hw =>
    { h hw with lineItems := List.forall_mem_append.mpr ⟨(h hw).lineItems, hitems⟩ }⟩

lemma ingredients_append {ingredients : List RecipeIngredient}
    (h : Given db₀ Db.WellFormed db) (hingredients : ∀ row ∈ ingredients, row.WellFormed) :
    (terms db₀ born gone).Permits db
      { db with recipeIngredients := db.recipeIngredients ++ ingredients } :=
  ⟨{ Permanent.refl db with }, fun hw =>
    { h hw with
      recipeIngredients := List.forall_mem_append.mpr ⟨(h hw).recipeIngredients, hingredients⟩ }⟩

lemma productModifiers_filter (p : ProductModifier → Bool) (h : Given db₀ Db.WellFormed db) :
    (terms db₀ born gone).Permits db
      { db with productModifiers := db.productModifiers.filter p } :=
  ⟨{ Permanent.refl db with productModifiers := List.filter_sublist.subset },
    fun hw => { h hw with }⟩

lemma ingredients_filter (p : RecipeIngredient → Bool) (h : Given db₀ Db.WellFormed db) :
    (terms db₀ born gone).Permits db
      { db with recipeIngredients := db.recipeIngredients.filter p } :=
  ⟨{ Permanent.refl db with }, fun hw =>
    { h hw with recipeIngredients := fun row hrow =>
        (h hw).recipeIngredients row (List.mem_of_mem_filter hrow) }⟩

end Tables

end CoffeeOs.Terms

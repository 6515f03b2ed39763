import CoffeeOs.Modifiers
import CoffeeOs.Products
import CoffeeOs.TransactionFrame

/-!
Products and modifiers that have been sold.

A sale is written to the line items of a transaction, and what chooses between the soft and the
hard delete of a product or a modifier counts the lines of tickets. The two meet only where
tickets, or the links between products and modifiers, happen to name what was sold.
-/

namespace CoffeeOs.SoldProducts

open CoffeeOs.KeyedTable CoffeeOs.Requests.Request CoffeeOs.Runs CoffeeOs.Schema
open CoffeeOs.TransactionSpec
open CoffeeOs.Transactions (lineRows viewOf)

inductive Op
  | transactions (op : Transactions.Op)
  | products (op : Products.Op)
  | modifiers (op : Modifiers.Op)

/-- The tables after a call that runs alone. -/
def step (fold : String → String) (db : Db) : Op → Db
  | .transactions op => Transactions.step db op
  | .products op => Products.step db op
  | .modifiers op => Modifiers.step fold db op

/-- The call deletes no product and no modifier that a stored line item names. -/
structure Spares (fold : String → String) (db : Db) (op : Op) : Prop where
  products : ∀ l ∈ db.lineItems, (db.products.find? l.productId).isSome →
    ((step fold db op).products.find? l.productId).isSome
  modifiers : ∀ l ∈ db.lineItems, ∀ k ∈ l.modifiers, (db.modifiers.find? k).isSome →
    ((step fold db op).modifiers.find? k).isSome

/-- For each stored transaction `findOne` shows the product of every line item, and
`calculateTotal` answers. -/
def Found (db : Db) : Prop :=
  ∀ id, (db.transactions.find? id).isSome →
    (∃ view, ((Transactions.findOne id).exec db).1 = .ok view ∧ ∀ e ∈ view.lineItems, e.2.isSome) ∧
      ∃ totals, ((Transactions.calculateTotal id).exec db).1 = .ok totals

/-- A stored product or modifier is removed only if no line item names it, or if it is used as the
service counts. -/
def CountsSales (db : Db) : Op → Prop
  | .products (.remove id) => (db.products.find? id).isSome →
    (∃ l ∈ db.lineItems, l.productId = id) → Products.countTicketLines db id > 0
  | .modifiers (.remove id) => (db.modifiers.find? id).isSome →
    (∃ l ∈ db.lineItems, id ∈ l.modifiers) →
      Modifiers.countProducts db id > 0 ∨ Modifiers.countTicketLineModifiers db id > 0
  | _ => True

/-- The product of every line item is stored. -/
def LinesStored (db : Db) : Prop :=
  Table.Refers (fun l : LineItem => some l.productId) db.lineItems db.products

variable {fold : String → String} {db : Db} {id : Id}

/-! ### Line items and their products -/

lemma hasProducts_of_linesStored (h : LinesStored db) : HasProducts db id :=
  fun l hl => h l (List.mem_of_mem_filter hl) _ rfl

lemma found_of_linesStored (h : LinesStored db) : Found db := by
  intro id hid
  obtain ⟨row, hrow⟩ := Option.isSome_iff_exists.mp hid
  have hview : ((Transactions.findOne id).exec db).1 = .ok (viewOf db id row) := by
    rw [Transactions.findOne, exec_look_bind, hrow]
    rfl
  obtain ⟨totals, htotals, -⟩ := totals_ok (hasProducts_of_linesStored h) row
  refine ⟨⟨viewOf db id row, hview, fun e he => ?_⟩, totals, ?_⟩
  · obtain ⟨l, hl, rfl⟩ := List.mem_map.mp he
    exact hasProducts_of_linesStored h l hl
  · rw [exec_calculateTotal, hrow]
    exact htotals

lemma linesStored_lineRows {items : List Transactions.TransactionLineItemDto}
    (hv : Verified db items) :
    Table.Refers (fun l : LineItem => some l.productId) (lineRows id items) db.products := by
  intro l hl k hk
  obtain ⟨item, hitem, rfl⟩ := List.mem_map.mp hl
  rw [← Option.some.inj hk]
  exact hv.found hitem

lemma linesStored_kept (id : Id) (dto : Transactions.UpdateTransactionDto) (h : LinesStored db) :
    Table.Refers (fun l : LineItem => some l.productId) (keptLines db id dto) db.products :=
  h.mono fun _ hl => TransactionFrame.mem_of_mem_keptLines hl

lemma linesStored_transactions (op : Transactions.Op) (h : LinesStored db) :
    LinesStored (Transactions.step db op) := by
  have houtcome : Outcome db op (Transactions.step db op) := step_outcome op
  generalize Transactions.step db op = db' at houtcome ⊢
  cases houtcome with
  | created verified => exact h.append (linesStored_lineRows verified)
  | @cleared id dto => exact linesStored_kept id dto h
  | @updated id dto _ _ _ _ verified =>
    exact (linesStored_kept id dto h).append (linesStored_lineRows verified)
  | removed => exact h.mono fun _ hl => List.mem_of_mem_filter hl
  | _ => exact h

/-! ### What a call deletes -/

lemma spares_transactions (op : Transactions.Op) : Spares fold db (.transactions op) := by
  have hproducts : (step fold db (.transactions op)).products = db.products :=
    TransactionFrame.step_products op
  have hmodifiers : (step fold db (.transactions op)).modifiers = db.modifiers := by
    rw [step, TransactionFrame.step_eq]
  refine ⟨fun _ _ h => ?_, fun _ _ _ _ h => ?_⟩
  · rw [hproducts]
    exact h
  · rw [hmodifiers]
    exact h

lemma spares_products_iff (op : Products.Op) :
    Spares fold db (.products op) ↔ CountsSales db (.products op) := by
  have hmodifiers : (step fold db (.products op)).modifiers = db.modifiers := by
    rw [step, Products.step_frame]
  refine ⟨fun h => ?_, fun h => ⟨fun l hl hs => ?_, fun _ _ _ _ hs => ?_⟩⟩
  · cases op with
    | remove id =>
      rintro hs ⟨l, hl, rfl⟩
      exact (Products.stored_step_iff _ hs).mp (h.products l hl hs) rfl
    | _ => trivial
  · refine (Products.stored_step_iff op hs).mpr fun hop => ?_
    subst hop
    exact h hs ⟨l, hl, rfl⟩
  · rw [hmodifiers]
    exact hs

lemma spares_modifiers_iff (op : Modifiers.Op) :
    Spares fold db (.modifiers op) ↔ CountsSales db (.modifiers op) := by
  have hproducts : (step fold db (.modifiers op)).products = db.products := by
    rw [step, Modifiers.step_frame]
  refine ⟨fun h => ?_, fun h => ⟨fun _ _ hs => ?_, fun l hl k hk hs => ?_⟩⟩
  · cases op with
    | remove id =>
      rintro hs ⟨l, hl, hk⟩
      have hkept : ((Modifiers.step fold db (.remove id)).modifiers.find? id).isSome :=
        h.modifiers l hl id hk hs
      exact (Modifiers.stored_step_iff _ hs).mp hkept rfl
    | _ => trivial
  · rw [hproducts]
    exact hs
  · refine (Modifiers.stored_step_iff op hs).mpr fun hop => ?_
    subst hop
    exact h hs ⟨l, hl, hk⟩

lemma spares_iff (op : Op) : Spares fold db op ↔ CountsSales db op := by
  cases op with
  | transactions op => exact iff_of_true (spares_transactions op) trivial
  | products op => exact spares_products_iff op
  | modifiers op => exact spares_modifiers_iff op

/-- A call that spares the products of the line items leaves them stored. -/
lemma linesStored_step (op : Op) (h : LinesStored db) (hs : Spares fold db op) :
    LinesStored (step fold db op) := by
  cases op with
  | transactions op => exact linesStored_transactions op h
  | products op =>
    have hstored : Table.Refers (fun l : LineItem => some l.productId) db.lineItems
        (Products.step db op).products := by
      intro l hl k hk
      obtain rfl : l.productId = k := Option.some.inj hk
      exact hs.products l hl (h l hl _ rfl)
    unfold LinesStored
    rw [step, Products.step_frame]
    exact hstored
  | modifiers op =>
    unfold LinesStored
    rw [step, Modifiers.step_frame]
    exact h

/-! ### Runs of the three services -/

/-- **Sold products.** A run of the three services deletes no product and no modifier that a
line item names, and finds the product of every line item in all its states, exactly if what it
removes of these is in use as the services count. -/
theorem sold_spared_iff (fold : String → String) (db : Db) (ops : List Op) (h0 : LinesStored db) :
    Along (step fold) (Spares fold) db ops ∧ Always (step fold) Found db ops ↔
      Along (step fold) CountsSales db ops := by
  refine along_and_always_iff (fun _ h => found_of_linesStored h)
    (fun db op h hc => linesStored_step op h ((spares_iff op).mpr hc)) (fun db op h => ?_) h0
  rw [spares_iff]
  exact and_iff_left_of_imp fun hc =>
    found_of_linesStored (linesStored_step op h ((spares_iff op).mpr hc))

/-- A shop with one category. -/
def opened : Db where
  categories := (∅ : Table Id Category).put "drinks" { name := "Drinks" }

/-- A mocha with oat milk. -/
def oatMocha : Transactions.TransactionLineItemDto where
  productId := "mocha"
  quantity := .least _
  unitPrice := .ofNat 45
  modifiers := .val ["oat"]

/-- A mocha with oat milk is sold. -/
def sold : List Op :=
  [.products (.create "mocha" { categoryId := ⟨"drinks", by decide⟩, sku := ⟨"MOCHA", by decide⟩,
                                name := ⟨"Mocha", by decide⟩, price := .ofNat 45 }),
   .modifiers (.create "oat" { name := ⟨"Oat milk", by decide⟩, type := .milk }),
   .transactions (.create "sale" { lineItems := [oatMocha] })]

theorem sold_spared_iff_sold :
    Along (step String.toLower) (Spares String.toLower) opened sold ∧
        Always (step String.toLower) Found opened sold ↔
      Along (step String.toLower) CountsSales opened sold :=
  sold_spared_iff String.toLower opened sold Table.refers_nil

/-- The mocha that was sold can be deleted, which leaves the sale without a total, and so can
the oat milk. -/
theorem sold_deleted :
    ¬ Along (step String.toLower) (Spares String.toLower) opened
        (sold ++ [.products (.remove "mocha")]) ∧
    ¬ Always (step String.toLower) Found opened (sold ++ [.products (.remove "mocha")]) ∧
    ¬ Along (step String.toLower) (Spares String.toLower) opened
        (sold ++ [.modifiers (.remove "oat")]) := by
  have hlines : (run (step String.toLower) opened sold).lineItems =
      [{ transactionId := "sale", productId := "mocha", quantity := 1, unitPrice := 45,
         modifiers := ["oat"] }] := by decide +kernel
  refine ⟨fun h => ?_, fun h => ?_, fun h => ?_⟩
  · have hspares := (along_append.mp h).2.1.products _ (hlines ▸ List.mem_singleton_self _)
    exact absurd (hspares (by decide +kernel)) (by decide +kernel)
  · obtain ⟨-, totals, htotals⟩ := h.last "sale" (by decide +kernel)
    have hfails : ((Transactions.calculateTotal "sale").exec (run (step String.toLower) opened
        (sold ++ [.products (.remove "mocha")]))).1.isOk = false := by decide +kernel
    rw [htotals] at hfails
    cases hfails
  · have hspares := (along_append.mp h).2.1.modifiers _ (hlines ▸ List.mem_singleton_self _) "oat"
      (List.mem_singleton_self _)
    exact absurd (hspares (by decide +kernel)) (by decide +kernel)

end CoffeeOs.SoldProducts

import CoffeeOs.Integrity

/-!
Rows looked up by their code.

Four services look a row up by its code, which is another way to it than its id. As codes are
unique in every run of the API, whatever call stored or renamed the row, a code leads to the very
row that has it, and to nothing if no row does.
-/

namespace CoffeeOs.Lookups

open CoffeeOs.KeyedTable CoffeeOs.Requests CoffeeOs.Requests.Request CoffeeOs.Runs
open CoffeeOs.Schema CoffeeOs.Services
open CoffeeOs.Codes (CodesUnique)

/-- What `lookup` answers for a code are the stored rows with the code, as `view` shows them. -/
def Exact {ρ α : Type} (d : Delegate ρ) (column : ρ → String) (view : Id → ρ → Db → α)
    (lookup : String → Api α) (db : Db) : Prop :=
  ∀ code v, ((lookup code).exec db).1 = .ok v ↔
    ∃ id row, (d.get db).find? id = some row ∧ column row = code ∧ v = view id row db

section Exact

variable {ρ α : Type} {d : Delegate ρ} {column : ρ → String} {view : Id → ρ → Db → α} {db : Db}

lemma exact_findUniqueBy (message : String → String) (h : (d.get db).Unique column) :
    Exact d column view (fun code => d.findUniqueBy column code view >>= fun found =>
      orThrow (.notFound (message code)) found) db := by
  intro code v
  dsimp only [Delegate.findUniqueBy]
  rw [exec_look_bind]
  rcases he : (d.get db).rows.find? fun e => column e.2 = code with _ | ⟨id, row⟩ <;> rw [he]
  · refine iff_of_false (fun hv => by cases hv) ?_
    rintro ⟨id, row, hrow, hcode, -⟩
    cases he.symm.trans (h.find?_eq_some_iff.mpr ⟨hrow, hcode⟩)
  · obtain ⟨hrow, hcode⟩ := h.find?_eq_some_iff.mp he
    show Except.ok (view id row db) = .ok v ↔ _
    refine ⟨fun hv => ⟨id, row, hrow, hcode, (Except.ok.inj hv).symm⟩, ?_⟩
    rintro ⟨id', row', hrow', hcode', rfl⟩
    obtain rfl : id = id' := h id id' row row' hrow hrow' (hcode.trans hcode'.symm)
    obtain rfl : row = row' := Option.some.inj (hrow.symm.trans hrow')
    rfl

end Exact

/-- Each of the four lookups is exact. -/
structure LookupsExact (db : Db) : Prop where
  products : Exact product Product.sku Products.viewOf Products.findBySku db
  inventoryItems :
    Exact inventoryItem InventoryItem.code InventoryItems.viewOf InventoryItems.findByCode db
  suppliers : Exact supplier Supplier.code Suppliers.viewOf Suppliers.findByCode db
  discounts : Exact discount Discount.code (fun id row _ => Discounts.DiscountView.mk id row)
    Discounts.findByCode db

lemma lookupsExact_of_codesUnique {db : Db} (h : CodesUnique db) : LookupsExact db where
  products := exact_findUniqueBy _ h.products
  inventoryItems := exact_findUniqueBy _ h.inventoryItems
  suppliers := exact_findUniqueBy _ h.suppliers
  discounts := exact_findUniqueBy _ h.discounts

/-- **Lookups.** In every run of the API a lookup by a SKU or a code answers with a row exactly if
the row is stored and has it, so that every stored row is found by its own. -/
theorem lookups_exact (midnight : Instant → Instant) (fold : String → String) (db : Db)
    (ops : List Op) (h0 : CodesUnique db) : Always (step midnight fold) LookupsExact db ops :=
  (always_of_step (fun _ op h => Integrity.codesUnique_step op h) h0).imp
    fun _ h => lookupsExact_of_codesUnique h

/-- A product that trades its SKU with another one, by way of a third SKU. -/
def traded : List Op :=
  [.categories (.create "tea" { name := ⟨"Tea", by decide⟩ }),
   .products (.create "green" { categoryId := ⟨"tea", by decide⟩, sku := ⟨"TEA-1", by decide⟩,
                                name := ⟨"Green tea", by decide⟩, price := .ofNat 25 }),
   .products (.create "black" { categoryId := ⟨"tea", by decide⟩, sku := ⟨"TEA-2", by decide⟩,
                                name := ⟨"Black tea", by decide⟩, price := .ofNat 25 }),
   .products (.update "green" { sku := .val ⟨"TEA-2", by decide⟩ }),
   .products (.update "green" { sku := .val ⟨"TEA-3", by decide⟩ }),
   .products (.update "black" { sku := .val ⟨"TEA-1", by decide⟩ }),
   .products (.remove "black")]

theorem lookups_exact_traded :
    Always (step (fun t => t) String.toLower) LookupsExact ∅ traded :=
  lookups_exact (fun t => t) String.toLower ∅ traded Codes.codesUnique_empty

end CoffeeOs.Lookups

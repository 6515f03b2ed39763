import CoffeeOs.LostCalls
import CoffeeOs.Scripts
import CoffeeOs.TransactionFrame

/-!
Updates that replace the rows of the same transaction, or of the same recipe, at the same time.

An update with rows deletes the ones that are there by a call of its own, and adds those of its
payload by the next. Whatever the order of the calls, the rows are those of the payloads that have
been added since the last deletion: of two updates that both delete before they add, the rows of
both are there.
-/

namespace CoffeeOs.ReplacementRace

open CoffeeOs.Interleaving CoffeeOs.KeyedTable CoffeeOs.Payload CoffeeOs.Requests
open CoffeeOs.Requests.Request CoffeeOs.Runs CoffeeOs.Schema CoffeeOs.Scripts
open CoffeeOs.LostCalls (NullsRequired apply_eq_none apply_recipe_eq_none replacing)
open CoffeeOs.Recipes (ProductFound RecipeView UpdateRecipeDto ingredientRows ingredientsOf)
open CoffeeOs.Transactions (TransactionView UpdateTransactionDto lineRows linesOf)

variable {db s s' : Db} {id : Id}

/-! ### Transactions -/

section Transactions

variable {dto : UpdateTransactionDto}

/-- How an update replaces the line items, unless it leaves them: it looks for the transaction and
for the products first, and adds none if the write of a `null` fails. -/
def lineItemPlan (db : Db) (id : Id) (dto : UpdateTransactionDto) :
    Option (Replacement LineItem) :=
  if dto.items ≠ [] ∧ TransactionSpec.Verified db dto.items then
    some ⟨2, fun _ => true, if dto.status = .null then [] else lineRows id dto.items⟩
  else none

/-- The transaction may be updated, and the products are those of `db`. -/
def OpenSale (db : Db) (id : Id) (s : Db) : Prop :=
  s.products = db.products ∧ ∃ row, s.transactions.find? id = some row ∧ row.status ≠ .completed

lemma openSale_written {row row' : Transaction} {lines : List LineItem} (h : OpenSale db id s)
    (hopen : dto.status ≠ .val .completed) (hrow : s.transactions.find? id = some row)
    (ha : dto.apply row = some row') :
    OpenSale db id { s with transactions := s.transactions.put id row', lineItems := lines } := by
  obtain ⟨hproducts, old, hold, hstatus⟩ := h
  obtain rfl : old = row := Option.some.inj (hold.symm.trans hrow)
  refine ⟨hproducts, row', Table.find?_put_self, fun hc => ?_⟩
  rcases TransactionSpec.apply_status ha with ⟨hsame, -⟩ | hset
  · exact hstatus (hsame ▸ hc)
  · exact hopen (hc ▸ hset)

/-- The last call of an update adds the line items of the payload. -/
lemma follows_writeUpdate {script : List (Act LineItem)} (hopen : dto.status ≠ .val .completed)
    (hscript : script.tail = [])
    (hnew : ∀ rows, (script.headD .keep).on rows =
      rows ++ if dto.status = .null then [] else lineRows id dto.items) :
    Follows (OpenSale db id) (fun s => linesOf s id) script (Transactions.writeUpdate id dto) := by
  refine follows_atomically hscript (fun s view s' hs hok => ?_) fun s e hs herror => ?_
  · -- the write succeeds, and brings the lines of the request
    have hstored := hs.2
    obtain ⟨row, hrow, -⟩ := hstored
    rw [hrow] at hok
    dsimp only at hok
    rcases ha : dto.apply row with _ | row'
    · rw [ha] at hok
      cases hok
    rw [ha] at hok
    obtain rfl := congrArg Prod.snd (Except.ok.inj hok)
    refine ⟨openSale_written hs hopen hrow ha, ?_⟩
    obtain ⟨status, hstatus, -⟩ := Option.map_eq_some_iff.mp ha
    rw [hnew, if_neg (Property.ne_null_of_intoRequired hstatus)]
    exact (List.filter_append ..).trans
      (congrArg _ (TransactionFrame.linesOf_lineRows_self dto.items))
  · -- the write fails for a null, and brings none
    obtain ⟨-, row, hrow, -⟩ := hs
    rw [hrow] at herror
    dsimp only at herror
    rcases ha : dto.apply row with _ | row'
    · rw [hnew, if_pos (apply_eq_none ha), List.append_nil]
    · rw [ha] at herror
      cases herror

lemma follows_updateTransaction (hopen : dto.status ≠ .val .completed) :
    Follows (OpenSale db id) (fun s => linesOf s id) (scriptOf (lineItemPlan db id dto))
      (Transactions.update id dto) := by
  refine follows_look_bind ?_ fun s hs => ?_
  · unfold lineItemPlan
    split <;> rfl
  obtain ⟨-, row, hrow, hstatus⟩ := hs
  simp only [transaction, hrow]
  rw [orThrow_some_bind, throwIf_bind_neg hstatus]
  by_cases hitems : dto.items = []
  · rw [lineItemPlan, if_neg fun h => h.1 hitems, if_neg (by simp [hitems])]
    refine follows_writeUpdate hopen rfl fun rows => ?_
    rw [hitems]
    exact ((congrArg _ (ite_self [])).trans (List.append_nil rows)).symm
  rw [if_pos (List.length_pos_iff.mpr hitems)]
  show Follows _ _ _ (product.findManyIn (dto.items.map (·.productId)) >>= fun found =>
    throwIf (found.length ≠ (dto.items.map (·.productId)).length)
      (.badRequest "One or more products not found") >>= fun _ =>
        Transactions.deleteLineItems id >>= fun _ => Transactions.writeUpdate id dto)
  refine follows_look_bind ?_ fun s' hs' => ?_
  · unfold lineItemPlan
    split <;> rfl
  -- no request writes the products, so what is looked for now was there from the start
  have hproducts : product.get s' = db.products := hs'.1
  by_cases hv : TransactionSpec.Verified db dto.items
  · rw [lineItemPlan, if_pos ⟨hitems, hv⟩]
    unfold TransactionSpec.Verified at hv
    rw [hproducts, throwIf_bind_neg (not_not.mpr hv)]
    refine follows_atomically_bind fun s hs => ⟨_, _, rfl, hs, Table.filter_dropped_self _, ?_⟩
    exact follows_writeUpdate hopen rfl fun rows => rfl
  · rw [lineItemPlan, if_neg fun h => hv h.2]
    unfold TransactionSpec.Verified at hv
    rw [hproducts, throwIf_bind_pos hv]
    exact .done _

end Transactions

/-! ### Recipes -/

section Recipes

variable {dto : UpdateRecipeDto}

instance (dto : UpdateRecipeDto) : Decidable (NullsRequired dto) :=
  inferInstanceAs (Decidable (_ ∨ _ ∨ _))

/-- How an update replaces the ingredients, unless it leaves them: it looks for the recipe and for
the items first, and for the product if the payload names one. None are added to a recipe that has
got an ingredient of the same item by then. -/
def ingredientPlan (db : Db) (id : Id) (dto : UpdateRecipeDto) :
    Option (Replacement RecipeIngredient) :=
  if dto.items ≠ [] ∧ ProductFound db dto.productId ∧ Recipes.Verified db dto.items then
    some ⟨if dto.productId.toOption.filter (· ≠ "") = none then 2 else 3,
      fun rows => Recipes.Fits rows dto.items,
      if NullsRequired dto then [] else ingredientRows id dto.items⟩
  else none

/-- The recipe may be updated, and the products and the items are those of `db`. -/
structure OpenRecipe (db : Db) (id : Id) (s : Db) : Prop where
  products : s.products = db.products
  inventoryItems : s.inventoryItems = db.inventoryItems
  stored : ∃ row, s.recipes.find? id = some row

lemma recipeId_ingredientRows {items : List Recipes.RecipeIngredientDto} :
    ∀ i ∈ ingredientRows id items, i.recipeId = id := by
  intro i hi
  obtain ⟨item, -, rfl⟩ := List.mem_map.mp hi
  rfl

lemma not_nullsRequired {row row' : Recipe} (h : dto.apply row = some row') :
    ¬ NullsRequired dto := by
  unfold UpdateRecipeDto.apply at h
  simp only [Option.bind_eq_bind, Option.bind_eq_some_iff] at h
  obtain ⟨productId, hproduct, name, hname, active, hactive, -⟩ := h
  rintro (hnull | hnull | hnull)
  · exact Property.ne_null_of_intoRequired hproduct hnull
  · exact Property.ne_null_of_intoRequired hname hnull
  · exact Property.ne_null_of_intoRequired hactive hnull

/-- The last call of an update adds the ingredients of the payload, if they fit. -/
lemma follows_writeRecipe {script : List (Act RecipeIngredient)} (hscript : script.tail = [])
    (hnew : ∀ rows, (script.headD .keep).on rows = if Recipes.Fits rows dto.items then
      rows ++ (if NullsRequired dto then [] else ingredientRows id dto.items) else rows) :
    Follows (OpenRecipe db id) (fun s => ingredientsOf s id) script
      (Recipes.writeUpdate id dto) := by
  refine follows_atomically hscript (fun s view s' hs hok => ?_) fun s e hs herror => ?_
  · -- the write succeeds, and the recipe had room for the items
    obtain ⟨row, hrow⟩ := hs.stored
    rw [hrow] at hok
    dsimp only at hok
    rcases ha : dto.apply row with _ | row'
    · rw [ha] at hok
      cases hok
    rw [ha] at hok
    dsimp only at hok
    by_cases hfits : Recipes.Fits (ingredientsOf s id) dto.items
    swap
    · rw [if_pos hfits] at hok
      cases hok
    rw [if_neg (not_not.mpr hfits)] at hok
    obtain rfl := congrArg Prod.snd (Except.ok.inj hok)
    refine ⟨⟨hs.products, hs.inventoryItems, row', Table.find?_put_self⟩, ?_⟩
    rw [hnew, if_pos hfits, if_neg (not_nullsRequired ha)]
    exact (List.filter_append ..).trans
      (congrArg _ (Table.filter_owner_self recipeId_ingredientRows))
  · obtain ⟨row, hrow⟩ := hs.stored
    rw [hrow] at herror
    dsimp only at herror
    rcases ha : dto.apply row with _ | row'
    · -- the write fails for a null, and adds no row
      rw [hnew, if_pos (apply_recipe_eq_none ha), List.append_nil, ite_self]
    · rw [ha] at herror
      dsimp only at herror
      by_cases hfits : Recipes.Fits (ingredientsOf s id) dto.items
      · rw [if_neg (not_not.mpr hfits)] at herror
        cases herror
      · -- an item would be repeated, and the constraint refuses them all
        rw [hnew, if_neg hfits]

/-- What is left of an update once it has checked the product. -/
lemma follows_replacing (hproduct : ProductFound db dto.productId) :
    Follows (OpenRecipe db id) (fun s => ingredientsOf s id)
      ((ingredientPlan db id dto).elim [] fun r => [.keep, .clear, .add r.admits r.new])
      (replacing id dto) := by
  unfold replacing
  by_cases hitems : dto.items = []
  · -- an update without ingredients is one write, which adds none
    have hplan : ingredientPlan db id dto = none := if_neg fun h => h.1 hitems
    rw [hplan, if_neg (by simp [hitems])]
    refine follows_writeRecipe rfl fun rows => ?_
    rw [hitems, if_pos (Recipes.fits_nil rows)]
    exact ((congrArg _ (ite_self [])).trans (List.append_nil rows)).symm
  rw [if_pos (List.length_pos_iff.mpr hitems)]
  show Follows _ _ _ (inventoryItem.findManyIn (dto.items.map (·.inventoryItemId)) >>= fun found =>
    throwIf (found.length ≠ (dto.items.map (·.inventoryItemId)).length)
      (.badRequest "One or more inventory items not found") >>= fun _ =>
        Recipes.deleteIngredients id >>= fun _ => Recipes.writeUpdate id dto)
  refine follows_look_bind ?_ fun s hs => ?_
  · unfold ingredientPlan
    split <;> rfl
  have hfound : inventoryItem.get s = db.inventoryItems := hs.inventoryItems
  by_cases hv : Recipes.Verified db dto.items
  · -- all items are stored: the rows are deleted, and then the new ones added
    rw [ingredientPlan, if_pos ⟨hitems, hproduct, hv⟩]
    unfold Recipes.Verified at hv
    rw [hfound, throwIf_bind_neg (not_not.mpr hv)]
    refine follows_atomically_bind fun s hs =>
      ⟨_, _, rfl, ⟨hs.products, hs.inventoryItems, hs.stored⟩, Table.filter_dropped_self _, ?_⟩
    refine follows_writeRecipe rfl fun rows => ?_
    exact if_congr decide_eq_true_iff rfl rfl
  · -- an item is missing, and the request is refused before it deletes
    rw [ingredientPlan, if_neg fun h => hv h.2.2]
    unfold Recipes.Verified at hv
    rw [hfound, throwIf_bind_pos hv]
    exact .done _

lemma follows_updateRecipe :
    Follows (OpenRecipe db id) (fun s => ingredientsOf s id) (scriptOf (ingredientPlan db id dto))
      (Recipes.update id dto) := by
  refine follows_look_bind ?_ fun s hs => ?_
  · unfold ingredientPlan
    split
    · split <;> rfl
    · rfl
  obtain ⟨row, hrow⟩ := hs.stored
  simp only [recipe, hrow]
  rw [orThrow_some_bind]
  show Follows _ _ _ (Recipes.verifyProduct dto.productId >>= fun _ => replacing id dto)
  unfold Recipes.verifyProduct
  rcases hnamed : dto.productId.toOption.filter (· ≠ "") with _ | productId
  · have hproduct : ProductFound db dto.productId := fun k hk => by rw [hnamed] at hk; cases hk
    have hscript : (scriptOf (ingredientPlan db id dto)).tail =
        (ingredientPlan db id dto).elim [] fun r => [.keep, .clear, .add r.admits r.new] := by
      rw [ingredientPlan, hnamed]
      split <;> rfl
    rw [hscript]
    exact follows_replacing hproduct
  show Follows _ _ _ (product.findUnique productId >>= fun found =>
    (orThrow (.badRequest s!"Product with ID {productId} not found") found >>= fun _ => pure ())
      >>= fun _ => replacing id dto)
  refine follows_look_bind ?_ fun s hs => ?_
  · rw [ingredientPlan, hnamed]
    split <;> rfl
  have hscript : (scriptOf (ingredientPlan db id dto)).tail.tail =
      (ingredientPlan db id dto).elim [] fun r => [.keep, .clear, .add r.admits r.new] := by
    rw [ingredientPlan, hnamed]
    split <;> rfl
  have hfound : product.get s = db.products := hs.products
  have hproduct : ProductFound db dto.productId ↔ (db.products.find? productId).isSome := by
    unfold ProductFound
    rw [hnamed]
    simp
  rw [hfound]
  rcases hstored : db.products.find? productId with _ | row
  · rw [ingredientPlan, if_neg fun h => by simpa [hstored] using hproduct.mp h.2.1]
    exact .done _
  · rw [hscript]
    exact follows_replacing (hproduct.mpr (by rw [hstored]; rfl))

end Recipes

/-! ### The race -/

/-- What has rows of its own, which an update may replace. -/
inductive Owner
  | transaction
  | recipe

namespace Owner

abbrev Row : Owner → Type
  | transaction => LineItem
  | recipe => RecipeIngredient

abbrev Dto : Owner → Type
  | transaction => UpdateTransactionDto
  | recipe => UpdateRecipeDto

abbrev View : Owner → Type
  | transaction => TransactionView
  | recipe => RecipeView

def rowsOf : (owner : Owner) → Db → Id → List owner.Row
  | transaction => linesOf
  | recipe => ingredientsOf

def update : (owner : Owner) → Id → owner.Dto → Api owner.View
  | transaction => Transactions.update
  | recipe => Recipes.update

def plan : (owner : Owner) → Db → Id → owner.Dto → Option (Replacement owner.Row)
  | transaction => lineItemPlan
  | recipe => ingredientPlan

/-- It is stored, and its updates are not refused. -/
def Open : Owner → Db → Id → Prop
  | transaction, db, id => ∃ row, db.transactions.find? id = some row ∧ row.status ≠ .completed
  | recipe, db, id => ∃ row, db.recipes.find? id = some row

/-- The payload does not close it to other updates. -/
def LeavesOpen : (owner : Owner) → owner.Dto → Prop
  | transaction, dto => dto.status ≠ .val .completed
  | recipe, _ => True

end Owner

variable {ι : Type} [DecidableEq ι]

/-- Requests to update the same transaction, or the same recipe. -/
def race (owner : Owner) (id : Id) (dto : ι → owner.Dto) (db : Db) : Pool ι Db Error owner.View :=
  ⟨db, fun i => owner.update id (dto i)⟩

/-- **The race.** However many updates of a transaction or of a recipe run at the same time, and
whatever the order of their calls, its rows are those that were there as long as none of them has
deleted these, and after that those that have been added since the last deletion, in the order in
which they were. Ingredients are added unless one of the same item is there already. -/
theorem rows_race (owner : Owner) (id : Id) (dto : ι → owner.Dto) (db : Db)
    (h0 : owner.Open db id) (hopen : ∀ i, owner.LeavesOpen (dto i)) (is : List ι) :
    let script := fun i => scriptOf (owner.plan db id (dto i))
    let rows := owner.rowsOf (run Pool.step (race owner id dto db) is).store id
    (NoClear script [] is ∧ rows = owner.rowsOf db id) ∨
      ∃ pre i post, LastClear script is pre i post ∧ rows = added script [] (pre ++ [i]) post := by
  cases owner with
  | transaction =>
    have hscript (i : ι) : Follows (OpenSale db id) (fun s => linesOf s id)
        (scriptOf (lineItemPlan db id (dto i))) (Transactions.update id (dto i)) :=
      follows_updateTransaction (hopen i)
    exact replaced_run (p := race .transaction id dto db) ⟨rfl, h0⟩ hscript is
  | recipe =>
    have hscript (i : ι) : Follows (OpenRecipe db id) (fun s => ingredientsOf s id)
        (scriptOf (ingredientPlan db id (dto i))) (Recipes.update id (dto i)) :=
      follows_updateRecipe
    exact replaced_run (p := race .recipe id dto db) ⟨rfl, rfl, h0⟩ hscript is

/-- A sale of a tea, which two clients at once make one of a cake and one of a juice. -/
def sale : Db where
  products := ((∅ : Table Id Product).put "cake"
    { categoryId := "food", sku := "CAKE", name := "Cake", price := 55 }).put "juice"
    { categoryId := "drinks", sku := "JUICE", name := "Juice", price := 40 }
  transactions := (∅ : Table Id Transaction).put "sale" { status := .pending }
  lineItems := [{ transactionId := "sale", productId := "tea", quantity := 1, unitPrice := 30 }]

def instead (i : Bool) : UpdateTransactionDto where
  lineItems := .val [{
    productId := if i then "cake" else "juice", quantity := .least 1, unitPrice := .ofNat 40 }]

/-- Both delete the tea before either adds its own. -/
def overlapping : List Bool := [true, true, false, false, true, false, false, true]

/-- A recipe with milk, of which two clients at once change the amount. -/
def latte : Db where
  inventoryItems := (∅ : Table Id InventoryItem).put "milk"
    { code := "MILK", name := "Milk", unitOfMeasure := "ml" }
  recipes := (∅ : Table Id Recipe).put "latte" { productId := "latte", name := "Latte" }
  recipeIngredients :=
    [{ recipeId := "latte", inventoryItemId := "milk", quantity := 200, unit := "ml" }]

def amounts (i : Bool) : UpdateRecipeDto where
  ingredients := .val [{ inventoryItemId := "milk",
                         quantity := if i then .ofNat 180 else .ofNat 220, unit := "ml" }]

/-- The sale ends up with the line items of both, and the recipe with the milk of the first one to
add it: the other is refused. -/
theorem rows_race_sale :
    (let script := fun i => scriptOf (Owner.transaction.plan sale "sale" (instead i))
    let rows := Owner.transaction.rowsOf
      (run Pool.step (race .transaction "sale" instead sale) overlapping).store "sale"
    ((NoClear script [] overlapping ∧ rows = Owner.transaction.rowsOf sale "sale") ∨
      ∃ pre i post, LastClear script overlapping pre i post ∧
        rows = added script [] (pre ++ [i]) post) ∧
    rows.map LineItem.productId = ["juice", "cake"]) ∧
    (let script := fun i => scriptOf (Owner.recipe.plan latte "latte" (amounts i))
    let rows := Owner.recipe.rowsOf
      (run Pool.step (race .recipe "latte" amounts latte) overlapping).store "latte"
    ((NoClear script [] overlapping ∧ rows = Owner.recipe.rowsOf latte "latte") ∨
      ∃ pre i post, LastClear script overlapping pre i post ∧
        rows = added script [] (pre ++ [i]) post) ∧
    rows.map RecipeIngredient.quantity = [220]) :=
  ⟨⟨rows_race .transaction "sale" instead sale
      ⟨{ status := .pending }, by decide +kernel, by decide⟩
      (fun i => by cases i <;> exact fun h => nomatch h) overlapping, by decide +kernel⟩,
    rows_race .recipe "latte" amounts latte
      ⟨{ productId := "latte", name := "Latte" }, by decide +kernel⟩ (fun _ => trivial) overlapping,
    by decide +kernel⟩

end CoffeeOs.ReplacementRace

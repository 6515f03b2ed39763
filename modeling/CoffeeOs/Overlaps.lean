import CoffeeOs.AnyOrder
import CoffeeOs.Serializability

/-!
Calls of all services whose turns overlap.

Calls that read and write the same tables can disturb each other, and where they do, checks are
overtaken. If calls overlap only where they have no table in common that one of them writes, the
run is as good as one whose calls wait for each other.
-/

namespace CoffeeOs.Overlaps

open CoffeeOs.AnyOrder (exec_request request)
open CoffeeOs.Interleaving CoffeeOs.Interleaving.Pool CoffeeOs.KeyedTable CoffeeOs.Payload
open CoffeeOs.Requests CoffeeOs.Requests.Request CoffeeOs.Runs CoffeeOs.Schema
open CoffeeOs.Serializability
open CoffeeOs.Services (Op SameAt TableName)

/-! ### Tables as cells -/

/-- The tables of the database. -/
def tables : Cells Db TableName where
  same t db db' := SameAt db db' t
  equivalence t := {
    refl := fun db => by cases t <;> rfl
    symm := fun {db db'} h => by cases t <;> exact Eq.symm h
    trans := fun {db db' db''} h h' => by cases t <;> exact Eq.trans h' h }
  ext {db db'} h := by
    cases db
    cases db'
    rw [Db.mk.injEq]
    exact ⟨(h .transactions).symm, (h .lineItems).symm, (h .payments).symm, (h .orders).symm,
      (h .categories).symm, (h .products).symm, (h .modifiers).symm, (h .productModifiers).symm,
      (h .ticketLines).symm, (h .ticketLineModifiers).symm, (h .discounts).symm,
      (h .suppliers).symm, (h .purchaseOrders).symm, (h .goodsReceipts).symm,
      (h .inventoryItems).symm, (h .inventoryMovements).symm, (h .recipes).symm,
      (h .recipeIngredients).symm, (h .shifts).symm, (h .cashRegisters).symm,
      (h .cashDenominations).symm, (h .cashExpenses).symm, (h .taxes).symm⟩

/-! ### Calls on one table -/

section Columns

variable {γ α : Type} {get : Db → γ} {set : γ → Db → Db} {t : TableName} {F : Footprint TableName}

/-- What is read and written in this way is one table. -/
structure Column (get : Db → γ) (set : γ → Db → Db) (t : TableName) : Prop where
  get_eq : ∀ {db db'}, SameAt db db' t → get db' = get db
  frame : ∀ db x, ∀ t' ≠ t, SameAt db (set x db) t'
  same : ∀ {db db'} x, SameAt (set x db) (set x db') t

lemma Column.eq_of_agree (hd : Column get set t) (ht : t ∈ F.cells) {db db' : Db}
    (h : Agree tables F db db') : get db' = get db := hd.get_eq (h t ht)

/-- The table is written by what the footprint shows of the database. -/
lemma Column.keeps_of (hd : Column get set t) (ht : t ∈ F.writes) {f : Db → γ}
    (hf : ∀ db db', Agree tables F db db' → f db = f db') :
    Keeps tables F fun db => set (f db) db where
  frame db t' ht' := hd.frame db _ t' fun he => ht' (he ▸ ht)
  agree db db' h t' ht' := by
    rw [hf db db' h]
    by_cases he : t' = t
    · subst he
      exact hd.same _
    · have E := tables.equivalence t'
      exact E.trans (E.symm (hd.frame db _ t' he))
        (E.trans (h t' (List.mem_append_left _ ht')) (hd.frame db' _ t' he))

lemma Column.keeps (hd : Column get set t) (ht : t ∈ F.writes) (g : γ → γ) :
    Keeps tables F fun db => set (g (get db)) db :=
  hd.keeps_of ht fun _ _ h => by rw [hd.eq_of_agree (List.mem_append_left _ ht) h]

lemma Column.look (hd : Column get set t) (ht : t ∈ F.cells) (g : γ → α) :
    Uses tables F (Request.look fun db => g (get db) : Api α) :=
  uses_look fun db db' h => by rw [hd.eq_of_agree ht h]

/-- A call that cannot fail, and shows nothing of the table that it rewrites. -/
lemma Column.rewrite (hd : Column get set t) (ht : t ∈ F.writes) (g : γ → γ) (a : α) :
    Uses tables F (Request.atomically fun db => .ok (a, set (g (get db)) db) : Api α) :=
  uses_atomically (hd.keeps ht g) fun _ _ _ => rfl

/-- A call that changes the table, or fails, by what the footprint shows of the database; what comes
`after` goes along with the change. -/
lemma Column.keeps_atomically (hd : Column get set t) (ht : t ∈ F.writes)
    {g : Db → Except Error (α × Db)} {change : Db → Except Error γ}
    (hchange : ∀ db db', Agree tables F db db' → change db = change db') {after : Db → Db}
    (hafter : Keeps tables F after)
    (h : ∀ db, (g db).map Prod.snd = (change db).map fun x => after (set x db)) :
    Keeps tables F fun db => ((Request.atomically g).exec db).2 := by
  have hstore : (fun db => ((Request.atomically g).exec db).2) = fun db =>
      if (change db).isOk then after (set ((change db).toOption.getD (get db)) db) else db := by
    funext db
    have hdb := h db
    rw [exec_atomically]
    rcases hg : g db with e | a <;> rcases hc : change db with e' | x <;> rw [hg, hc] at hdb
    · rfl
    · cases hdb
    · cases hdb
    · exact Except.ok.inj hdb
  rw [hstore]
  refine keeps_ite (fun db db' hdb => by rw [hchange db db' hdb])
    (hafter.comp (hd.keeps_of ht fun db db' hdb => ?_))
  rw [hchange db db' hdb, hd.eq_of_agree (List.mem_append_left _ ht) hdb]

lemma Column.ends_of (hd : Column get set t) (ht : t ∈ F.writes) {g : Db → Except Error (α × Db)}
    (change : Db → Except Error γ)
    (hchange : ∀ db db', Agree tables F db db' → change db = change db') {after : Db → Db}
    (hafter : Keeps tables F after)
    (h : ∀ db, (g db).map Prod.snd = (change db).map fun x => after (set x db)) :
    Ends tables F (Request.atomically g) := by
  refine ends_atomically (hd.keeps_atomically ht hchange hafter h) fun db db' hdb => ?_
  have hanswer (db : Db) : (g db).map (fun _ => ()) = (change db).map fun _ => () := by
    have hdb := congrArg (Except.map fun _ => ()) (h db)
    rcases hg : g db with e | a <;> rcases hc : change db with e' | x <;>
      rw [hg, hc] at hdb <;> exact hdb
  rw [hanswer, hanswer, hchange db db' hdb]

/-- A call that changes the table, or fails, by what it finds there. -/
lemma Column.ends (hd : Column get set t) (ht : t ∈ F.writes) {g : Db → Except Error (α × Db)}
    (change : γ → Except Error γ) {after : Db → Db} (hafter : Keeps tables F after)
    (h : ∀ db, (g db).map Prod.snd = (change (get db)).map fun x => after (set x db)) :
    Ends tables F (Request.atomically g) :=
  hd.ends_of ht (fun db => change (get db))
    (fun db db' hdb => by rw [hd.eq_of_agree (List.mem_append_left _ ht) hdb]) hafter h

/-- A call that shows of the database only what it makes of the table. -/
lemma Column.uses (hd : Column get set t) (ht : t ∈ F.writes) {g : Db → Except Error (α × Db)}
    (change : γ → Except Error (α × γ))
    (h : ∀ db, g db = (change (get db)).map fun x => (x.1, set x.2 db)) :
    Uses tables F (Request.atomically g) := by
  refine uses_atomically (hd.keeps_atomically ht
    (fun db db' hdb => congrArg (fun x => (change x).map Prod.snd)
      (hd.eq_of_agree (List.mem_append_left _ ht) hdb).symm) keeps_id fun db => ?_)
    fun db db' hdb => ?_
  · rw [h]
    rcases change (get db) with e | x <;> rfl
  · have hanswer (db : Db) : (g db).map Prod.fst = (change (get db)).map Prod.fst := by
      rw [h]
      rcases change (get db) with e | x <;> rfl
    rw [hanswer, hanswer, hd.eq_of_agree (List.mem_append_left _ ht) hdb]

end Columns

section Delegates

variable {ρ α β : Type} {d : Delegate ρ} {t : TableName} {F : Footprint TableName} {id : Id}
  {f : ρ → Option ρ}

/-- The client offers this table. -/
abbrev Offers (d : Delegate ρ) (t : TableName) : Prop := Column d.get d.set t

lemma offers_findUnique (hd : Offers d t) (ht : t ∈ F.cells) :
    Uses tables F (d.findUnique id) := hd.look ht fun x => x.find? id

lemma offers_found (hd : Offers d t) (ht : t ∈ F.cells) (e : Error) :
    Uses tables F (d.findUnique id >>= fun found => orThrow e found) :=
  (offers_findUnique hd ht).bind fun _ => uses_orThrow

lemma offers_findFirst (hd : Offers d t) (ht : t ∈ F.cells) (p : ρ → Bool) :
    Uses tables F (d.findFirst p) := hd.look ht fun x => x.rows.find? fun e : Id × ρ => p e.2

lemma offers_findFirstNot (hd : Offers d t) (ht : t ∈ F.cells) (p : ρ → Bool) :
    Uses tables F (d.findFirstNot id p) :=
  hd.look ht fun x => x.rows.find? fun e : Id × ρ => e.1 ≠ id && p e.2

lemma offers_findManyIn (hd : Offers d t) (ht : t ∈ F.cells) (ids : List Id) :
    Uses tables F (d.findManyIn ids) :=
  hd.look ht fun x => x.rows.filter fun e : Id × ρ => decide (e.1 ∈ ids)

/-- The table after a row is created, or what the creation throws. -/
def created (id : Id) (row : ρ) (x : Table Id ρ) : Except Error (Table Id ρ) :=
  match x.find? id with
  | some _ => .error (.prisma .uniqueConstraint)
  | none => .ok (x.put id row)

lemma ends_create (hd : Offers d t) (ht : t ∈ F.writes) (row : ρ) (view : Db → α) :
    Ends tables F (d.create id row view) := by
  refine hd.ends ht (created id row) keeps_id fun db => ?_
  unfold created
  rcases (d.get db).find? id with _ | old <;> rfl

lemma ends_createFrom (hd : Offers d t) (ht : t ∈ F.writes) (row : Option ρ)
    (view : ρ → Db → α) : Ends tables F (d.createFrom id row view) := by
  cases row with
  | none => exact Uses.ends (.done _)
  | some row => exact ends_create hd ht row _

/-- The table after an update, or what the update throws. -/
def updated (id : Id) (f : ρ → Option ρ) (x : Table Id ρ) : Except Error (ρ × Table Id ρ) :=
  match x.find? id with
  | none => .error (.prisma .recordNotFound)
  | some row =>
    match f row with
    | none => .error (.prisma .requiredNull)
    | some row' => .ok (row', x.put id row')

lemma ends_update (hd : Offers d t) (ht : t ∈ F.writes) (view : ρ → Db → α) :
    Ends tables F (d.update id f view) := by
  refine hd.ends ht (fun x => (updated id f x).map Prod.snd) keeps_id fun db => ?_
  unfold updated
  rcases (d.get db).find? id with _ | row
  · rfl
  · dsimp only
    rcases f row with _ | row' <;> rfl

/-- An update whose answer is made of the row alone. -/
lemma uses_update (hd : Offers d t) (ht : t ∈ F.writes) (view : ρ → α) :
    Uses tables F (d.update id f fun row _ => view row) := by
  refine hd.uses ht (fun x => (updated id f x).map fun y => (view y.1, y.2)) fun db => ?_
  unfold updated
  rcases (d.get db).find? id with _ | row
  · rfl
  · dsimp only
    rcases f row with _ | row' <;> rfl

/-- The table after a row is deleted, or what the deletion throws. -/
def erased (id : Id) (x : Table Id ρ) : Except Error (Table Id ρ) :=
  match x.find? id with
  | none => .error (.prisma .recordNotFound)
  | some _ => .ok (x.erase id)

lemma ends_deleteRow (hd : Offers d t) (ht : t ∈ F.writes) {cascade : Db → Db}
    (hcascade : Keeps tables F cascade) : Ends tables F (d.deleteRow id cascade) := by
  refine hd.ends ht (erased id) hcascade fun db => ?_
  unfold erased
  rcases (d.get db).find? id with _ | row <;> rfl

lemma uses_delete (hd : Offers d t) (ht : t ∈ F.writes) : Uses tables F (d.delete id) := by
  refine hd.uses ht (fun x => (erased id x).map fun x => ((), x)) fun db => ?_
  unfold erased
  rcases (d.get db).find? id with _ | row <;> rfl

lemma ends_removeUnused (hd : Offers d t) (ht : t ∈ F.writes) {missing : Error}
    {used : Db → Bool} {retire : ρ → ρ} {cascade : Db → Db}
    (hused : ∀ db db', Agree tables F db db' → used db = used db')
    (hcascade : Keeps tables F cascade) :
    Ends tables F (d.removeUnused id missing used retire cascade) := by
  refine Ends.bind (uses_look fun db db' h => ?_) fun _ => Ends.bind uses_orThrow fun used => ?_
  · rw [hd.eq_of_agree (List.mem_append_left _ ht) h, hused db db' h]
  · split
    · exact ends_update hd ht _
    · exact ends_deleteRow hd ht hcascade

end Delegates

/-! ### The tables of the services -/

lemma offers_transactions : Offers transaction .transactions where
  get_eq h := h
  frame _ _ t ht := by cases t <;> first | rfl | exact absurd rfl ht
  same _ := rfl

lemma offers_payments : Offers payment .payments where
  get_eq h := h
  frame _ _ t ht := by cases t <;> first | rfl | exact absurd rfl ht
  same _ := rfl

lemma offers_orders : Offers order .orders where
  get_eq h := h
  frame _ _ t ht := by cases t <;> first | rfl | exact absurd rfl ht
  same _ := rfl

lemma offers_categories : Offers category .categories where
  get_eq h := h
  frame _ _ t ht := by cases t <;> first | rfl | exact absurd rfl ht
  same _ := rfl

lemma offers_products : Offers product .products where
  get_eq h := h
  frame _ _ t ht := by cases t <;> first | rfl | exact absurd rfl ht
  same _ := rfl

lemma offers_modifiers : Offers modifier .modifiers where
  get_eq h := h
  frame _ _ t ht := by cases t <;> first | rfl | exact absurd rfl ht
  same _ := rfl

lemma offers_discounts : Offers discount .discounts where
  get_eq h := h
  frame _ _ t ht := by cases t <;> first | rfl | exact absurd rfl ht
  same _ := rfl

lemma offers_inventoryItems : Offers inventoryItem .inventoryItems where
  get_eq h := h
  frame _ _ t ht := by cases t <;> first | rfl | exact absurd rfl ht
  same _ := rfl

lemma offers_inventoryMovements : Offers inventoryMovement .inventoryMovements where
  get_eq h := h
  frame _ _ t ht := by cases t <;> first | rfl | exact absurd rfl ht
  same _ := rfl

lemma offers_suppliers : Offers supplier .suppliers where
  get_eq h := h
  frame _ _ t ht := by cases t <;> first | rfl | exact absurd rfl ht
  same _ := rfl

lemma offers_recipes : Offers recipe .recipes where
  get_eq h := h
  frame _ _ t ht := by cases t <;> first | rfl | exact absurd rfl ht
  same _ := rfl

lemma offers_shifts : Offers shift .shifts where
  get_eq h := h
  frame _ _ t ht := by cases t <;> first | rfl | exact absurd rfl ht
  same _ := rfl

lemma offers_cashRegisters : Offers cashRegister .cashRegisters where
  get_eq h := h
  frame _ _ t ht := by cases t <;> first | rfl | exact absurd rfl ht
  same _ := rfl

lemma offers_taxes : Offers tax .taxes where
  get_eq h := h
  frame _ _ t ht := by cases t <;> first | rfl | exact absurd rfl ht
  same _ := rfl

lemma column_lineItems :
    Column Db.lineItems (fun x db => { db with lineItems := x }) .lineItems where
  get_eq h := h
  frame _ _ t ht := by cases t <;> first | rfl | exact absurd rfl ht
  same _ := rfl

lemma column_productModifiers :
    Column Db.productModifiers (fun x db => { db with productModifiers := x })
      .productModifiers where
  get_eq h := h
  frame _ _ t ht := by cases t <;> first | rfl | exact absurd rfl ht
  same _ := rfl

lemma column_recipeIngredients :
    Column Db.recipeIngredients (fun x db => { db with recipeIngredients := x })
      .recipeIngredients where
  get_eq h := h
  frame _ _ t ht := by cases t <;> first | rfl | exact absurd rfl ht
  same _ := rfl

lemma column_cashDenominations :
    Column Db.cashDenominations (fun x db => { db with cashDenominations := x })
      .cashDenominations where
  get_eq h := h
  frame _ _ t ht := by cases t <;> first | rfl | exact absurd rfl ht
  same _ := rfl

lemma column_cashExpenses :
    Column Db.cashExpenses (fun x db => { db with cashExpenses := x }) .cashExpenses where
  get_eq h := h
  frame _ _ t ht := by cases t <;> first | rfl | exact absurd rfl ht
  same _ := rfl

section Calls

variable {F : Footprint TableName} {id newId : Id}

/-! ### Sales -/

lemma uses_verifyProducts (items : List Transactions.TransactionLineItemDto)
    (h : .products ∈ F.cells) : Uses tables F (Transactions.verifyProducts items) :=
  (offers_findManyIn offers_products h _).bind fun _ => uses_throwIf

lemma uses_deleteLineItems (h : .lineItems ∈ F.writes) :
    Uses tables F (Transactions.deleteLineItems id) :=
  column_lineItems.rewrite h (fun x => x.filter fun l => l.transactionId ≠ id) ()

lemma transactions_create (dto : Transactions.CreateTransactionDto) :
    Ends tables { writes := [.transactions, .lineItems], reads := [.products] }
      (Transactions.create newId dto) := by
  have hwrite : Ends tables { writes := [.transactions, .lineItems], reads := [.products] }
      (Transactions.writeCreate newId dto) := by
    refine offers_transactions.ends (by decide) (created newId dto.row)
      (column_lineItems.keeps (by decide) fun x =>
        x ++ Transactions.lineRows newId dto.lineItems) fun db => ?_
    dsimp only [created, transaction]
    rcases db.transactions.find? newId with _ | old <;> rfl
  unfold Transactions.create
  split
  · exact Ends.bind (uses_verifyProducts _ (by decide)) fun _ => hwrite
  · exact hwrite

lemma transactions_update (dto : Transactions.UpdateTransactionDto) :
    Ends tables { writes := [.transactions, .lineItems], reads := [.products] }
      (Transactions.update id dto) := by
  have hwrite : Ends tables { writes := [.transactions, .lineItems], reads := [.products] }
      (Transactions.writeUpdate id dto) := by
    refine offers_transactions.ends (by decide) (fun x => (updated id dto.apply x).map Prod.snd)
      (column_lineItems.keeps (by decide) fun x =>
        x ++ Transactions.lineRows id dto.items) fun db => ?_
    dsimp only [updated, transaction]
    rcases db.transactions.find? id with _ | row
    · rfl
    · dsimp only
      rcases dto.apply row with _ | row' <;> rfl
  refine Ends.bind (offers_findUnique offers_transactions (by decide)) fun _ =>
    Ends.bind uses_orThrow fun _ => Ends.bind uses_throwIf fun _ => ?_
  split
  · exact Ends.bind (uses_verifyProducts _ (by decide)) fun _ =>
      Ends.bind (uses_deleteLineItems (by decide)) fun _ => hwrite
  · exact hwrite

lemma transactions_cancel :
    Ends tables { writes := [.transactions] } (Transactions.cancel id) :=
  Ends.bind (offers_findUnique offers_transactions (by decide)) fun _ =>
    Ends.bind uses_orThrow fun _ => Ends.bind uses_throwIf fun _ =>
      ends_update offers_transactions (by decide) _

lemma transactions_complete (now : Instant) :
    Ends tables { writes := [.transactions], reads := [.lineItems, .payments, .products] }
      (Transactions.complete id now) := by
  have hfind : Uses tables
      { writes := [.transactions], reads := [.lineItems, .payments, .products] }
      (Transactions.findOne id) := by
    refine (uses_look fun db db' h => ?_).bind fun _ => uses_orThrow
    have htransactions : db'.transactions = db.transactions := h .transactions (by decide)
    have hlineItems : db'.lineItems = db.lineItems := h .lineItems (by decide)
    have hpayments : db'.payments = db.payments := h .payments (by decide)
    have hproducts : db'.products = db.products := h .products (by decide)
    unfold Transactions.viewOf Transactions.linesOf Transactions.paymentsOf
    rw [htransactions, hlineItems, hpayments, hproducts]
  exact Ends.bind hfind fun _ => Ends.bind (hfind.bind fun _ => .done _) fun _ =>
    Ends.bind uses_throwIf fun _ => ends_update offers_transactions (by decide) _

lemma transactions_remove : Ends tables
    { writes := [.transactions, .lineItems, .payments] } (Transactions.remove id) := by
  have hpayments : Uses tables { writes := [.transactions, .lineItems, .payments] }
      (Transactions.deletePayments id) :=
    offers_payments.rewrite (by decide) (fun x => x.keep fun _ p => p.transactionId ≠ id) ()
  exact Ends.bind (offers_findUnique offers_transactions (by decide)) fun _ =>
    Ends.bind uses_orThrow fun _ => Ends.bind uses_throwIf fun _ =>
      Ends.bind (uses_deleteLineItems (by decide)) fun _ => Ends.bind hpayments fun _ =>
        (uses_delete offers_transactions (by decide)).ends

lemma payments_create (dto : Payments.CreatePaymentDto) :
    Ends tables { writes := [.payments], reads := [.transactions] } (Payments.create newId dto) :=
  Ends.bind (offers_findUnique offers_transactions (by decide)) fun _ =>
    Ends.bind uses_orThrow fun _ => ends_create offers_payments (by decide) _ _

lemma payments_update (dto : Payments.UpdatePaymentDto) :
    Ends tables { writes := [.payments] } (Payments.update id dto) :=
  Ends.bind (offers_found offers_payments (by decide) _) fun _ => Ends.bind uses_throwIf fun _ =>
    Ends.bind uses_throwIf fun _ => ends_update offers_payments (by decide) _

lemma payments_refund (now : Instant) :
    Ends tables { writes := [.payments] } (Payments.refund id now) :=
  Ends.bind (offers_found offers_payments (by decide) _) fun _ => Ends.bind uses_throwIf fun _ =>
    ends_update offers_payments (by decide) _

lemma payments_remove : Ends tables { writes := [.payments] } (Payments.remove id) :=
  Ends.bind (offers_found offers_payments (by decide) _) fun _ => Ends.bind uses_throwIf fun _ =>
    (uses_delete offers_payments (by decide)).ends

lemma orders_create (midnight : Instant → Instant) (dto : Orders.CreateOrderDto)
    (now createdAt : Instant) : Ends tables { writes := [.orders], reads := [.transactions] }
      (Orders.create midnight newId dto now createdAt) := by
  refine Ends.bind ?_ fun _ => Ends.bind ?_ fun _ => ends_create offers_orders (by decide) _ _
  · unfold Orders.verifyTransaction
    split
    · exact .done _
    · exact (offers_findUnique offers_transactions (by decide)).bind fun _ =>
        uses_orThrow.bind fun _ => .done _
  · exact (offers_orders.look (by decide) fun x =>
      (x.rows.filter fun e : Id × Order => midnight now ≤ e.2.createdAt).length).bind
        fun _ => .done _

lemma orders_update (dto : Orders.UpdateOrderDto) :
    Ends tables { writes := [.orders] } (Orders.update id dto) :=
  Ends.bind (offers_found offers_orders (by decide) _) fun _ => Ends.bind uses_throwIf fun _ =>
    Ends.bind uses_throwIf fun _ => ends_update offers_orders (by decide) _

lemma orders_advance (source : OrderStatus) (message : String) (f : Order → Order) :
    Ends tables { writes := [.orders] } (Orders.advance id source message f) :=
  Ends.bind (offers_found offers_orders (by decide) _) fun _ => Ends.bind uses_throwIf fun _ =>
    ends_update offers_orders (by decide) _

lemma orders_cancel (now : Instant) :
    Ends tables { writes := [.orders] } (Orders.cancel id now) :=
  Ends.bind (offers_found offers_orders (by decide) _) fun _ => Ends.bind uses_throwIf fun _ =>
    Ends.bind uses_throwIf fun _ => ends_update offers_orders (by decide) _

lemma orders_remove : Ends tables { writes := [.orders] } (Orders.remove id) :=
  Ends.bind (offers_found offers_orders (by decide) _) fun _ => Ends.bind uses_throwIf fun _ =>
    (uses_delete offers_orders (by decide)).ends

/-! ### The catalog -/

lemma uses_verifyCategory (categoryId : Id) (h : .categories ∈ F.cells) :
    Uses tables F (Products.verifyCategory categoryId) :=
  (offers_findUnique offers_categories h).bind fun _ => uses_orThrow.bind fun _ => .done _

lemma categories_create (fold : String → String) (dto : Categories.CreateCategoryDto) :
    Ends tables { writes := [.categories] } (Categories.create fold newId dto) := by
  refine Ends.bind (offers_findFirst offers_categories (by decide) _) fun _ =>
    Ends.bind uses_throwIf fun _ => Ends.bind ?_ fun _ =>
      ends_createFrom offers_categories (by decide) _ _
  exact offers_categories.look (by decide) fun x =>
    (x.rows.map fun e : Id × Category => e.2.sortOrder).max?

lemma categories_update (fold : String → String) (dto : Categories.UpdateCategoryDto) :
    Ends tables { writes := [.categories] } (Categories.update fold id dto) :=
  Ends.bind (offers_found offers_categories (by decide) _) fun _ =>
    Ends.bind (uses_checkSome fun _ =>
      (offers_findFirstNot offers_categories (by decide) _).bind fun _ => uses_throwIf)
      fun _ => ends_update offers_categories (by decide) _

lemma categories_updateSortOrder (sortOrder : ℤ) :
    Ends tables { writes := [.categories] } (Categories.updateSortOrder id sortOrder) :=
  Ends.bind (offers_found offers_categories (by decide) _) fun _ =>
    ends_update offers_categories (by decide) _

lemma categories_remove :
    Ends tables { writes := [.categories], reads := [.products] } (Categories.remove id) := by
  refine ends_removeUnused offers_categories (by decide) (fun db db' h => ?_) keeps_id
  have hproducts : db'.products = db.products := h .products (by decide)
  unfold Categories.countProducts
  rw [hproducts]

lemma products_create (dto : Products.CreateProductDto) :
    Ends tables { writes := [.products], reads := [.categories] } (Products.create newId dto) :=
  Ends.bind (offers_findFirst offers_products (by decide) _) fun _ => Ends.bind uses_throwIf
    fun _ => Ends.bind (uses_verifyCategory _ (by decide)) fun _ =>
      ends_createFrom offers_products (by decide) _ _

lemma products_update (dto : Products.UpdateProductDto) :
    Ends tables { writes := [.products], reads := [.categories] } (Products.update id dto) :=
  Ends.bind (offers_findUnique offers_products (by decide)) fun _ => Ends.bind uses_orThrow
    fun _ => Ends.bind (uses_checkSome fun _ =>
      (offers_findFirst offers_products (by decide) _).bind fun _ => uses_throwIf) fun _ =>
        Ends.bind (uses_checkSome fun _ => uses_verifyCategory _ (by decide)) fun _ =>
          ends_update offers_products (by decide) _

/-- The ingredients that go with a product are found by the recipes that do. -/
lemma keeps_cascade : Keeps tables
    { writes := [.products, .recipes, .recipeIngredients, .productModifiers],
      reads := [.ticketLines] } (Products.cascade id) where
  frame db t ht := by
    cases t with
    | recipes => exact absurd (by decide) ht
    | recipeIngredients => exact absurd (by decide) ht
    | productModifiers => exact absurd (by decide) ht
    | _ => rfl
  agree db db' h t ht := by
    -- what the cascade reads are tables that it writes as well
    have hproducts : db'.products = db.products := h .products (by decide)
    have hrecipes : db'.recipes = db.recipes := h .recipes (by decide)
    have hingredients : db'.recipeIngredients = db.recipeIngredients :=
      h .recipeIngredients (by decide)
    have hmodifiers : db'.productModifiers = db.productModifiers := h .productModifiers (by decide)
    show SameAt _ _ t
    unfold Products.cascade
    rw [hrecipes, hingredients, hmodifiers]
    cases t with
    | products => exact hproducts
    | recipes => rfl
    | recipeIngredients => rfl
    | productModifiers => rfl
    | _ => simp at ht

lemma products_remove : Ends tables
    { writes := [.products, .recipes, .recipeIngredients, .productModifiers],
      reads := [.ticketLines] } (Products.remove id) := by
  refine ends_removeUnused offers_products (by decide) (fun db db' h => ?_) keeps_cascade
  have hlines : db'.ticketLines = db.ticketLines := h .ticketLines (by decide)
  unfold Products.countTicketLines
  rw [hlines]

lemma modifiers_create (fold : String → String) (dto : Modifiers.CreateModifierDto) :
    Ends tables { writes := [.modifiers] } (Modifiers.create fold newId dto) :=
  Ends.bind (offers_findFirst offers_modifiers (by decide) _) fun _ => Ends.bind uses_throwIf
    fun _ => ends_createFrom offers_modifiers (by decide) _ _

lemma modifiers_update (fold : String → String) (dto : Modifiers.UpdateModifierDto) :
    Ends tables { writes := [.modifiers] } (Modifiers.update fold id dto) :=
  Ends.bind (offers_findUnique offers_modifiers (by decide)) fun _ => Ends.bind uses_orThrow
    fun _ => Ends.bind (uses_checkSome fun _ =>
      (offers_findFirstNot offers_modifiers (by decide) _).bind fun _ => uses_throwIf)
      fun _ => ends_update offers_modifiers (by decide) _

lemma modifiers_remove : Ends tables
    { writes := [.modifiers, .productModifiers], reads := [.ticketLineModifiers] }
    (Modifiers.remove id) := by
  refine ends_removeUnused offers_modifiers (by decide) (fun db db' h => ?_)
    (column_productModifiers.keeps (by decide) fun x => x.filter fun m => m.modifierId ≠ id)
  have hproducts : db'.productModifiers = db.productModifiers := h .productModifiers (by decide)
  have hlines : db'.ticketLineModifiers = db.ticketLineModifiers :=
    h .ticketLineModifiers (by decide)
  unfold Modifiers.countProducts Modifiers.countTicketLineModifiers
  rw [hproducts, hlines]

lemma discounts_create (dto : Discounts.CreateDiscountDto) :
    Ends tables { writes := [.discounts] } (Discounts.create newId dto) :=
  Ends.bind (offers_findFirst offers_discounts (by decide) _) fun _ => Ends.bind uses_throwIf
    fun _ => Ends.bind uses_throwIf fun _ => Ends.bind uses_throwIf fun _ =>
      Ends.bind uses_throwIf fun _ => ends_createFrom offers_discounts (by decide) _ _

lemma discounts_update (dto : Discounts.UpdateDiscountDto) :
    Ends tables { writes := [.discounts] } (Discounts.update id dto) :=
  Ends.bind (offers_found offers_discounts (by decide) _) fun _ =>
    Ends.bind (uses_checkSome fun _ =>
      (offers_findFirst offers_discounts (by decide) _).bind fun _ => uses_throwIf)
      fun _ => Ends.bind uses_throwIf fun _ => Ends.bind uses_throwIf fun _ =>
        Ends.bind uses_throwIf fun _ => ends_update offers_discounts (by decide) _

lemma discounts_switch (isActive : Bool) (view : Discount → Db → Discounts.DiscountView) :
    Ends tables { writes := [.discounts] } (do
      let _ ← Discounts.findOne id
      discount.update id (fun row => some { row with isActive }) view) :=
  Ends.bind (offers_found offers_discounts (by decide) _) fun _ =>
    ends_update offers_discounts (by decide) _

lemma discounts_incrementUsage :
    Ends tables { writes := [.discounts] } (Discounts.incrementUsage id) :=
  ends_update offers_discounts (by decide) _

lemma discounts_remove : Ends tables { writes := [.discounts] } (Discounts.remove id) :=
  Ends.bind (offers_found offers_discounts (by decide) _) fun _ =>
    ends_deleteRow offers_discounts (by decide) keeps_id

/-! ### The stock -/

lemma uses_verifySupplier (supplierId : Property Id) (h : .suppliers ∈ F.cells) :
    Uses tables F (InventoryItems.verifySupplier supplierId) :=
  uses_checkSome fun _ => (offers_findUnique offers_suppliers h).bind fun _ =>
    uses_orThrow.bind fun _ => .done _

lemma inventoryItems_create (dto : InventoryItems.CreateInventoryItemDto) :
    Ends tables { writes := [.inventoryItems], reads := [.suppliers] }
      (InventoryItems.create newId dto) :=
  Ends.bind (offers_findFirst offers_inventoryItems (by decide) _) fun _ =>
    Ends.bind uses_throwIf fun _ => Ends.bind (uses_verifySupplier _ (by decide)) fun _ =>
      ends_createFrom offers_inventoryItems (by decide) _ _

lemma inventoryItems_update (dto : InventoryItems.UpdateInventoryItemDto) :
    Ends tables { writes := [.inventoryItems], reads := [.suppliers] }
      (InventoryItems.update id dto) :=
  Ends.bind (offers_findUnique offers_inventoryItems (by decide)) fun _ =>
    Ends.bind uses_orThrow fun _ => Ends.bind (uses_checkSome fun _ =>
      (offers_findFirst offers_inventoryItems (by decide) _).bind fun _ => uses_throwIf)
      fun _ => Ends.bind (uses_verifySupplier _ (by decide)) fun _ =>
        ends_update offers_inventoryItems (by decide) _

lemma inventoryItems_remove : Ends tables
    { writes := [.inventoryItems], reads := [.recipeIngredients, .inventoryMovements] }
    (InventoryItems.remove id) := by
  refine ends_removeUnused offers_inventoryItems (by decide) (fun db db' h => ?_) keeps_id
  have hingredients : db'.recipeIngredients = db.recipeIngredients :=
    h .recipeIngredients (by decide)
  have hmovements : db'.inventoryMovements = db.inventoryMovements :=
    h .inventoryMovements (by decide)
  unfold InventoryItems.countRecipeIngredients InventoryItems.countMovements
  rw [hingredients, hmovements]

lemma inventoryMovements_create (dto : InventoryMovements.CreateInventoryMovementDto) :
    Ends tables { writes := [.inventoryMovements], reads := [.inventoryItems] }
      (InventoryMovements.create newId dto) := by
  have hwrite : Ends tables { writes := [.inventoryMovements], reads := [.inventoryItems] }
      (inventoryMovement.create newId dto.row (InventoryMovements.viewOf newId dto.row)) :=
    ends_create offers_inventoryMovements (by decide) _ _
  refine Ends.bind (offers_findUnique offers_inventoryItems (by decide)) fun _ =>
    Ends.bind uses_orThrow fun _ => ?_
  split
  · refine Ends.bind ?_ fun _ => Ends.bind uses_throwIf fun _ => hwrite
    exact offers_inventoryItems.look (by decide) fun x =>
      ((x.find? dto.inventoryItemId).bind fun row => row.currentStock).getD 0
  · exact hwrite

lemma inventoryMovements_update (dto : InventoryMovements.UpdateInventoryMovementDto) :
    Ends tables { writes := [.inventoryMovements] } (InventoryMovements.update id dto) :=
  Ends.bind (offers_found offers_inventoryMovements (by decide) _) fun _ =>
    ends_update offers_inventoryMovements (by decide) _

lemma inventoryMovements_remove :
    Ends tables { writes := [.inventoryMovements] } (InventoryMovements.remove id) :=
  Ends.bind (offers_found offers_inventoryMovements (by decide) _) fun _ =>
    (uses_delete offers_inventoryMovements (by decide)).ends

lemma suppliers_create (dto : Suppliers.CreateSupplierDto) :
    Ends tables { writes := [.suppliers] } (Suppliers.create newId dto) :=
  Ends.bind (offers_findFirst offers_suppliers (by decide) _) fun _ => Ends.bind uses_throwIf
    fun _ => ends_create offers_suppliers (by decide) _ _

lemma suppliers_update (dto : Suppliers.UpdateSupplierDto) :
    Ends tables { writes := [.suppliers] } (Suppliers.update id dto) :=
  Ends.bind (offers_findUnique offers_suppliers (by decide)) fun _ => Ends.bind uses_orThrow
    fun _ => Ends.bind (uses_checkSome fun _ =>
      (offers_findFirst offers_suppliers (by decide) _).bind fun _ => uses_throwIf)
      fun _ => ends_update offers_suppliers (by decide) _

lemma suppliers_remove :
    Ends tables { writes := [.suppliers], reads := [.inventoryItems] } (Suppliers.remove id) := by
  refine Ends.bind (uses_look fun db db' h => ?_) fun _ => Ends.bind uses_orThrow fun _ => ?_
  · have hsuppliers : db'.suppliers = db.suppliers := h .suppliers (by decide)
    have hitems : db'.inventoryItems = db.inventoryItems := h .inventoryItems (by decide)
    unfold Suppliers.countInventoryItems
    rw [hsuppliers, hitems]
  · split
    · exact ends_update offers_suppliers (by decide) _
    · exact Ends.bind (uses_delete offers_suppliers (by decide)) fun _ => Uses.ends (.done _)

lemma uses_verifyIngredients (ingredients : List Recipes.RecipeIngredientDto)
    (h : .inventoryItems ∈ F.cells) : Uses tables F (Recipes.verifyIngredients ingredients) :=
  (offers_findManyIn offers_inventoryItems h _).bind fun _ => uses_throwIf

lemma uses_deleteIngredients (h : .recipeIngredients ∈ F.writes) :
    Uses tables F (Recipes.deleteIngredients id) :=
  column_recipeIngredients.rewrite h (fun x => x.filter fun i => i.recipeId ≠ id) ()

/-- What is left of a write that the unique constraint may refuse. -/
def refusing {γ : Type} (c : Prop) [Decidable c] (x : γ) : Except Error γ :=
  if c then .error (.prisma .uniqueConstraint) else .ok x

lemma recipes_create (dto : Recipes.CreateRecipeDto) : Ends tables
    { writes := [.recipes, .recipeIngredients], reads := [.products, .inventoryItems] }
    (Recipes.create newId dto) := by
  have hwrite : Ends tables
      { writes := [.recipes, .recipeIngredients], reads := [.products, .inventoryItems] }
      (Recipes.writeCreate newId dto) := by
    refine offers_recipes.ends (by decide) (fun x => (created newId dto.row x).bind
      (refusing (¬ Recipes.Fits [] dto.items)))
      (column_recipeIngredients.keeps (by decide) fun x =>
        x ++ Recipes.ingredientRows newId dto.items) fun db => ?_
    dsimp only [created, recipe]
    rcases db.recipes.find? newId with _ | old
    · unfold refusing
      dsimp only [Except.bind]
      split <;> rfl
    · rfl
  refine Ends.bind (offers_findUnique offers_products (by decide)) fun _ =>
    Ends.bind uses_orThrow fun _ => ?_
  split
  · exact Ends.bind (uses_verifyIngredients _ (by decide)) fun _ => hwrite
  · exact hwrite

lemma recipes_update (dto : Recipes.UpdateRecipeDto) : Ends tables
    { writes := [.recipes, .recipeIngredients], reads := [.products, .inventoryItems] }
    (Recipes.update id dto) := by
  have hwrite : Ends tables
      { writes := [.recipes, .recipeIngredients], reads := [.products, .inventoryItems] }
      (Recipes.writeUpdate id dto) := by
    -- the last call reads the ingredients too, for the constraint that none is repeated
    refine offers_recipes.ends_of (by decide) (fun db =>
      ((updated id dto.apply db.recipes).map Prod.snd).bind
        (refusing (¬ Recipes.Fits (Recipes.ingredientsOf db id) dto.items)))
      (fun db db' hdb => ?_)
      (column_recipeIngredients.keeps (by decide) fun x =>
        x ++ Recipes.ingredientRows id dto.items) fun db => ?_
    · have hrecipes : db'.recipes = db.recipes := hdb .recipes (by decide)
      have hingredients : db'.recipeIngredients = db.recipeIngredients :=
        hdb .recipeIngredients (by decide)
      rw [Recipes.ingredientsOf, Recipes.ingredientsOf, hrecipes, hingredients]
    dsimp only [updated]
    rcases db.recipes.find? id with _ | row
    · rfl
    dsimp only
    rcases dto.apply row with _ | row'
    · rfl
    dsimp only [Except.bind, Except.map, refusing]
    by_cases hfits : Recipes.Fits (Recipes.ingredientsOf db id) dto.items
    · rw [if_neg (not_not.mpr hfits), if_neg (not_not.mpr hfits)]
      rfl
    · rw [if_pos hfits, if_pos hfits]
  refine Ends.bind (offers_findUnique offers_recipes (by decide)) fun _ =>
    Ends.bind uses_orThrow fun _ => Ends.bind ?_ fun _ => ?_
  · unfold Recipes.verifyProduct
    split
    · exact .done _
    · exact (offers_findUnique offers_products (by decide)).bind fun _ =>
        uses_orThrow.bind fun _ => .done _
  · split
    · exact Ends.bind (uses_verifyIngredients _ (by decide)) fun _ =>
        Ends.bind (uses_deleteIngredients (by decide)) fun _ => hwrite
    · exact hwrite

lemma recipes_remove :
    Ends tables { writes := [.recipes, .recipeIngredients] } (Recipes.remove id) :=
  Ends.bind (offers_findUnique offers_recipes (by decide)) fun _ => Ends.bind uses_orThrow
    fun _ => Ends.bind (uses_deleteIngredients (by decide)) fun _ =>
      (uses_delete offers_recipes (by decide)).ends

/-! ### Shifts, registers and taxes -/

lemma shifts_create (dto : Shifts.CreateShiftDto) (now : Instant) :
    Ends tables { writes := [.shifts] } (Shifts.create newId dto now) :=
  Ends.bind (offers_findFirst offers_shifts (by decide) _) fun _ => Ends.bind uses_throwIf
    fun _ => ends_create offers_shifts (by decide) _ _

lemma shifts_update (dto : Shifts.UpdateShiftDto) :
    Ends tables { writes := [.shifts] } (Shifts.update id dto) :=
  Ends.bind (offers_found offers_shifts (by decide) _) fun _ =>
    ends_update offers_shifts (by decide) _

lemma shifts_close (dto : Shifts.CloseShiftDto) (now : Instant) :
    Ends tables { writes := [.shifts] } (Shifts.close id dto now) :=
  Ends.bind (offers_found offers_shifts (by decide) _) fun _ => Ends.bind uses_throwIf
    fun _ => ends_update offers_shifts (by decide) _

lemma shifts_remove : Ends tables { writes := [.shifts] } (Shifts.remove id) :=
  Ends.bind (offers_found offers_shifts (by decide) _) fun _ => Ends.bind uses_throwIf
    fun _ => (uses_delete offers_shifts (by decide)).ends

/-- A register is found with its counts and its expenses. -/
lemma uses_findRegister (hr : .cashRegisters ∈ F.cells) (hd : .cashDenominations ∈ F.cells)
    (he : .cashExpenses ∈ F.cells) : Uses tables F (CashRegisters.findOne id) := by
  refine (uses_look fun db db' h => ?_).bind fun _ => uses_orThrow
  have hregisters : db'.cashRegisters = db.cashRegisters := h .cashRegisters hr
  have hdenominations : db'.cashDenominations = db.cashDenominations := h .cashDenominations hd
  have hexpenses : db'.cashExpenses = db.cashExpenses := h .cashExpenses he
  unfold CashRegisters.viewOf CashRegisters.denominationsOf CashRegisters.expensesOf
  rw [hregisters, hdenominations, hexpenses]

lemma cashRegisters_create (dto : CashRegisters.CreateCashRegisterDto) :
    Ends tables { writes := [.cashRegisters] } (CashRegisters.create newId dto) :=
  ends_create offers_cashRegisters (by decide) _ _

lemma cashRegisters_update (dto : CashRegisters.UpdateCashRegisterDto) : Ends tables
    { writes := [.cashRegisters], reads := [.cashDenominations, .cashExpenses] }
    (CashRegisters.update id dto) :=
  Ends.bind (uses_findRegister (by decide) (by decide) (by decide)) fun _ =>
    ends_update offers_cashRegisters (by decide) _

lemma cashRegisters_recordDenominations (dto : CashRegisters.RecordDenominationDto) : Ends tables
    { writes := [.cashRegisters, .cashDenominations], reads := [.cashExpenses] }
    (CashRegisters.recordDenominations id dto) := by
  refine Ends.bind (uses_findRegister (by decide) (by decide) (by decide)) fun _ =>
    Ends.bind (uses_all fun p hp => ?_) fun _ =>
      Ends.bind (uses_update offers_cashRegisters (by decide) _) fun _ =>
        (uses_findRegister (by decide) (by decide) (by decide)).ends
  obtain ⟨entry, -, rfl⟩ := List.mem_map.mp hp
  split
  · exact .done _
  · exact (column_cashDenominations.rewrite (by decide)
      (fun x => x ++ [CashRegisters.denominationRow id entry]) _).bind fun _ => .done _

lemma uses_expensesOf (h : .cashExpenses ∈ F.cells) :
    Uses tables F (look fun db => CashRegisters.expensesOf db id : Api (List CashExpense)) :=
  column_cashExpenses.look h fun x => x.filter fun e : CashExpense => e.cashRegisterId = id

lemma cashRegisters_recordExpense (dto : CashRegisters.RecordExpenseDto) : Ends tables
    { writes := [.cashRegisters, .cashExpenses], reads := [.cashDenominations] }
    (CashRegisters.recordExpense id dto) := by
  refine Ends.bind (uses_findRegister (by decide) (by decide) (by decide)) fun _ =>
    Ends.bind ?_ fun _ => Ends.bind ?_ fun _ =>
      Ends.bind (uses_update offers_cashRegisters (by decide) _) fun _ =>
        (uses_findRegister (by decide) (by decide) (by decide)).ends
  · exact column_cashExpenses.rewrite (by decide) (fun x => x ++ [dto.row id]) _
  · exact uses_expensesOf (by decide)

lemma cashRegisters_remove : Ends tables
    { writes := [.cashRegisters, .cashDenominations, .cashExpenses] }
    (CashRegisters.remove id) := by
  refine Ends.bind (uses_findRegister (by decide) (by decide) (by decide)) fun _ =>
    Ends.bind ?_ fun _ => Ends.bind ?_ fun _ =>
      (uses_delete offers_cashRegisters (by decide)).ends
  · exact column_cashDenominations.rewrite (by decide)
      (fun x => x.filter fun d => d.cashRegisterId ≠ id) ()
  · exact column_cashExpenses.rewrite (by decide)
      (fun x => x.filter fun e => e.cashRegisterId ≠ id) ()

lemma taxes_create (dto : Taxes.CreateTaxDto) :
    Ends tables { writes := [.taxes] } (Taxes.create newId dto) :=
  ends_createFrom offers_taxes (by decide) _ _

lemma taxes_update (dto : Taxes.UpdateTaxDto) :
    Ends tables { writes := [.taxes] } (Taxes.update id dto) :=
  Ends.bind (offers_found offers_taxes (by decide) _) fun _ =>
    ends_update offers_taxes (by decide) _

lemma taxes_remove : Ends tables { writes := [.taxes] } (Taxes.remove id) :=
  Ends.bind (offers_found offers_taxes (by decide) _) fun _ =>
    ends_deleteRow offers_taxes (by decide) keeps_id

end Calls

/-! ### All services -/

/-- The tables that a call writes, and others that its checks and its writes go by; what an answer
shows of other tables is left out. -/
def footprint : Op → Footprint TableName
  | .transactions (.create _ _) => { writes := [.transactions, .lineItems], reads := [.products] }
  | .transactions (.update _ _) => { writes := [.transactions, .lineItems], reads := [.products] }
  | .transactions (.cancel _) => { writes := [.transactions] }
  | .transactions (.complete _ _) =>
    { writes := [.transactions], reads := [.lineItems, .payments, .products] }
  | .transactions (.remove _) => { writes := [.transactions, .lineItems, .payments] }
  | .payments (.create _ _) => { writes := [.payments], reads := [.transactions] }
  | .payments _ => { writes := [.payments] }
  | .orders (.create _ _ _ _) => { writes := [.orders], reads := [.transactions] }
  | .orders _ => { writes := [.orders] }
  | .categories (.remove _) => { writes := [.categories], reads := [.products] }
  | .categories _ => { writes := [.categories] }
  | .products (.remove _) =>
    { writes := [.products, .recipes, .recipeIngredients, .productModifiers],
      reads := [.ticketLines] }
  | .products _ => { writes := [.products], reads := [.categories] }
  | .modifiers (.remove _) =>
    { writes := [.modifiers, .productModifiers], reads := [.ticketLineModifiers] }
  | .modifiers _ => { writes := [.modifiers] }
  | .discounts _ _ => { writes := [.discounts] }
  | .inventoryItems (.remove _) =>
    { writes := [.inventoryItems], reads := [.recipeIngredients, .inventoryMovements] }
  | .inventoryItems _ => { writes := [.inventoryItems], reads := [.suppliers] }
  | .inventoryMovements (.create _ _) =>
    { writes := [.inventoryMovements], reads := [.inventoryItems] }
  | .inventoryMovements _ => { writes := [.inventoryMovements] }
  | .suppliers (.remove _) => { writes := [.suppliers], reads := [.inventoryItems] }
  | .suppliers _ => { writes := [.suppliers] }
  | .recipes (.remove _) _ => { writes := [.recipes, .recipeIngredients] }
  | .recipes _ _ =>
    { writes := [.recipes, .recipeIngredients], reads := [.products, .inventoryItems] }
  | .shifts _ => { writes := [.shifts] }
  | .cashRegisters (.create _ _) => { writes := [.cashRegisters] }
  | .cashRegisters (.update _ _) =>
    { writes := [.cashRegisters], reads := [.cashDenominations, .cashExpenses] }
  | .cashRegisters (.recordDenominations _ _) =>
    { writes := [.cashRegisters, .cashDenominations], reads := [.cashExpenses] }
  | .cashRegisters (.recordExpense _ _) =>
    { writes := [.cashRegisters, .cashExpenses], reads := [.cashDenominations] }
  | .cashRegisters (.remove _) =>
    { writes := [.cashRegisters, .cashDenominations, .cashExpenses] }
  | .taxes _ => { writes := [.taxes] }

variable (midnight : Instant → Instant) (fold : String → String)

/-- **One call.** A call keeps to its footprint. -/
lemma uses_request (op : Op) : Uses tables (footprint op) (request midnight fold op) := by
  cases op with
  | transactions op =>
    cases op with
    | create newId dto => exact transactions_create dto
    | update id dto => exact transactions_update dto
    | cancel id => exact transactions_cancel
    | complete id now => exact transactions_complete now
    | remove id => exact transactions_remove
  | payments op =>
    cases op with
    | create newId dto => exact payments_create dto
    | update id dto => exact payments_update dto
    | refund id now => exact payments_refund now
    | remove id => exact payments_remove
  | orders op =>
    cases op with
    | create newId dto now createdAt => exact orders_create midnight dto now createdAt
    | update id dto => exact orders_update dto
    | startOrder id now => exact orders_advance _ _ _
    | markReady id now => exact orders_advance _ _ _
    | markServed id now => exact orders_advance _ _ _
    | cancel id now => exact orders_cancel now
    | remove id => exact orders_remove
  | categories op =>
    cases op with
    | create newId dto => exact categories_create fold dto
    | update id dto => exact categories_update fold dto
    | updateSortOrder id sortOrder => exact categories_updateSortOrder sortOrder
    | remove id => exact categories_remove
  | products op =>
    cases op with
    | create newId dto => exact products_create dto
    | update id dto => exact products_update dto
    | remove id => exact products_remove
  | modifiers op =>
    cases op with
    | create newId dto => exact modifiers_create fold dto
    | update id dto => exact modifiers_update fold dto
    | remove id => exact modifiers_remove
  | discounts op _ =>
    cases op with
    | create newId dto => exact discounts_create dto
    | update id dto => exact discounts_update dto
    | activate id => exact discounts_switch true _
    | deactivate id => exact discounts_switch false _
    | incrementUsage id => exact discounts_incrementUsage
    | remove id => exact discounts_remove
  | inventoryItems op =>
    cases op with
    | create newId dto => exact inventoryItems_create dto
    | update id dto => exact inventoryItems_update dto
    | remove id => exact inventoryItems_remove
  | inventoryMovements op =>
    cases op with
    | create newId dto => exact inventoryMovements_create dto
    | update id dto => exact inventoryMovements_update dto
    | remove id => exact inventoryMovements_remove
  | suppliers op =>
    cases op with
    | create newId dto => exact suppliers_create dto
    | update id dto => exact suppliers_update dto
    | remove id => exact suppliers_remove
  | recipes op _ =>
    cases op with
    | create newId dto => exact recipes_create dto
    | update id dto => exact recipes_update dto
    | remove id => exact recipes_remove
  | shifts op =>
    cases op with
    | create newId dto now => exact shifts_create dto now
    | update id dto => exact shifts_update dto
    | close id dto now => exact shifts_close dto now
    | remove id => exact shifts_remove
  | cashRegisters op =>
    cases op with
    | create newId dto => exact cashRegisters_create dto
    | update id dto => exact cashRegisters_update dto
    | recordDenominations id dto => exact cashRegisters_recordDenominations dto
    | recordExpense id dto => exact cashRegisters_recordExpense dto
    | remove id => exact cashRegisters_remove
  | taxes op =>
    cases op with
    | create newId dto => exact taxes_create dto
    | update id dto => exact taxes_update dto
    | remove id => exact taxes_remove

section Runs

variable {ι : Type}

/-- The calls, none of which has had a turn. -/
def start (db : Db) (ops : ι → Op) : Pool ι Db Error Unit :=
  ⟨db, fun i => request midnight fold (ops i)⟩

lemma separate_start (db : Db) (ops : ι → Op) :
    Separate (fun i => Keeps tables (footprint (ops i)))
      (fun i j => (footprint (ops i)).Free (footprint (ops j))) (start midnight fold db ops) where
  symm _ _ h := h.symm
  within i := (uses_request midnight fold (ops i)).within
  blind i _ h := (uses_request midnight fold (ops i)).blind h

lemma inTurn_requests (db : Db) (ops : ι → Op) (js : List ι) :
    Footprints.inTurn (fun i => request midnight fold (ops i)) db js =
      run (Services.step midnight fold) db (js.map ops) := by
  induction js generalizing db with
  | nil => rfl
  | cons j js ih =>
    rw [List.map_cons, run_cons, ← exec_request]
    exact ih _

variable [DecidableEq ι]

/-- **Serializability.** If no call has a turn between two turns of another that shares a table
with it which one of them writes, the calls succeed or fail, and leave the database, as they do one
after the other, in the order of their first turns. -/
theorem serializable (db : Db) (ops : ι → Op) {is : List ι}
    (hfree : ∀ i j, i ≠ j → [i, j, i].Sublist is →
      (footprint (ops i)).Free (footprint (ops j)))
    (hf : ∀ i ∈ is, ¬ (run Pool.step (start midnight fold db ops) is).Pending i) :
    (run Pool.step (start midnight fold db ops) is).store =
      run (Services.step midnight fold) db ((firsts is).map ops) ∧
    ∀ pre i post, firsts is = pre ++ i :: post →
      (run Pool.step (start midnight fold db ops) is).answer i =
        some ((request midnight fold (ops i)).exec
          (run (Services.step midnight fold) db (pre.map ops))).1 := by
  obtain ⟨hstore, hanswers⟩ := serial_of_finished (separate_start midnight fold db ops) hfree hf
  refine ⟨hstore.trans (inTurn_requests midnight fold db ops _), fun pre i post he => ?_⟩
  rw [hanswers pre i post he, ← inTurn_requests]
  rfl

end Runs

/-- An order and a till come while a shift opens; a second shift comes later. -/
def evening : Fin 4 → Op
  | 0 => .shifts (.create "late" { openingCash := .ofNat 60, userId := "bea", locationId := "bar",
                                   organizationId := "shop" } 16)
  | 1 => .orders (.create "second" { type := .takeOut } 17 18)
  | 2 => .cashRegisters (.create "drawer" { shiftId := "late", expectedCash := .ofNat 60,
                                            locationId := "bar", organizationId := "shop" })
  | 3 => .shifts (.create "night" { openingCash := .ofNat 60, userId := "cal", locationId := "bar",
                                    organizationId := "shop" } 18)

theorem serializable_evening :
    (run Pool.step (start (fun t => t) String.toLower ∅ evening) [0, 1, 2, 0, 1, 3]).store =
      run (Services.step (fun t => t) String.toLower) ∅
        ((firsts [0, 1, 2, 0, 1, 3]).map evening) ∧
    ∀ pre i post, firsts [0, 1, 2, 0, 1, 3] = pre ++ i :: post →
      (run Pool.step (start (fun t => t) String.toLower ∅ evening) [0, 1, 2, 0, 1, 3]).answer i =
        some ((request (fun t => t) String.toLower (evening i)).exec
          (run (Services.step (fun t => t) String.toLower) ∅ (pre.map evening))).1 :=
  serializable (fun t => t) String.toLower ∅ evening (by decide) (by decide +kernel)

end CoffeeOs.Overlaps

import CoffeeOs.CompleteRace
import CoffeeOs.SoldProducts
import CoffeeOs.TransactionTotals
import Mathlib.Tactic.Linarith

/-!
The discount of a transaction beside the lines it was granted for.

The discount is a column, and the subtotal is added up from the line items. Either can be written
without a look at the other, so what bounds the one by the other is a condition on each call.
-/

namespace CoffeeOs.TransactionDiscounts

open CoffeeOs.KeyedTable CoffeeOs.Payload CoffeeOs.Requests CoffeeOs.Requests.Request
open CoffeeOs.Runs CoffeeOs.Schema CoffeeOs.Transactions
open CoffeeOs.TransactionSpec CoffeeOs.TransactionFrame CoffeeOs.TransactionTotals
open CoffeeOs.CompleteRace (itemsTotal sum_lineRows)
open CoffeeOs.SoldProducts (LinesStored hasProducts_of_linesStored linesStored_transactions)

/-- Wherever `calculateTotal` answers, the discount is at most the subtotal and the total is not
negative, and `complete` goes through only for such a total. -/
structure Bounded (db : Db) : Prop where
  discount : ∀ id r, ((calculateTotal id).exec db).1 = .ok r → r.discount ≤ r.subtotal
  total : ∀ id r, ((calculateTotal id).exec db).1 = .ok r → 0 ≤ r.total
  completed : ∀ id now, (complete id now).Accepts db →
    ∃ r, ((calculateTotal id).exec db).1 = .ok r ∧ 0 ≤ r.total

/-- Each line item belongs to a stored transaction and names a stored product, and no tax is
negative. -/
structure Consistent (db : Db) : Prop where
  products : LinesStored db
  transactions : Table.Refers (fun l : LineItem => some l.transactionId) db.lineItems
    db.transactions
  tax : ∀ id row, db.transactions.find? id = some row → 0 ≤ row.taxAmount.getD 0

/-- The discount that an update by the payload leaves. -/
def discountAfter (dto : UpdateTransactionDto) (row : Transaction) : ℚ :=
  ((dto.discountAmount.map Subtype.val).intoNullable row.discountAmount).getD 0

/-- What the lines come to that an update by the payload leaves. -/
def pricedAfter (db : Db) (id : Id) (dto : UpdateTransactionDto) : ℚ :=
  if 0 < dto.items.length then itemsTotal dto.items else subtotalOf db id

/-- A call that passes its checks leaves a discount that its lines bear. An update with a `null`
status fails only after it has cleared the old lines, and must leave no discount then. -/
def Fits (db : Db) : Op → Prop
  | .create newId dto => Verified db dto.lineItems → db.transactions.find? newId = none →
    dto.row.discountAmount.getD 0 ≤ itemsTotal dto.lineItems
  | .update id dto => ∀ row, db.transactions.find? id = some row → row.status ≠ .completed →
    Verified db dto.items →
      if dto.status = .null then 0 < dto.items.length → row.discountAmount.getD 0 ≤ 0
      else discountAfter dto row ≤ pricedAfter db id dto
  | _ => True

variable {db : Db} {id : Id} {row row' : Transaction}

/-! ### The columns of a payload -/

lemma apply_eq_none_iff {dto : UpdateTransactionDto} :
    dto.apply row = none ↔ dto.status = .null := by
  unfold UpdateTransactionDto.apply
  rcases dto.status with _ | _ | status <;> simp [Property.intoRequired]

lemma discount_apply {dto : UpdateTransactionDto} (h : dto.apply row = some row') :
    row'.discountAmount.getD 0 = discountAfter dto row := by
  obtain ⟨status, -, rfl⟩ := Option.map_eq_some_iff.mp h
  rfl

lemma tax_apply {dto : UpdateTransactionDto} (h : dto.apply row = some row')
    (hrow : 0 ≤ row.taxAmount.getD 0) : 0 ≤ row'.taxAmount.getD 0 := by
  obtain ⟨status, -, rfl⟩ := Option.map_eq_some_iff.mp h
  show 0 ≤ ((dto.taxAmount.map Subtype.val).intoNullable row.taxAmount).getD 0
  rcases dto.taxAmount with _ | _ | tax
  · exact hrow
  · exact le_refl 0
  · exact tax.2

lemma tax_row (dto : CreateTransactionDto) : 0 ≤ dto.row.taxAmount.getD 0 := by
  show 0 ≤ (dto.taxAmount.toOption.map Subtype.val).getD 0
  rcases dto.taxAmount with _ | _ | tax
  · exact le_refl 0
  · exact le_refl 0
  · exact tax.2

/-! ### What the calls keep -/

lemma linesOf_eq_nil (h : Consistent db) (hunused : db.transactions.find? id = none) :
    linesOf db id = [] := Table.Refers.filter_owner h.transactions hunused

lemma tax_step (op : Op) (h : ∀ id row, db.transactions.find? id = some row →
    0 ≤ row.taxAmount.getD 0) (hrow' : (step db op).transactions.find? id = some row') :
    0 ≤ row'.taxAmount.getD 0 := by
  rcases hrow : db.transactions.find? id with _ | row
  · obtain ⟨dto, -, rfl⟩ := step_row_born hrow hrow'
    exact tax_row dto
  rcases step_row op hrow with ⟨q, hq, hmove⟩ | ⟨-, -, hgone⟩
  · obtain rfl := Option.some.inj (hq.symm.trans hrow')
    cases hmove with
    | updated _ _ applied => exact tax_apply applied (h id row hrow)
    | _ => exact h id row hrow
  · rw [hgone] at hrow'
    cases hrow'

/-- The lines that an update leaves belong to stored transactions. -/
lemma refers_keptLines (id : Id) (dto : UpdateTransactionDto) (h : Consistent db) :
    Table.Refers (fun l : LineItem => some l.transactionId) (keptLines db id dto)
      db.transactions := h.transactions.mono fun _ hl => mem_of_mem_keptLines hl

lemma transactions_step (op : Op) (h : Consistent db) :
    Table.Refers (fun l : LineItem => some l.transactionId) (step db op).lineItems
      (step db op).transactions := by
  have houtcome : Outcome db op (step db op) := step_outcome op
  generalize step db op = db' at houtcome ⊢
  cases houtcome with
  | kept => exact h.transactions
  | created =>
    exact h.transactions.put_parent.append (Table.refers_put_owner (transactionId_lineRows _))
  | @cleared id dto => exact refers_keptLines id dto h
  | @updated id dto =>
    exact (refers_keptLines id dto h).put_parent.append
      (Table.refers_put_owner (transactionId_lineRows _))
  | cancelled => exact h.transactions.put_parent
  | completed => exact h.transactions.put_parent
  | removed => exact h.transactions.erase_owner

lemma consistent_step (op : Op) (h : Consistent db) : Consistent (step db op) :=
  ⟨linesStored_transactions op h.products, transactions_step op h,
    fun _ _ hrow => tax_step op h.tax hrow⟩

/-! ### The discount after one call -/

/-- The discount of a transaction, if it is stored, is at most the subtotal. -/
def Within (db : Db) (id : Id) : Prop :=
  ∀ row, db.transactions.find? id = some row → row.discountAmount.getD 0 ≤ subtotalOf db id

lemma within_iff (h : db.transactions.find? id = some row) :
    Within db id ↔ row.discountAmount.getD 0 ≤ subtotalOf db id := by
  refine ⟨fun hw => hw row h, fun hle row' h' => ?_⟩
  obtain rfl := Option.some.inj (h.symm.trans h')
  exact hle

lemma within_of_none (h : db.transactions.find? id = none) : Within db id := by
  intro row hrow
  rw [h] at hrow
  cases hrow

lemma within_of_ownRows {db db' : Db} (h : ownRows db' id = ownRows db id) (hw : Within db id) :
    Within db' id := by
  unfold Within subtotalOf
  rw [find?_of_ownRows h, linesOf_of_ownRows h]
  exact hw

lemma within_put (hw : Within db id) (stored : db.transactions.find? id = some row)
    (hdiscount : row'.discountAmount = row.discountAmount) :
    Within { db with transactions := db.transactions.put id row' } id := by
  rw [within_iff Table.find?_put_self, hdiscount]
  exact hw row stored

lemma bounded_iff (h : Consistent db) : Bounded db ↔ ∀ id, Within db id := by
  refine ⟨fun hb id row hrow => ?_, fun hw => ?_⟩
  · obtain ⟨r, hr⟩ := calculateTotal_ok hrow (hasProducts_of_linesStored h.products)
    obtain ⟨-, hsubtotal, -, -, hdiscount, -⟩ := calculateTotal_eq hrow hr
    rw [← hdiscount, ← hsubtotal]
    exact hb.discount id r hr
  · have hfigures : ∀ id r, ((calculateTotal id).exec db).1 = .ok r →
        r.discount ≤ r.subtotal ∧ 0 ≤ r.total := by
      intro id r hr
      rcases hrow : db.transactions.find? id with _ | row
      · rw [exec_calculateTotal, hrow] at hr
        cases hr
      obtain ⟨-, hsubtotal, -, -, hdiscount, htotal, -⟩ := calculateTotal_eq hrow hr
      have hle : row.discountAmount.getD 0 ≤ subtotalOf db id := hw id row hrow
      refine ⟨by rw [hdiscount, hsubtotal]; exact hle, ?_⟩
      rw [htotal]
      linarith [h.tax id row hrow]
    refine ⟨fun id r hr => (hfigures id r hr).1, fun id r hr => (hfigures id r hr).2, ?_⟩
    intro id now haccepts
    obtain ⟨r, hr, -⟩ := accepts_complete_iff.mp haccepts
    exact ⟨r, hr, (hfigures id r hr).2⟩

lemma within_step_create_iff (newId : Id) (dto : CreateTransactionDto) (h : Consistent db)
    (hw : Within db newId) :
    Within (step db (.create newId dto)) newId ↔ Fits db (.create newId dto) := by
  rw [step_create]
  split
  · rename_i hc
    obtain ⟨hverified, hunused⟩ := hc
    rw [within_iff Table.find?_put_self]
    have hsubtotal : subtotalOf { db with
        transactions := db.transactions.put newId dto.row
        lineItems := db.lineItems ++ lineRows newId dto.lineItems } newId =
          itemsTotal dto.lineItems := by
      unfold subtotalOf linesOf
      rw [List.filter_append, linesOf_lineRows_self]
      show ((linesOf db newId ++ _).map _).sum = _
      rw [linesOf_eq_nil h hunused, List.nil_append, sum_lineRows]
    rw [hsubtotal]
    exact ⟨fun hle _ _ => hle, fun hfits => hfits hverified hunused⟩
  · rename_i hc
    exact iff_of_true hw fun hverified hunused => absurd ⟨hverified, hunused⟩ hc

/-- An update that fails on a `null` has cleared the lines that it was to replace. -/
lemma subtotalOf_cleared (dto : UpdateTransactionDto) :
    subtotalOf { db with lineItems := keptLines db id dto } id =
      if 0 < dto.items.length then 0 else subtotalOf db id := by
  unfold subtotalOf linesOf
  rw [filter_keptLines_self]
  split <;> rfl

lemma subtotalOf_updated (dto : UpdateTransactionDto) : subtotalOf { db with
    transactions := db.transactions.put id row'
    lineItems := keptLines db id dto ++ lineRows id dto.items } id = pricedAfter db id dto := by
  unfold subtotalOf pricedAfter
  rw [linesOf, filter_updatedLines]
  split
  · exact sum_lineRows
  · rfl

/-- What an update has to meet that passes its checks. -/
lemma fits_update_iff {dto : UpdateTransactionDto} (hrow : db.transactions.find? id = some row)
    (hopen : row.status ≠ .completed) (hverified : Verified db dto.items) :
    Fits db (.update id dto) ↔
      if dto.status = .null then 0 < dto.items.length → row.discountAmount.getD 0 ≤ 0
      else discountAfter dto row ≤ pricedAfter db id dto := by
  refine ⟨fun h => h row hrow hopen hverified, fun h row' hrow' _ _ => ?_⟩
  obtain rfl := Option.some.inj (hrow.symm.trans hrow')
  exact h

lemma within_step_update_iff (dto : UpdateTransactionDto) (hw : Within db id) :
    Within (step db (.update id dto)) id ↔ Fits db (.update id dto) := by
  rw [step_update]
  rcases hrow : db.transactions.find? id with _ | row
  · refine iff_of_true hw fun row hrow' => ?_
    rw [hrow] at hrow'
    cases hrow'
  dsimp only
  split
  · -- a call that is refused does not move the figures
    rename_i hrejected
    refine iff_of_true hw fun row' hrow' hopen hverified => ?_
    obtain rfl := Option.some.inj (hrow.symm.trans hrow')
    exact absurd hrejected (not_or.mpr ⟨hopen, not_not.mpr hverified⟩)
  rename_i hpassed
  obtain ⟨hopen, hverified⟩ := not_or.mp hpassed
  rw [fits_update_iff hrow hopen (not_not.mp hverified)]
  rcases ha : dto.apply row with _ | row'
  · -- the write fails for a null, and the old lines are gone all the same
    have hrow' : { db with lineItems := keptLines db id dto }.transactions.find? id = some row :=
      hrow
    dsimp only
    rw [if_pos (apply_eq_none_iff.mp ha), within_iff hrow', subtotalOf_cleared]
    split
    · rename_i hitems
      exact ⟨fun hle _ => hle, fun hle => hle hitems⟩
    · rename_i hitems
      exact iff_of_true (hw row hrow) fun hpos => absurd hpos hitems
  · -- the write succeeds, with the discount and the lines of the request
    have hnull : dto.status ≠ .null := by
      intro hnull
      rw [apply_eq_none_iff.mpr hnull] at ha
      cases ha
    dsimp only
    rw [if_neg hnull, within_iff Table.find?_put_self, discount_apply ha, subtotalOf_updated]

/-- **One call.** A call keeps the discounts within the subtotals exactly if it fits. -/
lemma bounded_step_iff (op : Op) (h : Consistent db) (hb : Bounded db) :
    Bounded (step db op) ↔ Fits db op := by
  have hw : ∀ id, Within db id := (bounded_iff h).mp hb
  -- only the transaction that the call names can leave its bound
  have htarget : Bounded (step db op) ↔ Within (step db op) (target op) := by
    rw [bounded_iff (consistent_step op h)]
    exact forall_step_iff (fun k hk => within_of_ownRows (step_ownRows_of_ne hk)) hw
  rw [htarget]
  cases op with
  | create newId dto => exact within_step_create_iff newId dto h (hw newId)
  | update id dto => exact within_step_update_iff dto (hw id)
  | cancel id =>
    refine iff_of_true ?_ trivial
    have houtcome : Outcome db (.cancel id) (step db (.cancel id)) := step_outcome _
    generalize step db (.cancel id) = db' at houtcome ⊢
    cases houtcome with
    | kept => exact hw id
    | cancelled stored => exact within_put (hw id) stored rfl
  | complete id now =>
    refine iff_of_true ?_ trivial
    have houtcome : Outcome db (.complete id now) (step db (.complete id now)) := step_outcome _
    generalize step db (.complete id now) = db' at houtcome ⊢
    cases houtcome with
    | kept => exact hw id
    | completed stored => exact within_put (hw id) stored rfl
  | remove id =>
    refine iff_of_true ?_ trivial
    have houtcome : Outcome db (.remove id) (step db (.remove id)) := step_outcome _
    generalize step db (.remove id) = db' at houtcome ⊢
    cases houtcome with
    | kept => exact hw id
    | removed => exact within_of_none Table.find?_erase_self

/-! ### Runs of the service -/

/-- **Discounts.** A run keeps every discount within the subtotal, and no total negative, exactly
if each of its calls fits. -/
theorem bounded_always_iff (db : Db) (ops : List Op) (h0 : Consistent db) (hb : Bounded db) :
    Always step Bounded db ops ↔ Along step Fits db ops :=
  always_iff_along_of_invariant (fun _ op h => consistent_step op h)
    (fun _ op h hb => bounded_step_iff op h hb) h0 hb

lemma consistent_bar : Consistent bar :=
  ⟨Table.refers_nil, Table.refers_nil, fun _ _ h => by cases h⟩

/-- Two lattes are sold with a discount of 60, and one of them is taken off the sale. -/
def returned : List Op :=
  [.create "sale" { discountAmount := .val (.ofNat 60)
                    lineItems := [{ productId := "latte", quantity := ⟨2, by decide⟩,
                                    unitPrice := .ofNat 45 }] },
   .update "sale" { lineItems := .val [{ productId := "latte", quantity := .least _,
                                         unitPrice := .ofNat 45 }] }]

theorem returned_bounded_iff : Always step Bounded bar returned ↔ Along step Fits bar returned :=
  bounded_always_iff bar returned consistent_bar
    ((bounded_iff consistent_bar).mpr fun _ => within_of_none rfl)

/-- The discount granted for two lattes stays, and the sale can be completed for −15. -/
theorem returned_not_bounded : ¬ Always step Bounded bar returned ∧
    (complete "sale" 0).Accepts (run step bar returned) ∧
    ((calculateTotal "sale").exec (run step bar returned)).1.toOption.map
      (fun r => (r.subtotal, r.discount, r.total)) = some (45, 60, -15) := by
  have htotals : ((calculateTotal "sale").exec (run step bar returned)).1.toOption.map
      (fun r => (r.subtotal, r.discount, r.total)) = some (45, 60, -15) := by decide +kernel
  refine ⟨fun h => ?_, by decide +kernel, htotals⟩
  obtain ⟨r, hr, hle⟩ := h.last.completed "sale" 0 (by decide +kernel)
  rw [hr] at htotals
  have htotal : r.total = -15 := congrArg (·.2.2) (Option.some.inj htotals)
  rw [htotal] at hle
  exact absurd hle (by decide)

end CoffeeOs.TransactionDiscounts

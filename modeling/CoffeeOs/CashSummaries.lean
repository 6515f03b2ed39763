import CoffeeOs.CashCounts
import CoffeeOs.ExpenseRace

/-!
Summaries of the cash of a register.

A summary takes the counted cash from the register, and from the rows of all counts where the
register has none. Cash that has been counted and comes to zero is taken for cash that has not
been counted, which shows as soon as some earlier count has left rows.
-/

namespace CoffeeOs.CashSummaries

open CoffeeOs.CashRegisters CoffeeOs.KeyedTable CoffeeOs.Payload CoffeeOs.Requests
open CoffeeOs.Requests.Request CoffeeOs.Runs CoffeeOs.Schema
open CoffeeOs.CashCounts (CountsNothing countedOf countedOf_eq_zero_iff itemised till hundreds)
open CoffeeOs.ExpenseRace (spent)

/-- The summary of a register whose counted cash is `c`. -/
structure Reports (db : Db) (id : Id) (row : CashRegister) (c : ℚ) (r : Summary) : Prop where
  countedCash : r.countedCash = c
  variance : r.variance = c - row.expectedCash
  totalExpenses : r.totalExpenses = ((expensesOf db id).map CashExpense.amount).sum
  netCash : r.netCash = c - ((expensesOf db id).map CashExpense.amount).sum

/-- `getSummary` reports the counted cash of every register whose cash has been counted. -/
def Told (db : Db) : Prop :=
  ∀ id row c, db.cashRegisters.find? id = some row → row.countedCash = some c →
    ∃ r, ((getSummary id).exec db).1 = .ok r ∧ Reports db id row c r

/-- The register of each row of a count is stored. -/
def RowsStored (db : Db) : Prop :=
  Table.Refers (fun d : CashDenomination => some d.cashRegisterId) db.cashDenominations
    db.cashRegisters

/-- A call records a counted cash of zero only where the stored rows come to zero as well. -/
def Fits (db : Db) : Op → Prop
  | .update id dto => ∀ row, db.cashRegisters.find? id = some row → (dto.apply row).isSome →
    dto.countedCash.map Subtype.val = .val 0 → itemised id db = 0
  | .recordDenominations id dto => (db.cashRegisters.find? id).isSome → CountsNothing dto →
    itemised id db = 0
  | _ => True

variable {db : Db} {id : Id} {row row' : CashRegister}

/-! ### One summary -/

lemma exec_getSummary (h : db.cashRegisters.find? id = some row) :
    ((getSummary id).exec db).1 = .ok (summaryOf (viewOf id row db)) := by
  rw [getSummary, exec_findOne_bind, h]
  rfl

lemma countedCash_summaryOf : (summaryOf (viewOf id row db)).countedCash =
    (row.countedCash.filter (· ≠ 0)).getD (itemised id db) := by
  have htotal : (denominationsOf db id).foldl (fun sum d => sum + d.total) 0 = itemised id db :=
    foldl_add_map CashDenomination.total _
  rw [← htotal]
  rfl

lemma totalExpenses_summaryOf : (summaryOf (viewOf id row db)).totalExpenses = spent id db :=
  foldl_add_map CashExpense.amount (expensesOf db id)

/-- A summary reports the counted cash unless that is zero and the stored rows are not. -/
lemma reports_iff {c : ℚ} (hc : row.countedCash = some c) :
    Reports db id row c (summaryOf (viewOf id row db)) ↔ (c = 0 → itemised id db = 0) := by
  have hcounted : (summaryOf (viewOf id row db)).countedCash =
      if c = 0 then itemised id db else c := by
    rw [countedCash_summaryOf, hc]
    by_cases hzero : c = 0 <;> simp [Option.filter_some, hzero]
  have hiff : (summaryOf (viewOf id row db)).countedCash = c ↔ (c = 0 → itemised id db = 0) := by
    rw [hcounted]
    split
    · rename_i hzero
      rw [hzero]
      simp
    · rename_i hzero
      exact iff_of_true rfl fun h => absurd h hzero
  refine ⟨fun h => hiff.mp h.countedCash, fun h => ?_⟩
  have hsame : (summaryOf (viewOf id row db)).countedCash = c := hiff.mpr h
  have hspent : (summaryOf (viewOf id row db)).totalExpenses = spent id db :=
    totalExpenses_summaryOf
  exact ⟨hsame, congrArg (· - row.expectedCash) hsame, hspent, congrArg₂ (· - ·) hsame hspent⟩

/-- Cash of the register that has been counted and comes to zero has left no rows that do not. -/
def Clear (db : Db) (id : Id) : Prop :=
  ∀ row c, db.cashRegisters.find? id = some row → row.countedCash = some c →
    c = 0 → itemised id db = 0

lemma told_iff : Told db ↔ ∀ id, Clear db id := by
  refine ⟨fun h id row c hrow hc => ?_, fun h id row c hrow hc => ?_⟩
  · obtain ⟨r, hr, hreports⟩ := h id row c hrow hc
    obtain rfl := Except.ok.inj ((exec_getSummary hrow).symm.trans hr)
    exact (reports_iff hc).mp hreports
  · exact ⟨_, exec_getSummary hrow, (reports_iff hc).mpr (h id row c hrow hc)⟩

/-! ### The frame -/

/-- The register a call is about, which `create` brings into being. -/
def target : Op → Id
  | .create newId _ => newId
  | .update id _ => id
  | .recordDenominations id _ => id
  | .recordExpense id _ => id
  | .remove id => id

/-- The row of a register, and those of its counts. -/
def counted (db : Db) (id : Id) : Option CashRegister × List CashDenomination :=
  (db.cashRegisters.find? id, denominationsOf db id)

lemma denominationsOf_withDenominations {k : Id} (h : k ≠ id) (entries : List (ℚ × ℚ)) :
    denominationsOf (withDenominations (denominationRows k entries) db) id =
      denominationsOf db id := by
  unfold denominationsOf withDenominations
  rw [List.filter_append, Table.filter_owner_ne cashRegisterId_denominationRows h,
    List.append_nil]

/-- **The frame.** A call changes neither the row nor the counts of a register that is not its
target. -/
lemma step_counted_of_ne {op : Op} (h : target op ≠ id) :
    counted (step db op) id = counted db id := by
  have hput (t : Table Id CashRegister) (k : Id) (row : CashRegister) (hk : k ≠ id) :
      (t.put k row).find? id = t.find? id := Table.find?_put_ne hk.symm
  cases op with
  | create newId dto =>
    rw [step_create]
    split
    · exact Prod.ext (hput _ _ _ h) rfl
    · rfl
  | update k dto =>
    rw [step_update]
    rcases db.cashRegisters.find? k with _ | row
    · rfl
    dsimp only
    rcases dto.apply row with _ | row'
    · rfl
    · exact Prod.ext (hput _ _ _ h) rfl
  | recordDenominations k dto =>
    rw [step_recordDenominations]
    rcases db.cashRegisters.find? k with _ | row
    · rfl
    · exact Prod.ext (hput _ _ _ h) (denominationsOf_withDenominations h dto.entries)
  | recordExpense k dto =>
    rw [step_recordExpense]
    rcases db.cashRegisters.find? k with _ | row
    · rfl
    · exact Prod.ext (hput _ _ _ h) rfl
  | remove k =>
    rw [step_remove]
    rcases db.cashRegisters.find? k with _ | row
    · rfl
    exact Prod.ext (Table.find?_erase_ne (Ne.symm h)) (Table.filter_dropped_ne _ h)

lemma clear_of_counted {db' : Db} (h : counted db' id = counted db id) (hc : Clear db id) :
    Clear db' id := by
  have hrow : db'.cashRegisters.find? id = db.cashRegisters.find? id := congrArg Prod.fst h
  have hrows : denominationsOf db' id = denominationsOf db id := congrArg Prod.snd h
  unfold Clear itemised
  rw [hrow, hrows]
  exact hc

/-! ### One call -/

lemma rowsStored_step (op : Op) (h : RowsStored db) : RowsStored (step db op) := by
  cases op with
  | create newId dto =>
    rw [step_create]
    split
    · exact Table.Refers.put_parent h
    · exact h
  | update k dto =>
    rw [step_update]
    rcases db.cashRegisters.find? k with _ | row
    · exact h
    dsimp only
    rcases dto.apply row with _ | row'
    · exact h
    · exact Table.Refers.put_parent h
  | recordDenominations k dto =>
    rw [step_recordDenominations]
    rcases db.cashRegisters.find? k with _ | row
    · exact h
    · -- the new rows name the register that was found
      exact (Table.Refers.put_parent h).append
        (Table.refers_put_owner cashRegisterId_denominationRows)
  | recordExpense k dto =>
    rw [step_recordExpense]
    rcases db.cashRegisters.find? k with _ | row
    · exact h
    · exact Table.Refers.put_parent h
  | remove k =>
    rw [step_remove]
    rcases db.cashRegisters.find? k with _ | row
    · exact h
    · exact Table.Refers.erase_owner h

/-- A register that is not stored has no rows of counts. -/
lemma itemised_of_unused (h : RowsStored db) (hunused : db.cashRegisters.find? id = none) :
    itemised id db = 0 := by
  have hnone : denominationsOf db id = [] := Table.Refers.filter_owner h hunused
  rw [itemised, hnone]
  rfl

lemma clear_of_row (h : db.cashRegisters.find? id = some row) :
    Clear db id ↔ ∀ c, row.countedCash = some c → c = 0 → itemised id db = 0 := by
  refine ⟨fun hclear c hc => hclear row c h hc, fun hclear row' c h' hc => ?_⟩
  obtain rfl := Option.some.inj (h.symm.trans h')
  exact hclear c hc

lemma clear_of_none (h : db.cashRegisters.find? id = none) : Clear db id := by
  intro row c hrow
  rw [h] at hrow
  cases hrow

lemma countedCash_apply {dto : UpdateCashRegisterDto} (h : dto.apply row = some row') :
    row'.countedCash = (dto.countedCash.map Subtype.val).intoNullable row.countedCash := by
  unfold UpdateCashRegisterDto.apply at h
  simp only [Option.bind_eq_bind, Option.bind_eq_some_iff] at h
  obtain ⟨shiftId, -, expectedCash, -, locationId, -, organizationId, -, h⟩ := h
  rw [← Option.some.inj h]

lemma clear_step_update_iff (dto : UpdateCashRegisterDto) (hclear : Clear db id) :
    Clear (step db (.update id dto)) id ↔ Fits db (.update id dto) := by
  rw [step_update]
  rcases hrow : db.cashRegisters.find? id with _ | row
  · refine iff_of_true hclear fun row hrow' => ?_
    rw [hrow] at hrow'
    cases hrow'
  dsimp only
  rcases ha : dto.apply row with _ | row'
  · refine iff_of_true hclear fun row' hrow' hsome => ?_
    obtain rfl := Option.some.inj (hrow.symm.trans hrow')
    rw [ha] at hsome
    cases hsome
  have hfits : Fits db (.update id dto) ↔
      ∀ c, dto.countedCash.map Subtype.val = .val c → c = 0 → itemised id db = 0 := by
    refine ⟨fun h c hc hzero => ?_, fun h row' _ _ hc => h 0 hc rfl⟩
    exact h row hrow (by rw [ha]; rfl) (hzero ▸ hc)
  rw [hfits, clear_of_row Table.find?_put_self, countedCash_apply ha]
  exact Property.forall_intoNullable_iff (P := fun c => c = 0 → itemised id db = 0)
    fun c hc => hclear row c hrow hc

lemma clear_step_recordDenominations_iff (dto : RecordDenominationDto) (hclear : Clear db id) :
    Clear (step db (.recordDenominations id dto)) id ↔ Fits db (.recordDenominations id dto) := by
  rcases hrow : db.cashRegisters.find? id with _ | row
  · rw [step_recordDenominations, hrow]
    refine iff_of_true hclear fun hsome => ?_
    rw [hrow] at hsome
    cases hsome
  have hafter : (step db (.recordDenominations id dto)).cashRegisters.find? id =
      some { row with countedCash := some (countedOf dto) } := CashCounts.find?_step hrow dto
  have hsum : itemised id (step db (.recordDenominations id dto)) =
      itemised id db + countedOf dto := CashCounts.itemised_step hrow dto
  have hstored : (db.cashRegisters.find? id).isSome := by rw [hrow]; rfl
  rw [clear_of_row hafter, hsum]
  refine ⟨fun h _ hnothing => ?_, fun h c hc hzero => ?_⟩
  · have hzero : countedOf dto = 0 := countedOf_eq_zero_iff.mpr hnothing
    have htotal := h _ rfl hzero
    rwa [hzero, add_zero] at htotal
  · obtain rfl := Option.some.inj hc
    rw [hzero, add_zero]
    exact h hstored (countedOf_eq_zero_iff.mp hzero)

/-- **One call.** A call keeps the summaries true exactly if it fits. -/
lemma told_step_iff (op : Op) (h : RowsStored db) (ht : Told db) :
    Told (step db op) ↔ Fits db op := by
  have hclear : ∀ id, Clear db id := told_iff.mp ht
  -- only the register that the call names can become unclear
  have htarget : Told (step db op) ↔ Clear (step db op) (target op) := by
    rw [told_iff]
    exact forall_step_iff (fun k hk => clear_of_counted (step_counted_of_ne hk)) hclear
  rw [htarget]
  cases op with
  | create newId dto =>
    refine iff_of_true ?_ trivial
    rw [step_create]
    split
    · rename_i hunused
      have hzero : itemised newId db = 0 := itemised_of_unused h hunused
      exact (clear_of_row Table.find?_put_self).mpr fun _ _ _ => hzero
    · exact hclear newId
  | update id dto => exact clear_step_update_iff dto (hclear id)
  | recordDenominations id dto => exact clear_step_recordDenominations_iff dto (hclear id)
  | recordExpense id dto =>
    refine iff_of_true ?_ trivial
    rw [step_recordExpense]
    rcases hrow : db.cashRegisters.find? id with _ | row
    · exact hclear id
    have hafter (total : ℚ) (db : Db) : (withTotal id row total db).cashRegisters.find? id =
        some { row with totalExpenses := some total } := Table.find?_put_self
    exact (clear_of_row (hafter _ _)).mpr fun c hc => hclear id row c hrow hc
  | remove id =>
    refine iff_of_true ?_ trivial
    rw [step_remove]
    rcases hrow : db.cashRegisters.find? id with _ | row
    · exact hclear id
    · exact clear_of_none Table.find?_erase_self

/-! ### Runs of the service -/

/-- **Summaries.** In a run, the summaries report the counted cash of every register, whatever it
comes to, exactly if zero is recorded only where the stored rows come to zero. -/
theorem summaries_told_iff (db : Db) (ops : List Op) (h0 : RowsStored db) (ht : Told db) :
    Always step Told db ops ↔ Along step Fits db ops :=
  always_iff_along_of_invariant (fun _ op h => rowsStored_step op h)
    (fun _ op h ht => told_step_iff op h ht) h0 ht

/-- Three bills of a hundred are counted and taken out, and the register is counted again. -/
def emptied : List Op :=
  [.create "till" till, .recordDenominations "till" (hundreds (AtLeast.ofNat 3)),
   .recordDenominations "till" (hundreds (AtLeast.ofNat 0))]

theorem emptied_told_iff : Always step Told ∅ emptied ↔ Along step Fits ∅ emptied :=
  summaries_told_iff ∅ emptied Table.refers_nil fun _ _ _ h => by cases h

/-- The register has been counted and is empty, and its summary reports 300. -/
theorem emptied_not_told : ¬ Always step Told ∅ emptied ∧
    ((run step ∅ emptied).cashRegisters.find? "till").bind CashRegister.countedCash = some 0 ∧
    ((getSummary "till").exec (run step ∅ emptied)).1.toOption.map Summary.countedCash =
      some 300 := by
  have hcounted : ((getSummary "till").exec (run step ∅ emptied)).1.toOption.map
      Summary.countedCash = some 300 := by decide +kernel
  have hzero : ((run step ∅ emptied).cashRegisters.find? "till").bind CashRegister.countedCash =
      some 0 := by decide +kernel
  refine ⟨fun h => ?_, hzero, hcounted⟩
  obtain ⟨row, hrow, hc⟩ := Option.bind_eq_some_iff.mp hzero
  obtain ⟨r, hr, hreports⟩ := h.last "till" row 0 hrow hc
  rw [hr] at hcounted
  have hthree : r.countedCash = 300 := Option.some.inj hcounted
  exact absurd (hreports.countedCash.symm.trans hthree) (by decide)

end CoffeeOs.CashSummaries

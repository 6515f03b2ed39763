import CoffeeOs.CashRegisters
import CoffeeOs.Runs
import Mathlib.Algebra.Order.BigOperators.Group.List
import Mathlib.Tactic.NormNum

/-!
Counts of the cash of one register.

The counted cash is the sum of the last count alone, while the rows of all counts stay stored. That
sum is the one `calculateDenominations` computes, whatever the denominations of the record.
-/

namespace CoffeeOs.CashCounts

open CoffeeOs.CashRegisters CoffeeOs.KeyedTable CoffeeOs.Payload CoffeeOs.Requests
open CoffeeOs.Requests.Request CoffeeOs.Runs CoffeeOs.Schema

/-- The tables after a count that runs alone. -/
def step (id : Id) (db : Db) (dto : RecordDenominationDto) : Db :=
  ((recordDenominations id dto).exec db).2

/-- The counted cash of the register is the sum of the itemised rows returned with it. -/
def Agrees (id : Id) (db : Db) : Prop :=
  ∃ view, ((findOne id).exec db).1 = .ok view ∧
    view.row.countedCash = some (view.denominations.map CashDenomination.total).sum

def CountsNothing (dto : RecordDenominationDto) : Prop := ∀ entry ∈ dto.entries, entry.2 = 0

variable {db : Db} {id : Id} {row : CashRegister} {dto : RecordDenominationDto}

/-! ### What a count comes to -/

def countedOf (dto : RecordDenominationDto) : ℚ :=
  (dto.entries.map fun entry => entry.1 * entry.2).sum

lemma sum_denominationRows (entries : List (ℚ × ℚ)) :
    ((denominationRows id entries).map CashDenomination.total).sum =
      (entries.map fun entry => entry.1 * entry.2).sum := by
  induction entries with
  | nil => rfl
  | cons entry entries ih =>
    by_cases hzero : entry.2 = 0
    · rw [denominationRows_cons_zero hzero, ih, List.map_cons, List.sum_cons, hzero, mul_zero,
        zero_add]
    · rw [denominationRows_cons hzero, List.map_cons, List.sum_cons, ih, List.map_cons,
        List.sum_cons]
      rfl

lemma entries_nonneg (dto : RecordDenominationDto) :
    ∀ entry ∈ dto.entries, 0 < entry.1 ∧ 0 ≤ entry.2 := by
  have hcount (n : AtLeast 0) : (0 : ℚ) ≤ n := n.2
  norm_num [RecordDenominationDto.entries, hcount]

lemma products_nonneg (dto : RecordDenominationDto) :
    ∀ x ∈ dto.entries.map (fun entry => entry.1 * entry.2), 0 ≤ x := by
  intro x hx
  obtain ⟨entry, hentry, rfl⟩ := List.mem_map.mp hx
  obtain ⟨hdenomination, hcount⟩ := entries_nonneg dto entry hentry
  exact mul_nonneg hdenomination.le hcount

/-- A count comes to zero only if it counts nothing. -/
lemma countedOf_eq_zero_iff : countedOf dto = 0 ↔ CountsNothing dto := by
  refine ⟨fun h entry hentry => ?_, fun h => ?_⟩
  · have hzero : entry.1 * entry.2 = 0 :=
      List.all_zero_of_le_zero_le_of_sum_eq_zero (products_nonneg dto) h
        (List.mem_map_of_mem hentry)
    exact (mul_eq_zero.mp hzero).resolve_left (entries_nonneg dto entry hentry).1.ne'
  · refine List.sum_eq_zero fun x hx => ?_
    obtain ⟨entry, hentry, rfl⟩ := List.mem_map.mp hx
    rw [h entry hentry, mul_zero]

/-! ### One count after another -/

/-- The sum of the rows stored for the register. -/
def itemised (id : Id) (db : Db) : ℚ :=
  ((denominationsOf db id).map CashDenomination.total).sum

lemma agrees_iff (h : db.cashRegisters.find? id = some row) :
    Agrees id db ↔ row.countedCash = some (itemised id db) := by
  unfold Agrees
  rw [exec_findOne_some h]
  refine ⟨?_, fun hcounted => ⟨_, rfl, hcounted⟩⟩
  rintro ⟨view, hview, hcounted⟩
  obtain rfl := Except.ok.inj hview
  exact hcounted

lemma find?_step (h : db.cashRegisters.find? id = some row) (dto : RecordDenominationDto) :
    (step id db dto).cashRegisters.find? id =
      some { row with countedCash := some (countedOf dto) } := by
  rw [step, exec_recordDenominations h, sum_denominationRows]
  exact Table.find?_put_self

/-- The rows of a count come on top of the ones that are there. -/
lemma itemised_step (h : db.cashRegisters.find? id = some row) (dto : RecordDenominationDto) :
    itemised id (step id db dto) = itemised id db + countedOf dto := by
  have hrows : denominationsOf (step id db dto) id =
      denominationsOf db id ++ denominationRows id dto.entries := by
    rw [step, exec_recordDenominations h]
    unfold denominationsOf withCounted withDenominations
    rw [List.filter_append, Table.filter_owner_self cashRegisterId_denominationRows]
  rw [itemised, hrows, List.map_append, List.sum_append, sum_denominationRows]
  rfl

/-- After a count the figures agree exactly if the rows from before come to zero. -/
lemma agrees_step_iff (h : db.cashRegisters.find? id = some row) :
    Agrees id (step id db dto) ↔ itemised id db = 0 := by
  rw [agrees_iff (find?_step h dto), itemised_step h, Option.some.injEq, eq_comm, add_eq_right]

/-- Once rows are stored that come to something, no count can agree. -/
lemma along_agrees_iff (counts : List RecordDenominationDto)
    (h : db.cashRegisters.find? id = some row) (hzero : itemised id db = 0) :
    Along (step id) (fun db dto => Agrees id (step id db dto)) db counts ↔
      ∀ dto ∈ counts.dropLast, CountsNothing dto := by
  induction counts generalizing db row with
  | nil => simp
  | cons dto counts ih =>
    rw [along_cons, agrees_step_iff h, and_iff_right hzero]
    rcases counts with _ | ⟨next, counts⟩
    · simp
    rw [List.dropLast_cons_cons, List.forall_mem_cons]
    have hnext := find?_step h dto
    have hsum : itemised id (step id db dto) = countedOf dto := by
      rw [itemised_step h, hzero, zero_add]
    refine ⟨fun hagree => ?_, fun hnothing => ?_⟩
    · have hnothing : itemised id (step id db dto) = 0 := (agrees_step_iff hnext).mp hagree.1
      exact ⟨countedOf_eq_zero_iff.mp (hsum.symm.trans hnothing), (ih hnext hnothing).mp hagree⟩
    · exact (ih hnext (hsum.trans (countedOf_eq_zero_iff.mpr hnothing.1))).mpr hnothing.2

/-- **Counts.** From the creation of a register on, the counted cash agrees with the itemised
rows after every count exactly if every count but the last one counts nothing. -/
theorem counts_agree_iff (newId : Id) (dto : CreateCashRegisterDto)
    (counts : List RecordDenominationDto) (hnew : db.cashRegisters.find? newId = none)
    (hunnamed : ∀ d ∈ db.cashDenominations, d.cashRegisterId ≠ newId) :
    Along (step newId) (fun db count => Agrees newId (step newId db count))
        ((create newId dto).exec db).2 counts ↔
      ∀ count ∈ counts.dropLast, CountsNothing count := by
  have hcreate : ((create newId dto).exec db).2 =
      { db with cashRegisters := db.cashRegisters.put newId dto.row } := by
    rw [create, Delegate.exec_create_new hnew]
    rfl
  have hnone : denominationsOf db newId = [] := by
    rw [denominationsOf, List.filter_eq_nil_iff]
    exact fun d hd => by simpa using hunnamed d hd
  have hzero : itemised newId ((create newId dto).exec db).2 = 0 := by
    have hsame : denominationsOf ((create newId dto).exec db).2 newId =
        denominationsOf db newId := by
      rw [hcreate]
      rfl
    rw [itemised, hsame, hnone]
    rfl
  have hrow : ((create newId dto).exec db).2.cashRegisters.find? newId = some dto.row := by
    rw [hcreate]
    exact Table.find?_put_self
  exact along_agrees_iff counts hrow hzero

def till : CreateCashRegisterDto where
  shiftId := "day"
  expectedCash := AtLeast.ofNat 500
  locationId := "bar"
  organizationId := "shop"

/-- A count that finds nothing but bills of a hundred. -/
def hundreds (count : AtLeast 0) : RecordDenominationDto where
  count1000 := AtLeast.ofNat 0
  count500 := AtLeast.ofNat 0
  count200 := AtLeast.ofNat 0
  count100 := count
  count50 := AtLeast.ofNat 0
  count20 := AtLeast.ofNat 0
  count10 := AtLeast.ofNat 0
  count5 := AtLeast.ofNat 0
  count2 := AtLeast.ofNat 0
  count1 := AtLeast.ofNat 0
  count05 := AtLeast.ofNat 0

/-- A count of three bills, and one of five. -/
def recount : List RecordDenominationDto := [hundreds (AtLeast.ofNat 3), hundreds (AtLeast.ofNat 5)]

theorem counts_agree_iff_till : (∅ : Db).cashRegisters.find? "till" = none ∧
    (∀ d ∈ (∅ : Db).cashDenominations, d.cashRegisterId ≠ "till") ∧
    (Along (step "till") (fun db count => Agrees "till" (step "till" db count))
        ((create "till" till).exec ∅).2 recount ↔
      ∀ count ∈ recount.dropLast, CountsNothing count) := by
  have hunnamed : ∀ d ∈ (∅ : Db).cashDenominations, d.cashRegisterId ≠ "till" :=
    fun d hd => by cases hd
  exact ⟨rfl, hunnamed, counts_agree_iff "till" till recount rfl hunnamed⟩

/-- The register is counted again: the counted cash is 500, and the rows come to 800. -/
theorem recount_disagrees :
    ¬ Along (step "till") (fun db count => Agrees "till" (step "till" db count))
      ((create "till" till).exec ∅).2 recount := by
  intro h
  have hrow : ((create "till" till).exec ∅).2.cashRegisters.find? "till" = some till.row := by
    decide +kernel
  have hnothing : CountsNothing (hundreds (AtLeast.ofNat 3)) :=
    (along_agrees_iff recount hrow (by decide +kernel)).mp h _ List.mem_cons_self
  exact absurd (countedOf_eq_zero_iff.mpr hnothing) (by decide +kernel)

/-! ### The two ways to add up a record -/

/-- **Both ways agree.** Whatever the denominations of a record, and in whatever order
its entries are listed, the counted cash is what `calculateDenominations` makes of the record. -/
theorem counted_eq_calculateDenominations {entries entries' : List (ℚ × ℚ)}
    (h : db.cashRegisters.find? id = some row) (hentries : entries.Perm entries') :
    ∃ view, ((recordEntries id entries).exec db).1 = .ok view ∧
      view.row.countedCash = some (calculateDenominations entries') ∧
      ((recordEntries id entries).exec db).2.cashRegisters.find? id = some view.row := by
  have htotal : ((denominationRows id entries).map CashDenomination.total).sum =
      calculateDenominations entries' := by
    calc ((denominationRows id entries).map CashDenomination.total).sum
        = (entries.map fun entry => entry.1 * entry.2).sum := sum_denominationRows entries
      _ = (entries'.map fun entry => entry.1 * entry.2).sum := (hentries.map _).sum_eq
      _ = calculateDenominations entries' := (foldl_add_map _ entries').symm
  rw [exec_recordEntries h entries, htotal]
  exact ⟨_, rfl, rfl, Table.find?_put_self⟩

/-- A record that counts nothing of one of its denominations. -/
def mixed : List (ℚ × ℚ) := [(20, 0), (50, 7), (1000, 2), (1 / 2, 3)]

def drawer : Db := { cashRegisters := (∅ : Table Id CashRegister).put "till" till.row }

theorem counted_eq_calculateDenominations_drawer :
    (∃ view, ((recordEntries "till" mixed).exec drawer).1 = .ok view ∧
      view.row.countedCash = some (calculateDenominations mixed.reverse) ∧
      ((recordEntries "till" mixed).exec drawer).2.cashRegisters.find? "till" = some view.row) ∧
    calculateDenominations mixed.reverse = 4703 / 2 :=
  ⟨counted_eq_calculateDenominations rfl (List.reverse_perm mixed).symm,
    by decide +kernel⟩

end CoffeeOs.CashCounts

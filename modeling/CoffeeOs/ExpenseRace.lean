import CoffeeOs.CashRegisters
import CoffeeOs.Interleaving
import Mathlib.Algebra.Order.BigOperators.Group.List

/-!
Expenses of one register that are recorded at the same time.

A request stores its expense, reads all expenses, and writes their sum in a further call. The
sum written last stays, so the total of the register is right exactly if that sum was read
after all the other expenses had been stored.
-/

namespace CoffeeOs.ExpenseRace

open CoffeeOs.CashRegisters hiding step
open CoffeeOs.KeyedTable CoffeeOs.Payload CoffeeOs.Requests
open CoffeeOs.Requests.Request CoffeeOs.Interleaving CoffeeOs.Interleaving.Pool CoffeeOs.Runs
open CoffeeOs.Schema

variable {ι : Type} {id : Id} {dto : ι → RecordExpenseDto}

/-- Requests to record expenses of the same register. -/
def race (id : Id) (dto : ι → RecordExpenseDto) (db : Db) : Pool ι Db Error CashRegisterView :=
  ⟨db, fun i => recordExpense id (dto i)⟩

/-- What the stored expenses of the register come to. -/
def spent (id : Id) (db : Db) : ℚ := ((expensesOf db id).map CashExpense.amount).sum

/-- The total of the register is the sum of its stored expenses. -/
def Settled (id : Id) (db : Db) : Prop :=
  ∃ row, db.cashRegisters.find? id = some row ∧ row.totalExpenses = some (spent id db)

/-- Request `w` reads the expenses after `pre`, and writes after `mid`, when all others have
written: of five calls of a request, the third reads the expenses and the fourth writes. -/
structure LastWrite [DecidableEq ι] (is : List ι) (w : ι) (pre mid post : List ι) : Prop where
  turns : is = pre ++ w :: (mid ++ w :: post)
  reads : pre.count w = 2
  next : w ∉ mid
  last : ∀ j, j ≠ w → 4 ≤ (pre ++ mid).count j

/-- The request that writes last has read the expenses after every request with an amount had
stored its own. -/
def LastReadsAll [DecidableEq ι] (amount : ι → ℚ) (is : List ι) : Prop :=
  ∃ w pre mid post, LastWrite is w pre mid post ∧ ∀ j, amount j ≠ 0 → 2 ≤ pre.count j

/-! ### The calls of a request -/

/-- What is left of a request before its fourth call. -/
def writing (id : Id) (total : ℚ) : Api CashRegisterView :=
  writeExpenses id total >>= fun _ => findOne id

/-- What is left of a request before its third call. -/
def summing (id : Id) : Api CashRegisterView :=
  look (fun db => expensesOf db id) >>= fun expenses =>
    writing id (expenses.foldl (fun sum exp => sum + exp.amount) 0)

/-- What is left of a request before its second call. -/
def inserting (id : Id) (dto : RecordExpenseDto) : Api CashRegisterView :=
  createExpense (dto.row id) >>= fun _ => summing id

/-- How far a request has come after a number of turns. -/
inductive Stage (id : Id) (dto : RecordExpenseDto) : ℕ → Api CashRegisterView → Prop
  | unread : Stage id dto 0 (recordExpense id dto)
  | inserting : Stage id dto 1 (inserting id dto)
  | summing : Stage id dto 2 (summing id)
  | writing (total : ℚ) : Stage id dto 3 (writing id total)
  | looking : Stage id dto 4 (findOne id)
  | answered (n : ℕ) (r : Except Error CashRegisterView) : Stage id dto (n + 5) (.done r)

variable [DecidableEq ι] {q : Pool ι Db Error CashRegisterView} {i : ι} {row : CashRegister}

lemma spent_withExpense {db : Db} {dto : RecordExpenseDto} :
    spent id (withExpense (dto.row id) db) = spent id db + dto.amount := by
  have hrows : expensesOf (withExpense (dto.row id) db) id = expensesOf db id ++ [dto.row id] := by
    unfold expensesOf withExpense
    rw [List.filter_append]
    exact congrArg _ (List.filter_cons_of_pos (decide_eq_true rfl))
  rw [spent, hrows, List.map_append, List.sum_append]
  exact congrArg _ (List.sum_singleton)

lemma step_unread {dto : RecordExpenseDto} (h : q.requests i = recordExpense id dto)
    (hrow : q.store.cashRegisters.find? id = some row) :
    q.step i = ⟨q.store, Function.update q.requests i (inserting id dto)⟩ := by
  have hread : recordExpense id dto =
      look (fun db => (db.cashRegisters.find? id).map fun row => viewOf id row db) >>= fun found =>
        orThrow (.notFound s!"Cash register with ID \"{id}\" not found") found >>= fun _ =>
          inserting id dto := rfl
  rw [step_look_bind (h.trans hread), hrow]
  rfl

lemma step_inserting {dto : RecordExpenseDto} (h : q.requests i = inserting id dto) :
    q.step i = ⟨withExpense (dto.row id) q.store, Function.update q.requests i (summing id)⟩ :=
  step_of_call h

lemma step_summing (h : q.requests i = summing id) :
    q.step i = ⟨q.store, Function.update q.requests i (writing id (spent id q.store))⟩ := by
  rw [step_look_bind h, foldl_add_map CashExpense.amount]
  rfl

lemma step_writing {total : ℚ} (h : q.requests i = writing id total)
    (hrow : q.store.cashRegisters.find? id = some row) :
    q.step i = ⟨withTotal id row total q.store, Function.update q.requests i (findOne id)⟩ :=
  step_atomically_bind (g := fun _ => findOne id) h (by rw [cashRegister, hrow]; rfl)

lemma step_looking (h : q.requests i = findOne id)
    (hrow : q.store.cashRegisters.find? id = some row) :
    q.step i =
      ⟨q.store, Function.update q.requests i (.done (.ok (viewOf id row q.store)))⟩ := by
  rw [step_look_bind h, hrow]
  rfl

/-! ### Every request of the pool, at any time -/

/-- After the turns `is` the register is stored, and each request is as far as its own turns
have taken it. -/
structure Reached (id : Id) (dto : ι → RecordExpenseDto) (is : List ι)
    (q : Pool ι Db Error CashRegisterView) : Prop where
  stored : ∃ row, q.store.cashRegisters.find? id = some row
  stages : ∀ j, Stage id (dto j) (is.count j) (q.requests j)

variable {is : List ι}

lemma stage_update {r : Api CashRegisterView} {n : ℕ} (h : Reached id dto is q)
    (hn : is.count i = n) (hr : Stage id (dto i) (n + 1) r) (j : ι) :
    Stage id (dto j) ((is ++ [i]).count j) (Function.update q.requests i r j) := by
  refine (Function.forall_update_iff q.requests
    fun j r => Stage id (dto j) ((is ++ [i]).count j) r).mpr ⟨?_, fun j hj => ?_⟩ j
  · rwa [count_append_singleton, if_pos rfl, hn]
  · rw [count_append_singleton, if_neg (Ne.symm hj)]
    exact h.stages j

/-- A turn stores the expense of its request, writes a total, or leaves the store as it is. -/
lemma step_cases (h : Reached id dto is q) (i : ι) :
    Reached id dto (is ++ [i]) (q.step i) ∧
    ((is.count i = 1 ∧ (q.step i).store = withExpense ((dto i).row id) q.store) ∨
      (is.count i = 3 ∧ ∃ row total, (q.step i).store = withTotal id row total q.store) ∨
      (is.count i ≠ 1 ∧ is.count i ≠ 3 ∧ (q.step i).store = q.store)) := by
  obtain ⟨row, hrow⟩ := h.stored
  have hi : Stage id (dto i) (is.count i) (q.requests i) := h.stages i
  generalize hreq : q.requests i = r at hi
  generalize hn : is.count i = n at hi
  cases hi with
  | unread =>
    rw [step_unread hreq hrow]
    exact ⟨⟨⟨row, hrow⟩, stage_update h hn .inserting⟩,
      Or.inr (Or.inr ⟨by decide, by decide, rfl⟩)⟩
  | inserting =>
    rw [step_inserting hreq]
    exact ⟨⟨⟨row, hrow⟩, stage_update h hn .summing⟩, Or.inl ⟨rfl, rfl⟩⟩
  | summing =>
    rw [step_summing hreq]
    exact ⟨⟨⟨row, hrow⟩, stage_update h hn (.writing _)⟩,
      Or.inr (Or.inr ⟨by decide, by decide, rfl⟩)⟩
  | writing total =>
    rw [step_writing hreq hrow]
    exact ⟨⟨⟨_, Table.find?_put_self⟩, stage_update h hn .looking⟩,
      Or.inr (Or.inl ⟨rfl, row, total, rfl⟩)⟩
  | looking =>
    rw [step_looking hreq hrow]
    exact ⟨⟨⟨row, hrow⟩, stage_update h hn (.answered 0 _)⟩,
      Or.inr (Or.inr ⟨by decide, by decide, rfl⟩)⟩
  | answered n r =>
    have hsame : Function.update q.requests i (.done r) = q.requests := by
      rw [← hreq, Function.update_eq_self]
    have hstages := stage_update h hn (.answered (n + 1) r)
    rw [hsame] at hstages
    rw [step_of_done hreq]
    exact ⟨⟨⟨row, hrow⟩, hstages⟩, Or.inr (Or.inr ⟨by omega, by omega, rfl⟩)⟩

lemma reached_run (h : Reached id dto is q) (js : List ι) :
    Reached id dto (is ++ js) (run step q js) := by
  induction js generalizing is q with
  | nil => rwa [List.append_nil]
  | cons i js ih =>
    rw [List.append_cons]
    exact ih (step_cases h i).1

/-- The third turn of a request reads the sum that its fourth one writes. -/
lemma step_reads (h : Reached id dto is q) (hcount : is.count i = 2) :
    (q.step i).requests i = writing id (spent id q.store) := by
  have hi : Stage id (dto i) (is.count i) (q.requests i) := h.stages i
  generalize hreq : q.requests i = r at hi
  rw [hcount] at hi
  cases hi
  rw [step_summing hreq]
  exact Function.update_self _ _ _

lemma step_writes {total : ℚ} (h : Reached id dto is q) (hreq : q.requests i = writing id total) :
    ∃ row, (q.step i).store.cashRegisters.find? id = some row ∧
      row.totalExpenses = some total := by
  obtain ⟨row, hrow⟩ := h.stored
  rw [step_writing hreq hrow]
  exact ⟨_, Table.find?_put_self, rfl⟩

/-! ### The expenses stored and the total written -/

lemma amount_nonneg (dto : RecordExpenseDto) : (0 : ℚ) ≤ dto.amount := dto.amount.2

lemma spent_step (h : Reached id dto is q) (i : ι) : spent id (q.step i).store =
    spent id q.store + if is.count i = 1 then ((dto i).amount : ℚ) else 0 := by
  rcases (step_cases h i).2 with
    ⟨hcount, hstore⟩ | ⟨hcount, row, total, hstore⟩ | ⟨hcount, -, hstore⟩
  · rw [hstore, spent_withExpense, if_pos hcount]
  · rw [hstore, if_neg (by omega), add_zero]
    rfl
  · rw [hstore, if_neg hcount, add_zero]

lemma spent_le_step (h : Reached id dto is q) (i : ι) :
    spent id q.store ≤ spent id (q.step i).store := by
  rw [spent_step h]
  split
  · exact le_add_of_nonneg_right (amount_nonneg _)
  · exact (add_zero _).ge

lemma spent_le_run (h : Reached id dto is q) (js : List ι) :
    spent id q.store ≤ spent id (run step q js).store := by
  induction js generalizing is q with
  | nil => exact le_rfl
  | cons i js ih => exact (spent_le_step h i).trans (ih (step_cases h i).1)

lemma spent_step_eq_iff (h : Reached id dto is q) (i : ι) :
    spent id (q.step i).store = spent id q.store ↔
      (is.count i = 1 → ((dto i).amount : ℚ) = 0) := by
  rw [spent_step h, add_eq_left]
  exact ite_eq_right_iff

/-- The expenses come to the same as before only if no request with an amount has stored its
own since: amounts are not negative, so that none can make up for another. -/
lemma spent_run_eq_iff (h : Reached id dto is q) (js : List ι) :
    spent id (run step q js).store = spent id q.store ↔
      ∀ j, ((dto j).amount : ℚ) ≠ 0 → 2 ≤ (is ++ js).count j → 2 ≤ is.count j := by
  induction js generalizing is q with
  | nil => exact iff_of_true rfl fun j _ hcount => by rwa [List.append_nil] at hcount
  | cons i js ih =>
    have hnext := (step_cases h i).1
    have hle := spent_le_run hnext js
    have hsplit : spent id (run step q (i :: js)).store = spent id q.store ↔
        spent id (run step (q.step i) js).store = spent id (q.step i).store ∧
          spent id (q.step i).store = spent id q.store := by
      rw [run_cons]
      refine ⟨fun heq => ?_, fun heq => heq.1.trans heq.2⟩
      -- the sum only grows, so that if it ends where it began, no turn has moved it
      have hback : spent id (q.step i).store = spent id q.store :=
        le_antisymm (hle.trans heq.le) (spent_le_step h i)
      exact ⟨heq.trans hback.symm, hback⟩
    have hturn : (is.count i = 1 → ((dto i).amount : ℚ) = 0) ↔
        (is.count i = 1 → ¬ ((dto i).amount : ℚ) ≠ 0) := by simp only [not_not]
    rw [hsplit, ih hnext, spent_step_eq_iff h, hturn]
    exact (past_turn_cons_iff (n := 1)).symm

/-- Once all requests have written, the register stays as it is. -/
lemma registers_run (h : Reached id dto is q) (hwritten : ∀ j, 4 ≤ is.count j) (js : List ι) :
    (run step q js).store.cashRegisters = q.store.cashRegisters := by
  induction js generalizing is q with
  | nil => rfl
  | cons i js ih =>
    have hnext (j : ι) : 4 ≤ (is ++ [i]).count j := by
      rw [count_append_singleton]
      exact (hwritten j).trans (Nat.le_add_right _ _)
    obtain ⟨hreached, hstore⟩ := step_cases h i
    rw [run_cons, ih hreached hnext]
    have hmany := hwritten i
    rcases hstore with ⟨hcount, -⟩ | ⟨hcount, -⟩ | ⟨-, -, hstore⟩
    · omega
    · omega
    · rw [hstore]

/-! ### The last write -/

/-- The sum read after `pre` is written, and stays. -/
lemma total_of_lastWrite {js : List ι} {w : ι} {pre mid post : List ι}
    (h : Reached id dto [] q) (hlast : LastWrite js w pre mid post) :
    ∃ row, (run step q js).store.cashRegisters.find? id = some row ∧
      row.totalExpenses = some (spent id (run step q pre).store) := by
  obtain ⟨rfl, hreads, hnext, hothers⟩ := hlast
  have hcount (j : ι) : (pre ++ [w] ++ mid).count j =
      (pre ++ mid).count j + if w = j then 1 else 0 := by
    rw [List.count_append, count_append_singleton, List.count_append]
    exact Nat.add_right_comm _ _ _
  have hwritten (j : ι) : 4 ≤ (pre ++ [w] ++ mid ++ [w]).count j := by
    rw [count_append_singleton, hcount]
    by_cases hj : w = j
    · rw [if_pos hj, ← hj, List.count_append, hreads]
      omega
    · rw [if_neg hj]
      exact hothers j (Ne.symm hj)
  have hpre : Reached id dto pre (run step q pre) := reached_run h pre
  have hread := step_reads hpre hreads
  have hmid : Reached id dto (pre ++ [w] ++ mid) (run step q (pre ++ [w] ++ mid)) :=
    reached_run h (pre ++ [w] ++ mid)
  -- `w` has no turn in `mid`, so it still holds the sum it has read
  have hwriting : (run step q (pre ++ [w] ++ mid)).requests w =
      writing id (spent id (run step q pre).store) := by
    rw [run_append, requests_run_of_notMem hnext, run_append]
    exact hread
  obtain ⟨row, hrow, htotal⟩ := step_writes hmid hwriting
  have hruns : run step q (pre ++ w :: (mid ++ w :: post)) =
      run step ((run step q (pre ++ [w] ++ mid)).step w) post := by
    simp only [run_append, run_cons, run_nil]
  refine ⟨row, ?_, htotal⟩
  rw [hruns, registers_run (step_cases hmid w).1 hwritten, hrow]

/-- If all requests have made their calls, one of them has written last. -/
lemma exists_lastWrite {js : List ι} {i : ι} (h : ∀ j, 5 ≤ js.count j) :
    ∃ w pre mid post, LastWrite js w pre mid post := by
  -- the last fourth turn of all, and the third turn of the same request before it
  obtain ⟨w, before, post, rfl, hthree, hothers⟩ :=
    exists_last_turn (n := 3) ⟨i, (Nat.lt_succ_self 3).trans (h i)⟩
  obtain ⟨pre, mid, rfl, htwo⟩ : ∃ pre mid, before = pre ++ w :: mid ∧ pre.count w = 2 :=
    exists_turn (by omega)
  rw [List.count_append, List.count_cons_self, htwo] at hthree
  refine ⟨w, pre, mid, post, by rw [List.append_assoc]; rfl, htwo,
    List.count_eq_zero.mp (by omega), fun j hj => ?_⟩
  have hlast : 3 < (pre ++ w :: mid).count j := hothers j hj ((Nat.lt_succ_self 3).trans (h j))
  rwa [List.count_append, List.count_cons_of_ne (Ne.symm hj), ← List.count_append] at hlast

lemma five_le_count {js : List ι} (h : Reached id dto js q) (hf : q.Finished) (j : ι) :
    5 ≤ js.count j := by
  have hj : Stage id (dto j) (js.count j) (q.requests j) := h.stages j
  generalize hreq : q.requests j = r at hj
  generalize js.count j = n at hj
  have hdone : ∀ w k, r ≠ .call w k := fun w k hcall =>
    hf j (pending_iff.mpr ⟨w, k, hreq.trans hcall⟩)
  cases hj with
  | answered n r => exact Nat.le_add_left 5 n
  | _ => exact absurd rfl (hdone _ _)

/-- **The race.** Once all requests have finished, the total of the register is the sum of its
expenses exactly if the request that has written last has read the expenses after every request
with an amount had stored its own, or if there is no request and it was the sum before. -/
theorem settled_iff {db : Db} (hrow : db.cashRegisters.find? id = some row) (js : List ι)
    (hf : (run step (race id dto db) js).Finished) :
    Settled id (run step (race id dto db) js).store ↔
      LastReadsAll (fun i => ((dto i).amount : ℚ)) js ∨ (IsEmpty ι ∧ Settled id db) := by
  have hstart : Reached id dto [] (race id dto db) := ⟨⟨row, hrow⟩, fun _ => .unread⟩
  -- every request has its answer, and so has had all of its five turns
  have hall : ∀ j, 5 ≤ js.count j := five_le_count (reached_run hstart js) hf
  -- the last total to be written is what was spent by the time its request read the sum
  have hsettled {w : ι} {pre mid post : List ι} (hlast : LastWrite js w pre mid post) :
      Settled id (run step (race id dto db) js).store ↔
        ∀ j, ((dto j).amount : ℚ) ≠ 0 → 2 ≤ pre.count j := by
    obtain ⟨row', hrow', htotal⟩ := total_of_lastWrite hstart hlast
    -- no more is spent after that read exactly if every expense above 0 was in by then
    have hspent := spent_run_eq_iff (reached_run hstart pre) (w :: (mid ++ w :: post))
    rw [← run_append, List.nil_append, ← hlast.turns] at hspent
    have htotals : Settled id (run step (race id dto db) js).store ↔
        spent id (run step (race id dto db) js).store =
          spent id (run step (race id dto db) pre).store := by
      refine ⟨?_, fun heq => ⟨row', hrow', by rw [htotal, heq]⟩⟩
      rintro ⟨stored, hstored, heq⟩
      obtain rfl := Option.some.inj (hstored.symm.trans hrow')
      exact Option.some.inj (heq.symm.trans htotal)
    rw [htotals, hspent]
    exact forall₂_congr fun j _ => ⟨fun h => h ((hall j).trans' (by decide)), fun h _ => h⟩
  rcases isEmpty_or_nonempty ι with hnone | ⟨⟨i⟩⟩
  · -- without requests nothing is written at all
    obtain rfl : js = [] := List.eq_nil_iff_forall_not_mem.mpr fun i => hnone.elim i
    refine ⟨fun h => Or.inr ⟨hnone, h⟩, ?_⟩
    rintro (⟨w, -⟩ | ⟨-, h⟩)
    · exact hnone.elim w
    · exact h
  · refine ⟨fun h => Or.inl ?_, ?_⟩
    · obtain ⟨w, pre, mid, post, hlast⟩ := exists_lastWrite (i := i) hall
      exact ⟨w, pre, mid, post, hlast, (hsettled hlast).mp h⟩
    · rintro (⟨w, pre, mid, post, hlast, hread⟩ | ⟨hnone, -⟩)
      · exact (hsettled hlast).mpr hread
      · exact hnone.elim i

/-- A register, and a payment of each of two suppliers from it. -/
def till : CashRegister where
  shiftId := "day"
  expectedCash := 500
  locationId := "bar"
  organizationId := "shop"

def tills : Db := { cashRegisters := (∅ : Table Id CashRegister).put "till" till }

def suppliers (i : Bool) : RecordExpenseDto where
  amount := AtLeast.ofNat (if i then 20 else 10)
  description := if i then "milk" else "bread"

/-- One after the other. -/
def inTurn : List Bool := List.replicate 5 false ++ List.replicate 5 true

/-- The first one reads the expenses, and writes when the other one has finished. -/
def overtaken : List Bool :=
  List.replicate 3 false ++ List.replicate 5 true ++ List.replicate 2 false

theorem settled_iff_inTurn : tills.cashRegisters.find? "till" = some till ∧
    (run step (race "till" suppliers tills) inTurn).Finished ∧
    (Settled "till" (run step (race "till" suppliers tills) inTurn).store ↔
      LastReadsAll (fun i => ((suppliers i).amount : ℚ)) inTurn ∨
        (IsEmpty Bool ∧ Settled "till" tills)) := by
  have hrow : tills.cashRegisters.find? "till" = some till := by decide +kernel
  have hf : (run step (race "till" suppliers tills) inTurn).Finished := by decide +kernel
  exact ⟨hrow, hf, settled_iff hrow inTurn hf⟩

/-- The total comes to 10, and the expenses come to 30. -/
theorem overtaken_unsettled : (run step (race "till" suppliers tills) overtaken).Finished ∧
    ¬ Settled "till" (run step (race "till" suppliers tills) overtaken).store := by
  refine ⟨by decide +kernel, ?_⟩
  rintro ⟨row, hrow, htotal⟩
  have hstored : (run step (race "till" suppliers tills) overtaken).store.cashRegisters.find?
      "till" = some { till with totalExpenses := some 10 } := by decide +kernel
  have hspent : spent "till" (run step (race "till" suppliers tills) overtaken).store = 30 := by
    decide +kernel
  obtain rfl := Option.some.inj (hrow.symm.trans hstored)
  rw [hspent] at htotal
  exact absurd htotal (by decide)

end CoffeeOs.ExpenseRace

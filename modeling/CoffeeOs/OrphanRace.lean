import CoffeeOs.LookThenStore
import CoffeeOs.Payments
import CoffeeOs.Transactions

/-!
Payments that are created while their transaction is removed.

A request for a payment looks for the transaction in one call and stores the payment in the next.
The removal deletes the payments in one call and the transaction in the next. A payment is left
without its transaction exactly if its request has found the transaction before this was deleted,
and has stored the payment after the others were.

The database is taken to enforce no foreign key from a payment to its transaction; one that it
enforced would refuse the payment, or the deletion.
-/

namespace CoffeeOs.OrphanRace

open CoffeeOs.Interleaving CoffeeOs.Interleaving.Pool CoffeeOs.KeyedTable CoffeeOs.Requests
open CoffeeOs.Requests.Request CoffeeOs.Runs CoffeeOs.Schema
open CoffeeOs.LookThenStore (Before before_append_iff)
open CoffeeOs.Payments (CreatePaymentDto PaymentView)
open CoffeeOs.Transactions (deleteLineItems deletePayments)

/-- Who makes a call: the removal of the transaction, or a request for a payment. -/
inductive Caller (ι : Type)
  | removal
  | payment (i : ι)
  deriving DecidableEq

variable {ι : Type} (id : Id) (newId : ι → Id) (dto : ι → CreatePaymentDto) (db : Db)

/-- One request to remove the transaction, and any number of requests to create payments. -/
def race : Pool (Caller ι) Db Error (Option PaymentView) :=
  ⟨db, fun
    | .removal => (fun _ => none) <$> Transactions.remove id
    | .payment i => some <$> Payments.create (newId i) (dto i)⟩

/-- What is left of the removal after a number of its calls. -/
def removing : ℕ → Api (Option PaymentView)
  | 0 => (fun _ => none) <$> Transactions.remove id
  | 1 => (fun _ => none) <$>
      (deleteLineItems id >>= fun _ => deletePayments id >>= fun _ => transaction.delete id)
  | 2 => (fun _ => none) <$> (deletePayments id >>= fun _ => transaction.delete id)
  | 3 => (fun _ => none) <$> transaction.delete id
  | _ => .done (.ok none)

/-- What is left of a request for a payment once it has found the transaction. -/
def storing (i : ι) : Api (Option PaymentView) :=
  some <$> payment.create (newId i) (dto i).row (Payments.viewOf (newId i) (dto i).row)

variable [DecidableEq ι]

/-- Request `i` finds the transaction of its payment: it is another one that is stored, or the one
that is removed, and the removal has not had all of its calls. -/
def Finds (is : List (Caller ι)) (i : ι) : Prop :=
  if (dto i).transactionId = id then ¬ Before is (.payment i) .removal 4
  else (db.transactions.find? (dto i).transactionId).isSome

/-- The removal has deleted the payments after request `i` has stored its own. -/
def Swept (is : List (Caller ι)) (i : ι) : Prop :=
  ∃ pre post, is = pre ++ .removal :: post ∧ pre.count .removal = 2 ∧ 2 ≤ pre.count (.payment i)

/-- How far a request for a payment has come. -/
inductive Stage (is : List (Caller ι)) (s : Db) (i : ι) : Api (Option PaymentView) → Prop
  | unread (first : Caller.payment i ∉ is) (fresh : s.payments.find? (newId i) = none) :
      Stage is s i (some <$> Payments.create (newId i) (dto i))
  | refused {e : Error} (looked : Caller.payment i ∈ is) (missed : ¬ Finds id dto db is i)
      (fresh : s.payments.find? (newId i) = none) : Stage is s i (.done (.error e))
  | storing (next : is.count (.payment i) = 1) (found : Finds id dto db is i)
      (fresh : s.payments.find? (newId i) = none) : Stage is s i (storing newId dto i)
  | stored {view : PaymentView} (turns : 2 ≤ is.count (.payment i)) (found : Finds id dto db is i)
      (gone : (dto i).transactionId = id → Swept is i → s.payments.find? (newId i) = none)
      (kept : ¬ ((dto i).transactionId = id ∧ Swept is i) →
        s.payments.find? (newId i) = some (dto i).row) : Stage is s i (.done (.ok (some view)))

/-- The requests and the tables after the turns `is`. -/
structure Reached (is : List (Caller ι)) (q : Pool (Caller ι) Db Error (Option PaymentView)) :
    Prop where
  removal : q.requests .removal = removing id (is.count .removal)
  transactions : q.store.transactions =
    if 4 ≤ is.count .removal then db.transactions.erase id else db.transactions
  stage : ∀ i, Stage id newId dto db is q.store i (q.requests (.payment i))
  others : ∀ k p, q.store.payments.find? k = some p → p.transactionId = id →
    (∃ i, k = newId i) ∨ is.count .removal ≤ 2

variable {id newId dto db} {is : List (Caller ι)} {i j : ι} {s s' : Db}
  {q : Pool (Caller ι) Db Error (Option PaymentView)} {r : Api (Option PaymentView)}

/-! ### One more turn -/

lemma swept_append_removal : Swept (is ++ [.removal]) i ↔
    Swept is i ∨ (is.count .removal = 2 ∧ 2 ≤ is.count (.payment i)) := by
  constructor
  · rintro ⟨pre, post, hsplit, hnone, hsome⟩
    rcases split_append_singleton hsplit with ⟨rfl, -, -⟩ | ⟨post, -, rfl⟩
    · exact Or.inr ⟨hnone, hsome⟩
    · exact Or.inl ⟨pre, post, rfl, hnone, hsome⟩
  · rintro (⟨pre, post, rfl, hnone, hsome⟩ | ⟨hnone, hsome⟩)
    · exact ⟨pre, post ++ [.removal], by simp, hnone, hsome⟩
    · exact ⟨is, [], rfl, hnone, hsome⟩

lemma swept_append_payment : Swept (is ++ [.payment j]) i ↔ Swept is i := by
  constructor
  · rintro ⟨pre, post, hsplit, hnone, hsome⟩
    rcases split_append_singleton hsplit with ⟨-, hturn, -⟩ | ⟨post, -, rfl⟩
    · cases hturn
    · exact ⟨pre, post, rfl, hnone, hsome⟩
  · rintro ⟨pre, post, rfl, hnone, hsome⟩
    exact ⟨pre, post ++ [.payment j], by simp, hnone, hsome⟩

lemma Swept.turns (h : Swept is i) : 3 ≤ is.count .removal ∧ 2 ≤ is.count (.payment i) := by
  obtain ⟨pre, post, rfl, hnone, hsome⟩ := h
  rw [List.count_append, List.count_append, List.count_cons_self, List.count_cons]
  omega

lemma count_append_removal :
    (is ++ [Caller.removal]).count Caller.removal = is.count .removal + 1 := by
  rw [count_append_singleton, if_pos rfl]

lemma count_removal_append :
    (is ++ [Caller.payment i]).count Caller.removal = is.count .removal := by
  rw [count_append_singleton, if_neg nofun, Nat.add_zero]

lemma count_payment_append :
    (is ++ [Caller.removal]).count (Caller.payment i) = is.count (.payment i) := by
  rw [count_append_singleton, if_neg nofun, Nat.add_zero]

lemma finds_append_of_mem (k : Caller ι) (h : Caller.payment i ∈ is) :
    Finds id dto db (is ++ [k]) i ↔ Finds id dto db is i := by
  unfold Finds
  rw [before_append_iff, or_iff_left fun hk => hk.2.1 h]

lemma mem_of_count {n : ℕ} (h : n + 1 ≤ is.count (.payment i)) : Caller.payment i ∈ is :=
  List.count_pos_iff.mp (Nat.lt_of_lt_of_le (Nat.succ_pos n) h)

/-- The turn of another request for a payment, which leaves the payment of this one. -/
lemma Stage.append_payment (hij : i ≠ j)
    (hrow : s'.payments.find? (newId i) = s.payments.find? (newId i))
    (h : Stage id newId dto db is s i r) : Stage id newId dto db (is ++ [.payment j]) s' i r := by
  have hcount : (is ++ [Caller.payment j]).count (Caller.payment i) = is.count (.payment i) := by
    rw [count_append_singleton, if_neg fun he => hij (Caller.payment.inj he).symm, Nat.add_zero]
  have hmem : Caller.payment i ∈ is → Caller.payment i ∈ is ++ [.payment j] :=
    List.mem_append_left _
  cases h with
  | unread first fresh => exact .unread (by simpa [hij] using first) (hrow.trans fresh)
  | refused looked missed fresh =>
    exact .refused (hmem looked) (mt (finds_append_of_mem _ looked).mp missed) (hrow.trans fresh)
  | storing next found fresh =>
    exact .storing (hcount.trans next) ((finds_append_of_mem _ (mem_of_count next.ge)).mpr found)
      (hrow.trans fresh)
  | stored turns found gone kept =>
    refine .stored (turns.trans hcount.ge) ((finds_append_of_mem _ (mem_of_count turns)).mpr found)
      (fun hid hs => hrow.trans (gone hid (swept_append_payment.mp hs)))
      fun hs => hrow.trans (kept ?_)
    rwa [swept_append_payment] at hs

/-- The turn of the removal, which deletes the payments if it is the third one. -/
lemma Stage.append_removal
    (hrow : s'.payments = if is.count .removal = 2 then
      s.payments.keep fun _ p => p.transactionId ≠ id else s.payments)
    (h : Stage id newId dto db is s i r) : Stage id newId dto db (is ++ [.removal]) s' i r := by
  have hmem : Caller.payment i ∈ is → Caller.payment i ∈ is ++ [.removal] := List.mem_append_left _
  have hfresh (hf : s.payments.find? (newId i) = none) : s'.payments.find? (newId i) = none := by
    rw [hrow]
    split
    · rw [Table.find?_keep, hf]
      rfl
    · exact hf
  cases h with
  | unread first fresh => exact .unread (by simpa using first) (hfresh fresh)
  | refused looked missed fresh =>
    exact .refused (hmem looked) (mt (finds_append_of_mem _ looked).mp missed) (hfresh fresh)
  | storing next found fresh =>
    exact .storing (count_payment_append.trans next)
      ((finds_append_of_mem _ (mem_of_count next.ge)).mpr found) (hfresh fresh)
  | stored turns found gone kept =>
    -- the second turn of the removal deletes the payments that are stored by then
    refine .stored (turns.trans count_payment_append.ge)
      ((finds_append_of_mem _ (mem_of_count turns)).mpr found) (fun hid hs => ?_) fun hs => ?_
    · rcases swept_append_removal.mp hs with hs | ⟨hnone, -⟩
      · exact hfresh (gone hid hs)
      · rw [hrow, if_pos hnone, Table.find?_keep]
        by_cases hs : Swept is i
        · rw [gone hid hs]
          rfl
        · rw [kept fun hk => hs hk.2]
          simp [CreatePaymentDto.row, hid]
    · rw [swept_append_removal] at hs
      have hold := kept fun hk => hs ⟨hk.1, Or.inl hk.2⟩
      rw [hrow]
      split
      · rename_i hnone
        have hother : (dto i).transactionId ≠ id := fun hid => hs ⟨hid, Or.inr ⟨hnone, turns⟩⟩
        rw [Table.find?_keep, hold]
        simp [CreatePaymentDto.row, hother]
      · exact hold

/-- A call of the removal: the third one deletes the payments, and the fourth one the row. -/
lemma step_removing {row : Transaction} {n : ℕ} (hrow : db.transactions.find? id = some row)
    (hopen : row.status ≠ .completed) (h : q.requests .removal = removing id n)
    (htransactions : q.store.transactions =
      if 4 ≤ n then db.transactions.erase id else db.transactions) :
    ∃ t, q.step .removal = ⟨t, Function.update q.requests .removal (removing id (n + 1))⟩ ∧
      t.transactions = (if 4 ≤ n + 1 then db.transactions.erase id else db.transactions) ∧
      t.payments = if n = 2 then q.store.payments.keep fun _ p => p.transactionId ≠ id
        else q.store.payments := by
  match n with
  | 0 =>
    have hread : q.requests .removal = look (fun db => db.transactions.find? id) >>= fun found =>
        (fun _ => none) <$> (orThrow (.notFound s!"Transaction with ID {id} not found") found >>=
          fun row => throwIf (row.status = .completed)
            (.badRequest "Cannot delete completed transaction") >>= fun _ =>
              deleteLineItems id >>= fun _ => deletePayments id >>= fun _ =>
                transaction.delete id) := h
    have hfound : q.store.transactions.find? id = some row := by rw [htransactions]; exact hrow
    refine ⟨q.store, ?_, htransactions, rfl⟩
    rw [step_look_bind hread, hfound, orThrow_some_bind, throwIf_bind_neg hopen]
    rfl
  | 1 => exact ⟨_, step_of_call h, htransactions, rfl⟩
  | 2 => exact ⟨_, step_of_call h, htransactions, rfl⟩
  | 3 =>
    have hfound : q.store.transactions.find? id = some row := by rw [htransactions]; exact hrow
    refine ⟨{ q.store with transactions := q.store.transactions.erase id }, ?_, ?_, rfl⟩
    · exact step_atomically_bind (g := fun _ => .done (.ok none)) h (by rw [transaction, hfound])
    · dsimp only
      rw [htransactions]
      rfl
  | n + 4 =>
    refine ⟨q.store, ?_, ?_, ?_⟩
    · -- from here on the removal has its answer
      have hdone : q.requests .removal = .done (.ok none) := h
      have hsame : removing id (n + 4 + 1) = .done (.ok none) := rfl
      rw [step_of_done hdone, hsame, ← hdone, Function.update_eq_self]
    · rw [htransactions, if_pos (by omega), if_pos (by omega)]
    · rw [if_neg (by omega)]

lemma reached_removal {row : Transaction} (hrow : db.transactions.find? id = some row)
    (hopen : row.status ≠ .completed) (h : Reached id newId dto db is q) :
    Reached id newId dto db (is ++ [.removal]) (q.step .removal) := by
  obtain ⟨t, hstep, htransactions, hpayments⟩ :=
    step_removing hrow hopen h.removal h.transactions
  rw [hstep]
  refine ⟨?_, ?_, fun i => ?_, fun k p hp hid => ?_⟩
  · dsimp only
    rw [Function.update_self, count_append_removal]
  · rw [count_append_removal]
    exact htransactions
  · have hne : Caller.payment i ≠ .removal := nofun
    dsimp only
    rw [Function.update_of_ne hne]
    exact (h.stage i).append_removal hpayments
  · dsimp only at hp
    rw [hpayments] at hp
    split at hp
    · -- the payments of the transaction are deleted in this very turn
      rw [Table.find?_keep, Option.filter_eq_some_iff] at hp
      exact absurd hid (of_decide_eq_true hp.2)
    · refine (h.others k p hp hid).imp_right fun hle => ?_
      rw [count_append_removal]
      omega

/-- The first call of a request for a payment looks whether the transaction is there. -/
lemma finds_first_iff {row : Transaction} (hrow : db.transactions.find? id = some row)
    (h : Reached id newId dto db is q) (hfirst : Caller.payment i ∉ is) :
    Finds id dto db (is ++ [.payment i]) i ↔
      (q.store.transactions.find? (dto i).transactionId).isSome := by
  have hbefore : ¬ Before is (.payment i) .removal 4 := fun hb => hfirst hb.1
  rw [h.transactions]
  by_cases hid : (dto i).transactionId = id
  · -- the transaction that is removed, found until the fourth turn of its removal
    rw [Finds, if_pos hid, before_append_iff, hid]
    split
    · rename_i hfour
      rw [Table.find?_erase_self]
      exact iff_of_false (fun hn => hn (Or.inr ⟨rfl, hfirst, hfour⟩)) Bool.false_ne_true
    · rename_i hfour
      rw [hrow]
      refine iff_of_true ?_ rfl
      rintro (hb | ⟨-, -, hcount⟩)
      · exact hbefore hb
      · exact hfour hcount
  · -- another transaction
    rw [Finds, if_neg hid]
    split
    · rw [Table.find?_erase_ne hid]
    · rfl

lemma reached_payment {row : Transaction} (hnew : Function.Injective newId)
    (hrow : db.transactions.find? id = some row) (h : Reached id newId dto db is q) (i : ι) :
    Reached id newId dto db (is ++ [.payment i]) (q.step (.payment i)) := by
  have hmem : Caller.payment i ∈ is ++ [.payment i] :=
    List.mem_append_right _ (List.mem_singleton_self _)
  have hlast : (is ++ [Caller.payment i]).count (.payment i) = is.count (.payment i) + 1 := by
    rw [count_append_singleton, if_pos rfl]
  -- what a turn leaves as it is
  have hnext {t : Db} {r : Api (Option PaymentView)}
      (hstep : q.step (.payment i) = ⟨t, Function.update q.requests (.payment i) r⟩)
      (htransactions : t.transactions = q.store.transactions)
      (hpayments : ∀ k, k ≠ newId i → t.payments.find? k = q.store.payments.find? k)
      (hr : Stage id newId dto db (is ++ [.payment i]) t i r) :
      Reached id newId dto db (is ++ [.payment i]) (q.step (.payment i)) := by
    rw [hstep]
    refine ⟨?_, ?_, fun j => ?_, fun k p hp hid => ?_⟩
    · have hne : Caller.removal ≠ .payment i := nofun
      dsimp only
      rw [Function.update_of_ne hne, count_removal_append]
      exact h.removal
    · rw [count_removal_append]
      exact htransactions.trans h.transactions
    · dsimp only
      by_cases hj : j = i
      · subst hj
        rwa [Function.update_self]
      · rw [Function.update_of_ne fun he => hj (Caller.payment.inj he)]
        exact (h.stage j).append_payment hj (hpayments _ fun he => hj (hnew he))
    · rw [count_removal_append]
      by_cases hk : k = newId i
      · exact Or.inl ⟨i, hk⟩
      · exact h.others k p ((hpayments k hk).symm.trans hp) hid
  have hstage := h.stage i
  generalize hreq : q.requests (.payment i) = r at hstage
  have hstill {a : Except Error (Option PaymentView)} (ha : r = .done a) :
      q.step (.payment i) = ⟨q.store, Function.update q.requests (.payment i) r⟩ := by
    rw [step_of_done (hreq.trans ha), ← hreq, Function.update_eq_self]
  cases hstage with
  | unread first fresh =>
    have hfinds := finds_first_iff hrow h first
    have hread : q.requests (.payment i) =
        look (fun db => db.transactions.find? (dto i).transactionId) >>= fun found =>
          some <$> (orThrow (.badRequest
            s!"Transaction with ID {(dto i).transactionId} not found") found >>= fun _ =>
              payment.create (newId i) (dto i).row (Payments.viewOf (newId i) (dto i).row)) := hreq
    refine hnext (step_look_bind hread) rfl (fun _ _ => rfl) ?_
    rcases hfound : q.store.transactions.find? (dto i).transactionId with _ | found
    · refine .refused hmem (fun hf => ?_) fresh
      rw [hfinds, hfound] at hf
      cases hf
    · refine .storing ?_ (hfinds.mpr (by rw [hfound]; rfl)) fresh
      rw [hlast, List.count_eq_zero.mpr first]
  | refused looked missed fresh =>
    exact hnext (hstill rfl) rfl (fun _ _ => rfl)
      (.refused hmem (mt (finds_append_of_mem _ looked).mp missed) fresh)
  | storing next found fresh =>
    have hstep : q.step (.payment i) = ⟨{ q.store with
        payments := q.store.payments.put (newId i) (dto i).row },
        Function.update q.requests (.payment i) (.done (.ok (some _)))⟩ :=
      step_atomically_bind (g := fun view => .done (.ok (some view))) hreq (by rw [payment, fresh])
    -- the removal sweeps only what is stored by then, and this payment is stored just now
    have hswept : ¬ Swept (is ++ [.payment i]) i := fun hs => by
      have hturns := (swept_append_payment.mp hs).turns.2
      omega
    exact hnext hstep rfl (fun _ hk => Table.find?_put_ne hk)
      (.stored (by rw [hlast, next])
        ((finds_append_of_mem _ (mem_of_count next.ge)).mpr found)
        (fun _ hs => absurd hs hswept) fun _ => Table.find?_put_self)
  | stored turns found gone kept =>
    refine hnext (hstill rfl) rfl (fun _ _ => rfl) (.stored (by omega)
      ((finds_append_of_mem _ (mem_of_count turns)).mpr found)
      (fun hid hs => gone hid (swept_append_payment.mp hs)) fun hs => kept ?_)
    rwa [swept_append_payment] at hs

/-! ### The race -/

lemma reached_run {row : Transaction} (dto : ι → CreatePaymentDto)
    (hnew : Function.Injective newId) (hfresh : ∀ i, db.payments.find? (newId i) = none)
    (hrow : db.transactions.find? id = some row) (hopen : row.status ≠ .completed)
    (is : List (Caller ι)) :
    Reached id newId dto db is (run Pool.step (race id newId dto db) is) := by
  induction is using List.reverseRecOn with
  | nil => exact ⟨rfl, rfl, fun i => .unread nofun (hfresh i), fun _ _ _ _ => Or.inr (by simp)⟩
  | append_singleton is caller ih =>
    rw [run_append, run_cons, run_nil]
    cases caller with
    | removal => exact reached_removal hrow hopen ih
    | payment i => exact reached_payment hnew hrow ih i

/-- The transaction is stored, or none of the payments names it. -/
def NoOrphan (id : Id) (s : Db) : Prop :=
  ∀ k p, s.payments.find? k = some p → p.transactionId = id → (s.transactions.find? id).isSome

variable (id dto) in
/-- The payment of request `i` slips through the removal: its request has found the transaction
before this was deleted, and has stored the payment after the others were. -/
def SlipsThrough (is : List (Caller ι)) (i : ι) : Prop :=
  (dto i).transactionId = id ∧ 2 ≤ is.count (.payment i) ∧
    ¬ Before is (.payment i) .removal 4 ∧ ¬ Swept is i

/-- **Orphans.** If no foreign key is enforced, then however many payments are created while a
transaction is removed, and whatever the order of the calls, a payment is left without the
transaction exactly if the removal has had all of its calls and some payment has slipped
through. -/
theorem orphans_iff (id : Id) (newId : ι → Id) (dto : ι → CreatePaymentDto) (db : Db)
    (row : Transaction) (hnew : Function.Injective newId)
    (hfresh : ∀ i, db.payments.find? (newId i) = none)
    (hrow : db.transactions.find? id = some row) (hopen : row.status ≠ .completed)
    (is : List (Caller ι)) :
    ¬ NoOrphan id (run Pool.step (race id newId dto db) is).store ↔
      4 ≤ is.count .removal ∧ ∃ i, SlipsThrough id dto is i := by
  have h := reached_run dto hnew hfresh hrow hopen is
  generalize run Pool.step (race id newId dto db) is = q at h
  have hgone : q.store.transactions.find? id = none ↔ 4 ≤ is.count .removal := by
    rw [h.transactions]
    split
    · rename_i hfour
      exact iff_of_true Table.find?_erase_self hfour
    · rename_i hfour
      rw [hrow]
      exact iff_of_false (Option.some_ne_none row) hfour
  have hfinds {i : ι} (hid : (dto i).transactionId = id) :
      Finds id dto db is i ↔ ¬ Before is (.payment i) .removal 4 := by
    rw [Finds, if_pos hid]
  constructor
  · -- what is left without the transaction is a payment of a request that has stored it
    intro horphan
    unfold NoOrphan at horphan
    simp only [not_forall] at horphan
    obtain ⟨k, p, hp, hid, hmissing⟩ := horphan
    have hfour : 4 ≤ is.count .removal :=
      hgone.mp (Option.not_isSome_iff_eq_none.mp hmissing)
    refine ⟨hfour, ?_⟩
    rcases h.others k p hp hid with ⟨i, rfl⟩ | hle
    swap
    · -- the payments that were there from the start have been deleted by now
      omega
    have hstage := h.stage i
    generalize q.requests (.payment i) = r at hstage
    cases hstage with
    -- before a request has stored its payment, its id is still free
    | unread first fresh => cases fresh.symm.trans hp
    | refused looked missed fresh => cases fresh.symm.trans hp
    | storing next found fresh => cases fresh.symm.trans hp
    -- a payment that is still there has not been deleted along with the others
    | stored turns found gone kept =>
      have hkept : ¬ ((dto i).transactionId = id ∧ Swept is i) := fun hs => by
        cases (gone hs.1 hs.2).symm.trans hp
      obtain rfl := Option.some.inj ((kept hkept).symm.trans hp)
      exact ⟨i, hid, turns, (hfinds hid).mp found, fun hs => hkept ⟨hid, hs⟩⟩
  · -- a request that has had two turns and was not refused has stored its payment
    rintro ⟨hfour, i, hid, hturns, hbefore, hswept⟩ hall
    have hstage := h.stage i
    generalize q.requests (.payment i) = r at hstage
    cases hstage with
    | unread first fresh => exact first (mem_of_count hturns)
    | refused looked missed fresh => exact missed ((hfinds hid).mpr hbefore)
    | storing next found fresh => omega
    | stored turns found gone kept =>
      have hstored := hall _ _ (kept fun hs => hswept hs.2) hid
      rw [hgone.mpr hfour] at hstored
      cases hstored

/-- A sale that a client pays while another one removes it. -/
def abandoned : Db :=
  { transactions := (∅ : Table Id Transaction).put "sale" { status := .pending } }

def pays (_ : Unit) : CreatePaymentDto where
  transactionId := "sale"
  amount := .succ 49
  method := .cash

/-- The sale is found, its payments are deleted, and then the payment is stored. -/
def between : List (Caller Unit) :=
  [.payment (), .removal, .removal, .removal, .payment (), .removal]

theorem orphans_iff_abandoned :
    ¬ NoOrphan "sale"
        (run Pool.step (race "sale" (fun _ => "p") pays abandoned) between).store ↔
      4 ≤ between.count .removal ∧ ∃ i, SlipsThrough "sale" pays between i :=
  orphans_iff "sale" (fun _ => "p") pays abandoned { status := .pending } (fun _ _ _ => rfl)
    (fun _ => rfl) (by decide +kernel) (by decide) between

example : (run Pool.step (race "sale" (fun _ => "p") pays abandoned) between).store.payments.find?
    "p" = some (pays ()).row := by decide +kernel

end CoffeeOs.OrphanRace

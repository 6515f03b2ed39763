import CoffeeOs.Interleaving
import CoffeeOs.OrderNumbers

/-!
Orders that are created at the same time.

A request counts the orders of the day in one call and stores its own, numbered by what it has
counted, in the next. Nothing holds the number for it in between, so that two orders of a day share
a number exactly if no order has been stored between their counts.
-/

namespace CoffeeOs.OrderNumberRace

open CoffeeOs.Calendar CoffeeOs.Interleaving CoffeeOs.Interleaving.Pool CoffeeOs.KeyedTable
open CoffeeOs.OrderNumbers CoffeeOs.Requests CoffeeOs.Requests.Request CoffeeOs.Runs
open CoffeeOs.Schema
open CoffeeOs.Orders hiding step

/-- A call of `create`: its number is made by the clock reading `now`, and the database stamps its
row with `createdAt`. -/
structure Creation where
  newId : Id
  dto : CreateOrderDto
  now : Instant
  createdAt : Instant

variable {ι : Type} (midnight : Instant → Instant) (call : ι → Creation) (db : Db)

/-- Requests to create orders. -/
def race : Pool ι Db Error OrderView :=
  ⟨db, fun i => create midnight (call i).newId (call i).dto (call i).now (call i).createdAt⟩

/-- The calls of a request before it counts the orders: one if it names a transaction. -/
def looks (c : Creation) : ℕ :=
  if c.dto.transactionId.toOption.filter (· ≠ "") = none then 0 else 1

/-- The row of a request that has counted `n` orders. -/
def rowOf (c : Creation) (n : ℕ) : Order :=
  c.dto.row (orderNumber (dateStr c.now) (n + 1)) c.createdAt

/-- What is left of a request once it has checked the transaction. -/
def counting (c : Creation) : Api OrderView :=
  generateOrderNumber midnight c.now >>= fun number =>
    order.create c.newId (c.dto.row number c.createdAt)
      (viewOf c.newId (c.dto.row number c.createdAt))

/-- What is left of a request that has counted `n` orders. -/
def storing (c : Creation) (n : ℕ) : Api OrderView :=
  order.create c.newId (rowOf c n) (viewOf c.newId (rowOf c n))

variable [DecidableEq ι]

/-- What request `i` counts after the turns `pre`. -/
def seen (pre : List ι) (i : ι) : ℕ :=
  countSince (midnight (call i).now) (run Pool.step (race midnight call db) pre).store

/-- Of the turns `is`, request `i` has counted the orders after `pre`. -/
structure Counted (is : List ι) (i : ι) (pre : List ι) : Prop where
  turns : ∃ post, is = pre ++ i :: post
  looked : pre.count i = looks (call i)

/-- Request `k` has stored its order: the transaction it names is stored, if it names one, and it
has had all of its turns. -/
def Placed (is : List ι) (k : ι) : Prop :=
  NamesStored db (call k).dto.transactionId ∧ looks (call k) + 2 ≤ is.count k

/-- How far a request has come after the turns `is`. -/
inductive Stage (is : List ι) (s : Db) (i : ι) : Api OrderView → Prop
  | unread (named : looks (call i) = 1) (first : is.count i = 0)
      (fresh : s.orders.find? (call i).newId = none) :
      Stage is s i (create midnight (call i).newId (call i).dto (call i).now (call i).createdAt)
  | refused {e : Error} (unnamed : ¬ NamesStored db (call i).dto.transactionId)
      (fresh : s.orders.find? (call i).newId = none) : Stage is s i (.done (.error e))
  | counting (named : NamesStored db (call i).dto.transactionId)
      (next : is.count i = looks (call i)) (fresh : s.orders.find? (call i).newId = none) :
      Stage is s i (counting midnight (call i))
  | storing {pre : List ι} (named : NamesStored db (call i).dto.transactionId)
      (counted : Counted call is i pre) (next : is.count i = looks (call i) + 1)
      (fresh : s.orders.find? (call i).newId = none) :
      Stage is s i (storing (call i) (seen midnight call db pre i))
  | stored {pre : List ι} {view : OrderView} (placed : Placed call db is i)
      (counted : Counted call is i pre)
      (row : s.orders.find? (call i).newId = some (rowOf (call i) (seen midnight call db pre i))) :
      Stage is s i (.done (.ok view))

/-- The requests and the tables after the turns `is`. -/
structure Reached (is : List ι) : Prop where
  transactions : (run Pool.step (race midnight call db) is).store.transactions = db.transactions
  stage : ∀ i, Stage midnight call db is (run Pool.step (race midnight call db) is).store i
    ((run Pool.step (race midnight call db) is).requests i)

variable {midnight call db} {is js pre pre' : List ι} {i j : ι} {s s' : Db} {r : Api OrderView}

/-! ### The first calls -/

lemma looks_of_names {k : Id} {c : Creation}
    (h : c.dto.transactionId.toOption.filter (· ≠ "") = some k) : looks c = 1 :=
  if_neg (by rw [h]; exact Option.some_ne_none k)

lemma create_of_names {k : Id} {c : Creation}
    (h : c.dto.transactionId.toOption.filter (· ≠ "") = some k) :
    create midnight c.newId c.dto c.now c.createdAt =
      look (fun db => db.transactions.find? k) >>= fun found =>
        (orThrow (.badRequest s!"Transaction with ID {k} not found") found >>= fun _ => pure ())
          >>= fun _ => counting midnight c := by
  rw [create, verifyTransaction, h]
  rfl

lemma create_of_names_none {c : Creation}
    (h : c.dto.transactionId.toOption.filter (· ≠ "") = none) :
    create midnight c.newId c.dto c.now c.createdAt = counting midnight c := by
  rw [create, verifyTransaction, h]
  rfl

lemma reached_nil (hfresh : ∀ i, db.orders.find? (call i).newId = none) :
    Reached midnight call db [] := by
  refine ⟨rfl, fun i => ?_⟩
  show Stage midnight call db [] db i
    (create midnight (call i).newId (call i).dto (call i).now (call i).createdAt)
  rcases hnames : (call i).dto.transactionId.toOption.filter (· ≠ "") with _ | k
  · rw [create_of_names_none hnames]
    refine .counting (fun k hk => ?_) (if_pos hnames).symm (hfresh i)
    rw [hnames] at hk
    cases hk
  · exact .unread (looks_of_names hnames) rfl (hfresh i)

/-! ### One more turn -/

lemma Counted.append (h : Counted call is i pre) (j : ι) : Counted call (is ++ [j]) i pre := by
  obtain ⟨⟨post, rfl⟩, hlooked⟩ := h
  exact ⟨⟨post ++ [j], by simp⟩, hlooked⟩

lemma Placed.append (h : Placed call db is i) (j : ι) : Placed call db (is ++ [j]) i := by
  refine ⟨h.1, h.2.trans ?_⟩
  rw [List.count_append]
  exact Nat.le_add_right _ _

/-- The turn of another request, which leaves the row of this one. -/
lemma Stage.append_ne (hij : i ≠ j)
    (hrow : s'.orders.find? (call i).newId = s.orders.find? (call i).newId)
    (h : Stage midnight call db is s i r) : Stage midnight call db (is ++ [j]) s' i r := by
  have hcount : (is ++ [j]).count i = is.count i := by
    rw [count_append_singleton, if_neg hij.symm, Nat.add_zero]
  cases h with
  | unread named first fresh => exact .unread named (hcount.trans first) (hrow.trans fresh)
  | refused unnamed fresh => exact .refused unnamed (hrow.trans fresh)
  | counting named next fresh => exact .counting named (hcount.trans next) (hrow.trans fresh)
  | storing named counted next fresh =>
    exact .storing named (counted.append j) (hcount.trans next) (hrow.trans fresh)
  | stored placed counted row => exact .stored (placed.append j) (counted.append j) (hrow.trans row)

lemma reached_turn (hnew : Function.Injective fun i => (call i).newId)
    (h : Reached midnight call db is)
    (hstep : (run Pool.step (race midnight call db) is).step i =
      ⟨s', Function.update (run Pool.step (race midnight call db) is).requests i r⟩)
    (htransactions : s'.transactions =
      (run Pool.step (race midnight call db) is).store.transactions)
    (hothers : ∀ k, k ≠ (call i).newId → s'.orders.find? k =
      (run Pool.step (race midnight call db) is).store.orders.find? k)
    (hr : Stage midnight call db (is ++ [i]) s' i r) : Reached midnight call db (is ++ [i]) := by
  have hrun : run Pool.step (race midnight call db) (is ++ [i]) =
      ⟨s', Function.update (run Pool.step (race midnight call db) is).requests i r⟩ := by
    rw [run_append, run_cons, run_nil, hstep]
  refine ⟨?_, fun j => ?_⟩ <;> rw [hrun]
  · exact htransactions.trans h.transactions
  · by_cases hj : j = i
    · subst hj
      simpa using hr
    · simp only [Function.update_of_ne hj]
      exact (h.stage j).append_ne hj (hothers _ fun he => hj (hnew he))

variable (call db) in
/-- The next turn of request `i` stores its order. -/
def Due (is : List ι) (i : ι) : Prop :=
  NamesStored db (call i).dto.transactionId ∧ is.count i = looks (call i) + 1

/-- **One turn.** It stores the order of its request, or nothing. -/
lemma reached_step (hnew : Function.Injective fun i => (call i).newId)
    (h : Reached midnight call db is) (i : ι) : Reached midnight call db (is ++ [i]) ∧
    ((Due call db is i ∧ ∃ n,
        (run Pool.step (race midnight call db) is).store.orders.find? (call i).newId = none ∧
        (run Pool.step (race midnight call db) (is ++ [i])).store =
          { (run Pool.step (race midnight call db) is).store with
            orders := (run Pool.step (race midnight call db) is).store.orders.put (call i).newId
              (rowOf (call i) n) }) ∨
      (¬ Due call db is i ∧ (run Pool.step (race midnight call db) (is ++ [i])).store =
        (run Pool.step (race midnight call db) is).store)) := by
  have hlast : (is ++ [i]).count i = is.count i + 1 := by rw [count_append_singleton, if_pos rfl]
  have hrun : run Pool.step (race midnight call db) (is ++ [i]) =
      (run Pool.step (race midnight call db) is).step i := by rw [run_append, run_cons, run_nil]
  have hstage := h.stage i
  have hnext {t : Db} {r : Api OrderView} := @reached_turn _ midnight call db _ is i t r hnew h
  generalize hq : run Pool.step (race midnight call db) is = q at hstage hrun hnext ⊢
  have htransactions : q.store.transactions = db.transactions := hq ▸ h.transactions
  generalize hreq : q.requests i = r at hstage
  have hstill {a : Except Error OrderView} (ha : r = .done a) :
      q.step i = ⟨q.store, Function.update q.requests i r⟩ := by
    rw [step_of_done (hreq.trans ha), ← hreq, Function.update_eq_self]
  cases hstage with
  | unread named first fresh =>
    have hdue : ¬ Due call db is i := fun hd => by have := hd.2; omega
    rcases hnames : (call i).dto.transactionId.toOption.filter (· ≠ "") with _ | k
    · rw [looks, if_pos hnames] at named
      cases named
    have hstep := step_look_bind (hreq.trans (create_of_names hnames))
    rw [htransactions] at hstep
    rw [hrun, hstep]
    refine ⟨hnext hstep rfl (fun _ _ => rfl) ?_, Or.inr ⟨hdue, rfl⟩⟩
    rcases hfound : db.transactions.find? k with _ | row
    · -- the transaction is not stored: the request is refused at once
      refine .refused (fun hstored => ?_) fresh
      exact hstored k (by rw [hnames]; rfl) hfound
    · refine .counting (fun k' hk' => ?_) (by rw [hlast, first, named]) fresh
      rw [hnames] at hk'
      obtain rfl := Option.some.inj hk'
      rw [hfound]
      exact Option.some_ne_none row
  | refused unnamed fresh =>
    have hstep := hstill rfl
    rw [hrun, hstep]
    exact ⟨hnext hstep rfl (fun _ _ => rfl) (.refused unnamed fresh),
      Or.inr ⟨fun hd => unnamed hd.1, rfl⟩⟩
  | counting named next fresh =>
    -- the second turn reads the count, which the third one then writes into the number
    have hstep : q.step i = ⟨q.store, Function.update q.requests i (storing (call i)
        (countSince (midnight (call i).now) q.store))⟩ := step_of_call hreq
    rw [hrun, hstep]
    refine ⟨hnext hstep rfl (fun _ _ => rfl) ?_, Or.inr ⟨fun hd => ?_, rfl⟩⟩
    · rw [← hq]
      exact .storing named ⟨⟨[], rfl⟩, next⟩ (by rw [hlast, next]) (hq ▸ fresh)
    · have := hd.2
      omega
  | storing named counted next fresh =>
    rename_i pre
    -- the third turn stores the order under the count of the second, however old that is
    have hplaced : Placed call db (is ++ [i]) i := ⟨named, by rw [hlast, next]⟩
    have hstep : q.step i = ⟨{ q.store with
        orders := q.store.orders.put (call i).newId
          (rowOf (call i) (seen midnight call db pre i)) },
        Function.update q.requests i (.done (.ok _))⟩ :=
      step_atomically_ok hreq (by rw [order, fresh])
    rw [hrun, hstep]
    exact ⟨hnext hstep rfl (fun _ hk => Table.find?_put_ne hk)
      (.stored hplaced (counted.append i) Table.find?_put_self),
      Or.inl ⟨⟨named, next⟩, _, fresh, rfl⟩⟩
  | stored placed counted row =>
    have hstep := hstill rfl
    rw [hrun, hstep]
    refine ⟨hnext hstep rfl (fun _ _ => rfl) (.stored (placed.append i) (counted.append i) row),
      Or.inr ⟨fun hd => ?_, rfl⟩⟩
    have := hd.2
    have := placed.2
    omega

lemma reached_run (midnight : Instant → Instant)
    (hnew : Function.Injective fun i => (call i).newId)
    (hfresh : ∀ i, db.orders.find? (call i).newId = none) (is : List ι) :
    Reached midnight call db is := by
  induction is using List.reverseRecOn with
  | nil => exact reached_nil hfresh
  | append_singleton is i ih => exact (reached_step hnew ih i).1

/-! ### The counts -/

section Counts

variable {m : Instant} (midnight : Instant → Instant)

lemma countSince_put_new {c : Creation} {n : ℕ} (hfresh : s.orders.find? c.newId = none)
    (hm : m ≤ c.createdAt) : countSince m { s with orders := s.orders.put c.newId (rowOf c n) } =
      countSince m s + 1 := by
  unfold countSince
  dsimp only
  rw [Table.rows_put_new hfresh, List.filter_append, List.length_append]
  refine congrArg _ (congrArg List.length (List.filter_cons_of_pos ?_))
  exact decide_eq_true hm

variable (hnew : Function.Injective fun i => (call i).newId)
  (hfresh : ∀ i, db.orders.find? (call i).newId = none) (hm : ∀ i, m ≤ (call i).createdAt)

include hnew hfresh hm

lemma countSince_le_run (is js : List ι) :
    countSince m (run Pool.step (race midnight call db) is).store ≤
      countSince m (run Pool.step (race midnight call db) (is ++ js)).store := by
  induction js using List.reverseRecOn with
  | nil => rw [List.append_nil]
  | append_singleton js j ih =>
    rw [← List.append_assoc]
    rcases (reached_step hnew (reached_run midnight hnew hfresh (is ++ js)) j).2 with
      ⟨-, n, hfree, hstore⟩ | ⟨-, hstore⟩
    · rw [hstore, countSince_put_new hfree (hm j)]
      exact ih.trans (Nat.le_succ _)
    · rwa [hstore]

/-- As many orders are counted later as were before only if none has been stored in between. -/
lemma countSince_run_eq_iff (is js : List ι) :
    countSince m (run Pool.step (race midnight call db) (is ++ js)).store =
        countSince m (run Pool.step (race midnight call db) is).store ↔
      ∀ k, Placed call db (is ++ js) k → Placed call db is k := by
  induction js using List.reverseRecOn with
  | nil => rw [List.append_nil]; exact iff_of_true rfl fun _ h => h
  | append_singleton js j ih =>
    have hle : is.count j ≤ (is ++ js).count j := by
      rw [List.count_append]
      exact Nat.le_add_right _ _
    -- an order that is placed from `m` on is never uncounted
    have hlater := countSince_le_run midnight hnew hfresh hm is js
    rw [← List.append_assoc]
    rcases (reached_step hnew (reached_run midnight hnew hfresh (is ++ js)) j).2 with
      ⟨hdue, n, hfree, hstore⟩ | ⟨hdue, hstore⟩
    · -- this turn places an order, which was not placed at the first count
      rw [hstore, countSince_put_new hfree (hm j)]
      refine iff_of_false (by omega) fun hall => ?_
      have hplaced : Placed call db (is ++ js ++ [j]) j := by
        refine ⟨hdue.1, ?_⟩
        rw [count_append_singleton, if_pos rfl, hdue.2]
      have hbefore := (hall j hplaced).2
      have hcount := hdue.2
      omega
    · -- this turn places none
      rw [hstore, ih]
      refine forall_congr' fun k => imp_congr_left ⟨fun hk => hk.append j, fun hk => ⟨hk.1, ?_⟩⟩
      have hcount := hk.2
      rw [count_append_singleton] at hcount
      by_cases hjk : j = k
      · subst hjk
        rw [if_pos rfl] at hcount
        have hne : (is ++ js).count j ≠ looks (call j) + 1 := fun he => hdue ⟨hk.1, he⟩
        omega
      · rwa [if_neg hjk, Nat.add_zero] at hcount

end Counts

/-! ### The race -/

/-- A request counts the orders once. -/
lemma Counted.unique (h : Counted call is i pre) (h' : Counted call is i pre') : pre = pre' := by
  obtain ⟨⟨post, rfl⟩, hlooked⟩ := h
  obtain ⟨⟨post', hsplit⟩, hlooked'⟩ := h'
  rcases List.append_eq_append_iff.mp hsplit with ⟨mid, rfl, hmid⟩ | ⟨mid, rfl, hmid⟩ <;>
    rcases mid with _ | ⟨j, mid⟩
  · exact (List.append_nil _).symm
  · obtain ⟨rfl, -⟩ := List.cons.inj hmid
    rw [List.count_append, List.count_cons_self] at hlooked'
    omega
  · exact List.append_nil _
  · obtain ⟨rfl, -⟩ := List.cons.inj hmid
    rw [List.count_append, List.count_cons_self] at hlooked
    omega

/-- An order is stored exactly if its request has placed it, with the number it has counted. -/
lemma stored_iff (h : Reached midnight call db is) {row : Order} :
    (run Pool.step (race midnight call db) is).store.orders.find? (call i).newId = some row ↔
      Placed call db is i ∧ ∃ pre, Counted call is i pre ∧
        row = rowOf (call i) (seen midnight call db pre i) := by
  have hstage := h.stage i
  generalize run Pool.step (race midnight call db) is = q at hstage
  generalize q.requests i = r at hstage
  have hnone (hfresh : q.store.orders.find? (call i).newId = none)
      (hplaced : ¬ Placed call db is i) : q.store.orders.find? (call i).newId = some row ↔
        Placed call db is i ∧ ∃ pre, Counted call is i pre ∧
          row = rowOf (call i) (seen midnight call db pre i) := by
    rw [hfresh]
    exact iff_of_false nofun fun hp => hplaced hp.1
  cases hstage with
  | unread named first fresh => exact hnone fresh fun hp => by have := hp.2; omega
  | refused unnamed fresh => exact hnone fresh fun hp => unnamed hp.1
  | counting named next fresh => exact hnone fresh fun hp => by have := hp.2; omega
  | storing named counted next fresh => exact hnone fresh fun hp => by have := hp.2; omega
  | stored placed counted hrow =>
    rw [hrow]
    refine ⟨fun he => ⟨placed, _, counted, (Option.some.inj he).symm⟩, ?_⟩
    rintro ⟨-, pre, hcounted, rfl⟩
    rw [counted.unique hcounted]

/-- Two counts agree exactly if the same orders had been stored by then. -/
lemma seen_eq_iff {m : Instant} (hnew : Function.Injective fun i => (call i).newId)
    (hfresh : ∀ i, db.orders.find? (call i).newId = none)
    (hm : ∀ i, midnight (call i).now = m ∧ m ≤ (call i).createdAt) (hi : pre <+: is)
    (hj : pre' <+: is) : seen midnight call db pre i = seen midnight call db pre' j ↔
      ∀ k, Placed call db pre k ↔ Placed call db pre' k := by
  have hplaced {is js : List ι} (k : ι) (hk : Placed call db is k) : Placed call db (is ++ js) k :=
    ⟨hk.1, hk.2.trans (by rw [List.count_append]; exact Nat.le_add_right _ _)⟩
  have hruns (is js : List ι) := countSince_run_eq_iff midnight hnew hfresh
    (fun i => (hm i).2) is js
  unfold seen
  rw [(hm i).1, (hm j).1]
  -- of the two counts, one was made before the other
  rcases List.prefix_or_prefix_of_prefix hi hj with ⟨mid, rfl⟩ | ⟨mid, rfl⟩
  · rw [eq_comm, hruns]
    exact forall_congr' fun k => ⟨fun hk => ⟨hplaced k, hk⟩, fun hk => hk.2⟩
  · rw [hruns]
    exact forall_congr' fun k => ⟨fun hk => ⟨hk, hplaced k⟩, fun hk => hk.1⟩

/-- **Numbers at the same time.** However many orders are created on a day, and whatever the order
of the calls, their numbers are distinct exactly if between the counts of any two of them that are
stored, and carry the same date, an order has been stored. -/
theorem numbers_race_iff (midnight : Instant → Instant) (call : ι → Creation) (db : Db)
    (m : Instant) (hnew : Function.Injective fun i => (call i).newId)
    (hfresh : ∀ i, db.orders.find? (call i).newId = none)
    (hm : ∀ i, midnight (call i).now = m ∧ m ≤ (call i).createdAt) (is : List ι) :
    let orders := (run Pool.step (race midnight call db) is).store.orders
    (∀ i j row row', i ≠ j → orders.find? (call i).newId = some row →
      orders.find? (call j).newId = some row' → row.orderNumber ≠ row'.orderNumber) ↔
    ∀ i j pre pre', i ≠ j → dayOf (call i).now = dayOf (call j).now →
      Placed call db is i → Placed call db is j → Counted call is i pre → Counted call is j pre' →
        ∃ k, ¬ (Placed call db pre k ↔ Placed call db pre' k) := by
  dsimp only
  have hreached := reached_run midnight hnew hfresh is
  have hbefore {i : ι} {pre : List ι} (h : Counted call is i pre) : pre <+: is := by
    obtain ⟨post, rfl⟩ := h.turns
    exact List.prefix_append _ _
  -- two numbers are the same if the days are, and the orders stored at the two counts
  have hnumbers {i j : ι} {pre pre' : List ι} (hi : Counted call is i pre)
      (hj : Counted call is j pre') :
      (rowOf (call i) (seen midnight call db pre i)).orderNumber =
          (rowOf (call j) (seen midnight call db pre' j)).orderNumber ↔
        dayOf (call i).now = dayOf (call j).now ∧
          ∀ k, Placed call db pre k ↔ Placed call db pre' k := by
    rw [← seen_eq_iff hnew hfresh hm (hbefore hi) (hbefore hj)]
    exact orderNumber_eq_iff.trans (and_congr_right' Nat.add_right_cancel_iff)
  refine ⟨fun h i j pre pre' hij hday hi hj hci hcj => ?_,
    fun h i j row row' hij hrow hrow' heq => ?_⟩
  · by_contra hnone
    have hsame (k : ι) : Placed call db pre k ↔ Placed call db pre' k :=
      by_contra fun hk => hnone ⟨k, hk⟩
    exact h i j _ _ hij ((stored_iff hreached).mpr ⟨hi, pre, hci, rfl⟩)
      ((stored_iff hreached).mpr ⟨hj, pre', hcj, rfl⟩)
      ((hnumbers hci hcj).mpr ⟨hday, hsame⟩)
  · obtain ⟨hi, pre, hci, rfl⟩ := (stored_iff hreached).mp hrow
    obtain ⟨hj, pre', hcj, rfl⟩ := (stored_iff hreached).mp hrow'
    obtain ⟨hday, hsame⟩ := (hnumbers hci hcj).mp heq
    obtain ⟨k, hk⟩ := h i j pre pre' hij hday hi hj hci hcj
    exact hk (hsame k)

/-- Two waiters who take an order at the same instant; the rows are stamped a little later. -/
def waiters (i : Bool) : Creation :=
  ⟨if i then "window" else "terrace", { type := .dineIn }, 0, if i then 5 else 7⟩

/-- Each counts none, and then stores its order. -/
def abreast : List Bool := [true, false, true, false]

theorem numbers_race_iff_waiters :
    let orders := (run Pool.step (race (midnightAt 0) waiters ∅) abreast).store.orders
    (∀ i j row row', i ≠ j → orders.find? (waiters i).newId = some row →
      orders.find? (waiters j).newId = some row' → row.orderNumber ≠ row'.orderNumber) ↔
    ∀ i j pre pre', i ≠ j → dayOf (waiters i).now = dayOf (waiters j).now →
      Placed waiters ∅ abreast i → Placed waiters ∅ abreast j →
        Counted waiters abreast i pre → Counted waiters abreast j pre' →
          ∃ k, ¬ (Placed waiters ∅ pre k ↔ Placed waiters ∅ pre' k) :=
  numbers_race_iff (midnightAt 0) waiters ∅ 0 (by decide) (fun _ => rfl)
    (fun i => ⟨rfl, by cases i <;> decide⟩) abreast

example : (run Pool.step (race (midnightAt 0) waiters ∅) abreast).store.orders.rows.map
    (fun e => e.2.orderNumber) = ["ORD-19700101-0001", "ORD-19700101-0001"] := by decide +kernel

end CoffeeOs.OrderNumberRace

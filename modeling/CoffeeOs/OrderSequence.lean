import CoffeeOs.OrderNumbers

/-!
The numbers of the orders of one date, in the order of their creation.

The date of a number is the UTC date, but the count it is made of begins at the midnight of the
server. Without deletions the numbers of a date run from one on as long as no order was created
between the two midnights.
-/

namespace CoffeeOs.OrderSequence

open CoffeeOs.Calendar CoffeeOs.KeyedTable CoffeeOs.Numerals CoffeeOs.Orders
open CoffeeOs.OrderNumbers CoffeeOs.Requests CoffeeOs.Requests.Request CoffeeOs.Runs
open CoffeeOs.Schema

/-- The number carries this date part. -/
def carries (date number : String) : Bool :=
  ("ORD-" ++ date ++ "-").toList.isPrefixOf number.toList

/-- The numbers that carry a date part, in the order of their creation. -/
def numbersOf (date : String) (db : Db) : List String :=
  (db.orders.rows.map fun e => e.2.orderNumber).filter (carries date)

/-- The numbers of each date run from one on, without a gap and without a repeat. -/
def Sequential (db : Db) : Prop := ∀ date,
  numbersOf date db =
    (List.range (numbersOf date db).length).map fun i => orderNumber date (i + 1)

/-- A call of `create` that takes place at one instant. -/
structure Creation where
  newId : Id
  dto : CreateOrderDto
  now : Instant

def Creation.op (c : Creation) : Op := .create c.newId c.dto c.now c.now

/-- The instant lies between `a` and `b`, or is the earlier of them. -/
def Between (a b t : Instant) : Prop := min a b ≤ t ∧ t < max a b

/-- An order is created while no stored order is from between the last midnight of the server
and the last midnight of UTC. -/
def NoneBetween (midnight : Instant → Instant) (db : Db) : Op → Prop
  | .create newId dto now _ => NamesStored db dto.transactionId → db.orders.find? newId = none →
    ∀ id row, db.orders.find? id = some row →
      ¬ Between (midnight now) (dayStart (dayOf now)) row.createdAt
  | _ => True

variable {midnight : Instant → Instant} {db : Db} {id : Id} {row : Order}

/-! ### The date of a number -/

lemma carries_iff {date : String} {t : Instant} {n : ℕ} :
    carries date (orderNumber (dateStr t) n) ↔ date = dateStr t := by
  have hnumber : (orderNumber (dateStr t) n).toList =
      "ORD-".toList ++ dateDigits t ++ '-' :: padded 4 n := by
    simp [orderNumber, dateStr, String.toList_append]
  have hprefix : ("ORD-" ++ date ++ "-").toList = "ORD-".toList ++ date.toList ++ ['-'] := by
    simp [String.toList_append]
  rw [carries, List.isPrefixOf_iff_prefix, hnumber, hprefix, List.append_assoc, List.append_assoc,
    List.prefix_append_right_inj]
  refine ⟨?_, ?_⟩
  · rintro ⟨rest, hrest⟩
    have hsplit : dateDigits t ++ '-' :: padded 4 n = date.toList ++ '-' :: rest := by
      rw [← hrest]
      simp
    -- the date ends at the first dash, as neither it nor the count has one
    obtain ⟨hdate, -, -⟩ := (List.append_cons_inj_of_notMem dash_not_mem_dateDigits
      dash_not_mem_padded).mp hsplit
    rw [dateStr, hdate, String.ofList_toList]
  · rintro rfl
    refine ⟨padded 4 n, ?_⟩
    simp [dateStr]

lemma dateStr_eq_iff {s t : Instant} : dateStr s = dateStr t ↔ dayOf s = dayOf t := by
  rw [← dateDigits_eq_iff, dateStr, dateStr]
  exact ⟨fun h => by simpa using congrArg String.toList h, fun h => by rw [h]⟩

/-- Each order bears its date. -/
def Dated (db : Db) : Prop := ∀ id row, db.orders.find? id = some row →
  ∃ n, row.orderNumber = orderNumber (dateStr row.createdAt) n

/-- As many numbers carry a date as orders are from its day. -/
lemma length_numbersOf (h : Dated db) (t : Instant) :
    (numbersOf (dateStr t) db).length = countOn (dayOf t) db := by
  unfold numbersOf
  rw [countOn_eq_length, List.filter_map, List.length_map]
  refine congrArg List.length (List.filter_congr fun e he => ?_)
  obtain ⟨n, hn⟩ := h e.1 e.2 (Table.mem_rows_iff.mp he)
  have hday : carries (dateStr t) e.2.orderNumber ↔ dayOf e.2.createdAt = dayOf t := by
    rw [hn, carries_iff, dateStr_eq_iff, eq_comm]
  rw [Function.comp_apply, Bool.eq_iff_iff, hday, decide_eq_true_iff]

/-! ### The two midnights -/

lemma countSince_eq_iff_of_le {a b : Instant} (h : a ≤ b) :
    countSince b db = countSince a db ↔
      ∀ id row, db.orders.find? id = some row → ¬ (a ≤ row.createdAt ∧ row.createdAt < b) := by
  have hstronger : ∀ id row, db.orders.find? id = some row → b ≤ row.createdAt →
      a ≤ row.createdAt := fun _ _ _ hb => h.trans hb
  have hiff := Table.length_filter_eq_iff (t := db.orders) (p := fun _ row => b ≤ row.createdAt)
    (q := fun _ row => a ≤ row.createdAt) hstronger
  refine hiff.trans (forall_congr' fun id => forall_congr' fun row => imp_congr_right fun _ => ?_)
  rw [not_and, not_lt]

/-- Counts from two instants agree exactly if no order is from between them. -/
lemma countSince_eq_iff {a b : Instant} : countSince a db = countSince b db ↔
    ∀ id row, db.orders.find? id = some row → ¬ Between a b row.createdAt := by
  unfold Between
  rcases le_total a b with h | h
  · rw [min_eq_left h, max_eq_right h, eq_comm]
    exact countSince_eq_iff_of_le h
  · rw [min_eq_right h, max_eq_left h]
    exact countSince_eq_iff_of_le h

/-! ### One more order -/

/-- No stored order is from after the instant. -/
def Past (now : Instant) (db : Db) : Prop :=
  ∀ id row, db.orders.find? id = some row → row.createdAt ≤ now

/-- The tables with one more order. -/
def withOrder (midnight : Instant → Instant) (c : Creation) (db : Db) : Db :=
  { db with orders := db.orders.put c.newId (newOrder midnight db c.dto c.now c.now) }

variable {c : Creation}

lemma numbersOf_withOrder (hid : db.orders.find? c.newId = none) (date : String) :
    numbersOf date (withOrder midnight c db) = numbersOf date db ++
      if date = dateStr c.now then
        [orderNumber (dateStr c.now) (countSince (midnight c.now) db + 1)]
      else [] := by
  have hrows : (withOrder midnight c db).orders.rows =
      db.orders.rows ++ [(c.newId, newOrder midnight db c.dto c.now c.now)] :=
    Table.rows_put_new hid
  have hnumber : (newOrder midnight db c.dto c.now c.now).orderNumber =
      orderNumber (dateStr c.now) (countSince (midnight c.now) db + 1) := rfl
  unfold numbersOf
  rw [hrows, List.map_append, List.filter_append, List.map_singleton, hnumber]
  congr 1
  by_cases hdate : date = dateStr c.now
  · rw [if_pos hdate, List.filter_singleton, carries_iff.mpr hdate]
    rfl
  · rw [if_neg hdate, List.filter_eq_nil_iff]
    intro number hmem
    rw [List.mem_singleton.mp hmem, carries_iff]
    exact hdate

/-- A list that runs from one on is continued by the number after its length only. -/
lemma continues_iff {numbers : List String} {t : Instant} {n : ℕ}
    (h : numbers = (List.range numbers.length).map fun i => orderNumber (dateStr t) (i + 1)) :
    numbers ++ [orderNumber (dateStr t) (n + 1)] =
      (List.range (numbers ++ [orderNumber (dateStr t) (n + 1)]).length).map
        (fun i => orderNumber (dateStr t) (i + 1)) ↔ n = numbers.length := by
  rw [List.length_append, List.length_singleton, List.range_succ, List.map_append, ← h,
    List.map_singleton, List.append_cancel_left_eq, List.singleton_inj, orderNumber_eq_iff,
    Nat.add_right_cancel_iff]
  exact and_iff_right rfl

lemma sequential_withOrder_iff (hid : db.orders.find? c.newId = none) (hs : Sequential db)
    (hd : Dated db) (hp : Past c.now db) :
    Sequential (withOrder midnight c db) ↔
      countSince (midnight c.now) db = countSince (dayStart (dayOf c.now)) db := by
  have hlast : numbersOf (dateStr c.now) (withOrder midnight c db) =
      numbersOf (dateStr c.now) db ++
        [orderNumber (dateStr c.now) (countSince (midnight c.now) db + 1)] := by
    rw [numbersOf_withOrder hid, if_pos rfl]
  rw [countSince_dayStart hp, ← length_numbersOf hd c.now,
    ← continues_iff (hs (dateStr c.now)), ← hlast]
  refine ⟨fun h => h (dateStr c.now), fun h date => ?_⟩
  by_cases hdate : date = dateStr c.now
  · rw [hdate]
    exact h
  · rw [numbersOf_withOrder hid, if_neg hdate, List.append_nil]
    exact hs date

lemma dated_withOrder (hd : Dated db) : Dated (withOrder midnight c db) := by
  intro id row hrow
  rcases Table.of_find?_put hrow with ⟨-, rfl⟩ | ⟨-, hrow'⟩
  · exact ⟨_, rfl⟩
  · exact hd id row hrow'

lemma past_withOrder {later : Instant} (hp : Past later db) (hle : c.now ≤ later) :
    Past later (withOrder midnight c db) := by
  intro id row hrow
  rcases Table.of_find?_put hrow with ⟨-, rfl⟩ | ⟨-, hrow'⟩
  · exact hle
  · exact hp id row hrow'

/-! ### Runs of creations -/

lemma step_creation (midnight : Instant → Instant) (db : Db) (c : Creation) :
    (NamesStored db c.dto.transactionId ∧ db.orders.find? c.newId = none ∧
      step midnight db c.op = withOrder midnight c db) ∨
    (¬ (NamesStored db c.dto.transactionId ∧ db.orders.find? c.newId = none) ∧
      step midnight db c.op = db) := by
  rcases step_create midnight c.newId c.dto c.now c.now with ⟨hacc, hid, hdb⟩ | ⟨hrej, hdb⟩
  · exact Or.inl ⟨(accepts_create_iff.mp hacc).1, hid, hdb⟩
  · exact Or.inr ⟨fun h => hrej (accepts_create_iff.mpr h), hdb⟩

lemma noneBetween_iff (hnamed : NamesStored db c.dto.transactionId)
    (hid : db.orders.find? c.newId = none) : NoneBetween midnight db c.op ↔
      countSince (midnight c.now) db = countSince (dayStart (dayOf c.now)) db := by
  rw [countSince_eq_iff]
  exact ⟨fun h => h hnamed hid, fun h _ _ => h⟩

/-- One more creation keeps the numbers in sequence exactly if no order is from between the two
midnights. -/
lemma sequential_step_iff (hd : Dated db) (hs : Sequential db) (hp : Past c.now db) :
    Sequential (step midnight db c.op) ↔ NoneBetween midnight db c.op := by
  rcases step_creation midnight db c with ⟨hnamed, hid, hdb⟩ | ⟨hrej, hdb⟩
  · rw [hdb, sequential_withOrder_iff hid hs hd hp, noneBetween_iff hnamed hid]
  · rw [hdb]
    exact iff_of_true hs fun hnamed hid => absurd ⟨hnamed, hid⟩ hrej

lemma dated_step (hd : Dated db) : Dated (step midnight db c.op) := by
  rcases step_creation midnight db c with ⟨-, -, hdb⟩ | ⟨-, hdb⟩ <;> rw [hdb]
  · exact dated_withOrder hd
  · exact hd

lemma past_step {later : Instant} (hp : Past later db) (hle : c.now ≤ later) :
    Past later (step midnight db c.op) := by
  rcases step_creation midnight db c with ⟨-, -, hdb⟩ | ⟨-, hdb⟩ <;> rw [hdb]
  · exact past_withOrder hp hle
  · exact hp

lemma sequential_iff_of_dated (calls : List Creation)
    (hmono : calls.Pairwise fun c c' => c.now ≤ c'.now) (hd : Dated db) (hs : Sequential db)
    (hp : ∀ c ∈ calls, Past c.now db) :
    Always (step midnight) Sequential db (calls.map Creation.op) ↔
      Along (step midnight) (NoneBetween midnight) db (calls.map Creation.op) := by
  induction calls generalizing db with
  | nil => simpa using hs
  | cons c cs ih =>
    obtain ⟨hfirst, hrest⟩ := List.pairwise_cons.mp hmono
    have hiff : Sequential (step midnight db c.op) ↔ NoneBetween midnight db c.op :=
      sequential_step_iff hd hs (hp c List.mem_cons_self)
    have hp' : ∀ c' ∈ cs, Past c'.now (step midnight db c.op) := fun c' hc' =>
      past_step (hp c' (List.mem_cons_of_mem _ hc')) (hfirst c' hc')
    rw [List.map_cons, always_cons, along_cons]
    refine ⟨fun h => ?_, fun h => ⟨hs, ?_⟩⟩
    · have hnext : Sequential (step midnight db c.op) := h.2.first
      exact ⟨hiff.mp hnext, (ih hrest (dated_step hd) hnext hp').mp h.2⟩
    · exact (ih hrest (dated_step hd) (hiff.mpr h.1) hp').mpr h.2

/-- **Sequences.** While orders are only created, at instants that do not decrease, the numbers
of each date run from one on throughout exactly if no order is ever created while a stored one
is from between the midnight of the server and that of UTC. -/
theorem numbers_sequential_iff (offset : ℤ) (calls : List Creation)
    (hmono : calls.Pairwise fun c c' => c.now ≤ c'.now) (hempty : db.orders = ∅) :
    Always (step (midnightAt offset)) Sequential db (calls.map Creation.op) ↔
      Along (step (midnightAt offset)) (NoneBetween (midnightAt offset)) db
        (calls.map Creation.op) := by
  have hnone : ∀ id, db.orders.find? id = none := fun id => by rw [hempty]; rfl
  have hnumbers : ∀ date, numbersOf date db = [] := fun date => by
    rw [numbersOf, hempty]
    rfl
  refine sequential_iff_of_dated calls hmono (fun id row h => ?_) (fun date => ?_)
    fun c _ id row h => ?_
  · cases (hnone id).symm.trans h
  · rw [hnumbers]
    rfl
  · cases (hnone id).symm.trans h

/-- The evening of one day and the morning of the next, on a server six hours behind UTC. -/
def acrossMidnight : List Creation :=
  [⟨"a", { type := .dineIn }, 21540000⟩, ⟨"b", { type := .dineIn }, 21660000⟩]

theorem numbers_sequential_iff_acrossMidnight :
    (acrossMidnight.Pairwise fun c c' => c.now ≤ c'.now) ∧ (∅ : Db).orders = ∅ ∧
    (Always (step (midnightAt 21600000)) Sequential ∅ (acrossMidnight.map Creation.op) ↔
      Along (step (midnightAt 21600000)) (NoneBetween (midnightAt 21600000)) ∅
        (acrossMidnight.map Creation.op)) := by
  have hmono : acrossMidnight.Pairwise fun c c' => c.now ≤ c'.now := by decide
  exact ⟨hmono, rfl, numbers_sequential_iff 21600000 acrossMidnight hmono rfl⟩

/-- Six hours behind UTC, the first order after midnight bears the number of the last before. -/
theorem numbers_sequential_fails :
    (acrossMidnight.Pairwise fun c c' => c.now ≤ c'.now) ∧
    ¬ Always (step (midnightAt 21600000)) Sequential ∅ (acrossMidnight.map Creation.op) := by
  refine ⟨by decide, fun h => ?_⟩
  have hlast : Sequential (run (step (midnightAt 21600000)) ∅ (acrossMidnight.map Creation.op)) :=
    h.last
  have hnumbers := hlast (dateStr 0)
  revert hnumbers
  decide +kernel

end CoffeeOs.OrderSequence

import CoffeeOs.Orders
import CoffeeOs.Runs
import Mathlib.Data.Finset.Card

/-!
The numbers of the orders.

A number tells the UTC date and the count it was made of, so two orders share a number when
they are made theirs on one date at one count. The count starts again at the midnight of the
server, and falls when an order is deleted. A run is followed together with the orders that were
counted for each number.
-/

namespace CoffeeOs.OrderNumbers

open CoffeeOs.Calendar CoffeeOs.KeyedTable CoffeeOs.Numerals CoffeeOs.Orders
open CoffeeOs.Requests CoffeeOs.Requests.Request CoffeeOs.Runs CoffeeOs.Schema

/-- Two stored orders bear two numbers. -/
def Distinct (db : Db) : Prop :=
  ∀ i j row row', db.orders.find? i = some row → db.orders.find? j = some row' → i ≠ j →
    row.orderNumber ≠ row'.orderNumber

/-! ### Reading a number -/

lemma dash_not_mem_dateDigits {t : Instant} : '-' ∉ dateDigits t :=
  dash_not_mem_digits (d := dateOf (dayOf t))

/-- The dash ends the date, and what follows is the numeral, however long it is. -/
lemma orderNumber_inj {date date' : List Char} {m n : ℕ} (hdate : '-' ∉ date)
    (h : orderNumber (String.ofList date) m = orderNumber (String.ofList date') n) :
    date = date' ∧ m = n := by
  have hlist := congrArg String.toList h
  simp only [orderNumber, String.toList_append, String.toList_ofList, List.append_assoc] at hlist
  have hrest := List.append_cancel_left hlist
  obtain ⟨he, -, hcount⟩ :=
    (List.append_cons_inj_of_notMem hdate dash_not_mem_padded).mp hrest
  exact ⟨he, padded_injective 4 hcount⟩

/-- A number tells the date and the count it was made of. -/
lemma orderNumber_eq_iff {s t : Instant} {m n : ℕ} :
    orderNumber (dateStr s) m = orderNumber (dateStr t) n ↔ dayOf s = dayOf t ∧ m = n := by
  refine ⟨fun h => ?_, ?_⟩
  · obtain ⟨hdate, hcount⟩ := orderNumber_inj dash_not_mem_dateDigits h
    exact ⟨dateDigits_eq_iff.mp hdate, hcount⟩
  · rintro ⟨hday, rfl⟩
    rw [dateStr, dateDigits_eq_iff.mpr hday]
    rfl

/-- The number that is made of a date and a count. -/
def numberOf (d : Date) (count : ℕ) : String := orderNumber (String.ofList (digits d)) (count + 1)

/-- **Numbers.** The number of a new order is made of the UTC date and the count, and two
numbers are equal only if both the dates and the counts are, be the numerals padded or not. -/
theorem generateOrderNumber_injective :
    (∀ midnight today db, (generateOrderNumber midnight today).exec db =
      (.ok (numberOf (dateOf (dayOf today)) (countSince (midnight today) db)), db)) ∧
    ∀ d e : Date, d.TwoDigits → e.TwoDigits → ∀ m n,
      numberOf d m = numberOf e n → d = e ∧ m = n := by
  refine ⟨fun midnight today db => rfl, fun d e hd he m n h => ?_⟩
  obtain ⟨hdigits, hcount⟩ := orderNumber_inj dash_not_mem_digits h
  exact ⟨digits_injOn hd he hdigits, Nat.succ.inj hcount⟩

/-- The last count that is padded, and the first that is not. -/
theorem generateOrderNumber_injective_newYear :
    numberOf ⟨2026, 1, 1⟩ 998 = "ORD-20260101-0999" ∧
    numberOf ⟨2026, 1, 1⟩ 9999 = "ORD-20260101-10000" ∧
    (numberOf ⟨2026, 1, 1⟩ 9999 = numberOf ⟨2026, 1, 11⟩ 999 →
      (⟨2026, 1, 1⟩ : Date) = ⟨2026, 1, 11⟩ ∧ 9999 = 999) :=
  ⟨by decide, by decide,
    generateOrderNumber_injective.2 _ _ ⟨by decide, by decide⟩ ⟨by decide, by decide⟩ 9999 999⟩

/-! ### The orders that were counted for a number -/

/-- The orders that were created from the instant `gte` on. -/
def storedSince (gte : Instant) (db : Db) : Finset Id :=
  ((db.orders.rows.filter fun e => gte ≤ e.2.createdAt).map Prod.fst).toFinset

/-- How a number was made: the clock reading, and the orders that were counted. -/
structure Numbering where
  now : Instant
  counted : Finset Id

/-- The tables, and how the number of each order was made. -/
structure Log where
  db : Db
  numbering : Id → Numbering

def Log.step (midnight : Instant → Instant) (l : Log) (op : Op) : Log where
  db := Orders.step midnight l.db op
  numbering := match op with
    | .create newId dto now createdAt =>
      if (create midnight newId dto now createdAt).Accepts l.db then
        Function.update l.numbering newId ⟨now, storedSince (midnight now) l.db⟩
      else l.numbering
    | _ => l.numbering

/-- Each order bears the date of its clock reading and the number after its count. -/
def Counted (l : Log) : Prop := ∀ id row, l.db.orders.find? id = some row →
  row.orderNumber = orderNumber (dateStr (l.numbering id).now) ((l.numbering id).counted.card + 1)

/-- Of the orders that were counted for the order `id`, those that have been removed. -/
def Log.removed (l : Log) (id : Id) : Finset Id :=
  (l.numbering id).counted.filter fun k => l.db.orders.find? k = none

/-- Of the orders that were counted for the order `id`, those that are stored and were created
before `midnight`. -/
def Log.behind (l : Log) (midnight : Instant) (id : Id) : Finset Id :=
  (l.numbering id).counted.filter fun k =>
    ∃ row ∈ l.db.orders.find? k, row.createdAt < midnight

/-- The orders created from `midnight` on that were not counted for the order `id`: this order
itself, and those that have come after it. -/
def Log.since (l : Log) (midnight : Instant) (id : Id) : Finset Id :=
  storedSince midnight l.db \ (l.numbering id).counted

/-- An order is numbered while for no stored order of the same UTC date the removals, and the
orders that midnight has left behind, make up for the orders that have been stored since. -/
def CountsAnew (midnight : Instant → Instant) (l : Log) : Op → Prop
  | .create newId dto now createdAt => (create midnight newId dto now createdAt).Accepts l.db →
    ∀ id row, l.db.orders.find? id = some row → dayOf (l.numbering id).now = dayOf now →
      (l.removed id).card + (l.behind (midnight now) id).card ≠ (l.since (midnight now) id).card
  | _ => True

variable {midnight : Instant → Instant} {l : Log} {db db' : Db} {id : Id} {op : Op}
  {row row' : Order}

/-- Nothing new is stored: each order was there before, of the same number and time. -/
def NoneNew (db db' : Db) : Prop := ∀ id row', db'.orders.find? id = some row' →
  ∃ row, db.orders.find? id = some row ∧ row'.orderNumber = row.orderNumber ∧
    row'.createdAt = row.createdAt

lemma noneNew_of_moves (h : Moves op id db db') : NoneNew db db' := by
  rcases h with rfl | ⟨row, row', hrow, hmove, rfl⟩
  · exact fun _ row h => ⟨row, h, rfl, rfl⟩
  intro j s hs
  rcases Table.of_find?_put hs with ⟨rfl, rfl⟩ | ⟨-, hs'⟩
  · exact ⟨row, hrow, hmove.keepsNumber⟩
  · exact ⟨s, hs', rfl, rfl⟩

lemma noneNew_erase : NoneNew db { db with orders := db.orders.erase id } :=
  fun _ s hs => ⟨s, (Table.of_find?_erase hs).2, rfl, rfl⟩

/-- The orders from an instant on are counted one by one. -/
lemma card_storedSince (gte : Instant) (db : Db) :
    (storedSince gte db).card = countSince gte db := by
  rw [storedSince, List.toFinset_card_of_nodup (Table.nodup_keys_filter _), List.length_map]
  rfl

lemma mem_storedSince_iff {gte : Instant} : id ∈ storedSince gte db ↔
    ∃ row, db.orders.find? id = some row ∧ gte ≤ row.createdAt := by
  rw [storedSince, List.mem_toFinset, List.mem_map]
  refine ⟨?_, fun ⟨row, hrow, hle⟩ => ?_⟩
  · rintro ⟨e, he, rfl⟩
    obtain ⟨hmem, hle⟩ := List.mem_filter.mp he
    exact ⟨e.2, Table.mem_rows_iff.mp hmem, of_decide_eq_true hle⟩
  · exact ⟨(id, row), List.mem_filter.mpr ⟨Table.mem_rows_iff.mpr hrow, decide_eq_true hle⟩, rfl⟩

/-- The orders that are not counted any more have been removed, or are from before midnight. -/
lemma card_removed_add_card_behind (l : Log) (midnight : Instant) (id : Id) :
    (l.removed id).card + (l.behind midnight id).card =
      ((l.numbering id).counted \ storedSince midnight l.db).card := by
  have hdisjoint : Disjoint (l.removed id) (l.behind midnight id) := by
    refine Finset.disjoint_filter.mpr fun k _ hnone => ?_
    rintro ⟨row, hrow, -⟩
    rw [hnone] at hrow
    cases hrow
  rw [← Finset.card_union_of_disjoint hdisjoint]
  congr 1
  ext k
  rw [Log.removed, Log.behind, Finset.mem_union, Finset.mem_filter, Finset.mem_filter,
    Finset.mem_sdiff, ← and_or_left, mem_storedSince_iff]
  refine and_congr_right fun _ => ?_
  rcases l.db.orders.find? k with _ | row <;> simp

/-- The count is the same again exactly if what it has lost makes up for what it has gained. -/
lemma counted_eq_iff (l : Log) (midnight : Instant) (id : Id) :
    (l.numbering id).counted.card = countSince midnight l.db ↔
      (l.removed id).card + (l.behind midnight id).card = (l.since midnight id).card := by
  rw [card_removed_add_card_behind, Log.since, Finset.card_sdiff_eq_card_sdiff_iff,
    card_storedSince]

/-- A call creates an order and notes what was counted, or notes nothing and moves or deletes
one. -/
lemma log_step (midnight : Instant → Instant) (l : Log) (op : Op) :
    (∃ newId dto now createdAt, op = .create newId dto now createdAt ∧
      (create midnight newId dto now createdAt).Accepts l.db ∧ l.db.orders.find? newId = none ∧
      l.step midnight op =
        ⟨{ l.db with orders := l.db.orders.put newId (newOrder midnight l.db dto now createdAt) },
          Function.update l.numbering newId ⟨now, storedSince (midnight now) l.db⟩⟩) ∨
    (CountsAnew midnight l op ∧ (l.step midnight op).numbering = l.numbering ∧
      (Moves op (target op) l.db (l.step midnight op).db ∨
        ∃ id row, op = .remove id ∧ l.db.orders.find? id = some row ∧
          (l.step midnight op).db = { l.db with orders := l.db.orders.erase id })) := by
  by_cases h : ∃ newId dto now createdAt, op = .create newId dto now createdAt ∧
      (create midnight newId dto now createdAt).Accepts l.db
  · -- an accepted create, which is the only call that numbers an order
    obtain ⟨newId, dto, now, createdAt, rfl, hacc⟩ := h
    rcases step_create midnight newId dto now createdAt with ⟨-, hid, hdb⟩ | ⟨hrej, -⟩
    · refine Or.inl ⟨newId, dto, now, createdAt, rfl, hacc, hid, ?_⟩
      rw [Log.step, hdb]
      dsimp only
      rw [if_pos hacc]
    · exact absurd hacc hrej
  · -- any other call leaves the numbering as it is
    have hrej : ∀ newId dto now createdAt, op = .create newId dto now createdAt →
        ¬ (create midnight newId dto now createdAt).Accepts l.db :=
      fun newId dto now createdAt hop hacc => h ⟨newId, dto, now, createdAt, hop, hacc⟩
    refine Or.inr ⟨?_, ?_, ?_⟩
    · cases op with
      | create newId dto now createdAt => exact fun hacc => absurd hacc (hrej _ _ _ _ rfl)
      | _ => trivial
    · cases op with
      | create newId dto now createdAt => exact if_neg (hrej _ _ _ _ rfl)
      | _ => rfl
    · rcases step_cases midnight op with
        ⟨newId, dto, now, createdAt, hop, hacc, -⟩ | hmoves | ⟨row, hop, hrow, -, hdb⟩
      · exact absurd hacc (hrej newId dto now createdAt hop)
      · exact Or.inl hmoves
      · exact Or.inr ⟨target op, row, hop, hrow, hdb⟩

lemma noneNew_of_moves_or {db db' : Db}
    (h : Moves op (target op) db db' ∨ ∃ id row, op = .remove id ∧ db.orders.find? id = some row ∧
      db' = { db with orders := db.orders.erase id }) : NoneNew db db' := by
  rcases h with h | ⟨id, row, -, -, rfl⟩
  · exact noneNew_of_moves h
  · exact noneNew_erase

lemma counted_step (h : Counted l) : Counted (l.step midnight op) := by
  rcases log_step midnight l op with
    ⟨newId, dto, now, createdAt, rfl, -, hid, hstep⟩ | ⟨-, hnumbering, hrest⟩
  · rw [hstep]
    intro id row hrow
    dsimp only at hrow ⊢
    rcases Table.of_find?_put hrow with ⟨rfl, rfl⟩ | ⟨hkey, hrow'⟩
    · rw [Function.update_self, card_storedSince]
      rfl
    · rw [Function.update_of_ne hkey]
      exact h id row hrow'
  · intro id row' hrow'
    obtain ⟨row, hrow, hnumber, -⟩ := noneNew_of_moves_or hrest id row' hrow'
    rw [hnumbering, hnumber]
    exact h id row hrow

lemma distinct_put_new (hid : db.orders.find? id = none) (h : Distinct db) :
    Distinct { db with orders := db.orders.put id row } ↔
      ∀ j row', db.orders.find? j = some row' → row'.orderNumber ≠ row.orderNumber := by
  have hne {j : Id} {row' : Order} (hj : db.orders.find? j = some row') : j ≠ id := by
    rintro rfl
    rw [hid] at hj
    cases hj
  refine ⟨fun h' j row' hj => ?_, fun hnew i j r r' hi hj hij => ?_⟩
  · exact h' j id row' row ((Table.find?_put_ne (hne hj)).trans hj) Table.find?_put_self (hne hj)
  dsimp only at hi hj
  by_cases hi' : i = id
  · -- the new order against an old one
    subst hi'
    obtain rfl : row = r := Option.some.inj (Table.find?_put_self.symm.trans hi)
    exact (hnew j r' ((Table.find?_put_ne hij.symm).symm.trans hj)).symm
  have hr : db.orders.find? i = some r := (Table.find?_put_ne hi').symm.trans hi
  by_cases hj' : j = id
  · -- an old order against the new one
    rw [hj', Table.find?_put_self] at hj
    obtain rfl : row = r' := Option.some.inj hj
    exact hnew i r hr
  · exact h i j r r' hr ((Table.find?_put_ne hj').symm.trans hj) hij

lemma distinct_of_noneNew (hnone : NoneNew db db') (h : Distinct db) : Distinct db' := by
  intro i j r r' hi hj hij
  obtain ⟨s, hs, hrs, -⟩ := hnone i r hi
  obtain ⟨s', hs', hrs', -⟩ := hnone j r' hj
  rw [hrs, hrs']
  exact h i j s s' hs hs' hij

lemma distinct_step_iff (hc : Counted l) (hd : Distinct l.db) :
    Distinct (l.step midnight op).db ↔ CountsAnew midnight l op := by
  rcases log_step midnight l op with
    ⟨newId, dto, now, createdAt, rfl, hacc, hid, hstep⟩ | ⟨hanew, -, hrest⟩
  swap
  · exact iff_of_true (distinct_of_noneNew (noneNew_of_moves_or hrest) hd) hanew
  rw [hstep]
  dsimp only
  rw [distinct_put_new hid hd]
  -- a stored number is the new one if the day is the same and as many orders were counted
  have hrow {id : Id} {row : Order} (h : l.db.orders.find? id = some row) :
      row.orderNumber ≠ (newOrder midnight l.db dto now createdAt).orderNumber ↔
        (dayOf (l.numbering id).now = dayOf now →
          (l.removed id).card + (l.behind (midnight now) id).card ≠
            (l.since (midnight now) id).card) := by
    rw [hc id row h, newOrder, CreateOrderDto.row, ne_eq, orderNumber_eq_iff, not_and,
      Nat.add_right_cancel_iff, counted_eq_iff]
  exact ⟨fun h _ id row hid => (hrow hid).mp (h id row hid),
    fun h id row hid => (hrow hid).mpr (h hacc id row hid)⟩

/-- **Numbers.** The orders bear distinct numbers throughout a run exactly when at no creation, for
no stored order of the same UTC date, the orders that have been removed since, or are left behind
by midnight, are as many as those that have been stored since. -/
theorem numbers_distinct_iff (hc : Counted l) (hd : Distinct l.db) (ops : List Op) :
    Always (Orders.step midnight) Distinct l.db ops ↔
      Along (Log.step midnight) (CountsAnew midnight) l ops := by
  have hcomap : Always (Log.step midnight) (fun l => Distinct l.db) l ops ↔
      Always (Orders.step midnight) Distinct l.db ops := always_comap fun _ _ => rfl
  rw [← hcomap]
  exact always_iff_along_of_invariant (fun _ _ => counted_step) (fun _ _ => distinct_step_iff) hc hd

/-- Midnight on a server whose clock is `offset` behind UTC. -/
def midnightAt (offset : ℤ) (t : Instant) : Instant := dayStart (dayOf (t - offset)) + offset

/-- The log of a shop that has stored no order. -/
def opened : Log := ⟨∅, fun _ => ⟨0, ∅⟩⟩

/-- Two orders at noon, the second of which is removed before the third; and one on the next day. -/
def noon : List Op :=
  [.create "a" { type := .dineIn } 43200000 43200005,
   .create "b" { type := .takeOut } 43260000 43260005,
   .startOrder "a" 43270000,
   .remove "b",
   .create "c" { type := .dineIn } 43320000 43320005,
   .create "d" { type := .dineIn } 129600000 129600005]

lemma countsAnew_of_rows {newId : Id} {dto : CreateOrderDto} {now createdAt : Instant}
    (h : ∀ e ∈ l.db.orders.rows, dayOf (l.numbering e.1).now = dayOf now →
      (l.removed e.1).card + (l.behind (midnight now) e.1).card ≠
        (l.since (midnight now) e.1).card) :
    CountsAnew midnight l (.create newId dto now createdAt) :=
  fun _ id row hrow => h (id, row) (Table.mem_rows_iff.mpr hrow)

/-- The second number is given again after its order was removed, and the first one under the date
of the next day. -/
theorem numbers_distinct_iff_noon : Counted opened ∧ Distinct opened.db ∧
    (Always (Orders.step (midnightAt 0)) Distinct opened.db noon ↔
      Along (Log.step (midnightAt 0)) (CountsAnew (midnightAt 0)) opened noon) ∧
    Along (Log.step (midnightAt 0)) (CountsAnew (midnightAt 0)) opened noon ∧
    (run (Orders.step (midnightAt 0)) opened.db noon).orders.rows.map
      (fun e => (e.1, e.2.orderNumber)) = [("a", "ORD-19700101-0001"), ("c", "ORD-19700101-0002"),
        ("d", "ORD-19700102-0001")] := by
  have hc : Counted opened := fun _ _ h => nomatch h
  have hd : Distinct opened.db := fun _ _ _ _ h => nomatch h
  refine ⟨hc, hd, numbers_distinct_iff hc hd noon, ?_, by decide +kernel⟩
  exact ⟨countsAnew_of_rows (by decide +kernel), countsAnew_of_rows (by decide +kernel), trivial,
    trivial, countsAnew_of_rows (by decide +kernel), countsAnew_of_rows (by decide +kernel),
    trivial⟩

lemma not_distinct (h : (db.orders.find? "b").map Order.orderNumber =
      (db.orders.find? "c").map Order.orderNumber) (hb : (db.orders.find? "b").isSome) :
    ¬ Distinct db := by
  intro hd
  obtain ⟨row, hrow⟩ := Option.isSome_iff_exists.mp hb
  rw [hrow] at h
  obtain ⟨row', hrow', heq⟩ := Option.map_eq_some_iff.mp h.symm
  exact hd "b" "c" row row' hrow hrow' (by decide) heq.symm

/-- With the midnight of UTC, an order created after the first of the day is deleted bears the
number of the second; six hours behind UTC, the first order after midnight bears the number of
the first order of the evening. -/
theorem numbers_repeat :
    ¬ Always (Orders.step (midnightAt 0)) Distinct ∅
      [.create "a" { type := .dineIn } 43200000 43200000,
       .create "b" { type := .dineIn } 43260000 43260000, .remove "a",
       .create "c" { type := .dineIn } 43320000 43320000] ∧
    ¬ Always (Orders.step (midnightAt 21600000)) Distinct ∅
      [.create "b" { type := .dineIn } 21540000 21540000,
       .create "c" { type := .dineIn } 21660000 21660000] := by
  refine ⟨fun h => not_distinct ?_ ?_ h.last, fun h => not_distinct ?_ ?_ h.last⟩ <;>
    decide +kernel

/-! ### Where the numbers are distinct -/

/-- The orders stored of a UTC day. -/
def countOn (day : ℤ) (db : Db) : ℕ :=
  db.orders.total fun _ row => if dayOf row.createdAt = day then 1 else 0

/-- Each order was created on the day of its number, and fewer orders were counted for it than the
day has now. -/
def Filled (l : Log) : Prop := ∀ id row, l.db.orders.find? id = some row →
  dayOf (l.numbering id).now = dayOf row.createdAt ∧
    (l.numbering id).counted.card < countOn (dayOf row.createdAt) l.db

/-- The clock does not go back, and strikes no midnight within a creation; of the orders of a day
only the last counted is deleted. -/
def Calm (l : Log) : Op → Prop
  | .create _ _ now createdAt => dayOf createdAt = dayOf now ∧
    ∀ id row, l.db.orders.find? id = some row → row.createdAt ≤ now
  | .remove id => ∀ row, l.db.orders.find? id = some row →
    ∀ j row', l.db.orders.find? j = some row' → dayOf row'.createdAt = dayOf row.createdAt →
      (l.numbering j).counted.card ≤ (l.numbering id).counted.card
  | _ => True

lemma dayOf_mono {s t : Instant} (h : s ≤ t) : dayOf s ≤ dayOf t :=
  Int.ediv_le_ediv (by decide) h

lemma countOn_eq_length (day : ℤ) :
    countOn day db = (db.orders.rows.filter fun e => dayOf e.2.createdAt = day).length :=
  (Table.length_filter (t := db.orders) fun _ row => dayOf row.createdAt = day).symm

/-- From the midnight of UTC on the orders of the day are counted. -/
lemma countSince_dayStart {now : Instant}
    (h : ∀ id row, db.orders.find? id = some row → row.createdAt ≤ now) :
    countSince (dayStart (dayOf now)) db = countOn (dayOf now) db := by
  rw [countSince, countOn_eq_length]
  refine congrArg List.length (List.filter_congr fun e he => ?_)
  have hle : e.2.createdAt ≤ now := h e.1 e.2 (Table.mem_rows_iff.mp he)
  have hday : dayStart (dayOf now) ≤ e.2.createdAt ↔ dayOf e.2.createdAt = dayOf now := by
    rw [dayStart_le_iff]
    exact ⟨fun h' => le_antisymm (dayOf_mono hle) h', fun h' => h'.ge⟩
  simp only [hday]

lemma midnightAt_zero (now : Instant) : midnightAt 0 now = dayStart (dayOf now) := by
  rw [midnightAt, sub_zero, add_zero]

lemma countsAnew_of_calm (hf : Filled l) (hcalm : Calm l op) :
    CountsAnew (midnightAt 0) l op := by
  cases op with
  | create newId dto now createdAt =>
    intro _ id row hrow hday
    obtain ⟨hsame, hlt⟩ := hf id row hrow
    rw [ne_eq, ← counted_eq_iff, midnightAt_zero, countSince_dayStart hcalm.2, ← hday, hsame]
    exact hlt.ne
  | _ => trivial

lemma countOn_move {day : ℤ} (hrow : db.orders.find? id = some row) (h : Move op row row') :
    countOn day { db with orders := db.orders.put id row' } = countOn day db :=
  Table.total_put_of_eq hrow (by rw [h.keepsNumber.2])

lemma filled_create {newId : Id} {dto : CreateOrderDto} {now createdAt : Instant}
    (hid : l.db.orders.find? newId = none) (hday : dayOf createdAt = dayOf now)
    (hcalm : ∀ id row, l.db.orders.find? id = some row → row.createdAt ≤ now) (hf : Filled l) :
    Filled ⟨{ l.db with
      orders := l.db.orders.put newId (newOrder (midnightAt 0) l.db dto now createdAt) },
      Function.update l.numbering newId ⟨now, storedSince (midnightAt 0 now) l.db⟩⟩ := by
  have hcount (day : ℤ) : countOn day { l.db with
      orders := l.db.orders.put newId (newOrder (midnightAt 0) l.db dto now createdAt) } =
        countOn day l.db + if dayOf createdAt = day then 1 else 0 := Table.total_put_new hid
  intro id row hrow
  dsimp only at hrow ⊢
  rw [hcount]
  by_cases hkey : id = newId
  · rw [hkey, Table.find?_put_self] at hrow
    obtain rfl := Option.some.inj hrow
    have htime : (newOrder (midnightAt 0) l.db dto now createdAt).createdAt = createdAt := rfl
    rw [hkey, Function.update_self, htime, if_pos rfl, card_storedSince, midnightAt_zero,
      countSince_dayStart hcalm, hday]
    exact ⟨rfl, Nat.lt_succ_self _⟩
  · rw [Table.find?_put_ne hkey] at hrow
    rw [Function.update_of_ne hkey]
    obtain ⟨hsame, hlt⟩ := hf id row hrow
    exact ⟨hsame, Nat.lt_add_right _ hlt⟩

lemma filled_moves {l' : Log} (hnumbering : l'.numbering = l.numbering)
    (hmoves : Moves op id l.db l'.db) (hf : Filled l) : Filled l' := by
  have hcount (day : ℤ) : countOn day l'.db = countOn day l.db := by
    rcases hmoves with hsame | ⟨row, row', hrow, hmove, hdb⟩
    · rw [hsame]
    · rw [hdb, countOn_move hrow hmove]
  intro j row' hrow'
  obtain ⟨row, hrow, -, htime⟩ := noneNew_of_moves hmoves j row' hrow'
  rw [hnumbering, hcount, htime]
  exact hf j row hrow

lemma filled_remove {l' : Log} (hc : Counted l) (hd : Distinct l.db)
    (hnumbering : l'.numbering = l.numbering) (hrow : l.db.orders.find? id = some row)
    (hdb : l'.db = { l.db with orders := l.db.orders.erase id })
    (hcalm : ∀ j row', l.db.orders.find? j = some row' →
      dayOf row'.createdAt = dayOf row.createdAt →
        (l.numbering j).counted.card ≤ (l.numbering id).counted.card)
    (hf : Filled l) : Filled l' := by
  have hcount (day : ℤ) : countOn day l'.db + (if dayOf row.createdAt = day then 1 else 0) =
      countOn day l.db := by
    rw [hdb]
    exact Table.total_erase hrow
  intro j row' hj
  rw [hdb] at hj
  obtain ⟨hne, hrow'⟩ := Table.of_find?_erase hj
  obtain ⟨hdate, hlt⟩ := hf j row' hrow'
  have hday := hcount (dayOf row'.createdAt)
  rw [hnumbering]
  refine ⟨hdate, ?_⟩
  by_cases hsame : dayOf row.createdAt = dayOf row'.createdAt
  · -- the deleted order was counted after this one, and the day had more orders still
    have hle := hcalm j row' hrow' hsame.symm
    obtain ⟨hdate', hlast⟩ := hf id row hrow
    have hnumber := hd j id row' row hrow' hrow hne
    rw [hc j row' hrow', hc id row hrow, ne_eq, orderNumber_eq_iff] at hnumber
    have hcounts : (l.numbering j).counted.card ≠ (l.numbering id).counted.card :=
      fun h => hnumber ⟨hdate.trans (hsame.symm.trans hdate'.symm), by rw [h]⟩
    rw [if_pos hsame] at hday
    rw [hsame] at hlast
    omega
  · rw [if_neg hsame] at hday
    omega

lemma filled_step (hc : Counted l) (hd : Distinct l.db) (hf : Filled l) (hcalm : Calm l op) :
    Filled (l.step (midnightAt 0) op) := by
  rcases log_step (midnightAt 0) l op with ⟨newId, dto, now, createdAt, rfl, -, hid, hstep⟩ |
    ⟨-, hnumbering, hmoves | ⟨id, row, rfl, hrow, hdb⟩⟩
  · rw [hstep]
    exact filled_create hid hcalm.1 hcalm.2 hf
  · exact filled_moves hnumbering hmoves hf
  · exact filled_remove hc hd hnumbering hrow hdb (hcalm row hrow) hf

/-- **Calm runs.** Where the server has the midnight of UTC, its clock does not go back or strike
midnight within a creation, and of the orders of a day only the last counted is deleted, all
numbers stay distinct. -/
theorem calm_numbers_distinct (hc : Counted l) (hd : Distinct l.db) (hf : Filled l)
    (ops : List Op) (h : Along (Log.step (midnightAt 0)) Calm l ops) :
    Always (Orders.step (midnightAt 0)) Distinct l.db ops := by
  have hall : Always (Log.step (midnightAt 0)) (fun l => Counted l ∧ Distinct l.db ∧ Filled l)
      l ops := by
    refine always_of_along ?_ ⟨hc, hd, hf⟩ h
    rintro l op ⟨hc, hd, hf⟩ hcalm
    exact ⟨counted_step hc, (distinct_step_iff hc hd).mpr (countsAnew_of_calm hf hcalm),
      filled_step hc hd hf hcalm⟩
  exact (always_comap fun _ _ => rfl).mp (hall.imp fun _ h => h.2.1)

end CoffeeOs.OrderNumbers

import CoffeeOs.Categories
import CoffeeOs.Runs

/-!
The sort orders that the service of categories draws.

A category created without a sort order comes behind all that are stored. Where no call gives
one, the categories are sorted in the order in which they were created: the highest sort order
may go with a category that is removed, but then the one drawn next is still behind the rest.
-/

namespace CoffeeOs.SortOrders

open CoffeeOs.KeyedTable CoffeeOs.Payload CoffeeOs.Requests CoffeeOs.Requests.Request
open CoffeeOs.Schema CoffeeOs.Categories

/-- The ids of the categories, in the order in which they were created. -/
def ids (db : Db) : List Id := db.categories.rows.map Prod.fst

/-- Their sort orders, in the same order. -/
def sortOrders (db : Db) : List ℤ := db.categories.rows.map fun e => e.2.sortOrder

/-- The sort order that is drawn for a category created now. -/
def next (db : Db) : ℤ := (sortOrders db).max?.getD 0 + 1

/-- The sort order that a call gives. -/
def given : Op → Option ℤ
  | .create _ dto => dto.sortOrder.toOption.map Int.ofNat
  | .update _ dto => dto.sortOrder.toOption.map Int.ofNat
  | .updateSortOrder _ sortOrder => some sortOrder
  | .remove _ => none

variable (fold : String → String)

/-- A category that the call creates without a sort order is stored with one greater than those
of all the others. -/
def PlacesLast (db : Db) : Op → Prop
  | .create newId dto => dto.sortOrder.toOption = none →
      ∀ view, ((create fold newId dto).exec db).1 = .ok view →
        (step fold db (.create newId dto)).categories.find? newId = some view.row ∧
        ∀ row ∈ db.categories.values, row.sortOrder < view.row.sortOrder
  | _ => True

/-- The call leaves the categories in the order in which they were created: it takes some away,
or creates one that comes last. -/
def KeepsOrder (db : Db) (op : Op) : Prop :=
  (ids (step fold db op)).Sublist (ids db) ∨
    ∃ newId dto, op = .create newId dto ∧ ids (step fold db op) = ids db ++ [newId]

/-- The later a category was created, the greater is its sort order. -/
def InOrder (db : Db) : Prop := (sortOrders db).Pairwise (· < ·)

variable {fold} {db : Db} {op : Op}

lemma lt_next : ∀ n ∈ sortOrders db, n < next db := by
  intro n hn
  unfold next
  rcases hmax : (sortOrders db).max? with _ | m
  · rw [List.max?_eq_none_iff.mp hmax] at hn
    cases hn
  · have hle : n ≤ m := (List.max?_eq_some_iff.mp hmax).2 n hn
    exact Int.lt_add_one_of_le hle

lemma placesLast_step (db : Db) (op : Op) : PlacesLast fold db op := by
  cases op with
  | create newId dto =>
    intro hdto view hview
    rw [step, exec_create]
    rw [exec_create] at hview
    split at hview
    · cases hview
    rename_i hname
    obtain ⟨hid, row, hrow, rfl⟩ := Delegate.of_createFrom_ok hview
    refine ⟨?_, fun other hother => ?_⟩
    · rw [if_neg hname, hrow, Delegate.createFrom, Delegate.exec_create_new hid]
      exact Table.find?_put_self
    · -- the next sort order is above all of those in the query
      show other.sortOrder < row.sortOrder
      rw [row_sortOrder hdto hrow]
      obtain ⟨e, he, rfl⟩ := List.mem_map.mp hother
      exact lt_next _ (List.mem_map_of_mem he)
  | _ => trivial

/-! ### The order of the categories -/

lemma ids_put {id : Id} {row row' : Category} (h : db.categories.find? id = some row) :
    ids { db with categories := db.categories.put id row' } = ids db :=
  Table.map_rows_put h rfl

lemma inOrder_put {id : Id} {row row' : Category} (hdb : InOrder db)
    (h : db.categories.find? id = some row) (hrow : row'.sortOrder = row.sortOrder) :
    InOrder { db with categories := db.categories.put id row' } := by
  have hsame : (db.categories.put id row').rows.map (fun e => e.2.sortOrder) = sortOrders db :=
    Table.map_rows_put h hrow
  rw [InOrder, sortOrders, hsame]
  exact hdb

lemma keepsOrder_step (db : Db) (op : Op) : KeepsOrder fold db op := by
  have h : Outcome fold db op (step fold db op) := step_outcome op
  unfold KeepsOrder
  generalize step fold db op = db' at h ⊢
  cases h with
  | kept => exact Or.inl (List.Sublist.refl _)
  | @created newId dto row _ hid =>
    refine Or.inr ⟨newId, dto, rfl, ?_⟩
    rw [ids, Table.rows_put_new hid, List.map_append]
    rfl
  | removed => exact Or.inl (List.filter_sublist.map Prod.fst)
  | _ hrow => exact Or.inl (by rw [ids_put hrow])

/-- Without a sort order given, the last one drawn is the greatest. -/
lemma inOrder_step (hdb : InOrder db) (hgiven : given op = none) : InOrder (step fold db op) := by
  have h : Outcome fold db op (step fold db op) := step_outcome op
  generalize step fold db op = db' at h ⊢
  cases h with
  | kept => exact hdb
  | @created newId dto row _ hid hrow =>
    have hnext : row.sortOrder = next db := row_sortOrder (Option.map_eq_none_iff.mp hgiven) hrow
    rw [InOrder, sortOrders, Table.rows_put_new hid, List.map_append]
    refine List.pairwise_append.mpr ⟨hdb, List.pairwise_singleton _ _, fun n hn m hm => ?_⟩
    rw [List.mem_singleton.mp hm]
    show n < row.sortOrder
    rw [hnext]
    exact lt_next n hn
  | updated hrow _ ha =>
    exact inOrder_put hdb hrow (apply_sortOrder (Option.map_eq_none_iff.mp hgiven) ha)
  | reordered => cases hgiven
  | retired hrow => exact inOrder_put hdb hrow rfl
  | removed => exact hdb.sublist (List.filter_sublist.map _)

/-- **The places of new categories.** In every run a category created without a sort order comes
behind all that are stored, and the categories stay in the order in which they were created; in
a run that gives no sort order, that order is the order of their sort orders. -/
theorem created_last_and_in_order {ops : List Op} :
    Runs.Along (step fold) (PlacesLast fold) db ops ∧
    Runs.Along (step fold) (KeepsOrder fold) db ops ∧
    (InOrder db → Runs.Along (step fold) (fun _ op => given op = none) db ops →
      Runs.Always (step fold) InOrder db ops) :=
  ⟨Runs.along_of_forall placesLast_step, Runs.along_of_forall keepsOrder_step,
    Runs.always_of_along fun _ _ => inOrder_step⟩

/-- Three categories, the last of which is created after the second has gone. -/
def menu : List Op :=
  [.create "wraps" { name := ⟨"Wraps", by decide⟩ },
   .create "soups" { name := ⟨"Soups", by decide⟩, sortOrder := .null },
   .remove "soups",
   .create "cakes" { name := ⟨"Cakes", by decide⟩ },
   .update "wraps" { active := .val false }]

theorem created_last_and_in_order_menu :
    Runs.Always (step id) InOrder ∅ menu ∧ sortOrders (Runs.run (step id) ∅ menu) = [1, 2] :=
  ⟨created_last_and_in_order.2.2 List.Pairwise.nil ⟨rfl, rfl, rfl, rfl, rfl, trivial⟩, by decide⟩

end CoffeeOs.SortOrders

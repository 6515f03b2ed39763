import CoffeeOs.Integrity
import Mathlib.Data.Prod.Lex
import Mathlib.Data.String.Basic

/-!
The lists of modifiers.

Modifiers are listed by their type and, within a type, by their name. No two modifiers of a type
share a name up to letter case, so that this order leaves no ties, unlike the orders of the other
lists: a client that reads the list page by page reads every modifier once and in its place, and
the lists of the active ones are the parts of it that one would expect.
-/

namespace CoffeeOs.ModifierLists

open CoffeeOs.KeyedTable CoffeeOs.Listing CoffeeOs.Modifiers CoffeeOs.Paging CoffeeOs.Requests
open CoffeeOs.Requests.Request CoffeeOs.Runs CoffeeOs.Schema
open CoffeeOs.Names (NamesUnique modifierKey)

variable {β : Type} [LinearOrder β] {fold upper : String → String} {collate : String → β}
  {contains : String → String → Bool} {db : Db} {t : ℕ}

/-- The place of a type in the order of the database, which is that of its declaration. -/
def rank : ModifierType → ℕ
  | .size => 0
  | .milk => 1
  | .extra => 2
  | .syrup => 3
  | .decaf => 4

/-- What the lists are sorted by; `collate` is the order of names in the database. -/
def listKey (collate : String → β) (row : Modifier) : ℕ ×ₗ β :=
  toLex (rank row.type, collate row.name)

/-- The rows that a query asks for, sorted. -/
def listed (collate : String → β) (contains : String → String → Bool) (query : QueryModifiersDto)
    (db : Db) : List (Id × Modifier) :=
  (matching modifier (query.selects contains) db).insertionSort
    (Order.Preimage (fun e => listKey collate e.2) (· ≤ ·))

/-- Whatever order the database puts rows in that a query does not sort: a client that reads a
list page by page reads every row once and in its place, and the lists of the active modifiers and
of those of a type are the rows of the queries for them. -/
structure Listed (upper : String → String) (collate : String → β)
    (contains : String → String → Bool) (db : Db) : Prop where
  pages : ∀ (query : QueryModifiersDto) (t : ℕ) (arrange : ℕ → Arrange Modifier), 0 < t →
    (∀ k s, Sorts (fun e => listKey collate e.2) s (arrange k s)) →
      (readPages t fun k => findAll contains (arrange k)
        { query with skip := some (k * t), take := some t }).exec db =
          (.ok ((listed collate contains query db).map fun e => listedViewOf e.1 e.2 db), db)
  active : ∀ arrange : Arrange Modifier, (∀ s, Sorts (fun e => listKey collate e.2) s (arrange s)) →
    (findAllActive arrange).exec db =
      (.ok ((listed collate contains { active := some true } db).map fun e => viewOf e.1 e.2 db),
        db)
  byType : ∀ (text : String) (type : ModifierType) (arrange : Arrange Modifier),
    typeOf upper text = some type → (∀ s, Sorts (fun e => collate e.2.name) s (arrange s)) →
      (findByType upper arrange text).exec db =
        (.ok ((listed collate contains { type := some type, active := some true } db).map
          fun e => viewOf e.1 e.2 db), db)

/-! ### No ties -/

lemma rank_injective : Function.Injective rank := by
  intro a b h
  cases a <;> cases b <;> first | rfl | cases h

lemma sorts_listed (query : QueryModifiersDto) : Sorts (fun e => listKey collate e.2)
    (matching modifier (query.selects contains) db) (listed collate contains query db) :=
  ⟨List.perm_insertionSort _ _, List.pairwise_insertionSort _ _⟩

omit [LinearOrder β] in
/-- Names that the order of the database takes for the same differ in letter case at most, so that
no two modifiers of a type come to the same place. -/
lemma nodup_listKey (hcollate : ∀ a b, collate a = collate b → fold a = fold b)
    (h : db.modifiers.Unique (modifierKey fold)) {selects : Modifier → Bool} :
    ((matching modifier selects db).map fun e => listKey collate e.2).Nodup := by
  refine nodup_matching.map_on fun e he e' he' hkey => ?_
  have hrow : db.modifiers.find? e.1 = some e.2 := Table.mem_rows_iff.mp (List.mem_of_mem_filter he)
  have hrow' : db.modifiers.find? e'.1 = some e'.2 :=
    Table.mem_rows_iff.mp (List.mem_of_mem_filter he')
  obtain ⟨htype, hname⟩ := Prod.mk.inj (toLex.injective hkey)
  have hid : e.1 = e'.1 := h _ _ _ _ hrow hrow'
    (Prod.ext (rank_injective htype) (hcollate _ _ hname))
  exact Prod.ext hid (Option.some.inj (hrow.symm.trans (hid ▸ hrow')))

/-- Among modifiers of one type, the order of the names is that of the list. -/
lemma sorts_listKey {type : ModifierType} {rows l : List (Id × Modifier)}
    (htype : ∀ e ∈ rows, e.2.type = type) (h : Sorts (fun e => collate e.2.name) rows l) :
    Sorts (fun e => listKey collate e.2) rows l := by
  refine ⟨h.perm, h.sorted.imp_of_mem fun {a b} ha hb hab => ?_⟩
  refine Prod.Lex.toLex_le_toLex.mpr (Or.inr ⟨?_, hab⟩)
  rw [htype a (h.perm.mem_iff.mp ha), htype b (h.perm.mem_iff.mp hb)]

lemma matching_active (contains : String → String → Bool) (db : Db) :
    matching modifier (fun row => row.active) db =
      matching modifier (({ active := some true } : QueryModifiersDto).selects contains) db :=
  List.filter_congr fun e _ => by
    simp [QueryModifiersDto.selects, searchIn, nonempty, Option.filter]

lemma matching_type (contains : String → String → Bool) (type : ModifierType) (db : Db) :
    matching modifier (fun row => row.type = type && row.active) db = matching modifier
      (({ type := some type, active := some true } : QueryModifiersDto).selects contains) db :=
  List.filter_congr fun e _ => by
    simp [QueryModifiersDto.selects, searchIn, nonempty, Option.filter, Bool.and_comm]

lemma listed_of_namesUnique (hcollate : ∀ a b, collate a = collate b → fold a = fold b)
    (h : NamesUnique fold db) : Listed upper collate contains db := by
  have hnodup (selects : Modifier → Bool) :
      ((matching modifier selects db).map fun e => listKey collate e.2).Nodup :=
    nodup_listKey hcollate h.2
  refine ⟨fun query t arrange ht hsorts => ?_, fun arrange hsorts => ?_,
    fun text type arrange htype hsorts => ?_⟩
  · exact readPages_of_nodup ht (hnodup _) (sorts_listed query) hsorts
  · rw [findAllActive, exec_look, matching_active contains,
      (hsorts _).eq_of_nodup (hnodup _) (sorts_listed _)]
  · have hsame : ∀ e ∈ matching modifier (fun row => row.type = type && row.active) db,
        e.2.type = type :=
      fun e he => of_decide_eq_true (Bool.and_eq_true_iff.mp (List.mem_filter.mp he).2).1
    have harranged := sorts_listKey hsame (hsorts _)
    rw [matching_type contains] at harranged
    rw [findByType, htype, exec_orThrow_some, exec_look, matching_type contains,
      harranged.eq_of_nodup (hnodup _) (sorts_listed _)]

/-- **Lists of modifiers.** In every run of the API the lists of modifiers can be read page by page
without loss, and agree with each other. -/
theorem modifiers_listed (midnight : Instant → Instant) (fold upper : String → String)
    (collate : String → β) (contains : String → String → Bool)
    (hcollate : ∀ a b, collate a = collate b → fold a = fold b) (db : Db)
    (ops : List Services.Op) (h0 : NamesUnique fold db) :
    Always (Services.step midnight fold) (Listed upper collate contains) db ops :=
  (always_of_step (fun _ op h => Integrity.namesUnique_step op h) h0).imp
    fun _ h => listed_of_namesUnique hcollate h

/-- Two modifiers of the same name and different types, one of which is switched off. -/
def vanilla : List Services.Op :=
  [.modifiers (.create "syrup" { name := ⟨"Vanilla", by decide⟩, type := .syrup }),
   .modifiers (.create "milk" { name := ⟨"Vanilla", by decide⟩, type := .milk }),
   .modifiers (.update "syrup" { type := .val .milk }),
   .modifiers (.update "milk" { active := .val false })]

theorem modifiers_listed_vanilla :
    Always (Services.step (fun t => t) String.toLower)
      (Listed String.toUpper (fun name => name) (fun name text => name == text)) ∅ vanilla :=
  modifiers_listed (fun t => t) String.toLower String.toUpper (fun name => name)
    (fun name text => name == text) (fun a b h => by rw [h]) ∅ vanilla Names.namesUnique_empty

end CoffeeOs.ModifierLists

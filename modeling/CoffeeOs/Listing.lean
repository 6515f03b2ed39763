import CoffeeOs.Paging
import CoffeeOs.Schema

/-!
Rows that the services list page by page.

A page comes with the number of all matching rows. The database sorts the rows of a query by
the column it orders them by; rows that agree in it may be arranged differently by the next
query. A client asks for one page after the other, until they cover the total it was told.
-/

namespace CoffeeOs.Listing

open CoffeeOs.Paging CoffeeOs.Requests CoffeeOs.Requests.Request CoffeeOs.Schema

/-- The order the database puts the rows of a query in. -/
abbrev Arrange (ρ : Type) := List (Id × ρ) → List (Id × ρ)

/-- The answer of a `findAll`. -/
structure Page (α : Type) where
  items : List α
  total : ℕ
  skip : ℕ
  take : ℕ

/-! ### The filters of a query -/

/-- A property of a query that is a filter unless it is empty. -/
def nonempty (text : Option String) : Option String := text.filter (· ≠ "")

/-- One of the columns contains the text of the search, if there is one; `contains` compares as the
database does, and an empty column contains nothing. -/
def searchIn (contains : String → String → Bool) (search : Option String)
    (columns : List (Option String)) : Bool :=
  (nonempty search).all fun text => columns.any fun column => column.any fun c => contains c text

/-! ### The queries -/

section Queries

variable {ρ α : Type} (d : Delegate ρ) (selects : ρ → Bool)

/-- The rows that match the filters. -/
def matching (db : Db) : List (Id × ρ) := (d.get db).rows.filter fun e => selects e.2

/-- `findMany({ where, skip, take, orderBy })`. -/
def findMany (arrange : Arrange ρ) (skip take : ℕ) (view : Id → ρ → Db → α) : Api (List α) :=
  look fun db =>
    (((arrange (matching d selects db)).drop skip).take take).map fun e => view e.1 e.2 db

/-- `count({ where })`. -/
def count : Api ℕ := look fun db => (matching d selects db).length

/-- What every `findAll` does: the two queries at once, for a page and for the total. -/
def findPage (arrange : Arrange ρ) (skip take : ℕ) (view : Id → ρ → Db → α) : Api (Page α) := do
  let items ← findMany d selects arrange skip take view
  let total ← count d selects
  return { items, total, skip, take }

end Queries

/-! ### A client that reads all pages -/

section Client

variable {α : Type}

/-- Make `n` requests, from number `k` on. -/
def readFrom (ask : ℕ → Api (Page α)) : (k n : ℕ) → Api (List α)
  | _, 0 => pure []
  | k, n + 1 => do
    let page ← ask k
    let rest ← readFrom ask (k + 1) n
    return page.items ++ rest

/-- Ask for pages of `t` rows until they cover the total. -/
def readPages (t : ℕ) (ask : ℕ → Api (Page α)) : Api (List α) := do
  let first ← ask 0
  let rest ← readFrom ask 1 (pageCount first.total t - 1)
  return first.items ++ rest

/-- Whatever order the database puts rows with equal keys in at each request, the pages of `t` rows
bring each of `rows` exactly once. -/
def ReadsEach {ρ β : Type} [LinearOrder β] (findAll : Arrange ρ → (skip take : ℕ) → Api (Page α))
    (key : ρ → β) (t : ℕ) (db : Db) (rows : List α) : Prop :=
  ∀ arrange : ℕ → Arrange ρ, (∀ k s, Sorts (fun e => key e.2) s (arrange k s)) →
    ∃ items, (readPages t fun k => findAll (arrange k) (k * t) t).exec db = (.ok items, db) ∧
      items.Perm rows

variable {db : Db} {t : ℕ}

lemma exec_readFrom {ask : ℕ → Api (Page α)} {answer : ℕ → Page α}
    (h : ∀ k, (ask k).exec db = (.ok (answer k), db)) (k n : ℕ) :
    (readFrom ask k n).exec db =
      (.ok ((List.range' k n).flatMap fun k => (answer k).items), db) := by
  induction n generalizing k with
  | zero => rfl
  | succ n ih =>
    rw [readFrom, exec_bind, h k]
    dsimp only
    rw [exec_bind, ih (k + 1)]
    rfl

lemma exec_readPages {ask : ℕ → Api (Page α)} {answer : ℕ → Page α} (ht : 0 < t)
    (h : ∀ k, (ask k).exec db = (.ok (answer k), db))
    (hempty : (answer 0).total = 0 → (answer 0).items = []) :
    let count := pageCount (answer 0).total t
    (readPages t ask).exec db =
      (.ok ((List.range count).flatMap fun k => (answer k).items), db) := by
  dsimp only
  rw [readPages, exec_bind, h 0]
  dsimp only
  rw [exec_bind, exec_readFrom h]
  dsimp only
  rcases hcount : pageCount (answer 0).total t with _ | p
  · -- an empty answer to the first request covers a total of 0
    have hcover : (answer 0).total ≤ pageCount (answer 0).total t * t := le_pageCount_mul ht _
    rw [hcount, Nat.zero_mul] at hcover
    rw [hempty (Nat.le_zero.mp hcover)]
    rfl
  · rw [List.range_eq_range', List.range'_succ]
    rfl

end Client

/-! ### Which lists are read without loss -/

section Lists

variable {ρ α β : Type} {d : Delegate ρ} {selects : ρ → Bool} {view : Id → ρ → Db → α} {db : Db}
  {t : ℕ}

lemma exec_findPage (arrange : Arrange ρ) (skip take : ℕ) :
    (findPage d selects arrange skip take view).exec db = (.ok {
      items := (((arrange (matching d selects db)).drop skip).take take).map
        fun e => view e.1 e.2 db
      total := (matching d selects db).length, skip, take }, db) := rfl

lemma nodup_matching : (matching d selects db).Nodup :=
  ((d.get db).nodup.of_map Prod.fst).filter _

lemma exec_readPages_findPage (ht : 0 < t) {arrange : ℕ → Arrange ρ}
    (hlength : ∀ k s, (arrange k s).length = s.length) :
    (readPages t fun k => findPage d selects (arrange k) (k * t) t view).exec db =
      (.ok (((List.range (pageCount (matching d selects db).length t)).flatMap fun k =>
        page t k (arrange k (matching d selects db))).map fun e => view e.1 e.2 db), db) := by
  rw [List.map_flatMap]
  refine exec_readPages ht (fun k => exec_findPage (arrange k) (k * t) t) fun hzero => ?_
  have hnil : arrange 0 (matching d selects db) = [] :=
    List.length_eq_zero_iff.mp ((hlength 0 _).trans hzero)
  dsimp only
  rw [hnil, List.drop_nil, List.take_nil, List.map_nil]

/-- By pairwise distinct keys, the pages bring the rows in their order. -/
lemma readPages_of_nodup [LinearOrder β] {key : ρ → β} (ht : 0 < t) {l : List (Id × ρ)}
    (hkeys : ((matching d selects db).map fun e => key e.2).Nodup)
    (hl : Sorts (fun e => key e.2) (matching d selects db) l) {arrange : ℕ → Arrange ρ}
    (hsorts : ∀ k s, Sorts (fun e => key e.2) s (arrange k s)) :
    (readPages t fun k => findPage d selects (arrange k) (k * t) t view).exec db =
      (.ok (l.map fun e => view e.1 e.2 db), db) := by
  have hsame (k : ℕ) : arrange k (matching d selects db) = l :=
    (hsorts k _).eq_of_nodup hkeys hl
  have hcover : l.length ≤ pageCount (matching d selects db).length t * t :=
    hl.length_eq.trans_le (le_pageCount_mul ht _)
  rw [exec_readPages_findPage ht fun k s => (hsorts k s).length_eq]
  simp only [hsame]
  rw [flatMap_page, List.take_of_length_le hcover]

/-- The pages bring every matching row exactly once if and only if none of them ends between two
rows with equal keys. -/
theorem readsEach_iff [LinearOrder β] (key : ρ → β) (ht : 0 < t)
    (hview : Function.Injective fun e : Id × ρ => view e.1 e.2 db) :
    ReadsEach (fun arrange skip take => findPage d selects arrange skip take view) key t db
        ((matching d selects db).map fun e => view e.1 e.2 db) ↔
      Untied (fun e => key e.2) t (matching d selects db) := by
  rw [← pages_perm_iff nodup_matching ht]
  refine forall_congr' fun arrange => imp_congr_right fun hsorts => ?_
  rw [exec_readPages_findPage ht fun k s => (hsorts k s).length_eq]
  refine ⟨?_, fun hperm => ⟨_, rfl, hperm.map _⟩⟩
  rintro ⟨items, hitems, hperm⟩
  obtain rfl := Except.ok.inj (Prod.mk.inj hitems).1
  exact (List.map_perm_map_iff hview).mp hperm

end Lists

end CoffeeOs.Listing

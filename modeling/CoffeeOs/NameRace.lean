import CoffeeOs.LookThenStore
import CoffeeOs.Names

/-!
Names that several requests store at the same time.

The services of categories and modifiers look for a name, whatever its letter case, and store their
row in a later call. Two requests that both look before one of them has stored its row both store
theirs: no index of the database is on a name, so that none would refuse the second one.
-/

namespace CoffeeOs.NameRace

open CoffeeOs.Interleaving CoffeeOs.KeyedTable CoffeeOs.LookThenStore CoffeeOs.Names
open CoffeeOs.Payload CoffeeOs.Requests CoffeeOs.Requests.Request CoffeeOs.Runs CoffeeOs.Schema

variable {ι : Type} {fold : String → String}

/-! ### Requests of the services -/

section Requests

variable {ρ α κ : Type} {d : Delegate ρ} {column : ρ → κ} {ids : ι → Id} {key : ι → κ}
  {hids : Function.Injective ids} {i : ι} {n : ℕ}

/-- Looking for a row with the key, and going on if there is none. -/
lemma entry_findFirst {p : ρ → Bool} {e : Error} {f : Unit → Api α}
    (hp : ∀ row, p row = true ↔ column row = key i)
    (hf : Due (keyRules d.get column key hids) i n (f ())) :
    Entry (keyRules d.get column key hids) i n
      (d.findFirst p >>= fun existing => throwIf existing.isSome e >>= f) := by
  have hany (db : Db) : Taken column (d.get db) (key i) ↔
      ((d.get db).rows.find? fun e => p e.2).isSome := by
    have hiff := Table.any_iff (t := d.get db) (p := fun _ row => p row)
    rw [Table.Any] at hiff
    simp only [hiff, hp, Taken]
  refine .mk (fun db ht => ⟨e, ?_⟩) fun db hfree => ?_
  · exact throwIf_bind_pos ((hany db).mp ht) f
  · have hnext := throwIf_bind_neg (e := e) (mt (hany db).mpr hfree) f
    show Due _ i n (throwIf _ e >>= f)
    rwa [hnext]

lemma due_create {row : ρ} {view : Db → α} (hset : ∀ t db, d.get (d.set t db) = t)
    (hrow : column row = key i) :
    Due (keyRules d.get column key hids) i 0 (d.create (ids i) row view) := by
  refine .store (fun db hnone => ⟨row, hrow, ?_⟩)
    fun db (hnone : (d.get db).find? (ids i) = none) =>
      ⟨view (d.set ((d.get db).put (ids i) row) db), ?_⟩
  · dsimp only
    rw [hnone]
    exact hset _ _
  · dsimp only
    rw [hnone]
    rfl

lemma onlyLooks_findFirst {p : ρ → Bool} {e : Error} {f : Unit → Api α}
    (hf : (f ()).OnlyLooks) :
    (d.findFirst p >>= fun existing => throwIf existing.isSome e >>= f).OnlyLooks :=
  (onlyLooks_look _).bind fun _ => onlyLooks_throwIf.bind fun _ => hf

end Requests

/-! ### Two services -/

inductive Service
  | categories | modifiers
  deriving DecidableEq

namespace Service

def Row : Service → Type
  | categories => Category
  | modifiers => Modifier

def Dto : Service → Type
  | categories => Categories.CreateCategoryDto
  | modifiers => Modifiers.CreateModifierDto

def View : Service → Type
  | categories => Categories.CategoryView
  | modifiers => Modifiers.ModifierView

def Key : Service → Type
  | categories => String
  | modifiers => ModifierType × String

def delegate : (service : Service) → Delegate service.Row
  | categories => category
  | modifiers => modifier

/-- What the service looks for before it stores a row. -/
def column (fold : String → String) : (service : Service) → service.Row → service.Key
  | categories => categoryKey fold
  | modifiers => modifierKey fold

def key (fold : String → String) : (service : Service) → service.Dto → service.Key
  | categories => fun dto => fold dto.name
  | modifiers => fun dto => (dto.type, fold dto.name)

/-- The payload has a row to store: it carries no `null` for a required column. -/
def Storable : (service : Service) → service.Dto → Prop
  | categories => fun dto => (dto.row none).isSome
  | modifiers => fun dto => dto.row.isSome

/-- How many calls there are between the one that looks for the key and the one that stores. -/
def between : Service → ℕ
  | categories => 1
  | modifiers => 0

def create (fold : String → String) :
    (service : Service) → Id → service.Dto → Api service.View
  | categories => Categories.create fold
  | modifiers => Modifiers.create fold

lemma isSome_row_iff {dto : Categories.CreateCategoryDto} (highest : Option ℤ) :
    (dto.row highest).isSome ↔ (dto.row none).isSome := by
  unfold Categories.CreateCategoryDto.row
  rcases dto.active.intoRequired true with _ | active <;> rfl

/-- What a request of the service looks for and stores, each under an id of its own. -/
def rules (fold : String → String) (service : Service) (dtos : ι → service.Dto) {ids : ι → Id}
    (hids : Function.Injective ids) : Rules ι service.Key Db :=
  keyRules service.delegate.get (service.column fold) (fun i => service.key fold (dtos i)) hids

/-- A request that stores a row looks for its key first. -/
lemma entry_create (service : Service) {dtos : ι → service.Dto} {ids : ι → Id}
    (hids : Function.Injective ids) {i : ι} (h : service.Storable (dtos i)) :
    Entry (service.rules fold dtos hids) i service.between
      (service.create fold (ids i) (dtos i)) := by
  cases service with
  | categories =>
    refine entry_findFirst (d := category) (fun row => decide_eq_true_iff) (.look fun db => ?_)
    obtain ⟨row, hrow⟩ := Option.isSome_iff_exists.mp ((isSome_row_iff
      (db.categories.rows.map fun e => e.2.sortOrder).max?).mpr h)
    show Due _ i 0 (category.createFrom (ids i) _ (Categories.viewOf (ids i)))
    rw [hrow]
    exact due_create (fun _ _ => rfl) (congrArg fold (Categories.row_name hrow))
  | modifiers =>
    obtain ⟨row, hrow⟩ := Option.isSome_iff_exists.mp h
    obtain ⟨hname, htype⟩ := Modifiers.row_name hrow
    refine entry_findFirst (d := modifier) (fun row => ?_) ?_
    · show _ ↔ (row.type, fold row.name) = ((dtos i).type, fold (dtos i).name)
      simp [and_comm]
    · rw [hrow]
      exact due_create (fun _ _ => rfl) (Prod.ext htype (congrArg fold hname))

/-- A request that has no row to store only looks. -/
lemma onlyLooks_create (service : Service) {newId : Id} {dto : service.Dto}
    (h : ¬ service.Storable dto) : (service.create fold newId dto).OnlyLooks := by
  cases service with
  | categories =>
    refine onlyLooks_findFirst ((onlyLooks_look _).bind fun highest => ?_)
    rw [Option.not_isSome_iff_eq_none.mp (mt (isSome_row_iff highest).mp h)]
    exact .done _
  | modifiers =>
    refine onlyLooks_findFirst ?_
    rw [Option.not_isSome_iff_eq_none.mp h]
    exact .done _

end Service

/-! ### The races -/

variable [DecidableEq ι]

/-- Requests to store rows of a service, none of them begun. -/
def creations (fold : String → String) (service : Service) (ids : ι → Id)
    (dtos : ι → service.Dto) (db : Db) : Pool ι Db Error service.View :=
  ⟨db, fun i => service.create fold (ids i) (dtos i)⟩

/-- The request has a row to store, and has had all of its turns, the first one when its key was
not stored: not from the start, and by no request that had had all of its own. -/
def Through (fold : String → String) (service : Service) (dtos : ι → service.Dto) (db : Db)
    (is : List ι) (i : ι) : Prop :=
  service.Storable (dtos i) ∧ service.between + 2 ≤ is.count i ∧
    ¬ (Taken (service.column fold) (service.delegate.get db) (service.key fold (dtos i)) ∨
      ∃ k, service.Storable (dtos k) ∧ service.key fold (dtos k) = service.key fold (dtos i) ∧
        Before is i k (service.between + 2))

/-- **The race for a name.** However many requests of a service store rows at the same time, and
whatever the order of their turns, names stay unique exactly if no two requests for the same one
both look for it before it is stored. -/
theorem names_race_iff (fold : String → String) (service : Service) (ids : ι → Id)
    (dtos : ι → service.Dto) (db : Db) (hids : Function.Injective ids)
    (hfresh : ∀ i, (service.delegate.get db).find? (ids i) = none)
    (hunique : (service.delegate.get db).Unique (service.column fold)) (is : List ι) :
    (service.delegate.get (run Pool.step (creations fold service ids dtos db) is).store).Unique
        (service.column fold) ↔
      ∀ i j, i ≠ j → service.key fold (dtos i) = service.key fold (dtos j) →
        Through fold service dtos db is i → ¬ Through fold service dtos db is j := by
  have hentries : Entries (service.rules fold dtos hids) (fun i => service.Storable (dtos i))
      service.between (creations fold service ids dtos db).requests :=
    ⟨fun i hi => service.entry_create hids hi, fun i hi => service.onlyLooks_create hi⟩
  exact unique_run_iff hentries hfresh hunique is

/-- Two clients that store the same category in different letter case. -/
def pastry : Bool → Categories.CreateCategoryDto
  | false => { name := ⟨"Pastry", by decide⟩ }
  | true => { name := ⟨"PASTRY", by decide⟩ }

/-- The second client has all of its turns between the first and the last one of the other. -/
def pastryTurns : List Bool := [false, true, true, true, false, false]

/-- Both have stored it by the end. -/
theorem names_race_iff_pastry :
    ((run Pool.step (creations String.toLower .categories (cond · "b" "a") pastry ∅)
        pastryTurns).store.categories.Unique (categoryKey String.toLower) ↔
      ∀ i j, i ≠ j → (pastry i).name.val.toLower = (pastry j).name.val.toLower →
        Through String.toLower .categories pastry ∅ pastryTurns i →
          ¬ Through String.toLower .categories pastry ∅ pastryTurns j) ∧
    (run Pool.step (creations String.toLower .categories (cond · "b" "a") pastry ∅)
      pastryTurns).store.categories.values.map Category.name = ["PASTRY", "Pastry"] :=
  ⟨names_race_iff String.toLower .categories (cond · "b" "a") pastry ∅ (by decide) (fun _ => rfl)
    Table.unique_empty pastryTurns, by decide +kernel⟩

end CoffeeOs.NameRace

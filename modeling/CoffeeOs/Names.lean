import CoffeeOs.Categories
import CoffeeOs.Modifiers
import CoffeeOs.Runs

/-!
Names that are unique up to letter case.

Both services look for a name before they store it; `fold` is the folding of names that the
database compares by. For a modifier the key is a pair, of which an update may carry either half.
-/

namespace CoffeeOs.Names

open CoffeeOs.KeyedTable CoffeeOs.Payload CoffeeOs.Runs CoffeeOs.Schema

variable {fold : String → String} {db : Db} {id : Id}

inductive Op
  | categories (op : Categories.Op)
  | modifiers (op : Modifiers.Op)

/-- The tables after a call that runs alone. -/
def step (fold : String → String) (db : Db) : Op → Db
  | .categories op => Categories.step fold db op
  | .modifiers op => Modifiers.step fold db op

def categoryKey (fold : String → String) (row : Category) : String := fold row.name

def modifierKey (fold : String → String) (row : Modifier) : ModifierType × String :=
  (row.type, fold row.name)

/-- No two categories have the same name, and no two modifiers the same type and name, up to
letter case. -/
def NamesUnique (fold : String → String) (db : Db) : Prop :=
  db.categories.Unique (categoryKey fold) ∧ db.modifiers.Unique (modifierKey fold)

/-! ### Categories -/

lemma categories_put_new {row : Category} {name : String} {newId : Id}
    (h : db.categories.Unique (categoryKey fold)) (hrow : row.name = name)
    (hfree : ¬ db.categories.Any fun _ row => fold row.name = fold name) :
    (db.categories.put newId row).Unique (categoryKey fold) := by
  refine Table.unique_put h fun k other _ hother hkey => hfree ?_
  refine Table.any_iff.mpr ⟨k, other, hother, ?_⟩
  rw [← hrow]
  exact decide_eq_true hkey

lemma categories_put_renamed {row row' : Category} {dto : Categories.UpdateCategoryDto}
    (h : db.categories.Unique (categoryKey fold)) (hrow : db.categories.find? id = some row)
    (hfree : Categories.NameFree fold db id dto.name row) (ha : dto.apply row = some row') :
    (db.categories.put id row').Unique (categoryKey fold) := by
  by_cases hname : row'.name = row.name
  · exact Table.unique_put_of_eq h hrow (congrArg fold hname)
  · -- the name is new, and the check has looked for it among the other rows
    obtain ⟨name, hval, hnew⟩ := (Categories.apply_name ha).resolve_left hname
    refine Table.unique_put h fun k other hk hother hkey => hfree name ?_ ?_
    · rw [hval]
      rw [hnew] at hname
      simpa [Property.toOption, Option.filter] using hname
    · refine Table.any_iff.mpr ⟨k, other, hother, ?_⟩
      rw [categoryKey, categoryKey, hnew] at hkey
      simp [hk, hkey]

lemma categories_step (op : Categories.Op) (h : db.categories.Unique (categoryKey fold)) :
    (Categories.step fold db op).categories.Unique (categoryKey fold) := by
  have houtcome : Categories.Outcome fold db op (Categories.step fold db op) :=
    Categories.step_outcome op
  generalize Categories.step fold db op = db' at houtcome ⊢
  cases houtcome with
  | kept => exact h
  | created hfree _ hrow => exact categories_put_new h (Categories.row_name hrow) hfree
  | updated hrow hfree ha => exact categories_put_renamed h hrow hfree ha
  | reordered hrow => exact Table.unique_put_of_eq h hrow rfl
  | retired hrow => exact Table.unique_put_of_eq h hrow rfl
  | removed => exact Table.unique_erase h

/-! ### Modifiers -/

lemma modifiers_put_new {row : Modifier} {dto : Modifiers.CreateModifierDto} {newId : Id}
    (h : db.modifiers.Unique (modifierKey fold)) (hrow : dto.row = some row)
    (hfree : ¬ db.modifiers.Any fun _ row => fold row.name = fold dto.name && row.type = dto.type) :
    (db.modifiers.put newId row).Unique (modifierKey fold) := by
  obtain ⟨hname, htype⟩ := Modifiers.row_name hrow
  refine Table.unique_put h fun k other _ hother hkey => hfree ?_
  refine Table.any_iff.mpr ⟨k, other, hother, ?_⟩
  rw [modifierKey, modifierKey, hname, htype, Prod.mk.injEq] at hkey
  simp [hkey.1, hkey.2]

/-- Whichever half of its key an update changes, the check has looked for the new pair. -/
lemma sought_of_key_ne {dto : Modifiers.UpdateModifierDto} {row row' : Modifier}
    (ha : dto.apply row = some row')
    (hkey : ¬ (row'.name = row.name ∧ row'.type = row.type)) :
    dto.sought row = some (row'.name, row'.type) := by
  obtain ⟨⟨hnn, hname⟩, hnt, htype⟩ := Modifiers.apply_name ha
  unfold Modifiers.UpdateModifierDto.sought
  rw [← hname, ← htype]
  refine if_pos ?_
  rw [hname, htype] at hkey
  rcases hdn : dto.name with _ | _ | n
  · rcases hdt : dto.type with _ | _ | t
    · exact absurd ⟨by rw [hdn]; rfl, by rw [hdt]; rfl⟩ hkey
    · exact absurd hdt hnt
    · exact ⟨Or.inr rfl, Or.inl (by simp [Property.map])⟩
  · exact absurd hdn hnn
  · refine ⟨Or.inl rfl, ?_⟩
    rw [← not_and_or]
    rintro ⟨hn, ht⟩
    rw [hdn, hn, ht] at hkey
    exact hkey ⟨rfl, rfl⟩

lemma modifiers_put_renamed {row row' : Modifier} {dto : Modifiers.UpdateModifierDto}
    (h : db.modifiers.Unique (modifierKey fold)) (hrow : db.modifiers.find? id = some row)
    (hfree : Modifiers.NameFree fold db id dto row) (ha : dto.apply row = some row') :
    (db.modifiers.put id row').Unique (modifierKey fold) := by
  by_cases hsame : row'.name = row.name ∧ row'.type = row.type
  · refine Table.unique_put_of_eq h hrow ?_
    rw [modifierKey, modifierKey, hsame.1, hsame.2]
  · refine Table.unique_put h fun k other hk hother hkey =>
      hfree _ (sought_of_key_ne ha hsame) ?_
    refine Table.any_iff.mpr ⟨k, other, hother, ?_⟩
    rw [modifierKey, modifierKey, Prod.mk.injEq] at hkey
    simp [hk, hkey.1, hkey.2]

lemma modifiers_step (op : Modifiers.Op) (h : db.modifiers.Unique (modifierKey fold)) :
    (Modifiers.step fold db op).modifiers.Unique (modifierKey fold) := by
  have houtcome : Modifiers.Outcome fold db op (Modifiers.step fold db op) :=
    Modifiers.step_outcome op
  generalize Modifiers.step fold db op = db' at houtcome ⊢
  cases houtcome with
  | kept => exact h
  | created hfree _ hrow => exact modifiers_put_new h hrow hfree
  | updated hrow hfree ha => exact modifiers_put_renamed h hrow hfree ha
  | retired hrow => exact Table.unique_put_of_eq h hrow rfl
  | removed => exact Table.unique_erase h

/-! ### Runs of both services -/

lemma namesUnique_step (op : Op) (h : NamesUnique fold db) :
    NamesUnique fold (step fold db op) := by
  obtain ⟨hc, hm⟩ := h
  rcases op with op | op
  · refine ⟨categories_step op hc, ?_⟩
    rw [step, Categories.step_frame]
    exact hm
  · refine ⟨?_, modifiers_step op hm⟩
    rw [step, Modifiers.step_frame]
    exact hc

/-- **Names are unique.** In every run of both services, however their calls are mixed, names
stay unique up to letter case: of categories among all categories, of modifiers within their
type. -/
theorem names_unique (fold : String → String) (db : Db) (ops : List Op)
    (h0 : NamesUnique fold db) : Always (step fold) (NamesUnique fold) db ops :=
  always_of_step (fun _ op h => namesUnique_step op h) h0

lemma namesUnique_empty : NamesUnique fold ∅ := ⟨Table.unique_empty, Table.unique_empty⟩

/-- Two categories and two modifiers, with names that are tried again in other letter case. -/
def namings : List Op :=
  [.categories (.create "hot" { name := ⟨"Hot drinks", by decide⟩ }),
   .categories (.create "cold" { name := ⟨"Cold drinks", by decide⟩ }),
   .categories (.update "cold" { name := .val ⟨"HOT DRINKS", by decide⟩ }),
   .modifiers (.create "oat" { name := ⟨"Oat", by decide⟩, type := .milk }),
   .modifiers (.create "oats" { name := ⟨"oat", by decide⟩, type := .extra }),
   .modifiers (.update "oats" { type := .val .milk })]

theorem namings_unique :
    Always (step String.toLower) (NamesUnique String.toLower) ∅ namings :=
  names_unique String.toLower ∅ namings namesUnique_empty

end CoffeeOs.Names

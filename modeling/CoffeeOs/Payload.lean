import Mathlib.Data.Rat.Defs
import Mathlib.Algebra.Order.Ring.Rat

/-!
The properties of request payloads, as the validation pipe lets them through.

A property of a partial payload is left out, is `null`, or carries a value; the optional
decorators let `null` pass every other check. The numbers that the decorators bound are
subtypes, so that a payload that has passed the pipe cannot hold a number out of bounds.
-/

namespace CoffeeOs.Payload

inductive Property (α : Type) where
  | undefined
  | null
  | val (a : α)
  deriving DecidableEq

/-- `@Min(b)`. -/
abbrev AtLeast (b : ℚ) := {q : ℚ // b ≤ q}

def AtLeast.ofNat (n : ℕ) : AtLeast 0 := ⟨n, Rat.natCast_nonneg⟩

/-- The bound itself. -/
def AtLeast.least (b : ℚ) : AtLeast b := ⟨b, Rat.le_refl⟩

/-- `@IsPositive()`. -/
abbrev Positive := {q : ℚ // 0 < q}

def Positive.succ (n : ℕ) : Positive := ⟨(n + 1 : ℕ), Rat.natCast_pos.mpr n.succ_pos⟩

/-- `@IsNotEmpty()`. -/
abbrev NotEmpty := {s : String // s ≠ ""}

namespace Property

variable {α : Type}

def map {β : Type} (f : α → β) : Property α → Property β
  | undefined => undefined
  | null => null
  | val a => val (f a)

/-- A nullable column of a new row: `undefined` and `null` both leave it empty. -/
def toOption : Property α → Option α
  | undefined => none
  | null => none
  | val a => some a

/-- A nullable column after an update: `undefined` keeps it, `null` empties it. -/
def intoNullable (old : Option α) : Property α → Option α
  | undefined => old
  | null => none
  | val a => some a

/-- A required column after an update; `null` cannot be written to it. -/
def intoRequired (old : α) : Property α → Option α
  | undefined => some old
  | null => none
  | val a => some a

/-- The value of a required column after an update that does not write `null` to it. -/
def orElse (old : α) : Property α → α
  | undefined => old
  | null => old
  | val a => a

variable {p : Property α} {old : α}

lemma intoRequired_of_ne_null (h : p ≠ null) : p.intoRequired old = some (p.orElse old) := by
  cases p with
  | null => exact absurd rfl h
  | _ => rfl

lemma ne_null_of_intoRequired {a : α} (h : p.intoRequired old = some a) : p ≠ null := by
  rintro rfl
  cases h

lemma intoRequired_eq_some_iff {a : α} :
    p.intoRequired old = some a ↔ (p = undefined ∧ a = old) ∨ p = val a := by
  cases p <;> simp [intoRequired, eq_comm]

/-- A required column whose old value has a property has it after an update exactly if the value
of the payload has it. -/
lemma forall_intoRequired_iff {P : α → Prop} {a : α} (hold : P old)
    (h : p.intoRequired old = some a) : P a ↔ ∀ b, p = val b → P b := by
  rcases intoRequired_eq_some_iff.mp h with ⟨rfl, rfl⟩ | rfl
  · exact iff_of_true hold fun b hb => by cases hb
  · exact ⟨fun ha b hb => by cases hb; exact ha, fun hb => hb a rfl⟩

/-- The same of a nullable column. -/
lemma forall_intoNullable_iff {P : α → Prop} {old : Option α} (hold : ∀ a, old = some a → P a) :
    (∀ a, p.intoNullable old = some a → P a) ↔ ∀ b, p = val b → P b := by
  cases p with
  | undefined => exact iff_of_true hold fun b hb => by cases hb
  | null => exact iff_of_true (fun a ha => by cases ha) fun b hb => by cases hb
  | val b => simp [intoNullable]

lemma map_eq_val_iff {β : Type} {f : α → β} {b : β} :
    p.map f = val b ↔ ∃ a, p = val a ∧ f a = b := by
  cases p <;> simp [map]

lemma ne_null_of_map {β : Type} {f : α → β} (h : p.map f ≠ null) : p ≠ null := by
  rintro rfl
  exact h rfl

lemma map_ne_null {β : Type} {f : α → β} (h : p ≠ null) : p.map f ≠ null := by
  cases p with
  | null => exact absurd rfl h
  | _ => exact fun h' => by cases h'

/-! ### Bounded properties -/

section Bounded

variable {P : α → Prop} {p : Property {a // P a}}

lemma of_mem_toOption {a : α} (h : a ∈ p.toOption.map Subtype.val) : P a := by
  obtain ⟨b, -, rfl⟩ := Option.mem_map.mp h
  exact b.2

/-- A required column keeps a bound that its new value has passed. -/
lemma of_intoRequired {a : α} (hold : P old)
    (h : (p.map Subtype.val).intoRequired old = some a) : P a := by
  refine (forall_intoRequired_iff hold h).mpr fun b hb => ?_
  obtain ⟨c, -, rfl⟩ := map_eq_val_iff.mp hb
  exact c.2

lemma ne_empty_of_intoRequired {p : Property NotEmpty} {old new : String} (hold : old ≠ "")
    (h : (p.map Subtype.val).intoRequired old = some new) : new ≠ "" :=
  of_intoRequired (P := fun s => s ≠ "") hold h

/-- The same of a nullable column. -/
lemma of_mem_intoNullable {old : Option α} (hold : ∀ a ∈ old, P a) :
    ∀ a ∈ (p.map Subtype.val).intoNullable old, P a := by
  refine (forall_intoNullable_iff hold).mpr fun b hb => ?_
  obtain ⟨c, -, rfl⟩ := map_eq_val_iff.mp hb
  exact c.2

end Bounded

end Property

end CoffeeOs.Payload

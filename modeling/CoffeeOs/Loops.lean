import Mathlib.Algebra.BigOperators.Group.List.Basic

/-!
Loops over lists that may throw.

A loop whose turns all go through is a plain fold, and one that has a turn which cannot go through
throws. A loop that adds up a number and collects a record for each element is described by both.
-/

namespace CoffeeOs.Loops

variable {α β γ ε A : Type*}

/-- A loop whose turns all go through. -/
lemma foldlM_ok {f : β → α → Except ε β} {g : β → α → β} {l : List α}
    (h : ∀ a ∈ l, ∀ acc, f acc a = .ok (g acc a)) (acc : β) :
    l.foldlM f acc = .ok (l.foldl g acc) := by
  induction l generalizing acc with
  | nil => rfl
  | cons a l ih =>
    rw [List.foldlM_cons, h a List.mem_cons_self acc]
    exact ih (fun b hb => h b (List.mem_cons_of_mem a hb)) (g acc a)

/-- A loop in which each turn goes through or throws `e`, and one of them throws. -/
lemma foldlM_error {f : β → α → Except ε β} {e : ε} {bad : α → Prop} {l : List α}
    (hbad : ∀ a acc, bad a → f acc a = .error e)
    (hgood : ∀ a acc, ¬ bad a → ∃ acc', f acc a = .ok acc') (h : ∃ a ∈ l, bad a) (acc : β) :
    l.foldlM f acc = .error e := by
  induction l generalizing acc with
  | nil => obtain ⟨a, ha, -⟩ := h; cases ha
  | cons a l ih =>
    rw [List.foldlM_cons]
    by_cases hb : bad a
    · rw [hbad a acc hb]
      rfl
    · obtain ⟨acc', hacc⟩ := hgood a acc hb
      obtain ⟨b, hmem, hb'⟩ := h
      have hrest : b ∈ l := (List.mem_cons.mp hmem).resolve_left fun he => hb (he ▸ hb')
      rw [hacc]
      exact ih ⟨b, hrest, hb'⟩ acc'

/-- Mapping a function that never throws here. -/
lemma mapM_ok {f : α → Except ε β} {g : α → β} {l : List α} (h : ∀ a ∈ l, f a = .ok (g a)) :
    l.mapM f = .ok (l.map g) := by
  induction l with
  | nil => rfl
  | cons a l ih =>
    rw [List.mapM_cons, h a List.mem_cons_self, ih fun b hb => h b (List.mem_cons_of_mem a hb)]
    rfl

/-- Adding up from a given number. -/
lemma foldl_add [AddMonoid A] (x : α → A) (l : List α) (start : A) :
    l.foldl (fun sum a => sum + x a) start = start + (l.map x).sum := by
  induction l generalizing start with
  | nil => exact (add_zero start).symm
  | cons a l ih => rw [List.foldl_cons, ih, List.map_cons, List.sum_cons, add_assoc]

/-- Adding up a number and collecting a record in the same loop. -/
lemma foldl_add_collect [AddMonoid A] (x : α → A) (y : α → γ) (l : List α) (acc : A × List γ) :
    l.foldl (fun acc a => (acc.1 + x a, acc.2 ++ [y a])) acc =
      (acc.1 + (l.map x).sum, acc.2 ++ l.map y) := by
  induction l generalizing acc with
  | nil => rw [List.foldl_nil, List.map_nil, List.sum_nil, add_zero, List.map_nil, List.append_nil]
  | cons a l ih =>
    rw [List.foldl_cons, ih]
    dsimp only
    rw [List.map_cons, List.sum_cons, add_assoc, List.map_cons, List.append_assoc,
      List.singleton_append]

end CoffeeOs.Loops

import Mathlib.Algebra.Order.Group.MinMax
import Mathlib.Algebra.Order.Ring.Defs

/-!
Functions that grow along with their argument, and never faster.

What such a function takes of an argument never shrinks as the argument grows, and neither does
what it leaves. Constants, shares and the least of two such functions are of this kind.
-/

namespace CoffeeOs.Growth

variable {α : Type*} [CommRing α] [LinearOrder α] [IsStrictOrderedRing α]

/-- From 0 on, the value grows with the argument, by no more than the argument. -/
def Gradual (f : α → α) : Prop := ∀ s t, 0 ≤ s → s ≤ t → f s ≤ f t ∧ s - f s ≤ t - f t

variable {f g : α → α}

lemma gradual_const (c : α) : Gradual fun _ => c :=
  fun _ _ _ hst => ⟨le_rfl, sub_le_sub_right hst c⟩

omit [IsStrictOrderedRing α] in
lemma gradual_id : Gradual fun s : α => s :=
  fun _ _ _ hst => ⟨hst, by rw [sub_self, sub_self]⟩

/-- A share of at most one. -/
lemma gradual_mul {c : α} (h0 : 0 ≤ c) (h1 : c ≤ 1) : Gradual fun s => s * c := by
  intro s t _ hst
  refine ⟨mul_le_mul_of_nonneg_right hst h0, ?_⟩
  have hrest : s * (1 - c) ≤ t * (1 - c) := mul_le_mul_of_nonneg_right hst (sub_nonneg.mpr h1)
  rwa [mul_sub, mul_sub, mul_one, mul_one] at hrest

/-- The least of two. -/
lemma gradual_min (hf : Gradual f) (hg : Gradual g) : Gradual fun s => min (f s) (g s) := by
  intro s t hs hst
  obtain ⟨hf1, hf2⟩ := hf s t hs hst
  obtain ⟨hg1, hg2⟩ := hg s t hs hst
  refine ⟨min_le_min hf1 hg1, ?_⟩
  -- what is left is the larger of what each of the two leaves
  show s - min (f s) (g s) ≤ t - min (f t) (g t)
  rw [← max_sub_sub_left, ← max_sub_sub_left]
  exact max_le_max hf2 hg2

omit [IsStrictOrderedRing α] in
/-- Only the values from 0 on matter. -/
lemma Gradual.congr (hf : Gradual f) (h : ∀ s, 0 ≤ s → g s = f s) : Gradual g := by
  intro s t hs hst
  rw [h s hs, h t (hs.trans hst)]
  exact hf s t hs hst

/-- A share of any size, of which no more than everything is taken. -/
lemma gradual_mul_min {c : α} (h0 : 0 ≤ c) : Gradual fun s => min (s * c) s := by
  rcases le_total c 1 with h1 | h1
  · exact gradual_min (gradual_mul h0 h1) gradual_id
  · refine gradual_id.congr fun s hs => min_eq_right ?_
    calc s = s * 1 := (mul_one s).symm
      _ ≤ s * c := mul_le_mul_of_nonneg_left h1 hs

end CoffeeOs.Growth

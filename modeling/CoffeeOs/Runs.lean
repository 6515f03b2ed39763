import Mathlib.Data.List.Basic

/-!
Runs of a machine that takes one action after another.

A property of every state of a run, and a condition on every action of it, are the two
things said about runs here. The rules pass from what one step does to what a whole run
does; the last one says that a run keeps a property exactly when each of its actions meets
the condition under which a single step keeps it.
-/

namespace CoffeeOs.Runs

variable {σ α : Type*} (step : σ → α → σ)

/-- The state after the actions `as`, in order. -/
def run (s : σ) (as : List α) : σ := as.foldl step s

/-- Every action of the run meets `C` in the state it is taken in. -/
def Along (C : σ → α → Prop) : σ → List α → Prop
  | _, [] => True
  | s, a :: as => C s a ∧ Along C (step s a) as

/-- `P` holds in every state of the run, the first and the last included. -/
def Always (P : σ → Prop) : σ → List α → Prop
  | s, [] => P s
  | s, a :: as => P s ∧ Always P (step s a) as

/-- `P` holds from the first state on, until an action that meets `C` is taken. -/
def Until (P : σ → Prop) (C : σ → α → Prop) : σ → List α → Prop
  | s, [] => P s
  | s, a :: as => P s ∧ (C s a ∨ Until P C (step s a) as)

@[simp] lemma run_nil (s : σ) : run step s [] = s := rfl
@[simp] lemma run_cons (s : σ) (a : α) (as : List α) :
    run step s (a :: as) = run step (step s a) as := rfl
lemma run_append (s : σ) (as bs : List α) :
    run step s (as ++ bs) = run step (run step s as) bs := by
  simp [run, List.foldl_append]

variable {step} {C D : σ → α → Prop} {P : σ → Prop} {s : σ} {as : List α}

@[simp] lemma along_nil : Along step C s [] := trivial
@[simp] lemma along_cons {a : α} :
    Along step C s (a :: as) ↔ C s a ∧ Along step C (step s a) as := Iff.rfl
@[simp] lemma always_nil : Always step P s [] ↔ P s := Iff.rfl
@[simp] lemma always_cons {a : α} :
    Always step P s (a :: as) ↔ P s ∧ Always step P (step s a) as := Iff.rfl

lemma Always.first (h : Always step P s as) : P s := by
  cases as with
  | nil => exact h
  | cons a as => exact h.1

lemma Always.last (h : Always step P s as) : P (run step s as) := by
  induction as generalizing s with
  | nil => exact h
  | cons a as ih => exact ih h.2

/-- `Along`, read prefix by prefix. -/
lemma along_iff : Along step C s as ↔
    ∀ pre a post, as = pre ++ a :: post → C (run step s pre) a := by
  induction as generalizing s with
  | nil => simp
  | cons b bs ih =>
    rw [along_cons, ih]
    refine ⟨?_, fun h => ?_⟩
    · rintro ⟨hb, h⟩ pre a post he
      rcases pre with _ | ⟨c, pre⟩
      · obtain ⟨rfl, rfl⟩ := List.cons.inj he
        exact hb
      · obtain ⟨rfl, ht⟩ := List.cons.inj he
        exact h pre a post ht
    · exact ⟨h [] b bs rfl, fun pre a post he => h (b :: pre) a post (by rw [he]; rfl)⟩

/-- `Always`, read prefix by prefix. -/
lemma always_iff : Always step P s as ↔
    ∀ pre post, as = pre ++ post → P (run step s pre) := by
  induction as generalizing s with
  | nil =>
    refine ⟨fun h pre post he => ?_, fun h => h [] [] rfl⟩
    obtain ⟨rfl, -⟩ := List.append_eq_nil_iff.mp he.symm
    exact h
  | cons b bs ih =>
    rw [always_cons, ih]
    refine ⟨?_, fun h => ?_⟩
    · rintro ⟨hs, h⟩ pre post he
      rcases pre with _ | ⟨c, pre⟩
      · exact hs
      · obtain ⟨rfl, ht⟩ := List.cons.inj he
        exact h pre post ht
    · exact ⟨h [] _ rfl, fun pre post he => h (b :: pre) post (by rw [he]; rfl)⟩

lemma along_append {bs : List α} : Along step C s (as ++ bs) ↔
    Along step C s as ∧ Along step C (run step s as) bs := by
  induction as generalizing s with
  | nil => simp
  | cons a as ih => simp [ih, and_assoc]

lemma Along.imp (h : ∀ s a, C s a → D s a) (hC : Along step C s as) : Along step D s as := by
  induction as generalizing s with
  | nil => trivial
  | cons a as ih => exact ⟨h s a hC.1, ih hC.2⟩

lemma Always.imp {Q : σ → Prop} (h : ∀ s, P s → Q s) (hP : Always step P s as) :
    Always step Q s as := by
  induction as generalizing s with
  | nil => exact h s hP
  | cons a as ih => exact ⟨h s hP.1, ih hP.2⟩

lemma Always.and {Q : σ → Prop} (hP : Always step P s as) (hQ : Always step Q s as) :
    Always step (fun s => P s ∧ Q s) s as := by
  induction as generalizing s with
  | nil => exact ⟨hP, hQ⟩
  | cons a as ih => exact ⟨⟨hP.1, hQ.1⟩, ih hP.2 hQ.2⟩

/-- A machine that simulates another one through `f` has the properties of its runs. -/
lemma always_comap {τ : Type*} {f : τ → σ} {lift : τ → α → τ}
    (hf : ∀ t a, f (lift t a) = step (f t) a) {t : τ} :
    Always lift (fun t => P (f t)) t as ↔ Always step P (f t) as := by
  induction as generalizing t with
  | nil => simp
  | cons a as ih => rw [always_cons, always_cons, ih, hf]

/-- A condition that every step meets is met along every run. -/
lemma along_of_forall (h : ∀ s a, C s a) : Along step C s as := by
  induction as generalizing s with
  | nil => trivial
  | cons a as ih => exact ⟨h s a, ih⟩

/-- **Invariants.** What every step preserves, every run preserves. -/
theorem always_of_step (hP : ∀ s a, P s → P (step s a)) (h0 : P s) : Always step P s as := by
  induction as generalizing s with
  | nil => exact h0
  | cons a as ih => exact ⟨h0, ih (hP s a h0)⟩

theorem run_of_step (hP : ∀ s a, P s → P (step s a)) (h0 : P s) : P (run step s as) :=
  (always_of_step hP h0).last

/-- **Guarded invariants.** What every step preserves under `C`, a run whose actions all
meet `C` preserves. -/
theorem always_of_along (hP : ∀ s a, P s → C s a → P (step s a)) (h0 : P s)
    (hC : Along step C s as) : Always step P s as := by
  induction as generalizing s with
  | nil => exact h0
  | cons a as ih => exact ⟨h0, ih (hP s a h0 hC.1) hC.2⟩

/-- What every action preserves that does not meet `C` holds until one does. -/
theorem until_of_step (hP : ∀ s a, P s → C s a ∨ P (step s a)) (h0 : P s) :
    Until step P C s as := by
  induction as generalizing s with
  | nil => exact h0
  | cons a as ih => exact ⟨h0, (hP s a h0).imp_right ih⟩

/-- A condition that every step into a state with `P` meets. -/
theorem along_of_always (h : ∀ s a, P (step s a) → C s a) (hP : Always step P s as) :
    Along step C s as := by
  induction as generalizing s with
  | nil => trivial
  | cons a as ih => exact ⟨h s a hP.2.first, ih hP.2⟩

/-- A step that can spoil a property of the parts only at its target. -/
lemma forall_step_iff {κ : Type*} {Q : σ → κ → Prop} {a : α} {target : κ}
    (hframe : ∀ k, target ≠ k → Q s k → Q (step s a) k) (h : ∀ k, Q s k) :
    (∀ k, Q (step s a) k) ↔ Q (step s a) target := by
  refine ⟨fun hall => hall target, fun ht k => ?_⟩
  by_cases hk : target = k
  · exact hk ▸ ht
  · exact hframe k hk (h k)

/-- Under an invariant, two conditions that agree on each step agree along each run. -/
theorem along_congr (hP : ∀ s a, P s → P (step s a)) (h : ∀ s a, P s → (C s a ↔ D s a))
    (h0 : P s) : Along step C s as ↔ Along step D s as := by
  induction as generalizing s with
  | nil => simp
  | cons a as ih => rw [along_cons, along_cons, h s a h0, ih (hP s a h0)]

/-- **The exact condition of a property of all states.** If, wherever `P` holds, one step
keeps it exactly under `C`, then a run keeps it throughout exactly when all its actions
meet `C`. -/
theorem always_iff_along (h : ∀ s a, P s → (P (step s a) ↔ C s a)) (h0 : P s) :
    Always step P s as ↔ Along step C s as := by
  induction as generalizing s with
  | nil => simpa using h0
  | cons a as ih =>
    rw [always_cons, along_cons]
    refine ⟨?_, ?_⟩
    · rintro ⟨-, hrest⟩
      have h1 : P (step s a) := hrest.first
      exact ⟨(h s a h0).mp h1, (ih h1).mp hrest⟩
    · rintro ⟨hC, hrest⟩
      have h1 : P (step s a) := (h s a h0).mpr hC
      exact ⟨h0, (ih h1).mpr hrest⟩

/-- The same where one step keeps `P` exactly under `C` only in the states of an invariant. -/
theorem always_iff_along_of_invariant {I : σ → Prop} (hI : ∀ s a, I s → I (step s a))
    (h : ∀ s a, I s → P s → (P (step s a) ↔ C s a)) (hI0 : I s) (h0 : P s) :
    Always step P s as ↔ Along step C s as := by
  have hboth : Always step (fun s => I s ∧ P s) s as ↔ Along step C s as := by
    refine always_iff_along (fun s a hs => ?_) ⟨hI0, h0⟩
    rw [h s a hs.1 hs.2]
    exact and_iff_right (hI s a hs.1)
  rw [← hboth]
  exact ⟨fun hP => Always.and (always_of_step hI hI0) hP, Always.imp fun _ hs => hs.2⟩

/-- The exact condition of a property of the steps and a property of all states together, under
an invariant that steps keep under that condition. -/
theorem along_and_always_iff {I : σ → Prop} (hP : ∀ s, I s → P s)
    (hI : ∀ s a, I s → D s a → I (step s a))
    (h : ∀ s a, I s → (C s a ∧ P (step s a) ↔ D s a)) (h0 : I s) :
    Along step C s as ∧ Always step P s as ↔ Along step D s as := by
  induction as generalizing s with
  | nil => simpa using hP s h0
  | cons a as ih =>
    rw [along_cons, always_cons, along_cons]
    refine ⟨?_, ?_⟩
    · rintro ⟨⟨hC, hCs⟩, -, hPs⟩
      have hD : D s a := (h s a h0).mp ⟨hC, hPs.first⟩
      exact ⟨hD, (ih (hI s a h0 hD)).mp ⟨hCs, hPs⟩⟩
    · rintro ⟨hD, hDs⟩
      obtain ⟨hCs, hPs⟩ := (ih (hI s a h0 hD)).mpr hDs
      exact ⟨⟨((h s a h0).mpr hD).1, hCs⟩, hP s h0, hPs⟩

end CoffeeOs.Runs

import CoffeeOs.Requests
import CoffeeOs.Runs
import Mathlib.Data.Fintype.Defs
import Mathlib.Data.List.Count
import Mathlib.Data.List.Induction

/-!
Many requests at once, their calls interleaved in any order.

A pool is a store and a family of requests to it; a run says whose call comes next, call by
call. No isolation is assumed: between two calls of one request any calls of the
others may come.
-/

namespace CoffeeOs.Interleaving

open CoffeeOs.Requests CoffeeOs.Runs

variable {ι σ ε α : Type}

structure Pool (ι σ ε α : Type) where
  store : σ
  requests : ι → Request σ ε α

namespace Pool

/-- The answer of request `i`, once it has one. -/
def answer (p : Pool ι σ ε α) (i : ι) : Option (Except ε α) :=
  match p.requests i with
  | .done r => some r
  | .call _ _ => none

/-- Request `i` still has a call to make. -/
def Pending (p : Pool ι σ ε α) (i : ι) : Prop := p.answer i = none

instance (p : Pool ι σ ε α) (i : ι) : Decidable (p.Pending i) :=
  decidable_of_iff ((p.answer i).isNone = true) (by simp [Pending])

def Finished (p : Pool ι σ ε α) : Prop := ∀ i, ¬ p.Pending i

instance [Fintype ι] (p : Pool ι σ ε α) : Decidable p.Finished :=
  inferInstanceAs (Decidable (∀ i, ¬ p.Pending i))

/-- Request `i` has been answered without an error. -/
def Succeeded (p : Pool ι σ ε α) (i : ι) : Prop := ∃ a, p.requests i = .done (.ok a)

variable [DecidableEq ι]

/-- Request `i` makes its next call, if it has one. -/
def step (p : Pool ι σ ε α) (i : ι) : Pool ι σ ε α :=
  match p.requests i with
  | .done _ => p
  | .call w k => ⟨w p.store, Function.update p.requests i (k p.store)⟩

variable {p : Pool ι σ ε α} {i j : ι}

omit [DecidableEq ι] in
lemma pending_iff : p.Pending i ↔ ∃ w k, p.requests i = .call w k := by
  unfold Pending answer
  rcases p.requests i with r | ⟨w, k⟩ <;> simp

lemma step_of_done {r : Except ε α} (h : p.requests i = .done r) : p.step i = p := by
  simp only [step, h]

lemma step_of_call {w : σ → σ} {k : σ → Request σ ε α} (h : p.requests i = .call w k) :
    p.step i = ⟨w p.store, Function.update p.requests i (k p.store)⟩ := by
  simp only [step, h]

/-- A step of one request leaves the others where they are. -/
lemma step_requests_ne (h : j ≠ i) : (p.step i).requests j = p.requests j := by
  unfold step
  split
  · rfl
  · exact Function.update_of_ne h _ _

/-- A request that only looks first goes on with what it saw. -/
lemma step_look_bind {β : Type} {f : σ → β} {g : β → Request σ ε α}
    (h : p.requests i = .look f >>= g) :
    p.step i = ⟨p.store, Function.update p.requests i (g (f p.store))⟩ := step_of_call h

lemma step_atomically_ok {f : σ → Except ε (α × σ)} {a : α} {s : σ}
    (h : p.requests i = .atomically f) (hf : f p.store = .ok (a, s)) :
    p.step i = ⟨s, Function.update p.requests i (.done (.ok a))⟩ := by
  rw [step_of_call h, hf]
  rfl

lemma step_atomically_error {f : σ → Except ε (α × σ)} {e : ε}
    (h : p.requests i = .atomically f) (hf : f p.store = .error e) :
    p.step i = ⟨p.store, Function.update p.requests i (.done (.error e))⟩ := by
  rw [step_of_call h, hf]
  rfl

/-- A request whose call succeeds goes on with what the call returned. -/
lemma step_atomically_bind {β : Type} {f : σ → Except ε (β × σ)} {g : β → Request σ ε α} {b : β}
    {s : σ} (h : p.requests i = .atomically f >>= g) (hf : f p.store = .ok (b, s)) :
    p.step i = ⟨s, Function.update p.requests i (g b)⟩ := by
  rw [step_of_call h]
  dsimp only
  rw [hf]
  rfl

/-- An answer stands. -/
lemma step_requests_of_done {r : Except ε α} (h : p.requests j = .done r) :
    (p.step i).requests j = .done r := by
  by_cases hij : j = i
  · subst hij
    rwa [step_of_done h]
  · rwa [step_requests_ne hij]

lemma requests_run_of_notMem {is : List ι} (h : j ∉ is) :
    (run step p is).requests j = p.requests j := by
  induction is generalizing p with
  | nil => rfl
  | cons i is ih =>
    obtain ⟨hne, hmem⟩ := not_or.mp (mt List.mem_cons.mpr h)
    rw [run_cons, ih hmem, step_requests_ne hne]

/-! ### The answers in their order -/

/-- What the turn of request `i` answers without an error, if it is the last one of the request. -/
def answered (p : Pool ι σ ε α) (i : ι) : List α :=
  if p.Pending i then
    match (p.step i).answer i with
    | some (.ok a) => [a]
    | _ => []
  else []

/-- What the requests answer without an error, in the order of their last turns. -/
def answers (p : Pool ι σ ε α) : List ι → List α
  | [] => []
  | i :: is => p.answered i ++ answers (p.step i) is

lemma answered_of_done {r : Except ε α} (h : p.requests i = .done r) : p.answered i = [] := by
  refine if_neg fun hpending => ?_
  obtain ⟨w, k, hcall⟩ := pending_iff.mp hpending
  cases h.symm.trans hcall

lemma answered_of_call {s : σ} {w : σ → σ} {k : σ → Request σ ε α}
    (h : p.step i = ⟨s, Function.update p.requests i (.call w k)⟩) : p.answered i = [] := by
  have hnext : (p.step i).requests i = .call w k := by
    rw [h]
    exact Function.update_self _ _ _
  unfold answered answer
  rw [hnext]
  exact ite_self _

lemma answered_of_error {s : σ} {e : ε}
    (h : p.step i = ⟨s, Function.update p.requests i (.done (.error e))⟩) : p.answered i = [] := by
  have hnext : (p.step i).requests i = .done (.error e) := by
    rw [h]
    exact Function.update_self _ _ _
  unfold answered answer
  rw [hnext]
  exact ite_self _

lemma answered_of_ok {s : σ} {a : α} (hp : p.Pending i)
    (h : p.step i = ⟨s, Function.update p.requests i (.done (.ok a))⟩) : p.answered i = [a] := by
  have hnext : (p.step i).requests i = .done (.ok a) := by
    rw [h]
    exact Function.update_self _ _ _
  unfold answered
  rw [if_pos hp]
  unfold answer
  rw [hnext]

end Pool

/-! ### Turns -/

section Turns

variable [DecidableEq ι]

lemma count_append_singleton (is : List ι) (i j : ι) :
    (is ++ [i]).count j = is.count j + if i = j then 1 else 0 := by
  rw [List.count_append, List.count_singleton]
  simp

/-- The requests with `C` have all been past their turn `n` before a turn exactly if they have
after it, and it is not such a turn itself. -/
lemma past_turn_cons_iff {C : ι → Prop} {n : ℕ} {is js : List ι} {i : ι} :
    (∀ j, C j → n < (is ++ i :: js).count j → n < is.count j) ↔
      (∀ j, C j → n < (is ++ [i] ++ js).count j → n < (is ++ [i]).count j) ∧
        (is.count i = n → ¬ C i) := by
  rw [List.append_cons]
  refine ⟨fun hbefore => ⟨fun j hj hcount => ?_, fun hn hi => ?_⟩, fun hafter j hj hcount => ?_⟩
  · rw [count_append_singleton]
    exact (hbefore j hj hcount).trans_le (Nat.le_add_right _ _)
  · have hlater : n < (is ++ [i] ++ js).count i := by
      rw [List.count_append, count_append_singleton, hn, if_pos rfl]
      exact Nat.lt_add_right _ (Nat.lt_succ_self n)
    exact absurd hn (hbefore i hi hlater).ne'
  · have hpast := hafter.1 j hj hcount
    rw [count_append_singleton] at hpast
    by_cases hij : i = j
    · subst hij
      rw [if_pos rfl] at hpast
      exact lt_of_le_of_ne (Nat.le_of_lt_succ hpast) fun hn => hafter.2 hn.symm hj
    · rwa [if_neg hij, Nat.add_zero] at hpast

omit [DecidableEq ι] in
/-- A turn that is appended is the last one, and the others are turns as before. -/
lemma split_append_singleton {is pre post : List ι} {i j : ι} (h : is ++ [j] = pre ++ i :: post) :
    (is = pre ∧ j = i ∧ post = []) ∨ ∃ post', post = post' ++ [j] ∧ is = pre ++ i :: post' := by
  rcases List.eq_nil_or_concat post with rfl | ⟨post, k, rfl⟩
  · obtain ⟨his, hji⟩ := List.append_inj' h rfl
    exact Or.inl ⟨his, List.singleton_inj.mp hji, rfl⟩
  · rw [List.concat_eq_append, ← List.cons_append, ← List.append_assoc] at h
    obtain ⟨his, hjk⟩ := List.append_inj' h rfl
    exact Or.inr ⟨post, by rw [List.concat_eq_append, List.singleton_inj.mp hjk], his⟩

/-- The turn of a request that comes after `n` others of its own. -/
lemma exists_turn {is : List ι} {i : ι} {n : ℕ} (h : n < is.count i) :
    ∃ pre post, is = pre ++ i :: post ∧ pre.count i = n := by
  induction is generalizing n with
  | nil => exact absurd h (Nat.not_lt_zero n)
  | cons j is ih =>
    by_cases hji : j = i
    · subst hji
      rcases n with _ | n
      · exact ⟨[], is, rfl, rfl⟩
      · rw [List.count_cons_self] at h
        obtain ⟨pre, post, rfl, hcount⟩ := ih (Nat.lt_of_succ_lt_succ h)
        exact ⟨j :: pre, post, rfl, by rw [List.count_cons_self, hcount]⟩
    · rw [List.count_cons_of_ne hji] at h
      obtain ⟨pre, post, rfl, hcount⟩ := ih h
      exact ⟨j :: pre, post, rfl, by rw [List.count_cons_of_ne hji, hcount]⟩

/-- Of the turns that come after `n` others of the same request, one is the last. -/
lemma exists_last_turn {is : List ι} {n : ℕ} (h : ∃ i, n < is.count i) :
    ∃ i pre post, is = pre ++ i :: post ∧ pre.count i = n ∧
      ∀ j, j ≠ i → n < is.count j → n < pre.count j := by
  induction is using List.reverseRecOn with
  | nil =>
    obtain ⟨i, hi⟩ := h
    exact absurd hi (Nat.not_lt_zero n)
  | append_singleton is k ih =>
    by_cases hk : is.count k = n
    · refine ⟨k, is, [], rfl, hk, fun j hj hcount => ?_⟩
      rwa [count_append_singleton, if_neg hj.symm, Nat.add_zero] at hcount
    · have hbefore {j : ι} (hj : n < (is ++ [k]).count j) : n < is.count j := by
        rw [count_append_singleton] at hj
        by_cases hkj : k = j
        · rw [if_pos hkj] at hj
          rw [hkj] at hk
          exact lt_of_le_of_ne (Nat.le_of_lt_succ hj) (Ne.symm hk)
        · rwa [if_neg hkj, Nat.add_zero] at hj
      obtain ⟨i, pre, post, rfl, hcount, hlast⟩ := ih (h.imp fun _ => hbefore)
      exact ⟨i, pre, post ++ [k], by simp, hcount, fun j hj hlt => hlast j hj (hbefore hlt)⟩

end Turns

end CoffeeOs.Interleaving

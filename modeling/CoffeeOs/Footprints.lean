import CoffeeOs.Interleaving

/-!
Requests that keep to parts of the store of their own.

The store is taken to have parts, each with a set of rewrites. A request keeps to a part if its
calls make no other rewrites, and is blind to a rewrite if it makes the same calls with the same
effect before and after it. Where every request keeps to one part and is blind to the rewrites of
the others, only the order of the turns on each part matters.
-/

namespace CoffeeOs.Footprints

open CoffeeOs.Requests CoffeeOs.Requests.Request CoffeeOs.Interleaving
open CoffeeOs.Interleaving.Pool CoffeeOs.Runs

variable {ι κ σ ε α β : Type}

/-- Each call of the request changes the store by a rewrite that meets `T`. -/
inductive Within (T : (σ → σ) → Prop) : Request σ ε α → Prop
  | done (r : Except ε α) : Within T (.done r)
  | call {w : σ → σ} {k : σ → Request σ ε α} (write : T w) (rest : ∀ s, Within T (k s)) :
      Within T (.call w k)

/-- A rewrite that meets `T` does not show in what a call of the request sees, and may be made
before the call or after it. -/
inductive Blind (T : (σ → σ) → Prop) : Request σ ε α → Prop
  | done (r : Except ε α) : Blind T (.done r)
  | call {w : σ → σ} {k : σ → Request σ ε α} (write : ∀ f, T f → ∀ s, w (f s) = f (w s))
      (sees : ∀ f, T f → ∀ s, k (f s) = k s) (rest : ∀ s, Blind T (k s)) : Blind T (.call w k)

/-- Each request keeps to the part `part i`, and is blind to the rewrites of the other parts. -/
structure Apart (T : κ → (σ → σ) → Prop) (part : ι → κ) (p : Pool ι σ ε α) : Prop where
  within : ∀ i, Within (T (part i)) (p.requests i)
  blind : ∀ i q, q ≠ part i → Blind (T q) (p.requests i)

/-! ### Requests made of others -/

variable {T : (σ → σ) → Prop} {p : Request σ ε α} {f : α → Request σ ε β}

lemma Within.bind (hp : Within T p) (hf : ∀ a, Within T (f a)) : Within T (p >>= f) := by
  induction hp with
  | done r =>
    cases r with
    | ok a => exact hf a
    | error e => exact .done _
  | call hw _ ih => exact .call hw ih

lemma Blind.bind (hp : Blind T p) (hf : ∀ a, Blind T (f a)) : Blind T (p >>= f) := by
  induction hp with
  | done r =>
    cases r with
    | ok a => exact hf a
    | error e => exact .done _
  | call hw hk _ ih =>
    exact .call hw (fun g hg s => congrArg (Request.bind · f) (hk g hg s)) ih

lemma within_look (hid : T id) (g : σ → α) : Within T (look g : Request σ ε α) :=
  .call hid fun _ => .done _

lemma blind_look {g : σ → α} (hg : ∀ f, T f → ∀ s, g (f s) = g s) :
    Blind T (look g : Request σ ε α) :=
  .call (fun _ _ _ => rfl) (fun f hf s => by rw [hg f hf s]) fun _ => .done _

lemma within_throwIf {c : Prop} [Decidable c] {e : ε} :
    Within T (throwIf c e : Request σ ε Unit) := by
  unfold throwIf
  split <;> exact .done _

lemma blind_throwIf {c : Prop} [Decidable c] {e : ε} :
    Blind T (throwIf c e : Request σ ε Unit) := by
  unfold throwIf
  split <;> exact .done _

lemma within_orThrow {o : Option α} {e : ε} : Within T (orThrow e o : Request σ ε α) := by
  cases o <;> exact .done _

lemma blind_orThrow {o : Option α} {e : ε} : Blind T (orThrow e o : Request σ ε α) := by
  cases o <;> exact .done _

lemma within_atomically {g : σ → Except ε (α × σ)}
    (hg : T fun s => ((Request.atomically g).exec s).2) : Within T (Request.atomically g) :=
  .call hg fun _ => .done _

lemma blind_atomically {g : σ → Except ε (α × σ)}
    (hstore : ∀ f, T f → ∀ s,
      ((Request.atomically g).exec (f s)).2 = f ((Request.atomically g).exec s).2)
    (hsees : ∀ f, T f → ∀ s, (g (f s)).map Prod.fst = (g s).map Prod.fst) :
    Blind T (Request.atomically g) :=
  .call hstore (fun f hf s => congrArg Request.done (hsees f hf s)) fun _ => .done _

/-! ### Turns -/

section Turns

variable [DecidableEq ι] {T T' : (σ → σ) → Prop} {p : Pool ι σ ε α} {i j : ι}

/-- What is left of a request after a turn of any request. -/
lemma requests_step {P : Request σ ε α → Prop} (hP : ∀ w k, P (.call w k) → ∀ s, P (k s))
    (h : P (p.requests j)) (i : ι) : P ((p.step i).requests j) := by
  by_cases hj : j = i
  · subst hj
    rcases hreq : p.requests j with r | ⟨w, k⟩
    · rwa [step_of_done hreq]
    · rw [step_of_call hreq]
      dsimp only
      rw [Function.update_self]
      exact hP w k (hreq ▸ h) p.store
  · rwa [step_requests_ne hj]

lemma within_step (h : Within T (p.requests j)) (i : ι) : Within T ((p.step i).requests j) := by
  refine requests_step (fun w k hcall s => ?_) h i
  cases hcall with | call _ hrest => exact hrest s

lemma blind_step (h : Blind T (p.requests j)) (i : ι) : Blind T ((p.step i).requests j) := by
  refine requests_step (fun w k hcall s => ?_) h i
  cases hcall with | call _ _ hrest => exact hrest s

/-- Requests that are blind to each other's rewrites may take two turns in either order. -/
lemma step_comm (hij : i ≠ j) (hwi : Within T (p.requests i)) (hwj : Within T' (p.requests j))
    (hbi : Blind T' (p.requests i)) (hbj : Blind T (p.requests j)) :
    (p.step i).step j = (p.step j).step i := by
  have hrest {q : Pool ι σ ε α} {a b : ι} (hab : a ≠ b) (s : σ) (r : Request σ ε α) :
      (⟨s, Function.update q.requests a r⟩ : Pool ι σ ε α).requests b = q.requests b :=
    Function.update_of_ne hab.symm _ _
  rcases hi : p.requests i with r | ⟨w, k⟩
  · rw [step_of_done hi, step_of_done (step_requests_of_done hi)]
  rcases hj : p.requests j with r | ⟨w', k'⟩
  · rw [step_of_done hj, step_of_done (step_requests_of_done hj)]
  rw [hi] at hwi hbi
  rw [hj] at hwj hbj
  cases hwi with | call hw _ =>
  cases hwj with | call hw' _ =>
  cases hbi with | call hwrite hsees _ =>
  cases hbj with | call _ hsees' _ =>
  rw [step_of_call hi, step_of_call hj, step_of_call ((hrest hij _ _).trans hj),
    step_of_call ((hrest hij.symm _ _).trans hi)]
  dsimp only
  rw [hwrite w' hw', hsees w' hw', hsees' w hw, Function.update_comm hij]

end Turns

/-! ### Turns of requests that keep apart -/

section Parts

variable [DecidableEq ι] {T : κ → (σ → σ) → Prop} {part : ι → κ} {p : Pool ι σ ε α} {i j : ι}

lemma apart_step (h : Apart T part p) (i : ι) : Apart T part (p.step i) :=
  ⟨fun j => within_step (h.within j) i, fun j q hq => blind_step (h.blind j q hq) i⟩

lemma apart_run (h : Apart T part p) (is : List ι) : Apart T part (run Pool.step p is) :=
  run_of_step (fun _ i hp => apart_step hp i) h

/-- **Turns on different parts.** Two turns on different parts may be taken in either order. -/
theorem Apart.step_comm (h : Apart T part p) (hij : part i ≠ part j) :
    (p.step i).step j = (p.step j).step i :=
  Footprints.step_comm (fun he => hij (he ▸ rfl)) (h.within i) (h.within j)
    (h.blind i _ hij.symm) (h.blind j _ hij)

/-- A turn may be brought forward over turns on other parts. -/
lemma Apart.run_forward (h : Apart T part p) {pre : List ι} (hpre : ∀ j ∈ pre, part j ≠ part i)
    (post : List ι) :
    run Pool.step p (pre ++ i :: post) = run Pool.step p (i :: (pre ++ post)) := by
  induction pre generalizing p with
  | nil => rfl
  | cons j pre ih =>
    have hj : part j ≠ part i := hpre j List.mem_cons_self
    have hrest : ∀ k ∈ pre, part k ≠ part i := fun k hk => hpre k (List.mem_cons_of_mem _ hk)
    calc run Pool.step p (j :: pre ++ i :: post)
        = run Pool.step (p.step j) (i :: (pre ++ post)) := ih (apart_step h j) hrest
      _ = run Pool.step ((p.step i).step j) (pre ++ post) := by rw [run_cons, h.step_comm hj]
      _ = run Pool.step p (i :: (j :: pre ++ post)) := rfl

variable [DecidableEq κ] {is js : List ι}

/-- On each part, the same turns are taken in the same order. -/
def SameTurns (part : ι → κ) (is js : List ι) : Prop :=
  ∀ q, is.filter (fun i => part i = q) = js.filter fun i => part i = q

/-- **Runs of requests that keep apart.** Only the order of the turns on each part matters. -/
theorem Apart.run_eq_run (h : Apart T part p) (hsame : SameTurns part is js) :
    run Pool.step p is = run Pool.step p js := by
  induction is generalizing p js with
  | nil =>
    rcases js with _ | ⟨j, js⟩
    · rfl
    · have hj := hsame (part j)
      rw [List.filter_cons_of_pos (by simp)] at hj
      cases hj
  | cons i is ih =>
    have hi := hsame (part i)
    rw [List.filter_cons_of_pos (by simp)] at hi
    -- the first turn of `js` on the part of `i` is that of `i`
    obtain ⟨pre, post, rfl, hpre, -, hpost⟩ := List.filter_eq_cons_iff.mp hi.symm
    have hpre : ∀ j ∈ pre, part j ≠ part i := fun j hj => by simpa using hpre j hj
    rw [h.run_forward hpre, run_cons, run_cons]
    refine ih (apart_step h i) fun q => ?_
    by_cases hq : part i = q
    · have hnone : pre.filter (fun j => part j = q) = [] :=
        List.filter_eq_nil_iff.mpr fun j hj => by simpa [← hq] using hpre j hj
      rw [List.filter_append, hnone, List.nil_append, ← hq, hpost]
    · have hothers := hsame q
      rwa [List.filter_cons_of_neg (by simpa using hq), List.filter_append,
        List.filter_cons_of_neg (by simpa using hq), ← List.filter_append] at hothers

omit [DecidableEq ι] in
/-- The turns on one part first, and those on the others after them. -/
lemma sameTurns_split (part : ι → κ) (is : List ι) (q : κ) : SameTurns part is
    (is.filter (fun i => part i = q) ++ is.filter fun i => part i ≠ q) := by
  intro r
  rw [List.filter_append, List.filter_filter, List.filter_filter]
  by_cases hr : r = q
  · subst hr
    simp
  · have hnone : is.filter (fun i => decide (part i = r) && decide (part i = q)) = [] := by
      refine List.filter_eq_nil_iff.mpr fun i _ he => hr ?_
      simp only [Bool.and_eq_true, decide_eq_true_eq] at he
      exact he.1.symm.trans he.2
    rw [hnone, List.nil_append]
    refine List.filter_congr fun i _ => ?_
    by_cases hi : part i = r <;> simp [hi, hr]

omit [DecidableEq κ] in
/-- What shows of the store while the parts `C` are left alone. -/
lemma Apart.store_run_of_notMem (h : Apart T part p) {g : σ → β} {C : κ → Prop}
    (hg : ∀ q, ¬ C q → ∀ f, T q f → ∀ s, g (f s) = g s) (his : ∀ i ∈ is, ¬ C (part i)) :
    g (run Pool.step p is).store = g p.store := by
  induction is generalizing p with
  | nil => rfl
  | cons i is ih =>
    rw [run_cons, ih (apart_step h i) fun j hj => his j (List.mem_cons_of_mem _ hj)]
    rcases hreq : p.requests i with r | ⟨w, k⟩
    · rw [step_of_done hreq]
    have hwithin : Within (T (part i)) (.call w k) := hreq ▸ h.within i
    rw [step_of_call hreq]
    cases hwithin with
    | call hw _ => exact hg _ (his i List.mem_cons_self) w hw p.store

/-- **One part.** A request and what shows of its part are, after any turns, as the turns on that
part alone make them. -/
theorem Apart.run_part (h : Apart T part p) (i : ι) {g : σ → β}
    (hg : ∀ q, q ≠ part i → ∀ f, T q f → ∀ s, g (f s) = g s) (is : List ι) :
    (run Pool.step p is).requests i =
      (run Pool.step p (is.filter fun j => part j = part i)).requests i ∧
    g (run Pool.step p is).store =
      g (run Pool.step p (is.filter fun j => part j = part i)).store := by
  rw [h.run_eq_run (sameTurns_split part is (part i)), run_append]
  refine ⟨requests_run_of_notMem fun hi => ?_,
    (apart_run h _).store_run_of_notMem hg fun j hj => ?_⟩
  · simpa using (List.mem_filter.mp hi).2
  · simpa using (List.mem_filter.mp hj).2

/-! ### One request for each part -/

omit [DecidableEq κ] in
/-- The turns of a request that are all there are until it has answered are its execution. -/
lemma exec_of_replicate {n : ℕ} {r : Except ε α}
    (h : (run Pool.step p (List.replicate n i)).requests i = .done r) :
    (p.requests i).exec p.store = (r, (run Pool.step p (List.replicate n i)).store) := by
  induction n generalizing p with
  | zero =>
    have hdone : p.requests i = .done r := h
    rw [hdone]
    rfl
  | succ n ih =>
    rw [List.replicate_succ, run_cons] at h ⊢
    rw [← ih h]
    rcases hreq : p.requests i with r' | ⟨w, k⟩
    · rw [step_of_done hreq, hreq]
    · rw [step_of_call hreq]
      dsimp only
      rw [Function.update_self]
      rfl

/-- The store that the requests leave one after the other. -/
def inTurn (requests : ι → Request σ ε α) (s : σ) (js : List ι) : σ :=
  js.foldl (fun s j => ((requests j).exec s).2) s

lemma filter_part_eq (hpart : Function.Injective part) (is : List ι) (i : ι) :
    is.filter (fun j => part j = part i) = List.replicate (is.count i) i := by
  rw [← List.filter_eq]
  exact List.filter_congr fun j _ => by simp [hpart.eq_iff, eq_comm]

/-- What a request that is finished has answered is what it answers alone, before all others. -/
theorem Apart.answer_of_finished (h : Apart T part p) (hpart : Function.Injective part)
    (hf : (run Pool.step p is).Finished) (i : ι) :
    (run Pool.step p is).answer i = some ((p.requests i).exec p.store).1 := by
  obtain ⟨hreq, -⟩ := h.run_part i (g := fun _ => ()) (fun _ _ _ _ _ => rfl) is
  rw [filter_part_eq hpart] at hreq
  rcases hdone : (run Pool.step p is).requests i with r | ⟨w, k⟩
  · rw [hdone] at hreq
    rw [exec_of_replicate hreq.symm, answer, hdone]
  · exact absurd (pending_iff.mpr ⟨w, k, hdone⟩) (hf i)

/-- **One request for each part.** Whatever the order of the turns, finished requests leave what
they leave one after the other, in any order. -/
theorem Apart.store_of_finished (h : Apart T part p) (hpart : Function.Injective part)
    (hf : (run Pool.step p is).Finished) (hjs : js.Nodup) (hall : ∀ i ∈ is, i ∈ js) :
    (run Pool.step p is).store = inTurn p.requests p.store js := by
  induction js generalizing p is with
  | nil =>
    obtain rfl : is = [] := List.eq_nil_iff_forall_not_mem.mpr fun i hi => by simpa using hall i hi
    rfl
  | cons j js ih =>
    obtain ⟨hj, hjs⟩ := List.nodup_cons.mp hjs
    set alone := run Pool.step p (List.replicate (is.count j) j) with halone
    set others := is.filter fun i => part i ≠ part j with hothers
    have hsplit : run Pool.step p is = run Pool.step alone others := by
      rw [h.run_eq_run (sameTurns_split part is (part j)), run_append, filter_part_eq hpart]
    have hnot : j ∉ others := by simp [hothers]
    -- `j` has no turns among the others, so that it has answered before them
    obtain ⟨r, hr⟩ : ∃ r, alone.requests j = .done r := by
      rcases hreq : alone.requests j with r | ⟨w, k⟩
      · exact ⟨r, rfl⟩
      · have hpending : (run Pool.step p is).Pending j := by
          rw [hsplit]
          exact pending_iff.mpr ⟨w, k, (requests_run_of_notMem hnot).trans hreq⟩
        exact absurd hpending (hf j)
    have hrequests : ∀ i ∈ js, alone.requests i = p.requests i := fun i hi =>
      requests_run_of_notMem fun hmem => hj (List.eq_of_mem_replicate hmem ▸ hi)
    rw [hsplit] at hf ⊢
    rw [ih (apart_run h _) hf hjs fun i hi => ?_]
    · show js.foldl _ _ = js.foldl _ ((p.requests j).exec p.store).2
      rw [exec_of_replicate hr]
      exact List.foldl_ext _ _ _ fun s i hi => by rw [hrequests i hi]
    · obtain ⟨hmem, hne⟩ := List.mem_filter.mp hi
      refine (List.mem_cons.mp (hall i hmem)).resolve_left fun he => ?_
      simp [he] at hne

end Parts

end CoffeeOs.Footprints

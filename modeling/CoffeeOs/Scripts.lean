import CoffeeOs.Interleaving

/-!
Requests that work on the same rows, each by a script of its own.

What each call of a scripted request does to the rows is laid down before the request begins: it
leaves them, deletes them all, or adds some to those that are there, unless these do not admit them.
After any turns of such requests the rows are those that have been added since they were deleted
last.
-/

namespace CoffeeOs.Scripts

open CoffeeOs.Interleaving CoffeeOs.Interleaving.Pool CoffeeOs.Requests CoffeeOs.Requests.Request
open CoffeeOs.Runs

variable {ι ρ σ ε α β : Type}

/-! ### Scripts -/

/-- What a call does to the rows. -/
inductive Act (ρ : Type)
  | keep
  | clear
  | add (admits : List ρ → Bool) (new : List ρ)

namespace Act

/-- The rows after the call. -/
def on : Act ρ → List ρ → List ρ
  | keep, rows => rows
  | clear, _ => []
  | add admits new, rows => if admits rows then rows ++ new else rows

/-- The rows that the call adds to those that are there. -/
def new : Act ρ → List ρ → List ρ
  | add admits new, rows => if admits rows then new else []
  | _, _ => []

lemma on_eq_append {act : Act ρ} (h : act ≠ clear) (rows : List ρ) :
    act.on rows = rows ++ act.new rows := by
  cases act with
  | keep => exact (List.append_nil rows).symm
  | clear => exact absurd rfl h
  | add admits new =>
    show (if admits rows then rows ++ new else rows) = rows ++ if admits rows then new else []
    split
    · rfl
    · exact (List.append_nil rows).symm

end Act

/-- As long as the store has the property `I`, every call of the request keeps it and does to the
rows what its script says, and nothing when the script has come to its end. -/
inductive Follows (I : σ → Prop) (rows : σ → List ρ) : List (Act ρ) → Request σ ε α → Prop
  | done (r : Except ε α) : Follows I rows [] (.done r)
  | call {script : List (Act ρ)} {w : σ → σ} {rest : σ → Request σ ε α}
      (keeps : ∀ s, I s → I (w s))
      (acts : ∀ s, I s → rows (w s) = (script.headD .keep).on (rows s))
      (next : ∀ s, I s → Follows I rows script.tail (rest s)) : Follows I rows script (.call w rest)

section Follows

variable {I : σ → Prop} {rows : σ → List ρ} {script : List (Act ρ)}

/-- A request that looks first. -/
lemma follows_look_bind {f : σ → β} {g : β → Request σ ε α} (hkeep : script.headD .keep = .keep)
    (h : ∀ s, I s → Follows I rows script.tail (g (f s))) :
    Follows I rows script (look f >>= g) :=
  .call (fun _ hs => hs) (fun s _ => by rw [hkeep]; rfl) h

/-- The last call of a request, which may fail. -/
lemma follows_atomically {f : σ → Except ε (α × σ)} (hscript : script.tail = [])
    (hok : ∀ s a s', I s → f s = .ok (a, s') → I s' ∧ rows s' = (script.headD .keep).on (rows s))
    (herror : ∀ s e, I s → f s = .error e → (script.headD .keep).on (rows s) = rows s) :
    Follows I rows script (atomically f) := by
  refine .call (fun s hs => ?_) (fun s hs => ?_) fun s _ => by rw [hscript]; exact .done _
  · rcases hf : f s with e | ⟨a, s'⟩
    · exact hs
    · exact (hok s a s' hs hf).1
  · rcases hf : f s with e | ⟨a, s'⟩
    · exact (herror s e hs hf).symm
    · exact (hok s a s' hs hf).2

/-- A call that cannot fail. -/
lemma follows_atomically_bind {f : σ → Except ε (β × σ)} {g : β → Request σ ε α}
    (hok : ∀ s, I s → ∃ b s', f s = .ok (b, s') ∧ I s' ∧
      rows s' = (script.headD .keep).on (rows s) ∧ Follows I rows script.tail (g b)) :
    Follows I rows script (atomically f >>= g) := by
  refine .call (fun s hs => ?_) (fun s hs => ?_) fun s hs => ?_
  · obtain ⟨b, s', hf, hkeeps, -⟩ := hok s hs
    rw [hf]
    exact hkeeps
  · obtain ⟨b, s', hf, -, hrows, -⟩ := hok s hs
    rw [hf]
    exact hrows
  · obtain ⟨b, s', hf, -, -, hnext⟩ := hok s hs
    dsimp only
    rw [hf]
    exact hnext

end Follows

/-! ### Scripted requests at the same time -/

section Turns

variable [DecidableEq ι] (script : ι → List (Act ρ))

/-- What the turn of request `i` does that comes after the turns `pre`. -/
def actAt (pre : List ι) (i : ι) : Act ρ := (script i).getD (pre.count i) .keep

/-- None of the turns `is`, which come after `pre`, deletes the rows. -/
def NoClear (pre is : List ι) : Prop :=
  ∀ mid i post, is = mid ++ i :: post → actAt script (pre ++ mid) i ≠ .clear

/-- Of the turns `is`, that of request `i` after `pre` has deleted the rows last. -/
structure LastClear (is pre : List ι) (i : ι) (post : List ι) : Prop where
  turns : is = pre ++ i :: post
  clears : actAt script pre i = .clear
  last : NoClear script (pre ++ [i]) post

/-- What the turns `is` add to the rows, which come after `pre`. -/
def added : List ρ → List ι → List ι → List ρ
  | _, _, [] => []
  | rows, pre, i :: is => (actAt script pre i).new rows ++
    added (rows ++ (actAt script pre i).new rows) (pre ++ [i]) is

variable {script} {pre is js : List ι} {i : ι}

lemma noClear_nil : NoClear script pre [] := by
  intro mid i post h
  rcases mid with _ | _ <;> cases h

lemma NoClear.head (h : NoClear script pre (i :: is)) : actAt script pre i ≠ .clear := by
  have hfirst := h [] i is rfl
  rwa [List.append_nil] at hfirst

lemma NoClear.tail (h : NoClear script pre (i :: is)) : NoClear script (pre ++ [i]) is := by
  rintro mid j post rfl
  have hlater := h (i :: mid) j post rfl
  rwa [List.append_cons] at hlater

lemma NoClear.snoc (h : NoClear script pre is) (hi : actAt script (pre ++ is) i ≠ .clear) :
    NoClear script pre (is ++ [i]) := by
  intro mid j post hsplit
  rcases split_append_singleton hsplit with ⟨rfl, rfl, -⟩ | ⟨post, -, hbefore⟩
  · exact hi
  · exact h mid j post hbefore

/-- Either no turn has deleted the rows, or one of those that have is the last one. -/
lemma noClear_or_lastClear (script : ι → List (Act ρ)) (is : List ι) :
    NoClear script [] is ∨ ∃ pre i post, LastClear script is pre i post := by
  induction is using List.reverseRecOn with
  | nil => exact Or.inl noClear_nil
  | append_singleton is j ih =>
    by_cases hj : actAt script is j = .clear
    · exact Or.inr ⟨is, j, [], rfl, hj, noClear_nil⟩
    · rcases ih with hno | ⟨pre, i, post, rfl, hclears, hlast⟩
      · exact Or.inl (hno.snoc hj)
      · refine Or.inr ⟨pre, i, post ++ [j], by simp, hclears, hlast.snoc ?_⟩
        rwa [List.append_assoc, List.singleton_append]

variable (I : σ → Prop) (rows : σ → List ρ)

/-- After the turns `is` the store has the property, and every request is as far in its script as
its own turns have taken it. -/
structure Reached (script : ι → List (Act ρ)) (is : List ι) (p : Pool ι σ ε α) : Prop where
  store : I p.store
  follows : ∀ i, Follows I rows ((script i).drop (is.count i)) (p.requests i)

variable {I rows} {p : Pool ι σ ε α}

lemma reached_nil (hI : I p.store) (h : ∀ i, Follows I rows (script i) (p.requests i)) :
    Reached I rows script [] p :=
  ⟨hI, h⟩

/-- **One turn.** It does what the script of its request says. -/
lemma reached_step (h : Reached I rows script is p) (i : ι) :
    Reached I rows script (is ++ [i]) (p.step i) ∧
      rows (p.step i).store = (actAt script is i).on (rows p.store) := by
  have hi := h.follows i
  have hact : ((script i).drop (is.count i)).headD .keep = actAt script is i := by
    rw [actAt, List.headD_eq_head?_getD, List.head?_drop, List.getD_eq_getElem?_getD]
  have htail : ((script i).drop (is.count i)).tail = (script i).drop ((is ++ [i]).count i) := by
    rw [List.tail_drop, count_append_singleton, if_pos rfl]
  have hother (j : ι) (hj : j ≠ i) : (is ++ [i]).count j = is.count j := by
    rw [count_append_singleton, if_neg hj.symm, Nat.add_zero]
  generalize hrest : (script i).drop (is.count i) = rest at hi hact htail
  generalize hreq : p.requests i = r at hi
  cases hi with
  | done r =>
    rw [step_of_done hreq, ← hact]
    refine ⟨⟨h.store, fun j => ?_⟩, rfl⟩
    by_cases hj : j = i
    · subst hj
      rw [← htail, hreq]
      exact .done r
    · -- the others are where they were in their scripts
      rw [hother j hj]
      exact h.follows j
  | call keeps acts next =>
    rw [step_of_call hreq]
    refine ⟨⟨keeps _ h.store, fun j => ?_⟩, ?_⟩
    · by_cases hj : j = i
      · subst hj
        dsimp only
        rw [← htail, Function.update_self]
        exact next _ h.store
      · dsimp only
        rw [hother j hj, Function.update_of_ne hj]
        exact h.follows j
    · rw [← hact]
      exact acts _ h.store

lemma reached_run (h : Reached I rows script is p) (js : List ι) :
    Reached I rows script (is ++ js) (run step p js) := by
  induction js generalizing is p with
  | nil => rwa [List.append_nil]
  | cons i js ih =>
    rw [List.append_cons]
    exact ih (reached_step h i).1

/-- Turns that delete nothing leave the rows that there are, and those they add. -/
lemma rows_run_of_noClear (h : Reached I rows script is p) (hno : NoClear script is js) :
    rows (run step p js).store = rows p.store ++ added script (rows p.store) is js := by
  induction js generalizing is p with
  | nil => exact (List.append_nil _).symm
  | cons i js ih =>
    obtain ⟨hnext, hrows⟩ := reached_step h i
    rw [run_cons, ih hnext hno.tail, hrows, Act.on_eq_append hno.head, List.append_assoc]
    rfl

/-- **Many turns.** After a deletion the rows are those that have been added since. -/
lemma rows_run_of_lastClear {post : List ι} (h : Reached I rows script [] p)
    (hlast : LastClear script js is i post) :
    rows (run step p js).store = added script [] (is ++ [i]) post := by
  obtain ⟨rfl, hclears, hno⟩ := hlast
  have hbefore : Reached I rows script is (run step p is) := reached_run h is
  obtain ⟨hnext, hrows⟩ := reached_step hbefore i
  rw [run_append, run_cons, rows_run_of_noClear hnext hno, hrows, hclears]
  rfl

end Turns

/-! ### Replacements -/

/-- A replacement of the rows: after some calls that leave them they are deleted, and the new ones
are added by the next call, if those that are there by then admit them. -/
structure Replacement (ρ : Type) where
  reads : ℕ
  admits : List ρ → Bool
  new : List ρ

/-- The script of a request that replaces the rows, or leaves them. -/
def scriptOf : Option (Replacement ρ) → List (Act ρ)
  | none => []
  | some r => List.replicate r.reads .keep ++ [.clear, .add r.admits r.new]

section Replacements

variable [DecidableEq ι] {plan : ι → Option (Replacement ρ)} {is pre : List ι} {i : ι}

/-- Nothing is added before something has been deleted. -/
lemma added_of_noClear (h : NoClear (fun i => scriptOf (plan i)) [] is) (rows : List ρ) :
    added (fun i => scriptOf (plan i)) rows [] is = [] := by
  have hreads {i : ι} {r : Replacement ρ} (hi : plan i = some r) : is.count i ≤ r.reads := by
    by_contra hmore
    obtain ⟨mid, post, rfl, hcount⟩ := exists_turn (not_le.mp hmore)
    refine h mid i post rfl ?_
    rw [List.nil_append, actAt, hi, hcount, scriptOf]
    simp
  -- no turn of a request that replaces rows comes after its deletion
  suffices hnew : ∀ post pre rows, is = pre ++ post →
      added (fun i => scriptOf (plan i)) rows pre post = [] from hnew is [] rows rfl
  intro post
  induction post with
  | nil => exact fun _ _ _ => rfl
  | cons i post ih =>
    intro pre rows hsplit
    rw [added, ih _ _ (hsplit.trans (List.append_cons ..)), List.append_nil, actAt]
    rcases hi : plan i with _ | r
    · rfl
    · have hcount : pre.count i < r.reads := by
        have hle := hreads hi
        rw [hsplit, List.count_append, List.count_cons_self] at hle
        omega
      rw [scriptOf, List.getD_eq_getElem?_getD,
        List.getElem?_append_left (by simpa using hcount), List.getElem?_replicate_of_lt hcount]
      rfl

/-- **Replacements at the same time.** Either none has deleted the rows yet, and they are those
that were there, or they are those that have been added since the last deletion. -/
lemma replaced_run {I : σ → Prop} {rows : σ → List ρ} {p : Pool ι σ ε α} (hI : I p.store)
    (h : ∀ i, Follows I rows (scriptOf (plan i)) (p.requests i)) (is : List ι) :
    (NoClear (fun i => scriptOf (plan i)) [] is ∧ rows (run step p is).store = rows p.store) ∨
      ∃ pre i post, LastClear (fun i => scriptOf (plan i)) is pre i post ∧
        rows (run step p is).store = added (fun i => scriptOf (plan i)) [] (pre ++ [i]) post := by
  have hstart := reached_nil hI h
  rcases noClear_or_lastClear (fun i => scriptOf (plan i)) is with hno | ⟨pre, i, post, hlast⟩
  · refine Or.inl ⟨hno, ?_⟩
    rw [rows_run_of_noClear hstart hno, added_of_noClear hno, List.append_nil]
  · exact Or.inr ⟨pre, i, post, hlast, rows_run_of_lastClear hstart hlast⟩

end Replacements

end CoffeeOs.Scripts

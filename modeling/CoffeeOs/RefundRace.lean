import CoffeeOs.Interleaving
import CoffeeOs.Payments
import CoffeeOs.Runs

/-!
Refunds of one payment that race each other.

A refund reads the payment and, if it is COMPLETED, writes to it in a second call that does
not look at the status again. Two requests that both read before either writes both refund.
-/

namespace CoffeeOs.RefundRace

open CoffeeOs.KeyedTable CoffeeOs.Requests CoffeeOs.Requests.Request CoffeeOs.Runs
open CoffeeOs.Interleaving CoffeeOs.Interleaving.Pool CoffeeOs.Schema
open CoffeeOs.Payments hiding step

variable {ι : Type} {pid : Id} {now : ι → Instant}

/-- Requests to refund the same payment, each with the clock reading it will store. -/
def refunds (pid : Id) (now : ι → Instant) (db : Db) : Pool ι Db Error PaymentView :=
  ⟨db, fun i => refund pid (now i)⟩

/-- The answer of a request that finds the payment in another status. -/
def rejected : Api PaymentView := .done (.error (.badRequest "Can only refund completed payments"))

def refundedAt (n : Instant) (p : Payment) : Payment :=
  { p with status := .refunded, refundedAt := some n }

variable [DecidableEq ι] {q : Pool ι Db Error PaymentView} {p : Payment} {i j : ι}

/-! ### The two calls of a request -/

/-- The first call of a request: it goes on to its write, or is turned away. -/
lemma step_read (hi : q.requests i = refund pid (now i))
    (hp : q.store.payments.find? pid = some p) :
    q.step i = ⟨q.store, Function.update q.requests i
      (if p.status = .completed then writeRefund pid (now i) else rejected)⟩ := by
  have hread : q.requests i =
      .look (fun db => db.payments.find? pid) >>= fun found =>
        orThrow (.notFound s!"Payment with ID {pid} not found") found >>= fun row =>
          throwIf (row.status ≠ .completed) (.badRequest "Can only refund completed payments") >>=
            fun _ => writeRefund pid (now i) := hi
  rw [step_look_bind hread, hp]
  rw [orThrow_some_bind]
  by_cases hc : p.status = .completed
  · rw [if_pos hc, throwIf_bind_neg (not_not.mpr hc)]
  · rw [if_neg hc, throwIf_bind_pos hc]
    rfl

/-- The second call of a request. -/
lemma step_write (hi : q.requests i = writeRefund pid (now i))
    (hp : q.store.payments.find? pid = some p) :
    ∃ view, q.step i =
      ⟨{ q.store with payments := q.store.payments.put pid (refundedAt (now i) p) },
        Function.update q.requests i (.done (.ok view))⟩ := by
  refine ⟨viewOf pid (refundedAt (now i) p)
    { q.store with payments := q.store.payments.put pid (refundedAt (now i) p) },
    step_atomically_ok hi ?_⟩
  rw [payment, hp]
  rfl

/-! ### Every request of the pool, at any time -/

/-- How far a request has come. -/
inductive Stage (pid : Id) (n : Instant) : Api PaymentView → Prop
  | unread : Stage pid n (refund pid n)
  | read : Stage pid n (writeRefund pid n)
  | refunded (view : PaymentView) : Stage pid n (.done (.ok view))
  | rejected : Stage pid n rejected

/-- The payment is stored, and each request is at one of its stages. -/
def Inv (pid : Id) (now : ι → Instant) (q : Pool ι Db Error PaymentView) : Prop :=
  (∃ p, q.store.payments.find? pid = some p) ∧ ∀ i, Stage pid (now i) (q.requests i)

lemma stage_update {r : Api PaymentView} (h : ∀ i, Stage pid (now i) (q.requests i))
    (hr : Stage pid (now i) r) (j : ι) :
    Stage pid (now j) (Function.update q.requests i r j) :=
  (Function.forall_update_iff q.requests fun j r => Stage pid (now j) r).mpr
    ⟨hr, fun j _ => h j⟩ j

lemma inv_step (i : ι) (h : Inv pid now q) : Inv pid now (q.step i) := by
  obtain ⟨⟨p, hp⟩, hall⟩ := h
  have hi : Stage pid (now i) (q.requests i) := hall i
  generalize hreq : q.requests i = r at hi
  cases hi with
  | unread =>
    rw [step_read hreq hp]
    refine ⟨⟨p, hp⟩, stage_update hall ?_⟩
    split
    · exact .read
    · exact .rejected
  | read =>
    obtain ⟨view, hstep⟩ := step_write hreq hp
    rw [hstep]
    exact ⟨⟨_, Table.find?_put_self⟩, stage_update hall (.refunded view)⟩
  | refunded => rw [step_of_done hreq]; exact ⟨⟨p, hp⟩, hall⟩
  | rejected => rw [step_of_done hreq]; exact ⟨⟨p, hp⟩, hall⟩

/-! ### Two readers -/

/-- Request `i` has read the payment while it was COMPLETED: it will refund, or has. -/
def Bound (pid : Id) (now : ι → Instant) (i : ι) (q : Pool ι Db Error PaymentView) : Prop :=
  q.requests i = writeRefund pid (now i) ∨ q.Succeeded i

lemma bound_step (j : ι) (h : Inv pid now q) (hb : Bound pid now i q) :
    Bound pid now i (q.step j) := by
  rcases hb with hw | ⟨view, hdone⟩
  · by_cases hij : i = j
    · subst hij
      obtain ⟨p, hp⟩ := h.1
      obtain ⟨view, hstep⟩ := step_write hw hp
      rw [hstep]
      exact Or.inr ⟨view, Function.update_self _ _ _⟩
    · exact Or.inl ((step_requests_ne hij).trans hw)
  · exact Or.inr ⟨view, step_requests_of_done hdone⟩

lemma bound_run (is : List ι) (h : Inv pid now q) (hb : Bound pid now i q) :
    Bound pid now i (run step q is) :=
  (run_of_step (P := fun q => Inv pid now q ∧ Bound pid now i q)
    (fun _ j hs => ⟨inv_step j hs.1, bound_step j hs.1 hs.2⟩) ⟨h, hb⟩).2

omit [DecidableEq ι] in
lemma succeeded_of_bound (hf : q.Finished) (hb : Bound pid now i q) : q.Succeeded i := by
  rcases hb with hw | hs
  · exact absurd (pending_iff.mpr ⟨_, _, hw⟩) (hf i)
  · exact hs

/-! ### One reader -/

/-- Request `i` has refunded the payment `p`, and no other request has passed the test. -/
structure Alone (pid : Id) (now : ι → Instant) (p : Payment) (i : ι)
    (q : Pool ι Db Error PaymentView) : Prop where
  payment : q.store.payments.find? pid = some (refundedAt (now i) p)
  winner : q.Succeeded i
  others : ∀ j, j ≠ i → q.requests j = refund pid (now j) ∨ q.requests j = rejected

lemma alone_step (j : ι) (h : Alone pid now p i q) : Alone pid now p i (q.step j) := by
  obtain ⟨view, hdone⟩ := h.winner
  by_cases hij : j = i
  · subst hij
    rwa [step_of_done hdone]
  rcases h.others j hij with hfresh | hrej
  · rw [step_read hfresh h.payment, if_neg (by simp [refundedAt])]
    refine ⟨h.payment, ⟨view, (Function.update_of_ne (Ne.symm hij) _ _).trans hdone⟩,
      fun k hk => ?_⟩
    by_cases hkj : k = j
    · subst hkj
      exact Or.inr (Function.update_self _ _ _)
    · have hk' := Function.update_of_ne hkj rejected q.requests
      exact (h.others k hk).imp hk'.trans hk'.trans
  · rwa [step_of_done hrej]

/-- Exactly one request refunds the payment and leaves its own time in it; the others are
turned away. -/
def OneRefund (pid : Id) (now : ι → Instant) (p : Payment) (q : Pool ι Db Error PaymentView) :
    Prop :=
  ∃ i, q.Succeeded i ∧ (∀ j, j ≠ i → q.requests j = rejected) ∧
    q.store.payments.find? pid = some (refundedAt (now i) p)

omit [DecidableEq ι] in
lemma oneRefund_of_alone (hf : q.Finished) (h : Alone pid now p i q) : OneRefund pid now p q :=
  ⟨i, h.winner, fun j hj => (h.others j hj).resolve_left fun hfresh =>
    hf j (pending_iff.mpr ⟨_, _, hfresh⟩), h.payment⟩

lemma not_oneRefund_of_bound (hij : i ≠ j) (hi : q.Succeeded i) (hj : q.Succeeded j) :
    ¬ OneRefund pid now p q := by
  rintro ⟨k, -, hrej, -⟩
  have refuse {l : ι} (hl : q.Succeeded l) (hlk : l ≠ k) : False := by
    obtain ⟨view, hdone⟩ := hl
    rw [hrej l hlk] at hdone
    cases hdone
  by_cases hik : i = k
  · subst hik
    exact refuse hj hij.symm
  · exact refuse hi hik

/-! ### The first two calls decide -/

variable {db : Db}

/-- **The race.** Of requests that refund the same COMPLETED payment exactly one succeeds if and
only if the first request to read the payment also writes it before another one reads. -/
theorem oneRefund_iff (hp : db.payments.find? pid = some p) (hc : p.status = .completed)
    (is : List ι) (hf : (run step (refunds pid now db) is).Finished) :
    OneRefund pid now p (run step (refunds pid now db) is) ↔ ∃ i rest, is = i :: i :: rest := by
  have hinv : Inv pid now (refunds pid now db) := ⟨⟨p, hp⟩, fun _ => .unread⟩
  rcases is with _ | ⟨i, is⟩
  · -- without a turn nobody has an answer
    refine iff_of_false ?_ (by simp)
    rintro ⟨i, -⟩
    exact hf i (pending_iff.mpr ⟨_, _, rfl⟩)
  have hfirst : (refunds pid now db).step i =
      ⟨db, Function.update (refunds pid now db).requests i (writeRefund pid (now i))⟩ := by
    have := step_read (q := refunds pid now db) (i := i) rfl hp
    rwa [if_pos hc] at this
  -- the first turn is the look of some `i`, which finds the payment completed
  set q₁ := (refunds pid now db).step i with hq₁
  have hi : q₁.requests i = writeRefund pid (now i) := by
    rw [hfirst]
    exact Function.update_self _ _ _
  rcases is with _ | ⟨j, is⟩
  · exact absurd (pending_iff.mpr ⟨_, _, hi⟩) (hf i)
  have hstored : q₁.store.payments.find? pid = some p := by rw [hfirst]; exact hp
  have hothers (k : ι) (hk : k ≠ i) : q₁.requests k = refund pid (now k) := by
    rw [hfirst]; exact Function.update_of_ne hk _ _
  by_cases hij : j = i
  · -- `i` writes before anybody else looks
    subst hij
    refine iff_of_true ?_ ⟨j, is, rfl⟩
    obtain ⟨view, hsecond⟩ := step_write hi hstored
    have halone : Alone pid now p j (q₁.step j) := by
      rw [hsecond]
      exact ⟨Table.find?_put_self, ⟨view, Function.update_self _ _ _⟩,
        fun k hk => Or.inl ((Function.update_of_ne hk _ _).trans (hothers k hk))⟩
    have hlast : Alone pid now p j (run step (q₁.step j) is) :=
      run_of_step (fun _ k => alone_step k) halone
    exact oneRefund_of_alone hf hlast
  · refine iff_of_false ?_ ?_
    · -- two requests have found the payment completed, and both will write
      have hinv₁ : Inv pid now q₁ := inv_step i hinv
      have hinv₂ : Inv pid now (q₁.step j) := inv_step j hinv₁
      have hj : Bound pid now j (q₁.step j) := by
        rw [step_read (hothers j hij) hstored, if_pos hc]
        exact Or.inl (Function.update_self _ _ _)
      have hbi := succeeded_of_bound hf (bound_run is hinv₂ (bound_step j hinv₁ (Or.inl hi)))
      have hbj := succeeded_of_bound hf (bound_run is hinv₂ hj)
      exact not_oneRefund_of_bound (Ne.symm hij) hbi hbj
    · rintro ⟨k, rest, he⟩
      obtain ⟨rfl, he⟩ := List.cons.inj he
      exact hij (List.cons.inj he).1

/-- A payment that can be refunded. -/
def paid : Payment :=
  { transactionId := "sale", amount := 45, method := .card, status := .completed }

def till : Db := { payments := (∅ : Table Id Payment).put "card" paid }

/-- The clock readings of two requests. -/
def twice (late : Bool) : Instant := if late then 1000 else 0

theorem oneRefund_iff_till :
    OneRefund "card" twice paid (run step (refunds "card" twice till) [false, false, true]) ↔
      ∃ i rest, [false, false, true] = i :: i :: rest :=
  oneRefund_iff (by decide +kernel) rfl [false, false, true] (by decide +kernel)

/-- Both requests read, then both write. -/
theorem refunded_twice :
    till.payments.find? "card" = some paid ∧ paid.status = .completed ∧
    (run step (refunds "card" twice till) [false, true, false, true]).Finished ∧
    ¬ OneRefund "card" twice paid
      (run step (refunds "card" twice till) [false, true, false, true]) := by
  refine ⟨by decide +kernel, rfl, by decide +kernel,
    not_oneRefund_of_bound (i := false) (j := true) (by decide) ?_ ?_⟩
  · exact ⟨_, rfl⟩
  · exact ⟨_, rfl⟩

end CoffeeOs.RefundRace

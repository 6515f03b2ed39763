import CoffeeOs.LookThenStore
import CoffeeOs.Orders
import CoffeeOs.Payments
import CoffeeOs.Shifts

/-!
Moves of rows that several requests make at the same time.

A refund, the closing of a shift and the moves of an order read the row, test its status and write
the next status in a second call, which does not test it again. So a move that is meant to be made
once is made by every request that reads the row before the first of them has written it.
-/

namespace CoffeeOs.MoveRace

open CoffeeOs.Interleaving CoffeeOs.KeyedTable CoffeeOs.LookThenStore CoffeeOs.Requests
open CoffeeOs.Requests.Request CoffeeOs.Runs CoffeeOs.Schema

variable {ι : Type}

/-! ### Rows that leave a status -/

section Rules

variable {ρ α : Type} (d : Delegate ρ) (source : ρ → Prop) (ids : ι → Id)

/-- The row is stored, in a status the move starts from. -/
def Ready (db : Db) (id : Id) : Prop := ∃ row, (d.get db).find? id = some row ∧ source row

/-- Each request moves a row out of the status, if it is stored. -/
def moveRules : Rules ι Id Db where
  key := ids
  taken id db := ¬ Ready d source db id
  live i db := ((d.get db).find? (ids i)).isSome
  effect i w := ∀ db, ((d.get db).find? (ids i)).isSome →
    ∃ row, ¬ source row ∧ d.get (w db) = (d.get db).put (ids i) row
  marks i w db hw hlive id := by
    obtain ⟨row, hrow, hput⟩ := hw db hlive
    unfold Ready
    rw [hput]
    by_cases hid : ids i = id
    · subst hid
      refine iff_of_true ?_ (Or.inr rfl)
      rintro ⟨row', hrow', hsource⟩
      rw [Table.find?_put_self] at hrow'
      exact hrow (Option.some.inj hrow' ▸ hsource)
    · rw [Table.find?_put_ne (Ne.symm hid), or_iff_left hid]
  others i w db hw hlive j _ hj := by
    obtain ⟨row, -, hput⟩ := hw db hlive
    rw [hput]
    exact Table.isSome_find?_put.mpr (Or.inr hj)

variable {d source ids} {i : ι} {view : ρ → Db → α}

lemma due_update (hset : ∀ t db, d.get (d.set t db) = t) {f : ρ → ρ}
    (hf : ∀ row, ¬ source (f row)) :
    Due (moveRules d source ids) i 0 (d.update (ids i) (fun row => some (f row)) view) := by
  refine .store (fun db hlive => ?_) fun db (hlive : ((d.get db).find? (ids i)).isSome) => ?_ <;>
    obtain ⟨row, hrow⟩ := Option.isSome_iff_exists.mp hlive
  · refine ⟨f row, hf row, ?_⟩
    dsimp only
    rw [hrow]
    exact hset _ _
  · refine ⟨view (f row) (d.set ((d.get db).put (ids i) (f row)) db), ?_⟩
    dsimp only
    rw [hrow]
    rfl

/-- Reading the row, and going on if it is in the status. -/
lemma entry_found {e : Error} {rest : ρ → Api α}
    (hrefuses : ∀ row, ¬ source row → ∃ e, rest row = .done (.error e))
    (hrest : ∀ row, source row → Due (moveRules d source ids) i 0 (rest row)) :
    Entry (moveRules d source ids) i 0
      ((d.findUnique (ids i) >>= fun found => orThrow e found) >>= rest) := by
  have hread : ((d.findUnique (ids i) >>= fun found => orThrow e found) >>= rest) =
      .call id fun db => orThrow e ((d.get db).find? (ids i)) >>= rest := rfl
  rw [hread]
  refine .mk (fun db htaken => ?_) fun db hfree => ?_
  · rcases hrow : (d.get db).find? (ids i) with _ | row
    · exact ⟨e, orThrow_none_bind _⟩
    · obtain ⟨e, he⟩ := hrefuses row fun hsource => htaken ⟨row, hrow, hsource⟩
      exact ⟨e, (orThrow_some_bind row rest).trans he⟩
  · obtain ⟨row, hrow, hsource⟩ : Ready d source db (ids i) := not_not.mp hfree
    rw [hrow]
    exact hrest row hsource

end Rules

/-! ### The moves -/

inductive Move
  | refund | close | startOrder | markReady | markServed | cancelOrder
  deriving DecidableEq

namespace Move

def Row : Move → Type
  | refund => Payment
  | close => Shift
  | startOrder | markReady | markServed | cancelOrder => Order

/-- What comes with a request: the clock reading it stores, and the payload of a closing. -/
def Data : Move → Type
  | close => Shifts.CloseShiftDto × Instant
  | refund | startOrder | markReady | markServed | cancelOrder => Instant

def View : Move → Type
  | refund => Payments.PaymentView
  | close => Shifts.ShiftView
  | startOrder | markReady | markServed | cancelOrder => Orders.OrderView

def delegate : (move : Move) → Delegate move.Row
  | refund => payment
  | close => shift
  | startOrder | markReady | markServed | cancelOrder => order

/-- The status the move starts from. -/
def Source : (move : Move) → move.Row → Prop
  | refund => fun row => row.status = .completed
  | close => fun row => row.status ≠ .closed
  | startOrder => fun row => row.status = .pending
  | markReady => fun row => row.status = .inProgress
  | markServed => fun row => row.status = .ready
  | cancelOrder => fun row => row.status ≠ .served ∧ row.status ≠ .cancelled

def request : (move : Move) → Id → move.Data → Api move.View
  | refund => Payments.refund
  | close => fun id data => Shifts.close id data.1 data.2
  | startOrder => Orders.startOrder
  | markReady => Orders.markReady
  | markServed => Orders.markServed
  | cancelOrder => Orders.cancel

variable {ids : ι → Id} {i : ι}

lemma entry_advance {source : OrderStatus} {message : String} {f : Order → Order}
    (hf : ∀ row, (f row).status ≠ source) :
    Entry (moveRules order (fun row => row.status = source) ids) i 0
      (Orders.advance (ids i) source message f) :=
  entry_found (fun _ hrow => ⟨_, throwIf_bind_pos hrow _⟩) fun _ hrow => by
    rw [throwIf_bind_neg (not_not.mpr hrow)]
    exact due_update (fun _ _ => rfl) hf

lemma entry_request (move : Move) (data : move.Data) :
    Entry (moveRules move.delegate move.Source ids) i 0 (move.request (ids i) data) := by
  cases move with
  | refund =>
    refine entry_found (fun row (hrow : Payment.status row ≠ .completed) =>
      ⟨_, throwIf_bind_pos hrow _⟩) fun row (hrow : Payment.status row = .completed) => ?_
    rw [throwIf_bind_neg (not_not.mpr hrow)]
    exact due_update (fun _ _ => rfl) fun _ h => nomatch h
  | close =>
    refine entry_found (fun row (hrow : ¬ Shift.status row ≠ .closed) =>
      ⟨_, throwIf_bind_pos (not_not.mp hrow) _⟩) fun row (hrow : Shift.status row ≠ .closed) => ?_
    rw [throwIf_bind_neg hrow]
    exact due_update (fun _ _ => rfl) fun _ h => h rfl
  | startOrder => exact entry_advance fun row => by simp
  | markReady => exact entry_advance fun row => by simp
  | markServed => exact entry_advance fun row => by simp
  | cancelOrder =>
    refine entry_found (fun row hrow => ?_) fun row hrow => ?_
    · -- whichever of the two statuses it is, the request is refused
      by_cases hserved : row.status = .served
      · exact ⟨_, throwIf_bind_pos hserved _⟩
      · have hcancelled : row.status = .cancelled := by_contra fun hc => hrow ⟨hserved, hc⟩
        exact ⟨_, (throwIf_bind_neg hserved _).trans (throwIf_bind_pos hcancelled _)⟩
    · rw [throwIf_bind_neg hrow.1, throwIf_bind_neg hrow.2]
      exact due_update (fun _ _ => rfl) fun _ h => h.2 rfl

end Move

/-! ### The race -/

variable [DecidableEq ι]

/-- Requests for the same move, of any rows, none of them begun. -/
def moves (move : Move) (ids : ι → Id) (data : ι → move.Data) (db : Db) :
    Pool ι Db Error move.View :=
  ⟨db, fun i => move.request (ids i) (data i)⟩

/-- **Who makes the move.** However many requests move rows at the same time, and whatever the
order of their turns, a request has succeeded exactly if its row was stored in the status the move
starts from, it has had both its turns, and no request for the same row had had both of its own
before. -/
theorem moves_race_iff (move : Move) (ids : ι → Id) (data : ι → move.Data) (db : Db)
    (is : List ι) (i : ι) :
    (run Pool.step (moves move ids data db) is).Succeeded i ↔
      Ready move.delegate move.Source db (ids i) ∧ 2 ≤ is.count i ∧
        ∀ k, ids k = ids i → ¬ Before is i k 2 := by
  have hentries : Entries (moveRules move.delegate move.Source ids) (fun _ => True) 0
      (moves move ids data db).requests :=
    ⟨fun i _ => move.entry_request (data i), fun i hi => absurd trivial hi⟩
  have hlive : ∀ i, True → ¬¬ Ready move.delegate move.Source db (ids i) →
      ((move.delegate.get db).find? (ids i)).isSome := by
    intro i _ hready
    obtain ⟨row, hrow, -⟩ := not_not.mp hready
    rw [hrow]
    rfl
  rw [succeeded_iff (reached_run (reached_nil hentries hlive) is) trivial]
  show True ∧ 2 ≤ is.count i ∧ ¬ (¬ Ready move.delegate move.Source db (ids i) ∨
    ∃ k, True ∧ ids k = ids i ∧ Before is i k 2) ↔ _
  simp only [true_and, not_or, not_not, not_exists, not_and]
  exact and_left_comm

end CoffeeOs.MoveRace

import CoffeeOs.Interleaving
import CoffeeOs.OrderLife
import Mathlib.Data.List.Chain

/-!
Moves of one order that race each other.

Every move reads the order, tests its status, and writes in a second call that does not look at
the status again. The statuses written follow the state machine as long as each write finds a
status that its own test would still let through.
-/

namespace CoffeeOs.OrderRace

open CoffeeOs.KeyedTable CoffeeOs.OrderLife CoffeeOs.Requests CoffeeOs.Requests.Request
open CoffeeOs.Interleaving CoffeeOs.Interleaving.Pool CoffeeOs.Runs CoffeeOs.Schema
open CoffeeOs.Orders hiding step

inductive Kind | startOrder | markReady | markServed | cancel
  deriving DecidableEq

namespace Kind

def request (id : Id) (now : Instant) : Kind → Api OrderView
  | startOrder => Orders.startOrder id now
  | markReady => Orders.markReady id now
  | markServed => Orders.markServed id now
  | cancel => Orders.cancel id now

/-- The test of the status a request has read. -/
def Allows : Kind → OrderStatus → Prop
  | startOrder, status => status = .pending
  | markReady, status => status = .inProgress
  | markServed, status => status = .ready
  | cancel, status => status ≠ .served ∧ status ≠ .cancelled

/-- The row a request writes. -/
def write (now : Instant) (row : Order) : Kind → Order
  | startOrder => { row with status := .inProgress, startedAt := some now }
  | markReady => { row with status := .ready, readyAt := some now }
  | markServed => { row with status := .served, servedAt := some now }
  | cancel => { row with status := .cancelled, cancelledAt := some now }

/-- What is left of a request that has passed its test. -/
def writing (kind : Kind) (id : Id) (now : Instant) : Api OrderView :=
  order.update id (fun row => some (kind.write now row)) (viewOf id)

end Kind

/-- A request takes a status to the one it writes by a move of the state machine exactly if its
test lets that status through. -/
lemma transition_write_iff {kind : Kind} {now : Instant} {row row' : Order} :
    Transition row.status (kind.write now row').status ↔ kind.Allows row.status := by
  generalize row.status = status
  cases kind
  · exact ⟨fun h => by cases h; rfl, fun h => by rw [h]; exact .start⟩
  · exact ⟨fun h => by cases h; rfl, fun h => by rw [h]; exact .markReady⟩
  · exact ⟨fun h => by cases h; rfl, fun h => by rw [h]; exact .markServed⟩
  · refine ⟨fun h => ?_, fun h => .cancel (mem_open_of_ne h.1 h.2)⟩
    cases h with
    | cancel hopen => exact ⟨by rintro rfl; simp at hopen, by rintro rfl; simp at hopen⟩

variable {ι : Type} {id : Id} {kind : ι → Kind} {now : ι → Instant}

/-- Requests to move the same order, each with the clock reading it will store. -/
def race (id : Id) (kind : ι → Kind) (now : ι → Instant) (db : Db) : Pool ι Db Error OrderView :=
  ⟨db, fun i => (kind i).request id (now i)⟩

variable [DecidableEq ι]

/-- The statuses that the requests write that succeed, in the order of their writes. -/
def written (q : Pool ι Db Error OrderView) (is : List ι) : List OrderStatus :=
  (q.answers is).map fun view => view.row.status

/-- A request writes only while the stored status would still pass its test. -/
def StillAllowed (id : Id) (kind : ι → Kind) (now : ι → Instant)
    (q : Pool ι Db Error OrderView) (i : ι) : Prop :=
  q.requests i = (kind i).writing id (now i) →
    ∀ row, q.store.orders.find? id = some row → (kind i).Allows row.status

variable {q : Pool ι Db Error OrderView} {row : Order} {i : ι}

/-! ### The two calls of a request -/

/-- A request that has read a row goes on to its write, or is turned away. -/
lemma request_eq (kind : Kind) (id : Id) (n : Instant) : ∃ f : Order → Api OrderView,
    kind.request id n = findOrder id >>= f ∧ ∀ row,
      (kind.Allows row.status ∧ f row = kind.writing id n) ∨
      (¬ kind.Allows row.status ∧ ∃ e, f row = .done (.error e)) := by
  -- the three advances differ in the one status that they allow
  have hadvance {source : OrderStatus} {message : String} {rest : Api OrderView} (row : Order) :
      (row.status = source ∧
        (throwIf (row.status ≠ source) (.badRequest message) >>= fun _ => rest) = rest) ∨
      (¬ row.status = source ∧ ∃ e,
        (throwIf (row.status ≠ source) (.badRequest message) >>= fun _ => rest) =
          .done (.error e)) := by
    by_cases hs : row.status = source
    · exact Or.inl ⟨hs, throwIf_bind_neg (not_not.mpr hs) _⟩
    · exact Or.inr ⟨hs, _, throwIf_bind_pos hs _⟩
  cases kind with
  | startOrder => exact ⟨_, rfl, hadvance⟩
  | markReady => exact ⟨_, rfl, hadvance⟩
  | markServed => exact ⟨_, rfl, hadvance⟩
  | cancel =>
    refine ⟨_, rfl, fun row => ?_⟩
    -- a cancel checks twice, and throws another message each time
    by_cases hserved : row.status = .served
    · exact Or.inr ⟨fun h => h.1 hserved, _, throwIf_bind_pos hserved _⟩
    rw [throwIf_bind_neg hserved]
    by_cases hcancelled : row.status = .cancelled
    · exact Or.inr ⟨fun h => h.2 hcancelled, _, throwIf_bind_pos hcancelled _⟩
    · exact Or.inl ⟨⟨hserved, hcancelled⟩, throwIf_bind_neg hcancelled _⟩

lemma step_read (hi : q.requests i = (kind i).request id (now i))
    (hrow : q.store.orders.find? id = some row) :
    q.step i = ⟨q.store, Function.update q.requests i ((kind i).writing id (now i))⟩ ∨
    ∃ e, q.step i = ⟨q.store, Function.update q.requests i (.done (.error e))⟩ := by
  obtain ⟨f, hf, hrest⟩ := request_eq (kind i) id (now i)
  have hread : q.step i = ⟨q.store, Function.update q.requests i (f row)⟩ := by
    have hlook : q.requests i = .look (fun db => db.orders.find? id) >>= fun found =>
      orThrow (.notFound s!"Order with ID {id} not found") found >>= f := hi.trans hf
    rw [step_look_bind hlook, hrow]
    rfl
  rcases hrest row with ⟨-, hw⟩ | ⟨-, e, he⟩
  · exact Or.inl (hw ▸ hread)
  · exact Or.inr ⟨e, he ▸ hread⟩

lemma step_write (hi : q.requests i = (kind i).writing id (now i))
    (hrow : q.store.orders.find? id = some row) :
    ∃ view, view.row = (kind i).write (now i) row ∧ q.step i =
      ⟨{ q.store with orders := q.store.orders.put id ((kind i).write (now i) row) },
        Function.update q.requests i (.done (.ok view))⟩ := by
  refine ⟨viewOf id ((kind i).write (now i) row)
    { q.store with orders := q.store.orders.put id ((kind i).write (now i) row) }, rfl,
    step_atomically_ok hi ?_⟩
  rw [order, hrow]

/-- A request that has read its row is no longer at its first call, which writes nothing. -/
lemma request_ne_writing (kind : Kind) (id : Id) (n : Instant) :
    kind.request id n ≠ kind.writing id n := by
  intro h
  obtain ⟨f, hf, -⟩ := request_eq kind id n
  set fresh : Order := { type := .dineIn, status := .pending, orderNumber := "", createdAt := 0 }
  set db : Db := { orders := (∅ : Table Id Order).put id fresh }
  have hfresh : db.orders.find? id = some fresh := Table.find?_put_self
  have hwrites : (Kind.write n fresh kind).status ≠ fresh.status := by
    cases kind <;> simp [Kind.write, fresh]
  have hcall : findOrder id >>= f = order.update id (fun row => some (kind.write n row))
      (viewOf id) := hf.symm.trans h
  have hsame := congrFun (call.inj hcall).1 db
  dsimp only at hsame
  rw [order, hfresh] at hsame
  have hrow : some (kind.write n fresh) = some fresh :=
    Table.find?_put_self.symm.trans ((congrArg (fun db => db.orders.find? id) hsame).symm.trans
      hfresh)
  exact hwrites (congrArg Order.status (Option.some.inj hrow))

/-! ### Every request of the pool, at any time -/

/-- How far a request has come. -/
inductive Stage (kind : Kind) (id : Id) (n : Instant) : Api OrderView → Prop
  | unread : Stage kind id n (kind.request id n)
  | writing : Stage kind id n (kind.writing id n)
  | answered (r : Except Error OrderView) : Stage kind id n (.done r)

lemma stage_update {r : Api OrderView} (h : ∀ i, Stage (kind i) id (now i) (q.requests i))
    (hr : Stage (kind i) id (now i) r) (j : ι) :
    Stage (kind j) id (now j) (Function.update q.requests i r j) :=
  (Function.forall_update_iff q.requests fun j r => Stage (kind j) id (now j) r).mpr
    ⟨hr, fun j _ => h j⟩ j

/-- A turn writes nothing, or writes the row of a request that has passed its test. -/
lemma step_cases (hrow : q.store.orders.find? id = some row)
    (hall : ∀ i, Stage (kind i) id (now i) (q.requests i)) (i : ι) :
    (∀ j, Stage (kind j) id (now j) ((q.step i).requests j)) ∧
    ((q.requests i ≠ (kind i).writing id (now i) ∧ q.answered i = [] ∧
        (q.step i).store = q.store) ∨
      (q.requests i = (kind i).writing id (now i) ∧
        (∃ view, view.row = (kind i).write (now i) row ∧ q.answered i = [view]) ∧
        (q.step i).store.orders.find? id = some ((kind i).write (now i) row))) := by
  have hi : Stage (kind i) id (now i) (q.requests i) := hall i
  generalize hreq : q.requests i = r at hi
  cases hi with
  | unread =>
    have hne := request_ne_writing (kind i) id (now i)
    rcases step_read hreq hrow with hstep | ⟨e, hstep⟩
    · refine ⟨?_, Or.inl ⟨hne, answered_of_call hstep, ?_⟩⟩
      · rw [hstep]; exact stage_update hall .writing
      · rw [hstep]
    · refine ⟨?_, Or.inl ⟨hne, answered_of_error hstep, ?_⟩⟩
      · rw [hstep]; exact stage_update hall (.answered _)
      · rw [hstep]
  | writing =>
    -- the write, whatever the status has become since the read
    obtain ⟨view, hview, hstep⟩ := step_write hreq hrow
    refine ⟨?_, Or.inr ⟨rfl, ⟨view, hview, answered_of_ok ?_ hstep⟩, ?_⟩⟩
    · rw [hstep]; exact stage_update hall (.answered _)
    · exact pending_iff.mpr ⟨_, _, hreq⟩
    · rw [hstep]; exact Table.find?_put_self
  | answered r =>
    rw [step_of_done hreq]
    exact ⟨hall, Or.inl ⟨by rintro ⟨⟩, answered_of_done hreq, rfl⟩⟩

/-! ### The statuses written -/

lemma written_cons_of_nil {is : List ι} (h : q.answered i = []) :
    written q (i :: is) = written (q.step i) is := by
  rw [written, answers, h, List.nil_append]
  rfl

lemma written_cons_of_view {is : List ι} {view : OrderView} (h : q.answered i = [view]) :
    written q (i :: is) = view.row.status :: written (q.step i) is := by
  rw [written, answers, h]
  rfl

/-- How far along the line a status is. -/
def rank : OrderStatus → ℕ
  | .pending => 0
  | .inProgress => 1
  | .ready => 2
  | .served => 3
  | .cancelled => 3

lemma not_final_of_transition {s t : OrderStatus} (h : Transition s t) :
    s ∉ [OrderStatus.served, .cancelled] := by
  cases h with
  | cancel hopen => rcases s with _ | _ | _ | _ | _ <;> first | decide | simp at hopen
  | _ => decide

lemma rank_lt_of_transition {s t : OrderStatus} (h : Transition s t) : rank s < rank t := by
  cases h with
  | cancel hopen =>
    rcases s with _ | _ | _ | _ | _ <;> first | decide | simp at hopen
  | _ => decide

/-- On a path no status comes twice, and none comes after SERVED or CANCELLED. -/
theorem path_once {path : List OrderStatus} (h : path.IsChain Transition) : path.Nodup ∧
    ∀ pre status post, path = pre ++ status :: post → status ∈ [.served, .cancelled] →
      post = [] := by
  have hranks : path.IsChain fun s t => rank s < rank t := h.imp fun _ _ => rank_lt_of_transition
  have hpairs : path.Pairwise fun s t => rank s < rank t := hranks.pairwise
  refine ⟨hpairs.imp fun hlt heq => ?_, ?_⟩
  · rw [heq] at hlt
    exact lt_irrefl _ hlt
  · rintro pre status post rfl hfinal
    have hrest : (status :: post).IsChain Transition := h.right_of_append
    cases hrest with
    | singleton => rfl
    | cons_cons hmove => exact absurd hfinal (not_final_of_transition hmove)

lemma isChain_written_iff (hrow : q.store.orders.find? id = some row)
    (hall : ∀ i, Stage (kind i) id (now i) (q.requests i)) (is : List ι) :
    List.IsChain Transition (row.status :: written q is) ↔
      Along step (StillAllowed id kind now) q is := by
  induction is generalizing q row with
  | nil => exact iff_of_true (.singleton _) trivial
  | cons i is ih =>
    rw [along_cons]
    obtain ⟨hall', ⟨hne, hnone, hstore⟩ | ⟨hwriting, ⟨view, hview, hgiven⟩, hrow'⟩⟩ :=
      step_cases hrow hall i
    · have hallowed : StillAllowed id kind now q i := fun h => absurd h hne
      rw [written_cons_of_nil hnone, ih (hstore ▸ hrow) hall']
      exact (and_iff_right hallowed).symm
    · have hallowed : StillAllowed id kind now q i ↔ (kind i).Allows row.status := by
        refine ⟨fun h => h hwriting row hrow, fun h _ r hr => ?_⟩
        rwa [Option.some.inj (hr.symm.trans hrow)]
      rw [written_cons_of_view hgiven, hview, List.isChain_cons_cons, ih hrow' hall', hallowed,
        transition_write_iff]

/-- **The race.** The statuses written by the requests that succeed are a path of the state
machine from the status the order had exactly if every request writes while the stored status
would still pass its test. -/
theorem written_path_iff {db : Db} (hrow : db.orders.find? id = some row) (is : List ι) :
    List.IsChain Transition (row.status :: written (race id kind now db) is) ↔
      Along step (StillAllowed id kind now) (race id kind now db) is :=
  isChain_written_iff hrow (fun _ => .unread) is

/-- An order that waits to be started, and two requests to start it. -/
def waiting : Order :=
  { type := .dineIn, status := .pending, orderNumber := "ORD-19700101-0001", createdAt := 0 }

def kitchen : Db := { orders := (∅ : Table Id Order).put "a" waiting }

def starts : Bool → Kind := fun _ => .startOrder

theorem written_path_iff_kitchen :
    kitchen.orders.find? "a" = some waiting ∧
    (List.IsChain Transition
        (waiting.status :: written (race "a" starts (fun _ => 0) kitchen) [true, true, false]) ↔
      Along step (StillAllowed "a" starts fun _ => 0) (race "a" starts (fun _ => 0) kitchen)
        [true, true, false]) := by
  have hrow : kitchen.orders.find? "a" = some waiting := by decide +kernel
  exact ⟨hrow, written_path_iff hrow _⟩

/-- Both requests read, then both start the order. -/
theorem started_twice :
    written (race "a" starts (fun _ => 0) kitchen) [true, false, true, false] =
      [.inProgress, .inProgress] ∧
    ¬ List.IsChain Transition (waiting.status ::
      written (race "a" starts (fun _ => 0) kitchen) [true, false, true, false]) := by
  have hwritten : written (race "a" starts (fun _ => 0) kitchen) [true, false, true, false] =
      [.inProgress, .inProgress] := by decide +kernel
  refine ⟨hwritten, fun h => ?_⟩
  rw [hwritten, List.isChain_cons_cons, List.isChain_cons_cons] at h
  cases h.2.1

end CoffeeOs.OrderRace

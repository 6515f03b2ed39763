import CoffeeOs.Requests
import Mathlib.Data.Nat.Notation

/-!
Requests that lose a call.

A lost call has no effect, and the request is answered by an error. What a request leaves behind
when it throws, be it by itself or because a call is lost, is found by following it from call to
call: the call of each number may be lost in the store that the calls before it have made.
-/

namespace CoffeeOs.Faults

open CoffeeOs.Requests CoffeeOs.Requests.Request

variable {σ ε α β : Type}

/-- The request on a store that comes with the number of calls that go through before one is
lost, if one is. -/
def losing (lost : ε) : Request σ ε α → Request (σ × Option ℕ) ε α
  | .done r => .done r
  | .call w k => .call
      (fun t => match t.2 with
        | some 0 => (t.1, none)
        | some (n + 1) => (w t.1, some n)
        | none => (w t.1, none))
      fun t => match t.2 with
        | some 0 => .done (.error lost)
        | some (_ + 1) => losing lost (k t.1)
        | none => losing lost (k t.1)

/-- None of the first `n` calls is lost. -/
def Spares (n : ℕ) (fuse : Option ℕ) : Prop := ∀ m ∈ fuse, n ≤ m

instance (n : ℕ) (fuse : Option ℕ) : Decidable (Spares n fuse) :=
  inferInstanceAs (Decidable (∀ m ∈ fuse, n ≤ m))

/-- The number of calls that the request makes if none is lost. -/
def calls : Request σ ε α → σ → ℕ
  | .done _, _ => 0
  | .call w k, s => calls (k s) (w s) + 1

variable {R : Option ℕ → σ → Prop} {lost e : ε} {p : Request σ ε α} {f : α → Request σ ε β}
  {s : σ} {n : ℕ} {fuse : Option ℕ}

end CoffeeOs.Faults

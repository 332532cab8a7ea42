import Bookit.Payments.System

/-!
# Payments.Idempotency — one request row and one event for an idempotency key

Requests of one user under one key may be repeated and may race; the unique index lets one insertion
through, the outbox row is committed with it, and every other request meets the row, in the early
lookup or after the conflict.
-/

namespace Bookit
namespace Payments

open Lib

/-- The rows under a user's idempotency key. -/
def requestsOf (s : Postgres) (userId : ℤ) (idempotencyKey : String) : List RequestRow :=
  s.requests.filter fun r => decide (r.userId = userId ∧ r.idempotencyKey = idempotencyKey)

/-- The `payment.requested` events of these rows. -/
def eventsOf (s : Postgres) (userId : ℤ) (idempotencyKey : String) : List CheckoutMessage :=
  s.checkouts.filter fun m =>
    decide (m.paymentRequestId ∈ (requestsOf s userId idempotencyKey).map (·.id))

/-- A list whose members are pairwise apart, and no two of them are, has at most one member. -/
theorem length_le_one {α : Type} {R : α → α → Prop} {l : List α} (h : l.Pairwise R)
    (hno : ∀ a ∈ l, ∀ b ∈ l, ¬ R a b) : l.length ≤ 1 := by
  match l with
  | [] => exact Nat.zero_le 1
  | [_] => exact Nat.le_refl 1
  | a :: b :: rest =>
      have hab : R a b := (List.pairwise_cons.1 h).1 b List.mem_cons_self
      exact absurd hab (hno a List.mem_cons_self b (List.mem_cons_of_mem a List.mem_cons_self))

section Unique

variable {s : Postgres} {userId : ℤ} {key : String}

theorem mem_requestsOf {r : RequestRow} :
    r ∈ requestsOf s userId key ↔ r ∈ s.requests ∧ r.userId = userId ∧ r.idempotencyKey = key := by
  simp [requestsOf]

theorem Base.requestsOf_length (hs : Base s) : (requestsOf s userId key).length ≤ 1 := by
  refine length_le_one (hs.rows.sublist List.filter_sublist) fun r hr r' hr' h => ?_
  obtain ⟨-, huser, hkey⟩ := mem_requestsOf.1 hr
  obtain ⟨-, huser', hkey'⟩ := mem_requestsOf.1 hr'
  simp [Postgres.conflicts, huser, huser', hkey, hkey'] at h

/-- The row under a key is the only one. -/
theorem Base.requestsOf_eq (hs : Base s) {r : RequestRow} (hr : r ∈ requestsOf s userId key) :
    requestsOf s userId key = [r] := by
  have hlen : (requestsOf s userId key).length ≤ 1 := hs.requestsOf_length
  match h : requestsOf s userId key with
  | [] => exact absurd (h ▸ hr) List.not_mem_nil
  | [r'] =>
      rw [h, List.mem_singleton] at hr
      rw [hr]
  | _ :: _ :: _ =>
      rw [h] at hlen
      simp at hlen

theorem Base.eventsOf_length (hs : Base s) : (eventsOf s userId key).length ≤ 1 := by
  have hids : s.checkouts.Pairwise fun m m' => m.paymentRequestId ≠ m'.paymentRequestId :=
    List.pairwise_map.1 hs.events
  refine length_le_one (hids.sublist List.filter_sublist) fun m hm m' hm' hne => hne ?_
  -- both events are for the one row under the key
  obtain ⟨r, hr, hid⟩ := List.mem_map.1 (of_decide_eq_true (List.mem_filter.1 hm).2)
  obtain ⟨r', hr', hid'⟩ := List.mem_map.1 (of_decide_eq_true (List.mem_filter.1 hm').2)
  rw [hs.requestsOf_eq hr, List.mem_singleton] at hr'
  rw [← hid, ← hid', hr']

end Unique

/-- The response of a finished request. -/
def responseOf (p : Pool World Rep Task Result) (i : ℕ) :
    Option (Except AppError PaymentAccepted) :=
  match p.threads[i]? with
  | some ⟨_, some (.ret (.response r))⟩ => some r
  | _ => none

def oneSeatRequest : PaymentRequest := ⟨1, [1], "key", none, none, none⟩

end Payments
end Bookit

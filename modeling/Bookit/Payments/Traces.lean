import Bookit.Payments.System

/-!
# Payments.Traces — where rows come from

The request rows, events and orders after a statement are those before it, or the statement's own;
seats keep their prices.
-/

namespace Bookit
namespace Payments

open Lib

/-! ## Where the rows of a statement come from -/

/-- A seat without its status. -/
def SeatRow.offer (r : SeatRow) : ℤ × ℤ × ℚ := (r.id, r.scheduleId, r.price)

/-- What an order keeps for good. -/
def OrderRow.paid (o : OrderRow) : ℕ × Option String := (o.paymentRequestId, o.razorpayPaymentId)

/-- The rows after a statement are those before it, rows of open transactions, or the statement's
own. -/
structure Traces (c : Cmd) (s t : Postgres) : Prop where
  offers : t.seats.map SeatRow.offer = s.seats.map SeatRow.offer
  openRow : ∀ x ∈ t.open_, (∃ y ∈ s.open_, y.2.row = x.2.row) ∨ c = .insertRequest x.2.row
  openEvent : ∀ x ∈ t.open_, ∀ m, x.2.event = some m →
    (∃ y ∈ s.open_, y.2.event = some m) ∨ c = .insertRequested m
  rows : ∀ r ∈ t.requests, (∃ q ∈ s.requests, SameRow q r) ∨ ∃ x ∈ s.open_, x.2.row = r
  events : ∀ m ∈ t.checkouts, m ∈ s.checkouts ∨ ∃ x ∈ s.open_, x.2.event = some m
  kept : ∀ m ∈ s.checkouts, m ∈ t.checkouts
  orders : t.orders.map OrderRow.paid = s.orders.map OrderRow.paid ∨
    ∃ k, c = .commitCheckout k ∧ s.orderRefused k = false ∧
      t.orders.map OrderRow.paid =
        s.orders.map OrderRow.paid ++ [(k.paymentRequestId, k.razorpayPaymentId)]

section Traces

variable {c : Cmd} {s t : Postgres} {i : ℕ} {l : Link}

/-- A statement that changes no row but statuses, and keeps a part of the open transactions. -/
theorem Traces.update {g : RequestRow → RequestRow} (hg : ∀ r, SameRow r (g r))
    (hoffers : t.seats.map SeatRow.offer = s.seats.map SeatRow.offer)
    (hopen : ∀ x ∈ t.open_, x ∈ s.open_) (hrequests : t.requests = s.requests.map g)
    (hevents : t.checkouts = s.checkouts)
    (horders : t.orders.map OrderRow.paid = s.orders.map OrderRow.paid) : Traces c s t := by
  refine ⟨hoffers, fun x hx => .inl ⟨x, hopen x hx, rfl⟩, fun x hx m hm => .inl ⟨x, hopen x hx, hm⟩,
    fun r hr => ?_, fun m hm => .inl (hevents ▸ hm), fun m hm => hevents ▸ hm, .inl horders⟩
  rw [hrequests] at hr
  obtain ⟨q, hq, rfl⟩ := List.mem_map.1 hr
  exact .inl ⟨q, hq, hg q⟩

theorem Traces.refl (c : Cmd) (s : Postgres) : Traces c s s :=
  .update (g := id) (fun r => .refl r) rfl (fun _ hx => hx) (List.map_id _).symm rfl rfl

theorem Traces.rollback (c : Cmd) (s : Postgres) (i : ℕ) : Traces c s (s.rollback i) :=
  .update (g := id) (fun r => .refl r) rfl (fun _ hx => (others_sublist s i).subset hx)
    (List.map_id _).symm rfl rfl

theorem Traces.updateRequests (c : Cmd) {p : RequestRow → Bool} {f : RequestRow → RequestRow}
    (hf : ∀ r, SameRow r (f r)) :
    Traces c s { s with requests := Table.updateWhere p f s.requests } := by
  refine .update (g := fun r => if p r then f r else r) (fun r => ?_) rfl (fun _ hx => hx) rfl rfl rfl
  split_ifs
  · exact hf r
  · exact .refl r

theorem offer_setSeats (s : Postgres) (seatIds : List ℤ) (status : SeatStatus) :
    (s.setSeats seatIds status).map SeatRow.offer = s.seats.map SeatRow.offer :=
  Table.map_updateWhere fun _ => rfl

theorem Traces.insertRequest {row : RequestRow} {r : Option ℕ}
    (h : s.insertRequest i row = some (t, r)) : Traces (.insertRequest row) s t := by
  rcases insertRequest_cases h with ⟨rfl, -⟩ | ⟨rfl, -⟩
  · exact .refl _ _
  have hmem : ∀ x ∈ s.others i ++ [(i, Txn.mk row none)],
      x ∈ s.open_ ∨ x = (i, Txn.mk row none) := by
    intro x hx
    rcases List.mem_append.1 hx with hx | hx
    · exact .inl (mem_others.1 hx).1
    · exact .inr (List.mem_singleton.1 hx)
  refine ⟨rfl, fun x hx => ?_, fun x hx m hm => ?_, fun r hr => .inl ⟨r, hr, .refl r⟩,
    fun m hm => .inl hm, fun m hm => hm, .inl rfl⟩
  · rcases hmem x hx with hx | rfl
    · exact .inl ⟨x, hx, rfl⟩
    · exact .inr rfl
  · rcases hmem x hx with hx | rfl
    · exact .inl ⟨x, hx, hm⟩
    · cases hm

theorem Traces.insertRequested (s : Postgres) (i : ℕ) (message : CheckoutMessage) :
    Traces (.insertRequested message) s (s.insertRequested i message) := by
  refine ⟨rfl, fun x hx => ?_, fun x hx m hm => ?_, fun r hr => .inl ⟨r, hr, .refl r⟩,
    fun m hm => .inl hm, fun m hm => hm, .inl rfl⟩
  · obtain ⟨y, hy, rfl⟩ := List.mem_map.1 hx
    exact .inl ⟨y, hy, (setEvent_row i message y).symm⟩
  · obtain ⟨y, hy, rfl⟩ := List.mem_map.1 hx
    unfold Postgres.setEvent at hm
    split_ifs at hm
    · obtain rfl := Option.some.inj hm
      exact .inr rfl
    · exact .inl ⟨y, hy, hm⟩

theorem Traces.commit (s : Postgres) (i : ℕ) : Traces .commit s (s.commit i) := by
  unfold Postgres.commit
  cases htxn : s.txnOf i with
  | none => exact .refl _ s
  | some txn =>
      have hopen : (i, txn) ∈ s.open_ := txnOf_eq_some htxn
      have hevents : ({ s with
          requests := s.requests ++ [txn.row]
          outbox := s.outbox ++ (txn.event.map OutboxRow.paymentRequested).toList
          open_ := s.others i } : Postgres).checkouts = s.checkouts ++ txn.event.toList := by
        simp only [Postgres.checkouts, List.filterMap_append]
        cases txn.event <;> rfl
      refine ⟨rfl, fun x hx => .inl ⟨x, (others_sublist s i).subset hx, rfl⟩,
        fun x hx m hm => .inl ⟨x, (others_sublist s i).subset hx, hm⟩, fun r hr => ?_,
        fun m hm => ?_, fun m hm => ?_, .inl rfl⟩
      · rcases List.mem_append.1 hr with hr | hr
        · exact .inl ⟨r, hr, .refl r⟩
        · exact .inr ⟨_, hopen, (List.mem_singleton.1 hr).symm⟩
      · rw [hevents] at hm
        rcases List.mem_append.1 hm with hm | hm
        · exact .inl hm
        · exact .inr ⟨_, hopen, Option.mem_toList.1 hm⟩
      · rw [hevents]
        exact List.mem_append_left _ hm

theorem Traces.commitCheckout (s : Postgres) (k : CheckoutCommit) :
    Traces (.commitCheckout k) s (s.commitCheckout k).1 := by
  rcases commitCheckout_cases s k with heq | ⟨hrefused, heq⟩
  · rw [heq]
    exact .refl _ s
  rw [heq]
  refine ⟨offer_setSeats s _ _, fun x hx => .inl ⟨x, hx, rfl⟩, fun x hx m hm => .inl ⟨x, hx, hm⟩,
    fun r hr => ?_, fun m hm => .inl ?_, fun m hm => ?_, .inr ⟨k, rfl, hrefused, ?_⟩⟩
  · rcases Table.mem_updateWhere_cases hr with ⟨hr, -⟩ | ⟨q, hq, -, rfl⟩
    · exact .inl ⟨r, hr, .refl r⟩
    · exact .inl ⟨q, hq, rfl, rfl, rfl, rfl, rfl⟩
  · simpa [Postgres.checkouts, OutboxRow.checkout] using hm
  · simpa [Postgres.checkouts, OutboxRow.checkout] using hm
  · rw [List.map_append]
    rfl

theorem Traces.commitCancellation (s : Postgres) (k : CancellationCommit) :
    Traces (.commitCancellation k) s (s.commitCancellation k).1 := by
  refine .update (g := id) (fun r => .refl r) (offer_setSeats s _ _) (fun _ hx => hx)
    (List.map_id _).symm ?_ (Table.map_updateWhere fun _ => rfl)
  simp [Postgres.commitCancellation, Postgres.checkouts, OutboxRow.checkout]

theorem Traces.startCancellation (s : Postgres) (id : ℕ) (message : CancellationMessage) :
    Traces (.startCancellation id message) s (s.startCancellation id message) := by
  unfold Postgres.startCancellation
  split_ifs
  · refine .update (g := fun r => r) (fun r => .refl r) rfl (fun _ hx => hx)
      (List.map_id _).symm ?_ (Table.map_updateWhere fun _ => rfl)
    simp [Postgres.checkouts, OutboxRow.checkout]
  · exact .refl _ s

/-- Every command of the payment path leaves rows that can be traced. -/
theorem traces_exec {c : Cmd} {s t : World} {r : Rep c} (h : exec i l c s = some (t, r)) :
    Traces c s.pg t.pg := by
  cases c with
  | redis c =>
      obtain ⟨rfl, -⟩ := Prod.mk.inj (Option.some.inj h)
      exact .refl _ _
  | connect | findRequest | loadSeats | orderExists | findOrder | bookedCount | activeTicketCount =>
      obtain rfl : _ = t := congrArg Prod.fst (Option.some.inj h)
      rw [query_fst]
      exact .refl _ _
  | insertRequest row =>
      simp only [exec] at h
      split at h
      · obtain ⟨rfl, -⟩ := Prod.mk.inj (Option.some.inj h)
        exact .refl _ _
      · split at h
        · cases h
        · next hins =>
          obtain ⟨rfl, -⟩ := Prod.mk.inj (Option.some.inj h)
          exact .insertRequest hins
  | insertRequested message =>
      rcases Link.deliver_cases (Option.some.inj h) with ⟨rfl, -⟩ | ⟨rfl, -⟩
      · exact .refl _ _
      · exact .insertRequested s.pg i message
  | commit =>
      cases l with
      | ok | unacked =>
          obtain ⟨rfl, -⟩ := Prod.mk.inj (Option.some.inj h)
          exact .commit s.pg i
      | lost =>
          obtain ⟨rfl, -⟩ := Prod.mk.inj (Option.some.inj h)
          exact .rollback _ s.pg i
  | rollback =>
      obtain ⟨rfl, -⟩ := Prod.mk.inj (Option.some.inj h)
      exact .rollback _ s.pg i
  | failRequest id reason =>
      rcases Link.deliver_cases (Option.some.inj h) with ⟨rfl, -⟩ | ⟨rfl, -⟩
      · exact .refl _ _
      · exact .updateRequests _ fun _ => ⟨rfl, rfl, rfl, rfl, rfl⟩
  | commitCheckout k =>
      obtain rfl : (World.onPg l (Postgres.commitCheckout k) s).1 = t :=
        congrArg Prod.fst (Option.some.inj h)
      cases l with
      | lost => exact .refl _ _
      | ok | unacked => exact .commitCheckout s.pg k
  | commitCancellation k =>
      rcases Link.deliver_cases (Option.some.inj h) with ⟨rfl, -⟩ | ⟨rfl, -⟩
      · exact .refl _ _
      · exact .commitCancellation s.pg k
  | startCancellation id message =>
      rcases Link.deliver_cases (Option.some.inj h) with ⟨rfl, -⟩ | ⟨rfl, -⟩
      · exact .refl _ _
      · exact .startCancellation s.pg id message
  | refund paymentId paise =>
      rcases Link.deliver_cases (Option.some.inj h) with ⟨rfl, -⟩ | ⟨rfl, -⟩
      · exact .refl _ _
      · exact .refl _ _

/-- So do the steps of the environment. -/
theorem traces_environ {x : Environ} {s t : World} {new : List (Task × Service Result)}
    (h : environ x s = some (t, new)) : Traces .connect s.pg t.pg := by
  cases x with
  | tick d =>
      obtain ⟨rfl, -⟩ := Prod.mk.inj (Option.some.inj h)
      exact .refl _ _
  | request provider userId request paymentRequestId =>
      obtain ⟨rfl, -⟩ := Prod.mk.inj (Option.some.inj h)
      exact .refl _ _
  | deliver n orderId =>
      simp only [environ] at h
      split at h
      · obtain ⟨rfl, -⟩ := Prod.mk.inj (Option.some.inj h)
        exact .refl _ _
      · cases h
  | onRedis p =>
      obtain ⟨rfl, -⟩ := Prod.mk.inj (Option.some.inj h)
      exact .refl _ _
  | setStatus id status =>
      obtain ⟨rfl, -⟩ := Prod.mk.inj (Option.some.inj h)
      exact .updateRequests _ fun _ => ⟨rfl, rfl, rfl, rfl, rfl⟩

end Traces

end Payments
end Bookit

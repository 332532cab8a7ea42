import Bookit.Backend.Agreement

/-!
# Backend.Lifecycle — an order only moves forward

An order is completed, then being cancelled, then refunded.  The update that takes it out of
`completed` is guarded, and inserts the one outbox row of its cancellation; `commit_cancellation` asks
for no status, but it is reached only through that row.
-/

namespace Bookit
namespace Backend

open Lib Payments

def cancellationOf : OutboxRow → Option CancellationMessage
  | .cancellationRequested message => some message
  | _ => none

/-- The `payment.cancellation_requested` rows of the outbox for an order. -/
def cancellationsOf (s : Postgres) (orderId : ℕ) : List CancellationMessage :=
  (s.outbox.filterMap cancellationOf).filter fun m => decide (m.orderId = orderId)

/-- Where the status of an order may go in one step. -/
inductive Follows : OrderStatus → OrderStatus → Prop where
  | stays (status : OrderStatus) : Follows status status
  | cancelling : Follows .completed .cancelling
  | refunded : Follows .cancelling .refunded

/-- The orders keep what they were bought with, their statuses move forward, and a new order is
completed. -/
structure Advance (s t : Postgres) : Prop where
  kept : ∀ o ∈ s.orders, ∃ o' ∈ t.orders, SamePurchase o o' ∧ Follows o.status o'.status
  new : ∀ o' ∈ t.orders, (∃ o ∈ s.orders, SamePurchase o o' ∧ Follows o.status o'.status) ∨
    (o'.status = .completed ∧ ∀ o ∈ s.orders, o.id ≠ o'.id)

/-- A completed order has no row for its cancellation; every other order has one, which names it. -/
def Asked (s : Postgres) (o : OrderRow) : Prop :=
  (o.status = .completed → cancellationsOf s o.id = []) ∧
    (o.status ≠ .completed → ∃ m, cancellationsOf s o.id = [m] ∧ NamesOrder m o)

section Lifecycle

variable {X : Prop} {encode : OutboxRow → Json} {s t : Postgres}

theorem mem_cancellationsOf {orderId : ℕ} {m : CancellationMessage} :
    m ∈ cancellationsOf s orderId ↔ .cancellationRequested m ∈ s.outbox ∧ m.orderId = orderId := by
  simp only [cancellationsOf, List.mem_filter, List.mem_filterMap, decide_eq_true_eq]
  constructor
  · rintro ⟨⟨row, hrow, hm⟩, hid⟩
    cases row with
    | cancellationRequested m' =>
        obtain rfl := Option.some.inj hm
        exact ⟨hrow, hid⟩
    | paymentRequested _ => cases hm
    | orderCompleted _ => cases hm
    | ticketCancelled _ => cases hm
  · rintro ⟨hrow, hid⟩
    exact ⟨⟨_, hrow, rfl⟩, hid⟩

/-- A row of another type. -/
theorem cancellationsOf_append {rows : List OutboxRow} {orderId : ℕ}
    (h : t.outbox = s.outbox ++ rows) (hrows : rows.filterMap cancellationOf = []) :
    cancellationsOf t orderId = cancellationsOf s orderId := by
  simp only [cancellationsOf, h, List.filterMap_append, hrows, List.append_nil]

theorem Advance.refl (h : t.orders = s.orders) : Advance s t :=
  ⟨fun o ho => ⟨o, h ▸ ho, .refl o, .stays _⟩,
    fun o ho => .inl ⟨o, h ▸ ho, .refl o, .stays _⟩⟩

/-- The orders after an update. -/
theorem Advance.update {f : OrderRow → OrderRow}
    (hf : ∀ o ∈ s.orders, SamePurchase o (f o) ∧ Follows o.status (f o).status)
    (horders : t.orders = s.orders.map f) : Advance s t := by
  refine ⟨fun o ho => ⟨f o, horders ▸ List.mem_map_of_mem ho, hf o ho⟩, fun o' ho' => ?_⟩
  rw [horders] at ho'
  obtain ⟨o, ho, rfl⟩ := List.mem_map.1 ho'
  exact .inl ⟨o, ho, hf o ho⟩

/-- Orders that stay, and an outbox that gets no row of a cancellation. -/
theorem asked_same (h : ∀ o ∈ s.orders, Asked s o) (horders : t.orders = s.orders)
    (rows : List OutboxRow) (hout : t.outbox = s.outbox ++ rows)
    (hrows : rows.filterMap cancellationOf = []) : ∀ o ∈ t.orders, Asked t o := by
  intro o ho
  unfold Asked
  rw [cancellationsOf_append hout hrows]
  exact h o (horders ▸ ho)

/-! ## The statements on orders -/

/-- The order of a checkout is new, and nobody has asked for its cancellation. -/
theorem asked_checkout (hknown : ∀ row ∈ s.outbox, Known s row) (h : ∀ o ∈ s.orders, Asked s o)
    (c : CheckoutCommit) :
    (∀ o ∈ (s.commitCheckout c).1.orders, Asked (s.commitCheckout c).1 o) ∧
      Advance s (s.commitCheckout c).1 := by
  rcases commitCheckout_cases s c with heq | ⟨hfree, heq⟩
  · rw [heq]
    exact ⟨h, .refl rfl⟩
  have hnew : ∀ o ∈ s.orders, o.id ≠ c.orderId := by
    intro o ho hid
    have hrefused : s.orderRefused c = true := List.any_eq_true.2 ⟨o, ho, decide_eq_true (.inl hid)⟩
    rw [hrefused] at hfree
    cases hfree
  have hnone : cancellationsOf s c.orderId = [] := by
    rw [List.eq_nil_iff_forall_not_mem]
    intro m hm
    obtain ⟨hrow, hid⟩ := mem_cancellationsOf.1 hm
    obtain ⟨o, ho, hom⟩ := hknown _ hrow
    exact hnew o ho (hom.trans hid)
  have hsame : ∀ orderId, cancellationsOf (s.commitCheckout c).1 orderId = cancellationsOf s orderId := by
    intro orderId
    rw [heq]
    exact cancellationsOf_append rfl rfl
  have horders : (s.commitCheckout c).1.orders = s.orders ++ [Postgres.newOrder c] := by rw [heq]
  refine ⟨fun o ho => ?_, fun o ho => ⟨o, ?_, .refl o, .stays _⟩, fun o ho => ?_⟩
  · unfold Asked
    rw [hsame]
    rw [horders] at ho
    rcases List.mem_append.1 ho with ho | ho
    · exact h o ho
    · rw [List.mem_singleton.1 ho]
      exact ⟨fun _ => hnone, fun hne => absurd rfl hne⟩
  · rw [horders]
    exact List.mem_append_left _ ho
  · rw [horders] at ho
    rcases List.mem_append.1 ho with ho | ho
    · exact .inl ⟨o, ho, .refl o, .stays _⟩
    · rw [List.mem_singleton.1 ho]
      exact .inr ⟨rfl, hnew⟩

/-- The guarded update takes one completed order, and its row names it. -/
theorem asked_start (hids : (s.orders.map (·.id)).Nodup) (h : ∀ o ∈ s.orders, Asked s o)
    {o : OrderRow} {message : CancellationMessage} (ho : o ∈ s.orders)
    (hcompleted : ∃ q ∈ s.orders, q.id = o.id ∧ q.status = .completed)
    (hnames : NamesOrder message o) :
    (∀ q ∈ (s.startCancellation o.id message).orders, Asked (s.startCancellation o.id message) q) ∧
      Advance s (s.startCancellation o.id message) := by
  have hany : (s.orders.any fun q => decide (q.id = o.id ∧ q.status = .completed)) = true := by
    obtain ⟨q, hq, hcond⟩ := hcompleted
    exact List.any_eq_true.2 ⟨q, hq, decide_eq_true hcond⟩
  unfold Postgres.startCancellation
  rw [if_pos hany]
  refine ⟨fun q' hq' => ?_, .update (f := fun q =>
    if decide (q.id = o.id ∧ q.status = .completed) then { q with status := .cancelling } else q)
    (fun q _ => ?_) rfl⟩
  · have hsplit : ∀ orderId, (((s.outbox ++ [OutboxRow.cancellationRequested message]).filterMap
        cancellationOf).filter fun m => decide (m.orderId = orderId)) =
        cancellationsOf s orderId ++ if message.orderId = orderId then [message] else [] := by
      intro orderId
      rw [List.filterMap_append, List.filter_append]
      refine congrArg (cancellationsOf s orderId ++ ·) ?_
      show List.filter _ [message] = _
      rw [List.filter_singleton]
      simp
    unfold Asked cancellationsOf
    simp only [hsplit, hnames.orderId]
    rcases Table.mem_updateWhere_cases hq' with ⟨hq, hcond⟩ | ⟨q, hq, hcond, rfl⟩
    · have hother : q'.id ≠ o.id := by
        intro hid
        obtain ⟨r, hr, hrid, hstatus⟩ := hcompleted
        obtain rfl : q' = r := List.inj_on_of_nodup_map hids hq hr (hid.trans hrid.symm)
        simp [hid, hstatus] at hcond
      rw [if_neg hother.symm, List.append_nil]
      exact h q' hq
    · obtain ⟨hid, hstatus⟩ := of_decide_eq_true hcond
      obtain rfl : q = o := List.inj_on_of_nodup_map hids hq ho hid
      refine ⟨fun h => (by cases h), fun _ => ⟨message, ?_, hnames.same rfl⟩⟩
      rw [(h q hq).1 hstatus]
      exact if_pos rfl
  · show SamePurchase q (if decide (q.id = o.id ∧ q.status = .completed) then _ else q) ∧ Follows _ _
    split_ifs with hcond
    · refine ⟨rfl, ?_⟩
      show Follows q.status .cancelling
      rw [(of_decide_eq_true hcond).2]
      exact .cancelling
    · exact ⟨.refl q, .stays _⟩

/-- The order of a row is no longer completed when its cancellation is committed. -/
theorem asked_cancel (h : ∀ o ∈ s.orders, Asked s o) {message : CancellationMessage}
    (hrow : .cancellationRequested message ∈ s.outbox) :
    (∀ o ∈ (s.commitCancellation (cancellationCommit message)).1.orders,
        Asked (s.commitCancellation (cancellationCommit message)).1 o) ∧
      Advance s (s.commitCancellation (cancellationCommit message)).1 := by
  have hleft : ∀ o ∈ s.orders, o.id = message.orderId → o.status ≠ .completed := by
    intro o ho hid hstatus
    have hmem : message ∈ cancellationsOf s o.id := mem_cancellationsOf.2 ⟨hrow, hid.symm⟩
    rw [(h o ho).1 hstatus] at hmem
    exact List.not_mem_nil hmem
  have hsame : ∀ orderId, cancellationsOf (s.commitCancellation (cancellationCommit message)).1 orderId =
      cancellationsOf s orderId := fun _ => cancellationsOf_append rfl rfl
  refine ⟨fun o' ho' => ?_, .update (f := fun o =>
    if decide (o.id = (cancellationCommit message).orderId) then { o with status := .refunded } else o)
    (fun o ho => ?_) rfl⟩
  · unfold Asked
    rw [hsame]
    rcases Table.mem_updateWhere_cases ho' with ⟨ho, -⟩ | ⟨o, ho, hid, rfl⟩
    · exact h o' ho
    · refine ⟨fun h => (by cases h), fun _ => ?_⟩
      obtain ⟨m, hm, hnames⟩ := (h o ho).2 (hleft o ho (of_decide_eq_true hid))
      exact ⟨m, hm, hnames.same rfl⟩
  · show SamePurchase o (if decide (o.id = (cancellationCommit message).orderId) then _ else o) ∧
      Follows _ _
    split_ifs with hid
    · refine ⟨rfl, ?_⟩
      have hne := hleft o ho (of_decide_eq_true hid)
      show Follows o.status .refunded
      cases hstatus : o.status with
      | completed => exact absurd hstatus hne
      | cancelling => exact .refunded
      | refunded => exact .stays _
    · exact ⟨.refl o, .stays _⟩

/-! ## Runs -/

/-- Every turn moves orders forward, and keeps their cancellations as they should be. -/
theorem asked_turn {s t : Store} (hs : Filed s) (hagreement : Agreement s.pg)
    (h : ∀ o ∈ s.pg.orders, Asked s.pg o) (hturn : Turn X encode s t) :
    (∀ o ∈ t.pg.orders, Asked t.pg o) ∧ Advance s.pg t.pg := by
  cases hturn with
  | rest hpg hevents hqueue =>
      refine ⟨asked_same h hpg.orders [] ?_ rfl, .refl hpg.orders⟩
      rw [hpg.outbox, List.append_nil]
  | commit i age txn message hopen hevent hid ht =>
      subst ht
      have horders : (s.pg.commit i).orders = s.pg.orders := by
        unfold Postgres.commit
        rw [hopen]
      refine ⟨asked_same h horders [.paymentRequested message] ?_ rfl, .refl horders⟩
      show (s.pg.commit i).outbox = _
      unfold Postgres.commit
      rw [hopen]
      simp [hevent]
  | checkout c age hrow hfree ht =>
      subst ht
      exact asked_checkout hs.known h c
  | start o age message ho hcompleted hnames ht =>
      subst ht
      exact asked_start hagreement.ids h ho hcompleted hnames
  | cancel message age hrow ht =>
      subst ht
      exact asked_cancel h hrow

theorem asked_of_reachable {p : BackendPool}
    (h : (machine encode).system.ReachableUnder (Guard X encode) p) :
    ∀ o ∈ p.store.pg.orders, Asked p.store.pg o := by
  have hboth : Agreement p.store.pg ∧ ∀ o ∈ p.store.pg.orders, Asked p.store.pg o := by
    refine reachable_induction (X := X) (I := fun s => Agreement s.pg ∧ ∀ o ∈ s.pg.orders, Asked s.pg o)
      (fun seats => ⟨agreement_newStore seats, fun _ ho => absurd ho List.not_mem_nil⟩) ?_ h
    intro s t hbase hs hI hturn
    exact ⟨hI.1.turn hbase hturn, (asked_turn hs hI.1 hI.2 hturn).1⟩
  exact hboth.2

theorem Follows.left {status status' : OrderStatus} (h : Follows status status')
    (hleft : status ≠ .completed) : status' ≠ .completed := by
  cases h with
  | stays => exact hleft
  | cancelling => exact absurd rfl hleft
  | refunded => exact fun h => by cases h

/-- In every run, each step moves an order from `completed` to `cancelling` or from `cancelling` to
`refunded`, or leaves it; an order that has left `completed` has one row for its cancellation, which
names it, and the others have none. -/
theorem order_lifecycle {p : BackendPool} (h : (machine encode).system.Reachable p) :
    (∀ a q, (machine encode).system.step p a = some q → Advance p.store.pg q.store.pg) ∧
      (∀ o ∈ p.store.pg.orders, Asked p.store.pg o) ∧
      (∀ m, .cancellationRequested m ∈ p.store.pg.outbox →
        ∃ o ∈ p.store.pg.orders, o.status ≠ .completed ∧ NamesOrder m o) ∧
      ∀ o ∈ p.store.pg.orders, o.status ≠ .completed →
        ∀ q, ((machine encode).system.startingAt p).Reachable q →
          ∃ o' ∈ q.store.pg.orders, SamePurchase o o' ∧ o'.status ≠ .completed := by
  have hguarded := guarded_of_reachable h
  have hserved := served_of_reachable hguarded
  have hasked := asked_of_reachable hguarded
  refine ⟨fun a q hst => ?_, hasked, fun m hm => ?_, fun o ho hleft q hq => ?_⟩
  · have hturn := turn_of_step hserved (guard_of_false p a) hst
    exact (asked_turn hserved.inv (agreement_of_reachable hguarded) hasked hturn).2
  · obtain ⟨o, ho, hid⟩ := hserved.inv.known _ hm
    have hmem : m ∈ cancellationsOf p.store.pg o.id := mem_cancellationsOf.2 ⟨hm, hid.symm⟩
    have hleft : o.status ≠ .completed := by
      intro hstatus
      rw [(hasked o ho).1 hstatus] at hmem
      exact List.not_mem_nil hmem
    obtain ⟨m', hm', hnames⟩ := (hasked o ho).2 hleft
    rw [hm'] at hmem
    obtain rfl := List.mem_singleton.1 hmem
    exact ⟨o, ho, hleft, hnames⟩
  · have hkept : Agreement q.store.pg ∧ (∀ o ∈ q.store.pg.orders, Asked q.store.pg o) ∧
        ∃ o' ∈ q.store.pg.orders, SamePurchase o o' ∧ o'.status ≠ .completed := by
      refine kept_of_startingAt (I := fun s => Agreement s.pg ∧ (∀ o ∈ s.pg.orders, Asked s.pg o) ∧
        ∃ o' ∈ s.pg.orders, SamePurchase o o' ∧ o'.status ≠ .completed) ?_ h
        ⟨agreement_of_reachable hguarded, hasked, o, ho, .refl o, hleft⟩ hq
      intro s t hbase hs ⟨hagreement, hs', o', ho', hsame, hleft'⟩ hturn
      obtain ⟨ht', hadvance⟩ := asked_turn hs hagreement hs' hturn
      obtain ⟨o'', ho'', hsame', hfollows⟩ := hadvance.kept o' ho'
      exact ⟨hagreement.turn hbase hturn, ht', o'', ho'', hsame.trans hsame', hfollows.left hleft'⟩
    exact hkept.2.2

/-- Two requests for one cancellation, side by side, and two deliveries of it. -/
theorem order_lifecycle_refunded :
    ∃ p, (machine plain).system.Reachable p ∧
      p.store.pg.orders.map (·.status) = [.refunded] ∧
      ∀ o ∈ p.store.pg.orders, Asked p.store.pg o := by
  obtain ⟨p, hp, hstatus⟩ := System.exists_reachable_of_run (machine plain).system
    (fun p : BackendPool => decide (p.store.pg.orders.map (·.status) = [.refunded])) init_oneSeat
    (buys ++ .environ (.deliver 0 100 true) :: steps 2 7 ++
      .environ (.cancelOrder 42 100 "cancel") :: .environ (.cancelOrder 42 100 "again") ::
      (steps 3 2 ++ steps 4 2 ++ steps 3 1 ++ steps 4 1) ++
      .environ (.deliver 2 0 true) :: .environ (.deliver 2 0 true) :: (steps 5 1 ++ steps 6 1))
    (by decide +kernel)
  exact ⟨p, hp, of_decide_eq_true hstatus, (order_lifecycle hp).2.1⟩

end Lifecycle

end Backend
end Bookit

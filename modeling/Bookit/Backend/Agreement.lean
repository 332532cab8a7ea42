import Bookit.Backend.Runs

/-!
# Backend.Agreement — payment requests agree with orders

A request has succeeded exactly when its order exists.  The checkout that inserts the order writes
the status, the audit and the event in one transaction, and the unique indexes let it through once;
the failure update of a checkout and both updates of the outbox server leave a success alone.
-/

namespace Bookit
namespace Backend

open Lib Payments

/-! ## Records of completed orders -/

/-- The orders of the `order_completed` audits. -/
def completedAudits (s : Postgres) : List ℕ :=
  (s.audits.filter fun a => decide (a.action = "order_completed")).map (·.orderId)

def completedOrder : OutboxRow → Option ℕ
  | .orderCompleted event => some event.orderId
  | _ => none

/-- The orders of the `OrderCompleted` rows of the outbox. -/
def completedEvents (s : Postgres) : List ℕ :=
  s.outbox.filterMap completedOrder

/-- The orders of a payment request. -/
def ordersOf (s : Postgres) (paymentRequestId : ℕ) : List OrderRow :=
  s.orders.filter fun o => decide (o.paymentRequestId = paymentRequestId)

/-! ## The invariant -/

structure Agreement (s : Postgres) : Prop where
  pending : ∀ x ∈ s.open_, x.2.row.status = .pending
  succeeded : ∀ r ∈ s.requests, r.status = .succeeded ↔ ∃ o ∈ s.orders, o.paymentRequestId = r.id
  requested : ∀ o ∈ s.orders, ∃ r ∈ s.requests, r.id = o.paymentRequestId
  ids : (s.orders.map (·.id)).Nodup
  once : (s.orders.map (·.paymentRequestId)).Nodup
  audits : completedAudits s = s.orders.map (·.id)
  events : completedEvents s = s.orders.map (·.id)

section Agreement

variable {X : Prop} {encode : OutboxRow → Json} {s t : Postgres}

/-- The invariant where requests are settled, and the orders keep what they were bought with. -/
theorem Agreement.update (hs : Agreement s) {g : RequestRow → RequestRow} {f : OrderRow → OrderRow}
    (hg : ∀ r, Settles r (g r)) (hf : ∀ o, SamePurchase o (f o))
    (hrequests : t.requests = s.requests.map g) (horders : t.orders = s.orders.map f)
    (hopen : ∀ x ∈ t.open_, x.2.row.status = .pending)
    (haudits : completedAudits t = completedAudits s)
    (hevents : completedEvents t = completedEvents s) : Agreement t := by
  have hid : ∀ o, (f o).id = o.id := by
    intro o
    rw [hf o]
  have hrequest : ∀ o, (f o).paymentRequestId = o.paymentRequestId := by
    intro o
    rw [hf o]
  have hids : t.orders.map (·.id) = s.orders.map (·.id) := by
    rw [horders, List.map_map]
    exact List.map_congr_left fun o _ => hid o
  have hpaid : t.orders.map (·.paymentRequestId) = s.orders.map (·.paymentRequestId) := by
    rw [horders, List.map_map]
    exact List.map_congr_left fun o _ => hrequest o
  refine ⟨hopen, fun r hr => ?_, fun o ho => ?_, hids ▸ hs.ids, hpaid ▸ hs.once,
    haudits.trans (hs.audits.trans hids.symm), hevents.trans (hs.events.trans hids.symm)⟩
  · rw [hrequests] at hr
    obtain ⟨q, hq, rfl⟩ := List.mem_map.1 hr
    rw [(hg q).succeeded, hs.succeeded q hq, (hg q).same.id, horders]
    constructor
    · rintro ⟨o, ho, hoq⟩
      exact ⟨f o, List.mem_map_of_mem ho, (hrequest o).trans hoq⟩
    · rintro ⟨o', ho', hoq⟩
      obtain ⟨o, ho, rfl⟩ := List.mem_map.1 ho'
      exact ⟨o, ho, (hrequest o).symm.trans hoq⟩
  · rw [horders] at ho
    obtain ⟨o', ho', rfl⟩ := List.mem_map.1 ho
    obtain ⟨r, hr, hro⟩ := hs.requested o' ho'
    rw [hrequests]
    exact ⟨g r, List.mem_map_of_mem hr, (hg r).same.id.trans (hro.trans (hrequest o').symm)⟩

theorem Agreement.rest (hs : Agreement s) (h : Rest s t) : Agreement t := by
  obtain ⟨g, hg, hsettles⟩ := h.requests
  refine hs.update (f := id) hsettles .refl hg (h.orders.trans (List.map_id _).symm) (fun x hx => ?_)
    (by rw [completedAudits, completedAudits, h.audits])
    (by rw [completedEvents, completedEvents, h.outbox])
  rcases h.open_ x hx with ⟨y, hy, hrow⟩ | hpending
  · rw [← hrow]
    exact hs.pending y hy
  · exact hpending

/-- A new request is pending, and has no order: an order's request is committed. -/
theorem Agreement.commit (hs : Agreement s) (hbase : Base s) {i : ℕ} {txn : Txn}
    (hopen : s.txnOf i = some txn) : Agreement (s.commit i) := by
  have hmem : (i, txn) ∈ s.open_ := txnOf_eq_some hopen
  have hnew : ¬ ∃ o ∈ s.orders, o.paymentRequestId = txn.row.id := by
    rintro ⟨o, ho, hid⟩
    obtain ⟨r, hr, hro⟩ := hs.requested o ho
    have hconflict := hbase.fresh _ hmem r hr
    simp [Postgres.conflicts, hro, hid] at hconflict
  unfold Postgres.commit
  rw [hopen]
  refine ⟨fun x hx => hs.pending x (mem_others.1 hx).1, fun r hr => ?_, fun o ho => ?_, hs.ids, hs.once,
    hs.audits, ?_⟩
  · rcases List.mem_append.1 hr with hr | hr
    · exact hs.succeeded r hr
    · obtain rfl := List.mem_singleton.1 hr
      have hpending : txn.row.status = .pending := hs.pending _ hmem
      rw [hpending]
      exact ⟨fun h => (by cases h), fun h => absurd h hnew⟩
  · obtain ⟨r, hr, hro⟩ := hs.requested o ho
    exact ⟨r, List.mem_append_left _ hr, hro⟩
  · show (s.outbox ++ _).filterMap completedOrder = _
    rw [List.filterMap_append]
    have hnone : (txn.event.map OutboxRow.paymentRequested).toList.filterMap completedOrder = [] := by
      cases txn.event <;> rfl
    rw [hnone, List.append_nil]
    exact hs.events

/-- The checkout that inserts an order writes all of its records. -/
theorem Agreement.checkout (hs : Agreement s) {c : CheckoutCommit}
    (hrow : ∃ r ∈ s.requests, r.id = c.paymentRequestId) (hfree : s.orderRefused c = false) :
    Agreement (s.commitCheckout c).1 := by
  have hnew : ∀ o ∈ s.orders, ¬(o.id = c.orderId ∨ o.paymentRequestId = c.paymentRequestId) :=
    fun o ho hcond => absurd hfree
      (by rw [Postgres.orderRefused, List.any_eq_true.2 ⟨o, ho, decide_eq_true hcond⟩]; simp)
  rcases commitCheckout_cases s c with heq | ⟨-, heq⟩
  · rw [heq]
    exact hs
  rw [heq]
  refine ⟨hs.pending, fun r hr => ?_, fun o ho => ?_, ?_, ?_, ?_, ?_⟩
  · rcases Table.mem_updateWhere_cases hr with ⟨hr, hother⟩ | ⟨q, hq, hid, rfl⟩
    · rw [hs.succeeded r hr]
      have hother : ¬ r.id = c.paymentRequestId := by simpa using hother
      constructor
      · rintro ⟨o, ho, hor⟩
        exact ⟨o, List.mem_append_left _ ho, hor⟩
      · rintro ⟨o, ho, hor⟩
        rcases List.mem_append.1 ho with ho | ho
        · exact ⟨o, ho, hor⟩
        · rw [List.mem_singleton.1 ho] at hor
          exact absurd hor.symm hother
    · have hid : q.id = c.paymentRequestId := of_decide_eq_true hid
      refine ⟨fun _ => ⟨Postgres.newOrder c, List.mem_append_right _ (List.mem_singleton_self _), ?_⟩,
        fun _ => rfl⟩
      exact hid.symm
  · have hkept : ∀ r ∈ s.requests, ∃ r' ∈ Table.updateWhere
        (fun r => decide (r.id = c.paymentRequestId))
        (fun r : RequestRow => { r with status := .succeeded, failureReason := none }) s.requests,
        r'.id = r.id := by
      intro r hr
      refine ⟨_, Table.mem_updateWhere_of_mem hr, ?_⟩
      split_ifs <;> rfl
    have hrequest : ∃ r ∈ s.requests, r.id = o.paymentRequestId := by
      rcases List.mem_append.1 ho with ho | ho
      · exact hs.requested o ho
      · rw [List.mem_singleton.1 ho]
        exact hrow
    obtain ⟨r, hr, hro⟩ := hrequest
    obtain ⟨r', hr', hid⟩ := hkept r hr
    exact ⟨r', hr', hid.trans hro⟩
  · show ((s.orders ++ [Postgres.newOrder c]).map (·.id)).Nodup
    rw [List.map_append]
    refine List.nodup_append.2 ⟨hs.ids, List.nodup_singleton _, ?_⟩
    intro a ha b hb hab
    obtain ⟨o, ho, rfl⟩ := List.mem_map.1 ha
    exact hnew o ho (.inl (hab.trans (List.mem_singleton.1 hb)))
  · show ((s.orders ++ [Postgres.newOrder c]).map (·.paymentRequestId)).Nodup
    rw [List.map_append]
    refine List.nodup_append.2 ⟨hs.once, List.nodup_singleton _, ?_⟩
    intro a ha b hb hab
    obtain ⟨o, ho, rfl⟩ := List.mem_map.1 ha
    exact hnew o ho (.inr (hab.trans (List.mem_singleton.1 hb)))
  · show completedAudits _ = (s.orders ++ [Postgres.newOrder c]).map (·.id)
    rw [List.map_append, ← hs.audits]
    simp [completedAudits, Postgres.newOrder]
  · show (s.outbox ++ _).filterMap completedOrder = (s.orders ++ [Postgres.newOrder c]).map (·.id)
    rw [List.map_append, ← hs.events, List.filterMap_append]
    rfl

theorem Agreement.start (hs : Agreement s) (orderId : ℕ) (message : CancellationMessage) :
    Agreement (s.startCancellation orderId message) := by
  unfold Postgres.startCancellation
  split_ifs
  · refine hs.update (g := id) (f := fun o => if decide (o.id = orderId ∧ o.status = .completed) then
      { o with status := .cancelling } else o) .refl (fun o => ?_) (List.map_id _).symm rfl hs.pending
      rfl ?_
    · show SamePurchase o (if decide (o.id = orderId ∧ o.status = .completed) then _ else o)
      split_ifs <;> rfl
    · show (s.outbox ++ _).filterMap completedOrder = _
      rw [List.filterMap_append]
      exact List.append_nil _
  · exact hs

theorem Agreement.cancel (hs : Agreement s) (c : CancellationCommit) :
    Agreement (s.commitCancellation c).1 := by
  refine hs.update (g := id) (f := fun o => if decide (o.id = c.orderId) then
    { o with status := .refunded } else o) .refl (fun o => ?_) (List.map_id _).symm rfl hs.pending ?_ ?_
  · show SamePurchase o (if decide (o.id = c.orderId) then _ else o)
    split_ifs <;> rfl
  · simp [completedAudits, Postgres.commitCancellation]
  · show (s.outbox ++ _).filterMap completedOrder = _
    rw [List.filterMap_append]
    exact List.append_nil _

/-- Every turn keeps the agreement. -/
theorem Agreement.turn {s t : Store} (hbase : Base s.pg) (hs : Agreement s.pg)
    (h : Turn X encode s t) : Agreement t.pg := by
  cases h with
  | rest hpg hevents hqueue => exact hs.rest hpg
  | commit i age txn message hopen hevent hid ht =>
      subst ht
      exact hs.commit hbase hopen
  | checkout c age hrow hfree ht =>
      subst ht
      exact hs.checkout hrow hfree
  | start o age message ho hcompleted hnames ht =>
      subst ht
      exact hs.start o.id message
  | cancel message age hrow ht =>
      subst ht
      exact hs.cancel _

theorem agreement_newStore (seats : List SeatRow) : Agreement (newStore seats).pg :=
  ⟨fun _ hx => absurd hx List.not_mem_nil, fun _ hr => absurd hr List.not_mem_nil,
    fun _ ho => absurd ho List.not_mem_nil, List.nodup_nil, List.nodup_nil, rfl, rfl⟩

theorem agreement_of_reachable {p : BackendPool}
    (h : (machine encode).system.ReachableUnder (Guard X encode) p) : Agreement p.store.pg := by
  refine reachable_induction (I := fun s => Agreement s.pg) agreement_newStore ?_ h
  intro s t hbase _ hs hturn
  exact hs.turn hbase hturn

/-! ## Success is for good -/

/-- The request has succeeded for good, with one order and one record of each kind. -/
structure Agrees (s : Postgres) (r : RequestRow) : Prop where
  succeeded : r.status = .succeeded ↔ ∃ o ∈ s.orders, o.paymentRequestId = r.id
  order : (ordersOf s r.id).length ≤ 1
  audit : ∀ o ∈ ordersOf s r.id, (completedAudits s).count o.id = 1
  event : ∀ o ∈ ordersOf s r.id, (completedEvents s).count o.id = 1

theorem Agreement.agrees (hs : Agreement s) {r : RequestRow} (hr : r ∈ s.requests) : Agrees s r := by
  have hone : ∀ o ∈ ordersOf s r.id, (s.orders.map (·.id)).count o.id = 1 := by
    intro o ho
    exact List.count_eq_one_of_mem hs.ids (List.mem_map_of_mem (List.mem_filter.1 ho).1)
  refine ⟨hs.succeeded r hr, Table.length_filter_le_one hs.once r.id, fun o ho => ?_, fun o ho => ?_⟩
  · rw [hs.audits]
    exact hone o ho
  · rw [hs.events]
    exact hone o ho

/-- In every run, a payment request has succeeded exactly when its order exists, there is at most one
such order, with one audit and one event, and a success is never taken back. -/
theorem payment_agrees {p : BackendPool} (h : (machine encode).system.Reachable p) :
    ∀ r ∈ p.store.pg.requests, Agrees p.store.pg r ∧
      (r.status = .succeeded → ∀ q, ((machine encode).system.startingAt p).Reachable q →
        (∃ r' ∈ q.store.pg.requests, r'.id = r.id) ∧
          ∀ r' ∈ q.store.pg.requests, r'.id = r.id → r'.status = .succeeded) := by
  intro r hr
  have hagreement := agreement_of_reachable (guarded_of_reachable h)
  refine ⟨hagreement.agrees hr, fun hsucceeded q hq => ?_⟩
  have hordered := (hagreement.succeeded r hr).1 hsucceeded
  have hkept : (∃ o ∈ q.store.pg.orders, o.paymentRequestId = r.id) ∧
      ∃ r' ∈ q.store.pg.requests, r'.id = r.id := by
    refine kept_of_startingAt (I := fun s => (∃ o ∈ s.pg.orders, o.paymentRequestId = r.id) ∧
      ∃ r' ∈ s.pg.requests, r'.id = r.id) ?_ h ⟨hordered, r, hr, rfl⟩ hq
    intro s t _ hs ⟨ho, q, hq, hid⟩ hturn
    have hprogress := (hturn.keeps hs).2
    obtain ⟨q', hq', hid', -⟩ := hprogress.requests q hq
    exact ⟨hprogress.ordered ho, q', hq', hid'.trans hid⟩
  have hlater : (machine encode).system.Reachable q := System.ReachableUnder.of_startingAt h hq
  refine ⟨hkept.2, fun r' hr' hid => ?_⟩
  rw [(agreement_of_reachable (guarded_of_reachable hlater)).succeeded r' hr', hid]
  exact hkept.1

/-- Two deliveries of one checkout that pass its check side by side: the second commit is refused. -/
theorem payment_agrees_redelivered :
    ∃ p, (machine plain).system.Reachable p ∧
      p.store.pg.requests.map (·.status) = [.succeeded] ∧
      ∀ r ∈ p.store.pg.requests, Agrees p.store.pg r := by
  obtain ⟨p, hp, hstatus⟩ := System.exists_reachable_of_run (machine plain).system
    (fun p : BackendPool => decide (p.store.pg.requests.map (·.status) = [.succeeded])) init_oneSeat
    (buys ++ .environ (.deliver 0 100 true) :: .environ (.deliver 0 101 true) ::
      (steps 2 6 ++ steps 3 6 ++ steps 2 1 ++ steps 3 1)) (by decide +kernel)
  exact ⟨p, hp, of_decide_eq_true hstatus, fun r hr => (payment_agrees hp r hr).1⟩

end Agreement

end Backend
end Bookit

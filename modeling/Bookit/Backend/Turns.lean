import Bookit.Backend.Tables

/-!
# Backend.Turns — what a step of the backend does

Four statements change what the backend is about: the commit of a request, a checkout, the start of a
cancellation and its end.  Every other step settles requests, moves messages, or is of no account.
What the services know when they issue a statement is part of the turn: the request of a checkout is
committed, a cancellation is the one of a completed order, and a message that is acknowledged is
finished.
-/

namespace Bookit
namespace Backend

open Lib Payments

/-! ## What is done -/

/-- Two versions of an order row, which differ in their status at most. -/
def SamePurchase (o o' : OrderRow) : Prop :=
  o' = { o with status := o'.status }

/-- The request of the message has succeeded or failed, or its order is refunded. -/
def Done (n : ℕ) (s : Store) : Prop :=
  match s.pg.outbox[n]? with
  | some (.paymentRequested m) => ∃ r ∈ s.pg.requests, r.id = m.paymentRequestId ∧ Final r.status
  | some (.cancellationRequested m) => ∃ o ∈ s.pg.orders, o.id = m.orderId ∧ o.status = .refunded
  | some _ => True
  | none => False

/-- The message is of a checkout, and its order exists. -/
def Ordered (n : ℕ) (s : Store) : Prop :=
  match s.pg.outbox[n]? with
  | some (.paymentRequested m) => ∃ o ∈ s.pg.orders, o.paymentRequestId = m.paymentRequestId
  | _ => False

def Finished (n : ℕ) (s : Store) : Prop :=
  Done n s ∨ Ordered n s

/-- The message is in the queue, or need not be. -/
def Placed (n : ℕ) (s : Store) : Prop :=
  n ∈ s.queue ∨ Finished n s

/-- One copy of the message can go: it is done, or in the queue once more. -/
def Spare (n : ℕ) (s : Store) : Prop :=
  Done n s ∨ n ∈ s.queue.erase n

/-- The outbox server has still to publish the row. -/
def Due (e : Outbox.OutboxEvent) : Prop :=
  e.publishedAt = none ∧ e.deadLetteredAt = none

/-- What names a row of the outbox. -/
def column (e : Outbox.OutboxEvent) : ℕ × String × ℕ :=
  (e.id, e.eventType, e.aggregateId)

/-! ## Turns -/

/-- The rows after a statement that commits no request, books nothing and cancels nothing. -/
structure Rest (s t : Postgres) : Prop where
  requests : ∃ g, t.requests = s.requests.map g ∧ ∀ r, Settles r (g r)
  orders : t.orders = s.orders
  audits : t.audits = s.audits
  outbox : t.outbox = s.outbox
  open_ : ∀ x ∈ t.open_, (∃ y ∈ s.open_, y.2.row = x.2.row) ∨ x.2.row.status = .pending

/-- The columns of the outbox server change, and what is no longer due has been placed. -/
def EventsMoved (X : Prop) (s t : Store) : Prop :=
  ∃ h, t.events = s.events.map h ∧ ∀ e ∈ s.events, column (h e) = column e ∧
    (Due e → Due (h e) ∨ (X → Placed e.id s) ∨ Outbox.routeFor e.eventType = none)

/-- The message is the one that `cancel_order` writes for the order. -/
structure NamesOrder (message : CancellationMessage) (o : OrderRow) : Prop where
  orderId : message.orderId = o.id
  scheduleId : message.scheduleId = o.scheduleId
  seatIds : message.seatIds = o.seatIds
  amount : message.amount = o.totalAmount
  payment : message.razorpayPaymentId = o.razorpayPaymentId

inductive Turn (X : Prop) (encode : OutboxRow → Json) (s t : Store) : Prop where
  | rest (hpg : Rest s.pg t.pg) (hevents : EventsMoved X s t)
      (hqueue : X → ∀ n ∈ s.queue, n ∈ t.queue ∨ Finished n s)
  | commit (i age : ℕ) (txn : Txn) (message : CheckoutMessage) (hopen : s.pg.txnOf i = some txn)
      (hevent : txn.event = some message) (hid : message.paymentRequestId = txn.row.id)
      (ht : t = s.putWorld encode age { s.world with pg := s.pg.commit i })
  | checkout (c : CheckoutCommit) (age : ℕ) (hrow : ∃ r ∈ s.pg.requests, r.id = c.paymentRequestId)
      (hfree : s.pg.orderRefused c = false)
      (ht : t = s.putWorld encode age { s.world with pg := (s.pg.commitCheckout c).1 })
  | start (o : OrderRow) (age : ℕ) (message : CancellationMessage) (ho : o ∈ s.pg.orders)
      (hcompleted : ∃ q ∈ s.pg.orders, q.id = o.id ∧ q.status = .completed)
      (hnames : NamesOrder message o)
      (ht : t = s.putWorld encode age { s.world with pg := s.pg.startCancellation o.id message })
  | cancel (message : CancellationMessage) (age : ℕ)
      (hrow : .cancellationRequested message ∈ s.pg.outbox)
      (ht : t = s.putWorld encode age
        { s.world with pg := (s.pg.commitCancellation (cancellationCommit message)).1 })

/-! ## What the services may rely on -/

/-- The aggregate of the row exists. -/
def Known (s : Postgres) : OutboxRow → Prop
  | .paymentRequested m => ∃ r ∈ s.requests, r.id = m.paymentRequestId
  | .cancellationRequested m => ∃ o ∈ s.orders, o.id = m.orderId
  | _ => True

/-- The outbox rows and the columns for the outbox server are in step, and their aggregates exist. -/
structure Filed (s : Store) : Prop where
  columns : s.events.map column =
    s.pg.outbox.mapIdx fun n row => (n, eventType row, aggregateId row)
  known : ∀ row ∈ s.pg.outbox, Known s.pg row

structure Progress (X : Prop) (s t : Store) : Prop where
  requests : ∀ r ∈ s.pg.requests, ∃ r' ∈ t.pg.requests, r'.id = r.id ∧
    (Final r.status → Final r'.status)
  orders : ∀ o ∈ s.pg.orders, ∃ o' ∈ t.pg.orders, SamePurchase o o' ∧
    (o.status = .refunded → o'.status = .refunded)
  outbox : s.pg.outbox <+: t.pg.outbox
  events : s.events.map column <+: t.events.map column
  queue : X → ∀ n ∈ s.queue, n ∈ t.queue ∨ Finished n t

section Progress

variable {X : Prop} {s t u : Store}

theorem SamePurchase.refl (o : OrderRow) : SamePurchase o o := rfl

theorem SamePurchase.trans {o o' o'' : OrderRow} (h : SamePurchase o o') (h' : SamePurchase o' o'') :
    SamePurchase o o'' := by
  unfold SamePurchase at h h' ⊢
  rw [h', h]

theorem NamesOrder.same {message : CancellationMessage} {o o' : OrderRow} (h : NamesOrder message o)
    (hsame : SamePurchase o o') : NamesOrder message o' := by
  rw [hsame]
  exact ⟨h.orderId, h.scheduleId, h.seatIds, h.amount, h.payment⟩

theorem Progress.getElem? (h : Progress X s t) {n : ℕ} {row : OutboxRow}
    (hrow : s.pg.outbox[n]? = some row) : t.pg.outbox[n]? = some row := by
  obtain ⟨hlt, rfl⟩ := List.getElem?_eq_some_iff.1 hrow
  exact List.prefix_iff_getElem?.1 h.outbox n hlt

theorem Done.mono {n : ℕ} (h : Done n s) (hst : Progress X s t) : Done n t := by
  unfold Done at h ⊢
  cases hrow : s.pg.outbox[n]? with
  | none =>
      rw [hrow] at h
      exact h.elim
  | some row =>
      rw [hrow] at h
      rw [hst.getElem? hrow]
      match row with
      | .paymentRequested m =>
          obtain ⟨r, hr, hid, hfinal⟩ := h
          obtain ⟨r', hr', hid', hfinal'⟩ := hst.requests r hr
          exact ⟨r', hr', hid'.trans hid, hfinal' hfinal⟩
      | .cancellationRequested m =>
          obtain ⟨o, ho, hid, hrefunded⟩ := h
          obtain ⟨o', ho', hsame, hrefunded'⟩ := hst.orders o ho
          refine ⟨o', ho', ?_, hrefunded' hrefunded⟩
          rw [hsame]
          exact hid
      | .orderCompleted _ => trivial
      | .ticketCancelled _ => trivial

theorem Ordered.mono {n : ℕ} (h : Ordered n s) (hst : Progress X s t) : Ordered n t := by
  unfold Ordered at h ⊢
  split at h
  · next m hrow =>
    rw [hst.getElem? hrow]
    obtain ⟨o, ho, hid⟩ := h
    obtain ⟨o', ho', hsame, -⟩ := hst.orders o ho
    refine ⟨o', ho', ?_⟩
    rw [hsame]
    exact hid
  · exact h.elim

theorem Finished.mono {n : ℕ} (h : Finished n s) (hst : Progress X s t) : Finished n t :=
  h.imp (·.mono hst) (·.mono hst)

theorem Placed.mono {n : ℕ} (h : Placed n s) (hX : X) (hst : Progress X s t) : Placed n t := by
  rcases h with h | h
  · exact hst.queue hX n h
  · exact .inr (h.mono hst)

theorem Progress.refl (s : Store) : Progress X s s :=
  ⟨fun r hr => ⟨r, hr, rfl, fun h => h⟩, fun o ho => ⟨o, ho, .refl o, fun h => h⟩, List.prefix_rfl,
    List.prefix_rfl, fun _ _ h => .inl h⟩

theorem Progress.trans (hst : Progress X s t) (htu : Progress X t u) : Progress X s u := by
  refine ⟨fun r hr => ?_, fun o ho => ?_, hst.outbox.trans htu.outbox, hst.events.trans htu.events,
    fun hX n hn => ?_⟩
  · obtain ⟨r', hr', hid, hfinal⟩ := hst.requests r hr
    obtain ⟨r'', hr'', hid', hfinal'⟩ := htu.requests r' hr'
    exact ⟨r'', hr'', hid'.trans hid, fun h => hfinal' (hfinal h)⟩
  · obtain ⟨o', ho', hsame, hrefunded⟩ := hst.orders o ho
    obtain ⟨o'', ho'', hsame', hrefunded'⟩ := htu.orders o' ho'
    exact ⟨o'', ho'', hsame.trans hsame', fun h => hrefunded' (hrefunded h)⟩
  · exact (show Placed n t from hst.queue hX n hn).mono hX htu

end Progress

/-! ## What a turn keeps -/

section Turns

variable {X : Prop} {encode : OutboxRow → Json} {s t : Store} {age : ℕ} {w : World}

theorem Filed.length (hs : Filed s) : s.events.length = s.pg.outbox.length := by
  simpa using congrArg List.length hs.columns

/-- A transaction that inserts no outbox row. -/
theorem putWorld_same (hs : Filed s) (hout : w.pg.outbox = s.pg.outbox) :
    s.putWorld encode age w = { s with world := w } := by
  have hnone : w.pg.outbox[s.events.length]? = none := by
    rw [hout, hs.length]
    exact List.getElem?_eq_none le_rfl
  simp [Store.putWorld, hnone]

/-- A transaction that inserts an outbox row. -/
theorem events_putWorld (hs : Filed s) {row : OutboxRow} (hout : w.pg.outbox = s.pg.outbox ++ [row]) :
    (s.putWorld encode age w).events = s.events ++ [Outbox.newEvent s.now s.events.length
      (aggregateId row) (eventType row) (encode row) age] := by
  have hsome : w.pg.outbox[s.events.length]? = some row := by
    rw [hout, hs.length]
    simp
  simp [Store.putWorld, hsome]

theorem Filed.append (hs : Filed s) {row : OutboxRow} (hout : w.pg.outbox = s.pg.outbox ++ [row])
    (hknown : ∀ row ∈ w.pg.outbox, Known w.pg row) : Filed (s.putWorld encode age w) := by
  refine ⟨?_, hknown⟩
  show _ = w.pg.outbox.mapIdx _
  rw [events_putWorld hs hout, hout, List.map_append, hs.columns, List.mapIdx_append, hs.length]
  simp [column, Outbox.newEvent]

/-- Rows that stay keep the aggregates known. -/
theorem Known.mono {s t : Postgres} {row : OutboxRow} (h : Known s row)
    (hrequests : ∀ r ∈ s.requests, ∃ r' ∈ t.requests, r'.id = r.id)
    (horders : ∀ o ∈ s.orders, ∃ o' ∈ t.orders, SamePurchase o o') : Known t row := by
  match row with
  | .paymentRequested m =>
      obtain ⟨r, hr, hid⟩ := h
      obtain ⟨r', hr', hid'⟩ := hrequests r hr
      exact ⟨r', hr', hid'.trans hid⟩
  | .cancellationRequested m =>
      obtain ⟨o, ho, hid⟩ := h
      obtain ⟨o', ho', hsame⟩ := horders o ho
      refine ⟨o', ho', ?_⟩
      rw [hsame]
      exact hid
  | .orderCompleted _ => trivial
  | .ticketCancelled _ => trivial

/-- What a statement that inserts an outbox row does to the requests and orders. -/
structure Books (s t : Postgres) : Prop where
  requests : ∀ r ∈ s.requests, ∃ r' ∈ t.requests, r'.id = r.id ∧ (Final r.status → Final r'.status)
  orders : ∀ o ∈ s.orders, ∃ o' ∈ t.orders, SamePurchase o o' ∧
    (o.status = .refunded → o'.status = .refunded)
  outbox : ∃ row, t.outbox = s.outbox ++ [row] ∧ Known t row

theorem Books.keeps (h : Books s.pg w.pg) (hs : Filed s) :
    Filed (s.putWorld encode age w) ∧ Progress X s (s.putWorld encode age w) := by
  obtain ⟨row, hout, hnew⟩ := h.outbox
  refine ⟨hs.append hout fun row' hrow => ?_, h.requests, h.orders, ?_, ?_, fun _ n hn => .inl hn⟩
  · rw [hout] at hrow
    rcases List.mem_append.1 hrow with hrow | hrow
    · refine (hs.known row' hrow).mono (fun r hr => ?_) fun o ho => ?_
      · obtain ⟨r', hr', hid, -⟩ := h.requests r hr
        exact ⟨r', hr', hid⟩
      · obtain ⟨o', ho', hsame, -⟩ := h.orders o ho
        exact ⟨o', ho', hsame⟩
    · rw [List.mem_singleton.1 hrow]
      exact hnew
  · show s.pg.outbox <+: w.pg.outbox
    rw [hout]
    exact List.prefix_append _ _
  · rw [events_putWorld hs hout, List.map_append]
    exact List.prefix_append _ _

theorem books_commit {i : ℕ} {pg : Postgres} {txn : Txn} {message : CheckoutMessage}
    (hopen : pg.txnOf i = some txn) (hevent : txn.event = some message)
    (hid : message.paymentRequestId = txn.row.id) : Books pg (pg.commit i) := by
  unfold Postgres.commit
  rw [hopen]
  refine ⟨fun r hr => ⟨r, List.mem_append_left _ hr, rfl, fun h => h⟩,
    fun o ho => ⟨o, ho, .refl o, fun h => h⟩, .paymentRequested message, ?_, ?_⟩
  · simp [hevent]
  · exact ⟨txn.row, List.mem_append_right _ (List.mem_singleton_self _), hid.symm⟩

theorem books_checkout {pg : Postgres} {c : CheckoutCommit} (hfree : pg.orderRefused c = false) :
    Books pg (pg.commitCheckout c).1 := by
  unfold Postgres.commitCheckout
  rw [if_neg (by rw [hfree]; exact Bool.false_ne_true)]
  refine ⟨fun r hr => ?_, fun o ho => ⟨o, List.mem_append_left _ ho, .refl o, fun h => h⟩, _, rfl,
    trivial⟩
  refine ⟨_, Table.mem_updateWhere_of_mem hr, ?_⟩
  split_ifs
  · exact ⟨rfl, fun _ => .inl rfl⟩
  · exact ⟨rfl, fun h => h⟩

theorem books_start {pg : Postgres} {o : OrderRow} {message : CancellationMessage}
    (ho : o ∈ pg.orders) (hcompleted : ∃ q ∈ pg.orders, q.id = o.id ∧ q.status = .completed)
    (hid : message.orderId = o.id) : Books pg (pg.startCancellation o.id message) := by
  have hany : (pg.orders.any fun q => decide (q.id = o.id ∧ q.status = .completed)) = true := by
    obtain ⟨q, hq, hcond⟩ := hcompleted
    exact List.any_eq_true.2 ⟨q, hq, decide_eq_true hcond⟩
  unfold Postgres.startCancellation
  rw [if_pos hany]
  refine ⟨fun r hr => ⟨r, hr, rfl, fun h => h⟩, fun q hq => ?_, _, rfl, ?_⟩
  · refine ⟨_, Table.mem_updateWhere_of_mem hq, ?_⟩
    split_ifs with hcond
    · refine ⟨rfl, fun h => ?_⟩
      rw [(of_decide_eq_true hcond).2] at h
      cases h
    · exact ⟨.refl q, fun h => h⟩
  · refine ⟨_, Table.mem_updateWhere_of_mem ho, ?_⟩
    split_ifs <;> exact hid.symm

theorem books_cancel (pg : Postgres) (c : CancellationCommit) :
    Books pg (pg.commitCancellation c).1 := by
  refine ⟨fun r hr => ⟨r, hr, rfl, fun h => h⟩, fun o ho => ?_, _, rfl, trivial⟩
  refine ⟨_, Table.mem_updateWhere_of_mem ho, ?_⟩
  split_ifs
  · exact ⟨rfl, fun _ => rfl⟩
  · exact ⟨.refl o, fun h => h⟩

theorem progress_of_rest (hpg : Rest s.pg t.pg) (hevents : EventsMoved X s t)
    (hqueue : X → ∀ n ∈ s.queue, n ∈ t.queue ∨ Finished n s) : Progress X s t := by
  have hprogress : ∀ Y : Prop, (Y → ∀ n ∈ s.queue, n ∈ t.queue ∨ Finished n t) → Progress Y s t := by
    intro Y hY
    obtain ⟨g, hg, hsettles⟩ := hpg.requests
    obtain ⟨h, hh, hcolumn⟩ := hevents
    refine ⟨fun r hr => ?_, fun o ho => ⟨o, hpg.orders ▸ ho, .refl o, fun h => h⟩,
      hpg.outbox ▸ List.prefix_rfl, ?_, hY⟩
    · exact ⟨g r, hg ▸ List.mem_map_of_mem hr, (hsettles r).same.id, (hsettles r).final⟩
    · have heq : t.events.map column = s.events.map column := by
        rw [hh, List.map_map]
        exact List.map_congr_left fun e he => (hcolumn e he).1
      exact heq ▸ List.prefix_rfl
  have hbase := hprogress False fun h => h.elim
  exact hprogress X fun hX n hn => (hqueue hX n hn).imp_right (·.mono hbase)

theorem filed_of_rest (hs : Filed s) (hpg : Rest s.pg t.pg) (hevents : EventsMoved X s t) :
    Filed t := by
  obtain ⟨h, hh, hcolumn⟩ := hevents
  refine ⟨?_, fun row hrow => ?_⟩
  · rw [hpg.outbox, ← hs.columns, hh, List.map_map]
    exact List.map_congr_left fun e he => (hcolumn e he).1
  · obtain ⟨g, hg, hsettles⟩ := hpg.requests
    refine (hs.known row (hpg.outbox ▸ hrow)).mono (fun r hr => ?_) fun o ho => ?_
    · exact ⟨g r, hg ▸ List.mem_map_of_mem hr, (hsettles r).same.id⟩
    · exact ⟨o, hpg.orders ▸ ho, .refl o⟩

/-- A turn keeps the rows in step, and what the services rely on. -/
theorem Turn.keeps (h : Turn X encode s t) (hs : Filed s) : Filed t ∧ Progress X s t := by
  cases h with
  | rest hpg hevents hqueue =>
      exact ⟨filed_of_rest hs hpg hevents, progress_of_rest hpg hevents hqueue⟩
  | commit i age txn message hopen hevent hid ht =>
      subst ht
      exact Books.keeps (books_commit hopen hevent hid) hs
  | checkout c age hrow hfree ht =>
      subst ht
      exact Books.keeps (books_checkout hfree) hs
  | start o age message ho hcompleted hnames ht =>
      subst ht
      exact Books.keeps (books_start ho hcompleted hnames.orderId) hs
  | cancel message age hrow ht =>
      subst ht
      exact Books.keeps (books_cancel s.pg _) hs

end Turns

end Backend
end Bookit

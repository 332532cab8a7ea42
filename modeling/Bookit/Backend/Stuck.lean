import Bookit.Backend.Lifecycle

/-!
# Backend.Stuck — what still works on an order or a payment

As long as messages leave the queue only when they are done, an order that is being cancelled and a
request that is not decided have a row to be published or a message in the queue.  The outbox server
and the acknowledgements see to that; a rejection, an expiry and a restart of the broker do not.
-/

namespace Bookit
namespace Backend

open Lib Payments

/-- The row of the outbox is to be published, or its message is in the queue. -/
def Working (n : ℕ) (s : Store) : Prop :=
  (∃ e ∈ s.events, e.id = n ∧ Due e) ∨ n ∈ s.queue

/-- Something works on the cancellation of every order, and on every undecided request. -/
structure NotStuck (s : Store) : Prop where
  orders : ∀ o ∈ s.pg.orders, o.status = .cancelling →
    ∃ n m, s.pg.outbox[n]? = some (.cancellationRequested m) ∧ m.orderId = o.id ∧ Working n s
  requests : ∀ r ∈ s.pg.requests, r.status = .pending ∨ r.status = .processing →
    ∃ n m, s.pg.outbox[n]? = some (.paymentRequested m) ∧ m.paymentRequestId = r.id ∧ Working n s

/-- A message leaves the queue by rejection, expiry or a restart of the broker only when it can go. -/
def KeepsMessages : BackendPool → Act Outcome Environ → Prop :=
  Machine.Guarded (fun _ _ e c s => NothingLost e c s) NothingDropped

/-- Every row is worked on or finished, and every request has a row. -/
structure Tended (s : Store) : Prop where
  rows : ∀ n < s.pg.outbox.length, (∃ e ∈ s.events, e.id = n ∧ Due e) ∨ Placed n s
  requests : ∀ r ∈ s.pg.requests, ∃ m, .paymentRequested m ∈ s.pg.outbox ∧ m.paymentRequestId = r.id

section Stuck

variable {encode : OutboxRow → Json} {s t : Store} {age : ℕ} {w : World}

theorem routeFor_eventType (row : OutboxRow) : Outbox.routeFor (eventType row) ≠ none := by
  cases row with
  | paymentRequested _ => simp [eventType, Outbox.routeFor]
  | cancellationRequested _ => simp [eventType, Outbox.routeFor]
  | orderCompleted _ => simp [eventType, Outbox.routeFor]
  | ticketCancelled _ => simp [eventType, Outbox.routeFor]

/-- The rows where the tables of bookings are as they were: a row that is no longer due is placed. -/
theorem rows_of_rest (hs : Filed s) (h : Tended s) (hpg : Rest s.pg t.pg)
    (hevents : EventsMoved True s t) (hst : Progress True s t) :
    ∀ n < t.pg.outbox.length, (∃ e ∈ t.events, e.id = n ∧ Due e) ∨ Placed n t := by
  intro n hn
  obtain ⟨f, hf, hmoved⟩ := hevents
  rcases h.rows n (hpg.outbox ▸ hn) with ⟨e, he, rfl, hdue⟩ | hplaced
  · obtain ⟨hcolumn, hmove⟩ := hmoved e he
    rcases hmove hdue with hdue' | hplaced | hroute
    · exact .inl ⟨f e, hf ▸ List.mem_map_of_mem he, congrArg Prod.fst hcolumn, hdue'⟩
    · exact .inr ((hplaced trivial).mono trivial hst)
    · obtain ⟨row, -, htype, -⟩ := hs.row (List.mem_map_of_mem (f := column) he)
      rw [← htype] at hroute
      exact absurd hroute (routeFor_eventType row)
  · exact .inr (hplaced.mono trivial hst)

/-- The rows after a transaction that inserts one: the new row is due. -/
theorem rows_of_books (hs : Filed s) (h : Tended s) (hbooks : Books s.pg w.pg) :
    ∀ n < (s.putWorld encode age w).pg.outbox.length,
      (∃ e ∈ (s.putWorld encode age w).events, e.id = n ∧ Due e) ∨
        Placed n (s.putWorld encode age w) := by
  intro n hn
  obtain ⟨row, hout, -⟩ := hbooks.outbox
  have hst : Progress True s (s.putWorld encode age w) := (hbooks.keeps hs).2
  have hn : n < w.pg.outbox.length := hn
  rw [hout, List.length_append, List.length_singleton] at hn
  rw [events_putWorld hs hout]
  rcases Nat.lt_succ_iff_lt_or_eq.1 hn with hlt | rfl
  · rcases h.rows n hlt with ⟨e, he, hid, hdue⟩ | hplaced
    · exact .inl ⟨e, List.mem_append_left _ he, hid, hdue⟩
    · exact .inr (hplaced.mono trivial hst)
  · exact .inl ⟨_, List.mem_append_right _ (List.mem_singleton_self _), hs.length, rfl, rfl⟩

/-- The requests where none is committed. -/
theorem requests_kept (h : Tended s) (hst : s.pg.outbox <+: t.pg.outbox)
    (hrequests : ∀ r ∈ t.pg.requests, ∃ q ∈ s.pg.requests, q.id = r.id) :
    ∀ r ∈ t.pg.requests, ∃ m, .paymentRequested m ∈ t.pg.outbox ∧ m.paymentRequestId = r.id := by
  intro r hr
  obtain ⟨q, hq, hid⟩ := hrequests r hr
  obtain ⟨m, hm, hmid⟩ := h.requests q hq
  exact ⟨m, hst.subset hm, hmid.trans hid⟩

/-- A request is committed with its row. -/
theorem requests_commit (h : Tended s) {i : ℕ} {txn : Txn} {message : CheckoutMessage}
    (hopen : s.pg.txnOf i = some txn) (hevent : txn.event = some message)
    (hid : message.paymentRequestId = txn.row.id) :
    ∀ r ∈ (s.pg.commit i).requests,
      ∃ m, .paymentRequested m ∈ (s.pg.commit i).outbox ∧ m.paymentRequestId = r.id := by
  intro r hr
  unfold Postgres.commit at hr ⊢
  rw [hopen] at hr ⊢
  rcases List.mem_append.1 hr with hr | hr
  · obtain ⟨m, hm, hmid⟩ := h.requests r hr
    exact ⟨m, List.mem_append_left _ hm, hmid⟩
  · rw [List.mem_singleton.1 hr]
    exact ⟨message, List.mem_append_right _ (by simp [hevent]), hid⟩

theorem requests_checkout (pg : Postgres) (c : CheckoutCommit) :
    ∀ r ∈ (pg.commitCheckout c).1.requests, ∃ q ∈ pg.requests, q.id = r.id := by
  intro r hr
  rcases commitCheckout_cases pg c with heq | ⟨-, heq⟩
  · rw [heq] at hr
    exact ⟨r, hr, rfl⟩
  · rw [heq] at hr
    rcases Table.mem_updateWhere_cases hr with ⟨hr, -⟩ | ⟨q, hq, -, rfl⟩
    · exact ⟨r, hr, rfl⟩
    · exact ⟨q, hq, rfl⟩

theorem requests_start (pg : Postgres) (id : ℕ) (message : CancellationMessage) :
    (pg.startCancellation id message).requests = pg.requests := by
  unfold Postgres.startCancellation
  split_ifs <;> rfl

/-- Every turn of a run that keeps its messages keeps the rows tended. -/
theorem Tended.turn (hs : Filed s) (h : Tended s) (hturn : Turn True encode s t) : Tended t := by
  have hst := (hturn.keeps hs).2
  cases hturn with
  | rest hpg hevents hqueue =>
      refine ⟨rows_of_rest hs h hpg hevents hst, requests_kept h hst.outbox fun r hr => ?_⟩
      obtain ⟨g, hg, hsettles⟩ := hpg.requests
      rw [hg] at hr
      obtain ⟨q, hq, rfl⟩ := List.mem_map.1 hr
      exact ⟨q, hq, (hsettles q).same.id.symm⟩
  | commit i age txn message hopen hevent hid ht =>
      subst ht
      exact ⟨rows_of_books hs h (books_commit hopen hevent hid), requests_commit h hopen hevent hid⟩
  | checkout c age hrow hfree ht =>
      subst ht
      exact ⟨rows_of_books hs h (books_checkout hfree),
        requests_kept h hst.outbox (requests_checkout s.pg c)⟩
  | start o age message ho hcompleted hnames ht =>
      subst ht
      refine ⟨rows_of_books hs h (books_start ho hcompleted hnames.orderId),
        requests_kept h hst.outbox fun r hr => ⟨r, ?_, rfl⟩⟩
      exact requests_start s.pg o.id message ▸ hr
  | cancel message age hrow ht =>
      subst ht
      exact ⟨rows_of_books hs h (books_cancel s.pg _),
        requests_kept h hst.outbox fun r hr => ⟨r, hr, rfl⟩⟩

theorem tended_of_reachable {p : BackendPool}
    (h : (machine encode).system.ReachableUnder (Guard True encode) p) : Tended p.store := by
  refine reachable_induction (X := True) (I := Tended) (fun seats => ?_) ?_ h
  · exact ⟨fun n hn => absurd hn (Nat.not_lt_zero n), fun _ hr => absurd hr List.not_mem_nil⟩
  · intro s t _ hs hI hturn
    exact hI.turn hs hturn

/-- A row that is not finished is worked on. -/
theorem Tended.working (h : Tended s) {n : ℕ} {row : OutboxRow}
    (hrow : s.pg.outbox[n]? = some row) (hopen : ¬ Finished n s) : Working n s := by
  rcases h.rows n (List.getElem?_eq_some_iff.1 hrow).1 with hdue | hqueue | hfinished
  · exact .inl hdue
  · exact .inr hqueue
  · exact absurd hfinished hopen

/-- The request of a finished message is decided. -/
theorem final_of_finished (hbase : Base s.pg) (hagreement : Agreement s.pg) {n : ℕ}
    {m : CheckoutMessage} (hrow : s.pg.outbox[n]? = some (.paymentRequested m))
    (hfinished : Finished n s) {r : RequestRow} (hr : r ∈ s.pg.requests)
    (hid : m.paymentRequestId = r.id) : Final r.status := by
  rcases hfinished with hdone | hordered
  · unfold Done at hdone
    rw [hrow] at hdone
    obtain ⟨q, hq, hqid, hfinal⟩ := hdone
    obtain rfl : q = r := by
      refine List.inj_on_of_nodup_map (f := fun x : RequestRow => x.id) ?_ hq hr (hqid.trans hid)
      rw [List.Nodup, List.pairwise_map]
      exact hbase.rows.imp fun {a b} hab heq => by simp [Postgres.conflicts, heq] at hab
    exact hfinal
  · unfold Ordered at hordered
    rw [hrow] at hordered
    obtain ⟨o, ho, hoid⟩ := hordered
    exact .inl ((hagreement.succeeded r hr).2 ⟨o, ho, hoid.trans hid⟩)

/-- In every run that keeps its messages, nothing is stuck. -/
theorem nothing_stuck {p : BackendPool}
    (h : (machine encode).system.ReachableUnder KeepsMessages p) : NotStuck p.store := by
  have hguarded : (machine encode).system.ReachableUnder (Guard True encode) p :=
    h.mono fun _ _ hG => hG.mono (fun _ _ _ _ _ hlost _ => hlost) fun _ _ hdropped _ => hdropped
  have htended := tended_of_reachable hguarded
  have hagreement := agreement_of_reachable hguarded
  refine ⟨fun o ho hstatus => ?_, fun r hr hstatus => ?_⟩
  · obtain ⟨m, hm, -⟩ := (asked_of_reachable hguarded o ho).2 (by rw [hstatus]; simp)
    have hmem : m ∈ cancellationsOf p.store.pg o.id := hm ▸ List.mem_singleton_self m
    obtain ⟨hrow, hid⟩ := mem_cancellationsOf.1 hmem
    obtain ⟨n, hn⟩ := List.mem_iff_getElem?.1 hrow
    refine ⟨n, m, hn, hid, htended.working hn ?_⟩
    rintro (hdone | hordered)
    · unfold Done at hdone
      rw [hn] at hdone
      obtain ⟨o', ho', hid', hrefunded⟩ := hdone
      obtain rfl : o' = o := List.inj_on_of_nodup_map hagreement.ids ho' ho (hid'.trans hid)
      rw [hstatus] at hrefunded
      cases hrefunded
    · unfold Ordered at hordered
      rw [hn] at hordered
      exact hordered
  · obtain ⟨m, hm, hid⟩ := htended.requests r hr
    obtain ⟨n, hn⟩ := List.mem_iff_getElem?.1 hm
    refine ⟨n, m, hn, hid, htended.working hn fun hfinished => ?_⟩
    have hfinal := final_of_finished (base_of_reachable h.reachable) hagreement hn hfinished hr hid
    rcases hstatus with hstatus | hstatus
    · rw [hstatus] at hfinal
      exact absurd hfinal (by decide)
    · rw [hstatus] at hfinal
      exact absurd hfinal (by decide)

end Stuck

/-! ## A rejection and an expiry -/

instance (n : ℕ) (s : Store) : Decidable (Done n s) :=
  match hrow : s.pg.outbox[n]? with
  | some (.paymentRequested m) =>
      decidable_of_iff (∃ r ∈ s.pg.requests, r.id = m.paymentRequestId ∧ Final r.status) (by
        unfold Done
        rw [hrow])
  | some (.cancellationRequested m) =>
      decidable_of_iff (∃ o ∈ s.pg.orders, o.id = m.orderId ∧ o.status = .refunded) (by
        unfold Done
        rw [hrow])
  | some (.orderCompleted _) => isTrue (by
      unfold Done
      rw [hrow]
      trivial)
  | some (.ticketCancelled _) => isTrue (by
      unfold Done
      rw [hrow]
      trivial)
  | none => isFalse (by
      unfold Done
      rw [hrow]
      exact id)

instance (n : ℕ) (s : Store) : Decidable (Spare n s) :=
  inferInstanceAs (Decidable (_ ∨ _))

instance (e : Outcome) (c : Cmd) (s : Store) : Decidable (NothingLost e c s) :=
  match c with
  | .settle n .nack => inferInstanceAs (Decidable (e.fate ≠ .lost → Spare n s))
  | .settle _ .ack => isTrue trivial
  | .pay _ => isTrue trivial
  | .outbox _ => isTrue trivial

instance (x : Environ) (s : Store) : Decidable (NothingDropped x s) :=
  match x with
  | .expire n => inferInstanceAs (Decidable (Spare n s))
  | .restart => inferInstanceAs (Decidable (∀ n ∈ s.queue, Done n s))
  | .tick _ | .tickRedis _ | .request .. | .cancelOrder .. | .deliver .. | .startServer .. |
      .onRedis _ => isTrue trivial

instance (p : BackendPool) (a : Act Outcome Environ) : Decidable (KeepsMessages p a) :=
  inferInstanceAs (Decidable (Machine.Guarded _ _ p a))

/-- The outbox server of thread `i` publishes its next row. -/
def publishes (i : ℕ) : List (Act Outcome Environ) :=
  [.run i (.server (.db .ok []) false), .run i (.server (.broker (.ok (.ack false))) false),
    .run i (.server (.db .ok []) false)]

/-- User 42 buys seat 1 and asks for a cancellation, the row of which is published. -/
def cancels : List (Act Outcome Environ) :=
  buys ++ .environ (.startServer none 3) :: publishes 2 ++
    .environ (.deliver 0 100 true) :: steps 3 26 ++
    .environ (.cancelOrder 42 100 "cancel") :: steps 4 3 ++ publishes 2 ++ publishes 2

/-- A cancellation that waits in the queue. -/
theorem nothing_stuck_cancelling :
    ∃ p, (machine plain).system.ReachableUnder KeepsMessages p ∧
      p.store.pg.orders.map (·.status) = [.cancelling] ∧ NotStuck p.store := by
  obtain ⟨p, hp, hstatus⟩ := System.exists_reachable_of_runUnder (machine plain).system KeepsMessages
    (fun p : BackendPool => decide (p.store.pg.orders.map (·.status) = [.cancelling])) init_oneSeat
    cancels (by decide +kernel)
  exact ⟨p, hp, of_decide_eq_true hstatus, nothing_stuck hp⟩

/-- With an empty queue and every row published, nothing works on anything. -/
theorem not_working {s : Store} (hqueue : s.queue = [])
    (hevents : (s.events.all fun e => e.publishedAt.isSome) = true) (n : ℕ) : ¬ Working n s := by
  rintro (⟨e, he, -, hdue⟩ | hn)
  · have hpublished := List.all_eq_true.1 hevents e he
    rw [hdue.1] at hpublished
    cases hpublished
  · rw [hqueue] at hn
    exact List.not_mem_nil hn

/-- The transaction of a cancellation fails, and its message is rejected for good; a payment request
expires in the queue. -/
theorem cancelling_stuck :
    (¬ ∀ p, (machine plain).system.Reachable p → ∀ o ∈ p.store.pg.orders, o.status = .cancelling →
      ∃ n m, p.store.pg.outbox[n]? = some (.cancellationRequested m) ∧ m.orderId = o.id ∧
        Working n p.store) ∧
    (¬ ∀ p, (machine plain).system.Reachable p → ∀ r ∈ p.store.pg.requests,
      r.status = .pending ∨ r.status = .processing →
      ∃ n m, p.store.pg.outbox[n]? = some (.paymentRequested m) ∧ m.paymentRequestId = r.id ∧
        Working n p.store) := by
  obtain ⟨p, hp, hrejected⟩ := System.exists_reachable_of_run (machine plain).system
    (fun p : BackendPool => decide (p.store.pg.orders.map (·.status) = [.cancelling] ∧
      p.store.queue = [] ∧ (p.store.events.all fun e => e.publishedAt.isSome) = true)) init_oneSeat
    (cancels ++ [.environ (.deliver 2 0 true), .run 5 (.link .lost 0), .run 5 (.link .ok 0)])
    (by decide +kernel)
  obtain ⟨q, hq, hexpired⟩ := System.exists_reachable_of_run (machine plain).system
    (fun p : BackendPool => decide (p.store.pg.requests.map (·.status) = [.processing] ∧
      p.store.queue = [] ∧ (p.store.events.all fun e => e.publishedAt.isSome) = true)) init_oneSeat
    (buys ++ .environ (.startServer none 1) :: publishes 2 ++ [.environ (.expire 0)])
    (by decide +kernel)
  obtain ⟨horders, hqueue, hevents⟩ := of_decide_eq_true hrejected
  obtain ⟨hrequests, hqueue', hevents'⟩ := of_decide_eq_true hexpired
  refine ⟨fun h => ?_, fun h => ?_⟩
  · obtain ⟨o, ho, hstatus⟩ := List.mem_map.1 (horders ▸ List.mem_singleton_self OrderStatus.cancelling)
    obtain ⟨n, m, -, -, hworking⟩ := h p hp o ho hstatus
    exact not_working hqueue hevents n hworking
  · obtain ⟨r, hr, hstatus⟩ :=
      List.mem_map.1 (hrequests ▸ List.mem_singleton_self RequestStatus.processing)
    obtain ⟨n, m, -, -, hworking⟩ := h q hq r hr (.inr hstatus)
    exact not_working hqueue' hevents' n hworking

end Backend
end Bookit

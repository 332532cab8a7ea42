import Bookit.Notifications.Store
import Bookit.Payments.Invariant

/-!
# Notifications.Tickets — tickets and cancelled orders

An order has at most one ticket.  A cancellation takes with it the ticket that it finds; a worker
looks for the ticket first and makes one much later, without a look at the order.
-/

namespace Bookit
namespace Notifications

open Lib Payments

/-- No order that is refunded has an active ticket. -/
def Settled (s : Postgres) : Prop :=
  ∀ o ∈ s.orders, o.status = .refunded → ∀ t ∈ s.tickets, t.orderId = o.id → t.status ≠ .active

/-- A ticket is made for an order that is not refunded. -/
def InTime (c : Cmd) (s : Store) : Prop :=
  match c with
  | .insertTicket event _ => ∀ o ∈ s.pg.orders, o.id = event.orderId → o.status ≠ .refunded
  | _ => True

def InTimeRun : TicketPool → Act Outcome Environ → Prop :=
  Machine.Guarded (fun _ _ _ c s => InTime c s) fun _ _ => True

section Tickets

variable {parse : String → Option Url} {i : ℕ} {e : Outcome} {c : Cmd} {s t : Store} {r : Rep c}

/-! ## What a step does to tickets and orders -/

/-- A command of a worker makes a ticket, or leaves tickets and orders as they were. -/
theorem exec_cases (h : exec i e c s = some (t, r)) :
    (t.pg.tickets = s.pg.tickets ∧ t.pg.orders = s.pg.orders) ∨
      ∃ event url, c = .insertTicket event url ∧ s.ticketRefused event.orderId = false ∧
        t.pg.tickets = s.pg.tickets ++ [⟨event.orderId, event.scheduleId, .active⟩] ∧
        t.pg.orders = s.pg.orders := by
  cases e with
  | uploaded url =>
      cases c with
      | generateTicketPdf event =>
          obtain ⟨rfl, -⟩ := Prod.mk.inj (Option.some.inj h)
          exact .inl ⟨rfl, rfl⟩
      | _ => cases h
  | link l =>
      cases c with
      | generateTicketPdf event => cases h
      | insertTicket event url =>
          obtain ⟨hstore, -⟩ := Prod.mk.inj (Option.some.inj h)
          rcases Link.deliver_cases (l := l) (Prod.ext hstore rfl) with ⟨rfl, -⟩ | ⟨rfl, -⟩
          · exact .inl ⟨rfl, rfl⟩
          · unfold Store.insertTicket
            split_ifs with hrefused
            · exact .inl ⟨rfl, rfl⟩
            · exact .inr ⟨event, url, rfl, by simpa using hrefused, rfl, rfl⟩
      | _ =>
          rcases Link.deliver_cases (Option.some.inj h) with ⟨rfl, -⟩ | ⟨rfl, -⟩
          · exact .inl ⟨rfl, rfl⟩
          · exact .inl ⟨rfl, rfl⟩

/-- The environment makes no ticket. -/
theorem orderIds_of_environ {x : Environ} {new : List (ℕ × Worker Verdict)}
    (h : environ parse x s = some (t, new)) :
    t.pg.tickets.map (·.orderId) = s.pg.tickets.map (·.orderId) := by
  cases x with
  | checkout c =>
      obtain ⟨rfl, -⟩ := Prod.mk.inj (Option.some.inj h)
      rcases commitCheckout_cases s.pg c with heq | ⟨-, heq⟩
      · show (s.pg.commitCheckout c).1.tickets.map _ = _
        rw [heq]
      · show (s.pg.commitCheckout c).1.tickets.map _ = _
        rw [heq]
  | cancelOrder userId orderId idempotencyKey =>
      simp only [environ] at h
      split at h
      · cases h
      · next order _ =>
        obtain ⟨rfl, -⟩ := Prod.mk.inj (Option.some.inj h)
        show (s.pg.startCancellation order.id _).tickets.map _ = _
        unfold Postgres.startCancellation
        split_ifs <;> rfl
  | cancel n =>
      simp only [environ] at h
      split at h
      · obtain ⟨rfl, -⟩ := Prod.mk.inj (Option.some.inj h)
        exact Table.map_updateWhere fun _ => rfl
      · cases h
  | deliver n =>
      simp only [environ] at h
      split at h
      · obtain ⟨rfl, -⟩ := Prod.mk.inj (Option.some.inj h)
        rfl
      · obtain ⟨rfl, -⟩ := Prod.mk.inj (Option.some.inj h)
        rfl
      · cases h

/-! ## At most one ticket -/

theorem orderIds_of_exec (hs : (s.pg.tickets.map (·.orderId)).Nodup)
    (h : exec i e c s = some (t, r)) : (t.pg.tickets.map (·.orderId)).Nodup := by
  rcases exec_cases h with ⟨htickets, -⟩ | ⟨event, url, -, hfree, htickets, -⟩
  · rw [htickets]
    exact hs
  · rw [htickets, List.map_append, List.nodup_append]
    refine ⟨hs, List.nodup_singleton _, ?_⟩
    intro a ha b hb hab
    obtain ⟨ticket, hticket, rfl⟩ := List.mem_map.1 ha
    have hid : ticket.orderId = event.orderId := hab.trans (List.mem_singleton.1 hb)
    have hany : (s.pg.tickets.any fun t => decide (t.orderId = event.orderId)) = true :=
      List.any_eq_true.2 ⟨ticket, hticket, decide_eq_true hid⟩
    rw [Store.ticketRefused, hany] at hfree
    cases hfree

theorem orderIds_nodup {p : TicketPool} (h : (machine parse).system.Reachable p) :
    (p.store.pg.tickets.map (·.orderId)).Nodup := by
  have hrun : (machine parse).system.ReachableUnder
      (Machine.Guarded (fun _ _ _ _ _ => True) fun _ _ => True) p :=
    Machine.reachable_guarded (fun _ _ _ _ _ => trivial) h
  refine Machine.store_invariant (I := fun s : Store => (s.pg.tickets.map (·.orderId)).Nodup)
    ?_ ?_ ?_ (fun _ _ hs => hs) hrun
  · rintro s ⟨seats, rfl⟩
    exact List.nodup_nil
  · intro n i e c s t r hs _ hex
    exact orderIds_of_exec (i := i) hs hex
  · intro x s t new hs _ hx
    show (t.pg.tickets.map (·.orderId)).Nodup
    rw [orderIds_of_environ hx]
    exact hs

/-! ## No active ticket of a refunded order -/

theorem settled_of_exec (hs : Settled s.pg) (hintime : InTime c s) (h : exec i e c s = some (t, r)) :
    Settled t.pg := by
  rcases exec_cases h with ⟨htickets, horders⟩ | ⟨event, url, rfl, -, htickets, horders⟩
  · intro o ho hrefunded ticket hticket
    exact hs o (horders ▸ ho) hrefunded ticket (htickets ▸ hticket)
  · intro o ho hrefunded ticket hticket hid
    rw [horders] at ho
    rw [htickets] at hticket
    rcases List.mem_append.1 hticket with hticket | hticket
    · exact hs o ho hrefunded ticket hticket hid
    · rw [List.mem_singleton.1 hticket] at hid
      exact absurd hrefunded (hintime o ho hid.symm)

theorem Settled.commitCheckout {pg : Postgres} (hs : Settled pg) (c : CheckoutCommit) :
    Settled (pg.commitCheckout c).1 := by
  rcases commitCheckout_cases pg c with heq | ⟨-, heq⟩
  · rw [heq]
    exact hs
  · rw [heq]
    intro o ho hrefunded
    rcases List.mem_append.1 ho with ho | ho
    · exact hs o ho hrefunded
    · rw [List.mem_singleton.1 ho] at hrefunded
      cases hrefunded

theorem Settled.startCancellation {pg : Postgres} (hs : Settled pg) (id : ℕ)
    (message : CancellationMessage) : Settled (pg.startCancellation id message) := by
  unfold Postgres.startCancellation
  split_ifs
  · intro o ho hrefunded
    rcases Table.mem_updateWhere_cases ho with ⟨ho, -⟩ | ⟨q, -, -, rfl⟩
    · exact hs o ho hrefunded
    · cases hrefunded
  · exact hs

/-- The order is refunded and its tickets are cancelled in one transaction. -/
theorem Settled.commitCancellation {pg : Postgres} (hs : Settled pg) (c : CancellationCommit) :
    Settled (pg.commitCancellation c).1 := by
  intro o ho hrefunded ticket hticket hid
  rcases Table.mem_updateWhere_cases hticket with ⟨hticket, hother⟩ | ⟨q, -, -, rfl⟩
  · rcases Table.mem_updateWhere_cases ho with ⟨ho, -⟩ | ⟨q, -, hq, rfl⟩
    · exact hs o ho hrefunded ticket hticket hid
    · have hsame : ticket.orderId = c.orderId := hid.trans (of_decide_eq_true hq)
      simp [hsame] at hother
  · exact fun h => by cases h

theorem settled_of_environ {x : Environ} {new : List (ℕ × Worker Verdict)} (hs : Settled s.pg)
    (h : environ parse x s = some (t, new)) : Settled t.pg := by
  cases x with
  | checkout c =>
      obtain ⟨rfl, -⟩ := Prod.mk.inj (Option.some.inj h)
      exact hs.commitCheckout c
  | cancelOrder userId orderId idempotencyKey =>
      simp only [environ] at h
      split at h
      · cases h
      · next order _ =>
        obtain ⟨rfl, -⟩ := Prod.mk.inj (Option.some.inj h)
        exact hs.startCancellation _ _
  | cancel n =>
      simp only [environ] at h
      split at h
      · obtain ⟨rfl, -⟩ := Prod.mk.inj (Option.some.inj h)
        exact hs.commitCancellation _
      · cases h
  | deliver n =>
      simp only [environ] at h
      split at h
      · obtain ⟨rfl, -⟩ := Prod.mk.inj (Option.some.inj h)
        exact hs
      · obtain ⟨rfl, -⟩ := Prod.mk.inj (Option.some.inj h)
        exact hs
      · cases h

theorem settled_of_inTime {p : TicketPool} (h : (machine parse).system.ReachableUnder InTimeRun p) :
    Settled p.store.pg := by
  refine Machine.store_invariant (I := fun s : Store => Settled s.pg) ?_ ?_ ?_ (fun _ _ hs => hs) h
  · rintro s ⟨seats, rfl⟩
    exact fun _ ho => absurd ho List.not_mem_nil
  · intro n i e c s t r hs hintime hex
    exact settled_of_exec (i := i) hs hintime hex
  · intro x s t new hs _ hx
    exact settled_of_environ hs hx

/-- In every run an order has at most one ticket.  In every run that makes tickets in time, no
refunded order has an active one. -/
theorem tickets_agree :
    (∀ p, (machine parse).system.Reachable p → ∀ orderId,
      (p.store.pg.tickets.filter fun t => decide (t.orderId = orderId)).length ≤ 1) ∧
    (∀ p, (machine parse).system.ReachableUnder InTimeRun p →
      ∀ o ∈ p.store.pg.orders, o.status = .refunded →
        ∀ t ∈ p.store.pg.tickets, t.orderId = o.id → t.status ≠ .active) :=
  ⟨fun _ h orderId => Table.length_filter_le_one (orderIds_nodup h) orderId,
    fun _ h => settled_of_inTime h⟩

end Tickets

/-! ## A cancellation around the ticket -/

instance (c : Cmd) (s : Store) : Decidable (InTime c s) :=
  match c with
  | .insertTicket event _ =>
      inferInstanceAs (Decidable (∀ o ∈ s.pg.orders, o.id = event.orderId → o.status ≠ .refunded))
  | .connect | .findTicket _ | .emailSent _ | .generateTicketPdf _ | .setPdfUrl .. | .sendEmail _
  | .insertEmailSent _ => isTrue trivial

instance (p : TicketPool) (a : Act Outcome Environ) : Decidable (InTimeRun p a) :=
  inferInstanceAs (Decidable (Machine.Guarded _ _ p a))

/-- No text is a URL. -/
def noUrl : String → Option Url := fun _ => none

def steps (i n : ℕ) : List (Act Outcome Environ) :=
  List.replicate n (.run i (.link .ok))

/-- Seat 1 is bought under order 100. -/
def bought : Environ :=
  .checkout ⟨100, 10, 42, 1, [1], 118, "order_1", some "pay_1"⟩

/-- User 42 asks for the cancellation of order 100, which commits. -/
def refunds : List (Act Outcome Environ) :=
  [.environ (.cancelOrder 42 100 "cancel"), .environ (.cancel 1)]

/-- The worker of thread `i` looks for a ticket, finds none, and uploads a document. -/
def uploads (i : ℕ) : List (Act Outcome Environ) :=
  steps i 3 ++ [.run i (.uploaded (some "https://cdn/tickets/1.pdf"))]

/-- A ticket that is made, and cancelled with its order. -/
theorem tickets_agree_cancelled :
    ∃ p, (machine noUrl).system.ReachableUnder InTimeRun p ∧
      p.store.pg.tickets.map (·.status) = [.cancelled] ∧
      (∀ orderId, (p.store.pg.tickets.filter fun t => decide (t.orderId = orderId)).length ≤ 1) ∧
      ∀ o ∈ p.store.pg.orders, o.status = .refunded →
        ∀ t ∈ p.store.pg.tickets, t.orderId = o.id → t.status ≠ .active := by
  obtain ⟨p, hp, hstatus⟩ := System.exists_reachable_of_runUnder (machine noUrl).system InTimeRun
    (fun p : TicketPool => decide (p.store.pg.tickets.map (·.status) = [.cancelled]))
    (s := ⟨⟨(newWorld oneSeat).pg, [], []⟩, []⟩) ⟨⟨oneSeat, rfl⟩, rfl⟩
    (.environ bought :: .environ (.deliver 0) :: uploads 0 ++ steps 0 3 ++ refunds ++
      .environ (.deliver 2) :: steps 1 2) (by decide +kernel)
  exact ⟨p, hp, of_decide_eq_true hstatus, tickets_agree.1 p hp.reachable, tickets_agree.2 p hp⟩

/-- The order is refunded between the worker's look for a ticket and its insertion. -/
theorem ticket_outlives_order :
    ¬ ∀ p, (machine noUrl).system.Reachable p → allProcessed p = true →
      ∀ o ∈ p.store.pg.orders, o.status = .refunded →
        ∀ t ∈ p.store.pg.tickets, t.orderId = o.id → t.status ≠ .active := by
  intro hall
  obtain ⟨p, hp, htest⟩ := System.exists_reachable_of_run (machine noUrl).system
    (fun p : TicketPool => allProcessed p &&
      decide (p.store.pg.orders.map (fun o => (o.id, o.status)) = [(100, .refunded)] ∧
        p.store.pg.tickets = [⟨100, 1, .active⟩]))
    (s := ⟨⟨(newWorld oneSeat).pg, [], []⟩, []⟩) ⟨⟨oneSeat, rfl⟩, rfl⟩
    (.environ bought :: .environ (.deliver 0) :: uploads 0 ++ refunds ++ steps 0 3 ++
      .environ (.deliver 2) :: steps 1 2) (by decide +kernel)
  obtain ⟨hprocessed, hrows⟩ := Bool.and_eq_true_iff.1 htest
  obtain ⟨horders, htickets⟩ := of_decide_eq_true hrows
  obtain ⟨o, ho, hpair⟩ := List.mem_map.1 (horders ▸ List.mem_singleton_self (100, OrderStatus.refunded))
  obtain ⟨hid, hrefunded⟩ := Prod.mk.inj hpair
  exact hall p hp hprocessed o ho hrefunded _ (htickets ▸ List.mem_singleton_self _) hid.symm rfl

end Notifications
end Bookit

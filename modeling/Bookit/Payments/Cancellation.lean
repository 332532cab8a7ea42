import Bookit.Payments.Invariant

/-!
# Payments.Cancellation — a cancellation delivered more than once

The broker delivers a cancellation until a worker acknowledges it, so that a delivery may follow one
whose worker crashed anywhere between the refund, the transaction and the cached count, or run beside
one that is still at work.  A log records which delivery had which effect for which order.  Nothing in
the handler looks at what an earlier delivery did: each effect happens once, and no other order is
disturbed, in runs in which a single delivery acts for an order.
-/

namespace Bookit
namespace Cancellation

open Lib Payments

/-! ## The machine -/

/-- What a thread was started for. -/
inductive Task where
  | cancelOrder (userId : ℤ) (orderId : ℕ) (idempotencyKey : String)
  | cancellation (message : CancellationMessage)
  | redis

inductive Result where
  | response (r : Except AppError CancelOrderResponse)
  | verdict (v : Verdict)
  | done

inductive Environ where
  | tick (d : ℕ)
  /-- A checkout of free seats of its schedule commits. -/
  | book (c : CheckoutCommit)
  | cancelOrder (userId : ℤ) (orderId : ℕ) (idempotencyKey : String)
  /-- A delivery of the cancellation in the `n`-th outbox row. -/
  | deliver (n : ℕ)
  | onRedis (p : SingleNodeLock.Op Bool)

def cancelOrderTask (userId : ℤ) (orderId : ℕ) (idempotencyKey : String) : Service Result := do
  let r ← cancelOrder userId orderId idempotencyKey
  pure (.response r)

def cancellationTask (mockMode : Bool) (message : CancellationMessage) : Service Result := do
  let v ← processCancellation mockMode message
  pure (.verdict v)

def redisTask (p : SingleNodeLock.Op Bool) : Service Result := do
  let _ ← onRedis p
  pure .done

/-- The seats are free seats of the schedule, and the unique indexes admit the order. -/
def Bookable (c : CheckoutCommit) (s : Postgres) : Prop :=
  s.orderRefused c = false ∧ Listed s c.seatIds c.scheduleId ∧
    ∀ r ∈ s.seats, r.id ∈ c.seatIds → r.status = .available

instance {s : Postgres} {seatIds : List ℤ} {scheduleId : ℤ} :
    Decidable (Listed s seatIds scheduleId) := by
  unfold Listed
  infer_instance

instance {c : CheckoutCommit} {s : Postgres} : Decidable (Bookable c s) := by
  unfold Bookable
  infer_instance

def environ (mockMode : Bool) : Environ → World → Option (World × List (Task × Service Result))
  | .tick d, s => some ({ s with redis := { s.redis with now := s.redis.now + d } }, [])
  | .book c, s =>
      if Bookable c s.pg then some ({ s with pg := (s.pg.commitCheckout c).1 }, []) else none
  | .cancelOrder userId orderId idempotencyKey, s =>
      some (s, [(.cancelOrder userId orderId idempotencyKey,
        cancelOrderTask userId orderId idempotencyKey)])
  | .deliver n, s =>
      match s.pg.outbox[n]? with
      | some (.cancellationRequested message) =>
          some (s, [(.cancellation message, cancellationTask mockMode message)])
      | _ => none
  | .onRedis p, s => some (s, [(.redis, redisTask p)])

/-- The workers, without a log. -/
def workers (mockMode : Bool) : Machine World Rep Task Result Link Environ where
  init s := ∃ seats : List SeatRow, s = newWorld seats
  exec _ := exec
  environ := environ mockMode
  close _ s := s

/-! ## The effects of deliveries -/

inductive Kind where
  | refund
  | commit
  | increment
  deriving DecidableEq

/-- An effect of a delivery, worked on in a session, for the order of its message. -/
structure Effect where
  session : ℕ
  orderId : ℕ
  kind : Kind
  deriving DecidableEq

def kindOf : Cmd → Option Kind
  | .refund .. => some .refund
  | .commitCancellation _ => some .commit
  | .redis (.adjustAvailable ..) => some .increment
  | _ => none

/-- The effect of a command of a delivery, unless it is lost on the way. -/
def effectOf (n : Task) (i : ℕ) (l : Link) (c : Cmd) : Option Effect :=
  match n with
  | .cancellation message =>
      if l = .lost then none else (kindOf c).map fun kind => ⟨i, message.orderId, kind⟩
  | _ => none

def record (n : Task) (i : ℕ) (l : Link) (c : Cmd) (_ : World) (log : List Effect) :
    List Effect :=
  log ++ (effectOf n i l c).toList

/-- The workers with the log of their effects. -/
def machine (mockMode : Bool) : Machine (World × List Effect) Rep Task Result Link Environ :=
  (workers mockMode).logged [] record

/-- How often an effect has happened for an order. -/
def count (log : List Effect) (orderId : ℕ) (kind : Kind) : ℕ :=
  log.countP fun e => decide (e.orderId = orderId ∧ e.kind = kind)

/-- The audit rows of an order's cancellation. -/
def auditCount (s : Postgres) (orderId : ℕ) : ℕ :=
  s.audits.countP fun a => decide (a.orderId = orderId ∧ a.action = "ticket_cancelled")

def OutboxRow.cancels (orderId : ℕ) : OutboxRow → Bool
  | .ticketCancelled e => decide (e.orderId = orderId)
  | _ => false

/-- The `TicketCancelled` rows of an order. -/
def eventCount (s : Postgres) (orderId : ℕ) : ℕ :=
  s.outbox.countP (OutboxRow.cancels orderId)

/-- A delivery refunds or commits only where no other delivery has acted for the order. -/
def ActsAlone (n : Task) (i : ℕ) (l : Link) (c : Cmd) (s : World × List Effect) : Prop :=
  match effectOf n i l c with
  | some e => e.kind ≠ .increment → ∀ e' ∈ s.2, e'.orderId = e.orderId → e'.session = i
  | none => True

instance {n : Task} {i : ℕ} {l : Link} {c : Cmd} {s : World × List Effect} :
    Decidable (ActsAlone n i l c s) := by
  unfold ActsAlone
  split <;> infer_instance

/-- Runs in which one delivery acts for an order. -/
def AloneRun (p : Pool (World × List Effect) Rep Task Result) (a : Act Link Environ) : Prop :=
  Machine.Guarded ActsAlone (fun _ _ => True) p a

instance {p : Pool (World × List Effect) Rep Task Result} {a : Act Link Environ} :
    Decidable (AloneRun p a) :=
  inferInstanceAs (Decidable (Machine.Guarded _ _ p a))

/-! ## The invariant -/

/-- The message is about an order, and names its seats. -/
def Names (s : Postgres) (message : CancellationMessage) : Prop :=
  ∃ o ∈ s.orders, o.id = message.orderId ∧ o.seatIds = message.seatIds

/-- The seats of orders that are not refunded are booked, and no two of them share a seat. -/
structure Orders (s : Postgres) : Prop where
  ids : (s.orders.map (·.id)).Nodup
  listed : ∀ o ∈ s.orders, Listed s o.seatIds o.scheduleId
  booked : ∀ o ∈ s.orders, o.status ≠ .refunded → ∀ r ∈ s.seats, r.id ∈ o.seatIds →
    r.status = .booked
  apart : s.orders.Pairwise fun o o' => o.status ≠ .refunded → o'.status ≠ .refunded →
    ∀ k ∈ o.seatIds, k ∉ o'.seatIds
  requested : ∀ m, OutboxRow.cancellationRequested m ∈ s.outbox → Names s m

/-- The rows that a cancellation leaves are as many as its commits in the log. -/
structure Tally (s : Postgres) (log : List Effect) : Prop where
  known : ∀ e ∈ log, ∃ o ∈ s.orders, o.id = e.orderId
  commits : ∀ o ∈ s.orders, count log o.id .commit = if o.status = .refunded then 1 else 0
  audits : ∀ orderId, auditCount s orderId = count log orderId .commit
  events : ∀ orderId, eventCount s orderId = count log orderId .commit

/-- Each effect happens at most once for an order, all of them in one session, and an increment
only after a commit. -/
structure Once (log : List Effect) : Prop where
  refunds : ∀ orderId, count log orderId .refund ≤ 1
  increments : ∀ orderId, count log orderId .increment ≤ 1
  paired : ∀ e ∈ log, e.kind = .increment → ⟨e.session, e.orderId, .commit⟩ ∈ log
  alone : ∀ e ∈ log, ∀ e' ∈ log, e.orderId = e'.orderId → e.session = e'.session

structure Inv (s : World × List Effect) : Prop where
  orders : Orders s.1.pg
  tally : Tally s.1.pg s.2
  once : Once s.2

/-! ## Counting in the log -/

section Log

variable {log : List Effect} {orderId : ℕ} {kind : Kind} {i : ℕ}

@[simp] theorem count_append (e : Effect) :
    count (log ++ [e]) orderId kind =
      count log orderId kind + if e.orderId = orderId ∧ e.kind = kind then 1 else 0 := by
  simp [count, List.countP_append, List.countP_singleton]

theorem count_eq_zero (h : ∀ e ∈ log, e.orderId = orderId → e.kind ≠ kind) :
    count log orderId kind = 0 := by
  refine List.countP_eq_zero.2 fun e he => ?_
  simpa using h e he

/-- The effects of session `i` are of these kinds. -/
def Only (kinds : List Kind) (i : ℕ) (log : List Effect) : Prop :=
  ∀ e ∈ log, e.session = i → e.kind ∈ kinds

/-- The effects of a session. -/
def ownLog (log : List Effect) (i : ℕ) : List Effect :=
  log.filter fun e => decide (e.session = i)

theorem mem_ownLog {e : Effect} : e ∈ ownLog log i ↔ e ∈ log ∧ e.session = i := by
  simp [ownLog]

theorem Only.congr {kinds : List Kind} {log' : List Effect} (h : Only kinds i log)
    (hown : ownLog log' i = ownLog log i) : Only kinds i log' := by
  intro e he hi
  have hmem : e ∈ ownLog log i := hown ▸ mem_ownLog.2 ⟨he, hi⟩
  exact h e (mem_ownLog.1 hmem).1 hi

theorem Only.append {kinds : List Kind} (h : Only kinds i log) :
    Only (kinds ++ [kind]) i (log ++ [⟨i, orderId, kind⟩]) := by
  intro e he hi
  rcases List.mem_append.1 he with he | he
  · exact List.mem_append_left _ (h e he hi)
  · rw [List.mem_singleton.1 he]
    exact List.mem_append_right _ (List.mem_singleton_self kind)

theorem ownLog_append_ne {e : Effect} (h : e.session ≠ i) :
    ownLog (log ++ [e]) i = ownLog log i := by
  simp [ownLog, h]

/-- Session `i` is the only one that has acted for the order. -/
def Sole (i : ℕ) (orderId : ℕ) (log : List Effect) : Prop :=
  ∀ e ∈ log, e.orderId = orderId → e.session = i

/-- What the only session that acted has not done has not been done. -/
theorem Sole.count_eq_zero {kinds : List Kind} (h : Sole i orderId log) (honly : Only kinds i log)
    (hkind : kind ∉ kinds) : count log orderId kind = 0 :=
  Cancellation.count_eq_zero fun e he horder hk => hkind (hk ▸ honly e he (h e he horder))

/-- A further effect of the only session that acted for the order, new of its kind. -/
theorem Once.append {kinds : List Kind} (h : Once log) (hsole : Sole i orderId log)
    (honly : Only kinds i log) (hkind : kind ∉ kinds)
    (hpaired : kind = .increment → ⟨i, orderId, .commit⟩ ∈ log) :
    Once (log ++ [⟨i, orderId, kind⟩]) := by
  have hzero := hsole.count_eq_zero honly hkind
  have hle : ∀ k id, count log id k ≤ 1 → count (log ++ [⟨i, orderId, kind⟩]) id k ≤ 1 := by
    intro k id hk
    rw [count_append]
    split_ifs with hc
    · obtain ⟨rfl, rfl⟩ := hc
      rw [hzero]
    · exact hk
  refine ⟨fun id => hle _ id (h.refunds id), fun id => hle _ id (h.increments id), ?_, ?_⟩
  · intro e he hk
    rcases List.mem_append.1 he with he | he
    · exact List.mem_append_left _ (h.paired e he hk)
    · obtain rfl := List.mem_singleton.1 he
      exact List.mem_append_left _ (hpaired hk)
  · intro e he e' he' horder
    rcases List.mem_append.1 he with he | he
    · rcases List.mem_append.1 he' with he' | he'
      · exact h.alone e he e' he' horder
      · obtain rfl := List.mem_singleton.1 he'
        exact hsole e he horder
    · obtain rfl := List.mem_singleton.1 he
      rcases List.mem_append.1 he' with he' | he'
      · exact (hsole e' he' horder.symm).symm
      · obtain rfl := List.mem_singleton.1 he'
        rfl

end Log

/-! ## The statements -/

section Statements

variable {s : Postgres} {log : List Effect}

theorem symm_apart : Std.Symm fun o o' : OrderRow => o.status ≠ .refunded →
    o'.status ≠ .refunded → ∀ k ∈ o.seatIds, k ∉ o'.seatIds :=
  ⟨fun _ _ h ho' ho k hk' hk => h ho ho' k hk hk'⟩

/-- Orders that are not refunded and are not the same share no seat. -/
theorem Orders.disjoint (hs : Orders s) {o o' : OrderRow} (ho : o ∈ s.orders) (ho' : o' ∈ s.orders)
    (hne : o.id ≠ o'.id) (hactive : o.status ≠ .refunded) (hactive' : o'.status ≠ .refunded) :
    ∀ k ∈ o.seatIds, k ∉ o'.seatIds := by
  have hsymm := symm_apart
  exact hs.apart.forall ho ho' (fun h => hne (h ▸ rfl)) hactive hactive'

theorem Names.congr {t : Postgres} {m : CancellationMessage} (h : Names s m)
    (hst : ∀ o ∈ s.orders, ∃ o' ∈ t.orders, o'.id = o.id ∧ o'.seatIds = o.seatIds) :
    Names t m := by
  obtain ⟨o, ho, hid, hseats⟩ := h
  obtain ⟨o', ho', hid', hseats'⟩ := hst o ho
  exact ⟨o', ho', hid'.trans hid, hseats'.trans hseats⟩

/-- Two versions of an order row; an order that is refunded stays so. -/
structure SameOrder (o o' : OrderRow) : Prop where
  id : o'.id = o.id
  scheduleId : o'.scheduleId = o.scheduleId
  seatIds : o'.seatIds = o.seatIds
  refunded : o.status = .refunded → o'.status = .refunded

theorem SameOrder.refl (o : OrderRow) : SameOrder o o := ⟨rfl, rfl, rfl, fun h => h⟩

/-- New versions of the orders, with the seats of those that are not refunded still booked. -/
theorem Orders.update {t : Postgres} (hs : Orders s) {g : OrderRow → OrderRow}
    (hg : ∀ o, SameOrder o (g o)) (horders : t.orders = s.orders.map g)
    (hseats : t.seats.map SeatRow.place = s.seats.map SeatRow.place)
    (hbooked : ∀ o ∈ s.orders, (g o).status ≠ .refunded → ∀ r ∈ t.seats, r.id ∈ o.seatIds →
      r.status = .booked)
    (hreq : ∀ m, OutboxRow.cancellationRequested m ∈ t.outbox → Names s m) : Orders t := by
  constructor
  · have hids : t.orders.map (·.id) = s.orders.map (·.id) := by
      rw [horders, List.map_map]
      exact List.map_congr_left fun o _ => (hg o).id
    exact hids ▸ hs.ids
  · intro o ho
    rw [horders] at ho
    obtain ⟨o₀, ho₀, rfl⟩ := List.mem_map.1 ho
    rw [(hg o₀).seatIds, (hg o₀).scheduleId]
    exact (hs.listed o₀ ho₀).congr hseats
  · intro o ho hactive r hr hmem
    rw [horders] at ho
    obtain ⟨o₀, ho₀, rfl⟩ := List.mem_map.1 ho
    exact hbooked o₀ ho₀ hactive r hr ((hg o₀).seatIds ▸ hmem)
  · rw [horders, List.pairwise_map]
    refine hs.apart.imp fun {o o'} h hactive hactive' => ?_
    rw [(hg o).seatIds, (hg o').seatIds]
    exact h (mt (hg o).refunded hactive) (mt (hg o').refunded hactive')
  · intro m hm
    refine (hreq m hm).congr fun o ho => ⟨g o, horders ▸ List.mem_map_of_mem ho, ?_⟩
    exact ⟨(hg o).id, (hg o).seatIds⟩

/-- What the sessions may rely on: no order disappears or changes its seats. -/
def KeepsOrders (s t : Postgres) : Prop :=
  ∀ o ∈ s.orders, ∃ o' ∈ t.orders, o'.id = o.id ∧ o'.seatIds = o.seatIds

theorem KeepsOrders.refl (s : Postgres) : KeepsOrders s s := fun o ho => ⟨o, ho, rfl, rfl⟩

theorem KeepsOrders.trans {t u : Postgres} (hst : KeepsOrders s t) (htu : KeepsOrders t u) :
    KeepsOrders s u := by
  intro o ho
  obtain ⟨o', ho', hid, hseats⟩ := hst o ho
  obtain ⟨o'', ho'', hid', hseats'⟩ := htu o' ho'
  exact ⟨o'', ho'', hid'.trans hid, hseats'.trans hseats⟩

theorem KeepsOrders.of_map {t : Postgres} {g : OrderRow → OrderRow} (hg : ∀ o, SameOrder o (g o))
    (horders : t.orders = s.orders.map g) : KeepsOrders s t :=
  fun o ho => ⟨g o, horders ▸ List.mem_map_of_mem ho, (hg o).id, (hg o).seatIds⟩

/-! ### Bookings -/

theorem bookable_fresh {c : CheckoutCommit} (h : Bookable c s) : ∀ o ∈ s.orders, o.id ≠ c.orderId := by
  intro o ho hid
  have hany : s.orderRefused c = true := List.any_eq_true.2 ⟨o, ho, by simp [hid]⟩
  rw [h.1] at hany
  cases hany

/-- A booking of free seats. -/
theorem Orders.book (hs : Orders s) {c : CheckoutCommit} (hc : Bookable c s) :
    Orders (s.commitCheckout c).1 := by
  rcases commitCheckout_cases s c with heq | ⟨-, heq⟩
  · rw [heq]
    exact hs
  rw [heq]
  have hplaces := place_setSeats s c.seatIds .booked
  -- a seat of an order that is not refunded is booked, and the new order's seats were free
  have hdisj : ∀ o ∈ s.orders, o.status ≠ .refunded → ∀ k ∈ o.seatIds, k ∉ c.seatIds := by
    intro o ho hactive k hk hkc
    obtain ⟨r, hr, rfl, -⟩ := hs.listed o ho k hk
    have hbooked := hs.booked o ho hactive r hr hk
    rw [hc.2.2 r hr hkc] at hbooked
    cases hbooked
  have hmem : ∀ o ∈ s.orders ++ [Postgres.newOrder c], o ∈ s.orders ∨ o = Postgres.newOrder c := by
    intro o ho
    simpa using ho
  constructor
  · simp only [List.map_append, List.map_cons, List.map_nil]
    rw [List.nodup_append]
    refine ⟨hs.ids, List.nodup_singleton _, ?_⟩
    rintro a ha b hb rfl
    obtain ⟨o, ho, rfl⟩ := List.mem_map.1 ha
    exact bookable_fresh hc o ho (List.mem_singleton.1 hb)
  · intro o ho
    rcases hmem o ho with ho | rfl
    · exact (hs.listed o ho).congr hplaces
    · exact Listed.congr (s := s) hc.2.1 hplaces
  · intro o ho hactive r hr hk
    rcases Table.mem_updateWhere_cases hr with ⟨hr, hout⟩ | ⟨r₀, -, -, rfl⟩
    · rcases hmem o ho with ho | rfl
      · exact hs.booked o ho hactive r hr hk
      · have hnot : r.id ∉ c.seatIds := by simpa using hout
        exact absurd hk hnot
    · rfl
  · rw [List.pairwise_append]
    refine ⟨hs.apart, List.pairwise_singleton _ _, fun o ho o' ho' hactive _ k hk => ?_⟩
    rw [List.mem_singleton.1 ho']
    exact hdisj o ho hactive k hk
  · intro m hm
    have hold : OutboxRow.cancellationRequested m ∈ s.outbox := by simpa using hm
    exact (hs.requested m hold).congr fun o ho => ⟨o, List.mem_append_left _ ho, rfl, rfl⟩

theorem Tally.book (hs : Tally s log) {c : CheckoutCommit} (hc : Bookable c s) :
    Tally (s.commitCheckout c).1 log := by
  rcases commitCheckout_cases s c with heq | ⟨-, heq⟩
  · rw [heq]
    exact hs
  rw [heq]
  constructor
  · intro e he
    obtain ⟨o, ho, hid⟩ := hs.known e he
    exact ⟨o, List.mem_append_left _ ho, hid⟩
  · intro o ho
    rcases List.mem_append.1 ho with ho | ho
    · exact hs.commits o ho
    · -- nothing has happened yet for a new order
      rw [List.mem_singleton.1 ho]
      refine count_eq_zero fun e he hid => ?_
      obtain ⟨o', ho', hid'⟩ := hs.known e he
      exact absurd (hid'.trans hid) (bookable_fresh hc o' ho')
  · intro orderId
    rw [← hs.audits orderId]
    simp [auditCount, List.countP_append]
  · intro orderId
    rw [← hs.events orderId]
    simp [eventCount, List.countP_append, OutboxRow.cancels]

theorem keepsOrders_book (s : Postgres) (c : CheckoutCommit) :
    KeepsOrders s (s.commitCheckout c).1 := by
  rcases commitCheckout_cases s c with heq | ⟨-, heq⟩
  · rw [heq]
    exact .refl s
  · rw [heq]
    exact fun o ho => ⟨o, List.mem_append_left _ ho, rfl, rfl⟩

/-! ### Requests for a cancellation -/

/-- The order under `startCancellation`. -/
def cancelling (id : ℕ) (o : OrderRow) : OrderRow :=
  if decide (o.id = id ∧ o.status = .completed) then { o with status := .cancelling } else o

theorem sameOrder_cancelling (id : ℕ) (o : OrderRow) : SameOrder o (cancelling id o) := by
  unfold cancelling
  split_ifs with h
  · refine ⟨rfl, rfl, rfl, fun href => ?_⟩
    have hcomp := (of_decide_eq_true h).2
    rw [href] at hcomp
    cases hcomp
  · exact .refl o

theorem cancelling_refunded (id : ℕ) (o : OrderRow) :
    (cancelling id o).status = .refunded ↔ o.status = .refunded := by
  refine ⟨fun h => ?_, (sameOrder_cancelling id o).refunded⟩
  unfold cancelling at h
  split_ifs at h
  exact h

theorem startCancellation_cases (s : Postgres) (id : ℕ) (message : CancellationMessage) :
    s.startCancellation id message = s ∨
    s.startCancellation id message =
      { s with
        orders := s.orders.map (cancelling id)
        outbox := s.outbox ++ [.cancellationRequested message] } := by
  unfold Postgres.startCancellation
  split_ifs
  · exact .inr rfl
  · exact .inl rfl

theorem Orders.startCancellation (hs : Orders s) {id : ℕ} {message : CancellationMessage}
    (hm : Names s message) : Orders (s.startCancellation id message) := by
  rcases startCancellation_cases s id message with heq | heq
  · rw [heq]
    exact hs
  rw [heq]
  refine hs.update (sameOrder_cancelling id) rfl rfl ?_ ?_
  · intro o ho hactive
    exact hs.booked o ho (mt (sameOrder_cancelling id o).refunded hactive)
  · intro m' hm'
    rcases List.mem_append.1 hm' with hm' | hm'
    · exact hs.requested m' hm'
    · obtain rfl : m' = message := by simpa using hm'
      exact hm

theorem Tally.startCancellation (hs : Tally s log) (id : ℕ) (message : CancellationMessage) :
    Tally (s.startCancellation id message) log := by
  rcases startCancellation_cases s id message with heq | heq
  · rw [heq]
    exact hs
  rw [heq]
  constructor
  · intro e he
    obtain ⟨o, ho, hid⟩ := hs.known e he
    exact ⟨cancelling id o, List.mem_map_of_mem ho, (sameOrder_cancelling id o).id.trans hid⟩
  · intro o ho
    obtain ⟨o₀, ho₀, rfl⟩ := List.mem_map.1 ho
    rw [(sameOrder_cancelling id o₀).id, hs.commits o₀ ho₀]
    simp only [cancelling_refunded]
  · exact hs.audits
  · intro orderId
    rw [← hs.events orderId]
    simp [eventCount, List.countP_append, OutboxRow.cancels]

theorem keepsOrders_startCancellation (s : Postgres) (id : ℕ) (message : CancellationMessage) :
    KeepsOrders s (s.startCancellation id message) := by
  rcases startCancellation_cases s id message with heq | heq
  · rw [heq]
    exact .refl s
  · exact .of_map (sameOrder_cancelling id) (by rw [heq])

/-! ### The transaction of a cancellation -/

/-- The order under `commitCancellation`. -/
def refund (id : ℕ) (o : OrderRow) : OrderRow :=
  if decide (o.id = id) then { o with status := .refunded } else o

theorem sameOrder_refund (id : ℕ) (o : OrderRow) : SameOrder o (refund id o) := by
  unfold refund
  split_ifs with h
  · exact ⟨rfl, rfl, rfl, fun _ => rfl⟩
  · exact .refl o

theorem refund_self {o : OrderRow} : (refund o.id o).status = .refunded := by
  simp [refund]

theorem refund_ne {id : ℕ} {o : OrderRow} (h : o.id ≠ id) : refund id o = o := by
  simp [refund, h]

variable {message : CancellationMessage}

theorem orders_commitCancellation (s : Postgres) (message : CancellationMessage) :
    (s.commitCancellation (cancellationCommit message)).1.orders =
      s.orders.map (refund message.orderId) := rfl

/-- The seats of the other orders that are not refunded are not those of the message. -/
theorem Orders.spared (hs : Orders s) (hm : Names s message)
    (hactive : ∀ o ∈ s.orders, o.id = message.orderId → o.status ≠ .refunded)
    {o : OrderRow} (ho : o ∈ s.orders) (hne : o.id ≠ message.orderId)
    (ho' : o.status ≠ .refunded) : ∀ k ∈ o.seatIds, k ∉ message.seatIds := by
  obtain ⟨o₀, ho₀, hid, hseats⟩ := hm
  rw [← hseats]
  exact hs.disjoint ho ho₀ (hid ▸ hne) ho' (hactive o₀ ho₀ hid)

theorem Orders.commitCancellation (hs : Orders s) (hm : Names s message)
    (hactive : ∀ o ∈ s.orders, o.id = message.orderId → o.status ≠ .refunded) :
    Orders (s.commitCancellation (cancellationCommit message)).1 := by
  refine hs.update (sameOrder_refund message.orderId) rfl (place_setSeats s _ _) ?_ ?_
  · intro o ho hact r hr hk
    have hne : o.id ≠ message.orderId := by
      intro hid
      exact hact (hid ▸ refund_self)
    rw [refund_ne hne] at hact
    rcases Table.mem_updateWhere_cases hr with ⟨hr, -⟩ | ⟨r₀, -, hin, rfl⟩
    · exact hs.booked o ho hact r hr hk
    · -- the seat is the message's, so it is not another active order's
      exact absurd (of_decide_eq_true hin) (hs.spared hm hactive ho hne hact r₀.id hk)
  · intro m' hm'
    rcases List.mem_append.1 hm' with hm' | hm'
    · exact hs.requested m' hm'
    · simp at hm'

/-- One more commit for an order that had none. -/
theorem Tally.commitCancellation (hs : Tally s log) {i : ℕ} (hm : Names s message)
    (hzero : count log message.orderId .commit = 0) :
    Tally (s.commitCancellation (cancellationCommit message)).1
      (log ++ [⟨i, message.orderId, .commit⟩]) := by
  have hold : ∀ o ∈ s.orders, refund message.orderId o ∈
      (s.commitCancellation (cancellationCommit message)).1.orders := fun o ho =>
    List.mem_map_of_mem ho
  constructor
  · intro e he
    have hknown : ∃ o ∈ s.orders, o.id = e.orderId := by
      rcases List.mem_append.1 he with he | he
      · exact hs.known e he
      · obtain ⟨o, ho, hid, -⟩ := hm
        exact ⟨o, ho, by rw [List.mem_singleton.1 he, hid]⟩
    obtain ⟨o, ho, hid⟩ := hknown
    exact ⟨_, hold o ho, (sameOrder_refund _ o).id.trans hid⟩
  · intro o ho
    rw [orders_commitCancellation] at ho
    obtain ⟨o₀, ho₀, rfl⟩ := List.mem_map.1 ho
    rw [(sameOrder_refund _ o₀).id, count_append]
    by_cases hid : o₀.id = message.orderId
    · rw [← hid] at hzero ⊢
      rw [hzero, if_pos ⟨rfl, rfl⟩, if_pos refund_self]
    · have hno : ¬(message.orderId = o₀.id ∧ Kind.commit = Kind.commit) := fun h => hid h.1.symm
      rw [refund_ne hid, hs.commits o₀ ho₀, if_neg hno, Nat.add_zero]
  · intro orderId
    rw [count_append, ← hs.audits orderId]
    simp [auditCount, Postgres.commitCancellation, cancellationCommit, List.countP_append,
      List.countP_singleton]
  · intro orderId
    rw [count_append, ← hs.events orderId]
    simp [eventCount, Postgres.commitCancellation, cancellationCommit, OutboxRow.cancels,
      List.countP_append, List.countP_singleton]

end Statements

end Cancellation
end Bookit

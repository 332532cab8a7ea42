import Bookit.Payments.Invariant
import Bookit.Redis.Effects

/-!
# Payments.System — requests and checkouts side by side

Any number of payment requests and of checkout deliveries run against one world, with any Redis
activity around them: acquisitions, expiries, releases and re-locks by other users.  A checkout is
delivered for any committed `payment.requested` row, any number of times.

Every thread meets one contract: it keeps `Base`, and `Exclusive` in runs whose commits book free
seats only, and it leaves the open rows of other sessions and all committed requests alone.
-/

namespace Bookit
namespace Payments

open Lib

/-! ## The machine -/

/-- What a thread was started for. -/
inductive Task where
  | request (userId : ℤ) (request : PaymentRequest) (paymentRequestId : ℕ)
  | checkout (message : CheckoutMessage) (orderId : ℕ)
  | redis

inductive Result where
  | response (r : Except AppError PaymentAccepted)
  | verdict (v : Verdict)
  | done

inductive Environ where
  | tick (d : ℕ)
  | request (provider : Provider) (userId : ℤ) (request : PaymentRequest) (paymentRequestId : ℕ)
  /-- A delivery of the checkout in the `n`-th outbox row. -/
  | deliver (n : ℕ) (orderId : ℕ)
  /-- An operation of the seat lock, or anything else that a service does with Redis. -/
  | onRedis (p : SingleNodeLock.Op Bool)
  /-- Another service sets the status of a payment request. -/
  | setStatus (id : ℕ) (status : RequestStatus)

def requestTask (provider : Provider) (userId : ℤ) (request : PaymentRequest)
    (paymentRequestId : ℕ) : Service Result := do
  let r ← requestPayment provider userId request paymentRequestId
  pure (.response r)

def checkoutTask (message : CheckoutMessage) (orderId : ℕ) : Service Result := do
  let v ← processCheckout message orderId
  pure (.verdict v)

def redisTask (p : SingleNodeLock.Op Bool) : Service Result := do
  let _ ← onRedis p
  pure .done

def Postgres.setStatus (id : ℕ) (status : RequestStatus) (s : Postgres) : Postgres :=
  { s with
    requests := Table.updateWhere (fun r => decide (r.id = id))
      (fun r => { r with status := status }) s.requests }

def environ : Environ → World → Option (World × List (Task × Service Result))
  | .tick d, s => some ({ s with redis := { s.redis with now := s.redis.now + d } }, [])
  | .request provider userId request paymentRequestId, s =>
      some (s, [(.request userId request paymentRequestId,
        requestTask provider userId request paymentRequestId)])
  | .deliver n orderId, s =>
      match s.pg.outbox[n]? with
      | some (.paymentRequested message) =>
          some (s, [(.checkout message orderId, checkoutTask message orderId)])
      | _ => none
  | .onRedis p, s => some (s, [(.redis, redisTask p)])
  | .setStatus id status, s => some ({ s with pg := s.pg.setStatus id status }, [])

def machine : Machine World Rep Task Result Link Environ where
  init s := ∃ seats : List SeatRow, (seats.map (·.id)).Nodup ∧ s = newWorld seats
  exec _ := exec
  environ := environ
  close i s := { s with pg := s.pg.rollback i }

/-! ## The contract -/

/-- The condition on the commits of a run. -/
def CommitsFree (_ : Task) (_ : ℕ) (l : Link) (c : Cmd) (s : World) : Prop :=
  match c with
  | .commitCheckout cmd => BooksFree l cmd s.pg
  | _ => True

instance {n : Task} {i : ℕ} {l : Link} {c : Cmd} {s : World} :
    Decidable (CommitsFree n i l c s) := by
  unfold CommitsFree
  split <;> infer_instance

/-- The contract of the threads; with `X`, for runs whose commits book free seats only. -/
def contract (X : Prop) : Contract World Rep Task Link where
  inv s := Base s.pg ∧ (X → Exclusive s.pg)
  rely i s t := Evolves i s.pg t.pg
  guar _ _ _ := True
  allowed n i l c s := X → CommitsFree n i l c s
  rely_refl i s := .refl i s.pg
  rely_trans _ _ _ _ := Evolves.trans

/-- What a thread is to establish: an accepted request returns a row for its key and purchase. -/
structure Stored (userId : ℤ) (request : PaymentRequest) (id : ℕ) (r : RequestRow) : Prop where
  id : r.id = id
  userId : r.userId = userId
  idempotencyKey : r.idempotencyKey = request.idempotencyKey
  scheduleId : r.scheduleId = request.scheduleId
  seatIds : r.seatIds.Perm request.seatIds

theorem Stored.sameRow {userId : ℤ} {request : PaymentRequest} {id : ℕ} {r r' : RequestRow}
    (h : Stored userId request id r) (hr : SameRow r r') : Stored userId request id r' :=
  ⟨hr.id.trans h.id, hr.userId.trans h.userId, hr.idempotencyKey.trans h.idempotencyKey,
    hr.scheduleId.trans h.scheduleId, hr.seatIds ▸ h.seatIds⟩

def Accepts (userId : ℤ) (request : PaymentRequest) (r : Except AppError PaymentAccepted)
    (s : Postgres) : Prop :=
  match r with
  | .ok accepted => ∃ row ∈ s.requests, Stored userId request accepted.paymentRequestId row
  | .error _ => True

theorem Accepts.evolves {userId : ℤ} {request : PaymentRequest}
    {r : Except AppError PaymentAccepted} {i : ℕ} {s t : Postgres}
    (h : Accepts userId request r s) (hst : Evolves i s t) : Accepts userId request r t := by
  cases r with
  | error e => trivial
  | ok accepted =>
      obtain ⟨row, hrow, hstored⟩ := h
      obtain ⟨row', hrow', hsame⟩ := hst.rows row hrow
      exact ⟨row', hrow', hstored.sameRow hsame⟩

/-- The postcondition of the threads. -/
def Post (n : Task) (_ : ℕ) (b : Result) (s : World) : Prop :=
  match n, b with
  | .request userId request _, .response r => Accepts userId request r s.pg
  | _, _ => True

/-! ## Commands -/

section Commands

variable {X : Prop} {n : Task} {i : ℕ} {l : Link} {s t : World}

/-- Commands that disturb no session, the issuing one included. -/
def Calm : Cmd → Prop
  | .redis _ | .connect | .findRequest .. | .loadSeats .. | .orderExists _ | .failRequest .. => True
  | _ => False

theorem query_fst {ρ : Type} {v : Postgres → ρ} : (World.query l v s).1 = s := by
  cases l <;> rfl

/-- The reply to a query is the value in the store it was executed in. -/
theorem query_snd {ρ : Type} {v : Postgres → ρ} {a : ρ} (h : (World.query l v s).2 = some a) :
    a = v s.pg := by
  cases l with
  | ok => exact (Option.some.inj h).symm
  | lost => cases h
  | unacked => cases h

/-- A command of the payment path is a Redis command, or leaves Redis alone. -/
theorem redis_exec {c : Cmd} {r : Rep c} (h : exec i l c s = some (t, r)) :
    (∃ k, c = .redis k ∧ t = { s with redis := if l = .lost then s.redis else k.effect s.redis }) ∨
      ((∀ k, c ≠ .redis k) ∧ t.redis = s.redis) := by
  cases c with
  | redis k =>
      obtain ⟨rfl, -⟩ := Prod.mk.inj (Option.some.inj h)
      refine .inl ⟨k, rfl, ?_⟩
      rw [Redis.exec_fst]
  | connect | findRequest | loadSeats | orderExists | findOrder | bookedCount | activeTicketCount =>
      obtain rfl : _ = t := congrArg Prod.fst (Option.some.inj h)
      refine .inr ⟨fun _ hk => (nomatch hk), ?_⟩
      rw [query_fst]
  | insertRequest row =>
      refine .inr ⟨fun _ hk => (nomatch hk), ?_⟩
      simp only [exec] at h
      split at h
      · obtain ⟨rfl, -⟩ := Prod.mk.inj (Option.some.inj h)
        rfl
      · split at h
        · cases h
        · obtain ⟨rfl, -⟩ := Prod.mk.inj (Option.some.inj h)
          rfl
  | commit =>
      refine .inr ⟨fun _ hk => (nomatch hk), ?_⟩
      cases l with
      | ok | unacked | lost =>
          obtain ⟨rfl, -⟩ := Prod.mk.inj (Option.some.inj h)
          rfl
  | rollback =>
      obtain ⟨rfl, -⟩ := Prod.mk.inj (Option.some.inj h)
      exact .inr ⟨fun _ hk => (nomatch hk), rfl⟩
  | commitCheckout k =>
      obtain rfl : (World.onPg l (Postgres.commitCheckout k) s).1 = t :=
        congrArg Prod.fst (Option.some.inj h)
      refine .inr ⟨fun _ hk => (nomatch hk), ?_⟩
      cases l <;> rfl
  | insertRequested | failRequest | commitCancellation | startCancellation | refund =>
      refine .inr ⟨fun _ hk => (nomatch hk), ?_⟩
      rcases Link.deliver_cases (Option.some.inj h) with ⟨rfl, -⟩ | ⟨rfl, -⟩
      · rfl
      · rfl

/-- A command that leaves the tables as they were. -/
theorem honours_of_eq (hs : (contract X).inv s) (h : t.pg = s.pg) :
    (contract X).Honours n i s t ∧ (contract X).rely i s t := by
  have hrely : ∀ j, Evolves j s.pg t.pg := fun j => h ▸ .refl j s.pg
  have hinv : Base t.pg ∧ (X → Exclusive t.pg) := by
    rw [h]
    exact hs
  exact ⟨⟨hinv, trivial, fun j _ => hrely j⟩, hrely i⟩

/-- A statement that keeps the invariant and writes neither seats nor orders. -/
theorem honours_of_keeps (hs : (contract X).inv s) (h : Keeps i s.pg t.pg)
    (hseats : t.pg.seats = s.pg.seats) (horders : t.pg.orders = s.pg.orders) :
    (contract X).Honours n i s t :=
  ⟨⟨h.base, fun hX => (hs.2 hX).congr hseats horders⟩, trivial, h.rely⟩

theorem calm_step {c : Cmd} (hc : Calm c) {r : Rep c} (hs : (contract X).inv s)
    (hex : exec i l c s = some (t, r)) :
    (contract X).Honours n i s t ∧ (contract X).rely i s t := by
  cases c with
  | redis c =>
      obtain ⟨rfl, -⟩ := Prod.mk.inj (Option.some.inj hex)
      exact honours_of_eq hs rfl
  | connect | findRequest | loadSeats | orderExists =>
      obtain rfl : _ = t := congrArg Prod.fst (Option.some.inj hex)
      exact honours_of_eq hs (by rw [query_fst])
  | failRequest id reason =>
      rcases Link.deliver_cases (Option.some.inj hex) with ⟨rfl, -⟩ | ⟨rfl, -⟩
      · exact honours_of_eq hs rfl
      · obtain ⟨hbase, hrely⟩ := hs.1.failRequest id reason
        exact ⟨honours_of_keeps hs ⟨hbase, fun j _ => hrely j⟩ rfl rfl, hrely i⟩
  | _ => exact hc.elim

theorem insertRequest_step {row : RequestRow} {r : Option ℕ} (hs : (contract X).inv s)
    (hex : exec i l (.insertRequest row) s = some (t, r)) :
    (contract X).Honours n i s t ∧ t.pg.seats = s.pg.seats ∧
      (r = some 1 → own t.pg i = [(i, ⟨row, none⟩)]) := by
  simp only [exec] at hex
  split at hex
  · obtain ⟨rfl, rfl⟩ := Prod.mk.inj (Option.some.inj hex)
    exact ⟨(honours_of_eq hs rfl).1, rfl, fun h => by cases h⟩
  · split at hex
    · cases hex
    · next pg r' hins =>
      obtain ⟨rfl, rfl⟩ := Prod.mk.inj (Option.some.inj hex)
      obtain ⟨hkeeps, hown⟩ := hs.1.insertRequest hins
      have hfields : pg.seats = s.pg.seats ∧ pg.orders = s.pg.orders := by
        rcases insertRequest_cases hins with ⟨rfl, -⟩ | ⟨rfl, -⟩
        · exact ⟨rfl, rfl⟩
        · exact ⟨rfl, rfl⟩
      refine ⟨honours_of_keeps hs hkeeps hfields.1 hfields.2, hfields.1, fun h => hown ?_⟩
      split_ifs at h with hl
      exact h

theorem insertRequested_step {row : RequestRow} {message : CheckoutMessage} {r : Option Unit}
    (hs : (contract X).inv s) (hown : own s.pg i = [(i, ⟨row, none⟩)])
    (hid : message.paymentRequestId = row.id)
    (hlist : Listed s.pg message.seatIds message.scheduleId)
    (hex : exec i l (.insertRequested message) s = some (t, r)) :
    (contract X).Honours n i s t ∧
      (r = some () → own t.pg i = [(i, ⟨row, some message⟩)]) := by
  obtain ⟨hkeeps, hown'⟩ := hs.1.insertRequested hown hid hlist
  rcases Link.deliver_cases (Option.some.inj hex) with ⟨rfl, rfl⟩ | ⟨rfl, -⟩
  · exact ⟨(honours_of_eq hs rfl).1, fun h => by cases h⟩
  · exact ⟨honours_of_keeps hs hkeeps rfl rfl, fun _ => hown'⟩

theorem rollback_step {r : Option Unit} (hs : (contract X).inv s)
    (hex : exec i l .rollback s = some (t, r)) : (contract X).Honours n i s t := by
  obtain ⟨rfl, -⟩ := Prod.mk.inj (Option.some.inj hex)
  exact honours_of_keeps hs (hs.1.rollback i) rfl rfl

theorem commit_fields (pg : Postgres) (i : ℕ) :
    (pg.commit i).seats = pg.seats ∧ (pg.commit i).orders = pg.orders := by
  unfold Postgres.commit
  split
  · exact ⟨rfl, rfl⟩
  · exact ⟨rfl, rfl⟩

theorem commit_step {r : Option Unit} (hs : (contract X).inv s)
    (hex : exec i l .commit s = some (t, r)) :
    (contract X).Honours n i s t ∧
      (r = some () → ∀ txn, own s.pg i = [(i, txn)] → txn.row ∈ t.pg.requests) := by
  obtain ⟨hkeeps, hrow⟩ := hs.1.commit i
  obtain ⟨hseats, horders⟩ := commit_fields s.pg i
  cases l with
  | ok =>
      obtain ⟨rfl, -⟩ := Prod.mk.inj (Option.some.inj hex)
      exact ⟨honours_of_keeps hs hkeeps hseats horders, fun _ => hrow⟩
  | unacked =>
      obtain ⟨rfl, rfl⟩ := Prod.mk.inj (Option.some.inj hex)
      exact ⟨honours_of_keeps hs hkeeps hseats horders, fun h => by cases h⟩
  | lost =>
      obtain ⟨rfl, rfl⟩ := Prod.mk.inj (Option.some.inj hex)
      exact ⟨honours_of_keeps hs (hs.1.rollback i) rfl rfl, fun h => by cases h⟩

theorem commitCheckout_step {c : CheckoutCommit} {r : Option Unit} (hs : (contract X).inv s)
    (hlist : Listed s.pg c.seatIds c.scheduleId)
    (hallowed : (contract X).allowed n i l (.commitCheckout c) s)
    (hex : exec i l (.commitCheckout c) s = some (t, r)) :
    (contract X).Honours n i s t ∧ (contract X).rely i s t := by
  obtain ⟨hbase, hrely⟩ := hs.1.commitCheckout c hlist
  obtain rfl : (World.onPg l (Postgres.commitCheckout c) s).1 = t :=
    congrArg Prod.fst (Option.some.inj hex)
  cases l with
  | lost => exact honours_of_eq hs rfl
  | ok | unacked =>
      refine ⟨⟨⟨hbase, fun hX => ?_⟩, trivial, fun j _ => hrely j⟩, hrely i⟩
      exact (hs.2 hX).commitCheckout hs.1 (by decide) (hallowed hX)

end Commands

/-! ## Threads -/

section Threads

variable {X : Prop} {n : Task} {i : ℕ} {s : World}

theorem issues_onRedis {β : Type} {φ : Cmd → Prop} (hφ : ∀ c, φ (.redis c))
    (p : SingleNodeLock.Op β) : (onRedis p).Issues φ :=
  Prog.Issues.hoist _ (Prog.issues_of_forall p fun c => ⟨hφ c, fun _ => trivial⟩)

/-- Calm commands first: the rest starts in a state the session may find anyway. -/
theorem calm_bind {α β : Type} {p : Service α} {f : α → Service β} {Q : β → World → Prop}
    (hp : p.Issues Calm)
    (h : ∀ b t, (contract X).rely i s t → (contract X).Ensures exec n i Q (f b) t) :
    (contract X).Ensures exec n i Q (p >>= f) s :=
  .bind_of_issues (fun _ hc _ _ _ _ hinv _ hex => calm_step hc hinv hex) hp h

theorem calm_perform {c : Cmd} (hc : Calm c) : (Prog.perform c : Service (Rep c)).Issues Calm :=
  ⟨hc, fun _ => trivial⟩

theorem calm_onRedis {β : Type} (p : SingleNodeLock.Op β) : (onRedis p).Issues Calm :=
  issues_onRedis (fun _ => trivial) p

theorem calm_delCheckouts (scheduleId : ℤ) (seatIds : List ℤ) :
    (delCheckouts scheduleId seatIds).Issues Calm := by
  induction seatIds with
  | nil => trivial
  | cons seatId seatIds ih => exact ⟨trivial, fun _ => ih⟩

theorem calm_holdCheckouts (scheduleId : ℤ) (owner : ℤ × String) (seatIds created : List ℤ) :
    (holdCheckouts scheduleId owner seatIds created).Issues Calm := by
  induction seatIds generalizing created with
  | nil => trivial
  | cons seatId seatIds ih =>
      refine ⟨trivial, fun r => ?_⟩
      match r with
      | none => trivial
      | some true => exact ih _
      | some false =>
          refine ⟨trivial, fun r => ?_⟩
          match r with
          | none => trivial
          | some current =>
              show Prog.Issues Calm (if current = some owner then _ else _)
              split_ifs
              · exact ih _
              · exact (calm_delCheckouts scheduleId created).bind fun _ => trivial

/-- The transaction of a request: what it reports as inserted is committed. -/
theorem ensures_insertTransaction {row : RequestRow} {message : CheckoutMessage}
    (hid : message.paymentRequestId = row.id)
    (hlist : Listed s.pg message.seatIds message.scheduleId) :
    (contract X).Ensures exec n i
      (fun r t => r = some 1 → ∃ row' ∈ t.pg.requests, SameRow row row')
      (insertTransaction row message) s := by
  refine .call fun t hst ht _ _ u r hex => ?_
  obtain ⟨hu, hseats, hown⟩ := insertRequest_step ht hex
  refine ⟨hu, ?_⟩
  have hlist : Listed u.pg message.seatIds message.scheduleId :=
    hlist.congr ((congrArg (List.map SeatRow.place) hseats).trans hst.seats)
  match r with
  | none =>
      refine .call fun v _ hv _ _ w r hex => ⟨rollback_step hv hex, ?_⟩
      exact .ret fun _ _ _ h => by cases h
  | some inserted =>
      show (contract X).Ensures exec n i _ (if inserted = 1 then _ else _) u
      split_ifs with hins
      · subst hins
        refine .call fun v huv hv _ _ w r hex => ?_
        obtain ⟨hw, hown'⟩ :=
          insertRequested_step hv (huv.own.trans (hown rfl)) hid (hlist.congr huv.seats) hex
        refine ⟨hw, ?_⟩
        match r with
        | none =>
            refine .call fun v _ hv _ _ w r hex => ⟨rollback_step hv hex, ?_⟩
            exact .ret fun _ _ _ h => by cases h
        | some () =>
            refine .call fun x hwx hx _ _ y r hex => ?_
            obtain ⟨hy, hcommit⟩ := commit_step hx hex
            refine ⟨hy, ?_⟩
            match r with
            | none => exact .ret fun _ _ _ h => by cases h
            | some () =>
                have hrow := hcommit rfl _ (hwx.own.trans (hown' rfl))
                exact .ret fun z hyz _ _ => hyz.rows row hrow
      · refine .call fun v _ hv _ _ w r hex => ⟨(commit_step hv hex).1, ?_⟩
        match r with
        | none => exact .ret fun _ _ _ h => by cases h
        | some () => exact .ret fun _ _ _ h => absurd (Option.some.inj h) hins

variable {userId : ℤ} {request : PaymentRequest} {newId : ℕ}

theorem perm_of_samePaymentIntent {scheduleId scheduleId' : ℤ} {seatIds seatIds' : List ℤ}
    (h : samePaymentIntent scheduleId seatIds scheduleId' seatIds' = true) :
    scheduleId = scheduleId' ∧ seatIds.Perm seatIds' :=
  purchaseOf_eq_iff.1 (samePaymentIntent_iff.1 h)

theorem findRequest_eq_some {s : Postgres} {key : String} {row : RequestRow}
    (h : s.findRequest userId key = some row) :
    row ∈ s.requests ∧ row.userId = userId ∧ row.idempotencyKey = key :=
  ⟨List.mem_of_find?_eq_some h, by simpa using List.find?_some h⟩

/-- A program that establishes an answer for the request. -/
abbrev Answers (X : Prop) (n : Task) (i : ℕ) (userId : ℤ) (request : PaymentRequest)
    (p : Service (Except AppError PaymentAccepted)) (s : World) : Prop :=
  (contract X).Ensures exec n i (fun r t => Accepts userId request r t.pg) p s

theorem answers_ret {r : Except AppError PaymentAccepted} (h : Accepts userId request r s.pg) :
    Answers X n i userId request (.ret r) s :=
  .ret fun _ hst _ => h.evolves hst

theorem answers_error {e : AppError} : Answers X n i userId request (.ret (.error e)) s :=
  .ret fun _ _ _ => trivial

/-- The row found under the key is returned for the same purchase only. -/
theorem accepts_existing {existing : RequestRow} {status : RequestRow → String} {s : Postgres}
    (hfind : s.findRequest userId request.idempotencyKey = some existing) :
    Accepts userId request ((acceptExisting request existing).map fun row => ⟨row.id, status row⟩)
      s := by
  obtain ⟨hmem, huser, hkey⟩ := findRequest_eq_some hfind
  unfold acceptExisting
  split_ifs with h
  · obtain ⟨hsched, hseats⟩ := perm_of_samePaymentIntent h
    exact ⟨existing, hmem, rfl, huser, hkey, hsched, hseats⟩
  · trivial

theorem answers_storeRequest {amount : ℚ}
    (hlist : Listed s.pg request.seatIds request.scheduleId) :
    Answers X n i userId request (storeRequest userId request newId amount) s := by
  refine calm_bind (calm_perform trivial) fun r t hst => ?_
  match r with
  | none => exact answers_error
  | some () =>
  refine calm_bind (calm_holdCheckouts _ _ _ _) fun r u htu => ?_
  match r with
  | .error e => exact answers_error
  | .ok created =>
  have hlist := (hlist.congr hst.seats).congr htu.seats
  refine .bind ((ensures_insertTransaction rfl hlist).weaken fun r v hrow => ?_)
  match r with
  | none => exact calm_bind (calm_delCheckouts _ _) fun _ _ _ => answers_error
  | some inserted =>
  show Answers X n i userId request (if inserted = 1 then _ else _) v
  split_ifs with hins
  · subst hins
    obtain ⟨row, hmem, hsame⟩ := hrow rfl
    have hnew : Stored userId request newId (requestRow userId request newId) :=
      ⟨rfl, rfl, rfl, rfl, .refl _⟩
    exact answers_ret ⟨row, hmem, hnew.sameRow hsame⟩
  · -- the insertion met a row of the same key, which is read again
    refine .call fun w _ hw _ _ x r hex => ?_
    obtain ⟨hx, hwx⟩ := calm_step (c := .findRequest userId request.idempotencyKey) trivial hw hex
    refine ⟨hx, ?_⟩
    match r with
    | none => exact answers_error
    | some none => exact answers_error
    | some (some existing) =>
    have hfind : some existing = w.pg.findRequest userId request.idempotencyKey :=
      query_snd (congrArg Prod.snd (Option.some.inj hex))
    exact answers_ret ((accepts_existing hfind.symm).evolves hwx)

/-- Seats of the schedule that are as many as those asked for are those asked for. -/
theorem listed_of_checkSeats {s : Postgres} (hs : Base s)
    (h : checkSeats request (s.loadSeats request.seatIds request.scheduleId) = .ok ()) :
    Listed s request.seatIds request.scheduleId := by
  unfold checkSeats at h
  split_ifs at h with hlen
  have hsub : ((s.loadSeats request.seatIds request.scheduleId).map (·.id)).Nodup :=
    hs.ids.sublist (List.filter_sublist.map _)
  have hmem : ∀ k ∈ (s.loadSeats request.seatIds request.scheduleId).map (·.id),
      k ∈ request.seatIds := by
    intro k hk
    obtain ⟨r, hr, rfl⟩ := List.mem_map.1 hk
    exact (of_decide_eq_true (List.mem_filter.1 hr).2).1
  have hperm := (List.subperm_of_subset hsub hmem).perm_of_length_le
    (by simpa using (not_not.1 hlen).ge)
  intro k hk
  obtain ⟨r, hr, rfl⟩ := List.mem_map.1 (hperm.mem_iff.2 hk)
  obtain ⟨hr, hcond⟩ := List.mem_filter.1 hr
  exact ⟨r, hr, rfl, (of_decide_eq_true hcond).2⟩

theorem answers_checkAndStore :
    Answers X n i userId request (checkAndStore userId request newId) s := by
  refine calm_bind (calm_onRedis _) fun r t hst => ?_
  match r with
  | .error message => exact answers_error
  | .ok () =>
  refine .call fun u _ hu _ _ v r hex => ?_
  obtain ⟨hv, huv⟩ := calm_step (c := .loadSeats request.seatIds request.scheduleId) trivial hu hex
  refine ⟨hv, ?_⟩
  match r with
  | none => exact answers_error
  | some dbSeats =>
  obtain rfl : dbSeats = u.pg.loadSeats request.seatIds request.scheduleId :=
    query_snd (congrArg Prod.snd (Option.some.inj hex))
  dsimp only [Prog.bind]
  cases hcheck : checkSeats request (u.pg.loadSeats request.seatIds request.scheduleId) with
  | error e => exact answers_error
  | ok _ => exact answers_storeRequest ((listed_of_checkSeats hu.1 hcheck).congr huv.seats)

theorem answers_requestPayment (provider : Provider) :
    Answers X n i userId request (requestPayment provider userId request newId) s := by
  unfold requestPayment
  split
  · exact answers_error
  split
  · exact answers_error
  refine calm_bind (calm_perform trivial) fun r t _ => ?_
  match r with
  | none => exact answers_error
  | some () =>
  refine .call fun u _ hu _ _ v r hex => ?_
  obtain ⟨hv, huv⟩ := calm_step (c := .findRequest userId request.idempotencyKey) trivial hu hex
  refine ⟨hv, ?_⟩
  match r with
  | none => exact answers_error
  | some (some existing) =>
      have hfind : some existing = u.pg.findRequest userId request.idempotencyKey :=
        query_snd (congrArg Prod.snd (Option.some.inj hex))
      exact answers_ret ((accepts_existing hfind.symm).evolves huv)
  | some none => exact answers_checkAndStore

/-! ### Checkouts -/

theorem calm_clearCheckouts (scheduleId : ℤ) (seatIds : List ℤ) :
    (clearCheckouts scheduleId seatIds).Issues Calm := by
  refine ⟨trivial, fun r => ?_⟩
  match r with
  | none => trivial
  | some () => exact calm_delCheckouts scheduleId seatIds

theorem calm_checkOwnership (scheduleId userId : ℤ) (seatIds : List ℤ) :
    (checkOwnership scheduleId userId seatIds).Issues Calm := by
  induction seatIds with
  | nil => trivial
  | cons seatId seatIds ih =>
      refine (calm_onRedis _).bind fun r => ?_
      match r with
      | none => trivial
      | some owner =>
          show Prog.Issues Calm (if owner ≠ userId then _ else _)
          split_ifs
          · trivial
          · refine (calm_onRedis _).bind fun held => ?_
            cases held with
            | true => exact ih
            | false => trivial

theorem calm_orderExists (paymentRequestId : ℕ) : (orderExists paymentRequestId).Issues Calm := by
  refine ⟨trivial, fun r => ?_⟩
  match r with
  | none => trivial
  | some () => exact ⟨trivial, fun _ => trivial⟩

theorem calm_markBooked (scheduleId userId : ℤ) (seatIds : List ℤ) :
    (markBooked scheduleId userId seatIds).Issues Calm := by
  induction seatIds with
  | nil => trivial
  | cons seatId seatIds ih =>
      exact (calm_onRedis _).bind fun _ => (calm_onRedis _).bind fun _ => ih

theorem calm_announceCheckout (message : CheckoutMessage) :
    (announceCheckout message).Issues Calm :=
  (calm_onRedis _).bind fun _ => (calm_markBooked _ _ _).bind fun _ => calm_onRedis _

theorem calm_rejectCheckout (message : CheckoutMessage) (reason : String) :
    (rejectCheckout message reason).Issues Calm :=
  ⟨trivial, fun _ => calm_clearCheckouts _ _⟩

/-- A checkout of seats of the schedule keeps the contract; its one statement is the commit. -/
theorem ensures_processCheckout {message : CheckoutMessage} {orderId : ℕ}
    (hlist : Listed s.pg message.seatIds message.scheduleId) :
    (contract X).Ensures exec n i (fun _ _ => True) (processCheckout message orderId) s := by
  refine calm_bind (calm_orderExists _) fun found t hst => ?_
  cases found with
  | true => exact .ret fun _ _ _ => trivial
  | false =>
  show (contract X).Ensures exec n i _ (if message.seatIds = [] then _ else _) t
  split_ifs with hnil
  · exact .ret fun _ _ _ => trivial
  refine calm_bind (calm_checkOwnership _ _ _) fun reason u htu => ?_
  cases reason with
  | some reason => exact calm_bind (calm_rejectCheckout _ _) fun _ _ _ => .ret fun _ _ _ => trivial
  | none =>
  refine .call fun v huv hv _ hallowed w r hex => ?_
  have hlist := ((hlist.congr hst.seats).congr htu.seats).congr huv.seats
  refine ⟨(commitCheckout_step hv hlist hallowed hex).1, ?_⟩
  have hclear : ∀ (x : World) (verdict : Verdict), (contract X).Ensures exec n i (fun _ _ => True)
      (clearCheckouts message.scheduleId message.seatIds >>= fun _ => pure verdict) x :=
    fun _ _ => calm_bind (calm_clearCheckouts _ _) fun _ _ _ => .ret fun _ _ _ => trivial
  match r with
  | some () =>
      have hdone : (contract X).Ensures exec n i (fun _ _ => True)
          (announceCheckout message >>= fun _ =>
            clearCheckouts message.scheduleId message.seatIds >>= fun _ => pure Verdict.ack) w :=
        calm_bind (calm_announceCheckout _) fun _ x _ => hclear x _
      exact hdone
  | none => exact hclear w _

end Threads

/-! ## Runs -/

theorem inv_newWorld {X : Prop} {s : World} (h : machine.init s) : (contract X).inv s := by
  obtain ⟨seats, hids, rfl⟩ := h
  refine ⟨⟨hids, ?_, ?_, ?_, ?_, ?_, ?_, ?_, ?_⟩, fun _ => ⟨?_, ?_⟩⟩ <;>
    simp [newWorld, Postgres.checkouts]

/-- The threads the environment starts are requests, checkouts of committed events, and Redis
operations; besides it passes time and sets statuses. -/
theorem environ_step {X : Prop} {x : Environ} {s t : World}
    {new : List (Task × Service Result)} (hs : (contract X).inv s)
    (h : environ x s = some (t, new)) :
    (contract X).inv t ∧ (∀ j, (contract X).rely j s t) ∧
      ∀ i n p, (n, p) ∈ new → (contract X).Ensures exec n i (Post n i) p t := by
  have hsame : (contract X).inv s ∧ ∀ j, (contract X).rely j s s :=
    ⟨hs, fun j => .refl j s.pg⟩
  cases x with
  | tick d =>
      obtain ⟨rfl, rfl⟩ := Prod.mk.inj (Option.some.inj h)
      exact ⟨hsame.1, hsame.2, fun _ _ _ hp => absurd hp List.not_mem_nil⟩
  | request provider userId request paymentRequestId =>
      obtain ⟨rfl, rfl⟩ := Prod.mk.inj (Option.some.inj h)
      refine ⟨hsame.1, hsame.2, fun i n p hp => ?_⟩
      obtain ⟨rfl, rfl⟩ := Prod.mk.inj (List.mem_singleton.1 hp)
      refine .bind ((answers_requestPayment provider).weaken fun r u hr => ?_)
      exact .ret fun v huv _ => hr.evolves huv
  | deliver k orderId =>
      simp only [environ] at h
      split at h
      · next message hget =>
        obtain ⟨rfl, rfl⟩ := Prod.mk.inj (Option.some.inj h)
        refine ⟨hsame.1, hsame.2, fun i n p hp => ?_⟩
        obtain ⟨rfl, rfl⟩ := Prod.mk.inj (List.mem_singleton.1 hp)
        have hmem : message ∈ s.pg.checkouts :=
          List.mem_filterMap.2 ⟨_, List.mem_of_getElem? hget, rfl⟩
        refine .bind ((ensures_processCheckout (hs.1.event message hmem).2).weaken ?_)
        exact fun _ _ _ => .ret fun _ _ _ => trivial
      · cases h
  | onRedis p =>
      obtain ⟨rfl, rfl⟩ := Prod.mk.inj (Option.some.inj h)
      refine ⟨hsame.1, hsame.2, fun i n q hq => ?_⟩
      obtain ⟨rfl, rfl⟩ := Prod.mk.inj (List.mem_singleton.1 hq)
      exact calm_bind (calm_onRedis p) fun _ _ _ => .ret fun _ _ _ => trivial
  | setStatus id status =>
      obtain ⟨rfl, rfl⟩ := Prod.mk.inj (Option.some.inj h)
      obtain ⟨hbase, hrely⟩ := hs.1.updateRequests
        (p := fun r => decide (r.id = id)) (f := fun r => { r with status := status })
        fun _ => ⟨rfl, rfl, rfl, rfl, rfl⟩
      refine ⟨⟨hbase, fun hX => (hs.2 hX).congr rfl rfl⟩, hrely, ?_⟩
      exact fun _ _ _ hp => absurd hp List.not_mem_nil

/-- Every thread of every run meets the contract. -/
theorem fulfils {X : Prop} {p : Pool World Rep Task Result}
    (h : machine.system.ReachableUnder
      (Machine.Guarded (contract X).allowed fun _ _ => True) p) :
    machine.Fulfils (contract X) Post p := by
  refine Machine.ensures_of_reachable (fun s hs => inv_newWorld hs) ?_ ?_ h
  · intro x s t new hs _ hx
    obtain ⟨ht, hrely, hnew⟩ := environ_step hs hx
    exact ⟨ht, hrely, fun i n p hp _ => hnew i n p hp⟩
  · intro i s hs
    obtain ⟨hbase, hrely⟩ := hs.1.rollback i
    exact ⟨⟨hbase, fun hX => (hs.2 hX).congr rfl rfl⟩, hrely⟩

end Payments
end Bookit

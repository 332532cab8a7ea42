import Bookit.Gateway.Effects
import Bookit.Payments.Programs

/-!
# Gateway.Commands — the Redis commands of requests, actors and payments

Fields, memberships and queue entries are written by the handlers of lock messages, by the workers
and by checkouts.  Everything else only asks, sets lock keys and checkout keys, and publishes.
-/

namespace Bookit

open Lib

namespace Payments

theorem quiet_of_reads {c : Cmd} (h : Reads c) : c.Quiet := by
  cases c with
  | redis k =>
      cases k with
      | connect | getLock | existsContext => trivial
      | _ => exact absurd h id
  | _ => trivial

theorem quiet_requestPayment (provider : Provider) (userId : ℤ) (request : PaymentRequest)
    (newId : ℕ) : (requestPayment provider userId request newId).Issues Cmd.Quiet := by
  refine (issues_requestPayment provider userId request newId).mono fun c hc => ?_
  cases hc with
  | asks h => exact h.quiet
  | row | event | commit | rollback => trivial

theorem quiet_cancelOrder (userId : ℤ) (orderId : ℕ) (idempotencyKey : String) :
    (cancelOrder userId orderId idempotencyKey).Issues Cmd.Quiet := by
  refine (issues_cancelOrder userId orderId idempotencyKey).mono fun c hc => ?_
  cases hc with
  | asks h => exact h.quiet
  | find | start => trivial

theorem quiet_processCancellation (mockMode : Bool) (message : CancellationMessage) :
    (processCancellation mockMode message).Issues Cmd.Quiet := by
  refine (issues_processCancellation mockMode message).mono fun c hc => ?_
  cases hc with
  | asks h => exact h.quiet
  | refund | commit => trivial

end Payments

namespace Gateway

open LockServer SingleNodeLock

def Cmd.Quiet : Cmd → Prop
  | .service c => c.Quiet
  | _ => True

theorem quiet_onServices {β : Type} {p : Payments.Service β} (h : p.Issues Payments.Cmd.Quiet) :
    (onServices p).Issues Cmd.Quiet :=
  Prog.Issues.hoist _ (h.mono fun _ hc => ⟨hc, fun _ => trivial⟩)

/-! ## Requests that only ask Redis -/

/-- Commands on actors, and those that only ask Redis. -/
def AsksRedis : Cmd → Prop
  | .service (.redis .connect) => True
  | .service (.redis (.existsCheckout ..)) => True
  | .service _ => False
  | _ => True

/-- Those of them that make no cell and carry no task, answer or message. -/
def Looks : Cmd → Prop
  | .actorCell .. => False
  | .trySend .. => False
  | .send .. => False
  | .awaitAnswer _ => False
  | .recv .. => False
  | .answer .. => False
  | .handleEvent _ => False
  | .publishLocking _ => False
  | c => AsksRedis c

theorem Looks.asks {c : Cmd} (h : Looks c) : AsksRedis c := by
  cases c with
  | service => exact h
  | _ => trivial

theorem AsksRedis.quiet {c : Cmd} (h : AsksRedis c) : c.Quiet := by
  cases c with
  | service c =>
      cases c with
      | redis k =>
          cases k with
          | connect | existsCheckout => trivial
          | _ => exact absurd h id
      | _ => exact absurd h id
  | _ => trivial

theorem issues_anyCheckout (showtimeId : ℤ) (seatIds : List ℤ) :
    (anyCheckout showtimeId seatIds).Issues fun k => Looks (.service (.redis k)) := by
  induction seatIds with
  | nil => trivial
  | cons seatId seatIds ih =>
      refine ⟨trivial, fun r => ?_⟩
      show Prog.Issues _ (if Option.getD (r : Option Bool) false then _ else _)
      split_ifs
      · trivial
      · exact ih

theorem issues_checkoutInProgress (showtimeId : ℤ) (seatIds : List ℤ) :
    (onRedis (checkoutInProgress showtimeId seatIds)).Issues Looks := by
  have hcheck : (checkoutInProgress showtimeId seatIds).Issues
      fun k => Looks (.service (.redis k)) := by
    refine ⟨trivial, fun r => ?_⟩
    match r with
    | none => trivial
    | some () => exact issues_anyCheckout showtimeId seatIds
  exact Prog.Issues.hoist _ (hcheck.mono fun k hk => ⟨hk, fun _ => trivial⟩)

theorem issues_registerSeats (g cell : ℕ) (seats : List (ℤ × ℤ)) :
    (registerSeats g cell seats).Issues Looks := by
  induction seats with
  | nil => trivial
  | cons seat seats ih =>
      refine ⟨trivial, fun r => ?_⟩
      match r with
      | .error e => trivial
      | .ok index =>
          refine ih.bind fun rest => ?_
          cases rest with
          | error e => trivial
          | ok rest => trivial

theorem issues_openActor (g : ℕ) (showtimeId totalSeatCount : ℤ) :
    (openActor g showtimeId totalSeatCount).Issues AsksRedis := by
  unfold openActor
  split
  · trivial
  · refine ⟨trivial, fun cell => ⟨trivial, fun r => ?_⟩⟩
    match r with
    | .error e => trivial
    | .ok () =>
        refine ⟨trivial, fun r => ?_⟩
        match r with
        | .error e => trivial
        | .ok () => trivial

theorem issues_closedInRedis (g : ℕ) (showtimeId : ℤ) :
    (closedInRedis g showtimeId).Issues Looks := by
  refine ⟨trivial, fun known => ?_⟩
  show Prog.Issues _ (if known = true then _ else _)
  split_ifs
  · trivial
  · refine ⟨trivial, fun r => ?_⟩
    match r with
    | none => trivial
    | some () =>
        refine ⟨trivial, fun closed => ?_⟩
        show Prog.Issues _ (if Option.getD (closed : Option Bool) false then _ else _)
        split_ifs
        · exact ⟨trivial, fun _ => trivial⟩
        · trivial

theorem issues_beginRequest (g : ℕ) (showtimeId totalSeatCount : ℤ) :
    (beginRequest g showtimeId totalSeatCount).Issues AsksRedis := by
  have hactor : (getOrCreateShowActor g showtimeId totalSeatCount).Issues AsksRedis := by
    refine ⟨trivial, fun closed => ?_⟩
    show Prog.Issues _ (if closed = true then _ else _)
    split_ifs
    · trivial
    · refine ((issues_closedInRedis g showtimeId).mono fun _ => Looks.asks).bind fun closed => ?_
      cases closed with
      | true => trivial
      | false => exact issues_openActor g showtimeId totalSeatCount
  refine hactor.bind fun r => ?_
  cases r with
  | error e => trivial
  | ok cell =>
      refine ⟨trivial, fun closing => ?_⟩
      show Prog.Issues _ (if closing = true then _ else _)
      split_ifs <;> trivial

theorem issues_cancelTask (g : ℕ) (userId showtimeId : ℤ) (seatIds seatIndices : List ℤ)
    (totalSeatCount : ℤ) :
    (cancelTask g userId showtimeId seatIds seatIndices totalSeatCount).Issues AsksRedis := by
  refine Prog.Issues.bind (p := cancel g userId showtimeId seatIds seatIndices totalSeatCount) ?_
    fun _ => trivial
  unfold cancel
  split
  · trivial
  refine (issues_beginRequest g showtimeId totalSeatCount).bind fun r => ?_
  cases r with
  | error e => trivial
  | ok cell =>
      refine ((issues_registerSeats g cell _).mono fun _ => Looks.asks).bind fun r => ?_
      cases r with
      | error e => trivial
      | ok seats =>
          refine ((issues_checkoutInProgress showtimeId seatIds).mono fun _ =>
            Looks.asks).bind fun held => ?_
          cases held with
          | true => trivial
          | false =>
              refine ⟨trivial, fun _ => ⟨trivial, fun _ => ⟨trivial, fun a => ?_⟩⟩⟩
              match a with
              | .cancel cancelled => trivial
              | .lock result => trivial

/-! ## Lock requests and actors -/

theorem issues_admitSeats (g cell : ℕ) (seats : List (ℤ × ℕ)) (admitted failed : List ℤ) :
    (admitSeats g cell seats admitted failed).Issues Looks := by
  induction seats generalizing admitted failed with
  | nil => trivial
  | cons seat seats ih =>
      refine ⟨trivial, fun ok => ?_⟩
      show Prog.Issues _ (if ok = true then _ else _)
      split_ifs
      · exact ih _ _
      · exact ih _ _

theorem issues_lockTask (g : ℕ) (userId showtimeId : ℤ) (seatIds seatIndices : List ℤ)
    (totalSeatCount : ℤ) :
    (lockTask g userId showtimeId seatIds seatIndices totalSeatCount).Issues AsksRedis := by
  refine Prog.Issues.bind (p := lock g userId showtimeId seatIds seatIndices totalSeatCount) ?_
    fun _ => trivial
  unfold lock
  split
  · trivial
  refine (issues_beginRequest g showtimeId totalSeatCount).bind fun r => ?_
  cases r with
  | error e => trivial
  | ok cell =>
      refine ((issues_registerSeats g cell _).mono fun _ => Looks.asks).bind fun r => ?_
      cases r with
      | error e => trivial
      | ok seats =>
          refine ((issues_admitSeats g cell seats [] []).mono fun _ => Looks.asks).bind fun r => ?_
          show Prog.Issues _ (if r.1 = [] then _ else _)
          split_ifs
          · trivial
          · refine Prog.Issues.bind (p := lockAdmitted g cell userId showtimeId r.1 r.2) ?_
              fun _ => trivial
            refine ⟨trivial, fun sent => ?_⟩
            show Prog.Issues _ (if sent = true then _ else _)
            split_ifs
            · exact ⟨trivial, fun _ => ⟨trivial, fun _ => trivial⟩⟩
            · exact ⟨trivial, fun _ => trivial⟩

theorem quiet_acquireSeats (showtimeId userId : ℤ) (seatIds : List ℤ) (result : LockResult) :
    (acquireSeats showtimeId userId seatIds result).Issues Redis.Cmd.Quiet := by
  induction seatIds generalizing result with
  | nil => trivial
  | cons seatId seatIds ih =>
      have hacquire : (acquireDistributedLock showtimeId seatId userId 300).Issues
          Redis.Cmd.Quiet := issues_acquireLock trivial trivial trivial trivial
      refine hacquire.bind fun locked => ?_
      cases locked with
      | true => exact ih _
      | false => exact ih _

/-- Commands on actors, and quiet commands on Redis. -/
def Local : Cmd → Prop
  | .service (.redis k) => k.Quiet
  | .service _ => False
  | _ => True

theorem Local.quiet {c : Cmd} (h : Local c) : c.Quiet := by
  cases c with
  | service c =>
      cases c with
      | redis k => exact h
      | _ => exact h.elim
  | _ => trivial

theorem local_onRedis {β : Type} {p : Op β} (h : p.Issues Redis.Cmd.Quiet) :
    (onRedis p).Issues Local :=
  Prog.Issues.hoist _ (h.mono fun _ hc => ⟨hc, fun _ => trivial⟩)

theorem local_runShowActor (g : ℕ) (showtimeId : ℤ) (cell rounds : ℕ) :
    (runShowActor g showtimeId cell rounds).Issues Local := by
  have hserve : ∀ task, (serve g showtimeId task).Issues Local := by
    intro task
    cases task with
    | lock ticket userId seatIds =>
        refine Prog.Issues.bind (p := acquireAndPublish userId showtimeId seatIds) ?_
          fun _ => ⟨trivial, fun _ => trivial⟩
        refine (local_onRedis (quiet_acquireSeats _ _ _ _)).bind fun result => ?_
        show Prog.Issues _ (if result.lockedSeatIds = [] then _ else _)
        split_ifs
        · trivial
        · exact ⟨trivial, fun _ => trivial⟩
    | cancel ticket userId seatIds =>
        refine Prog.Issues.bind (p := cancelCommitted userId showtimeId seatIds) ?_
          fun _ => ⟨trivial, fun _ => trivial⟩
        refine ⟨trivial, fun published => ?_⟩
        show Prog.Issues _ (if published = true then _ else _)
        split_ifs <;> trivial
  induction rounds with
  | zero => trivial
  | succ rounds ih => exact ⟨trivial, fun task => (hserve task).bind fun _ => ih⟩

theorem local_markScheduleClosed (g : ℕ) (showtimeId : ℤ) :
    (markScheduleClosed g showtimeId).Issues Local := by
  refine ⟨trivial, fun _ => ⟨trivial, fun r => ?_⟩⟩
  match r with
  | none => trivial
  | some cell => exact ⟨trivial, fun _ => trivial⟩

/-- The tasks that write fields, memberships or the queue. -/
def Task.writesSeats : Task → Bool
  | .operation => true
  | .lockMessage .. => true
  | .updater _ => true
  | .expiry .. => true
  | .checkout .. => true
  | _ => false

theorem quiet_forget {β : Type} {p : Service β} (h : p.Issues Cmd.Quiet) :
    (forget p).Issues Cmd.Quiet := h.bind fun _ => trivial

theorem quiet_started {s : World} {n : Task} {q : Service Result} (h : Started s n q)
    (hn : n.writesSeats = false) : q.Issues Cmd.Quiet := by
  cases h with
  | operation | lockMessage | updater | expiry | checkout => cases hn
  | lock => exact (issues_lockTask _ _ _ _ _ _).mono fun _ hc => hc.quiet
  | cancel => exact (issues_cancelTask _ _ _ _ _ _).mono fun _ hc => hc.quiet
  | actor _ rounds => exact quiet_forget ((local_runShowActor _ _ _ rounds).mono fun _ hc => hc.quiet)
  | listener => exact quiet_forget ⟨trivial, fun _ => trivial⟩
  | closing => exact quiet_forget ((local_markScheduleClosed _ _).mono fun _ hc => hc.quiet)
  | request => exact quiet_forget (quiet_onServices (Payments.quiet_requestPayment _ _ _ _))
  | cancelOrder => exact quiet_forget (quiet_onServices (Payments.quiet_cancelOrder _ _ _))
  | cancellation => exact quiet_forget (quiet_onServices (Payments.quiet_processCancellation _ _))

end Gateway
end Bookit

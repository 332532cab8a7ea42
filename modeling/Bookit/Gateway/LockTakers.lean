import Bookit.Gateway.Commands
import Bookit.Lib.Stages

/-!
# Gateway.LockTakers — only show actors take locks

The lock keys are set and extended by the show actors, and by no other service; the others ask for
their owners and delete them.  An actor that has taken a lock publishes a message for it before it
takes up its next task: a stage lists the locks that a session has taken and not yet published.
-/

namespace Bookit

open Lib

/-- Commands that take no lock, and list no locked seat outside the metadata. -/
def Redis.Cmd.SparesLocks : Redis.Cmd → Prop
  | .setLockNx .. => False
  | .pexpireLock .. => False
  | .eval script .. => script.Deletes
  | .zaddUser .. => False
  | _ => True

namespace Payments

open SingleNodeLock

def Cmd.SparesLocks : Cmd → Prop
  | .redis k => k.SparesLocks
  | _ => True

/-! ## The payment path -/

theorem sparesLocks_of_reads {c : Cmd} (h : Reads c) : c.SparesLocks := by
  cases c with
  | redis k =>
      cases k with
      | connect | getLock | existsContext => trivial
      | _ => exact absurd h id
  | _ => trivial

theorem sparesLocks_onRedis {β : Type} {p : Op β} (h : p.Issues Redis.Cmd.SparesLocks) :
    (onRedis p).Issues Cmd.SparesLocks :=
  issues_onRedis_of h

theorem sparesLocks_delCheckouts (scheduleId : ℤ) (seatIds : List ℤ) :
    (delCheckouts scheduleId seatIds).Issues Cmd.SparesLocks := by
  induction seatIds with
  | nil => trivial
  | cons seatId seatIds ih => exact ⟨trivial, fun _ => ih⟩

theorem sparesLocks_clearCheckouts (scheduleId : ℤ) (seatIds : List ℤ) :
    (clearCheckouts scheduleId seatIds).Issues Cmd.SparesLocks := by
  refine ⟨trivial, fun r => ?_⟩
  match r with
  | none => trivial
  | some () => exact sparesLocks_delCheckouts scheduleId seatIds

theorem sparesLocks_holdCheckouts (scheduleId : ℤ) (owner : ℤ × String) (seatIds created : List ℤ) :
    (holdCheckouts scheduleId owner seatIds created).Issues Cmd.SparesLocks := by
  induction seatIds generalizing created with
  | nil => trivial
  | cons seatId seatIds ih =>
      refine ⟨trivial, fun r => ?_⟩
      match r with
      | none => trivial
      | some true => exact ih _
      | some false =>
          refine ⟨trivial, fun r => ?_⟩
          match r with
          | none => trivial
          | some current =>
              show Prog.Issues _ (if current = some owner then _ else _)
              split_ifs
              · exact ih _
              · exact (sparesLocks_delCheckouts scheduleId created).bind fun _ => trivial

theorem sparesLocks_checkSeatLocks (scheduleId userId : ℤ) (seatIds : List ℤ) :
    (onRedis (Locks.checkSeatLocks scheduleId userId seatIds)).Issues Cmd.SparesLocks := by
  apply sparesLocks_onRedis
  induction seatIds with
  | nil => trivial
  | cons seatId seatIds ih =>
      have hholds : (userHoldsLock scheduleId seatId userId).Issues Redis.Cmd.SparesLocks := by
        refine ⟨trivial, fun r => ?_⟩
        match r with
        | none => trivial
        | some () => exact ⟨trivial, fun _ => trivial⟩
      refine hholds.bind fun held => ?_
      cases held with
      | true => exact ih
      | false => trivial

theorem sparesLocks_insertTransaction (row : RequestRow) (message : CheckoutMessage) :
    (insertTransaction row message).Issues Cmd.SparesLocks := by
  refine ⟨trivial, fun r => ?_⟩
  cases r with
  | none => exact ⟨trivial, fun _ => trivial⟩
  | some inserted =>
      show Prog.Issues _ (if inserted = 1 then _ else _)
      split_ifs
      · refine ⟨trivial, fun r => ?_⟩
        cases r with
        | none => exact ⟨trivial, fun _ => trivial⟩
        | some _ => exact ⟨trivial, fun r => by cases r <;> trivial⟩
      · exact ⟨trivial, fun r => by cases r <;> trivial⟩

theorem sparesLocks_storeRequest (userId : ℤ) (request : PaymentRequest) (paymentRequestId : ℕ)
    (amount : ℚ) :
    (storeRequest userId request paymentRequestId amount).Issues Cmd.SparesLocks := by
  refine ⟨trivial, fun r => ?_⟩
  match r with
  | none => trivial
  | some () =>
  refine (sparesLocks_holdCheckouts _ _ _ _).bind fun r => ?_
  match r with
  | .error e => trivial
  | .ok created =>
  refine (sparesLocks_insertTransaction _ _).bind fun r => ?_
  match r with
  | none => exact (sparesLocks_delCheckouts _ _).bind fun _ => trivial
  | some inserted =>
  show Prog.Issues _ (if inserted = 1 then _ else _)
  split_ifs
  · trivial
  · refine ⟨trivial, fun r => ?_⟩
    match r with
    | none => trivial
    | some none => trivial
    | some (some existing) => trivial

theorem sparesLocks_requestPayment (provider : Provider) (userId : ℤ) (request : PaymentRequest)
    (paymentRequestId : ℕ) :
    (requestPayment provider userId request paymentRequestId).Issues Cmd.SparesLocks := by
  have hcheck : (checkAndStore userId request paymentRequestId).Issues Cmd.SparesLocks := by
    refine (sparesLocks_checkSeatLocks _ _ _).bind fun r => ?_
    match r with
    | .error message => trivial
    | .ok () =>
    refine ⟨trivial, fun r => ?_⟩
    match r with
    | none => trivial
    | some dbSeats =>
    dsimp only [Prog.bind]
    cases checkSeats request dbSeats with
    | error e => trivial
    | ok _ => exact sparesLocks_storeRequest _ _ _ _
  unfold requestPayment
  split
  · trivial
  split
  · trivial
  refine ⟨trivial, fun r => ?_⟩
  match r with
  | none => trivial
  | some () =>
  refine ⟨trivial, fun r => ?_⟩
  match r with
  | none => trivial
  | some (some existing) => trivial
  | some none => exact hcheck

theorem sparesLocks_cancelOrder (userId : ℤ) (orderId : ℕ) (idempotencyKey : String) :
    (cancelOrder userId orderId idempotencyKey).Issues Cmd.SparesLocks := by
  unfold cancelOrder
  split_ifs
  · trivial
  refine ⟨trivial, fun r => ?_⟩
  match r with
  | none => trivial
  | some () =>
  refine ⟨trivial, fun r => ?_⟩
  match r with
  | none => trivial
  | some none => trivial
  | some (some order) =>
  show Prog.Issues _ (if order.userId ≠ userId then _ else
    if order.status ≠ .completed then _ else _)
  split_ifs
  · trivial
  · trivial
  refine ⟨trivial, fun r => ?_⟩
  match r with
  | none => trivial
  | some () => trivial

theorem sparesLocks_adjust (scheduleId delta : ℤ) :
    (adjustCachedAvailableSeats scheduleId delta).Issues Cmd.SparesLocks :=
  sparesLocks_onRedis (issues_cluster trivial trivial)

theorem sparesLocks_publishRoom (scheduleId : ℤ) (event : Json) :
    (publishRoom scheduleId event).Issues Cmd.SparesLocks :=
  sparesLocks_onRedis (issues_cluster trivial trivial)

theorem sparesLocks_processCancellation (mockMode : Bool) (message : CancellationMessage) :
    (processCancellation mockMode message).Issues Cmd.SparesLocks := by
  have hrefund : (refundPayment mockMode message).Issues Cmd.SparesLocks := by
    unfold refundPayment processRazorpayRefund
    split
    · trivial
    · split_ifs
      · trivial
      · exact ⟨trivial, fun _ => trivial⟩
  have hannounce : (announceCancellation message).Issues Cmd.SparesLocks :=
    (sparesLocks_adjust _ _).bind fun _ => sparesLocks_publishRoom _ _
  refine hrefund.bind fun r => ?_
  cases r with
  | none => trivial
  | some _ =>
  refine ⟨trivial, fun r => ?_⟩
  cases r with
  | none => trivial
  | some _ => exact hannounce.bind fun _ => trivial

end Payments

namespace Gateway

open LockServer SingleNodeLock

def Cmd.SparesLocks : Cmd → Prop
  | .service c => c.SparesLocks
  | _ => True

/-! ## Lock messages, workers and checkouts -/

theorem sparesLocks_cleanUp (showtimeId seatId userId : ℤ) (entry : QueueEntry) (state : SeatState) :
    (cleanUp showtimeId seatId userId entry state).Issues Redis.Cmd.SparesLocks :=
  issues_cleanUp trivial trivial trivial trivial trivial

theorem sparesLocks_releaseLock (showtimeId seatId userId : ℤ) :
    (releaseLock showtimeId seatId userId).Issues Redis.Cmd.SparesLocks :=
  issues_evalThenCleanUp trivial trivial (sparesLocks_cleanUp _ _ _ _ _)

theorem sparesLocks_publishRoomEvent (event : PubSubEvent) :
    (publishRoomEvent event).Issues Redis.Cmd.SparesLocks := by
  unfold publishRoomEvent
  split
  · trivial
  · exact issues_cluster trivial trivial

theorem sparesLocks_processLockRequest (message : SeatLockMessage) :
    (processLockRequest message).Issues Redis.Cmd.SparesLocks := by
  have hunlock : ∀ seatIds, (unlockSeats message.showtimeId message.userId seatIds).Issues
      Redis.Cmd.SparesLocks := by
    intro seatIds
    induction seatIds with
    | nil => trivial
    | cons seatId seatIds ih =>
        refine (sparesLocks_releaseLock _ _ _).bind fun released => ?_
        cases released with
        | true => exact (sparesLocks_publishRoomEvent _).bind fun _ => ih
        | false => exact ih
  have hmetadata : ∀ attempts, (updateMetadata message attempts).Issues Redis.Cmd.SparesLocks := by
    intro attempts
    induction attempts with
    | zero => trivial
    | succ attempts ih =>
        have hupdate : (updateSeatMetadataLua message.showtimeId message.seatIds message.userId
            lockTtlSecs).Issues Redis.Cmd.SparesLocks :=
          ⟨trivial, fun _ => issues_updateSeats trivial fun _ _ => trivial⟩
        refine hupdate.bind fun ok => ?_
        cases ok with
        | true => trivial
        | false => exact ih
  have hannounce : ∀ seatIds, (announceLocked message.showtimeId message.userId seatIds).Issues
      Redis.Cmd.SparesLocks := by
    intro seatIds
    induction seatIds with
    | nil => trivial
    | cons seatId seatIds ih => exact (sparesLocks_publishRoomEvent _).bind fun _ => ih
  have hglobal : ∀ event, (publishGlobalEvent event).Issues Redis.Cmd.SparesLocks :=
    fun _ => issues_cluster trivial trivial
  unfold processLockRequest
  split
  · exact hunlock message.seatIds
  · refine (hmetadata 3).bind fun ok => ?_
    cases ok with
    | true => exact (hannounce message.seatIds).bind fun _ => hglobal _
    | false => exact hglobal _

theorem sparesLocks_processDueEntry (entry : QueueEntry) :
    (processDueEntry entry).Issues Payments.Cmd.SparesLocks := by
  have hbooked : (isSeatBookedInDb entry.scheduleId entry.seatId).Issues
      Payments.Cmd.SparesLocks := by
    refine ⟨trivial, fun r => ?_⟩
    match r with
    | none => trivial
    | some () =>
        refine ⟨trivial, fun booked => ?_⟩
        show Prog.Issues _ (if 0 < booked.getD 0 then _ else _)
        split_ifs
        · trivial
        · exact ⟨trivial, fun _ => trivial⟩
  refine hbooked.bind fun booked => ?_
  cases booked with
  | true =>
      apply Payments.sparesLocks_onRedis
      exact issues_forceBook trivial trivial (sparesLocks_cleanUp _ _ _ _ _)
  | false =>
      apply Payments.sparesLocks_onRedis
      have hrelease : (releaseExpiredLockLua entry.scheduleId entry.seatId entry.userId
          entry).Issues Redis.Cmd.SparesLocks :=
        issues_releaseExpired trivial trivial (sparesLocks_cleanUp _ _ _ _ _)
      exact hrelease.bind fun _ => sparesLocks_publishRoomEvent _

theorem sparesLocks_onServices {β : Type} {p : Payments.Service β}
    (h : p.Issues Payments.Cmd.SparesLocks) : (onServices p).Issues Cmd.SparesLocks :=
  Prog.Issues.hoist _ (h.mono fun _ hc => ⟨hc, fun _ => trivial⟩)

theorem sparesLocks_ofRedis {β : Type} {p : Op β} (h : p.Issues Redis.Cmd.SparesLocks) :
    (onRedis p).Issues Cmd.SparesLocks :=
  Prog.Issues.hoist _ (h.mono fun _ hc => ⟨hc, fun _ => trivial⟩)

theorem sparesLocks_releaseExpiredEntry (g : ℕ) (now : ℤ) (entry : QueueEntry) :
    (releaseExpiredEntry g now entry).Issues Cmd.SparesLocks := by
  have hcheck : (checkDueEntry now entry).Issues Redis.Cmd.SparesLocks := by
    have howner : (getLockOwner entry.scheduleId entry.seatId).Issues Redis.Cmd.SparesLocks := by
      refine ⟨trivial, fun r => ?_⟩
      match r with
      | none => trivial
      | some () => exact ⟨trivial, fun _ => trivial⟩
    refine howner.bind fun owner => ?_
    show Prog.Issues _ (if owner = none then _ else if owner ≠ some entry.userId then _ else _)
    split_ifs
    · trivial
    · exact Prog.Issues.bind (p := zremClusterQueue entry) (issues_cluster trivial trivial)
        fun _ => trivial
    refine ⟨trivial, fun checkout => ?_⟩
    show Prog.Issues _ (if Option.getD (checkout : Option Bool) false then _ else _)
    split_ifs
    · exact Prog.Issues.bind (p := zaddClusterQueue entry (now + 300))
        (issues_cluster trivial trivial) fun _ => trivial
    · exact (sparesLocks_releaseLock _ _ _).bind fun _ => trivial
  have hfinish : (finishDueEntry entry).Issues Redis.Cmd.SparesLocks := by
    refine Prog.Issues.bind (p := zremClusterQueue entry) (issues_cluster trivial trivial)
      fun _ => ?_
    exact (issues_setBitmap trivial trivial).bind fun _ => sparesLocks_publishRoomEvent _
  refine (sparesLocks_ofRedis hcheck).bind fun passed => ?_
  cases passed with
  | true => exact ⟨trivial, fun _ => sparesLocks_ofRedis hfinish⟩
  | false => trivial

theorem sparesLocks_processCheckout (message : Payments.CheckoutMessage) (orderId : ℕ) :
    (Payments.processCheckout message orderId).Issues Payments.Cmd.SparesLocks := by
  have hreads : ∀ {β : Type} {p : Payments.Service β}, p.Issues Payments.Reads →
      p.Issues Payments.Cmd.SparesLocks :=
    fun h => h.mono fun _ hc => Payments.sparesLocks_of_reads hc
  have hclear : ∀ v : Payments.Verdict, (Payments.clearCheckouts message.scheduleId
      message.seatIds >>= fun _ => pure v).Issues Payments.Cmd.SparesLocks :=
    fun _ => (Payments.sparesLocks_clearCheckouts _ _).bind fun _ => trivial
  have hbooked : ∀ seatIds, (Payments.markBooked message.scheduleId message.userId
      seatIds).Issues Payments.Cmd.SparesLocks := by
    intro seatIds
    induction seatIds with
    | nil => trivial
    | cons seatId seatIds ih =>
        refine (Payments.sparesLocks_onRedis (sparesLocks_releaseLock _ _ _)).bind fun _ => ?_
        exact (Payments.sparesLocks_onRedis (issues_setBitmap trivial trivial)).bind fun _ => ih
  have hannounce : (Payments.announceCheckout message).Issues Payments.Cmd.SparesLocks := by
    refine (Payments.sparesLocks_adjust _ _).bind fun _ => ?_
    exact (hbooked message.seatIds).bind fun _ => Payments.sparesLocks_publishRoom _ _
  refine (hreads (Payments.reads_orderExists _)).bind fun found => ?_
  show Prog.Issues _ (if found = true then _ else if message.seatIds = [] then _ else _)
  split_ifs
  · trivial
  · trivial
  refine (hreads (Payments.reads_checkOwnership _ _ _)).bind fun reason => ?_
  match reason with
  | some reason =>
      exact ⟨trivial, fun _ => (Payments.sparesLocks_clearCheckouts _ _).bind fun _ => trivial⟩
  | none =>
  refine ⟨trivial, fun r => ?_⟩
  match r with
  | none => exact hclear .nack
  | some () => exact hannounce.bind fun _ => hclear .ack

theorem sparesLocks_of_asksRedis {c : Cmd} (h : AsksRedis c) : c.SparesLocks := by
  cases c with
  | service c =>
      cases c with
      | redis k =>
          cases k with
          | connect | existsCheckout => trivial
          | _ => exact absurd h id
      | _ => exact absurd h id
  | _ => trivial

theorem sparesLocks_forget {β : Type} {p : Service β} (h : p.Issues Cmd.SparesLocks) :
    (forget p).Issues Cmd.SparesLocks := h.bind fun _ => trivial

/-- Of the deployed services only the show actors take locks. -/
theorem sparesLocks_started {s : World} {n : Task} {q : Service Result} (h : Started s n q)
    (hop : n ≠ .operation) (hactor : ∀ g k, n ≠ .actor g k) : q.Issues Cmd.SparesLocks := by
  cases h with
  | operation => exact absurd rfl hop
  | actor => exact absurd rfl (hactor _ _)
  | lockMessage =>
      exact sparesLocks_forget (sparesLocks_ofRedis (sparesLocks_processLockRequest _))
  | updater => exact sparesLocks_forget (sparesLocks_onServices (sparesLocks_processDueEntry _))
  | expiry => exact sparesLocks_forget (sparesLocks_releaseExpiredEntry _ _ _)
  | lock => exact (issues_lockTask _ _ _ _ _ _).mono fun _ hc => sparesLocks_of_asksRedis hc
  | cancel => exact (issues_cancelTask _ _ _ _ _ _).mono fun _ hc => sparesLocks_of_asksRedis hc
  | listener => exact sparesLocks_forget ⟨trivial, fun _ => trivial⟩
  | closing =>
      refine sparesLocks_forget ⟨trivial, fun _ => ⟨trivial, fun r => ?_⟩⟩
      match r with
      | none => trivial
      | some cell => exact ⟨trivial, fun _ => trivial⟩
  | request =>
      apply sparesLocks_forget
      exact sparesLocks_onServices (Payments.sparesLocks_requestPayment _ _ _ _)
  | cancelOrder =>
      exact sparesLocks_forget (sparesLocks_onServices (Payments.sparesLocks_cancelOrder _ _ _))
  | checkout =>
      exact sparesLocks_forget (sparesLocks_onServices (sparesLocks_processCheckout _ _))
  | cancellation =>
      apply sparesLocks_forget
      exact sparesLocks_onServices (Payments.sparesLocks_processCancellation _ _)

/-! ## The stages of a session -/

/-- A lock: the seat of a show, and the user that it was taken for. -/
structure SeatHold where
  seat : ℤ × ℤ
  userId : ℤ
  deriving DecidableEq

/-- The message is a lock message for the seat and the user. -/
def LocksFor (message : SeatLockMessage) (x : SeatHold) : Prop :=
  message.action ≠ "unlock" ∧ message.userId = x.userId ∧ message.showtimeId = x.seat.1 ∧
    x.seat.2 ∈ message.seatIds

instance {message : SeatLockMessage} {x : SeatHold} : Decidable (LocksFor message x) := by
  unfold LocksFor
  infer_instance

/-- The locks that were taken and not yet published, the one whose `SET` was not answered with
success, and those whose metadata was written. -/
structure HoldStage where
  held : List SeatHold
  trying : Option SeatHold
  written : List SeatHold
  deriving DecidableEq

namespace HoldStage

def start : HoldStage := ⟨[], none, []⟩

/-- Nothing taken is left to be published. -/
def Idle (b : HoldStage) : Prop := b.held = [] ∧ b.trying = none

instance {b : HoldStage} : Decidable b.Idle := by
  unfold Idle
  infer_instance

/-- The session has taken the lock, or may have. -/
def Has (b : HoldStage) (x : SeatHold) : Prop := x ∈ b.held ∨ b.trying = some x

instance {b : HoldStage} {x : SeatHold} : Decidable (b.Has x) := by
  unfold Has
  infer_instance

theorem Idle.has {b : HoldStage} {x : SeatHold} (hb : b.Idle) : ¬b.Has x := by
  rintro (hmem | htrying)
  · rw [hb.1] at hmem
    cases hmem
  · rw [hb.2] at htrying
    cases htrying

/-- After the `GET` that follows a `SET` without success. -/
def afterOwner (b : HoldStage) (owner : Option ℤ) : HoldStage :=
  match b.trying with
  | none => b
  | some x =>
      if owner = some x.userId then
        { b with held := x :: b.held, trying := none }
      else
        { b with trying := none }

def next (b : HoldStage) : (k : Redis.Cmd) → Redis.Rep k → HoldStage
  | .setLockNx showtimeId seatId userId _, r =>
      if (r : Option Bool) = some true then
        { b with held := ⟨(showtimeId, seatId), userId⟩ :: b.held }
      else
        { b with trying := some ⟨(showtimeId, seatId), userId⟩ }
  | .getLock .., r => b.afterOwner (Option.join (r : Option (Option ℤ)))
  | .writeMetadata showtimeId seatId userId .., r =>
      if (r : Option Unit) = none then
        b
      else
        { b with written := ⟨(showtimeId, seatId), userId⟩ :: b.written }
  | _, _ => b

end HoldStage

def holdNext (_ : Task) (b : HoldStage) : (c : Cmd) → Rep c → HoldStage
  | .service (.redis k), r => b.next k r
  | .publishLocking _, _ => { b with held := [] }
  | _, _ => b

/-- The lifetime of a lock, `300 * 1000`. -/
def lockTtlMs : ℕ := ttlMs 300

/-- Locks are taken one after the other, each for the same time, and only the metadata lists them. -/
def HoldCmd (b : HoldStage) : Redis.Cmd → Prop
  | .setLockNx _ _ _ ttl => b.trying = none ∧ ttl = lockTtlMs
  | .getLock showtimeId seatId => ∀ x, b.trying = some x → x.seat = (showtimeId, seatId)
  | .pexpireLock _ _ ttl => ttl = lockTtlMs
  | .eval script .. => script.Deletes
  | .zaddUser .. => False
  | _ => True

/-- A session publishes what it holds in one message, and waits with nothing in its hands. -/
def holdMay (_ : Task) (b : HoldStage) : Cmd → Prop
  | .service (.redis k) => HoldCmd b k
  | .publishLocking message => b.trying = none ∧ ∀ x ∈ b.held, LocksFor message x
  | .recv .. => b.Idle
  | .awaitAnswer _ => b.Idle
  | .handleEvent _ => b.Idle
  | _ => True

section Follows

variable {n : Task} {b : HoldStage}

theorem holdCmd_of_spares (hb : b.Idle) {k : Redis.Cmd} (hk : k.SparesLocks) : HoldCmd b k := by
  cases k with
  | setLockNx | pexpireLock | zaddUser => exact absurd hk id
  | eval => exact hk
  | getLock =>
      intro x hx
      rw [hb.2] at hx
      cases hx
  | _ => trivial

theorem idle_of_spares (hb : b.Idle) {k : Redis.Cmd} (hk : k.SparesLocks) (r : Redis.Rep k) :
    (b.next k r).Idle := by
  cases k with
  | setLockNx => exact absurd hk id
  | getLock =>
      show (b.afterOwner _).Idle
      unfold HoldStage.afterOwner
      rw [hb.2]
      exact hb
  | writeMetadata =>
      show (if (r : Option Unit) = none then b else _).Idle
      split_ifs
      · exact hb
      · exact hb
  | _ => exact hb

/-- A program that takes no lock stays idle. -/
theorem holdFollows_spares {β : Type} {p : Service β} (h : p.Issues Cmd.SparesLocks)
    (hb : b.Idle) : p.Follows (holdMay n) (holdNext n) (fun _ b' => b'.Idle) b := by
  refine Prog.follows_of_issues (S := HoldStage.Idle) (h.mono fun c hc b hb => ?_) hb
  cases c with
  | service c =>
      cases c with
      | redis k => exact ⟨holdCmd_of_spares hb hc, idle_of_spares hb hc⟩
      | _ => exact ⟨trivial, fun _ => hb⟩
  | publishLocking message =>
      refine ⟨⟨hb.2, fun x hx => ?_⟩, fun _ => ⟨rfl, hb.2⟩⟩
      rw [hb.1] at hx
      cases hx
  | recv | awaitAnswer | handleEvent => exact ⟨hb, fun _ => hb⟩
  | _ => exact ⟨trivial, fun _ => hb⟩

/-! ### The show actor -/

/-- What a session holds are locks of the show for the user, of seats on the list. -/
def HoldsOf (showtimeId userId : ℤ) (seatIds : List ℤ) (b : HoldStage) : Prop :=
  b.trying = none ∧
    ∀ x ∈ b.held, x.userId = userId ∧ x.seat.1 = showtimeId ∧ x.seat.2 ∈ seatIds

variable {showtimeId userId seatId : ℤ} {seatIds : List ℤ}

theorem HoldsOf.mono {seatIds' : List ℤ} (h : HoldsOf showtimeId userId seatIds b)
    (hsub : ∀ a ∈ seatIds, a ∈ seatIds') : HoldsOf showtimeId userId seatIds' b :=
  ⟨h.1, fun x hx => ⟨(h.2 x hx).1, (h.2 x hx).2.1, hsub _ (h.2 x hx).2.2⟩⟩

theorem HoldsOf.take (h : HoldsOf showtimeId userId seatIds b) :
    HoldsOf showtimeId userId (seatIds ++ [seatId])
      { b with held := ⟨(showtimeId, seatId), userId⟩ :: b.held, trying := none } := by
  refine ⟨rfl, fun x hx => ?_⟩
  rcases List.mem_cons.1 hx with rfl | hold
  · exact ⟨rfl, rfl, List.mem_append_right _ (List.mem_singleton_self _)⟩
  · obtain ⟨huser, hshow, hseat⟩ := h.2 x hold
    exact ⟨huser, hshow, List.mem_append_left _ hseat⟩

/-- The stages of a session, for the commands of Redis. -/
abbrev OpHolds {β : Type} (Q : β → HoldStage → Prop) (p : Op β) (b : HoldStage) : Prop :=
  p.Follows (fun b k => HoldCmd b k) (fun b k => b.next k) Q b

theorem holdFollows_onRedis {β : Type} {Q : β → HoldStage → Prop} {p : Op β}
    (h : OpHolds Q p b) : (onRedis p).Follows (holdMay n) (holdNext n) Q b :=
  Prog.Follows.hoist (fun _ _ hc => ⟨hc, fun _ => rfl⟩) h

/-- A lock that is reported as taken is held. -/
theorem follows_acquire (h : HoldsOf showtimeId userId seatIds b) :
    OpHolds (fun locked b' => HoldsOf showtimeId userId
        (if locked = true then seatIds ++ [seatId] else seatIds) b')
      (acquireDistributedLock showtimeId seatId userId 300) b := by
  have hkept : HoldsOf showtimeId userId (if false = true then seatIds ++ [seatId] else seatIds) b :=
    h
  refine ⟨trivial, fun r => ?_⟩
  match r with
  | none => exact hkept
  | some () =>
  refine ⟨⟨h.1, rfl⟩, fun r => ?_⟩
  show OpHolds _ (if r = some true then _ else _) (if r = some true then _ else _)
  by_cases hset : r = some true
  · rw [if_pos hset, if_pos hset]
    have htaken : HoldsOf showtimeId userId (seatIds ++ [seatId])
        { b with held := ⟨(showtimeId, seatId), userId⟩ :: b.held, trying := none } := h.take
    rw [← h.1] at htaken
    exact htaken
  · -- the `GET` says whether the user holds the lock already
    rw [if_neg hset, if_neg hset]
    refine ⟨fun x hx => by rw [← Option.some.inj hx], fun owner => ?_⟩
    show OpHolds _ (if owner.join = some userId then _ else _)
      (if owner.join = some userId then _ else _)
    by_cases howner : owner.join = some userId
    · rw [if_pos howner, if_pos howner]
      exact ⟨rfl, fun _ => h.take⟩
    · rw [if_neg howner, if_neg howner]
      exact ⟨rfl, h.2⟩

theorem follows_acquireSeats (seatIds : List ℤ) {result : LockResult}
    (h : HoldsOf showtimeId userId result.lockedSeatIds b) :
    OpHolds (fun result b' => HoldsOf showtimeId userId result.lockedSeatIds b')
      (acquireSeats showtimeId userId seatIds result) b := by
  induction seatIds generalizing result b with
  | nil => exact h
  | cons seatId seatIds ih =>
      refine (follows_acquire h).bind fun locked b' hb' => ?_
      cases locked with
      | true => exact ih hb'
      | false => exact ih hb'

theorem follows_acquireAndPublish (hb : b.Idle) :
    (acquireAndPublish userId showtimeId seatIds).Follows (holdMay n) (holdNext n)
      (fun _ b' => b'.Idle) b := by
  have hnone : HoldsOf showtimeId userId [] b := by
    refine ⟨hb.2, fun x hx => ?_⟩
    rw [hb.1] at hx
    cases hx
  have hacquire : OpHolds (fun result b' => HoldsOf showtimeId userId result.lockedSeatIds b')
      (acquireSeats showtimeId userId seatIds ⟨[], []⟩) b := follows_acquireSeats seatIds hnone
  refine (holdFollows_onRedis hacquire).bind fun result b' hb' => ?_
  show Prog.Follows _ _ _ (if result.lockedSeatIds = [] then _ else _) b'
  split_ifs with hempty
  · refine ⟨List.eq_nil_iff_forall_not_mem.2 fun x hx => ?_, hb'.1⟩
    have hseat := (hb'.2 x hx).2.2
    rw [hempty] at hseat
    cases hseat
  · refine ⟨⟨hb'.1, fun x hx => ?_⟩, fun _ => ⟨rfl, hb'.1⟩⟩
    obtain ⟨huser, hshow, hseat⟩ := hb'.2 x hx
    have haction : ("lock" : String) ≠ "unlock" := by decide
    exact ⟨haction, huser.symm, hshow.symm, hseat⟩

theorem follows_showActor (g : ℕ) (showtimeId : ℤ) (cell rounds : ℕ) (hb : b.Idle) :
    (runShowActor g showtimeId cell rounds).Follows (holdMay n) (holdNext n)
      (fun _ b' => b'.Idle) b := by
  have hserve : ∀ (task : GatewayTask) {b' : HoldStage}, b'.Idle →
      (serve g showtimeId task).Follows (holdMay n) (holdNext n) (fun _ b'' => b''.Idle) b' := by
    intro task b' hb'
    cases task with
    | lock ticket userId seatIds =>
        exact (follows_acquireAndPublish hb').bind fun _ _ hb'' => ⟨trivial, fun _ => hb''⟩
    | cancel ticket userId seatIds =>
        refine Prog.Follows.bind (p := cancelCommitted userId showtimeId seatIds)
          (Q := fun _ b'' => b''.Idle) ?_ fun _ _ hb'' => ⟨trivial, fun _ => hb''⟩
        refine ⟨⟨hb'.2, fun x hx => ?_⟩, fun published => ?_⟩
        · rw [hb'.1] at hx
          cases hx
        · show Prog.Follows _ _ _ (if published = true then _ else _) { b' with held := [] }
          split_ifs
          · exact ⟨rfl, hb'.2⟩
          · exact ⟨rfl, hb'.2⟩
  induction rounds generalizing b with
  | zero => exact hb
  | succ rounds ih => exact ⟨hb, fun task => (hserve task hb).bind fun _ _ hb' => ih hb'⟩

end Follows

/-- A deployed service publishes what it has taken, or has taken nothing. -/
theorem holdFollows_started {s : World} {n : Task} {q : Service Result} (h : Started s n q)
    (hop : n ≠ .operation) :
    q.Follows (holdMay n) (holdNext n) (fun _ b => b.Idle) .start := by
  have hidle : HoldStage.start.Idle := ⟨rfl, rfl⟩
  by_cases hactor : ∃ g k, n = .actor g k
  · obtain ⟨g, k, rfl⟩ := hactor
    cases h with
    | actor _ rounds => exact (follows_showActor _ _ _ rounds hidle).bind fun _ _ hb => hb
  · apply holdFollows_spares _ hidle
    exact sparesLocks_started h hop fun g k heq => hactor ⟨g, k, heq⟩

end Gateway
end Bookit

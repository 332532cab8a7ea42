import Bookit.Lib.Alone
import Bookit.Payments.Processor

/-!
# Payments.CheckoutRun — a delivery of a checkout by itself

What one delivery does where nobody else runs: the dual-key check, the commit, and the Redis effects
of the commit, in closed form.
-/

namespace Bookit
namespace Payments

open Lib SingleNodeLock

/-! ## Deliveries -/

/-- A delivery to a worker, run by itself: the world it leaves and its answer. -/
def delivered (i : ℕ) (message : CheckoutMessage) (orderId : ℕ) (s : World) :
    Option (World × Verdict) :=
  Prog.evalAlone (exec i .ok) (processCheckout message orderId) s

/-! ## Operations of the seat lock by themselves -/

/-- A Redis command by itself. -/
def redisExec (c : Redis.Cmd) (s : Redis) : Option (Redis × Redis.Rep c) :=
  some (Redis.exec .ok c s)

theorem evalAlone_onRedis {β : Type} (i : ℕ) (p : Op β) (s : World) :
    Prog.evalAlone (exec i .ok) (onRedis p) s =
      some ({ s with redis := (evalOp p s.redis).1 }, (evalOp p s.redis).2) := by
  induction p generalizing s with
  | ret b => rfl
  | call c k ih => exact ih _ _

/-- The points of an operation, seen from the services. -/
theorem visits_onRedis {β : Type} {i : ℕ} {p : Op β} {s t : World} {q : Service β}
    (h : Prog.Visits (exec i .ok) (onRedis p) s q t) :
    ∃ q', q = onRedis q' ∧ t.pg = s.pg ∧ Prog.Visits redisExec p s.redis q' t.redis := by
  induction p generalizing s with
  | ret b =>
      cases h with
      | here => exact ⟨.ret b, rfl, rfl, .here⟩
  | call c k ih =>
      cases h with
      | here => exact ⟨.call c k, rfl, rfl, .here⟩
      | step hex hrest =>
          obtain ⟨rfl, rfl⟩ := Prod.mk.inj (Option.some.inj hex)
          obtain ⟨q', rfl, hpg, hvisits⟩ := ih _ hrest
          exact ⟨q', rfl, hpg, .step rfl hvisits⟩

/-- The part of Redis that a checkout changes for good. -/
def bookingKeys (s : Redis) :
    ℕ × Expiring (ℤ × ℤ) ℤ × (ℤ × ℤ → SeatState) × Expiring (ℤ × ℤ) (ℤ × String) ×
      (ℤ → Option ℤ) :=
  (s.now, s.seatLock, s.bitmap, s.seatCheckout, s.availableSeats)

/-- The field of a seat set to a state; a negative seat id has none. -/
def setField (bitmap : ℤ × ℤ → SeatState) (scheduleId seatId : ℤ) (state : SeatState) :
    ℤ × ℤ → SeatState :=
  if seatId < 0 then bitmap else Redis.setAt bitmap (scheduleId, seatId) state

theorem bookingKeys_setBits (s : Redis) (scheduleId seatId : ℤ) (state : SeatState) :
    bookingKeys (s.setBits scheduleId seatId state) =
      (s.now, s.seatLock, setField s.bitmap scheduleId seatId state, s.seatCheckout,
        s.availableSeats) := by
  unfold Redis.setBits setField
  split_ifs <;> rfl

theorem setField_setField (bitmap : ℤ × ℤ → SeatState) (scheduleId seatId : ℤ)
    (state state' : SeatState) :
    setField (setField bitmap scheduleId seatId state) scheduleId seatId state' =
      setField bitmap scheduleId seatId state' := by
  unfold setField
  split_ifs
  · rfl
  · funext key
    unfold Redis.setAt
    split_ifs <;> rfl

/-! ## The effects of a checkout -/

section Effects

variable {i : ℕ} {scheduleId userId : ℤ}

theorem bookingKeys_releaseKeys (s : Redis) (scheduleId seatId userId : ℤ) (entry : QueueEntry)
    (state : SeatState) :
    bookingKeys (s.releaseKeys scheduleId seatId userId entry state) =
      (s.now, s.seatLock.del (scheduleId, seatId), setField s.bitmap scheduleId seatId state,
        s.seatCheckout, s.availableSeats) :=
  bookingKeys_setBits _ _ _ _

theorem evalOp_cleanUp (s : Redis) (seatId : ℤ) (entry : QueueEntry) (state : SeatState) :
    bookingKeys (evalOp (cleanUp scheduleId seatId userId entry state) s).1 =
      (s.now, s.seatLock, setField s.bitmap scheduleId seatId state, s.seatCheckout,
        s.availableSeats) := by
  unfold cleanUp setScheduleSeatBitmapStateCluster
  by_cases hneg : seatId < 0
  · simp only [hneg, if_true, setField]
    rfl
  · have hbits := bookingKeys_setBits (((s.zremUser scheduleId userId seatId).zremRoom scheduleId
      seatId userId).zremQueue entry) scheduleId seatId state
    simp only [hneg, if_false]
    exact hbits

/-- The release of a seat that is free or the user's own. -/
theorem evalOp_releaseLock {s : Redis} {seatId : ℤ}
    (hown : s.freeOrOwnedBy scheduleId seatId userId = true) :
    bookingKeys (evalOp (releaseLock scheduleId seatId userId) s).1 =
      (s.now, s.seatLock.del (scheduleId, seatId), setField s.bitmap scheduleId seatId .available,
        s.seatCheckout, s.availableSeats) := by
  have heval : Redis.eval .release scheduleId seatId userId
      (queueMember scheduleId seatId userId) s =
      (s.releaseKeys scheduleId seatId userId (queueMember scheduleId seatId userId) .available,
        Redis.scriptReply seatId 1) := by
    simp only [Redis.eval, hown, if_true]
  have hstep : evalOp (releaseLock scheduleId seatId userId) s =
      evalOp (if Redis.scriptReply seatId 1 = some 1 then do
        cleanUp scheduleId seatId userId (queueMember scheduleId seatId userId) .available
        pure true
      else
        pure false)
        (s.releaseKeys scheduleId seatId userId (queueMember scheduleId seatId userId)
          .available) := by
    have h : evalOp (releaseLock scheduleId seatId userId) s =
        evalOp (if (Redis.eval .release scheduleId seatId userId
            (queueMember scheduleId seatId userId) s).2 = some 1 then do
          cleanUp scheduleId seatId userId (queueMember scheduleId seatId userId) .available
          pure true
        else
          pure false)
          (Redis.eval .release scheduleId seatId userId
            (queueMember scheduleId seatId userId) s).1 := rfl
    rw [h, heval]
  rw [hstep]
  unfold Redis.scriptReply
  by_cases hneg : seatId < 0
  · simp only [hneg, if_true]
    exact bookingKeys_releaseKeys s _ seatId _ _ _
  · simp only [hneg, if_false, if_true, evalOp_bind]
    refine (evalOp_cleanUp _ seatId _ _).trans ?_
    obtain ⟨hnow, hlock, hbits, hcheckout, havailable⟩ :
        _ ∧ _ ∧ _ ∧ _ ∧ _ := by
      simpa only [bookingKeys, Prod.mk.injEq] using bookingKeys_releaseKeys s scheduleId seatId userId
        (queueMember scheduleId seatId userId) .available
    rw [hnow, hlock, hbits, hcheckout, havailable, setField_setField]

/-- A seat whose lock is removed is still free, and any other as free as before. -/
theorem freeOrOwnedBy_del {s t : Redis} {seatId k : ℤ} (hnow : t.now = s.now)
    (hlock : t.seatLock = s.seatLock.del (scheduleId, seatId))
    (h : s.freeOrOwnedBy scheduleId k userId = true) :
    t.freeOrOwnedBy scheduleId k userId = true := by
  rw [Redis.freeOrOwnedBy_iff] at h ⊢
  intro owner howner
  rw [Redis.lockOwner, hnow, hlock] at howner
  by_cases hk : (scheduleId, k) = (scheduleId, seatId)
  · rw [hk, Expiring.lookup_del_self] at howner
    cases howner
  · rw [Expiring.lookup_del_ne hk] at howner
    exact h owner howner

/-- The seats of a schedule without their locks, and with their fields booked. -/
def bookedKeys (scheduleId : ℤ) (seatIds : List ℤ) (s : Redis) :
    ℕ × Expiring (ℤ × ℤ) ℤ × (ℤ × ℤ → SeatState) × Expiring (ℤ × ℤ) (ℤ × String) ×
      (ℤ → Option ℤ) :=
  (s.now, seatIds.foldl (fun m k => m.del (scheduleId, k)) s.seatLock,
    seatIds.foldl (fun b k => setField b scheduleId k .booked) s.bitmap, s.seatCheckout,
    s.availableSeats)

theorem bookingKeys_eq {s : Redis} {n : ℕ} {locks : Expiring (ℤ × ℤ) ℤ}
    {bitmap : ℤ × ℤ → SeatState} {checkouts : Expiring (ℤ × ℤ) (ℤ × String)}
    {available : ℤ → Option ℤ} (h : bookingKeys s = (n, locks, bitmap, checkouts, available)) :
    s.now = n ∧ s.seatLock = locks ∧ s.bitmap = bitmap ∧ s.seatCheckout = checkouts ∧
      s.availableSeats = available := by
  simpa only [bookingKeys, Prod.mk.injEq] using h

/-- One seat of the booking loop. -/
def bookSeat (scheduleId userId seatId : ℤ) : Op Unit := do
  let _ ← releaseLock scheduleId seatId userId
  setScheduleSeatBitmapStateCluster scheduleId seatId .booked

theorem evalOp_setBitmap (s : Redis) (seatId : ℤ) (state : SeatState) :
    bookingKeys (evalOp (setScheduleSeatBitmapStateCluster scheduleId seatId state) s).1 =
      (s.now, s.seatLock, setField s.bitmap scheduleId seatId state, s.seatCheckout,
        s.availableSeats) := by
  unfold setScheduleSeatBitmapStateCluster
  by_cases hneg : seatId < 0
  · simp only [hneg, if_true, setField]
    rfl
  · simp only [hneg, if_false]
    exact bookingKeys_setBits s scheduleId seatId state

theorem evalOp_bookSeat {s : Redis} {seatId : ℤ}
    (hown : s.freeOrOwnedBy scheduleId seatId userId = true) :
    bookingKeys (evalOp (bookSeat scheduleId userId seatId) s).1 =
      bookedKeys scheduleId [seatId] s := by
  unfold bookSeat
  rw [evalOp_bind]
  refine (evalOp_setBitmap _ seatId _).trans ?_
  obtain ⟨hnow, hlock, hbits, hcheckout, havailable⟩ :=
    bookingKeys_eq (evalOp_releaseLock hown)
  rw [hnow, hlock, hbits, hcheckout, havailable, setField_setField]
  rfl

/-- The booking loop, one operation for each seat. -/
theorem markBooked_cons (seatId : ℤ) (seatIds : List ℤ) :
    markBooked scheduleId userId (seatId :: seatIds) =
      (onRedis (bookSeat scheduleId userId seatId) >>= fun _ =>
        markBooked scheduleId userId seatIds) := by
  simp only [bookSeat, onRedis, Prog.hoist_bind, Prog.bind_assoc]
  rfl

theorem evalAlone_markBooked {seatIds : List ℤ} {s t : World} {u : Unit}
    (hown : ∀ k ∈ seatIds, s.redis.freeOrOwnedBy scheduleId k userId = true)
    (h : Prog.evalAlone (exec i .ok) (markBooked scheduleId userId seatIds) s = some (t, u)) :
    t.pg = s.pg ∧ bookingKeys t.redis = bookedKeys scheduleId seatIds s.redis := by
  induction seatIds generalizing s with
  | nil =>
      obtain ⟨rfl, -⟩ := Prod.mk.inj (Option.some.inj h)
      exact ⟨rfl, rfl⟩
  | cons k ks ih =>
      rw [markBooked_cons, Prog.evalAlone_bind, evalAlone_onRedis] at h
      have hbook := evalOp_bookSeat (hown k List.mem_cons_self)
      obtain ⟨hnow, hlock, hbits, hcheckout, havailable⟩ := bookingKeys_eq hbook
      obtain ⟨hpg, hkeys⟩ := ih (fun k' hk' => freeOrOwnedBy_del hnow hlock
        (hown k' (List.mem_cons_of_mem _ hk'))) h
      refine ⟨hpg, hkeys.trans ?_⟩
      simp only [bookedKeys, hnow, hlock, hbits, hcheckout, havailable]
      rfl

/-- The checkout keys of the seats removed, one after the other. -/
theorem evalAlone_delCheckouts (seatIds : List ℤ) (s : World) :
    ∃ t, Prog.evalAlone (exec i .ok) (delCheckouts scheduleId seatIds) s = some (t, ()) ∧
      t.pg = s.pg ∧ bookingKeys t.redis = (s.redis.now, s.redis.seatLock, s.redis.bitmap,
        seatIds.foldl (fun m k => m.del (scheduleId, k)) s.redis.seatCheckout,
        s.redis.availableSeats) := by
  induction seatIds generalizing s with
  | nil => exact ⟨s, rfl, rfl, rfl⟩
  | cons k ks ih =>
      obtain ⟨t, ht, hpg, hkeys⟩ := ih
        { s with
          redis := { s.redis with seatCheckout := s.redis.seatCheckout.del (scheduleId, k) } }
      exact ⟨t, ht, hpg, hkeys⟩

end Effects

/-! ## The crash-free run -/

/-- The tables after the commit of a checkout. -/
def committed (message : CheckoutMessage) (orderId : ℕ) (s : World) : Postgres :=
  (s.pg.commitCheckout (checkoutCommit message orderId)).1

/-- The seats of a message all belong to its user. -/
def Owned (message : CheckoutMessage) (s : World) : Prop :=
  ∀ k ∈ message.seatIds, s.redis.lockOwner message.scheduleId k = some message.userId

/-- The reading commands of a checkout. -/
def Reads : Cmd → Prop
  | .connect | .orderExists _ | .redis .connect | .redis (.getLock ..)
  | .redis (.existsContext ..) => True
  | _ => False

theorem reads_exec {i : ℕ} {c : Cmd} (hc : Reads c) {w s t : World} {r : Rep c} (hs : s = w)
    (hex : exec i .ok c s = some (t, r)) : t = w := by
  subst hs
  cases c with
  | connect => exact (Prod.mk.inj (Option.some.inj hex)).1.symm
  | orderExists _ => exact (Prod.mk.inj (Option.some.inj hex)).1.symm
  | redis c =>
      cases c with
      | connect => exact (Prod.mk.inj (Option.some.inj hex)).1.symm
      | getLock _ _ => exact (Prod.mk.inj (Option.some.inj hex)).1.symm
      | existsContext _ _ _ => exact (Prod.mk.inj (Option.some.inj hex)).1.symm
      | _ => exact hc.elim
  | _ => exact hc.elim

theorem reads_orderExists (paymentRequestId : ℕ) : (orderExists paymentRequestId).Issues Reads := by
  refine ⟨trivial, fun r => ?_⟩
  match r with
  | none => trivial
  | some () => exact ⟨trivial, fun _ => trivial⟩

theorem issues_onRedis_of {β : Type} {φ : Cmd → Prop} {p : Op β}
    (h : p.Issues fun c => φ (.redis c)) : (onRedis p).Issues φ :=
  Prog.Issues.hoist _ (h.mono fun _ hc => ⟨hc, fun _ => trivial⟩)

theorem reads_checkOwnership (scheduleId userId : ℤ) (seatIds : List ℤ) :
    (checkOwnership scheduleId userId seatIds).Issues Reads := by
  induction seatIds with
  | nil => trivial
  | cons k ks ih =>
      have howner : (onRedis (getLockOwner scheduleId k)).Issues Reads := by
        refine issues_onRedis_of ⟨trivial, fun r => ?_⟩
        match r with
        | none => trivial
        | some () => exact ⟨trivial, fun _ => trivial⟩
      have hcontext : (onRedis (userHoldsLock scheduleId k userId)).Issues Reads := by
        refine issues_onRedis_of ⟨trivial, fun r => ?_⟩
        match r with
        | none => trivial
        | some () => exact ⟨trivial, fun _ => trivial⟩
      refine howner.bind fun owner => ?_
      match owner with
      | none => trivial
      | some owner =>
          show Prog.Issues Reads (if owner ≠ userId then _ else _)
          split_ifs
          · trivial
          · refine hcontext.bind fun held => ?_
            show Prog.Issues Reads (if held = true then _ else _)
            split_ifs
            · exact ih
            · trivial

/-- The dual-key check passes for the owner of all seats only. -/
theorem owned_of_checkOwnership {i : ℕ} {scheduleId userId : ℤ} {seatIds : List ℤ} {s t : World}
    (h : Prog.evalAlone (exec i .ok) (checkOwnership scheduleId userId seatIds) s =
      some (t, none)) :
    ∀ k ∈ seatIds, s.redis.lockOwner scheduleId k = some userId := by
  induction seatIds with
  | nil => exact fun _ hk => absurd hk List.not_mem_nil
  | cons k ks ih =>
      obtain ⟨u, owner, howner, hrest⟩ := Prog.evalAlone_bind_eq_some h
      rw [evalAlone_onRedis] at howner
      obtain ⟨rfl, hvalue⟩ := Prod.mk.inj (Option.some.inj howner)
      have hvalue : s.redis.lockOwner scheduleId k = owner := hvalue
      match owner with
      | none => cases hrest
      | some owner =>
          have hrest : Prog.evalAlone (exec i .ok) (if owner ≠ userId then _ else _) s =
            some (t, none) := hrest
          split_ifs at hrest with hne
          · cases hrest
          · obtain ⟨v, held, hheld, hrest⟩ := Prog.evalAlone_bind_eq_some hrest
            rw [evalAlone_onRedis] at hheld
            obtain ⟨rfl, -⟩ := Prod.mk.inj (Option.some.inj hheld)
            have hrest : Prog.evalAlone (exec i .ok) (if held = true then _ else _) s =
              some (t, none) := hrest
            split_ifs at hrest with hheld
            · refine List.forall_mem_cons.2 ⟨?_, ih hrest⟩
              rw [hvalue, not_not.1 hne]
            · cases hrest

theorem freeOrOwnedBy_of_owned {message : CheckoutMessage} {s : World} (h : Owned message s) :
    ∀ k ∈ message.seatIds,
      s.redis.freeOrOwnedBy message.scheduleId k message.userId = true := by
  intro k hk
  refine Redis.freeOrOwnedBy_iff.2 fun owner howner => ?_
  rw [h k hk] at howner
  exact (Option.some.inj howner).symm

/-- From the commit on. -/
def afterCommit (message : CheckoutMessage) : Service Verdict := do
  announceCheckout message
  clearCheckouts message.scheduleId message.seatIds
  pure .ack

/-- The transaction of a checkout by itself. -/
theorem exec_commitCheckout (i : ℕ) (c : CheckoutCommit) (w : World) :
    exec i .ok (.commitCheckout c) w =
      some ({ w with pg := (w.pg.commitCheckout c).1 }, (w.pg.commitCheckout c).2) := rfl

/-- An acknowledged delivery of a checkout that finds no order. -/
structure Commits (message : CheckoutMessage) (orderId : ℕ) (w : World) : Prop where
  fresh : w.pg.orderExists message.paymentRequestId = false
  seats : message.seatIds ≠ []
  owned : Owned message w
  accepted : w.pg.orderRefused (checkoutCommit message orderId) = false

section Stages

variable {i orderId : ℕ} {message : CheckoutMessage} {w final : World}

theorem evalAlone_orderExists (paymentRequestId : ℕ) :
    Prog.evalAlone (exec i .ok) (orderExists paymentRequestId) w =
      some (w, w.pg.orderExists paymentRequestId) := rfl

/-- The part of a delivery that follows the lookup of the order. -/
def checkThenCommit (message : CheckoutMessage) (orderId : ℕ) : Service Verdict := do
  match ← checkOwnership message.scheduleId message.userId message.seatIds with
  | some reason => do
      rejectCheckout message reason
      pure .nack
  | none =>
      match ← Prog.perform (Cmd.commitCheckout (checkoutCommit message orderId)) with
      | some () => afterCommit message
      | none => do
          clearCheckouts message.scheduleId message.seatIds
          pure .nack

theorem processCheckout_eq :
    processCheckout message orderId = (do
      if ← orderExists message.paymentRequestId then
        pure .ack
      else if message.seatIds = [] then
        pure .nack
      else
        checkThenCommit message orderId) := rfl

/-- An answer that is computed after other commands only is not an acknowledgement. -/
theorem evalAlone_nack {α : Type} {p : Service α} {s : World} :
    Prog.evalAlone (exec i .ok) (p >>= fun _ => pure Verdict.nack) s ≠ some (final, .ack) := by
  intro h
  obtain ⟨t, a, -, hret⟩ := Prog.evalAlone_bind_eq_some h
  cases hret

/-- An acknowledged delivery that finds no order goes on to check and commit. -/
theorem checked_of_acked (h : delivered i message orderId w = some (final, .ack))
    (hfresh : w.pg.orderExists message.paymentRequestId = false) :
    message.seatIds ≠ [] ∧
      Prog.evalAlone (exec i .ok) (checkThenCommit message orderId) w = some (final, .ack) := by
  unfold delivered at h
  rw [processCheckout_eq, Prog.evalAlone_bind, evalAlone_orderExists, hfresh] at h
  have h : Prog.evalAlone (exec i .ok) (if message.seatIds = [] then pure .nack
    else checkThenCommit message orderId) w = some (final, .ack) := h
  split_ifs at h with hseats
  · cases h
  · exact ⟨hseats, h⟩

/-- The dual-key check of an acknowledged delivery passes and leaves the world as it was. -/
theorem evalAlone_checkOwnership {reason : Option String} {u : World}
    (h : Prog.evalAlone (exec i .ok) (checkThenCommit message orderId) w = some (final, .ack))
    (hcheck : Prog.evalAlone (exec i .ok)
      (checkOwnership message.scheduleId message.userId message.seatIds) w = some (u, reason)) :
    u = w ∧ reason = none ∧ Owned message w := by
  obtain rfl : u = w := Prog.evalAlone_keeps (I := (· = w))
    (fun c hc s t r hs hex => reads_exec hc hs hex) hcheck (reads_checkOwnership _ _ _) rfl
  match reason with
  | none => exact ⟨rfl, rfl, owned_of_checkOwnership hcheck⟩
  | some reason =>
      unfold checkThenCommit at h
      rw [Prog.evalAlone_bind, hcheck] at h
      exact absurd h evalAlone_nack

/-- The stages of a delivery that is acknowledged: it found the order, or it found every seat owned
and committed. -/
theorem stages_of_acked (h : delivered i message orderId w = some (final, .ack)) :
    (w.pg.orderExists message.paymentRequestId = true ∧ final = w) ∨
    (Commits message orderId w ∧ Prog.evalAlone (exec i .ok) (afterCommit message)
      { w with pg := committed message orderId w } = some (final, .ack)) := by
  cases hexists : w.pg.orderExists message.paymentRequestId with
  | true =>
      unfold delivered at h
      rw [processCheckout_eq, Prog.evalAlone_bind, evalAlone_orderExists, hexists] at h
      exact .inl ⟨rfl, (Prod.mk.inj (Option.some.inj h)).1.symm⟩
  | false =>
      obtain ⟨hseats, h⟩ := checked_of_acked h hexists
      obtain ⟨u, reason, hcheck, hrest⟩ := Prog.evalAlone_bind_eq_some h
      obtain ⟨rfl, rfl, howned⟩ := evalAlone_checkOwnership h hcheck
      have hrest := (Prog.evalAlone_call
        (exec_commitCheckout i (checkoutCommit message orderId) u)).symm.trans hrest
      cases hrefused : u.pg.orderRefused (checkoutCommit message orderId) with
      | true =>
          simp only [Postgres.commitCheckout, hrefused, if_true] at hrest
          exact absurd hrest evalAlone_nack
      | false =>
          refine .inr ⟨⟨hexists, hseats, howned, hrefused⟩, ?_⟩
          have hcommit : (u.pg.commitCheckout (checkoutCommit message orderId)).2 = some () := by
            simp [Postgres.commitCheckout, hrefused]
          rw [hcommit] at hrest
          exact hrest

/-- A crash leaves the world as it was, or comes after the commit. -/
theorem points_of_acked (h : delivered i message orderId w = some (final, .ack))
    {q : Service Verdict} {t : World}
    (hv : Prog.Visits (exec i .ok) (processCheckout message orderId) w q t) :
    t = w ∨ (Commits message orderId w ∧ Prog.Visits (exec i .ok) (afterCommit message)
      { w with pg := committed message orderId w } q t) := by
  have hreads : ∀ {α : Type} {p q : Service α} {t : World}, p.Issues Reads →
      Prog.Visits (exec i .ok) p w q t → t = w := by
    intro α p q t hp hv
    exact hv.keeps (I := (· = w)) (fun c hc s t r hs hex => reads_exec hc hs hex) hp rfl
  rw [processCheckout_eq] at hv
  rcases hv.bind_cases with ⟨p', hp', -⟩ | ⟨u, found, hu, hv⟩
  · exact .inl (hreads (reads_orderExists _) hp')
  rw [evalAlone_orderExists] at hu
  obtain ⟨rfl, hfound⟩ := Prod.mk.inj (Option.some.inj hu)
  rcases stages_of_acked h with ⟨hexists, -⟩ | ⟨hcommits, -⟩
  · rw [← hfound, hexists] at hv
    cases hv with
    | here => exact .inl rfl
  rw [← hfound, hcommits.fresh] at hv
  have hv : Prog.Visits (exec i .ok) (if message.seatIds = [] then pure .nack
    else checkThenCommit message orderId) w q t := hv
  rw [if_neg hcommits.seats] at hv
  rcases hv.bind_cases with ⟨p', hp', -⟩ | ⟨u, reason, hcheck, hv⟩
  · exact .inl (hreads (reads_checkOwnership _ _ _) hp')
  obtain ⟨rfl, rfl, -⟩ := evalAlone_checkOwnership (checked_of_acked h hcommits.fresh).2 hcheck
  cases hv with
  | here => exact .inl rfl
  | step hex hrest =>
      rw [exec_commitCheckout] at hex
      obtain ⟨rfl, rfl⟩ := Prod.mk.inj (Option.some.inj hex)
      have hcommit : (u.pg.commitCheckout (checkoutCommit message orderId)).2 = some () := by
        simp [Postgres.commitCheckout, hcommits.accepted]
      rw [hcommit] at hrest
      exact .inr ⟨hcommits, hrest⟩

end Stages

end Payments
end Bookit

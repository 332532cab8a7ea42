import Bookit.Payments.CheckoutRun

/-!
# Payments.CrashPoints — a checkout that crashes and is delivered again

A delivery of a checkout runs by itself, crashes at one of its points, and the message is delivered
again to some worker, any time later.  The commit is followed by the Redis effects: the cached seat
count, the lock and the bitmap field of each seat, the room event and the checkout keys.  A delivery
that finds the order does none of them, so what the crash has left undone stays undone.
-/

namespace Bookit
namespace Payments

open Lib SingleNodeLock

/-! ## Crashes and their recovery -/

/-- A crash of the worker that left this world, and the time until the next delivery. -/
def recovered (i d : ℕ) (s : World) : World :=
  { s with
    pg := s.pg.rollback i
    redis := { s.redis with now := s.redis.now + d } }

/-- An order without the identifier that its delivery drew. -/
def OrderRow.eraseId (o : OrderRow) : OrderRow :=
  { o with id := 0 }

/-- What a checkout is to bring about. -/
structure CheckoutState where
  orders : List OrderRow
  requests : List RequestRow
  seats : List SeatRow
  owners : ℤ × ℤ → Option ℤ
  checkouts : ℤ × ℤ → Option (ℤ × String)
  bitmap : ℤ × ℤ → SeatState
  availableSeats : ℤ → Option ℤ

/-- The state after a delivery.  Keys count as they stood at `now`, so that the time between two
deliveries removes none. -/
def checkoutState (now : ℕ) (s : World) : CheckoutState :=
  { orders := s.pg.orders.map OrderRow.eraseId
    requests := s.pg.requests
    seats := s.pg.seats
    owners := s.redis.seatLock.lookup now
    checkouts := s.redis.seatCheckout.lookup now
    bitmap := s.redis.bitmap
    availableSeats := s.redis.availableSeats }

/-- Every seat is booked in Redis, and none has a lock or a checkout key. -/
def AllBooked (message : CheckoutMessage) (now : ℕ) (s : World) : Prop :=
  ∀ k ∈ message.seatIds,
    s.redis.seatLock.lookup now (message.scheduleId, k) = none ∧
    (0 ≤ k → s.redis.bitmap (message.scheduleId, k) = .booked) ∧
    s.redis.seatCheckout.lookup now (message.scheduleId, k) = none

/-! ## What a crash after the commit leaves -/

section Effects

variable {i : ℕ} {message : CheckoutMessage}

/-- A key of one of the message's seats. -/
def OfSeats (message : CheckoutMessage) (scheduleId seatId : ℤ) : Prop :=
  scheduleId = message.scheduleId ∧ seatId ∈ message.seatIds

/-- The commands that follow the update of the cached count. -/
def Books (message : CheckoutMessage) : Cmd → Prop
  | .redis .connect | .redis (.zremUser ..) | .redis (.zremRoom ..) | .redis (.zremQueue _)
  | .redis (.publish ..) => True
  | .redis (.eval .release scheduleId seatId ..) => OfSeats message scheduleId seatId
  | .redis (.setBits scheduleId seatId _) => OfSeats message scheduleId seatId
  | .redis (.delCheckout scheduleId seatId) => OfSeats message scheduleId seatId
  | _ => False

/-- Two worlds that differ in nothing but keys of the message's seats. -/
structure SameOffSeats (message : CheckoutMessage) (s t : World) : Prop where
  pg : t.pg = s.pg
  now : t.redis.now = s.redis.now
  seatLock : ∀ scheduleId seatId, ¬ OfSeats message scheduleId seatId →
    t.redis.seatLock (scheduleId, seatId) = s.redis.seatLock (scheduleId, seatId)
  bitmap : ∀ scheduleId seatId, ¬ (OfSeats message scheduleId seatId ∧ 0 ≤ seatId) →
    t.redis.bitmap (scheduleId, seatId) = s.redis.bitmap (scheduleId, seatId)
  seatCheckout : ∀ scheduleId seatId, ¬ OfSeats message scheduleId seatId →
    t.redis.seatCheckout (scheduleId, seatId) = s.redis.seatCheckout (scheduleId, seatId)
  availableSeats : t.redis.availableSeats = s.redis.availableSeats

theorem SameOffSeats.refl (message : CheckoutMessage) (s : World) : SameOffSeats message s s :=
  ⟨rfl, rfl, fun _ _ _ => rfl, fun _ _ _ => rfl, fun _ _ _ => rfl, rfl⟩

/-- The key of another seat is not the key of a seat of the message. -/
theorem ne_of_ofSeats {scheduleId seatId scheduleId' seatId' : ℤ}
    (h : OfSeats message scheduleId seatId) (h' : ¬ OfSeats message scheduleId' seatId') :
    (scheduleId', seatId') ≠ (scheduleId, seatId) := by
  intro heq
  obtain ⟨rfl, rfl⟩ := Prod.mk.inj heq
  exact h' h

theorem setField_off {bitmap : ℤ × ℤ → SeatState} {scheduleId seatId scheduleId' seatId' : ℤ}
    {state : SeatState} (h : OfSeats message scheduleId seatId)
    (h' : ¬ (OfSeats message scheduleId' seatId' ∧ 0 ≤ seatId')) :
    setField bitmap scheduleId seatId state (scheduleId', seatId') =
      bitmap (scheduleId', seatId') := by
  unfold setField
  split_ifs with hneg
  · rfl
  · refine Redis.setAt_ne fun heq => ?_
    obtain ⟨rfl, rfl⟩ := Prod.mk.inj heq
    exact h' ⟨h, not_lt.1 hneg⟩

/-- A release leaves the keys of other seats as they are. -/
theorem release_off {scheduleId seatId userId : ℤ} (hc : OfSeats message scheduleId seatId)
    {w s : World} (hs : SameOffSeats message w s) (entry : QueueEntry) :
    SameOffSeats message w
      { s with redis := (Redis.eval .release scheduleId seatId userId entry s.redis).1 } := by
  by_cases hfree : s.redis.freeOrOwnedBy scheduleId seatId userId
  · obtain ⟨hnow, hlock, hbits, hcheckout, havailable⟩ := bookingKeys_eq
      (bookingKeys_releaseKeys s.redis scheduleId seatId userId entry .available)
    simp only [Redis.eval, hfree, if_true]
    refine ⟨hs.pg, hnow.trans hs.now, fun scheduleId' seatId' h => ?_,
      fun scheduleId' seatId' h => ?_, fun scheduleId' seatId' h => ?_,
      havailable.trans hs.availableSeats⟩
    · rw [hlock, Expiring.del_ne (ne_of_ofSeats hc h), hs.seatLock _ _ h]
    · rw [hbits, setField_off hc h, hs.bitmap _ _ h]
    · rw [hcheckout, hs.seatCheckout _ _ h]
  · simp only [Redis.eval, hfree, Bool.false_eq_true, if_false]
    exact hs

/-- What a booking command does to the keys of a checkout. -/
theorem books_exec {c : Cmd} (hc : Books message c) {w s t : World} {r : Rep c}
    (hs : SameOffSeats message w s) (hex : exec i .ok c s = some (t, r)) :
    SameOffSeats message w t := by
  cases c with
  | redis k =>
      cases k with
      | connect | zremUser | zremRoom | zremQueue | publish =>
          obtain ⟨rfl, -⟩ := Prod.mk.inj (Option.some.inj hex)
          exact ⟨hs.pg, hs.now, hs.seatLock, hs.bitmap, hs.seatCheckout, hs.availableSeats⟩
      | eval script scheduleId seatId userId entry =>
          cases script with
          | release =>
              obtain ⟨rfl, -⟩ := Prod.mk.inj (Option.some.inj hex)
              exact release_off hc hs entry
          | _ => cases hc
      | setBits scheduleId seatId state =>
          obtain ⟨rfl, -⟩ := Prod.mk.inj (Option.some.inj hex)
          obtain ⟨hnow, hlock, hbits, hcheckout, havailable⟩ := bookingKeys_eq
            (bookingKeys_setBits s.redis scheduleId seatId state)
          refine ⟨hs.pg, hnow.trans hs.now, fun scheduleId' seatId' h => ?_,
            fun scheduleId' seatId' h => ?_, fun scheduleId' seatId' h => ?_,
            havailable.trans hs.availableSeats⟩
          · exact (congrFun hlock _).trans (hs.seatLock _ _ h)
          · exact ((congrFun hbits _).trans (setField_off hc h)).trans (hs.bitmap _ _ h)
          · exact (congrFun hcheckout _).trans (hs.seatCheckout _ _ h)
      | delCheckout scheduleId seatId =>
          obtain ⟨rfl, -⟩ := Prod.mk.inj (Option.some.inj hex)
          exact ⟨hs.pg, hs.now, hs.seatLock, hs.bitmap, fun scheduleId' seatId' h =>
            (Expiring.del_ne (ne_of_ofSeats hc h)).trans (hs.seatCheckout _ _ h), hs.availableSeats⟩
      | _ => cases hc
  | _ => cases hc

/-- What follows the update of the cached count. -/
def bookAndClear (message : CheckoutMessage) : Service Verdict := do
  markBooked message.scheduleId message.userId message.seatIds
  publishRoom message.scheduleId (roomEvent "seat_booked" message.seatIds message.userId)
  clearCheckouts message.scheduleId message.seatIds
  pure .ack

theorem afterCommit_eq (message : CheckoutMessage) :
    afterCommit message =
      (onRedis (cluster (.adjustAvailable message.scheduleId (-message.seatIds.length))) >>=
        fun _ => bookAndClear message) := by
  simp only [afterCommit, announceCheckout, bookAndClear, adjustCachedAvailableSeats,
    Prog.bind_assoc]

theorem issues_bookSeat {seatId : ℤ} (h : OfSeats message message.scheduleId seatId) :
    (onRedis (bookSeat message.scheduleId message.userId seatId)).Issues (Books message) := by
  refine issues_onRedis_of (Prog.Issues.bind ?_ fun _ => ?_)
  · exact issues_evalThenCleanUp (φ := fun c => Books message (.redis c)) trivial h
      (issues_cleanUp trivial trivial trivial trivial h)
  · exact issues_setBitmap (φ := fun c => Books message (.redis c)) trivial h

theorem issues_markBooked {seatIds : List ℤ} (h : ∀ k ∈ seatIds, k ∈ message.seatIds) :
    (markBooked message.scheduleId message.userId seatIds).Issues (Books message) := by
  induction seatIds with
  | nil => trivial
  | cons k ks ih =>
      obtain ⟨hk, hks⟩ := List.forall_mem_cons.1 h
      rw [markBooked_cons]
      exact (issues_bookSeat ⟨rfl, hk⟩).bind fun _ => ih hks

theorem issues_delCheckouts {seatIds : List ℤ} (h : ∀ k ∈ seatIds, k ∈ message.seatIds) :
    (delCheckouts message.scheduleId seatIds).Issues (Books message) := by
  induction seatIds with
  | nil => trivial
  | cons k ks ih =>
      obtain ⟨hk, hks⟩ := List.forall_mem_cons.1 h
      exact ⟨⟨rfl, hk⟩, fun _ => ih hks⟩

theorem issues_bookAndClear (message : CheckoutMessage) :
    (bookAndClear message).Issues (Books message) := by
  have hpublish : (publishRoom message.scheduleId (roomEvent "seat_booked" message.seatIds
      message.userId)).Issues (Books message) :=
    issues_onRedis_of (issues_cluster (φ := fun c => Books message (.redis c)) trivial trivial)
  have hclear : (clearCheckouts message.scheduleId message.seatIds).Issues (Books message) := by
    refine ⟨trivial, fun r => ?_⟩
    match r with
    | none => trivial
    | some () => exact issues_delCheckouts fun _ hk => hk
  exact (issues_markBooked fun _ hk => hk).bind fun _ => hpublish.bind fun _ =>
    hclear.bind fun _ => trivial

/-- The world after the update of the cached count. -/
def counted (message : CheckoutMessage) (s : World) : World :=
  { s with
    redis := { s.redis with
      availableSeats := Redis.setAt s.redis.availableSeats message.scheduleId
        ((s.redis.availableSeats message.scheduleId).map (· + -(message.seatIds.length : ℤ))) } }

/-- The keys of a checkout after all its effects. -/
def settledKeys (message : CheckoutMessage) (s : Redis) :
    ℕ × Expiring (ℤ × ℤ) ℤ × (ℤ × ℤ → SeatState) × Expiring (ℤ × ℤ) (ℤ × String) ×
      (ℤ → Option ℤ) :=
  (s.now, message.seatIds.foldl (fun m k => m.del (message.scheduleId, k)) s.seatLock,
    message.seatIds.foldl (fun b k => setField b message.scheduleId k .booked) s.bitmap,
    message.seatIds.foldl (fun m k => m.del (message.scheduleId, k)) s.seatCheckout,
    s.availableSeats)

theorem evalAlone_bookAndClear {s t : World} {v : Verdict} (hown : Owned message s)
    (h : Prog.evalAlone (exec i .ok) (bookAndClear message) s = some (t, v)) :
    t.pg = s.pg ∧ bookingKeys t.redis = settledKeys message s.redis := by
  obtain ⟨s₁, _, hmark, h⟩ := Prog.evalAlone_bind_eq_some h
  obtain ⟨hpg₁, hkeys₁⟩ := evalAlone_markBooked (freeOrOwnedBy_of_owned hown) hmark
  obtain ⟨s₂, _, hpublish, h⟩ := Prog.evalAlone_bind_eq_some h
  have hpublish := (evalAlone_onRedis _ _ _).symm.trans hpublish
  obtain ⟨rfl, -⟩ := Prod.mk.inj (Option.some.inj hpublish)
  obtain ⟨s₃, _, hclear, h⟩ := Prog.evalAlone_bind_eq_some h
  obtain ⟨s₄, hdel, hpg₄, hkeys₄⟩ := evalAlone_delCheckouts (i := i) message.seatIds _
  have hclear := hdel.symm.trans hclear
  obtain ⟨rfl, -⟩ := Prod.mk.inj (Option.some.inj hclear)
  obtain ⟨rfl, -⟩ := Prod.mk.inj (Option.some.inj h)
  obtain ⟨hnow, hlock, hbits, hcheckout, havailable⟩ := bookingKeys_eq hkeys₁
  refine ⟨hpg₄.trans hpg₁, hkeys₄.trans ?_⟩
  show (s₁.redis.now, s₁.redis.seatLock, s₁.redis.bitmap, _, s₁.redis.availableSeats) = _
  rw [hnow, hlock, hbits, havailable]
  show (_, _, _, message.seatIds.foldl _ s₁.redis.seatCheckout, _) = _
  rw [hcheckout]
  rfl

theorem evalAlone_afterCommit {s t : World} {v : Verdict} (hown : Owned message s)
    (h : Prog.evalAlone (exec i .ok) (afterCommit message) s = some (t, v)) :
    t.pg = s.pg ∧ bookingKeys t.redis = settledKeys message (counted message s).redis := by
  rw [afterCommit_eq, Prog.evalAlone_bind, evalAlone_onRedis] at h
  exact evalAlone_bookAndClear (s := counted message s) hown h

end Effects

/-! ## Crash consistency -/

/-- What every pass over a list keeps, and the pass over `a` establishes, holds after the list. -/
theorem foldl_reaches {α β : Type} {f : β → α → β} {P : β → Prop} {l : List α} {a : α} (ha : a ∈ l)
    (hkeep : ∀ b a', P b → P (f b a')) (hstep : ∀ b, P (f b a)) (b : β) : P (l.foldl f b) := by
  induction l generalizing b with
  | nil => exact absurd ha List.not_mem_nil
  | cons a' l ih =>
      rcases List.mem_cons.1 ha with rfl | hmem
      · exact List.foldlRecOn l f (hstep b) fun b hb a' _ => hkeep b a' hb
      · exact ih hmem _

theorem foldl_del_of_mem {V : Type} {scheduleId k : ℤ} {seatIds : List ℤ} (hk : k ∈ seatIds)
    (m : Expiring (ℤ × ℤ) V) :
    seatIds.foldl (fun m k => m.del (scheduleId, k)) m (scheduleId, k) = none := by
  refine foldl_reaches (P := fun m : Expiring (ℤ × ℤ) V => m (scheduleId, k) = none) hk
    (fun m k' hm => ?_) (fun m => Expiring.del_self) m
  unfold Expiring.del
  split_ifs
  · rfl
  · exact hm

theorem foldl_setField_of_mem {scheduleId k : ℤ} {seatIds : List ℤ} (hk : k ∈ seatIds)
    (hnonneg : 0 ≤ k) (bitmap : ℤ × ℤ → SeatState) :
    seatIds.foldl (fun b k => setField b scheduleId k .booked) bitmap (scheduleId, k) =
      .booked := by
  refine foldl_reaches (P := fun b : ℤ × ℤ → SeatState => b (scheduleId, k) = .booked) hk
    (fun b k' hb => ?_) (fun b => ?_) bitmap
  · unfold setField Redis.setAt
    split_ifs
    · exact hb
    · show (if (scheduleId, k) = (scheduleId, k') then _ else _) = _
      split_ifs
      · rfl
      · exact hb
  · simp [setField, not_lt.2 hnonneg]

section Consistency

variable {i j orderId orderId' d now : ℕ} {message : CheckoutMessage} {w s t u final final' : World}

theorem allBooked_of_settled (h : bookingKeys t.redis = settledKeys message s.redis) :
    AllBooked message now t := by
  intro k hk
  obtain ⟨-, hlock, hbits, hcheckout, -⟩ := bookingKeys_eq h
  refine ⟨?_, fun hnonneg => ?_, ?_⟩
  · rw [hlock, Expiring.lookup, foldl_del_of_mem hk]
  · rw [hbits, foldl_setField_of_mem hk hnonneg]
  · rw [hcheckout, Expiring.lookup, foldl_del_of_mem hk]

/-- Whether every seat is booked is part of what a checkout is to bring about. -/
theorem allBooked_congr (h : checkoutState now s = checkoutState now t)
    (hs : AllBooked message now s) : AllBooked message now t := by
  intro k hk
  obtain ⟨hlock, hbits, hcheckout⟩ := hs k hk
  have howners := congrFun (congrArg CheckoutState.owners h) (message.scheduleId, k)
  have hcheckouts := congrFun (congrArg CheckoutState.checkouts h) (message.scheduleId, k)
  have hbitmap := congrFun (congrArg CheckoutState.bitmap h) (message.scheduleId, k)
  exact ⟨howners.symm.trans hlock, fun hnonneg => hbitmap.symm.trans (hbits hnonneg),
    hcheckouts.symm.trans hcheckout⟩

/-- Worlds that differ in keys of the seats only, and where all seats are booked, are the same to a
checkout. -/
theorem checkoutState_eq (hs : SameOffSeats message u s) (ht : SameOffSeats message u t)
    (hbs : AllBooked message now s) (hbt : AllBooked message now t) :
    checkoutState now s = checkoutState now t := by
  have howners : s.redis.seatLock.lookup now = t.redis.seatLock.lookup now := by
    funext ⟨scheduleId, k⟩
    by_cases hk : OfSeats message scheduleId k
    · obtain ⟨rfl, hk⟩ := hk
      rw [(hbs k hk).1, (hbt k hk).1]
    · rw [Expiring.lookup, Expiring.lookup, hs.seatLock _ _ hk, ht.seatLock _ _ hk]
  have hcheckouts : s.redis.seatCheckout.lookup now = t.redis.seatCheckout.lookup now := by
    funext ⟨scheduleId, k⟩
    by_cases hk : OfSeats message scheduleId k
    · obtain ⟨rfl, hk⟩ := hk
      rw [(hbs k hk).2.2, (hbt k hk).2.2]
    · rw [Expiring.lookup, Expiring.lookup, hs.seatCheckout _ _ hk, ht.seatCheckout _ _ hk]
  have hbitmap : s.redis.bitmap = t.redis.bitmap := by
    funext ⟨scheduleId, k⟩
    by_cases hk : OfSeats message scheduleId k ∧ 0 ≤ k
    · obtain ⟨⟨rfl, hk⟩, hnonneg⟩ := hk
      rw [(hbs k hk).2.1 hnonneg, (hbt k hk).2.1 hnonneg]
    · rw [hs.bitmap _ _ hk, ht.bitmap _ _ hk]
  simp only [checkoutState, hs.pg, ht.pg, howners, hcheckouts, hbitmap, hs.availableSeats,
    ht.availableSeats]

/-- A crash after the commit: the seats still have their locks, or the crash is in the loop over the
seats or later. -/
theorem points_afterCommit {q : Service Verdict}
    (hv : Prog.Visits (exec i .ok) (afterCommit message) s q t) :
    (t.pg = s.pg ∧ t.redis.seatLock = s.redis.seatLock) ∨
      SameOffSeats message (counted message s) t := by
  rw [afterCommit_eq] at hv
  rcases hv.bind_cases with ⟨p', hp', -⟩ | ⟨u, _, hu, hv⟩
  · obtain ⟨q', rfl, hpg, hvisits⟩ := visits_onRedis hp'
    refine .inl ⟨hpg, ?_⟩
    refine hvisits.keeps (φ := fun c => c = .connect ∨ ∃ scheduleId delta,
      c = .adjustAvailable scheduleId delta) (I := fun r => r.seatLock = s.redis.seatLock) ?_
      (issues_cluster (.inl rfl) (.inr ⟨_, _, rfl⟩)) rfl
    rintro c (rfl | ⟨scheduleId, delta, rfl⟩) r r' rep hr hex
    · obtain ⟨rfl, -⟩ := Prod.mk.inj (Option.some.inj hex)
      exact hr
    · obtain ⟨rfl, -⟩ := Prod.mk.inj (Option.some.inj hex)
      exact hr
  · rw [evalAlone_onRedis] at hu
    obtain ⟨rfl, -⟩ := Prod.mk.inj (Option.some.inj hu)
    exact .inr (hv.keeps (I := SameOffSeats message (counted message s))
      (fun c hc s' t' r hs' hex => books_exec hc hs' hex) (issues_bookAndClear message)
      (SameOffSeats.refl message _))

theorem sameOffSeats_of_end {v : Verdict}
    (h : Prog.evalAlone (exec i .ok) (afterCommit message) s = some (t, v)) :
    SameOffSeats message (counted message s) t := by
  rw [afterCommit_eq, Prog.evalAlone_bind, evalAlone_onRedis] at h
  exact Prog.evalAlone_keeps (I := SameOffSeats message (counted message s))
    (fun c hc s' t' r hs' hex => books_exec hc hs' hex) h (issues_bookAndClear message)
    (SameOffSeats.refl message _)

theorem checkoutState_recovered : checkoutState now (recovered i d s) = checkoutState now s := rfl

theorem committed_orders (h : Commits message orderId w) :
    (committed message orderId w).orders =
      w.pg.orders ++ [Postgres.newOrder (checkoutCommit message orderId)] := by
  simp only [committed, Postgres.commitCheckout, h.accepted, Bool.false_eq_true, if_false]

theorem settled_of_commits {v : Verdict} (h : Commits message orderId w)
    (hrun : Prog.evalAlone (exec i .ok) (afterCommit message)
      { w with pg := committed message orderId w } = some (final, v)) :
    final.pg = committed message orderId w ∧ bookingKeys final.redis =
      settledKeys message (counted message { w with pg := committed message orderId w }).redis :=
  evalAlone_afterCommit (s := { w with pg := committed message orderId w }) h.owned hrun

/-- The committed order is found by the next delivery. -/
theorem orderExists_committed (h : Commits message orderId w) :
    (committed message orderId w).orderExists message.paymentRequestId = true := by
  simp [Postgres.orderExists, committed_orders h, Postgres.newOrder, checkoutCommit]

/-- A commit inserts an order. -/
theorem orders_committed (h : Commits message orderId w) :
    (committed message orderId w).orders ≠ w.pg.orders := by
  simp [committed_orders h]

/-- Two commits of one message, by different workers, differ in the identifier of the order only. -/
theorem checkoutState_committed (h : Commits message orderId w)
    (h' : Commits message orderId' (recovered i d w))
    (hkeys : bookingKeys final.redis = settledKeys message
      (counted message { w with pg := committed message orderId w }).redis)
    (hkeys' : bookingKeys final'.redis = settledKeys message (counted message
      { recovered i d w with pg := committed message orderId' (recovered i d w) }).redis)
    (hpg : final.pg = committed message orderId w)
    (hpg' : final'.pg = committed message orderId' (recovered i d w)) :
    checkoutState now final' = checkoutState now final := by
  obtain ⟨-, hlock, hbits, hcheckout, havailable⟩ := bookingKeys_eq hkeys
  obtain ⟨-, hlock', hbits', hcheckout', havailable'⟩ := bookingKeys_eq hkeys'
  have horders : final'.pg.orders.map OrderRow.eraseId = final.pg.orders.map OrderRow.eraseId := by
    rw [hpg, hpg', committed_orders h, committed_orders h', List.map_append, List.map_append]
    rfl
  have hrequests : final'.pg.requests = final.pg.requests := by
    rw [hpg, hpg']
    simp only [committed, Postgres.commitCheckout, h.accepted, h'.accepted, Bool.false_eq_true,
      if_false]
    rfl
  have hseats : final'.pg.seats = final.pg.seats := by
    rw [hpg, hpg']
    simp only [committed, Postgres.commitCheckout, h.accepted, h'.accepted, Bool.false_eq_true,
      if_false]
    rfl
  simp only [checkoutState, horders, hrequests, hseats, hlock, hlock', hbits, hbits', hcheckout,
    hcheckout', havailable, havailable']
  rfl

/-- A delivery crashes at any point, and the message is delivered again and acknowledged.  The end is
that of the delivery without the crash if and only if the crash came before the commit, or left every
seat booked in Redis with no lock and no checkout key. -/
theorem checkout_crash_consistent_iff {q : Service Verdict}
    (hfirst : delivered i message orderId w = some (final, .ack))
    (hcrash : Prog.Visits (exec i .ok) (processCheckout message orderId) w q t)
    (hagain : delivered j message orderId' (recovered i d t) = some (final', .ack)) :
    checkoutState w.redis.now final' = checkoutState w.redis.now final ↔
      t.pg.orders = w.pg.orders ∨ AllBooked message w.redis.now t := by
  rcases points_of_acked hfirst hcrash with rfl | ⟨hcommits, hv⟩
  · -- before the commit the second delivery does the work of the first
    refine iff_of_true ?_ (.inl rfl)
    rcases stages_of_acked hfirst with ⟨hexists, rfl⟩ | ⟨hcommits, hrun⟩
    · rcases stages_of_acked hagain with ⟨-, rfl⟩ | ⟨hcommits', -⟩
      · exact checkoutState_recovered
      · exact absurd (hexists.symm.trans hcommits'.fresh) (by decide)
    · rcases stages_of_acked hagain with ⟨hexists', -⟩ | ⟨hcommits', hrun'⟩
      · exact absurd (hexists'.symm.trans hcommits.fresh) (by decide)
      · obtain ⟨hpg, hkeys⟩ := settled_of_commits hcommits hrun
        obtain ⟨hpg', hkeys'⟩ := settled_of_commits hcommits' hrun'
        exact checkoutState_committed hcommits hcommits' hkeys hkeys' hpg hpg'
  · -- after it the second delivery finds the order and does nothing
    have hrun := (stages_of_acked hfirst).resolve_left fun h =>
      absurd (h.1.symm.trans hcommits.fresh) (by decide)
    obtain ⟨-, hkeys⟩ := settled_of_commits hcommits hrun.2
    have hbooked : AllBooked message w.redis.now final := allBooked_of_settled hkeys
    have hpg : t.pg = committed message orderId w := by
      rcases points_afterCommit hv with ⟨hpg, -⟩ | hoff
      · exact hpg
      · exact hoff.pg
    have hfinal' : final' = recovered i d t := by
      rcases stages_of_acked hagain with ⟨-, h⟩ | ⟨hcommits', -⟩
      · exact h
      · have hfound : (recovered i d t).pg.orderExists message.paymentRequestId = true :=
          (congrArg (·.orderExists message.paymentRequestId) hpg).trans
            (orderExists_committed hcommits)
        exact absurd (hfound.symm.trans hcommits'.fresh) (by decide)
    have horders : t.pg.orders ≠ w.pg.orders := hpg ▸ orders_committed hcommits
    rw [hfinal', checkoutState_recovered, or_iff_right horders]
    refine ⟨fun heq => allBooked_congr heq.symm hbooked, fun hallBooked => ?_⟩
    rcases points_afterCommit hv with ⟨-, hlock⟩ | hoff
    · obtain ⟨k, hk⟩ := List.exists_mem_of_ne_nil _ hcommits.seats
      have hfree := (hallBooked k hk).1
      rw [hlock] at hfree
      exact absurd ((hcommits.owned k hk).symm.trans hfree) (Option.some_ne_none _)
    · exact checkoutState_eq hoff (sameOffSeats_of_end hrun.2) hallBooked hbooked

end Consistency

/-! ## One seat -/

/-- The seat of a schedule locked by a user, with its checkout key. -/
def heldSeat : World :=
  { newWorld oneSeat with
    redis := (evalOp (do
      let _ ← acquireSeatLockLua 1 1 42 300
      Prog.perform (Redis.Cmd.setCheckoutNx 1 1 (42, "key") 300)) Redis.empty).1 }

def oneSeatCheckout : CheckoutMessage :=
  { paymentRequestId := 10, userId := 42, scheduleId := 1, seatIds := [1], amount := 118,
    razorpayOrderId := none, razorpayPaymentId := none }

/-- An end whose answer and whose field of the seat are known. -/
theorem exists_end (state : SeatState) {x : Option (World × Verdict)}
    (h : x.map (fun e => (e.2, e.1.redis.bitmap (1, 1))) = some (.ack, state)) :
    ∃ final, x = some (final, .ack) ∧ final.redis.bitmap (1, 1) = state := by
  obtain ⟨⟨final, v⟩, hx, he⟩ := Option.map_eq_some_iff.1 h
  obtain ⟨rfl, hstate⟩ := Prod.mk.inj he
  exact ⟨final, hx, hstate⟩

theorem checkout_crash_consistent_start :
    ∃ final final', delivered 0 oneSeatCheckout 100 heldSeat = some (final, .ack) ∧
      delivered 1 oneSeatCheckout 101 (recovered 0 5 heldSeat) = some (final', .ack) ∧
      checkoutState 0 final' = checkoutState 0 final := by
  obtain ⟨final, hfirst, -⟩ := exists_end .booked
    (x := delivered 0 oneSeatCheckout 100 heldSeat) (by decide +kernel)
  obtain ⟨final', hagain, -⟩ := exists_end .booked
    (x := delivered 1 oneSeatCheckout 101 (recovered 0 5 heldSeat)) (by decide +kernel)
  exact ⟨final, final', hfirst, hagain,
    (checkout_crash_consistent_iff hfirst .here hagain).2 (.inl rfl)⟩

/-- The world where the first worker has committed and done nothing else. -/
def crashedAfterCommit : Service Verdict × World :=
  Prog.after (exec 0 .ok) 7 (processCheckout oneSeatCheckout 100) heldSeat

/-- A crash right after the commit: the next delivery acknowledges, and the seat stays locked. -/
theorem checkout_crash_inconsistent :
    ¬ ∀ (i j orderId orderId' d : ℕ) (message : CheckoutMessage) (w t final final' : World)
        (q : Service Verdict),
      delivered i message orderId w = some (final, .ack) →
      Prog.Visits (exec i .ok) (processCheckout message orderId) w q t →
      delivered j message orderId' (recovered i d t) = some (final', .ack) →
      checkoutState w.redis.now final' = checkoutState w.redis.now final := by
  intro hall
  obtain ⟨final, hfirst, hbooked⟩ := exists_end .booked
    (x := delivered 0 oneSeatCheckout 100 heldSeat) (by decide +kernel)
  obtain ⟨final', hagain, hlocked⟩ := exists_end .locked
    (x := delivered 1 oneSeatCheckout 101 (recovered 0 5 crashedAfterCommit.2)) (by decide +kernel)
  have heq := hall 0 1 100 101 5 oneSeatCheckout heldSeat crashedAfterCommit.2 final final' _ hfirst
    (Prog.visits_after 7 _ _) hagain
  have hbits := congrFun (congrArg CheckoutState.bitmap heq) (1, 1)
  have hbits : final'.redis.bitmap (1, 1) = final.redis.bitmap (1, 1) := hbits
  rw [hbooked, hlocked] at hbits
  cases hbits

end Payments
end Bookit

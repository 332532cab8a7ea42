import Bookit.Gateway.Effects

/-!
# Gateway.BookedSeats — who writes the field of a seat that a checkout has booked

A checkout releases the lock of each of its seats and sets the seat's field to `10`.  The scripts and
the metadata of locked seats write `00` and `01` to the same field without a look at the orders.  We
log the seats that checkouts have marked, by order.
-/

namespace Bookit

open Lib

namespace Payments

/-! ## Orders -/

/-- Orders stay and keep their seats, a refunded order stays refunded, and a new order has a new
number. -/
structure OrdersKept (s t : Postgres) : Prop where
  known : ∀ o ∈ s.orders, ∃ o' ∈ t.orders, o'.id = o.id
  origin : ∀ o' ∈ t.orders, (∀ o ∈ s.orders, o.id ≠ o'.id) ∨
    ∃ o ∈ s.orders, o.id = o'.id ∧ o.scheduleId = o'.scheduleId ∧ o.seatIds = o'.seatIds ∧
      (o.status = .refunded → o'.status = .refunded)

theorem OrdersKept.of_eq {s t : Postgres} (h : t.orders = s.orders) : OrdersKept s t := by
  refine ⟨fun o ho => ⟨o, by rw [h]; exact ho, rfl⟩, fun o ho => .inr ⟨o, ?_, rfl, rfl, rfl, id⟩⟩
  rw [← h]
  exact ho

/-- An update of statuses that leaves refunded orders refunded. -/
theorem OrdersKept.update {s t : Postgres} {p : OrderRow → Bool} {f : OrderRow → OrderRow}
    (h : t.orders = Table.updateWhere p f s.orders)
    (hf : ∀ o, p o = true → (f o).id = o.id ∧ (f o).scheduleId = o.scheduleId ∧
      (f o).seatIds = o.seatIds ∧ (o.status = .refunded → (f o).status = .refunded)) :
    OrdersKept s t := by
  refine ⟨fun o ho => ⟨_, by rw [h]; exact Table.mem_updateWhere_of_mem ho, ?_⟩, fun o' ho' => ?_⟩
  · split_ifs with hp
    · exact (hf o hp).1
    · rfl
  · rw [h] at ho'
    rcases Table.mem_updateWhere_cases ho' with ⟨ho, -⟩ | ⟨o, ho, hp, rfl⟩
    · exact .inr ⟨o', ho, rfl, rfl, rfl, id⟩
    · obtain ⟨hid, hshow, hseats, hstatus⟩ := hf o hp
      exact .inr ⟨o, ho, hid.symm, hshow.symm, hseats.symm, hstatus⟩

theorem OrdersKept.commitCheckout (s : Postgres) (c : CheckoutCommit) :
    OrdersKept s (s.commitCheckout c).1 := by
  unfold Postgres.commitCheckout
  split_ifs with hrefused
  · exact .of_eq rfl
  · refine ⟨fun o ho => ⟨o, List.mem_append_left _ ho, rfl⟩, fun o' ho' => ?_⟩
    rcases List.mem_append.1 ho' with ho | ho
    · exact .inr ⟨o', ho, rfl, rfl, rfl, id⟩
    · obtain rfl := List.mem_singleton.1 ho
      refine .inl fun o ho heq => hrefused (List.any_eq_true.2 ⟨o, ho, decide_eq_true (.inl heq)⟩)

theorem ordersKept_exec {i : ℕ} {l : Link} {c : Cmd} {s t : World} {r : Rep c}
    (h : exec i l c s = some (t, r)) : OrdersKept s.pg t.pg := by
  cases c with
  | redis c =>
      obtain ⟨rfl, -⟩ := Prod.mk.inj (Option.some.inj h)
      exact .of_eq rfl
  | connect | findRequest | loadSeats | orderExists | findOrder | bookedCount | activeTicketCount =>
      obtain rfl : _ = t := congrArg Prod.fst (Option.some.inj h)
      rw [query_fst]
      exact .of_eq rfl
  | insertRequest row =>
      simp only [exec] at h
      split at h
      · obtain ⟨rfl, -⟩ := Prod.mk.inj (Option.some.inj h)
        exact .of_eq rfl
      · split at h
        · cases h
        · next hins =>
          obtain ⟨rfl, -⟩ := Prod.mk.inj (Option.some.inj h)
          rcases insertRequest_cases hins with ⟨rfl, -⟩ | ⟨rfl, -⟩
          · exact .of_eq rfl
          · exact .of_eq rfl
  | insertRequested message =>
      rcases Link.deliver_cases (Option.some.inj h) with ⟨rfl, -⟩ | ⟨rfl, -⟩
      · exact .of_eq rfl
      · exact .of_eq rfl
  | commit =>
      have hcommit : (s.pg.commit i).orders = s.pg.orders := by
        unfold Postgres.commit
        split <;> rfl
      cases l with
      | ok | unacked =>
          obtain ⟨rfl, -⟩ := Prod.mk.inj (Option.some.inj h)
          exact .of_eq hcommit
      | lost =>
          obtain ⟨rfl, -⟩ := Prod.mk.inj (Option.some.inj h)
          exact .of_eq rfl
  | rollback =>
      obtain ⟨rfl, -⟩ := Prod.mk.inj (Option.some.inj h)
      exact .of_eq rfl
  | commitCheckout k =>
      obtain rfl : (World.onPg l (Postgres.commitCheckout k) s).1 = t :=
        congrArg Prod.fst (Option.some.inj h)
      cases l with
      | lost => exact .of_eq rfl
      | ok | unacked => exact .commitCheckout s.pg k
  | commitCancellation k =>
      rcases Link.deliver_cases (Option.some.inj h) with ⟨rfl, -⟩ | ⟨rfl, -⟩
      · exact .of_eq rfl
      · exact .update rfl fun o _ => ⟨rfl, rfl, rfl, fun _ => rfl⟩
  | startCancellation id message =>
      rcases Link.deliver_cases (Option.some.inj h) with ⟨rfl, -⟩ | ⟨rfl, -⟩
      · exact .of_eq rfl
      · show OrdersKept s.pg (s.pg.startCancellation id message)
        unfold Postgres.startCancellation
        split_ifs
        · refine .update rfl fun o hp => ⟨rfl, rfl, rfl, fun hrefunded => ?_⟩
          rw [(of_decide_eq_true hp).2] at hrefunded
          cases hrefunded
        · exact .of_eq rfl
  | failRequest | refund =>
      rcases Link.deliver_cases (Option.some.inj h) with ⟨rfl, -⟩ | ⟨rfl, -⟩
      · exact .of_eq rfl
      · exact .of_eq rfl

end Payments

namespace Gateway

/-! ## Marks -/

/-- A checkout's order has had the field of a seat set to booked. -/
structure Mark where
  orderId : ℕ
  scheduleId : ℤ
  seatId : ℤ
  deriving DecidableEq

/-- The order that a checkout commits. -/
def Task.ownOrder : Task → Option ℕ
  | .checkout _ orderId => some orderId
  | _ => none

/-- The seat that a command of a committed checkout marks. -/
def marked (n : Task) (l : Link) (c : Cmd) (s : World) : Option Mark :=
  match n.ownOrder, c with
  | some orderId, .service (.redis (.setBits scheduleId seatId .booked)) =>
      if l ≠ .lost ∧ 0 ≤ seatId ∧ ∃ o ∈ s.services.pg.orders, o.id = orderId then
        some ⟨orderId, scheduleId, seatId⟩
      else
        none
  | _, _ => none

/-- The machine with the log of marked seats. -/
def bookings : Machine (World × List Mark) Rep Task Result Link Environ :=
  machine.logged [] fun n _ l c s marks => marks ++ (marked n l c s).toList

/-! ## The condition -/

/-- No standing order has the seat, unless it is that of the checkout at work, which has not marked
the seat yet. -/
def Unsold (n : Task) (scheduleId seatId : ℤ) (s : World × List Mark) : Prop :=
  ∀ o ∈ s.1.services.pg.orders, o.scheduleId = scheduleId → seatId ∈ o.seatIds →
    o.status ≠ .refunded → n.ownOrder = some o.id ∧ ⟨o.id, scheduleId, seatId⟩ ∉ s.2

instance {n : Task} {scheduleId seatId : ℤ} {s : World × List Mark} :
    Decidable (Unsold n scheduleId seatId s) := by
  unfold Unsold
  infer_instance

/-- What the command writes `00` or `01` over is unsold. -/
def SparesOrders (n : Task) (c : Redis.Cmd) (s : World × List Mark) : Prop :=
  match c.writes s.1.services.redis with
  | none => True
  | some ((scheduleId, seatId), state) => state = .booked ∨ Unsold n scheduleId seatId s

instance {n : Task} {c : Redis.Cmd} {s : World × List Mark} : Decidable (SparesOrders n c s) := by
  unfold SparesOrders
  split <;> infer_instance

/-- `00` and `01` are written only where the database has no standing order for the seat. -/
def ChecksOrders (n : Task) (_ : ℕ) (l : Link) (c : Cmd) (s : World × List Mark) : Prop :=
  match c with
  | .service (.redis c) => l = .lost ∨ SparesOrders n c s
  | _ => True

instance {n : Task} {i : ℕ} {l : Link} {c : Cmd} {s : World × List Mark} :
    Decidable (ChecksOrders n i l c s) := by
  unfold ChecksOrders
  split <;> infer_instance

def ChecksOrdersRun (p : Pool (World × List Mark) Rep Task Result) (a : Act Link Environ) : Prop :=
  Machine.Guarded ChecksOrders (fun _ _ => True) p a

instance {p : Pool (World × List Mark) Rep Task Result} {a : Act Link Environ} :
    Decidable (ChecksOrdersRun p a) :=
  inferInstanceAs (Decidable (Machine.Guarded _ _ p a))

/-! ## The invariant -/

/-- The marked seats of standing orders are booked, and marks are of orders in the database. -/
structure StaysBooked (s : World × List Mark) : Prop where
  booked : ∀ o ∈ s.1.services.pg.orders, o.status ≠ .refunded → ∀ seatId ∈ o.seatIds,
    ⟨o.id, o.scheduleId, seatId⟩ ∈ s.2 →
      s.1.services.redis.bitmap (o.scheduleId, seatId) = .booked
  known : ∀ m ∈ s.2, ∃ o ∈ s.1.services.pg.orders, o.id = m.orderId

/-- Orders are kept, no marked field of a standing order is written over, and a new mark is a booked
field. -/
theorem StaysBooked.step {s : World × List Mark} {t : World} {new : Option Mark} (h : StaysBooked s)
    (hkept : Payments.OrdersKept s.1.services.pg t.services.pg)
    (hfields : ∀ o ∈ s.1.services.pg.orders, o.status ≠ .refunded → ∀ seatId ∈ o.seatIds,
      ⟨o.id, o.scheduleId, seatId⟩ ∈ s.2 →
        t.services.redis.bitmap (o.scheduleId, seatId) = .booked ∨
          t.services.redis.bitmap (o.scheduleId, seatId) =
            s.1.services.redis.bitmap (o.scheduleId, seatId))
    (hnew : ∀ m, new = some m → t.services.redis.bitmap (m.scheduleId, m.seatId) = .booked ∧
      ∃ o ∈ s.1.services.pg.orders, o.id = m.orderId) :
    StaysBooked (t, s.2 ++ new.toList) := by
  refine ⟨fun o' ho' hstanding seatId hseat hmark => ?_, fun m hm => ?_⟩
  · rcases List.mem_append.1 hmark with hmark | hmark
    · rcases hkept.origin o' ho' with hfresh | ⟨o, ho, hid, hshow, hseats, hstatus⟩
      · obtain ⟨o, ho, hid⟩ := h.known _ hmark
        exact absurd hid (hfresh o ho)
      · have hlive : o.status ≠ .refunded := fun heq => hstanding (hstatus heq)
        rw [← hid, ← hshow] at hmark
        rw [← hseats] at hseat
        show t.services.redis.bitmap (o'.scheduleId, seatId) = .booked
        rw [← hshow]
        rcases hfields o ho hlive seatId hseat hmark with heq | heq
        · exact heq
        · rw [heq]
          exact h.booked o ho hlive seatId hseat hmark
    · exact (hnew _ (Option.mem_toList.1 hmark)).1
  · have hknown : ∃ o ∈ s.1.services.pg.orders, o.id = m.orderId := by
      rcases List.mem_append.1 hm with hm | hm
      · exact h.known m hm
      · exact (hnew m (Option.mem_toList.1 hm)).2
    obtain ⟨o, ho, hid⟩ := hknown
    obtain ⟨o', ho', hid'⟩ := hkept.known o ho
    exact ⟨o', ho', hid'.trans hid⟩

theorem marked_eq_some {n : Task} {l : Link} {c : Cmd} {s : World} {m : Mark}
    (h : marked n l c s = some m) :
    c = .service (.redis (.setBits m.scheduleId m.seatId .booked)) ∧ l ≠ .lost ∧ 0 ≤ m.seatId ∧
      ∃ o ∈ s.services.pg.orders, o.id = m.orderId := by
  unfold marked at h
  split at h
  · split_ifs at h with hcond
    obtain rfl := Option.some.inj h
    exact ⟨rfl, hcond.1, hcond.2.1, hcond.2.2⟩
  · cases h

theorem staysBooked_exec {n : Task} {i : ℕ} {l : Link} {c : Cmd} {s t : World × List Mark} {r : Rep c}
    (h : StaysBooked s) (hG : ChecksOrders n i l c s) (hexec : bookings.exec n i l c s = some (t, r)) :
    StaysBooked t := by
  obtain ⟨t, marks⟩ := t
  obtain ⟨hstep, hlog⟩ := Machine.logged_exec.1 hexec
  have hrun : exec i l c s.1 = some (t, r) := hstep
  dsimp only at hlog
  subst hlog
  rcases redis_exec hrun with ⟨k, rfl, ht⟩ | ⟨hne, ht⟩
  · have hredis := congrArg Payments.World.redis ht
    dsimp only at hredis
    refine h.step (.of_eq (by rw [ht])) (fun o ho hlive seatId hseat hmark => ?_) fun m hm => ?_
    · rw [hredis]
      by_cases hl : l = .lost
      · rw [if_pos hl]
        exact .inr rfl
      rw [if_neg hl]
      by_cases heq : (k.effect s.1.services.redis).bitmap (o.scheduleId, seatId) =
          s.1.services.redis.bitmap (o.scheduleId, seatId)
      · exact .inr heq
      -- the field was written: with `10`, or over a standing order
      have hspares : SparesOrders n k s := hG.resolve_left hl
      unfold SparesOrders at hspares
      rw [Redis.effect_field heq] at hspares
      rcases hspares with hbooked | hall
      · exact .inl hbooked
      · exact absurd hmark (hall o ho rfl hseat hlive).2
    · obtain ⟨hc, hl, hseat, hknown⟩ := marked_eq_some hm
      obtain rfl := Payments.Cmd.redis.inj (Cmd.service.inj hc)
      refine ⟨?_, hknown⟩
      rw [hredis, if_neg hl]
      show (s.1.services.redis.setBits m.scheduleId m.seatId .booked).bitmap _ = _
      rw [Redis.setBits_bitmap, if_neg (not_lt.2 hseat), Redis.setAt_self]
  · refine h.step ?_ (fun o ho hlive seatId hseat hmark => .inr (by rw [ht])) fun m hm => ?_
    · rcases services_exec hrun with ⟨k, r', rfl, hk⟩ | ⟨-, heq⟩
      · exact Payments.ordersKept_exec hk
      · exact .of_eq (by rw [heq])
    · exact absurd (marked_eq_some hm).1 (hne _)

theorem staysBooked_reachable {p : Pool (World × List Mark) Rep Task Result}
    (h : bookings.system.ReachableUnder ChecksOrdersRun p) : StaysBooked p.store := by
  have h : bookings.system.ReachableUnder (Machine.Guarded ChecksOrders fun _ _ => True) p := h
  refine Machine.store_invariant (I := StaysBooked) ?_ (fun _ _ _ _ _ _ _ => staysBooked_exec) ?_
    (fun _ _ hs => ⟨hs.booked, hs.known⟩) h
  · rintro s ⟨-, hmarks⟩
    refine ⟨fun o _ _ seatId _ hmark => ?_, fun m hm => ?_⟩
    · rw [hmarks] at hmark
      cases hmark
    · rw [hmarks] at hm
      cases hm
  · intro x s t ts hs _ henv
    obtain ⟨t, marks⟩ := t
    obtain ⟨hstep, hlog⟩ := Machine.logged_environ.1 henv
    have hrun : environ x s.1 = some (t, ts) := hstep
    obtain ⟨-, hpg, d, hredis⟩ := services_environ hrun
    dsimp only at hlog
    subst hlog
    have hnone : ∀ m, (none : Option Mark) = some m → t.services.redis.bitmap (m.scheduleId, m.seatId) =
        .booked ∧ ∃ o ∈ s.1.services.pg.orders, o.id = m.orderId := nofun
    have hstays := hs.step (t := t) (.of_eq (by rw [hpg]))
      (fun o ho hlive seatId hseat hmark => .inr (by rw [hredis])) hnone
    simpa using hstays

/-- The seat of order 100 is marked, and its field is in a state. -/
def MarkedField (state : SeatState) (s : World × List Mark) : Prop :=
  s.1.services.pg.orders.map (fun o => (o.id, o.scheduleId, o.seatIds, o.status)) =
      [(100, 1, [1], .completed)] ∧
    ⟨100, 1, 1⟩ ∈ s.2 ∧ s.1.services.redis.bitmap (1, 1) = state

instance {state : SeatState} {s : World × List Mark} : Decidable (MarkedField state s) := by
  unfold MarkedField
  infer_instance

theorem MarkedField.order {state : SeatState} {s : World × List Mark} (h : MarkedField state s) :
    ∃ o ∈ s.1.services.pg.orders,
      o.id = 100 ∧ o.scheduleId = 1 ∧ o.seatIds = [1] ∧ o.status = .completed := by
  obtain ⟨o, ho, heq⟩ := List.mem_map.1 (h.1 ▸ List.mem_singleton_self _)
  simp only [Prod.mk.injEq] at heq
  exact ⟨o, ho, heq⟩

end Gateway
end Bookit

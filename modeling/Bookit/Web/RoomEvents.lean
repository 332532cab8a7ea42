import Bookit.Gateway.Keeper
import Bookit.Payments.Processor
import Bookit.Web.SeatLocking

/-!
# Web.RoomEvents — what the listeners of a room make of an event

Three services publish seat events to the room of a show, in two formats.  The gateway understands
the format of the payment processor only; the hook, behind the adapter, understands both for
releases, one for locks, and neither for bookings.
-/

namespace Bookit
namespace Web

open Gateway Payments

/-! ## The events of a room -/

/-- A seat event as its publisher means it. -/
inductive RoomEvent where
  /-- The lock-server, after the metadata of a lock message. -/
  | seatLocked (userId showtimeId seatId : ℤ)
  /-- The lock-server and the gateway, after a release. -/
  | seatUnlocked (userId showtimeId seatId : ℤ)
  /-- The payment processor, after a checkout. -/
  | seatsBooked (userId showtimeId : ℤ) (seatIds : List ℤ)
  /-- The payment processor, after a cancellation. -/
  | seatsReleased (userId showtimeId : ℤ) (seatIds : List ℤ)

namespace RoomEvent

def payload : RoomEvent → Json
  | seatLocked userId showtimeId seatId => (PubSubEvent.seatLocked userId showtimeId seatId).toJson
  | seatUnlocked userId showtimeId seatId =>
      (PubSubEvent.seatUnlocked userId showtimeId seatId).toJson
  | seatsBooked userId _ seatIds => roomEvent "seat_booked" seatIds userId
  | seatsReleased userId _ seatIds => roomEvent "seat_unlocked" seatIds userId

def room : RoomEvent → ℤ
  | seatLocked _ showtimeId _ => showtimeId
  | seatUnlocked _ showtimeId _ => showtimeId
  | seatsBooked _ showtimeId _ => showtimeId
  | seatsReleased _ showtimeId _ => showtimeId

def seats : RoomEvent → List ℤ
  | seatLocked _ _ seatId => [seatId]
  | seatUnlocked _ _ seatId => [seatId]
  | seatsBooked _ _ seatIds => seatIds
  | seatsReleased _ _ seatIds => seatIds

def status : RoomEvent → SeatState
  | seatLocked .. => .locked
  | seatUnlocked .. => .available
  | seatsBooked .. => .booked
  | seatsReleased .. => .available

end RoomEvent

/-- The gateway clears exactly the seats of a release or a booking. -/
def GatewayAgrees (e : RoomEvent) : Prop :=
  e.status ≠ .locked → ∀ k, k ∈ seatsOfEvent e.payload ↔ k ∈ e.seats

/-- The hook gives exactly the seats of the event its status. -/
def HookAgrees (wsUserId : Option ℤ) (h : SeatHook) (e : RoomEvent) : Prop :=
  (∀ k ∈ e.seats, (h.onMessage wsUserId (forward e.room e.payload)).status k = e.status) ∧
  ∀ k, k ∉ e.seats → (h.onMessage wsUserId (forward e.room e.payload)).status k = h.status k

/-- When both listeners agree with the publisher. -/
def Understood (wsUserId : Option ℤ) (h : SeatHook) : RoomEvent → Prop
  | .seatLocked userId _ seatId =>
      h.status seatId = .locked ∨
        (seatId ≠ 0 ∧ (wsUserId = some userId ∨ seatId ∉ h.bookedSeatIds))
  | .seatUnlocked .. => False
  | .seatsBooked _ _ seatIds => ∀ k ∈ seatIds, h.status k = .booked
  | .seatsReleased _ _ seatIds => ∀ k ∈ seatIds, k ∉ h.bookedSeatIds

/-! ## The gateway -/

theorem filterMap_num (seatIds : List ℤ) :
    (seatIds.map Json.num).filterMap Json.asI64 = seatIds := by
  induction seatIds with
  | nil => rfl
  | cons k ks ih => simp [Json.asI64, ih]

theorem seatsOfEvent_roomEvent {event : String} (seatIds : List ℤ) (userId : ℤ)
    (h : event = "seat_unlocked" ∨ event = "seat_booked") :
    seatsOfEvent (roomEvent event seatIds userId) = seatIds := by
  rcases h with rfl | rfl
  · exact filterMap_num seatIds
  · exact filterMap_num seatIds

/-- No seat is cleared by an event in the other format. -/
theorem seatsOfEvent_seatUnlocked (userId showtimeId seatId : ℤ) :
    seatsOfEvent (PubSubEvent.seatUnlocked userId showtimeId seatId).toJson = [] := rfl

theorem gatewayAgrees_iff (e : RoomEvent) :
    GatewayAgrees e ↔ ∀ userId showtimeId seatId, e ≠ .seatUnlocked userId showtimeId seatId := by
  cases e with
  | seatLocked => exact ⟨fun _ _ _ _ h => (by cases h), fun _ h => absurd rfl h⟩
  | seatUnlocked userId showtimeId seatId =>
      constructor
      · intro h
        have hmem := (h (fun heq => by cases heq) seatId).2 (List.mem_singleton.2 rfl)
        simp [RoomEvent.payload, seatsOfEvent_seatUnlocked] at hmem
      · exact fun h => absurd rfl (h userId showtimeId seatId)
  | seatsBooked userId showtimeId seatIds =>
      refine ⟨fun _ _ _ _ h => (by cases h), fun _ _ k => ?_⟩
      simp [RoomEvent.payload, RoomEvent.seats, seatsOfEvent_roomEvent]
  | seatsReleased userId showtimeId seatIds =>
      refine ⟨fun _ _ _ _ h => (by cases h), fun _ _ k => ?_⟩
      simp [RoomEvent.payload, RoomEvent.seats, seatsOfEvent_roomEvent]

/-! ## The hook -/

section Hook

variable {wsUserId : Option ℤ} {h : SeatHook}

/-- What the hook makes of a lock: nothing for seat 0, whose id is not truthy. -/
theorem onMessage_seatLocked (userId showtimeId seatId : ℤ) :
    h.onMessage wsUserId (forward showtimeId
        (RoomEvent.seatLocked userId showtimeId seatId).payload) =
      if seatId = 0 then h
      else if wsUserId = some userId then
        { h with
          lockedSeatIds := withSeat seatId h.lockedSeatIds
          myLockedSeats := withSeat seatId h.myLockedSeats }
      else
        { h with
          lockedSeatIds := withSeat seatId h.lockedSeatIds
          externallyLockedSeats := withSeat seatId h.externallyLockedSeats } := by
  have hforward : forward showtimeId (RoomEvent.seatLocked userId showtimeId seatId).payload =
      .obj [("event", .str "seat_locked"), ("seat_id", .num seatId),
        ("showtime_id", .num showtimeId), ("user_id", .num userId)] := rfl
  have hid : ∀ fields, seatIdOf (.obj (("event", .str "seat_locked") ::
      ("seat_id", .num seatId) :: fields)) = if seatId = 0 then none else some seatId :=
    fun _ => rfl
  have hevent : ∀ fields, eventOf (.obj (("event", .str "seat_locked") :: fields)) =
      some "seat_locked" := fun _ => rfl
  rw [hforward]
  simp only [SeatHook.onMessage, SeatHook.onLocked, SeatHook.onBooked, SeatHook.onUnlocked, hid,
    hevent]
  by_cases hzero : seatId = 0
  · simp [hzero]
  · by_cases hown : wsUserId = some userId
    · simp [hzero, hown, Json.get, Json.asI64]
    · have hne : ¬(wsUserId ≠ none ∧ some userId = wsUserId) := fun hand => hown hand.2.symm
      simp [hzero, hown, Json.get, Json.asI64, Ne.symm hown]

theorem hookAgrees_seatLocked (userId showtimeId seatId : ℤ) :
    HookAgrees wsUserId h (.seatLocked userId showtimeId seatId) ↔
      h.status seatId = .locked ∨
        (seatId ≠ 0 ∧ (wsUserId = some userId ∨ seatId ∉ h.bookedSeatIds)) := by
  simp only [HookAgrees, RoomEvent.room, onMessage_seatLocked, RoomEvent.seats, RoomEvent.status,
    List.mem_singleton]
  constructor
  · intro hall
    have hself := hall.1 seatId rfl
    by_cases hzero : seatId = 0
    · rw [if_pos hzero] at hself
      exact .inl hself
    · by_cases hown : wsUserId = some userId
      · exact .inr ⟨hzero, .inl hown⟩
      · rw [if_neg hzero, if_neg hown] at hself
        by_cases hbooked : seatId ∈ h.bookedSeatIds
        · -- a booked seat keeps its status, unless it was the user's own before
          refine .inl ?_
          simpa [SeatHook.status, hbooked] using hself
        · exact .inr ⟨hzero, .inr hbooked⟩
  · refine fun hcond => ⟨?_, fun k hk => ?_⟩
    · rintro k rfl
      by_cases hzero : k = 0
      · rw [if_pos hzero]
        exact hcond.resolve_right fun hand => hand.1 hzero
      · rw [if_neg hzero]
        by_cases hown : wsUserId = some userId
        · simp [hown, SeatHook.status]
        · rw [if_neg hown]
          rcases hcond with hlocked | ⟨-, hmine | hbooked⟩
          · simp only [SeatHook.status] at hlocked ⊢
            split_ifs at hlocked ⊢ with h1 h2 h3 h4 <;> simp_all
          · exact absurd hmine hown
          · simp [SeatHook.status, hbooked]
    · split_ifs
      · rfl
      · simp [SeatHook.status, hk]
      · simp [SeatHook.status, hk]

/-- A booking in the payment processor's format reaches the page without effect. -/
theorem onMessage_seatsBooked (userId showtimeId : ℤ) (seatIds : List ℤ) :
    h.onMessage wsUserId (forward showtimeId
      (RoomEvent.seatsBooked userId showtimeId seatIds).payload) = h := rfl

theorem hookAgrees_seatsBooked (userId showtimeId : ℤ) (seatIds : List ℤ) :
    HookAgrees wsUserId h (.seatsBooked userId showtimeId seatIds) ↔
      ∀ k ∈ seatIds, h.status k = .booked := by
  simp only [HookAgrees, RoomEvent.room, onMessage_seatsBooked, RoomEvent.seats, RoomEvent.status]
  exact and_iff_left fun _ _ => trivial

theorem onMessage_seatsReleased (userId showtimeId : ℤ) (seatIds : List ℤ) :
    h.onMessage wsUserId (forward showtimeId
        (RoomEvent.seatsReleased userId showtimeId seatIds).payload) =
      { h with
        lockedSeatIds := withoutSeats seatIds h.lockedSeatIds
        myLockedSeats := withoutSeats seatIds h.myLockedSeats } := by
  have hids : seatIdsOf (roomEvent "seat_unlocked" seatIds userId) = seatIds :=
    filterMap_num seatIds
  have hmessage : h.onMessage wsUserId (forward showtimeId
        (RoomEvent.seatsReleased userId showtimeId seatIds).payload) =
      { h with
        lockedSeatIds :=
          withoutSeats (seatIdsOf (roomEvent "seat_unlocked" seatIds userId)) h.lockedSeatIds
        myLockedSeats :=
          withoutSeats (seatIdsOf (roomEvent "seat_unlocked" seatIds userId)) h.myLockedSeats } :=
    rfl
  rw [hmessage, hids]

theorem hookAgrees_seatsReleased (userId showtimeId : ℤ) (seatIds : List ℤ) :
    HookAgrees wsUserId h (.seatsReleased userId showtimeId seatIds) ↔
      ∀ k ∈ seatIds, k ∉ h.bookedSeatIds := by
  simp only [HookAgrees, RoomEvent.room, onMessage_seatsReleased, RoomEvent.seats,
    RoomEvent.status]
  constructor
  · intro hall k hk hbooked
    have hself := hall.1 k hk
    simp [hk, SeatHook.status, hbooked] at hself
  · intro hall
    constructor
    · intro k hk
      simp [hk, SeatHook.status, hall k hk]
    · intro k hk
      simp [hk, SeatHook.status]

end Hook

/-- Both listeners of a room agree with the publisher of a seat event exactly where `Understood`
holds: never for the release of one seat. -/
theorem roomEvent_agrees_iff (wsUserId : Option ℤ) (h : SeatHook) (e : RoomEvent) :
    GatewayAgrees e ∧ HookAgrees wsUserId h e ↔ Understood wsUserId h e := by
  rw [gatewayAgrees_iff]
  cases e with
  | seatLocked userId showtimeId seatId =>
      rw [hookAgrees_seatLocked]
      exact and_iff_right fun _ _ _ heq => by cases heq
  | seatUnlocked userId showtimeId seatId =>
      exact ⟨fun hagree => hagree.1 userId showtimeId seatId rfl, fun hfalse => hfalse.elim⟩
  | seatsBooked userId showtimeId seatIds =>
      rw [hookAgrees_seatsBooked]
      exact and_iff_right fun _ _ _ heq => by cases heq
  | seatsReleased userId showtimeId seatIds =>
      rw [hookAgrees_seatsReleased]
      exact and_iff_right fun _ _ _ heq => by cases heq

/-- The release of seat 7 by the lock-server clears no seat in the gateway. -/
theorem roomEvent_disagrees :
    ¬ ∀ (wsUserId : Option ℤ) (h : SeatHook) (e : RoomEvent),
      GatewayAgrees e ∧ HookAgrees wsUserId h e := by
  intro hall
  have hagree := (hall none ⟨[7], [], [], []⟩ (.seatUnlocked 42 1 7)).1
  have hmem := (hagree (fun heq => by cases heq) 7).2 (List.mem_singleton.2 rfl)
  exact absurd hmem (by decide)

end Web
end Bookit

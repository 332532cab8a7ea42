import Bookit.LockServer.Handlers

/-!
# Gateway.Store — the show actors of the gateway

Each gateway replica keeps an actor per show: slots by seat index, which admit one lock request at a
time, and a bounded queue of tasks that the actor serves one after the other.  The map of actors
holds cells, which are made empty and filled once; a show that is closed loses its cell and gets a
new one when it is opened again.  A request is answered under its ticket, the session that sent the
task.  Around the replicas is the world of the other services.
-/

namespace Bookit
namespace Gateway

open Lib LockServer

/-! ## Tasks and answers -/

inductive GatewayTask where
  | lock (ticket : ℕ) (userId : ℤ) (seatIds : List ℤ)
  | cancel (ticket : ℕ) (userId : ℤ) (seatIds : List ℤ)
  deriving DecidableEq

structure LockResult where
  lockedSeatIds : List ℤ
  failedSeatIds : List ℤ
  deriving DecidableEq

/-- An answer of the actor. -/
inductive Answer where
  | lock (result : LockResult)
  | cancel (seatIds : List ℤ)
  deriving DecidableEq

/-! ## The actor of a show -/

/-- `CachePaddedShowActor`: where each seat has its slot, which seat a slot is taken by (`0` where
none), which slots are `STATE_PROCESSING`, the queue, and whether the actor is closing. -/
structure ShowActor where
  seatCount : ℕ
  seatIndices : ℤ → Option ℕ
  seatIds : ℕ → ℤ
  processing : ℕ → Bool
  queue : List GatewayTask
  closing : Bool

/-- `SHOW_QUEUE_CAPACITY`. -/
def showQueueCapacity : ℕ := 5

/-- `MAX_SEATS_PER_SHOW`. -/
def maxSeatsPerShow : ℤ := 200000

namespace ShowActor

def new (seatCount : ℕ) : ShowActor :=
  { seatCount := seatCount, seatIndices := fun _ => none, seatIds := fun _ => 0,
    processing := fun _ => false, queue := [], closing := false }

/-- The slot of an index is taken by a seat; it may be so already. -/
def takeSlot (seatId : ℤ) (index : ℕ) (a : ShowActor) : ShowActor × Except String ℕ :=
  if a.seatIds index = 0 then
    ({ a with seatIds := Redis.setAt a.seatIds index seatId }, .ok index)
  else if a.seatIds index = seatId then
    (a, .ok index)
  else
    ({ a with seatIndices := Redis.setAt a.seatIndices seatId none },
      .error "seat index maps to a different seat id")

def registerSeat (seatId oneBasedIndex : ℤ) (a : ShowActor) : ShowActor × Except String ℕ :=
  if seatId ≤ 0 then
    (a, .error "seat ids must be positive")
  else if ¬(1 ≤ oneBasedIndex ∧ (oneBasedIndex - 1).toNat < a.seatCount) then
    (a, .error "seat index is outside the show seat count")
  else
    let index := (oneBasedIndex - 1).toNat
    match a.seatIndices seatId with
    | some existing =>
        if existing ≠ index then
          (a, .error "seat id maps to a different seat index")
        else
          a.takeSlot seatId index
    | none =>
        ({ a with seatIndices := Redis.setAt a.seatIndices seatId (some index) }).takeSlot
          seatId index

/-- `AVAILABLE` to `PROCESSING`. -/
def tryAdmit (index : ℕ) (a : ShowActor) : ShowActor × Bool :=
  if a.processing index then
    (a, false)
  else
    ({ a with processing := Redis.setAt a.processing index true }, true)

def clearSeat (a : ShowActor) (seatId : ℤ) : ShowActor :=
  match a.seatIndices seatId with
  | none => a
  | some index => { a with processing := Redis.setAt a.processing index false }

/-- The slot of a seat is `AVAILABLE`; a seat that no request has named has none yet. -/
def available (a : ShowActor) (seatId : ℤ) : Bool :=
  match a.seatIndices seatId with
  | none => true
  | some index => !a.processing index

/-- A task at the end of the queue, where there is room. -/
def enqueue (task : GatewayTask) (a : ShowActor) : ShowActor × Bool :=
  if a.queue.length < showQueueCapacity then
    ({ a with queue := a.queue ++ [task] }, true)
  else
    (a, false)

end ShowActor

/-! ## A replica -/

/-- A cell of the map of actors: the show it was made for, and its actor once it is filled. -/
structure ActorCell where
  showtimeId : ℤ
  actor : Option ShowActor

/-- `GatewayState`. -/
structure State where
  /-- The cells made so far. -/
  cells : List ActorCell
  /-- `show_actors`: the cell of a show. -/
  showActors : ℤ → Option ℕ
  closedShows : ℤ → Bool
  answers : List (ℕ × Answer)
  /-- How many of the published events the listener has handled. -/
  handled : ℕ

namespace State

def new : State :=
  { cells := [], showActors := fun _ => none, closedShows := fun _ => false, answers := [],
    handled := 0 }

/-- The actor in a cell. -/
def actor (s : State) (cell : ℕ) : Option ShowActor :=
  s.cells[cell]?.bind ActorCell.actor

/-- The actor of a show. -/
def actorOf (s : State) (showtimeId : ℤ) : Option ShowActor :=
  (s.showActors showtimeId).bind s.actor

def setActor (s : State) (cell : ℕ) (a : ShowActor) : State :=
  { s with cells := s.cells.modify cell fun x => { x with actor := some a } }

/-- The cell of a show, made where there is none. -/
def actorCell (showtimeId : ℤ) (s : State) : State × ℕ :=
  match s.showActors showtimeId with
  | some cell => (s, cell)
  | none =>
      ({ s with
          cells := s.cells ++ [⟨showtimeId, none⟩]
          showActors := Redis.setAt s.showActors showtimeId (some s.cells.length) },
        s.cells.length)

/-- `get_or_try_init` of a cell. -/
def initCell (cell seatCount : ℕ) (s : State) : State × Except String Unit :=
  match s.cells[cell]? with
  | none => (s, .error "show actor is unavailable")
  | some ⟨_, some _⟩ => (s, .ok ())
  | some ⟨showtimeId, none⟩ =>
      if s.closedShows showtimeId then
        (s, .error "schedule is closed")
      else
        (s.setActor cell (ShowActor.new seatCount), .ok ())

/-- The last checks on the actor of a request. -/
def checkOpen (cell : ℕ) (showtimeId : ℤ) (seatCount : ℕ) (s : State) :
    State × Except String Unit :=
  match s.actor cell with
  | none => (s, .error "show actor is unavailable")
  | some a =>
      if s.closedShows showtimeId then
        (s.setActor cell { a with closing := true }, .error "schedule is closed")
      else if a.seatCount = seatCount then
        (s, .ok ())
      else
        (s, .error "total seat count does not match the initialized show")

/-- An operation on the actor in a cell. -/
def onActor {ρ : Type} (cell : ℕ) (f : ShowActor → ShowActor × ρ) (s : State) :
    Option (State × ρ) :=
  (s.actor cell).map fun a => (s.setActor cell (f a).1, (f a).2)

/-- `clear_admission`; nothing for a show without an actor. -/
def clearAdmission (showtimeId : ℤ) (seatIds : List ℤ) (s : State) : State :=
  match s.showActors showtimeId with
  | none => s
  | some cell =>
      match s.actor cell with
      | none => s
      | some a => s.setActor cell (seatIds.foldl ShowActor.clearSeat a)

/-- The slot of a seat is `AVAILABLE` in this replica. -/
def available (s : State) (showtimeId seatId : ℤ) : Bool :=
  match s.actorOf showtimeId with
  | none => true
  | some a => a.available seatId

end State

/-! ## Room events -/

/-- The seats of a room event that the listener clears. -/
def seatsOfEvent (payload : Json) : List ℤ :=
  match (payload.get "event").bind Json.asStr with
  | none => []
  | some event =>
      if event ≠ "seat_unlocked" ∧ event ≠ "seat_booked" then
        []
      else
        match (payload.get "seat_ids").bind Json.asArray with
        | none => []
        | some values => values.filterMap Json.asI64

/-- The show and the seats that the listener clears for a published event; it is subscribed to the
rooms only. -/
def clearedBy : Channel × Json → Option (ℤ × List ℤ)
  | (.room showtimeId, payload) => some (showtimeId, seatsOfEvent payload)
  | (.globalEvents, _) => none

/-- `handle_pubsub_message` for the next published event. -/
def State.handlePubsubMessage (event : Channel × Json) (s : State) : State :=
  match clearedBy event with
  | none => { s with handled := s.handled + 1 }
  | some (showtimeId, seatIds) =>
      { s.clearAdmission showtimeId seatIds with handled := s.handled + 1 }

/-! ## The world and its commands -/

structure World where
  services : Payments.World
  gateways : ℕ → State
  /-- The messages published to `locking_queue`. -/
  lockingQueue : List SeatLockMessage
  /-- The `schedule_closed` keys. -/
  closedKeys : ℤ → Bool

/-- Commands; those on actors name the replica. -/
inductive Cmd where
  | service (c : Payments.Cmd)
  | isClosed (g : ℕ) (showtimeId : ℤ)
  | hasCell (g : ℕ) (showtimeId : ℤ)
  | existsClosedKey (showtimeId : ℤ)
  | insertClosed (g : ℕ) (showtimeId : ℤ)
  | removeCell (g : ℕ) (showtimeId : ℤ)
  | setClosing (g : ℕ) (cell : ℕ)
  | actorCell (g : ℕ) (showtimeId : ℤ)
  | initCell (g : ℕ) (cell : ℕ) (seatCount : ℕ)
  | checkOpen (g : ℕ) (cell : ℕ) (showtimeId : ℤ) (seatCount : ℕ)
  | isClosing (g : ℕ) (cell : ℕ)
  | registerSeat (g : ℕ) (cell : ℕ) (seatId seatIndex : ℤ)
  | tryAdmit (g : ℕ) (cell : ℕ) (index : ℕ)
  | clearAdmission (g : ℕ) (showtimeId : ℤ) (seatIds : List ℤ)
  | trySend (g : ℕ) (cell : ℕ) (userId : ℤ) (seatIds : List ℤ)
  | send (g : ℕ) (cell : ℕ) (userId : ℤ) (seatIds : List ℤ)
  | awaitAnswer (g : ℕ)
  | recv (g : ℕ) (cell : ℕ)
  | answer (g : ℕ) (ticket : ℕ) (a : Answer)
  | handleEvent (g : ℕ)
  | publishLocking (message : SeatLockMessage)

abbrev Rep : Cmd → Type
  | .service c => Payments.Rep c
  | .isClosed .. => Bool
  | .hasCell .. => Bool
  | .existsClosedKey _ => Option Bool
  | .removeCell .. => Option ℕ
  | .actorCell .. => ℕ
  | .initCell .. => Except String Unit
  | .checkOpen .. => Except String Unit
  | .isClosing .. => Bool
  | .registerSeat .. => Except String ℕ
  | .tryAdmit .. => Bool
  | .trySend .. => Bool
  | .awaitAnswer _ => Answer
  | .recv .. => GatewayTask
  | .publishLocking _ => Bool
  | _ => Unit

namespace World

def setGateway (s : World) (g : ℕ) (t : State) : World :=
  { s with gateways := Redis.setAt s.gateways g t }

/-- A step of a replica's memory. -/
def onGateway {ρ : Type} (g : ℕ) (f : State → State × ρ) (s : World) : World × ρ :=
  (s.setGateway g (f (s.gateways g)).1, (f (s.gateways g)).2)

/-- An operation on the actor in a cell of a replica. -/
def onActor {ρ : Type} (g cell : ℕ) (f : ShowActor → ShowActor × ρ) (s : World) :
    Option (World × ρ) :=
  ((s.gateways g).onActor cell f).map fun x => (s.setGateway g x.1, x.2)

end World

/-- The effect of a command in session `i`.  The actors are in memory: nothing is lost there, but
`send` waits for room, and `recv` and `awaitAnswer` for what they return. -/
def exec (i : ℕ) (l : Link) : (c : Cmd) → World → Option (World × Rep c)
  | .service c, s => (Payments.exec i l c s.services).map fun x => ({ s with services := x.1 }, x.2)
  | .isClosed g showtimeId, s => some (s, (s.gateways g).closedShows showtimeId)
  | .hasCell g showtimeId, s => some (s, ((s.gateways g).showActors showtimeId).isSome)
  | .existsClosedKey showtimeId, s =>
      some (l.deliver (fun s => (s, s.closedKeys showtimeId)) s)
  | .insertClosed g showtimeId, s =>
      some (s.onGateway g fun t =>
        ({ t with closedShows := Redis.setAt t.closedShows showtimeId true }, ()))
  | .removeCell g showtimeId, s =>
      some (s.onGateway g fun t =>
        ({ t with showActors := Redis.setAt t.showActors showtimeId none }, t.showActors showtimeId))
  | .setClosing g cell, s =>
      match s.onActor g cell fun a => ({ a with closing := true }, ()) with
      | none => some (s, ())
      | some x => some x
  | .actorCell g showtimeId, s => some (s.onGateway g (State.actorCell showtimeId))
  | .initCell g cell seatCount, s => some (s.onGateway g (State.initCell cell seatCount))
  | .checkOpen g cell showtimeId seatCount, s =>
      some (s.onGateway g (State.checkOpen cell showtimeId seatCount))
  | .isClosing g cell, s => s.onActor g cell fun a => (a, a.closing)
  | .registerSeat g cell seatId seatIndex, s =>
      s.onActor g cell (ShowActor.registerSeat seatId seatIndex)
  | .tryAdmit g cell index, s => s.onActor g cell (ShowActor.tryAdmit index)
  | .clearAdmission g showtimeId seatIds, s =>
      some (s.onGateway g fun t => (t.clearAdmission showtimeId seatIds, ()))
  | .trySend g cell userId seatIds, s =>
      s.onActor g cell (ShowActor.enqueue (.lock i userId seatIds))
  | .send g cell userId seatIds, s =>
      match s.onActor g cell (ShowActor.enqueue (.cancel i userId seatIds)) with
      | some (t, true) => some (t, ())
      | _ => none
  | .awaitAnswer g, s =>
      match (s.gateways g).answers.find? fun a => decide (a.1 = i) with
      | none => none
      | some a => some (s, a.2)
  | .recv g cell, s =>
      match (s.gateways g).actor cell with
      | none => none
      | some a =>
          match a.queue with
          | [] => none
          | task :: tasks =>
              some (s.setGateway g ((s.gateways g).setActor cell { a with queue := tasks }), task)
  | .answer g ticket a, s =>
      some (s.onGateway g fun t => ({ t with answers := t.answers ++ [(ticket, a)] }, ()))
  | .handleEvent g, s =>
      match s.services.redis.published[(s.gateways g).handled]? with
      | none => none
      | some event => some (s.onGateway g fun t => (t.handlePubsubMessage event, ()))
  | .publishLocking message, s =>
      match l with
      | .ok => some ({ s with lockingQueue := s.lockingQueue ++ [message] }, true)
      | .unacked => some ({ s with lockingQueue := s.lockingQueue ++ [message] }, false)
      | .lost => some (s, false)

/-- Programs of all services. -/
abbrev Service := Prog Rep

/-- A program of the services without actors. -/
def onServices {β : Type} (p : Payments.Service β) : Service β :=
  Prog.hoist (fun c => Prog.perform (Cmd.service c)) p

/-- An operation of the seat lock. -/
def onRedis {β : Type} (p : SingleNodeLock.Op β) : Service β :=
  Prog.hoist (fun c => Prog.perform (Cmd.service (.redis c))) p

end Gateway
end Bookit

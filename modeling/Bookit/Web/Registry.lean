import Bookit.Lib.System
import Mathlib.Data.Finset.Basic

/-!
# Web.Registry — the sockets of one server and the rooms they are in

`RedisSocketAdapter` keeps four concurrent maps and no lock over them.  A socket has two tasks: the
handler that adds the connection and removes it in the end, and the receive task, which aborting does
not wait for.  The functions of the adapter are taken apart into their map operations, and the tasks
of all sockets are interleaved operation by operation.
-/

namespace Bookit
namespace Web

open Lib

/-! ## The maps -/

/-- The maps of the adapter; a user or a show without an entry has the empty set. -/
structure RedisSocketAdapter where
  sockets : Finset String
  userSockets : ℤ → Finset String
  showSockets : ℤ → Finset String
  socketShows : String → Option (Finset ℤ)

def RedisSocketAdapter.new : RedisSocketAdapter where
  sockets := ∅
  userSockets _ := ∅
  showSockets _ := ∅
  socketShows _ := none

/-! ## The tasks of a socket -/

/-- One map operation for the socket of the task, or one of the other steps of the task: starting the
receive task, waiting for either task to finish, waiting for the next message. -/
inductive Op where
  | insertSocket
  | insertUserSocket
  | putSocketShows
  | spawn
  | select
  | removeSocket
  | removeUserSocket
  | takeSocketShows
  | insertShowSocket (showtimeId : ℤ)
  | removeShowSocket (showtimeId : ℤ)
  | insertSocketShow (showtimeId : ℤ)
  | removeSocketShow (showtimeId : ℤ)
  | next
  deriving DecidableEq

def addLocalConnection : List Op :=
  [.insertSocket, .insertUserSocket, .putSocketShows]

/-- The set that `takeSocketShows` takes is what the loop of the function runs over. -/
def removeLocalConnection : List Op :=
  [.removeSocket, .removeUserSocket, .takeSocketShows]

def subscribeLocal (showtimeId : ℤ) : List Op :=
  [.insertShowSocket showtimeId, .insertSocketShow showtimeId]

def unsubscribeLocal (showtimeId : ℤ) : List Op :=
  [.removeShowSocket showtimeId, .removeSocketShow showtimeId]

def handleSocket : List Op :=
  addLocalConnection ++ .spawn :: .select :: removeLocalConnection

/-- The messages that touch the maps. -/
inductive WsRequest where
  | subscribe (roomId : ℤ)
  | unsubscribe (roomId : ℤ)
  deriving DecidableEq

def WsRequest.handle : WsRequest → List Op
  | .subscribe roomId => subscribeLocal roomId
  | .unsubscribe roomId => unsubscribeLocal roomId

/-- The receive task of a client that sends these messages. -/
def receiveTask : List WsRequest → List Op
  | [] => [.next]
  | req :: rest => .next :: req.handle ++ receiveTask rest

/-- What an operation does for a socket, and the operations it leaves to do.  The shows of a socket
are gone through in any order. -/
def Op.run (socketId : String) (userId : ℤ) (order : List ℤ) (a : RedisSocketAdapter) :
    Op → Option (RedisSocketAdapter × List Op)
  | .insertSocket => some ({ a with sockets := insert socketId a.sockets }, [])
  | .insertUserSocket =>
      some ({ a with
        userSockets := Function.update a.userSockets userId
          (insert socketId (a.userSockets userId)) }, [])
  | .putSocketShows =>
      some ({ a with socketShows := Function.update a.socketShows socketId (some ∅) }, [])
  | .removeSocket => some ({ a with sockets := a.sockets.erase socketId }, [])
  | .removeUserSocket =>
      some ({ a with
        userSockets := Function.update a.userSockets userId
          ((a.userSockets userId).erase socketId) }, [])
  | .takeSocketShows =>
      match a.socketShows socketId with
      | none => some (a, [])
      | some shows =>
          if order.Nodup ∧ order.toFinset = shows then
            some ({ a with socketShows := Function.update a.socketShows socketId none },
              order.map .removeShowSocket)
          else
            none
  | .insertShowSocket showtimeId =>
      some ({ a with
        showSockets := Function.update a.showSockets showtimeId
          (insert socketId (a.showSockets showtimeId)) }, [])
  | .removeShowSocket showtimeId =>
      some ({ a with
        showSockets := Function.update a.showSockets showtimeId
          ((a.showSockets showtimeId).erase socketId) }, [])
  | .insertSocketShow showtimeId =>
      some ({ a with
        socketShows := Function.update a.socketShows socketId
          ((a.socketShows socketId).map (insert showtimeId)) }, [])
  | .removeSocketShow showtimeId =>
      some ({ a with
        socketShows := Function.update a.socketShows socketId
          ((a.socketShows socketId).map fun shows => shows.erase showtimeId) }, [])
  | .spawn => some (a, [])
  | .select => some (a, [])
  | .next => some (a, [])

/-! ## The server -/

/-- A connection: what is left of its handler and of its receive task, which the handler starts. -/
structure Connection where
  userId : ℤ
  messages : List WsRequest
  handler : List Op
  receiver : Option (List Op)

structure Server where
  adapter : RedisSocketAdapter
  connections : String → Option Connection

/-- A client connects under a new socket id, and one of its tasks makes a step. -/
inductive Event where
  | connect (socketId : String) (userId : ℤ) (messages : List WsRequest)
  | handle (socketId : String) (order : List ℤ)
  | receive (socketId : String)

namespace Server

def put (s : Server) (socketId : String) (a : RedisSocketAdapter) (c : Connection) : Server where
  adapter := a
  connections := Function.update s.connections socketId (some c)

def step (s : Server) : Event → Option Server
  | .connect socketId userId messages =>
      match s.connections socketId with
      | none => some (s.put socketId s.adapter ⟨userId, messages, handleSocket, none⟩)
      | some _ => none
  | .handle socketId order =>
      match s.connections socketId with
      | some ⟨userId, messages, op :: rest, receiver⟩ =>
          (op.run socketId userId order s.adapter).map fun (a, more) =>
            s.put socketId a ⟨userId, messages, more ++ rest,
              if op = .spawn then some (receiveTask messages) else receiver⟩
      | _ => none
  | .receive socketId =>
      match s.connections socketId with
      | some ⟨userId, messages, handler, some (op :: rest)⟩ =>
          (op.run socketId userId [] s.adapter).map fun (a, more) =>
            s.put socketId a ⟨userId, messages, handler, some (more ++ rest)⟩
      | _ => none

/-- A server starts without connections. -/
def system : System Server Event where
  init s := s = ⟨.new, fun _ => none⟩
  step := step

end Server

/-! ## At rest -/

/-- The task has ended, or waits. -/
def AtRest (ops : List Op) : Prop :=
  ∀ op ∈ ops.head?, op = .select ∨ op = .next

instance {ops : List Op} : Decidable (AtRest ops) := by
  unfold AtRest
  infer_instance

/-- No function of the adapter is under way. -/
def Quiescent (s : Server) : Prop :=
  ∀ socketId c, s.connections socketId = some c →
    AtRest c.handler ∧ ∀ ops, c.receiver = some ops → AtRest ops

/-- The two maps between sockets and shows are inverse, and no map has a removed socket. -/
structure Consistent (s : Server) : Prop where
  inverse : ∀ socketId showtimeId, socketId ∈ s.adapter.showSockets showtimeId ↔
    showtimeId ∈ (s.adapter.socketShows socketId).getD ∅
  removed : ∀ socketId c, s.connections socketId = some c → c.handler = [] →
    socketId ∉ s.adapter.sockets ∧ (∀ userId, socketId ∉ s.adapter.userSockets userId) ∧
      (∀ showtimeId, socketId ∉ s.adapter.showSockets showtimeId) ∧
      s.adapter.socketShows socketId = none

/-- Where the second operation of a subscription finds no entry of the socket, the socket is not in
the room any more, or its removal is still to take it out. -/
def LeavesNothing (s : Server) : Event → Prop
  | .receive socketId =>
      match s.connections socketId with
      | some ⟨_, _, handler, some (.insertSocketShow showtimeId :: _)⟩ =>
          (s.adapter.socketShows socketId).isSome ∨
            socketId ∉ s.adapter.showSockets showtimeId ∨ .removeShowSocket showtimeId ∈ handler
      | _ => True
  | _ => True

instance {s : Server} {e : Event} : Decidable (LeavesNothing s e) := by
  unfold LeavesNothing
  split
  · split <;> infer_instance
  · infer_instance

/-! ## One connection -/

/-- The receive task is about to do this. -/
def Connection.Doing (c : Connection) (op : Op) : Prop :=
  ∃ rest, c.receiver = some (op :: rest)

/-- What is left of a receive task: it waits for a message, or is within one. -/
inductive Receiving : List Op → Prop where
  | ended : Receiving []
  | waiting (messages : List WsRequest) : Receiving (receiveTask messages)
  | handling (req : WsRequest) (messages : List WsRequest) :
      Receiving (req.handle ++ receiveTask messages)
  | joining (showtimeId : ℤ) (messages : List WsRequest) :
      Receiving (.insertSocketShow showtimeId :: receiveTask messages)
  | leaving (showtimeId : ℤ) (messages : List WsRequest) :
      Receiving (.removeSocketShow showtimeId :: receiveTask messages)

/-- Where the maps `sockets`, `user_sockets` and `socket_shows` have a socket, by what is left of its
handler. -/
structure Listed (a : RedisSocketAdapter) (socketId : String) (userId : ℤ) (ops : List Op) :
    Prop where
  form : ops <:+ handleSocket ∨ ∃ rooms : List ℤ, ops = rooms.map .removeShowSocket
  sockets : socketId ∈ a.sockets → Op.removeSocket ∈ ops
  users : ∀ u, socketId ∈ a.userSockets u → u = userId ∧ Op.removeUserSocket ∈ ops
  entry : (a.socketShows socketId).isSome → Op.takeSocketShows ∈ ops ∧ Op.putSocketShows ∉ ops

/-- How the rooms of a socket and the sockets of a room agree while its tasks are at work. -/
structure Joined (a : RedisSocketAdapter) (socketId : String) (c : Connection) : Prop where
  starting : Op.spawn ∈ c.handler → c.receiver = none ∧ ∀ r, socketId ∉ a.showSockets r
  receiver : ∀ ops, c.receiver = some ops → Receiving ops
  into : ∀ shows, a.socketShows socketId = some shows → ∀ r ∈ shows,
    socketId ∈ a.showSockets r ∨ c.Doing (.removeSocketShow r)
  out : ∀ r, socketId ∈ a.showSockets r → (∃ shows, a.socketShows socketId = some shows ∧ r ∈ shows) ∨
    c.Doing (.insertSocketShow r) ∨ Op.removeShowSocket r ∈ c.handler
  joining : ∀ r, c.Doing (.insertSocketShow r) → (a.socketShows socketId).isSome →
    socketId ∈ a.showSockets r
  leaving : ∀ r, c.Doing (.removeSocketShow r) → socketId ∉ a.showSockets r

section Handler

variable {a b : RedisSocketAdapter} {socketId : String} {userId : ℤ} {order : List ℤ} {op : Op}
variable {more rest : List Op}

/-- The handler adds the connection, waits, removes it, and clears the rooms that were left. -/
theorem handler_cases (h : op :: rest <:+ handleSocket) :
    (op = .insertSocket ∧ rest = handleSocket.drop 1) ∨
      (op = .insertUserSocket ∧ rest = handleSocket.drop 2) ∨
      (op = .putSocketShows ∧ rest = handleSocket.drop 3) ∨
      (op = .spawn ∧ rest = handleSocket.drop 4) ∨
      (op = .select ∧ rest = handleSocket.drop 5) ∨
      (op = .removeSocket ∧ rest = handleSocket.drop 6) ∨
      (op = .removeUserSocket ∧ rest = handleSocket.drop 7) ∨
      (op = .takeSocketShows ∧ rest = []) := by
  simpa [handleSocket, addLocalConnection, removeLocalConnection, List.suffix_cons_iff] using h

theorem take_cases (hrun : Op.takeSocketShows.run socketId userId order a = some (b, more)) :
    (a.socketShows socketId = none ∧ b = a ∧ more = []) ∨
      ∃ shows, a.socketShows socketId = some shows ∧ order.toFinset = shows ∧
        b = { a with socketShows := Function.update a.socketShows socketId none } ∧
        more = order.map .removeShowSocket := by
  unfold Op.run at hrun
  cases hshows : a.socketShows socketId with
  | none =>
      rw [hshows] at hrun
      obtain ⟨rfl, rfl⟩ := Prod.mk.inj (Option.some.inj hrun)
      exact .inl ⟨rfl, rfl, rfl⟩
  | some shows =>
      rw [hshows] at hrun
      dsimp only at hrun
      split_ifs at hrun with horder
      obtain ⟨rfl, rfl⟩ := Prod.mk.inj (Option.some.inj hrun)
      exact .inr ⟨shows, rfl, horder.2, rfl, rfl⟩

/-- A handler that clears the rooms has nothing else left to do. -/
theorem eq_of_mem_clearing {rooms : List ℤ} (h : op ∈ rooms.map .removeShowSocket) :
    ∃ showtimeId, op = .removeShowSocket showtimeId := by
  obtain ⟨r, -, rfl⟩ := List.mem_map.1 h
  exact ⟨r, rfl⟩

theorem listed_clearing {rooms : List ℤ} (hsockets : socketId ∉ a.sockets)
    (husers : ∀ u, socketId ∉ a.userSockets u) (hentry : a.socketShows socketId = none) :
    Listed a socketId userId (rooms.map .removeShowSocket) :=
  ⟨.inr ⟨rooms, rfl⟩, fun h => absurd h hsockets, fun u h => absurd h (husers u),
    fun h => by rw [hentry] at h; cases h⟩

theorem listed_handle (h : Listed a socketId userId (op :: rest))
    (hrun : op.run socketId userId order a = some (b, more)) :
    Listed b socketId userId (more ++ rest) := by
  have hdrop : ∀ n, handleSocket.drop n <:+ handleSocket := fun n => List.drop_suffix n _
  rcases h.form with hsuffix | ⟨rooms, hrooms⟩
  · rcases handler_cases hsuffix with ⟨rfl, rfl⟩ | ⟨rfl, rfl⟩ | ⟨rfl, rfl⟩ | ⟨rfl, rfl⟩ | ⟨rfl, rfl⟩ |
      ⟨rfl, rfl⟩ | ⟨rfl, rfl⟩ | ⟨rfl, rfl⟩
    · obtain ⟨rfl, rfl⟩ := Prod.mk.inj (Option.some.inj hrun)
      exact ⟨.inl (hdrop 1), fun _ => by decide, fun u hu => ⟨(h.users u hu).1, by decide⟩,
        fun hsome => absurd (h.entry hsome).2 (by decide)⟩
    · obtain ⟨rfl, rfl⟩ := Prod.mk.inj (Option.some.inj hrun)
      refine ⟨.inl (hdrop 2), fun _ => by decide, fun u hu => ⟨?_, by decide⟩,
        fun hsome => absurd (h.entry hsome).2 (by decide)⟩
      by_contra hne
      dsimp only at hu
      rw [Function.update_of_ne hne] at hu
      exact hne (h.users u hu).1
    · obtain ⟨rfl, rfl⟩ := Prod.mk.inj (Option.some.inj hrun)
      exact ⟨.inl (hdrop 3), fun _ => by decide, fun u hu => ⟨(h.users u hu).1, by decide⟩,
        fun _ => ⟨by decide, by decide⟩⟩
    · obtain ⟨rfl, rfl⟩ := Prod.mk.inj (Option.some.inj hrun)
      exact ⟨.inl (hdrop 4), fun _ => by decide, fun u hu => ⟨(h.users u hu).1, by decide⟩,
        fun _ => ⟨by decide, by decide⟩⟩
    · obtain ⟨rfl, rfl⟩ := Prod.mk.inj (Option.some.inj hrun)
      exact ⟨.inl (hdrop 5), fun _ => by decide, fun u hu => ⟨(h.users u hu).1, by decide⟩,
        fun _ => ⟨by decide, by decide⟩⟩
    · obtain ⟨rfl, rfl⟩ := Prod.mk.inj (Option.some.inj hrun)
      exact ⟨.inl (hdrop 6), fun hmem => absurd rfl (Finset.mem_erase.1 hmem).1,
        fun u hu => ⟨(h.users u hu).1, by decide⟩, fun _ => ⟨by decide, by decide⟩⟩
    · obtain ⟨rfl, rfl⟩ := Prod.mk.inj (Option.some.inj hrun)
      refine ⟨.inl (hdrop 7), fun hmem => absurd (h.sockets hmem) (by decide), fun u hu => ?_,
        fun _ => ⟨by decide, by decide⟩⟩
      dsimp only at hu
      by_cases hne : u = userId
      · subst hne
        rw [Function.update_self] at hu
        exact absurd rfl (Finset.mem_erase.1 hu).1
      · rw [Function.update_of_ne hne] at hu
        exact absurd (h.users u hu).1 hne
    · have hsockets : socketId ∉ a.sockets := fun hmem => absurd (h.sockets hmem) (by decide)
      have husers : ∀ u, socketId ∉ a.userSockets u :=
        fun u hu => absurd (h.users u hu).2 (by decide)
      rcases take_cases hrun with ⟨hnone, rfl, rfl⟩ | ⟨shows, -, -, rfl, rfl⟩
      · have hclear : Listed b socketId userId (([] : List ℤ).map .removeShowSocket) :=
          listed_clearing hsockets husers hnone
        exact hclear
      · rw [List.append_nil]
        exact listed_clearing hsockets husers (Function.update_self ..)
  · have hsockets : socketId ∉ a.sockets := fun hmem => by
      obtain ⟨r, hr⟩ := eq_of_mem_clearing (hrooms ▸ h.sockets hmem)
      cases hr
    have husers : ∀ u, socketId ∉ a.userSockets u := fun u hu => by
      obtain ⟨r, hr⟩ := eq_of_mem_clearing (hrooms ▸ (h.users u hu).2)
      cases hr
    have hentry : a.socketShows socketId = none := Option.not_isSome_iff_eq_none.1 fun hsome => by
      obtain ⟨r, hr⟩ := eq_of_mem_clearing (hrooms ▸ (h.entry hsome).1)
      cases hr
    obtain ⟨r, rooms, rfl, rfl, rfl⟩ := List.map_eq_cons_iff.1 hrooms.symm
    obtain ⟨rfl, rfl⟩ := Prod.mk.inj (Option.some.inj hrun)
    exact listed_clearing hsockets husers hentry

end Handler

section Rooms

variable {a b : RedisSocketAdapter} {socketId : String} {c : Connection} {order : List ℤ} {op : Op}
variable {more rest : List Op} {r₀ : ℤ} {messages : List WsRequest}

/-- A receive task waits for the next message before it handles it. -/
theorem receiving_cases (h : Receiving (op :: rest)) :
    (op = .next ∧ Receiving rest ∧ ∀ r, rest.head? ≠ some (.insertSocketShow r) ∧
        rest.head? ≠ some (.removeSocketShow r)) ∨
      (∃ r messages, op = .insertShowSocket r ∧ rest = .insertSocketShow r :: receiveTask messages) ∨
      (∃ r messages, op = .removeShowSocket r ∧ rest = .removeSocketShow r :: receiveTask messages) ∨
      (∃ r messages, op = .insertSocketShow r ∧ rest = receiveTask messages) ∨
      (∃ r messages, op = .removeSocketShow r ∧ rest = receiveTask messages) := by
  generalize hops : op :: rest = ops at h
  cases h with
  | ended => cases hops
  | waiting messages =>
      refine .inl ?_
      cases messages with
      | nil =>
          obtain ⟨rfl, rfl⟩ := List.cons.inj hops
          exact ⟨rfl, .ended, fun r => ⟨nofun, nofun⟩⟩
      | cons req messages =>
          obtain ⟨rfl, rfl⟩ := List.cons.inj hops
          refine ⟨rfl, .handling req messages, fun r => ?_⟩
          cases req <;> exact ⟨nofun, nofun⟩
  | handling req messages =>
      cases req with
      | subscribe r =>
          obtain ⟨rfl, rfl⟩ := List.cons.inj hops
          exact .inr (.inl ⟨r, messages, rfl, rfl⟩)
      | unsubscribe r =>
          obtain ⟨rfl, rfl⟩ := List.cons.inj hops
          exact .inr (.inr (.inl ⟨r, messages, rfl, rfl⟩))
  | joining r messages =>
      obtain ⟨rfl, rfl⟩ := List.cons.inj hops
      exact .inr (.inr (.inr (.inl ⟨r, messages, rfl, rfl⟩)))
  | leaving r messages =>
      obtain ⟨rfl, rfl⟩ := List.cons.inj hops
      exact .inr (.inr (.inr (.inr ⟨r, messages, rfl, rfl⟩)))

theorem Connection.doing_iff : c.Doing op ↔ ∃ ops, c.receiver = some ops ∧ ops.head? = some op := by
  constructor
  · rintro ⟨rest, h⟩
    exact ⟨op :: rest, h, rfl⟩
  · rintro ⟨ops, h, hhead⟩
    obtain ⟨rest, rfl⟩ := List.head?_eq_some_iff.1 hhead
    exact ⟨rest, h⟩

/-- A step of the handler that touches no room. -/
theorem joined_of_same (h : Joined a socketId c) (hhandler : c.handler = op :: rest)
    (hop : ∀ r, op ≠ .removeShowSocket r) (hshow : b.showSockets = a.showSockets)
    (hentry : b.socketShows socketId = a.socketShows socketId) :
    Joined b socketId { c with handler := rest } where
  starting hspawn := by
    rw [hshow]
    exact h.starting (hhandler ▸ List.mem_cons_of_mem _ hspawn)
  receiver := h.receiver
  into := by
    rw [hshow, hentry]
    exact h.into
  out := by
    rw [hshow, hentry]
    intro r hr
    refine (h.out r hr).imp_right (Or.imp_right fun hmem => ?_)
    exact (List.mem_cons.1 (hhandler ▸ hmem)).resolve_left fun heq => hop r heq.symm
  joining := by
    rw [hshow, hentry]
    exact h.joining
  leaving := by
    rw [hshow]
    exact h.leaving

theorem head_receiveTask (messages : List WsRequest) :
    (receiveTask messages).head? = some .next := by
  cases messages <;> rfl

/-- A connection whose receive task waits, or has not been started, is not within a message. -/
theorem not_doing (h : ∀ ops, c.receiver = some ops → ∀ r, ops.head? ≠ some (.insertSocketShow r) ∧
    ops.head? ≠ some (.removeSocketShow r)) (r : ℤ) :
    ¬ c.Doing (.insertSocketShow r) ∧ ¬ c.Doing (.removeSocketShow r) := by
  refine ⟨fun hdoing => ?_, fun hdoing => ?_⟩
  · obtain ⟨ops, hops, hhead⟩ := Connection.doing_iff.1 hdoing
    exact (h ops hops r).1 hhead
  · obtain ⟨ops, hops, hhead⟩ := Connection.doing_iff.1 hdoing
    exact (h ops hops r).2 hhead

theorem waiting_of_receiveTask {messages : List WsRequest} (r : ℤ) :
    (receiveTask messages).head? ≠ some (.insertSocketShow r) ∧
      (receiveTask messages).head? ≠ some (.removeSocketShow r) := by
  rw [head_receiveTask]
  exact ⟨nofun, nofun⟩

/-- A socket in no room, whose receive task is not within a message. -/
theorem joined_of_no_room (hroom : ∀ r, socketId ∉ a.showSockets r)
    (hentry : ∀ shows, a.socketShows socketId = some shows → shows = ∅)
    (hstarting : Op.spawn ∈ c.handler → c.receiver = none)
    (hreceiver : ∀ ops, c.receiver = some ops → ∃ messages, ops = receiveTask messages) :
    Joined a socketId c := by
  have hnot := not_doing (c := c) fun ops hops => by
    obtain ⟨messages, rfl⟩ := hreceiver ops hops
    exact waiting_of_receiveTask
  refine ⟨fun hspawn => ⟨hstarting hspawn, hroom⟩, fun ops hops => ?_, fun shows hshows r hr => ?_,
    fun r hr => absurd hr (hroom r), fun r hdoing => absurd hdoing (hnot r).1, fun r _ => hroom r⟩
  · obtain ⟨messages, rfl⟩ := hreceiver ops hops
    exact .waiting messages
  · rw [hentry shows hshows] at hr
    exact absurd hr (Finset.notMem_empty r)

theorem joined_handle (hlisted : Listed a socketId c.userId c.handler) (h : Joined a socketId c)
    (hhandler : c.handler = op :: rest)
    (hrun : op.run socketId c.userId order a = some (b, more)) :
    Joined b socketId { c with
      handler := more ++ rest
      receiver := if op = .spawn then some (receiveTask c.messages) else c.receiver } := by
  have hform := hlisted.form
  rw [hhandler] at hform
  rcases hform with hsuffix | ⟨rooms, hrooms⟩
  · rcases handler_cases hsuffix with ⟨rfl, rfl⟩ | ⟨rfl, rfl⟩ | ⟨rfl, rfl⟩ | ⟨rfl, rfl⟩ | ⟨rfl, rfl⟩ |
      ⟨rfl, rfl⟩ | ⟨rfl, rfl⟩ | ⟨rfl, rfl⟩
    · obtain ⟨rfl, rfl⟩ := Prod.mk.inj (Option.some.inj hrun)
      exact joined_of_same h hhandler nofun rfl rfl
    · obtain ⟨rfl, rfl⟩ := Prod.mk.inj (Option.some.inj hrun)
      exact joined_of_same h hhandler nofun rfl rfl
    · obtain ⟨rfl, rfl⟩ := Prod.mk.inj (Option.some.inj hrun)
      obtain ⟨hnone, hroom⟩ := h.starting (hhandler ▸ by decide)
      refine joined_of_no_room hroom (fun shows hshows => ?_) (fun _ => hnone) fun ops hops => ?_
      · dsimp only at hshows
        rw [Function.update_self] at hshows
        exact (Option.some.inj hshows).symm
      · exact absurd (hnone.symm.trans hops) nofun
    · obtain ⟨rfl, rfl⟩ := Prod.mk.inj (Option.some.inj hrun)
      obtain ⟨hnone, hroom⟩ := h.starting (hhandler ▸ by decide)
      refine joined_of_no_room hroom (fun shows hshows => ?_) (fun hspawn => ?_)
        fun ops hops => ⟨c.messages, (Option.some.inj hops).symm⟩
      · refine Finset.eq_empty_of_forall_notMem fun r hr => ?_
        rcases h.into shows hshows r hr with hin | ⟨ops, hops⟩
        · exact hroom r hin
        · exact absurd (hnone.symm.trans hops) nofun
      · have hspawn : Op.spawn ∈ handleSocket.drop 4 := hspawn
        exact absurd hspawn (by decide)
    · obtain ⟨rfl, rfl⟩ := Prod.mk.inj (Option.some.inj hrun)
      exact joined_of_same h hhandler nofun rfl rfl
    · obtain ⟨rfl, rfl⟩ := Prod.mk.inj (Option.some.inj hrun)
      exact joined_of_same h hhandler nofun rfl rfl
    · obtain ⟨rfl, rfl⟩ := Prod.mk.inj (Option.some.inj hrun)
      exact joined_of_same h hhandler nofun rfl rfl
    · rcases take_cases hrun with ⟨-, rfl, rfl⟩ | ⟨shows, hshows, horder, rfl, rfl⟩
      · exact joined_of_same h hhandler nofun rfl rfl
      · have hentry : Function.update a.socketShows socketId none socketId = none :=
          Function.update_self ..
        refine ⟨fun hspawn => ?_, h.receiver, fun shows' h' => ?_, fun r hr => ?_,
          fun r _ hsome => ?_, h.leaving⟩
        · rw [List.append_nil] at hspawn
          obtain ⟨r, hr⟩ := eq_of_mem_clearing hspawn
          cases hr
        · exact absurd (hentry.symm.trans h') nofun
        · rcases h.out r hr with ⟨shows', hshows', hin⟩ | hdoing | hmem
          · obtain rfl := Option.some.inj (hshows.symm.trans hshows')
            rw [List.append_nil]
            exact .inr (.inr (List.mem_map_of_mem (List.mem_toFinset.1 (horder ▸ hin))))
          · exact .inr (.inl hdoing)
          · rw [hhandler] at hmem
            exact absurd (List.mem_singleton.1 hmem) nofun
        · obtain ⟨shows', h'⟩ := Option.isSome_iff_exists.1 hsome
          exact absurd (hentry.symm.trans h') nofun
  · have hentry : a.socketShows socketId = none := Option.not_isSome_iff_eq_none.1 fun hsome => by
      obtain ⟨r, hr⟩ := eq_of_mem_clearing (hrooms ▸ hhandler ▸ (hlisted.entry hsome).1)
      cases hr
    obtain ⟨r₀, rooms, rfl, rfl, rfl⟩ := List.map_eq_cons_iff.1 hrooms.symm
    obtain ⟨rfl, rfl⟩ := Prod.mk.inj (Option.some.inj hrun)
    have hshow : ∀ r, socketId ∈ Function.update a.showSockets r₀ ((a.showSockets r₀).erase socketId) r →
        r ≠ r₀ ∧ socketId ∈ a.showSockets r := by
      intro r hr
      by_cases hne : r = r₀
      · subst hne
        rw [Function.update_self] at hr
        exact absurd rfl (Finset.mem_erase.1 hr).1
      · rw [Function.update_of_ne hne] at hr
        exact ⟨hne, hr⟩
    refine ⟨fun hspawn => ?_, h.receiver, fun shows h' => ?_, fun r hr => ?_,
      fun r _ hsome => ?_, fun r hdoing hr => h.leaving r hdoing (hshow r hr).2⟩
    · obtain ⟨r, hr⟩ := eq_of_mem_clearing hspawn
      cases hr
    · exact absurd (hentry.symm.trans h') nofun
    · obtain ⟨hne, hin⟩ := hshow r hr
      rcases h.out r hin with ⟨shows, hshows, -⟩ | hdoing | hmem
      · exact absurd (hentry.symm.trans hshows) nofun
      · exact .inr (.inl hdoing)
      · rw [hhandler] at hmem
        refine .inr (.inr ((List.mem_cons.1 hmem).resolve_left fun heq => ?_))
        exact hne (Op.removeShowSocket.inj heq)
    · dsimp only at hsome
      rw [hentry] at hsome
      cases hsome

/-- What the receive task is about to do, by the head of what is left of it. -/
theorem doing_cons {op' : Op} (h : c.receiver = some (op :: rest)) : c.Doing op' ↔ op = op' := by
  rw [Connection.doing_iff, h]
  constructor
  · rintro ⟨ops, hops, hhead⟩
    obtain rfl := Option.some.inj hops
    exact Option.some.inj hhead
  · rintro rfl
    exact ⟨_, rfl, rfl⟩

theorem not_starting (h : Joined a socketId c) (hreceiver : c.receiver = some (op :: rest)) :
    Op.spawn ∉ c.handler :=
  fun hspawn => absurd ((h.starting hspawn).1.symm.trans hreceiver) nofun

theorem joined_next (h : Joined a socketId c)
    (hreceiver : c.receiver = some (.next :: rest))
    (hrest : Receiving rest) (hhead : ∀ r, rest.head? ≠ some (.insertSocketShow r) ∧
      rest.head? ≠ some (.removeSocketShow r)) :
    Joined a socketId { c with receiver := some rest } := by
  have hnotStarting := not_starting h hreceiver
  have hdoing : ∀ op', c.Doing op' ↔ .next = op' := fun op' => doing_cons hreceiver
  have hnot := not_doing (c := { c with receiver := some rest }) fun ops hops r => by
    obtain rfl := Option.some.inj hops
    exact hhead r
  refine ⟨fun hspawn => absurd hspawn hnotStarting, fun ops hops => ?_, fun shows hshows r hr => ?_,
    fun r hr => ?_, fun r hd => absurd hd (hnot r).1, fun r hd => absurd hd (hnot r).2⟩
  · obtain rfl := Option.some.inj hops
    exact hrest
  · rcases h.into shows hshows r hr with hin | hd
    · exact .inl hin
    · cases (hdoing _).1 hd
  · rcases h.out r hr with hin | hd | hmem
    · exact .inl hin
    · cases (hdoing _).1 hd
    · exact .inr (.inr hmem)

theorem joined_insertShowSocket (h : Joined a socketId c)
    (hreceiver : c.receiver = some (.insertShowSocket r₀ :: rest)) :
    Joined { a with
      showSockets := Function.update a.showSockets r₀ (insert socketId (a.showSockets r₀)) } socketId
      { c with receiver := some (.insertSocketShow r₀ :: receiveTask messages) } := by
  have hnotStarting := not_starting h hreceiver
  have hdoing : ∀ op', c.Doing op' ↔ .insertShowSocket r₀ = op' := fun op' => doing_cons hreceiver
  let d : Connection := { c with receiver := some (.insertSocketShow r₀ :: receiveTask messages) }
  have hd : ∀ op', d.Doing op' ↔ .insertSocketShow r₀ = op' := fun op' => doing_cons rfl
  have hshow : ∀ r, socketId ∈
      Function.update a.showSockets r₀ (insert socketId (a.showSockets r₀)) r ↔
        r = r₀ ∨ socketId ∈ a.showSockets r := by
    intro r
    by_cases hr : r = r₀
    · subst hr
      rw [Function.update_self]
      exact iff_of_true (Finset.mem_insert_self _ _) (.inl rfl)
    · rw [Function.update_of_ne hr, or_iff_right hr]
  refine ⟨fun hspawn => absurd hspawn hnotStarting, fun ops hops => ?_, fun shows hshows r hr => ?_,
    fun r hr => ?_, fun r hdo _ => ?_, fun r hdo => ?_⟩
  · obtain rfl := Option.some.inj hops
    exact .joining r₀ messages
  · rcases h.into shows hshows r hr with hin | hdo
    · exact .inl ((hshow r).2 (.inr hin))
    · cases (hdoing _).1 hdo
  · rcases (hshow r).1 hr with rfl | hin
    · exact .inr (.inl ((hd _).2 rfl))
    · rcases h.out r hin with hold | hdo | hmem
      · exact .inl hold
      · cases (hdoing _).1 hdo
      · exact .inr (.inr hmem)
  · exact (hshow r).2 (.inl (Op.insertSocketShow.inj ((hd _).1 hdo)).symm)
  · cases (hd _).1 hdo

theorem joined_removeShowSocket (h : Joined a socketId c)
    (hreceiver : c.receiver = some (.removeShowSocket r₀ :: rest)) :
    Joined { a with
      showSockets := Function.update a.showSockets r₀ ((a.showSockets r₀).erase socketId) } socketId
      { c with receiver := some (.removeSocketShow r₀ :: receiveTask messages) } := by
  have hnotStarting := not_starting h hreceiver
  have hdoing : ∀ op', c.Doing op' ↔ .removeShowSocket r₀ = op' := fun op' => doing_cons hreceiver
  let d : Connection := { c with receiver := some (.removeSocketShow r₀ :: receiveTask messages) }
  have hd : ∀ op', d.Doing op' ↔ .removeSocketShow r₀ = op' := fun op' => doing_cons rfl
  have hshow : ∀ r, socketId ∈
      Function.update a.showSockets r₀ ((a.showSockets r₀).erase socketId) r ↔
        r ≠ r₀ ∧ socketId ∈ a.showSockets r := by
    intro r
    by_cases hr : r = r₀
    · subst hr
      rw [Function.update_self]
      exact iff_of_false (Finset.notMem_erase _ _) fun h => h.1 rfl
    · rw [Function.update_of_ne hr, and_iff_right hr]
  refine ⟨fun hspawn => absurd hspawn hnotStarting, fun ops hops => ?_, fun shows hshows r hr => ?_,
    fun r hr => ?_, fun r hdo _ => ?_, fun r hdo => ?_⟩
  · obtain rfl := Option.some.inj hops
    exact .leaving r₀ messages
  · by_cases hne : r = r₀
    · exact .inr ((hd _).2 (congrArg Op.removeSocketShow hne.symm))
    · rcases h.into shows hshows r hr with hin | hdo
      · exact .inl ((hshow r).2 ⟨hne, hin⟩)
      · cases (hdoing _).1 hdo
  · rcases h.out r ((hshow r).1 hr).2 with hold | hdo | hmem
    · exact .inl hold
    · cases (hdoing _).1 hdo
    · exact .inr (.inr hmem)
  · cases (hd _).1 hdo
  · obtain rfl := Op.removeSocketShow.inj ((hd _).1 hdo)
    exact fun hin => ((hshow _).1 hin).1 rfl

theorem joined_insertSocketShow (h : Joined a socketId c)
    (hreceiver : c.receiver = some (.insertSocketShow r₀ :: rest))
    (hleaves : (a.socketShows socketId).isSome ∨ socketId ∉ a.showSockets r₀ ∨
      Op.removeShowSocket r₀ ∈ c.handler) :
    Joined { a with
      socketShows := Function.update a.socketShows socketId
        ((a.socketShows socketId).map (insert r₀)) } socketId
      { c with receiver := some (receiveTask messages) } := by
  have hnotStarting := not_starting h hreceiver
  have hdoing : ∀ op', c.Doing op' ↔ .insertSocketShow r₀ = op' := fun op' => doing_cons hreceiver
  have hnot := not_doing (c := { c with receiver := some (receiveTask messages) }) fun ops hops => by
    obtain rfl := Option.some.inj hops
    exact waiting_of_receiveTask
  have hentry : Function.update a.socketShows socketId
      ((a.socketShows socketId).map (insert r₀)) socketId =
        (a.socketShows socketId).map (insert r₀) := Function.update_self ..
  refine ⟨fun hspawn => absurd hspawn hnotStarting, fun ops hops => ?_, fun shows' h' r hr => .inl ?_,
    fun r hr => ?_, fun r hdo => absurd hdo (hnot r).1, fun r hdo => absurd hdo (hnot r).2⟩
  · obtain rfl := Option.some.inj hops
    exact .waiting messages
  · obtain ⟨shows, hshows, rfl⟩ := Option.map_eq_some_iff.1 (hentry.symm.trans h')
    rcases Finset.mem_insert.1 hr with rfl | hin
    · exact h.joining _ ((hdoing _).2 rfl) (Option.isSome_iff_exists.2 ⟨shows, hshows⟩)
    · rcases h.into shows hshows r hin with hold | hdo
      · exact hold
      · cases (hdoing _).1 hdo
  · rcases h.out r hr with ⟨shows, hshows, hin⟩ | hdo | hmem
    · exact .inl ⟨insert r₀ shows, hentry.trans (congrArg (Option.map _) hshows),
        Finset.mem_insert_of_mem hin⟩
    · obtain rfl := Op.insertSocketShow.inj ((hdoing _).1 hdo)
      rcases hleaves with hsome | hgone | hmem
      · obtain ⟨shows, hshows⟩ := Option.isSome_iff_exists.1 hsome
        exact .inl ⟨insert r₀ shows, hentry.trans (congrArg (Option.map _) hshows),
          Finset.mem_insert_self r₀ shows⟩
      · exact absurd hr hgone
      · exact .inr (.inr hmem)
    · exact .inr (.inr hmem)

theorem joined_removeSocketShow (h : Joined a socketId c)
    (hreceiver : c.receiver = some (.removeSocketShow r₀ :: rest)) :
    Joined { a with
      socketShows := Function.update a.socketShows socketId
        ((a.socketShows socketId).map fun shows => shows.erase r₀) } socketId
      { c with receiver := some (receiveTask messages) } := by
  have hnotStarting := not_starting h hreceiver
  have hdoing : ∀ op', c.Doing op' ↔ .removeSocketShow r₀ = op' := fun op' => doing_cons hreceiver
  have hnot := not_doing (c := { c with receiver := some (receiveTask messages) }) fun ops hops => by
    obtain rfl := Option.some.inj hops
    exact waiting_of_receiveTask
  have hentry : Function.update a.socketShows socketId
      ((a.socketShows socketId).map fun shows => shows.erase r₀) socketId =
        (a.socketShows socketId).map fun shows => shows.erase r₀ := Function.update_self ..
  refine ⟨fun hspawn => absurd hspawn hnotStarting, fun ops hops => ?_, fun shows' h' r hr => .inl ?_,
    fun r hr => ?_, fun r hdo => absurd hdo (hnot r).1, fun r hdo => absurd hdo (hnot r).2⟩
  · obtain rfl := Option.some.inj hops
    exact .waiting messages
  · obtain ⟨shows, hshows, rfl⟩ := Option.map_eq_some_iff.1 (hentry.symm.trans h')
    obtain ⟨hne, hin⟩ := Finset.mem_erase.1 hr
    rcases h.into shows hshows r hin with hold | hdo
    · exact hold
    · exact absurd (Op.removeSocketShow.inj ((hdoing _).1 hdo)).symm hne
  · rcases h.out r hr with ⟨shows, hshows, hin⟩ | hdo | hmem
    · refine .inl ⟨shows.erase r₀, hentry.trans (congrArg (Option.map _) hshows),
        Finset.mem_erase.2 ⟨?_, hin⟩⟩
      rintro rfl
      exact h.leaving _ ((hdoing _).2 rfl) hr
    · cases (hdoing _).1 hdo
    · exact .inr (.inr hmem)

/-- A step of the receive task. -/
theorem joined_receive (h : Joined a socketId c) (hreceiver : c.receiver = some (op :: rest))
    (hrun : op.run socketId c.userId order a = some (b, more))
    (hleaves : ∀ r, op = .insertSocketShow r → (a.socketShows socketId).isSome ∨
      socketId ∉ a.showSockets r ∨ Op.removeShowSocket r ∈ c.handler) :
    Joined b socketId { c with receiver := some (more ++ rest) } := by
  rcases receiving_cases (h.receiver _ hreceiver) with ⟨rfl, hrest, hhead⟩ | ⟨r₀, messages, rfl, rfl⟩ |
    ⟨r₀, messages, rfl, rfl⟩ | ⟨r₀, messages, rfl, rfl⟩ | ⟨r₀, messages, rfl, rfl⟩
  · obtain ⟨rfl, rfl⟩ := Prod.mk.inj (Option.some.inj hrun)
    exact joined_next h hreceiver hrest hhead
  · obtain ⟨rfl, rfl⟩ := Prod.mk.inj (Option.some.inj hrun)
    exact joined_insertShowSocket h hreceiver
  · obtain ⟨rfl, rfl⟩ := Prod.mk.inj (Option.some.inj hrun)
    exact joined_removeShowSocket h hreceiver
  · obtain ⟨rfl, rfl⟩ := Prod.mk.inj (Option.some.inj hrun)
    exact joined_insertSocketShow h hreceiver (hleaves r₀ rfl)
  · obtain ⟨rfl, rfl⟩ := Prod.mk.inj (Option.some.inj hrun)
    exact joined_removeSocketShow h hreceiver

end Rooms

/-! ## The other sockets -/

section Others

variable {a b : RedisSocketAdapter} {socketId other : String} {userId : ℤ} {order : List ℤ} {op : Op}
variable {more : List Op}

/-- The maps say the same of a socket. -/
structure SameFor (other : String) (a b : RedisSocketAdapter) : Prop where
  sockets : other ∈ b.sockets ↔ other ∈ a.sockets
  users : ∀ u, other ∈ b.userSockets u ↔ other ∈ a.userSockets u
  shows : ∀ r, other ∈ b.showSockets r ↔ other ∈ a.showSockets r
  entry : b.socketShows other = a.socketShows other

/-- What an update of one set leaves to another socket. -/
theorem mem_update_of_ne {sets : ℤ → Finset String} {k : ℤ} {set : Finset String}
    (h : other ∈ set ↔ other ∈ sets k) (k' : ℤ) :
    other ∈ Function.update sets k set k' ↔ other ∈ sets k' := by
  by_cases hk : k' = k
  · subst hk
    rw [Function.update_self, h]
  · rw [Function.update_of_ne hk]

/-- An operation of one socket touches no other. -/
theorem sameFor_of_run (hne : other ≠ socketId)
    (hrun : op.run socketId userId order a = some (b, more)) : SameFor other a b := by
  have hinsert : ∀ set : Finset String, other ∈ insert socketId set ↔ other ∈ set :=
    fun set => Finset.mem_insert.trans (or_iff_right hne)
  have herase : ∀ set : Finset String, other ∈ set.erase socketId ↔ other ∈ set :=
    fun set => Finset.mem_erase.trans (and_iff_right hne)
  cases op with
  | insertSocket =>
      obtain ⟨rfl, -⟩ := Prod.mk.inj (Option.some.inj hrun)
      exact ⟨hinsert _, fun _ => Iff.rfl, fun _ => Iff.rfl, rfl⟩
  | insertUserSocket =>
      obtain ⟨rfl, -⟩ := Prod.mk.inj (Option.some.inj hrun)
      exact ⟨Iff.rfl, mem_update_of_ne (hinsert _), fun _ => Iff.rfl, rfl⟩
  | removeSocket =>
      obtain ⟨rfl, -⟩ := Prod.mk.inj (Option.some.inj hrun)
      exact ⟨herase _, fun _ => Iff.rfl, fun _ => Iff.rfl, rfl⟩
  | removeUserSocket =>
      obtain ⟨rfl, -⟩ := Prod.mk.inj (Option.some.inj hrun)
      exact ⟨Iff.rfl, mem_update_of_ne (herase _), fun _ => Iff.rfl, rfl⟩
  | insertShowSocket r =>
      obtain ⟨rfl, -⟩ := Prod.mk.inj (Option.some.inj hrun)
      exact ⟨Iff.rfl, fun _ => Iff.rfl, mem_update_of_ne (hinsert _), rfl⟩
  | removeShowSocket r =>
      obtain ⟨rfl, -⟩ := Prod.mk.inj (Option.some.inj hrun)
      exact ⟨Iff.rfl, fun _ => Iff.rfl, mem_update_of_ne (herase _), rfl⟩
  | takeSocketShows =>
      rcases take_cases hrun with ⟨-, rfl, -⟩ | ⟨shows, -, -, rfl, -⟩
      · exact ⟨Iff.rfl, fun _ => Iff.rfl, fun _ => Iff.rfl, rfl⟩
      · exact ⟨Iff.rfl, fun _ => Iff.rfl, fun _ => Iff.rfl, Function.update_of_ne hne ..⟩
  | putSocketShows | insertSocketShow | removeSocketShow =>
      obtain ⟨rfl, -⟩ := Prod.mk.inj (Option.some.inj hrun)
      exact ⟨Iff.rfl, fun _ => Iff.rfl, fun _ => Iff.rfl, Function.update_of_ne hne ..⟩
  | spawn | select | next =>
      obtain ⟨rfl, -⟩ := Prod.mk.inj (Option.some.inj hrun)
      exact ⟨Iff.rfl, fun _ => Iff.rfl, fun _ => Iff.rfl, rfl⟩

theorem Listed.same {ops : List Op} (h : Listed a socketId userId ops) (hsame : SameFor socketId a b) :
    Listed b socketId userId ops where
  form := h.form
  sockets hmem := h.sockets (hsame.sockets.1 hmem)
  users u hu := h.users u ((hsame.users u).1 hu)
  entry hsome := h.entry (hsame.entry ▸ hsome)

theorem Joined.same {c : Connection} (h : Joined a socketId c) (hsame : SameFor socketId a b) :
    Joined b socketId c where
  starting hspawn := ⟨(h.starting hspawn).1, fun r hr => (h.starting hspawn).2 r ((hsame.shows r).1 hr)⟩
  receiver := h.receiver
  into shows hshows r hr := (h.into shows (hsame.entry ▸ hshows) r hr).imp_left (hsame.shows r).2
  out r hr := by
    rw [hsame.entry]
    exact h.out r ((hsame.shows r).1 hr)
  joining r hdo hsome := (hsame.shows r).2 (h.joining r hdo (hsame.entry ▸ hsome))
  leaving r hdo hr := h.leaving r hdo ((hsame.shows r).1 hr)

/-- No map has the socket. -/
structure Absent (a : RedisSocketAdapter) (socketId : String) : Prop where
  sockets : socketId ∉ a.sockets
  users : ∀ u, socketId ∉ a.userSockets u
  shows : ∀ r, socketId ∉ a.showSockets r
  entry : a.socketShows socketId = none

theorem Absent.same (h : Absent a socketId) (hsame : SameFor socketId a b) : Absent b socketId where
  sockets hmem := h.sockets (hsame.sockets.1 hmem)
  users u hu := h.users u ((hsame.users u).1 hu)
  shows r hr := h.shows r ((hsame.shows r).1 hr)
  entry := hsame.entry.trans h.entry

/-- A receive task leaves to the handler what only the handler writes. -/
theorem listed_receive {ops rest : List Op} (h : Listed a socketId userId ops)
    (hreceiving : Receiving (op :: rest))
    (hrun : op.run socketId userId order a = some (b, more)) : Listed b socketId userId ops := by
  have hsame : b.sockets = a.sockets ∧ b.userSockets = a.userSockets ∧
      (b.socketShows socketId).isSome = (a.socketShows socketId).isSome := by
    rcases receiving_cases hreceiving with ⟨rfl, -⟩ | ⟨r, -, rfl, -⟩ | ⟨r, -, rfl, -⟩ | ⟨r, -, rfl, -⟩ |
      ⟨r, -, rfl, -⟩
    · obtain ⟨rfl, -⟩ := Prod.mk.inj (Option.some.inj hrun)
      exact ⟨rfl, rfl, rfl⟩
    · obtain ⟨rfl, -⟩ := Prod.mk.inj (Option.some.inj hrun)
      exact ⟨rfl, rfl, rfl⟩
    · obtain ⟨rfl, -⟩ := Prod.mk.inj (Option.some.inj hrun)
      exact ⟨rfl, rfl, rfl⟩
    · obtain ⟨rfl, -⟩ := Prod.mk.inj (Option.some.inj hrun)
      refine ⟨rfl, rfl, ?_⟩
      dsimp only
      rw [Function.update_self, Option.isSome_map]
    · obtain ⟨rfl, -⟩ := Prod.mk.inj (Option.some.inj hrun)
      refine ⟨rfl, rfl, ?_⟩
      dsimp only
      rw [Function.update_self, Option.isSome_map]
  obtain ⟨hsockets, husers, hentry⟩ := hsame
  exact ⟨h.form, by rw [hsockets]; exact h.sockets, by rw [husers]; exact h.users,
    by rw [hentry]; exact h.entry⟩

end Others

/-! ## The server -/

/-- What holds of every socket at every step. -/
structure Registered (s : Server) : Prop where
  absent : ∀ socketId, s.connections socketId = none → Absent s.adapter socketId
  listed : ∀ socketId c, s.connections socketId = some c →
    Listed s.adapter socketId c.userId c.handler
  joined : ∀ socketId c, s.connections socketId = some c → Joined s.adapter socketId c

section Steps

variable {s t : Server} {b : RedisSocketAdapter} {socketId : String} {c : Connection} {e : Event}

theorem put_self : (s.put socketId b c).connections socketId = some c :=
  Function.update_self ..

theorem put_of_ne {other : String} (hne : other ≠ socketId) :
    (s.put socketId b c).connections other = s.connections other :=
  Function.update_of_ne hne ..

theorem registered_put (hs : Registered s) (hother : ∀ other, other ≠ socketId → SameFor other s.adapter b)
    (hlisted : Listed b socketId c.userId c.handler) (hjoined : Joined b socketId c) :
    Registered (s.put socketId b c) := by
  refine ⟨fun other hnone => ?_, fun other d hd => ?_, fun other d hd => ?_⟩
  · have hne : other ≠ socketId := by
      rintro rfl
      exact absurd (put_self.symm.trans hnone) nofun
    exact (hs.absent other ((put_of_ne hne).symm.trans hnone)).same (hother other hne)
  · by_cases hne : other = socketId
    · subst hne
      obtain rfl := Option.some.inj (put_self.symm.trans hd)
      exact hlisted
    · exact (hs.listed other d ((put_of_ne hne).symm.trans hd)).same (hother other hne)
  · by_cases hne : other = socketId
    · subst hne
      obtain rfl := Option.some.inj (put_self.symm.trans hd)
      exact hjoined
    · exact (hs.joined other d ((put_of_ne hne).symm.trans hd)).same (hother other hne)

theorem registered_step (hs : Registered s) (hG : LeavesNothing s e) (hst : s.step e = some t) :
    Registered t := by
  cases e with
  | connect socketId userId messages =>
      simp only [Server.step] at hst
      cases hc : s.connections socketId with
      | some c => simp only [hc, reduceCtorEq] at hst
      | none =>
          simp only [hc, Option.some.injEq] at hst
          obtain rfl := hst
          have habsent := hs.absent socketId hc
          refine registered_put hs (fun _ _ => ⟨Iff.rfl, fun _ => Iff.rfl, fun _ => Iff.rfl, rfl⟩) ?_ ?_
          · exact ⟨.inl (List.suffix_refl _), fun h => absurd h habsent.sockets,
              fun u h => absurd h (habsent.users u), fun h => by rw [habsent.entry] at h; cases h⟩
          · exact joined_of_no_room habsent.shows (fun _ h => absurd (habsent.entry.symm.trans h) nofun)
              (fun _ => rfl) nofun
  | handle socketId order =>
      simp only [Server.step] at hst
      split at hst
      · next userId messages op rest receiver hc =>
        obtain ⟨⟨a, more⟩, hrun, rfl⟩ := Option.map_eq_some_iff.1 hst
        refine registered_put hs (fun other hne => sameFor_of_run hne hrun) ?_ ?_
        · exact listed_handle (hs.listed _ _ hc) hrun
        · exact joined_handle (hs.listed _ _ hc) (hs.joined _ _ hc) rfl hrun
      · cases hst
  | receive socketId =>
      simp only [Server.step] at hst
      split at hst
      · next userId messages handler op rest hc =>
        obtain ⟨⟨a, more⟩, hrun, rfl⟩ := Option.map_eq_some_iff.1 hst
        have hlisted := hs.listed _ _ hc
        have hjoined := hs.joined _ _ hc
        refine registered_put hs (fun other hne => sameFor_of_run hne hrun) ?_ ?_
        · exact listed_receive hlisted (hjoined.receiver _ rfl) hrun
        · refine joined_receive hjoined rfl hrun ?_
          rintro r rfl
          unfold LeavesNothing at hG
          simpa only [hc] using hG
      · cases hst

theorem registered_of_reachable (h : Server.system.ReachableUnder LeavesNothing s) : Registered s := by
  refine System.invariant (I := Registered) ?_ (fun s e t hs hG hst => ?_) h
  · rintro _ rfl
    exact ⟨fun _ _ => ⟨Finset.notMem_empty _, fun _ => Finset.notMem_empty _,
      fun _ => Finset.notMem_empty _, rfl⟩, nofun, nofun⟩
  · exact registered_step hs hG hst

/-- Whatever the sockets and the order of their steps, nothing is left of a removed socket and the
two maps are inverse when no function of the adapter is under way. -/
theorem consistent_of_quiescent (h : Server.system.ReachableUnder LeavesNothing s)
    (hq : Quiescent s) : Consistent s := by
  have hs := registered_of_reachable h
  have hnot : ∀ socketId c, s.connections socketId = some c → ∀ r,
      ¬ c.Doing (.insertSocketShow r) ∧ ¬ c.Doing (.removeSocketShow r) := by
    intro socketId c hc
    refine not_doing fun ops hops r => ?_
    have hrest := (hq socketId c hc).2 ops hops
    refine ⟨fun hhead => ?_, fun hhead => ?_⟩
    · rcases hrest _ hhead with h' | h' <;> cases h'
    · rcases hrest _ hhead with h' | h' <;> cases h'
  have hclear : ∀ socketId c, s.connections socketId = some c → ∀ r,
      Op.removeShowSocket r ∉ c.handler := by
    intro socketId c hc r hmem
    rcases (hs.listed socketId c hc).form with hsuffix | ⟨rooms, hrooms⟩
    · exact absurd (hsuffix.subset hmem) (by simp [handleSocket, addLocalConnection, removeLocalConnection])
    · have hrest := (hq socketId c hc).1
      rw [hrooms] at hmem hrest
      obtain ⟨r', rooms', rfl⟩ := List.exists_cons_of_ne_nil (List.ne_nil_of_mem (List.mem_map.1 hmem).choose_spec.1)
      rcases hrest _ rfl with h' | h' <;> cases h'
  refine ⟨fun socketId r => ?_, fun socketId c hc hended => ?_⟩
  · cases hc : s.connections socketId with
    | none =>
        have habsent := hs.absent socketId hc
        rw [habsent.entry]
        exact iff_of_false (habsent.shows r) (Finset.notMem_empty r)
    | some c =>
        have hjoined := hs.joined socketId c hc
        constructor
        · intro hr
          rcases hjoined.out r hr with ⟨shows, hshows, hin⟩ | hdo | hmem
          · rw [hshows]
            exact hin
          · exact absurd hdo (hnot socketId c hc r).1
          · exact absurd hmem (hclear socketId c hc r)
        · intro hr
          cases hshows : s.adapter.socketShows socketId with
          | none =>
              rw [hshows] at hr
              exact absurd hr (Finset.notMem_empty r)
          | some shows =>
              rw [hshows] at hr
              exact (hjoined.into shows hshows r hr).resolve_right (hnot socketId c hc r).2
  · have hlisted := hs.listed socketId c hc
    have hjoined := hs.joined socketId c hc
    rw [hended] at hlisted
    have hentry : s.adapter.socketShows socketId = none :=
      Option.not_isSome_iff_eq_none.1 fun hsome => absurd (hlisted.entry hsome).1 List.not_mem_nil
    refine ⟨fun h => absurd (hlisted.sockets h) List.not_mem_nil,
      fun u h => absurd (hlisted.users u h).2 List.not_mem_nil, fun r hr => ?_, hentry⟩
    rcases hjoined.out r hr with ⟨shows, hshows, -⟩ | hdo | hmem
    · exact absurd (hentry.symm.trans hshows) nofun
    · exact (hnot socketId c hc r).1 hdo
    · exact hclear socketId c hc r hmem

end Steps

/-! ### One socket -/

section OneSocket

def Event.socketId : Event → String
  | .connect socketId _ _ => socketId
  | .handle socketId _ => socketId
  | .receive socketId => socketId

/-- Events of one socket connect no other. -/
theorem connections_step {s t : Server} {e : Event} {other : String} (hst : s.step e = some t)
    (hne : other ≠ e.socketId) : t.connections other = s.connections other := by
  cases e with
  | connect socketId userId messages =>
      simp only [Server.step] at hst
      split at hst
      · obtain rfl := Option.some.inj hst
        exact put_of_ne hne
      · cases hst
  | handle socketId order =>
      simp only [Server.step] at hst
      split at hst
      · obtain ⟨x, -, rfl⟩ := Option.map_eq_some_iff.1 hst
        exact put_of_ne hne
      · cases hst
  | receive socketId =>
      simp only [Server.step] at hst
      split at hst
      · obtain ⟨x, -, rfl⟩ := Option.map_eq_some_iff.1 hst
        exact put_of_ne hne
      · cases hst

theorem connections_run {G : Server → Event → Prop} [∀ s e, Decidable (G s e)] {other : String}
    {es : List Event} {s t : Server} (hrun : Server.system.runUnder G s es = some t)
    (hne : ∀ e ∈ es, other ≠ e.socketId) : t.connections other = s.connections other := by
  induction es generalizing s with
  | nil => rw [Option.some.inj hrun]
  | cons e es ih =>
      simp only [System.runUnder] at hrun
      split_ifs at hrun
      split at hrun
      · next u hu =>
        rw [ih hrun fun e' he' => hne e' (List.mem_cons_of_mem _ he')]
        exact connections_step hu (hne e List.mem_cons_self)
      · cases hrun

/-- The tasks of the socket are at rest, and there is no other socket. -/
theorem quiescent_of_run {G : Server → Event → Prop} [∀ s e, Decidable (G s e)] {es : List Event}
    {s : Server} (hrun : Server.system.runUnder G ⟨.new, fun _ => none⟩ es = some s)
    (hes : ∀ e ∈ es, e.socketId = "a")
    (hrest : ∀ c ∈ s.connections "a", AtRest c.handler ∧ ∀ ops ∈ c.receiver, AtRest ops) :
    Quiescent s := by
  intro socketId c hc
  by_cases hne : socketId = "a"
  · subst hne
    exact hrest c hc
  · have hnone := connections_run hrun fun e he heq => hne (heq.trans (hes e he))
    exact absurd (hnone.symm.trans hc) nofun

/-- A socket of user 1 connects and has made the first operation of its subscription to show 7. -/
def subscribes : List Event :=
  .connect "a" 1 [.subscribe 7] :: List.replicate 4 (.handle "a" []) ++
    [.receive "a", .receive "a"]

/-- The subscription ends before the connection is removed. -/
theorem consistent_subscribed : ∃ s, Server.system.Reachable s ∧
    (s.connections "a").map Connection.handler = some [] ∧ Consistent s := by
  have hrun : (Server.system.runUnder LeavesNothing ⟨.new, fun _ => none⟩ (subscribes ++
      .receive "a" :: List.replicate 3 (.handle "a" []) ++
        [.handle "a" [7], .handle "a" []])).any (fun s => decide
          ((s.connections "a").map Connection.handler = some [] ∧
            ∀ c ∈ s.connections "a", AtRest c.handler ∧ ∀ ops ∈ c.receiver, AtRest ops)) = true := by
    decide +kernel
  obtain ⟨s, hs, htest⟩ := (Option.any_eq_true _ _).1 hrun
  obtain ⟨hended, hrest⟩ := of_decide_eq_true htest
  have hreach : Server.system.ReachableUnder LeavesNothing s := .runUnder (.init rfl) hs
  exact ⟨s, hreach.reachable, hended,
    consistent_of_quiescent hreach (quiescent_of_run hs (by decide) hrest)⟩

/-- The connection is removed between the two operations of the subscription. -/
theorem left_in_room : ¬ ∀ s, Server.system.Reachable s → Quiescent s → Consistent s := by
  intro hall
  have hrun : (Server.system.runUnder (fun _ _ => True) ⟨.new, fun _ => none⟩ (subscribes ++
      List.replicate 4 (.handle "a" []) ++ [.receive "a"])).any (fun s => decide
        (s.adapter.socketShows "a" = none ∧ "a" ∈ s.adapter.showSockets 7 ∧
          ∀ c ∈ s.connections "a", AtRest c.handler ∧ ∀ ops ∈ c.receiver, AtRest ops)) = true := by
    decide +kernel
  obtain ⟨s, hs, htest⟩ := (Option.any_eq_true _ _).1 hrun
  obtain ⟨hentry, hroom, hrest⟩ := of_decide_eq_true htest
  have hconsistent := hall s (.runUnder (.init rfl) hs) (quiescent_of_run hs (by decide) hrest)
  have hmem := (hconsistent.inverse "a" 7).1 hroom
  rw [hentry] at hmem
  exact Finset.notMem_empty _ hmem

end OneSocket

end Web
end Bookit

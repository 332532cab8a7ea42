import Bookit.Payments.Request

/-!
# Schedules.Store — starting, closing and deleting a schedule

The handlers commit the state of the schedule in PostgreSQL, then write its closed marker in Redis,
then publish the change; each gateway handles the published events in their order.  A command is
answered, or its request or its answer is lost.
-/

namespace Bookit
namespace Schedules

open Lib

/-! ## Rows and events -/

inductive LifecycleState where
  | scheduled
  | open_
  | closed
  deriving DecidableEq

/-- The columns of `schedules` that the handlers read and write. -/
structure ScheduleRow where
  id : ℤ
  lifecycleState : LifecycleState
  deletedAt : Option ℕ
  deriving DecidableEq

/-- The events of the lifecycle channel. -/
inductive LifecycleEvent where
  | scheduleOpened (scheduleId : ℤ)
  | scheduleClosed (scheduleId : ℤ)
  deriving DecidableEq

/-- A gateway's set of closed shows, and how many of the published events it has handled. -/
structure Gateway where
  closedShows : ℤ → Bool
  handled : ℕ

structure World where
  now : ℕ
  schedules : List ScheduleRow
  /-- The keys that `schedule_closed_key` names. -/
  closedKeys : ℤ → Bool
  published : List LifecycleEvent
  gateways : ℕ → Gateway

def newWorld : World :=
  { now := 0, schedules := [], closedKeys := fun _ => false, published := []
    gateways := fun _ => { closedShows := fun _ => false, handled := 0 } }

/-! ## Statements -/

namespace World

/-- The row of a schedule that is not deleted. -/
def findSchedule (s : World) (scheduleId : ℤ) : Option ScheduleRow :=
  s.schedules.find? fun r => decide (r.id = scheduleId ∧ r.deletedAt = none)

def setState (s : World) (scheduleId : ℤ) (state : LifecycleState) : World :=
  { s with
    schedules := Table.updateWhere (fun r => decide (r.id = scheduleId))
      (fun r => { r with lifecycleState := state }) s.schedules }

/-- The transaction of `start_schedule`; the row is locked from the read on. -/
def start (scheduleId : ℤ) (s : World) : World × Except Payments.AppError Unit :=
  match s.findSchedule scheduleId with
  | none => (s, .error (.notFound "Schedule not found"))
  | some current =>
      match current.lifecycleState with
      | .closed => (s, .error (.badRequest "A closed schedule cannot be restarted"))
      | .open_ => (s, .ok ())
      | .scheduled => (s.setState scheduleId .open_, .ok ())

/-- The transaction of `close_schedule`. -/
def close (scheduleId : ℤ) (s : World) : World × Except Payments.AppError Unit :=
  match s.findSchedule scheduleId with
  | none => (s, .error (.notFound "Schedule not found"))
  | some current =>
      match current.lifecycleState with
      | .closed => (s, .ok ())
      | _ => (s.setState scheduleId .closed, .ok ())

/-- The update of `delete_schedule`, whatever the row has become since it was read. -/
def markDeleted (scheduleId : ℤ) (s : World) : World × Unit :=
  ({ s with
      schedules := Table.updateWhere (fun r => decide (r.id = scheduleId))
        (fun r => { r with lifecycleState := .closed, deletedAt := some s.now }) s.schedules }, ())

def setClosedKey (scheduleId : ℤ) (closed : Bool) (s : World) : World × Unit :=
  ({ s with closedKeys := Redis.setAt s.closedKeys scheduleId closed }, ())

def publish (event : LifecycleEvent) (s : World) : World × Unit :=
  ({ s with published := s.published ++ [event] }, ())

end World

/-! ## Commands -/

inductive Cmd where
  | connect
  | start (scheduleId : ℤ)
  | close (scheduleId : ℤ)
  | findSchedule (scheduleId : ℤ)
  | markDeleted (scheduleId : ℤ)
  | setClosedKey (scheduleId : ℤ)
  | delClosedKey (scheduleId : ℤ)
  | publish (event : LifecycleEvent)

/-- Replies; a command whose answer does not arrive has none. -/
abbrev Rep : Cmd → Type
  | .start _ | .close _ => Option (Except Payments.AppError Unit)
  | .findSchedule _ => Option (Option ScheduleRow)
  | _ => Option Unit

def exec (_ : ℕ) (l : Link) : (c : Cmd) → World → Option (World × Rep c)
  | .connect, s => some (l.deliver (fun s => (s, ())) s)
  | .start scheduleId, s => some (l.deliver (World.start scheduleId) s)
  | .close scheduleId, s => some (l.deliver (World.close scheduleId) s)
  | .findSchedule scheduleId, s => some (l.deliver (fun s => (s, s.findSchedule scheduleId)) s)
  | .markDeleted scheduleId, s => some (l.deliver (World.markDeleted scheduleId) s)
  | .setClosedKey scheduleId, s => some (l.deliver (World.setClosedKey scheduleId true) s)
  | .delClosedKey scheduleId, s => some (l.deliver (World.setClosedKey scheduleId false) s)
  | .publish event, s => some (l.deliver (World.publish event) s)

/-! ## Handlers -/

abbrev Service := Prog Rep

/-- The marker of the event's schedule, then the event. -/
def publishScheduleLifecycle (event : LifecycleEvent) : Service (Except Payments.AppError Unit) := do
  let marked ← match event with
    | .scheduleClosed scheduleId => Prog.perform (Cmd.setClosedKey scheduleId)
    | .scheduleOpened scheduleId => Prog.perform (Cmd.delClosedKey scheduleId)
  match marked with
  | none => pure (.error (.internal "redis error"))
  | some () =>
      match ← Prog.perform (Cmd.publish event) with
      | none => pure (.error (.internal "redis error"))
      | some () => pure (.ok ())

/-- The body of an answer. -/
inductive Response where
  | lifecycle (scheduleId : ℤ) (lifecycleState : String)
  | cancelled
  deriving DecidableEq

/-- The last part of a handler: the publication and the answer. -/
def announce (event : LifecycleEvent) (response : Response) :
    Service (Except Payments.AppError Response) := do
  match ← publishScheduleLifecycle event with
  | .error e => pure (.error e)
  | .ok () => pure (.ok response)

def startSchedule (scheduleId : ℤ) : Service (Except Payments.AppError Response) := do
  match ← Prog.perform Cmd.connect with
  | none => pure (.error (.internal "database unavailable"))
  | some () =>
      match ← Prog.perform (Cmd.start scheduleId) with
      | none => pure (.error (.internal "database error"))
      | some (.error e) => pure (.error e)
      | some (.ok ()) => announce (.scheduleOpened scheduleId) (.lifecycle scheduleId "open")

def closeSchedule (scheduleId : ℤ) : Service (Except Payments.AppError Response) := do
  match ← Prog.perform Cmd.connect with
  | none => pure (.error (.internal "database unavailable"))
  | some () =>
      match ← Prog.perform (Cmd.close scheduleId) with
      | none => pure (.error (.internal "database error"))
      | some (.error e) => pure (.error e)
      | some (.ok ()) => announce (.scheduleClosed scheduleId) (.lifecycle scheduleId "closed")

def deleteSchedule (scheduleId : ℤ) : Service (Except Payments.AppError Response) := do
  match ← Prog.perform Cmd.connect with
  | none => pure (.error (.internal "database unavailable"))
  | some () =>
      match ← Prog.perform (Cmd.findSchedule scheduleId) with
      | none => pure (.error (.notFound "Schedule not found"))
      | some none => pure (.error (.notFound "Schedule not found"))
      | some (some _) =>
          match ← Prog.perform (Cmd.markDeleted scheduleId) with
          | none => pure (.error (.internal "database error"))
          | some () => announce (.scheduleClosed scheduleId) .cancelled

/-! ## Gateways -/

/-- `handle_schedule_lifecycle_message`: a closed schedule enters the set, an opened one leaves it. -/
def handleScheduleLifecycleMessage (event : LifecycleEvent) (closedShows : ℤ → Bool) : ℤ → Bool :=
  match event with
  | .scheduleClosed scheduleId => Redis.setAt closedShows scheduleId true
  | .scheduleOpened scheduleId => Redis.setAt closedShows scheduleId false

def World.setGateway (s : World) (g : ℕ) (x : Gateway) : World :=
  { s with gateways := Function.update s.gateways g x }

/-- Gateway `g` handles the next published event. -/
def World.handleNext (s : World) (g : ℕ) : Option World :=
  (s.published[(s.gateways g).handled]?).map fun event =>
    s.setGateway g
      { closedShows := handleScheduleLifecycleMessage event (s.gateways g).closedShows
        handled := (s.gateways g).handled + 1 }

/-- Gateway `g` finds the marker of a schedule, for a request or for an actor that it has. -/
def World.findMarker (s : World) (g : ℕ) (scheduleId : ℤ) : Option World :=
  if s.closedKeys scheduleId then
    some (s.setGateway g { s.gateways g with
      closedShows := Redis.setAt (s.gateways g).closedShows scheduleId true })
  else
    none

/-! ## The system -/

inductive Task where
  | start (scheduleId : ℤ)
  | close (scheduleId : ℤ)
  | delete (scheduleId : ℤ)

inductive Environ where
  | tick (d : ℕ)
  | create (scheduleId : ℤ)
  | start (scheduleId : ℤ)
  | close (scheduleId : ℤ)
  | delete (scheduleId : ℤ)
  | handle (g : ℕ)
  | findMarker (g : ℕ) (scheduleId : ℤ)

def environ : Environ → World →
    Option (World × List (Task × Service (Except Payments.AppError Response)))
  | .tick d, s => some ({ s with now := s.now + d }, [])
  | .create scheduleId, s =>
      if s.schedules.any fun r => decide (r.id = scheduleId) then none
      else some ({ s with schedules := s.schedules ++ [⟨scheduleId, .scheduled, none⟩] }, [])
  | .start scheduleId, s => some (s, [(.start scheduleId, startSchedule scheduleId)])
  | .close scheduleId, s => some (s, [(.close scheduleId, closeSchedule scheduleId)])
  | .delete scheduleId, s => some (s, [(.delete scheduleId, deleteSchedule scheduleId)])
  | .handle g, s => (s.handleNext g).map fun t => (t, [])
  | .findMarker g scheduleId, s => (s.findMarker g scheduleId).map fun t => (t, [])

/-- Any number of handlers for any schedules, and the gateways. -/
def handlers : Machine World Rep Task (Except Payments.AppError Response) Link Environ where
  init s := s = newWorld
  exec _ := exec
  environ := environ
  close _ s := s

end Schedules
end Bookit

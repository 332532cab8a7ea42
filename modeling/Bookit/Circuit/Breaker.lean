import Mathlib.Data.Int.Notation
import Bookit.Lib.Threads

/-!
# Circuit.Breaker — the circuit breaker of one downstream service

The replicas of the gateway share three Redis keys of the service and no lock.  A request asks
`allowRequest`, sends the request on, and records how that ended; each Redis command is a step, and
the request of a client that has gone is dropped between two of them.
-/

namespace Bookit
namespace Circuit

open Lib

/-! ## Keys -/

/-- The values of the key `cb:{service}:state`. -/
inductive State where
  | closed
  | halfOpened
  | opened
  deriving DecidableEq

/-- The keys of the service, and the time that `Utc::now().timestamp()` reads. -/
structure Store where
  state : Option State
  openUntil : Option ℤ
  failures : ℕ
  now : ℤ
  deriving DecidableEq

/-- The settings of the breaker. -/
structure Settings where
  failureThreshold : ℕ
  openTtlSecs : ℤ

/-! ## Commands -/

/-- The function that issues a command. -/
inductive Op where
  | allowRequest
  | recordSuccess
  | recordFailure
  deriving DecidableEq

inductive Query where
  | connect
  | getState
  | getOpenUntil
  | setState (state : State)
  | setOpenUntil (time : ℤ)
  | incrFailures
  | delFailures
  deriving DecidableEq

/-- What a proxy does outside Redis: it builds the request and executes it, or connects to the
search service and calls it. -/
inductive Call where
  | build
  | execute
  | connect
  | search
  deriving DecidableEq

/-- How that went: `unreachable` is an error of the connection or a timeout. -/
inductive Attempt where
  | done
  | unreachable
  | failed
  deriving DecidableEq

inductive Cmd where
  | redis (op : Op) (query : Query)
  | now (op : Op)
  | call (what : Call)
  deriving DecidableEq

abbrev Query.Reply : Query → Type
  | .getState => Option State
  | .getOpenUntil => Option ℤ
  | .incrFailures => ℕ
  | _ => Unit

/-- Replies; there is none where Redis fails. -/
abbrev Rep : Cmd → Type
  | .redis _ query => Option query.Reply
  | .now _ => ℤ
  | .call _ => Attempt

def Query.run : (query : Query) → Store → Store × query.Reply
  | .connect, s => (s, ())
  | .getState, s => (s, s.state)
  | .getOpenUntil, s => (s, s.openUntil)
  | .setState state, s => ({ s with state := some state }, ())
  | .setOpenUntil time, s => ({ s with openUntil := some time }, ())
  | .incrFailures, s => ({ s with failures := s.failures + 1 }, s.failures + 1)
  | .delFailures, s => ({ s with failures := 0 }, ())

/-- What the run decides about a command. -/
inductive Outcome where
  | link (l : Link)
  | answer (attempt : Attempt)
  deriving DecidableEq

def exec (_ : ℕ) : Outcome → (c : Cmd) → Store → Option (Store × Rep c)
  | .link l, .redis _ query, s => some (l.deliver query.run s)
  | .link _, .now _, s => some (s, s.now)
  | .answer attempt, .call _, s => some (s, attempt)
  | _, _, _ => none

/-! ## The breaker -/

abbrev Request := Prog Rep

def query (op : Op) (q : Query) : Request (Option q.Reply) :=
  Prog.perform (Cmd.redis op q)

/-- The clock of a replica. -/
def timestamp (op : Op) : Request ℤ :=
  Prog.perform (Cmd.now op)

def allowRequest : Request Bool := do
  match ← query .allowRequest .connect with
  | none => return true
  | some () =>
      let currentState ← query .allowRequest .getState
      let state := (currentState.getD none).getD .closed
      if state = .opened then
        let openUntil ← query .allowRequest .getOpenUntil
        let now ← timestamp .allowRequest
        if now < (openUntil.getD (some 0)).getD 0 then
          return false
        else
          let _ ← query .allowRequest (.setState .halfOpened)
          return true
      else
        return true

/-- The state read is only logged. -/
def recordSuccess : Request Unit := do
  match ← query .recordSuccess .connect with
  | none => return ()
  | some () =>
      let _ ← query .recordSuccess .getState
      let _ ← query .recordSuccess .delFailures
      let _ ← query .recordSuccess (.setState .closed)
      return ()

def recordFailure (cfg : Settings) : Request Unit := do
  match ← query .recordFailure .connect with
  | none => return ()
  | some () =>
      let currentState ← query .recordFailure .getState
      let state := (currentState.getD none).getD .closed
      let failures : Option ℕ ← query .recordFailure .incrFailures
      if failures.getD 1 ≥ cfg.failureThreshold ∨ state = .halfOpened then
        let now ← timestamp .recordFailure
        let _ ← query .recordFailure (.setState .opened)
        let _ ← query .recordFailure (.setOpenUntil (now + cfg.openTtlSecs))
        return ()
      else
        return ()

/-! ## The proxies -/

/-- What the client gets: the answer of the service, `Service Not Available`, an internal error or
`UPSTREAM_ERROR`. -/
inductive Response where
  | answered
  | serviceBusy
  | internalError
  | upstreamError
  deriving DecidableEq

def attempt (what : Call) : Request Attempt :=
  Prog.perform (Cmd.call what)

def proxyRequest (cfg : Settings) : Request Response := do
  if ← allowRequest then
    match ← attempt .build with
    | .done =>
        match ← attempt .execute with
        | .done =>
            recordSuccess
            return .answered
        | .unreachable =>
            recordFailure cfg
            return .serviceBusy
        | .failed => return .upstreamError
    | _ => return .internalError
  else
    return .serviceBusy

def proxyToSearchServer (cfg : Settings) : Request Response := do
  if ← allowRequest then
    match ← attempt .connect with
    | .done =>
        match ← attempt .search with
        | .done =>
            recordSuccess
            return .answered
        | _ =>
            recordFailure cfg
            return .serviceBusy
    | _ =>
        recordFailure cfg
        return .serviceBusy
  else
    return .serviceBusy

/-! ## The replicas -/

/-- The two proxies. -/
inductive Proxy where
  | http
  | search
  deriving DecidableEq

def Proxy.program (cfg : Settings) : Proxy → Request Response
  | .http => proxyRequest cfg
  | .search => proxyToSearchServer cfg

/-- Time passes, or a replica receives a request. -/
inductive Environ where
  | tick (seconds : ℕ)
  | request (proxy : Proxy)
  deriving DecidableEq

def environ (cfg : Settings) : Environ → Store → Option (Store × List (Proxy × Request Response))
  | .tick seconds, s => some ({ s with now := s.now + seconds }, [])
  | .request proxy, s => some (s, [(proxy, proxy.program cfg)])

/-- No key is set. -/
def Store.Fresh (s : Store) : Prop :=
  s.state = none ∧ s.openUntil = none ∧ s.failures = 0

/-- The requests of any number of replicas for the service. -/
def machine (cfg : Settings) : Machine Store Rep Proxy Response Outcome Environ where
  init s := s.Fresh
  exec _ := exec
  environ := environ cfg
  close _ s := s

/-! ## Single commands -/

section Exec

variable {i : ℕ} {e : Outcome} {op : Op} {s t : Store}

theorem exec_redis {q : Query} {r : Option q.Reply} (h : exec i e (.redis op q) s = some (t, r)) :
    ∃ l, e = .link l ∧ l.deliver q.run s = (t, r) := by
  cases e with
  | link l => exact ⟨l, rfl, Option.some.inj h⟩
  | answer attempt => cases h

theorem exec_now {r : ℤ} (h : exec i e (.now op) s = some (t, r)) : t = s ∧ r = s.now := by
  cases e with
  | link l =>
      obtain ⟨rfl, rfl⟩ := Prod.mk.inj (Option.some.inj h)
      exact ⟨rfl, rfl⟩
  | answer attempt => cases h

theorem exec_call {what : Call} {r : Attempt} (h : exec i e (.call what) s = some (t, r)) :
    t = s ∧ e = .answer r := by
  cases e with
  | link l => cases h
  | answer attempt =>
      obtain ⟨rfl, rfl⟩ := Prod.mk.inj (Option.some.inj h)
      exact ⟨rfl, rfl⟩

/-- A command keeps the state, or writes it where the request is not lost. -/
theorem exec_state {c : Cmd} {r : Rep c} (h : exec i e c s = some (t, r)) :
    t.state = s.state ∨ ∃ op state, c = .redis op (.setState state) ∧ e ≠ .link .lost ∧
      t.state = some state := by
  cases c with
  | redis op q =>
      obtain ⟨l, rfl, hdeliver⟩ := exec_redis h
      rcases Link.deliver_cases hdeliver with ⟨rfl, -⟩ | ⟨rfl, -⟩
      · exact .inl rfl
      · cases q with
        | setState state =>
            cases l with
            | lost =>
                obtain ⟨hs, -⟩ := Prod.mk.inj hdeliver
                exact .inl (congrArg Store.state hs.symm)
            | ok => exact .inr ⟨op, state, rfl, nofun, rfl⟩
            | unacked => exact .inr ⟨op, state, rfl, nofun, rfl⟩
        | _ => exact .inl rfl
  | now op => exact .inl (congrArg Store.state (exec_now h).1)
  | call what => exact .inl (congrArg Store.state (exec_call h).1)

theorem state_of_set {state : State} {r : Option Unit}
    (h : exec i e (.redis op (.setState state)) s = some (t, r)) (hlost : e ≠ .link .lost) :
    t.state = some state := by
  obtain ⟨l, rfl, hdeliver⟩ := exec_redis h
  cases l with
  | lost => exact absurd rfl hlost
  | ok => exact congrArg Store.state (Prod.mk.inj hdeliver).1.symm
  | unacked => exact congrArg Store.state (Prod.mk.inj hdeliver).1.symm

/-- No command moves the clock. -/
theorem exec_clock {c : Cmd} {r : Rep c} (h : exec i e c s = some (t, r)) : t.now = s.now := by
  cases c with
  | redis op q =>
      obtain ⟨l, rfl, hdeliver⟩ := exec_redis h
      rcases Link.deliver_cases hdeliver with ⟨rfl, -⟩ | ⟨rfl, -⟩
      · rfl
      · cases q <;> rfl
  | now op => exact congrArg Store.now (exec_now h).1
  | call what => exact congrArg Store.now (exec_call h).1

end Exec

/-! ## The answer of `allowRequest` -/

/-- The command by which a call is answered `true`: Redis fails, the state read is not `OPEN`, or
`HALF_OPEN` has been sent. -/
def LetsThrough (s : Store) (e : Outcome) : Cmd → Prop
  | .redis .allowRequest .connect => e ≠ .link .ok
  | .redis .allowRequest .getState => ¬ (e = .link .ok ∧ s.state = some .opened)
  | .redis .allowRequest (.setState _) => True
  | _ => False

instance {s : Store} {e : Outcome} {c : Cmd} : Decidable (LetsThrough s e c) := by
  unfold LetsThrough
  split <;> infer_instance

/-- The program answers `true` after the commands that let through, and after no others. -/
def Tells : Request Bool → Prop
  | .ret _ => True
  | .call c k => ∀ i e s t r, exec i e c s = some (t, r) →
      (LetsThrough s e c ↔ k r = .ret true) ∧ Tells (k r)

/-- The rest of a call that has found the breaker open and read when that ends. -/
def checkingClock (openUntil : Option (Option ℤ)) : Request Bool :=
  .call (.now .allowRequest) fun now =>
    if now < (openUntil.getD (some 0)).getD 0 then .ret false
    else .call (.redis .allowRequest (.setState .halfOpened)) fun _ => .ret true

/-- The rest of a call that has read the state. -/
def checkingState (currentState : Option (Option State)) : Request Bool :=
  if (currentState.getD none).getD .closed = .opened then
    .call (.redis .allowRequest .getOpenUntil) checkingClock
  else
    .ret true

theorem allowRequest_eq : allowRequest = .call (.redis .allowRequest .connect) fun
    | none => .ret true
    | some () => .call (.redis .allowRequest .getState) checkingState := by
  refine congrArg (Prog.call _) (funext fun r => ?_)
  cases r with
  | none => rfl
  | some _ =>
      refine congrArg (Prog.call _) (funext fun currentState => ?_)
      unfold checkingState
      dsimp only [Prog.perform, Prog.bind]
      split_ifs
      · refine congrArg (Prog.call _) (funext fun openUntil => ?_)
        refine congrArg (Prog.call _) (funext fun now => ?_)
        dsimp only [Prog.perform, Prog.bind]
        split_ifs <;> rfl
      · rfl

theorem tells_checkingClock (openUntil : Option (Option ℤ)) : Tells (checkingClock openUntil) := by
  refine fun i e s t now _ => ?_
  dsimp only
  split_ifs
  · exact ⟨⟨nofun, nofun⟩, trivial⟩
  · exact ⟨⟨nofun, nofun⟩, fun _ _ _ _ _ _ => ⟨⟨fun _ => rfl, fun _ => trivial⟩, trivial⟩⟩

/-- The reply to `GET` says `OPEN` where it arrives and the breaker is open. -/
theorem opened_iff {i : ℕ} {e : Outcome} {op : Op} {s t : Store} {r : Option (Option State)}
    (h : exec i e (.redis op .getState) s = some (t, r)) :
    (r.getD none).getD .closed = .opened ↔ e = .link .ok ∧ s.state = some .opened := by
  obtain ⟨l, rfl, hdeliver⟩ := exec_redis h
  cases l with
  | ok =>
      obtain ⟨-, rfl⟩ := Prod.mk.inj hdeliver
      show s.state.getD .closed = .opened ↔ _
      cases s.state with
      | none => exact ⟨nofun, fun h => by cases h.2⟩
      | some state => exact ⟨fun h => ⟨rfl, congrArg some h⟩, fun h => Option.some.inj h.2⟩
  | lost =>
      obtain ⟨-, rfl⟩ := Prod.mk.inj hdeliver
      exact ⟨nofun, fun h => by cases h.1⟩
  | unacked =>
      obtain ⟨-, rfl⟩ := Prod.mk.inj hdeliver
      exact ⟨nofun, fun h => by cases h.1⟩

theorem tells_allowRequest : Tells allowRequest := by
  rw [allowRequest_eq]
  intro i e s t r hconnect
  obtain ⟨l, rfl, hdeliver⟩ := exec_redis hconnect
  cases l with
  | ok =>
      obtain ⟨-, rfl⟩ := Prod.mk.inj hdeliver
      refine ⟨⟨fun h => absurd rfl h, nofun⟩, fun j e' s' t' r' hget => ?_⟩
      have hopened := opened_iff hget
      show (¬ (e' = .link .ok ∧ s'.state = some .opened) ↔ _) ∧ _
      rw [← hopened]
      unfold checkingState
      split_ifs with h
      · exact ⟨⟨fun hnot => absurd h hnot, nofun⟩,
          fun _ _ _ _ openUntil _ => ⟨⟨nofun, nofun⟩, tells_checkingClock openUntil⟩⟩
      · exact ⟨⟨fun _ => rfl, fun _ => h⟩, trivial⟩
  | lost =>
      obtain ⟨-, rfl⟩ := Prod.mk.inj hdeliver
      exact ⟨⟨fun _ => rfl, fun _ => nofun⟩, trivial⟩
  | unacked =>
      obtain ⟨-, rfl⟩ := Prod.mk.inj hdeliver
      exact ⟨⟨fun _ => rfl, fun _ => nofun⟩, trivial⟩

/-! ## After the answer -/

/-- A command of a proxy after the answer. -/
def Cmd.Records : Cmd → Prop
  | .redis .allowRequest _ => False
  | .redis .recordSuccess (.setState state) => state = .closed
  | .redis .recordFailure (.setState state) => state = .opened
  | .redis _ _ => True
  | .now op => op = .recordFailure
  | .call _ => True

theorem issues_recordSuccess : recordSuccess.Issues Cmd.Records := by
  refine ⟨trivial, fun r => ?_⟩
  cases r with
  | none => trivial
  | some _ => exact ⟨trivial, fun _ => ⟨trivial, fun _ => ⟨rfl, fun _ => trivial⟩⟩⟩

theorem issues_recordFailure (cfg : Settings) : (recordFailure cfg).Issues Cmd.Records := by
  refine ⟨trivial, fun r => ?_⟩
  cases r with
  | none => trivial
  | some _ =>
      refine ⟨trivial, fun _ => ⟨trivial, fun _ => ?_⟩⟩
      dsimp only [Prog.perform, Prog.bind]
      split_ifs
      · exact ⟨rfl, fun _ => ⟨rfl, fun _ => ⟨trivial, fun _ => trivial⟩⟩⟩
      · trivial

/-- What a proxy does once its request has been let through. -/
def Proxy.forward (cfg : Settings) : Proxy → Request Response
  | .http => do
      match ← attempt .build with
      | .done =>
          match ← attempt .execute with
          | .done =>
              recordSuccess
              return .answered
          | .unreachable =>
              recordFailure cfg
              return .serviceBusy
          | .failed => return .upstreamError
      | _ => return .internalError
  | .search => do
      match ← attempt .connect with
      | .done =>
          match ← attempt .search with
          | .done =>
              recordSuccess
              return .answered
          | _ =>
              recordFailure cfg
              return .serviceBusy
      | _ =>
          recordFailure cfg
          return .serviceBusy

theorem program_eq (cfg : Settings) (proxy : Proxy) : proxy.program cfg =
    allowRequest >>= fun
      | true => proxy.forward cfg
      | false => .ret .serviceBusy := by
  cases proxy with
  | http =>
      refine congrArg (allowRequest >>= ·) (funext fun allowed => ?_)
      cases allowed <;> rfl
  | search =>
      refine congrArg (allowRequest >>= ·) (funext fun allowed => ?_)
      cases allowed <;> rfl

theorem issues_forward (cfg : Settings) (proxy : Proxy) :
    (proxy.forward cfg).Issues Cmd.Records := by
  have hret : ∀ response : Response, (Prog.ret response : Request Response).Issues Cmd.Records :=
    fun _ => trivial
  cases proxy with
  | http =>
      refine ⟨trivial, fun built => ?_⟩
      cases built with
      | done =>
          refine ⟨trivial, fun executed => ?_⟩
          cases executed with
          | done => exact issues_recordSuccess.bind fun _ => hret _
          | unreachable => exact (issues_recordFailure cfg).bind fun _ => hret _
          | failed => trivial
      | unreachable => trivial
      | failed => trivial
  | search =>
      refine ⟨trivial, fun connected => ?_⟩
      cases connected with
      | done =>
          refine ⟨trivial, fun searched => ?_⟩
          cases searched with
          | done => exact issues_recordSuccess.bind fun _ => hret _
          | unreachable => exact (issues_recordFailure cfg).bind fun _ => hret _
          | failed => exact (issues_recordFailure cfg).bind fun _ => hret _
      | unreachable => exact (issues_recordFailure cfg).bind fun _ => hret _
      | failed => exact (issues_recordFailure cfg).bind fun _ => hret _

/-! ### Settings and runs -/

/-- One failure trips the breaker for a minute. -/
def minute : Settings where
  failureThreshold := 1
  openTtlSecs := 60

def noKeys : Store where
  state := none
  openUntil := none
  failures := 0
  now := 1000

/-- A number of commands of a request, each of which gets through. -/
def commands (i n : ℕ) : List (Act Outcome Environ) :=
  List.replicate n (.run i (.link .ok))

/-- Request 0 finds the service unreachable and has set the state to `OPEN`. -/
def tripsFirst : List (Act Outcome Environ) :=
  .environ (.request .http) :: commands 0 2 ++
    [.run 0 (.answer .done), .run 0 (.answer .unreachable)] ++ commands 0 5

end Circuit
end Bookit

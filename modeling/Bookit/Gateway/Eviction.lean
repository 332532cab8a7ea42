import Bookit.Lib.Stages
import Mathlib.Data.Finset.Card

/-!
# Gateway.Eviction — requests, idle eviction and closing at one show actor

A request counts itself in and looks at the closing flag before and after; an eviction raises the
flag, looks at the count and takes the flag back where it finds a request; `mark_schedule_closed`
raises the flag for good.  Any number of each run side by side, an atomic step at a time.

An eviction that succeeds leaves no request behind and lets none in afterwards, in every run.  The flag
of a closed schedule stays raised in the runs in which no eviction takes it back.
-/

namespace Bookit
namespace Gateway
namespace Eviction

open Lib

/-! ## The actor -/

/-- `ACTOR_IDLE_TTL`, in seconds. -/
def actorIdleTtl : ℕ := 2 * 60 * 60

/-- The fields of a show actor that requests and closers share, and the clock, in seconds. -/
structure ActorFlags where
  now : ℕ
  lastAccess : ℕ
  inFlight : ℕ
  closing : Bool
  deriving DecidableEq

def newActor (now : ℕ) : ActorFlags :=
  { now := now, lastAccess := now, inFlight := 0, closing := false }

/-- The atomic steps. -/
inductive FlagCmd where
  | loadClosing
  | storeClosing (closing : Bool)
  /-- `compare_exchange(false, true)`. -/
  | casClosing
  | fetchAddInFlight
  | fetchSubInFlight
  | loadInFlight
  | loadLastAccess
  /-- `store(unix_now())`. -/
  | storeLastAccess
  deriving DecidableEq

abbrev FlagRep : FlagCmd → Type
  | .loadClosing | .casClosing => Bool
  | .loadInFlight | .loadLastAccess => ℕ
  | _ => Unit

def perform : (c : FlagCmd) → ActorFlags → ActorFlags × FlagRep c
  | .loadClosing, s => (s, s.closing)
  | .storeClosing closing, s => ({ s with closing := closing }, ())
  | .casClosing, s => if s.closing then (s, false) else ({ s with closing := true }, true)
  | .fetchAddInFlight, s => ({ s with inFlight := s.inFlight + 1 }, ())
  | .fetchSubInFlight, s => ({ s with inFlight := s.inFlight - 1 }, ())
  | .loadInFlight, s => (s, s.inFlight)
  | .loadLastAccess, s => (s, s.lastAccess)
  | .storeLastAccess, s => ({ s with lastAccess := s.now }, ())

/-! ## The functions -/

abbrev Flagged := Prog FlagRep

def beginRequest : Flagged (Except String Unit) := do
  if ← Prog.perform FlagCmd.loadClosing then
    pure (.error "show actor is closing")
  else do
    Prog.perform FlagCmd.fetchAddInFlight
    if ← Prog.perform FlagCmd.loadClosing then do
      Prog.perform FlagCmd.fetchSubInFlight
      pure (.error "show actor is closing")
    else do
      Prog.perform FlagCmd.storeLastAccess
      pure (.ok ())

/-- The drop of a lease. -/
def dropLease : Flagged Unit := do
  Prog.perform FlagCmd.storeLastAccess
  Prog.perform FlagCmd.fetchSubInFlight

def tryBeginIdleEviction (now : ℕ) : Flagged Bool := do
  let lastAccess ← Prog.perform FlagCmd.loadLastAccess
  if now - lastAccess < actorIdleTtl then
    pure false
  else do
    if ← Prog.perform FlagCmd.casClosing then do
      let inFlight ← Prog.perform FlagCmd.loadInFlight
      if inFlight = 0 then
        pure true
      else do
        Prog.perform (FlagCmd.storeClosing false)
        pure false
    else
      pure false

/-- What `mark_schedule_closed` does to the actor that it has taken out of the map. -/
def markScheduleClosed : Flagged Unit :=
  Prog.perform (FlagCmd.storeClosing true)

/-! ## The machine -/

/-- What a thread was started for. -/
inductive Task where
  | request
  | eviction (now : ℕ)
  | closing
  deriving DecidableEq

inductive Result where
  /-- The request was let in and has dropped its lease. -/
  | served
  | refused (e : String)
  | evicted (r : Bool)
  | closed
  deriving DecidableEq

inductive Environ where
  | tick (d : ℕ)
  | request
  | evict (now : ℕ)
  | close
  deriving DecidableEq

/-- A request with its lease, which it drops at any later time. -/
def requestTask : Flagged Result := do
  match ← beginRequest with
  | .error e => pure (.refused e)
  | .ok () => do
      dropLease
      pure .served

def evictionTask (now : ℕ) : Flagged Result := do
  let r ← tryBeginIdleEviction now
  pure (.evicted r)

def closingTask : Flagged Result := do
  markScheduleClosed
  pure .closed

def environ : Environ → ActorFlags → Option (ActorFlags × List (Task × Flagged Result))
  | .tick d, s => some ({ s with now := s.now + d }, [])
  | .request, s => some (s, [(.request, requestTask)])
  | .evict now, s => some (s, [(.eviction now, evictionTask now)])
  | .close, s => some (s, [(.closing, closingTask)])

/-- The threads at one actor. -/
def threads : Machine ActorFlags FlagRep Task Result Unit Environ where
  init s := ∃ now, s = newActor now
  exec _ _ _ c s := some (perform c s)
  environ := environ
  close _ s := s

/-! ## How far a thread has come -/

inductive Stage where
  | started
  /-- The request has found the flag down. -/
  | entering
  /-- It has counted itself in. -/
  | counted
  /-- It has found the flag up after all. -/
  | turnedAway
  /-- It has found the flag still down, and has to store the time of its access. -/
  | admitted
  /-- `begin_request` has succeeded: the lease is live. -/
  | leased
  /-- The lease is being dropped. -/
  | dropping
  | dropped
  /-- The eviction has seen the time of the last access. -/
  | looked
  /-- It has raised the flag. -/
  | raised
  /-- It has found a request in flight. -/
  | undoing
  /-- It has found none. -/
  | evicted
  /-- `mark_schedule_closed` has stored the flag. -/
  | closed
  /-- The thread has come to its end with nothing done. -/
  | ended
  deriving DecidableEq

def stageAfter (b : Stage) : (c : FlagCmd) → FlagRep c → Stage
  | .loadClosing, r =>
      match b with
      | .started => if r then .ended else .entering
      | _ => if r then .turnedAway else .admitted
  | .storeClosing r, _ => if r then .closed else .ended
  | .casClosing, r => if r then .raised else .ended
  | .fetchAddInFlight, _ => .counted
  | .fetchSubInFlight, _ =>
      match b with
      | .dropping => .dropped
      | _ => .ended
  | .loadInFlight, n => if n = 0 then .evicted else .undoing
  | .loadLastAccess, _ => .looked
  | .storeLastAccess, _ =>
      match b with
      | .admitted => .leased
      | _ => .dropping

/-- The next step of a thread. -/
inductive May : Task → Stage → FlagCmd → Prop where
  | look : May .request .started .loadClosing
  | count : May .request .entering .fetchAddInFlight
  | lookAgain : May .request .counted .loadClosing
  | uncount : May .request .turnedAway .fetchSubInFlight
  | access : May .request .admitted .storeLastAccess
  | drop : May .request .leased .storeLastAccess
  | leave : May .request .dropping .fetchSubInFlight
  | idle (now : ℕ) : May (.eviction now) .started .loadLastAccess
  | raise (now : ℕ) : May (.eviction now) .looked .casClosing
  | inspect (now : ℕ) : May (.eviction now) .raised .loadInFlight
  | undo (now : ℕ) : May (.eviction now) .undoing (.storeClosing false)
  | close : May .closing .started (.storeClosing true)

/-- What the stage of a thread at its end says of its value. -/
def Ends : Task → Result → Stage → Prop
  | .request, .served, b => b = .dropped
  | .request, .refused _, b => b = .ended
  | .eviction _, .evicted r, b => r = true → b = .evicted
  | .closing, .closed, b => b = .closed
  | _, _, _ => False

theorem follows_requestTask :
    requestTask.Follows (May .request) stageAfter (Ends .request) .started := by
  refine ⟨.look, fun r => ?_⟩
  cases r with
  | true => rfl
  | false =>
      refine ⟨.count, fun _ => ⟨.lookAgain, fun r => ?_⟩⟩
      cases r with
      | true => exact ⟨.uncount, fun _ => rfl⟩
      | false => exact ⟨.access, fun _ => ⟨.drop, fun _ => ⟨.leave, fun _ => rfl⟩⟩⟩

theorem follows_evictionTask (now : ℕ) :
    (evictionTask now).Follows (May (.eviction now)) stageAfter (Ends (.eviction now)) .started := by
  have hno : ∀ b, Prog.Follows (May (.eviction now)) stageAfter (Ends (.eviction now))
      (.ret (.evicted false)) b := fun b h => (nomatch h)
  refine ⟨.idle now, fun lastAccess => ?_⟩
  show Prog.Follows (May (.eviction now)) stageAfter (Ends (.eviction now))
    ((if now - lastAccess < actorIdleTtl then _ else _ : Flagged Bool) >>= fun r =>
      pure (.evicted r)) .looked
  split_ifs
  · exact hno _
  refine ⟨.raise now, fun r => ?_⟩
  cases r with
  | false => exact hno _
  | true =>
      refine ⟨.inspect now, fun inFlight => ?_⟩
      show Prog.Follows (May (.eviction now)) stageAfter (Ends (.eviction now))
        ((if inFlight = 0 then _ else _ : Flagged Bool) >>= fun r => pure (.evicted r))
        (if inFlight = 0 then .evicted else .undoing)
      split_ifs
      · exact fun _ => rfl
      · exact ⟨.undo now, fun _ => hno _⟩

theorem follows_closingTask :
    closingTask.Follows (May .closing) stageAfter (Ends .closing) .started :=
  ⟨.close, fun _ => rfl⟩

/-- The threads with their stages. -/
def machine : Machine (ActorFlags × (ℕ → Stage)) FlagRep Task Result Unit Environ :=
  threads.staged .started fun _ => stageAfter

abbrev ActorPool := Pool (ActorFlags × (ℕ → Stage)) FlagRep Task Result

/-! ## What a step does -/

namespace Stage

/-- The thread is counted in `in_flight`. -/
def counts : Stage → Bool
  | counted | turnedAway | admitted | leased | dropping => true
  | _ => false

/-- The flag is up on the thread's account. -/
def flags : Stage → Bool
  | raised | undoing | evicted => true
  | _ => false

/-- The request has found the flag down twice, and has not dropped its lease. -/
def letIn : Stage → Bool
  | admitted | leased | dropping => true
  | _ => false

/-- The lease is live. -/
def live : Stage → Bool
  | leased | dropping => true
  | _ => false

/-- `begin_request` has succeeded. -/
def succeeded : Stage → Bool
  | leased | dropping | dropped => true
  | _ => false

/-- The request has found the flag down at least once. -/
def entered : Stage → Bool
  | entering | counted | turnedAway | admitted | leased | dropping | dropped => true
  | _ => false

end Stage

/-- The steps of a thread, with the stages before and after. -/
inductive Moves (s : ActorFlags) : Stage → ActorFlags → Stage → Prop where
  | refuse : s.closing = true → Moves s .started s .ended
  | enter : s.closing = false → Moves s .started s .entering
  | count : Moves s .entering { s with inFlight := s.inFlight + 1 } .counted
  | turnAway : s.closing = true → Moves s .counted s .turnedAway
  | accept : s.closing = false → Moves s .counted s .admitted
  | uncount : Moves s .turnedAway { s with inFlight := s.inFlight - 1 } .ended
  | lease : Moves s .admitted { s with lastAccess := s.now } .leased
  | drop : Moves s .leased { s with lastAccess := s.now } .dropping
  | leave : Moves s .dropping { s with inFlight := s.inFlight - 1 } .dropped
  | look : Moves s .started s .looked
  | give : s.closing = true → Moves s .looked s .ended
  | raise : s.closing = false → Moves s .looked { s with closing := true } .raised
  | evict : s.inFlight = 0 → Moves s .raised s .evicted
  | find : Moves s .raised s .undoing
  | undo : Moves s .undoing { s with closing := false } .ended
  | close : Moves s .started { s with closing := true } .closed

theorem moves_of_may {n : Task} {b : Stage} {c : FlagCmd} (h : May n b c) (s : ActorFlags) :
    Moves s b (perform c s).1 (stageAfter b c (perform c s).2) := by
  cases h with
  | look =>
      show Moves s .started s (if s.closing = true then .ended else .entering)
      split_ifs with hc
      · exact .refuse hc
      · exact .enter (by simpa using hc)
  | count => exact .count
  | lookAgain =>
      show Moves s .counted s (if s.closing = true then .turnedAway else .admitted)
      split_ifs with hc
      · exact .turnAway hc
      · exact .accept (by simpa using hc)
  | uncount => exact .uncount
  | access => exact .lease
  | drop => exact .drop
  | leave => exact .leave
  | idle now => exact .look
  | raise now =>
      simp only [perform]
      split_ifs with hc
      · exact .give hc
      · exact .raise (by simpa using hc)
  | inspect now =>
      show Moves s .raised s (if s.inFlight = 0 then .evicted else .undoing)
      split_ifs with h0
      · exact .evict h0
      · exact .find
  | undo now => exact .undo
  | close => exact .close

/-! ## The invariant -/

/-- `in_flight` is the number of the threads that are counted. -/
def Counted (inFlight : ℕ) (stages : ℕ → Stage) : Prop :=
  ∃ holders : Finset ℕ, (∀ i, i ∈ holders ↔ (stages i).counts = true) ∧ inFlight = holders.card

/-- One eviction at a time has the flag up, and one that has succeeded has left no request. -/
structure Inv (s : ActorFlags × (ℕ → Stage)) : Prop where
  counted : Counted s.1.inFlight s.2
  sole : ∀ i j, (s.2 i).flags = true → (s.2 j).flags = true → i = j
  up : ∀ i, (s.2 i).flags = true → s.1.closing = true
  vacant : ∀ i j, s.2 i = .evicted → (s.2 j).letIn = false

section Steps

variable {stages : ℕ → Stage} {inFlight i : ℕ} {b : Stage}

theorem Counted.same (h : Counted inFlight stages) (hb : b.counts = (stages i).counts) :
    Counted inFlight (Function.update stages i b) := by
  obtain ⟨holders, hmem, hcard⟩ := h
  refine ⟨holders, fun j => ?_, hcard⟩
  rcases eq_or_ne j i with rfl | hne
  · rw [Function.update_self, hb, hmem]
  · rw [Function.update_of_ne hne, hmem]

theorem Counted.raise (h : Counted inFlight stages) (hout : (stages i).counts = false)
    (hb : b.counts = true) : Counted (inFlight + 1) (Function.update stages i b) := by
  obtain ⟨holders, hmem, rfl⟩ := h
  have hi : i ∉ holders := by simp [hmem, hout]
  refine ⟨insert i holders, fun j => ?_, (Finset.card_insert_of_notMem hi).symm⟩
  rcases eq_or_ne j i with rfl | hne
  · simp [hb]
  · rw [Finset.mem_insert, Function.update_of_ne hne, hmem]
    simp [hne]

theorem Counted.lower (h : Counted inFlight stages) (hin : (stages i).counts = true)
    (hb : b.counts = false) : Counted (inFlight - 1) (Function.update stages i b) := by
  obtain ⟨holders, hmem, rfl⟩ := h
  refine ⟨holders.erase i, fun j => ?_, (Finset.card_erase_of_mem ((hmem i).2 hin)).symm⟩
  rcases eq_or_ne j i with rfl | hne
  · simp [hb]
  · rw [Finset.mem_erase, Function.update_of_ne hne, hmem]
    simp [hne]

theorem Counted.none (h : Counted 0 stages) (j : ℕ) : (stages j).counts = false := by
  obtain ⟨holders, hmem, hcard⟩ := h
  rw [Finset.card_eq_zero.1 hcard.symm] at hmem
  simpa using (hmem j).not

theorem Stage.counts_of_letIn (h : b.letIn = true) : b.counts = true := by
  cases b <;> first | rfl | cases h

namespace Moves

variable {s t : ActorFlags} {b b' : Stage}

theorem counted (hm : Moves s b t b') (hi : stages i = b) (h : Counted s.inFlight stages) :
    Counted t.inFlight (Function.update stages i b') := by
  subst hi
  generalize hb : stages i = b at hm
  cases hm with
  | count => exact h.raise (by rw [hb]; rfl) rfl
  | uncount => exact h.lower (by rw [hb]; rfl) rfl
  | leave => exact h.lower (by rw [hb]; rfl) rfl
  | _ => exact h.same (by rw [hb]; rfl)

theorem flags (hm : Moves s b t b') (h : b'.flags = true) : b.flags = true ∨ s.closing = false := by
  cases hm with
  | raise hc => exact .inr hc
  | evict h0 => exact .inl rfl
  | find => exact .inl rfl
  | _ => cases h

theorem letIn (hm : Moves s b t b') (h : b'.letIn = true) : b.letIn = true ∨ s.closing = false := by
  cases hm with
  | accept hc => exact .inr hc
  | lease => exact .inl rfl
  | drop => exact .inl rfl
  | _ => cases h

theorem entered (hm : Moves s b t b') (h : b'.entered = true) :
    b.entered = true ∨ s.closing = false := by
  cases hm with
  | enter hc => exact .inr hc
  | count | turnAway | accept | lease | drop | leave => exact .inl rfl
  | _ => cases h

theorem inFlight_eq_zero (hm : Moves s b t b') (h : b' = .evicted) : s.inFlight = 0 := by
  cases hm with
  | evict h0 => exact h0
  | _ => cases h

/-- The flag goes down only where an eviction takes it back. -/
theorem closing (hm : Moves s b t b') (hc : s.closing = true) :
    t.closing = true ∨ (b = .undoing ∧ b' = .ended) := by
  cases hm with
  | undo => exact .inr ⟨rfl, rfl⟩
  | raise | close => exact .inl rfl
  | _ => exact .inl hc

theorem closing_of_flags (hm : Moves s b t b') (h : b'.flags = true) (hup : b.flags = true → s.closing = true) :
    t.closing = true := by
  cases hm with
  | raise => rfl
  | evict | find => exact hup rfl
  | _ => cases h

theorem closing_of_closed (hm : Moves s b t b') (h : b' = .closed) : t.closing = true := by
  cases hm with
  | close => rfl
  | _ => cases h

/-- Threads at their end make no step. -/
theorem ne_closed (hm : Moves s b t b') : b ≠ .closed ∧ b ≠ .evicted := by
  cases hm <;> exact ⟨nofun, nofun⟩

end Moves

theorem Inv.move {s : ActorFlags × (ℕ → Stage)} {t : ActorFlags} (hs : Inv s)
    (hm : Moves s.1 (s.2 i) t b) : Inv (t, Function.update s.2 i b) := by
  -- while a thread has the flag up, no other thread raises it
  have hother : ∀ j, j ≠ i → (s.2 j).flags = true → b.flags = true → False := by
    intro j hne hj hb
    rcases hm.flags hb with hi | hc
    · exact hne (hs.sole j i hj hi)
    · rw [hs.up j hj] at hc
      cases hc
  have hself : (t, Function.update s.2 i b).2 i = b := Function.update_self i b s.2
  have hne : ∀ j, j ≠ i → (t, Function.update s.2 i b).2 j = s.2 j :=
    fun j hj => Function.update_of_ne hj b s.2
  refine ⟨hm.counted rfl hs.counted, fun j k hj hk => ?_, fun j hj => ?_, fun j k hj => ?_⟩
  · rcases eq_or_ne j i with rfl | hji
    · rcases eq_or_ne k j with rfl | hkj
      · rfl
      · rw [hself] at hj
        rw [hne _ hkj] at hk
        exact (hother k hkj hk hj).elim
    · rw [hne _ hji] at hj
      rcases eq_or_ne k i with rfl | hki
      · rw [hself] at hk
        exact (hother j hji hj hk).elim
      · rw [hne _ hki] at hk
        exact hs.sole j k hj hk
  · rcases eq_or_ne j i with rfl | hji
    · rw [hself] at hj
      exact hm.closing_of_flags hj (hs.up j)
    · rw [hne _ hji] at hj
      rcases hm.closing (hs.up j hj) with ht | ⟨hi, -⟩
      · exact ht
      · exact absurd (hs.sole j i hj (by rw [hi]; rfl)) hji
  · by_contra hlet
    rw [Bool.not_eq_false] at hlet
    rcases eq_or_ne j i with rfl | hji
    · -- the eviction has just found no request in flight
      rw [hself] at hj
      have hnone := (hm.inFlight_eq_zero hj ▸ hs.counted).none k
      rcases eq_or_ne k j with rfl | hkj
      · rw [hself, hj] at hlet
        cases hlet
      · rw [hne _ hkj] at hlet
        rw [Stage.counts_of_letIn hlet] at hnone
        cases hnone
    · rw [hne _ hji] at hj
      have hup := hs.up j (by rw [hj]; rfl)
      rcases eq_or_ne k i with rfl | hki
      · rw [hself] at hlet
        rcases hm.letIn hlet with hk | hc
        · rw [hs.vacant j k hj] at hk
          cases hk
        · rw [hup] at hc
          cases hc
      · rw [hne _ hki, hs.vacant j k hj] at hlet
        cases hlet

end Steps

/-! ## Runs -/

section Runs

variable {G : ActorPool → Act Unit Environ → Prop} {p q : ActorPool}

/-- The threads that the environment starts follow their stages. -/
theorem follows_of_environ {x : Environ} {s t : ActorFlags} {new : List (Task × Flagged Result)}
    (h : environ x s = some (t, new)) :
    ∀ n r, (n, r) ∈ new → r.Follows (May n) stageAfter (Ends n) .started := by
  intro n r hr
  cases x with
  | tick d =>
      obtain ⟨rfl, rfl⟩ := Prod.mk.inj (Option.some.inj h)
      exact absurd hr List.not_mem_nil
  | request =>
      obtain ⟨rfl, rfl⟩ := Prod.mk.inj (Option.some.inj h)
      obtain ⟨rfl, rfl⟩ := Prod.mk.inj (List.mem_singleton.1 hr)
      exact follows_requestTask
  | evict now =>
      obtain ⟨rfl, rfl⟩ := Prod.mk.inj (Option.some.inj h)
      obtain ⟨rfl, rfl⟩ := Prod.mk.inj (List.mem_singleton.1 hr)
      exact follows_evictionTask now
  | close =>
      obtain ⟨rfl, rfl⟩ := Prod.mk.inj (Option.some.inj h)
      obtain ⟨rfl, rfl⟩ := Prod.mk.inj (List.mem_singleton.1 hr)
      exact follows_closingTask

theorem follows_of_run (h : machine.system.ReachableUnder G p) :
    ∀ i n r, p.Runs i n r → r.Follows (May n) stageAfter (Ends n) (p.store.2 i) :=
  Machine.follows_of_reachable (fun _ _ _ _ _ hx => follows_of_environ hx) h

/-- The environment leaves the flags as they are. -/
theorem flags_of_environ {x : Environ} {s t : ActorFlags} {new : List (Task × Flagged Result)}
    (h : environ x s = some (t, new)) : t.inFlight = s.inFlight ∧ t.closing = s.closing := by
  cases x <;>
    · obtain ⟨rfl, rfl⟩ := Prod.mk.inj (Option.some.inj h)
      exact ⟨rfl, rfl⟩

/-- A step leaves the flags and the stages alone, or is a step of one thread. -/
theorem step_cases (hp : machine.system.ReachableUnder G p) {a : Act Unit Environ}
    (h : machine.system.step p a = some q) :
    (q.store.2 = p.store.2 ∧ q.store.1.inFlight = p.store.1.inFlight ∧
      q.store.1.closing = p.store.1.closing) ∨
    ∃ i e b, a = .run i e ∧ Moves p.store.1 (p.store.2 i) q.store.1 b ∧
      q.store.2 = Function.update p.store.2 i b := by
  have h : machine.step p a = some q := h
  cases a with
  | environ x =>
      obtain ⟨s, ts, hs, rfl⟩ := Machine.step_environ h
      obtain ⟨hrun, hstages⟩ := Machine.staged_environ.1 hs
      exact .inl ⟨hstages, flags_of_environ hrun⟩
  | run i e =>
      obtain ⟨n, c, k, s, r, ht, hs, rfl⟩ := Machine.step_run h
      obtain ⟨hrun, hstages⟩ := Machine.staged_exec.1 hs
      have hrun : perform c p.store.1 = (s.1, r) := Option.some.inj hrun
      have hm := moves_of_may (follows_of_run hp i n _ ht).1 p.store.1
      rw [hrun] at hm
      exact .inr ⟨i, e, _, rfl, hm, hstages⟩
  | crash i =>
      obtain ⟨n, c, k, -, rfl⟩ := Machine.step_crash h
      exact .inl ⟨rfl, rfl, rfl⟩

theorem inv_of_run (h : machine.system.ReachableUnder G p) : Inv p.store := by
  induction h with
  | @init p h0 =>
      obtain ⟨⟨⟨now, hnow⟩, hstages⟩, -⟩ := h0
      have hstart : ∀ i, p.store.2 i = .started := congrFun hstages
      refine ⟨⟨∅, fun i => ?_, congrArg ActorFlags.inFlight hnow⟩, fun i j hi => ?_, fun i hi => ?_,
        fun i j hi => ?_⟩
      · rw [hstart]
        exact ⟨nofun, nofun⟩
      · rw [hstart] at hi
        cases hi
      · rw [hstart] at hi
        cases hi
      · rw [hstart] at hi
        cases hi
  | @step p q a hp _ hst ih =>
      rcases step_cases hp hst with ⟨hstages, hcount, hclosing⟩ | ⟨i, e, b, -, hm, hstages⟩
      · refine ⟨?_, ?_, fun i hi => ?_, ?_⟩
        · rw [hstages, hcount]
          exact ih.counted
        · rw [hstages]
          exact ih.sole
        · rw [hstages] at hi
          exact hclosing.trans (ih.up i hi)
        · rw [hstages]
          exact ih.vacant
      · have := ih.move hm
        rwa [← hstages] at this

/-! ### The flag of a closed schedule -/

/-- An eviction does not take the flag back once `mark_schedule_closed` has stored it. -/
def KeepsClosed (p : ActorPool) : Act Unit Environ → Prop
  | .run i _ => p.store.2 i = .undoing → ∀ j < p.threads.length, p.store.2 j ≠ .closed
  | _ => True

instance {p : ActorPool} {a : Act Unit Environ} : Decidable (KeepsClosed p a) :=
  match a with
  | .run i _ => inferInstanceAs
      (Decidable (p.store.2 i = .undoing → ∀ j < p.threads.length, p.store.2 j ≠ .closed))
  | .environ _ => isTrue trivial
  | .crash _ => isTrue trivial

/-- A thread that has made a step has been started. -/
theorem lt_of_stage (hp : machine.system.ReachableUnder G p) {j : ℕ} (hj : p.store.2 j ≠ .started) :
    j < p.threads.length := by
  by_contra hlen
  exact hj (Machine.unstarted_of_reachable hp j (Nat.not_lt.1 hlen))

theorem closing_of_closed (h : machine.system.ReachableUnder KeepsClosed p) :
    ∀ j, p.store.2 j = .closed → p.store.1.closing = true := by
  induction h with
  | init h0 =>
      obtain ⟨⟨-, hstages⟩, -⟩ := h0
      intro j hj
      rw [hstages] at hj
      cases hj
  | @step p q a hp hG hst ih =>
      intro j hj
      rcases step_cases hp hst with ⟨hstages, -, hclosing⟩ | ⟨i, e, b, rfl, hm, hstages⟩
      · rw [hstages] at hj
        exact hclosing.trans (ih j hj)
      · rw [hstages] at hj
        rcases eq_or_ne j i with rfl | hne
        · rw [Function.update_self] at hj
          exact hm.closing_of_closed hj
        · rw [Function.update_of_ne hne] at hj
          rcases hm.closing (ih j hj) with hc | ⟨hundo, -⟩
          · exact hc
          · -- the guard does not let the eviction take the flag back
            exact absurd hj (hG hundo j (lt_of_stage hp (by rw [hj]; nofun)))

/-! ### What follows a raised flag -/

/-- Threads at their end stay there. -/
theorem stays {b : Stage} (hb : b = .closed ∨ b = .evicted) (hp : machine.system.ReachableUnder G p)
    {j : ℕ} (hj : p.store.2 j = b) (hq : (machine.system.startingAt p).ReachableUnder G q) :
    q.store.2 j = b := by
  induction hq with
  | init h0 => exact h0 ▸ hj
  | @step q u a hq _ hst ih =>
      rcases step_cases (hp.of_startingAt hq) hst with ⟨hstages, -⟩ | ⟨i, e, b', -, hm, hstages⟩
      · rw [hstages]
        exact ih
      · have hne : j ≠ i := by
          rintro rfl
          obtain ⟨hclosed, hevicted⟩ := hm.ne_closed
          rcases hb with rfl | rfl
          · exact hclosed ih
          · exact hevicted ih
        rw [hstages, Function.update_of_ne hne]
        exact ih

/-- While the flag is up throughout, no request enters that has not begun. -/
theorem shut_out (hp : machine.system.ReachableUnder G p)
    (hup : ∀ u, (machine.system.startingAt p).ReachableUnder G u → u.store.1.closing = true)
    (hq : (machine.system.startingAt p).ReachableUnder G q) {i : ℕ}
    (hi : p.store.2 i = .started) : (q.store.2 i).entered = false := by
  induction hq with
  | init h0 =>
      rw [h0, hi]
      rfl
  | @step q u a hq _ hst ih =>
      rcases step_cases (hp.of_startingAt hq) hst with ⟨hstages, -⟩ | ⟨j, e, b, -, hm, hstages⟩
      · rw [hstages]
        exact ih
      · rw [hstages]
        rcases eq_or_ne i j with rfl | hne
        · rw [Function.update_self]
          by_contra hin
          rcases hm.entered (by simpa using hin) with h | h
          · rw [ih] at h
            cases h
          · rw [hup q hq] at h
            cases h
        · rw [Function.update_of_ne hne]
          exact ih

/-- `mark_schedule_closed` has stored its flag. -/
def Marked (p : ActorPool) : Prop :=
  ∃ j, p.result j = some (.closing, .closed)

/-- A call of `try_begin_idle_eviction` has returned true. -/
def Evicted (p : ActorPool) : Prop :=
  ∃ j now, p.result j = some (.eviction now, .evicted true)

/-- No `begin_request` that has not begun in `p` has succeeded in `q`. -/
def ShutOut (p q : ActorPool) : Prop :=
  ∀ i, p.store.2 i = .started → (q.store.2 i).succeeded = false

theorem Stage.not_succeeded {b : Stage} (h : b.entered = false) : b.succeeded = false := by
  cases b <;> first | rfl | cases h

theorem Stage.live_le_letIn {b : Stage} (h : b.letIn = false) : b.live = false := by
  cases b <;> first | rfl | cases h

theorem shutOut_of_closing (hp : machine.system.ReachableUnder G p)
    (hup : ∀ u, (machine.system.startingAt p).ReachableUnder G u → u.store.1.closing = true)
    (hq : (machine.system.startingAt p).ReachableUnder G q) : ShutOut p q :=
  fun _ hi => Stage.not_succeeded (shut_out hp hup hq hi)

theorem shutOut_of_marked (hp : machine.system.ReachableUnder KeepsClosed p)
    (hq : (machine.system.startingAt p).ReachableUnder KeepsClosed q) (hm : Marked p) :
    ShutOut p q := by
  obtain ⟨j, hj⟩ := hm
  have hclosed : p.store.2 j = .closed := follows_of_run hp j _ _ (Pool.result_eq_some.1 hj)
  refine shutOut_of_closing hp (fun u hu => ?_) hq
  exact closing_of_closed (hp.of_startingAt hu) j (stays (.inl rfl) hp hclosed hu)

theorem shutOut_of_evicted (hp : machine.system.ReachableUnder G p)
    (hq : (machine.system.startingAt p).ReachableUnder G q) (he : Evicted p) :
    (∀ i, (p.store.2 i).live = false) ∧ ShutOut p q := by
  obtain ⟨j, now, hj⟩ := he
  have hevicted : p.store.2 j = .evicted :=
    follows_of_run hp j _ _ (Pool.result_eq_some.1 hj) rfl
  refine ⟨fun i => Stage.live_le_letIn ((inv_of_run hp).vacant j i hevicted), ?_⟩
  refine shutOut_of_closing hp (fun u hu => ?_) hq
  have hstill := stays (.inr rfl) hp hevicted hu
  exact (inv_of_run (hp.of_startingAt hu)).up j (by rw [hstill]; rfl)

end Runs

/-- A closed actor lets no later request in where no eviction takes the flag back; an evicted one has
no live lease and lets no later request in, in every run. -/
theorem closed_or_evicted_shut_out (p q : ActorPool) :
    (machine.system.ReachableUnder KeepsClosed p →
      (machine.system.startingAt p).ReachableUnder KeepsClosed q → Marked p → ShutOut p q) ∧
    (machine.system.Reachable p → (machine.system.startingAt p).Reachable q → Evicted p →
      (∀ i, (p.store.2 i).live = false) ∧ ShutOut p q) :=
  ⟨shutOut_of_marked, shutOut_of_evicted⟩

/-! ### Runs on fixed inputs -/

def steps (i n : ℕ) : List (Act Unit Environ) :=
  List.replicate n (.run i ())

/-- An actor is idle for two hours and evicted; its schedule is closed. -/
def evictedAndClosed : List (Act Unit Environ) :=
  .environ (.tick 7200) :: .environ (.evict 7200) :: steps 0 3 ++ .environ .close :: steps 1 1

/-- A request comes after that. -/
theorem closed_or_evicted_shut_out_late :
    ∃ p q : ActorPool, Marked p ∧ Evicted p ∧ (∀ i, (p.store.2 i).live = false) ∧ ShutOut p q ∧
      q.result 2 = some (.request, .refused "show actor is closing") := by
  obtain ⟨p, q, hp, hq, h⟩ := System.exists_reachable_pair_of_runUnder machine.system KeepsClosed
    (fun p q => decide (p.result 1 = some (.closing, .closed) ∧
      p.result 0 = some (.eviction 7200, .evicted true) ∧
        q.result 2 = some (.request, .refused "show actor is closing")))
    (s := ⟨(newActor 0, fun _ => .started), []⟩) ⟨⟨⟨0, rfl⟩, rfl⟩, rfl⟩ evictedAndClosed
    (.environ .request :: steps 2 1) (by decide +kernel)
  obtain ⟨hmarked, hevicted, hrefused⟩ := of_decide_eq_true h
  have hp' := hp.reachable
  have hq' := hq.reachable
  have hboth := closed_or_evicted_shut_out p q
  exact ⟨p, q, ⟨1, hmarked⟩, ⟨0, 7200, hevicted⟩, (hboth.2 hp' hq' ⟨0, 7200, hevicted⟩).1,
    hboth.1 hp hq ⟨1, hmarked⟩, hrefused⟩

/-- An eviction raises the flag next to a request that has just come in; the schedule is closed before
the eviction has looked at the count. -/
def closedDuringEviction : List (Act Unit Environ) :=
  .environ (.tick 7200) :: .environ (.evict 7200) :: steps 0 1 ++ .environ .request :: steps 1 2 ++
    steps 0 2 ++ .environ .close :: steps 2 1

/-- The eviction takes the flag back, and a request is let in after the schedule was closed. -/
theorem closed_lets_in :
    ∃ p q : ActorPool, machine.system.Reachable p ∧ (machine.system.startingAt p).Reachable q ∧
      Marked p ∧ ¬ShutOut p q := by
  obtain ⟨p, q, hp, hq, h⟩ := System.exists_reachable_pair_of_runUnder machine.system
    (fun _ _ => True)
    (fun p q => decide (p.result 2 = some (.closing, .closed) ∧ p.store.2 3 = .started ∧
      (q.store.2 3).succeeded = true))
    (s := ⟨(newActor 0, fun _ => .started), []⟩) ⟨⟨⟨0, rfl⟩, rfl⟩, rfl⟩ closedDuringEviction
    (steps 0 1 ++ .environ .request :: steps 3 4) (by decide +kernel)
  obtain ⟨hmarked, hstarted, hlet⟩ := of_decide_eq_true h
  refine ⟨p, q, hp, hq, ⟨2, hmarked⟩, fun hshut => ?_⟩
  rw [hshut 3 hstarted] at hlet
  cases hlet

end Eviction
end Gateway
end Bookit

import Bookit.Gateway.Effects
import Bookit.Lib.Stages

/-!
# Gateway.ExpiryWorkers — due entries and the locks of other users

Two kinds of worker handle the due entries of the delayed queue.  The gateway's asks for the owner
first and leaves the lock of another user alone; the lock-server's runs the release script and cleans
up whatever the script answered.  A stage says how far a worker has come with its entry, and whether
it is past its check.
-/

namespace Bookit
namespace Gateway

open Lib LockServer SingleNodeLock

/-! ## The stages of a worker -/

/-- The entry that a worker handles. -/
def Task.entry : Task → Option QueueEntry
  | .updater entry => some entry
  | .expiry _ entry => some entry
  | _ => none

/-- A worker asks the database and for the owner; it has found the seat booked; it has found another
owner; it has been let through to the seat. -/
inductive WorkerStage where
  | checking
  | booking
  | refused
  | through
  deriving DecidableEq

namespace WorkerStage

/-- The stage after the answer of `GET` on the lock key. -/
def afterOwner (entry : QueueEntry) : Option ℤ → WorkerStage
  | none => .through
  | some owner => if owner = entry.userId then .through else .refused

/-- Without a connection, a worker passes its check, or does not come to book the seat. -/
def afterConnect : WorkerStage → Option Unit → WorkerStage
  | .checking, none => .through
  | .booking, none => .refused
  | b, _ => b

/-- A script lets its worker through whatever it answers. -/
def next (entry : QueueEntry) (b : WorkerStage) : (c : Cmd) → Rep c → WorkerStage
  | .service (.redis (.eval ..)), _ => .through
  | .service (.redis .connect), r => b.afterConnect r
  | .service (.redis (.getLock ..)), r =>
      if b = .checking then afterOwner entry (Option.join (r : Option (Option ℤ))) else b
  | .service (.bookedCount ..), r =>
      if b = .checking ∧ 0 < Option.getD (r : Option ℕ) 0 then .booking else b
  | .service (.activeTicketCount _), r =>
      if b = .checking ∧ 0 < Option.getD (r : Option ℕ) 0 then .booking else b
  | _, _ => b

theorem next_through {entry : QueueEntry} {c : Cmd} (r : Rep c) :
    next entry .through c r = .through := by
  unfold next
  split
  · rfl
  · next r => cases r <;> rfl
  all_goals simp

end WorkerStage

def workerNext (n : Task) (b : WorkerStage) (c : Cmd) (r : Rep c) : WorkerStage :=
  match n.entry with
  | none => b
  | some entry => b.next entry c r

/-- The Redis commands of a worker, all of them for its entry. -/
def WorkerCmd (e : QueueEntry) : Redis.Cmd → Prop
  | .connect => True
  | .getLock .. => True
  | .existsCheckout .. => True
  | .eval script showtimeId seatId userId entry =>
      script.Deletes ∧ showtimeId = e.scheduleId ∧ seatId = e.seatId ∧ userId = e.userId ∧ entry = e
  | .zremUser showtimeId userId seatId =>
      showtimeId = e.scheduleId ∧ seatId = e.seatId ∧ userId = e.userId
  | .zremRoom showtimeId seatId userId =>
      showtimeId = e.scheduleId ∧ seatId = e.seatId ∧ userId = e.userId
  | .zaddQueue entry _ => entry = e
  | .zremQueue entry => entry = e
  | .setBits showtimeId seatId state =>
      showtimeId = e.scheduleId ∧ seatId = e.seatId ∧ state ≠ .locked
  | .publish .. => True
  | _ => False

/-- What a worker does before it is let through. -/
def Discreet : Cmd → Prop
  | .service .connect => True
  | .service (.bookedCount ..) => True
  | .service (.activeTicketCount _) => True
  | .service (.redis c) =>
      match c with
      | .connect => True
      | .getLock .. => True
      | .eval .. => True
      | .zremQueue _ => True
      | _ => False
  | _ => False

/-- A worker keeps to its entry, and to queries until it is let through. -/
def WorkerMay (e : QueueEntry) (b : WorkerStage) (c : Cmd) : Prop :=
  (b = .through ∨ Discreet c) ∧ ∀ k, c = .service (.redis k) → WorkerCmd e k

def workerMay (n : Task) (b : WorkerStage) (c : Cmd) : Prop :=
  match n.entry with
  | none => True
  | some entry => WorkerMay entry b c

section Follows

variable {e : QueueEntry}

/-- The stages of a worker, for the commands of the payment path and for those of Redis. -/
abbrev ServiceFollows {β : Type} (e : QueueEntry) (Q : β → WorkerStage → Prop)
    (p : Payments.Service β) (b : WorkerStage) : Prop :=
  p.Follows (fun b c => WorkerMay e b (.service c)) (fun b c => b.next e (.service c)) Q b

abbrev OpFollows {β : Type} (e : QueueEntry) (Q : β → WorkerStage → Prop) (p : Op β)
    (b : WorkerStage) : Prop :=
  p.Follows (fun b c => WorkerMay e b (.service (.redis c)))
    (fun b c => b.next e (.service (.redis c))) Q b

theorem follows_onServices {β : Type} {Q : β → WorkerStage → Prop} {p : Payments.Service β}
    {b : WorkerStage} (h : ServiceFollows e Q p b) :
    (onServices p).Follows (WorkerMay e) (WorkerStage.next e) Q b :=
  Prog.Follows.hoist (fun _ _ hc => ⟨hc, fun _ => rfl⟩) h

theorem follows_onRedis {β : Type} {Q : β → WorkerStage → Prop} {p : Op β} {b : WorkerStage}
    (h : OpFollows e Q p b) : (onRedis p).Follows (WorkerMay e) (WorkerStage.next e) Q b :=
  Prog.Follows.hoist (fun _ _ hc => ⟨hc, fun _ => rfl⟩) h

theorem serviceFollows_onRedis {β : Type} {Q : β → WorkerStage → Prop} {p : Op β}
    {b : WorkerStage} (h : OpFollows e Q p b) : ServiceFollows e Q (Payments.onRedis p) b :=
  Prog.Follows.hoist (fun _ _ hc => ⟨hc, fun _ => rfl⟩) h

/-- The Redis command is the worker's, and it is through or asks. -/
theorem workerMay_redis {b : WorkerStage} {k : Redis.Cmd}
    (hstage : b = .through ∨ Discreet (.service (.redis k))) (hk : WorkerCmd e k) :
    WorkerMay e b (.service (.redis k)) := by
  refine ⟨hstage, fun k' hk' => ?_⟩
  obtain rfl := Payments.Cmd.redis.inj (Cmd.service.inj hk')
  exact hk

/-- A worker that is through only has to keep to its entry. -/
theorem opFollows_through {β : Type} {p : Op β} (h : p.Issues (WorkerCmd e)) :
    OpFollows e (fun _ b => b = .through) p .through := by
  refine Prog.follows_of_issues (S := fun b : WorkerStage => b = .through)
    (h.mono fun c hc b hb => ?_) rfl
  subst hb
  exact ⟨workerMay_redis (.inl rfl) hc, WorkerStage.next_through⟩

theorem issues_cleanUp_worker {state : SeatState} (hstate : state ≠ .locked) :
    (cleanUp e.scheduleId e.seatId e.userId e state).Issues (WorkerCmd e) :=
  issues_cleanUp trivial ⟨rfl, rfl, rfl⟩ ⟨rfl, rfl, rfl⟩ rfl ⟨rfl, rfl, hstate⟩

theorem issues_publishRoomEvent (event : PubSubEvent) :
    (publishRoomEvent event).Issues (WorkerCmd e) := by
  unfold publishRoomEvent
  split
  · trivial
  · exact issues_cluster trivial trivial

/-! ### The seat-layout updater -/

theorem follows_isSeatBookedInDb (scheduleId seatId : ℤ) :
    ServiceFollows e (fun found b => b = if found then .booking else .checking)
      (isSeatBookedInDb scheduleId seatId) .checking := by
  have hquery : ∀ c : Payments.Cmd, (∀ k, c ≠ .redis k) → Discreet (.service c) →
      WorkerMay e .checking (.service c) :=
    fun c hne hc => ⟨.inr hc, fun k hk => absurd (Cmd.service.inj hk) (hne k)⟩
  refine ⟨hquery _ (fun _ hk => nomatch hk) trivial, fun r => ?_⟩
  match r with
  | none => exact rfl
  | some () =>
      refine ⟨hquery _ (fun _ hk => nomatch hk) trivial, fun booked => ?_⟩
      show ServiceFollows e _ (if 0 < booked.getD 0 then _ else _) (if _ ∧ 0 < booked.getD 0 then _ else _)
      by_cases hbooked : 0 < booked.getD 0
      · rw [if_pos hbooked, if_pos ⟨rfl, hbooked⟩]
        exact rfl
      · rw [if_neg hbooked, if_neg fun h => hbooked h.2]
        refine ⟨hquery _ (fun _ hk => nomatch hk) trivial, fun tickets => ?_⟩
        show (if _ ∧ 0 < tickets.getD 0 then _ else _) = if decide (0 < tickets.getD 0) = true then _ else _
        by_cases htickets : 0 < tickets.getD 0
        · rw [if_pos ⟨rfl, htickets⟩, if_pos (decide_eq_true htickets)]
        · rw [if_neg fun h => htickets h.2, if_neg (by simpa using htickets)]
          rfl

theorem follows_forceBook :
    OpFollows e (fun _ _ => True) (forceBookSeatLua e.scheduleId e.seatId e.userId e) .booking := by
  refine ⟨workerMay_redis (.inr trivial) trivial, fun r => ?_⟩
  match r with
  | none => trivial
  | some () =>
      refine ⟨workerMay_redis (.inr trivial) ⟨trivial, rfl, rfl, rfl, rfl⟩, fun _ => ?_⟩
      exact (opFollows_through (issues_cleanUp_worker (by decide))).mono fun _ _ _ => trivial

theorem follows_releaseDueEntry : OpFollows e (fun _ _ => True) (releaseDueEntry e) .checking := by
  have hpublish := opFollows_through (issues_publishRoomEvent (e := e)
    (.seatUnlocked e.userId e.scheduleId e.seatId))
  refine Prog.Follows.bind (Q := fun _ b => b = .through) ?_ fun _ b hb => ?_
  · refine ⟨workerMay_redis (.inr trivial) trivial, fun r => ?_⟩
    match r with
    | none => exact rfl
    | some () =>
        refine ⟨workerMay_redis (.inr trivial) ⟨trivial, rfl, rfl, rfl, rfl⟩, fun _ => ?_⟩
        exact (opFollows_through (issues_cleanUp_worker (by decide))).bind fun _ _ hb => hb
  · subst hb
    exact hpublish.mono fun _ _ _ => trivial

theorem follows_processDueEntry :
    ServiceFollows e (fun _ _ => True) (processDueEntry e) .checking := by
  refine (follows_isSeatBookedInDb e.scheduleId e.seatId).bind fun found b hb => ?_
  subst hb
  cases found with
  | true => exact serviceFollows_onRedis follows_forceBook
  | false => exact serviceFollows_onRedis follows_releaseDueEntry

/-! ### The gateway's expiry worker -/

theorem follows_getLockOwner :
    OpFollows e (fun owner b => b = WorkerStage.afterOwner e owner)
      (getLockOwner e.scheduleId e.seatId) .checking := by
  refine ⟨workerMay_redis (.inr trivial) trivial, fun r => ?_⟩
  match r with
  | none => exact rfl
  | some () => exact ⟨workerMay_redis (.inr trivial) trivial, fun owner => rfl⟩

theorem follows_zremQueue {b : WorkerStage} (hb : b = .refused) :
    OpFollows e (fun _ _ => True) (zremClusterQueue e) b := by
  subst hb
  refine ⟨workerMay_redis (.inr trivial) trivial, fun r => ?_⟩
  match r with
  | none => trivial
  | some () => exact ⟨workerMay_redis (.inr trivial) rfl, fun _ => trivial⟩

theorem issues_zaddQueue (score : ℤ) : (zaddClusterQueue e score).Issues (WorkerCmd e) :=
  issues_cluster trivial rfl

theorem issues_releaseLock_worker :
    (releaseLock e.scheduleId e.seatId e.userId).Issues (WorkerCmd e) :=
  issues_evalThenCleanUp trivial ⟨trivial, rfl, rfl, rfl, rfl⟩ (issues_cleanUp_worker (by decide))

theorem follows_checkDueEntry (now : ℤ) :
    OpFollows e (fun passed b => passed = true → b = .through) (checkDueEntry now e) .checking := by
  refine follows_getLockOwner.bind fun owner b hb => ?_
  match owner with
  | none => exact fun _ => hb
  | some owner =>
      show OpFollows e _ (if some owner = none then _ else if some owner ≠ some e.userId then _ else _) b
      rw [if_neg (by simp)]
      by_cases hown : owner = e.userId
      · rw [if_neg (by simp [hown])]
        obtain rfl : b = .through := by
          rw [hb, WorkerStage.afterOwner, if_pos hown]
        refine ⟨workerMay_redis (.inl rfl) trivial, fun checkout => ?_⟩
        show OpFollows e _ (if checkout.getD false then _ else _) .through
        by_cases hheld : checkout.getD false = true
        · rw [if_pos hheld]
          exact (opFollows_through (issues_zaddQueue (now + 300))).bind fun _ _ hb' _ => hb'
        · rw [if_neg hheld]
          exact (opFollows_through issues_releaseLock_worker).bind fun _ _ hb' _ => hb'
      · rw [if_pos (by simpa using hown)]
        have hb : b = .refused := by
          rw [hb, WorkerStage.afterOwner, if_neg hown]
        exact (follows_zremQueue hb).bind fun _ _ _ hfalse => (nomatch hfalse)

theorem issues_finishDueEntry : (finishDueEntry e).Issues (WorkerCmd e) := by
  have hrem : (zremClusterQueue e).Issues (WorkerCmd e) := issues_cluster trivial rfl
  have hbits : (setScheduleSeatBitmapStateCluster e.scheduleId e.seatId .available).Issues
      (WorkerCmd e) := issues_setBitmap trivial ⟨rfl, rfl, by decide⟩
  exact hrem.bind fun _ => hbits.bind fun _ => issues_publishRoomEvent _

theorem follows_releaseExpiredEntry (g : ℕ) (now : ℤ) :
    (releaseExpiredEntry g now e).Follows (WorkerMay e) (WorkerStage.next e) (fun _ _ => True)
      .checking := by
  refine (follows_onRedis (follows_checkDueEntry now)).bind fun passed b hb => ?_
  cases passed with
  | true =>
      obtain rfl := hb rfl
      refine ⟨⟨.inl rfl, fun k hk => nomatch hk⟩, fun _ => ?_⟩
      exact (follows_onRedis (opFollows_through issues_finishDueEntry)).mono fun _ _ _ => trivial
  | false => trivial

end Follows

/-- What is started keeps to the stages of workers; a thread that is no worker has none. -/
theorem workerFollows_started {s : World} {n : Task} {q : Service Result} (h : Started s n q) :
    q.Follows (workerMay n) (workerNext n) (fun _ _ => True) .checking := by
  have hother : n.entry = none →
      q.Follows (workerMay n) (workerNext n) (fun _ _ => True) .checking := by
    intro hnone
    refine Prog.follows_of_issues (S := fun _ => True)
      (Prog.issues_of_forall q fun c b _ => ⟨?_, fun _ => trivial⟩) trivial
    unfold workerMay
    rw [hnone]
    trivial
  cases h with
  | updater => exact (follows_onServices follows_processDueEntry).bind fun _ _ _ => trivial
  | expiry g => exact (follows_releaseExpiredEntry g _).bind fun _ _ _ => trivial
  | _ => exact hother rfl

/-- A worker is started for a due entry only. -/
theorem environ_of_worker {x : Environ} {s t : World} {ts : List (Task × Service Result)} {n : Task}
    {q : Service Result} {e : QueueEntry} (h : environ x s = some (t, ts)) (hmem : (n, q) ∈ ts)
    (he : n.entry = some e) : due e s = true ∧ (x = .updater e ∨ ∃ g, x = .expiry g e) := by
  have hone : ∀ {m : Task} {p : Service Result}, ts = [(m, p)] → m.entry = some e := by
    intro m p hts
    rw [hts] at hmem
    obtain ⟨rfl, -⟩ := Prod.mk.inj (List.mem_singleton.1 hmem)
    exact he
  cases x with
  | updater entry =>
      simp only [environ] at h
      split_ifs at h with hdue
      obtain rfl := Option.some.inj (hone (Prod.mk.inj (Option.some.inj h)).2.symm)
      exact ⟨hdue, .inl rfl⟩
  | expiry g entry =>
      simp only [environ] at h
      split_ifs at h with hdue
      obtain rfl := Option.some.inj (hone (Prod.mk.inj (Option.some.inj h)).2.symm)
      exact ⟨hdue, .inr ⟨g, rfl⟩⟩
  | tick | scheduleOpened | setClosedKey =>
      rw [← (Prod.mk.inj (Option.some.inj h)).2] at hmem
      cases hmem
  | operation | lock | cancel | handle | scheduleClosed | request | cancelOrder =>
      cases hone (Prod.mk.inj (Option.some.inj h)).2.symm
  | lockMessage | actor =>
      obtain ⟨y, -, heq⟩ := Option.map_eq_some_iff.1 h
      cases hone (Prod.mk.inj heq).2.symm
  | deliver k orderId mockMode =>
      simp only [environ] at h
      split at h
      · cases h
      · next row hrow =>
        obtain ⟨task, htask, heq⟩ := Option.map_eq_some_iff.1 h
        have hentry := hone (p := task.2) (m := task.1) (Prod.mk.inj heq).2.symm
        cases row with
        | paymentRequested message =>
            obtain rfl := Option.some.inj htask
            cases hentry
        | cancellationRequested message =>
            obtain rfl := Option.some.inj htask
            cases hentry
        | orderCompleted event => cases htask
        | ticketCancelled event => cases htask

/-! ## The condition -/

/-- A worker is let through only to a seat whose lock is free or its entry's user's. -/
def LetThrough (n : Task) (i : ℕ) (l : Link) (c : Cmd) (s : World) (b : WorkerStage) : Prop :=
  match n.entry with
  | none => True
  | some e =>
      match exec i l c s with
      | none => True
      | some (_, r) => b.next e c r = .through → b ≠ .through →
          s.services.redis.freeOrOwnedBy e.scheduleId e.seatId e.userId = true

instance {n : Task} {i : ℕ} {l : Link} {c : Cmd} {s : World} {b : WorkerStage} :
    Decidable (LetThrough n i l c s b) := by
  unfold LetThrough
  rcases n.entry with _ | e
  · infer_instance
  · rcases exec i l c s with _ | _ <;> infer_instance

/-- A worker that was let through to the seat is at work for the user. -/
def WorksFor (userId : ℤ) (seat : ℤ × ℤ) (b : WorkerStage) : Option Task → Prop
  | none => True
  | some n =>
      match n.entry with
      | none => True
      | some e => b = .through → e.seat = seat → e.userId = userId

instance {userId : ℤ} {seat : ℤ × ℤ} {b : WorkerStage} {n : Option Task} :
    Decidable (WorksFor userId seat b n) := by
  unfold WorksFor
  rcases n with _ | n
  · infer_instance
  · dsimp only
    rcases n.entry with _ | _ <;> infer_instance

/-- A lock is acquired only while no worker that was let through for another user is at work on the
seat. -/
def AcquiresApart {σ : Type} (l : Link) (c : Cmd) (s : World) (stage : ℕ → WorkerStage)
    (p : Pool σ Rep Task Result) : Prop :=
  match c with
  | .service (.redis k) =>
      match k.acquires s.services.redis with
      | none => True
      | some (seat, userId, _) => l = .lost ∨
          ∀ j ∈ List.range p.threads.length, WorksFor userId seat (stage j) (p.working j)
  | _ => True

instance {σ : Type} {l : Link} {c : Cmd} {s : World} {stage : ℕ → WorkerStage}
    {p : Pool σ Rep Task Result} : Decidable (AcquiresApart l c s stage p) := by
  unfold AcquiresApart
  rcases c with c | _
  · rcases c with k | _
    · dsimp only
      rcases k.acquires s.services.redis with _ | _ <;> infer_instance
    all_goals infer_instance
  all_goals infer_instance

/-- The machine with the stages of the workers. -/
def workers : Machine (World × (ℕ → WorkerStage)) Rep Task Result Link Environ :=
  machine.staged .checking workerNext

/-- Workers are let through to free seats and to their own users' only, and nobody acquires a seat
while a worker that was let through for another user is at work on it. -/
def CheckedRun (p : Pool (World × (ℕ → WorkerStage)) Rep Task Result) : Act Link Environ → Prop
  | .run i l =>
      match p.threads[i]? with
      | some ⟨n, some (.call c _)⟩ =>
          LetThrough n i l c p.store.1 (p.store.2 i) ∧ AcquiresApart l c p.store.1 p.store.2 p
      | _ => True
  | _ => True

instance {p : Pool (World × (ℕ → WorkerStage)) Rep Task Result} {a : Act Link Environ} :
    Decidable (CheckedRun p a) := by
  unfold CheckedRun
  rcases a with _ | ⟨i, l⟩ | _
  · infer_instance
  · dsimp only
    rcases p.threads[i]? with _ | ⟨n, _ | _ | ⟨c, k⟩⟩ <;> infer_instance
  · infer_instance

/-! ## The invariant -/

/-- A worker that was let through finds the lock free or its user's. -/
def HoldsThrough (n : Task) (b : WorkerStage) (s : World) : Prop :=
  ∀ e, n.entry = some e → b = .through →
    s.services.redis.freeOrOwnedBy e.scheduleId e.seatId e.userId = true

/-- A step keeps a lock free or the user's, unless it acquires the lock for another user. -/
theorem freeOrOwnedBy_exec {i : ℕ} {l : Link} {c : Cmd} {s t : World} {r : Rep c} {k a u : ℤ}
    (hrun : exec i l c s = some (t, r)) (h : s.services.redis.freeOrOwnedBy k a u = true)
    (hacq : ∀ k', c = .service (.redis k') → l ≠ .lost → ∀ owner ttlMs,
      k'.acquires s.services.redis = some ((k, a), owner, ttlMs) → owner = u) :
    t.services.redis.freeOrOwnedBy k a u = true := by
  rcases redis_exec hrun with ⟨k', rfl, ht⟩ | ⟨-, ht⟩
  · rw [ht]
    by_cases hl : l = .lost
    · simp only [hl, if_true]
      exact h
    · simp only [hl, if_false]
      exact Redis.freeOrOwnedBy_effect h (hacq k' rfl hl)
  · rw [ht]
    exact h

/-- A worker acquires no lock. -/
theorem acquires_of_workerCmd {e : QueueEntry} {k : Redis.Cmd} (h : WorkerCmd e k) (s : Redis) :
    k.acquires s = none := by
  cases k with
  | eval script =>
      cases script with
      | acquire => exact absurd h.1 id
      | _ => rfl
  | setLockNx => exact absurd h id
  | _ => rfl

/-- The commands of the threads of a run are within their stages. -/
theorem workerMay_of_reachable {p : Pool (World × (ℕ → WorkerStage)) Rep Task Result}
    (h : workers.system.ReachableUnder CheckedRun p) {i : ℕ} {n : Task} {c : Cmd}
    {k : Rep c → Service Result} (hr : p.Runs i n (.call c k)) : workerMay n (p.store.2 i) c :=
  (Machine.follows_of_reachable (Q := fun _ _ _ => True)
    (fun _ _ _ _ _ henv n q hmem => workerFollows_started (started_of_environ henv n q hmem)) h
    i n _ hr).1

theorem checkedRun_call {p : Pool (World × (ℕ → WorkerStage)) Rep Task Result} {i : ℕ} {l : Link}
    {n : Task} {c : Cmd} {k : Rep c → Service Result} (hr : p.Runs i n (.call c k))
    (hG : CheckedRun p (.run i l)) :
    LetThrough n i l c p.store.1 (p.store.2 i) ∧ AcquiresApart l c p.store.1 p.store.2 p := by
  have hr : p.threads[i]? = some ⟨n, some (.call c k)⟩ := hr
  simpa only [CheckedRun, hr] using hG

/-- A lock is acquired for the users of the workers that were let through to it. -/
theorem AcquiresApart.worksFor {σ : Type} {l : Link} {k : Redis.Cmd} {s : World}
    {stage : ℕ → WorkerStage} {p : Pool σ Rep Task Result}
    (h : AcquiresApart l (.service (.redis k)) s stage p) (hl : l ≠ .lost) {seat : ℤ × ℤ}
    {userId : ℤ} {ttlMs : ℕ} (hacq : k.acquires s.services.redis = some (seat, userId, ttlMs))
    {j : ℕ} {n : Task} (hj : p.working j = some n) {e : QueueEntry} (he : n.entry = some e)
    (hb : stage j = .through) (hseat : e.seat = seat) : e.userId = userId := by
  simp only [AcquiresApart, hacq] at h
  obtain ⟨c, k', hr⟩ := Pool.working_eq_some.1 hj
  have hlen : j < p.threads.length := (List.getElem?_eq_some_iff.1 hr).1
  have hworks := h.resolve_left hl j (List.mem_range.2 hlen)
  simp only [WorksFor, hj, he] at hworks
  exact hworks hb hseat

theorem holdsThrough_reachable {p : Pool (World × (ℕ → WorkerStage)) Rep Task Result}
    (h : workers.system.ReachableUnder CheckedRun p) :
    ∀ i n, p.working i = some n → HoldsThrough n (p.store.2 i) p.store.1 := by
  refine Machine.working_invariant ?_ ?_ ?_ ?_ (fun _ _ _ _ _ _ hj => hj) h
  · intro n s e _ hb
    cases hb
  · intro p i l n c k s r hp hr hG hrun hi e he hb
    have hmay := workerMay_of_reachable hp hr
    obtain ⟨hthrough, -⟩ := checkedRun_call hr hG
    have hrun : exec i l c p.store.1 = some (s, r) := hrun
    simp only [workerMay, he] at hmay
    simp only [workerNext, he] at hb
    simp only [LetThrough, he, hrun] at hthrough
    have hfree : p.store.1.services.redis.freeOrOwnedBy e.scheduleId e.seatId e.userId = true := by
      by_cases hbefore : p.store.2 i = .through
      · exact hi e he hbefore
      · exact hthrough hb hbefore
    refine freeOrOwnedBy_exec hrun hfree fun k' hc _ owner ttlMs hacq => ?_
    rw [acquires_of_workerCmd (hmay.2 k' hc)] at hacq
    cases hacq
  · intro p i l n c k s r j m hp hr hG hrun hne hj hm e he hb
    refine freeOrOwnedBy_exec hrun (hm e he hb) fun k' hc hl owner ttlMs hacq => ?_
    subst hc
    exact ((checkedRun_call hr hG).2.worksFor hl hacq hj he hb rfl).symm
  · intro p x s ts j m _ henv hj hm e he hb
    obtain ⟨-, -, d, hd⟩ := services_environ henv
    rw [hd]
    exact Redis.freeOrOwnedBy_tick (e.scheduleId, e.seatId) (hm e he hb)

/-- A worker that is not let through changes nothing in Redis but the queue. -/
theorem redis_of_discreet {e : QueueEntry} {b : WorkerStage} {i : ℕ} {l : Link} {c : Cmd}
    {s t : World} {r : Rep c} (hrun : exec i l c s = some (t, r)) (hmay : WorkerMay e b c)
    (hbefore : b ≠ .through) (hafter : b.next e c r ≠ .through) :
    t.services.redis = s.services.redis ∨ t.services.redis = s.services.redis.zremQueue e := by
  have hdiscreet := hmay.1.resolve_left hbefore
  rcases redis_exec hrun with ⟨k, rfl, ht⟩ | ⟨-, ht⟩
  · have hcmd := hmay.2 k rfl
    rw [ht]
    by_cases hl : l = .lost
    · rw [if_pos hl]
      exact .inl rfl
    · rw [if_neg hl]
      cases k with
      | eval => exact absurd rfl hafter
      | connect | getLock => exact .inl rfl
      | zremQueue entry =>
          obtain rfl : entry = e := hcmd
          exact .inr rfl
      | _ => exact absurd hdiscreet id
  · exact .inl ht

/-! ## The locks of other users -/

/-- What a user set for a seat is as it was: the lock key, the memberships, the bitmap field; and no
event is published. -/
structure Undisturbed (e : QueueEntry) (userId : ℤ) (s t : Redis) : Prop where
  lock : t.seatLock e.seat = s.seatLock e.seat
  members : Redis.SameMembers e.scheduleId e.seatId userId s t
  field : t.bitmap e.seat = s.bitmap e.seat
  published : t.published = s.published

/-- Where workers are let through to free seats and to their own users' only, and nobody acquires a
seat while a worker that was let through for another user is at work on it, a step of a worker leaves
the lock of another owner alone. -/
theorem expiry_undisturbed {p q : Pool (World × (ℕ → WorkerStage)) Rep Task Result}
    (h : workers.system.ReachableUnder CheckedRun p) {i : ℕ} {l : Link} {n : Task} {e : QueueEntry}
    (hi : p.working i = some n) (he : n.entry = some e) (hG : CheckedRun p (.run i l))
    (hst : workers.system.step p (.run i l) = some q) {userId : ℤ}
    (howner : p.store.1.services.redis.lockOwner e.scheduleId e.seatId = some userId)
    (hne : userId ≠ e.userId) :
    Undisturbed e userId p.store.1.services.redis q.store.1.services.redis := by
  have hst : workers.step p (.run i l) = some q := hst
  obtain ⟨n', c, k, s, r, hr, hs, rfl⟩ := Machine.step_run hst
  obtain rfl : n = n' := by
    rw [Pool.working_eq_some.2 ⟨c, k, hr⟩] at hi
    exact (Option.some.inj hi).symm
  have hrun : exec i l c p.store.1 = some (s.1, r) := (Machine.staged_exec.1 hs).1
  have hother : ¬p.store.1.services.redis.freeOrOwnedBy e.scheduleId e.seatId e.userId = true :=
    fun hfree => hne (Redis.freeOrOwnedBy_iff.1 hfree userId howner)
  have hmay := workerMay_of_reachable h hr
  obtain ⟨hthrough, -⟩ := checkedRun_call hr hG
  simp only [workerMay, he] at hmay
  simp only [LetThrough, he, hrun] at hthrough
  have hbefore : p.store.2 i ≠ .through := fun hb =>
    hother (holdsThrough_reachable h i n hi e he hb)
  show Undisturbed e userId p.store.1.services.redis s.1.services.redis
  rcases redis_of_discreet hrun hmay hbefore (fun hb => hother (hthrough hb hbefore)) with ht | ht
  · rw [ht]
    exact ⟨rfl, .of_eq rfl rfl, rfl, rfl⟩
  · rw [ht]
    exact ⟨rfl, .of_eq rfl rfl, rfl, rfl⟩

/-! ## Runs -/

/-- Session 6 is a worker on the entry of user 42, and user 43 owns the lock. -/
def MeetsOwner (p : Pool (World × (ℕ → WorkerStage)) Rep Task Result) : Prop :=
  (p.working 6).bind Task.entry = some ⟨1, 1, 42⟩ ∧
    p.store.1.services.redis.lockOwner 1 1 = some 43

instance {p : Pool (World × (ℕ → WorkerStage)) Rep Task Result} : Decidable (MeetsOwner p) := by
  unfold MeetsOwner
  infer_instance

/-- The gateway's worker takes the old entry away. -/
theorem expiry_undisturbed_relocked :
    ∃ p q, workers.system.ReachableUnder CheckedRun p ∧ MeetsOwner p ∧
      workers.system.step p (.run 6 .ok) = some q ∧
      Undisturbed ⟨1, 1, 42⟩ 43 p.store.1.services.redis q.store.1.services.redis := by
  obtain ⟨p, hp, hend⟩ := System.exists_reachable_of_runUnder workers.system CheckedRun
    (fun p => decide (MeetsOwner p ∧ CheckedRun p (.run 6 .ok) ∧
      (workers.system.step p (.run 6 .ok)).isSome))
    (s := ⟨(newWorld Payments.oneSeat, fun _ => .checking), []⟩) ⟨⟨⟨_, rfl⟩, rfl⟩, rfl⟩
    (relocksSeat ++ .environ (.expiry 0 ⟨1, 1, 42⟩) :: steps 6 3) (by decide +kernel)
  obtain ⟨hmeets, hG, hsome⟩ := of_decide_eq_true hend
  obtain ⟨q, hq⟩ := Option.isSome_iff_exists.1 hsome
  obtain ⟨n, hn, he⟩ := Option.bind_eq_some_iff.1 hmeets.1
  exact ⟨p, q, hp, hmeets, hq, expiry_undisturbed hp hn he hG hq hmeets.2 (by decide)⟩

/-- The updater cleans up after the script has refused the old entry. -/
theorem expiry_disturbs :
    ¬ ∀ p q i l n e userId, workers.system.Reachable p → p.working i = some n → n.entry = some e →
      workers.system.step p (.run i l) = some q →
        p.store.1.services.redis.lockOwner e.scheduleId e.seatId = some userId →
          userId ≠ e.userId →
            Undisturbed e userId p.store.1.services.redis q.store.1.services.redis := by
  intro hall
  obtain ⟨p, hp, hend⟩ := System.exists_reachable_of_run workers.system
    (fun p => decide (MeetsOwner p ∧ p.store.1.services.redis.bitmap (1, 1) = .locked ∧
      (workers.system.step p (.run 6 .ok)).map (fun q => q.store.1.services.redis.bitmap (1, 1)) =
        some .available))
    (s := ⟨(newWorld Payments.oneSeat, fun _ => .checking), []⟩) ⟨⟨⟨_, rfl⟩, rfl⟩, rfl⟩
    (relocksSeat ++ .environ (.updater ⟨1, 1, 42⟩) :: steps 6 12) (by decide +kernel)
  obtain ⟨hmeets, hlocked, havailable⟩ := of_decide_eq_true hend
  obtain ⟨q, hq, hbits⟩ := Option.map_eq_some_iff.1 havailable
  obtain ⟨n, hn, he⟩ := Option.bind_eq_some_iff.1 hmeets.1
  have hfield : q.store.1.services.redis.bitmap (1, 1) = p.store.1.services.redis.bitmap (1, 1) :=
    (hall p q 6 .ok n ⟨1, 1, 42⟩ 43 hp hn he hq hmeets.2 (by decide)).field
  rw [hbits, hlocked] at hfield
  cases hfield

end Gateway
end Bookit

import Bookit.Gateway.ExpiryWorkers

/-!
# Gateway.PrematureRelease — due entries and the time a lock was promised for

An acquisition promises the seat for 300 seconds.  An extension moves the deadline of the lock at
once; the entry of the delayed queue is moved only when the lock message is handled, and until then a
worker may take the entry of the first acquisition for due.  We log the acquisitions that were
neither cancelled, nor booked, nor replaced.
-/

namespace Bookit
namespace Gateway

open Lib

/-! ## Acquisitions -/

/-- The lock of a seat was acquired, or extended, for 300 seconds. -/
structure Acquisition where
  seat : ℤ × ℤ
  userId : ℤ
  acquiredAt : ℕ
  deriving DecidableEq

/-- 300 seconds. -/
def promisedMs : ℕ := 300000

/-- The promise of the acquisition still runs. -/
def Acquisition.Runs (a : Acquisition) (now : ℕ) : Prop := now < a.acquiredAt + promisedMs

instance {a : Acquisition} {now : ℕ} : Decidable (a.Runs now) := by
  unfold Acquisition.Runs
  infer_instance

/-- What a session asked for with its last `SET NX`: a seat for a user. -/
abbrev Asked := Option ((ℤ × ℤ) × ℤ)

/-- The acquisition that a command makes: it sets the lock, or moves the deadline of the one that the
session asked for. -/
def acquisitionOf (asked : Asked) (s : Redis) (k : Redis.Cmd) : Option ((ℤ × ℤ) × ℤ × ℕ) :=
  match k.acquires s with
  | some acquired => some acquired
  | none =>
      match k, asked with
      | .pexpireLock _ _ ttlMs, some (seat, userId) => some (seat, userId, ttlMs)
      | _, _ => none

/-- The acquisitions left when a user's acquisitions of a seat are at an end. -/
def dropAcquisitions (seat : ℤ × ℤ) (userId : ℤ) (as : List Acquisition) : List Acquisition :=
  as.filter fun a => !decide (a.seat = seat ∧ a.userId = userId)

/-- The acquisitions after a command: a new one replaces the user's others, and a script that deletes
a user's lock ends them, unless it is a worker's. -/
def acquisitionsAfter (n : Task) (asked : Asked) (s : Redis) (k : Redis.Cmd)
    (as : List Acquisition) : List Acquisition :=
  match acquisitionOf asked s k with
  | some (seat, userId, ttlMs) =>
      dropAcquisitions seat userId as ++ if ttlMs = promisedMs then [⟨seat, userId, s.now⟩] else []
  | none =>
      match k.releases s with
      | some (seat, userId) => if n.entry = none then dropAcquisitions seat userId as else as
      | none => as

structure AcquisitionLog where
  asked : ℕ → Asked
  acquisitions : List Acquisition

def askedAfter (i : ℕ) (k : Redis.Cmd) (asked : ℕ → Asked) : ℕ → Asked :=
  match k with
  | .setLockNx showtimeId seatId userId _ =>
      Function.update asked i (some ((showtimeId, seatId), userId))
  | _ => asked

/-- The log of acquisitions. -/
def logAcquisitions (n : Task) (i : ℕ) (l : Link) (c : Cmd) (s : World × (ℕ → WorkerStage))
    (log : AcquisitionLog) : AcquisitionLog :=
  match c with
  | .service (.redis k) =>
      { asked := askedAfter i k log.asked
        acquisitions :=
          if l = .lost then
            log.acquisitions
          else
            acquisitionsAfter n (log.asked i) s.1.services.redis k log.acquisitions }
  | _ => log

/-- The machine with the stages of the workers and the log of acquisitions. -/
def promises : Machine ((World × (ℕ → WorkerStage)) × AcquisitionLog) Rep Task Result Link Environ :=
  workers.logged ⟨fun _ => none, []⟩ logAcquisitions

/-- A pool of the machine with its log. -/
abbrev PromisePool := Pool ((World × (ℕ → WorkerStage)) × AcquisitionLog) Rep Task Result

/-! ## The condition -/

/-- `PEXPIRE` finds the lock that the session asked for. -/
def ExtendsAsked (asked : Asked) (l : Link) (s : Redis) : Redis.Cmd → Prop
  | .pexpireLock showtimeId seatId ttlMs =>
      l ≠ .lost ∧ s.now + ttlMs ≤ Redis.maxExpiry ∧
        match s.lockOwner showtimeId seatId with
        | none => False
        | some owner => asked = some ((showtimeId, seatId), owner)
  | _ => True

instance {asked : Asked} {l : Link} {s : Redis} {k : Redis.Cmd} :
    Decidable (ExtendsAsked asked l s k) := by
  unfold ExtendsAsked
  rcases k with ⟨⟩
  case pexpireLock showtimeId seatId ttlMs =>
    refine @instDecidableAnd _ _ _ (@instDecidableAnd _ _ _ ?_)
    rcases s.lockOwner showtimeId seatId with _ | _ <;> infer_instance
  all_goals infer_instance

/-- The thread is at work on no entry of the user for the seat. -/
def IdleFor (seat : ℤ × ℤ) (userId : ℤ) (n : Option Task) : Prop :=
  match n.bind Task.entry with
  | none => True
  | some e => ¬(e.seat = seat ∧ e.userId = userId)

instance {seat : ℤ × ℤ} {userId : ℤ} {n : Option Task} : Decidable (IdleFor seat userId n) := by
  unfold IdleFor
  split <;> infer_instance

/-- A user acquires a seat only while no worker is at work on the user's entry for it. -/
def AcquiresIdle (asked : Asked) (l : Link) (s : Redis) (k : Redis.Cmd) (p : PromisePool) : Prop :=
  match acquisitionOf asked s k with
  | none => True
  | some (seat, userId, _) =>
      l = .lost ∨ ∀ j ∈ List.range p.threads.length, IdleFor seat userId (p.working j)

instance {asked : Asked} {l : Link} {s : Redis} {k : Redis.Cmd} {p : PromisePool} :
    Decidable (AcquiresIdle asked l s k p) := by
  unfold AcquiresIdle
  split <;> infer_instance

/-- The score of the entry is that of the user's last acquisition of the seat, or a later one. -/
def Refreshed (e : QueueEntry) (s : Redis) (as : List Acquisition) : Prop :=
  ∀ a ∈ as, a.seat = e.seat → a.userId = e.userId → ∀ x ∈ s.queue.entries, x.1 = e →
    ((a.acquiredAt / 1000 : ℕ) : ℤ) + 315 ≤ x.2

instance {e : QueueEntry} {s : Redis} {as : List Acquisition} : Decidable (Refreshed e s as) := by
  unfold Refreshed
  infer_instance

/-- The steps of workers and of acquisitions that keep a promise. -/
def KeepsPromises (p : PromisePool) : Act Link Environ → Prop
  | .environ (.updater e) => Refreshed e p.store.1.1.services.redis p.store.2.acquisitions
  | .environ (.expiry _ e) => Refreshed e p.store.1.1.services.redis p.store.2.acquisitions
  | .run i l =>
      match p.threads[i]? with
      | some ⟨_, some (.call (.service (.redis k)) _)⟩ =>
          ExtendsAsked (p.store.2.asked i) l p.store.1.1.services.redis k ∧
            AcquiresIdle (p.store.2.asked i) l p.store.1.1.services.redis k p
      | _ => True
  | _ => True

instance {p : PromisePool} {a : Act Link Environ} : Decidable (KeepsPromises p a) := by
  unfold KeepsPromises
  rcases a with x | ⟨i, l⟩ | i
  · rcases x with ⟨⟩ <;> infer_instance
  · dsimp only
    rcases p.threads[i]? with _ | ⟨n, _ | _ | ⟨c, k⟩⟩
    · infer_instance
    · infer_instance
    · infer_instance
    · rcases c with c | _
      · rcases c with ⟨⟩ <;> infer_instance
      all_goals infer_instance
  · infer_instance

/-- Beside the condition on the locks of other users: extensions find the lock they extend, a worker
takes up an entry only with the score of the last acquisition, and meanwhile its user acquires the
seat no more. -/
def PromiseRun (p : PromisePool) (a : Act Link Environ) : Prop :=
  CheckedRun ⟨p.store.1, p.threads⟩ a ∧ KeepsPromises p a

instance {p : PromisePool} {a : Act Link Environ} : Decidable (PromiseRun p a) := by
  unfold PromiseRun
  infer_instance

/-! ## The invariant -/

/-- While the promise runs, the lock is the user's and lives at least as long. -/
def Promised (s : Redis) (a : Acquisition) : Prop :=
  a.Runs s.now → ∃ d, s.seatLock a.seat = some (a.userId, d) ∧ a.acquiredAt + promisedMs ≤ d

theorem Promised.owner {s : Redis} {a : Acquisition} (h : Promised s a) (hruns : a.Runs s.now) :
    s.lockOwner a.seat.1 a.seat.2 = some a.userId := by
  obtain ⟨d, hd, hle⟩ := h hruns
  have hlt : s.now < a.acquiredAt + promisedMs := hruns
  exact Expiring.lookup_eq_some_iff.2 ⟨d, hd, by omega⟩

theorem mem_dropAcquisitions {seat : ℤ × ℤ} {userId : ℤ} {as : List Acquisition} {a : Acquisition} :
    a ∈ dropAcquisitions seat userId as ↔ a ∈ as ∧ ¬(a.seat = seat ∧ a.userId = userId) := by
  unfold dropAcquisitions
  rw [List.mem_filter, Bool.not_eq_true', decide_eq_false_iff_not]

/-- A script that deletes a lock acquires none. -/
theorem acquisitionOf_of_releases {asked : Asked} {s : Redis} {k : Redis.Cmd} {x : (ℤ × ℤ) × ℤ}
    (h : k.releases s = some x) : acquisitionOf asked s k = none := by
  cases k with
  | eval script =>
      cases script with
      | acquire => simp [Redis.Cmd.releases, Redis.Script.Deletes] at h
      | _ => rfl
  | _ => cases h

section Acquisitions

variable {n : Task} {asked : Asked} {s : Redis} {k : Redis.Cmd} {as : List Acquisition}
variable {a : Acquisition}

/-- An acquisition after a command is the command's; or it is an old one, its user acquired nothing
on the seat, and no script but a worker's deleted its lock. -/
theorem mem_acquisitionsAfter (h : a ∈ acquisitionsAfter n asked s k as) :
    (acquisitionOf asked s k = some (a.seat, a.userId, promisedMs) ∧ a.acquiredAt = s.now) ∨
      (a ∈ as ∧ (∀ ttlMs, acquisitionOf asked s k ≠ some (a.seat, a.userId, ttlMs)) ∧
        (k.releases s = some (a.seat, a.userId) → n.entry ≠ none)) := by
  unfold acquisitionsAfter at h
  cases hof : acquisitionOf asked s k with
  | some acquired =>
      obtain ⟨seat, userId, ttlMs⟩ := acquired
      rw [hof] at h
      rcases List.mem_append.1 h with hold | hnew
      · obtain ⟨hmem, hne⟩ := mem_dropAcquisitions.1 hold
        refine .inr ⟨hmem, fun ttlMs' heq => hne ?_, fun hrel => ?_⟩
        · simp only [Option.some.injEq, Prod.mk.injEq] at heq
          exact ⟨heq.1.symm, heq.2.1.symm⟩
        · rw [acquisitionOf_of_releases hrel] at hof
          cases hof
      · split_ifs at hnew with httl
        · obtain rfl := List.mem_singleton.1 hnew
          exact .inl ⟨by rw [httl], rfl⟩
        · cases hnew
  | none =>
      rw [hof] at h
      refine .inr ?_
      cases hrel : k.releases s with
      | none =>
          rw [hrel] at h
          exact ⟨h, fun _ heq => (nomatch heq), fun heq => (nomatch heq)⟩
      | some released =>
          obtain ⟨seat, userId⟩ := released
          rw [hrel] at h
          dsimp only at h
          split_ifs at h with hentry
          · obtain ⟨hmem, hne⟩ := mem_dropAcquisitions.1 h
            refine ⟨hmem, fun _ heq => (nomatch heq), fun heq => ?_⟩
            obtain ⟨rfl, rfl⟩ := Prod.mk.inj (Option.some.inj heq)
            exact absurd ⟨rfl, rfl⟩ hne
          · exact ⟨h, fun _ heq => (nomatch heq), fun _ => hentry⟩

/-- The lock of the seat is set for as long as the command's acquisition says. -/
theorem seatLock_of_acquisition {l : Link} {seat : ℤ × ℤ} {userId : ℤ} {ttlMs : ℕ}
    (hpos : ttlMs ≠ 0) (hext : ExtendsAsked asked l s k)
    (h : acquisitionOf asked s k = some (seat, userId, ttlMs)) :
    (k.effect s).seatLock seat = some (userId, s.now + ttlMs) := by
  unfold acquisitionOf at h
  split at h
  · next acquired hacq =>
    obtain rfl := Option.some.inj h
    exact Redis.seatLock_of_acquires hacq
  · split at h
    · next showtimeId seatId ttl seat' user hacq =>
      simp only [Option.some.injEq, Prod.mk.injEq] at h
      obtain ⟨rfl, rfl, rfl⟩ := h
      obtain ⟨-, hmax, howner⟩ := hext
      cases hlock : s.lockOwner showtimeId seatId with
      | none =>
          rw [hlock] at howner
          exact absurd howner id
      | some owner =>
          rw [hlock] at howner
          obtain ⟨rfl, rfl⟩ := Prod.mk.inj (Option.some.inj howner)
          show (Redis.pexpireLock showtimeId seatId ttl s).1.seatLock (showtimeId, seatId) = _
          unfold Redis.pexpireLock
          rw [if_neg hpos, if_pos hmax]
          show s.seatLock.touch s.now (showtimeId, seatId) _ (showtimeId, seatId) = _
          rw [Expiring.touch_of_live hlock, Expiring.put_self]
    · cases h

/-- A promise is kept by a command: extensions find the lock they extend, and no worker's script
deletes a lock that is promised to its user. -/
theorem promised_effect {l : Link} (hprom : ∀ a ∈ as, Promised s a) (hext : ExtendsAsked asked l s k)
    (hworker : n.entry ≠ none → ∀ a ∈ as, k.releases s = some (a.seat, a.userId) → ¬a.Runs s.now)
    (h : a ∈ acquisitionsAfter n asked s k as) : Promised (k.effect s) a := by
  intro hruns
  rw [Redis.effect_now] at hruns
  rcases mem_acquisitionsAfter h with ⟨hof, hat⟩ | ⟨hmem, hnone, hrel⟩
  · refine ⟨s.now + promisedMs, seatLock_of_acquisition (by decide) hext hof, ?_⟩
    rw [hat]
  · have howner := (hprom a hmem).owner hruns
    obtain ⟨d, hd, hle⟩ := hprom a hmem hruns
    cases Redis.keyEffect k s a.seat with
    | kept hkey => exact ⟨d, hkey.trans hd, hle⟩
    | @acquired userId ttlMs hc hkey =>
        -- the command would have to be the owner's own acquisition
        exfalso
        refine hnone ttlMs ?_
        rw [← Redis.acquires_owner hc howner]
        simp only [acquisitionOf, hc]
    | @released userId hc hkey =>
        rw [Redis.releases_owner hc howner] at hc
        exact absurd hruns (hworker (hrel hc) a hmem hc)
    | @extended owner ttlMs hc _ hkey =>
        exfalso
        subst hc
        simp only [ExtendsAsked, howner] at hext
        refine hnone ttlMs ?_
        rw [hext.2.2]
        rfl
    | dropped hc hkey =>
        exfalso
        subst hc
        simp only [ExtendsAsked, howner] at hext
        refine hnone 0 ?_
        rw [hext.2.2]
        rfl

end Acquisitions

/-! ## Workers and promises -/

/-- The promises are kept, and no worker is at work on an entry of a user to whom the seat is still
promised. -/
structure PromisesHold (p : PromisePool) : Prop where
  promised : ∀ a ∈ p.store.2.acquisitions, Promised p.store.1.1.services.redis a
  idle : ∀ j m e, p.working j = some m → m.entry = some e → ∀ a ∈ p.store.2.acquisitions,
    a.seat = e.seat → a.userId = e.userId → ¬a.Runs p.store.1.1.services.redis.now

/-- A pool without its log. -/
abbrev unlogged (p : PromisePool) : Pool (World × (ℕ → WorkerStage)) Rep Task Result :=
  ⟨p.store.1, p.threads⟩

theorem checked_of_promises {p : PromisePool}
    (h : promises.system.ReachableUnder PromiseRun p) :
    workers.system.ReachableUnder CheckedRun (unlogged p) :=
  Machine.logged_reachable (fun _ _ hG => hG.1) h

/-- What a worker takes up with the score of its user's last acquisition is due after the promise. -/
theorem not_runs_of_due {e : QueueEntry} {s : World} {as : List Acquisition}
    (hdue : due e s = true) (hfresh : Refreshed e s.services.redis as) {a : Acquisition}
    (ha : a ∈ as) (hseat : a.seat = e.seat) (huser : a.userId = e.userId) :
    ¬a.Runs s.services.redis.now := by
  have hmem : e ∈ s.services.redis.queue.upTo s.services.redis.timestamp := of_decide_eq_true hdue
  obtain ⟨x, hx, hxe⟩ := List.mem_map.1 hmem
  obtain ⟨hentry, hscore⟩ := List.mem_filter.1 hx
  have hle : x.2 ≤ s.services.redis.timestamp := of_decide_eq_true hscore
  have hge := hfresh a ha hseat huser x hentry hxe
  unfold Redis.timestamp at hle
  unfold Acquisition.Runs promisedMs
  omega

theorem promisesHold_run {p : PromisePool} {i : ℕ} {l : Link}
    (hp : promises.system.ReachableUnder PromiseRun p) (hI : PromisesHold p)
    (hG : PromiseRun p (.run i l)) {n : Task} {c : Cmd} {k : Rep c → Service Result}
    (hr : p.Runs i n (.call c k)) {s : (World × (ℕ → WorkerStage)) × AcquisitionLog} {r : Rep c}
    (hs : promises.exec n i l c p.store = some (s, r)) :
    PromisesHold ⟨s, p.threads.set i ⟨n, some (k r)⟩⟩ := by
  have hworking : p.working i = some n := Pool.working_eq_some.2 ⟨c, k, hr⟩
  obtain ⟨hstep, hlog⟩ := Machine.logged_exec.1 hs
  have hrun : exec i l c p.store.1.1 = some (s.1.1, r) := (Machine.staged_exec.1 hstep).1
  have hr' : p.threads[i]? = some ⟨n, some (.call c k)⟩ := hr
  rcases redis_exec hrun with ⟨k', rfl, ht⟩ | ⟨hne, ht⟩
  · have hredis := congrArg Payments.World.redis ht
    dsimp only at hredis
    have hacq : s.2.acquisitions = if l = .lost then p.store.2.acquisitions else
        acquisitionsAfter n (p.store.2.asked i) p.store.1.1.services.redis k'
          p.store.2.acquisitions := by
      rw [hlog]
      rfl
    obtain ⟨hext, halone⟩ : ExtendsAsked (p.store.2.asked i) l p.store.1.1.services.redis k' ∧
        AcquiresIdle (p.store.2.asked i) l p.store.1.1.services.redis k' p := by
      simpa only [KeepsPromises, hr'] using hG.2
    by_cases hl : l = .lost
    · rw [if_pos hl] at hredis hacq
      refine ⟨?_, fun j m e hj => ?_⟩
      · rw [hredis, hacq]
        exact hI.promised
      · rw [hredis, hacq]
        exact hI.idle j m e (Pool.working_of_set hworking hj)
    · rw [if_neg hl] at hredis hacq
      have hmay := workerMay_of_reachable (checked_of_promises hp) hr
      refine ⟨fun a ha => ?_, fun j m e hj he a ha hseat huser => ?_⟩
      · rw [hredis]
        rw [hacq] at ha
        refine promised_effect hI.promised hext (fun hentry b hb hrel => ?_) ha
        obtain ⟨e, he⟩ := Option.ne_none_iff_exists'.1 hentry
        simp only [workerMay, he] at hmay
        have hcmd := hmay.2 k' rfl
        -- the worker's script names its own entry's seat and user
        have hown : b.seat = e.seat ∧ b.userId = e.userId := by
          cases k' with
          | eval script showtimeId seatId user entry =>
              simp only [Redis.Cmd.releases] at hrel
              split_ifs at hrel
              simp only [Option.some.injEq, Prod.mk.injEq] at hrel
              obtain ⟨-, hshow, hseat, huser, -⟩ := hcmd
              rw [← hrel.1, ← hrel.2, hshow, hseat, huser]
              exact ⟨rfl, rfl⟩
          | _ => cases hrel
        exact hI.idle i n e hworking he b hb hown.1 hown.2
      · rw [hredis, Redis.effect_now]
        rw [hacq] at ha
        have hold := Pool.working_of_set hworking hj
        rcases mem_acquisitionsAfter ha with ⟨hof, -⟩ | ⟨hmem, -⟩
        · -- nobody acquires for the user while the worker is at work
          exfalso
          unfold AcquiresIdle at halone
          rw [hof] at halone
          obtain ⟨c', q', hrj⟩ := Pool.working_eq_some.1 hold
          have hidle := halone.resolve_left hl j
            (List.mem_range.2 (List.getElem?_eq_some_iff.1 hrj).1)
          simp only [IdleFor, hold, Option.bind_some, he] at hidle
          exact hidle ⟨hseat.symm, huser.symm⟩
        · exact hI.idle j m e hold he a hmem hseat huser
  · have hacq : s.2 = p.store.2 := by
      rw [hlog]
      unfold logAcquisitions
      split
      · next k' => exact absurd rfl (hne k')
      · rfl
    refine ⟨?_, fun j m e hj => ?_⟩
    · rw [ht, hacq]
      exact hI.promised
    · rw [ht, hacq]
      exact hI.idle j m e (Pool.working_of_set hworking hj)

theorem promisesHold_environ {p : PromisePool} (hI : PromisesHold p) {x : Environ}
    (hG : PromiseRun p (.environ x)) {s : (World × (ℕ → WorkerStage)) × AcquisitionLog}
    {ts : List (Task × Service Result)} (hs : promises.environ x p.store = some (s, ts)) :
    PromisesHold ⟨s, p.threads ++ Machine.start ts⟩ := by
  obtain ⟨hstep, hlog⟩ := Machine.logged_environ.1 hs
  have henv : environ x p.store.1.1 = some (s.1.1, ts) := (Machine.staged_environ.1 hstep).1
  obtain ⟨-, -, d, hredis⟩ := services_environ henv
  refine ⟨fun a ha hruns => ?_, fun j m e hj he a ha hseat huser hruns => ?_⟩
  · rw [hlog] at ha
    rw [hredis] at hruns ⊢
    have hruns : p.store.1.1.services.redis.now + d < a.acquiredAt + promisedMs := hruns
    exact hI.promised a ha (Nat.lt_of_le_of_lt (Nat.le_add_right _ d) hruns)
  · rw [hlog] at ha
    rw [hredis] at hruns
    have hruns : p.store.1.1.services.redis.now + d < a.acquiredAt + promisedMs := hruns
    have hbefore : a.Runs p.store.1.1.services.redis.now :=
      Nat.lt_of_le_of_lt (Nat.le_add_right _ d) hruns
    rcases Pool.working_of_start hj with hold | ⟨q, hq⟩
    · exact hI.idle j m e hold he a ha hseat huser hbefore
    · -- a worker is started on an entry with a fresh score
      obtain ⟨hdue, hx⟩ := environ_of_worker henv hq he
      have hfresh : Refreshed e p.store.1.1.services.redis p.store.2.acquisitions := by
        rcases hx with rfl | ⟨g, rfl⟩
        · exact hG.2
        · exact hG.2
      exact not_runs_of_due hdue hfresh ha hseat huser hbefore

theorem promisesHold_reachable {p : PromisePool}
    (h : promises.system.ReachableUnder PromiseRun p) : PromisesHold p := by
  induction h with
  | @init p h0 =>
      refine ⟨fun a ha => ?_, fun j m e hj => ?_⟩
      · rw [h0.1.2] at ha
        cases ha
      · obtain ⟨c, k, hr⟩ := Pool.working_eq_some.1 hj
        simp [Pool.Runs, h0.2] at hr
  | @step p q a hp hG hst ih =>
      have hst : promises.step p a = some q := hst
      cases a with
      | environ x =>
          obtain ⟨s, ts, hs, rfl⟩ := Machine.step_environ hst
          exact promisesHold_environ ih hG hs
      | run i l =>
          obtain ⟨n, c, k, s, r, hr, hs, rfl⟩ := Machine.step_run hst
          exact promisesHold_run hp ih hG hr hs
      | crash i =>
          obtain ⟨n, c, k, hr, rfl⟩ := Machine.step_crash hst
          exact ⟨ih.promised, fun j m e hj => ih.idle j m e (Pool.working_of_crash hj).2⟩

/-- A command of a worker leaves the other seats alone. -/
theorem effect_of_workerCmd {e : QueueEntry} {k : Redis.Cmd} (h : WorkerCmd e k) (s : Redis)
    {seat : ℤ × ℤ} (hne : seat ≠ e.seat) :
    (k.effect s).seatLock seat = s.seatLock seat ∧ (k.effect s).bitmap seat = s.bitmap seat := by
  have hreleases : ∀ userId, k.releases s ≠ some (seat, userId) := by
    intro userId hrel
    cases k with
    | eval script showtimeId seatId user entry =>
        simp only [Redis.Cmd.releases] at hrel
        split_ifs at hrel
        simp only [Option.some.injEq, Prod.mk.injEq] at hrel
        obtain ⟨-, hshow, hseat, -⟩ := h
        refine hne ?_
        rw [← hrel.1, hshow, hseat]
        rfl
    | _ => cases hrel
  have hwrites : ∀ state, k.writes s ≠ some (seat, state) := by
    intro state hw
    cases k with
    | eval script showtimeId seatId user entry =>
        simp only [Redis.Cmd.writes] at hw
        split_ifs at hw
        simp only [Option.some.injEq, Prod.mk.injEq] at hw
        obtain ⟨-, hshow, hseat, -⟩ := h
        refine hne ?_
        rw [← hw.1, hshow, hseat]
        rfl
    | setBits showtimeId seatId state =>
        simp only [Redis.Cmd.writes] at hw
        split_ifs at hw
        simp only [Option.some.injEq, Prod.mk.injEq] at hw
        obtain ⟨hshow, hseat, -⟩ := h
        refine hne ?_
        rw [← hw.1, hshow, hseat]
        rfl
    | writeMetadata => exact absurd h id
    | _ => cases hw
  refine ⟨?_, ?_⟩
  · cases Redis.keyEffect k s seat with
    | kept hkey => exact hkey
    | acquired hc _ =>
        rw [acquires_of_workerCmd h] at hc
        cases hc
    | released hc _ => exact absurd hc (hreleases _)
    | extended hc _ _ =>
        subst hc
        exact absurd h id
    | dropped hc _ =>
        subst hc
        exact absurd h id
  · by_contra hchange
    exact hwrites _ (Redis.effect_field hchange)

/-- A session is a worker on the entry of user 42, and the seat is promised to a user. -/
def MeetsPromise (i : ℕ) (userId : ℤ) (acquiredAt : ℕ) (p : PromisePool) : Prop :=
  (p.working i).bind Task.entry = some ⟨1, 1, 42⟩ ∧
    ⟨(1, 1), userId, acquiredAt⟩ ∈ p.store.2.acquisitions ∧
      p.store.1.1.services.redis.now < acquiredAt + promisedMs

instance {i : ℕ} {userId : ℤ} {acquiredAt : ℕ} {p : PromisePool} :
    Decidable (MeetsPromise i userId acquiredAt p) := by
  unfold MeetsPromise
  infer_instance

/-- User 42 extends the lock after 200 seconds, and the lock message of the extension is late. -/
def extendsSeat : List (Act Link Environ) :=
  locksSeat ++ .environ (.lockMessage 0) :: steps 2 3 ++ .environ (.tick 200000) ::
    .environ (.lock 1 42 1 [1] [1] 10) :: steps 3 11 ++ .environ (.actor 1 0 1) :: steps 4 7 ++
      [.environ (.tick 115000)]

end Gateway
end Bookit

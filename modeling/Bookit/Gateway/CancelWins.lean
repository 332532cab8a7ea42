import Bookit.Gateway.Answers
import Bookit.Gateway.LeftLocked
import Bookit.Redis.Remains

/-!
# Gateway.CancelWins — when a cancel undoes the lock before it

Lock and unlock messages are handled independently of each other: the metadata of a lock may be written
after its seat was released, and a release may be lost, or refused for another owner's sake.  Beside
the world we log which locks were accepted, freed and cancelled.
-/

namespace Bookit
namespace Gateway

open Lib LockServer

/-! ## The log of cancels -/

/-- A seat and a user. -/
abbrev Hold := (ℤ × ℤ) × ℤ

structure CancelLog where
  /-- How many messages had been published when a lock of the seat was last accepted for the user. -/
  lockedAt : Hold → Option ℕ
  /-- The locks that were deleted since they were last accepted. -/
  freed : List Hold
  /-- The locks whose cancel has succeeded since they were last accepted. -/
  cancelled : List Hold
  /-- For whom the field of a seat was last set to locked. -/
  lockers : ℤ × ℤ → Option ℤ

/-- The lock that the gateway accepts with a command: one that is acquired, or one that is extended for
the user whose task the actor serves. -/
def accepts (l : Link) (k : Redis.Cmd) (b : AnswerStage) (s : Redis) : Option Hold :=
  match k, b.serving with
  | .pexpireLock showtimeId seatId _, some (.lock _ userId _) => some ((showtimeId, seatId), userId)
  | _, _ => if l = .lost then none else (k.acquires s).map fun x => (x.1, x.2.1)

/-- The user for whom a command sets a field to locked. -/
def lockerOf : Redis.Cmd → Option ℤ
  | .writeMetadata _ _ userId .. => some userId
  | .eval _ _ _ userId _ => some userId
  | _ => none

namespace CancelLog

def start : CancelLog := ⟨fun _ => none, [], [], fun _ => none⟩

/-- After a Redis command, with so many messages published. -/
def afterRedis (log : CancelLog) (l : Link) (k : Redis.Cmd) (b : AnswerStage) (published : ℕ)
    (s : Redis) : CancelLog :=
  { lockedAt := fun x => if accepts l k b s = some x then some published else log.lockedAt x
    freed := (if l = .lost then [] else (k.frees s).toList) ++
      log.freed.filter fun x => !decide (accepts l k b s = some x)
    cancelled := log.cancelled.filter fun x => !decide (accepts l k b s = some x)
    lockers := fun seat =>
      if l ≠ .lost ∧ k.writes s = some (seat, .locked) then lockerOf k else log.lockers seat }

end CancelLog

/-- The locks whose cancel succeeds with a command. -/
def succeeds (n : Task) (i : ℕ) (c : Cmd) (s : World) : List Hold :=
  match n, c with
  | .cancel _ userId showtimeId _, .awaitAnswer g =>
      match (s.gateways g).answers.find? fun a => decide (a.1 = i) with
      | some (_, .cancel seatIds) => seatIds.map fun a => ((showtimeId, a), userId)
      | _ => []
  | _, _ => []

def logCancels (n : Task) (i : ℕ) (l : Link) (c : Cmd) (s : World × (ℕ → AnswerStage))
    (log : CancelLog) : CancelLog :=
  match c with
  | .service (.redis k) =>
      log.afterRedis l k (s.2 i) s.1.lockingQueue.length s.1.services.redis
  | c => { log with cancelled := succeeds n i c s.1 ++ log.cancelled }

/-- The machine with the log of cancels. -/
def cancels : Machine ((World × (ℕ → AnswerStage)) × CancelLog) Rep Task Result Link Environ :=
  answering.logged .start logCancels

abbrev CancelPool := Pool ((World × (ℕ → AnswerStage)) × CancelLog) Rep Task Result

/-- Of the user's lock of the seat something remains, or the field says locked on the user's behalf. -/
def LeftOver (s : Redis) (log : CancelLog) (x : Hold) : Prop :=
  s.Remains x.1 x.2 ∨ s.bitmap x.1 = .locked ∧ log.lockers x.1 = some x.2

instance {s : Redis} {log : CancelLog} {x : Hold} : Decidable (LeftOver s log x) := by
  unfold LeftOver
  infer_instance

/-! ## The condition -/

/-- Nothing is added for a lock that was freed and not accepted since. -/
def AddsNothing (l : Link) (c : Cmd) (log : CancelLog) : Prop :=
  match c with
  | .service (.redis k) => l = .lost ∨ ∀ x ∈ k.marks, x ∉ log.freed
  | _ => True

instance {l : Link} {c : Cmd} {log : CancelLog} : Decidable (AddsNothing l c log) := by
  unfold AddsNothing
  rcases c with c | _
  · rcases c with ⟨⟩ <;> infer_instance
  all_goals infer_instance

/-- An unlock message for the lock was published from the `m`-th message on. -/
def UnlocksFrom (s : World) (x : Hold) (m : ℕ) : Prop :=
  ∃ k ∈ List.range s.lockingQueue.length, m ≤ k ∧
    ∃ message ∈ s.lockingQueue[k]?, Unlocks message x.1 x.2

instance {s : World} {x : Hold} {m : ℕ} : Decidable (UnlocksFrom s x m) := by
  unfold UnlocksFrom
  infer_instance

/-- Where an unlock message for the lock was published at all, one was since the lock was accepted. -/
def UnlocksLast (s : World) (log : CancelLog) (x : Hold) : Prop :=
  (∃ message ∈ s.lockingQueue, Unlocks message x.1 x.2) →
    ∀ m ∈ log.lockedAt x, UnlocksFrom s x m

instance {s : World} {log : CancelLog} {x : Hold} : Decidable (UnlocksLast s log x) := by
  unfold UnlocksLast
  infer_instance

/-- An unlock message comes to its end with the locks freed that were accepted before it. -/
def EndsFreed (s : World) (log : CancelLog) (n : Task) (q : Prog Rep Result) : Prop :=
  q.returned = false ∨ ∀ k ∈ n.message, ∀ message ∈ s.lockingQueue[k]?,
    message.action = "unlock" → ∀ a ∈ message.seatIds,
      ∀ m ∈ log.lockedAt ((message.showtimeId, a), message.userId), m ≤ k →
        ((message.showtimeId, a), message.userId) ∈ log.freed

instance {s : World} {log : CancelLog} {n : Task} {q : Prog Rep Result} :
    Decidable (EndsFreed s log n q) := by
  unfold EndsFreed
  infer_instance

/-- What a step has to keep to. -/
def KeepsCancels (p : CancelPool) (i : ℕ) (l : Link) (n : Task) (c : Cmd)
    (k : Rep c → Prog Rep Result) : Prop :=
  AddsNothing l c (logCancels n i l c p.store.1 p.store.2) ∧
    (∀ x ∈ succeeds n i c p.store.1.1, UnlocksLast p.store.1.1 p.store.2 x) ∧
      ∀ x ∈ exec i l c p.store.1.1,
        EndsFreed p.store.1.1 (logCancels n i l c p.store.1 p.store.2) n (k x.2)

instance {p : CancelPool} {i : ℕ} {l : Link} {n : Task} {c : Cmd} {k : Rep c → Prog Rep Result} :
    Decidable (KeepsCancels p i l n c k) := by
  unfold KeepsCancels
  infer_instance

/-- Nothing is added for a lock after it was freed, unlock messages free the locks accepted before
them, and no lock is accepted between the message of a cancel and its success. -/
def CancelsInOrder (p : CancelPool) : Act Link Environ → Prop
  | .run i l =>
      match p.threads[i]? with
      | some ⟨n, some (.call c k)⟩ => KeepsCancels p i l n c k
      | _ => True
  | _ => True

instance {p : CancelPool} {a : Act Link Environ} : Decidable (CancelsInOrder p a) := by
  unfold CancelsInOrder
  rcases a with _ | ⟨i, l⟩ | _
  · infer_instance
  · dsimp only
    rcases p.threads[i]? with _ | ⟨n, _ | _ | ⟨c, k⟩⟩ <;> infer_instance
  · infer_instance

/-- All messages of the locking queue were handled. -/
def AllAcked (p : CancelPool) : Prop :=
  ∀ k ∈ List.range p.store.1.1.lockingQueue.length, Acked p k

instance {p : CancelPool} : Decidable (AllAcked p) := by
  unfold AllAcked
  infer_instance

/-! ## The invariant -/

/-- Of freed locks nothing is left, unlock messages that were handled have freed the locks accepted
before them, and a cancel that succeeded has such a message. -/
structure CancelsHold (p : CancelPool) : Prop where
  inRange : LockedInRange p.store.1.1.services.redis
  freed : ∀ x ∈ p.store.2.freed, ¬LeftOver p.store.1.1.services.redis p.store.2 x
  delivered : ∀ i k message, p.task i = some (.lockMessage k message) →
    k < p.store.1.1.lockingQueue.length
  acked : ∀ k message x m, p.store.1.1.lockingQueue[k]? = some message →
    Unlocks message x.1 x.2 → Acked p k → p.store.2.lockedAt x = some m → m ≤ k →
      x ∈ p.store.2.freed
  cancelled : ∀ x ∈ p.store.2.cancelled, ∀ m ∈ p.store.2.lockedAt x, UnlocksFrom p.store.1.1 x m

section Log

variable {l : Link} {k : Redis.Cmd} {b : AnswerStage} {s : Redis} {log : CancelLog} {x : Hold}
variable {published : ℕ}

/-- A lock that is acquired is accepted. -/
theorem accepts_of_acquires (hl : l ≠ .lost) {ttlMs : ℕ} (h : k.acquires s = some (x.1, x.2, ttlMs)) :
    accepts l k b s = some x := by
  unfold accepts
  split
  · cases h
  · rw [if_neg hl, h]
    rfl

/-- A field that is set to locked belongs to a user for whom something is added. -/
theorem mem_marks_of_lockerOf {seat : ℤ × ℤ} {u : ℤ} (h : k.writes s = some (seat, .locked))
    (hu : lockerOf k = some u) : (seat, u) ∈ k.marks := by
  cases k with
  | eval script showtimeId seatId userId entry =>
      obtain rfl := Option.some.inj hu
      simp only [Redis.Cmd.writes] at h
      split_ifs at h
      obtain ⟨rfl, hstate⟩ := Prod.mk.inj (Option.some.inj h)
      cases script with
      | acquire => exact List.mem_cons_self
      | _ => cases hstate
  | writeMetadata showtimeId seatId userId expiry processingExpiry entry =>
      obtain rfl := Option.some.inj hu
      simp only [Redis.Cmd.writes] at h
      split_ifs at h
      obtain ⟨rfl, -⟩ := Prod.mk.inj (Option.some.inj h)
      exact List.mem_cons_self
  | _ => cases hu

/-- Nothing is left of a lock that was freed, whatever a command does that adds nothing for it. -/
theorem not_leftOver_effect (hl : l ≠ .lost)
    (hold : x ∈ log.freed → ¬LeftOver s log x) (hrange : LockedInRange (k.effect s))
    (hadds : ∀ y ∈ k.marks, y ∉ (log.afterRedis l k b published s).freed)
    (hx : x ∈ (log.afterRedis l k b published s).freed) :
    ¬LeftOver (k.effect s) (log.afterRedis l k b published s) x := by
  have hmarks : x ∉ k.marks := fun h => hadds x h hx
  have hx : x ∈ (if l = .lost then [] else (k.frees s).toList) ++
      log.freed.filter fun y => !decide (accepts l k b s = some y) := hx
  rw [if_neg hl] at hx
  rcases List.mem_append.1 hx with hfrees | hkept
  · -- the command frees the lock itself
    obtain ⟨hremains, hfield⟩ :=
      Redis.not_remains_of_frees (Option.mem_toList.1 hfrees)
    rintro (h | ⟨hlocked, -⟩)
    · exact hremains h
    · exact hfield (hrange x.1 hlocked) hlocked
  · obtain ⟨hmem, haccepts⟩ := List.mem_filter.1 hkept
    have haccepts : accepts l k b s ≠ some x := by simpa using haccepts
    rintro (h | ⟨hlocked, hlocker⟩)
    · rcases Redis.effect_remains h hmarks with hbefore | ⟨ttlMs, hacquires⟩
      · exact hold hmem (.inl hbefore)
      · exact haccepts (accepts_of_acquires hl hacquires)
    · have hlocker : (if l ≠ .lost ∧ k.writes s = some (x.1, .locked) then lockerOf k
          else log.lockers x.1) = some x.2 := hlocker
      split_ifs at hlocker with hwrites
      · exact hmarks (mem_marks_of_lockerOf hwrites.2 hlocker)
      · have hsame : (k.effect s).bitmap x.1 = s.bitmap x.1 := by
          by_contra hne
          have hfield := Redis.effect_field hne
          rw [hlocked] at hfield
          exact hwrites ⟨hl, hfield⟩
        exact hold hmem (.inr ⟨hsame ▸ hlocked, hlocker⟩)

/-- A command that is lost frees nothing and adds nothing. -/
theorem afterRedis_lost (hx : x ∈ (log.afterRedis .lost k b published s).freed) :
    x ∈ log.freed ∧ (log.afterRedis .lost k b published s).lockers = log.lockers := by
  refine ⟨(List.mem_filter.1 hx).1, ?_⟩
  funext seat
  have hlost : ¬(Link.lost ≠ Link.lost ∧ k.writes s = some (seat, .locked)) := fun h => h.1 rfl
  show (if Link.lost ≠ Link.lost ∧ k.writes s = some (seat, .locked) then lockerOf k
    else log.lockers seat) = log.lockers seat
  rw [if_neg hlost]

end Log

section Runs

variable {p : CancelPool} {G : CancelPool → Act Link Environ → Prop}

/-- A run with its log of cancels is one with the stages of requests and actors. -/
theorem answering_reachable (h : cancels.system.ReachableUnder G p) :
    answering.system.ReachableUnder (fun _ _ => True) ⟨p.store.1, p.threads⟩ :=
  Machine.logged_reachable (fun _ _ _ => trivial) h

theorem unlocksFrom_append {s t : World} {x : Hold} {m : ℕ} {messages : List SeatLockMessage}
    (hqueue : t.lockingQueue = s.lockingQueue ++ messages) (h : UnlocksFrom s x m) :
    UnlocksFrom t x m := by
  obtain ⟨k, hk, hle, message, hmessage, hunlocks⟩ := h
  have hmessage : s.lockingQueue[k]? = some message := hmessage
  refine ⟨k, ?_, hle, message, ?_, hunlocks⟩
  · rw [List.mem_range, hqueue, List.length_append]
    exact Nat.lt_of_lt_of_le (List.mem_range.1 hk) (Nat.le_add_right _ _)
  · show t.lockingQueue[k]? = some message
    rw [hqueue, List.getElem?_append_left (List.getElem?_eq_some_iff.1 hmessage).1]
    exact hmessage

theorem lockedInRange_exec {i : ℕ} {l : Link} {c : Cmd} {s t : World} {r : Rep c}
    (h : LockedInRange s.services.redis) (hrun : exec i l c s = some (t, r)) :
    LockedInRange t.services.redis := by
  rcases redis_exec hrun with ⟨k, rfl, ht⟩ | ⟨-, ht⟩
  · rw [ht]
    by_cases hl : l = .lost
    · rw [if_pos hl]
      exact h
    · rw [if_neg hl]
      exact h.effect
  · rw [ht]
    exact h

/-- Commands other than those of Redis change of the log which cancels have succeeded. -/
theorem logCancels_other {n : Task} {i : ℕ} {l : Link} {c : Cmd} {s : World × (ℕ → AnswerStage)}
    {log : CancelLog} (hc : ∀ k, c ≠ .service (.redis k)) :
    logCancels n i l c s log = { log with cancelled := succeeds n i c s.1 ++ log.cancelled } := by
  cases c with
  | service c =>
      cases c with
      | redis k => exact absurd rfl (hc k)
      | _ => rfl
  | _ => rfl

/-- A cancel that succeeds has an unlock message published. -/
theorem unlocks_of_succeeds (hp : cancels.system.ReachableUnder G p) {i : ℕ} {l : Link} {n : Task}
    {c : Cmd} {k : Rep c → Service Result} (hr : p.Runs i n (.call c k)) {t : World} {r : Rep c}
    (hrun : exec i l c p.store.1.1 = some (t, r)) {x : Hold}
    (hx : x ∈ succeeds n i c p.store.1.1) :
    ∃ message ∈ p.store.1.1.lockingQueue, Unlocks message x.1 x.2 := by
  unfold succeeds at hx
  split at hx
  · next g' userId showtimeId seats g =>
    split at hx
    · next ticket seatIds hfind =>
      obtain ⟨a, ha, rfl⟩ := List.mem_map.1 hx
      simp only [exec, hfind, Option.some.injEq, Prod.mk.injEq] at hrun
      obtain ⟨rfl, rfl⟩ := hrun
      refine unlocks_of_answer (answering_reachable hp) (l := .ok) (t := p.store.1.1) hr ?_ ha
      simp only [exec, hfind]
    · cases hx
  · cases hx

theorem acked_lt (hI : CancelsHold p) {k : ℕ} (h : Acked p k) :
    k < p.store.1.1.lockingQueue.length := by
  obtain ⟨t, ht, hended⟩ := h
  obtain ⟨j, hj⟩ := List.mem_iff_getElem?.1 ht
  unfold Ended at hended
  split at hended
  · next k' message x =>
    subst hended
    exact hI.delivered j k' message (congrArg (Option.map Thread.info) hj)
  · exact absurd hended id

theorem cancelsHold_run {i : ℕ} {l : Link} (hp : cancels.system.ReachableUnder G p)
    (hI : CancelsHold p) (hG : CancelsInOrder p (.run i l)) {n : Task} {c : Cmd}
    {k : Rep c → Service Result} (hr : p.Runs i n (.call c k))
    {s : (World × (ℕ → AnswerStage)) × CancelLog} {r : Rep c}
    (hs : cancels.exec n i l c p.store = some (s, r)) :
    CancelsHold ⟨s, p.threads.set i ⟨n, some (k r)⟩⟩ := by
  obtain ⟨hans, hlog⟩ := Machine.logged_exec.1 hs
  obtain ⟨hrun, -⟩ := Machine.staged_exec.1 hans
  have hrun : exec i l c p.store.1.1 = some (s.1.1, r) := hrun
  have hr' : p.threads[i]? = some ⟨n, some (.call c k)⟩ := hr
  obtain ⟨hadds, hlast, hends⟩ : KeepsCancels p i l n c k := by
    simpa only [CancelsInOrder, hr'] using hG
  have hends : EndsFreed p.store.1.1 s.2 n (k r) := by
    rw [hlog]
    exact hends (s.1.1, r) hrun
  obtain ⟨messages, hqueue⟩ := lockingQueue_exec hrun
  have hrange := lockedInRange_exec hI.inRange hrun
  have htask : ∀ j, Pool.task ⟨s, p.threads.set i ⟨n, some (k r)⟩⟩ j = p.task j :=
    fun j => Pool.task_set (Pool.Runs.task hr)
  -- of a lock that a step does not accept, the log says what it said, and that it was freed still
  have hkept : ∀ x m, s.2.lockedAt x = some m → m ≠ p.store.1.1.lockingQueue.length →
      p.store.2.lockedAt x = some m ∧ (x ∈ p.store.2.freed → x ∈ s.2.freed) := by
    intro x m hm hne
    rw [hlog] at hm ⊢
    rcases redis_exec hrun with ⟨k', rfl, -⟩ | ⟨hother, -⟩
    · have hm : (if accepts l k' (p.store.1.2 i) p.store.1.1.services.redis = some x then
        some p.store.1.1.lockingQueue.length else p.store.2.lockedAt x) = some m := hm
      split_ifs at hm with haccepts
      · exact absurd (Option.some.inj hm).symm hne
      · refine ⟨hm, fun hx => List.mem_append_right _ (List.mem_filter.2 ⟨hx, ?_⟩)⟩
        simpa using haccepts
    · rw [logCancels_other hother] at hm ⊢
      exact ⟨hm, id⟩
  have hget : ∀ {m : ℕ} {message : SeatLockMessage}, s.1.1.lockingQueue[m]? = some message →
      m < p.store.1.1.lockingQueue.length → p.store.1.1.lockingQueue[m]? = some message := by
    intro m message hm hlt
    rwa [hqueue, List.getElem?_append_left hlt] at hm
  refine ⟨hrange, fun x hx => ?_, fun j m message hj => ?_, fun m message x m₀ hm hunlocks hacked
    hlocked hle => ?_, fun x hx m hm => ?_⟩
  · have hx : x ∈ s.2.freed := hx
    have hrange : LockedInRange s.1.1.services.redis := hrange
    show ¬LeftOver s.1.1.services.redis s.2 x
    rw [hlog] at hx ⊢
    rcases redis_exec hrun with ⟨k', rfl, ht⟩ | ⟨hother, ht⟩
    · have hredis := congrArg Payments.World.redis ht
      dsimp only at hredis
      by_cases hl : l = .lost
      · subst hl
        obtain ⟨hold, hlockers⟩ := afterRedis_lost hx
        rw [hredis, if_pos rfl]
        rintro (hremains | ⟨hfield, hlocker⟩)
        · exact hI.freed x hold (.inl hremains)
        · have hlocker : (p.store.2.afterRedis .lost k' _ _ _).lockers x.1 = some x.2 := hlocker
          rw [hlockers] at hlocker
          exact hI.freed x hold (.inr ⟨hfield, hlocker⟩)
      · rw [hredis, if_neg hl] at hrange ⊢
        exact not_leftOver_effect hl (hI.freed x) hrange (hadds.resolve_left hl) hx
    · rw [logCancels_other hother] at hx ⊢
      rw [ht]
      exact hI.freed x hx
  · rw [htask] at hj
    show m < s.1.1.lockingQueue.length
    rw [hqueue, List.length_append]
    exact Nat.lt_of_lt_of_le (hI.delivered j m message hj) (Nat.le_add_right _ _)
  · rcases acked_of_set hacked with hbefore | ⟨hn, y, hy⟩
    · have hlt := acked_lt hI hbefore
      obtain ⟨hlocked, hfreed⟩ := hkept x m₀ hlocked (Nat.ne_of_lt (Nat.lt_of_le_of_lt hle hlt))
      exact hfreed (hI.acked m message x m₀ (hget hm hlt) hunlocks hbefore hlocked hle)
    · have hlt : m < p.store.1.1.lockingQueue.length := by
        cases n with
        | lockMessage k' message' =>
            obtain rfl := Option.some.inj hn
            exact hI.delivered i k' message' (Pool.Runs.task hr)
        | _ => cases hn
      have hreturned : ¬(k r).returned = false := by
        rw [Option.some.inj hy]
        intro hreturned
        cases hreturned
      obtain ⟨haction, huser, hshow, hseat⟩ := hunlocks
      have hx : ((message.showtimeId, x.1.2), message.userId) = x := by rw [hshow, huser]
      have hfreed := hends.resolve_left hreturned m hn message (hget hm hlt) haction x.1.2 hseat m₀
      rw [hx] at hfreed
      exact hfreed hlocked hle
  · have hx : x ∈ s.2.cancelled := hx
    have hm : s.2.lockedAt x = some m := hm
    refine unlocksFrom_append hqueue ?_
    rw [hlog] at hx hm
    rcases redis_exec hrun with ⟨k', rfl, -⟩ | ⟨hother, -⟩
    · obtain ⟨hmem, haccepts⟩ := List.mem_filter.1 hx
      have haccepts : accepts l k' (p.store.1.2 i) p.store.1.1.services.redis ≠ some x := by
        simpa using haccepts
      have hm : (if accepts l k' (p.store.1.2 i) p.store.1.1.services.redis = some x then
        some p.store.1.1.lockingQueue.length else p.store.2.lockedAt x) = some m := hm
      rw [if_neg haccepts] at hm
      exact hI.cancelled x hmem m hm
    · rw [logCancels_other hother] at hx hm
      rcases List.mem_append.1 hx with hnew | hold
      · exact hlast x hnew (unlocks_of_succeeds hp hr hrun hnew) m hm
      · exact hI.cancelled x hold m hm

/-- A message that unlocks a seat has something to do. -/
theorem returned_unlockMessage {message : SeatLockMessage} {seat : ℤ × ℤ} {u : ℤ}
    (h : Unlocks message seat u) : (forget (onRedis (processLockRequest message))).returned = false := by
  unfold processLockRequest
  rw [if_pos h.1]
  cases hseats : message.seatIds with
  | nil =>
      have hseat := h.2.2.2
      rw [hseats] at hseat
      cases hseat
  | cons seatId seatIds => rfl

theorem cancelsHold_environ (hI : CancelsHold p) {x : Environ}
    {s : (World × (ℕ → AnswerStage)) × CancelLog} {ts : List (Task × Service Result)}
    (hs : cancels.environ x p.store = some (s, ts)) :
    CancelsHold ⟨s, p.threads ++ Machine.start ts⟩ := by
  obtain ⟨hans, hlog⟩ := Machine.logged_environ.1 hs
  obtain ⟨henv, -⟩ := Machine.staged_environ.1 hans
  have henv : environ x p.store.1.1 = some (s.1.1, ts) := henv
  obtain ⟨hqueue, -, d, hredis⟩ := services_environ henv
  refine ⟨fun seat hlocked => ?_, fun y hy => ?_, fun i k message hi => ?_,
    fun k message y m hk hunlocks hacked hlocked hle => ?_, fun y hy m hm => ?_⟩
  · have hlocked : s.1.1.services.redis.bitmap seat = .locked := hlocked
    rw [hredis] at hlocked
    exact hI.inRange seat hlocked
  · have hy : y ∈ s.2.freed := hy
    show ¬LeftOver s.1.1.services.redis s.2 y
    rw [hlog] at hy ⊢
    rw [hredis]
    rintro (hremains | hfield)
    · exact hI.freed y hy (.inl (Redis.remains_tick hremains))
    · exact hI.freed y hy (.inr hfield)
  · show k < s.1.1.lockingQueue.length
    rw [hqueue]
    obtain ⟨t, ht, htask⟩ := Option.map_eq_some_iff.1 hi
    rcases List.mem_append.1 (List.mem_of_getElem? ht) with hold | hnew
    · obtain ⟨j, hj⟩ := List.mem_iff_getElem?.1 hold
      exact hI.delivered j k message (by rw [Pool.task, hj, Option.map_some, htask])
    · obtain ⟨⟨n, q⟩, hq, rfl⟩ := List.mem_map.1 hnew
      obtain rfl : n = .lockMessage k message := htask
      cases started_of_environ henv _ _ hq with
      | lockMessage hmessage => exact (List.getElem?_eq_some_iff.1 hmessage).1
  · have hk : s.1.1.lockingQueue[k]? = some message := hk
    have hlocked : s.2.lockedAt y = some m := hlocked
    show y ∈ s.2.freed
    rw [hqueue] at hk
    rw [hlog] at hlocked ⊢
    refine hI.acked k message y m hk hunlocks ?_ hlocked hle
    -- a message that unlocks a seat is started with something to do
    have hreturned := returned_unlockMessage hunlocks
    exact acked_of_start (started_of_environ henv) hk hreturned hacked
  · have hy : y ∈ s.2.cancelled := hy
    have hm : s.2.lockedAt y = some m := hm
    rw [hlog] at hy hm
    have hsame : s.1.1.lockingQueue = p.store.1.1.lockingQueue ++ [] := by
      rw [hqueue, List.append_nil]
    exact unlocksFrom_append hsame (hI.cancelled y hy m hm)

theorem cancelsHold_crash (hI : CancelsHold p) {i : ℕ} {n : Task} {c : Cmd}
    {k : Rep c → Service Result} (hr : p.Runs i n (.call c k)) :
    CancelsHold ⟨cancels.close i p.store, p.threads.set i ⟨n, none⟩⟩ := by
  refine ⟨hI.inRange, hI.freed, fun j m message hj => ?_,
    fun m message x m₀ hm hunlocks hacked => ?_, hI.cancelled⟩
  · have htask : Pool.task ⟨cancels.close i p.store, p.threads.set i ⟨n, none⟩⟩ j = p.task j :=
      Pool.task_set (Pool.Runs.task hr)
    rw [htask] at hj
    exact hI.delivered j m message hj
  · rcases acked_of_set hacked with hbefore | ⟨-, x, hx⟩
    · exact hI.acked m message x m₀ hm hunlocks hbefore
    · cases hx

theorem cancelsHold_reachable (h : cancels.system.ReachableUnder CancelsInOrder p) :
    CancelsHold p := by
  induction h with
  | @init p h0 =>
      obtain ⟨⟨⟨⟨seats, hstore⟩, -⟩, hlog⟩, hthreads⟩ := h0
      have hlog : p.store.2 = .start := hlog
      refine ⟨fun seat hlocked => ?_, fun x hx => ?_, fun i k message hi => ?_,
        fun k message x m hk => ?_, fun x hx => ?_⟩
      · rw [hstore] at hlocked
        cases hlocked
      · rw [hlog] at hx
        cases hx
      · rw [Pool.task, hthreads] at hi
        cases hi
      · rw [hstore] at hk
        cases hk
      · rw [hlog] at hx
        cases hx
  | @step p q a hp hG hst ih =>
      have hst : cancels.step p a = some q := hst
      cases a with
      | environ x =>
          obtain ⟨s, ts, hs, rfl⟩ := Machine.step_environ hst
          exact cancelsHold_environ ih hs
      | run i l =>
          obtain ⟨n, c, k, s, r, hr, hs, rfl⟩ := Machine.step_run hst
          exact cancelsHold_run hp ih hG hr hs
      | crash i =>
          obtain ⟨n, c, k, hr, rfl⟩ := Machine.step_crash hst
          exact cancelsHold_crash ih hr

end Runs

/-- User 42 locks seat 1 of show 1 and cancels, and both requests return. -/
def cancelsSeat : List (Act Link Environ) :=
  locksSeat ++ steps 0 2 ++ .environ (.cancel 0 42 1 [1] [1] 10) :: steps 2 11 ++
    .environ (.actor 0 0 1) :: steps 3 3 ++ steps 2 1

/-- The lock of seat 1 of show 1 was accepted for user 42 and cancelled since, and all messages were
handled. -/
def CancelHandled (p : CancelPool) : Prop :=
  AllAcked p ∧ (p.store.2.lockedAt ((1, 1), 42)).isSome = true ∧ ((1, 1), 42) ∈ p.store.2.cancelled

instance {p : CancelPool} : Decidable (CancelHandled p) := by
  unfold CancelHandled
  infer_instance

end Gateway
end Bookit

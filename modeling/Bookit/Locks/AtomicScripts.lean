import Bookit.Redis.SingleNodeLock

/-!
# Locks.AtomicScripts — the seat lock as its scripts implement it

The five scripts, each taken as one step, write both lock keys, the delayed queue and the bitmap
together.  So the two lock keys of a seat agree between any two of them, deadlines included, and the
delayed queue has an entry of the owner of every live lock, due fifteen seconds after the lock.
-/

namespace Bookit
namespace Locks

open Lib SingleNodeLock

/-! ## Scripts as steps -/

inductive ScriptOp where
  | acquire (expiresInSec : ℤ)
  | release
  | releaseExpired
  | book
  | forceBook
  deriving DecidableEq

structure ScriptCall where
  op : ScriptOp
  showtimeId : ℤ
  seatId : ℤ
  userId : ℤ
  deriving DecidableEq

/-- The script of an operation that reads the clock at `now`. -/
def ScriptOp.script (now : ℤ) : ScriptOp → Redis.Script
  | acquire expiresInSec =>
      .acquire (ttlMs expiresInSec) (now + expiresInSec) (now + expiresInSec + 15)
  | release => .release
  | releaseExpired => .releaseExpired
  | book => .book
  | forceBook => .forceBook

/-- The effect and the answer of a call, for the queue member of its own seat and user. -/
def ScriptCall.run (c : ScriptCall) (s : Redis) : Redis × Option ℤ :=
  Redis.eval (c.op.script s.timestamp) c.showtimeId c.seatId c.userId
    (queueMember c.showtimeId c.seatId c.userId) s

inductive ScriptAct where
  | tick (d : ℕ)
  | call (c : ScriptCall)
  deriving DecidableEq

/-- The scripts, in any order and with any passage of time. -/
def scripts : System Redis ScriptAct where
  init s := s = Redis.empty
  step s
    | .tick d => some { s with now := s.now + d }
    | .call c => some (c.run s).1

/-- A time to live is a positive 32-bit number. -/
def ScriptOp.ValidTtl : ScriptOp → Prop
  | acquire expiresInSec => 0 < expiresInSec ∧ expiresInSec < 2 ^ 31
  | _ => True

/-- Seat ids and times to live are positive. -/
def Positive (_ : Redis) : ScriptAct → Prop
  | .tick _ => True
  | .call c => 0 < c.seatId ∧ c.op.ValidTtl

instance : (o : ScriptOp) → Decidable o.ValidTtl
  | .acquire expiresInSec =>
      inferInstanceAs (Decidable (0 < expiresInSec ∧ expiresInSec < 2 ^ 31))
  | .release => isTrue trivial
  | .releaseExpired => isTrue trivial
  | .book => isTrue trivial
  | .forceBook => isTrue trivial

instance : (s : Redis) → (a : ScriptAct) → Decidable (Positive s a)
  | _, .tick _ => isTrue trivial
  | _, .call c => inferInstanceAs (Decidable (0 < c.seatId ∧ c.op.ValidTtl))

/-- Run alone, an acquisition answers `true` where its script answers `1`. -/
theorem evalOp_acquireSeatLockLua (s : Redis) (showtimeId seatId userId expiresInSec : ℤ) :
    (evalOp (acquireSeatLockLua showtimeId seatId userId expiresInSec) s).2 =
      decide ((ScriptCall.run ⟨.acquire expiresInSec, showtimeId, seatId, userId⟩ s).2 =
        some 1) := by
  show (evalOp (if (ScriptCall.run ⟨.acquire expiresInSec, showtimeId, seatId, userId⟩ s).2 = some 1
    then _ else _) _).2 = _
  split_ifs with h
  · rw [h]
    simp only [setScheduleSeatBitmapStateCluster]
    split_ifs <;> rfl
  · simp [evalOp, h]

/-! ## The invariant -/

/-- The two lock keys agree, and the queue has the entry of the owner. -/
structure KeysAgree (s : Redis) : Prop where
  context : ∀ showtimeId seatId userId d, s.seatLock (showtimeId, seatId) = some (userId, d) →
    s.now ≤ d → s.seatContext (showtimeId, seatId, userId) = some ((), d)
  lock : ∀ showtimeId seatId userId d, s.seatContext (showtimeId, seatId, userId) = some ((), d) →
    s.now ≤ d → s.seatLock (showtimeId, seatId) = some (userId, d)
  queued : ∀ showtimeId seatId userId d, s.seatLock (showtimeId, seatId) = some (userId, d) →
    s.now ≤ d → ∃ score, (queueMember showtimeId seatId userId, score) ∈ s.queue.entries ∧
      ((d / 1000 : ℕ) : ℤ) + 15 ≤ score

/-- The parts of the state that the invariant is about. -/
def lockKeys (s : Redis) :
    ℕ × Expiring (ℤ × ℤ) ℤ × Expiring (ℤ × ℤ × ℤ) Unit × SortedSet QueueEntry :=
  (s.now, s.seatLock, s.seatContext, s.queue)

theorem KeysAgree.congr {s t : Redis} (hs : KeysAgree s) (h : lockKeys t = lockKeys s) :
    KeysAgree t := by
  obtain ⟨hnow, hlock, hcontext, hqueue⟩ : t.now = s.now ∧ t.seatLock = s.seatLock ∧
      t.seatContext = s.seatContext ∧ t.queue = s.queue := by
    simpa only [lockKeys, Prod.mk.injEq] using h
  constructor
  · rw [hnow, hlock, hcontext]
    exact hs.context
  · rw [hnow, hlock, hcontext]
    exact hs.lock
  · rw [hnow, hlock, hqueue]
    exact hs.queued

/-! ## What a script can do -/

@[simp] theorem lockKeys_setBits (s : Redis) (showtimeId seatId : ℤ) (state : SeatState) :
    lockKeys (s.setBits showtimeId seatId state) = lockKeys s := by
  unfold Redis.setBits
  split_ifs <;> rfl

/-- The keys after an acquisition. -/
def acquiredKeys (c : ScriptCall) (expiresInSec : ℤ) (s : Redis) :
    ℕ × Expiring (ℤ × ℤ) ℤ × Expiring (ℤ × ℤ × ℤ) Unit × SortedSet QueueEntry :=
  (s.now,
    s.seatLock.put (c.showtimeId, c.seatId) c.userId (s.now + ttlMs expiresInSec),
    s.seatContext.put (c.showtimeId, c.seatId, c.userId) () (s.now + ttlMs expiresInSec),
    s.queue.add (queueMember c.showtimeId c.seatId c.userId) (s.timestamp + expiresInSec + 15))

/-- The keys after a release or a booking. -/
def releasedKeys (c : ScriptCall) (s : Redis) :
    ℕ × Expiring (ℤ × ℤ) ℤ × Expiring (ℤ × ℤ × ℤ) Unit × SortedSet QueueEntry :=
  (s.now, s.seatLock.del (c.showtimeId, c.seatId),
    s.seatContext.del (c.showtimeId, c.seatId, c.userId),
    s.queue.rem (queueMember c.showtimeId c.seatId c.userId))

/-- The user may act on the seat: nobody else owns it. -/
def ScriptCall.MayAct (c : ScriptCall) (s : Redis) : Prop :=
  s.freeOrOwnedBy c.showtimeId c.seatId c.userId = true

/-- A call changes no key, or acquires or releases a seat it may act on, or drops an entry of a user
who does not own the seat. -/
theorem run_cases (c : ScriptCall) (s : Redis) :
    lockKeys (c.run s).1 = lockKeys s ∨
    (∃ e, c.op = .acquire e ∧ c.MayAct s ∧ lockKeys (c.run s).1 = acquiredKeys c e s) ∨
    (c.MayAct s ∧ lockKeys (c.run s).1 = releasedKeys c s) ∨
    (¬ c.MayAct s ∧ lockKeys (c.run s).1 = (s.now, s.seatLock, s.seatContext,
      s.queue.rem (queueMember c.showtimeId c.seatId c.userId))) := by
  obtain ⟨op, showtimeId, seatId, userId⟩ := c
  have hreleased : ∀ entry state, lockKeys (s.releaseKeys showtimeId seatId userId entry state) =
      (s.now, s.seatLock.del (showtimeId, seatId), s.seatContext.del (showtimeId, seatId, userId),
        s.queue.rem entry) := by
    intro entry state
    exact lockKeys_setBits _ _ _ _
  by_cases hmay : s.freeOrOwnedBy showtimeId seatId userId = true
  · cases op with
    | acquire e =>
        by_cases httl : s.validTtl (ttlMs e) = true
        · refine .inr (.inl ⟨e, rfl, hmay, ?_⟩)
          simp only [ScriptCall.run, ScriptOp.script, Redis.eval, hmay, httl, if_true]
          exact lockKeys_setBits _ _ _ _
        · refine .inl ?_
          simp only [ScriptCall.run, ScriptOp.script, Redis.eval, hmay, httl, if_true]
          rfl
    | release | releaseExpired | book =>
        refine .inr (.inr (.inl ⟨hmay, ?_⟩))
        simp only [ScriptCall.run, ScriptOp.script, Redis.eval, hmay, if_true]
        exact hreleased _ _
    | forceBook =>
        refine .inr (.inr (.inl ⟨hmay, ?_⟩))
        simp only [ScriptCall.run, ScriptOp.script, Redis.eval, hmay, if_true]
        exact lockKeys_setBits _ _ _ _
  · cases op with
    | acquire | release | book =>
        refine .inl ?_
        simp only [ScriptCall.run, ScriptOp.script, Redis.eval, hmay]
        rfl
    | releaseExpired =>
        refine .inr (.inr (.inr ⟨hmay, ?_⟩))
        simp only [ScriptCall.run, ScriptOp.script, Redis.eval, hmay]
        rfl
    | forceBook =>
        refine .inr (.inr (.inr ⟨hmay, ?_⟩))
        simp only [ScriptCall.run, ScriptOp.script, Redis.eval, hmay]
        exact lockKeys_setBits _ _ _ _

/-! ## What the keys keep -/

theorem eq_of_lockKeys {s : Redis} {n : ℕ} {locks : Expiring (ℤ × ℤ) ℤ}
    {contexts : Expiring (ℤ × ℤ × ℤ) Unit} {queue : SortedSet QueueEntry}
    (h : lockKeys s = (n, locks, contexts, queue)) :
    s.now = n ∧ s.seatLock = locks ∧ s.seatContext = contexts ∧ s.queue = queue := by
  simpa only [lockKeys, Prod.mk.injEq] using h

/-- Where a user may act on a seat, no other user's context key for it is live. -/
theorem KeysAgree.context_dead {s : Redis} (hs : KeysAgree s) {c : ScriptCall} (hmay : c.MayAct s)
    {userId : ℤ} {d : ℕ} (hne : userId ≠ c.userId)
    (h : s.seatContext (c.showtimeId, c.seatId, userId) = some ((), d)) : ¬ s.now ≤ d := by
  intro hlive
  have hlock := hs.lock _ _ _ _ h hlive
  have howner : s.lockOwner c.showtimeId c.seatId = some userId :=
    Expiring.lookup_eq_some_iff.2 ⟨d, hlock, hlive⟩
  exact hne (Redis.freeOrOwnedBy_iff.1 hmay _ howner)

theorem KeysAgree.acquire {s t : Redis} (hs : KeysAgree s) {c : ScriptCall} {e : ℤ}
    (httl : 0 < e ∧ e < 2 ^ 31) (hmay : c.MayAct s) (ht : lockKeys t = acquiredKeys c e s) :
    KeysAgree t := by
  obtain ⟨hnow, hlock, hcontext, hqueue⟩ := eq_of_lockKeys ht
  constructor
  · intro showtimeId seatId userId d h hlive
    rw [hlock] at h
    rw [hcontext]
    by_cases hseat : (showtimeId, seatId) = (c.showtimeId, c.seatId)
    · obtain ⟨rfl, rfl⟩ := Prod.mk.inj hseat
      rw [Expiring.put_self] at h
      cases h
      exact Expiring.put_self
    · rw [Expiring.put_ne hseat] at h
      rw [Expiring.put_ne fun heq => hseat (by simp_all)]
      exact hs.context _ _ _ _ h (hnow ▸ hlive)
  · intro showtimeId seatId userId d h hlive
    rw [hcontext] at h
    rw [hlock]
    by_cases hkey : (showtimeId, seatId, userId) = (c.showtimeId, c.seatId, c.userId)
    · obtain ⟨rfl, hrest⟩ := Prod.mk.inj hkey
      obtain ⟨rfl, rfl⟩ := Prod.mk.inj hrest
      rw [Expiring.put_self] at h
      cases h
      exact Expiring.put_self
    · rw [Expiring.put_ne hkey] at h
      rw [hnow] at hlive
      have hseat : (showtimeId, seatId) ≠ (c.showtimeId, c.seatId) := by
        rintro heq
        obtain ⟨rfl, rfl⟩ := Prod.mk.inj heq
        exact hs.context_dead hmay (fun hu => hkey (by rw [hu])) h hlive
      rw [Expiring.put_ne hseat]
      exact hs.lock _ _ _ _ h hlive
  · intro showtimeId seatId userId d h hlive
    rw [hlock] at h
    rw [hqueue]
    by_cases hseat : (showtimeId, seatId) = (c.showtimeId, c.seatId)
    · obtain ⟨rfl, rfl⟩ := Prod.mk.inj hseat
      rw [Expiring.put_self] at h
      cases h
      refine ⟨_, SortedSet.mem_entries_add.2 (.inl ⟨rfl, rfl⟩), ?_⟩
      have hms : ttlMs e = e.toNat * 1000 := by
        unfold ttlMs
        omega
      rw [hms]
      simp only [Redis.timestamp]
      omega
    · rw [Expiring.put_ne hseat] at h
      obtain ⟨score, hmem, hdue⟩ := hs.queued _ _ _ _ h (hnow ▸ hlive)
      refine ⟨score, SortedSet.mem_entries_add.2 (.inr ⟨hmem, fun heq => hseat ?_⟩), hdue⟩
      simp only [queueMember, QueueEntry.mk.injEq] at heq
      rw [heq.1, heq.2.1]

theorem KeysAgree.release {s t : Redis} (hs : KeysAgree s) {c : ScriptCall} (hmay : c.MayAct s)
    (ht : lockKeys t = releasedKeys c s) : KeysAgree t := by
  obtain ⟨hnow, hlock, hcontext, hqueue⟩ := eq_of_lockKeys ht
  -- a lock that is left is one of another seat
  have hother : ∀ {showtimeId seatId : ℤ} {v : ℤ × ℕ},
      t.seatLock (showtimeId, seatId) = some v →
      (showtimeId, seatId) ≠ (c.showtimeId, c.seatId) ∧
        s.seatLock (showtimeId, seatId) = some v := by
    intro showtimeId seatId v h
    rw [hlock] at h
    have hne : (showtimeId, seatId) ≠ (c.showtimeId, c.seatId) := by
      intro heq
      rw [heq, Expiring.del_self] at h
      cases h
    rw [Expiring.del_ne hne] at h
    exact ⟨hne, h⟩
  constructor
  · intro showtimeId seatId userId d h hlive
    obtain ⟨hne, h⟩ := hother h
    rw [hcontext, Expiring.del_ne fun heq => hne (by simp_all)]
    exact hs.context _ _ _ _ h (hnow ▸ hlive)
  · intro showtimeId seatId userId d h hlive
    rw [hcontext] at h
    rw [hnow] at hlive
    have hkey : (showtimeId, seatId, userId) ≠ (c.showtimeId, c.seatId, c.userId) := by
      intro heq
      rw [heq, Expiring.del_self] at h
      cases h
    rw [Expiring.del_ne hkey] at h
    have hseat : (showtimeId, seatId) ≠ (c.showtimeId, c.seatId) := by
      rintro heq
      obtain ⟨rfl, rfl⟩ := Prod.mk.inj heq
      exact hs.context_dead hmay (fun hu => hkey (by rw [hu])) h hlive
    rw [hlock, Expiring.del_ne hseat]
    exact hs.lock _ _ _ _ h hlive
  · intro showtimeId seatId userId d h hlive
    obtain ⟨hne, h⟩ := hother h
    obtain ⟨score, hmem, hdue⟩ := hs.queued _ _ _ _ h (hnow ▸ hlive)
    refine ⟨score, ?_, hdue⟩
    rw [hqueue, SortedSet.mem_entries_rem]
    refine ⟨hmem, fun heq => hne ?_⟩
    simp only [queueMember, QueueEntry.mk.injEq] at heq
    rw [heq.1, heq.2.1]

theorem KeysAgree.drop {s t : Redis} (hs : KeysAgree s) {c : ScriptCall} (hmay : ¬ c.MayAct s)
    (ht : lockKeys t = (s.now, s.seatLock, s.seatContext,
      s.queue.rem (queueMember c.showtimeId c.seatId c.userId))) : KeysAgree t := by
  obtain ⟨hnow, hlock, hcontext, hqueue⟩ := eq_of_lockKeys ht
  constructor
  · rw [hnow, hlock, hcontext]
    exact hs.context
  · rw [hnow, hlock, hcontext]
    exact hs.lock
  · rw [hnow, hlock, hqueue]
    intro showtimeId seatId userId d h hlive
    obtain ⟨score, hmem, hdue⟩ := hs.queued _ _ _ _ h hlive
    refine ⟨score, SortedSet.mem_entries_rem.2 ⟨hmem, fun heq => hmay ?_⟩, hdue⟩
    -- the entry dropped would be that of the owner, who may act
    obtain ⟨rfl, rfl, rfl⟩ : seatId = c.seatId ∧ showtimeId = c.showtimeId ∧ userId = c.userId := by
      simpa only [queueMember, QueueEntry.mk.injEq] using heq
    refine Redis.freeOrOwnedBy_iff.2 fun owner howner => ?_
    obtain ⟨d', hd', -⟩ := Expiring.lookup_eq_some_iff.1 howner
    rw [h] at hd'
    exact (Prod.mk.inj (Option.some.inj hd')).1.symm

theorem KeysAgree.tick {s : Redis} (hs : KeysAgree s) (d : ℕ) :
    KeysAgree { s with now := s.now + d } := by
  have hle : ∀ {n : ℕ}, s.now + d ≤ n → s.now ≤ n := fun h => Nat.le_trans (Nat.le_add_right _ _) h
  exact ⟨fun _ _ _ _ h hlive => hs.context _ _ _ _ h (hle hlive),
    fun _ _ _ _ h hlive => hs.lock _ _ _ _ h (hle hlive),
    fun _ _ _ _ h hlive => hs.queued _ _ _ _ h (hle hlive)⟩

theorem KeysAgree.call {s : Redis} (hs : KeysAgree s) {c : ScriptCall} (hc : c.op.ValidTtl) :
    KeysAgree (c.run s).1 := by
  rcases run_cases c s with h | ⟨e, hop, hmay, h⟩ | ⟨hmay, h⟩ | ⟨hmay, h⟩
  · exact hs.congr h
  · rw [hop] at hc
    exact hs.acquire hc hmay h
  · exact hs.release hmay h
  · exact hs.drop hmay h

theorem keysAgree_of_reachable {s : Redis} (h : scripts.ReachableUnder Positive s) :
    KeysAgree s := by
  refine System.invariant ?_ ?_ h
  · rintro s rfl
    constructor
    all_goals
      intro showtimeId seatId userId d h
      cases h
  · intro s a t hs hpos hst
    cases a with
    | tick d =>
        cases Option.some.inj hst
        exact hs.tick d
    | call c =>
        cases Option.some.inj hst
        exact hs.call hpos.2

/-! ## The lock as its users see it -/

theorem hasContext_iff_lockOwner {s : Redis} (hs : KeysAgree s) (showtimeId seatId userId : ℤ) :
    s.hasContext showtimeId seatId userId = true ↔
      s.lockOwner showtimeId seatId = some userId := by
  rw [Redis.hasContext, Option.isSome_iff_exists]
  constructor
  · rintro ⟨⟨⟩, h⟩
    obtain ⟨d, hd, hlive⟩ := Expiring.lookup_eq_some_iff.1 h
    exact Expiring.lookup_eq_some_iff.2 ⟨d, hs.lock _ _ _ _ hd hlive, hlive⟩
  · intro h
    obtain ⟨d, hd, hlive⟩ := Expiring.lookup_eq_some_iff.1 h
    exact ⟨(), Expiring.lookup_eq_some_iff.2 ⟨d, hs.context _ _ _ _ hd hlive, hlive⟩⟩

/-- A script that answers an acquisition with `1` found the seat free or the caller's own. -/
theorem mayAct_of_acquired {s : Redis} {e showtimeId seatId userId : ℤ}
    (h : (ScriptCall.run ⟨.acquire e, showtimeId, seatId, userId⟩ s).2 = some 1) :
    s.freeOrOwnedBy showtimeId seatId userId = true := by
  by_contra hmay
  simp only [ScriptCall.run, ScriptOp.script, Redis.eval, hmay] at h
  simp at h

/-- After any sequence of scripts and any passage of time: `user_holds_lock` is true of a user
exactly if `get_lock_owner` answers that user, and so of one user at most; an acquisition that
answers `true` found no other owner; and the queue has an entry of the owner of every live lock, due
fifteen seconds after it. -/
theorem scripts_exclusive {s : Redis} (h : scripts.ReachableUnder Positive s) :
    (∀ showtimeId seatId userId,
      (evalOp (userHoldsLock showtimeId seatId userId) s).2 = true ↔
        (evalOp (getLockOwner showtimeId seatId) s).2 = some userId) ∧
    (∀ showtimeId seatId userId userId',
      (evalOp (userHoldsLock showtimeId seatId userId) s).2 = true →
        (evalOp (userHoldsLock showtimeId seatId userId') s).2 = true → userId = userId') ∧
    (∀ showtimeId seatId userId expiresInSec,
      (evalOp (acquireSeatLockLua showtimeId seatId userId expiresInSec) s).2 = true →
        ∀ owner, (evalOp (getLockOwner showtimeId seatId) s).2 = some owner → owner = userId) ∧
    (∀ showtimeId seatId userId d, s.seatLock (showtimeId, seatId) = some (userId, d) →
      s.now ≤ d → ∃ score, (queueMember showtimeId seatId userId, score) ∈ s.queue.entries ∧
        ((d / 1000 : ℕ) : ℤ) + 15 ≤ score) := by
  have hs := keysAgree_of_reachable h
  simp only [evalOp_userHoldsLock, evalOp_getLockOwner]
  refine ⟨hasContext_iff_lockOwner hs, ?_, ?_, hs.queued⟩
  · intro showtimeId seatId userId userId' hu hu'
    rw [hasContext_iff_lockOwner hs] at hu hu'
    exact Option.some.inj (hu.symm.trans hu')
  · intro showtimeId seatId userId expiresInSec hacq
    rw [evalOp_acquireSeatLockLua] at hacq
    exact Redis.freeOrOwnedBy_iff.1 (mayAct_of_acquired (of_decide_eq_true hacq))

/-- User 42 acquires a seat, the lock runs out, user 43 acquires it, and the expiry of 42's entry
changes nothing of 43's. -/
theorem scripts_exclusive_handover :
    ∃ s, scripts.ReachableUnder Positive s ∧
      (evalOp (userHoldsLock 1 7 43) s).2 = true ∧
      ((evalOp (userHoldsLock 1 7 43) s).2 = true ↔
        (evalOp (getLockOwner 1 7) s).2 = some 43) ∧
      ((evalOp (acquireSeatLockLua 1 7 43 300) s).2 = true →
        ∀ owner, (evalOp (getLockOwner 1 7) s).2 = some owner → owner = 43) := by
  obtain ⟨s, hs, howns⟩ := System.exists_reachable_of_runUnder scripts Positive
    (fun s => (evalOp (userHoldsLock 1 7 43) s).2) (s := Redis.empty) rfl
    [.call ⟨.acquire 300, 1, 7, 42⟩, .tick 300001, .call ⟨.acquire 300, 1, 7, 43⟩,
      .call ⟨.releaseExpired, 1, 7, 42⟩] (by decide)
  obtain ⟨hagree, -, hacquire, -⟩ := scripts_exclusive hs
  exact ⟨s, hs, howns, hagree 1 7 43, hacquire 1 7 43 300⟩

end Locks
end Bookit

import Bookit.Redis.Store

/-!
# Redis.Effects — what a command does to the node

A command that is lost leaves the node as it was; otherwise it has its effect.  Of an effect we say
which bitmap field and which lock key it writes, and whose sorted-set members and queue entry it
touches.
-/

namespace Bookit

/-- The seat of an entry. -/
def QueueEntry.seat (e : QueueEntry) : ℤ × ℤ := (e.scheduleId, e.seatId)

namespace Redis

open Lib

/-- The effect of a command that is executed. -/
def Cmd.effect : Cmd → Redis → Redis
  | .setLockNx showtimeId seatId userId ttlMs, s =>
      (Redis.setLockNx showtimeId seatId userId ttlMs s).1
  | .pexpireLock showtimeId seatId ttlMs, s => (Redis.pexpireLock showtimeId seatId ttlMs s).1
  | .eval script showtimeId seatId userId entry, s =>
      (Redis.eval script showtimeId seatId userId entry s).1
  | .writeMetadata showtimeId seatId userId expiry processingExpiry entry, s =>
      (Redis.writeMetadata showtimeId seatId userId expiry processingExpiry entry s).1
  | .zaddUser showtimeId userId seatId score, s => s.zaddUser showtimeId userId seatId score
  | .zremUser showtimeId userId seatId, s => s.zremUser showtimeId userId seatId
  | .zaddRoom showtimeId seatId userId score, s => s.zaddRoom showtimeId seatId userId score
  | .zremRoom showtimeId seatId userId, s => s.zremRoom showtimeId seatId userId
  | .zaddQueue entry score, s => s.zaddQueue entry score
  | .zremQueue entry, s => s.zremQueue entry
  | .setBits showtimeId seatId state, s => s.setBits showtimeId seatId state
  | .setCheckoutNx scheduleId seatId owner ttlSec, s =>
      (Redis.setCheckoutNx scheduleId seatId owner ttlSec s).1
  | .delCheckout scheduleId seatId, s =>
      { s with seatCheckout := s.seatCheckout.del (scheduleId, seatId) }
  | .adjustAvailable scheduleId delta, s =>
      { s with availableSeats :=
          setAt s.availableSeats scheduleId ((s.availableSeats scheduleId).map (· + delta)) }
  | .publish channel payload, s => { s with published := s.published ++ [(channel, payload)] }
  | _, s => s

theorem exec_fst (l : Link) (c : Cmd) (s : Redis) :
    (exec l c s).1 = if l = .lost then s else c.effect s := by
  cases c <;> cases l <;> rfl

theorem exec_cases {l : Link} {c : Cmd} {s t : Redis} {r : Rep c} (h : exec l c s = (t, r)) :
    (l = .lost ∧ t = s) ∨ (l ≠ .lost ∧ t = c.effect s) := by
  have ht : (exec l c s).1 = t := congrArg Prod.fst h
  rw [exec_fst] at ht
  by_cases hl : l = .lost
  · rw [if_pos hl] at ht
    exact .inl ⟨hl, ht.symm⟩
  · rw [if_neg hl] at ht
    exact .inr ⟨hl, ht.symm⟩

/-! ## Fields of the updates -/

section SetBits

variable {s : Redis} {showtimeId seatId : ℤ} {state : SeatState}

theorem setBits_bitmap : (s.setBits showtimeId seatId state).bitmap =
    if seatId < 0 then s.bitmap else setAt s.bitmap (showtimeId, seatId) state := by
  unfold setBits
  split_ifs <;> rfl

@[simp] theorem setBits_userLocks : (s.setBits showtimeId seatId state).userLocks = s.userLocks := by
  unfold setBits
  split_ifs <;> rfl

@[simp] theorem setBits_roomLocks : (s.setBits showtimeId seatId state).roomLocks = s.roomLocks := by
  unfold setBits
  split_ifs <;> rfl

@[simp] theorem setBits_queue : (s.setBits showtimeId seatId state).queue = s.queue := by
  unfold setBits
  split_ifs <;> rfl

@[simp] theorem setBits_seatCheckout :
    (s.setBits showtimeId seatId state).seatCheckout = s.seatCheckout := by
  unfold setBits
  split_ifs <;> rfl

@[simp] theorem setBits_published : (s.setBits showtimeId seatId state).published = s.published := by
  unfold setBits
  split_ifs <;> rfl

end SetBits

/-! ## Bitmap fields -/

/-- The state a script leaves in the field of its seat, where it does anything to the lock. -/
def Script.fieldState : Script → SeatState
  | .acquire .. => .locked
  | .releaseExpired => .available
  | .release => .available
  | .book => .booked
  | .forceBook => .booked

/-- A script goes past its check of the owner. -/
def Script.Acts (script : Script) (showtimeId seatId userId : ℤ) (s : Redis) : Prop :=
  match script with
  | .acquire ttlMs _ _ => s.freeOrOwnedBy showtimeId seatId userId = true ∧ s.validTtl ttlMs = true
  | .forceBook => True
  | _ => s.freeOrOwnedBy showtimeId seatId userId = true

instance {script : Script} {showtimeId seatId userId : ℤ} {s : Redis} :
    Decidable (script.Acts showtimeId seatId userId s) := by
  unfold Script.Acts
  split <;> infer_instance

/-- The field that a command writes, and what it writes there. -/
def Cmd.writes : Cmd → Redis → Option ((ℤ × ℤ) × SeatState)
  | .eval script showtimeId seatId userId _, s =>
      if script.Acts showtimeId seatId userId s ∧ 0 ≤ seatId then
        some ((showtimeId, seatId), script.fieldState)
      else
        none
  | .writeMetadata showtimeId seatId .., _ =>
      if 0 ≤ seatId then some ((showtimeId, seatId), .locked) else none
  | .setBits showtimeId seatId state, _ =>
      if 0 ≤ seatId then some ((showtimeId, seatId), state) else none
  | _, _ => none

section Bitmap

variable {s : Redis} {showtimeId seatId userId : ℤ} {entry : QueueEntry}

theorem eval_acts {script : Script} (h : script.Acts showtimeId seatId userId s) :
    (eval script showtimeId seatId userId entry s).1.bitmap =
      if seatId < 0 then s.bitmap else
        setAt s.bitmap (showtimeId, seatId) script.fieldState := by
  cases script with
  | acquire ttlMs expiry processingExpiry =>
      unfold eval
      dsimp only
      rw [if_pos h.1, if_pos h.2]
      exact setBits_bitmap
  | forceBook =>
      unfold eval
      dsimp only
      split_ifs with hfree
      all_goals
        rw [setBits_bitmap]
        split_ifs
        rfl
  | releaseExpired | release | book =>
      have h : s.freeOrOwnedBy showtimeId seatId userId = true := h
      unfold eval
      dsimp only
      rw [if_pos h]
      exact setBits_bitmap

/-- A script that finds another owner takes the entry out of the queue at most. -/
theorem eval_refused {script : Script} (h : ¬script.Acts showtimeId seatId userId s) :
    (eval script showtimeId seatId userId entry s).1 = s ∨
      script = .releaseExpired ∧
        (eval script showtimeId seatId userId entry s).1 = s.zremQueue entry := by
  cases script with
  | acquire ttlMs expiry processingExpiry =>
      refine .inl ?_
      unfold eval
      dsimp only
      split_ifs with hfree httl
      · exact absurd ⟨hfree, httl⟩ h
      · rfl
      · rfl
  | forceBook => exact absurd trivial h
  | releaseExpired =>
      have h : ¬s.freeOrOwnedBy showtimeId seatId userId = true := h
      refine .inr ⟨rfl, ?_⟩
      unfold eval
      dsimp only
      rw [if_neg h]
  | release | book =>
      have h : ¬s.freeOrOwnedBy showtimeId seatId userId = true := h
      refine .inl ?_
      unfold eval
      dsimp only
      rw [if_neg h]

theorem effect_bitmap (c : Cmd) (s : Redis) :
    (c.effect s).bitmap = match c.writes s with
      | none => s.bitmap
      | some (field, state) => setAt s.bitmap field state := by
  cases c with
  | eval script showtimeId seatId userId entry =>
      by_cases hacts : script.Acts showtimeId seatId userId s
      · refine (eval_acts hacts).trans ?_
        by_cases hseat : 0 ≤ seatId
        · simp only [Cmd.writes, hacts, hseat, and_self, if_true]
          rw [if_neg (not_lt.2 hseat)]
        · simp only [Cmd.writes, hacts, hseat, and_false, if_false]
          rw [if_pos (not_le.1 hseat)]
      · simp only [Cmd.writes, hacts, false_and, if_false]
        show (eval script showtimeId seatId userId entry s).1.bitmap = s.bitmap
        rcases eval_refused hacts with heq | ⟨-, heq⟩
        · rw [heq]
        · rw [heq]
          rfl
  | writeMetadata showtimeId seatId userId expiry processingExpiry entry =>
      refine setBits_bitmap.trans ?_
      by_cases hseat : 0 ≤ seatId
      · simp only [Cmd.writes, hseat, if_true]
        rw [if_neg (not_lt.2 hseat)]
        rfl
      · simp only [Cmd.writes, hseat, if_false]
        rw [if_pos (not_le.1 hseat)]
        rfl
  | setBits showtimeId seatId state =>
      refine setBits_bitmap.trans ?_
      by_cases hseat : 0 ≤ seatId
      · simp only [Cmd.writes, hseat, if_true]
        rw [if_neg (not_lt.2 hseat)]
      · simp only [Cmd.writes, hseat, if_false]
        rw [if_pos (not_le.1 hseat)]
  | setLockNx showtimeId seatId userId ttlMs =>
      show (Redis.setLockNx showtimeId seatId userId ttlMs s).1.bitmap = s.bitmap
      unfold Redis.setLockNx
      split_ifs
      · split <;> rfl
      · rfl
  | pexpireLock showtimeId seatId ttlMs =>
      show (Redis.pexpireLock showtimeId seatId ttlMs s).1.bitmap = s.bitmap
      unfold Redis.pexpireLock
      split_ifs <;> rfl
  | setCheckoutNx scheduleId seatId owner ttlSec =>
      show (Redis.setCheckoutNx scheduleId seatId owner ttlSec s).1.bitmap = s.bitmap
      unfold Redis.setCheckoutNx
      split <;> rfl
  | _ => rfl

/-- No field of a negative seat id is written. -/
theorem writes_nonneg {c : Cmd} {s : Redis} {field : ℤ × ℤ} {state : SeatState}
    (h : c.writes s = some (field, state)) : 0 ≤ field.2 := by
  cases c with
  | eval script showtimeId seatId userId entry =>
      simp only [Cmd.writes] at h
      split_ifs at h with hacts
      rw [← (Prod.mk.inj (Option.some.inj h)).1]
      exact hacts.2
  | writeMetadata | setBits =>
      simp only [Cmd.writes] at h
      split_ifs at h with hpos
      rw [← (Prod.mk.inj (Option.some.inj h)).1]
      exact hpos
  | _ => cases h

/-- A field that changes was written. -/
theorem effect_field {c : Cmd} {s : Redis} {field : ℤ × ℤ}
    (h : (c.effect s).bitmap field ≠ s.bitmap field) :
    c.writes s = some (field, (c.effect s).bitmap field) := by
  have hbits := effect_bitmap c s
  cases hw : c.writes s with
  | none =>
      rw [hw] at hbits
      exact absurd (congrFun hbits field) h
  | some w =>
      obtain ⟨field', state⟩ := w
      rw [hw] at hbits
      dsimp only at hbits
      by_cases hf : field = field'
      · subst hf
        rw [hbits, setAt_self]
      · rw [hbits, setAt_ne hf] at h
        exact absurd rfl h

end Bitmap

/-! ## Lock keys -/

/-- The lock key that a command sets, for whom and for how long. -/
def Cmd.acquires : Cmd → Redis → Option ((ℤ × ℤ) × ℤ × ℕ)
  | .setLockNx showtimeId seatId userId ttlMs, s =>
      if s.validTtl ttlMs = true ∧ s.lockOwner showtimeId seatId = none then
        some ((showtimeId, seatId), userId, ttlMs)
      else
        none
  | .eval (.acquire ttlMs expiry processingExpiry) showtimeId seatId userId _, s =>
      if (Script.acquire ttlMs expiry processingExpiry).Acts showtimeId seatId userId s then
        some ((showtimeId, seatId), userId, ttlMs)
      else
        none
  | _, _ => none

/-- The scripts that delete the lock keys. -/
def Script.Deletes : Script → Prop
  | .acquire .. => False
  | _ => True

instance {script : Script} : Decidable script.Deletes := by
  unfold Script.Deletes
  split <;> infer_instance

/-- The lock key that a script deletes where it is free or the user's, and the user. -/
def Cmd.releases : Cmd → Redis → Option ((ℤ × ℤ) × ℤ)
  | .eval script showtimeId seatId userId _, s =>
      if script.Deletes ∧ s.freeOrOwnedBy showtimeId seatId userId = true then
        some ((showtimeId, seatId), userId)
      else
        none
  | _, _ => none

/-- What a command does to a lock key. -/
inductive KeyEffect (s : Redis) (key : ℤ × ℤ) (c : Cmd) (t : Redis) : Prop where
  | kept (hkey : t.seatLock key = s.seatLock key)
  | acquired {userId : ℤ} {ttlMs : ℕ} (hc : c.acquires s = some (key, userId, ttlMs))
      (hkey : t.seatLock key = some (userId, s.now + ttlMs))
  | released {userId : ℤ} (hc : c.releases s = some (key, userId)) (hkey : t.seatLock key = none)
  | extended {owner : ℤ} {ttlMs : ℕ} (hc : c = .pexpireLock key.1 key.2 ttlMs)
      (howner : s.lockOwner key.1 key.2 = some owner)
      (hkey : t.seatLock key = some (owner, s.now + ttlMs))
  | dropped (hc : c = .pexpireLock key.1 key.2 0) (hkey : t.seatLock key = none)

section LockKeys

variable {s : Redis} {key : ℤ × ℤ}

theorem KeyEffect.setLockNx (showtimeId seatId userId : ℤ) (ttlMs : ℕ) :
    KeyEffect s key (.setLockNx showtimeId seatId userId ttlMs)
      (Redis.setLockNx showtimeId seatId userId ttlMs s).1 := by
  unfold Redis.setLockNx
  by_cases httl : s.validTtl ttlMs = true
  · rw [if_pos httl]
    cases howner : s.lockOwner showtimeId seatId with
    | some owner => exact .kept rfl
    | none =>
        by_cases hkey : key = (showtimeId, seatId)
        · subst hkey
          refine .acquired ?_ Expiring.put_self
          simp [Cmd.acquires, httl, howner]
        · exact .kept (Expiring.put_ne hkey)
  · rw [if_neg httl]
    exact .kept rfl

theorem KeyEffect.pexpireLock (showtimeId seatId : ℤ) (ttlMs : ℕ) :
    KeyEffect s key (.pexpireLock showtimeId seatId ttlMs)
      (Redis.pexpireLock showtimeId seatId ttlMs s).1 := by
  unfold Redis.pexpireLock
  split_ifs with hzero hmax
  · subst hzero
    by_cases hkey : key = (showtimeId, seatId)
    · subst hkey
      exact .dropped rfl Expiring.del_self
    · exact .kept (Expiring.del_ne hkey)
  · by_cases hkey : key = (showtimeId, seatId)
    · subst hkey
      cases howner : s.seatLock.lookup s.now (showtimeId, seatId) with
      | none =>
          refine .kept ?_
          show s.seatLock.touch s.now (showtimeId, seatId) (s.now + ttlMs) (showtimeId, seatId) = _
          unfold Expiring.touch
          rw [howner]
      | some owner =>
          refine .extended rfl howner ?_
          show s.seatLock.touch s.now (showtimeId, seatId) (s.now + ttlMs) (showtimeId, seatId) = _
          rw [Expiring.touch_of_live howner, Expiring.put_self]
    · exact .kept (Expiring.touch_ne hkey)
  · exact .kept rfl

theorem KeyEffect.eval (script : Script) (showtimeId seatId userId : ℤ) (entry : QueueEntry) :
    KeyEffect s key (.eval script showtimeId seatId userId entry)
      (Redis.eval script showtimeId seatId userId entry s).1 := by
  by_cases hacts : script.Acts showtimeId seatId userId s
  · have hdel : script.Deletes → s.freeOrOwnedBy showtimeId seatId userId = true →
        (Redis.eval script showtimeId seatId userId entry s).1.seatLock =
          s.seatLock.del (showtimeId, seatId) →
        KeyEffect s key (.eval script showtimeId seatId userId entry)
          (Redis.eval script showtimeId seatId userId entry s).1 := by
      intro hscript hfree hlock
      by_cases hkey : key = (showtimeId, seatId)
      · subst hkey
        have hreleases : (Cmd.eval script showtimeId seatId userId entry).releases s =
            some ((showtimeId, seatId), userId) := by simp [Cmd.releases, hscript, hfree]
        exact .released hreleases (by rw [hlock]; exact Expiring.del_self)
      · refine .kept ?_
        rw [hlock]
        exact Expiring.del_ne hkey
    cases script with
    | acquire ttlMs expiry processingExpiry =>
        have hlock : (Redis.eval (.acquire ttlMs expiry processingExpiry) showtimeId seatId userId
            entry s).1.seatLock = s.seatLock.put (showtimeId, seatId) userId (s.now + ttlMs) := by
          unfold Redis.eval
          dsimp only
          rw [if_pos hacts.1, if_pos hacts.2]
          exact setBits_seatLock ..
        by_cases hkey : key = (showtimeId, seatId)
        · subst hkey
          refine .acquired ?_ (by rw [hlock, Expiring.put_self])
          simp [Cmd.acquires, hacts]
        · refine .kept ?_
          rw [hlock]
          exact Expiring.put_ne hkey
    | forceBook =>
        by_cases hfree : s.freeOrOwnedBy showtimeId seatId userId = true
        · refine hdel trivial hfree ?_
          unfold Redis.eval
          dsimp only
          rw [if_pos hfree]
          exact setBits_seatLock ..
        · refine .kept ?_
          unfold Redis.eval
          dsimp only
          rw [if_neg hfree]
          exact congrFun (setBits_seatLock ..) key
    | releaseExpired | release | book =>
        have hfree : s.freeOrOwnedBy showtimeId seatId userId = true := hacts
        refine hdel trivial hfree ?_
        unfold Redis.eval
        dsimp only
        rw [if_pos hfree]
        exact releaseKeys_seatLock ..
  · rcases eval_refused hacts with heq | ⟨-, heq⟩
    · rw [heq]
      exact .kept rfl
    · rw [heq]
      exact .kept rfl

theorem keyEffect (c : Cmd) (s : Redis) (key : ℤ × ℤ) : KeyEffect s key c (c.effect s) := by
  cases c with
  | setLockNx showtimeId seatId userId ttlMs => exact .setLockNx showtimeId seatId userId ttlMs
  | pexpireLock showtimeId seatId ttlMs => exact .pexpireLock showtimeId seatId ttlMs
  | eval script showtimeId seatId userId entry => exact .eval script showtimeId seatId userId entry
  | writeMetadata => exact .kept (congrFun (setBits_seatLock ..) key)
  | setBits => exact .kept (congrFun (setBits_seatLock ..) key)
  | setCheckoutNx scheduleId seatId owner ttlSec =>
      refine .kept ?_
      show (Redis.setCheckoutNx scheduleId seatId owner ttlSec s).1.seatLock key = _
      unfold Redis.setCheckoutNx
      split <;> rfl
  | _ => exact .kept rfl

theorem effect_now (c : Cmd) (s : Redis) : (c.effect s).now = s.now := by
  cases c with
  | setLockNx showtimeId seatId userId ttlMs =>
      show (Redis.setLockNx showtimeId seatId userId ttlMs s).1.now = _
      unfold Redis.setLockNx
      split_ifs
      · split <;> rfl
      · rfl
  | pexpireLock showtimeId seatId ttlMs =>
      show (Redis.pexpireLock showtimeId seatId ttlMs s).1.now = _
      unfold Redis.pexpireLock
      split_ifs <;> rfl
  | eval script showtimeId seatId userId entry =>
      show (Redis.eval script showtimeId seatId userId entry s).1.now = _
      unfold Redis.eval
      split
      all_goals
        repeat' split
        all_goals first | rfl | exact setBits_now ..
  | writeMetadata => exact setBits_now ..
  | setBits => exact setBits_now ..
  | setCheckoutNx scheduleId seatId owner ttlSec =>
      show (Redis.setCheckoutNx scheduleId seatId owner ttlSec s).1.now = _
      unfold Redis.setCheckoutNx
      split <;> rfl
  | _ => rfl

/-- What a command acquires is set. -/
theorem seatLock_of_acquires {c : Cmd} {userId : ℤ} {ttlMs : ℕ}
    (h : c.acquires s = some (key, userId, ttlMs)) :
    (c.effect s).seatLock key = some (userId, s.now + ttlMs) := by
  cases c with
  | setLockNx showtimeId seatId user ttl =>
      simp only [Cmd.acquires] at h
      split_ifs at h with hcond
      simp only [Option.some.injEq, Prod.mk.injEq] at h
      obtain ⟨rfl, rfl, rfl⟩ := h
      show (Redis.setLockNx showtimeId seatId user ttl s).1.seatLock _ = _
      unfold Redis.setLockNx
      rw [if_pos hcond.1, hcond.2]
      exact Expiring.put_self
  | eval script showtimeId seatId user entry =>
      cases script with
      | acquire ttl expiry processingExpiry =>
          simp only [Cmd.acquires] at h
          split_ifs at h with hacts
          simp only [Option.some.injEq, Prod.mk.injEq] at h
          obtain ⟨rfl, rfl, rfl⟩ := h
          show (Redis.eval (.acquire ttl expiry processingExpiry) showtimeId seatId user entry
            s).1.seatLock _ = _
          unfold Redis.eval
          dsimp only
          rw [if_pos hacts.1, if_pos hacts.2, setBits_seatLock]
          exact Expiring.put_self
      | _ => cases h
  | _ => cases h

/-- A lock that has an owner is acquired by its owner only. -/
theorem acquires_owner {c : Cmd} {userId owner : ℤ} {ttlMs : ℕ}
    (h : c.acquires s = some (key, userId, ttlMs)) (howner : s.lockOwner key.1 key.2 = some owner) :
    userId = owner := by
  cases c with
  | setLockNx showtimeId seatId user ttl =>
      simp only [Cmd.acquires] at h
      split_ifs at h with hcond
      simp only [Option.some.injEq, Prod.mk.injEq] at h
      rw [← h.1, hcond.2] at howner
      cases howner
  | eval script showtimeId seatId user entry =>
      cases script with
      | acquire ttl expiry processingExpiry =>
          simp only [Cmd.acquires] at h
          split_ifs at h with hacts
          simp only [Option.some.injEq, Prod.mk.injEq] at h
          rw [← h.1] at howner
          rw [← h.2.1]
          exact (freeOrOwnedBy_iff.1 hacts.1 _ howner).symm
      | _ => cases h
  | _ => cases h

/-- A script deletes no lock of another owner. -/
theorem releases_owner {c : Cmd} {userId owner : ℤ} (h : c.releases s = some (key, userId))
    (howner : s.lockOwner key.1 key.2 = some owner) : userId = owner := by
  cases c with
  | eval script showtimeId seatId user entry =>
      simp only [Cmd.releases] at h
      split_ifs at h with hcond
      simp only [Option.some.injEq, Prod.mk.injEq] at h
      rw [← h.1] at howner
      rw [← h.2]
      exact (freeOrOwnedBy_iff.1 hcond.2 _ howner).symm
  | _ => cases h

/-- Who owns a lock after a command owned it before, or was given it by the command. -/
theorem effect_lockOwner {c : Cmd} {owner : ℤ} (h : (c.effect s).lockOwner key.1 key.2 = some owner) :
    s.lockOwner key.1 key.2 = some owner ∨ ∃ ttlMs, c.acquires s = some (key, owner, ttlMs) := by
  obtain ⟨d, hd, hle⟩ := Expiring.lookup_eq_some_iff.1 h
  rw [effect_now] at hle
  cases keyEffect c s key with
  | kept hkey =>
      refine .inl (Expiring.lookup_eq_some_iff.2 ⟨d, ?_, hle⟩)
      exact hkey.symm.trans hd
  | @acquired userId ttlMs hc hkey =>
      obtain ⟨rfl, -⟩ := Prod.mk.inj (Option.some.inj (hkey.symm.trans hd))
      exact .inr ⟨ttlMs, hc⟩
  | released hc hkey => cases hkey.symm.trans hd
  | @extended owner' ttlMs hc howner hkey =>
      obtain ⟨rfl, -⟩ := Prod.mk.inj (Option.some.inj (hkey.symm.trans hd))
      exact .inl howner
  | dropped hc hkey => cases hkey.symm.trans hd

/-- A free lock, or the user's, stays so unless the command gives it to another user. -/
theorem freeOrOwnedBy_effect {c : Cmd} {userId : ℤ}
    (h : s.freeOrOwnedBy key.1 key.2 userId = true)
    (hacq : ∀ owner ttlMs, c.acquires s = some (key, owner, ttlMs) → owner = userId) :
    (c.effect s).freeOrOwnedBy key.1 key.2 userId = true := by
  refine freeOrOwnedBy_iff.2 fun owner howner => ?_
  rcases effect_lockOwner howner with hold | ⟨ttlMs, hnew⟩
  · exact freeOrOwnedBy_iff.1 h owner hold
  · exact hacq owner ttlMs hnew

variable (key) in
theorem freeOrOwnedBy_tick {userId : ℤ} {d : ℕ} (h : s.freeOrOwnedBy key.1 key.2 userId = true) :
    ({ s with now := s.now + d } : Redis).freeOrOwnedBy key.1 key.2 userId = true :=
  freeOrOwnedBy_iff.2 fun owner howner => freeOrOwnedBy_iff.1 h owner
    (Expiring.lookup_of_later (Nat.le_add_right s.now d) howner)

end LockKeys

/-! ## Members of the sorted sets -/

/-- A user's membership for a seat is the same in the user zset and in the room zset. -/
structure SameMembers (showtimeId seatId userId : ℤ) (s t : Redis) : Prop where
  user : (t.userLocks (showtimeId, userId)).Mem seatId ↔ (s.userLocks (showtimeId, userId)).Mem seatId
  room : (t.roomLocks showtimeId).Mem (seatId, userId) ↔
    (s.roomLocks showtimeId).Mem (seatId, userId)

/-- The seat and the user whose memberships a command may change. -/
def Cmd.member : Cmd → Option (ℤ × ℤ × ℤ)
  | .eval _ showtimeId seatId userId _ => some (showtimeId, seatId, userId)
  | .writeMetadata showtimeId seatId userId .. => some (showtimeId, seatId, userId)
  | .zaddUser showtimeId userId seatId _ => some (showtimeId, seatId, userId)
  | .zremUser showtimeId userId seatId => some (showtimeId, seatId, userId)
  | .zaddRoom showtimeId seatId userId _ => some (showtimeId, seatId, userId)
  | .zremRoom showtimeId seatId userId => some (showtimeId, seatId, userId)
  | _ => none

section Members

variable {k a u : ℤ} {s t : Redis}

theorem SameMembers.of_eq (huser : t.userLocks = s.userLocks) (hroom : t.roomLocks = s.roomLocks) :
    SameMembers k a u s t := by
  refine ⟨?_, ?_⟩
  · rw [huser]
  · rw [hroom]

theorem SameMembers.trans {r : Redis} (h : SameMembers k a u s t) (h' : SameMembers k a u t r) :
    SameMembers k a u s r :=
  ⟨h'.user.trans h.user, h'.room.trans h.room⟩

/-- The user zset of another user, or another seat in the same. -/
theorem SameMembers.setUser {k' a' u' : ℤ} {zset : SortedSet ℤ} (hne : (k', a', u') ≠ (k, a, u))
    (hzset : ∀ b, b ≠ a' → (zset.Mem b ↔ (s.userLocks (k', u')).Mem b)) :
    SameMembers k a u s { s with userLocks := setAt s.userLocks (k', u') zset } := by
  refine ⟨?_, Iff.rfl⟩
  show (setAt s.userLocks (k', u') zset (k, u)).Mem a ↔ _
  by_cases hkey : (k, u) = (k', u')
  · obtain ⟨rfl, rfl⟩ := Prod.mk.inj hkey
    rw [setAt_self]
    exact hzset a fun heq => hne (by rw [heq])
  · rw [setAt_ne hkey]

theorem SameMembers.setRoom {k' a' u' : ℤ} {zset : SortedSet (ℤ × ℤ)}
    (hne : (k', a', u') ≠ (k, a, u))
    (hzset : ∀ b, b ≠ (a', u') → (zset.Mem b ↔ (s.roomLocks k').Mem b)) :
    SameMembers k a u s { s with roomLocks := setAt s.roomLocks k' zset } := by
  refine ⟨Iff.rfl, ?_⟩
  show (setAt s.roomLocks k' zset k).Mem (a, u) ↔ _
  by_cases hkey : k = k'
  · subst hkey
    rw [setAt_self]
    exact hzset (a, u) fun heq => hne (by rw [← heq])
  · rw [setAt_ne hkey]

theorem SameMembers.zaddUser (h : SameMembers k a u s t) {k' a' u' score : ℤ}
    (hne : (k', a', u') ≠ (k, a, u)) : SameMembers k a u s (t.zaddUser k' u' a' score) :=
  h.trans (.setUser hne fun b hb => by simp [SortedSet.mem_add_iff, hb])

theorem SameMembers.zremUser (h : SameMembers k a u s t) {k' a' u' : ℤ}
    (hne : (k', a', u') ≠ (k, a, u)) : SameMembers k a u s (t.zremUser k' u' a') :=
  h.trans (.setUser hne fun b hb => by simp [SortedSet.mem_rem_iff, hb])

theorem SameMembers.zaddRoom (h : SameMembers k a u s t) {k' a' u' score : ℤ}
    (hne : (k', a', u') ≠ (k, a, u)) : SameMembers k a u s (t.zaddRoom k' a' u' score) :=
  h.trans (.setRoom hne fun b hb => by simp [SortedSet.mem_add_iff, hb])

theorem SameMembers.zremRoom (h : SameMembers k a u s t) {k' a' u' : ℤ}
    (hne : (k', a', u') ≠ (k, a, u)) : SameMembers k a u s (t.zremRoom k' a' u') :=
  h.trans (.setRoom hne fun b hb => by simp [SortedSet.mem_rem_iff, hb])

/-- The queue and the bitmap hold no members. -/
theorem SameMembers.rest (h : SameMembers k a u s t) {r : Redis} {k' a' : ℤ} {state : SeatState}
    (huser : r.userLocks = t.userLocks) (hroom : r.roomLocks = t.roomLocks) :
    SameMembers k a u s (r.setBits k' a' state) :=
  h.trans (.of_eq (setBits_userLocks.trans huser) (setBits_roomLocks.trans hroom))

theorem SameMembers.releaseKeys {k' a' u' : ℤ} {entry : QueueEntry} {state : SeatState}
    (h : SameMembers k a u s t) (hne : (k', a', u') ≠ (k, a, u)) :
    SameMembers k a u s (t.releaseKeys k' a' u' entry state) := by
  have hdel : SameMembers k a u s (t.delLock k' a' u') := h.trans (.of_eq rfl rfl)
  exact ((hdel.zremUser hne).zremRoom hne).rest rfl rfl

theorem SameMembers.eval {script : Script} {k' a' u' : ℤ} {entry : QueueEntry}
    (hne : (k', a', u') ≠ (k, a, u)) :
    SameMembers k a u s (Redis.eval script k' a' u' entry s).1 := by
  have hself : SameMembers k a u s s := .of_eq rfl rfl
  by_cases hacts : script.Acts k' a' u' s
  · cases script with
    | acquire ttlMs expiry processingExpiry =>
        unfold Redis.eval
        dsimp only
        rw [if_pos hacts.1, if_pos hacts.2]
        have howned : SameMembers k a u s
            { s.putLock k' a' u' ttlMs with
              seatContext := s.seatContext.put (k', a', u') () (s.now + ttlMs) } := .of_eq rfl rfl
        exact ((howned.zaddUser hne).zaddRoom hne).rest rfl rfl
    | forceBook =>
        unfold Redis.eval
        dsimp only
        have hunlocked : SameMembers k a u s
            (if s.freeOrOwnedBy k' a' u' = true then s.delLock k' a' u' else s) := by
          split_ifs
          · exact .of_eq rfl rfl
          · exact hself
        exact ((hunlocked.zremUser hne).zremRoom hne).rest rfl rfl
    | releaseExpired | release | book =>
        have hacts : s.freeOrOwnedBy k' a' u' = true := hacts
        unfold Redis.eval
        dsimp only
        rw [if_pos hacts]
        exact hself.releaseKeys hne
  · rcases eval_refused hacts with heq | ⟨-, heq⟩
    · rw [heq]
      exact hself
    · rw [heq]
      exact .of_eq rfl rfl

theorem effect_members {c : Cmd} (hne : c.member ≠ some (k, a, u)) :
    SameMembers k a u s (c.effect s) := by
  have hself : SameMembers k a u s s := .of_eq rfl rfl
  have hne' : ∀ k' a' u', c.member = some (k', a', u') → (k', a', u') ≠ (k, a, u) :=
    fun k' a' u' hc heq => hne (by rw [hc, heq])
  cases c with
  | eval script k' a' u' entry => exact .eval (hne' k' a' u' rfl)
  | writeMetadata k' a' u' expiry processingExpiry entry =>
      have hne := hne' k' a' u' rfl
      exact ((hself.zaddRoom hne).zaddUser hne).rest rfl rfl
  | zaddUser k' u' a' score => exact hself.zaddUser (hne' k' a' u' rfl)
  | zremUser k' u' a' => exact hself.zremUser (hne' k' a' u' rfl)
  | zaddRoom k' a' u' score => exact hself.zaddRoom (hne' k' a' u' rfl)
  | zremRoom k' a' u' => exact hself.zremRoom (hne' k' a' u' rfl)
  | setBits => exact hself.rest rfl rfl
  | setLockNx k' a' u' ttlMs =>
      show SameMembers k a u s (Redis.setLockNx k' a' u' ttlMs s).1
      unfold Redis.setLockNx
      split_ifs
      · split <;> exact .of_eq rfl rfl
      · exact hself
  | pexpireLock k' a' ttlMs =>
      show SameMembers k a u s (Redis.pexpireLock k' a' ttlMs s).1
      unfold Redis.pexpireLock
      split_ifs <;> exact .of_eq rfl rfl
  | setCheckoutNx k' a' owner ttlSec =>
      show SameMembers k a u s (Redis.setCheckoutNx k' a' owner ttlSec s).1
      unfold Redis.setCheckoutNx
      split <;> exact .of_eq rfl rfl
  | _ => exact .of_eq rfl rfl

end Members

/-! ## Entries of the delayed queue -/

/-- An entry for the seat is in the queue. -/
def Queued (s : Redis) (seat : ℤ × ℤ) : Prop := ∃ x ∈ s.queue.entries, x.1.seat = seat

instance {s : Redis} {seat : ℤ × ℤ} : Decidable (s.Queued seat) := by
  unfold Queued
  infer_instance

theorem queued_iff {s : Redis} {seat : ℤ × ℤ} :
    s.Queued seat ↔ ∃ e, s.queue.Mem e ∧ e.seat = seat := by
  constructor
  · rintro ⟨⟨e, score⟩, hmem, hseat⟩
    exact ⟨e, ⟨score, hmem⟩, hseat⟩
  · rintro ⟨e, ⟨score, hmem⟩, hseat⟩
    exact ⟨(e, score), hmem, hseat⟩

/-- The entry that a command takes out of the queue. -/
def Cmd.drops : Cmd → Redis → Option QueueEntry
  | .eval script showtimeId seatId userId entry, s =>
      if script.Deletes ∧ (script.Acts showtimeId seatId userId s ∨ script = .releaseExpired) then
        some entry
      else
        none
  | .zremQueue entry, _ => some entry
  | _, _ => none

section Queue

variable {s : Redis} {e : QueueEntry}

/-- An entry stays in the queue unless the command takes it out. -/
theorem effect_queue {c : Cmd} (h : s.queue.Mem e) (hc : c.drops s ≠ some e) :
    (c.effect s).queue.Mem e := by
  have hrem : ∀ entry, entry ≠ e → (s.queue.rem entry).Mem e := fun entry hne =>
    SortedSet.mem_rem_iff.2 ⟨h, hne.symm⟩
  cases c with
  | eval script showtimeId seatId userId entry =>
      show (Redis.eval script showtimeId seatId userId entry s).1.queue.Mem e
      by_cases hacts : script.Acts showtimeId seatId userId s
      · have hne : script.Deletes → entry ≠ e := by
          intro hdel heq
          refine hc ?_
          simp [Cmd.drops, hdel, hacts, heq]
        cases script with
        | acquire ttlMs expiry processingExpiry =>
            unfold Redis.eval
            dsimp only
            rw [if_pos hacts.1, if_pos hacts.2, setBits_queue]
            exact SortedSet.mem_add_iff.2 (.inr h)
        | forceBook =>
            unfold Redis.eval
            dsimp only
            split_ifs
            · rw [setBits_queue]
              exact hrem entry (hne trivial)
            · rw [setBits_queue]
              exact hrem entry (hne trivial)
        | releaseExpired | release | book =>
            have hfree : s.freeOrOwnedBy showtimeId seatId userId = true := hacts
            unfold Redis.eval
            dsimp only
            rw [if_pos hfree]
            unfold releaseKeys
            rw [setBits_queue]
            exact hrem entry (hne trivial)
      · rcases eval_refused hacts with heq | ⟨rfl, heq⟩
        · rw [heq]
          exact h
        · rw [heq]
          refine hrem entry fun heq => hc ?_
          simp [Cmd.drops, Script.Deletes, heq]
  | writeMetadata showtimeId seatId userId expiry processingExpiry entry =>
      show (Redis.writeMetadata showtimeId seatId userId expiry processingExpiry entry
        s).1.queue.Mem e
      unfold Redis.writeMetadata
      rw [setBits_queue]
      exact SortedSet.mem_add_iff.2 (.inr h)
  | zaddQueue entry score => exact SortedSet.mem_add_iff.2 (.inr h)
  | zremQueue entry => exact hrem entry fun heq => hc (congrArg some heq)
  | setBits showtimeId seatId state =>
      show (s.setBits showtimeId seatId state).queue.Mem e
      rw [setBits_queue]
      exact h
  | setLockNx showtimeId seatId userId ttlMs =>
      show (Redis.setLockNx showtimeId seatId userId ttlMs s).1.queue.Mem e
      unfold Redis.setLockNx
      split_ifs
      · split <;> exact h
      · exact h
  | pexpireLock showtimeId seatId ttlMs =>
      show (Redis.pexpireLock showtimeId seatId ttlMs s).1.queue.Mem e
      unfold Redis.pexpireLock
      split_ifs <;> exact h
  | setCheckoutNx scheduleId seatId owner ttlSec =>
      show (Redis.setCheckoutNx scheduleId seatId owner ttlSec s).1.queue.Mem e
      unfold Redis.setCheckoutNx
      split <;> exact h
  | _ => exact h

theorem queued_of_writeMetadata (showtimeId seatId userId expiry processingExpiry : ℤ)
    (entry : QueueEntry) :
    (Redis.writeMetadata showtimeId seatId userId expiry processingExpiry entry s).1.Queued
      entry.seat := by
  refine queued_iff.2 ⟨entry, ?_, rfl⟩
  unfold Redis.writeMetadata
  rw [setBits_queue]
  exact SortedSet.mem_add_iff.2 (.inl rfl)

end Queue

/-! ## Published events -/

theorem effect_published {c : Cmd} {s : Redis} (h : ∀ channel payload, c ≠ .publish channel payload) :
    (c.effect s).published = s.published := by
  cases c with
  | publish channel payload => exact absurd rfl (h channel payload)
  | eval script showtimeId seatId userId entry =>
      show (Redis.eval script showtimeId seatId userId entry s).1.published = _
      unfold Redis.eval
      split
      all_goals
        repeat' split
        all_goals first | rfl | exact setBits_published
  | writeMetadata => exact setBits_published
  | setBits => exact setBits_published
  | setLockNx showtimeId seatId userId ttlMs =>
      show (Redis.setLockNx showtimeId seatId userId ttlMs s).1.published = _
      unfold Redis.setLockNx
      split_ifs
      · split <;> rfl
      · rfl
  | pexpireLock showtimeId seatId ttlMs =>
      show (Redis.pexpireLock showtimeId seatId ttlMs s).1.published = _
      unfold Redis.pexpireLock
      split_ifs <;> rfl
  | setCheckoutNx scheduleId seatId owner ttlSec =>
      show (Redis.setCheckoutNx scheduleId seatId owner ttlSec s).1.published = _
      unfold Redis.setCheckoutNx
      split <;> rfl
  | _ => rfl

/-! ## Checkout keys -/

/-- The checkout key of a seat is live. -/
def inCheckout (s : Redis) (seat : ℤ × ℤ) : Bool := (s.seatCheckout.lookup s.now seat).isSome

section Checkouts

variable {c : Cmd} {s : Redis} {seat : ℤ × ℤ}

/-- Only the commands on checkout keys write them. -/
theorem effect_seatCheckout (hset : ∀ scheduleId seatId owner ttlSec,
    c ≠ .setCheckoutNx scheduleId seatId owner ttlSec)
    (hdel : ∀ scheduleId seatId, c ≠ .delCheckout scheduleId seatId) :
    (c.effect s).seatCheckout = s.seatCheckout := by
  cases c with
  | setCheckoutNx => exact absurd rfl (hset _ _ _ _)
  | delCheckout => exact absurd rfl (hdel _ _)
  | eval script showtimeId seatId userId entry =>
      show (Redis.eval script showtimeId seatId userId entry s).1.seatCheckout = _
      unfold Redis.eval
      split
      all_goals
        repeat' split
        all_goals first | rfl | exact setBits_seatCheckout
  | writeMetadata | setBits => exact setBits_seatCheckout
  | setLockNx showtimeId seatId userId ttlMs =>
      show (Redis.setLockNx showtimeId seatId userId ttlMs s).1.seatCheckout = _
      unfold Redis.setLockNx
      split_ifs
      · split <;> rfl
      · rfl
  | pexpireLock showtimeId seatId ttlMs =>
      show (Redis.pexpireLock showtimeId seatId ttlMs s).1.seatCheckout = _
      unfold Redis.pexpireLock
      split_ifs <;> rfl
  | _ => rfl

/-- Where neither was the key of the seat, the seat is in checkout as before. -/
theorem effect_inCheckout_eq
    (hset : ∀ owner ttlSec, c ≠ .setCheckoutNx seat.1 seat.2 owner ttlSec)
    (hdel : c ≠ .delCheckout seat.1 seat.2) : (c.effect s).inCheckout seat = s.inCheckout seat := by
  have hnow := effect_now c s
  cases c with
  | setCheckoutNx scheduleId seatId owner ttlSec =>
      have hne : seat ≠ (scheduleId, seatId) := by
        rintro rfl
        exact hset owner ttlSec rfl
      show (Redis.setCheckoutNx scheduleId seatId owner ttlSec s).1.inCheckout seat = _
      unfold Redis.setCheckoutNx
      split
      · rfl
      · unfold inCheckout
        rw [Expiring.lookup_put_ne hne]
  | delCheckout scheduleId seatId =>
      have hne : seat ≠ (scheduleId, seatId) := by
        rintro rfl
        exact hdel rfl
      show ((s.seatCheckout.del (scheduleId, seatId)).lookup s.now seat).isSome = _
      rw [Expiring.lookup_del_ne hne]
      rfl
  | _ =>
      have hkept : ∀ c : Cmd, (c.effect s).now = s.now →
          (c.effect s).seatCheckout = s.seatCheckout →
          (c.effect s).inCheckout seat = s.inCheckout seat := by
        intro c hnow hkeys
        rw [inCheckout, hkeys, hnow]
        rfl
      exact hkept _ hnow (effect_seatCheckout (fun _ _ _ _ => nofun) fun _ _ => nofun)

/-- A key that was deleted is live no more. -/
theorem inCheckout_delCheckout :
    ((Cmd.delCheckout seat.1 seat.2).effect s).inCheckout seat = false := by
  show ((s.seatCheckout.del seat).lookup s.now seat).isSome = false
  rw [Expiring.lookup_del_self]
  rfl

/-- A checkout key that is live after a command was live before, or the command is the one that sets
it. -/
theorem effect_inCheckout (h : (c.effect s).inCheckout seat = true) :
    s.inCheckout seat = true ∨ ∃ owner ttlSec, c = .setCheckoutNx seat.1 seat.2 owner ttlSec := by
  by_cases hset : ∃ owner ttlSec, c = .setCheckoutNx seat.1 seat.2 owner ttlSec
  · exact .inr hset
  by_cases hdel : c = .delCheckout seat.1 seat.2
  · subst hdel
    rw [inCheckout_delCheckout] at h
    cases h
  · rw [effect_inCheckout_eq (fun owner ttlSec heq => hset ⟨owner, ttlSec, heq⟩) hdel] at h
    exact .inl h

theorem inCheckout_tick {d : ℕ}
    (h : ({ s with now := s.now + d } : Redis).inCheckout seat = true) : s.inCheckout seat = true := by
  obtain ⟨v, hv⟩ := Option.isSome_iff_exists.1 h
  exact Option.isSome_iff_exists.2
    ⟨v, Expiring.lookup_of_later (Nat.le_add_right s.now d) hv⟩

end Checkouts

end Redis
end Bookit

import Bookit.Redis.Effects
import Bookit.Redis.Pools

/-!
# Redis.LockedSeats — the zset of a user's locked seats

`get_user_locked_seats` lists the members of the user zset from the current second on, and the
ws-server lists what is left after it has removed the members up to the current second.  A member is
written with the metadata of its seat and removed by the scripts and the clean-up.
-/

namespace Bookit

open Lib

/-! ## The lists -/

namespace WsServer

/-- `SeatStatusPayload`. -/
structure SeatStatusPayload where
  seatId : ℤ
  showId : ℤ
  state : String
  deriving DecidableEq

/-- `sync_locks_from_zset`, over a connection that answers. -/
def syncLocksFromZset (userId showtimeId : ℤ) (s : Redis) : Redis × List SeatStatusPayload :=
  let kept := SingleNodeLock.zrembyscore (fun score => decide (score ≤ s.timestamp)) s
    (.user showtimeId userId)
  (kept, ((kept.userLocks (showtimeId, userId)).range SingleNodeLock.textLe).map fun seatId =>
    { seatId := seatId, showId := showtimeId, state := "locked" })

end WsServer

namespace Redis

/-- The seat is in the zset of the user with this score. -/
def ListedFor (s : Redis) (seat : ℤ × ℤ) (userId score : ℤ) : Prop :=
  (seat.2, score) ∈ (s.userLocks (seat.1, userId)).entries

section Lists

variable {s : Redis} {showtimeId seatId userId : ℤ}

theorem mem_lockedSeats_iff : seatId ∈ SingleNodeLock.lockedSeats showtimeId userId s ↔
    ∃ score, s.ListedFor (showtimeId, seatId) userId score ∧ s.timestamp ≤ score :=
  SortedSet.mem_rangeFrom_iff

theorem mem_syncLocksFromZset_iff :
    ⟨seatId, showtimeId, "locked"⟩ ∈ (WsServer.syncLocksFromZset userId showtimeId s).2 ↔
      ∃ score, s.ListedFor (showtimeId, seatId) userId score ∧ s.timestamp < score := by
  have hkept : ∀ score, (seatId, score) ∈ ((SingleNodeLock.zrembyscore
      (fun score => decide (score ≤ s.timestamp)) s (.user showtimeId userId)).userLocks
        (showtimeId, userId)).entries ↔
      s.ListedFor (showtimeId, seatId) userId score ∧ s.timestamp < score := by
    intro score
    unfold SingleNodeLock.zrembyscore
    dsimp only
    rw [setAt_self, SortedSet.mem_entries_remWhere, decide_eq_false_iff_not, not_le]
    exact Iff.rfl
  unfold WsServer.syncLocksFromZset
  simp only [List.mem_map, WsServer.SeatStatusPayload.mk.injEq, and_true, exists_eq_right,
    SortedSet.mem_range_iff]
  exact exists_congr hkept

end Lists

/-! ## What a command does to a member -/

/-- The member of a user zset that a command writes, with its score, or removes. -/
def Cmd.lists : Cmd → Redis → Option ((ℤ × ℤ) × ℤ × Option ℤ)
  | .eval script showtimeId seatId userId _, s =>
      if script.Acts showtimeId seatId userId s then
        match script with
        | .acquire _ expiry _ => some ((showtimeId, seatId), userId, some expiry)
        | _ => some ((showtimeId, seatId), userId, none)
      else
        none
  | .writeMetadata showtimeId seatId userId expiry .., _ =>
      some ((showtimeId, seatId), userId, some expiry)
  | .zaddUser showtimeId userId seatId score, _ => some ((showtimeId, seatId), userId, some score)
  | .zremUser showtimeId userId seatId, _ => some ((showtimeId, seatId), userId, none)
  | _, _ => none

/-- A zset with a member written or removed. -/
def relist (zset : SortedSet ℤ) (seatId : ℤ) : Option ℤ → SortedSet ℤ
  | some score => zset.add seatId score
  | none => zset.rem seatId

/-- The user zsets with a member written or removed. -/
def setListed (s : Redis) (seat : ℤ × ℤ) (userId : ℤ) (score : Option ℤ) :
    ℤ × ℤ → SortedSet ℤ :=
  setAt s.userLocks (seat.1, userId) (relist (s.userLocks (seat.1, userId)) seat.2 score)

theorem effect_userLocks (c : Cmd) (s : Redis) :
    (c.effect s).userLocks = match c.lists s with
      | none => s.userLocks
      | some (seat, userId, score) => s.setListed seat userId score := by
  cases c with
  | eval script showtimeId seatId userId entry =>
      show (Redis.eval script showtimeId seatId userId entry s).1.userLocks = _
      by_cases hacts : script.Acts showtimeId seatId userId s
      · simp only [Cmd.lists, hacts, if_true]
        cases script with
        | acquire ttlMs expiry processingExpiry =>
            unfold Redis.eval
            dsimp only
            rw [if_pos hacts.1, if_pos hacts.2]
            exact setBits_userLocks
        | forceBook =>
            unfold Redis.eval
            dsimp only
            rw [setBits_userLocks]
            split_ifs <;> rfl
        | releaseExpired | release | book =>
            have hacts : s.freeOrOwnedBy showtimeId seatId userId = true := hacts
            unfold Redis.eval
            dsimp only
            rw [if_pos hacts]
            exact setBits_userLocks
      · simp only [Cmd.lists, hacts, if_false]
        rcases eval_refused hacts with heq | ⟨-, heq⟩
        · rw [heq]
        · rw [heq]
          rfl
  | writeMetadata => exact setBits_userLocks
  | setBits => exact setBits_userLocks
  | setLockNx showtimeId seatId userId ttlMs =>
      show (Redis.setLockNx showtimeId seatId userId ttlMs s).1.userLocks = _
      unfold Redis.setLockNx
      split_ifs
      · split <;> rfl
      · rfl
  | pexpireLock showtimeId seatId ttlMs =>
      show (Redis.pexpireLock showtimeId seatId ttlMs s).1.userLocks = _
      unfold Redis.pexpireLock
      split_ifs <;> rfl
  | setCheckoutNx scheduleId seatId owner ttlSec =>
      show (Redis.setCheckoutNx scheduleId seatId owner ttlSec s).1.userLocks = _
      unfold Redis.setCheckoutNx
      split <;> rfl
  | _ => rfl

/-- What a command does to a member of a user zset. -/
inductive ListEffect (s : Redis) (seat : ℤ × ℤ) (userId : ℤ) (c : Cmd) (t : Redis) : Prop where
  | kept (hc : ∀ listed, c.lists s ≠ some (seat, userId, listed))
      (hlisted : ∀ score, t.ListedFor seat userId score ↔ s.ListedFor seat userId score)
  | written {expiry : ℤ} (hc : c.lists s = some (seat, userId, some expiry))
      (hlisted : ∀ score, t.ListedFor seat userId score ↔ score = expiry)
  | removed (hc : c.lists s = some (seat, userId, none))
      (hlisted : ∀ score, ¬t.ListedFor seat userId score)

theorem listEffect (c : Cmd) (s : Redis) (seat : ℤ × ℤ) (userId : ℤ) :
    ListEffect s seat userId c (c.effect s) := by
  have hlocks := effect_userLocks c s
  cases hlists : c.lists s with
  | none =>
      rw [hlists] at hlocks
      refine .kept (fun _ h => nomatch hlists.symm.trans h) fun score => ?_
      unfold ListedFor
      rw [hlocks]
  | some x =>
      obtain ⟨seat', userId', listed⟩ := x
      rw [hlists] at hlocks
      dsimp only at hlocks
      have hother : ∀ listed', (seat, userId) ≠ (seat', userId') →
          c.lists s ≠ some (seat, userId, listed') := by
        intro listed' hne h
        obtain ⟨rfl, hrest⟩ := Prod.mk.inj (Option.some.inj (h.symm.trans hlists))
        exact hne (by rw [(Prod.mk.inj hrest).1])
      by_cases hkey : (seat.1, userId) = (seat'.1, userId')
      · have hzset : (c.effect s).userLocks (seat.1, userId) =
            relist (s.userLocks (seat.1, userId)) seat'.2 listed := by
          rw [hlocks, hkey]
          exact setAt_self
        by_cases hseat : seat.2 = seat'.2
        · obtain ⟨hshow, rfl⟩ := Prod.mk.inj hkey
          obtain rfl : seat = seat' := Prod.ext hshow hseat
          cases listed with
          | some expiry =>
              refine .written hlists fun score => ?_
              unfold ListedFor
              rw [hzset]
              simp [relist]
          | none =>
              refine .removed hlists fun score => ?_
              unfold ListedFor
              rw [hzset]
              simp [relist]
        · refine .kept (fun _ => hother _ fun h => hseat (by rw [(Prod.mk.inj h).1])) fun score => ?_
          unfold ListedFor
          rw [hzset]
          cases listed with
          | some expiry => simp [relist, hseat]
          | none => simp [relist, hseat]
      · refine .kept (fun _ => hother _ fun h => hkey ?_) fun score => ?_
        · rw [(Prod.mk.inj h).1, (Prod.mk.inj h).2]
        unfold ListedFor
        rw [hlocks]
        unfold setListed
        rw [setAt_ne hkey]

@[simp] theorem seatLock_writeMetadata {s : Redis} (showtimeId seatId userId expiry
    processingExpiry : ℤ) (entry : QueueEntry) :
    ((Cmd.writeMetadata showtimeId seatId userId expiry processingExpiry entry).effect s).seatLock =
      s.seatLock :=
  setBits_seatLock ..

/-- A script that deletes a lock removes the member of its user. -/
theorem lists_of_releases {c : Cmd} {s : Redis} {seat : ℤ × ℤ} {userId : ℤ}
    (h : c.releases s = some (seat, userId)) : c.lists s = some (seat, userId, none) := by
  cases c with
  | eval script showtimeId seatId user entry =>
      simp only [Cmd.releases] at h
      split_ifs at h with hcond
      obtain ⟨rfl, rfl⟩ := Prod.mk.inj (Option.some.inj h)
      have hacts : script.Acts showtimeId seatId user s := by
        cases script with
        | acquire => exact absurd hcond.1 id
        | forceBook => trivial
        | releaseExpired | release | book => exact hcond.2
      simp only [Cmd.lists, hacts, if_true]
      cases script with
      | acquire => exact absurd hcond.1 id
      | _ => rfl
  | _ => cases h

/-- A script that removes the member of a lock's owner deletes the lock. -/
theorem seatLock_of_removed {script : Script} {s : Redis} {showtimeId seatId userId : ℤ}
    {entry : QueueEntry} (hscript : script.Deletes)
    (howner : s.lockOwner showtimeId seatId = some userId) :
    ((Cmd.eval script showtimeId seatId userId entry).effect s).seatLock
      (showtimeId, seatId) = none := by
  have hfree : s.freeOrOwnedBy showtimeId seatId userId = true := by
    refine freeOrOwnedBy_iff.2 fun owner h => ?_
    exact Option.some.inj (h.symm.trans howner)
  have hlock : (Redis.eval script showtimeId seatId userId entry s).1.seatLock =
      s.seatLock.del (showtimeId, seatId) := by
    cases script with
    | acquire => exact absurd hscript id
    | releaseExpired | release | book | forceBook =>
        unfold Redis.eval
        dsimp only
        rw [if_pos hfree]
        exact releaseKeys_seatLock ..
  show (Redis.eval script showtimeId seatId userId entry s).1.seatLock _ = none
  rw [hlock]
  exact Expiring.del_self

end Redis
end Bookit

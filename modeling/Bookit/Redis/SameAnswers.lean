import Bookit.Redis.ClusterLock
import Bookit.Redis.Replication

/-!
# Redis.SameAnswers — the cluster lock beside the single-node lock

The two locks are given the same operations.  Corresponding stores have the same live locks, the same
bitmap, and user zsets that differ in the unit of their scores; the cluster has no context keys.  An
operation that keeps the stores in correspondence is answered alike by both.
-/

namespace Bookit
namespace ClusterLock

open Lib
open Redis (setAt setAt_self setAt_ne)
open SingleNodeLock (Pools Answer evalOp evalPools_one queueMember textLe)

/-! ## Corresponding stores -/

structure Corresponds (c : ClusterRedis) (s : Redis) : Prop where
  now : c.now = s.now
  owner : ∀ k t, c.now ≤ t → c.seatLock.lookup t k = s.seatLock.lookup t k
  context : ∀ k, c.seatContext k = none
  locked : ∀ k, SortedSet.Rescaled (· / 1000) (c.userLocks k) (s.userLocks k)
  bitmap : c.bitmap = s.bitmap

namespace Corresponds

variable {c : ClusterRedis} {s t : Redis} {showtimeId seatId userId : ℤ}

theorem empty : Corresponds .empty .empty :=
  ⟨rfl, fun _ _ _ => rfl, fun _ => rfl, fun _ => rfl, rfl⟩

theorem tick (h : Corresponds c s) (d : ℕ) :
    Corresponds { c with now := c.now + d } { s with now := s.now + d } := by
  refine ⟨?_, fun k t ht => ?_, h.context, h.locked, h.bitmap⟩
  · show c.now + d = s.now + d
    rw [h.now]
  · have hle : c.now + d ≤ t := ht
    exact h.owner k t (by omega)

/-- The single node may differ in what the cluster does not have. -/
theorem congr (h : Corresponds c s) (hnow : t.now = s.now) (hlock : t.seatLock = s.seatLock)
    (huser : t.userLocks = s.userLocks) (hbitmap : t.bitmap = s.bitmap) : Corresponds c t := by
  refine ⟨h.now.trans hnow.symm, fun k u hu => ?_, h.context, fun k => ?_, h.bitmap.trans hbitmap.symm⟩
  · rw [hlock]
    exact h.owner k u hu
  · rw [huser]
    exact h.locked k

theorem lockOwner_eq (h : Corresponds c s) :
    c.lockOwner showtimeId seatId = s.lockOwner showtimeId seatId := by
  unfold ClusterRedis.lockOwner Redis.lockOwner
  rw [← h.now]
  exact h.owner _ _ (Nat.le_refl _)

theorem freeOrOwnedBy_eq (h : Corresponds c s) :
    c.freeOrOwnedBy showtimeId seatId userId = s.freeOrOwnedBy showtimeId seatId userId := by
  cases howner : s.lockOwner showtimeId seatId <;>
    simp only [ClusterRedis.freeOrOwnedBy, Redis.freeOrOwnedBy, h.lockOwner_eq, howner]

theorem validTtl_eq (h : Corresponds c s) (ttlMs : ℕ) : c.validTtl ttlMs = s.validTtl ttlMs := by
  unfold ClusterRedis.validTtl Redis.validTtl
  rw [h.now]

theorem timestamp_eq (h : Corresponds c s) : c.timestamp = s.timestamp := by
  unfold ClusterRedis.timestamp Redis.timestamp
  rw [h.now]

/-! ### Updates of both stores -/

theorem putLock (h : Corresponds c s) (ttlMs : ℕ) :
    Corresponds (c.putLock showtimeId seatId userId ttlMs)
      (s.putLock showtimeId seatId userId ttlMs) := by
  refine ⟨h.now, fun k t ht => ?_, h.context, h.locked, h.bitmap⟩
  show (c.seatLock.put _ _ (c.now + ttlMs)).lookup t k =
    (s.seatLock.put _ _ (s.now + ttlMs)).lookup t k
  rw [h.now]
  by_cases hk : k = (showtimeId, seatId)
  · subst hk
    unfold Expiring.lookup
    rw [Expiring.put_self, Expiring.put_self]
  · rw [Expiring.lookup_put_ne hk, Expiring.lookup_put_ne hk]
    exact h.owner k t ht

theorem delLock (h : Corresponds c s) :
    Corresponds (c.delLock showtimeId seatId userId) (s.delLock showtimeId seatId userId) := by
  refine ⟨h.now, fun k t ht => ?_, fun k => ?_, h.locked, h.bitmap⟩
  · show (c.seatLock.del _).lookup t k = (s.seatLock.del _).lookup t k
    by_cases hk : k = (showtimeId, seatId)
    · subst hk
      rw [Expiring.lookup_del_self, Expiring.lookup_del_self]
    · rw [Expiring.lookup_del_ne hk, Expiring.lookup_del_ne hk]
      exact h.owner k t ht
  · show c.seatContext.del _ k = none
    by_cases hk : k = (showtimeId, seatId, userId)
    · rw [hk]
      exact Expiring.del_self
    · rw [Expiring.del_ne hk]
      exact h.context k

/-- A lock that is not live is deleted on the single node only. -/
theorem delFree (h : Corresponds c s) (hfree : c.lockOwner showtimeId seatId = none) :
    Corresponds c (s.delLock showtimeId seatId userId) := by
  refine ⟨h.now, fun k t ht => ?_, h.context, h.locked, h.bitmap⟩
  show c.seatLock.lookup t k = (s.seatLock.del _).lookup t k
  by_cases hk : k = (showtimeId, seatId)
  · subst hk
    rw [Expiring.lookup_del_self]
    refine Option.eq_none_iff_forall_ne_some.2 fun owner howner => ?_
    have hlive : c.lockOwner showtimeId seatId = some owner := Expiring.lookup_of_later ht howner
    rw [hfree] at hlive
    cases hlive
  · rw [Expiring.lookup_del_ne hk]
    exact h.owner k t ht

theorem zaddUser (h : Corresponds c s) {ms sec : ℤ} (hscore : ms / 1000 = sec) :
    Corresponds (c.zaddUser showtimeId userId seatId ms)
      (s.zaddUser showtimeId userId seatId sec) := by
  refine ⟨h.now, h.owner, h.context, fun k => ?_, h.bitmap⟩
  show SortedSet.Rescaled _ (setAt c.userLocks _ _ k) (setAt s.userLocks _ _ k)
  by_cases hk : k = (showtimeId, userId)
  · subst hk
    rw [setAt_self, setAt_self]
    exact (h.locked _).add hscore
  · rw [setAt_ne hk, setAt_ne hk]
    exact h.locked k

theorem zremUser (h : Corresponds c s) :
    Corresponds (c.zremUser showtimeId userId seatId) (s.zremUser showtimeId userId seatId) := by
  refine ⟨h.now, h.owner, h.context, fun k => ?_, h.bitmap⟩
  show SortedSet.Rescaled _ (setAt c.userLocks _ _ k) (setAt s.userLocks _ _ k)
  by_cases hk : k = (showtimeId, userId)
  · subst hk
    rw [setAt_self, setAt_self]
    exact (h.locked _).rem
  · rw [setAt_ne hk, setAt_ne hk]
    exact h.locked k

theorem setBits (h : Corresponds c s) {state : SeatState} (hseat : 0 ≤ seatId) :
    Corresponds (c.setBits showtimeId seatId state) (s.setBits showtimeId seatId state) := by
  have hbits : s.setBits showtimeId seatId state =
      { s with bitmap := setAt s.bitmap (showtimeId, seatId) state } :=
    if_neg (Int.not_lt.2 hseat)
  rw [hbits]
  refine ⟨h.now, h.owner, h.context, h.locked, ?_⟩
  show setAt c.bitmap _ _ = setAt s.bitmap _ _
  rw [h.bitmap]

/-- Rooms and queues are not compared. -/
theorem cluster {c' : ClusterRedis} (h : Corresponds c s) (hnow : c'.now = c.now)
    (hlock : c'.seatLock = c.seatLock) (hcontext : c'.seatContext = c.seatContext)
    (huser : c'.userLocks = c.userLocks) (hbitmap : c'.bitmap = c.bitmap) : Corresponds c' s := by
  refine ⟨hnow.trans h.now, fun k t ht => ?_, fun k => ?_, fun k => ?_, hbitmap.trans h.bitmap⟩
  · rw [hlock]
    exact h.owner k t (hnow ▸ ht)
  · rw [hcontext]
    exact h.context k
  · rw [huser]
    exact h.locked k

end Corresponds

/-! ## Times -/

/-- The product of an expiry with a thousand is within 32 bits. -/
def Exact (expiresInSec : ℤ) : Prop :=
  -2 ^ 31 ≤ expiresInSec * 1000 ∧ expiresInSec * 1000 < 2 ^ 31

instance {expiresInSec : ℤ} : Decidable (Exact expiresInSec) :=
  inferInstanceAs (Decidable (_ ∧ _))

theorem bmod_exact {n : ℤ} (h : -2 ^ 31 ≤ n ∧ n < 2 ^ 31) : n.bmod (2 ^ 32) = n :=
  Int.bmod_eq_of_le (by omega) (by omega)

theorem ttlMs_exact {expiresInSec : ℤ} (h : Exact expiresInSec) :
    ttlMs expiresInSec = SingleNodeLock.ttlMs expiresInSec := by
  unfold ttlMs SingleNodeLock.ttlMs
  rw [bmod_exact h]
  have hpos : 0 ≤ expiresInSec % 2 ^ 64 := Int.emod_nonneg _ (by decide)
  have hcast : (((expiresInSec % 2 ^ 64).toNat * 1000 % 2 ^ 64 : ℕ) : ℤ) =
      expiresInSec * 1000 % 2 ^ 64 := by
    rw [Int.natCast_emod, Int.natCast_mul, Int.toNat_of_nonneg hpos]
    show expiresInSec % 2 ^ 64 * 1000 % 2 ^ 64 = _
    rw [Int.mul_emod (expiresInSec % 2 ^ 64), Int.emod_emod, ← Int.mul_emod]
  rw [← hcast, Int.toNat_natCast]

theorem expiry_exact {expiresInSec : ℤ} (now : ℕ) (h : Exact expiresInSec) :
    expiry now (ttlMs expiresInSec) = now + expiresInSec * 1000 := by
  unfold expiry ttlMs
  rw [bmod_exact h]
  obtain ⟨hlow, hhigh⟩ := h
  have hmod : ((expiresInSec * 1000 % 2 ^ 64).toNat : ℤ).bmod (2 ^ 64) = expiresInSec * 1000 := by
    rw [Int.toNat_of_nonneg (by omega)]
    have hbmod : (expiresInSec * 1000 % ((2 ^ 64 : ℕ) : ℤ)).bmod (2 ^ 64) =
        (expiresInSec * 1000).bmod (2 ^ 64) := Int.emod_bmod _ _
    exact hbmod.trans (Int.bmod_eq_of_le (by omega) (by omega))
  rw [hmod]

/-- The scores of a lock in the two user zsets. -/
theorem expiry_seconds {c : ClusterRedis} {s : Redis} {expiresInSec : ℤ} (h : Corresponds c s)
    (hexact : Exact expiresInSec) :
    expiry c.now (ttlMs expiresInSec) / 1000 = s.timestamp + expiresInSec := by
  rw [expiry_exact c.now hexact, ← h.timestamp_eq]
  unfold ClusterRedis.timestamp
  omega

/-! ## The operations of the single node -/

section SingleNode

variable {s : Redis} {showtimeId seatId userId expiresInSec : ℤ} {entry : QueueEntry}
variable {state : SeatState}

theorem evalOp_setBitmap :
    evalOp (SingleNodeLock.setScheduleSeatBitmapStateCluster showtimeId seatId state) s =
      (s.setBits showtimeId seatId state, ()) := by
  unfold SingleNodeLock.setScheduleSeatBitmapStateCluster Redis.setBits
  split_ifs with hneg
  · rfl
  · show (Redis.setBits s showtimeId seatId state, ()) = _
    unfold Redis.setBits
    rw [if_neg hneg]

theorem evalOp_cleanUp :
    evalOp (SingleNodeLock.cleanUp showtimeId seatId userId entry state) s =
      (SingleNodeLock.cleaned showtimeId seatId userId entry state s, ()) :=
  evalOp_setBitmap

/-- The writes that follow an acquired lock. -/
theorem evalOp_marked {expiry processingExpiry : ℤ} :
    evalOp (do
      SingleNodeLock.zaddClusterUser showtimeId userId seatId expiry
      SingleNodeLock.zaddClusterRoom showtimeId seatId userId expiry
      SingleNodeLock.zaddClusterQueue entry processingExpiry
      SingleNodeLock.setScheduleSeatBitmapStateCluster showtimeId seatId .locked
      pure true) s =
        (SingleNodeLock.marked showtimeId seatId userId entry expiry processingExpiry s, true) := by
  show evalOp (SingleNodeLock.setScheduleSeatBitmapStateCluster showtimeId seatId .locked >>=
    fun _ => pure true) (((s.zaddUser showtimeId userId seatId expiry).zaddRoom showtimeId seatId
      userId expiry).zaddQueue entry processingExpiry) = _
  rw [SingleNodeLock.evalOp_bind, evalOp_setBitmap]
  rfl

/-- A script whose clean-up follows where it answered `1`. -/
theorem evalOp_evalThenCleanUp {script : Redis.Script} {after : Redis × Option ℤ}
    (hafter : Redis.eval script showtimeId seatId userId (queueMember showtimeId seatId userId) s =
      after) :
    evalOp (SingleNodeLock.evalThenCleanUp script state showtimeId seatId userId) s =
      if after.2 = some 1 then
        (SingleNodeLock.cleaned showtimeId seatId userId (queueMember showtimeId seatId userId) state
          after.1, true)
      else
        (after.1, false) := by
  subst hafter
  let entry := queueMember showtimeId seatId userId
  let after := Redis.eval script showtimeId seatId userId entry s
  show evalOp (if after.2 = some 1 then
      SingleNodeLock.cleanUp showtimeId seatId userId entry state >>= fun _ => pure true
    else pure false) after.1 = _
  split_ifs
  · rw [SingleNodeLock.evalOp_bind, evalOp_cleanUp]
    rfl
  · rfl

theorem cleaned_now : (SingleNodeLock.cleaned showtimeId seatId userId entry state s).now = s.now :=
  Redis.setBits_now ..

theorem cleaned_seatLock :
    (SingleNodeLock.cleaned showtimeId seatId userId entry state s).seatLock = s.seatLock :=
  Redis.setBits_seatLock ..

end SingleNode

/-! ## What both do -/

section Both

variable {slot : String → ℕ} {entryText : QueueEntry → String} {c : ClusterRedis} {s : Redis}
variable {showtimeId seatId userId expiresInSec : ℤ} {entry : QueueEntry} {member : String}
variable {state : SeatState}

/-- The members of a seat are removed, and its field is set. -/
theorem Corresponds.cleaned (h : Corresponds c s) (hseat : 0 ≤ seatId) :
    Corresponds ((((c.zremUser showtimeId userId seatId).zremRoom showtimeId member).zremQueue
        member).setBits showtimeId seatId state)
      (SingleNodeLock.cleaned showtimeId seatId userId entry state s) := by
  have huser : Corresponds (c.zremUser showtimeId userId seatId)
      (s.zremUser showtimeId userId seatId) := h.zremUser
  have hcluster : Corresponds (((c.zremUser showtimeId userId seatId).zremRoom showtimeId
      member).zremQueue member) (s.zremUser showtimeId userId seatId) :=
    huser.cluster rfl rfl rfl rfl rfl
  have hsingle : Corresponds (((c.zremUser showtimeId userId seatId).zremRoom showtimeId
      member).zremQueue member) (((s.zremUser showtimeId userId seatId).zremRoom showtimeId seatId
        userId).zremQueue entry) := hcluster.congr rfl rfl rfl rfl
  exact hsingle.setBits hseat

/-- The single node repeats the writes of its script. -/
theorem Corresponds.cleaned_again
    (h : Corresponds c (SingleNodeLock.cleaned showtimeId seatId userId entry state s)) :
    Corresponds c (SingleNodeLock.cleaned showtimeId seatId userId entry state
      (SingleNodeLock.cleaned showtimeId seatId userId entry state s)) := by
  obtain ⟨huser, -, -, hbitmap⟩ := SingleNodeLock.replica_eq_iff.1
    (SingleNodeLock.replica_cleaned_cleaned : (SingleNodeLock.cleaned showtimeId seatId userId entry
      state (SingleNodeLock.cleaned showtimeId seatId userId entry state s)).replica = _)
  exact h.congr cleaned_now cleaned_seatLock huser hbitmap

/-- The writes of the scripts for a due entry and for a booking, with those that follow. -/
theorem Corresponds.dropKeys (h : Corresponds c s) (hseat : 0 ≤ seatId) :
    Corresponds (dropKeys showtimeId seatId userId member state c)
      (SingleNodeLock.cleaned showtimeId seatId userId entry state
        (s.releaseKeys showtimeId seatId userId entry state)) := by
  have hdel : Corresponds (c.delLock showtimeId seatId userId)
      (s.delLock showtimeId seatId userId) := h.delLock
  exact (hdel.cleaned hseat).cleaned_again

/-- The writes of an acquired lock. -/
theorem Corresponds.marked (h : Corresponds c s) {ms sec processingMs processingSec : ℤ}
    (hscore : ms / 1000 = sec) (hseat : 0 ≤ seatId) :
    Corresponds ((((c.zaddRoom showtimeId member ms).zaddUser showtimeId userId seatId
        ms).zaddQueue member processingMs).setBits showtimeId seatId .locked)
      (SingleNodeLock.marked showtimeId seatId userId entry sec processingSec s) := by
  have huser : Corresponds (c.zaddUser showtimeId userId seatId ms)
      (s.zaddUser showtimeId userId seatId sec) := h.zaddUser hscore
  have hcluster : Corresponds (((c.zaddRoom showtimeId member ms).zaddUser showtimeId userId seatId
      ms).zaddQueue member processingMs) (s.zaddUser showtimeId userId seatId sec) :=
    huser.cluster rfl rfl rfl rfl rfl
  have hsingle : Corresponds (((c.zaddRoom showtimeId member ms).zaddUser showtimeId userId seatId
      ms).zaddQueue member processingMs) (((s.zaddUser showtimeId userId seatId sec).zaddRoom
        showtimeId seatId userId sec).zaddQueue entry processingSec) :=
    hcluster.congr rfl rfl rfl rfl
  exact hsingle.setBits hseat

theorem Corresponds.marked_again {sec processingSec : ℤ}
    (h : Corresponds c (SingleNodeLock.marked showtimeId seatId userId entry sec processingSec s)) :
    Corresponds c (SingleNodeLock.marked showtimeId seatId userId entry sec processingSec
      (SingleNodeLock.marked showtimeId seatId userId entry sec processingSec s)) := by
  obtain ⟨huser, -, -, hbitmap⟩ := SingleNodeLock.replica_eq_iff.1
    (SingleNodeLock.replica_marked_marked : (SingleNodeLock.marked showtimeId seatId userId entry sec
      processingSec (SingleNodeLock.marked showtimeId seatId userId entry sec processingSec
        s)).replica = _)
  exact h.congr (Redis.setBits_now ..) (Redis.setBits_seatLock ..) huser hbitmap

/-- An operation is answered alike, and the stores still correspond. -/
def Alike {β : Type} (cluster : ClusterRedis × β) (single : Redis × β) : Prop :=
  cluster.2 = single.2 ∧ Corresponds cluster.1 single.1

theorem alike_acquireSeatLock (h : Corresponds c s)
    (hstep : c.freeOrOwnedBy showtimeId seatId userId = true →
      Exact expiresInSec ∧ (c.validTtl (ttlMs expiresInSec) = true →
        0 ≤ seatId ∧ OneSlot slot (acquireKeys showtimeId seatId userId))) :
    Alike (acquireSeatLockLua slot showtimeId seatId userId expiresInSec c)
      (evalOp (SingleNodeLock.acquireSeatLockLua showtimeId seatId userId expiresInSec) s) := by
  let entry := queueMember showtimeId seatId userId
  let sec := s.timestamp + expiresInSec
  let script := Redis.Script.acquire (SingleNodeLock.ttlMs expiresInSec) sec (sec + 15)
  let after := Redis.eval script showtimeId seatId userId entry s
  have hsingle : evalOp (SingleNodeLock.acquireSeatLockLua showtimeId seatId userId expiresInSec) s =
      if after.2 = some 1 then
        (SingleNodeLock.marked showtimeId seatId userId entry sec (sec + 15) after.1, true)
      else
        (after.1, false) := by
    show evalOp (if after.2 = some 1 then _ else pure false) after.1 = _
    split_ifs
    · exact evalOp_marked
    · rfl
  rw [hsingle]
  by_cases hacts : c.freeOrOwnedBy showtimeId seatId userId = true ∧
      c.validTtl (ttlMs expiresInSec) = true
  · obtain ⟨hfree, httl⟩ := hacts
    obtain ⟨hexact, hkeys⟩ := hstep hfree
    obtain ⟨hseat, hslot⟩ := hkeys httl
    have hafter : after = (SingleNodeLock.marked showtimeId seatId userId entry sec (sec + 15)
        { s.putLock showtimeId seatId userId (SingleNodeLock.ttlMs expiresInSec) with
          seatContext := s.seatContext.put (showtimeId, seatId, userId) ()
            (s.now + SingleNodeLock.ttlMs expiresInSec) }, some 1) := by
      have hreply : Redis.scriptReply seatId 1 = some 1 := if_neg (Int.not_lt.2 hseat)
      rw [h.freeOrOwnedBy_eq] at hfree
      rw [ttlMs_exact hexact, h.validTtl_eq] at httl
      show Redis.eval script showtimeId seatId userId entry s = _
      unfold Redis.eval
      dsimp only [script]
      rw [if_pos hfree, if_pos httl, hreply]
      rfl
    rw [hafter, if_pos rfl]
    have hcluster : acquireSeatLockLua slot showtimeId seatId userId expiresInSec c =
        (((((c.putLock showtimeId seatId userId (ttlMs expiresInSec)).zaddRoom showtimeId
          (pairMember seatId userId) (expiry c.now (ttlMs expiresInSec))).zaddUser showtimeId userId
            seatId (expiry c.now (ttlMs expiresInSec))).zaddQueue (pairMember seatId userId)
              (processingExpiry c.now expiresInSec)).setBits showtimeId seatId .locked, true) := by
      unfold acquireSeatLockLua evalScript acquireScript
      rw [if_neg (Int.not_lt.2 hseat)]
      dsimp only
      rw [if_pos hslot, if_pos hfree, if_pos httl]
      rfl
    rw [hcluster]
    have hput : Corresponds (c.putLock showtimeId seatId userId (ttlMs expiresInSec))
        (s.putLock showtimeId seatId userId (ttlMs expiresInSec)) := h.putLock _
    have howned : Corresponds (c.putLock showtimeId seatId userId (ttlMs expiresInSec))
        { s.putLock showtimeId seatId userId (ttlMs expiresInSec) with
          seatContext := s.seatContext.put (showtimeId, seatId, userId) ()
            (s.now + ttlMs expiresInSec) } := hput.congr rfl rfl rfl rfl
    refine ⟨rfl, ?_⟩
    rw [← ttlMs_exact hexact]
    exact (howned.marked (expiry_seconds h hexact) hseat).marked_again
  · have hcluster : acquireSeatLockLua slot showtimeId seatId userId expiresInSec c = (c, false) := by
      unfold acquireSeatLockLua evalScript acquireScript
      dsimp only
      split_ifs with hneg hslot hfree httl
      · rfl
      · exact absurd ⟨hfree, httl⟩ hacts
      · rfl
      · rfl
      · rfl
    have hafter : after.1 = s ∧ after.2 ≠ some 1 := by
      show (Redis.eval script showtimeId seatId userId entry s).1 = s ∧
        (Redis.eval script showtimeId seatId userId entry s).2 ≠ some 1
      unfold Redis.eval
      dsimp only [script]
      split_ifs with hfree httl
      · rw [← h.freeOrOwnedBy_eq] at hfree
        rw [← ttlMs_exact (hstep hfree).1, ← h.validTtl_eq] at httl
        exact absurd ⟨hfree, httl⟩ hacts
      · exact ⟨rfl, by simp⟩
      · exact ⟨rfl, by simp⟩
    rw [hcluster, if_neg hafter.2, hafter.1]
    exact ⟨rfl, h⟩

/-- A lock that another user holds is refused by both, and a free one is set by both. -/
theorem alike_acquireDistributedLock (h : Corresponds c s)
    (hother : c.lockOwner showtimeId seatId ≠ some userId)
    (hexact : c.lockOwner showtimeId seatId = none → Exact expiresInSec) :
    Alike (acquireDistributedLock showtimeId seatId userId expiresInSec c)
      (evalOp (SingleNodeLock.acquireDistributedLock showtimeId seatId userId expiresInSec) s) := by
  let ttl := SingleNodeLock.ttlMs expiresInSec
  have hnotOwn : s.lockOwner showtimeId seatId ≠ some userId := h.lockOwner_eq ▸ hother
  have hextend : evalOp (SingleNodeLock.extendLock showtimeId seatId userId ttl) s = (s, false) := by
    show evalOp (if s.lockOwner showtimeId seatId = some userId then _ else pure false) s = _
    rw [if_neg hnotOwn]
    rfl
  have hsingle : evalOp (SingleNodeLock.acquireDistributedLock showtimeId seatId userId
      expiresInSec) s = if s.validTtl ttl = true ∧ s.lockOwner showtimeId seatId = none then
        (s.putLock showtimeId seatId userId ttl, true) else (s, false) := by
    let after := Redis.setLockNx showtimeId seatId userId ttl s
    show evalOp (if after.2 = some true then pure true
      else SingleNodeLock.extendLock showtimeId seatId userId ttl) after.1 = _
    have hafter : after = if s.validTtl ttl = true ∧ s.lockOwner showtimeId seatId = none then
        (s.putLock showtimeId seatId userId ttl, some true)
        else (s, if s.validTtl ttl then some false else none) := by
      show Redis.setLockNx showtimeId seatId userId ttl s = _
      unfold Redis.setLockNx
      cases s.validTtl ttl <;> cases s.lockOwner showtimeId seatId <;> rfl
    rw [hafter]
    by_cases hset : s.validTtl ttl = true ∧ s.lockOwner showtimeId seatId = none
    · rw [if_pos hset, if_pos hset, if_pos rfl]
      rfl
    · rw [if_neg hset, if_neg hset, if_neg (by split_ifs <;> simp)]
      exact hextend
  rw [hsingle]
  unfold acquireDistributedLock
  dsimp only
  cases howner : c.lockOwner showtimeId seatId with
  | some owner =>
      rw [h.lockOwner_eq] at howner
      rw [if_neg (by simp), if_neg (by simp [howner])]
      exact ⟨rfl, h⟩
  | none =>
      have hfree : s.lockOwner showtimeId seatId = none := h.lockOwner_eq ▸ howner
      have httl : ttlMs expiresInSec = ttl := ttlMs_exact (hexact howner)
      rw [httl, h.validTtl_eq, hfree]
      split_ifs
      · exact ⟨rfl, h.putLock ttl⟩
      · exact ⟨rfl, h⟩

/-! ### Metadata -/

theorem corresponds_metadata (entryText : QueueEntry → String) {ms sec : ℤ} (processingSec : ℤ)
    (hscore : ms / 1000 = sec) {seatIds : List ℤ} (hseats : ∀ seatId ∈ seatIds, 0 ≤ seatId) (h : Corresponds c s) :
    (metadataScript showtimeId userId ms (seatIds.map fun seatId =>
      (seatId, entryText (queueMember showtimeId seatId userId))) c).2 = some 1 ∧
    (evalOp (SingleNodeLock.updateSeats showtimeId userId sec processingSec seatIds true) s).2 =
      true ∧
    Corresponds (metadataScript showtimeId userId ms (seatIds.map fun seatId =>
        (seatId, entryText (queueMember showtimeId seatId userId))) c).1
      (evalOp (SingleNodeLock.updateSeats showtimeId userId sec processingSec seatIds true) s).1 := by
  induction seatIds generalizing c s with
  | nil => exact ⟨rfl, rfl, h⟩
  | cons seatId seatIds ih =>
      have hseat : 0 ≤ seatId := hseats seatId List.mem_cons_self
      have hwritten : evalOp (SingleNodeLock.updateSeats showtimeId userId sec processingSec
          (seatId :: seatIds) true) s =
            evalOp (SingleNodeLock.updateSeats showtimeId userId sec processingSec seatIds true)
              (Redis.writeMetadata showtimeId seatId userId sec processingSec
                (queueMember showtimeId seatId userId) s).1 := by
        have hconnect : Redis.exec .ok .connect s = (s, some ()) := rfl
        have hexec : Redis.exec .ok (.writeMetadata showtimeId seatId userId sec processingSec
            (queueMember showtimeId seatId userId)) s =
              ((Redis.writeMetadata showtimeId seatId userId sec processingSec
                (queueMember showtimeId seatId userId) s).1, some ()) :=
          Prod.ext rfl (if_neg (Int.not_lt.2 hseat))
        simp only [SingleNodeLock.updateSeats, Prog.perform_bind, evalOp, hconnect, hexec]
      rw [hwritten]
      refine ih (fun k hk => hseats k (List.mem_cons_of_mem _ hk)) ?_
      have hmarked : Corresponds ((((c.zaddRoom showtimeId
          (entryText (queueMember showtimeId seatId userId)) ms).zaddUser showtimeId userId seatId
            ms).zaddQueue (entryText (queueMember showtimeId seatId userId)) 0).setBits showtimeId
              seatId .locked)
          (SingleNodeLock.marked showtimeId seatId userId (queueMember showtimeId seatId userId) sec
            processingSec s) := h.marked hscore hseat
      have hsingle : Corresponds ((((c.zaddRoom showtimeId
          (entryText (queueMember showtimeId seatId userId)) ms).zaddUser showtimeId userId seatId
            ms).zaddQueue (entryText (queueMember showtimeId seatId userId)) 0).setBits showtimeId
              seatId .locked)
          (Redis.writeMetadata showtimeId seatId userId sec processingSec
            (queueMember showtimeId seatId userId) s).1 := hmarked
      exact hsingle.cluster rfl rfl rfl rfl rfl

theorem Corresponds.enqueue (h : Corresponds c s) {processing : ℤ} (seatIds : List ℤ) :
    Corresponds (enqueue entryText showtimeId userId processing seatIds c) s := by
  induction seatIds generalizing c with
  | nil => exact h
  | cons seatId seatIds ih => exact ih (h.cluster rfl rfl rfl rfl rfl)

theorem alike_updateSeatMetadata (h : Corresponds c s) {seatIds : List ℤ}
    (hseats : ∀ seatId ∈ seatIds, 0 ≤ seatId) (hexact : Exact expiresInSec)
    (hslot : OneSlot slot (metadataKeys showtimeId userId)) :
    Alike (updateSeatMetadataLua slot entryText showtimeId seatIds userId expiresInSec c)
      (evalOp (SingleNodeLock.updateSeatMetadataLua showtimeId seatIds userId expiresInSec) s) := by
  have hall : seatIds.filter (fun seatId => decide (0 ≤ seatId)) = seatIds :=
    List.filter_eq_self.2 fun seatId hmem => decide_eq_true (hseats seatId hmem)
  obtain ⟨hreply, hsingle, hcorr⟩ := corresponds_metadata entryText
    (s.timestamp + expiresInSec + 15) (expiry_seconds h hexact) hseats h
  unfold updateSeatMetadataLua evalScript
  dsimp only
  rw [hall, if_pos hslot, hreply]
  refine ⟨hsingle.symm, ?_⟩
  exact hcorr.enqueue seatIds

/-! ### Releasing and booking -/

theorem setBitmap_eq (hseat : 0 ≤ seatId) :
    setScheduleSeatBitmapStateCluster showtimeId seatId state c =
      c.setBits showtimeId seatId state :=
  if_neg (Int.not_lt.2 hseat)

theorem alike_releaseLock (h : Corresponds c s)
    (hstep : c.freeOrOwnedBy showtimeId seatId userId = true →
      0 ≤ seatId ∧ OneSlot slot (releaseKeys showtimeId seatId userId)) :
    Alike (releaseLock slot showtimeId seatId userId c)
      (evalOp (SingleNodeLock.releaseLock showtimeId seatId userId) s) := by
  let entry := queueMember showtimeId seatId userId
  by_cases hfree : c.freeOrOwnedBy showtimeId seatId userId = true
  · obtain ⟨hseat, hslot⟩ := hstep hfree
    have hafter : Redis.eval .release showtimeId seatId userId entry s =
        (s.releaseKeys showtimeId seatId userId entry .available, some 1) := by
      have hreply : Redis.scriptReply seatId 1 = some 1 := if_neg (Int.not_lt.2 hseat)
      unfold Redis.eval
      dsimp only
      rw [if_pos (h.freeOrOwnedBy_eq ▸ hfree), hreply]
    unfold SingleNodeLock.releaseLock
    rw [evalOp_evalThenCleanUp hafter, if_pos rfl]
    -- The script deletes a live lock only; where there is none, the two stores differ in nothing live.
    obtain ⟨unlocked, hscript, hunlocked⟩ : ∃ unlocked,
        releaseScript showtimeId seatId userId c = (unlocked, some 1) ∧
          Corresponds unlocked (s.delLock showtimeId seatId userId) := by
      unfold releaseScript
      rw [if_pos hfree]
      by_cases howner : c.lockOwner showtimeId seatId = none
      · exact ⟨c, if_pos howner, h.delFree howner⟩
      · exact ⟨c.delLock showtimeId seatId userId, if_neg howner, h.delLock⟩
    unfold releaseLock evalScript
    dsimp only
    rw [if_pos hslot, hscript, if_pos rfl, setBitmap_eq hseat]
    refine ⟨rfl, ?_⟩
    exact (hunlocked.cleaned hseat).cleaned_again
  · have hafter : Redis.eval .release showtimeId seatId userId entry s = (s, some 0) :=
      if_neg (h.freeOrOwnedBy_eq ▸ hfree)
    have hcluster : releaseLock slot showtimeId seatId userId c = (c, false) := by
      unfold releaseLock evalScript releaseScript
      dsimp only
      rw [if_neg hfree]
      split_ifs <;> simp_all
    unfold SingleNodeLock.releaseLock
    rw [evalOp_evalThenCleanUp hafter, if_neg (by simp), hcluster]
    exact ⟨rfl, h⟩

/-- What a script with all keys does where they are in one slot. -/
theorem evalAllKeys_eq {script : ClusterRedis → ClusterRedis × Option ℤ} (hseat : 0 ≤ seatId)
    (hslot : OneSlot slot (allKeys showtimeId seatId userId)) :
    evalAllKeys slot script showtimeId seatId userId c =
      ((script c).1, decide ((script c).2 = some 1)) := by
  unfold evalAllKeys evalScript
  dsimp only
  rw [if_neg (Int.not_lt.2 hseat), if_pos hslot]

theorem alike_releaseExpired (h : Corresponds c s)
    (hfree : c.freeOrOwnedBy showtimeId seatId userId = true) (hseat : 0 ≤ seatId)
    (hslot : OneSlot slot (allKeys showtimeId seatId userId)) :
    Alike (releaseExpiredLockLua slot showtimeId seatId userId member c)
      (evalOp (SingleNodeLock.releaseExpiredLockLua showtimeId seatId userId entry) s) := by
  have hafter : Redis.eval .releaseExpired showtimeId seatId userId entry s =
      (s.releaseKeys showtimeId seatId userId entry .available, some 1) := by
    have hreply : Redis.scriptReply seatId 1 = some 1 := if_neg (Int.not_lt.2 hseat)
    unfold Redis.eval
    dsimp only
    rw [if_pos (h.freeOrOwnedBy_eq ▸ hfree), hreply]
  have hsingle : evalOp (SingleNodeLock.releaseExpiredLockLua showtimeId seatId userId entry) s =
      (SingleNodeLock.cleaned showtimeId seatId userId entry .available
        (s.releaseKeys showtimeId seatId userId entry .available), true) := by
    let after := Redis.eval .releaseExpired showtimeId seatId userId entry s
    show evalOp (SingleNodeLock.cleanUp showtimeId seatId userId entry .available >>= fun _ =>
      pure (decide (after.2 = some 1))) after.1 = _
    rw [SingleNodeLock.evalOp_bind, evalOp_cleanUp, show after = _ from hafter]
    rfl
  have hcluster : releaseExpiredLockLua slot showtimeId seatId userId member c =
      (dropKeys showtimeId seatId userId member .available c, true) := by
    unfold releaseExpiredLockLua releaseExpiredScript
    rw [evalAllKeys_eq hseat hslot, if_pos hfree]
    rfl
  rw [hsingle, hcluster]
  exact ⟨rfl, h.dropKeys hseat⟩

theorem alike_forceBook (h : Corresponds c s)
    (hfree : c.freeOrOwnedBy showtimeId seatId userId = true) (hseat : 0 ≤ seatId)
    (hslot : OneSlot slot (allKeys showtimeId seatId userId)) :
    Corresponds (forceBookSeatLua slot showtimeId seatId userId member c)
      (evalOp (SingleNodeLock.forceBookSeatLua showtimeId seatId userId entry) s).1 := by
  have hafter : (Redis.eval .forceBook showtimeId seatId userId entry s).1 =
      s.releaseKeys showtimeId seatId userId entry .booked := by
    unfold Redis.eval
    dsimp only
    rw [if_pos (h.freeOrOwnedBy_eq ▸ hfree)]
    rfl
  have hsingle : (evalOp (SingleNodeLock.forceBookSeatLua showtimeId seatId userId entry) s).1 =
      SingleNodeLock.cleaned showtimeId seatId userId entry .booked
        (s.releaseKeys showtimeId seatId userId entry .booked) := by
    show (evalOp (SingleNodeLock.cleanUp showtimeId seatId userId entry .booked)
      (Redis.eval .forceBook showtimeId seatId userId entry s).1).1 = _
    rw [hafter, evalOp_cleanUp]
  have hcluster : forceBookSeatLua slot showtimeId seatId userId member c =
      dropKeys showtimeId seatId userId member .booked c := by
    unfold forceBookSeatLua
    rw [evalAllKeys_eq hseat hslot]
    rfl
  rw [hsingle, hcluster]
  exact h.dropKeys hseat

/-- A live lock is booked by its owner alone, in both. -/
theorem alike_bookSeat (h : Corresponds c s)
    (hlive : c.lockOwner showtimeId seatId ≠ none)
    (hstep : c.lockOwner showtimeId seatId = some userId →
      0 ≤ seatId ∧ OneSlot slot (allKeys showtimeId seatId userId)) :
    Alike (bookSeatLua slot showtimeId seatId userId c)
      (evalOp (SingleNodeLock.bookSeatLua showtimeId seatId userId) s) := by
  let entry := queueMember showtimeId seatId userId
  have hfree : s.freeOrOwnedBy showtimeId seatId userId = true ↔
      c.lockOwner showtimeId seatId = some userId := by
    rw [h.lockOwner_eq] at hlive ⊢
    unfold Redis.freeOrOwnedBy
    cases howner : s.lockOwner showtimeId seatId with
    | none => exact absurd howner hlive
    | some owner => simp
  unfold SingleNodeLock.bookSeatLua
  by_cases hown : c.lockOwner showtimeId seatId = some userId
  · obtain ⟨hseat, hslot⟩ := hstep hown
    have hafter : Redis.eval .book showtimeId seatId userId entry s =
        (s.releaseKeys showtimeId seatId userId entry .booked, some 1) := by
      have hreply : Redis.scriptReply seatId 1 = some 1 := if_neg (Int.not_lt.2 hseat)
      unfold Redis.eval
      dsimp only
      rw [if_pos (hfree.2 hown), hreply]
    have hcluster : bookSeatLua slot showtimeId seatId userId c =
        (dropKeys showtimeId seatId userId (pairMember seatId userId) .booked c, true) := by
      unfold bookSeatLua bookScript
      rw [evalAllKeys_eq hseat hslot, if_pos hown]
      rfl
    rw [evalOp_evalThenCleanUp hafter, if_pos rfl, hcluster]
    exact ⟨rfl, h.dropKeys hseat⟩
  · have hafter : Redis.eval .book showtimeId seatId userId entry s = (s, some 0) :=
      if_neg fun hbook => hown (hfree.1 hbook)
    have hcluster : bookSeatLua slot showtimeId seatId userId c = (c, false) := by
      unfold bookSeatLua bookScript evalAllKeys evalScript
      dsimp only
      rw [if_neg hown]
      split_ifs <;> simp
    rw [evalOp_evalThenCleanUp hafter, if_neg (by simp), hcluster]
    exact ⟨rfl, h⟩

/-! ### Reads -/

/-- Scores in milliseconds are read as those in seconds: the members that have expired are not taken
for live ones, and those of the same second are in the order of their texts. -/
def ReadInSeconds (set : SortedSet ℤ) (now : ℤ) : Prop :=
  (∀ e ∈ set.entries, now ≤ e.2 → now ≤ e.2 / 1000) ∧
    ∀ e ∈ set.entries, ∀ e' ∈ set.entries, e.2 < e'.2 → e.2 / 1000 = e'.2 / 1000 →
      textLe e'.1 e.1 = false

instance {set : SortedSet ℤ} {now : ℤ} : Decidable (ReadInSeconds set now) :=
  inferInstanceAs (Decidable (_ ∧ _))

theorem textLe_of_not {a b : ℤ} (h : textLe b a = false) : textLe a b = true :=
  decide_eq_true ((String.le_total (toString a) (toString b)).resolve_right (of_decide_eq_false h))

theorem getUserLockedSeats_eq (h : Corresponds c s)
    (hread : ReadInSeconds (c.userLocks (showtimeId, userId)) c.timestamp) :
    getUserLockedSeats showtimeId userId c = SingleNodeLock.lockedSeats showtimeId userId s := by
  obtain ⟨hlive, horder⟩ := hread
  have hnow : 0 ≤ c.timestamp := Int.natCast_nonneg _
  unfold getUserLockedSeats SingleNodeLock.lockedSeats
  refine (h.locked (showtimeId, userId)).rangeFrom_eq (fun e he => ?_) fun e he e' he' => ?_
  · rw [← h.timestamp_eq]
    exact ⟨hlive e he, fun hle => by omega⟩
  · rcases lt_trichotomy e.2 e'.2 with hlt | heq | hgt
    · rcases (Int.ediv_le_ediv (by decide) hlt.le : e.2 / 1000 ≤ e'.2 / 1000).lt_or_eq with
        hsec | hsec
      · simp [hlt, hsec]
      · have htext := textLe_of_not (horder e he e' he' hlt hsec)
        simp [hlt, hsec, htext]
    · simp [heq]
    · rcases (Int.ediv_le_ediv (by decide) hgt.le : e'.2 / 1000 ≤ e.2 / 1000).lt_or_eq with
        hsec | hsec
      · simp [not_lt.2 hgt.le, hgt.ne', not_lt.2 hsec.le, hsec.ne']
      · have htext := horder e' he' e he hgt hsec
        simp [not_lt.2 hgt.le, hgt.ne', hsec, htext]

end Both

/-! ## Runs -/

/-- The pool, and the answer, of an operation with one pool. -/
theorem evalPools_zero {β : Type} (p : SingleNodeLock.Op β) (s : Pools 0) :
    (SingleNodeLock.evalPools p s).1 0 = (evalOp p (s 0)).1 ∧
      (SingleNodeLock.evalPools p s).2 = (evalOp p (s 0)).2 := by
  have hs : s = fun _ => s 0 := by
    funext i
    obtain rfl : i = 0 := by omega
    rfl
  rw [hs, evalPools_one]
  exact ⟨rfl, rfl⟩

/-- The two locks agree on an operation in the state before it. -/
def Agrees (slot : String → ℕ) (c : ClusterRedis) (s : Redis) : Operation → Prop
  | .acquireSeatLockLua showtimeId seatId userId expiresInSec =>
      c.freeOrOwnedBy showtimeId seatId userId = true →
        Exact expiresInSec ∧ (c.validTtl (ttlMs expiresInSec) = true →
          0 ≤ seatId ∧ OneSlot slot (acquireKeys showtimeId seatId userId))
  | .acquireDistributedLock showtimeId seatId userId expiresInSec =>
      c.lockOwner showtimeId seatId ≠ some userId ∧
        (c.lockOwner showtimeId seatId = none → Exact expiresInSec)
  | .updateSeatMetadataLua showtimeId seatIds userId expiresInSec =>
      (∀ seatId ∈ seatIds, 0 ≤ seatId) ∧ Exact expiresInSec ∧
        OneSlot slot (metadataKeys showtimeId userId)
  | .releaseLock showtimeId seatId userId =>
      c.freeOrOwnedBy showtimeId seatId userId = true →
        0 ≤ seatId ∧ OneSlot slot (releaseKeys showtimeId seatId userId)
  | .releaseExpiredLockLua showtimeId seatId userId _ | .forceBookSeatLua showtimeId seatId userId _ =>
      c.freeOrOwnedBy showtimeId seatId userId = true ∧ 0 ≤ seatId ∧
        OneSlot slot (allKeys showtimeId seatId userId)
  | .bookSeatLua showtimeId seatId userId =>
      c.lockOwner showtimeId seatId ≠ none ∧
        (c.lockOwner showtimeId seatId = some userId →
          0 ≤ seatId ∧ OneSlot slot (allKeys showtimeId seatId userId))
  | .userHoldsLock showtimeId seatId userId =>
      s.seatContext.lookup s.now (showtimeId, seatId, userId) = none
  | .getUserLockedSeats showtimeId userId =>
      ReadInSeconds (c.userLocks (showtimeId, userId)) c.timestamp
  | .getLockOwner .. | .getScheduleSeatBitmapStateCluster _
  | .setScheduleSeatBitmapStateCluster .. => True

instance {slot : String → ℕ} {c : ClusterRedis} {s : Redis} {operation : Operation} :
    Decidable (Agrees slot c s operation) := by
  unfold Agrees
  split <;> infer_instance

def AgreesStep (slot : String → ℕ) (c : ClusterRedis) (s : Pools 0) : Step → Prop
  | .tick _ => True
  | .perform operation => Agrees slot c (s 0) operation

instance {slot : String → ℕ} (c : ClusterRedis) (s : Pools 0) (e : Step) :
    Decidable (AgreesStep slot c s e) := by
  unfold AgreesStep
  split <;> infer_instance

section Runs

variable {slot : String → ℕ} {entryText : QueueEntry → String}
variable {entryOf : String → Option QueueEntry} {c : ClusterRedis} {s : Pools 0}

/-- The same answer of both, and stores that still correspond. -/
def SameAnswer (cluster : ClusterRedis × Answer) (single : Pools 0 × Answer) : Prop :=
  cluster.2 = single.2 ∧ Corresponds cluster.1 (single.1 0)

theorem sameAnswer_of_alike {β : Type} {cluster : ClusterRedis × β} {p : SingleNodeLock.Op β}
    (answer : β → Answer) (h : Alike cluster (evalOp p (s 0))) :
    SameAnswer (cluster.map id answer) ((SingleNodeLock.evalPools p s).map id answer) := by
  obtain ⟨hstate, hanswer⟩ := evalPools_zero p s
  refine ⟨?_, ?_⟩
  · show answer cluster.2 = answer _
    rw [hanswer, h.1]
  · show Corresponds cluster.1 ((SingleNodeLock.evalPools p s).1 0)
    rw [hstate]
    exact h.2

/-- What becomes of the queue is in no answer. -/
theorem sameAnswer_performText {cluster : ClusterRedis × Answer} {member : String}
    {other : QueueEntry} {operation : QueueEntry → SingleNodeLock.Operation}
    (h : ∀ entry, SameAnswer cluster (SingleNodeLock.perform s (operation entry))) :
    SameAnswer cluster (performText entryOf s member other operation) := by
  unfold performText
  cases entryOf member with
  | some entry => exact h entry
  | none => exact ⟨(h other).1, (h other).2.congr rfl rfl rfl rfl⟩

theorem sameAnswer_perform (h : Corresponds c (s 0)) {operation : Operation}
    (hagrees : Agrees slot c (s 0) operation) :
    SameAnswer (perform slot entryText c operation) (performSingle entryOf s operation) := by
  cases operation with
  | acquireSeatLockLua showtimeId seatId userId expiresInSec =>
      exact sameAnswer_of_alike .flag (alike_acquireSeatLock h hagrees)
  | acquireDistributedLock showtimeId seatId userId expiresInSec =>
      exact sameAnswer_of_alike .flag (alike_acquireDistributedLock h hagrees.1 hagrees.2)
  | updateSeatMetadataLua showtimeId seatIds userId expiresInSec =>
      obtain ⟨hseats, hexact, hslot⟩ := hagrees
      exact sameAnswer_of_alike .flag (alike_updateSeatMetadata h hseats hexact hslot)
  | releaseLock showtimeId seatId userId =>
      exact sameAnswer_of_alike .flag (alike_releaseLock h hagrees)
  | releaseExpiredLockLua showtimeId seatId userId member =>
      obtain ⟨hfree, hseat, hslot⟩ := hagrees
      refine sameAnswer_performText fun entry => ?_
      have halike : Alike (releaseExpiredLockLua slot showtimeId seatId userId member c)
          (evalOp (SingleNodeLock.releaseExpiredLockLua showtimeId seatId userId entry) (s 0)) :=
        alike_releaseExpired h hfree hseat hslot
      exact sameAnswer_of_alike .flag halike
  | getLockOwner showtimeId seatId =>
      have halike : Alike (c, getLockOwner showtimeId seatId c)
          (evalOp (SingleNodeLock.getLockOwner showtimeId seatId) (s 0)) := ⟨h.lockOwner_eq, h⟩
      exact sameAnswer_of_alike _ halike
  | userHoldsLock showtimeId seatId userId =>
      have hnone : (s 0).hasContext showtimeId seatId userId = false := by
        unfold Redis.hasContext
        rw [show (s 0).seatContext.lookup _ _ = none from hagrees]
        rfl
      have halike : Alike (c, userHoldsLock showtimeId seatId userId c)
          (evalOp (SingleNodeLock.userHoldsLock showtimeId seatId userId) (s 0)) := by
        refine ⟨?_, h⟩
        rw [SingleNodeLock.evalOp_userHoldsLock, hnone]
        show (c.seatContext.lookup _ _).isSome = false
        unfold Expiring.lookup
        rw [h.context]
        rfl
      exact sameAnswer_of_alike _ halike
  | getUserLockedSeats showtimeId userId =>
      exact ⟨congrArg Answer.seats (getUserLockedSeats_eq h hagrees), h⟩
  | getScheduleSeatBitmapStateCluster showtimeId =>
      refine ⟨?_, h⟩
      show Answer.bitmap (seatBitmap showtimeId c) =
        Answer.bitmap (SingleNodeLock.seatBitmap showtimeId (s 0))
      unfold seatBitmap SingleNodeLock.seatBitmap
      rw [h.bitmap]
  | setScheduleSeatBitmapStateCluster showtimeId seatId state =>
      have halike : Alike (setScheduleSeatBitmapStateCluster showtimeId seatId state c, ())
          (evalOp (SingleNodeLock.setScheduleSeatBitmapStateCluster showtimeId seatId state)
            (s 0)) := by
        rw [evalOp_setBitmap]
        refine ⟨rfl, ?_⟩
        by_cases hneg : seatId < 0
        · unfold setScheduleSeatBitmapStateCluster Redis.setBits
          rw [if_pos hneg, if_pos hneg]
          exact h
        · rw [setBitmap_eq (Int.not_lt.1 hneg)]
          exact h.setBits (Int.not_lt.1 hneg)
      exact sameAnswer_of_alike (fun _ => .done) halike
  | bookSeatLua showtimeId seatId userId =>
      exact sameAnswer_of_alike .flag (alike_bookSeat h hagrees.1 hagrees.2)
  | forceBookSeatLua showtimeId seatId userId member =>
      obtain ⟨hfree, hseat, hslot⟩ := hagrees
      refine sameAnswer_performText fun entry => ?_
      have halike : Alike (forceBookSeatLua slot showtimeId seatId userId member c, ())
          (evalOp (SingleNodeLock.forceBookSeatLua showtimeId seatId userId entry) (s 0)) :=
        ⟨rfl, alike_forceBook h hfree hseat hslot⟩
      exact sameAnswer_of_alike (fun _ => .done) halike

variable (slot entryText entryOf)

theorem simulates : Implementation.Simulates (AgreesStep slot)
    (fun c (s : Pools 0) => Corresponds c (s 0)) (onCluster slot entryText)
    (onSingleNode entryOf) := by
  intro c s e h hagrees
  cases e with
  | tick d => exact ⟨rfl, h.tick d⟩
  | perform operation => exact sameAnswer_perform h hagrees

/-- In every run whose operations the two locks agree on, the cluster lock and the single-node lock
with one pool give the same answers, from empty stores. -/
theorem same_answers (steps : List Step)
    (h : Implementation.Guarded (AgreesStep slot) (onCluster slot entryText) (onSingleNode entryOf)
      .empty (fun _ => Redis.empty) steps) :
    (onCluster slot entryText).answers .empty steps =
      (onSingleNode entryOf).answers (fun _ => Redis.empty) steps :=
  (simulates slot entryText entryOf).answers_eq .empty h

end Runs

/-! ### Two runs -/

/-- Two seats are locked a second apart, one is booked and the other released. -/
def lockAndBook : List Step :=
  [.perform (.acquireSeatLockLua 10 5 42 300), .perform (.getLockOwner 10 5), .tick 1000,
    .perform (.acquireSeatLockLua 10 5 43 300), .perform (.acquireDistributedLock 10 6 42 300),
    .perform (.updateSeatMetadataLua 10 [6] 42 300), .perform (.getUserLockedSeats 10 42),
    .perform (.getScheduleSeatBitmapStateCluster 10), .perform (.bookSeatLua 10 5 42),
    .perform (.userHoldsLock 10 5 42), .perform (.releaseLock 10 6 42),
    .perform (.getScheduleSeatBitmapStateCluster 10)]

theorem same_answers_lockAndBook :
    (onCluster (fun _ => 0) objectText).answers .empty lockAndBook =
      (onSingleNode fun _ => none).answers (fun _ => Redis.empty) lockAndBook :=
  same_answers (fun _ => 0) objectText (fun _ => none) lockAndBook (by decide +kernel)

/-- A user locks a seat twice. -/
def lockTwice : List Step :=
  [.perform (.acquireDistributedLock 10 5 42 300), .perform (.acquireDistributedLock 10 5 42 300)]

/-- The cluster lock refuses its owner the second time, the single-node lock extends it; whether the
slots of the keys are compared does not matter. -/
theorem second_lock_refused :
    (¬ ∀ steps, (onCluster hashSlot objectText).answers .empty steps =
      (onSingleNode fun _ => none).answers (fun _ => Redis.empty) steps) ∧
    ¬ ∀ steps, (onCluster (fun _ => 0) objectText).answers .empty steps =
      (onSingleNode fun _ => none).answers (fun _ => Redis.empty) steps := by
  let granted : Answer → Bool := fun answer =>
    match answer with
    | .flag b => b
    | _ => false
  have hsingle : ((onSingleNode fun _ => none).answers (fun _ => Redis.empty) lockTwice).map granted =
      [true, true] := by decide +kernel
  refine ⟨fun hall => ?_, fun hall => ?_⟩
  · have hcluster : ((onCluster hashSlot objectText).answers .empty lockTwice).map granted =
        [true, false] := by decide +kernel
    rw [hall lockTwice, hsingle] at hcluster
    exact absurd hcluster (by decide)
  · have hcluster : ((onCluster (fun _ => 0) objectText).answers .empty lockTwice).map granted =
        [true, false] := by decide +kernel
    rw [hall lockTwice, hsingle] at hcluster
    exact absurd hcluster (by decide)

end ClusterLock
end Bookit

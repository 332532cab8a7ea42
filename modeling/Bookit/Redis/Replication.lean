import Bookit.Redis.Pools
import Mathlib.Algebra.GroupWithZero.Nat

/-!
# Redis.Replication — the structures that every node holds

The scripts write the zsets, the queue and the bitmap on the node of the seat, and the operations
repeat the writes on all nodes.  The metadata of locked seats is written on the node of the seat only,
and a script that fails at a negative seat id is not repeated; in every run without these the nodes
hold the same zsets, queue and bitmap after every operation.
-/

namespace Bookit

open Lib

/-- What every node is to hold. -/
structure Replica where
  userLocks : ℤ × ℤ → SortedSet ℤ
  roomLocks : ℤ → SortedSet (ℤ × ℤ)
  queue : SortedSet QueueEntry
  bitmap : ℤ × ℤ → SeatState

def Redis.replica (s : Redis) : Replica :=
  ⟨s.userLocks, s.roomLocks, s.queue, s.bitmap⟩

namespace SingleNodeLock

open Redis

/-- The nodes hold the same. -/
def Agree {n : ℕ} (s : Pools n) : Prop :=
  ∀ i j, (s i).replica = (s j).replica

/-- A change of a node whose result for the replica depends on the replica alone. -/
def Replicable (f : Redis → Redis) : Prop :=
  ∀ s t : Redis, s.replica = t.replica → (f s).replica = (f t).replica

section Agree

variable {n : ℕ} {s : Pools n} {i : Fin (n + 1)} {v : Redis} {f g : Redis → Redis}

theorem Replicable.comp (hg : Replicable g) (hf : Replicable f) : Replicable fun s => g (f s) :=
  fun s t h => hg _ _ (hf s t h)

theorem Agree.map (hs : Agree s) (hf : Replicable f) : Agree fun i => f (s i) :=
  fun i j => hf _ _ (hs i j)

/-- One node changes in nothing that is replicated. -/
theorem Agree.update (hs : Agree s) (hv : v.replica = (s i).replica) :
    Agree (Function.update s i v) := by
  have hnode : ∀ j, (Function.update s i v j).replica = (s j).replica := by
    intro j
    by_cases hj : j = i
    · rw [hj, Function.update_self, hv]
    · rw [Function.update_of_ne hj]
  intro j k
  rw [hnode, hnode]
  exact hs j k

/-- One node changes, and then all do, in a way that makes up for it. -/
theorem Agree.map_update (hs : Agree s) (hf : Replicable f)
    (hv : (f v).replica = (f (s i)).replica) : Agree fun j => f (Function.update s i v j) := by
  have hnode : ∀ j, (f (Function.update s i v j)).replica = (f (s j)).replica := by
    intro j
    by_cases hj : j = i
    · rw [hj, Function.update_self, hv]
    · rw [Function.update_of_ne hj]
  intro j k
  rw [hnode, hnode]
  exact hf _ _ (hs j k)

end Agree

/-! ## Writes on every node -/

section Writes

variable {s t : Redis} {showtimeId seatId userId score : ℤ} {entry : QueueEntry} {state : SeatState}

theorem replica_eq_iff : s.replica = t.replica ↔
    s.userLocks = t.userLocks ∧ s.roomLocks = t.roomLocks ∧ s.queue = t.queue ∧
      s.bitmap = t.bitmap := by
  unfold Redis.replica
  rw [Replica.mk.injEq]

theorem replicable_zaddUser : Replicable (·.zaddUser showtimeId userId seatId score) := by
  intro s t h
  obtain ⟨huser, hroom, hqueue, hbitmap⟩ := replica_eq_iff.1 h
  refine replica_eq_iff.2 ⟨?_, hroom, hqueue, hbitmap⟩
  show setAt _ _ _ = setAt _ _ _
  rw [huser]

theorem replicable_zremUser : Replicable (·.zremUser showtimeId userId seatId) := by
  intro s t h
  obtain ⟨huser, hroom, hqueue, hbitmap⟩ := replica_eq_iff.1 h
  refine replica_eq_iff.2 ⟨?_, hroom, hqueue, hbitmap⟩
  show setAt _ _ _ = setAt _ _ _
  rw [huser]

theorem replicable_zaddRoom : Replicable (·.zaddRoom showtimeId seatId userId score) := by
  intro s t h
  obtain ⟨huser, hroom, hqueue, hbitmap⟩ := replica_eq_iff.1 h
  refine replica_eq_iff.2 ⟨huser, ?_, hqueue, hbitmap⟩
  show setAt _ _ _ = setAt _ _ _
  rw [hroom]

theorem replicable_zremRoom : Replicable (·.zremRoom showtimeId seatId userId) := by
  intro s t h
  obtain ⟨huser, hroom, hqueue, hbitmap⟩ := replica_eq_iff.1 h
  refine replica_eq_iff.2 ⟨huser, ?_, hqueue, hbitmap⟩
  show setAt _ _ _ = setAt _ _ _
  rw [hroom]

theorem replicable_zaddQueue : Replicable (·.zaddQueue entry score) := by
  intro s t h
  obtain ⟨huser, hroom, hqueue, hbitmap⟩ := replica_eq_iff.1 h
  refine replica_eq_iff.2 ⟨huser, hroom, ?_, hbitmap⟩
  show SortedSet.add _ _ _ = SortedSet.add _ _ _
  rw [hqueue]

theorem replicable_zremQueue : Replicable (·.zremQueue entry) := by
  intro s t h
  obtain ⟨huser, hroom, hqueue, hbitmap⟩ := replica_eq_iff.1 h
  refine replica_eq_iff.2 ⟨huser, hroom, ?_, hbitmap⟩
  show SortedSet.rem _ _ = SortedSet.rem _ _
  rw [hqueue]

theorem replicable_setBits : Replicable (·.setBits showtimeId seatId state) := by
  intro s t h
  obtain ⟨huser, hroom, hqueue, hbitmap⟩ := replica_eq_iff.1 h
  refine replica_eq_iff.2 ⟨?_, ?_, ?_, ?_⟩
  · rw [setBits_userLocks, setBits_userLocks, huser]
  · rw [setBits_roomLocks, setBits_roomLocks, hroom]
  · rw [setBits_queue, setBits_queue, hqueue]
  · rw [setBits_bitmap, setBits_bitmap, hbitmap]

theorem replicable_publish {channel : Channel} {payload : Json} :
    Replicable fun s => { s with published := s.published ++ [(channel, payload)] } :=
  fun _ _ h => h

theorem replicable_zrembyscore {zset : ZsetKey} {range : ℤ → Bool} :
    Replicable (zrembyscore range · zset) := by
  intro s t h
  obtain ⟨huser, hroom, hqueue, hbitmap⟩ := replica_eq_iff.1 h
  refine replica_eq_iff.2 ?_
  cases zset with
  | user showtimeId userId =>
      refine ⟨?_, hroom, hqueue, hbitmap⟩
      show setAt _ _ _ = setAt _ _ _
      rw [huser]
  | room showtimeId =>
      refine ⟨huser, ?_, hqueue, hbitmap⟩
      show setAt _ _ _ = setAt _ _ _
      rw [hroom]
  | queue =>
      refine ⟨huser, hroom, ?_, hbitmap⟩
      show SortedSet.remWhere _ _ = SortedSet.remWhere _ _
      rw [hqueue]

/-- The writes of `clean_up` on a node. -/
def cleaned (showtimeId seatId userId : ℤ) (entry : QueueEntry) (state : SeatState) (s : Redis) :
    Redis :=
  (((s.zremUser showtimeId userId seatId).zremRoom showtimeId seatId userId).zremQueue
    entry).setBits showtimeId seatId state

/-- The writes of a lock that is acquired. -/
def marked (showtimeId seatId userId : ℤ) (entry : QueueEntry) (expiry processingExpiry : ℤ)
    (s : Redis) : Redis :=
  (((s.zaddUser showtimeId userId seatId expiry).zaddRoom showtimeId seatId userId
    expiry).zaddQueue entry processingExpiry).setBits showtimeId seatId .locked

theorem replicable_cleaned : Replicable (cleaned showtimeId seatId userId entry state) :=
  replicable_setBits.comp (replicable_zremQueue.comp (replicable_zremRoom.comp replicable_zremUser))

theorem replicable_marked {expiry processingExpiry : ℤ} :
    Replicable (marked showtimeId seatId userId entry expiry processingExpiry) :=
  replicable_setBits.comp (replicable_zaddQueue.comp (replicable_zaddRoom.comp replicable_zaddUser))

theorem setAt_setAt {K V : Type} [DecidableEq K] {m : K → V} {a : K} {v w : V} :
    setAt (setAt m a v) a w = setAt m a w := by
  funext b
  unfold setAt
  split_ifs <;> rfl

/-- The clean-up done twice. -/
theorem replica_cleaned_cleaned :
    (cleaned showtimeId seatId userId entry state
      (cleaned showtimeId seatId userId entry state s)).replica =
        (cleaned showtimeId seatId userId entry state s).replica := by
  refine replica_eq_iff.2 ⟨?_, ?_, ?_, ?_⟩
  · simp only [cleaned, setBits_userLocks, Redis.zremUser, Redis.zremRoom, Redis.zremQueue,
      setAt_self, setAt_setAt, SortedSet.rem_rem]
  · simp only [cleaned, setBits_roomLocks, Redis.zremUser, Redis.zremRoom, Redis.zremQueue,
      setAt_self, setAt_setAt, SortedSet.rem_rem]
  · simp only [cleaned, setBits_queue, Redis.zremUser, Redis.zremRoom, Redis.zremQueue,
      SortedSet.rem_rem]
  · simp only [cleaned, setBits_bitmap, Redis.zremUser, Redis.zremRoom, Redis.zremQueue]
    split_ifs
    · rfl
    · exact setAt_setAt

theorem replica_marked_marked {expiry processingExpiry : ℤ} :
    (marked showtimeId seatId userId entry expiry processingExpiry
      (marked showtimeId seatId userId entry expiry processingExpiry s)).replica =
        (marked showtimeId seatId userId entry expiry processingExpiry s).replica := by
  refine replica_eq_iff.2 ⟨?_, ?_, ?_, ?_⟩
  · simp only [marked, setBits_userLocks, Redis.zaddUser, Redis.zaddRoom, Redis.zaddQueue,
      setAt_self, setAt_setAt, SortedSet.add_add]
  · simp only [marked, setBits_roomLocks, Redis.zaddUser, Redis.zaddRoom, Redis.zaddQueue,
      setAt_self, setAt_setAt, SortedSet.add_add]
  · simp only [marked, setBits_queue, Redis.zaddUser, Redis.zaddRoom, Redis.zaddQueue,
      SortedSet.add_add]
  · simp only [marked, setBits_bitmap, Redis.zaddUser, Redis.zaddRoom, Redis.zaddQueue]
    split_ifs
    · rfl
    · exact setAt_setAt

end Writes

/-! ## Commands -/

/-- Commands that write nothing replicated, or write it on every node. -/
def Whole : Cmd → Prop
  | .eval .. | .writeMetadata .. => False
  | _ => True

section Commands

variable {n : ℕ} {s : Pools n} {c : Cmd} {f : Redis → Redis}

theorem agree_every (hs : Agree s) (hc : target n c = .every) (hf : Replicable f)
    (hexec : ∀ s, (exec .ok c s).1 = f s) : Agree (execPools c s).1 := by
  have hpools : (execPools c s).1 = fun i => f (s i) := by
    unfold execPools
    rw [hc]
    exact funext fun i => hexec (s i)
  rw [hpools]
  exact hs.map hf

theorem agree_node (hs : Agree s) {i : Fin (n + 1)} (hc : target n c = .node i)
    (hexec : ∀ s, (exec .ok c s).1.replica = s.replica) : Agree (execPools c s).1 := by
  have hpools : (execPools c s).1 = Function.update s i (exec .ok c (s i)).1 := by
    unfold execPools
    rw [hc]
  rw [hpools]
  exact hs.update (hexec (s i))

theorem agree_exec (hs : Agree s) (hc : Whole c) : Agree (execPools c s).1 := by
  cases c with
  | eval | writeMetadata => exact hc.elim
  | zaddUser => exact agree_every hs rfl replicable_zaddUser fun _ => rfl
  | zremUser => exact agree_every hs rfl replicable_zremUser fun _ => rfl
  | zaddRoom => exact agree_every hs rfl replicable_zaddRoom fun _ => rfl
  | zremRoom => exact agree_every hs rfl replicable_zremRoom fun _ => rfl
  | zaddQueue => exact agree_every hs rfl replicable_zaddQueue fun _ => rfl
  | zremQueue => exact agree_every hs rfl replicable_zremQueue fun _ => rfl
  | setBits => exact agree_every hs rfl replicable_setBits fun _ => rfl
  | publish => exact agree_every hs rfl replicable_publish fun _ => rfl
  | setLockNx showtimeId seatId userId ttlMs =>
      refine agree_node hs rfl fun s => ?_
      show (Redis.setLockNx showtimeId seatId userId ttlMs s).1.replica = s.replica
      unfold Redis.setLockNx
      split_ifs
      · cases s.lockOwner showtimeId seatId <;> rfl
      · rfl
  | pexpireLock showtimeId seatId ttlMs =>
      refine agree_node hs rfl fun s => ?_
      show (Redis.pexpireLock showtimeId seatId ttlMs s).1.replica = s.replica
      unfold Redis.pexpireLock
      split_ifs <;> rfl
  | setCheckoutNx scheduleId seatId owner ttlSec =>
      refine agree_node hs rfl fun s => ?_
      show (Redis.setCheckoutNx scheduleId seatId owner ttlSec s).1.replica = s.replica
      unfold Redis.setCheckoutNx
      cases s.seatCheckout.lookup s.now (scheduleId, seatId) <;> rfl
  | connect | utcNow | getLock | dueEntries | existsContext | existsCheckout | getCheckout |
    delCheckout | adjustAvailable => exact agree_node hs rfl fun _ => rfl

/-- An operation of such commands. -/
theorem agree_of_issues {β : Type} {p : Op β} (hp : p.Issues Whole) (hs : Agree s) :
    Agree (evalPools p s).1 := by
  induction p generalizing s with
  | ret b => exact hs
  | call c k ih => exact ih _ (hp.2 _) (agree_exec hs hp.1)

@[simp] theorem execPools_connect : execPools Cmd.connect s = (s, some ()) :=
  Prod.ext (Function.update_eq_self 0 s) rfl

@[simp] theorem execPools_utcNow : execPools Cmd.utcNow s = (s, (s 0).timestamp) :=
  Prod.ext (Function.update_eq_self 0 s) rfl

theorem evalPools_connect {β : Type} {k : Rep Cmd.connect → Op β} :
    evalPools (.call .connect k) s = evalPools (k (some ())) s := by
  show evalPools (k (execPools Cmd.connect s).2) (execPools Cmd.connect s).1 = _
  rw [execPools_connect]

theorem evalPools_cluster (hc : target n c = .every) (hexec : ∀ s, (exec .ok c s).1 = f s) :
    (evalPools (cluster c) s).1 = fun i => f (s i) := by
  show (evalPools (.call .connect _) s).1 = _
  rw [evalPools_connect]
  show (execPools c s).1 = _
  unfold execPools
  rw [hc]
  exact funext fun i => hexec (s i)

variable {showtimeId seatId userId expiresInSec expiry : ℤ} {entry : QueueEntry} {state : SeatState}

theorem evalPools_setBitmap :
    (evalPools (setScheduleSeatBitmapStateCluster showtimeId seatId state) s).1 =
      fun i => (s i).setBits showtimeId seatId state := by
  unfold setScheduleSeatBitmapStateCluster
  split_ifs with hneg
  · funext i
    unfold Redis.setBits
    rw [if_pos hneg]
    rfl
  · exact evalPools_cluster rfl fun _ => rfl

theorem evalPools_cleanUp :
    (evalPools (cleanUp showtimeId seatId userId entry state) s).1 =
      fun i => cleaned showtimeId seatId userId entry state (s i) := by
  unfold cleanUp zremClusterUser zremClusterRoom zremClusterQueue
  rw [evalPools_bind, evalPools_bind, evalPools_bind, evalPools_setBitmap,
    evalPools_cluster (f := (·.zremQueue entry)) rfl fun _ => rfl,
    evalPools_cluster (f := (·.zremRoom showtimeId seatId userId)) rfl fun _ => rfl,
    evalPools_cluster (f := (·.zremUser showtimeId userId seatId)) rfl fun _ => rfl]
  rfl

end Commands

/-! ## Scripts -/

section Scripts

variable {n : ℕ} {s : Pools n} {v : Redis} {showtimeId seatId userId : ℤ} {entry : QueueEntry}
variable {state : SeatState}

theorem replica_cleaned_releaseKeys :
    (cleaned showtimeId seatId userId entry state
      (v.releaseKeys showtimeId seatId userId entry state)).replica =
        (cleaned showtimeId seatId userId entry state v).replica :=
  replica_cleaned_cleaned.trans (replicable_cleaned _ _ rfl)

theorem replica_cleaned_zremQueue :
    (cleaned showtimeId seatId userId entry state (v.zremQueue entry)).replica =
      (cleaned showtimeId seatId userId entry state v).replica := by
  refine replica_eq_iff.2 ⟨?_, ?_, ?_, ?_⟩
  · simp only [cleaned, setBits_userLocks, Redis.zremUser, Redis.zremRoom, Redis.zremQueue]
  · simp only [cleaned, setBits_roomLocks, Redis.zremUser, Redis.zremRoom, Redis.zremQueue]
  · simp only [cleaned, setBits_queue, Redis.zremUser, Redis.zremRoom, Redis.zremQueue,
      SortedSet.rem_rem]
  · simp only [cleaned, setBits_bitmap, Redis.zremUser, Redis.zremRoom, Redis.zremQueue]

/-- A due entry is released: whatever the script does, the clean-up does it everywhere. -/
theorem agree_releaseExpired (hs : Agree s) :
    Agree (evalPools (releaseExpiredLockLua showtimeId seatId userId entry) s).1 := by
  show Agree (evalPools (.call .connect _) s).1
  rw [evalPools_connect]
  let i := poolForSeat n showtimeId seatId
  let after := Redis.eval .releaseExpired showtimeId seatId userId entry (s i)
  show Agree (evalPools (cleanUp showtimeId seatId userId entry .available >>= fun _ =>
    pure (decide (after.2 = some 1))) (Function.update s i after.1)).1
  rw [evalPools_bind]
  show Agree (evalPools (cleanUp showtimeId seatId userId entry .available)
    (Function.update s i after.1)).1
  rw [evalPools_cleanUp]
  refine hs.map_update replicable_cleaned ?_
  show (cleaned _ _ _ _ _ (Redis.eval .releaseExpired showtimeId seatId userId entry (s i)).1).replica = _
  unfold Redis.eval
  dsimp only
  split_ifs
  · exact replica_cleaned_releaseKeys
  · exact replica_cleaned_zremQueue

theorem agree_forceBook (hs : Agree s) :
    Agree (evalPools (forceBookSeatLua showtimeId seatId userId entry) s).1 := by
  show Agree (evalPools (.call .connect _) s).1
  rw [evalPools_connect]
  let i := poolForSeat n showtimeId seatId
  let after := Redis.eval .forceBook showtimeId seatId userId entry (s i)
  show Agree (evalPools (cleanUp showtimeId seatId userId entry .booked)
    (Function.update s i after.1)).1
  rw [evalPools_cleanUp]
  refine hs.map_update replicable_cleaned ?_
  show (cleaned _ _ _ _ _ (Redis.eval .forceBook showtimeId seatId userId entry (s i)).1).replica = _
  unfold Redis.eval
  dsimp only
  split_ifs
  · exact replica_cleaned_releaseKeys
  · exact replica_cleaned_cleaned

/-- A release or a booking, on the node of the seat and then everywhere. -/
theorem evalPools_evalThenCleanUp {script : Script} {after : Redis × Option ℤ}
    (hafter : Redis.eval script showtimeId seatId userId (queueMember showtimeId seatId userId)
      (s (poolForSeat n showtimeId seatId)) = after) :
    (evalPools (evalThenCleanUp script state showtimeId seatId userId) s).1 =
      if after.2 = some 1 then
        fun j => cleaned showtimeId seatId userId (queueMember showtimeId seatId userId) state
          (Function.update s (poolForSeat n showtimeId seatId) after.1 j)
      else
        Function.update s (poolForSeat n showtimeId seatId) after.1 := by
  subst hafter
  show (evalPools (.call .connect _) s).1 = _
  rw [evalPools_connect]
  let i := poolForSeat n showtimeId seatId
  let entry := queueMember showtimeId seatId userId
  let after := Redis.eval script showtimeId seatId userId entry (s i)
  show (evalPools (if after.2 = some 1 then
      cleanUp showtimeId seatId userId entry state >>= fun _ => pure true
    else pure false) (Function.update s i after.1)).1 = _
  split_ifs
  · rw [evalPools_bind]
    exact evalPools_cleanUp
  · rfl

/-- A release or a booking that does not fail at a negative seat id. -/
theorem agree_evalThenCleanUp {script : Script} (hs : Agree s)
    (hscript : script = .release ∨ script = .book) (hstate : state = script.fieldState)
    (hseat : (s (poolForSeat n showtimeId seatId)).freeOrOwnedBy showtimeId seatId userId = true →
      0 ≤ seatId) :
    Agree (evalPools (evalThenCleanUp script state showtimeId seatId userId) s).1 := by
  subst hstate
  let entry := queueMember showtimeId seatId userId
  let v := s (poolForSeat n showtimeId seatId)
  by_cases hfree : v.freeOrOwnedBy showtimeId seatId userId = true
  · have hafter : Redis.eval script showtimeId seatId userId entry v =
        (v.releaseKeys showtimeId seatId userId entry script.fieldState, some 1) := by
      have hreply : scriptReply seatId 1 = some 1 := if_neg (Int.not_lt.2 (hseat hfree))
      rcases hscript with rfl | rfl
      · unfold Redis.eval
        dsimp only
        rw [if_pos hfree, hreply]
        rfl
      · unfold Redis.eval
        dsimp only
        rw [if_pos hfree, hreply]
        rfl
    rw [evalPools_evalThenCleanUp hafter, if_pos rfl]
    exact hs.map_update replicable_cleaned replica_cleaned_releaseKeys
  · have hafter : Redis.eval script showtimeId seatId userId entry v = (v, some 0) := by
      rcases hscript with rfl | rfl
      · exact if_neg hfree
      · exact if_neg hfree
    rw [evalPools_evalThenCleanUp hafter, if_neg (by simp)]
    exact hs.update rfl

theorem agree_releaseLock (hs : Agree s)
    (hseat : (s (poolForSeat n showtimeId seatId)).freeOrOwnedBy showtimeId seatId userId = true →
      0 ≤ seatId) : Agree (evalPools (releaseLock showtimeId seatId userId) s).1 :=
  agree_evalThenCleanUp hs (.inl rfl) rfl hseat

theorem agree_bookSeat (hs : Agree s)
    (hseat : (s (poolForSeat n showtimeId seatId)).freeOrOwnedBy showtimeId seatId userId = true →
      0 ≤ seatId) : Agree (evalPools (bookSeatLua showtimeId seatId userId) s).1 :=
  agree_evalThenCleanUp hs (.inr rfl) rfl hseat

/-- The zsets, the queue and the bitmap of an acquired lock on every node. -/
theorem evalPools_marked {expiry processingExpiry : ℤ} :
    (evalPools (do
      zaddClusterUser showtimeId userId seatId expiry
      zaddClusterRoom showtimeId seatId userId expiry
      zaddClusterQueue entry processingExpiry
      setScheduleSeatBitmapStateCluster showtimeId seatId .locked
      pure true) s).1 =
        fun i => marked showtimeId seatId userId entry expiry processingExpiry (s i) := by
  unfold zaddClusterUser zaddClusterRoom zaddClusterQueue
  rw [evalPools_bind, evalPools_bind, evalPools_bind, evalPools_bind]
  show (evalPools (setScheduleSeatBitmapStateCluster showtimeId seatId .locked) _).1 = _
  rw [evalPools_setBitmap,
    evalPools_cluster (f := (·.zaddQueue entry processingExpiry)) rfl fun _ => rfl,
    evalPools_cluster (f := (·.zaddRoom showtimeId seatId userId expiry)) rfl fun _ => rfl,
    evalPools_cluster (f := (·.zaddUser showtimeId userId seatId expiry)) rfl fun _ => rfl]
  rfl

/-- An acquisition: the script on the node of the seat, and where it answered `1` its writes on every
node. -/
theorem evalPools_acquireSeatLock {expiresInSec : ℤ} {script : Script} {after : Redis × Option ℤ}
    (hscript : script = .acquire (ttlMs expiresInSec) ((s 0).timestamp + expiresInSec)
      ((s 0).timestamp + expiresInSec + 15))
    (hafter : Redis.eval script showtimeId seatId userId (queueMember showtimeId seatId userId)
      (s (poolForSeat n showtimeId seatId)) = after) :
    (evalPools (acquireSeatLockLua showtimeId seatId userId expiresInSec) s).1 =
      if after.2 = some 1 then
        fun j => marked showtimeId seatId userId (queueMember showtimeId seatId userId)
          ((s 0).timestamp + expiresInSec) ((s 0).timestamp + expiresInSec + 15)
          (Function.update s (poolForSeat n showtimeId seatId) after.1 j)
      else
        Function.update s (poolForSeat n showtimeId seatId) after.1 := by
  subst hscript hafter
  let i := poolForSeat n showtimeId seatId
  let script := Script.acquire (ttlMs expiresInSec) ((s 0).timestamp + expiresInSec)
    ((s 0).timestamp + expiresInSec + 15)
  let after := Redis.eval script showtimeId seatId userId (queueMember showtimeId seatId userId) (s i)
  show (evalPools (.call .utcNow _) s).1 = _
  show (evalPools _ (execPools Cmd.utcNow s).1).1 = _
  rw [execPools_utcNow]
  show (evalPools (.call .connect _) s).1 = _
  rw [evalPools_connect]
  show (evalPools (if after.2 = some 1 then _ else pure false) (Function.update s i after.1)).1 = _
  split_ifs
  · exact evalPools_marked
  · rfl

/-- The acquisition script past its checks. -/
theorem eval_acquire_of_acts {ttl : ℕ} {expiry processingExpiry : ℤ}
    (hacts : (Script.acquire ttl expiry processingExpiry).Acts showtimeId seatId userId v) :
    Redis.eval (.acquire ttl expiry processingExpiry) showtimeId seatId userId entry v =
      (marked showtimeId seatId userId entry expiry processingExpiry
        { v.putLock showtimeId seatId userId ttl with
          seatContext := v.seatContext.put (showtimeId, seatId, userId) () (v.now + ttl) },
        scriptReply seatId 1) := by
  obtain ⟨hfree, httl⟩ := hacts
  unfold Redis.eval
  dsimp only
  rw [if_pos hfree, if_pos httl]
  rfl

/-- The acquisition script stopped by one of its checks. -/
theorem eval_acquire_of_not_acts {ttl : ℕ} {expiry processingExpiry : ℤ}
    (hacts : ¬ (Script.acquire ttl expiry processingExpiry).Acts showtimeId seatId userId v) :
    (Redis.eval (.acquire ttl expiry processingExpiry) showtimeId seatId userId entry v).1 = v ∧
      (Redis.eval (.acquire ttl expiry processingExpiry) showtimeId seatId userId entry v).2 ≠
        some 1 := by
  unfold Redis.eval
  dsimp only
  split_ifs with hfree httl
  · exact absurd ⟨hfree, httl⟩ hacts
  · exact ⟨rfl, by simp⟩
  · exact ⟨rfl, by simp⟩

/-- An acquisition that does not fail at a negative seat id. -/
theorem agree_acquireSeatLock {expiresInSec : ℤ} (hs : Agree s)
    (hseat : (Script.acquire (ttlMs expiresInSec) ((s 0).timestamp + expiresInSec)
      ((s 0).timestamp + expiresInSec + 15)).Acts showtimeId seatId userId
        (s (poolForSeat n showtimeId seatId)) → 0 ≤ seatId) :
    Agree (evalPools (acquireSeatLockLua showtimeId seatId userId expiresInSec) s).1 := by
  let i := poolForSeat n showtimeId seatId
  let script := Script.acquire (ttlMs expiresInSec) ((s 0).timestamp + expiresInSec)
    ((s 0).timestamp + expiresInSec + 15)
  by_cases hacts : script.Acts showtimeId seatId userId (s i)
  · have hreply : scriptReply seatId 1 = some 1 := if_neg (Int.not_lt.2 (hseat hacts))
    rw [evalPools_acquireSeatLock rfl (eval_acquire_of_acts hacts), if_pos hreply]
    refine hs.map_update replicable_marked ?_
    exact replica_marked_marked.trans (replicable_marked _ _ rfl)
  · obtain ⟨hstate, hreply⟩ := eval_acquire_of_not_acts hacts
    rw [evalPools_acquireSeatLock rfl rfl, if_neg hreply]
    exact hs.update (congrArg replica hstate)

end Scripts

/-! ## Runs -/

-- Named, so that the definitions below hold no proof of their own.
local instance (priority := 2000) nodes_neZero (n : ℕ) : NeZero (n + 1) := ⟨Nat.succ_ne_zero n⟩

/-- An operation leaves the nodes alike: there is one node, or it writes no metadata, and no script of
it goes past its check of the owner for a negative seat id. -/
def Repeated {n : ℕ} (s : Pools n) (operation : Operation) : Prop :=
  n = 0 ∨
    match operation with
    | .acquireSeatLockLua showtimeId seatId userId expiresInSec =>
        0 ≤ seatId ∨ ¬ (Script.acquire (ttlMs expiresInSec) ((s 0).timestamp + expiresInSec)
          ((s 0).timestamp + expiresInSec + 15)).Acts showtimeId seatId userId
            (s (poolForSeat n showtimeId seatId))
    | .releaseLock showtimeId seatId userId | .bookSeatLua showtimeId seatId userId =>
        0 ≤ seatId ∨
          ¬ (s (poolForSeat n showtimeId seatId)).freeOrOwnedBy showtimeId seatId userId = true
    | .updateSeatMetadataLua _ seatIds _ _ => seatIds = []
    | _ => True

def RepeatedStep {n : ℕ} (s : Pools n) : Step → Prop
  | .tick _ => True
  | .perform operation => Repeated s operation

theorem issues_getLockOwner (showtimeId seatId : ℤ) :
    (getLockOwner showtimeId seatId).Issues Whole := by
  refine ⟨trivial, fun r => ?_⟩
  match r with
  | none => trivial
  | some () => exact ⟨trivial, fun _ => trivial⟩

theorem issues_userHoldsLock (showtimeId seatId userId : ℤ) :
    (userHoldsLock showtimeId seatId userId).Issues Whole := by
  refine ⟨trivial, fun r => ?_⟩
  match r with
  | none => trivial
  | some () => exact ⟨trivial, fun _ => trivial⟩

/-- An operation that is repeated on every node keeps the nodes alike. -/
theorem agree_perform {n : ℕ} {s : Pools n} {operation : Operation} (hs : Agree s)
    (h : Repeated s operation) : Agree (perform s operation).1 := by
  rcases h with rfl | h
  · intro i j
    obtain rfl : i = j := by omega
    rfl
  cases operation with
  | acquireSeatLockLua showtimeId seatId userId expiresInSec =>
      exact agree_acquireSeatLock hs fun hacts => h.resolve_right fun hnot => hnot hacts
  | acquireDistributedLock showtimeId seatId userId expiresInSec =>
      exact agree_of_issues (p := acquireLock showtimeId seatId userId (ttlMs expiresInSec))
        (issues_acquireLock trivial trivial trivial trivial) hs
  | updateSeatMetadataLua showtimeId seatIds userId expiresInSec =>
      obtain rfl : seatIds = [] := h
      exact agree_of_issues (p := updateSeatMetadataLua showtimeId [] userId expiresInSec)
        ⟨trivial, fun _ => trivial⟩ hs
  | releaseLock showtimeId seatId userId =>
      have hagree : Agree (evalPools (releaseLock showtimeId seatId userId) s).1 :=
        agree_releaseLock hs fun hfree => h.resolve_right fun hnot => hnot hfree
      exact hagree
  | releaseExpiredLockLua showtimeId seatId userId entry =>
      have hagree : Agree (evalPools (releaseExpiredLockLua showtimeId seatId userId entry) s).1 :=
        agree_releaseExpired hs
      exact hagree
  | getLockOwner showtimeId seatId =>
      exact agree_of_issues (issues_getLockOwner showtimeId seatId) hs
  | userHoldsLock showtimeId seatId userId =>
      exact agree_of_issues (issues_userHoldsLock showtimeId seatId userId) hs
  | getUserLockedSeats => exact hs
  | getScheduleSeatBitmapStateCluster => exact hs
  | setScheduleSeatBitmapStateCluster showtimeId seatId state =>
      exact agree_of_issues (p := setScheduleSeatBitmapStateCluster showtimeId seatId state)
        (issues_setBitmap trivial trivial) hs
  | zremCluster member =>
      cases member with
      | user showtimeId userId seatId =>
          exact agree_of_issues (p := cluster (.zremUser showtimeId userId seatId))
            (issues_cluster trivial trivial) hs
      | room showtimeId seatId userId =>
          exact agree_of_issues (p := cluster (.zremRoom showtimeId seatId userId))
            (issues_cluster trivial trivial) hs
      | queue entry =>
          exact agree_of_issues (p := cluster (.zremQueue entry)) (issues_cluster trivial trivial) hs
  | zaddCluster member score =>
      cases member with
      | user showtimeId userId seatId =>
          exact agree_of_issues (p := cluster (.zaddUser showtimeId userId seatId score))
            (issues_cluster trivial trivial) hs
      | room showtimeId seatId userId =>
          exact agree_of_issues (p := cluster (.zaddRoom showtimeId seatId userId score))
            (issues_cluster trivial trivial) hs
      | queue entry =>
          exact agree_of_issues (p := cluster (.zaddQueue entry score))
            (issues_cluster trivial trivial) hs
  | zrembyscoreCluster zset range => exact hs.map replicable_zrembyscore
  | publishEvent channel payload =>
      exact agree_of_issues (p := cluster (.publish channel payload))
        (issues_cluster trivial trivial) hs
  | bookSeatLua showtimeId seatId userId =>
      have hagree : Agree (evalPools (bookSeatLua showtimeId seatId userId) s).1 :=
        agree_bookSeat hs fun hfree => h.resolve_right fun hnot => hnot hfree
      exact hagree
  | forceBookSeatLua showtimeId seatId userId entry =>
      have hagree : Agree (evalPools (forceBookSeatLua showtimeId seatId userId entry) s).1 :=
        agree_forceBook hs
      exact hagree

/-- What the first node shows of every seat is what the node of the seat shows. -/
structure FirstNodeShows {n : ℕ} (s : Pools n) : Prop where
  bitmap : ∀ showtimeId seatId,
    seatBitmap showtimeId (s 0) seatId =
      seatBitmap showtimeId (s (poolForSeat n showtimeId seatId)) seatId
  locked : ∀ showtimeId seatId userId min,
    seatId ∈ ((s 0).userLocks (showtimeId, userId)).rangeFrom textLe min ↔
      seatId ∈ ((s (poolForSeat n showtimeId seatId)).userLocks (showtimeId, userId)).rangeFrom
        textLe min
  due : ∀ showtimeId seatId max,
    (s 0).queue.upTo max = (s (poolForSeat n showtimeId seatId)).queue.upTo max

theorem firstNodeShows_of_agree {n : ℕ} {s : Pools n} (hs : Agree s) : FirstNodeShows s := by
  refine ⟨fun showtimeId seatId => ?_, fun showtimeId seatId userId min => ?_,
    fun showtimeId seatId max => ?_⟩
  · obtain ⟨-, -, -, hbitmap⟩ := replica_eq_iff.1 (hs 0 (poolForSeat n showtimeId seatId))
    exact congrFun hbitmap (showtimeId, seatId)
  · obtain ⟨huser, -⟩ := replica_eq_iff.1 (hs 0 (poolForSeat n showtimeId seatId))
    rw [huser]
  · obtain ⟨-, -, hqueue, -⟩ := replica_eq_iff.1 (hs 0 (poolForSeat n showtimeId seatId))
    rw [hqueue]

/-- In every run of operations that are repeated on every node, the nodes hold the same zsets, queue
and bitmap after each, and a reader of the first node sees what the node of a seat holds. -/
theorem nodes_agree {n : ℕ} {s : Pools n} (h : (poolsSystem n).ReachableUnder (fun s => RepeatedStep s) s) :
    (∀ i j, (s i).replica = (s j).replica) ∧ FirstNodeShows s := by
  have hs : Agree s := by
    refine System.invariant (I := Agree) ?_ ?_ h
    · intro s hinit i j
      rw [hinit i, hinit j]
    · intro s e t hs hG hst
      cases e with
      | tick d =>
          obtain rfl := Option.some.inj hst
          exact fun i j => hs i j
      | perform operation =>
          obtain rfl := Option.some.inj hst
          exact agree_perform hs hG
  exact ⟨hs, firstNodeShows_of_agree hs⟩

/-! ### Two nodes -/

instance {n : ℕ} {s : Pools n} {operation : Operation} : Decidable (Repeated s operation) := by
  unfold Repeated
  refine @instDecidableOr _ _ _ ?_
  cases operation <;> infer_instance

instance {n : ℕ} (s : Pools n) (e : Step) : Decidable (RepeatedStep s e) := by
  unfold RepeatedStep
  split <;> infer_instance

abbrev twoNodes : Pools 1 := fun _ => Redis.empty

/-- Seat 6 is acquired through the second node, and seat 5 through the first and booked. -/
def acquires : List Step :=
  [.perform (.acquireSeatLockLua 10 6 42 300), .tick 1000,
    .perform (.acquireSeatLockLua 10 5 42 300), .perform (.bookSeatLua 10 5 42)]

theorem nodes_agree_acquired : ∃ s : Pools 1, FirstNodeShows s ∧
    seatBitmap 10 (s 0) 6 = .locked ∧ seatBitmap 10 (s 1) 5 = .booked := by
  obtain ⟨s, hs, htest⟩ := System.exists_reachable_of_runUnder (poolsSystem 1)
    (fun s e => RepeatedStep s e)
    (fun s => decide (seatBitmap 10 (s 0) 6 = .locked ∧ seatBitmap 10 (s 1) 5 = .booked))
    (s := twoNodes) (fun _ => rfl) acquires (by decide +kernel)
  exact ⟨s, (nodes_agree hs).2, of_decide_eq_true htest⟩

/-- The metadata of seat 6 reaches the second node only: the first shows the seat as free. -/
theorem metadata_on_one_node : ¬ ∀ s : Pools 1, (poolsSystem 1).Reachable s →
    (∀ i j, (s i).replica = (s j).replica) ∧ FirstNodeShows s := by
  intro hall
  obtain ⟨s, hs, htest⟩ := System.exists_reachable_of_run (poolsSystem 1)
    (fun s => decide (seatBitmap 10 (s 0) 6 ≠ seatBitmap 10 (s (poolForSeat 1 10 6)) 6))
    (s := twoNodes) (fun _ => rfl) [.perform (.updateSeatMetadataLua 10 [6] 42 300)]
    (by decide +kernel)
  exact of_decide_eq_true htest ((hall s hs).2.bitmap 10 6)

end SingleNodeLock
end Bookit

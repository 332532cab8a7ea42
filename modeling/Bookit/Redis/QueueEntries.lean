import Bookit.Redis.ClusterLock
import Bookit.Redis.Replication

/-!
# Redis.QueueEntries — the writers and the readers of the delayed queue

A lock that is acquired, and the metadata of locked seats, put entries into the delayed queue.  The
workers decode an entry, take it when its score is at most the time in seconds, and the release or the
booking of the seat removes it.  The single-node lock and the cluster lock are two writers.
-/

namespace Bookit
namespace SeatQueue

open Lib
open SingleNodeLock (Pools queueMember poolForSeat evalPools)

/-! ## Writers -/

/-- What puts entries into the queue. -/
inductive Addition where
  | acquireSeatLockLua (showtimeId seatId userId expiresInSec : ℤ)
  | updateSeatMetadataLua (showtimeId : ℤ) (seatIds : List ℤ) (userId expiresInSec : ℤ)

namespace Addition

def showtimeId : Addition → ℤ
  | acquireSeatLockLua showtimeId .. => showtimeId
  | updateSeatMetadataLua showtimeId .. => showtimeId

def seatIds : Addition → List ℤ
  | acquireSeatLockLua _ seatId .. => [seatId]
  | updateSeatMetadataLua _ seatIds .. => seatIds

def userId : Addition → ℤ
  | acquireSeatLockLua _ _ userId _ => userId
  | updateSeatMetadataLua _ _ userId _ => userId

def expiresInSec : Addition → ℤ
  | acquireSeatLockLua _ _ _ expiresInSec => expiresInSec
  | updateSeatMetadataLua _ _ _ expiresInSec => expiresInSec

end Addition

/-- The text of an entry, and how the workers decode a text. -/
structure Codec where
  text : QueueEntry → String
  decode : String → Option QueueEntry

/-- An implementation of the lock as a writer of the queue, which is kept at each of `ι`. -/
structure Writer (σ ι M : Type) where
  add : Addition → σ → σ
  releaseLock : ℤ → ℤ → ℤ → σ → σ
  bookSeatLua : ℤ → ℤ → ℤ → σ → σ
  queue : σ → ι → SortedSet M
  /-- The same with empty queues. -/
  emptied : σ → σ
  /-- The live lock of a seat: its owner and its deadline in milliseconds. -/
  lock : σ → ℤ → ℤ → Option (ℤ × ℕ)
  decode : M → Option QueueEntry

section Writer

variable {σ ι M : Type} (w : Writer σ ι M)

/-- The lock of the seat is free, or the user's. -/
def Releasable (showtimeId seatId userId : ℤ) (s : σ) : Prop :=
  ∀ owner deadline, w.lock s showtimeId seatId = some (owner, deadline) → owner = userId

/-- An entry at `i` with its score agrees with the workers about a seat. -/
structure EntryAgrees (a : Addition) (seatId : ℤ) (after : σ) (i : ι) (e : M × ℤ) : Prop where
  decodes : w.decode e.1 = some (queueMember a.showtimeId seatId a.userId)
  /-- It is due from fifteen seconds after the lock has expired. -/
  due : ∀ deadline, w.lock after a.showtimeId seatId = some (a.userId, deadline) →
    ∀ now : ℤ, e.2 ≤ now ↔ ((deadline / 1000 : ℕ) : ℤ) + 15 ≤ now
  released : ∀ t, Releasable w a.showtimeId seatId a.userId t →
    ¬ (w.queue (w.releaseLock a.showtimeId seatId a.userId t) i).Mem e.1
  booked : ∀ t, Releasable w a.showtimeId seatId a.userId t →
    ¬ (w.queue (w.bookSeatLua a.showtimeId seatId a.userId t) i).Mem e.1

/-- Every entry that is added, which is to say put into an empty queue, agrees with the workers. -/
def WellQueued (a : Addition) (s : σ) : Prop :=
  ∀ i, ∀ e ∈ (w.queue (w.add a (w.emptied s)) i).entries,
    ∃ seatId ∈ a.seatIds, EntryAgrees w a seatId (w.add a (w.emptied s)) i e

end Writer

/-- The single-node lock over `n + 1` nodes; a member stands for its text. -/
def singleNode (n : ℕ) (codec : Codec) : Writer (Pools n) (Fin (n + 1)) QueueEntry where
  add a s :=
    match a with
    | .acquireSeatLockLua showtimeId seatId userId expiresInSec =>
        (evalPools (SingleNodeLock.acquireSeatLockLua showtimeId seatId userId expiresInSec) s).1
    | .updateSeatMetadataLua showtimeId seatIds userId expiresInSec =>
        (evalPools (SingleNodeLock.updateSeatMetadataLua showtimeId seatIds userId expiresInSec) s).1
  releaseLock showtimeId seatId userId s :=
    (evalPools (SingleNodeLock.releaseLock showtimeId seatId userId) s).1
  bookSeatLua showtimeId seatId userId s :=
    (evalPools (SingleNodeLock.bookSeatLua showtimeId seatId userId) s).1
  queue s i := (s i).queue
  emptied s := fun i => { s i with queue := .empty }
  lock s showtimeId seatId :=
    (s (poolForSeat n showtimeId seatId)).seatLock.entry (s (poolForSeat n showtimeId seatId)).now
      (showtimeId, seatId)
  decode e := codec.decode (codec.text e)

def cluster (slot : String → ℕ) (codec : Codec) : Writer ClusterRedis Unit String where
  add a s :=
    match a with
    | .acquireSeatLockLua showtimeId seatId userId expiresInSec =>
        (ClusterLock.acquireSeatLockLua slot showtimeId seatId userId expiresInSec s).1
    | .updateSeatMetadataLua showtimeId seatIds userId expiresInSec =>
        (ClusterLock.updateSeatMetadataLua slot codec.text showtimeId seatIds userId
          expiresInSec s).1
  releaseLock showtimeId seatId userId s :=
    (ClusterLock.releaseLock slot showtimeId seatId userId s).1
  bookSeatLua showtimeId seatId userId s :=
    (ClusterLock.bookSeatLua slot showtimeId seatId userId s).1
  queue s _ := s.queue
  emptied s := { s with queue := .empty }
  lock s showtimeId seatId := s.seatLock.entry s.now (showtimeId, seatId)
  decode := codec.decode

/-- The texts that a request writes: that of an entry is decoded to it, and `seat:user` is no JSON
object. -/
structure Reads (codec : Codec) (a : Addition) : Prop where
  entry : ∀ seatId ∈ a.seatIds, codec.decode (codec.text (queueMember a.showtimeId seatId a.userId)) =
    some (queueMember a.showtimeId seatId a.userId)
  pair : ∀ seatId ∈ a.seatIds, codec.decode (ClusterLock.pairMember seatId a.userId) = none

/-! ## The single-node lock -/

section SingleNode

variable {n : ℕ} {codec : Codec} {s t : Pools n} {showtimeId seatId userId expiresInSec : ℤ}
variable {i : Fin (n + 1)} {entry : QueueEntry} {v : Redis} {state : SeatState}

theorem cleaned_queue :
    (SingleNodeLock.cleaned showtimeId seatId userId entry state v).queue = v.queue.rem entry :=
  Redis.setBits_queue

theorem marked_queue {expiry processingExpiry : ℤ} :
    (SingleNodeLock.marked showtimeId seatId userId entry expiry processingExpiry v).queue =
      v.queue.add entry processingExpiry :=
  Redis.setBits_queue

theorem marked_now {expiry processingExpiry : ℤ} :
    (SingleNodeLock.marked showtimeId seatId userId entry expiry processingExpiry v).now = v.now :=
  Redis.setBits_now ..

theorem marked_seatLock {expiry processingExpiry : ℤ} :
    (SingleNodeLock.marked showtimeId seatId userId entry expiry processingExpiry v).seatLock =
      v.seatLock :=
  Redis.setBits_seatLock ..

theorem freeOrOwnedBy_of_releasable
    (h : Releasable (singleNode n codec) showtimeId seatId userId t) :
    (t (poolForSeat n showtimeId seatId)).freeOrOwnedBy showtimeId seatId userId = true := by
  refine Redis.freeOrOwnedBy_iff.2 fun owner howner => ?_
  unfold Redis.lockOwner at howner
  rw [Expiring.lookup_eq_entry, Option.map_eq_some_iff] at howner
  obtain ⟨⟨owner, deadline⟩, hentry, rfl⟩ := howner
  exact h owner deadline hentry

/-- A release or a booking removes the entry of its seat from the node of the seat, and where the
seat id is not negative from every node. -/
theorem not_mem_evalThenCleanUp {script : Redis.Script}
    (hscript : script = .release ∨ script = .book) (hstate : state = script.fieldState)
    (hfree : (t (poolForSeat n showtimeId seatId)).freeOrOwnedBy showtimeId seatId userId = true)
    (hi : i = poolForSeat n showtimeId seatId ∨ 0 ≤ seatId) :
    ¬ ((evalPools (SingleNodeLock.evalThenCleanUp script state showtimeId seatId userId) t).1
      i).queue.Mem (queueMember showtimeId seatId userId) := by
  subst hstate
  let entry := queueMember showtimeId seatId userId
  let p := poolForSeat n showtimeId seatId
  have hafter : Redis.eval script showtimeId seatId userId entry (t p) =
      ((t p).releaseKeys showtimeId seatId userId entry script.fieldState,
        Redis.scriptReply seatId 1) := by
    rcases hscript with rfl | rfl
    · exact if_pos hfree
    · exact if_pos hfree
  rw [SingleNodeLock.evalPools_evalThenCleanUp hafter]
  split_ifs with hreply
  · show ¬ (SingleNodeLock.cleaned showtimeId seatId userId entry script.fieldState _).queue.Mem entry
    rw [cleaned_queue]
    exact fun hmem => (SortedSet.mem_rem_iff.1 hmem).2 rfl
  · obtain rfl : i = p := by
      refine hi.resolve_right fun hseat => hreply ?_
      exact if_neg (Int.not_lt.2 hseat)
    show ¬ (Function.update t p _ p).queue.Mem entry
    rw [Function.update_self]
    show ¬ (SingleNodeLock.cleaned showtimeId seatId userId entry script.fieldState
      ((t p).delLock showtimeId seatId userId)).queue.Mem entry
    rw [cleaned_queue]
    exact fun hmem => (SortedSet.mem_rem_iff.1 hmem).2 rfl

/-- An entry of the single-node lock, at the node of its seat or with a seat id that is not
negative. -/
theorem entryAgrees_singleNode {a : Addition} {after : Pools n} {score : ℤ}
    (hreads : Reads codec a) (hseat : seatId ∈ a.seatIds)
    (hi : i = poolForSeat n a.showtimeId seatId ∨ 0 ≤ seatId)
    (hdue : ∀ deadline, (singleNode n codec).lock after a.showtimeId seatId =
      some (a.userId, deadline) → score = ((deadline / 1000 : ℕ) : ℤ) + 15) :
    EntryAgrees (singleNode n codec) a seatId after i
      (queueMember a.showtimeId seatId a.userId, score) where
  decodes := hreads.entry seatId hseat
  due deadline hlock now := by
    rw [hdue deadline hlock]
  released t ht :=
    not_mem_evalThenCleanUp (.inl rfl) rfl (freeOrOwnedBy_of_releasable ht) hi
  booked t ht :=
    not_mem_evalThenCleanUp (.inr rfl) rfl (freeOrOwnedBy_of_releasable ht) hi

/-- The time to live that Redis accepts, of an expiry of 32 bits. -/
theorem ttlMs_of_valid (hlow : -2 ^ 31 ≤ expiresInSec) (hhigh : expiresInSec < 2 ^ 31)
    (hvalid : v.validTtl (SingleNodeLock.ttlMs expiresInSec) = true) :
    ((SingleNodeLock.ttlMs expiresInSec : ℕ) : ℤ) = expiresInSec * 1000 := by
  obtain ⟨hpos, hmax⟩ := of_decide_eq_true hvalid
  unfold SingleNodeLock.ttlMs at hpos hmax ⊢
  unfold Redis.maxExpiry at hmax
  rcases Int.lt_or_le expiresInSec 0 with hneg | hnonneg
  · have hwrap : (expiresInSec % 2 ^ 64).toNat = (expiresInSec + 2 ^ 64).toNat := by
      congr 1
      omega
    have hproduct : (expiresInSec + 2 ^ 64).toNat * 1000 =
        (expiresInSec * 1000 + 2 ^ 64).toNat + 2 ^ 64 * 999 := by omega
    rw [hwrap, hproduct, Nat.add_mul_mod_self_left, Nat.mod_eq_of_lt (by omega)] at hmax
    omega
  · have hsame : (expiresInSec % 2 ^ 64).toNat = expiresInSec.toNat := by
      congr 1
      omega
    rw [hsame]
    omega

theorem eq_of_mem_add {M : Type} [DecidableEq M] {set : SortedSet M} {m : M} {score : ℤ} {e : M × ℤ}
    (h : e ∈ (set.add m score).entries) (hset : ∀ e ∈ set.entries, e = (m, score)) :
    e = (m, score) := by
  rcases SortedSet.mem_entries_add.1 h with ⟨hm, hscore⟩ | ⟨hmem, -⟩
  · exact Prod.ext hm hscore
  · exact hset e hmem

theorem wellQueued_acquire {a : Addition}
    (ha : a = .acquireSeatLockLua showtimeId seatId userId expiresInSec) (hreads : Reads codec a)
    (hlow : -2 ^ 31 ≤ expiresInSec) (hhigh : expiresInSec < 2 ^ 31)
    (hclock : ∀ i j, (s i).now = (s j).now) : WellQueued (singleNode n codec) a s := by
  subst ha
  let s' : Pools n := (singleNode n codec).emptied s
  let p := poolForSeat n showtimeId seatId
  let expiry := (s' 0).timestamp + expiresInSec
  let entry := queueMember showtimeId seatId userId
  let script := Redis.Script.acquire (SingleNodeLock.ttlMs expiresInSec) expiry (expiry + 15)
  let after := (evalPools (SingleNodeLock.acquireSeatLockLua showtimeId seatId userId
    expiresInSec) s').1
  have hempty : ∀ j, (s' j).queue.entries = [] := fun _ => rfl
  intro i e he
  have he : e ∈ (after i).queue.entries := he
  by_cases hacts : script.Acts showtimeId seatId userId (s' p)
  · -- The entry and the lock of a script past its checks.
    let locked := SingleNodeLock.marked showtimeId seatId userId entry expiry (expiry + 15)
      { (s' p).putLock showtimeId seatId userId (SingleNodeLock.ttlMs expiresInSec) with
        seatContext := (s' p).seatContext.put (showtimeId, seatId, userId) ()
          ((s' p).now + SingleNodeLock.ttlMs expiresInSec) }
    have hrun : after = if Redis.scriptReply seatId 1 = some 1 then
        fun j => SingleNodeLock.marked showtimeId seatId userId entry expiry (expiry + 15)
          (Function.update s' p locked j)
        else Function.update s' p locked :=
      SingleNodeLock.evalPools_acquireSeatLock rfl (SingleNodeLock.eval_acquire_of_acts hacts)
    have hlocked : locked.seatLock (showtimeId, seatId) =
        some (userId, (s' p).now + SingleNodeLock.ttlMs expiresInSec) := by
      rw [marked_seatLock]
      exact Expiring.put_self
    have hqueue : ∀ e, e ∈ locked.queue.entries → e = (entry, expiry + 15) := by
      intro e hmem
      rw [marked_queue] at hmem
      exact eq_of_mem_add hmem fun e hmem => absurd hmem List.not_mem_nil
    have hupdated : ∀ j, ∀ e ∈ (Function.update s' p locked j).queue.entries,
        e = (entry, expiry + 15) ∧ j = p := by
      intro j e hmem
      by_cases hj : j = p
      · rw [hj, Function.update_self] at hmem
        exact ⟨hqueue e hmem, hj⟩
      · rw [Function.update_of_ne hj, hempty] at hmem
        exact absurd hmem List.not_mem_nil
    have hentry : e = (entry, expiry + 15) ∧ (i = p ∨ 0 ≤ seatId) := by
      rw [hrun] at he
      split_ifs at he with hreply
      · have hseat : 0 ≤ seatId := by
          by_contra hneg
          rw [show Redis.scriptReply seatId 1 = none from if_pos (Int.not_le.1 hneg)] at hreply
          cases hreply
        have hmarked : e ∈ (SingleNodeLock.marked showtimeId seatId userId entry expiry (expiry + 15)
          (Function.update s' p locked i)).queue.entries := he
        rw [marked_queue] at hmarked
        exact ⟨eq_of_mem_add hmarked fun e hmem => (hupdated i e hmem).1, .inr hseat⟩
      · exact ⟨(hupdated i e he).1, .inl (hupdated i e he).2⟩
    have hlock : (after p).seatLock (showtimeId, seatId) =
        some (userId, (s' p).now + SingleNodeLock.ttlMs expiresInSec) := by
      rw [hrun]
      split_ifs
      · show (SingleNodeLock.marked showtimeId seatId userId entry expiry (expiry + 15)
          (Function.update s' p locked p)).seatLock (showtimeId, seatId) = _
        rw [marked_seatLock, Function.update_self]
        exact hlocked
      · rw [Function.update_self]
        exact hlocked
    obtain ⟨rfl, hi⟩ := hentry
    refine ⟨seatId, List.mem_singleton_self _,
      entryAgrees_singleNode hreads (List.mem_singleton_self _) hi fun deadline hlive => ?_⟩
    have hlive : (after p).seatLock.entry (after p).now (showtimeId, seatId) =
      some (userId, deadline) := hlive
    obtain ⟨hput, -⟩ := Expiring.entry_eq_some_iff.1 hlive
    rw [hlock] at hput
    obtain ⟨-, rfl⟩ := Prod.mk.inj (Option.some.inj hput)
    have httl := ttlMs_of_valid hlow hhigh hacts.2
    have hnow : (s' p).now = (s' 0).now := hclock p 0
    show (s' 0).timestamp + expiresInSec + 15 = _
    unfold Redis.timestamp
    omega
  · obtain ⟨hstate, hreply⟩ := SingleNodeLock.eval_acquire_of_not_acts hacts
    have hsame : after = s' := by
      have hrun : after = if (Redis.eval script showtimeId seatId userId entry (s' p)).2 = some 1
          then _ else Function.update s' p _ :=
        SingleNodeLock.evalPools_acquireSeatLock rfl rfl
      rw [hrun, if_neg hreply, hstate, Function.update_eq_self]
    rw [hsame, hempty] at he
    exact absurd he List.not_mem_nil

/-! ### Metadata -/

theorem evalPools_writeMetadata {seatIds : List ℤ} {success : Bool} {expiry processingExpiry : ℤ} :
    ∃ ok, evalPools (SingleNodeLock.updateSeats showtimeId userId expiry processingExpiry
        (seatId :: seatIds) success) s =
      evalPools (SingleNodeLock.updateSeats showtimeId userId expiry processingExpiry seatIds ok)
        (Function.update s (poolForSeat n showtimeId seatId)
          (Redis.writeMetadata showtimeId seatId userId expiry processingExpiry
            (queueMember showtimeId seatId userId) (s (poolForSeat n showtimeId seatId))).1) := by
  have hconnect : SingleNodeLock.execPools Redis.Cmd.connect s = (s, some ()) :=
    SingleNodeLock.execPools_connect
  obtain ⟨reply, hexec⟩ : ∃ reply, SingleNodeLock.execPools (.writeMetadata showtimeId seatId userId
      expiry processingExpiry (queueMember showtimeId seatId userId)) s =
        (Function.update s (poolForSeat n showtimeId seatId)
          (Redis.writeMetadata showtimeId seatId userId expiry processingExpiry
            (queueMember showtimeId seatId userId) (s (poolForSeat n showtimeId seatId))).1, reply) :=
    ⟨_, rfl⟩
  simp only [SingleNodeLock.updateSeats, Prog.perform_bind, evalPools, hconnect, hexec]
  cases reply with
  | none => exact ⟨false, rfl⟩
  | some u => exact ⟨success, rfl⟩

/-- The nodes after the metadata of the seats. -/
theorem evalPools_updateSeats {seatIds : List ℤ} {success : Bool} {expiry processingExpiry : ℤ}
    {after : Pools n}
    (hafter : (evalPools (SingleNodeLock.updateSeats showtimeId userId expiry processingExpiry seatIds
      success) s).1 = after) :
    (∀ j, (after j).now = (s j).now ∧ (after j).seatLock = (s j).seatLock) ∧
    (∀ j e, e ∈ (after j).queue.entries → e ∈ (s j).queue.entries ∨ ∃ seatId ∈ seatIds,
      j = poolForSeat n showtimeId seatId ∧
        e = (queueMember showtimeId seatId userId, processingExpiry)) ∧
    (∀ j entry, (entry, processingExpiry) ∈ (s j).queue.entries →
      (entry, processingExpiry) ∈ (after j).queue.entries) ∧
    ∀ seatId ∈ seatIds, (queueMember showtimeId seatId userId, processingExpiry) ∈
      (after (poolForSeat n showtimeId seatId)).queue.entries := by
  induction seatIds generalizing s success with
  | nil =>
      obtain rfl := hafter
      exact ⟨fun _ => ⟨rfl, rfl⟩, fun _ _ h => .inl h, fun _ _ h => h, nofun⟩
  | cons seatId seatIds ih =>
      let p := poolForSeat n showtimeId seatId
      let m := queueMember showtimeId seatId userId
      let written := (Redis.writeMetadata showtimeId seatId userId expiry processingExpiry m (s p)).1
      obtain ⟨ok, hrun⟩ : ∃ ok, evalPools (SingleNodeLock.updateSeats showtimeId userId expiry
          processingExpiry (seatId :: seatIds) success) s =
        evalPools (SingleNodeLock.updateSeats showtimeId userId expiry processingExpiry seatIds ok)
          (Function.update s p written) := evalPools_writeMetadata
      rw [hrun] at hafter
      obtain ⟨hrest, hfrom, hkept, hadded⟩ := ih hafter
      have hqueue : written.queue = (s p).queue.add m processingExpiry := Redis.setBits_queue
      have hnode : ∀ j, (j = p ∧ Function.update s p written j = written) ∨
          (j ≠ p ∧ Function.update s p written j = s j) := by
        intro j
        by_cases hj : j = p
        · exact .inl ⟨hj, hj ▸ Function.update_self ..⟩
        · exact .inr ⟨hj, Function.update_of_ne hj ..⟩
      refine ⟨fun j => ?_, fun j e he => ?_, fun j entry hentry => ?_, fun k hk => ?_⟩
      · rw [(hrest j).1, (hrest j).2]
        rcases hnode j with ⟨rfl, hj⟩ | ⟨-, hj⟩
        · rw [hj]
          exact ⟨Redis.setBits_now .., Redis.setBits_seatLock ..⟩
        · rw [hj]
          exact ⟨rfl, rfl⟩
      · rcases hfrom j e he with hbefore | ⟨k, hk, hj, rfl⟩
        · rcases hnode j with ⟨rfl, hj⟩ | ⟨-, hj⟩
          · rw [hj, hqueue] at hbefore
            rcases SortedSet.mem_entries_add.1 hbefore with ⟨hm, hscore⟩ | ⟨hmem, -⟩
            · exact .inr ⟨seatId, List.mem_cons_self, rfl, Prod.ext hm hscore⟩
            · exact .inl hmem
          · rw [hj] at hbefore
            exact .inl hbefore
        · exact .inr ⟨k, List.mem_cons_of_mem _ hk, hj, rfl⟩
      · refine hkept j entry ?_
        rcases hnode j with ⟨rfl, hj⟩ | ⟨-, hj⟩
        · rw [hj, hqueue]
          by_cases hm : entry = m
          · exact SortedSet.mem_entries_add.2 (.inl ⟨hm, rfl⟩)
          · exact SortedSet.mem_entries_add.2 (.inr ⟨hentry, hm⟩)
        · rw [hj]
          exact hentry
      · rcases List.mem_cons.1 hk with rfl | hk
        · refine hkept p m ?_
          rw [Function.update_self, hqueue]
          exact SortedSet.mem_entries_add.2 (.inl ⟨rfl, rfl⟩)
        · exact hadded k hk

-- Named, so that the definitions below hold no proof of their own.
local instance (priority := 2000) pools_neZero (n : ℕ) : NeZero (n + 1) := ⟨Nat.succ_ne_zero n⟩

/-- The live locks of the user on the seats expire in the second that the metadata gives. -/
def LocksExpire (n : ℕ) (codec : Codec) (s : Pools n) (showtimeId : ℤ) (seatIds : List ℤ)
    (userId expiresInSec : ℤ) : Prop :=
  ∀ seatId ∈ seatIds, ∀ deadline,
    (singleNode n codec).lock s showtimeId seatId = some (userId, deadline) →
      ((deadline / 1000 : ℕ) : ℤ) = (s 0).timestamp + expiresInSec

theorem wellQueued_metadata_iff {a : Addition} {seatIds : List ℤ}
    (ha : a = .updateSeatMetadataLua showtimeId seatIds userId expiresInSec)
    (hreads : Reads codec a) :
    WellQueued (singleNode n codec) a s ↔
      LocksExpire n codec s showtimeId seatIds userId expiresInSec := by
  subst ha
  let s' : Pools n := (singleNode n codec).emptied s
  let expiry := (s' 0).timestamp + expiresInSec
  let after := (evalPools (SingleNodeLock.updateSeatMetadataLua showtimeId seatIds userId
    expiresInSec) s').1
  have hrun : (evalPools (SingleNodeLock.updateSeats showtimeId userId expiry (expiry + 15) seatIds
      true) s').1 = after := by
    show _ = (evalPools (.call .utcNow _) s').1
    show _ = (evalPools _ (SingleNodeLock.execPools Redis.Cmd.utcNow s').1).1
    rw [SingleNodeLock.execPools_utcNow]
    rfl
  obtain ⟨hrest, hfrom, -, hadded⟩ := evalPools_updateSeats hrun
  have hlock : ∀ seatId, (singleNode n codec).lock after showtimeId seatId =
      (singleNode n codec).lock s showtimeId seatId := by
    intro seatId
    obtain ⟨hnow, hseatLock⟩ := hrest (poolForSeat n showtimeId seatId)
    show Expiring.entry _ _ _ = _
    rw [hnow, hseatLock]
    rfl
  constructor
  · intro h seatId hseat deadline hlive
    obtain ⟨seatId', hseat', hagrees⟩ := h _ _ (hadded seatId hseat)
    have hsame : seatId' = seatId := by
      have hentry : some (queueMember showtimeId seatId userId) =
        some (queueMember showtimeId seatId' userId) :=
        (hreads.entry seatId hseat).symm.trans hagrees.decodes
      exact (congrArg QueueEntry.seatId (Option.some.inj hentry)).symm
    subst hsame
    have hdue := hagrees.due deadline ((hlock seatId').trans hlive)
    have hle := (hdue (expiry + 15)).1 le_rfl
    have hge : expiry + 15 ≤ ((deadline / 1000 : ℕ) : ℤ) + 15 := (hdue _).2 le_rfl
    show _ = expiry
    omega
  · intro h i e he
    rcases hfrom i e he with hempty | ⟨seatId, hseat, hi, rfl⟩
    · exact absurd hempty List.not_mem_nil
    · refine ⟨seatId, hseat, entryAgrees_singleNode hreads hseat (.inl hi) fun deadline hlive => ?_⟩
      rw [h seatId hseat deadline ((hlock seatId).symm.trans hlive)]
      rfl

end SingleNode

/-! ## The cluster lock -/

section Cluster

open ClusterLock (OneSlot pairMember)

variable {slot : String → ℕ} {codec : Codec} {c : ClusterRedis}
variable {showtimeId seatId userId expiresInSec : ℤ}

/-- Where the script of an acquisition writes. -/
def Granted (slot : String → ℕ) (c : ClusterRedis) (showtimeId seatId userId expiresInSec : ℤ) :
    Prop :=
  0 ≤ seatId ∧ OneSlot slot (ClusterLock.acquireKeys showtimeId seatId userId) ∧
    c.freeOrOwnedBy showtimeId seatId userId = true ∧
    c.validTtl (ClusterLock.ttlMs expiresInSec) = true

instance : Decidable (Granted slot c showtimeId seatId userId expiresInSec) :=
  inferInstanceAs (Decidable (_ ∧ _))

theorem queue_acquireSeatLock :
    (ClusterLock.acquireSeatLockLua slot showtimeId seatId userId expiresInSec c).1.queue =
      if Granted slot c showtimeId seatId userId expiresInSec then
        c.queue.add (pairMember seatId userId) (ClusterLock.processingExpiry c.now expiresInSec)
      else
        c.queue := by
  by_cases hgranted : Granted slot c showtimeId seatId userId expiresInSec
  · rw [if_pos hgranted]
    obtain ⟨hseat, hslot, hfree, httl⟩ := hgranted
    unfold ClusterLock.acquireSeatLockLua ClusterLock.evalScript ClusterLock.acquireScript
    dsimp only
    rw [if_neg (Int.not_lt.2 hseat), if_pos hslot, if_pos hfree, if_pos httl]
    rfl
  · rw [if_neg hgranted]
    unfold ClusterLock.acquireSeatLockLua ClusterLock.evalScript ClusterLock.acquireScript
    dsimp only
    split_ifs with hneg hslot hfree httl
    · rfl
    · exact absurd ⟨Int.not_lt.1 hneg, hslot, hfree, httl⟩ hgranted
    · rfl
    · rfl
    · rfl

/-- The metadata script touches no queue and always answers `1`. -/
theorem metadataScript_queue {expiry : ℤ} (seats : List (ℤ × String)) :
    (ClusterLock.metadataScript showtimeId userId expiry seats c).1.queue = c.queue ∧
      (ClusterLock.metadataScript showtimeId userId expiry seats c).2 = some 1 := by
  induction seats generalizing c with
  | nil => exact ⟨rfl, rfl⟩
  | cons seat seats ih => exact ih

theorem mem_enqueue {text : QueueEntry → String} {score : ℤ} {seatIds : List ℤ}
    (h : seatId ∈ seatIds ∨ (text (queueMember showtimeId seatId userId), score) ∈ c.queue.entries) :
    (text (queueMember showtimeId seatId userId), score) ∈
      (ClusterLock.enqueue text showtimeId userId score seatIds c).queue.entries := by
  induction seatIds generalizing c with
  | nil => exact h.resolve_left List.not_mem_nil
  | cons k seatIds ih =>
      refine ih ?_
      by_cases htext : text (queueMember showtimeId seatId userId) =
        text (queueMember showtimeId k userId)
      · exact .inr (SortedSet.mem_entries_add.2 (.inl ⟨htext, rfl⟩))
      · rcases h with hmem | hbefore
        · rcases List.mem_cons.1 hmem with rfl | hmem
          · exact absurd rfl htext
          · exact .inl hmem
        · exact .inr (SortedSet.mem_entries_add.2 (.inr ⟨hbefore, htext⟩))

/-- A release removes the member `seat:user` and no other. -/
theorem mem_releaseLock {member : String} (hmember : member ≠ pairMember seatId userId)
    (h : c.queue.Mem member) :
    (ClusterLock.releaseLock slot showtimeId seatId userId c).1.queue.Mem member := by
  have hscript : (ClusterLock.evalScript slot (ClusterLock.releaseKeys showtimeId seatId userId)
      (ClusterLock.releaseScript showtimeId seatId userId) c).1.queue = c.queue := by
    unfold ClusterLock.evalScript ClusterLock.releaseScript
    split_ifs <;> rfl
  have hbits : ∀ s : ClusterRedis, (ClusterLock.setScheduleSeatBitmapStateCluster showtimeId seatId
      .available s).queue = s.queue := by
    intro s
    unfold ClusterLock.setScheduleSeatBitmapStateCluster
    split_ifs <;> rfl
  unfold ClusterLock.releaseLock
  dsimp only
  split_ifs
  · rw [hbits]
    refine SortedSet.mem_rem_iff.2 ⟨?_, hmember⟩
    exact hscript.symm ▸ h
  · rw [hscript]
    exact h

/-- The cluster lock agrees where it adds nothing. -/
def AddsNothing (slot : String → ℕ) (c : ClusterRedis) : Addition → Prop
  | .acquireSeatLockLua showtimeId seatId userId expiresInSec =>
      ¬ Granted slot c showtimeId seatId userId expiresInSec
  | .updateSeatMetadataLua showtimeId seatIds userId _ =>
      seatIds = [] ∨ ¬ OneSlot slot (ClusterLock.metadataKeys showtimeId userId)

theorem wellQueued_cluster_iff {a : Addition} (hreads : Reads codec a) :
    WellQueued (cluster slot codec) a c ↔ AddsNothing slot c a := by
  let c' : ClusterRedis := (cluster slot codec).emptied c
  cases a with
  | acquireSeatLockLua showtimeId seatId userId expiresInSec =>
      have hqueue : (ClusterLock.acquireSeatLockLua slot showtimeId seatId userId expiresInSec
          c').1.queue = if Granted slot c' showtimeId seatId userId expiresInSec then _ else _ :=
        queue_acquireSeatLock
      constructor
      · intro h hgranted
        have hgranted : Granted slot c' showtimeId seatId userId expiresInSec := hgranted
        rw [if_pos hgranted] at hqueue
        have hmem : (pairMember seatId userId, ClusterLock.processingExpiry c'.now expiresInSec) ∈
            (ClusterLock.acquireSeatLockLua slot showtimeId seatId userId expiresInSec
              c').1.queue.entries := by
          rw [hqueue]
          exact SortedSet.mem_entries_add.2 (.inl ⟨rfl, rfl⟩)
        obtain ⟨_, -, hagrees⟩ := h () _ hmem
        have hnone := (hreads.pair seatId (List.mem_singleton_self _)).symm.trans hagrees.decodes
        cases hnone
      · intro hnot i e he
        have hnot : ¬ Granted slot c' showtimeId seatId userId expiresInSec := hnot
        rw [if_neg hnot] at hqueue
        have he : e ∈ (ClusterLock.acquireSeatLockLua slot showtimeId seatId userId expiresInSec
          c').1.queue.entries := he
        rw [hqueue] at he
        exact absurd he List.not_mem_nil
  | updateSeatMetadataLua showtimeId seatIds userId expiresInSec =>
      let seats := (seatIds.filter fun seatId => decide (0 ≤ seatId)).map fun seatId =>
        (seatId, codec.text (queueMember showtimeId seatId userId))
      let score := ClusterLock.processingExpiry c'.now expiresInSec
      let script := ClusterLock.metadataScript showtimeId userId
        (ClusterLock.expiry c'.now (ClusterLock.ttlMs expiresInSec)) seats
      obtain ⟨hscript, hreply⟩ : (script c').1.queue = c'.queue ∧ (script c').2 = some 1 :=
        metadataScript_queue seats
      have hrun : (ClusterLock.updateSeatMetadataLua slot codec.text showtimeId seatIds userId
          expiresInSec c').1 = if OneSlot slot (ClusterLock.metadataKeys showtimeId userId) then
            ClusterLock.enqueue codec.text showtimeId userId score seatIds (script c').1 else c' := by
        unfold ClusterLock.updateSeatMetadataLua ClusterLock.evalScript
        dsimp only
        by_cases hslot : OneSlot slot (ClusterLock.metadataKeys showtimeId userId)
        · rw [if_pos hslot, if_pos hslot]
          show (if (script c').2 = none then _ else _) = _
          rw [hreply, if_neg (by simp)]
        · rw [if_neg hslot, if_neg hslot, if_pos rfl]
      constructor
      · intro h
        by_contra hadds
        rw [AddsNothing, not_or, not_not] at hadds
        obtain ⟨hsome, hslot⟩ := hadds
        rw [if_pos hslot] at hrun
        obtain ⟨k, hk⟩ := List.exists_mem_of_ne_nil seatIds hsome
        have hmem : (codec.text (queueMember showtimeId k userId), score) ∈
            (ClusterLock.updateSeatMetadataLua slot codec.text showtimeId seatIds userId
              expiresInSec c').1.queue.entries := by
          rw [hrun]
          exact mem_enqueue (.inl hk)
        obtain ⟨k', hk', hagrees⟩ := h () _ hmem
        -- A release leaves the entry where it is: it removes another text.
        have hother : codec.text (queueMember showtimeId k userId) ≠ pairMember k' userId := by
          intro htext
          have hdecodes := hagrees.decodes
          rw [show (cluster slot codec).decode (codec.text (queueMember showtimeId k userId)) =
            codec.decode (pairMember k' userId) from congrArg codec.decode htext] at hdecodes
          cases (hreads.pair k' hk').symm.trans hdecodes
        let t : ClusterRedis :=
          { ClusterRedis.empty with
            queue := SortedSet.empty.add (codec.text (queueMember showtimeId k userId)) 0 }
        have hfree : Releasable (cluster slot codec) showtimeId k' userId t := by
          intro owner deadline hlock
          cases hlock
        refine hagrees.released t hfree (mem_releaseLock hother ?_)
        exact SortedSet.mem_add_iff.2 (.inl rfl)
      · intro hnot i e he
        have hempty : (ClusterLock.updateSeatMetadataLua slot codec.text showtimeId seatIds userId
            expiresInSec c').1.queue = c'.queue := by
          rw [hrun]
          split_ifs with hslot
          · obtain rfl := hnot.resolve_right fun hnotSlot => hnotSlot hslot
            exact hscript
          · rfl
        have he : e ∈ (ClusterLock.updateSeatMetadataLua slot codec.text showtimeId seatIds userId
          expiresInSec c').1.queue.entries := he
        rw [hempty] at he
        exact absurd he List.not_mem_nil

end Cluster

/-! ## Both -/

/-- The single-node lock agrees on every acquisition, and on metadata that is written in time. -/
def WrittenInTime (n : ℕ) (codec : Codec) (s : Pools n) : Addition → Prop
  | .acquireSeatLockLua .. => True
  | .updateSeatMetadataLua showtimeId seatIds userId expiresInSec =>
      LocksExpire n codec s showtimeId seatIds userId expiresInSec

/-- When the entries that each implementation adds agree with the workers: their texts are decoded to
their seat, they are due fifteen seconds after the lock has expired, and the release and the booking
remove them. -/
theorem queue_entries_agree (n : ℕ) (slot : String → ℕ) {codec : Codec} {a : Addition}
    (hreads : Reads codec a) (hlow : -2 ^ 31 ≤ a.expiresInSec) (hhigh : a.expiresInSec < 2 ^ 31) :
    (∀ s : Pools n, (∀ i j, (s i).now = (s j).now) →
      (WellQueued (singleNode n codec) a s ↔ WrittenInTime n codec s a)) ∧
    ∀ c : ClusterRedis, WellQueued (cluster slot codec) a c ↔ AddsNothing slot c a := by
  refine ⟨fun s hclock => ?_, fun c => wellQueued_cluster_iff hreads⟩
  cases a with
  | acquireSeatLockLua showtimeId seatId userId expiresInSec =>
      exact iff_of_true (wellQueued_acquire rfl hreads hlow hhigh hclock) trivial
  | updateSeatMetadataLua showtimeId seatIds userId expiresInSec =>
      exact wellQueued_metadata_iff rfl hreads

/-! ### One entry -/

/-- The texts of one entry. -/
def codecOfSeatFive : Codec where
  text := ClusterLock.objectText
  decode text :=
    if text = ClusterLock.objectText (queueMember 10 5 42) then some (queueMember 10 5 42) else none

theorem reads_seatFive {a : Addition} (hshowtime : a.showtimeId = 10) (hseats : a.seatIds = [5])
    (huser : a.userId = 42) : Reads codecOfSeatFive a := by
  refine ⟨fun seatId hseat => ?_, fun seatId hseat => ?_⟩
  · rw [hseats] at hseat
    rw [hshowtime, huser, List.mem_singleton.1 hseat]
    decide +kernel
  · rw [hseats] at hseat
    rw [huser, List.mem_singleton.1 hseat]
    decide +kernel

theorem queue_entries_agree_acquired :
    WellQueued (singleNode 1 codecOfSeatFive) (.acquireSeatLockLua 10 5 42 300)
      fun _ => Redis.empty :=
  ((queue_entries_agree 1 ClusterLock.hashSlot (a := .acquireSeatLockLua 10 5 42 300)
    (reads_seatFive rfl rfl rfl) (by decide) (by decide)).1 _ fun _ _ => rfl).2 trivial

/-- The cluster lock queues `5:42`, which the workers drop as malformed; its metadata, with keys in one
slot of a Redis cluster, is queued under a text that the release does not remove. -/
theorem cluster_entries_disagree :
    ¬ WellQueued (cluster (fun _ => 0) codecOfSeatFive) (.acquireSeatLockLua 10 5 42 300) .empty ∧
    ¬ WellQueued (cluster ClusterLock.hashSlot codecOfSeatFive)
      (.updateSeatMetadataLua 10 [5] 42 300) .empty := by
  refine ⟨fun h => ?_, fun h => ?_⟩
  · have hnot := (wellQueued_cluster_iff (reads_seatFive rfl rfl rfl)).1 h
    exact hnot (by decide +kernel)
  · have hnot := (wellQueued_cluster_iff (reads_seatFive rfl rfl rfl)).1 h
    rcases hnot with hnil | hslot
    · cases hnil
    · exact hslot (by decide +kernel)


end SeatQueue
end Bookit

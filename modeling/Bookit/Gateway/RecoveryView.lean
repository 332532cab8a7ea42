import Bookit.Gateway.LeftLocked
import Bookit.Gateway.LockTakers
import Bookit.Redis.LockedSeats

/-!
# Gateway.RecoveryView — the seats that a user is told to hold

A user who comes back is told the seats in the user's zset.  The lock key is written when the lock is
taken; the zset is written when the lock message is handled, with an expiry counted from then.  The
two agree where messages are handled in the second of the lock, where every lock that is taken or
extended has its message, and where no clean-up hits a lock that was taken anew.
-/

namespace Bookit
namespace Gateway

open Lib LockServer SingleNodeLock

/-! ## Locks and their members -/

/-- The zset knows how long the lock lasts, to the second. -/
def Covers (s : Redis) (x : SeatHold) (deadline : ℕ) : Prop :=
  ∃ y ∈ (s.userLocks (x.seat.1, x.userId)).entries,
    y.1 = x.seat.2 ∧ (deadline : ℤ) < 1000 * y.2 + 1000

instance {s : Redis} {x : SeatHold} {deadline : ℕ} : Decidable (Covers s x deadline) := by
  unfold Covers
  infer_instance

theorem covers_iff {s : Redis} {x : SeatHold} {deadline : ℕ} : Covers s x deadline ↔
    ∃ score, s.ListedFor x.seat x.userId score ∧ (deadline : ℤ) < 1000 * score + 1000 := by
  constructor
  · rintro ⟨⟨a, score⟩, hmem, rfl, hlt⟩
    exact ⟨score, hmem, hlt⟩
  · rintro ⟨score, hlisted, hlt⟩
    exact ⟨(x.seat.2, score), hlisted, rfl, hlt⟩

/-- The lock is the user's for another second at least, and the zset does not say so. -/
def Unlisted (s : Redis) (x : SeatHold) : Prop :=
  ∃ v ∈ s.seatLock x.seat, v.1 = x.userId ∧ s.now + 1000 ≤ v.2 ∧ ¬Covers s x v.2

instance {s : Redis} {x : SeatHold} : Decidable (Unlisted s x) := by
  unfold Unlisted
  infer_instance

theorem Unlisted.owner {s : Redis} {x : SeatHold} (h : Unlisted s x) :
    s.lockOwner x.seat.1 x.seat.2 = some x.userId := by
  obtain ⟨⟨u, deadline⟩, hv, rfl, hlive, -⟩ := h
  exact Expiring.lookup_eq_some_iff.2 ⟨deadline, hv, Nat.le_trans (Nat.le_add_right _ _) hlive⟩

/-- A member that is not in its last second is of a lock that lasts as long, to the second. -/
def Backed (s : Redis) : Prop :=
  ∀ (x : SeatHold) (score : ℤ), s.ListedFor x.seat x.userId score →
    1000 * score < s.now + 1000 ∨
      ∃ deadline : ℕ, s.seatLock x.seat = some (x.userId, deadline) ∧
        1000 * score ≤ deadline + 1000

/-- No lock lasts longer than a lock that is taken now. -/
def InSpan (s : Redis) : Prop :=
  ∀ seat v, s.seatLock seat = some v → v.2 ≤ s.now + lockTtlMs

/-- The zset lists the seat for less than a second more. -/
def LastSecond (s : Redis) (seat : ℤ × ℤ) (userId : ℤ) : Prop :=
  ∃ score, s.ListedFor seat userId score ∧ 1000 * score < s.now + 1000

/-- The lists of a user's seats are those of the seats whose lock key is the user's, up to a second:
what is owned for another second is listed, and what is listed for another second is owned. -/
structure RecoveryAgrees (s : Redis) (showtimeId userId : ℤ) : Prop where
  lists : ∀ seatId, s.seatLock.lookup (s.now + 1000) (showtimeId, seatId) = some userId →
    seatId ∈ lockedSeats showtimeId userId s ∧
      ⟨seatId, showtimeId, "locked"⟩ ∈ (WsServer.syncLocksFromZset userId showtimeId s).2
  owns : ∀ seatId, seatId ∈ lockedSeats showtimeId userId s ∨
      ⟨seatId, showtimeId, "locked"⟩ ∈ (WsServer.syncLocksFromZset userId showtimeId s).2 →
    s.lockOwner showtimeId seatId = some userId ∨ LastSecond s (showtimeId, seatId) userId

theorem agrees_of_backed {s : Redis} (hbacked : Backed s) (hlisted : ∀ x, ¬Unlisted s x)
    (showtimeId userId : ℤ) : RecoveryAgrees s showtimeId userId := by
  refine ⟨fun seatId howned => ?_, fun seatId hmem => ?_⟩
  · obtain ⟨deadline, hlock, hlive⟩ := Expiring.lookup_eq_some_iff.1 howned
    have hcovers : Covers s ⟨(showtimeId, seatId), userId⟩ deadline := by
      by_contra hnot
      exact hlisted ⟨(showtimeId, seatId), userId⟩ ⟨_, hlock, rfl, hlive, hnot⟩
    obtain ⟨score, hscore, hlt⟩ := covers_iff.1 hcovers
    have hlater : s.timestamp < score := by
      unfold Redis.timestamp
      omega
    exact ⟨Redis.mem_lockedSeats_iff.2 ⟨score, hscore, le_of_lt hlater⟩,
      Redis.mem_syncLocksFromZset_iff.2 ⟨score, hscore, hlater⟩⟩
  · obtain ⟨score, hscore⟩ : ∃ score, s.ListedFor (showtimeId, seatId) userId score := by
      rcases hmem with hmem | hmem
      · obtain ⟨score, hscore, -⟩ := Redis.mem_lockedSeats_iff.1 hmem
        exact ⟨score, hscore⟩
      · obtain ⟨score, hscore, -⟩ := Redis.mem_syncLocksFromZset_iff.1 hmem
        exact ⟨score, hscore⟩
    rcases hbacked ⟨(showtimeId, seatId), userId⟩ score hscore with hlast | ⟨deadline, hlock, hle⟩
    · exact .inr ⟨score, hscore, hlast⟩
    · by_cases hlive : s.now ≤ deadline
      · exact .inl (Expiring.lookup_eq_some_iff.2 ⟨deadline, hlock, hlive⟩)
      · exact .inr ⟨score, hscore, by omega⟩

/-! ## The effects of the deployed commands -/

/-- Metadata is written in the second in which the lock of its user was last taken or extended, or in
the next. -/
def Timely (k : Redis.Cmd) (s : Redis) : Prop :=
  match k with
  | .writeMetadata showtimeId seatId userId expiry _ _ =>
      ∃ v ∈ s.seatLock (showtimeId, seatId), v.1 = userId ∧ 1000 * expiry ≤ (v.2 : ℤ) + 1000 ∧
        (v.2 : ℤ) < 1000 * expiry + 1000
  | _ => True

instance {k : Redis.Cmd} {s : Redis} : Decidable (Timely k s) := by
  unfold Timely
  rcases k with ⟨⟩ <;> infer_instance

section Effects

variable {b : HoldStage} {k : Redis.Cmd} {s : Redis} {x : SeatHold} {seat : ℤ × ℤ}

theorem acquires_of_holdCmd (hk : HoldCmd b k) {userId : ℤ} {ttl : ℕ}
    (h : k.acquires s = some (seat, userId, ttl)) :
    k = .setLockNx seat.1 seat.2 userId lockTtlMs ∧ ttl = lockTtlMs ∧
      s.lockOwner seat.1 seat.2 = none := by
  cases k with
  | setLockNx showtimeId seatId user ttlMs =>
      simp only [Redis.Cmd.acquires] at h
      split_ifs at h with hcond
      obtain ⟨rfl, hrest⟩ := Prod.mk.inj (Option.some.inj h)
      obtain ⟨rfl, rfl⟩ := Prod.mk.inj hrest
      obtain ⟨-, rfl⟩ := hk
      exact ⟨rfl, rfl, hcond.2⟩
  | eval script =>
      cases script with
      | acquire => exact absurd hk id
      | _ => cases h
  | _ => cases h

theorem metadata_of_written (hk : HoldCmd b k) {userId score : ℤ}
    (h : k.lists s = some (seat, userId, some score)) :
    ∃ processingExpiry entry,
      k = .writeMetadata seat.1 seat.2 userId score processingExpiry entry := by
  cases k with
  | writeMetadata showtimeId seatId user expiry processingExpiry entry =>
      obtain ⟨rfl, hrest⟩ := Prod.mk.inj (Option.some.inj h)
      obtain ⟨rfl, hscore⟩ := Prod.mk.inj hrest
      obtain rfl := Option.some.inj hscore
      exact ⟨processingExpiry, entry, rfl⟩
  | eval script =>
      simp only [Redis.Cmd.lists] at h
      split_ifs at h
      cases script with
      | acquire => exact absurd hk id
      | _ => cases h
  | zaddUser => exact absurd hk id
  | _ => cases h

theorem cleanUp_of_removed (hk : HoldCmd b k) {userId : ℤ}
    (h : k.lists s = some (seat, userId, none)) :
    k = .zremUser seat.1 userId seat.2 ∨
      ∃ script entry, script.Deletes ∧ k = .eval script seat.1 seat.2 userId entry := by
  cases k with
  | zremUser showtimeId user seatId =>
      obtain ⟨rfl, hrest⟩ := Prod.mk.inj (Option.some.inj h)
      obtain ⟨rfl, -⟩ := Prod.mk.inj hrest
      exact .inl rfl
  | eval script showtimeId seatId user entry =>
      refine .inr ⟨script, entry, hk, ?_⟩
      simp only [Redis.Cmd.lists] at h
      split_ifs at h
      cases script with
      | acquire => exact absurd hk id
      | _ =>
          obtain ⟨rfl, hrest⟩ := Prod.mk.inj (Option.some.inj h)
          obtain ⟨rfl, -⟩ := Prod.mk.inj hrest
          rfl
  | writeMetadata => cases h
  | _ => cases h

theorem InSpan.effect (h : InSpan s) (hk : HoldCmd b k) : InSpan (k.effect s) := by
  intro seat v hv
  rw [Redis.effect_now]
  cases Redis.keyEffect k s seat with
  | kept hkey => exact h seat v (hkey.symm.trans hv)
  | acquired hc hkey =>
      obtain rfl := Option.some.inj (hkey.symm.trans hv)
      rw [(acquires_of_holdCmd hk hc).2.1]
  | extended hc _ hkey =>
      subst hc
      obtain rfl := Option.some.inj (hkey.symm.trans hv)
      have httl : _ = lockTtlMs := hk
      rw [httl]
  | released _ hkey => cases hkey.symm.trans hv
  | dropped _ hkey => cases hkey.symm.trans hv

/-- A command keeps members backed: a lock goes with the member of its owner, and the member of an
earlier owner is in its last second. -/
theorem Backed.effect (h : Backed s) (hspan : InSpan s) (hk : HoldCmd b k) (htimely : Timely k s) :
    Backed (k.effect s) := by
  intro x score hscore
  rw [Redis.effect_now]
  have hold : s.ListedFor x.seat x.userId score →
      k.lists s ≠ some (x.seat, x.userId, none) →
        1000 * score < (s.now : ℤ) + 1000 ∨
          ∃ deadline : ℕ, (k.effect s).seatLock x.seat = some (x.userId, deadline) ∧
            1000 * score ≤ deadline + 1000 := by
    intro hlisted hremoved
    rcases h x score hlisted with hlast | ⟨deadline, hlock, hle⟩
    · exact .inl hlast
    · by_cases hlive : s.now ≤ deadline
      · have howner : s.lockOwner x.seat.1 x.seat.2 = some x.userId :=
          Expiring.lookup_eq_some_iff.2 ⟨deadline, hlock, hlive⟩
        cases Redis.keyEffect k s x.seat with
        | kept hkey => exact .inr ⟨deadline, hkey.trans hlock, hle⟩
        | acquired hc hkey =>
            rw [(acquires_of_holdCmd hk hc).2.2] at howner
            cases howner
        | released hc hkey =>
            obtain rfl := Redis.releases_owner hc howner
            exact absurd (Redis.lists_of_releases hc) hremoved
        | @extended owner ttl hc howner' hkey =>
            subst hc
            obtain rfl : owner = x.userId := Option.some.inj (howner'.symm.trans howner)
            obtain rfl : ttl = lockTtlMs := hk
            have hbound := hspan x.seat _ hlock
            refine .inr ⟨s.now + lockTtlMs, hkey, ?_⟩
            dsimp only at hbound
            omega
        | dropped hc hkey =>
            subst hc
            have hzero : 0 = lockTtlMs := hk
            exact absurd hzero (by decide)
      · exact .inl (by omega)
  cases Redis.listEffect k s x.seat x.userId with
  | kept hc hlisted => exact hold ((hlisted score).1 hscore) (hc none)
  | @written expiry hc hlisted =>
      obtain rfl := (hlisted score).1 hscore
      obtain ⟨processingExpiry, entry, rfl⟩ := metadata_of_written hk hc
      obtain ⟨⟨u, deadline⟩, hv, hu, hle, -⟩ := htimely
      dsimp only at hu hle
      subst hu
      rw [Redis.seatLock_writeMetadata]
      exact .inr ⟨deadline, hv, hle⟩
  | removed _ hnone => exact absurd hscore (hnone score)

/-- Metadata that is written in time lists the seat. -/
theorem listed_of_timely {showtimeId seatId userId expiry processingExpiry : ℤ} {entry : QueueEntry}
    (h : Timely (.writeMetadata showtimeId seatId userId expiry processingExpiry entry) s) :
    ¬Unlisted ((Redis.Cmd.writeMetadata showtimeId seatId userId expiry processingExpiry
      entry).effect s) ⟨(showtimeId, seatId), userId⟩ := by
  rintro ⟨v, hv, -, -, hnot⟩
  obtain ⟨v', hv', -, -, hlt⟩ := h
  rw [Redis.seatLock_writeMetadata] at hv
  obtain rfl : v' = v := Option.some.inj (hv'.symm.trans hv)
  refine hnot (covers_iff.2 ⟨expiry, ?_, hlt⟩)
  cases Redis.listEffect (.writeMetadata showtimeId seatId userId expiry processingExpiry entry) s
      (showtimeId, seatId) userId with
  | kept hc _ => exact absurd rfl (hc (some expiry))
  | written hc hlisted => exact (hlisted expiry).2 (by cases hc; rfl)
  | removed hc _ => cases hc

/-- A lock comes to be unlisted as it is taken or extended, or as a clean-up hits it. -/
theorem unlisted_effect (hk : HoldCmd b k) (htimely : Timely k s) (hbefore : ¬Unlisted s x)
    (hafter : Unlisted (k.effect s) x) :
    k = .setLockNx x.seat.1 x.seat.2 x.userId lockTtlMs ∨
      (k = .zremUser x.seat.1 x.userId x.seat.2 ∨ ∃ ttl, k = .pexpireLock x.seat.1 x.seat.2 ttl) ∧
        s.lockOwner x.seat.1 x.seat.2 = some x.userId := by
  obtain ⟨⟨u, deadline⟩, hv, hu, hlive, hnot⟩ := hafter
  rw [Redis.effect_now] at hlive
  dsimp only at hu hlive hnot
  subst hu
  cases Redis.keyEffect k s x.seat with
  | kept hkey =>
      have hlock : s.seatLock x.seat = some (x.userId, deadline) := hkey.symm.trans hv
      have howner : s.lockOwner x.seat.1 x.seat.2 = some x.userId :=
        Expiring.lookup_eq_some_iff.2
          ⟨deadline, hlock, Nat.le_trans (Nat.le_add_right _ _) hlive⟩
      have hcovers : Covers s x deadline := by
        by_contra hnone
        exact hbefore ⟨_, hlock, rfl, hlive, hnone⟩
      obtain ⟨score, hscore, hlt⟩ := covers_iff.1 hcovers
      cases Redis.listEffect k s x.seat x.userId with
      | kept _ hlisted =>
          exact absurd (covers_iff.2 ⟨score, (hlisted score).2 hscore, hlt⟩) hnot
      | written hc _ =>
          obtain ⟨processingExpiry, entry, rfl⟩ := metadata_of_written hk hc
          have hafter : Unlisted _ x := ⟨_, hv, rfl, by rwa [Redis.effect_now], hnot⟩
          exact absurd hafter (listed_of_timely htimely)
      | removed hc _ =>
          rcases cleanUp_of_removed hk hc with rfl | ⟨script, entry, hscript, rfl⟩
          · exact .inr ⟨.inl rfl, howner⟩
          · -- the script has deleted the lock as well
            have hgone : ((Redis.Cmd.eval script x.seat.1 x.seat.2 x.userId entry).effect
                s).seatLock x.seat = none := Redis.seatLock_of_removed hscript howner
            cases hgone.symm.trans hv
  | acquired hc hkey =>
      obtain rfl := (Prod.mk.inj (Option.some.inj (hkey.symm.trans hv))).1
      exact .inl (acquires_of_holdCmd hk hc).1
  | released _ hkey => cases hkey.symm.trans hv
  | extended hc howner hkey =>
      obtain rfl := (Prod.mk.inj (Option.some.inj (hkey.symm.trans hv))).1
      exact .inr ⟨.inr ⟨_, hc⟩, howner⟩
  | dropped _ hkey => cases hkey.symm.trans hv

end Effects

/-! ## Who may still have a lock listed -/

/-- The machine with the locks that the sessions have taken. -/
def takers : Machine (World × (ℕ → HoldStage)) Rep Task Result Link Environ :=
  machine.staged .start holdNext

abbrev HoldPool := Pool (World × (ℕ → HoldStage)) Rep Task Result

/-- The session is at work, and has taken the lock and not yet published it. -/
def TakenBy (p : HoldPool) (x : SeatHold) (j : ℕ) : Prop :=
  (p.working j).isSome = true ∧ (p.store.2 j).Has x

instance {p : HoldPool} {x : SeatHold} {j : ℕ} : Decidable (TakenBy p x j) := by
  unfold TakenBy
  infer_instance

/-- A session of the `k`-th message has written the metadata of the lock. -/
def WrittenFor (p : HoldPool) (k : ℕ) (x : SeatHold) : Prop :=
  ∃ j ∈ List.range p.threads.length, (∃ n ∈ p.task j, n.message = some k) ∧
    x ∈ (p.store.2 j).written

instance {p : HoldPool} {k : ℕ} {x : SeatHold} : Decidable (WrittenFor p k x) := by
  unfold WrittenFor
  infer_instance

/-- The `k`-th message is of the lock, is not acknowledged, and its metadata was not written. -/
def PendingIn (p : HoldPool) (x : SeatHold) (k : ℕ) : Prop :=
  (∃ message ∈ p.store.1.lockingQueue[k]?, LocksFor message x) ∧ ¬Acked p k ∧ ¬WrittenFor p k x

instance {p : HoldPool} {x : SeatHold} {k : ℕ} : Decidable (PendingIn p x k) := by
  unfold PendingIn
  infer_instance

/-- A session other than `i` has the lock to publish, or a message other than `k` is to list it. -/
def Coming (p : HoldPool) (i k : Option ℕ) (x : SeatHold) : Prop :=
  (∃ j ∈ List.range p.threads.length, some j ≠ i ∧ TakenBy p x j) ∨
    ∃ m ∈ List.range p.store.1.lockingQueue.length, some m ≠ k ∧ PendingIn p x m

instance {p : HoldPool} {i k : Option ℕ} {x : SeatHold} : Decidable (Coming p i k x) := by
  unfold Coming
  infer_instance

/-! ## The condition -/

/-- The lock is listed as long as it lasts, or comes to be. -/
def Accounted (p : HoldPool) (i k : Option ℕ) (x : SeatHold) : Prop :=
  ¬Unlisted p.store.1.services.redis x ∨ Coming p i k x

instance {p : HoldPool} {i k : Option ℕ} {x : SeatHold} : Decidable (Accounted p i k x) := by
  unfold Accounted
  infer_instance

/-- The locks that a session lets go of without publishing them: the `GET` after a `SET` without
success was not answered, or the message got lost. -/
def letsGo (l : Link) (c : Cmd) (b : HoldStage) : List SeatHold :=
  match c with
  | .service (.redis (.getLock ..)) => if l = .ok then [] else b.trying.toList
  | .publishLocking _ => if l = .lost then b.held else []
  | _ => []

/-- The live lock that a command leaves unlisted: its owner's member is cleaned up, or it is extended
for another user than the session has taken it for. -/
def outdates (l : Link) (c : Cmd) (s : Redis) (b : HoldStage) : Option SeatHold :=
  match c with
  | .service (.redis (.zremUser showtimeId userId seatId)) =>
      if l ≠ .lost ∧ s.lockOwner showtimeId seatId = some userId then
        some ⟨(showtimeId, seatId), userId⟩
      else
        none
  | .service (.redis (.pexpireLock showtimeId seatId _)) =>
      match s.lockOwner showtimeId seatId with
      | none => none
      | some owner =>
          if l = .lost ∨ b.Has ⟨(showtimeId, seatId), owner⟩ then
            none
          else
            some ⟨(showtimeId, seatId), owner⟩
  | _ => none

/-- A Redis command that gets through writes no metadata too late, or too early. -/
def InTime (l : Link) (c : Cmd) (s : Redis) : Prop :=
  match c with
  | .service (.redis k) => l = .lost ∨ Timely k s
  | _ => True

instance {l : Link} {c : Cmd} {s : Redis} : Decidable (InTime l c s) := by
  unfold InTime
  rcases c with c | _
  · rcases c with ⟨⟩ <;> infer_instance
  all_goals infer_instance

/-- A lock message comes to its end with the metadata of its seats written. -/
def EndsListed (p : HoldPool) (i : ℕ) (n : Task) (b : HoldStage) (q : Prog Rep Result) : Prop :=
  q.returned = false ∨ ∀ k ∈ n.message, ∀ message ∈ p.store.1.lockingQueue[k]?,
    message.action = "unlock" ∨ ∀ a ∈ message.seatIds,
      ⟨(message.showtimeId, a), message.userId⟩ ∈ b.written ∨
        Accounted p (some i) n.message ⟨(message.showtimeId, a), message.userId⟩

instance {p : HoldPool} {i : ℕ} {n : Task} {b : HoldStage} {q : Prog Rep Result} :
    Decidable (EndsListed p i n b q) := by
  unfold EndsListed
  infer_instance

/-- What a step has to look to. -/
def KeepsView (p : HoldPool) (i : ℕ) (l : Link) (n : Task) (c : Cmd) (k : Rep c → Prog Rep Result) :
    Prop :=
  InTime l c p.store.1.services.redis ∧
    (∀ x ∈ letsGo l c (p.store.2 i), Accounted p (some i) n.message x) ∧
      (∀ x ∈ outdates l c p.store.1.services.redis (p.store.2 i), Coming p (some i) n.message x) ∧
        ∀ x ∈ exec i l c p.store.1, EndsListed p i n (holdNext n (p.store.2 i) c x.2) (k x.2)

instance {p : HoldPool} {i : ℕ} {l : Link} {n : Task} {c : Cmd} {k : Rep c → Prog Rep Result} :
    Decidable (KeepsView p i l n c k) := by
  unfold KeepsView
  infer_instance

/-- Metadata is written in the second of the lock, every lock that is taken or extended has its
message, and no clean-up hits a lock that was taken anew, unless someone else is to list the lock; and
only the deployed services are at work. -/
def ListsLocks (p : HoldPool) : Act Link Environ → Prop
  | .environ (.operation _) => False
  | .environ _ => True
  | .run i l =>
      match p.threads[i]? with
      | some ⟨n, some (.call c k)⟩ => KeepsView p i l n c k
      | _ => True
  | .crash i =>
      ∀ x ∈ (p.store.2 i).held ++ (p.store.2 i).trying.toList, Accounted p (some i) none x

instance {p : HoldPool} {a : Act Link Environ} : Decidable (ListsLocks p a) := by
  unfold ListsLocks
  rcases a with x | ⟨i, l⟩ | i
  · rcases x with ⟨⟩ <;> infer_instance
  · dsimp only
    rcases p.threads[i]? with _ | ⟨n, _ | _ | ⟨c, k⟩⟩ <;> infer_instance
  · infer_instance

/-! ## Steps -/

section Commands

variable {n : Task} {b : HoldStage} {i : ℕ} {l : Link} {s t : World} {c : Cmd} {r : Rep c}
variable {x : SeatHold}

theorem mem_held_of_has (h : b.Has x) (htrying : b.trying = none) : x ∈ b.held := by
  rcases h with hheld | hx
  · exact hheld
  · rw [htrying] at hx
    cases hx

/-- A session keeps a lock that is unlisted, or publishes it, or lets it go. -/
theorem has_kept (hrun : exec i l c s = some (t, r)) (hmay : holdMay n b c) (hx : b.Has x)
    (hunlisted : Unlisted s.services.redis x) :
    (holdNext n b c r).Has x ∨ x ∈ letsGo l c b ∨
      ∃ message, c = .publishLocking message ∧ l ≠ .lost ∧ LocksFor message x := by
  cases c with
  | service c =>
      cases c with
      | redis k =>
          cases k with
          | setLockNx showtimeId seatId userId ttl =>
              have hheld := mem_held_of_has hx hmay.1
              refine .inl ?_
              show (if (r : Option Bool) = some true then _ else _ : HoldStage).Has x
              split_ifs
              · exact .inl (List.mem_cons_of_mem _ hheld)
              · exact .inl hheld
          | getLock showtimeId seatId =>
              rcases hx with hheld | htrying
              · refine .inl ?_
                show (b.afterOwner _).Has x
                unfold HoldStage.afterOwner
                split
                · exact .inl hheld
                · split_ifs
                  · exact .inl (List.mem_cons_of_mem _ hheld)
                  · exact .inl hheld
              · by_cases hl : l = .ok
                · -- an answered `GET` finds the lock the user's
                  subst hl
                  have hreply : r = some (s.services.redis.lockOwner showtimeId seatId) :=
                    (exec_redis hrun).2
                  have hseat : x.seat = (showtimeId, seatId) := hmay x htrying
                  have howner := hunlisted.owner
                  rw [hseat] at howner
                  refine .inl ?_
                  show (b.afterOwner (Option.join r)).Has x
                  unfold HoldStage.afterOwner
                  rw [hreply, htrying]
                  dsimp only
                  rw [Option.join_some, howner, if_pos rfl]
                  exact .inl List.mem_cons_self
                · refine .inr (.inl ?_)
                  show x ∈ if l = .ok then [] else b.trying.toList
                  rw [if_neg hl, htrying]
                  exact List.mem_singleton_self x
          | writeMetadata =>
              refine .inl ?_
              show (if (r : Option Unit) = none then b else _).Has x
              split_ifs
              · exact hx
              · exact hx
          | _ => exact .inl hx
      | _ => exact .inl hx
  | publishLocking message =>
      have hheld := mem_held_of_has hx hmay.1
      by_cases hl : l = .lost
      · refine .inr (.inl ?_)
        show x ∈ if l = .lost then b.held else []
        rw [if_pos hl]
        exact hheld
      · exact .inr (.inr ⟨message, rfl, hl, hmay.2 x hheld⟩)
  | _ => exact .inl hx

/-- Metadata that was written in time lists the lock. -/
theorem written_earlier (hrun : exec i l c s = some (t, r)) (htime : InTime l c s.services.redis)
    (hafter : Unlisted t.services.redis x) (hw : x ∈ (holdNext n b c r).written) :
    x ∈ b.written := by
  cases c with
  | service c =>
      cases c with
      | redis k =>
          cases k with
          | writeMetadata showtimeId seatId userId expiry processingExpiry entry =>
              obtain ⟨hredis, hreply⟩ := exec_redis hrun
              have hw : x ∈ (if (r : Option Unit) = none then b else { b with
                written := ⟨(showtimeId, seatId), userId⟩ :: b.written }).written := hw
              split_ifs at hw with hnone
              · exact hw
              rcases List.mem_cons.1 hw with rfl | hold
              · exfalso
                by_cases hl : l = .lost
                · subst hl
                  exact hnone hreply
                · rw [hredis, if_neg hl] at hafter
                  exact listed_of_timely (htime.resolve_left hl) hafter
              · exact hold
          | setLockNx =>
              have hw : x ∈ (if (r : Option Bool) = some true then _ else _ :
                HoldStage).written := hw
              split_ifs at hw
              · exact hw
              · exact hw
          | getLock =>
              have hw : x ∈ (b.afterOwner _).written := hw
              unfold HoldStage.afterOwner at hw
              split at hw
              · exact hw
              · split_ifs at hw
                · exact hw
                · exact hw
          | _ => exact hw
      | _ => exact hw
  | _ => exact hw

end Commands

section Pools

variable {p : HoldPool} {i : ℕ} {n : Task} {s : World × (ℕ → HoldStage)}
variable {q q₀ : Option (Prog Rep Result)} {x : SeatHold}

/-- What other sessions have taken they still have. -/
theorem TakenBy.other {j : ℕ} (h : TakenBy p x j) (hne : j ≠ i) (hstage : s.2 j = p.store.2 j) :
    TakenBy ⟨s, p.threads.set i ⟨n, q⟩⟩ x j := by
  refine ⟨?_, ?_⟩
  · rw [Pool.working_set_ne hne]
    exact h.1
  · show (s.2 j).Has x
    rw [hstage]
    exact h.2

theorem writtenFor_of_set {k : ℕ} (hr : p.threads[i]? = some ⟨n, q₀⟩)
    (hstage : ∀ j, j ≠ i → s.2 j = p.store.2 j)
    (hwritten : x ∈ (s.2 i).written → x ∈ (p.store.2 i).written)
    (h : WrittenFor ⟨s, p.threads.set i ⟨n, q⟩⟩ k x) : WrittenFor p k x := by
  obtain ⟨j, hj, ⟨m, hm, hk⟩, hw⟩ := h
  rw [List.mem_range, List.length_set] at hj
  have htask : p.task i = some n := congrArg (Option.map Thread.info) hr
  have hm : Pool.task ⟨s, p.threads.set i ⟨n, q⟩⟩ j = some m := hm
  rw [Pool.task_set htask] at hm
  refine ⟨j, List.mem_range.2 hj, ⟨m, hm, hk⟩, ?_⟩
  have hw : x ∈ (s.2 j).written := hw
  by_cases hji : j = i
  · subst hji
    exact hwritten hw
  · rwa [hstage j hji] at hw

/-- A message is pending still, unless this session has come to its end or written the metadata. -/
theorem PendingIn.other {m : ℕ} (h : PendingIn p x m) (hr : p.threads[i]? = some ⟨n, q₀⟩)
    (hqueue : ∃ messages, s.1.lockingQueue = p.store.1.lockingQueue ++ messages)
    (hstage : ∀ j, j ≠ i → s.2 j = p.store.2 j)
    (hend : n.message = some m → ∀ x, q ≠ some (.ret x))
    (hwritten : x ∈ (s.2 i).written → x ∈ (p.store.2 i).written) :
    PendingIn ⟨s, p.threads.set i ⟨n, q⟩⟩ x m := by
  obtain ⟨⟨message, hmessage, hlocks⟩, hacked, hnot⟩ := h
  refine ⟨⟨message, ?_, hlocks⟩, fun hacked' => ?_, fun hw => ?_⟩
  · obtain ⟨messages, hq⟩ := hqueue
    show s.1.lockingQueue[m]? = some message
    have hmessage : p.store.1.lockingQueue[m]? = some message := hmessage
    rw [hq, List.getElem?_append_left (List.getElem?_eq_some_iff.1 hmessage).1]
    exact hmessage
  · rcases acked_of_set hacked' with hbefore | ⟨hn, y, hy⟩
    · exact hacked hbefore
    · exact hend hn y hy
  · exact hnot (writtenFor_of_set hr hstage hwritten hw)

/-- Who else is to list the lock may do so after this session's step. -/
theorem Coming.other (h : Coming p (some i) n.message x) (hr : p.threads[i]? = some ⟨n, q₀⟩)
    (hqueue : ∃ messages, s.1.lockingQueue = p.store.1.lockingQueue ++ messages)
    (hstage : ∀ j, j ≠ i → s.2 j = p.store.2 j)
    (hwritten : x ∈ (s.2 i).written → x ∈ (p.store.2 i).written) :
    Coming ⟨s, p.threads.set i ⟨n, q⟩⟩ none none x := by
  rcases h with ⟨j, hj, hne, htaken⟩ | ⟨m, hm, hne, hpending⟩
  · have hji : j ≠ i := fun heq => hne (congrArg some heq)
    refine .inl ⟨j, ?_, fun hnone => (nomatch hnone), htaken.other hji (hstage j hji)⟩
    rw [List.mem_range, List.length_set]
    exact List.mem_range.1 hj
  · refine .inr ⟨m, ?_, fun hnone => (nomatch hnone),
      hpending.other hr hqueue hstage (fun heq => absurd heq.symm hne) hwritten⟩
    obtain ⟨messages, hq⟩ := hqueue
    show m ∈ List.range s.1.lockingQueue.length
    rw [List.mem_range, hq, List.length_append]
    exact Nat.lt_of_lt_of_le (List.mem_range.1 hm) (Nat.le_add_right _ _)

/-- Deliveries are of messages that were published. -/
def Delivered (p : HoldPool) : Prop :=
  ∀ j n k, p.task j = some n → n.message = some k → k < p.store.1.lockingQueue.length

theorem Delivered.acked_lt (h : Delivered p) {k : ℕ} (hk : Acked p k) :
    k < p.store.1.lockingQueue.length := by
  obtain ⟨t, ht, hended⟩ := hk
  obtain ⟨j, hj⟩ := List.mem_iff_getElem?.1 ht
  have htask : p.task j = some t.info := by rw [Pool.task, hj, Option.map_some]
  refine h j t.info k htask ?_
  unfold Ended at hended
  split at hended
  · exact congrArg some hended
  · exact absurd hended id

/-- A message that has just been published is pending. -/
theorem pending_published (h : Delivered p) {message : SeatLockMessage}
    (hr : p.threads[i]? = some ⟨n, q₀⟩) (hlocks : LocksFor message x)
    (hqueue : s.1.lockingQueue = p.store.1.lockingQueue ++ [message])
    (hstage : ∀ j, j ≠ i → s.2 j = p.store.2 j)
    (hwritten : x ∈ (s.2 i).written → x ∈ (p.store.2 i).written) :
    PendingIn ⟨s, p.threads.set i ⟨n, q⟩⟩ x p.store.1.lockingQueue.length := by
  have htask : p.task i = some n := congrArg (Option.map Thread.info) hr
  refine ⟨⟨message, ?_, hlocks⟩, fun hacked => ?_, fun hw => ?_⟩
  · show s.1.lockingQueue[_]? = some message
    rw [hqueue, List.getElem?_append_right (Nat.le_refl _), Nat.sub_self]
    rfl
  · rcases acked_of_set hacked with hbefore | ⟨hn, -⟩
    · exact absurd (h.acked_lt hbefore) (Nat.lt_irrefl _)
    · exact absurd (h i n _ htask hn) (Nat.lt_irrefl _)
  · obtain ⟨j, -, ⟨m, hm, hk⟩, -⟩ := writtenFor_of_set hr hstage hwritten hw
    exact absurd (h j m _ hm hk) (Nat.lt_irrefl _)

end Pools

/-! ## The invariant -/

/-- Members are backed by locks, and a lock that the zset does not list has someone who is to list
it. -/
structure InView (p : HoldPool) : Prop where
  delivered : Delivered p
  span : InSpan p.store.1.services.redis
  backed : Backed p.store.1.services.redis
  coming : ∀ x, Unlisted p.store.1.services.redis x → Coming p none none x

theorem holdFollows_reachable {p : HoldPool} (h : takers.system.ReachableUnder ListsLocks p) {i : ℕ}
    {n : Task} {q : Service Result} (hr : p.Runs i n q) :
    q.Follows (holdMay n) (holdNext n) (fun _ b => b.Idle) (p.store.2 i) := by
  refine Machine.follows_of_reachable (Q := fun _ _ b => b.Idle) ?_ h i n q hr
  intro p x s ts hG henv n q hmem
  refine holdFollows_started (started_of_environ henv n q hmem) ?_
  rintro rfl
  obtain ⟨p', rfl⟩ := operation_of_environ henv hmem
  exact hG

section Run

variable {p : HoldPool} {i : ℕ} {l : Link} {n : Task} {c : Cmd} {k : Rep c → Service Result}
variable {s : World × (ℕ → HoldStage)} {r : Rep c}

/-- A step keeps members backed. -/
theorem backed_run (hI : InView p) (hrun : exec i l c p.store.1 = some (s.1, r))
    (hmay : holdMay n (p.store.2 i) c) (htime : InTime l c p.store.1.services.redis) :
    InSpan s.1.services.redis ∧ Backed s.1.services.redis := by
  rcases redis_exec hrun with ⟨k', rfl, ht⟩ | ⟨-, ht⟩
  · rw [ht]
    by_cases hl : l = .lost
    · rw [if_pos hl]
      exact ⟨hI.span, hI.backed⟩
    · rw [if_neg hl]
      exact ⟨hI.span.effect hmay, hI.backed.effect hI.span hmay (htime.resolve_left hl)⟩
  · rw [ht]
    exact ⟨hI.span, hI.backed⟩

/-- A lock that a step leaves unlisted is the session's, or someone else is to list it. -/
theorem unlisted_run (hrun : exec i l c p.store.1 = some (s.1, r))
    (hmay : holdMay n (p.store.2 i) c) (hkeeps : KeepsView p i l n c k) {x : SeatHold}
    (hbefore : ¬Unlisted p.store.1.services.redis x) (hafter : Unlisted s.1.services.redis x) :
    (holdNext n (p.store.2 i) c r).Has x ∨ Coming p (some i) n.message x := by
  obtain ⟨htime, -, houtdates, -⟩ := hkeeps
  rcases redis_exec hrun with ⟨k', rfl, ht⟩ | ⟨-, ht⟩
  · by_cases hl : l = .lost
    · rw [ht, if_pos hl] at hafter
      exact absurd hafter hbefore
    rw [ht, if_neg hl] at hafter
    rcases unlisted_effect hmay (htime.resolve_left hl) hbefore hafter with
      rfl | ⟨rfl | ⟨ttl, rfl⟩, howner⟩
    · refine .inl ?_
      show (if (r : Option Bool) = some true then _ else _ : HoldStage).Has x
      split_ifs
      · exact .inl List.mem_cons_self
      · exact .inr rfl
    · refine .inr (houtdates x ?_)
      exact if_pos ⟨hl, howner⟩
    · by_cases hhas : (p.store.2 i).Has x
      · exact .inl hhas
      · refine .inr (houtdates x ?_)
        show (match p.store.1.services.redis.lockOwner x.seat.1 x.seat.2 with
          | none => none
          | some owner => if l = .lost ∨ (p.store.2 i).Has ⟨(x.seat.1, x.seat.2), owner⟩ then none
            else some ⟨(x.seat.1, x.seat.2), owner⟩) = some x
        rw [howner]
        dsimp only
        rw [if_neg (not_or.2 ⟨hl, hhas⟩)]
  · rw [ht] at hafter
    exact absurd hafter hbefore

theorem inView_run (hp : takers.system.ReachableUnder ListsLocks p) (hI : InView p)
    (hG : ListsLocks p (.run i l)) (hr : p.Runs i n (.call c k))
    (hs : takers.exec n i l c p.store = some (s, r)) :
    InView ⟨s, p.threads.set i ⟨n, some (k r)⟩⟩ := by
  obtain ⟨hrun, hstages⟩ := Machine.staged_exec.1 hs
  have hrun : exec i l c p.store.1 = some (s.1, r) := hrun
  obtain ⟨hmay, hrest⟩ := holdFollows_reachable hp hr
  have hr' : p.threads[i]? = some ⟨n, some (.call c k)⟩ := hr
  have hlen : i < p.threads.length := (List.getElem?_eq_some_iff.1 hr').1
  have hkeeps : KeepsView p i l n c k := by
    simpa only [ListsLocks, hr'] using hG
  obtain ⟨htime, hletsGo, -, hends⟩ := id hkeeps
  have hself : s.2 i = holdNext n (p.store.2 i) c r := by
    rw [hstages, Function.update_self]
  have hstage : ∀ j, j ≠ i → s.2 j = p.store.2 j := fun j hne => by
    rw [hstages, Function.update_of_ne hne]
  obtain ⟨messages, hqueue⟩ := lockingQueue_exec hrun
  obtain ⟨hspan, hbacked⟩ := backed_run hI hrun hmay htime
  refine ⟨fun j m k' hj hm => ?_, hspan, hbacked, fun x hafter => ?_⟩
  · have hj : Pool.task ⟨s, p.threads.set i ⟨n, some (k r)⟩⟩ j = some m := hj
    rw [Pool.task_set hr.task] at hj
    show k' < s.1.lockingQueue.length
    rw [hqueue, List.length_append]
    exact Nat.lt_of_lt_of_le (hI.delivered j m k' hj hm) (Nat.le_add_right _ _)
  have hafter : Unlisted s.1.services.redis x := hafter
  have hwritten : x ∈ (s.2 i).written → x ∈ (p.store.2 i).written := by
    intro hw
    rw [hself] at hw
    exact written_earlier hrun htime hafter hw
  have hother : Coming p (some i) n.message x →
      Coming ⟨s, p.threads.set i ⟨n, some (k r)⟩⟩ none none x :=
    fun hcoming => hcoming.other hr' ⟨messages, hqueue⟩ hstage hwritten
  -- a session that has the lock to publish has not come to its end
  have hown : (holdNext n (p.store.2 i) c r).Has x →
      Coming ⟨s, p.threads.set i ⟨n, some (k r)⟩⟩ none none x := by
    intro hhas
    have hreturned : (k r).returned = false := by
      have hfollows := hrest r
      cases hk : k r with
      | call => rfl
      | ret y =>
          rw [hk] at hfollows
          exact absurd hhas (HoldStage.Idle.has hfollows)
    refine .inl ⟨i, ?_, fun hnone => (nomatch hnone), ?_, ?_⟩
    · rw [List.mem_range, List.length_set]
      exact hlen
    · rw [Pool.working_set_self hlen hreturned]
      rfl
    · show (s.2 i).Has x
      rw [hself]
      exact hhas
  by_cases hbefore : Unlisted p.store.1.services.redis x
  · have hexcused : Accounted p (some i) n.message x →
        Coming ⟨s, p.threads.set i ⟨n, some (k r)⟩⟩ none none x :=
      fun haccounted => hother (haccounted.resolve_left (not_not.2 hbefore))
    rcases hI.coming x hbefore with ⟨j, hj, -, htaken⟩ | ⟨m, hm, -, hpending⟩
    · by_cases hji : j = i
      · subst hji
        rcases has_kept hrun hmay htaken.2 hbefore with hhas | hgone | ⟨message, rfl, hl, hlocks⟩
        · exact hown hhas
        · exact hexcused (hletsGo x hgone)
        · have hpublished : s.1.lockingQueue = p.store.1.lockingQueue ++ [message] := by
            have hrun' : exec j l (.publishLocking message) p.store.1 = some (s.1, r) := hrun
            cases l with
            | lost => exact absurd rfl hl
            | ok | unacked => rw [← (Prod.mk.inj (Option.some.inj hrun')).1]
          refine .inr ⟨p.store.1.lockingQueue.length, ?_, fun hnone => (nomatch hnone),
            pending_published hI.delivered hr' hlocks hpublished hstage hwritten⟩
          show _ ∈ List.range s.1.lockingQueue.length
          rw [List.mem_range, hpublished, List.length_append]
          exact Nat.lt_succ_self _
      · exact hother (.inl ⟨j, hj, fun heq => hji (Option.some.inj heq), htaken⟩)
    · by_cases hm' : some m = n.message ∧ (k r).returned = true
      · obtain ⟨⟨message, hmessage, haction, huser, hshow, hseat⟩, -, hnot⟩ := hpending
        have hwrite := (hends (s.1, r) hrun).resolve_left
          (by rw [hm'.2]; exact fun h => nomatch h) m hm'.1.symm message hmessage
        have hkey : (⟨(message.showtimeId, x.seat.2), message.userId⟩ : SeatHold) = x := by
          rw [huser, hshow]
        rcases (hwrite.resolve_left haction) x.seat.2 hseat with hw | haccounted
        · exfalso
          rw [hkey, ← hself] at hw
          exact hnot ⟨i, List.mem_range.2 hlen, ⟨n, hr.task, hm'.1.symm⟩, hwritten hw⟩
        · rw [hkey] at haccounted
          exact hexcused haccounted
      · refine .inr ⟨m, ?_, fun hnone => (nomatch hnone), hpending.other hr' ⟨messages, hqueue⟩
          hstage (fun heq y hy => hm' ⟨heq.symm, ?_⟩) hwritten⟩
        · show m ∈ List.range s.1.lockingQueue.length
          rw [List.mem_range, hqueue, List.length_append]
          exact Nat.lt_of_lt_of_le (List.mem_range.1 hm) (Nat.le_add_right _ _)
        · rw [Option.some.inj hy]
          rfl
  · rcases unlisted_run hrun hmay hkeeps hbefore hafter with hhas | hcoming
    · exact hown hhas
    · exact hother hcoming

end Run

theorem unlisted_of_later {s : Redis} {d : ℕ} {x : SeatHold}
    (h : Unlisted { s with now := s.now + d } x) : Unlisted s x := by
  obtain ⟨v, hv, hu, hlive, hnot⟩ := h
  have hlive : s.now + d + 1000 ≤ v.2 := hlive
  exact ⟨v, hv, hu, by omega, hnot⟩

theorem Backed.later {s : Redis} {d : ℕ} (h : Backed s) :
    Backed { s with now := s.now + d } := by
  intro x score hscore
  have hcast : ((s.now + d : ℕ) : ℤ) = (s.now : ℤ) + d := Int.natCast_add _ _
  rcases h x score hscore with hlast | hlock
  · refine .inl ?_
    show 1000 * score < ((s.now + d : ℕ) : ℤ) + 1000
    omega
  · exact .inr hlock

theorem inView_environ {p : HoldPool} (hp : takers.system.ReachableUnder ListsLocks p)
    (hI : InView p) {x : Environ} {s : World × (ℕ → HoldStage)} {ts : List (Task × Service Result)}
    (hs : takers.environ x p.store = some (s, ts)) :
    InView ⟨s, p.threads ++ Machine.start ts⟩ := by
  obtain ⟨henv, hstages⟩ := Machine.staged_environ.1 hs
  have henv : environ x p.store.1 = some (s.1, ts) := henv
  obtain ⟨hqueue, -, d, hredis⟩ := services_environ henv
  have hget : ∀ {j : ℕ}, j < p.threads.length →
      (p.threads ++ Machine.start ts)[j]? = p.threads[j]? :=
    fun hj => List.getElem?_append_left hj
  have hmem : ∀ {j : ℕ}, j ∈ List.range p.threads.length →
      j ∈ List.range (p.threads ++ Machine.start ts).length := by
    intro j hj
    rw [List.mem_range, List.length_append]
    exact Nat.lt_of_lt_of_le (List.mem_range.1 hj) (Nat.le_add_right _ _)
  refine ⟨fun j n k hj hn => ?_, ?_, ?_, fun y hafter => ?_⟩
  · show k < s.1.lockingQueue.length
    rw [hqueue]
    obtain ⟨t, ht, htask⟩ := Option.map_eq_some_iff.1 hj
    rcases List.mem_append.1 (List.mem_of_getElem? ht) with hold | hnew
    · obtain ⟨j', hj'⟩ := List.mem_iff_getElem?.1 hold
      exact hI.delivered j' n k (by rw [Pool.task, hj', Option.map_some, htask]) hn
    · obtain ⟨⟨m, q⟩, hq, rfl⟩ := List.mem_map.1 hnew
      obtain rfl : m = n := htask
      cases m with
      | lockMessage k' message =>
          obtain rfl := Option.some.inj hn
          cases started_of_environ henv _ _ hq with
          | lockMessage hmessage => exact (List.getElem?_eq_some_iff.1 hmessage).1
      | _ => cases hn
  · show InSpan s.1.services.redis
    rw [hredis]
    intro seat v hv
    exact Nat.le_trans (hI.span seat v hv) (Nat.add_le_add_right (Nat.le_add_right _ _) _)
  · show Backed s.1.services.redis
    rw [hredis]
    exact hI.backed.later
  · have hafter : Unlisted s.1.services.redis y := hafter
    rw [hredis] at hafter
    rcases hI.coming y (unlisted_of_later hafter) with ⟨j, hj, hne, hworking, hhas⟩ |
      ⟨m, hm, hne, ⟨message, hmessage, hlocks⟩, hacked, hnot⟩
    · refine .inl ⟨j, hmem hj, hne, ?_, ?_⟩
      · show (Pool.working ⟨s, p.threads ++ Machine.start ts⟩ j).isSome = true
        unfold Pool.working
        rw [hget (List.mem_range.1 hj)]
        exact hworking
      · show (s.2 j).Has y
        rw [hstages]
        exact hhas
    · refine .inr ⟨m, ?_, hne, ⟨message, ?_, hlocks⟩, fun hacked' => ?_, ?_⟩
      · show m ∈ List.range s.1.lockingQueue.length
        rw [hqueue]
        exact hm
      · show s.1.lockingQueue[m]? = some message
        rw [hqueue]
        exact hmessage
      · have hreturned := returned_lockMessage hlocks.1
        exact hacked (acked_of_start (started_of_environ henv) hmessage hreturned hacked')
      · rintro ⟨j, hj, ⟨n, hn, hk⟩, hw⟩
        have hw : y ∈ (s.2 j).written := hw
        rw [hstages] at hw
        by_cases hlt : j < p.threads.length
        · refine hnot ⟨j, List.mem_range.2 hlt, ⟨n, ?_, hk⟩, hw⟩
          rcases Pool.task_of_append hn with hold | hge
          · exact hold
          · exact absurd hlt (Nat.not_lt.2 hge)
        · rw [Machine.unstarted_of_reachable hp j (Nat.not_lt.1 hlt)] at hw
          cases hw

theorem inView_crash {p : HoldPool} {i : ℕ} (hI : InView p) (hG : ListsLocks p (.crash i)) {n : Task}
    {c : Cmd} {k : Rep c → Service Result} (hr : p.Runs i n (.call c k)) :
    InView ⟨takers.close i p.store, p.threads.set i ⟨n, none⟩⟩ := by
  have hr' : p.threads[i]? = some ⟨n, some (.call c k)⟩ := hr
  have hqueue : ∃ messages, (takers.close i p.store).1.lockingQueue =
      p.store.1.lockingQueue ++ messages := ⟨[], (List.append_nil _).symm⟩
  refine ⟨fun j m k' hj hm => ?_, hI.span, hI.backed, fun x hafter => ?_⟩
  · have hj : Pool.task ⟨takers.close i p.store, p.threads.set i ⟨n, none⟩⟩ j = some m := hj
    rw [Pool.task_set hr.task] at hj
    exact hI.delivered j m k' hj hm
  have hbefore : Unlisted p.store.1.services.redis x := hafter
  have hkept : Coming p (some i) none x →
      Coming ⟨takers.close i p.store, p.threads.set i ⟨n, none⟩⟩ none none x := by
    rintro (⟨j, hj, hne, htaken⟩ | ⟨m, hm, hne, hpending⟩)
    · refine .inl ⟨j, ?_, fun hnone => (nomatch hnone),
        htaken.other (fun heq => hne (congrArg some heq)) rfl⟩
      rw [List.mem_range, List.length_set]
      exact List.mem_range.1 hj
    · exact .inr ⟨m, hm, fun hnone => (nomatch hnone),
        hpending.other hr' hqueue (fun _ _ => rfl) (fun _ y hy => (nomatch hy)) id⟩
  rcases hI.coming x hbefore with ⟨j, hj, -, htaken⟩ | ⟨m, hm, -, hpending⟩
  · by_cases hji : j = i
    · subst hji
      have hlost : x ∈ (p.store.2 j).held ++ (p.store.2 j).trying.toList := by
        rcases htaken.2 with hheld | htrying
        · exact List.mem_append_left _ hheld
        · refine List.mem_append_right _ ?_
          rw [htrying]
          exact List.mem_singleton_self x
      exact hkept ((hG x hlost).resolve_left (not_not.2 hbefore))
    · exact hkept (.inl ⟨j, hj, fun heq => hji (Option.some.inj heq), htaken⟩)
  · exact hkept (.inr ⟨m, hm, fun hnone => (nomatch hnone), hpending⟩)

theorem inView_reachable {p : HoldPool} (h : takers.system.ReachableUnder ListsLocks p) :
    InView p := by
  induction h with
  | @init p h0 =>
      obtain ⟨⟨⟨seats, hstore⟩, -⟩, hthreads⟩ := h0
      have hlocks : ∀ seat, p.store.1.services.redis.seatLock seat = none := by
        intro seat
        rw [hstore]
        rfl
      refine ⟨fun j n k hj => ?_, fun seat v hv => ?_, fun x score hscore => ?_, fun x hx => ?_⟩
      · unfold Pool.task at hj
        rw [hthreads] at hj
        cases hj
      · rw [hlocks] at hv
        cases hv
      · unfold Redis.ListedFor at hscore
        rw [hstore] at hscore
        cases hscore
      · obtain ⟨v, hv, -⟩ := hx
        rw [hlocks] at hv
        cases hv
  | @step p q a hp hG hst ih =>
      have hst : takers.step p a = some q := hst
      cases a with
      | environ x =>
          obtain ⟨s, ts, hs, rfl⟩ := Machine.step_environ hst
          exact inView_environ hp ih hs
      | run i l =>
          obtain ⟨n, c, k, s, r, hr, hs, rfl⟩ := Machine.step_run hst
          exact inView_run hp ih hG hr hs
      | crash i =>
          obtain ⟨n, c, k, hr, rfl⟩ := Machine.step_crash hst
          exact inView_crash ih hG hr

/-! ## Quiet moments -/

/-- The thread has come to its end, or waits for a task, an answer or an event. -/
def Waits : Thread Rep Task Result → Prop
  | ⟨_, some (.call (.recv ..) _)⟩ => True
  | ⟨_, some (.call (.awaitAnswer _) _)⟩ => True
  | ⟨_, some (.call (.handleEvent _) _)⟩ => True
  | ⟨_, some (.call _ _)⟩ => False
  | _ => True

instance {t : Thread Rep Task Result} : Decidable (Waits t) := by
  unfold Waits
  rcases t with ⟨n, _ | _ | ⟨c, k⟩⟩
  · infer_instance
  · infer_instance
  · rcases c with ⟨⟩ <;> infer_instance

/-- No message is queued or in flight, and no handler is at work. -/
structure AtRest (p : HoldPool) : Prop where
  acked : ∀ k ∈ List.range p.store.1.lockingQueue.length, Acked p k
  idle : ∀ t ∈ p.threads, Waits t

instance {p : HoldPool} : Decidable (AtRest p) :=
  decidable_of_iff (_ ∧ _) ⟨fun h => ⟨h.1, h.2⟩, fun h => ⟨h.1, h.2⟩⟩

/-- A session that waits has taken nothing. -/
theorem idle_of_waits {n : Task} {b : HoldStage} {c : Cmd} {k : Rep c → Service Result}
    (hwaits : Waits ⟨n, some (.call c k)⟩) (hmay : holdMay n b c) : b.Idle := by
  cases c with
  | recv | awaitAnswer | handleEvent => exact hmay
  | _ => exact absurd hwaits id

/-- User 42 locks the seat, and extends the lock at another replica 200 seconds later; both messages
are handled at once. -/
def extendsAtOnce : List (Act Link Environ) :=
  locksSeat ++ .environ (.lockMessage 0) :: steps 2 7 ++ .environ (.tick 200000) ::
    .environ (.lock 1 42 1 [1] [1] 10) :: steps 3 11 ++ .environ (.actor 1 0 1) :: steps 4 7 ++
      .environ (.lockMessage 1) :: steps 5 7 ++ [.environ (.tick 200000)]

end Gateway
end Bookit

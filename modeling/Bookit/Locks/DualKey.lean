import Bookit.Redis.SingleNodeLock

/-!
# Locks.DualKey — Key 2 on the deployed path

The deployed services acquire seats with `acquire_lock`, which writes the lock key only; the context
key is written by the acquisition script, which no service runs.  So in every state the deployed
operations reach, no context key exists: `user_holds_lock` denies everybody, and it agrees with the
lock key exactly for those who do not own the lock.
-/

namespace Bookit
namespace Locks

open Lib SingleNodeLock

/-! ## The lock check of a payment request -/

/-- The loop of `request_payment` over the requested seats. -/
def checkSeatLocks (scheduleId userId : ℤ) : List ℤ → Op (Except String Unit)
  | [] => pure (.ok ())
  | seatId :: seatIds => do
      if ← userHoldsLock scheduleId seatId userId then
        checkSeatLocks scheduleId userId seatIds
      else
        pure (.error "one or more seats are not locked by this user")

/-- Running alone, the check passes when every context key exists. -/
theorem evalOp_checkSeatLocks (s : Redis) (scheduleId userId : ℤ) (seatIds : List ℤ) :
    (evalOp (checkSeatLocks scheduleId userId seatIds) s).2 = .ok () ↔
      ∀ seatId ∈ seatIds, s.hasContext scheduleId seatId userId = true := by
  induction seatIds with
  | nil => simp [checkSeatLocks, evalOp]
  | cons seatId seatIds ih =>
      have hstep : (evalOp (checkSeatLocks scheduleId userId (seatId :: seatIds)) s).2 =
          if s.hasContext scheduleId seatId userId then
            (evalOp (checkSeatLocks scheduleId userId seatIds) s).2
          else .error "one or more seats are not locked by this user" := by
        show (evalOp (if s.hasContext scheduleId seatId userId = true then
          checkSeatLocks scheduleId userId seatIds
          else .ret (.error "one or more seats are not locked by this user")) s).2 = _
        split_ifs <;> rfl
      rw [hstep, List.forall_mem_cons]
      by_cases h : s.hasContext scheduleId seatId userId = true
      · simp [h, ih]
      · simp [h]

/-! ## The deployed operations -/

inductive DeployedOp where
  | acquireLock (showtimeId seatId userId : ℤ) (ttlMs : ℕ)
  | acquireDistributedLock (showtimeId seatId userId expiresInSec : ℤ)
  | updateSeatMetadata (showtimeId : ℤ) (seatIds : List ℤ) (userId expiresInSec : ℤ)
  | releaseLock (showtimeId seatId userId : ℤ)
  | releaseExpiredLock (entry : QueueEntry)
  | bookSeat (showtimeId seatId userId : ℤ)
  | forceBookSeat (entry : QueueEntry)

def DeployedOp.program : DeployedOp → Op Bool
  | acquireLock showtimeId seatId userId ttlMs =>
      SingleNodeLock.acquireLock showtimeId seatId userId ttlMs
  | acquireDistributedLock showtimeId seatId userId expiresInSec =>
      SingleNodeLock.acquireDistributedLock showtimeId seatId userId expiresInSec
  | updateSeatMetadata showtimeId seatIds userId expiresInSec =>
      SingleNodeLock.updateSeatMetadataLua showtimeId seatIds userId expiresInSec
  | releaseLock showtimeId seatId userId => SingleNodeLock.releaseLock showtimeId seatId userId
  | releaseExpiredLock entry =>
      SingleNodeLock.releaseExpiredLockLua entry.scheduleId entry.seatId entry.userId entry
  | bookSeat showtimeId seatId userId => SingleNodeLock.bookSeatLua showtimeId seatId userId
  | forceBookSeat entry => do
      SingleNodeLock.forceBookSeatLua entry.scheduleId entry.seatId entry.userId entry
      pure true

/-- Every command but the acquisition script. -/
def NoAcquireScript : Redis.Cmd → Prop
  | .eval (.acquire _ _ _) _ _ _ _ => False
  | _ => True

theorem program_noAcquireScript (o : DeployedOp) : o.program.Issues NoAcquireScript := by
  have hclean : ∀ showtimeId seatId userId entry state,
      (cleanUp showtimeId seatId userId entry state).Issues NoAcquireScript :=
    fun _ _ _ _ _ => issues_cleanUp trivial trivial trivial trivial trivial
  cases o with
  | acquireLock => exact issues_acquireLock trivial trivial trivial trivial
  | acquireDistributedLock => exact issues_acquireLock trivial trivial trivial trivial
  | updateSeatMetadata =>
      exact ⟨trivial, fun _ => issues_updateSeats trivial fun _ _ => trivial⟩
  | releaseLock => exact issues_evalThenCleanUp trivial trivial (hclean _ _ _ _ _)
  | releaseExpiredLock => exact issues_releaseExpired trivial trivial (hclean _ _ _ _ _)
  | bookSeat => exact issues_evalThenCleanUp trivial trivial (hclean _ _ _ _ _)
  | forceBookSeat =>
      exact (issues_forceBook trivial trivial (hclean _ _ _ _ _)).bind fun _ => trivial

/-! ## No context key -/

def NoContext (s : Redis) : Prop :=
  ∀ k, s.seatContext k = none

theorem NoContext.of_eq {s t : Redis} (hs : NoContext s) (h : t.seatContext = s.seatContext) :
    NoContext t :=
  fun k => by rw [h]; exact hs k

theorem NoContext.setBits {s : Redis} {showtimeId seatId : ℤ} {state : SeatState}
    (hs : NoContext s) : NoContext (s.setBits showtimeId seatId state) := by
  unfold Redis.setBits
  split_ifs
  · exact hs
  · exact hs

theorem NoContext.delLock {s : Redis} {showtimeId seatId userId : ℤ} (hs : NoContext s) :
    NoContext (s.delLock showtimeId seatId userId) := by
  intro k
  show (s.seatContext.del _) k = none
  unfold Expiring.del
  split_ifs
  · rfl
  · exact hs k

theorem NoContext.releaseKeys {s : Redis} {showtimeId seatId userId : ℤ} {entry : QueueEntry}
    {state : SeatState} (hs : NoContext s) :
    NoContext (s.releaseKeys showtimeId seatId userId entry state) :=
  NoContext.setBits (NoContext.of_eq hs.delLock rfl)

theorem NoContext.eval {s : Redis} {script : Redis.Script} {showtimeId seatId userId : ℤ}
    {entry : QueueEntry} (hs : NoContext s)
    (hscript : NoAcquireScript (.eval script showtimeId seatId userId entry)) :
    NoContext (Redis.eval script showtimeId seatId userId entry s).1 := by
  cases script with
  | acquire => exact hscript.elim
  | releaseExpired =>
      simp only [Redis.eval]
      split_ifs
      · exact hs.releaseKeys
      · exact hs
  | release =>
      simp only [Redis.eval]
      split_ifs
      · exact hs.releaseKeys
      · exact hs
  | book =>
      simp only [Redis.eval]
      split_ifs
      · exact hs.releaseKeys
      · exact hs
  | forceBook =>
      simp only [Redis.eval]
      refine NoContext.setBits (NoContext.of_eq ?_ rfl)
      split_ifs
      · exact hs.delLock
      · exact hs

/-- No deployed command writes a context key. -/
theorem NoContext.exec {s : Redis} {l : Link} {c : Redis.Cmd} (hs : NoContext s)
    (hc : NoAcquireScript c) : NoContext (Redis.exec l c s).1 := by
  cases c with
  | connect => simpa [Redis.exec] using hs
  | utcNow => exact hs
  | setLockNx showtimeId seatId userId ttlMs =>
      refine Redis.deliver_induction hs ?_
      unfold Redis.setLockNx
      split_ifs
      · split
        · exact hs
        · exact hs
      · exact hs
  | getLock => simpa [Redis.exec] using hs
  | pexpireLock =>
      refine Redis.deliver_induction hs ?_
      unfold Redis.pexpireLock
      split_ifs
      · exact hs
      · exact hs
      · exact hs
  | eval => exact Redis.deliver_induction hs (hs.eval hc)
  | writeMetadata => exact Redis.deliver_induction hs (NoContext.setBits (NoContext.of_eq hs rfl))
  | zaddUser => exact Redis.update_induction hs (NoContext.of_eq hs rfl)
  | zremUser => exact Redis.update_induction hs (NoContext.of_eq hs rfl)
  | zaddRoom => exact Redis.update_induction hs (NoContext.of_eq hs rfl)
  | zremRoom => exact Redis.update_induction hs (NoContext.of_eq hs rfl)
  | zaddQueue => exact Redis.update_induction hs (NoContext.of_eq hs rfl)
  | zremQueue => exact Redis.update_induction hs (NoContext.of_eq hs rfl)
  | dueEntries => simpa [Redis.exec] using hs
  | setBits => exact Redis.update_induction hs hs.setBits
  | existsContext => simpa [Redis.exec] using hs
  | existsCheckout => simpa [Redis.exec] using hs
  | setCheckoutNx =>
      refine Link.deliver_induction hs ?_
      unfold Redis.setCheckoutNx
      split
      · exact hs
      · exact hs
  | getCheckout => simpa [Redis.exec] using hs
  | delCheckout => exact Redis.update_induction hs (NoContext.of_eq hs rfl)
  | adjustAvailable => exact Redis.update_induction hs (NoContext.of_eq hs rfl)
  | publish => exact Redis.update_induction hs (NoContext.of_eq hs rfl)

def contract : Contract Redis Redis.Rep DeployedOp Link where
  inv := NoContext
  rely _ _ _ := True
  guar _ _ _ := True
  allowed _ _ _ _ _ := True
  rely_refl _ _ := trivial
  rely_trans _ _ _ _ _ _ := trivial

theorem noContext_of_reachable {p : Pool Redis Redis.Rep DeployedOp Bool}
    (h : (machine DeployedOp.program).system.Reachable p) : NoContext p.store := by
  have hissues : ∀ (n : DeployedOp) i (c : Redis.Cmd), NoAcquireScript c → ∀ e t u r, NoContext t →
      True → (machine DeployedOp.program).exec n i e c t = some (u, r) →
      contract.Honours n i t u := by
    intro n i c hc e t u r ht _ hex
    have hu : u = (Redis.exec e c t).1 := (congrArg Prod.fst (Option.some.inj hex)).symm
    exact ⟨hu ▸ ht.exec hc, trivial, fun _ _ => trivial⟩
  refine (Machine.ensures_of_reachable (K := contract) (Q := fun _ _ _ _ => True) ?_ ?_ ?_
    (Machine.reachable_guarded (fun _ _ _ _ _ => trivial) h)).1
  · rintro s rfl k
    rfl
  · intro x s t ts hs _ hx
    cases x with
    | tick d =>
        obtain ⟨rfl, rfl⟩ := Prod.mk.inj (Option.some.inj hx)
        exact ⟨hs, fun _ => trivial, fun _ _ _ hq _ => by cases hq⟩
    | start o =>
        obtain ⟨rfl, rfl⟩ := Prod.mk.inj (Option.some.inj hx)
        refine ⟨hs, fun _ => trivial, fun i n q hq _ => ?_⟩
        obtain ⟨rfl, rfl⟩ := Prod.mk.inj (List.mem_singleton.1 hq)
        exact Contract.Ensures.of_issues (hissues n i) (program_noAcquireScript n)
  · exact fun i s hs => ⟨hs, fun _ _ => trivial⟩

theorem hasContext_eq_false {s : Redis} (h : NoContext s) (showtimeId seatId userId : ℤ) :
    s.hasContext showtimeId seatId userId = false := by
  simp [Redis.hasContext, Expiring.lookup, h _]

/-! ## Agreement of the two keys -/

/-- A state reached by an acquisition, in which the lock has an owner. -/
theorem exists_owned :
    ∃ p, (machine DeployedOp.program).system.Reachable p ∧ p.store.lockOwner 1 7 = some 42 := by
  obtain ⟨p, hp, howner⟩ := System.exists_reachable_of_run (machine DeployedOp.program).system
    (fun p => decide (p.store.lockOwner 1 7 = some 42)) (s := ⟨Redis.empty, []⟩) ⟨rfl, rfl⟩
    [.environ (.start (.acquireDistributedLock 1 7 42 300)), .run 0 .ok, .run 0 .ok] (by decide)
  exact ⟨p, hp, of_decide_eq_true howner⟩

end Locks
end Bookit

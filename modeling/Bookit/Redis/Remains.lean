import Bookit.Redis.Effects

/-!
# Redis.Remains — what a user's lock of a seat leaves in Redis

Of a lock there may remain its two keys, the two memberships and the entry of the delayed queue.  Each
of them is there after a command only if it was there before, or the command adds it or acquires the
lock; a script that deletes the lock of its user leaves none of them.
-/

namespace Bookit
namespace Redis

open Lib

/-- The entry of a user and a seat. -/
def ownEntry (seat : ℤ × ℤ) (userId : ℤ) : QueueEntry :=
  { seatId := seat.2, scheduleId := seat.1, userId := userId }

/-- A key, a membership or the entry of the user for the seat. -/
def Remains (s : Redis) (seat : ℤ × ℤ) (userId : ℤ) : Prop :=
  s.lockOwner seat.1 seat.2 = some userId ∨ s.hasContext seat.1 seat.2 userId = true ∨
    (s.userLocks (seat.1, userId)).Mem seat.2 ∨ (s.roomLocks seat.1).Mem (seat.2, userId) ∨
      s.queue.Mem (ownEntry seat userId)

instance {s : Redis} {seat : ℤ × ℤ} {userId : ℤ} : Decidable (s.Remains seat userId) := by
  unfold Remains
  infer_instance

/-- The seats and users for which a command adds keys, memberships or entries. -/
def Cmd.marks : Cmd → List ((ℤ × ℤ) × ℤ)
  | .eval (.acquire ..) showtimeId seatId userId entry =>
      [((showtimeId, seatId), userId), (entry.seat, entry.userId)]
  | .writeMetadata showtimeId seatId userId _ _ entry =>
      [((showtimeId, seatId), userId), (entry.seat, entry.userId)]
  | .zaddUser showtimeId userId seatId _ => [((showtimeId, seatId), userId)]
  | .zaddRoom showtimeId seatId userId _ => [((showtimeId, seatId), userId)]
  | .zaddQueue entry _ => [(entry.seat, entry.userId)]
  | _ => []

/-! ## Commands that add nothing -/

/-- No context, membership or entry is new. -/
structure Shrinks (s t : Redis) : Prop where
  context : ∀ k a u, t.hasContext k a u = true → s.hasContext k a u = true
  user : ∀ k u a, (t.userLocks (k, u)).Mem a → (s.userLocks (k, u)).Mem a
  room : ∀ k x, (t.roomLocks k).Mem x → (s.roomLocks k).Mem x
  queue : ∀ e, t.queue.Mem e → s.queue.Mem e

section Shrinks

variable {s t r : Redis} {k a u : ℤ} {e : QueueEntry} {state : SeatState}

theorem Shrinks.of_eq (hnow : t.now = s.now) (hcontext : t.seatContext = s.seatContext)
    (huser : t.userLocks = s.userLocks) (hroom : t.roomLocks = s.roomLocks)
    (hqueue : t.queue = s.queue) : Shrinks s t := by
  refine ⟨fun k a u h => ?_, fun k u a h => ?_, fun k x h => ?_, fun e h => ?_⟩
  · unfold hasContext at h ⊢
    rwa [hnow, hcontext] at h
  · rwa [huser] at h
  · rwa [hroom] at h
  · rwa [hqueue] at h

theorem Shrinks.trans (h : Shrinks s t) (h' : Shrinks t r) : Shrinks s r :=
  ⟨fun k a u hr => h.context k a u (h'.context k a u hr),
    fun k u a hr => h.user k u a (h'.user k u a hr), fun k x hr => h.room k x (h'.room k x hr),
    fun e hr => h.queue e (h'.queue e hr)⟩

theorem shrinks_refl (s : Redis) : Shrinks s s := .of_eq rfl rfl rfl rfl rfl

theorem shrinks_zremUser : Shrinks s (s.zremUser k u a) := by
  refine ⟨fun _ _ _ h => h, fun k' u' a' h => ?_, fun _ _ h => h, fun _ h => h⟩
  have h : (setAt s.userLocks (k, u) _ (k', u')).Mem a' := h
  by_cases hkey : (k', u') = (k, u)
  · rw [hkey, setAt_self] at h
    rw [hkey]
    exact (SortedSet.mem_rem_iff.1 h).1
  · rwa [setAt_ne hkey] at h

theorem shrinks_zremRoom : Shrinks s (s.zremRoom k a u) := by
  refine ⟨fun _ _ _ h => h, fun _ _ _ h => h, fun k' x h => ?_, fun _ h => h⟩
  have h : (setAt s.roomLocks k _ k').Mem x := h
  by_cases hkey : k' = k
  · rw [hkey, setAt_self] at h
    rw [hkey]
    exact (SortedSet.mem_rem_iff.1 h).1
  · rwa [setAt_ne hkey] at h

theorem shrinks_zremQueue : Shrinks s (s.zremQueue e) :=
  ⟨fun _ _ _ h => h, fun _ _ _ h => h, fun _ _ h => h, fun _ h => (SortedSet.mem_rem_iff.1 h).1⟩

theorem shrinks_delLock : Shrinks s (s.delLock k a u) := by
  refine ⟨fun k' a' u' h => ?_, fun _ _ _ h => h, fun _ _ h => h, fun _ h => h⟩
  have h : ((s.seatContext.del (k, a, u)).lookup s.now (k', a', u')).isSome = true := h
  by_cases hkey : (k', a', u') = (k, a, u)
  · rw [hkey, Expiring.lookup_del_self] at h
    cases h
  · rwa [Expiring.lookup_del_ne hkey] at h

theorem setBits_seatContext : (s.setBits k a state).seatContext = s.seatContext := by
  unfold setBits
  split_ifs <;> rfl

theorem shrinks_setBits : Shrinks s (s.setBits k a state) :=
  .of_eq (setBits_now ..) setBits_seatContext setBits_userLocks setBits_roomLocks setBits_queue

/-- What the scripts delete of a lock, whether they found it free or not. -/
theorem shrinks_cleared (h : Shrinks s t) :
    Shrinks s ((((t.zremUser k u a).zremRoom k a u).zremQueue e).setBits k a state) :=
  (((h.trans shrinks_zremUser).trans shrinks_zremRoom).trans shrinks_zremQueue).trans shrinks_setBits

theorem shrinks_eval {script : Script} (h : script.Deletes) :
    Shrinks s (Redis.eval script k a u e s).1 := by
  by_cases hacts : script.Acts k a u s
  · cases script with
    | acquire => exact absurd h id
    | forceBook =>
        unfold Redis.eval
        dsimp only
        split_ifs
        · exact shrinks_cleared shrinks_delLock
        · exact shrinks_cleared (shrinks_refl s)
    | releaseExpired | release | book =>
        have hacts : s.freeOrOwnedBy k a u = true := hacts
        unfold Redis.eval
        dsimp only
        rw [if_pos hacts]
        exact shrinks_cleared shrinks_delLock
  · rcases eval_refused hacts with heq | ⟨-, heq⟩
    · rw [heq]
      exact shrinks_refl s
    · rw [heq]
      exact shrinks_zremQueue

theorem shrinks_effect {c : Cmd} (h : c.marks = []) : Shrinks s (c.effect s) := by
  cases c with
  | eval script =>
      cases script with
      | acquire => cases h
      | _ => exact shrinks_eval trivial
  | writeMetadata | zaddUser | zaddRoom | zaddQueue => cases h
  | zremUser => exact shrinks_zremUser
  | zremRoom => exact shrinks_zremRoom
  | zremQueue => exact shrinks_zremQueue
  | setBits => exact shrinks_setBits
  | setLockNx k a u ttlMs =>
      show Shrinks s (Redis.setLockNx k a u ttlMs s).1
      unfold Redis.setLockNx
      split_ifs
      · split
        · exact shrinks_refl s
        · exact .of_eq rfl rfl rfl rfl rfl
      · exact shrinks_refl s
  | pexpireLock k a ttlMs =>
      show Shrinks s (Redis.pexpireLock k a ttlMs s).1
      unfold Redis.pexpireLock
      split_ifs <;> exact .of_eq rfl rfl rfl rfl rfl
  | setCheckoutNx k a owner ttlSec =>
      show Shrinks s (Redis.setCheckoutNx k a owner ttlSec s).1
      unfold Redis.setCheckoutNx
      split <;> exact .of_eq rfl rfl rfl rfl rfl
  | _ => exact .of_eq rfl rfl rfl rfl rfl

end Shrinks

/-! ## What remains after a command -/

section Remains

variable {s : Redis} {c : Cmd} {seat : ℤ × ℤ} {userId : ℤ}

/-- A context is there after a command only if it was before, or the command sets it. -/
theorem effect_hasContext (h : (c.effect s).hasContext seat.1 seat.2 userId = true)
    (hmarks : (seat, userId) ∉ c.marks) : s.hasContext seat.1 seat.2 userId = true := by
  by_cases hnone : c.marks = []
  · exact (shrinks_effect hnone).context _ _ _ h
  · have hkept : ∀ t : Redis, t.now = s.now → t.seatContext = s.seatContext →
        t.hasContext seat.1 seat.2 userId = true → s.hasContext seat.1 seat.2 userId = true := by
      intro t hnow hcontext ht
      unfold hasContext at ht ⊢
      rwa [hnow, hcontext] at ht
    cases c with
    | eval script k a u entry =>
        cases script with
        | acquire ttlMs expiry processingExpiry =>
            by_cases hacts : (Script.acquire ttlMs expiry processingExpiry).Acts k a u s
            · have hne : (seat.1, seat.2, userId) ≠ (k, a, u) := by
                intro heq
                simp only [Prod.mk.injEq] at heq
                obtain ⟨hk, ha, rfl⟩ := heq
                refine hmarks (List.mem_cons.2 (.inl ?_))
                rw [← hk, ← ha]
              have h : (Redis.eval (.acquire ttlMs expiry processingExpiry) k a u entry
                s).1.hasContext seat.1 seat.2 userId = true := h
              unfold Redis.eval at h
              dsimp only at h
              rw [if_pos hacts.1, if_pos hacts.2] at h
              unfold hasContext at h ⊢
              rw [setBits_now, setBits_seatContext] at h
              have h : ((s.seatContext.put (k, a, u) () (s.now + ttlMs)).lookup s.now
                (seat.1, seat.2, userId)).isSome = true := h
              rwa [Expiring.lookup_put_ne hne] at h
            · rcases eval_refused hacts with heq | ⟨hscript, -⟩
              · have h : (Redis.eval (.acquire ttlMs expiry processingExpiry) k a u entry
                  s).1.hasContext seat.1 seat.2 userId = true := h
                rwa [heq] at h
              · cases hscript
        | _ => exact absurd rfl hnone
    | writeMetadata k a u expiry processingExpiry entry =>
        refine hkept (Redis.writeMetadata k a u expiry processingExpiry entry s).1 ?_ ?_ h
        · exact setBits_now ..
        · exact setBits_seatContext
    | zaddUser | zaddRoom | zaddQueue => exact hkept _ rfl rfl h
    | _ => exact absurd rfl hnone

theorem member_of_marks {k a u : ℤ} (h : c.member = some (k, a, u)) (hmarks : c.marks ≠ []) :
    ((k, a), u) ∈ c.marks := by
  cases c with
  | eval script =>
      cases script with
      | acquire =>
          simp only [Cmd.member, Option.some.injEq, Prod.mk.injEq] at h
          obtain ⟨rfl, rfl, rfl⟩ := h
          exact List.mem_cons_self
      | _ => exact absurd rfl hmarks
  | writeMetadata | zaddUser | zaddRoom =>
      simp only [Cmd.member, Option.some.injEq, Prod.mk.injEq] at h
      obtain ⟨rfl, rfl, rfl⟩ := h
      exact List.mem_cons_self
  | zaddQueue => cases h
  | _ => exact absurd rfl hmarks

/-- Memberships are there after a command only if they were before, or the command adds them. -/
theorem effect_memberships (hmarks : (seat, userId) ∉ c.marks) :
    (((c.effect s).userLocks (seat.1, userId)).Mem seat.2 →
      (s.userLocks (seat.1, userId)).Mem seat.2) ∧
    (((c.effect s).roomLocks seat.1).Mem (seat.2, userId) →
      (s.roomLocks seat.1).Mem (seat.2, userId)) := by
  by_cases hnone : c.marks = []
  · exact ⟨(shrinks_effect hnone).user _ _ _, (shrinks_effect hnone).room _ _⟩
  · have hsame : SameMembers seat.1 seat.2 userId s (c.effect s) :=
      effect_members fun hmember => hmarks (member_of_marks hmember hnone)
    exact ⟨hsame.user.1, hsame.room.1⟩

/-- An entry is in the queue after a command only if it was before, or the command adds it. -/
theorem effect_entry {e : QueueEntry} (h : (c.effect s).queue.Mem e)
    (hmarks : (e.seat, e.userId) ∉ c.marks) : s.queue.Mem e := by
  by_cases hnone : c.marks = []
  · exact (shrinks_effect hnone).queue e h
  · have hadd : ∀ {entry : QueueEntry} {score : ℤ}, (s.queue.add entry score).Mem e →
        (entry.seat, entry.userId) ∈ c.marks → s.queue.Mem e := by
      intro entry score hmem hin
      rcases SortedSet.mem_add_iff.1 hmem with rfl | hold
      · exact absurd hin hmarks
      · exact hold
    cases c with
    | eval script k a u entry =>
        cases script with
        | acquire ttlMs expiry processingExpiry =>
            have h : (Redis.eval (.acquire ttlMs expiry processingExpiry) k a u entry
              s).1.queue.Mem e := h
            by_cases hacts : (Script.acquire ttlMs expiry processingExpiry).Acts k a u s
            · unfold Redis.eval at h
              dsimp only at h
              rw [if_pos hacts.1, if_pos hacts.2, setBits_queue] at h
              exact hadd h (List.mem_cons_of_mem _ (List.mem_singleton_self _))
            · rcases eval_refused hacts with heq | ⟨hscript, -⟩
              · rwa [heq] at h
              · cases hscript
        | _ => exact absurd rfl hnone
    | writeMetadata k a u expiry processingExpiry entry =>
        have h : (Redis.writeMetadata k a u expiry processingExpiry entry s).1.queue.Mem e := h
        unfold Redis.writeMetadata at h
        rw [setBits_queue] at h
        exact hadd h (List.mem_cons_of_mem _ (List.mem_singleton_self _))
    | zaddUser | zaddRoom => exact h
    | zaddQueue entry score => exact hadd h (List.mem_singleton_self _)
    | _ => exact absurd rfl hnone

theorem effect_remains (h : (c.effect s).Remains seat userId) (hmarks : (seat, userId) ∉ c.marks) :
    s.Remains seat userId ∨ ∃ ttlMs, c.acquires s = some (seat, userId, ttlMs) := by
  rcases h with hlock | hcontext | huser | hroom | hentry
  · exact (effect_lockOwner hlock).imp .inl id
  · exact .inl (.inr (.inl (effect_hasContext hcontext hmarks)))
  · exact .inl (.inr (.inr (.inl ((effect_memberships hmarks).1 huser))))
  · exact .inl (.inr (.inr (.inr (.inl ((effect_memberships hmarks).2 hroom)))))
  · exact .inl (.inr (.inr (.inr (.inr (effect_entry hentry hmarks)))))

theorem remains_tick {d : ℕ} (h : ({ s with now := s.now + d } : Redis).Remains seat userId) :
    s.Remains seat userId := by
  rcases h with hlock | hcontext | hrest
  · exact .inl (Expiring.lookup_of_later (Nat.le_add_right s.now d) hlock)
  · obtain ⟨v, hv⟩ := Option.isSome_iff_exists.1 hcontext
    exact .inr (.inl (Option.isSome_iff_exists.2
      ⟨v, Expiring.lookup_of_later (Nat.le_add_right s.now d) hv⟩))
  · exact .inr (.inr hrest)

/-! ## Scripts that delete a lock -/

/-- The seat and the user whose lock a script deletes together with the user's entry. -/
def Cmd.frees (c : Cmd) (s : Redis) : Option ((ℤ × ℤ) × ℤ) :=
  match c with
  | .eval script showtimeId seatId userId entry =>
      if script.Deletes ∧ s.freeOrOwnedBy showtimeId seatId userId = true ∧
          entry = ownEntry (showtimeId, seatId) userId then
        some ((showtimeId, seatId), userId)
      else
        none
  | _ => none

theorem not_remains_releaseKeys {k a u : ℤ} {state : SeatState} :
    ¬(s.releaseKeys k a u (ownEntry (k, a) u) state).Remains (k, a) u := by
  rintro (hlock | hcontext | huser | hroom | hentry)
  · have hlock : (s.releaseKeys k a u (ownEntry (k, a) u) state).seatLock.lookup
      (s.releaseKeys k a u (ownEntry (k, a) u) state).now (k, a) = some u := hlock
    rw [releaseKeys_now, releaseKeys_seatLock, Expiring.lookup_del_self] at hlock
    cases hlock
  · unfold hasContext releaseKeys at hcontext
    rw [setBits_now, setBits_seatContext] at hcontext
    have hcontext : ((s.seatContext.del (k, a, u)).lookup s.now (k, a, u)).isSome = true := hcontext
    rw [Expiring.lookup_del_self] at hcontext
    cases hcontext
  · unfold releaseKeys at huser
    rw [setBits_userLocks] at huser
    have huser : (setAt s.userLocks (k, u) _ (k, u)).Mem a := huser
    rw [setAt_self] at huser
    exact (SortedSet.mem_rem_iff.1 huser).2 rfl
  · unfold releaseKeys at hroom
    rw [setBits_roomLocks] at hroom
    have hroom : (setAt s.roomLocks k _ k).Mem (a, u) := hroom
    rw [setAt_self] at hroom
    exact (SortedSet.mem_rem_iff.1 hroom).2 rfl
  · unfold releaseKeys at hentry
    rw [setBits_queue] at hentry
    exact (SortedSet.mem_rem_iff.1 hentry).2 rfl

/-- Nothing remains of a lock that a script deletes, and the field does not say locked. -/
theorem not_remains_of_frees (h : c.frees s = some (seat, userId)) :
    ¬(c.effect s).Remains seat userId ∧
      (0 ≤ seat.2 → (c.effect s).bitmap seat ≠ .locked) := by
  cases c with
  | eval script k a u entry =>
      simp only [Cmd.frees] at h
      split_ifs at h with hcond
      obtain ⟨rfl, rfl⟩ := Prod.mk.inj (Option.some.inj h)
      obtain ⟨hdel, hfree, rfl⟩ := hcond
      have heval : ∃ state, state ≠ .locked ∧
          (Redis.eval script k a u (ownEntry (k, a) u) s).1 =
            s.releaseKeys k a u (ownEntry (k, a) u) state := by
        cases script with
        | acquire => exact absurd hdel id
        | releaseExpired | release =>
            refine ⟨.available, by decide, ?_⟩
            unfold Redis.eval
            dsimp only
            rw [if_pos hfree]
        | book =>
            refine ⟨.booked, by decide, ?_⟩
            unfold Redis.eval
            dsimp only
            rw [if_pos hfree]
        | forceBook =>
            refine ⟨.booked, by decide, ?_⟩
            unfold Redis.eval
            dsimp only
            rw [if_pos hfree]
            rfl
      obtain ⟨state, hstate, heq⟩ := heval
      show ¬(Redis.eval script k a u (ownEntry (k, a) u) s).1.Remains (k, a) u ∧
        (0 ≤ a → (Redis.eval script k a u (ownEntry (k, a) u) s).1.bitmap (k, a) ≠ .locked)
      rw [heq]
      refine ⟨not_remains_releaseKeys, fun hpos => ?_⟩
      unfold releaseKeys
      rw [setBits_bitmap, if_neg (not_lt.2 hpos), setAt_self]
      exact hstate
  | _ => cases h

end Remains

end Redis
end Bookit

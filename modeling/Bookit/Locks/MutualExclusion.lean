import Bookit.Redis.SingleNodeLock
import Mathlib.Order.Nat

/-!
# Locks.MutualExclusion — who holds a seat, and for how long

An acquisition that returns `true` is a grant: the seat belongs to the user until the requested time
has passed or the user releases it.  The grants of a run are a history variable.  `SET NX` keeps the
grants of different users apart; the extension branch does so only where its `PEXPIRE` finds the
lock still live, still the caller's, and not shortened, since `GET` and `PEXPIRE` are two commands.
-/

namespace Bookit
namespace Locks

open Lib SingleNodeLock

/-! ## Calls and grants -/

inductive LockCall where
  | acquire (showtimeId seatId userId : ℤ) (ttlMs : ℕ)
  | release (showtimeId seatId userId : ℤ)
  deriving DecidableEq

def LockCall.program : LockCall → Op Bool
  | acquire showtimeId seatId userId ttlMs => acquireLock showtimeId seatId userId ttlMs
  | release showtimeId seatId userId => releaseLock showtimeId seatId userId

abbrev LockPool := Pool Redis Redis.Rep LockCall Bool

structure Grant where
  showtimeId : ℤ
  seatId : ℤ
  userId : ℤ
  grantedAt : ℕ
  endsAt : ℕ
  deriving DecidableEq

/-- The seat a grant is for. -/
def Grant.seat (g : Grant) : ℤ × ℤ := (g.showtimeId, g.seatId)

/-- A release by the user ends a grant. -/
def Grant.releasedAt (g : Grant) (now : ℕ) : Option (ℤ × ℤ × ℤ) → Grant
  | some r => if r = (g.showtimeId, g.seatId, g.userId) then { g with endsAt := min g.endsAt now } else g
  | none => g

/-- The seat and user whose release script thread `t` is about to run on a link. -/
def releasing (l : Link) : Option (Thread Redis.Rep LockCall Bool) → Option (ℤ × ℤ × ℤ)
  | some ⟨_, some (.call (.eval .release showtimeId seatId userId _) _)⟩ =>
      if l = .lost then none else some (showtimeId, seatId, userId)
  | _ => none

/-- The grant of an acquisition that has just returned `true`. -/
def granting (now : ℕ) : Option (Thread Redis.Rep LockCall Bool) → Option Grant
  | some ⟨.acquire showtimeId seatId userId ttlMs, some (.ret true)⟩ =>
      some ⟨showtimeId, seatId, userId, now, now + ttlMs⟩
  | _ => none

/-- The grants after a step: those the step released are cut short, a new one is added. -/
def record (p : LockPool) (a : Act Link (Environ LockCall)) (q : LockPool) (h : List Grant) :
    List Grant :=
  match a with
  | .run i l =>
      h.map (·.releasedAt p.store.now (releasing l p.threads[i]?)) ++
        (granting p.store.now q.threads[i]?).toList
  | _ => h

/-- The operations of the lock with the history of its grants. -/
def granted : System (LockPool × List Grant) (Act Link (Environ LockCall)) :=
  (machine LockCall.program).system.withHistory [] record

/-! ## The condition on extensions -/

/-- The lock of the seat is live and the user's, and `ttlMs` from now does not shorten it. -/
def ExtendsOwn (s : Redis) (showtimeId seatId userId : ℤ) (ttlMs : ℕ) : Prop :=
  match s.seatLock (showtimeId, seatId) with
  | some (owner, deadline) =>
      owner = userId ∧ s.now ≤ deadline ∧ deadline ≤ s.now + ttlMs ∧ s.now + ttlMs ≤ Redis.maxExpiry
  | none => False

instance {s : Redis} {showtimeId seatId userId : ℤ} {ttlMs : ℕ} :
    Decidable (ExtendsOwn s showtimeId seatId userId ttlMs) := by
  unfold ExtendsOwn
  split <;> infer_instance

/-- A `PEXPIRE` of an acquisition reaches the node and extends the caller's own lock. -/
def SoundExtension (n : LockCall) (_ : ℕ) (l : Link) (c : Redis.Cmd) (s : Redis) : Prop :=
  match n, c with
  | .acquire showtimeId seatId userId ttlMs, .pexpireLock _ _ _ =>
      l ≠ .lost ∧ ExtendsOwn s showtimeId seatId userId ttlMs
  | _, _ => True

instance {n : LockCall} {i : ℕ} {l : Link} {c : Redis.Cmd} {s : Redis} :
    Decidable (SoundExtension n i l c s) := by
  unfold SoundExtension
  split <;> infer_instance

/-- Runs all of whose extensions are sound. -/
def SoundRun (p : LockPool × List Grant) (a : Act Link (Environ LockCall)) : Prop :=
  Machine.Guarded SoundExtension (fun _ _ => True) p.1 a

instance {p : LockPool × List Grant} {a : Act Link (Environ LockCall)} :
    Decidable (SoundRun p a) :=
  inferInstanceAs (Decidable (Machine.Guarded _ _ p.1 a))

/-! ## What a step does to the lock keys -/

/-- The effect of a step on the lock keys, with the release it records and the grant it makes. -/
inductive LockEffect (s t : Redis) : Option (ℤ × ℤ × ℤ) → Option Grant → Prop where
  /-- No lock key is written. -/
  | quiet {r : Option (ℤ × ℤ × ℤ)} (hnow : s.now ≤ t.now) (hlock : t.seatLock = s.seatLock) :
      LockEffect s t r none
  /-- `SET NX` on a free seat; the grant is made if the answer arrives. -/
  | set {showtimeId seatId userId : ℤ} {ttlMs : ℕ} {g : Option Grant}
      (hnow : t.now = s.now) (hfree : s.lockOwner showtimeId seatId = none)
      (hlock : t.seatLock = s.seatLock.put (showtimeId, seatId) userId (s.now + ttlMs))
      (hg : ∀ g', g = some g' → g' = ⟨showtimeId, seatId, userId, s.now, s.now + ttlMs⟩) :
      LockEffect s t none g
  /-- `PEXPIRE` on the caller's own live lock. -/
  | extend {showtimeId seatId userId : ℤ} {ttlMs : ℕ} (hnow : t.now = s.now)
      (hown : ExtendsOwn s showtimeId seatId userId ttlMs)
      (hkey : 0 < ttlMs → t.seatLock (showtimeId, seatId) = some (userId, s.now + ttlMs))
      (hothers : ∀ k, k ≠ (showtimeId, seatId) → t.seatLock k = s.seatLock k) :
      LockEffect s t none (some ⟨showtimeId, seatId, userId, s.now, s.now + ttlMs⟩)
  /-- The release script on a lock that is free or the user's. -/
  | release {showtimeId seatId userId : ℤ} (hnow : t.now = s.now)
      (hown : s.freeOrOwnedBy showtimeId seatId userId = true)
      (hlock : t.seatLock = s.seatLock.del (showtimeId, seatId)) :
      LockEffect s t (some (showtimeId, seatId, userId)) none

/-! ## The invariant -/

/-- While a grant runs, the lock key of its seat is the user's, and lives at least as long. -/
def Covered (s : Redis) (g : Grant) : Prop :=
  s.now < g.endsAt → ∃ deadline, s.seatLock g.seat = some (g.userId, deadline) ∧ g.endsAt ≤ deadline

theorem Covered.owner {s : Redis} {g : Grant} (h : Covered s g) (hrun : s.now < g.endsAt) :
    s.lockOwner g.showtimeId g.seatId = some g.userId := by
  obtain ⟨d, hd, hle⟩ := h hrun
  exact Expiring.lookup_eq_some_iff.2 ⟨d, hd, by omega⟩

/-- Grants of one seat to different users do not overlap. -/
def Apart (g g' : Grant) : Prop :=
  g.seat = g'.seat → g.userId ≠ g'.userId → g.endsAt ≤ g'.grantedAt

@[simp] theorem releasedAt_seat (g : Grant) (now : ℕ) (r : Option (ℤ × ℤ × ℤ)) :
    (g.releasedAt now r).seat = g.seat := by
  unfold Grant.releasedAt
  split
  · split_ifs <;> rfl
  · rfl

@[simp] theorem releasedAt_userId (g : Grant) (now : ℕ) (r : Option (ℤ × ℤ × ℤ)) :
    (g.releasedAt now r).userId = g.userId := by
  unfold Grant.releasedAt
  split
  · split_ifs <;> rfl
  · rfl

@[simp] theorem releasedAt_grantedAt (g : Grant) (now : ℕ) (r : Option (ℤ × ℤ × ℤ)) :
    (g.releasedAt now r).grantedAt = g.grantedAt := by
  unfold Grant.releasedAt
  split
  · split_ifs <;> rfl
  · rfl

theorem releasedAt_endsAt_le (g : Grant) (now : ℕ) (r : Option (ℤ × ℤ × ℤ)) :
    (g.releasedAt now r).endsAt ≤ g.endsAt := by
  unfold Grant.releasedAt
  split
  · split_ifs
    · exact min_le_left _ _
    · exact le_refl _
  · exact le_refl _

theorem Apart.releasedAt {g g' : Grant} (h : Apart g g') (now : ℕ) (r : Option (ℤ × ℤ × ℤ)) :
    Apart (g.releasedAt now r) (g'.releasedAt now r) := by
  intro hseat huser
  simp only [releasedAt_seat, releasedAt_userId, releasedAt_grantedAt] at *
  exact (releasedAt_endsAt_le g now r).trans (h hseat huser)

/-- A step covers the grants it does not end. -/
theorem LockEffect.covered {s t : Redis} {r : Option (ℤ × ℤ × ℤ)} {g' : Option Grant}
    (h : LockEffect s t r g') {g : Grant} (hg : Covered s g) :
    Covered t (g.releasedAt s.now r) := by
  intro hrun
  have hrun' : t.now < g.endsAt := hrun.trans_le (releasedAt_endsAt_le g s.now r)
  have hgoal : ∀ d, t.seatLock g.seat = some (g.userId, d) → g.endsAt ≤ d →
      ∃ d, t.seatLock (g.releasedAt s.now r).seat = some ((g.releasedAt s.now r).userId, d) ∧
        (g.releasedAt s.now r).endsAt ≤ d := by
    intro d hd hle
    refine ⟨d, by simpa using hd, (releasedAt_endsAt_le g s.now r).trans hle⟩
  cases h with
  | quiet hnow hlock =>
      obtain ⟨d, hd, hle⟩ := hg (by omega)
      exact hgoal d (by rw [hlock]; exact hd) hle
  | @set showtimeId seatId userId ttlMs _ hnow hfree hlock _ =>
      have howner := hg.owner (by omega)
      obtain ⟨d, hd, hle⟩ := hg (by omega)
      -- a covered seat is not free, so the key that was set is another one
      have hne : g.seat ≠ (showtimeId, seatId) := by
        rintro heq
        obtain ⟨rfl, rfl⟩ := Prod.mk.inj heq
        rw [hfree] at howner
        cases howner
      exact hgoal d (by rw [hlock, Expiring.put_ne hne]; exact hd) hle
  | @extend showtimeId seatId userId ttlMs hnow hown hkey hothers =>
      obtain ⟨d, hd, hle⟩ := hg (by omega)
      rcases eq_or_ne g.seat (showtimeId, seatId) with heq | hne
      · unfold ExtendsOwn at hown
        rw [← heq, hd] at hown
        obtain ⟨huser, -, hlonger, -⟩ := hown
        refine hgoal (s.now + ttlMs) ?_ (hle.trans hlonger)
        rw [heq, huser]
        exact hkey (by omega)
      · exact hgoal d (by rw [hothers g.seat hne]; exact hd) hle
  | @release showtimeId seatId userId hnow hown hlock =>
      have howner := hg.owner (by omega)
      obtain ⟨d, hd, hle⟩ := hg (by omega)
      rcases eq_or_ne g.seat (showtimeId, seatId) with heq | hne
      · obtain ⟨rfl, rfl⟩ := Prod.mk.inj heq
        -- only the owner's release passes the script, and it ends the grant
        have huser : g.userId = userId := by
          rw [Redis.freeOrOwnedBy, howner] at hown
          exact of_decide_eq_true hown
        exfalso
        simp only [Grant.releasedAt, ← huser, if_true] at hrun
        omega
      · exact hgoal d (by rw [hlock, Expiring.del_ne hne]; exact hd) hle

/-- The grant a step makes is covered, and apart from all earlier ones. -/
theorem LockEffect.granted {s t : Redis} {r : Option (ℤ × ℤ × ℤ)} {g' : Grant}
    (h : LockEffect s t r (some g')) :
    Covered t g' ∧ ∀ g, Covered s g → Apart (g.releasedAt s.now r) g' := by
  cases h with
  | @set showtimeId seatId userId ttlMs _ hnow hfree hlock hg =>
      obtain rfl := hg g' rfl
      refine ⟨fun _ => ⟨s.now + ttlMs, by rw [hlock]; exact Expiring.put_self, le_refl _⟩, ?_⟩
      intro g hcov hseat _
      by_contra hlt
      have howner := hcov.owner (by simpa [Grant.releasedAt] using hlt)
      obtain ⟨rfl, rfl⟩ := Prod.mk.inj (show (g.showtimeId, g.seatId) = (showtimeId, seatId) from hseat)
      rw [hfree] at howner
      cases howner
  | @extend showtimeId seatId userId ttlMs hnow hown hkey _ =>
      refine ⟨fun hrun => ⟨s.now + ttlMs, hkey ?_, le_refl _⟩, ?_⟩
      · simp only [hnow] at hrun
        omega
      intro g hcov hseat huser
      by_contra hlt
      obtain ⟨d, hd, -⟩ := hcov (by simpa [Grant.releasedAt] using hlt)
      unfold ExtendsOwn at hown
      rw [show g.seat = (showtimeId, seatId) from hseat] at hd
      rw [hd] at hown
      exact huser hown.1

/-! ## What the operations can do -/

/-- The commands of a release: its script, and a clean-up that leaves the lock keys alone. -/
def ReleaseCmd (showtimeId seatId userId : ℤ) : Redis.Cmd → Prop
  | .connect | .zremUser .. | .zremRoom .. | .zremQueue _ | .setBits .. => True
  | .eval .release showtimeId' seatId' userId' _ =>
      showtimeId' = showtimeId ∧ seatId' = seatId ∧ userId' = userId
  | _ => False

/-- What can be left of the program of a call. -/
def Stage : LockCall → Op Bool → Prop
  | .acquire showtimeId seatId userId ttlMs, q =>
      q = acquireLock showtimeId seatId userId ttlMs ∨
      q = setOrExtendLock showtimeId seatId userId ttlMs ∨
      q = extendLock showtimeId seatId userId ttlMs ∨
      q = .call (.pexpireLock showtimeId seatId ttlMs) (fun _ => .ret true) ∨
      ∃ b, q = .ret b
  | .release showtimeId seatId userId, q => q.Issues (ReleaseCmd showtimeId seatId userId)

theorem stage_program (n : LockCall) : Stage n n.program := by
  cases n with
  | acquire => exact .inl rfl
  | release =>
      exact issues_evalThenCleanUp trivial ⟨rfl, rfl, rfl⟩
        (issues_cleanUp trivial trivial trivial trivial trivial)

/-- A thread after one command. -/
abbrev threadOf (n : LockCall) (q : Op Bool) : Option (Thread Redis.Rep LockCall Bool) :=
  some ⟨n, some q⟩

section Acquire

variable {showtimeId seatId userId : ℤ} {ttlMs i : ℕ} {l : Link} {s t : Redis}

/-- The rest of a call after one command, and what the command did to the lock keys. -/
def StepTo (n : LockCall) (s t : Redis) (released : Option (ℤ × ℤ × ℤ)) (q : Op Bool) : Prop :=
  Stage n q ∧ LockEffect s t released (granting s.now (threadOf n q))

theorem stepTo_setLockNx {r : Option Bool}
    (hex : Redis.exec l (.setLockNx showtimeId seatId userId ttlMs) s = (t, r)) :
    StepTo (.acquire showtimeId seatId userId ttlMs) s t none
      (if r = some true then .ret true else extendLock showtimeId seatId userId ttlMs) := by
  rcases Redis.setLockNx_cases hex with ⟨rfl, hr⟩ | ⟨hfree, rfl⟩
  · rw [if_neg hr]
    exact ⟨.inr (.inr (.inl rfl)), .quiet (le_refl _) rfl⟩
  · split_ifs
    · refine ⟨.inr (.inr (.inr (.inr ⟨true, rfl⟩))), .set rfl hfree rfl (fun g' h => ?_)⟩
      exact (Option.some.inj h).symm
    · -- the key is set, but the answer is lost
      exact ⟨.inr (.inr (.inl rfl)), .set rfl hfree rfl (fun g' h => by cases h)⟩

theorem stepTo_pexpireLock {r : Option Unit} (hlink : l ≠ .lost)
    (hown : ExtendsOwn s showtimeId seatId userId ttlMs)
    (hex : Redis.exec l (.pexpireLock showtimeId seatId ttlMs) s = (t, r)) :
    StepTo (.acquire showtimeId seatId userId ttlMs) s t none (.ret true) := by
  have hrun : (Redis.pexpireLock showtimeId seatId ttlMs s).1 = t := by
    obtain ⟨ht, -⟩ := Prod.mk.inj hex
    cases l with
    | ok => exact ht
    | lost => exact absurd rfl hlink
    | unacked => exact ht
  have hown' := hown
  unfold ExtendsOwn at hown'
  split at hown'
  · next owner deadline hlock =>
    obtain ⟨rfl, hlive, hlonger, hmax⟩ := hown'
    have howner : s.seatLock.lookup s.now (showtimeId, seatId) = some owner :=
      Expiring.lookup_eq_some_iff.2 ⟨deadline, hlock, hlive⟩
    refine ⟨.inr (.inr (.inr (.inr ⟨true, rfl⟩))), ?_⟩
    unfold Redis.pexpireLock at hrun
    split_ifs at hrun with hzero
    · subst hrun
      exact .extend rfl hown (fun hpos => absurd hzero (by omega))
        (fun k hk => Expiring.del_ne hk)
    · subst hrun
      refine .extend rfl hown (fun _ => ?_) (fun k hk => Expiring.touch_ne hk)
      simp only [Expiring.touch_of_live howner, Expiring.put_self]
  · exact hown'.elim

/-- One command of an acquisition. -/
theorem stepTo_acquire {c : Redis.Cmd} {k : Redis.Rep c → Op Bool} {r : Redis.Rep c}
    (hq : Stage (.acquire showtimeId seatId userId ttlMs) (.call c k))
    (hallowed : SoundExtension (.acquire showtimeId seatId userId ttlMs) i l c s)
    (hex : Redis.exec l c s = (t, r)) :
    StepTo (.acquire showtimeId seatId userId ttlMs) s t
      (releasing l (threadOf (.acquire showtimeId seatId userId ttlMs) (.call c k))) (k r) := by
  rcases hq with hq | hq | hq | hq | ⟨b, hq⟩
  · -- taking a connection
    obtain ⟨rfl, hk⟩ := Prog.call.inj hq
    cases eq_of_heq hk
    have hst : t = s := (congrArg Prod.fst hex).symm.trans Redis.read_fst
    subst hst
    match r with
    | none => exact ⟨.inr (.inr (.inr (.inr ⟨false, rfl⟩))), .quiet (le_refl _) rfl⟩
    | some () => exact ⟨.inr (.inl rfl), .quiet (le_refl _) rfl⟩
  · obtain ⟨rfl, hk⟩ := Prog.call.inj hq
    cases eq_of_heq hk
    exact stepTo_setLockNx hex
  · obtain ⟨rfl, hk⟩ := Prog.call.inj hq
    cases eq_of_heq hk
    have hst : t = s := (congrArg Prod.fst hex).symm.trans Redis.read_fst
    subst hst
    show StepTo _ t t none (if r.join = some userId then _ else .ret false)
    split_ifs
    · exact ⟨.inr (.inr (.inr (.inl rfl))), .quiet (le_refl _) rfl⟩
    · exact ⟨.inr (.inr (.inr (.inr ⟨false, rfl⟩))), .quiet (le_refl _) rfl⟩
  · obtain ⟨rfl, hk⟩ := Prog.call.inj hq
    cases eq_of_heq hk
    exact stepTo_pexpireLock hallowed.1 hallowed.2 hex
  · cases hq

end Acquire

/-- One command of a release. -/
theorem stepTo_release {showtimeId seatId userId : ℤ} {l : Link} {s t : Redis} {c : Redis.Cmd}
    {k : Redis.Rep c → Op Bool} {r : Redis.Rep c}
    (hq : Stage (.release showtimeId seatId userId) (.call c k)) (hex : Redis.exec l c s = (t, r)) :
    StepTo (.release showtimeId seatId userId) s t
      (releasing l (threadOf (.release showtimeId seatId userId) (.call c k))) (k r) := by
  refine ⟨hq.2 r, ?_⟩
  have hquiet : ∀ rel, t.now = s.now → t.seatLock = s.seatLock → LockEffect s t rel none :=
    fun _ hnow hlock => .quiet (le_of_eq hnow.symm) hlock
  cases c with
  | connect =>
      have hst : t = s := (congrArg Prod.fst hex).symm.trans Redis.read_fst
      exact hst ▸ .quiet (le_refl _) rfl
  | zremUser =>
      rcases Redis.update_cases hex with rfl | rfl
      · exact .quiet (le_refl _) rfl
      · exact .quiet (le_refl _) rfl
  | zremRoom =>
      rcases Redis.update_cases hex with rfl | rfl
      · exact .quiet (le_refl _) rfl
      · exact .quiet (le_refl _) rfl
  | zremQueue =>
      rcases Redis.update_cases hex with rfl | rfl
      · exact .quiet (le_refl _) rfl
      · exact .quiet (le_refl _) rfl
  | setBits =>
      rcases Redis.update_cases hex with rfl | rfl
      · exact .quiet (le_refl _) rfl
      · exact hquiet _ (Redis.setBits_now ..) (Redis.setBits_seatLock ..)
  | eval script st seat u entry =>
      cases script with
      | release =>
          obtain ⟨rfl, rfl, rfl⟩ := hq.1
          have hrun : LockEffect s (Redis.eval .release st seat u entry s).1
              (some (st, seat, u)) none := by
            simp only [Redis.eval]
            split_ifs with hown
            · exact .release (Redis.releaseKeys_now ..) hown (Redis.releaseKeys_seatLock ..)
            · exact .quiet (le_refl _) rfl
          obtain ⟨rfl, -⟩ := Prod.mk.inj hex
          cases l with
          | ok => exact hrun
          | lost => exact .quiet (le_refl _) rfl
          | unacked => exact hrun
      | _ => exact hq.1.elim
  | _ => exact hq.1.elim

/-- One command of a call. -/
theorem stepTo_call {n : LockCall} {i : ℕ} {l : Link} {s t : Redis} {c : Redis.Cmd}
    {k : Redis.Rep c → Op Bool} {r : Redis.Rep c} (hq : Stage n (.call c k))
    (hallowed : SoundExtension n i l c s) (hex : Redis.exec l c s = (t, r)) :
    StepTo n s t (releasing l (threadOf n (.call c k))) (k r) := by
  cases n with
  | acquire => exact stepTo_acquire hq hallowed hex
  | release => exact stepTo_release hq hex

/-! ## Runs -/

structure Inv (x : LockPool × List Grant) : Prop where
  covered : ∀ g ∈ x.2, Covered x.1.store g
  apart : x.2.Pairwise Apart
  stages : ∀ i n q, x.1.Runs i n q → Stage n q

/-- What a step adds to the grants and what it cuts short keeps the invariant. -/
theorem LockEffect.grants {s t : Redis} {r : Option (ℤ × ℤ × ℤ)} {g' : Option Grant}
    (h : LockEffect s t r g') {grants : List Grant} (hcov : ∀ g ∈ grants, Covered s g)
    (hapart : grants.Pairwise Apart) :
    (∀ g ∈ grants.map (·.releasedAt s.now r) ++ g'.toList, Covered t g) ∧
      (grants.map (·.releasedAt s.now r) ++ g'.toList).Pairwise Apart := by
  constructor
  · intro g hg
    rcases List.mem_append.1 hg with hmem | hmem
    · obtain ⟨g₀, hg₀, rfl⟩ := List.mem_map.1 hmem
      exact h.covered (hcov g₀ hg₀)
    · obtain rfl := Option.mem_toList.1 hmem
      exact h.granted.1
  · refine List.pairwise_append.2 ⟨?_, ?_, ?_⟩
    · exact List.pairwise_map.2 (hapart.imp fun hap => hap.releasedAt s.now r)
    · cases g' with
      | none => exact List.Pairwise.nil
      | some g => exact List.pairwise_singleton _ _
    · intro g hg g₁ hg₁
      obtain ⟨g₀, hg₀, rfl⟩ := List.mem_map.1 hg
      obtain rfl := Option.mem_toList.1 hg₁
      exact h.granted.2 g₀ (hcov g₀ hg₀)

theorem inv_step {x y : LockPool × List Grant} {a : Act Link (Environ LockCall)} (hx : Inv x)
    (hG : SoundRun x a) (h : granted.step x a = some y) : Inv y := by
  obtain ⟨p, grants⟩ := x
  obtain ⟨q, grants'⟩ := y
  obtain ⟨hsys, hrec⟩ := System.withHistory_step.1 h
  have hstep : Machine.step (machine LockCall.program) p a = some q := hsys
  simp only at hrec
  subst hrec
  cases a with
  | environ e =>
      obtain ⟨s, ts, hs, rfl⟩ := Machine.step_environ hstep
      cases e with
      | tick d =>
          obtain ⟨rfl, rfl⟩ := Prod.mk.inj (Option.some.inj hs)
          refine ⟨fun g hg hrun => hx.covered g hg ?_, hx.apart, fun i n r hr => ?_⟩
          · exact lt_of_le_of_lt (Nat.le_add_right _ d) hrun
          · rcases Pool.runs_start hr with ⟨-, hnew⟩ | hold
            · cases hnew
            · exact hx.stages i n r hold
      | start o =>
          obtain ⟨rfl, rfl⟩ := Prod.mk.inj (Option.some.inj hs)
          refine ⟨hx.covered, hx.apart, fun i n r hr => ?_⟩
          rcases Pool.runs_start hr with ⟨-, hnew⟩ | hold
          · obtain ⟨rfl, rfl⟩ := Prod.mk.inj (List.mem_singleton.1 hnew)
            exact stage_program n
          · exact hx.stages i n r hold
  | run i l =>
      obtain ⟨n, c, k, s, r, ht, hs, rfl⟩ := Machine.step_run hstep
      have hallowed : SoundExtension n i l c p.store := by
        have hG' : Machine.Permits SoundExtension i l p.store p.threads[i]? := hG
        rwa [ht] at hG'
      obtain ⟨hstage, heff⟩ := stepTo_call (hx.stages i n _ ht) hallowed (Option.some.inj hs)
      have hi : (p.threads.set i ⟨n, some (k r)⟩)[i]? = threadOf n (k r) := by
        rw [List.getElem?_set_self (List.getElem?_eq_some_iff.1 ht).1]
      obtain ⟨hcov, hapart⟩ := heff.grants hx.covered hx.apart
      refine ⟨?_, ?_, fun j m r' hr => ?_⟩
      · simpa only [record, ht, hi] using hcov
      · simpa only [record, ht, hi] using hapart
      · rcases Pool.runs_set hr with ⟨rfl, rfl, heq⟩ | ⟨_, hold⟩
        · cases heq
          exact hstage
        · exact hx.stages j m r' hold
  | crash i =>
      obtain ⟨n, c, k, ht, rfl⟩ := Machine.step_crash hstep
      refine ⟨hx.covered, hx.apart, fun j m r hr => ?_⟩
      rcases Pool.runs_set hr with ⟨_, _, heq⟩ | ⟨_, hold⟩
      · cases heq
      · exact hx.stages j m r hold

theorem inv_of_reachable {x : LockPool × List Grant} (h : granted.ReachableUnder SoundRun x) :
    Inv x := by
  refine System.invariant (fun y hy => ?_) (fun y a z hy hG hst => inv_step hy hG hst) h
  obtain ⟨⟨-, hthreads⟩, hgrants⟩ := hy
  refine ⟨?_, ?_, fun i n q hq => ?_⟩
  · simp [hgrants]
  · simp [hgrants]
  · simp [Pool.Runs, hthreads] at hq

/-- In every run whose extensions are all sound, a grant that has neither elapsed nor been released
makes its user the owner of the seat, and no grant of the seat to another user begins within it. -/
theorem grants_exclusive {p : LockPool} {grants : List Grant}
    (h : granted.ReachableUnder SoundRun (p, grants)) :
    (∀ g ∈ grants, p.store.now < g.endsAt →
      p.store.lockOwner g.showtimeId g.seatId = some g.userId) ∧
    grants.Pairwise fun g g' =>
      g.showtimeId = g'.showtimeId → g.seatId = g'.seatId → g.userId ≠ g'.userId →
        g.endsAt ≤ g'.grantedAt := by
  have hinv := inv_of_reachable h
  refine ⟨fun g hg hrun => (hinv.covered g hg).owner hrun, hinv.apart.imp ?_⟩
  intro g g' hap hshow hseat
  exact hap (Prod.ext hshow hseat)

/-- A run in which a lock lives through an extension, is released and granted to another user. -/
theorem grants_exclusive_extended :
    ∃ p grants, granted.ReachableUnder SoundRun (p, grants) ∧ grants.length = 3 ∧
      (∀ g ∈ grants, p.store.now < g.endsAt →
        p.store.lockOwner g.showtimeId g.seatId = some g.userId) := by
  obtain ⟨⟨p, grants⟩, hreach, hlen⟩ := System.exists_reachable_of_runUnder granted SoundRun
    (fun x => decide (x.2.length = 3)) (s := (⟨Redis.empty, []⟩, [])) ⟨⟨rfl, rfl⟩, rfl⟩
    [.environ (.start (.acquire 1 7 42 10)), .run 0 .ok, .run 0 .ok, .environ (.tick 5),
      .environ (.start (.acquire 1 7 42 10)), .run 1 .ok, .run 1 .ok, .run 1 .ok, .run 1 .ok,
      .environ (.start (.release 1 7 42)), .run 2 .ok, .run 2 .ok,
      .environ (.start (.acquire 1 7 43 10)), .run 3 .ok, .run 3 .ok] (by decide)
  exact ⟨p, grants, hreach, of_decide_eq_true hlen, (grants_exclusive hreach).1⟩

/-- The lock expires between the `GET` and the `PEXPIRE` of an extension and another user acquires
it: both calls return `true`, and the seat is the other user's. -/
theorem extension_races_expiry :
    ¬ ∀ p grants, granted.Reachable (p, grants) →
      ∀ g ∈ grants, p.store.now < g.endsAt →
        p.store.lockOwner g.showtimeId g.seatId = some g.userId := by
  intro hall
  obtain ⟨⟨p, grants⟩, hreach, hbad⟩ := System.exists_reachable_of_run granted
    (fun x => x.2.any fun g => decide (x.1.store.now < g.endsAt ∧
      x.1.store.lockOwner g.showtimeId g.seatId ≠ some g.userId))
    (s := (⟨Redis.empty, []⟩, [])) ⟨⟨rfl, rfl⟩, rfl⟩
    [.environ (.start (.acquire 1 7 42 10)), .run 0 .ok, .run 0 .ok, .environ (.tick 9),
      .environ (.start (.acquire 1 7 42 10)), .run 1 .ok, .run 1 .ok, .run 1 .ok,
      .environ (.tick 5), .environ (.start (.acquire 1 7 43 10)), .run 2 .ok, .run 2 .ok,
      .run 1 .ok] (by decide)
  obtain ⟨g, hg, hlt, hne⟩ := by simpa using hbad
  exact hne (hall p grants hreach g hg hlt)

end Locks
end Bookit

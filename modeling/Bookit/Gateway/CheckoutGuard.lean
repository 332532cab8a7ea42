import Bookit.Gateway.Commands
import Bookit.Lib.Stages

/-!
# Gateway.CheckoutGuard — releases while a payment is under way

A payment request sets the checkout keys of its seats.  Of what releases seats only the cancel request
and the gateway's expiry worker look at them, and act on what they saw later; an unlock message, the
lock-server's worker, and the gateway's worker where the lock has no owner look at none.  A stage says
for which seat a handler is past its check.
-/

namespace Bookit
namespace Gateway

open Lib LockServer SingleNodeLock

/-! ## The stages of a handler -/

/-- What releases seats: messages of the locking queue, workers, and cancel requests. -/
def Task.releases : Task → Bool
  | .lockMessage .. => true
  | .updater _ => true
  | .expiry .. => true
  | .cancel .. => true
  | _ => false

/-- Whether the gateway's worker has asked for the owner, and the seat that the handler may release. -/
structure ReleaseStage where
  asked : Bool
  seat : Option (ℤ × ℤ)
  deriving DecidableEq

namespace ReleaseStage

def start : ReleaseStage := ⟨false, none⟩

/-- The gateway's worker asks for the owner, and passes where there is none. -/
def afterOwner (e : QueueEntry) (b : ReleaseStage) (owner : Option ℤ) : ReleaseStage :=
  if b.asked then
    b
  else if owner = none then
    ⟨true, some e.seat⟩
  else
    { b with asked := true }

/-- The clean-up that follows a script makes the field available: after `release` where it answered
`1`, and after `releaseExpired` in any case. -/
def nextRelease (b : ReleaseStage) : (k : Redis.Cmd) → Redis.Rep k → ReleaseStage
  | .eval script showtimeId seatId _ _, r =>
      if script = .releaseExpired ∨ (script = .release ∧ (r : Option ℤ) = some 1) then
        { b with seat := some (showtimeId, seatId) }
      else
        b
  | _, _ => b

/-- The gateway's worker goes on where the seat has no owner, or no checkout key. -/
def nextExpiry (e : QueueEntry) (b : ReleaseStage) : (k : Redis.Cmd) → Redis.Rep k → ReleaseStage
  | .connect, r => if (r : Option Unit) = none then b.afterOwner e none else b
  | .getLock .., r => b.afterOwner e (Option.join (r : Option (Option ℤ)))
  | .existsCheckout .., r =>
      if Option.getD (r : Option Bool) false then b else { b with seat := some e.seat }
  | k, r => b.nextRelease k r

end ReleaseStage

def releaseNext (n : Task) (b : ReleaseStage) : (c : Cmd) → Rep c → ReleaseStage
  | .service (.redis k), r =>
      match n with
      | .expiry _ e => b.nextExpiry e k r
      | _ => b.nextRelease k r
  | _, _ => b

/-- The Redis commands of a handler: it acquires no lock and sets no checkout key, and makes the field
of a seat available only where it may release it. -/
def ReleaseCmd (b : ReleaseStage) : Redis.Cmd → Prop
  | .setLockNx .. => False
  | .pexpireLock .. => False
  | .setCheckoutNx .. => False
  | .eval script .. => script.Deletes
  | .setBits showtimeId seatId state => state = .available → b.seat = some (showtimeId, seatId)
  | _ => True

def releaseMay (n : Task) (b : ReleaseStage) (c : Cmd) : Prop :=
  n.releases = true → ∀ k, c = .service (.redis k) → ReleaseCmd b k

section Follows

variable {n : Task}

/-- The stages of a task, for the commands of Redis. -/
abbrev ReleaseFollows {β : Type} (n : Task) (Q : β → ReleaseStage → Prop) (p : Op β)
    (b : ReleaseStage) : Prop :=
  p.Follows (fun b c => ReleaseCmd b c) (fun b c => releaseNext n b (.service (.redis c))) Q b

theorem releaseMay_redis {b : ReleaseStage} {k : Redis.Cmd} (hk : ReleaseCmd b k) :
    releaseMay n b (.service (.redis k)) := by
  intro _ k' hk'
  obtain rfl := Payments.Cmd.redis.inj (Cmd.service.inj hk')
  exact hk

theorem releaseFollows_onRedis {β : Type} {Q : β → ReleaseStage → Prop} {p : Op β}
    {b : ReleaseStage} (h : ReleaseFollows n Q p b) :
    (onRedis p).Follows (releaseMay n) (releaseNext n) Q b :=
  Prog.Follows.hoist (fun _ _ hc => ⟨releaseMay_redis hc, fun _ => rfl⟩) h

/-- The commands that change no stage, and may be issued in this one. -/
def KeepsStage (b : ReleaseStage) : Redis.Cmd → Prop
  | .setLockNx .. => False
  | .pexpireLock .. => False
  | .setCheckoutNx .. => False
  | .eval .. => False
  | .getLock .. => False
  | .existsCheckout .. => False
  | .setBits showtimeId seatId state => state = .available → b.seat = some (showtimeId, seatId)
  | _ => True

/-- The gateway's worker has asked for the owner. -/
def Settled (n : Task) (b : ReleaseStage) : Prop := ∀ g e, n = .expiry g e → b.asked = true

theorem releaseNext_of_keeps {b : ReleaseStage} {k : Redis.Cmd} (hb : Settled n b)
    (hk : KeepsStage b k) (r : Redis.Rep k) : releaseNext n b (.service (.redis k)) r = b := by
  cases n with
  | expiry g e =>
      have hasked := hb g e rfl
      cases k with
      | connect =>
          show (if (r : Option Unit) = none then b.afterOwner e none else b) = b
          split_ifs
          · rw [ReleaseStage.afterOwner, if_pos hasked]
          · rfl
      | getLock | eval | existsCheckout => exact absurd hk id
      | _ => rfl
  | _ =>
      cases k with
      | eval => exact absurd hk id
      | _ => rfl

theorem releaseCmd_of_keeps {b : ReleaseStage} {k : Redis.Cmd} (hk : KeepsStage b k) :
    ReleaseCmd b k := by
  cases k with
  | setBits => exact hk
  | setLockNx | pexpireLock | setCheckoutNx | eval => exact absurd hk id
  | _ => trivial

/-- A program of such commands stays in its stage. -/
theorem follows_keeps {β : Type} {p : Op β} {b : ReleaseStage} (hb : Settled n b)
    (h : p.Issues (KeepsStage b)) : ReleaseFollows n (fun _ b' => b' = b) p b := by
  refine Prog.follows_of_issues (S := fun b' : ReleaseStage => b' = b)
    (h.mono fun k hk b' hb' => ?_) rfl
  subst hb'
  exact ⟨releaseCmd_of_keeps hk, releaseNext_of_keeps hb hk⟩

theorem issues_cleanUp_keeps {b : ReleaseStage} {showtimeId seatId userId : ℤ} {entry : QueueEntry}
    {state : SeatState} (hseat : state = .available → b.seat = some (showtimeId, seatId)) :
    (cleanUp showtimeId seatId userId entry state).Issues (KeepsStage b) :=
  issues_cleanUp trivial trivial trivial trivial hseat

theorem issues_publish_keeps {b : ReleaseStage} (event : PubSubEvent) :
    (publishRoomEvent event).Issues (KeepsStage b) := by
  unfold publishRoomEvent
  split
  · trivial
  · exact issues_cluster trivial trivial

/-- A command that changes no stage, and what follows it. -/
theorem follows_call {β : Type} {Q : β → ReleaseStage → Prop} {k : Redis.Cmd}
    {f : Redis.Rep k → Op β} {b : ReleaseStage} (hb : Settled n b) (hk : KeepsStage b k)
    (hf : ∀ r, ReleaseFollows n Q (f r) b) : ReleaseFollows n Q (.call k f) b := by
  refine ⟨releaseCmd_of_keeps hk, fun r => ?_⟩
  show ReleaseFollows n Q (f r) (releaseNext n b (.service (.redis k)) r)
  rw [releaseNext_of_keeps hb hk]
  exact hf r

/-- A script that deletes a lock, and what follows it. -/
theorem follows_eval {β : Type} {Q : β → ReleaseStage → Prop} {script : Redis.Script}
    {showtimeId seatId userId : ℤ} {entry : QueueEntry} {f : Option ℤ → Op β} {b : ReleaseStage}
    (hscript : script.Deletes)
    (hf : ∀ r, ReleaseFollows n Q (f r)
      (b.nextRelease (.eval script showtimeId seatId userId entry) r)) :
    ReleaseFollows n Q (.call (.eval script showtimeId seatId userId entry) f) b := by
  refine ⟨hscript, fun r => ?_⟩
  have hnext : releaseNext n b (.service (.redis (.eval script showtimeId seatId userId entry))) r =
      b.nextRelease (.eval script showtimeId seatId userId entry) r := by
    cases n <;> rfl
  show ReleaseFollows n Q (f r)
    (releaseNext n b (.service (.redis (.eval script showtimeId seatId userId entry))) r)
  rw [hnext]
  exact hf r

/-- The clean-up of a seat that the handler may release. -/
theorem follows_cleanUp {showtimeId seatId userId : ℤ} {entry : QueueEntry} {b : ReleaseStage}
    (hb : Settled n b) :
    ReleaseFollows n (fun _ b' => b' = { b with seat := some (showtimeId, seatId) })
      (cleanUp showtimeId seatId userId entry .available)
      { b with seat := some (showtimeId, seatId) } :=
  follows_keeps (b := { b with seat := some (showtimeId, seatId) }) hb
    (issues_cleanUp_keeps fun _ => rfl)

theorem follows_releaseLock (showtimeId seatId userId : ℤ) {b : ReleaseStage} (hb : Settled n b) :
    ReleaseFollows n
      (fun _ b' => b' = b ∨ b' = { b with seat := some (showtimeId, seatId) })
      (releaseLock showtimeId seatId userId) b := by
  refine follows_call hb trivial fun r => ?_
  match r with
  | none => exact .inl rfl
  | some () =>
      refine follows_eval trivial fun r => ?_
      show ReleaseFollows n _ (if r = some 1 then _ else _) (if _ ∨ (_ ∧ r = some 1) then _ else _)
      by_cases hr : r = some 1
      · rw [if_pos hr, if_pos (.inr ⟨rfl, hr⟩)]
        exact (follows_cleanUp hb).bind fun _ _ hb' => .inr hb'
      · rw [if_neg hr, if_neg (by simp [hr])]
        exact .inl rfl

/-! ### Lock and unlock messages -/

theorem follows_unlockSeats (showtimeId userId : ℤ) (seatIds : List ℤ) {b : ReleaseStage}
    (hb : Settled n b) :
    ReleaseFollows n (fun _ _ => True) (unlockSeats showtimeId userId seatIds) b := by
  induction seatIds generalizing b with
  | nil => trivial
  | cons seatId seatIds ih =>
      refine (follows_releaseLock _ _ _ hb).bind fun released b' hb' => ?_
      have hb' : Settled n b' := by
        rcases hb' with rfl | rfl
        · exact hb
        · exact hb
      show ReleaseFollows n _ (if released = true then _ else _) b'
      split_ifs
      · exact (follows_keeps hb' (issues_publish_keeps _)).bind fun _ _ heq => by
          subst heq
          exact ih hb'
      · exact ih hb'

theorem issues_updateMetadata {b : ReleaseStage} (message : SeatLockMessage) (attempts : ℕ) :
    (updateMetadata message attempts).Issues (KeepsStage b) := by
  induction attempts with
  | zero => trivial
  | succ attempts ih =>
      have hupdate : (updateSeatMetadataLua message.showtimeId message.seatIds message.userId
          lockTtlSecs).Issues (KeepsStage b) :=
        ⟨trivial, fun now => issues_updateSeats trivial fun _ _ => trivial⟩
      refine hupdate.bind fun ok => ?_
      cases ok with
      | true => trivial
      | false => exact ih

theorem issues_announceLocked {b : ReleaseStage} (showtimeId userId : ℤ) (seatIds : List ℤ) :
    (announceLocked showtimeId userId seatIds).Issues (KeepsStage b) := by
  induction seatIds with
  | nil => trivial
  | cons seatId seatIds ih => exact (issues_publish_keeps _).bind fun _ => ih

theorem follows_processLockRequest (message : SeatLockMessage) {b : ReleaseStage}
    (hb : Settled n b) : ReleaseFollows n (fun _ _ => True) (processLockRequest message) b := by
  unfold processLockRequest
  split_ifs
  · exact follows_unlockSeats _ _ _ hb
  · refine (follows_keeps hb (issues_updateMetadata message 3)).bind fun ok b' hb' => ?_
    subst hb'
    have hglobal : ∀ event, ReleaseFollows n (fun _ _ => True) (publishGlobalEvent event) b' := by
      intro event
      have hissues : (publishGlobalEvent event).Issues (KeepsStage b') := by
        unfold publishGlobalEvent
        exact issues_cluster trivial trivial
      exact (follows_keeps hb hissues).mono fun _ _ _ => trivial
    cases ok with
    | true =>
        refine (follows_keeps hb (issues_announceLocked _ _ _)).bind fun _ b'' hb'' => ?_
        subst hb''
        exact hglobal _
    | false => exact hglobal _

/-! ### The seat-layout updater -/

/-- A program that asks Redis nothing stays in its stage. -/
theorem follows_noRedis {β : Type} {p : Payments.Service β} {b : ReleaseStage}
    (h : p.Issues fun c => ∀ k, c ≠ .redis k) :
    p.Follows (fun b c => releaseMay n b (.service c)) (fun b c => releaseNext n b (.service c))
      (fun _ b' => b' = b) b := by
  refine Prog.follows_of_issues (S := fun b' : ReleaseStage => b' = b)
    (h.mono fun c hc b' hb' => ?_) rfl
  refine ⟨fun _ k hk => absurd (Cmd.service.inj hk) (hc k), fun r => ?_⟩
  cases c with
  | redis k => exact absurd rfl (hc k)
  | _ => exact hb'

theorem issues_isSeatBookedInDb (scheduleId seatId : ℤ) :
    (isSeatBookedInDb scheduleId seatId).Issues fun c => ∀ k, c ≠ .redis k := by
  refine ⟨fun _ hk => (nomatch hk), fun r => ?_⟩
  match r with
  | none => trivial
  | some () =>
      refine ⟨fun _ hk => (nomatch hk), fun booked => ?_⟩
      show Prog.Issues _ (if 0 < booked.getD 0 then _ else _)
      split_ifs
      · trivial
      · exact ⟨fun _ hk => (nomatch hk), fun _ => trivial⟩

theorem follows_forceBookSeat {showtimeId seatId userId : ℤ} {entry : QueueEntry} {b : ReleaseStage}
    (hb : Settled n b) :
    ReleaseFollows n (fun _ _ => True) (forceBookSeatLua showtimeId seatId userId entry) b := by
  refine follows_call hb trivial fun r => ?_
  match r with
  | none => trivial
  | some () =>
      refine follows_eval trivial fun r => ?_
      have hnext : b.nextRelease (.eval .forceBook showtimeId seatId userId entry) r = b := rfl
      rw [hnext]
      have hclean : ReleaseFollows n (fun _ b' => b' = b)
          (cleanUp showtimeId seatId userId entry .booked) b :=
        follows_keeps hb (issues_cleanUp_keeps fun hstate => (nomatch hstate))
      exact hclean.mono fun _ _ _ => trivial

theorem follows_releaseDue (entry : QueueEntry) {b : ReleaseStage} (hb : Settled n b) :
    ReleaseFollows n (fun _ _ => True) (releaseDueEntry entry) b := by
  have hrelease : ReleaseFollows n (fun _ b' => Settled n b')
      (releaseExpiredLockLua entry.scheduleId entry.seatId entry.userId entry) b := by
    refine follows_call hb trivial fun r => ?_
    match r with
    | none => exact hb
    | some () =>
        refine follows_eval trivial fun r => ?_
        have hnext : b.nextRelease (.eval .releaseExpired entry.scheduleId entry.seatId entry.userId
            entry) r = { b with seat := some (entry.scheduleId, entry.seatId) } := by
          simp [ReleaseStage.nextRelease]
        rw [hnext]
        exact (follows_cleanUp hb).bind fun _ _ hb' => by
          subst hb'
          exact hb
  refine hrelease.bind fun _ b' hb' => ?_
  exact (follows_keeps hb' (issues_publish_keeps _)).mono fun _ _ _ => trivial

theorem follows_dueEntry (entry : QueueEntry) {b : ReleaseStage} (hb : Settled n b) :
    (processDueEntry entry).Follows (fun b c => releaseMay n b (.service c))
      (fun b c => releaseNext n b (.service c)) (fun _ _ => True) b := by
  refine (follows_noRedis (issues_isSeatBookedInDb _ _)).bind fun found b' hb' => ?_
  subst hb'
  have hup : ∀ {p : Op Unit}, ReleaseFollows n (fun _ _ => True) p b' →
      (Payments.onRedis p).Follows (fun b c => releaseMay n b (.service c))
        (fun b c => releaseNext n b (.service c)) (fun _ _ => True) b' :=
    fun h => Prog.Follows.hoist (fun _ _ hc => ⟨releaseMay_redis hc, fun _ => rfl⟩) h
  cases found with
  | true => exact hup (follows_forceBookSeat hb)
  | false => exact hup (follows_releaseDue entry hb)

/-! ### The gateway's expiry worker -/

/-- The stages of the gateway's worker on an entry. -/
abbrev ExpiryFollows {β : Type} (g : ℕ) (e : QueueEntry) (Q : β → ReleaseStage → Prop) (p : Op β)
    (b : ReleaseStage) : Prop :=
  ReleaseFollows (.expiry g e) Q p b

theorem settled_of_asked {g : ℕ} {e : QueueEntry} {b : ReleaseStage} (hb : b.asked = true) :
    Settled (.expiry g e) b := by
  intro g' e' _
  exact hb

theorem follows_askOwner (g : ℕ) (e : QueueEntry) :
    ExpiryFollows g e
      (fun owner b => b.asked = true ∧ (owner = none → b.seat = some (e.scheduleId, e.seatId)))
      (getLockOwner e.scheduleId e.seatId) .start := by
  have hafter : ∀ owner : Option ℤ, (ReleaseStage.start.afterOwner e owner).asked = true ∧
      (owner = none → (ReleaseStage.start.afterOwner e owner).seat =
        some (e.scheduleId, e.seatId)) := by
    intro owner
    cases owner with
    | none => exact ⟨rfl, fun _ => rfl⟩
    | some owner => exact ⟨rfl, fun h => (nomatch h)⟩
  refine ⟨trivial, fun r => ?_⟩
  match r with
  | none => exact hafter none
  | some () => exact ⟨trivial, fun owner => hafter (Option.join owner)⟩

theorem follows_checkDue (g : ℕ) (now : ℤ) (e : QueueEntry) :
    ExpiryFollows g e
      (fun passed b => b.asked = true ∧ (passed = true → b.seat = some (e.scheduleId, e.seatId)))
      (checkDueEntry now e) .start := by
  refine (follows_askOwner g e).bind fun owner b hb => ?_
  have hkept : ∀ {c : Redis.Cmd}, KeepsStage b c →
      ExpiryFollows g e (fun _ b' => b' = b) (cluster c) b :=
    fun hc => follows_keeps (settled_of_asked hb.1) (issues_cluster trivial hc)
  show ExpiryFollows g e _ (if owner = none then _ else if owner ≠ some e.userId then _ else _) b
  split_ifs with hnone hother
  · exact ⟨hb.1, fun _ => hb.2 hnone⟩
  · refine (hkept (c := .zremQueue e) trivial).bind fun _ b' hb' => ?_
    subst hb'
    exact ⟨hb.1, fun hfalse => (nomatch hfalse)⟩
  · refine ⟨trivial, fun r => ?_⟩
    show ExpiryFollows g e _ (if Option.getD (r : Option Bool) false then _ else _)
      (if Option.getD (r : Option Bool) false then _ else _)
    by_cases hr : Option.getD (r : Option Bool) false = true
    · rw [if_pos hr, if_pos hr]
      refine (hkept (c := .zaddQueue e (now + 300)) trivial).bind fun _ b' hb' => ?_
      subst hb'
      exact ⟨hb.1, fun hfalse => (nomatch hfalse)⟩
    · rw [if_neg hr, if_neg hr]
      have hrelease := follows_releaseLock (n := .expiry g e) e.scheduleId e.seatId e.userId
        (b := { b with seat := some e.seat }) (settled_of_asked hb.1)
      refine hrelease.bind fun _ b' hb' => ?_
      rcases hb' with rfl | rfl
      · exact ⟨hb.1, fun _ => rfl⟩
      · exact ⟨hb.1, fun _ => rfl⟩

theorem issues_finishDueEntry_keeps {e : QueueEntry} {b : ReleaseStage}
    (hb : b.seat = some (e.scheduleId, e.seatId)) : (finishDueEntry e).Issues (KeepsStage b) := by
  have hrem : (zremClusterQueue e).Issues (KeepsStage b) := issues_cluster trivial trivial
  have hbits : (setScheduleSeatBitmapStateCluster e.scheduleId e.seatId .available).Issues
      (KeepsStage b) := issues_setBitmap trivial fun _ => hb
  exact hrem.bind fun _ => hbits.bind fun _ => issues_publish_keeps _

theorem follows_expiredEntry (g : ℕ) (now : ℤ) (e : QueueEntry) :
    (releaseExpiredEntry g now e).Follows (releaseMay (.expiry g e)) (releaseNext (.expiry g e))
      (fun _ _ => True) .start := by
  refine (releaseFollows_onRedis (follows_checkDue g now e)).bind fun passed b hb => ?_
  cases passed with
  | true =>
      refine ⟨fun _ k hk => (nomatch hk), fun _ => ?_⟩
      have hfinish : ExpiryFollows g e (fun _ b' => b' = b) (finishDueEntry e) b :=
        follows_keeps (settled_of_asked hb.1) (issues_finishDueEntry_keeps (hb.2 rfl))
      exact (releaseFollows_onRedis hfinish).mono fun _ _ _ => trivial
  | false => trivial

end Follows

/-- What is started keeps to its stages. -/
theorem releaseFollows_started {s : World} {n : Task} {q : Service Result} (h : Started s n q) :
    q.Follows (releaseMay n) (releaseNext n) (fun _ _ => True) .start := by
  have hother : n.releases = false →
      q.Follows (releaseMay n) (releaseNext n) (fun _ _ => True) .start := by
    intro hn
    refine Prog.follows_of_issues (S := fun _ => True)
      (Prog.issues_of_forall q fun c b _ => ⟨fun hreleases => ?_, fun _ => trivial⟩) trivial
    rw [hn] at hreleases
    cases hreleases
  cases h with
  | @lockMessage k message hmessage =>
      have hsettled : Settled (.lockMessage k message) .start := fun _ _ heq => (nomatch heq)
      exact (releaseFollows_onRedis (follows_processLockRequest message hsettled)).bind
        fun _ _ _ => trivial
  | @updater entry =>
      have hsettled : Settled (.updater entry) .start := fun _ _ heq => (nomatch heq)
      have hservice : (onServices (processDueEntry entry)).Follows (releaseMay (.updater entry))
          (releaseNext (.updater entry)) (fun _ _ => True) .start :=
        Prog.Follows.hoist (fun _ _ hc => ⟨hc, fun _ => rfl⟩) (follows_dueEntry entry hsettled)
      exact hservice.bind fun _ _ _ => trivial
  | @expiry g e => exact (follows_expiredEntry g _ e).bind fun _ _ _ => trivial
  | cancel g userId showtimeId seatIds seatIndices totalSeatCount =>
      refine Prog.follows_of_issues (S := fun _ => True)
        ((issues_cancelTask g userId showtimeId seatIds seatIndices totalSeatCount).mono
          fun c hc b _ => ⟨fun _ k hk => ?_, fun _ => trivial⟩) trivial
      subst hk
      cases k with
      | connect | existsCheckout => trivial
      | _ => exact absurd hc id
  | _ => exact hother rfl

/-! ## The condition -/

/-- The script finds the lock gone, and does not make the field available. -/
def Harmless (k : Redis.Cmd) (s : Redis) (seat : ℤ × ℤ) : Prop :=
  s.lockOwner seat.1 seat.2 = none ∧ k.writes s ≠ some (seat, .available)

instance {k : Redis.Cmd} {s : Redis} {seat : ℤ × ℤ} : Decidable (Harmless k s seat) := by
  unfold Harmless
  infer_instance

/-- A handler's script deletes the lock of no seat in checkout. -/
def SparesCheckout (n : Task) (l : Link) (k : Redis.Cmd) (s : Redis) : Prop :=
  match k.releases s with
  | none => True
  | some (seat, _) =>
      n.releases = false ∨ l = .lost ∨ Harmless k s seat ∨ s.inCheckout seat = false

instance {n : Task} {l : Link} {k : Redis.Cmd} {s : Redis} : Decidable (SparesCheckout n l k s) := by
  unfold SparesCheckout
  split <;> infer_instance

/-- The seat that the handler may release from now on has no checkout key. -/
def PassesOutside (b b' : ReleaseStage) (s : Redis) : Prop :=
  match b'.seat with
  | none => True
  | some seat => b.seat = some seat ∨ s.inCheckout seat = false

instance {b b' : ReleaseStage} {s : Redis} : Decidable (PassesOutside b b' s) := by
  unfold PassesOutside
  split <;> infer_instance

/-- A handler goes past its check only for a seat that is in no checkout. -/
def ChecksCheckout (n : Task) (i : ℕ) (l : Link) (c : Cmd) (s : World) (b : ReleaseStage) : Prop :=
  match exec i l c s with
  | none => True
  | some (_, r) => n.releases = false ∨ PassesOutside b (releaseNext n b c r) s.services.redis

instance {n : Task} {i : ℕ} {l : Link} {c : Cmd} {s : World} {b : ReleaseStage} :
    Decidable (ChecksCheckout n i l c s b) := by
  unfold ChecksCheckout
  split <;> infer_instance

/-- The handler may not release the seat. -/
def KeepsAway (seat : ℤ × ℤ) (b : ReleaseStage) : Option Task → Prop
  | none => True
  | some n => n.releases = false ∨ b.seat ≠ some seat

instance {seat : ℤ × ℤ} {b : ReleaseStage} {n : Option Task} : Decidable (KeepsAway seat b n) := by
  unfold KeepsAway
  split <;> infer_instance

/-- A handler's machine: the stage of each session beside the world. -/
def handlers : Machine (World × (ℕ → ReleaseStage)) Rep Task Result Link Environ :=
  machine.staged .start releaseNext

abbrev HandlerPool := Pool (World × (ℕ → ReleaseStage)) Rep Task Result

/-- A checkout key is set only while no handler is past its check of the seat. -/
def EntersApart (l : Link) (k : Redis.Cmd) (p : HandlerPool) : Prop :=
  match k with
  | .setCheckoutNx scheduleId seatId _ _ =>
      l = .lost ∨ ∀ j ∈ List.range p.threads.length,
        KeepsAway (scheduleId, seatId) (p.store.2 j) (p.working j)
  | _ => True

instance {l : Link} {k : Redis.Cmd} {p : HandlerPool} : Decidable (EntersApart l k p) := by
  unfold EntersApart
  split <;> infer_instance

def GuardsCheckout (n : Task) (i : ℕ) (l : Link) (c : Cmd) (p : HandlerPool) : Prop :=
  match c with
  | .service (.redis k) =>
      SparesCheckout n l k p.store.1.services.redis ∧ EntersApart l k p ∧
        ChecksCheckout n i l (.service (.redis k)) p.store.1 (p.store.2 i)
  | _ => True

instance {n : Task} {i : ℕ} {l : Link} {c : Cmd} {p : HandlerPool} :
    Decidable (GuardsCheckout n i l c p) := by
  unfold GuardsCheckout
  rcases c with c | _
  · rcases c with ⟨⟩ <;> infer_instance
  all_goals infer_instance

/-- Handlers check for a checkout key before they release a seat, and no key is set between the check
and what follows from it. -/
def GuardedRun (p : HandlerPool) : Act Link Environ → Prop
  | .run i l =>
      match p.threads[i]? with
      | some ⟨n, some (.call c _)⟩ => GuardsCheckout n i l c p
      | _ => True
  | _ => True

instance {p : HandlerPool} {a : Act Link Environ} : Decidable (GuardedRun p a) := by
  unfold GuardedRun
  split
  · split <;> infer_instance
  · infer_instance

/-! ## The invariant -/

/-- The seat that a handler may release is in no checkout. -/
def OutOfCheckout (n : Task) (b : ReleaseStage) (s : World) : Prop :=
  n.releases = true → ∀ seat, b.seat = some seat → s.services.redis.inCheckout seat = false

theorem inCheckout_exec {i : ℕ} {l : Link} {c : Cmd} {s t : World} {r : Rep c} {seat : ℤ × ℤ}
    (hrun : exec i l c s = some (t, r)) (h : t.services.redis.inCheckout seat = true) :
    s.services.redis.inCheckout seat = true ∨
      l ≠ .lost ∧ ∃ owner ttlSec, c = .service (.redis (.setCheckoutNx seat.1 seat.2 owner ttlSec)) := by
  rcases redis_exec hrun with ⟨k, rfl, ht⟩ | ⟨-, ht⟩
  · rw [ht] at h
    by_cases hl : l = .lost
    · rw [if_pos hl] at h
      exact .inl h
    · rw [if_neg hl] at h
      rcases Redis.effect_inCheckout h with hold | ⟨owner, ttlSec, rfl⟩
      · exact .inl hold
      · exact .inr ⟨hl, owner, ttlSec, rfl⟩
  · rw [ht] at h
    exact .inl h

theorem releaseMay_of_reachable {p : HandlerPool} (h : handlers.system.ReachableUnder GuardedRun p)
    {i : ℕ} {n : Task} {c : Cmd} {k : Rep c → Service Result} (hr : p.Runs i n (.call c k)) :
    releaseMay n (p.store.2 i) c :=
  (Machine.follows_of_reachable (Q := fun _ _ _ => True)
    (fun _ _ _ _ _ henv n q hmem => releaseFollows_started (started_of_environ henv n q hmem)) h
    i n _ hr).1

theorem guardedRun_redis {p : HandlerPool} {i : ℕ} {l : Link} {n : Task} {c : Redis.Cmd}
    {k : Redis.Rep c → Service Result} (hr : p.Runs i n (.call (.service (.redis c)) k))
    (hG : GuardedRun p (.run i l)) :
    SparesCheckout n l c p.store.1.services.redis ∧ EntersApart l c p ∧
      ChecksCheckout n i l (.service (.redis c)) p.store.1 (p.store.2 i) := by
  have hr : p.threads[i]? = some ⟨n, some (.call (.service (.redis c)) k)⟩ := hr
  simpa only [GuardedRun, hr, GuardsCheckout] using hG

/-- A command that is no Redis command leaves the stage as it is. -/
theorem releaseNext_eq_of_noRedis {n : Task} {b : ReleaseStage} {c : Cmd} {r : Rep c}
    (hc : ∀ k, c ≠ .service (.redis k)) : releaseNext n b c r = b := by
  unfold releaseNext
  split
  · exact absurd rfl (hc _)
  · rfl

theorem outOfCheckout_reachable {p : HandlerPool}
    (h : handlers.system.ReachableUnder GuardedRun p) :
    ∀ i n, p.working i = some n → OutOfCheckout n (p.store.2 i) p.store.1 := by
  refine Machine.working_invariant ?_ ?_ ?_ ?_ (fun _ _ _ _ _ _ hj => hj) h
  · intro n s _ seat hseat
    cases hseat
  · intro p i l n c k s r hp hr hG hrun hi hn seat hseat
    have hrun : exec i l c p.store.1 = some (s, r) := hrun
    have hbefore : p.store.1.services.redis.inCheckout seat = false := by
      by_cases hc : ∃ k', c = .service (.redis k')
      · obtain ⟨k', rfl⟩ := hc
        have hchecks := (guardedRun_redis hr hG).2.2
        simp only [ChecksCheckout, hrun, PassesOutside, hseat, hn] at hchecks
        rcases hchecks.resolve_left (fun hfalse => (nomatch hfalse)) with hold | hfree
        · exact hi hn seat hold
        · exact hfree
      · rw [releaseNext_eq_of_noRedis fun k' hk' => hc ⟨k', hk'⟩] at hseat
        exact hi hn seat hseat
    refine Bool.eq_false_iff.2 fun hafter => ?_
    rcases inCheckout_exec hrun hafter with hold | ⟨-, owner, ttlSec, rfl⟩
    · rw [hbefore] at hold
      cases hold
    · exact releaseMay_of_reachable hp hr hn _ rfl
  · intro p i l n c k s r j m hp hr hG hrun hne hj hm hreleases seat hseat
    refine Bool.eq_false_iff.2 fun hafter => ?_
    rcases inCheckout_exec hrun hafter with hold | ⟨hl, owner, ttlSec, rfl⟩
    · rw [hm hreleases seat hseat] at hold
      cases hold
    · obtain ⟨c', q, hrj⟩ := Pool.working_eq_some.1 hj
      have hapart := (guardedRun_redis hr hG).2.1.resolve_left hl j
        (List.mem_range.2 (List.getElem?_eq_some_iff.1 hrj).1)
      simp only [KeepsAway, hj, hreleases] at hapart
      exact hapart.resolve_left (fun hfalse => (nomatch hfalse)) hseat
  · intro p x s ts j m _ henv hj hm hreleases seat hseat
    obtain ⟨-, -, d, hd⟩ := services_environ henv
    refine Bool.eq_false_iff.2 fun hafter => ?_
    rw [hd] at hafter
    have hold := Redis.inCheckout_tick hafter
    rw [hm hreleases seat hseat] at hold
    cases hold

/-! ## Seats in checkout -/

/-- The lock of a seat in checkout keeps its owner, and its field is not made available. -/
def Guarded (seat : ℤ × ℤ) (s t : Redis) : Prop :=
  t.lockOwner seat.1 seat.2 = s.lockOwner seat.1 seat.2 ∧
    (t.bitmap seat = s.bitmap seat ∨ t.bitmap seat ≠ .available)

instance {seat : ℤ × ℤ} {s t : Redis} : Decidable (Guarded seat s t) := by
  unfold Guarded
  infer_instance

theorem guarded_effect {b : ReleaseStage} {n : Task} {l : Link} {k : Redis.Cmd} {s : Redis}
    {seat : ℤ × ℤ} (hn : n.releases = true) (hl : l ≠ .lost) (hcmd : ReleaseCmd b k)
    (hspares : SparesCheckout n l k s) (hcheckout : s.inCheckout seat = true)
    (hb : b.seat ≠ some seat) : Guarded seat s (k.effect s) := by
  have hreleases : ∀ userId, k.releases s = some (seat, userId) → Harmless k s seat := by
    intro userId hrel
    simp only [SparesCheckout, hrel, hn, hcheckout] at hspares
    exact ((hspares.resolve_left (fun hfalse => (nomatch hfalse))).resolve_left hl).resolve_right
      fun hfalse => (nomatch hfalse)
  refine ⟨?_, ?_⟩
  · cases Redis.keyEffect k s seat with
    | kept hkey =>
        show (k.effect s).seatLock.lookup (k.effect s).now seat = s.seatLock.lookup s.now seat
        unfold Expiring.lookup
        rw [hkey, Redis.effect_now]
    | acquired hc _ =>
        exfalso
        cases k with
        | eval script =>
            cases script with
            | acquire => exact hcmd
            | _ => cases hc
        | setLockNx => exact hcmd
        | _ => cases hc
    | released hc hkey =>
        rw [(hreleases _ hc).1]
        show (k.effect s).seatLock.lookup (k.effect s).now seat = none
        unfold Expiring.lookup
        rw [hkey]
    | extended hc _ _ =>
        subst hc
        exact absurd hcmd id
    | dropped hc _ =>
        subst hc
        exact absurd hcmd id
  · by_contra hchange
    obtain ⟨hne, havailable⟩ := not_or.1 hchange
    have hwrites := Redis.effect_field hne
    rw [not_not.1 havailable] at hwrites
    cases k with
    | eval script showtimeId seatId userId entry =>
        have hw := hwrites
        simp only [Redis.Cmd.writes] at hw
        split_ifs at hw with hacts
        simp only [Option.some.injEq, Prod.mk.injEq] at hw
        obtain ⟨rfl, hstate⟩ := hw
        have hrel : (Redis.Cmd.eval script showtimeId seatId userId entry).releases s =
            some ((showtimeId, seatId), userId) := by
          cases script with
          | acquire => exact absurd hcmd id
          | forceBook => cases hstate
          | releaseExpired | release | book => exact if_pos ⟨trivial, hacts.1⟩
        exact (hreleases userId hrel).2 hwrites
    | setBits showtimeId seatId state =>
        simp only [Redis.Cmd.writes] at hwrites
        split_ifs at hwrites
        simp only [Option.some.injEq, Prod.mk.injEq] at hwrites
        obtain ⟨rfl, hstate⟩ := hwrites
        exact hb (hcmd hstate)
    | writeMetadata =>
        simp only [Redis.Cmd.writes] at hwrites
        split_ifs at hwrites
        simp only [Option.some.injEq, Prod.mk.injEq] at hwrites
        cases hwrites.2
    | _ => cases hwrites

/-- User 42 acquires the seat, a user cancels it, user 42 asks for the payment, and the unlock message
of the cancel request is taken up. -/
def cancelsThenPays (userId : ℤ) : List (Act Link Environ) :=
  .environ (.operation (SingleNodeLock.acquireSeatLockLua 1 1 42 300)) :: steps 0 11 ++
    .environ (.cancel 0 userId 1 [1] [1] 10) :: steps 1 13 ++ .environ (.actor 0 0 1) :: steps 2 3 ++
      .environ (.request ⟨"secret", fun _ _ => ""⟩ 42 ⟨1, [1], "key", none, none, none⟩ 10) ::
        steps 3 10 ++ .environ (.lockMessage 0) :: steps 4 1

/-- Session 4 handles a message, and seat 1 of show 1 is locked and in checkout. -/
def MeetsCheckout (p : HandlerPool) : Prop :=
  (p.working 4).map Task.releases = some true ∧
    p.store.1.services.redis.inCheckout (1, 1) = true ∧
      p.store.1.services.redis.lockOwner 1 1 = some 42

instance {p : HandlerPool} : Decidable (MeetsCheckout p) := by
  unfold MeetsCheckout
  infer_instance

end Gateway
end Bookit

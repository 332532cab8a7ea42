import Bookit.Gateway.Commands
import Bookit.Lib.Stages

/-!
# Gateway.LockedFields — fields that say locked, and the entries that lead back

The workers find a locked seat through its entry in the delayed queue.  Whoever takes the entry away
resets the field later, with one exception: the gateway's worker drops the entry of a user whose lock
has passed to another, and counts on the lock message of the new owner to make a new one.  A stage
says which seat a session has yet to reset, and which metadata it has written.
-/

namespace Bookit
namespace Gateway

open Lib LockServer SingleNodeLock

/-! ## What is at work on a seat -/

def Task.Handles (n : Task) (seat : ℤ × ℤ) : Prop :=
  match n with
  | .lockMessage _ message => message.showtimeId = seat.1 ∧ seat.2 ∈ message.seatIds
  | .updater entry => entry.seat = seat
  | .expiry _ entry => entry.seat = seat
  | .checkout message _ => message.scheduleId = seat.1 ∧ seat.2 ∈ message.seatIds
  | _ => False

instance {n : Task} {seat : ℤ × ℤ} : Decidable (n.Handles seat) := by
  unfold Task.Handles
  split <;> infer_instance

/-- The message is a lock message for the seat. -/
def LocksSeat (message : SeatLockMessage) (seat : ℤ × ℤ) : Prop :=
  message.action ≠ "unlock" ∧ message.showtimeId = seat.1 ∧ seat.2 ∈ message.seatIds

instance {message : SeatLockMessage} {seat : ℤ × ℤ} : Decidable (LocksSeat message seat) := by
  unfold LocksSeat
  infer_instance

/-! ## The stages of a session -/

/-- Whether the gateway's worker has found another owner; the seat whose field the session has yet to
reset, with the connections it takes until then; the seats whose metadata it has written. -/
structure DebtStage where
  refused : Bool
  owes : Option ((ℤ × ℤ) × ℕ)
  written : List (ℤ × ℤ)
  deriving DecidableEq

namespace DebtStage

def start : DebtStage := ⟨false, none, []⟩

/-- Without its last connection, a session does not come to reset the field. -/
def afterConnect (b : DebtStage) (r : Option Unit) : DebtStage :=
  match b.owes with
  | none => b
  | some (_, 0) => b
  | some (seat, 1) => { b with owes := if r = none then none else some (seat, 0) }
  | some (seat, m + 2) => { b with owes := some (seat, m + 1) }

def afterOwner (b : DebtStage) (n : Task) (owner : Option ℤ) : DebtStage :=
  match n, owner with
  | .expiry _ entry, some owner => { b with refused := b.refused || decide (owner ≠ entry.userId) }
  | _, _ => b

/-- After an entry was taken away one more connection follows, after the script of an expired entry
the whole clean-up. -/
def next (n : Task) (b : DebtStage) : (k : Redis.Cmd) → Redis.Rep k → DebtStage
  | .connect, r => b.afterConnect r
  | .getLock .., r => b.afterOwner n (Option.join (r : Option (Option ℤ)))
  | .eval script showtimeId seatId _ _, _ =>
      if script = .releaseExpired ∧ 0 ≤ seatId then
        { b with owes := some ((showtimeId, seatId), 4) }
      else
        b
  | .zremQueue entry, _ =>
      if b.refused = true ∨ entry.seatId < 0 then b else { b with owes := some (entry.seat, 1) }
  | .setBits .., _ => { b with owes := none }
  | .writeMetadata showtimeId seatId .., r =>
      if (r : Option Unit) = none then b else { b with written := (showtimeId, seatId) :: b.written }
  | _, _ => b

/-- The session has no field to reset, and has found no other owner. -/
def Clear (b : DebtStage) : Prop := b.owes = none ∧ b.refused = false

/-- The session has the field of the seat to reset, after some connections. -/
def Owes (b : DebtStage) (seat : ℤ × ℤ) (m : ℕ) : Prop := b.owes = some (seat, m) ∧ b.refused = false

theorem Clear.afterConnect {b : DebtStage} (hb : b.Clear) (r : Option Unit) :
    b.afterConnect r = b := by
  unfold DebtStage.afterConnect
  rw [hb.1]

theorem Owes.afterConnect {b : DebtStage} {seat : ℤ × ℤ} {m : ℕ} (hb : b.Owes seat (m + 2))
    (r : Option Unit) : (b.afterConnect r).Owes seat (m + 1) := by
  unfold DebtStage.afterConnect
  rw [hb.1]
  exact ⟨rfl, hb.2⟩

end DebtStage

def debtNext (n : Task) (b : DebtStage) : (c : Cmd) → Rep c → DebtStage
  | .service (.redis k), r => b.next n k r
  | _, _ => b

/-- The Redis commands of the deployed services: fields are set to locked with an entry only, and a
session takes away entries of the seats it handles, one seat after the other. -/
def DebtCmd (n : Task) (b : DebtStage) : Redis.Cmd → Prop
  | .eval script showtimeId seatId _ entry =>
      script.Deletes ∧ entry.seat = (showtimeId, seatId) ∧ n.Handles (showtimeId, seatId) ∧
        b.owes = none
  | .writeMetadata showtimeId seatId _ _ _ entry => entry.seat = (showtimeId, seatId)
  | .zremQueue entry =>
      n.Handles entry.seat ∧ (∀ x, b.owes = some x → x.1 = entry.seat) ∧
        (b.refused = true → ∃ g, n = .expiry g entry)
  | .setBits showtimeId seatId state =>
      state ≠ .locked ∧ ∀ x, b.owes = some x → x.1 = (showtimeId, seatId)
  | _ => True

def debtMay (n : Task) (b : DebtStage) (c : Cmd) : Prop :=
  ∀ k, c = .service (.redis k) → DebtCmd n b k

section Follows

variable {n : Task}

/-- The stages of a session, for the commands of Redis and for those of the payment path. -/
abbrev DebtFollows {β : Type} (n : Task) (Q : β → DebtStage → Prop) (p : Op β) (b : DebtStage) :
    Prop :=
  p.Follows (fun b k => DebtCmd n b k) (fun b k => b.next n k) Q b

abbrev ServiceDebtFollows {β : Type} (n : Task) (Q : β → DebtStage → Prop) (p : Payments.Service β)
    (b : DebtStage) : Prop :=
  p.Follows (fun b c => debtMay n b (.service c)) (fun b c => debtNext n b (.service c)) Q b

theorem debtMay_redis {b : DebtStage} {k : Redis.Cmd} (hk : DebtCmd n b k) :
    debtMay n b (.service (.redis k)) := by
  intro k' hk'
  obtain rfl := Payments.Cmd.redis.inj (Cmd.service.inj hk')
  exact hk

theorem debtFollows_onRedis {β : Type} {Q : β → DebtStage → Prop} {p : Op β} {b : DebtStage}
    (h : DebtFollows n Q p b) : (onRedis p).Follows (debtMay n) (debtNext n) Q b :=
  Prog.Follows.hoist (fun _ _ hc => ⟨debtMay_redis hc, fun _ => rfl⟩) h

theorem serviceDebtFollows_onRedis {β : Type} {Q : β → DebtStage → Prop} {p : Op β} {b : DebtStage}
    (h : DebtFollows n Q p b) : ServiceDebtFollows n Q (Payments.onRedis p) b :=
  Prog.Follows.hoist (fun _ _ hc => ⟨debtMay_redis hc, fun _ => rfl⟩) h

theorem debtFollows_onServices {β : Type} {Q : β → DebtStage → Prop} {p : Payments.Service β}
    {b : DebtStage} (h : ServiceDebtFollows n Q p b) :
    (onServices p).Follows (debtMay n) (debtNext n) Q b :=
  Prog.Follows.hoist (fun _ _ hc => ⟨hc, fun _ => rfl⟩) h

/-- Commands that change no debt, and set no field to locked without an entry. -/
def Plain (n : Task) : Redis.Cmd → Prop
  | .eval .. => False
  | .zremQueue _ => False
  | .setBits .. => False
  | .getLock .. => ∀ g entry, n ≠ .expiry g entry
  | .writeMetadata showtimeId seatId _ _ _ entry => entry.seat = (showtimeId, seatId)
  | _ => True

theorem debtCmd_of_plain {b : DebtStage} {k : Redis.Cmd} (hk : Plain n k) : DebtCmd n b k := by
  cases k with
  | eval | zremQueue | setBits => exact absurd hk id
  | writeMetadata => exact hk
  | _ => trivial

theorem clear_of_plain {b : DebtStage} {k : Redis.Cmd} (hb : b.Clear) (hk : Plain n k)
    (r : Redis.Rep k) : (b.next n k r).Clear := by
  cases k with
  | eval | zremQueue | setBits => exact absurd hk id
  | connect =>
      show (b.afterConnect r).Clear
      rw [hb.afterConnect]
      exact hb
  | getLock =>
      show (b.afterOwner n _).Clear
      cases n with
      | expiry g entry => exact absurd rfl (hk g entry)
      | _ => exact hb
  | writeMetadata showtimeId seatId =>
      show (if (r : Option Unit) = none then b else _).Clear
      split_ifs
      · exact hb
      · exact hb
  | _ => exact hb

theorem follows_plain {β : Type} {p : Op β} {b : DebtStage} (h : p.Issues (Plain n))
    (hb : b.Clear) : DebtFollows n (fun _ b' => b'.Clear) p b :=
  Prog.follows_of_issues (S := DebtStage.Clear)
    (h.mono fun _ hk _ hb' => ⟨debtCmd_of_plain hk, clear_of_plain hb' hk⟩) hb

theorem plain_of_quiet (hn : ∀ g entry, n ≠ .expiry g entry) {k : Redis.Cmd} (hk : k.Quiet) :
    Plain n k := by
  cases k with
  | eval | zremQueue | setBits | writeMetadata => exact absurd hk id
  | getLock => exact hn
  | _ => trivial

theorem follows_quiet (hn : ∀ g entry, n ≠ .expiry g entry) {β : Type} {p : Payments.Service β}
    {b : DebtStage} (h : p.Issues Payments.Cmd.Quiet) (hb : b.Clear) :
    ServiceDebtFollows n (fun _ b' => b'.Clear) p b := by
  refine Prog.follows_of_issues (S := DebtStage.Clear) (h.mono fun c hc b' hb' => ?_) hb
  cases c with
  | redis k =>
      have hk := plain_of_quiet hn hc
      exact ⟨debtMay_redis (debtCmd_of_plain hk), clear_of_plain hb' hk⟩
  | _ => exact ⟨fun _ hk => (nomatch hk), fun _ => hb'⟩

theorem plain_publish (event : PubSubEvent) : (publishRoomEvent event).Issues (Plain n) := by
  unfold publishRoomEvent
  split
  · trivial
  · exact issues_cluster trivial trivial

/-! ### The clean-up -/

variable {showtimeId seatId userId : ℤ} {entry : QueueEntry} {b : DebtStage}

/-- The entry goes, and the field is to be reset; or the connection was not there. -/
theorem follows_dropEntry (hn : n.Handles entry.seat) (hb : b.Clear) :
    DebtFollows n (fun _ b' => b'.Clear ∨ 0 ≤ entry.seatId ∧ b'.Owes entry.seat 1)
      (zremClusterQueue entry) b := by
  refine ⟨trivial, fun r => ?_⟩
  show DebtFollows n _ _ (b.afterConnect r)
  rw [hb.afterConnect]
  match r with
  | none => exact .inl hb
  | some () =>
      refine ⟨⟨hn, fun x hx => ?_, fun hr => ?_⟩, fun r => ?_⟩
      · rw [hb.1] at hx
        cases hx
      · rw [hb.2] at hr
        cases hr
      · show (if b.refused = true ∨ entry.seatId < 0 then b else _).Clear ∨ 0 ≤ entry.seatId ∧
          (if b.refused = true ∨ entry.seatId < 0 then b else _).Owes entry.seat 1
        split_ifs with hskip
        · exact .inl hb
        · exact .inr ⟨not_lt.1 fun hneg => hskip (.inr hneg), rfl, hb.2⟩

/-- The last connection, and the field. -/
theorem follows_resetField {state : SeatState} (hstate : state ≠ .locked)
    (hb : b.Clear ∨ 0 ≤ seatId ∧ b.Owes (showtimeId, seatId) 1) :
    DebtFollows n (fun _ b' => b'.Clear)
      (setScheduleSeatBitmapStateCluster showtimeId seatId state) b := by
  have hset : ∀ b' : DebtStage, b'.Clear ∨ b'.Owes (showtimeId, seatId) 0 →
      DebtFollows n (fun _ b'' => b''.Clear)
        (Prog.call (Redis.Cmd.setBits showtimeId seatId state) fun _ => pure ()) b' := by
    intro b' hb'
    refine ⟨⟨hstate, fun x hx => ?_⟩, fun _ => ⟨rfl, ?_⟩⟩
    · rcases hb' with hclear | howes
      · rw [hclear.1] at hx
        cases hx
      · rw [howes.1] at hx
        obtain rfl := Option.some.inj hx
        rfl
    · rcases hb' with hclear | howes
      · exact hclear.2
      · exact howes.2
  unfold setScheduleSeatBitmapStateCluster
  split_ifs with hneg
  · rcases hb with hclear | ⟨hpos, -⟩
    · exact hclear
    · exact absurd hneg (not_lt.2 hpos)
  · refine ⟨trivial, fun r => ?_⟩
    show DebtFollows n _ _ (b.afterConnect r)
    rcases hb with hclear | ⟨-, howes⟩
    · rw [hclear.afterConnect]
      match r with
      | none => exact hclear
      | some () => exact hset b (.inl hclear)
    · have hafter : b.afterConnect r =
          { b with owes := if r = none then none else some ((showtimeId, seatId), 0) } := by
        unfold DebtStage.afterConnect
        rw [howes.1]
      rw [hafter]
      match r with
      | none => exact ⟨rfl, howes.2⟩
      | some () => exact hset _ (.inr ⟨rfl, howes.2⟩)

theorem follows_cleanUpSeat (hn : n.Handles (showtimeId, seatId))
    (hentry : entry.seat = (showtimeId, seatId)) {state : SeatState} (hstate : state ≠ .locked)
    (hb : b.Clear) :
    DebtFollows n (fun _ b' => b'.Clear) (cleanUp showtimeId seatId userId entry state) b := by
  have huser : (zremClusterUser showtimeId userId seatId).Issues (Plain n) :=
    issues_cluster trivial trivial
  have hroom : (zremClusterRoom showtimeId seatId userId).Issues (Plain n) :=
    issues_cluster trivial trivial
  refine (follows_plain huser hb).bind fun _ b₁ hb₁ => ?_
  refine (follows_plain hroom hb₁).bind fun _ b₂ hb₂ => ?_
  refine (follows_dropEntry (hentry ▸ hn) hb₂).bind fun _ b₃ hb₃ => ?_
  refine follows_resetField hstate (hb₃.imp id fun ⟨hpos, howes⟩ => ⟨?_, ?_⟩)
  · obtain rfl : entry.seatId = seatId := congrArg Prod.snd hentry
    exact hpos
  · rwa [hentry] at howes

/-- A command of the clean-up that changes no stage, and its connection. -/
theorem follows_onTheWay {k : Redis.Cmd} {m : ℕ} {seat : ℤ × ℤ} (hk : ∀ b, DebtCmd n b k)
    (hnext : ∀ (b : DebtStage) r, b.next n k r = b) (hb : b.Owes seat (m + 2)) :
    DebtFollows n (fun _ b' => b'.Owes seat (m + 1)) (cluster k) b := by
  refine ⟨trivial, fun r => ?_⟩
  have hafter : (b.afterConnect r).Owes seat (m + 1) := hb.afterConnect r
  show DebtFollows n _ _ (b.afterConnect r)
  match r with
  | none => exact hafter
  | some () =>
      refine ⟨hk _, fun r => ?_⟩
      show ((b.afterConnect (some ())).next n k r).Owes seat (m + 1)
      rw [hnext]
      exact hafter

/-- The clean-up after the script of an expired entry. -/
theorem follows_cleanUpOwed (hn : n.Handles (showtimeId, seatId))
    (hentry : entry.seat = (showtimeId, seatId)) (hpos : 0 ≤ seatId)
    (hb : b.Owes (showtimeId, seatId) 4) :
    DebtFollows n (fun _ b' => b'.Clear) (cleanUp showtimeId seatId userId entry .available) b := by
  have huser : DebtFollows n (fun _ b' => b'.Owes (showtimeId, seatId) 3)
      (zremClusterUser showtimeId userId seatId) b :=
    follows_onTheWay (fun _ => trivial) (fun _ _ => rfl) hb
  refine huser.bind fun _ b₁ hb₁ => ?_
  have hroom : DebtFollows n (fun _ b' => b'.Owes (showtimeId, seatId) 2)
      (zremClusterRoom showtimeId seatId userId) b₁ :=
    follows_onTheWay (fun _ => trivial) (fun _ _ => rfl) hb₁
  refine hroom.bind fun _ b₂ hb₂ => ?_
  have hqueue : DebtFollows n (fun _ b' => b'.Owes (showtimeId, seatId) 1)
      (zremClusterQueue entry) b₂ := by
    refine ⟨trivial, fun r => ?_⟩
    have hafter : (b₂.afterConnect r).Owes (showtimeId, seatId) 1 := hb₂.afterConnect r
    show DebtFollows n _ _ (b₂.afterConnect r)
    match r with
    | none => exact hafter
    | some () =>
        refine ⟨⟨hentry ▸ hn, fun x hx => ?_, fun hr => ?_⟩, fun r => ?_⟩
        · rw [hafter.1] at hx
          obtain rfl := Option.some.inj hx
          exact hentry.symm
        · rw [hafter.2] at hr
          cases hr
        · show (if _ ∨ entry.seatId < 0 then _ else _ : DebtStage).Owes _ 1
          split_ifs
          · exact hafter
          · exact ⟨congrArg (fun seat => some (seat, 1)) hentry, hafter.2⟩
  refine hqueue.bind fun _ b₃ hb₃ => ?_
  exact follows_resetField (by decide) (.inr ⟨hpos, hb₃⟩)

/-! ### Lock and unlock messages -/

theorem follows_release (hn : n.Handles (showtimeId, seatId)) (hb : b.Clear) :
    DebtFollows n (fun _ b' => b'.Clear) (releaseLock showtimeId seatId userId) b := by
  refine ⟨trivial, fun r => ?_⟩
  show DebtFollows n _ _ (b.afterConnect r)
  rw [hb.afterConnect]
  match r with
  | none => exact hb
  | some () =>
      refine ⟨⟨trivial, rfl, hn, hb.1⟩, fun r => ?_⟩
      show DebtFollows n _ (if r = some 1 then _ else _) b
      split_ifs
      · exact (follows_cleanUpSeat hn rfl (by decide) hb).bind fun _ _ hb' => hb'
      · exact hb

theorem follows_unlockMessage (showtimeId userId : ℤ) {seatIds : List ℤ}
    (hn : ∀ a ∈ seatIds, n.Handles (showtimeId, a)) {b : DebtStage} (hb : b.Clear) :
    DebtFollows n (fun _ b' => b'.Clear) (unlockSeats showtimeId userId seatIds) b := by
  induction seatIds generalizing b with
  | nil => exact hb
  | cons seatId seatIds ih =>
      have ih : ∀ {b' : DebtStage}, b'.Clear →
          DebtFollows n (fun _ b' => b'.Clear) (unlockSeats showtimeId userId seatIds) b' :=
        fun hb' => ih (fun a ha => hn a (List.mem_cons_of_mem _ ha)) hb'
      refine (follows_release (hn seatId List.mem_cons_self) hb).bind fun released b' hb' => ?_
      show DebtFollows n _ (if released = true then _ else _) b'
      split_ifs
      · exact (follows_plain (plain_publish _) hb').bind fun _ _ hb'' => ih hb''
      · exact ih hb'

theorem plain_updateMetadata (message : SeatLockMessage) (attempts : ℕ) :
    (updateMetadata message attempts).Issues (Plain n) := by
  induction attempts with
  | zero => trivial
  | succ attempts ih =>
      have hupdate : (updateSeatMetadataLua message.showtimeId message.seatIds message.userId
          lockTtlSecs).Issues (Plain n) :=
        ⟨trivial, fun now => issues_updateSeats trivial fun _ _ => rfl⟩
      refine hupdate.bind fun ok => ?_
      cases ok with
      | true => trivial
      | false => exact ih

theorem plain_announceLocked (showtimeId userId : ℤ) (seatIds : List ℤ) :
    (announceLocked showtimeId userId seatIds).Issues (Plain n) := by
  induction seatIds with
  | nil => trivial
  | cons seatId seatIds ih => exact (plain_publish _).bind fun _ => ih

theorem plain_publishGlobal (event : PubSubEvent) : (publishGlobalEvent event).Issues (Plain n) := by
  unfold publishGlobalEvent
  exact issues_cluster trivial trivial

theorem follows_lockMessage {message : SeatLockMessage}
    (hn : ∀ a ∈ message.seatIds, n.Handles (message.showtimeId, a)) {b : DebtStage}
    (hb : b.Clear) : DebtFollows n (fun _ b' => b'.Clear) (processLockRequest message) b := by
  unfold processLockRequest
  split
  · exact follows_unlockMessage _ _ hn hb
  · refine (follows_plain (plain_updateMetadata message 3) hb).bind fun ok b' hb' => ?_
    cases ok with
    | true =>
        refine (follows_plain (plain_announceLocked _ _ _) hb').bind fun _ b'' hb'' => ?_
        exact follows_plain (plain_publishGlobal _) hb''
    | false => exact follows_plain (plain_publishGlobal _) hb'

/-! ### The workers -/

theorem follows_forceBookEntry (hn : n.Handles entry.seat) (hb : b.Clear) :
    DebtFollows n (fun _ b' => b'.Clear)
      (forceBookSeatLua entry.scheduleId entry.seatId entry.userId entry) b := by
  refine ⟨trivial, fun r => ?_⟩
  show DebtFollows n _ _ (b.afterConnect r)
  rw [hb.afterConnect]
  match r with
  | none => exact hb
  | some () =>
      refine ⟨⟨trivial, rfl, hn, hb.1⟩, fun _ => ?_⟩
      exact follows_cleanUpSeat hn rfl (by decide) hb

theorem follows_releaseExpiredScript (hn : n.Handles entry.seat) (hb : b.Clear) :
    DebtFollows n (fun _ b' => b'.Clear)
      (releaseExpiredLockLua entry.scheduleId entry.seatId entry.userId entry) b := by
  refine ⟨trivial, fun r => ?_⟩
  show DebtFollows n _ _ (b.afterConnect r)
  rw [hb.afterConnect]
  match r with
  | none => exact hb
  | some () =>
      refine ⟨⟨trivial, rfl, hn, hb.1⟩, fun r => ?_⟩
      show DebtFollows n _ _ (if _ ∧ 0 ≤ entry.seatId then _ else _)
      by_cases hpos : 0 ≤ entry.seatId
      · rw [if_pos ⟨rfl, hpos⟩]
        have howed : DebtStage.Owes { b with owes := some ((entry.scheduleId, entry.seatId), 4) }
            (entry.scheduleId, entry.seatId) 4 := ⟨rfl, hb.2⟩
        exact (follows_cleanUpOwed hn rfl hpos howed).bind fun _ _ hb' => hb'
      · rw [if_neg fun h => hpos h.2]
        exact (follows_cleanUpSeat hn rfl (by decide) hb).bind fun _ _ hb' => hb'

theorem quiet_isSeatBookedInDb (scheduleId seatId : ℤ) :
    (isSeatBookedInDb scheduleId seatId).Issues Payments.Cmd.Quiet := by
  refine ⟨trivial, fun r => ?_⟩
  match r with
  | none => trivial
  | some () =>
      refine ⟨trivial, fun booked => ?_⟩
      show Prog.Issues _ (if 0 < booked.getD 0 then _ else _)
      split_ifs
      · trivial
      · exact ⟨trivial, fun _ => trivial⟩

theorem follows_updater (hb : b.Clear) :
    ServiceDebtFollows (.updater entry) (fun _ b' => b'.Clear) (processDueEntry entry) b := by
  have hn : ∀ g e, Task.updater entry ≠ .expiry g e := fun _ _ h => (nomatch h)
  have hhandles : (Task.updater entry).Handles entry.seat := rfl
  refine (follows_quiet hn (quiet_isSeatBookedInDb _ _) hb).bind fun found b' hb' => ?_
  cases found with
  | true => exact serviceDebtFollows_onRedis (follows_forceBookEntry hhandles hb')
  | false =>
      refine serviceDebtFollows_onRedis ?_
      exact (follows_releaseExpiredScript hhandles hb').bind fun _ _ hb'' =>
        follows_plain (plain_publish _) hb''

theorem follows_ownerOfEntry (g : ℕ) :
    DebtFollows (.expiry g entry)
      (fun owner b => b.owes = none ∧
        b.refused = decide (owner ≠ none ∧ owner ≠ some entry.userId))
      (getLockOwner entry.scheduleId entry.seatId) .start := by
  refine ⟨trivial, fun r => ?_⟩
  match r with
  | none => exact ⟨rfl, rfl⟩
  | some () =>
      refine ⟨trivial, fun owner => ?_⟩
      match owner with
      | none => exact ⟨rfl, rfl⟩
      | some none => exact ⟨rfl, rfl⟩
      | some (some owner) =>
          refine ⟨rfl, ?_⟩
          show (false || decide (owner ≠ entry.userId)) =
            decide (some owner ≠ none ∧ some owner ≠ some entry.userId)
          simp

theorem follows_dueCheck (g : ℕ) (now : ℤ) :
    DebtFollows (.expiry g entry) (fun passed b => b.owes = none ∧ (passed = true → b.Clear))
      (checkDueEntry now entry) .start := by
  have hhandles : (Task.expiry g entry).Handles (entry.scheduleId, entry.seatId) := rfl
  refine (follows_ownerOfEntry g).bind fun owner b hb => ?_
  show DebtFollows _ _ (if owner = none then _ else if owner ≠ some entry.userId then _ else _) b
  split_ifs with hnone hother
  · refine ⟨hb.1, fun _ => ⟨hb.1, ?_⟩⟩
    rw [hb.2, hnone]
    rfl
  · have hrefused : b.refused = true := by
      rw [hb.2]
      exact decide_eq_true ⟨hnone, hother⟩
    have hconn : ∀ r, b.afterConnect r = b := fun r => by
      unfold DebtStage.afterConnect
      rw [hb.1]
    refine ⟨trivial, fun r => ?_⟩
    show DebtFollows _ _ _ (b.afterConnect r)
    rw [hconn]
    match r with
    | none => exact ⟨hb.1, fun hfalse => (nomatch hfalse)⟩
    | some () =>
        refine ⟨⟨rfl, fun x hx => ?_, fun _ => ⟨g, rfl⟩⟩, fun r => ?_⟩
        · rw [hb.1] at hx
          cases hx
        · show DebtFollows _ _ _ (if b.refused = true ∨ _ then b else _)
          rw [if_pos (.inl hrefused)]
          exact ⟨hb.1, fun hfalse => (nomatch hfalse)⟩
  · have hclear : b.Clear := by
      refine ⟨hb.1, ?_⟩
      rw [hb.2]
      exact decide_eq_false fun h => hother h.2
    refine ⟨trivial, fun r => ?_⟩
    show DebtFollows _ _ (if Option.getD (r : Option Bool) false then _ else _) b
    split_ifs
    · have hpostpone : (zaddClusterQueue entry (now + 300)).Issues (Plain (.expiry g entry)) :=
        issues_cluster trivial trivial
      exact (follows_plain hpostpone hclear).bind fun _ _ hb' =>
        ⟨hb'.1, fun hfalse => (nomatch hfalse)⟩
    · exact (follows_release hhandles hclear).bind fun _ _ hb' => ⟨hb'.1, fun _ => hb'⟩

theorem follows_expiry (g : ℕ) (now : ℤ) :
    (releaseExpiredEntry g now entry).Follows (debtMay (.expiry g entry))
      (debtNext (.expiry g entry)) (fun _ b => b.owes = none) .start := by
  refine (debtFollows_onRedis (follows_dueCheck g now)).bind fun passed b hb => ?_
  cases passed with
  | true =>
      refine ⟨fun k hk => (nomatch hk), fun _ => ?_⟩
      have hfinish : DebtFollows (.expiry g entry) (fun _ b => b.Clear) (finishDueEntry entry) b := by
        have hhandles : (Task.expiry g entry).Handles entry.seat := rfl
        refine (follows_dropEntry hhandles (hb.2 rfl)).bind fun _ b' hb' => ?_
        refine (follows_resetField (by decide) hb').bind fun _ b'' hb'' => ?_
        exact follows_plain (plain_publish _) hb''
      exact (debtFollows_onRedis hfinish).mono fun _ _ hb' => hb'.1
  | false => exact hb.1

/-! ### Checkouts -/

theorem follows_markBooked (scheduleId userId : ℤ) {seatIds : List ℤ}
    (hn : ∀ a ∈ seatIds, n.Handles (scheduleId, a)) {b : DebtStage} (hb : b.Clear) :
    ServiceDebtFollows n (fun _ b' => b'.Clear)
      (Payments.markBooked scheduleId userId seatIds) b := by
  induction seatIds generalizing b with
  | nil => exact hb
  | cons seatId seatIds ih =>
      have hrelease : ServiceDebtFollows n (fun _ b' => b'.Clear)
          (Payments.onRedis (releaseLock scheduleId seatId userId)) b :=
        serviceDebtFollows_onRedis (follows_release (hn seatId List.mem_cons_self) hb)
      refine hrelease.bind fun _ b' hb' => ?_
      have hbook : ServiceDebtFollows n (fun _ b'' => b''.Clear)
          (Payments.onRedis (setScheduleSeatBitmapStateCluster scheduleId seatId .booked)) b' :=
        serviceDebtFollows_onRedis (follows_resetField (by decide) (.inl hb'))
      exact hbook.bind fun _ _ hb'' => ih (fun a ha => hn a (List.mem_cons_of_mem _ ha)) hb''

theorem follows_checkout (message : Payments.CheckoutMessage) (orderId : ℕ) (hb : b.Clear) :
    ServiceDebtFollows (.checkout message orderId) (fun _ b' => b'.Clear)
      (Payments.processCheckout message orderId) b := by
  have hn : ∀ g entry, Task.checkout message orderId ≠ .expiry g entry := fun _ _ h => (nomatch h)
  have hseats : ∀ a ∈ message.seatIds,
      (Task.checkout message orderId).Handles (message.scheduleId, a) := fun a ha => ⟨rfl, ha⟩
  have hquiet : ∀ {β : Type} {p : Payments.Service β} {b : DebtStage},
      p.Issues Payments.Cmd.Quiet → b.Clear →
        ServiceDebtFollows (.checkout message orderId) (fun _ b' => b'.Clear) p b :=
    fun h hb => follows_quiet hn h hb
  have hasks : ∀ {β : Type} {p : Payments.Service β} {b : DebtStage},
      p.Issues Payments.Asks → b.Clear →
        ServiceDebtFollows (.checkout message orderId) (fun _ b' => b'.Clear) p b :=
    fun h hb => hquiet (h.mono fun _ hc => hc.quiet) hb
  have hreads : ∀ {β : Type} {p : Payments.Service β}, p.Issues Payments.Reads →
      p.Issues Payments.Cmd.Quiet := fun h => h.mono fun _ hc => Payments.quiet_of_reads hc
  have hclear : ∀ (v : Payments.Verdict) {b : DebtStage}, b.Clear →
      ServiceDebtFollows (.checkout message orderId) (fun _ b' => b'.Clear)
        (Payments.clearCheckouts message.scheduleId message.seatIds >>= fun _ => pure v) b :=
    fun v _ hb => (hasks (Payments.asks_clearCheckouts _ _) hb).bind fun _ _ hb' => hb'
  refine (hquiet (hreads (Payments.reads_orderExists _)) hb).bind fun found b₁ hb₁ => ?_
  show ServiceDebtFollows _ _ (if found = true then _ else if message.seatIds = [] then _ else _) b₁
  split_ifs
  · exact hb₁
  · exact hb₁
  refine (hquiet (hreads (Payments.reads_checkOwnership _ _ _)) hb₁).bind fun reason b₂ hb₂ => ?_
  cases reason with
  | some reason =>
      exact (hasks (Payments.asks_rejectCheckout message reason) hb₂).bind fun _ _ hb' => hb'
  | none =>
      refine ⟨fun _ hk => (nomatch hk), fun r => ?_⟩
      match r with
      | none => exact hclear .nack hb₂
      | some () =>
          refine Prog.Follows.bind (p := Payments.announceCheckout message) ?_
            fun _ _ hb' => hclear .ack hb'
          refine (hasks (Payments.asks_adjust _ _) hb₂).bind fun _ b₃ hb₃ => ?_
          refine (follows_markBooked _ _ hseats hb₃).bind fun _ b₄ hb₄ => ?_
          exact hasks (Payments.asks_publishRoom _ _) hb₄

end Follows

/-- What a deployed service starts pays its debts before it returns. -/
theorem debtFollows_started {s : World} {n : Task} {q : Service Result} (h : Started s n q)
    (hn : n ≠ .operation) :
    q.Follows (debtMay n) (debtNext n) (fun _ b => b.owes = none) .start := by
  have hclear : DebtStage.start.Clear := ⟨rfl, rfl⟩
  have hquiet : n.writesSeats = false →
      q.Follows (debtMay n) (debtNext n) (fun _ b => b.owes = none) .start := by
    intro hw
    have hexpiry : ∀ g entry, n ≠ .expiry g entry := by
      rintro g entry rfl
      cases hw
    refine (Prog.follows_of_issues (S := DebtStage.Clear)
      ((quiet_started h hw).mono fun c hc b hb => ?_) hclear).mono fun _ _ hb => hb.1
    cases c with
    | service c =>
        cases c with
        | redis k =>
            have hk := plain_of_quiet hexpiry hc
            exact ⟨debtMay_redis (debtCmd_of_plain hk), clear_of_plain hb hk⟩
        | _ => exact ⟨fun _ hk => (nomatch hk), fun _ => hb⟩
    | _ => exact ⟨fun _ hk => (nomatch hk), fun _ => hb⟩
  cases h with
  | operation => exact absurd rfl hn
  | @lockMessage k message hmessage =>
      have hseats : ∀ a ∈ message.seatIds,
          (Task.lockMessage k message).Handles (message.showtimeId, a) := fun a ha => ⟨rfl, ha⟩
      exact (debtFollows_onRedis (follows_lockMessage hseats hclear)).bind fun _ _ hb => hb.1
  | updater => exact (debtFollows_onServices (follows_updater hclear)).bind fun _ _ hb => hb.1
  | expiry g => exact (follows_expiry g _).bind fun _ _ hb => hb
  | checkout message orderId =>
      exact (debtFollows_onServices (follows_checkout message orderId hclear)).bind
        fun _ _ hb => hb.1
  | _ => exact hquiet rfl

end Gateway
end Bookit

import Bookit.Data.Json
import Bookit.Lib.Expiring
import Bookit.Lib.SortedSet
import Bookit.Lib.Threads
import Mathlib.Algebra.Group.Nat.Defs

/-!
# Redis.Store — the keys and commands of the seat-lock machinery

One Redis node holds the lock keys, the delayed queue, the seat bitmap, the cached seat counts and
the channels.  A Lua script and a `MULTI` block are one command each.  Keys are named by what their
key builders put into them; times are in milliseconds where Redis counts milliseconds, and the
services read the clock in seconds.
-/

namespace Bookit

open Lib

/-- The two bits of a seat in the bitmap: `00`, `01`, `10`. -/
inductive SeatState where
  | available
  | locked
  | booked
  deriving DecidableEq

/-- A member of the delayed queue. -/
structure QueueEntry where
  seatId : ℤ
  scheduleId : ℤ
  userId : ℤ
  deriving DecidableEq

inductive Channel where
  | room (showtimeId : ℤ)
  | globalEvents
  deriving DecidableEq

structure Redis where
  /-- The node's clock. -/
  now : ℕ
  /-- Key 1, `seat_lock_key`: the owner of a seat of a showtime. -/
  seatLock : Expiring (ℤ × ℤ) ℤ
  /-- Key 2, `seat_user_context_key`, for a seat of a showtime and a user. -/
  seatContext : Expiring (ℤ × ℤ × ℤ) Unit
  /-- `seat_checkout:{schedule}:{seat}`, held by a user under an idempotency key. -/
  seatCheckout : Expiring (ℤ × ℤ) (ℤ × String)
  /-- The user zset of a showtime and a user. -/
  userLocks : ℤ × ℤ → SortedSet ℤ
  /-- The room zset of a showtime, with members `seat:user`. -/
  roomLocks : ℤ → SortedSet (ℤ × ℤ)
  queue : SortedSet QueueEntry
  bitmap : ℤ × ℤ → SeatState
  availableSeats : ℤ → Option ℤ
  published : List (Channel × Json)

namespace Redis

def empty : Redis :=
  { now := 0, seatLock := .empty, seatContext := .empty, seatCheckout := .empty,
    userLocks := fun _ => .empty, roomLocks := fun _ => .empty, queue := .empty,
    bitmap := fun _ => .available, availableSeats := fun _ => none, published := [] }

/-- `set f a v` is `f` with the value at `a` replaced. -/
def setAt {K V : Type} [DecidableEq K] (f : K → V) (a : K) (v : V) : K → V :=
  fun b => if b = a then v else f b

section SetAt

variable {K V : Type} [DecidableEq K] {f : K → V} {a b : K} {v : V}

@[simp] theorem setAt_self : setAt f a v a = v := by
  simp [setAt]

theorem setAt_ne (h : b ≠ a) : setAt f a v b = f b := by
  simp [setAt, h]

end SetAt

/-- The owner of a seat's lock. -/
def lockOwner (s : Redis) (showtimeId seatId : ℤ) : Option ℤ :=
  s.seatLock.lookup s.now (showtimeId, seatId)

/-- The context key of a seat and a user exists. -/
def hasContext (s : Redis) (showtimeId seatId userId : ℤ) : Bool :=
  (s.seatContext.lookup s.now (showtimeId, seatId, userId)).isSome

/-- The clock as the services read it, in seconds. -/
def timestamp (s : Redis) : ℤ := ((s.now / 1000 : ℕ) : ℤ)

/-! ## Updates of one structure -/

def zaddUser (s : Redis) (showtimeId userId seatId score : ℤ) : Redis :=
  { s with userLocks :=
      setAt s.userLocks (showtimeId, userId) ((s.userLocks (showtimeId, userId)).add seatId score) }

def zremUser (s : Redis) (showtimeId userId seatId : ℤ) : Redis :=
  { s with userLocks :=
      setAt s.userLocks (showtimeId, userId) ((s.userLocks (showtimeId, userId)).rem seatId) }

def zaddRoom (s : Redis) (showtimeId seatId userId score : ℤ) : Redis :=
  { s with roomLocks :=
      setAt s.roomLocks showtimeId ((s.roomLocks showtimeId).add (seatId, userId) score) }

def zremRoom (s : Redis) (showtimeId seatId userId : ℤ) : Redis :=
  { s with roomLocks :=
      setAt s.roomLocks showtimeId ((s.roomLocks showtimeId).rem (seatId, userId)) }

def zaddQueue (s : Redis) (entry : QueueEntry) (score : ℤ) : Redis :=
  { s with queue := s.queue.add entry score }

def zremQueue (s : Redis) (entry : QueueEntry) : Redis :=
  { s with queue := s.queue.rem entry }

/-- `BITFIELD SET u2` at twice the seat id; a negative offset is refused. -/
def setBits (s : Redis) (showtimeId seatId : ℤ) (state : SeatState) : Redis :=
  if seatId < 0 then s else { s with bitmap := setAt s.bitmap (showtimeId, seatId) state }

@[simp] theorem setBits_now (s : Redis) (showtimeId seatId : ℤ) (state : SeatState) :
    (s.setBits showtimeId seatId state).now = s.now := by
  unfold setBits
  split_ifs <;> rfl

@[simp] theorem setBits_seatLock (s : Redis) (showtimeId seatId : ℤ) (state : SeatState) :
    (s.setBits showtimeId seatId state).seatLock = s.seatLock := by
  unfold setBits
  split_ifs <;> rfl

/-- Both lock keys of a user. -/
def delLock (s : Redis) (showtimeId seatId userId : ℤ) : Redis :=
  { s with
    seatLock := s.seatLock.del (showtimeId, seatId)
    seatContext := s.seatContext.del (showtimeId, seatId, userId) }

def putLock (s : Redis) (showtimeId seatId userId : ℤ) (ttlMs : ℕ) : Redis :=
  { s with seatLock := s.seatLock.put (showtimeId, seatId) userId (s.now + ttlMs) }

/-! ## Commands -/

/-- The largest expiry time Redis stores. -/
def maxExpiry : ℕ := 2 ^ 63 - 1

/-- `PX` and `EX` take a positive time that does not overflow. -/
def validTtl (s : Redis) (ttlMs : ℕ) : Bool :=
  decide (0 < ttlMs ∧ s.now + ttlMs ≤ maxExpiry)

/-- `SET key owner NX PX ttl` on the lock key: whether the key was set, or an error. -/
def setLockNx (showtimeId seatId userId : ℤ) (ttlMs : ℕ) (s : Redis) : Redis × Option Bool :=
  if s.validTtl ttlMs then
    match s.lockOwner showtimeId seatId with
    | some _ => (s, some false)
    | none => (s.putLock showtimeId seatId userId ttlMs, some true)
  else
    (s, none)

/-- `PEXPIRE` on the lock key; no time at all deletes the key. -/
def pexpireLock (showtimeId seatId : ℤ) (ttlMs : ℕ) (s : Redis) : Redis × Option Unit :=
  if ttlMs = 0 then
    ({ s with seatLock := s.seatLock.del (showtimeId, seatId) }, some ())
  else if s.now + ttlMs ≤ maxExpiry then
    ({ s with seatLock := s.seatLock.touch s.now (showtimeId, seatId) (s.now + ttlMs) }, some ())
  else
    (s, none)

/-- A script's integer result; its last command is the `BITFIELD`, which fails on a negative seat
id and fails the script with it. -/
def scriptReply (seatId : ℤ) (result : ℤ) : Option ℤ :=
  if seatId < 0 then none else some result

/-- What the release, expiry and booking scripts do for the owner of a lock, or for a free one. -/
def releaseKeys (s : Redis) (showtimeId seatId userId : ℤ) (entry : QueueEntry)
    (state : SeatState) : Redis :=
  ((((s.delLock showtimeId seatId userId).zremUser showtimeId userId seatId).zremRoom
    showtimeId seatId userId).zremQueue entry).setBits showtimeId seatId state

@[simp] theorem releaseKeys_now (s : Redis) (showtimeId seatId userId : ℤ) (entry : QueueEntry)
    (state : SeatState) : (s.releaseKeys showtimeId seatId userId entry state).now = s.now :=
  setBits_now ..

@[simp] theorem releaseKeys_seatLock (s : Redis) (showtimeId seatId userId : ℤ)
    (entry : QueueEntry) (state : SeatState) :
    (s.releaseKeys showtimeId seatId userId entry state).seatLock =
      s.seatLock.del (showtimeId, seatId) :=
  setBits_seatLock ..

/-- `not owner or owner == ARGV[1]`. -/
def freeOrOwnedBy (s : Redis) (showtimeId seatId userId : ℤ) : Bool :=
  match s.lockOwner showtimeId seatId with
  | none => true
  | some owner => decide (owner = userId)

theorem freeOrOwnedBy_iff {s : Redis} {showtimeId seatId userId : ℤ} :
    s.freeOrOwnedBy showtimeId seatId userId = true ↔
      ∀ owner, s.lockOwner showtimeId seatId = some owner → owner = userId := by
  unfold freeOrOwnedBy
  cases s.lockOwner showtimeId seatId with
  | none => simp
  | some owner => simp

/-- The scripts of the single-node lock. -/
inductive Script where
  | acquire (ttlMs : ℕ) (expiry processingExpiry : ℤ)
  | releaseExpired
  | release
  | book
  | forceBook
  deriving DecidableEq

/-- A script run for a seat, a user and a queue member. -/
def eval (script : Script) (showtimeId seatId userId : ℤ) (entry : QueueEntry) (s : Redis) :
    Redis × Option ℤ :=
  match script with
  | .acquire ttlMs expiry processingExpiry =>
      if s.freeOrOwnedBy showtimeId seatId userId then
        if s.validTtl ttlMs then
          let locked := s.putLock showtimeId seatId userId ttlMs
          let owned :=
            { locked with
              seatContext :=
                s.seatContext.put (showtimeId, seatId, userId) () (s.now + ttlMs) }
          ((((owned.zaddUser showtimeId userId seatId expiry).zaddRoom
            showtimeId seatId userId expiry).zaddQueue entry processingExpiry).setBits
              showtimeId seatId .locked, scriptReply seatId 1)
        else
          (s, none)
      else
        (s, some 0)
  | .releaseExpired =>
      if s.freeOrOwnedBy showtimeId seatId userId then
        (s.releaseKeys showtimeId seatId userId entry .available, scriptReply seatId 1)
      else
        (s.zremQueue entry, some 0)
  | .release =>
      if s.freeOrOwnedBy showtimeId seatId userId then
        (s.releaseKeys showtimeId seatId userId entry .available, scriptReply seatId 1)
      else
        (s, some 0)
  | .book =>
      if s.freeOrOwnedBy showtimeId seatId userId then
        (s.releaseKeys showtimeId seatId userId entry .booked, scriptReply seatId 1)
      else
        (s, some 0)
  | .forceBook =>
      let unlocked :=
        if s.freeOrOwnedBy showtimeId seatId userId then s.delLock showtimeId seatId userId else s
      ((((unlocked.zremUser showtimeId userId seatId).zremRoom
        showtimeId seatId userId).zremQueue entry).setBits showtimeId seatId .booked,
        scriptReply seatId 1)

/-- The `MULTI` block of `update_seat_metadata_lua`. -/
def writeMetadata (showtimeId seatId userId : ℤ) (expiry processingExpiry : ℤ)
    (entry : QueueEntry) (s : Redis) : Redis × Option Unit :=
  ((((s.zaddRoom showtimeId seatId userId expiry).zaddUser showtimeId userId seatId
    expiry).zaddQueue entry processingExpiry).setBits showtimeId seatId .locked,
    if seatId < 0 then none else some ())

/-- `SET key owner NX EX ttl` on the checkout key of a seat. -/
def setCheckoutNx (scheduleId seatId : ℤ) (owner : ℤ × String) (ttlSec : ℕ) (s : Redis) :
    Redis × Bool :=
  match s.seatCheckout.lookup s.now (scheduleId, seatId) with
  | some _ => (s, false)
  | none =>
      ({ s with seatCheckout :=
          s.seatCheckout.put (scheduleId, seatId) owner (s.now + ttlSec * 1000) }, true)

inductive Cmd where
  | connect
  | utcNow
  | setLockNx (showtimeId seatId userId : ℤ) (ttlMs : ℕ)
  | getLock (showtimeId seatId : ℤ)
  | pexpireLock (showtimeId seatId : ℤ) (ttlMs : ℕ)
  | eval (script : Script) (showtimeId seatId userId : ℤ) (entry : QueueEntry)
  | writeMetadata (showtimeId seatId userId : ℤ) (expiry processingExpiry : ℤ) (entry : QueueEntry)
  | zaddUser (showtimeId userId seatId score : ℤ)
  | zremUser (showtimeId userId seatId : ℤ)
  | zaddRoom (showtimeId seatId userId score : ℤ)
  | zremRoom (showtimeId seatId userId : ℤ)
  | zaddQueue (entry : QueueEntry) (score : ℤ)
  | zremQueue (entry : QueueEntry)
  | dueEntries (max : ℤ)
  | setBits (showtimeId seatId : ℤ) (state : SeatState)
  | existsContext (showtimeId seatId userId : ℤ)
  | existsCheckout (scheduleId seatId : ℤ)
  | setCheckoutNx (scheduleId seatId : ℤ) (owner : ℤ × String) (ttlSec : ℕ)
  | getCheckout (scheduleId seatId : ℤ)
  | delCheckout (scheduleId seatId : ℤ)
  | adjustAvailable (scheduleId delta : ℤ)
  | publish (channel : Channel) (payload : Json)

/-- Replies; a command whose answer does not arrive, or is an error, has none. -/
abbrev Rep : Cmd → Type
  | .utcNow => ℤ
  | .setLockNx .. => Option Bool
  | .getLock .. => Option (Option ℤ)
  | .eval .. => Option ℤ
  | .dueEntries _ => Option (List QueueEntry)
  | .existsContext .. => Option Bool
  | .existsCheckout .. => Option Bool
  | .setCheckoutNx .. => Option Bool
  | .getCheckout .. => Option (Option (ℤ × String))
  | _ => Option Unit

/-- A command whose execution may itself answer with an error. -/
def deliver {ρ : Type} (l : Link) (run : Redis → Redis × Option ρ) (s : Redis) :
    Redis × Option ρ :=
  ((l.deliver run s).1, (l.deliver run s).2.join)

/-- A command that always succeeds where it is executed. -/
def update (l : Link) (f : Redis → Redis) (s : Redis) : Redis × Option Unit :=
  l.deliver (fun s => (f s, ())) s

/-- A command that only reads. -/
def read {ρ : Type} (l : Link) (v : Redis → ρ) (s : Redis) : Redis × Option ρ :=
  l.deliver (fun s => (s, v s)) s

section Delivery

variable {ρ : Type} {l : Link} {s : Redis} {P : Redis → Prop}

theorem deliver_induction {run : Redis → Redis × Option ρ} (h0 : P s) (h1 : P (run s).1) :
    P (deliver l run s).1 :=
  Link.deliver_induction h0 h1

theorem deliver_cases {run : Redis → Redis × Option ρ} {t : Redis} {r : Option ρ}
    (h : deliver l run s = (t, r)) :
    (t = s ∧ r = none) ∨ (t = (run s).1 ∧ (r = none ∨ r = (run s).2)) := by
  obtain ⟨ht, hr⟩ := Prod.mk.inj h
  cases l with
  | ok => exact .inr ⟨ht.symm, .inr hr.symm⟩
  | lost => exact .inl ⟨ht.symm, hr.symm⟩
  | unacked => exact .inr ⟨ht.symm, .inl hr.symm⟩

theorem update_cases {f : Redis → Redis} {t : Redis} {r : Option Unit}
    (h : update l f s = (t, r)) : t = s ∨ t = f s := by
  rcases Link.deliver_cases h with ⟨rfl, -⟩ | ⟨rfl, -⟩
  · exact .inl rfl
  · exact .inr rfl

theorem update_induction {f : Redis → Redis} (h0 : P s) (h1 : P (f s)) : P (update l f s).1 :=
  Link.deliver_induction h0 h1

@[simp] theorem read_fst {v : Redis → ρ} : (read l v s).1 = s := by
  cases l <;> rfl

end Delivery

/-- `SET NX` leaves the node as it was, or sets a free key. -/
theorem setLockNx_cases {l : Link} {showtimeId seatId userId : ℤ} {ttlMs : ℕ} {s t : Redis}
    {r : Option Bool} (h : deliver l (Redis.setLockNx showtimeId seatId userId ttlMs) s = (t, r)) :
    (t = s ∧ r ≠ some true) ∨
    (s.lockOwner showtimeId seatId = none ∧ t = s.putLock showtimeId seatId userId ttlMs) := by
  have hrun : (Redis.setLockNx showtimeId seatId userId ttlMs s).1 = s ∧
        (Redis.setLockNx showtimeId seatId userId ttlMs s).2 ≠ some true ∨
      s.lockOwner showtimeId seatId = none ∧
        (Redis.setLockNx showtimeId seatId userId ttlMs s).1 =
          s.putLock showtimeId seatId userId ttlMs := by
    unfold Redis.setLockNx
    split_ifs
    · cases howner : s.lockOwner showtimeId seatId with
      | some owner => exact .inl ⟨rfl, by simp⟩
      | none => exact .inr ⟨rfl, rfl⟩
    · exact .inl ⟨rfl, by simp⟩
  rcases deliver_cases h with ⟨rfl, rfl⟩ | ⟨rfl, hr⟩
  · exact .inl ⟨rfl, by simp⟩
  · rcases hrun with ⟨hs, hne⟩ | ⟨hfree, hput⟩
    · refine .inl ⟨hs, ?_⟩
      rcases hr with rfl | rfl
      · simp
      · exact hne
    · exact .inr ⟨hfree, hput⟩

def exec (l : Link) : (c : Cmd) → Redis → Redis × Rep c
  | .connect, s => read l (fun _ => ()) s
  | .utcNow, s => (s, s.timestamp)
  | .setLockNx showtimeId seatId userId ttlMs, s =>
      deliver l (Redis.setLockNx showtimeId seatId userId ttlMs) s
  | .getLock showtimeId seatId, s => read l (·.lockOwner showtimeId seatId) s
  | .pexpireLock showtimeId seatId ttlMs, s => deliver l (Redis.pexpireLock showtimeId seatId ttlMs) s
  | .eval script showtimeId seatId userId entry, s =>
      deliver l (Redis.eval script showtimeId seatId userId entry) s
  | .writeMetadata showtimeId seatId userId expiry processingExpiry entry, s =>
      deliver l (Redis.writeMetadata showtimeId seatId userId expiry processingExpiry entry) s
  | .zaddUser showtimeId userId seatId score, s =>
      update l (·.zaddUser showtimeId userId seatId score) s
  | .zremUser showtimeId userId seatId, s => update l (·.zremUser showtimeId userId seatId) s
  | .zaddRoom showtimeId seatId userId score, s =>
      update l (·.zaddRoom showtimeId seatId userId score) s
  | .zremRoom showtimeId seatId userId, s => update l (·.zremRoom showtimeId seatId userId) s
  | .zaddQueue entry score, s => update l (·.zaddQueue entry score) s
  | .zremQueue entry, s => update l (·.zremQueue entry) s
  | .dueEntries max, s => read l (·.queue.upTo max) s
  | .setBits showtimeId seatId state, s =>
      update l (fun s => s.setBits showtimeId seatId state) s
  | .existsContext showtimeId seatId userId, s => read l (·.hasContext showtimeId seatId userId) s
  | .existsCheckout scheduleId seatId, s =>
      read l (fun s => (s.seatCheckout.lookup s.now (scheduleId, seatId)).isSome) s
  | .setCheckoutNx scheduleId seatId owner ttlSec, s =>
      l.deliver (Redis.setCheckoutNx scheduleId seatId owner ttlSec) s
  | .getCheckout scheduleId seatId, s =>
      read l (fun s => s.seatCheckout.lookup s.now (scheduleId, seatId)) s
  | .delCheckout scheduleId seatId, s =>
      update l (fun s => { s with seatCheckout := s.seatCheckout.del (scheduleId, seatId) }) s
  | .adjustAvailable scheduleId delta, s =>
      update l (fun s => { s with
        availableSeats := setAt s.availableSeats scheduleId
          ((s.availableSeats scheduleId).map (· + delta)) }) s
  | .publish channel payload, s =>
      update l (fun s => { s with published := s.published ++ [(channel, payload)] }) s

end Redis

end Bookit

import Bookit.Redis.ClusterLock
import Mathlib.Data.List.TakeWhile

/-!
# Redis.HashSlots — the slots of the keys of a script

The keys of the sorted sets, of the bitmap and of the context carry the schedule as their hash tag; the
key of the lock and that of the queue have none, so that all their text is hashed.  A script that takes
one of these together with a tagged key is refused, unless the slots happen to be the same.
-/

namespace Bookit
namespace ClusterLock

/-! ## Scripts -/

/-- The scripts of the cluster lock that take more than one key. -/
inductive MultiKeyScript where
  | acquireSeatLock
  | updateSeatMetadata
  | releaseLock
  | releaseExpiredLock
  | bookSeat
  | forceBookSeat
  deriving DecidableEq

/-- The keys with which a script is called. -/
def MultiKeyScript.keys (showtimeId seatId userId : ℤ) : MultiKeyScript → List String
  | .acquireSeatLock => acquireKeys showtimeId seatId userId
  | .updateSeatMetadata => metadataKeys showtimeId userId
  | .releaseLock => releaseKeys showtimeId seatId userId
  | .releaseExpiredLock | .bookSeat | .forceBookSeat => allKeys showtimeId seatId userId

/-- The slot of a text of which all is hashed. -/
def textSlot (text : String) : ℕ :=
  (SingleNodeLock.crc16 text.toUTF8.data.toList).toNat % 16384

/-- The lock of the seat is in the slot of its schedule's tag. -/
def LockBesideTag (showtimeId seatId : ℤ) : Prop :=
  textSlot (toString showtimeId ++ ":" ++ toString seatId) = textSlot (toString showtimeId)

/-- The queue is in the slot of the schedule's tag. -/
def QueueBesideTag (showtimeId : ℤ) : Prop :=
  textSlot seatProcessingQueueKey = textSlot (toString showtimeId)

/-- The slots that have to coincide for a script. -/
def MultiKeyScript.SlotsMeet (showtimeId seatId : ℤ) : MultiKeyScript → Prop
  | .updateSeatMetadata => True
  | .releaseLock => LockBesideTag showtimeId seatId
  | _ => LockBesideTag showtimeId seatId ∧ QueueBesideTag showtimeId

/-! ## The tag of a key -/

/-- A number is written without braces. -/
theorem no_braces_toString (n : ℤ) :
    ∀ c ∈ (toString n).toList, c ≠ '\x7b' ∧ c ≠ '\x7d' := by
  -- a digit is neither of them, nor is the sign
  have hdigits : ∀ m : ℕ, ∀ c ∈ m.repr.toList, c ≠ '\x7b' ∧ c ≠ '\x7d' := by
    intro m c hc
    have hdigit : c.isDigit := by
      refine Nat.isDigit_of_mem_toDigits (b := 10) (n := m) (by decide) (by decide) ?_
      simpa [Nat.repr] using hc
    constructor
    · rintro rfl
      exact absurd hdigit (by decide)
    · rintro rfl
      exact absurd hdigit (by decide)
  intro c hc
  cases n with
  | ofNat m => exact hdigits m c hc
  | negSucc m =>
      have hc : c ∈ ("-" ++ (m + 1).repr).toList := hc
      rw [String.toList_append] at hc
      rcases List.mem_append.1 hc with hsign | hrest
      · rw [List.mem_singleton.1 (show c ∈ ['-'] from hsign)]
        decide
      · exact hdigits (m + 1) c hrest

theorem toString_ne_nil (n : ℤ) : (toString n).toList ≠ [] := by
  cases n with
  | ofNat m =>
      show m.repr.toList ≠ []
      simp [Nat.repr, Nat.toDigits_ne_nil]
  | negSucc m =>
      show ("-" ++ (m + 1).repr).toList ≠ []
      rw [String.toList_append]
      exact List.cons_ne_nil _ _

/-- A key without an opening brace is hashed as a whole. -/
theorem hashTag_of_no_brace {key : List Char} : '\x7b' ∉ key → hashTag key = key := by
  intro h
  have hdrop : key.dropWhile (· ≠ '\x7b') = [] := by
    rw [List.dropWhile_eq_nil_iff]
    intro c hc
    exact decide_eq_true fun heq => h (heq ▸ hc)
  unfold hashTag
  rw [hdrop]

/-- Of a key with a tag only the tag is hashed. -/
theorem hashTag_of_tag {before tag after : List Char} :
    '\x7b' ∉ before → tag ≠ [] → '\x7d' ∉ tag →
      hashTag (before ++ '\x7b' :: (tag ++ '\x7d' :: after)) = tag := by
  intro hbefore hne htag
  have hdrop : (before ++ '\x7b' :: (tag ++ '\x7d' :: after)).dropWhile (· ≠ '\x7b') =
      '\x7b' :: (tag ++ '\x7d' :: after) := by
    rw [List.dropWhile_append_of_pos]
    · rfl
    · intro c hc
      exact decide_eq_true fun heq => hbefore (heq ▸ hc)
  have htake : (tag ++ '\x7d' :: after).takeWhile (· ≠ '\x7d') = tag := by
    rw [List.takeWhile_append_of_pos]
    · exact List.append_nil tag
    · intro c hc
      exact decide_eq_true fun heq => htag (heq ▸ hc)
  have hshorter : tag ≠ tag ++ '\x7d' :: after := by
    intro heq
    have hlen := congrArg List.length heq
    rw [List.length_append, List.length_cons] at hlen
    omega
  unfold hashTag
  rw [hdrop]
  simp only [htake]
  rw [if_neg (not_or.2 ⟨hne, hshorter⟩)]

/-! ## The slots of the keys -/

section Slots

variable (showtimeId seatId userId : ℤ)

theorem hashSlot_of_no_brace {key : String} : '\x7b' ∉ key.toList → hashSlot key = textSlot key := by
  intro h
  unfold hashSlot textSlot
  rw [hashTag_of_no_brace h, String.ofList_toList]

/-- A key is in the slot of the schedule's number where that is its tag. -/
theorem hashSlot_of_tag {key : String} (before after : List Char) :
    '\x7b' ∉ before →
      key.toList = before ++ '\x7b' :: ((toString showtimeId).toList ++ '\x7d' :: after) →
        hashSlot key = textSlot (toString showtimeId) := by
  intro hbefore hkey
  have hplain := no_braces_toString showtimeId
  have htag : '\x7d' ∉ (toString showtimeId).toList := fun hmem => (hplain _ hmem).2 rfl
  unfold hashSlot textSlot
  rw [hkey, hashTag_of_tag hbefore (toString_ne_nil showtimeId) htag, String.ofList_toList]

theorem hashSlot_lockKey :
    hashSlot (seatLockKey showtimeId seatId) =
      textSlot (toString showtimeId ++ ":" ++ toString seatId) := by
  apply hashSlot_of_no_brace
  intro hmem
  simp only [seatLockKey, String.toList_append, List.mem_append] at hmem
  rcases hmem with (hschedule | hcolon) | hseat
  · exact (no_braces_toString showtimeId _ hschedule).1 rfl
  · exact absurd hcolon (by decide)
  · exact (no_braces_toString seatId _ hseat).1 rfl

theorem hashSlot_queueKey : hashSlot seatProcessingQueueKey = textSlot seatProcessingQueueKey :=
  hashSlot_of_no_brace (by decide)

theorem hashSlot_contextKey :
    hashSlot (seatUserContextKey showtimeId seatId userId) = textSlot (toString showtimeId) := by
  apply hashSlot_of_tag showtimeId "seat_ctx:".toList
    (":".toList ++ (toString seatId).toList ++ ":".toList ++ (toString userId).toList) (by decide)
  simp [seatUserContextKey, String.toList_append]

theorem hashSlot_roomKey :
    hashSlot (roomZsetKey showtimeId) = textSlot (toString showtimeId) := by
  apply hashSlot_of_tag showtimeId [] ":locks".toList (by decide)
  simp [roomZsetKey, String.toList_append]

theorem hashSlot_userKey :
    hashSlot (userZsetKey showtimeId userId) = textSlot (toString showtimeId) := by
  apply hashSlot_of_tag showtimeId [] (":user:".toList ++ (toString userId).toList) (by decide)
  simp [userZsetKey, String.toList_append]

theorem hashSlot_bitmapKey :
    hashSlot (scheduleSeatBitmap showtimeId) = textSlot (toString showtimeId) := by
  apply hashSlot_of_tag showtimeId [] ":seats_bitmap".toList (by decide)
  simp [scheduleSeatBitmap, String.toList_append]

end Slots

/-! ## Scripts that are not refused -/

/-- The keys of a script are in one slot exactly where the lock and the queue, as far as it takes
them, are in the slot of the schedule's tag; those of the metadata always are. -/
theorem one_slot_iff (script : MultiKeyScript) (showtimeId seatId userId : ℤ) :
    OneSlot hashSlot (script.keys showtimeId seatId userId) ↔
      script.SlotsMeet showtimeId seatId := by
  -- the lock comes first, and the tagged keys are all in the slot of the schedule
  have hshared : (textSlot (toString showtimeId) =
        textSlot (toString showtimeId ++ ":" ++ toString seatId) ∧
      textSlot seatProcessingQueueKey =
        textSlot (toString showtimeId ++ ":" ++ toString seatId)) ↔
      LockBesideTag showtimeId seatId ∧ QueueBesideTag showtimeId := by
    unfold LockBesideTag QueueBesideTag
    constructor
    · rintro ⟨htag, hqueue⟩
      exact ⟨htag.symm, hqueue.trans htag.symm⟩
    · rintro ⟨hlock, hqueue⟩
      exact ⟨hlock.symm, hqueue.trans hlock.symm⟩
  cases script with
  | acquireSeatLock =>
      simp only [MultiKeyScript.keys, acquireKeys, OneSlot, List.forall_mem_cons, hashSlot_lockKey,
        hashSlot_roomKey, hashSlot_userKey, hashSlot_queueKey, hashSlot_bitmapKey]
      constructor
      · rintro ⟨htag, -, hqueue, -⟩
        exact hshared.1 ⟨htag, hqueue⟩
      · intro h
        obtain ⟨htag, hqueue⟩ := hshared.2 h
        exact ⟨htag, htag, hqueue, htag, fun _ hmem => absurd hmem List.not_mem_nil⟩
  | updateSeatMetadata =>
      simp only [MultiKeyScript.keys, metadataKeys, OneSlot, List.forall_mem_cons, hashSlot_roomKey,
        hashSlot_userKey, hashSlot_bitmapKey]
      constructor
      · intro _
        trivial
      · intro _
        exact ⟨trivial, trivial, fun _ hmem => absurd hmem List.not_mem_nil⟩
  | releaseLock =>
      simp only [MultiKeyScript.keys, releaseKeys, OneSlot, List.forall_mem_cons, hashSlot_lockKey,
        hashSlot_contextKey]
      constructor
      · rintro ⟨htag, -⟩
        exact htag.symm
      · intro hlock
        exact ⟨hlock.symm, fun _ hmem => absurd hmem List.not_mem_nil⟩
  | releaseExpiredLock | bookSeat | forceBookSeat =>
      simp only [MultiKeyScript.keys, allKeys, OneSlot, List.forall_mem_cons, hashSlot_lockKey,
        hashSlot_contextKey, hashSlot_roomKey, hashSlot_userKey, hashSlot_queueKey,
        hashSlot_bitmapKey]
      constructor
      · rintro ⟨htag, -, -, hqueue, -⟩
        exact hshared.1 ⟨htag, hqueue⟩
      · intro h
        obtain ⟨htag, hqueue⟩ := hshared.2 h
        exact ⟨htag, htag, htag, hqueue, htag, fun _ hmem => absurd hmem List.not_mem_nil⟩

/-- All the scripts go through for this seat, by accident. -/
example : LockBesideTag 88271 27849 ∧ QueueBesideTag 88271 := by
  unfold LockBesideTag QueueBesideTag
  decide +kernel

/-- The lock of seat 5 of schedule 10 cannot be acquired, released or booked: its key is in another
slot than the tagged keys. -/
theorem seat_lock_crosses_slots :
    ¬∀ (script : MultiKeyScript) (showtimeId seatId userId : ℤ),
      OneSlot hashSlot (script.keys showtimeId seatId userId) := by
  intro hall
  have hrelease : OneSlot hashSlot (releaseKeys 10 5 42) := hall .releaseLock 10 5 42
  exact absurd hrelease (by decide +kernel)

end ClusterLock
end Bookit

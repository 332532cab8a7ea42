import Bookit.Web.SeatCounts

/-!
# Web.CountsAccurate — when the cached counts are those of the database

What a cached number of available seats lacks is what the adjustments that are still to be made add up
to; the same holds of a number that a list has read and not yet written.  This is kept by every step of
a run in which no list reads while an adjustment is outstanding or is overtaken by one, and in which
rows change otherwise only where nothing is cached.
-/

namespace Bookit
namespace SeatCounts

open Lib
open Payments (SeatStatus)

/-! ## Counting rows -/

namespace World

variable {s : World} {scheduleId : ℤ} {p : ScheduleSeat → Bool} {status : SeatStatus}

@[simp] theorem numberOfSeats_setStatusWhere :
    (s.setStatusWhere p status).numberOfSeats scheduleId = s.numberOfSeats scheduleId := by
  refine congrArg Nat.cast ?_
  show (Table.updateWhere p _ s.seats).countP _ = _
  rw [Table.countP_updateWhere]
  refine List.countP_congr fun r _ => ?_
  split_ifs <;> rfl

/-- No row of the schedule becomes available, or ceases to be. -/
theorem numberAvailable_setStatusWhere
    (h : ∀ r ∈ s.seats, p r = true → r.scheduleId = scheduleId →
      (r.status = .available ↔ status = .available)) :
    (s.setStatusWhere p status).numberAvailable scheduleId = s.numberAvailable scheduleId := by
  refine congrArg Nat.cast ?_
  show (Table.updateWhere p _ s.seats).countP _ = _
  rw [Table.countP_updateWhere]
  refine List.countP_congr fun r hr => ?_
  by_cases hp : p r = true
  · rw [if_pos hp]
    by_cases hschedule : r.scheduleId = scheduleId
    · simp [hschedule, h r hr hp hschedule]
    · simp [hschedule]
  · rw [if_neg hp]

/-- The rows of the schedule with the ids, each of them once, and with a status of the kind. -/
structure RowsOf (s : World) (scheduleId : ℤ) (seatIds : List ℤ) (kind : SeatStatus → Prop) : Prop where
  nodup : seatIds.Nodup
  row : ∀ seatId ∈ seatIds, ∃ r ∈ s.seats, r.id = seatId ∧ r.scheduleId = scheduleId ∧ kind r.status

variable {seatIds : List ℤ}

/-- A row with an id of the list is the one that the list means. -/
theorem RowsOf.of_mem {kind : SeatStatus → Prop} (h : s.RowsOf scheduleId seatIds kind)
    (hs : Seated s) {r : ScheduleSeat} (hr : r ∈ s.seats) (hid : r.id ∈ seatIds) :
    r.scheduleId = scheduleId ∧ kind r.status := by
  obtain ⟨r', hr', hsame, hschedule, hkind⟩ := h.row r.id hid
  obtain rfl : r' = r := List.inj_on_of_nodup_map hs.nodup hr' hr hsame
  exact ⟨hschedule, hkind⟩

/-- How many rows the list means. -/
theorem RowsOf.countP {kind : SeatStatus → Prop} (h : s.RowsOf scheduleId seatIds kind)
    (hs : Seated s) : (s.seats.countP fun r => decide (r.id ∈ seatIds)) = seatIds.length :=
  Table.countP_key_mem hs.nodup h.nodup fun seatId hseat =>
    (h.row seatId hseat).imp fun _ hr => ⟨hr.1, hr.2.1⟩

/-- The available rows of a schedule, apart from those with the ids. -/
def otherAvailable (s : World) (scheduleId : ℤ) (seatIds : List ℤ) : ℕ :=
  s.seats.countP fun r =>
    (decide (r.scheduleId = scheduleId) && decide (r.status = .available)) &&
      !decide (r.id ∈ seatIds)

theorem countP_split (rows : List ScheduleSeat) (p q : ScheduleSeat → Bool) :
    rows.countP p = (rows.countP fun r => p r && q r) + rows.countP fun r => p r && !q r := by
  induction rows with
  | nil => rfl
  | cons r rows ih =>
      simp only [List.countP_cons, ih]
      cases p r <;> cases q r <;> simp <;> omega

theorem commitCheckout_available (hs : Seated s)
    (h : s.RowsOf scheduleId seatIds (· = .available)) :
    (s.commitCheckout seatIds).numberAvailable scheduleId =
      s.numberAvailable scheduleId - seatIds.length := by
  have hbefore : s.numberAvailable scheduleId =
      (seatIds.length : ℤ) + s.otherAvailable scheduleId seatIds := by
    rw [← h.countP hs]
    unfold numberAvailable otherAvailable
    rw [countP_split _ _ fun r => decide (r.id ∈ seatIds)]
    push_cast
    congr 2
    refine List.countP_congr fun r hr => ?_
    by_cases hid : r.id ∈ seatIds
    · obtain ⟨hschedule, hstatus⟩ := h.of_mem hs hr hid
      simp [hid, hschedule, hstatus]
    · simp [hid]
  have hafter : (s.commitCheckout seatIds).numberAvailable scheduleId =
      s.otherAvailable scheduleId seatIds := by
    refine congrArg Nat.cast ?_
    show (Table.updateWhere _ _ s.seats).countP _ = _
    rw [Table.countP_updateWhere]
    refine List.countP_congr fun r hr => ?_
    by_cases hid : r.id ∈ seatIds
    · simp [hid]
    · simp [hid]
  omega

theorem commitCancellation_available (hs : Seated s)
    (h : s.RowsOf scheduleId seatIds (· ≠ .available)) :
    (s.commitCancellation seatIds).numberAvailable scheduleId =
      s.numberAvailable scheduleId + seatIds.length := by
  have hbefore : s.numberAvailable scheduleId = s.otherAvailable scheduleId seatIds := by
    refine congrArg Nat.cast (List.countP_congr fun r hr => ?_)
    by_cases hid : r.id ∈ seatIds
    · simp [hid, (h.of_mem hs hr hid).2]
    · simp [hid]
  have hafter : (s.commitCancellation seatIds).numberAvailable scheduleId =
      (seatIds.length : ℤ) + s.otherAvailable scheduleId seatIds := by
    rw [← h.countP hs]
    unfold numberAvailable
    show (((Table.updateWhere _ _ s.seats).countP _ : ℕ) : ℤ) = _
    rw [Table.countP_updateWhere, countP_split _ _ fun r => decide (r.id ∈ seatIds)]
    push_cast
    congr 2
    · refine List.countP_congr fun r hr => ?_
      by_cases hid : r.id ∈ seatIds
      · simp [hid, (h.of_mem hs hr hid).1]
      · simp [hid]
    · refine List.countP_congr fun r hr => ?_
      by_cases hid : r.id ∈ seatIds
      · simp [hid]
      · simp [hid]
  omega

instance {kind : SeatStatus → Prop} [DecidablePred kind] :
    Decidable (s.RowsOf scheduleId seatIds kind) :=
  decidable_of_iff (seatIds.Nodup ∧ ∀ seatId ∈ seatIds, ∃ r ∈ s.seats,
    r.id = seatId ∧ r.scheduleId = scheduleId ∧ kind r.status)
    ⟨fun h => ⟨h.1, h.2⟩, fun h => ⟨h.nodup, h.row⟩⟩

/-! ### Cached counts -/

variable {k j n : ℤ}

theorem cachedTotal_setTotal_self : (s.setTotal k n).cachedTotal k = some n :=
  Expiring.lookup_put_self (Nat.le_add_right ..)

theorem cachedTotal_setTotal_ne (h : j ≠ k) : (s.setTotal k n).cachedTotal j = s.cachedTotal j :=
  Expiring.lookup_put_ne h

theorem cachedAvailable_setAvailable_self : (s.setAvailable k n).cachedAvailable k = some n :=
  Expiring.lookup_put_self (Nat.le_add_right ..)

theorem cachedAvailable_setAvailable_ne (h : j ≠ k) :
    (s.setAvailable k n).cachedAvailable j = s.cachedAvailable j :=
  Expiring.lookup_put_ne h

theorem cachedAvailable_adjust_self :
    (s.adjustCachedAvailableSeats k n).cachedAvailable k = (s.cachedAvailable k).map (· + n) := by
  unfold cachedAvailable adjustCachedAvailableSeats
  cases hentry : s.availableSeats.entry s.now k with
  | none =>
      show s.availableSeats.lookup s.now k = (s.availableSeats.lookup s.now k).map _
      rw [Expiring.lookup_eq_entry, hentry]
      rfl
  | some e =>
      obtain ⟨v, deadline⟩ := e
      show (s.availableSeats.put k (v + n) deadline).lookup s.now k =
        (s.availableSeats.lookup s.now k).map _
      rw [Expiring.lookup_put_self (Expiring.entry_eq_some_iff.1 hentry).2,
        Expiring.lookup_eq_entry, hentry]
      rfl

theorem cachedAvailable_adjust_ne (h : j ≠ k) :
    (s.adjustCachedAvailableSeats k n).cachedAvailable j = s.cachedAvailable j := by
  unfold adjustCachedAvailableSeats
  cases s.availableSeats.entry s.now k with
  | none => rfl
  | some e => exact Expiring.lookup_put_ne h

/-- What a step leaves as it is for a schedule. -/
structure SameCounts (s t : World) (k : ℤ) : Prop where
  numberOfSeats : t.numberOfSeats k = s.numberOfSeats k
  numberAvailable : t.numberAvailable k = s.numberAvailable k
  cachedTotal : t.cachedTotal k = s.cachedTotal k
  cachedAvailable : t.cachedAvailable k = s.cachedAvailable k

theorem SameCounts.refl : SameCounts s s k := ⟨rfl, rfl, rfl, rfl⟩

theorem sameCounts_adjust (h : j ≠ k) : SameCounts s (s.adjustCachedAvailableSeats k n) j := by
  refine ⟨?_, ?_, ?_, cachedAvailable_adjust_ne h⟩
  all_goals
    unfold adjustCachedAvailableSeats
    cases s.availableSeats.entry s.now k <;> rfl

end World

/-! ## Outstanding adjustments and counts that are held -/

/-- What an outstanding adjustment adds to the available seats of a schedule. -/
def Task.pending (scheduleId : ℤ) : Task → ℤ
  | adjust k delta => if k = scheduleId then delta else 0
  | _ => 0

/-- The schedule of an outstanding adjustment. -/
def Task.adjusts : Task → Option ℤ
  | adjust k _ => some k
  | _ => none

/-- The total that a list has read and not yet written. -/
def Task.heldTotal : Task → Option (ℤ × ℤ)
  | countAvailable k total => some (k, total)
  | setTotal k total .. => some (k, total)
  | _ => none

/-- The available seats that a list has read and not yet written. -/
def Task.heldAvailable : Task → Option (ℤ × ℤ)
  | setTotal k _ available _ => some (k, available)
  | setAvailable k available _ => some (k, available)
  | _ => none

section Guards

variable (p : Crew World Task) (k : ℤ)

def outstanding : ℤ := total (Task.pending k) p.tasks

def NoneOutstanding : Prop := ∀ t ∈ p.tasks, t.bind Task.adjusts ≠ some k

def TotalNotHeld : Prop := ∀ t ∈ p.tasks, (t.bind Task.heldTotal).map Prod.fst ≠ some k

def AvailableNotHeld : Prop := ∀ t ∈ p.tasks, (t.bind Task.heldAvailable).map Prod.fst ≠ some k

/-- No total of the schedule is cached, or about to be. -/
def TotalUncached : Prop := p.store.cachedTotal k = none ∧ TotalNotHeld p k

def AvailableUncached : Prop := p.store.cachedAvailable k = none ∧ AvailableNotHeld p k

instance : Decidable (NoneOutstanding p k) := List.decidableBAll ..

instance : Decidable (AvailableNotHeld p k) := List.decidableBAll ..

instance : Decidable (TotalUncached p k) :=
  @instDecidableAnd _ _ inferInstance (List.decidableBAll ..)

instance : Decidable (AvailableUncached p k) := inferInstanceAs (Decidable (_ ∧ _))

/-- The schedule takes extra seats. -/
def TakesSeats (s : World) (k : ℤ) : Prop :=
  ∃ r ∈ s.schedules, r.id = k ∧ r.deletedAt = none ∧ r.lifecycleState = .scheduled

instance {s : World} : Decidable (TakesSeats s k) := List.decidableBEx ..

/-- A commit changes as many rows of its schedule as it has seat ids, or rows of schedules whose
available seats are not cached. -/
def Counted (seatIds : List ℤ) (kind : SeatStatus → Prop) : Prop :=
  p.store.RowsOf k seatIds kind ∨
    AvailableUncached p k ∧ ∀ r ∈ p.store.seats, r.id ∈ seatIds → AvailableUncached p r.scheduleId

instance {seatIds : List ℤ} {kind : SeatStatus → Prop} [DecidablePred kind] :
    Decidable (Counted p k seatIds kind) :=
  inferInstanceAs (Decidable (_ ∨ _))

-- Named, so that the definitions below hold no proof of their own.
local instance seatKey_lawfulBEq : LawfulBEq (String × ℤ) := inferInstance

/-- A step of a task at which the cache follows the database. -/
def OrderlyStep (l : Link) : Task → Prop
  -- A list reads the available seats while no adjustment is outstanding.
  | .countAvailable k _ => NoneOutstanding p k
  -- An adjustment is not lost, and overtakes no list that has read before its commit.
  | .adjust k _ => AvailableNotHeld p k ∧ (l ≠ .lost ∨ p.store.cachedAvailable k = none)
  | .commitCheckout k seatIds =>
      l = .lost ∨ Counted p k seatIds (· = .available) ∧ (l = .ok ∨ AvailableUncached p k)
  | .commitCancellation k seatIds =>
      l = .lost ∨ Counted p k seatIds (· ≠ .available) ∧ (l = .ok ∨ AvailableUncached p k)
  | .addExtraSeats k seats =>
      (TotalUncached p k ∧ AvailableUncached p k) ∨ ¬ TakesSeats p.store k ∨
        ∀ seat ∈ seats, (seat.rowLetter, seat.seatNumber) ∈ p.store.seatKeys k
  | .updateSeats k (.setStatus seatId status :: _) =>
      AvailableUncached p k ∨ ∀ r ∈ p.store.seats, r.id = seatId → r.scheduleId = k →
        (r.status = .available ↔ status = .available)
  | _ => True

instance {l : Link} {t : Task} : Decidable (OrderlyStep p l t) := by
  unfold OrderlyStep
  rcases t with ⟨⟩
  case updateSeats k updates =>
    rcases updates with _ | ⟨update, rest⟩
    · infer_instance
    · rcases update with ⟨⟩ <;> infer_instance
  all_goals infer_instance

/-- The condition on a step of a run; an outstanding adjustment is not lost with its server. -/
def Orderly : CrewAct Link Environ Request → Prop
  | .run i l =>
      match p.tasks[i]? with
      | some (some t) => OrderlyStep p l t
      | _ => True
  | .crash i =>
      match p.tasks[i]? with
      | some (some (.adjust k _)) => AvailableUncached p k
      | _ => True
  | _ => True

instance (a : CrewAct Link Environ Request) : Decidable (Orderly p a) := by
  unfold Orderly
  split <;> (try split) <;> infer_instance

end Guards

/-! ## The counts are accurate -/

structure TotalAccurate (p : Crew World Task) (k : ℤ) : Prop where
  cached : ∀ n, p.store.cachedTotal k = some n → n = p.store.numberOfSeats k
  held : ∀ t ∈ p.tasks, ∀ n, t.bind Task.heldTotal = some (k, n) → n = p.store.numberOfSeats k

structure AvailableAccurate (p : Crew World Task) (k : ℤ) : Prop where
  cached : ∀ n, p.store.cachedAvailable k = some n →
    n + outstanding p k = p.store.numberAvailable k
  held : ∀ t ∈ p.tasks, ∀ n, t.bind Task.heldAvailable = some (k, n) →
    n + outstanding p k = p.store.numberAvailable k

section Steps

variable {p : Crew World Task} {k : ℤ} {i : ℕ} {t : Task} {u : Option Task} {s : World} {l : Link}

theorem TotalNotHeld.ne (h : TotalNotHeld p k) {t : Option Task} (ht : t ∈ p.tasks) {n : ℤ} :
    t.bind Task.heldTotal ≠ some (k, n) :=
  fun heq => h t ht (congrArg (Option.map Prod.fst) heq)

theorem AvailableNotHeld.ne (h : AvailableNotHeld p k) {t : Option Task} (ht : t ∈ p.tasks) {n : ℤ} :
    t.bind Task.heldAvailable ≠ some (k, n) :=
  fun heq => h t ht (congrArg (Option.map Prod.fst) heq)

theorem outstanding_eq_zero (h : NoneOutstanding p k) : outstanding p k = 0 := by
  refine total_eq_zero fun t ht => ?_
  cases t with
  | adjust k' delta =>
      have hne : k' ≠ k := fun heq => h _ ht (congrArg some heq)
      exact if_neg hne
  | _ => rfl

/-- The next task of a step holds nothing and adjusts nothing. -/
def Idle (u : Option Task) : Prop :=
  (∀ k, u.elim 0 (Task.pending k) = 0) ∧ u.bind Task.heldTotal = none ∧
    u.bind Task.heldAvailable = none

/-- A step that changes no total but for one that is written. -/
theorem TotalAccurate.keep (h : TotalAccurate p k)
    (hrows : s.numberOfSeats k = p.store.numberOfSeats k)
    (hcached : ∀ n, s.cachedTotal k = some n →
      p.store.cachedTotal k = some n ∨ n = p.store.numberOfSeats k)
    (hu : ∀ n, u.bind Task.heldTotal = some (k, n) → n = p.store.numberOfSeats k) :
    TotalAccurate ⟨s, p.tasks.set i u⟩ k := by
  refine ⟨fun n hn => ?_, fun t ht n hn => ?_⟩
  · show n = s.numberOfSeats k
    rw [hrows]
    exact (hcached n hn).elim (h.cached n) id
  · show n = s.numberOfSeats k
    rw [hrows]
    rcases List.mem_or_eq_of_mem_set ht with hmem | rfl
    · exact h.held t hmem n hn
    · exact hu n hn

/-- A step after which no total is cached or held. -/
theorem totalAccurate_of_uncached (hcached : s.cachedTotal k = none) (hheld : TotalNotHeld p k)
    (hu : u.bind Task.heldTotal = none) : TotalAccurate ⟨s, p.tasks.set i u⟩ k := by
  refine ⟨fun n hn => ?_, fun t ht n hn => ?_⟩
  · have hsome : s.cachedTotal k = some n := hn
    rw [hcached] at hsome
    cases hsome
  · rcases List.mem_or_eq_of_mem_set ht with hmem | rfl
    · exact absurd hn (hheld.ne hmem)
    · rw [hu] at hn
      cases hn

/-- A step that changes the available rows as it changes what is outstanding. -/
theorem AvailableAccurate.keep (h : AvailableAccurate p k) (ht : p.tasks[i]? = some (some t))
    (hrows : s.numberAvailable k =
      p.store.numberAvailable k - t.pending k + u.elim 0 (Task.pending k))
    (hcached : ∀ n, s.cachedAvailable k = some n →
      p.store.cachedAvailable k = some n ∨ n + outstanding p k = p.store.numberAvailable k)
    (hu : ∀ n, u.bind Task.heldAvailable = some (k, n) →
      n + outstanding p k = p.store.numberAvailable k) :
    AvailableAccurate ⟨s, p.tasks.set i u⟩ k := by
  have hafter : outstanding ⟨s, p.tasks.set i u⟩ k =
      outstanding p k - t.pending k + u.elim 0 (Task.pending k) := total_set ht u
  have hbalance : ∀ n, n + outstanding p k = p.store.numberAvailable k →
      n + outstanding ⟨s, p.tasks.set i u⟩ k = s.numberAvailable k := by
    intro n hn
    rw [hafter, hrows, ← hn]
    omega
  refine ⟨fun n hn => hbalance n ?_, fun t' ht' n hn => hbalance n ?_⟩
  · exact (hcached n hn).elim (h.cached n) id
  · rcases List.mem_or_eq_of_mem_set ht' with hmem | rfl
    · exact h.held t' hmem n hn
    · exact hu n hn

/-- A step after which no number of available seats is cached or held. -/
theorem availableAccurate_of_uncached (hcached : s.cachedAvailable k = none)
    (hheld : AvailableNotHeld p k) (hu : u.bind Task.heldAvailable = none) :
    AvailableAccurate ⟨s, p.tasks.set i u⟩ k := by
  refine ⟨fun n hn => ?_, fun t ht n hn => ?_⟩
  · have hsome : s.cachedAvailable k = some n := hn
    rw [hcached] at hsome
    cases hsome
  · rcases List.mem_or_eq_of_mem_set ht with hmem | rfl
    · exact absurd hn (hheld.ne hmem)
    · rw [hu] at hn
      cases hn

/-- An adjustment that reaches the cached number while no list holds one. -/
theorem AvailableAccurate.adjust {delta : ℤ} (h : AvailableAccurate p k)
    (ht : p.tasks[i]? = some (some (.adjust k delta))) (hheld : AvailableNotHeld p k) :
    AvailableAccurate
      ⟨p.store.adjustCachedAvailableSeats k delta, p.tasks.set i none⟩ k := by
  have hafter : outstanding ⟨p.store.adjustCachedAvailableSeats k delta, p.tasks.set i none⟩ k =
      outstanding p k - delta := by
    have hset : outstanding ⟨p.store.adjustCachedAvailableSeats k delta, p.tasks.set i none⟩ k =
      outstanding p k - (Task.adjust k delta).pending k + 0 := total_set ht none
    rw [hset, show (Task.adjust k delta).pending k = delta from if_pos rfl]
    omega
  have hrows : (p.store.adjustCachedAvailableSeats k delta).numberAvailable k =
      p.store.numberAvailable k := by
    unfold World.adjustCachedAvailableSeats
    cases p.store.availableSeats.entry p.store.now k <;> rfl
  refine ⟨fun n hn => ?_, fun t' ht' n hn => ?_⟩
  · have hsome : (p.store.adjustCachedAvailableSeats k delta).cachedAvailable k = some n := hn
    rw [World.cachedAvailable_adjust_self, Option.map_eq_some_iff] at hsome
    obtain ⟨m, hm, rfl⟩ := hsome
    have hbefore := h.cached m hm
    rw [hafter]
    show _ = (p.store.adjustCachedAvailableSeats k delta).numberAvailable k
    rw [hrows]
    omega
  · rcases List.mem_or_eq_of_mem_set ht' with hmem | rfl
    · exact absurd hn (hheld.ne hmem)
    · cases hn

/-- The counts of a schedule, in the cache and in the hands of lists. -/
def Accurate (p : Crew World Task) (k : ℤ) : Prop := TotalAccurate p k ∧ AvailableAccurate p k

/-- A step that leaves the rows and the caches of a schedule alone. -/
theorem Accurate.same (h : Accurate p k) (ht : p.tasks[i]? = some (some t))
    (hsame : World.SameCounts p.store s k) (hpending : u.elim 0 (Task.pending k) = t.pending k)
    (htotal : ∀ n, u.bind Task.heldTotal = some (k, n) → n = p.store.numberOfSeats k)
    (havailable : ∀ n, u.bind Task.heldAvailable = some (k, n) →
      n + outstanding p k = p.store.numberAvailable k) :
    Accurate ⟨s, p.tasks.set i u⟩ k := by
  refine ⟨h.1.keep hsame.numberOfSeats (fun n hn => .inl (hsame.cachedTotal ▸ hn)) htotal,
    h.2.keep ht ?_ (fun n hn => .inl (hsame.cachedAvailable ▸ hn)) havailable⟩
  rw [hsame.numberAvailable, hpending]
  omega

theorem Accurate.idle (h : Accurate p k) (ht : p.tasks[i]? = some (some t))
    (hsame : World.SameCounts p.store s k) (hpending : t.pending k = 0) (hu : Idle u) :
    Accurate ⟨s, p.tasks.set i u⟩ k := by
  obtain ⟨hnone, htotal, havailable⟩ := hu
  refine h.same ht hsame ((hnone k).trans hpending.symm) (fun n hn => ?_) fun n hn => ?_
  · rw [htotal] at hn
    cases hn
  · rw [havailable] at hn
    cases hn

theorem retry_induction {P : Option Task → Prop} {retries : ℕ} {again : ℕ → Task}
    {gaveUp : Option Task} (h0 : P gaveUp) (h1 : ∀ n, P (some (again n))) :
    P (retry retries again gaveUp) := by
  cases retries with
  | zero => exact h0
  | succ n => exact h1 n

theorem idle_none : Idle none := ⟨fun _ => rfl, rfl, rfl⟩

end Steps

end SeatCounts
end Bookit

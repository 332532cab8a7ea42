import Bookit.Web.CountsAccurate

/-!
# Web.CountsAgree — the counts over whole runs

Every step of an orderly run keeps the counts accurate, so that those of a schedule on which nothing is
in progress are the numbers of its rows.  A run in which an admin adds seats while the total is cached
leaves a total that no row count meets.
-/

namespace Bookit
namespace SeatCounts

open Lib
open Payments (SeatStatus)

/-- The crew after the step of its task at a place. -/
def after (p : Crew World Task) (i : ℕ) (r : World × Option Task) : Crew World Task :=
  ⟨r.1, p.tasks.set i r.2⟩

/-! ## What the steps of a list do -/

section Exec

variable {l : Link} {s : World} {k : ℤ} {retries : ℕ}

theorem exec_getTotal : ∃ u, exec l s (.getTotal k retries) = (s, u) ∧ Idle u := by
  cases l with
  | ok => exact ⟨_, rfl, fun _ => rfl, rfl, rfl⟩
  | _ =>
      refine ⟨_, rfl, retry_induction (P := Idle) ?_ fun n => ?_⟩
      · exact ⟨fun _ => rfl, rfl, rfl⟩
      · exact ⟨fun _ => rfl, rfl, rfl⟩

theorem exec_getAvailable {total : Option ℤ} :
    ∃ u, exec l s (.getAvailable k total retries) = (s, u) ∧ Idle u := by
  cases l with
  | ok =>
      simp only [exec]
      split
      · exact ⟨_, rfl, idle_none⟩
      · exact ⟨_, rfl, fun _ => rfl, rfl, rfl⟩
  | _ =>
      refine ⟨_, rfl, retry_induction (P := Idle) ?_ fun n => ?_⟩
      · exact ⟨fun _ => rfl, rfl, rfl⟩
      · exact ⟨fun _ => rfl, rfl, rfl⟩

theorem exec_findSchedule {updates : List SeatUpdate} :
    ∃ u, exec l s (.findSchedule k updates) = (s, u) ∧ Idle u := by
  cases l with
  | ok =>
      simp only [exec]
      split
      · exact ⟨_, rfl, fun _ => rfl, rfl, rfl⟩
      · exact ⟨_, rfl, idle_none⟩
  | _ => exact ⟨_, rfl, idle_none⟩

/-- The total is written or not, and the list goes on or tries again. -/
theorem exec_setTotal (l : Link) (s : World) (k total available : ℤ) (retries : ℕ) :
    ∃ s' u, exec l s (.setTotal k total available retries) = (s', u) ∧
      (s' = s ∨ s' = s.setTotal k total) ∧
      (u = some (.setAvailable k available 3) ∨ ∃ n, u = some (.setTotal k total available n)) := by
  have hretry : retry retries (.setTotal k total available) (some (.setAvailable k available 3)) =
        some (.setAvailable k available 3) ∨
      ∃ n, retry retries (.setTotal k total available) (some (.setAvailable k available 3)) =
        some (.setTotal k total available n) := by
    cases retries with
    | zero => exact .inl rfl
    | succ n => exact .inr ⟨n, rfl⟩
  cases l with
  | ok => exact ⟨_, _, rfl, .inr rfl, .inl rfl⟩
  | lost => exact ⟨_, _, rfl, .inl rfl, hretry⟩
  | unacked => exact ⟨_, _, rfl, .inr rfl, hretry⟩

theorem exec_setAvailable (l : Link) (s : World) (k available : ℤ) (retries : ℕ) :
    ∃ s' u, exec l s (.setAvailable k available retries) = (s', u) ∧
      (s' = s ∨ s' = s.setAvailable k available) ∧
      (u = none ∨ ∃ n, u = some (.setAvailable k available n)) := by
  have hretry : retry retries (.setAvailable k available) none = none ∨
      ∃ n, retry retries (.setAvailable k available) none = some (.setAvailable k available n) := by
    cases retries with
    | zero => exact .inl rfl
    | succ n => exact .inr ⟨n, rfl⟩
  cases l with
  | ok => exact ⟨_, _, rfl, .inr rfl, .inl rfl⟩
  | lost => exact ⟨_, _, rfl, .inl rfl, hretry⟩
  | unacked => exact ⟨_, _, rfl, .inr rfl, hretry⟩

end Exec

/-! ## A list -/

section List

variable {p : Crew World Task} {j k : ℤ} {i : ℕ} {l : Link} {t : Task} {retries : ℕ}

/-- A step that only reads, and after which the task holds nothing. -/
theorem accurate_of_reads (h : Accurate p j) (ht : p.tasks[i]? = some (some t))
    (hpending : t.pending j = 0) (hexec : ∃ u, exec l p.store t = (p.store, u) ∧ Idle u) :
    Accurate (after p i (exec l p.store t)) j := by
  obtain ⟨u, hu, hidle⟩ := hexec
  rw [hu]
  exact h.idle ht .refl hpending hidle

theorem accurate_countTotals (h : Accurate p j) (ht : p.tasks[i]? = some (some (.countTotals k))) :
    Accurate (after p i (exec l p.store (.countTotals k))) j := by
  cases l with
  | ok =>
      refine h.same ht .refl rfl (fun n hn => ?_) nofun
      obtain ⟨rfl, rfl⟩ := Prod.mk.inj (Option.some.inj hn)
      rfl
  | _ => exact h.idle ht .refl rfl idle_none

/-- What the list counts is what is cached once the outstanding adjustments are made: there are none. -/
theorem accurate_countAvailable {total : ℤ} (h : Accurate p j)
    (ht : p.tasks[i]? = some (some (.countAvailable k total)))
    (hG : OrderlyStep p l (.countAvailable k total)) :
    Accurate (after p i (exec l p.store (.countAvailable k total))) j := by
  have hnone : NoneOutstanding p k := hG
  cases l with
  | ok =>
      refine h.same ht .refl rfl (fun n hn => ?_) fun n hn => ?_
      · exact h.1.held _ (List.mem_of_getElem? ht) n hn
      · obtain ⟨rfl, rfl⟩ := Prod.mk.inj (Option.some.inj hn)
        rw [outstanding_eq_zero hnone]
        exact Int.add_zero _
  | _ => exact h.idle ht .refl rfl idle_none

theorem accurate_setTotal {total available : ℤ} (h : Accurate p j)
    (ht : p.tasks[i]? = some (some (.setTotal k total available retries))) :
    Accurate (after p i (exec l p.store (.setTotal k total available retries))) j := by
  obtain ⟨s, u, hexec, hs, hu⟩ := exec_setTotal l p.store k total available retries
  have htotal : ∀ n, k = j → total = n → n = p.store.numberOfSeats j := fun n hk hn =>
    h.1.held _ (List.mem_of_getElem? ht) n (by rw [← hk, ← hn]; rfl)
  have havailable : ∀ n, k = j → available = n → n + outstanding p j = p.store.numberAvailable j :=
    fun n hk hn => h.2.held _ (List.mem_of_getElem? ht) n (by rw [← hk, ← hn]; rfl)
  rw [hexec]
  refine ⟨h.1.keep ?_ (fun n hn => ?_) fun n hn => ?_, h.2.keep ht ?_ (fun n hn => .inl ?_) fun n hn => ?_⟩
  · rcases hs with rfl | rfl <;> rfl
  · rcases hs with rfl | rfl
    · exact .inl hn
    · by_cases hk : j = k
      · subst hk
        rw [World.cachedTotal_setTotal_self] at hn
        exact .inr (htotal n rfl (Option.some.inj hn))
      · rw [World.cachedTotal_setTotal_ne hk] at hn
        exact .inl hn
  · rcases hu with rfl | ⟨m, rfl⟩
    · cases hn
    · obtain ⟨hk, hn⟩ := Prod.mk.inj (Option.some.inj hn)
      exact htotal n hk hn
  · have hrows : s.numberAvailable j = p.store.numberAvailable j := by
      rcases hs with rfl | rfl <;> rfl
    have hpending : u.elim 0 (Task.pending j) = 0 := by
      rcases hu with rfl | ⟨m, rfl⟩ <;> rfl
    rw [hrows, hpending]
    exact (Int.add_zero _).symm.trans (congrArg (· + 0) (Int.sub_zero _).symm)
  · rcases hs with rfl | rfl <;> exact hn
  · rcases hu with rfl | ⟨m, rfl⟩ <;>
    · obtain ⟨hk, hn⟩ := Prod.mk.inj (Option.some.inj hn)
      exact havailable n hk hn

theorem accurate_setAvailable {available : ℤ} (h : Accurate p j)
    (ht : p.tasks[i]? = some (some (.setAvailable k available retries))) :
    Accurate (after p i (exec l p.store (.setAvailable k available retries))) j := by
  obtain ⟨s, u, hexec, hs, hu⟩ := exec_setAvailable l p.store k available retries
  have havailable : ∀ n, k = j → available = n → n + outstanding p j = p.store.numberAvailable j :=
    fun n hk hn => h.2.held _ (List.mem_of_getElem? ht) n (by rw [← hk, ← hn]; rfl)
  rw [hexec]
  refine ⟨h.1.keep ?_ (fun n hn => .inl ?_) fun n hn => ?_, h.2.keep ht ?_ (fun n hn => ?_) fun n hn => ?_⟩
  · rcases hs with rfl | rfl <;> rfl
  · rcases hs with rfl | rfl <;> exact hn
  · rcases hu with rfl | ⟨m, rfl⟩ <;> cases hn
  · have hrows : s.numberAvailable j = p.store.numberAvailable j := by
      rcases hs with rfl | rfl <;> rfl
    have hpending : u.elim 0 (Task.pending j) = 0 := by
      rcases hu with rfl | ⟨m, rfl⟩ <;> rfl
    rw [hrows, hpending]
    exact (Int.add_zero _).symm.trans (congrArg (· + 0) (Int.sub_zero _).symm)
  · rcases hs with rfl | rfl
    · exact .inl hn
    · by_cases hk : j = k
      · subst hk
        rw [World.cachedAvailable_setAvailable_self] at hn
        exact .inr (havailable n rfl (Option.some.inj hn))
      · rw [World.cachedAvailable_setAvailable_ne hk] at hn
        exact .inl hn
  · rcases hu with rfl | ⟨m, rfl⟩
    · cases hn
    · obtain ⟨hk, hn⟩ := Prod.mk.inj (Option.some.inj hn)
      exact havailable n hk hn

end List

/-! ## The payment processor -/

section Processor

variable {p : Crew World Task} {j k delta : ℤ} {i : ℕ} {l : Link} {t : Task} {u : Option Task}
variable {seatIds : List ℤ} {status : SeatStatus} {kind : SeatStatus → Prop}

/-- A commit changes nothing for a schedule that it has no rows of, and what it changes for its own is
outstanding, unless nothing is cached there. -/
theorem accurate_commit (hs : Seated p.store) (h : Accurate p j) (ht : p.tasks[i]? = some (some t))
    (hpending : t.pending j = 0) (hcounted : Counted p k seatIds kind)
    (hrows : p.store.RowsOf k seatIds kind →
      (p.store.setStatusWhere (fun r => decide (r.id ∈ seatIds)) status).numberAvailable k =
        p.store.numberAvailable k + delta)
    (hu : u = some (.adjust k delta) ∨ u = none ∧ AvailableUncached p k) :
    Accurate (after p i (p.store.setStatusWhere (fun r => decide (r.id ∈ seatIds)) status, u)) j := by
  have htotal : u.bind Task.heldTotal = none := by rcases hu with rfl | ⟨rfl, -⟩ <;> rfl
  have havailable : u.bind Task.heldAvailable = none := by rcases hu with rfl | ⟨rfl, -⟩ <;> rfl
  refine ⟨h.1.keep World.numberOfSeats_setStatusWhere (fun n hn => .inl hn) fun n hn => ?_, ?_⟩
  · rw [htotal] at hn
    cases hn
  by_cases huncached : AvailableUncached p j
  · exact availableAccurate_of_uncached huncached.1 huncached.2 havailable
  -- From here on the schedule may be cached: its rows are counted, or there are none of them.
  refine h.2.keep ht ?_ (fun n hn => .inl hn) fun n hn => ?_
  · rw [hpending]
    by_cases hj : k = j
    · subst hj
      have hadjust : u.elim 0 (Task.pending k) = delta := by
        rcases hu with rfl | ⟨-, hk⟩
        · exact if_pos rfl
        · exact absurd hk huncached
      rcases hcounted with hcounted | ⟨hk, -⟩
      · rw [hrows hcounted, hadjust]
        omega
      · exact absurd hk huncached
    · have hadjust : u.elim 0 (Task.pending j) = 0 := by
        rcases hu with rfl | ⟨rfl, -⟩
        · exact if_neg hj
        · rfl
      have hothers : ∀ r ∈ p.store.seats, r.id ∈ seatIds → r.scheduleId ≠ j := by
        intro r hr hid hschedule
        rcases hcounted with hcounted | ⟨-, hall⟩
        · exact hj ((hcounted.of_mem hs hr hid).1.symm.trans hschedule)
        · exact huncached (hschedule ▸ hall r hr hid)
      rw [World.numberAvailable_setStatusWhere fun r hr hid hschedule =>
        absurd hschedule (hothers r hr (of_decide_eq_true hid)), hadjust]
      omega
  · rw [havailable] at hn
    cases hn

theorem accurate_commitCheckout (hs : Seated p.store) (h : Accurate p j)
    (ht : p.tasks[i]? = some (some (.commitCheckout k seatIds)))
    (hG : OrderlyStep p l (.commitCheckout k seatIds)) :
    Accurate (after p i (exec l p.store (.commitCheckout k seatIds))) j := by
  have hbalance : p.store.RowsOf k seatIds (· = .available) →
      (p.store.commitCheckout seatIds).numberAvailable k =
        p.store.numberAvailable k + -(seatIds.length : ℤ) :=
    fun hrows => World.commitCheckout_available hs hrows
  rcases hG with rfl | ⟨hcounted, rfl | huncached⟩
  · exact h.idle ht .refl rfl idle_none
  · exact accurate_commit hs h ht rfl hcounted hbalance (.inl rfl)
  · cases l with
    | ok => exact accurate_commit hs h ht rfl hcounted hbalance (.inl rfl)
    | lost => exact h.idle ht .refl rfl idle_none
    | unacked => exact accurate_commit hs h ht rfl hcounted hbalance (.inr ⟨rfl, huncached⟩)

theorem accurate_commitCancellation (hs : Seated p.store) (h : Accurate p j)
    (ht : p.tasks[i]? = some (some (.commitCancellation k seatIds)))
    (hG : OrderlyStep p l (.commitCancellation k seatIds)) :
    Accurate (after p i (exec l p.store (.commitCancellation k seatIds))) j := by
  have hbalance : p.store.RowsOf k seatIds (· ≠ .available) →
      (p.store.commitCancellation seatIds).numberAvailable k =
        p.store.numberAvailable k + seatIds.length :=
    fun hrows => World.commitCancellation_available hs hrows
  rcases hG with rfl | ⟨hcounted, rfl | huncached⟩
  · exact h.idle ht .refl rfl idle_none
  · exact accurate_commit hs h ht rfl hcounted hbalance (.inl rfl)
  · cases l with
    | ok => exact accurate_commit hs h ht rfl hcounted hbalance (.inl rfl)
    | lost => exact h.idle ht .refl rfl idle_none
    | unacked => exact accurate_commit hs h ht rfl hcounted hbalance (.inr ⟨rfl, huncached⟩)

/-- An adjustment of another schedule. -/
theorem accurate_adjust_ne (h : Accurate p j) (ht : p.tasks[i]? = some (some (.adjust k delta)))
    (hj : j ≠ k) {s : World} (hs : World.SameCounts p.store s j) : Accurate (after p i (s, none)) j :=
  h.idle ht hs (if_neg (Ne.symm hj)) idle_none

/-- An adjustment reaches the cached number, or there is none for it to reach. -/
theorem accurate_adjust (h : Accurate p j) (ht : p.tasks[i]? = some (some (.adjust k delta)))
    (hG : OrderlyStep p l (.adjust k delta)) :
    Accurate (after p i (exec l p.store (.adjust k delta))) j := by
  obtain ⟨hheld, hlost⟩ : AvailableNotHeld p k ∧ (l ≠ .lost ∨ p.store.cachedAvailable k = none) := hG
  have hreach : Accurate (after p i (p.store.adjustCachedAvailableSeats k delta, none)) j := by
    by_cases hj : j = k
    · subst hj
      refine ⟨h.1.keep ?_ (fun n hn => .inl ?_) nofun, h.2.adjust ht hheld⟩
      · unfold World.adjustCachedAvailableSeats
        cases p.store.availableSeats.entry p.store.now j <;> rfl
      · revert hn
        unfold World.adjustCachedAvailableSeats
        cases p.store.availableSeats.entry p.store.now j <;> exact id
    · exact accurate_adjust_ne h ht hj (World.sameCounts_adjust hj)
  cases l with
  | ok => exact hreach
  | unacked => exact hreach
  | lost =>
      by_cases hj : j = k
      · subst hj
        have huncached : p.store.cachedAvailable j = none := hlost.resolve_left fun hne => hne rfl
        exact ⟨h.1.keep rfl (fun n hn => .inl hn) nofun,
          availableAccurate_of_uncached huncached hheld rfl⟩
      · exact accurate_adjust_ne h ht hj .refl

end Processor

/-! ## The admin -/

namespace World

variable {k seatId index : ℤ} {seats : List ExtraSeat} {taken : List (String × ℤ)}
variable {inserted : List ScheduleSeat} {s : World}

/-- The rows of an insert are of the schedule, and their ids the next of the serial column. -/
structure Inserts (k seatId : ℤ) (inserted : List ScheduleSeat) : Prop where
  schedule : ∀ r ∈ inserted, r.scheduleId = k
  nodup : (inserted.map ScheduleSeat.id).Nodup
  drawn : ∀ r ∈ inserted, seatId ≤ r.id ∧ r.id < seatId + inserted.length

theorem inserts_nil : Inserts k seatId [] := ⟨nofun, List.nodup_nil, nofun⟩

theorem inserts_cons {r : ScheduleSeat} (hid : r.id = seatId) (hschedule : r.scheduleId = k)
    (h : Inserts k (seatId + 1) inserted) : Inserts k seatId (r :: inserted) := by
  have hlength : ((r :: inserted).length : ℤ) = inserted.length + 1 := by
    rw [List.length_cons]
    push_cast
    rfl
  refine ⟨fun r' hr' => ?_, ?_, fun r' hr' => ?_⟩
  · rcases List.mem_cons.1 hr' with rfl | hr'
    · exact hschedule
    · exact h.schedule r' hr'
  · refine List.nodup_cons.2 ⟨fun hmem => ?_, h.nodup⟩
    obtain ⟨r', hr', heq⟩ := List.mem_map.1 hmem
    have hle := (h.drawn r' hr').1
    omega
  · rcases List.mem_cons.1 hr' with rfl | hr'
    · omega
    · have hdrawn := h.drawn r' hr'
      omega

theorem inserts_newSeats (h : newSeats k seats taken index seatId = .ok inserted) :
    Inserts k seatId inserted := by
  induction seats generalizing taken index seatId inserted with
  | nil =>
      obtain rfl : [] = inserted := Except.ok.inj h
      exact inserts_nil
  | cons seat seats ih =>
      rcases newSeats_cons_ok h with hskip | ⟨price, rest, -, hrest, rfl⟩
      · exact ih hskip
      · exact inserts_cons rfl rfl (ih hrest)

/-- Nothing is inserted for seats that are all there. -/
theorem newSeats_of_taken (h : ∀ seat ∈ seats, (seat.rowLetter, seat.seatNumber) ∈ taken) :
    newSeats k seats taken index seatId = .ok [] := by
  induction seats with
  | nil => rfl
  | cons seat seats ih =>
      rw [newSeats, if_pos (h seat List.mem_cons_self)]
      exact ih fun seat' hseat' => h seat' (List.mem_cons_of_mem _ hseat')

/-- The table with the rows of an insert. -/
def withSeats (s : World) (inserted : List ScheduleSeat) : World :=
  { s with
    seats := s.seats ++ inserted
    nextSeatId := s.nextSeatId + inserted.length }

theorem withSeats_nil : s.withSeats [] = s := by
  unfold withSeats
  rw [List.append_nil]
  congr
  exact Int.add_zero _

/-- The transaction inserts rows of a schedule that takes seats, or leaves everything as it was. -/
theorem addExtraSeats_cases (s : World) (k : ℤ) (seats : List ExtraSeat) :
    (s.addExtraSeats k seats).1 = s ∨
      TakesSeats s k ∧
        (¬ ∀ seat ∈ seats, (seat.rowLetter, seat.seatNumber) ∈ s.seatKeys k) ∧
        ∃ inserted, (s.addExtraSeats k seats).1 = s.withSeats inserted ∧
          Inserts k s.nextSeatId inserted := by
  unfold addExtraSeats
  split
  · exact .inl rfl
  · next schedule hfind =>
      split
      · next hstate =>
          split
          · exact .inl rfl
          · next index _ =>
              split
              · exact .inl rfl
              · next inserted hnew =>
                  by_cases hall : ∀ seat ∈ seats, (seat.rowLetter, seat.seatNumber) ∈ s.seatKeys k
                  · obtain rfl : inserted = [] :=
                      Except.ok.inj (hnew.symm.trans (newSeats_of_taken hall))
                    exact .inl withSeats_nil
                  · have hrow : schedule.id = k ∧ schedule.deletedAt = none := by
                      simpa using List.find?_some hfind
                    exact .inr ⟨⟨schedule, List.mem_of_find?_eq_some hfind, hrow.1, hrow.2, hstate⟩,
                      hall, inserted, rfl, inserts_newSeats hnew⟩
      · exact .inl rfl

/-- The rows of other schedules are counted as before. -/
theorem sameCounts_withSeats {j : ℤ} (h : Inserts k s.nextSeatId inserted) (hj : j ≠ k) :
    SameCounts s (s.withSeats inserted) j := by
  have hzero : ∀ q : ScheduleSeat → Bool, (∀ r, q r = true → r.scheduleId = j) →
      (s.seats ++ inserted).countP q = s.seats.countP q := by
    intro q hq
    have hnone : inserted.countP q = 0 :=
      List.countP_eq_zero.2 fun r hr hqr => hj ((hq r hqr).symm.trans (h.schedule r hr))
    rw [List.countP_append, hnone, Nat.add_zero]
  refine ⟨congrArg Nat.cast (hzero _ fun r hr => of_decide_eq_true hr),
    congrArg Nat.cast (hzero _ fun r hr => ?_), rfl, rfl⟩
  exact of_decide_eq_true (Bool.and_eq_true_iff.1 hr).1

/-- A price changes no count. -/
theorem sameCounts_setPrice {j : ℤ} {price : ℚ} :
    SameCounts s (s.updateSeat k (.setPrice seatId price)) j := by
  have hcount : ∀ q : ScheduleSeat → Bool, (∀ r : ScheduleSeat, q { r with price := price } = q r) →
      (s.updateSeat k (.setPrice seatId price)).seats.countP q = s.seats.countP q := by
    intro q hq
    show (Table.updateWhere _ _ s.seats).countP q = _
    rw [Table.countP_updateWhere]
    refine List.countP_congr fun r _ => ?_
    split_ifs
    · rw [hq]
    · rfl
  exact ⟨congrArg Nat.cast (hcount _ fun r => rfl), congrArg Nat.cast (hcount _ fun r => rfl), rfl,
    rfl⟩

end World

section Admin

variable {p : Crew World Task} {j k : ℤ} {i : ℕ} {l : Link} {t : Task}

theorem accurate_addExtraSeats {seats : List ExtraSeat} (h : Accurate p j)
    (ht : p.tasks[i]? = some (some (.addExtraSeats k seats)))
    (hG : OrderlyStep p l (.addExtraSeats k seats)) :
    Accurate (after p i (exec l p.store (.addExtraSeats k seats))) j := by
  show Accurate ⟨(l.deliver (World.addExtraSeats k seats) p.store).1, p.tasks.set i none⟩ j
  refine Link.deliver_induction (P := fun s => Accurate ⟨s, p.tasks.set i none⟩ j) ?_ ?_
  · exact h.idle ht .refl rfl idle_none
  rcases p.store.addExtraSeats_cases k seats with hsame | ⟨htakes, hnew, hrest⟩
  · rw [hsame]
    exact h.idle ht .refl rfl idle_none
  obtain ⟨inserted, hstore, hinserts⟩ := hrest
  rw [hstore]
  by_cases hj : j = k
  · subst hj
    rcases hG with ⟨htotal, havailable⟩ | hno | hall
    · exact ⟨totalAccurate_of_uncached htotal.1 htotal.2 rfl,
        availableAccurate_of_uncached havailable.1 havailable.2 rfl⟩
    · exact absurd htakes hno
    · exact absurd hall hnew
  · exact h.idle ht (World.sameCounts_withSeats hinserts hj) rfl idle_none

/-- A status is written where nothing is cached, or where it makes no seat available or the reverse. -/
theorem accurate_setStatus {seatId : ℤ} {status : SeatStatus} {updates : List SeatUpdate}
    {u : Option Task} (h : Accurate p j)
    (ht : p.tasks[i]? = some (some (.updateSeats k (.setStatus seatId status :: updates))))
    (hG : OrderlyStep p l (.updateSeats k (.setStatus seatId status :: updates))) (hu : Idle u) :
    Accurate (after p i (p.store.updateSeat k (.setStatus seatId status), u)) j := by
  have hsame : (AvailableUncached p j → False) →
      World.SameCounts p.store (p.store.updateSeat k (.setStatus seatId status)) j := by
    intro hcached
    refine ⟨World.numberOfSeats_setStatusWhere,
      World.numberAvailable_setStatusWhere fun r hr hp hschedule => ?_, rfl, rfl⟩
    obtain ⟨hid, hk⟩ := Bool.and_eq_true_iff.1 hp
    obtain rfl : j = k := hschedule.symm.trans (of_decide_eq_true hk)
    rcases hG with hnone | hrows
    · exact absurd hnone hcached
    · exact hrows r hr (of_decide_eq_true hid) hschedule
  by_cases huncached : AvailableUncached p j
  · refine ⟨h.1.keep World.numberOfSeats_setStatusWhere (fun n hn => .inl hn) fun n hn => ?_,
      availableAccurate_of_uncached huncached.1 huncached.2 hu.2.2⟩
    rw [hu.2.1] at hn
    cases hn
  · exact h.idle ht (hsame huncached) rfl hu

theorem idle_updateSeats {updates : List SeatUpdate} : Idle (some (.updateSeats k updates)) :=
  ⟨fun _ => rfl, rfl, rfl⟩

theorem accurate_updateSeats {updates : List SeatUpdate} (h : Accurate p j)
    (ht : p.tasks[i]? = some (some (.updateSeats k updates)))
    (hG : OrderlyStep p l (.updateSeats k updates)) :
    Accurate (after p i (exec l p.store (.updateSeats k updates))) j := by
  cases updates with
  | nil => exact h.idle ht .refl rfl idle_none
  | cons update updates =>
      have hwrite : ∀ u, Idle u → Accurate (after p i (p.store.updateSeat k update, u)) j := by
        intro u hu
        cases update with
        | setPrice seatId price => exact h.idle ht World.sameCounts_setPrice rfl hu
        | setStatus seatId status => exact accurate_setStatus h ht hG hu
      cases l with
      | ok => exact hwrite _ idle_updateSeats
      | lost => exact h.idle ht .refl rfl idle_none
      | unacked => exact hwrite _ idle_none

end Admin

/-- Every step of an orderly run keeps the counts accurate. -/
theorem accurate_exec {p : Crew World Task} {j : ℤ} {i : ℕ} {l : Link} {t : Task}
    (hs : Seated p.store) (h : Accurate p j) (ht : p.tasks[i]? = some (some t))
    (hG : OrderlyStep p l t) : Accurate (after p i (exec l p.store t)) j := by
  cases t with
  | getTotal => exact accurate_of_reads h ht rfl exec_getTotal
  | getAvailable => exact accurate_of_reads h ht rfl exec_getAvailable
  | countTotals => exact accurate_countTotals h ht
  | countAvailable => exact accurate_countAvailable h ht hG
  | setTotal => exact accurate_setTotal h ht
  | setAvailable => exact accurate_setAvailable h ht
  | commitCheckout => exact accurate_commitCheckout hs h ht hG
  | commitCancellation => exact accurate_commitCancellation hs h ht hG
  | adjust => exact accurate_adjust h ht hG
  | addExtraSeats => exact accurate_addExtraSeats h ht hG
  | findSchedule => exact accurate_of_reads h ht rfl exec_findSchedule
  | updateSeats => exact accurate_updateSeats h ht hG

/-! ## Rows keep distinct ids -/

section SeatedSteps

variable {s t : World} {l : Link} {k : ℤ}

/-- An update of rows leaves their ids alone. -/
theorem Seated.of_ids (h : Seated s) (hids : t.seats.map ScheduleSeat.id = s.seats.map ScheduleSeat.id)
    (hnext : t.nextSeatId = s.nextSeatId) : Seated t := by
  refine ⟨hids ▸ h.nodup, fun r hr => ?_⟩
  have hmem : r.id ∈ s.seats.map ScheduleSeat.id := hids ▸ List.mem_map_of_mem hr
  obtain ⟨r', hr', hid⟩ := List.mem_map.1 hmem
  rw [← hid, hnext]
  exact h.drawn r' hr'

theorem Seated.setStatusWhere {q : ScheduleSeat → Bool} {status : SeatStatus} (h : Seated s) :
    Seated (s.setStatusWhere q status) :=
  h.of_ids (Table.map_updateWhere fun _ => rfl) rfl

theorem Seated.updateSeat {update : SeatUpdate} (h : Seated s) : Seated (s.updateSeat k update) := by
  cases update with
  | setPrice => exact h.of_ids (Table.map_updateWhere fun _ => rfl) rfl
  | setStatus => exact h.setStatusWhere

theorem Seated.withSeats {inserted : List ScheduleSeat} (h : Seated s)
    (hinserts : World.Inserts k s.nextSeatId inserted) : Seated (s.withSeats inserted) := by
  refine ⟨?_, fun r hr => ?_⟩
  · show ((s.seats ++ inserted).map ScheduleSeat.id).Nodup
    rw [List.map_append]
    refine h.nodup.append hinserts.nodup fun seatId hold hnew => ?_
    obtain ⟨r, hr, rfl⟩ := List.mem_map.1 hold
    obtain ⟨r', hr', hid⟩ := List.mem_map.1 hnew
    have hlt := h.drawn r hr
    have hle := (hinserts.drawn r' hr').1
    omega
  · show r.id < s.nextSeatId + inserted.length
    rcases List.mem_append.1 hr with hr | hr
    · have hlt := h.drawn r hr
      omega
    · exact (hinserts.drawn r hr).2

theorem Seated.addExtraSeats {seats : List ExtraSeat} (h : Seated s) :
    Seated (s.addExtraSeats k seats).1 := by
  rcases s.addExtraSeats_cases k seats with hsame | ⟨-, -, inserted, hstore, hinserts⟩
  · rwa [hsame]
  · rw [hstore]
    exact h.withSeats hinserts

theorem Seated.exec {t : Task} (h : Seated s) : Seated (exec l s t).1 := by
  cases t with
  | getTotal =>
      obtain ⟨u, hu, -⟩ := exec_getTotal (l := l) (s := s)
      rwa [hu]
  | getAvailable =>
      obtain ⟨u, hu, -⟩ := exec_getAvailable (l := l) (s := s)
      rwa [hu]
  | findSchedule =>
      obtain ⟨u, hu, -⟩ := exec_findSchedule (l := l) (s := s)
      rwa [hu]
  | setTotal k total available retries =>
      obtain ⟨s', u, hexec, hs, -⟩ := exec_setTotal l s k total available retries
      rw [hexec]
      rcases hs with rfl | rfl
      · exact h
      · exact h.of_ids rfl rfl
  | setAvailable k available retries =>
      obtain ⟨s', u, hexec, hs, -⟩ := exec_setAvailable l s k available retries
      rw [hexec]
      rcases hs with rfl | rfl
      · exact h
      · exact h.of_ids rfl rfl
  | adjust k delta =>
      show Seated (l.deliver (fun s => (s.adjustCachedAvailableSeats k delta, ())) s).1
      refine Link.deliver_induction (P := Seated) h ?_
      show Seated (s.adjustCachedAvailableSeats k delta)
      unfold World.adjustCachedAvailableSeats
      cases s.availableSeats.entry s.now k with
      | none => exact h
      | some e => exact h.of_ids rfl rfl
  | addExtraSeats => exact Link.deliver_induction (P := Seated) h h.addExtraSeats
  | updateSeats k updates =>
      cases updates with
      | nil => exact h
      | cons update updates => cases l <;> first | exact h | exact h.updateSeat
  | commitCheckout => cases l <;> first | exact h | exact h.setStatusWhere
  | commitCancellation => cases l <;> first | exact h | exact h.setStatusWhere
  | _ => cases l <;> exact h

end SeatedSteps

/-! ## Runs -/

section Run

variable {p q : Crew World Task} {j k : ℤ} {i : ℕ}

theorem Accurate.environ (h : Accurate p j) (x : Environ) :
    Accurate ⟨environ x p.store, p.tasks⟩ j := by
  cases x with
  | schedules rows => exact ⟨⟨h.1.cached, h.1.held⟩, h.2.cached, h.2.held⟩
  | tick d =>
      have hle : p.store.now ≤ p.store.now + d := Nat.le_add_right ..
      exact ⟨⟨fun n hn => h.1.cached n (Expiring.lookup_of_later hle hn), h.1.held⟩,
        fun n hn => h.2.cached n (Expiring.lookup_of_later hle hn), h.2.held⟩

theorem idle_first (r : Request) : Idle (first r) := by
  cases r with
  | list k => exact ⟨fun _ => rfl, rfl, rfl⟩
  | cancellation k seatIds => exact ⟨fun _ => rfl, rfl, rfl⟩
  | _ =>
      simp only [first]
      split
      · exact idle_none
      · exact ⟨fun _ => rfl, rfl, rfl⟩

theorem Accurate.start {u : Option Task} (h : Accurate p j) (hu : Idle u) :
    Accurate ⟨p.store, p.tasks ++ [u]⟩ j := by
  have hsame : outstanding ⟨p.store, p.tasks ++ [u]⟩ j = outstanding p j := by
    show total _ (p.tasks ++ [u]) = _
    rw [total_append, hu.1]
    exact Int.add_zero _
  refine ⟨⟨h.1.cached, fun t ht n hn => ?_⟩, fun n hn => ?_, fun t ht n hn => ?_⟩
  · rcases List.mem_append.1 ht with ht | ht
    · exact h.1.held t ht n hn
    · obtain rfl := List.mem_singleton.1 ht
      rw [hu.2.1] at hn
      cases hn
  · rw [hsame]
    exact h.2.cached n hn
  · rw [hsame]
    rcases List.mem_append.1 ht with ht | ht
    · exact h.2.held t ht n hn
    · obtain rfl := List.mem_singleton.1 ht
      rw [hu.2.2] at hn
      cases hn

/-- A server that stops loses no adjustment of a number that is cached. -/
theorem Accurate.crash {t : Task} (h : Accurate p j) (ht : p.tasks[i]? = some (some t))
    (hG : Orderly p (.crash i)) : Accurate ⟨p.store, p.tasks.set i none⟩ j := by
  by_cases hpending : t.pending j = 0
  · exact h.idle ht .refl hpending idle_none
  cases t with
  | adjust k delta =>
      have huncached : AvailableUncached p k := by
        simp only [Orderly, ht] at hG
        exact hG
      obtain rfl : k = j := by
        by_contra hne
        exact hpending (if_neg hne)
      exact ⟨h.1.keep rfl (fun n hn => .inl hn) fun n hn => (by cases hn),
        availableAccurate_of_uncached huncached.1 huncached.2 rfl⟩
  | _ => exact absurd rfl hpending

/-- What holds in every state of an orderly run. -/
structure Inv (p : Crew World Task) : Prop where
  seated : Seated p.store
  accurate : ∀ k, Accurate p k

theorem inv_init (h : handlers.system.init p) : Inv p := by
  obtain ⟨⟨hseated, htotal, havailable⟩, htasks⟩ := h
  refine ⟨hseated, fun k => ⟨⟨fun n hn => ?_, fun t ht => ?_⟩, fun n hn => ?_, fun t ht => ?_⟩⟩
  · unfold World.cachedTotal at hn
    rw [htotal] at hn
    cases hn
  · rw [htasks] at ht
    cases ht
  · unfold World.cachedAvailable at hn
    rw [havailable] at hn
    cases hn
  · rw [htasks] at ht
    cases ht

theorem inv_step {a : CrewAct Link Environ Request} (h : Inv p) (hG : Orderly p a)
    (hst : handlers.system.step p a = some q) : Inv q := by
  cases a with
  | environ x =>
      obtain rfl : (⟨environ x p.store, p.tasks⟩ : Crew World Task) = q := Option.some.inj hst
      refine ⟨?_, fun k => (h.accurate k).environ x⟩
      cases x <;> exact h.seated.of_ids rfl rfl
  | start r =>
      obtain rfl : (⟨p.store, p.tasks ++ [first r]⟩ : Crew World Task) = q := Option.some.inj hst
      exact ⟨h.seated, fun k => (h.accurate k).start (idle_first r)⟩
  | run i l =>
      obtain ⟨t, ht, rfl⟩ := Handlers.step_run (H := handlers) hst
      have horderly : OrderlyStep p l t := by
        simp only [Orderly, ht] at hG
        exact hG
      exact ⟨h.seated.exec, fun k => accurate_exec h.seated (h.accurate k) ht horderly⟩
  | crash i =>
      obtain ⟨t, ht, rfl⟩ := Handlers.step_crash (H := handlers) hst
      exact ⟨h.seated, fun k => (h.accurate k).crash ht hG⟩

/-- No operation on the schedule is in progress. -/
def Quiet (p : Crew World Task) (k : ℤ) : Prop :=
  ∀ t ∈ p.tasks, t.map Task.scheduleId ≠ some k

instance : Decidable (Quiet p k) := List.decidableBAll ..

theorem Quiet.noneOutstanding (h : Quiet p k) : NoneOutstanding p k := by
  intro t ht hadjusts
  cases t with
  | none => cases hadjusts
  | some t =>
      cases t with
      | adjust k' delta =>
          obtain rfl : k' = k := Option.some.inj hadjusts
          exact h _ ht rfl
      | _ => cases hadjusts

/-- While nothing is in progress on a schedule, its cached counts are those of its rows. -/
theorem counts_agree (hp : handlers.system.ReachableUnder Orderly p) (hquiet : Quiet p k) :
    (∀ n, p.store.cachedTotal k = some n → n = p.store.numberOfSeats k) ∧
      ∀ n, p.store.cachedAvailable k = some n → n = p.store.numberAvailable k := by
  have hinv : Inv p :=
    System.invariant (I := Inv) (fun _ h => inv_init h) (fun _ _ _ h hG hst => inv_step h hG hst) hp
  obtain ⟨htotal, havailable⟩ := hinv.accurate k
  refine ⟨htotal.cached, fun n hn => ?_⟩
  have hbalance := havailable.cached n hn
  rw [outstanding_eq_zero hquiet.noneOutstanding] at hbalance
  omega

end Run

/-! ## Runs on two seats -/

/-- A schedule with seats 10 and 11. -/
def twoSeats : World where
  now := 0
  schedules := [{ id := 1, lifecycleState := .scheduled, deletedAt := none }]
  seats :=
    [{ id := 10, scheduleId := 1, seatIndex := 1, rowLetter := "A", seatNumber := 1, price := 100
       status := .available },
     { id := 11, scheduleId := 1, seatIndex := 2, rowLetter := "A", seatNumber := 2, price := 100
       status := .available }]
  nextSeatId := 12
  totalSeats := .empty
  availableSeats := .empty

theorem init_twoSeats : handlers.system.init ⟨twoSeats, []⟩ :=
  ⟨⟨⟨by decide, by decide⟩, rfl, rfl⟩, rfl⟩

/-- A list of the schedule, from its start to its end, as the first task. -/
def listed : List (CrewAct Link Environ Request) :=
  [.start (.list 1), .run 0 .ok, .run 0 .ok, .run 0 .ok, .run 0 .ok, .run 0 .ok, .run 0 .ok]

/-- Seat 10 is booked after the list. -/
def booked : List (CrewAct Link Environ Request) :=
  listed ++ [.start (.checkout 1 [10]), .run 1 .ok, .run 1 .ok]

theorem counts_agree_booked : ∃ p, handlers.system.ReachableUnder Orderly p ∧ Quiet p 1 ∧
    p.store.cachedTotal 1 = some 2 ∧ p.store.numberOfSeats 1 = 2 ∧
    p.store.cachedAvailable 1 = some 1 ∧ p.store.numberAvailable 1 = 1 := by
  obtain ⟨p, hp, hcached⟩ := handlers.system.exists_reachable_of_runUnder Orderly
    (fun p => decide (Quiet p 1 ∧ p.store.cachedTotal 1 = some 2 ∧ p.store.cachedAvailable 1 = some 1))
    init_twoSeats booked (by decide +kernel)
  obtain ⟨hquiet, htotal, havailable⟩ := of_decide_eq_true hcached
  have hagree := counts_agree hp hquiet
  exact ⟨p, hp, hquiet, htotal, (hagree.1 2 htotal).symm, havailable, (hagree.2 1 havailable).symm⟩

/-- An admin adds a seat after the list. -/
def seatAdded : List (CrewAct Link Environ Request) :=
  listed ++ [.start (.addExtraSeats 1
    [{ rowLetter := "A", seatNumber := 3, priceText := "100", price := some 100 }]), .run 1 .ok]

/-- The cached counts are two of three seats. -/
theorem stale_counts : ∃ p, handlers.system.Reachable p ∧ Quiet p 1 ∧
    p.store.cachedTotal 1 = some 2 ∧ p.store.numberOfSeats 1 = 3 ∧
    p.store.cachedAvailable 1 = some 2 ∧ p.store.numberAvailable 1 = 3 := by
  obtain ⟨p, hp, hcached⟩ := handlers.system.exists_reachable_of_run
    (fun p => decide (Quiet p 1 ∧ p.store.cachedTotal 1 = some 2 ∧ p.store.numberOfSeats 1 = 3 ∧
      p.store.cachedAvailable 1 = some 2 ∧ p.store.numberAvailable 1 = 3))
    init_twoSeats seatAdded (by decide +kernel)
  exact ⟨p, hp, of_decide_eq_true hcached⟩

end SeatCounts
end Bookit

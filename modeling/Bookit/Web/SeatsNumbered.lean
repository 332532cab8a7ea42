import Bookit.Web.SeatNumbering
import Mathlib.Data.List.Perm.Basic
import Mathlib.Data.List.Nodup

/-!
# Web.SeatsNumbered — the indices of a schedule's seats

The seats that admins add continue the numbers, one request after the other.  The seats of the layout
are numbered from 1, whatever has been added since the schedule was inserted; the rows that conflict
are skipped.  What is left are the numbers from 1 as long as no seat that is skipped for its letter and
number comes before one that is not, and the rows of a started schedule stay as they are as long as
all of them are skipped.

* `numbered_addExtraSeats`, `numbered_insertSeats` — what the statements do to the numbers;
* `Keeps` — what a step leaves of the schedules that have been started;
* `seats_numbered` — the numbers, the metadata and the actors over whole runs.
-/

namespace Bookit
namespace SeatNumbering

open Lib
open SeatCounts (ScheduleSeat ExtraSeat SeatUpdate)
open Schedules (ScheduleRow LifecycleState)

/-! ## Numbers from 1 -/

@[simp] theorem length_oneTo (n : ℕ) : (oneTo n).length = n := by
  unfold oneTo
  rw [List.length_map, List.length_range]

theorem mem_oneTo {n : ℕ} {j : ℤ} : j ∈ oneTo n ↔ 1 ≤ j ∧ j ≤ n := by
  unfold oneTo
  rw [List.mem_map]
  constructor
  · rintro ⟨i, hi, rfl⟩
    have hlt := List.mem_range.1 hi
    omega
  · rintro ⟨hlow, hhigh⟩
    refine ⟨(j - 1).toNat, List.mem_range.2 ?_, ?_⟩
    · omega
    · omega

/-- The numbers from `start` on, as many as there are seats. -/
def Consecutive : ℤ → List ℤ → Prop
  | _, [] => True
  | start, index :: indices => index = start ∧ Consecutive (start + 1) indices

theorem oneTo_append {n : ℕ} {indices : List ℤ} (h : Consecutive (n + 1) indices) :
    oneTo n ++ indices = oneTo (n + indices.length) := by
  induction indices generalizing n with
  | nil => exact List.append_nil _
  | cons index indices ih =>
      obtain ⟨rfl, hrest⟩ := h
      have hnext : oneTo (n + 1) = oneTo n ++ [(n : ℤ) + 1] := by
        unfold oneTo
        rw [List.range_succ, List.map_append, List.map_singleton]
      calc oneTo n ++ ((n : ℤ) + 1) :: indices = oneTo (n + 1) ++ indices := by
            rw [hnext, List.append_assoc, List.singleton_append]
        _ = oneTo (n + 1 + indices.length) := ih (by exact_mod_cast hrest)
        _ = oneTo (n + (indices.length + 1)) := by rw [Nat.add_assoc, Nat.add_comm 1]

theorem lt_of_consecutive {start : ℤ} {indices : List ℤ} (h : Consecutive start indices) :
    ∀ j ∈ indices, start ≤ j := by
  induction indices generalizing start with
  | nil => exact fun j hj => nomatch hj
  | cons index indices ih =>
      obtain ⟨rfl, hrest⟩ := h
      intro j hj
      rcases List.mem_cons.1 hj with rfl | hj
      · exact Int.le_refl _
      · have hlt := ih hrest j hj
        omega

/-! ## Rows -/

section Rows

variable {rows : List ScheduleSeat} {k k' : ℤ} {seat : NewScheduleSeat}

theorem seatsOf_append (rows new : List ScheduleSeat) (k : ℤ) :
    seatsOf (rows ++ new) k = seatsOf rows k ++ seatsOf new k := by
  unfold seatsOf
  rw [List.filter_append, List.map_append]

/-- Rows of one schedule are its seats, and no others'. -/
theorem seatsOf_same (h : ∀ r ∈ rows, r.scheduleId = k) :
    seatsOf rows k = rows.map fun r => (r.id, r.seatIndex) := by
  unfold seatsOf
  rw [List.filter_eq_self.2 fun r hr => decide_eq_true (h r hr)]

theorem seatsOf_other (h : ∀ r ∈ rows, r.scheduleId = k) (hk : k' ≠ k) : seatsOf rows k' = [] := by
  unfold seatsOf
  rw [List.filter_eq_nil_iff.2 fun r hr hmatch => hk ((of_decide_eq_true hmatch).symm.trans (h r hr))]
  rfl

theorem indexTaken_iff :
    IndexTaken rows k seat ↔ seat.seatIndex ∈ (seatsOf rows k).map Prod.snd := by
  unfold IndexTaken seatsOf
  simp only [List.map_map, List.mem_map, List.mem_filter, decide_eq_true_eq, Function.comp_apply]
  constructor
  · rintro ⟨r, hr, hk, hindex⟩
    exact ⟨r, ⟨hr, hk⟩, hindex⟩
  · rintro ⟨r, ⟨hr, hk⟩, hindex⟩
    exact ⟨r, hr, hk, hindex⟩

/-- Numbers that are there up to some number are all that there are. -/
theorem numbered_of_perm {n : ℕ} (h : ((seatsOf rows k).map Prod.snd).Perm (oneTo n)) :
    Numbered rows k := by
  have hlen : (seatsOf rows k).length = n := by
    have hlen := h.length_eq
    rwa [List.length_map, length_oneTo] at hlen
  unfold Numbered
  rwa [hlen]

/-- Rows that continue the numbers of their schedule. -/
theorem numbered_append {new : List ScheduleSeat} (h : Numbered rows k)
    (hnew : ∀ r ∈ new, r.scheduleId = k)
    (hindices : Consecutive ((seatsOf rows k).length + 1) (new.map ScheduleSeat.seatIndex)) :
    Numbered (rows ++ new) k := by
  have hseats : (seatsOf new k).map Prod.snd = new.map ScheduleSeat.seatIndex := by
    rw [seatsOf_same hnew, List.map_map]
    rfl
  refine numbered_of_perm (n := (seatsOf rows k).length + (new.map ScheduleSeat.seatIndex).length) ?_
  rw [← oneTo_append hindices, seatsOf_append, List.map_append, hseats]
  exact List.Perm.append_right _ h

theorem numbered_append_other {new : List ScheduleSeat} (h : Numbered rows k')
    (hnew : ∀ r ∈ new, r.scheduleId = k) (hk : k' ≠ k) : Numbered (rows ++ new) k' := by
  unfold Numbered
  rwa [seatsOf_append, seatsOf_other hnew hk, List.append_nil]

end Rows

/-! ## Extra seats -/

section Extra

variable {rows : List ScheduleSeat} {k : ℤ}

/-- The greatest of the numbers from 1. -/
theorem foldl_max_oneTo (n : ℕ) : (oneTo n).foldl max 0 = n := by
  induction n with
  | zero => rfl
  | succ n ih =>
      unfold oneTo at ih ⊢
      rw [List.range_succ, List.map_append, List.foldl_append, ih]
      show max (n : ℤ) ((n : ℤ) + 1) = ((n + 1 : ℕ) : ℤ)
      omega

theorem maxSeatIndex_of_numbered {db : SeatCounts.World} (h : Numbered db.seats k) :
    db.maxSeatIndex k = (seatsOf db.seats k).length := by
  have hfold : db.maxSeatIndex k = ((seatsOf db.seats k).map Prod.snd).foldl max 0 := by
    unfold SeatCounts.World.maxSeatIndex seatsOf
    rw [List.map_map, List.foldl_map]
    rfl
  calc db.maxSeatIndex k = ((seatsOf db.seats k).map Prod.snd).foldl max 0 := hfold
    _ = (oneTo (seatsOf db.seats k).length).foldl max 0 := h.foldl_eq 0
    _ = (seatsOf db.seats k).length := foldl_max_oneTo _

/-- The rows of a request are of its schedule, and their indices follow on each other. -/
theorem newSeats_rows {seats : List ExtraSeat} {taken : List (String × ℤ)} {index id : ℤ}
    {new : List ScheduleSeat} :
    SeatCounts.World.newSeats k seats taken index id = .ok new →
      (∀ r ∈ new, r.scheduleId = k) ∧ Consecutive index (new.map ScheduleSeat.seatIndex) := by
  intro h
  induction seats generalizing taken index id new with
  | nil =>
      obtain rfl : [] = new := Except.ok.inj h
      exact ⟨List.forall_mem_nil _, trivial⟩
  | cons seat seats ih =>
      rcases SeatCounts.World.newSeats_cons_ok h with hskip | ⟨price, rest, -, hrest, rfl⟩
      · exact ih hskip
      · obtain ⟨hids, hindices⟩ := ih hrest
        exact ⟨List.forall_mem_cons.2 ⟨rfl, hids⟩, rfl, hindices⟩

/-- The rows that the transaction adds, to a schedule that has not been started. -/
theorem addExtraSeats_adds (db : SeatCounts.World) (k : ℤ) (seats : List ExtraSeat) :
    ((db.addExtraSeats k seats).1.schedules = db.schedules) ∧
      ((db.addExtraSeats k seats).1.seats = db.seats ∨
        (∃ r ∈ db.schedules, r.id = k ∧ r.lifecycleState = .scheduled) ∧
          ∃ new, (db.addExtraSeats k seats).1.seats = db.seats ++ new ∧
            (∀ r ∈ new, r.scheduleId = k) ∧
            Consecutive (db.maxSeatIndex k + 1) (new.map ScheduleSeat.seatIndex)) := by
  unfold SeatCounts.World.addExtraSeats
  split
  · exact ⟨rfl, .inl rfl⟩
  · next schedule hfind =>
      split_ifs with hstate
      · split
        · exact ⟨rfl, .inl rfl⟩
        · next index hindex =>
            split
            · exact ⟨rfl, .inl rfl⟩
            · next new hnew =>
                have hrow : schedule.id = k ∧ schedule.deletedAt = none := by
                  simpa using List.find?_some hfind
                obtain rfl : index = db.maxSeatIndex k + 1 := by
                  unfold SeatCounts.World.nextIndex at hindex
                  split_ifs at hindex
                  exact (Except.ok.inj hindex).symm
                obtain ⟨hids, hindices⟩ := newSeats_rows hnew
                exact ⟨rfl, .inr ⟨⟨schedule, List.mem_of_find?_eq_some hfind, hrow.1, hstate⟩, new, rfl,
                  hids, hindices⟩⟩
      · exact ⟨rfl, .inl rfl⟩

/-- The extra seats of a schedule continue its numbers. -/
theorem numbered_addExtraSeats {db : SeatCounts.World} (h : ∀ k, Numbered db.seats k)
    (k : ℤ) (seats : List ExtraSeat) (k' : ℤ) : Numbered (db.addExtraSeats k seats).1.seats k' := by
  obtain ⟨-, hsame | ⟨-, new, hadds, hids, hindices⟩⟩ := addExtraSeats_adds db k seats
  · rw [hsame]
    exact h k'
  · rw [hadds]
    by_cases hk : k' = k
    · subst hk
      rw [maxSeatIndex_of_numbered (h k')] at hindices
      exact numbered_append (h k') hids hindices
    · exact numbered_append_other (h k') hids hk

end Extra

/-! ## The seats of a layout -/

section Layout

variable {db : SeatCounts.World} {k k' : ℤ} {seats : List NewScheduleSeat}

def NewScheduleSeat.seatKey (seat : NewScheduleSeat) : String × ℤ :=
  (seat.rowLetter, seat.seatNumber)

/-- The seats of a layout are numbered from 1 and have keys of their own. -/
structure Copied (seats : List NewScheduleSeat) : Prop where
  indices : Consecutive 1 (seats.map NewScheduleSeat.seatIndex)
  keys : (seats.map NewScheduleSeat.seatKey).Nodup

theorem copySeats_ok {body : CreateSchedule} {layout : List SeatLayoutSeat}
    {seen : List (String × ℤ)} {count : ℤ} :
    copySeats body layout seen count = .ok seats →
      Consecutive (count + 1) (seats.map NewScheduleSeat.seatIndex) ∧
        (seats.map NewScheduleSeat.seatKey).Nodup ∧
        ∀ key ∈ seats.map NewScheduleSeat.seatKey, key ∉ seen := by
  intro h
  induction layout generalizing seen count seats with
  | nil =>
      obtain rfl : [] = seats := Except.ok.inj h
      exact ⟨trivial, List.nodup_nil, List.forall_mem_nil _⟩
  | cons seat layout ih =>
      rw [copySeats] at h
      split_ifs at h with hseen
      · exact ih h
      · cases hrest : copySeats body layout ((seat.rowLetter, seat.seatNumber) :: seen) (count + 1) with
        | error e => simp [hrest, bind, Except.bind] at h
        | ok rest =>
            simp only [hrest, bind, Except.bind, pure, Except.pure] at h
            obtain rfl := Except.ok.inj h
            obtain ⟨hindices, hnodup, hfresh⟩ := ih hrest
            refine ⟨⟨rfl, hindices⟩, List.nodup_cons.2 ⟨fun hmem => ?_, hnodup⟩, ?_⟩
            · exact hfresh _ hmem List.mem_cons_self
            · intro key hkey hmem
              rcases List.mem_cons.1 hkey with rfl | hkey
              · exact hseen hmem
              · exact hfresh key hkey (List.mem_cons_of_mem _ hmem)

theorem copied_baseSeats {body : CreateSchedule} {layout : List SeatLayoutSeat} :
    baseSeats body layout = .ok seats → Copied seats := by
  intro h
  obtain ⟨hindices, hkeys, -⟩ := copySeats_ok h
  exact ⟨hindices, hkeys⟩

/-- A row is skipped or inserted. -/
theorem insertSeat_cases (k : ℤ) (db : SeatCounts.World) (seat : NewScheduleSeat) :
    ((IndexTaken db.seats k seat ∨ KeyTaken db.seats k seat) ∧
        (insertSeat k db seat).seats = db.seats) ∨
      (¬IndexTaken db.seats k seat ∧ ¬KeyTaken db.seats k seat ∧
        (insertSeat k db seat).seats = db.seats ++ [seat.row db.nextSeatId k]) := by
  unfold insertSeat
  split_ifs with htaken
  · exact .inl ⟨htaken, rfl⟩
  · obtain ⟨hindex, hkey⟩ := not_or.1 htaken
    exact .inr ⟨hindex, hkey, rfl⟩

theorem insertSeat_schedules (k : ℤ) (db : SeatCounts.World) (seat : NewScheduleSeat) :
    (insertSeat k db seat).schedules = db.schedules := by
  unfold insertSeat
  split_ifs
  · rfl
  · rfl

theorem insertSeats_schedules (k : ℤ) (db : SeatCounts.World) (seats : List NewScheduleSeat) :
    (seats.foldl (insertSeat k) db).schedules = db.schedules := by
  induction seats generalizing db with
  | nil => rfl
  | cons seat seats ih => exact (ih _).trans (insertSeat_schedules k db seat)

/-- Seats that all conflict are all skipped. -/
theorem insertSeats_allTaken (h : AllTaken db.seats k seats) :
    (seats.foldl (insertSeat k) db).seats = db.seats := by
  induction seats generalizing db with
  | nil => rfl
  | cons seat seats ih =>
      obtain ⟨hseat, hrest⟩ := List.forall_mem_cons.1 h
      rcases insertSeat_cases k db seat with ⟨-, hsame⟩ | ⟨hindex, hkey, -⟩
      · refine (ih ?_).trans hsame
        rw [hsame]
        exact hrest
      · exact absurd hseat (not_or.2 ⟨hindex, hkey⟩)

theorem seatsOf_insertSeats_other (hk : k' ≠ k) :
    seatsOf (seats.foldl (insertSeat k) db).seats k' = seatsOf db.seats k' := by
  induction seats generalizing db with
  | nil => rfl
  | cons seat seats ih =>
      have hone : seatsOf (insertSeat k db seat).seats k' = seatsOf db.seats k' := by
        rcases insertSeat_cases k db seat with ⟨-, hsame⟩ | ⟨-, -, hadds⟩
        · rw [hsame]
        · have hrow : seatsOf [seat.row db.nextSeatId k] k' = [] :=
            seatsOf_other (List.forall_mem_singleton.2 rfl) hk
          rw [hadds, seatsOf_append, hrow, List.append_nil]
      exact ih.trans hone

/-- The rows of a layout whose numbers go on from a number within those that are there.  They are
skipped up to the last of those, then inserted, and from the first whose key is taken on skipped
again. -/
theorem numbered_insertSeats {start : ℤ} (h : Numbered db.seats k) (hlow : 1 ≤ start)
    (hhigh : start ≤ (seatsOf db.seats k).length + 1)
    (hindices : Consecutive start (seats.map NewScheduleSeat.seatIndex))
    (hkeys : (seats.map NewScheduleSeat.seatKey).Nodup) (horder : InOrder db.seats k seats) :
    Numbered (seats.foldl (insertSeat k) db).seats k := by
  induction seats generalizing db start with
  | nil => exact h
  | cons x seats ih =>
      obtain ⟨rfl, hrest⟩ := hindices
      obtain ⟨hkey, hkeys⟩ := List.nodup_cons.1 hkeys
      have htaken : IndexTaken db.seats k x ↔ x.seatIndex ≤ (seatsOf db.seats k).length := by
        rw [indexTaken_iff, h.mem_iff, mem_oneTo]
        exact ⟨fun hx => hx.2, fun hx => ⟨hlow, hx⟩⟩
      have hlater : ∀ y ∈ seats, x.seatIndex < y.seatIndex := by
        intro y hy
        have hle := lt_of_consecutive hrest _ (List.mem_map_of_mem hy)
        omega
      rcases insertSeat_cases k db x with ⟨hconflict, hsame⟩ | ⟨hfree, -, hadds⟩
      · by_cases hindex : IndexTaken db.seats k x
        · have hle := htaken.1 hindex
          apply @ih (insertSeat k db x) _ ?_ ?_ ?_ hrest hkeys ?_
          · rwa [hsame]
          · omega
          · rw [hsame]
            omega
          · rw [hsame]
            exact fun y hy z hz => horder y (List.mem_cons_of_mem _ hy) z (List.mem_cons_of_mem _ hz)
        · -- from here on every seat is skipped
          have hxkey := hconflict.resolve_left hindex
          have hall : AllTaken db.seats k seats := by
            intro y hy
            by_cases hyindex : IndexTaken db.seats k y
            · exact .inl hyindex
            · exact .inr (horder x List.mem_cons_self y (List.mem_cons_of_mem _ hy) hindex hyindex
                (hlater y hy) hxkey)
          show Numbered (seats.foldl (insertSeat k) (insertSeat k db x)).seats k
          rw [insertSeats_allTaken (by rwa [hsame]), hsame]
          exact h
      · have hnext : x.seatIndex = (seatsOf db.seats k).length + 1 := by
          have hgt : ¬x.seatIndex ≤ (seatsOf db.seats k).length := fun hle => hfree (htaken.2 hle)
          omega
        have hrow : ∀ r ∈ [x.row db.nextSeatId k], r.scheduleId = k :=
          List.forall_mem_singleton.2 rfl
        apply @ih (insertSeat k db x) _ ?_ ?_ ?_ hrest hkeys ?_
        · rw [hadds]
          exact numbered_append h hrow ⟨hnext, trivial⟩
        · omega
        · rw [hadds, seatsOf_append, seatsOf_same hrow, List.length_append, List.length_map,
            List.length_singleton]
          push_cast
          omega
        · rw [hadds]
          intro y hy z hz hyfree hzfree hlt hytaken
          have hold : ∀ w, IndexTaken db.seats k w →
              IndexTaken (db.seats ++ [x.row db.nextSeatId k]) k w := by
            rintro w ⟨r, hr, hw⟩
            exact ⟨r, List.mem_append_left _ hr, hw⟩
          have hytaken : KeyTaken db.seats k y := by
            obtain ⟨r, hr, hk, heq⟩ := hytaken
            rcases List.mem_append.1 hr with hr | hr
            · exact ⟨r, hr, hk, heq⟩
            · obtain rfl := List.mem_singleton.1 hr
              exact absurd (List.mem_map.2 ⟨y, hy, heq.symm⟩) hkey
          obtain ⟨r, hr, hz'⟩ := horder y (List.mem_cons_of_mem _ hy) z (List.mem_cons_of_mem _ hz)
            (fun h => hyfree (hold y h)) (fun h => hzfree (hold z h)) hlt hytaken
          exact ⟨r, List.mem_append_left _ hr, hz'⟩

end Layout

/-! ## Steps -/

section Steps

variable {s s' : World} {k : ℤ}

/-- Schedules that have been started stay started, with the rows that they have. -/
def Keeps (s s' : World) : Prop :=
  ∀ k, s.Started k → s'.Started k ∧ seatsOf s'.db.seats k = seatsOf s.db.seats k

theorem keeps_refl (s : World) : Keeps s s := fun _ h => ⟨h, rfl⟩

theorem Keeps.trans {s'' : World} (h : Keeps s s') (h' : Keeps s' s'') : Keeps s s'' := by
  intro k hk
  obtain ⟨hstarted, hseats⟩ := h k hk
  obtain ⟨hstarted', hseats'⟩ := h' k hstarted
  exact ⟨hstarted', hseats'.trans hseats⟩

/-- A statement: the tables stay tidy, started schedules keep their rows, and replicas and gateways
are not touched. -/
structure Evolves (s s' : World) : Prop where
  tidy : s'.Tidy
  keeps : Keeps s s'
  metadata : s'.metadata = s.metadata
  actorSizes : s'.actorSizes = s.actorSizes

theorem evolves_refl (h : s.Tidy) : Evolves s s := ⟨h, keeps_refl s, rfl, rfl⟩

/-- A statement over a link takes effect or does not. -/
theorem evolves_deliver {ρ : Type} {f : World → World × ρ} (l : Link) (h : s.Tidy)
    (hf : Evolves s (f s).1) : Evolves s (l.deliver f s).1 := by
  cases l with
  | lost => exact evolves_refl h
  | ok => exact hf
  | unacked => exact hf

theorem evolves_insertSchedule (h : s.Tidy) : Evolves s s.insertSchedule.1 := by
  refine ⟨⟨?_, fun r hr => ?_, h.numbered⟩, fun k hk => ⟨?_, rfl⟩, rfl, rfl⟩
  · show ((s.db.schedules ++ [_]).map ScheduleRow.id).Nodup
    rw [List.map_append, List.map_singleton]
    refine List.nodup_append.2 ⟨h.nodup, List.nodup_singleton _, fun id hid other hother => ?_⟩
    obtain ⟨r, hr, rfl⟩ := List.mem_map.1 hid
    rw [List.mem_singleton.1 hother]
    exact (h.drawn r hr).ne
  · show r.id < s.nextScheduleId + 1
    rcases List.mem_append.1 hr with hr | hr
    · have hlt := h.drawn r hr
      omega
    · rw [List.mem_singleton.1 hr]
      show s.nextScheduleId < s.nextScheduleId + 1
      omega
  · obtain ⟨r, hr, hid⟩ := hk
    exact ⟨r, List.mem_append_left _ hr, hid⟩

/-- A schedule that has been started takes no more seats from admins. -/
theorem evolves_addExtraSeats (h : s.Tidy) (k : ℤ) (seats : List ExtraSeat) :
    Evolves s (s.addExtraSeats k seats).1 := by
  obtain ⟨hschedules, hadds⟩ := addExtraSeats_adds s.db k seats
  refine ⟨⟨?_, ?_, numbered_addExtraSeats h.numbered k seats⟩, fun k' hk' => ⟨?_, ?_⟩, rfl, rfl⟩
  · show ((s.db.addExtraSeats k seats).1.schedules.map ScheduleRow.id).Nodup
    rw [hschedules]
    exact h.nodup
  · show ∀ r ∈ (s.db.addExtraSeats k seats).1.schedules, _
    rw [hschedules]
    exact h.drawn
  · obtain ⟨r, hr, hid⟩ := hk'
    refine ⟨r, ?_, hid⟩
    show r ∈ (s.db.addExtraSeats k seats).1.schedules
    rwa [hschedules]
  · show seatsOf (s.db.addExtraSeats k seats).1.seats k' = _
    rcases hadds with hsame | ⟨⟨r, hr, hid, hstate⟩, new, hnew, hids, -⟩
    · rw [hsame]
    · have hne : k' ≠ k := by
        rintro rfl
        obtain ⟨r', hr', hid', hstarted⟩ := hk'
        obtain rfl := List.inj_on_of_nodup_map h.nodup hr hr' (hid.trans hid'.symm)
        exact hstarted hstate
      rw [hnew, seatsOf_append, seatsOf_other hids hne, List.append_nil]

theorem evolves_insertSeats (h : s.Tidy) {seats : List NewScheduleSeat} (hcopied : Copied seats)
    (hfits : s.Fits k seats) : Evolves s (s.insertSeats k seats).1 := by
  have hschedules := insertSeats_schedules k s.db seats
  refine ⟨⟨?_, ?_, fun k' => ?_⟩, fun k' hk' => ⟨?_, ?_⟩, rfl, rfl⟩
  · show ((seats.foldl (insertSeat k) s.db).schedules.map ScheduleRow.id).Nodup
    rw [hschedules]
    exact h.nodup
  · show ∀ r ∈ (seats.foldl (insertSeat k) s.db).schedules, _
    rw [hschedules]
    exact h.drawn
  · by_cases hk : k' = k
    · subst hk
      refine numbered_insertSeats (h.numbered k') (Int.le_refl 1) ?_ hcopied.indices hcopied.keys
        hfits.2
      omega
    · show Numbered (seats.foldl (insertSeat k) s.db).seats k'
      unfold Numbered
      rw [seatsOf_insertSeats_other hk]
      exact h.numbered k'
  · obtain ⟨r, hr, hid⟩ := hk'
    refine ⟨r, ?_, hid⟩
    show r ∈ (seats.foldl (insertSeat k) s.db).schedules
    rwa [hschedules]
  · show seatsOf (seats.foldl (insertSeat k) s.db).seats k' = _
    by_cases hk : k' = k
    · subst hk
      rw [insertSeats_allTaken (hfits.1 hk')]
    · exact seatsOf_insertSeats_other hk

/-- The schedules are the same, and those that have been started stay so. -/
structure Onward (rows rows' : List ScheduleRow) : Prop where
  ids : rows'.map ScheduleRow.id = rows.map ScheduleRow.id
  started : ∀ r ∈ rows, r.lifecycleState ≠ .scheduled →
    ∃ r' ∈ rows', r'.id = r.id ∧ r'.lifecycleState ≠ .scheduled

theorem onward_refl (rows : List ScheduleRow) : Onward rows rows :=
  ⟨rfl, fun r hr hstate => ⟨r, hr, rfl, hstate⟩⟩

/-- An update that keeps the ids, and after which the updated schedules have been started. -/
theorem onward_update {p : ScheduleRow → Bool} {f : ScheduleRow → ScheduleRow}
    (hid : ∀ r, (f r).id = r.id) (hstate : ∀ r, (f r).lifecycleState ≠ .scheduled)
    (rows : List ScheduleRow) : Onward rows (Table.updateWhere p f rows) := by
  refine ⟨Table.map_updateWhere hid, fun r hr hstarted => ?_⟩
  have hmem := Table.mem_updateWhere_of_mem (p := p) (f := f) hr
  by_cases hp : p r = true
  · rw [if_pos hp] at hmem
    exact ⟨f r, hmem, hid r, hstate r⟩
  · rw [if_neg hp] at hmem
    exact ⟨r, hmem, rfl, hstarted⟩

theorem onward_setState (t : Schedules.World) (k : ℤ) {state : LifecycleState}
    (hstate : state ≠ .scheduled) : Onward t.schedules (t.setState k state).schedules :=
  onward_update (f := fun r => { r with lifecycleState := state }) (fun _ => rfl) (fun _ => hstate)
    t.schedules

theorem onward_start (t : Schedules.World) (k : ℤ) :
    Onward t.schedules (Schedules.World.start k t).1.schedules := by
  unfold Schedules.World.start
  split
  · exact onward_refl t.schedules
  · split
    · exact onward_refl t.schedules
    · exact onward_refl t.schedules
    · exact onward_setState t k nofun

theorem onward_close (t : Schedules.World) (k : ℤ) :
    Onward t.schedules (Schedules.World.close k t).1.schedules := by
  unfold Schedules.World.close
  split
  · exact onward_refl t.schedules
  · split
    · exact onward_refl t.schedules
    · exact onward_setState t k nofun

theorem onward_markDeleted (t : Schedules.World) (k : ℤ) :
    Onward t.schedules (Schedules.World.markDeleted k t).1.schedules :=
  onward_update (f := fun r => { r with lifecycleState := .closed, deletedAt := some t.now })
    (fun _ => rfl) (fun _ => nofun) t.schedules

theorem evolves_lifecycle (h : s.Tidy) {ρ : Type} {run : Schedules.World → Schedules.World × ρ}
    (hrun : ∀ t, Onward t.schedules (run t).1.schedules) : Evolves s (s.lifecycle run).1 := by
  obtain ⟨hids, hstates⟩ :=
    hrun { Schedules.newWorld with now := s.db.now, schedules := s.db.schedules }
  refine ⟨⟨?_, fun r hr => ?_, h.numbered⟩, fun k hk => ⟨?_, rfl⟩, rfl, rfl⟩
  · exact hids ▸ h.nodup
  · have hid : r.id ∈ s.db.schedules.map ScheduleRow.id := hids ▸ List.mem_map_of_mem hr
    obtain ⟨r', hr', heq⟩ := List.mem_map.1 hid
    rw [← heq]
    exact h.drawn r' hr'
  · obtain ⟨r, hr, rfl, hstate⟩ := hk
    exact hstates r hr hstate

/-! ## Runs -/

/-- The tables are tidy, and what the replicas and the gateways keep are the rows of schedules that
have been started. -/
structure Inv (s : World) : Prop where
  tidy : s.Tidy
  cached : ∀ replica k m, s.metadata replica k = some m →
    s.Started k ∧ metadataOfRows (seatsOf s.db.seats k) = .ok m
  sized : ∀ gateway k n, s.actorSizes gateway k = some n →
    s.Started k ∧ n = (seatsOf s.db.seats k).length

/-- What a task knows of the world. -/
def Knows (s : World) : Task → Prop
  | .insertSeats _ seats => Copied seats
  | .loadSeats request => s.Started request.scheduleId
  | .setMetadata request m =>
      s.Started request.scheduleId ∧ metadataOfRows (seatsOf s.db.seats request.scheduleId) = .ok m
  | .lockSlot request totalSeatCount =>
      s.Started request.scheduleId ∧
        totalSeatCount = (seatsOf s.db.seats request.scheduleId).length
  | _ => True

theorem Knows.keeps {t : Task} (h : Keeps s s') (hk : Knows s t) : Knows s' t := by
  cases t with
  | loadSeats request => exact (h _ hk).1
  | setMetadata request m =>
      obtain ⟨hstarted, hseats⟩ := h _ hk.1
      refine ⟨hstarted, ?_⟩
      rw [hseats]
      exact hk.2
  | lockSlot request totalSeatCount =>
      obtain ⟨hstarted, hseats⟩ := h _ hk.1
      refine ⟨hstarted, ?_⟩
      rw [hseats]
      exact hk.2
  | _ => exact hk

theorem Inv.evolves (h : Inv s) (hs : Evolves s s') : Inv s' := by
  refine ⟨hs.tidy, fun replica k m hm => ?_, fun gateway k n hn => ?_⟩
  · rw [hs.metadata] at hm
    obtain ⟨hstarted, hrows⟩ := h.cached replica k m hm
    obtain ⟨hstarted', hseats⟩ := hs.keeps k hstarted
    rw [← hseats] at hrows
    exact ⟨hstarted', hrows⟩
  · rw [hs.actorSizes] at hn
    obtain ⟨hstarted, hlen⟩ := h.sized gateway k n hn
    obtain ⟨hstarted', hseats⟩ := hs.keeps k hstarted
    rw [← hseats] at hlen
    exact ⟨hstarted', hlen⟩

theorem totalSeatCount_of_rows {rows : List (ℤ × ℤ)} {m : ScheduleSeatMetadata} :
    metadataOfRows rows = .ok m → m.totalSeatCount = rows.length ∧ m.seatIndices = rows := by
  intro h
  unfold metadataOfRows at h
  split_ifs at h
  obtain rfl := Except.ok.inj h
  exact ⟨rfl, rfl⟩

/-- A request that is verified goes on with the number of the rows. -/
theorem knows_verified {m : ScheduleSeatMetadata} {request : LockRequest} {u : Task}
    (hstarted : s.Started request.scheduleId)
    (hrows : metadataOfRows (seatsOf s.db.seats request.scheduleId) = .ok m) :
    verified m request = some u → Knows s u := by
  intro h
  unfold verified at h
  cases hverify : m.verify request with
  | error e =>
      rw [hverify] at h
      cases h
  | ok totalSeatCount =>
      rw [hverify] at h
      obtain rfl := Option.some.inj h
      have htotal : totalSeatCount = m.totalSeatCount := by
        unfold ScheduleSeatMetadata.verify at hverify
        split_ifs at hverify
        split at hverify
        · cases hverify
        · exact (Except.ok.inj hverify).symm
      exact ⟨hstarted, htotal.trans (totalSeatCount_of_rows hrows).1⟩

/-- An entry after one has been written is that one, or was there before. -/
theorem setAt_setAt_cases {V : Type} {f : ℕ → ℤ → Option V} {i i' : ℕ} {j j' : ℤ} {v : Option V}
    {w : V} : Redis.setAt f i (Redis.setAt (f i) j v) i' j' = some w →
      (j' = j ∧ v = some w) ∨ f i' j' = some w := by
  intro h
  by_cases hi : i' = i
  · subst hi
    rw [Redis.setAt_self] at h
    by_cases hj : j' = j
    · subst hj
      rw [Redis.setAt_self] at h
      exact .inl ⟨rfl, h⟩
    · rw [Redis.setAt_ne hj] at h
      exact .inr h
  · rw [Redis.setAt_ne hi] at h
    exact .inr h

/-- What follows a statement, where the rest of the operation knows enough. -/
theorem step_andThen {ρ : Type} {x : World × Option ρ} {next : ρ → Option Task} (h : Inv s)
    (hx : Evolves s x.1) (hnext : ∀ r u, x.2 = some r → next r = some u → Knows x.1 u) :
    Inv (andThen x next).1 ∧ (∀ u, (andThen x next).2 = some u → Knows (andThen x next).1 u) ∧
      Keeps s (andThen x next).1 := by
  refine ⟨h.evolves hx, fun u hu => ?_, hx.keeps⟩
  obtain ⟨r, hr, hu⟩ := Option.bind_eq_some_iff.1 hu
  exact hnext r u hr hu

/-- A read has the answer of the world as it is. -/
theorem deliver_read {ρ : Type} {f : World → ρ} {l : Link} {r : ρ}
    (h : (l.deliver (fun s => (s, f s)) s).2 = some r) :
    (l.deliver (fun s => (s, f s)) s).1 = s ∧ r = f s := by
  cases l with
  | lost => cases h
  | unacked => cases h
  | ok => exact ⟨rfl, (Option.some.inj h).symm⟩

/-- Where the seats of layouts are inserted only if they fit, a step keeps the invariant, tells the
task what it has to know, and leaves the started schedules their rows. -/
theorem inv_exec {l : Link} {t : Task} (h : Inv s) (hknows : Knows s t)
    (hfits : ∀ k seats, t = .insertSeats k seats → l = .lost ∨ s.Fits k seats) :
    Inv (exec l s t).1 ∧ (∀ u, (exec l s t).2 = some u → Knows (exec l s t).1 u) ∧
      Keeps s (exec l s t).1 := by
  have hsame : Evolves s s := evolves_refl h.tidy
  cases t with
  | loadLayout body =>
      refine step_andThen h (evolves_deliver l h.tidy hsame) fun layout u _ hu => ?_
      split_ifs at hu
      obtain rfl := Option.some.inj hu
      trivial
  | insertSchedule body layout =>
      refine step_andThen h (evolves_deliver l h.tidy (evolves_insertSchedule h.tidy))
        fun k u _ hu => ?_
      cases hcopied : baseSeats body layout with
      | error e =>
          rw [hcopied] at hu
          cases hu
      | ok seats =>
          rw [hcopied] at hu
          obtain rfl := Option.some.inj hu
          exact copied_baseSeats hcopied
  | insertSeats k seats =>
      refine step_andThen h ?_ fun _ _ _ hu => nomatch hu
      rcases hfits k seats rfl with rfl | hfits
      · exact hsame
      · exact evolves_deliver l h.tidy (evolves_insertSeats h.tidy hknows hfits)
  | addExtraSeats k seats =>
      exact step_andThen h (evolves_deliver l h.tidy (evolves_addExtraSeats h.tidy k seats))
        fun _ _ _ hu => nomatch hu
  | startSchedule k =>
      exact step_andThen h (evolves_deliver l h.tidy (evolves_lifecycle h.tidy fun t =>
        onward_start t k)) fun _ _ _ hu => nomatch hu
  | closeSchedule k =>
      exact step_andThen h (evolves_deliver l h.tidy (evolves_lifecycle h.tidy fun t =>
        onward_close t k)) fun _ _ _ hu => nomatch hu
  | findSchedule k =>
      refine step_andThen h (evolves_deliver l h.tidy hsame) fun found u _ hu => ?_
      obtain ⟨-, -, rfl⟩ := Option.map_eq_some_iff.1 hu
      trivial
  | markDeleted k =>
      exact step_andThen h (evolves_deliver l h.tidy (evolves_lifecycle h.tidy fun t =>
        onward_markDeleted t k)) fun _ _ _ hu => nomatch hu
  | readMetadata request =>
      simp only [exec]
      cases hm : s.metadata request.replica request.scheduleId with
      | none => exact ⟨h, fun u hu => Option.some.inj hu ▸ trivial, keeps_refl s⟩
      | some m =>
          obtain ⟨hstarted, hrows⟩ := h.cached _ _ m hm
          exact ⟨h, fun u hu => knows_verified hstarted hrows hu, keeps_refl s⟩
  | findOpen request =>
      refine step_andThen h (evolves_deliver l h.tidy hsame) fun found u hfound hu => ?_
      obtain ⟨hs, hfind⟩ := deliver_read (f := fun s => Schedules.World.findSchedule
        { Schedules.newWorld with now := s.db.now, schedules := s.db.schedules }
        request.scheduleId) hfound
      cases found with
      | none => cases hu
      | some schedule =>
          have hu : (if schedule.lifecycleState = .open_ then some (Task.loadSeats request)
            else none) = some u := hu
          split_ifs at hu with hopen
          obtain rfl := Option.some.inj hu
          have hrow : schedule.id = request.scheduleId ∧ schedule.deletedAt = none := by
            simpa using List.find?_some hfind.symm
          have hmem : schedule ∈ s.db.schedules := List.mem_of_find?_eq_some hfind.symm
          have hstarted : s.Started request.scheduleId :=
            ⟨schedule, hmem, hrow.1, by rw [hopen]; exact nofun⟩
          exact hs.symm ▸ hstarted
  | loadSeats request =>
      refine step_andThen h (evolves_deliver l h.tidy hsame) fun rows u hloaded hu => ?_
      obtain ⟨hs, hrows⟩ := deliver_read hloaded
      rw [hs]
      cases hm : metadataOfRows rows with
      | error e =>
          rw [hm] at hu
          cases hu
      | ok m =>
          rw [hm] at hu
          obtain rfl := Option.some.inj hu
          exact ⟨hknows, hrows ▸ hm⟩
  | setMetadata request m =>
      simp only [exec]
      cases hm : s.metadata request.replica request.scheduleId with
      | some m' =>
          obtain ⟨hstarted, hrows⟩ := h.cached _ _ m' hm
          exact ⟨h, fun u hu => knows_verified hstarted hrows hu, keeps_refl s⟩
      | none =>
          refine ⟨⟨⟨h.tidy.nodup, h.tidy.drawn, h.tidy.numbered⟩, fun replica k m' hm' => ?_,
            h.sized⟩, fun u hu => knows_verified hknows.1 hknows.2 hu, fun k hk => ⟨hk, rfl⟩⟩
          rcases setAt_setAt_cases hm' with ⟨rfl, heq⟩ | hold
          · obtain rfl := Option.some.inj heq
            exact hknows
          · exact h.cached replica k m' hold
  | lockSlot request totalSeatCount =>
      simp only [exec]
      split_ifs
      · cases hsize : s.actorSizes request.gateway request.scheduleId with
        | some size => exact ⟨h, fun _ hu => (nomatch hu), keeps_refl s⟩
        | none =>
            have hmade : Inv (s.setActorSize request.gateway request.scheduleId
                (some totalSeatCount)) := by
              refine ⟨⟨h.tidy.nodup, h.tidy.drawn, h.tidy.numbered⟩, h.cached,
                fun gateway k n hn => ?_⟩
              rcases setAt_setAt_cases hn with ⟨rfl, heq⟩ | hold
              · obtain rfl := Option.some.inj heq
                exact hknows
              · exact h.sized gateway k n hold
            cases l with
            | lost => exact ⟨h, fun _ hu => (nomatch hu), keeps_refl s⟩
            | ok => exact ⟨hmade, fun _ hu => (nomatch hu), fun k hk => ⟨hk, rfl⟩⟩
            | unacked => exact ⟨hmade, fun _ hu => (nomatch hu), fun k hk => ⟨hk, rfl⟩⟩
      · exact ⟨h, fun _ hu => (nomatch hu), keeps_refl s⟩

/-! ### The environment -/

/-- Updates that write neither the schedule nor the id nor the index of a row. -/
theorem seatsOf_updateWhere {p : ScheduleSeat → Bool} {f : ScheduleSeat → ScheduleSeat}
    (hf : ∀ r, ((f r).scheduleId, (f r).id, (f r).seatIndex) = (r.scheduleId, r.id, r.seatIndex))
    (rows : List ScheduleSeat) (k : ℤ) : seatsOf (Table.updateWhere p f rows) k = seatsOf rows k := by
  have hslots : ∀ rows : List ScheduleSeat, seatsOf rows k =
      ((rows.map fun r => (r.scheduleId, r.id, r.seatIndex)).filter fun x =>
        decide (x.1 = k)).map Prod.snd := by
    intro rows
    unfold seatsOf
    rw [List.filter_map, List.map_map]
    rfl
  rw [hslots, hslots, Table.map_updateWhere hf]

theorem evolves_updateSeat (h : s.Tidy) (k : ℤ) (update : SeatUpdate) :
    Evolves s { s with db := s.db.updateSeat k update } := by
  have hdb : (s.db.updateSeat k update).schedules = s.db.schedules ∧
      ∀ k', seatsOf (s.db.updateSeat k update).seats k' = seatsOf s.db.seats k' := by
    cases update with
    | setPrice seatId price =>
        exact ⟨rfl, seatsOf_updateWhere (f := fun r => { r with price := price }) (fun _ => rfl)
          s.db.seats⟩
    | setStatus seatId status =>
        exact ⟨rfl, seatsOf_updateWhere (f := fun r => { r with status := status }) (fun _ => rfl)
          s.db.seats⟩
  refine ⟨⟨?_, ?_, fun k' => ?_⟩, fun k' hk' => ⟨?_, hdb.2 k'⟩, rfl, rfl⟩
  · exact hdb.1 ▸ h.nodup
  · exact hdb.1 ▸ h.drawn
  · unfold Numbered
    rw [hdb.2]
    exact h.numbered k'
  · obtain ⟨r, hr, hid⟩ := hk'
    exact ⟨r, hdb.1 ▸ hr, hid⟩

theorem inv_environ (x : Environ) (h : Inv s) : Inv (environ x s) ∧ Keeps s (environ x s) := by
  have hsame : Keeps s s := keeps_refl s
  cases x with
  | tick d => exact ⟨⟨⟨h.tidy.nodup, h.tidy.drawn, h.tidy.numbered⟩, h.cached, h.sized⟩, hsame⟩
  | editLayouts rows =>
      exact ⟨⟨⟨h.tidy.nodup, h.tidy.drawn, h.tidy.numbered⟩, h.cached, h.sized⟩, hsame⟩
  | updateSeat k update =>
      have hev := evolves_updateSeat h.tidy k update
      exact ⟨h.evolves hev, hev.keeps⟩
  | restartReplica replica =>
      refine ⟨⟨⟨h.tidy.nodup, h.tidy.drawn, h.tidy.numbered⟩, fun replica' k m hm => ?_, h.sized⟩,
        hsame⟩
      by_cases hr : replica' = replica
      · subst hr
        cases (congrFun Redis.setAt_self k).symm.trans hm
      · exact h.cached replica' k m ((congrFun (Redis.setAt_ne hr) k).symm.trans hm)
  | dropActor gateway k =>
      refine ⟨⟨⟨h.tidy.nodup, h.tidy.drawn, h.tidy.numbered⟩, h.cached, fun gateway' k' n hn => ?_⟩,
        hsame⟩
      rcases setAt_setAt_cases hn with ⟨-, heq⟩ | hold
      · cases heq
      · exact h.sized gateway' k' n hold

end Steps

/-! ## Whole runs -/

section Runs

variable {p q : Crew World Task} {a : CrewAct Link Environ Request}

theorem fits_of_orderly {i : ℕ} {l : Link} {t : Task} (hG : Orderly p (.run i l))
    (ht : p.tasks[i]? = some (some t)) :
    ∀ k seats, t = .insertSeats k seats → l = .lost ∨ p.store.Fits k seats := by
  rintro k seats rfl
  simp only [Orderly, ht] at hG
  exact hG

theorem knows_first {s : World} {r : Request} {t : Task} (h : first r = some t) : Knows s t := by
  cases r with
  | addExtraSeats k seats =>
      simp only [first] at h
      split_ifs at h
      obtain rfl := Option.some.inj h
      trivial
  | lock request =>
      simp only [first] at h
      split_ifs at h
      obtain rfl := Option.some.inj h
      trivial
  | _ =>
      obtain rfl := Option.some.inj h
      trivial

theorem inv_reachable (h : handlers.system.ReachableUnder Orderly p) :
    Inv p.store ∧ ∀ t, some t ∈ p.tasks → Knows p.store t := by
  refine Handlers.invariant (H := handlers) (I := Inv) (K := Knows) ?_ ?_ (fun _ _ _ _ hr => knows_first hr) ?_ h
  · rintro s ⟨htidy, hmetadata, hsizes⟩
    refine ⟨htidy, fun replica k m hm => ?_, fun gateway k n hn => ?_⟩
    · rw [hmetadata] at hm
      cases hm
    · rw [hsizes] at hn
      cases hn
  · intro x s hs
    obtain ⟨hinv, hkeeps⟩ := inv_environ x hs
    exact ⟨hinv, fun t => Knows.keeps hkeeps⟩
  · intro p i l t hG ht hI hK
    obtain ⟨hinv, hnext, hkeeps⟩ := inv_exec hI hK (fits_of_orderly hG ht)
    exact ⟨hinv, hnext, fun u => Knows.keeps hkeeps⟩

theorem keeps_step (h : handlers.system.ReachableUnder Orderly p) (hG : Orderly p a)
    (hst : handlers.system.step p a = some q) : Keeps p.store q.store := by
  obtain ⟨hinv, hknows⟩ := inv_reachable h
  cases a with
  | environ x =>
      obtain rfl := Option.some.inj hst
      exact (inv_environ x hinv).2
  | start r =>
      obtain rfl := Option.some.inj hst
      exact keeps_refl _
  | run i l =>
      obtain ⟨t, ht, rfl⟩ := Handlers.step_run (H := handlers) hst
      exact (inv_exec hinv (hknows t (List.mem_of_getElem? ht)) (fits_of_orderly hG ht)).2.2
  | crash i =>
      obtain ⟨t, -, rfl⟩ := Handlers.step_crash (H := handlers) hst
      exact keeps_refl _

theorem keeps_run (h : handlers.system.ReachableUnder Orderly p)
    (hq : (handlers.system.startingAt p).ReachableUnder Orderly q) : Keeps p.store q.store := by
  induction hq with
  | init h0 => exact h0 ▸ keeps_refl _
  | step hreach hG hst ih => exact ih.trans (keeps_step (h.of_startingAt hreach) hG hst)

/-- In every run in which the seats of layouts are inserted only where they fit, the indices of a
schedule's rows are 1 to their number, the rows of a schedule that has been started stay as they are,
and the metadata of every replica and the size of every actor are those of the rows. -/
theorem seats_numbered (h : handlers.system.ReachableUnder Orderly p) (k : ℤ) :
    ((seatsOf p.store.db.seats k).map Prod.snd).Perm (oneTo (seatsOf p.store.db.seats k).length) ∧
      (p.store.Started k → ∀ q, (handlers.system.startingAt p).ReachableUnder Orderly q →
        seatsOf q.store.db.seats k = seatsOf p.store.db.seats k) ∧
      (∀ replica m, p.store.metadata replica k = some m →
        m.totalSeatCount = (seatsOf p.store.db.seats k).length ∧
          m.seatIndices = seatsOf p.store.db.seats k) ∧
      ∀ gateway n, p.store.actorSizes gateway k = some n →
        n = (seatsOf p.store.db.seats k).length := by
  obtain ⟨hinv, -⟩ := inv_reachable h
  refine ⟨hinv.tidy.numbered k, fun hstarted q hq => ?_, fun replica m hm => ?_,
    fun gateway n hn => (hinv.sized gateway k n hn).2⟩
  · exact (keeps_run h hq k hstarted).2
  · exact totalSeatCount_of_rows (hinv.cached replica k m hm).2

end Runs

/-- A layout with three seats in one row, and no schedules. -/
def oneLayout : World :=
  { db := { now := 0, schedules := [], seats := [], nextSeatId := 1
            totalSeats := .empty, availableSeats := .empty }
    nextScheduleId := 1
    layoutSeats := [⟨1, 7, "A", 1, .standard⟩, ⟨2, 7, "A", 2, .standard⟩, ⟨3, 7, "A", 3, .vip⟩]
    metadata := fun _ _ => none
    actorSizes := fun _ _ => none }

theorem init_oneLayout : handlers.system.init ⟨oneLayout, []⟩ := by
  refine ⟨⟨⟨List.nodup_nil, List.forall_mem_nil _, fun k => ?_⟩, fun _ _ => rfl, fun _ _ => rfl⟩, rfl⟩
  exact List.Perm.refl []

/-- A schedule is created and started, an admin adds seat B1 before, and a user locks it. -/
def lockRun : List (CrewAct Link Environ Request) :=
  [.start (.createSchedule ⟨7, [("Standard", some 150)]⟩), .run 0 .ok, .run 0 .ok, .run 0 .ok,
    .start (.addExtraSeats 1 [⟨"B", 1, "90", some 90⟩]), .run 1 .ok,
    .start (.startSchedule 1), .run 2 .ok,
    .start (.lock ⟨0, 0, 1, [4], [4], 4⟩), .run 3 .ok, .run 3 .ok, .run 3 .ok, .run 3 .ok, .run 3 .ok]

/-- The actor of that show has room for the four seats. -/
theorem seats_numbered_locked :
    ∃ p, handlers.system.ReachableUnder Orderly p ∧ p.store.actorSizes 0 1 = some 4 ∧
      (seatsOf p.store.db.seats 1).length = 4 := by
  obtain ⟨p, hp, hsize⟩ := handlers.system.exists_reachable_of_runUnder Orderly
    (fun p => decide (p.store.actorSizes 0 1 = some 4)) init_oneLayout lockRun (by decide +kernel)
  have hsize := of_decide_eq_true hsize
  have h := seats_numbered hp 1
  have hlen := h.2.2.2 0 4 hsize
  exact ⟨p, hp, hsize, by omega⟩

/-- Between the two statements of the request, an admin adds seat A2, and the schedule is started. -/
def startedEarly : List (CrewAct Link Environ Request) :=
  [.start (.createSchedule ⟨7, [("Standard", some 150)]⟩), .run 0 .ok, .run 0 .ok,
    .start (.addExtraSeats 1 [⟨"A", 2, "90", some 90⟩]), .run 1 .ok,
    .start (.startSchedule 1), .run 2 .ok]

/-- The schedule is open with seat A2 alone, whose index is 1.  Then seat A3 comes with the index 3;
no seat has the index 2. -/
theorem started_schedule_takes_seats :
    ∃ p q, handlers.system.Reachable p ∧ (handlers.system.startingAt p).Reachable q ∧
      p.store.Started 1 ∧ (seatsOf p.store.db.seats 1).map Prod.snd = [1] ∧
      (∀ t ∈ q.tasks, t = none) ∧ (seatsOf q.store.db.seats 1).map Prod.snd = [1, 3] := by
  obtain ⟨p, hp, hpq⟩ := handlers.system.exists_reachable_of_run
    (fun p => decide (p.store.Started 1 ∧ (seatsOf p.store.db.seats 1).map Prod.snd = [1] ∧
      ((handlers.system.step p (.run 0 .ok)).any fun q => decide ((∀ t ∈ q.tasks, t = none) ∧
        (seatsOf q.store.db.seats 1).map Prod.snd = [1, 3])) = true))
    init_oneLayout startedEarly (by decide +kernel)
  obtain ⟨hstarted, hbefore, hafter⟩ := of_decide_eq_true hpq
  obtain ⟨q, hst, hq⟩ := (Option.any_eq_true _ _).1 hafter
  obtain ⟨htasks, hindices⟩ := of_decide_eq_true hq
  refine ⟨p, q, hp, ?_, hstarted, hbefore, htasks, hindices⟩
  exact .step (a := .run 0 .ok) (.init rfl) trivial hst

end SeatNumbering
end Bookit

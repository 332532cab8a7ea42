import Bookit.Web.BookingOpens
import Mathlib.Data.Int.Interval

/-!
# Web.BaseSeats — a new schedule has the seats of its layout

A schedule and its base seats are inserted by two statements.  The copy takes one seat for each letter
and number, while a layout tells its seats apart by their blocks as well; and the insert skips the seats
whose index or key an extra seat has taken in between.  Where nothing comes between the statements and a
layout has each letter and number once, every schedule has a copy of every seat.
-/

namespace Bookit
namespace ScheduleHandlers

open Lib
open SeatNumbering (LayoutSeatClass)

/-! ## Complete schedules -/

namespace World

variable (s : World)

def baseSeats (scheduleId : ℤ) : List ScheduleSeat :=
  s.seats.filter fun r => decide (r.source = .base ∧ r.scheduleId = scheduleId)

end World

/-- A schedule that a thread has inserted for its request. -/
structure Made where
  thread : ℕ
  body : CreateScheduleRequest
  scheduleId : ℤ
  deriving DecidableEq

/-- What is copied of a seat of a layout: its letter, number and class, with the price of the class. -/
def LayoutSeat.copy (body : CreateScheduleRequest) (seat : LayoutSeat) :
    String × ℤ × LayoutSeatClass × ℚ :=
  (seat.rowLetter, seat.seatNumber, seat.seatClass, body.price seat.seatClass)

def NewScheduleSeat.copied (seat : NewScheduleSeat) : String × ℤ × LayoutSeatClass × ℚ :=
  (seat.rowLetter, seat.seatNumber, seat.seatClass, seat.price)

/-- The base seats of the schedule are the seats of its layout, each once. -/
def Made.Complete (s : World) (m : Made) : Prop :=
  ((s.baseSeats m.scheduleId).map fun r => r.toNewScheduleSeat.copied).Perm
    ((s.layoutOf m.body.layoutId).map (LayoutSeat.copy m.body))

def logMade (n : Request) (i : ℕ) (l : Link) (c : Cmd) (s : World) (log : List Made) : List Made :=
  match n, c with
  | .create body, .insertSchedule values =>
      if l = .lost ∨ s.Blocked (values.row s.nextScheduleId s.now) then log
      else log ++ [⟨i, body, s.nextScheduleId⟩]
  | _, _ => log

/-- The machine with a log of the schedules that are inserted. -/
abbrev madeMachine : Machine (World × List Made) Rep Request (Except Payments.AppError Response)
    Link Environ :=
  machine.logged [] logMade

abbrev MadePool := Pool (World × List Made) Rep Request (Except Payments.AppError Response)

/-- The request of the thread has returned, or the thread is lost. -/
def Over (p : MadePool) (i : ℕ) : Bool :=
  p.threads[i]?.any fun t => t.prog.all Prog.returned

/-! ## The condition -/

def LayoutSeat.key (seat : LayoutSeat) : String × ℤ :=
  (seat.rowLetter, seat.seatNumber)

/-- No letter and number is there twice, and the prices are stored as they are. -/
def Copied (body : CreateScheduleRequest) (layout : List LayoutSeat) : Prop :=
  (layout.map LayoutSeat.key).Nodup ∧
    ∀ seat ∈ layout, numeric (body.price seat.seatClass) = some (body.price seat.seatClass)

/-- A schedule is inserted for a layout that can be copied, and the insert is answered; its seats are
inserted before any other. -/
def WholeWrites (n : Request) (_ : ℕ) (l : Link) : Cmd → World × List Made → Prop
  | .insertSchedule values, s =>
      l ≠ .lost → ¬s.1.Blocked (values.row s.1.nextScheduleId s.1.now) →
        l = .ok ∧
          match n with
          | .create body => Copied body (s.1.layoutOf body.layoutId)
          | _ => True
  | .insertSeats values, s =>
      l ≠ .lost ∧ ∀ seat ∈ values, s.1.seatsOf seat.scheduleId = []
  | _, _ => True

/-- No thread is lost between the two inserts. -/
def WholeRun (p : MadePool) : Act Link Environ → Prop
  | .crash i => ∀ m ∈ p.store.2, m.thread = i → p.store.1.baseSeats m.scheduleId ≠ []
  | a => Machine.Guarded WholeWrites (fun _ _ => True) p a

/-! ## The copy of a layout -/

section Copy

variable {body : CreateScheduleRequest} {k : ℤ}

/-- The seats to be inserted for distinct seats of a layout, after the first `count`. -/
def copies (body : CreateScheduleRequest) (k : ℤ) : List LayoutSeat → ℕ → List NewScheduleSeat
  | [], _ => []
  | seat :: seats, count =>
      { scheduleId := k, seatIndex := (count + 1 : ℕ), layoutSeatId := some seat.id
        source := .base, rowLetter := seat.rowLetter, seatNumber := seat.seatNumber
        seatClass := seat.seatClass, price := body.price seat.seatClass } ::
      copies body k seats (count + 1)

theorem copySeats_eq {layout : List LayoutSeat} {seen : List (String × ℤ)} {count : ℕ} :
    (layout.map LayoutSeat.key).Nodup → (∀ seat ∈ layout, seat.key ∉ seen) →
      count + layout.length < 2 ^ 31 →
        copySeats body k layout seen count = .ok (copies body k layout count) := by
  induction layout generalizing seen count with
  | nil =>
      intro _ _ _
      rfl
  | cons seat seats ih =>
      intro hkeys hseen hlength
      rw [List.map_cons, List.nodup_cons] at hkeys
      rw [List.length_cons] at hlength
      have hfresh : (seat.rowLetter, seat.seatNumber) ∉ seen := hseen seat List.mem_cons_self
      have hseats : ∀ x ∈ seats, x.key ∉ (seat.rowLetter, seat.seatNumber) :: seen := by
        intro x hx
        rw [List.mem_cons, not_or]
        refine ⟨?_, hseen x (List.mem_cons_of_mem _ hx)⟩
        intro heq
        exact hkeys.1 (List.mem_map.mpr ⟨x, hx, heq⟩)
      have hcount : count + 1 < 2 ^ 31 := by omega
      rw [copySeats, if_neg hfresh, if_pos hcount,
        ih hkeys.2 hseats (by omega : count + 1 + seats.length < 2 ^ 31)]
      rfl

theorem copies_copied (layout : List LayoutSeat) (count : ℕ) :
    (copies body k layout count).map NewScheduleSeat.copied =
      layout.map (LayoutSeat.copy body) := by
  induction layout generalizing count with
  | nil => rfl
  | cons seat seats ih =>
      rw [copies, List.map_cons, List.map_cons, ih]
      rfl

theorem length_copies (layout : List LayoutSeat) (count : ℕ) :
    (copies body k layout count).length = layout.length := by
  have hlength := congrArg List.length (@copies_copied body k layout count)
  simpa only [List.length_map] using hlength

theorem copies_key (layout : List LayoutSeat) (count : ℕ) :
    (copies body k layout count).map NewScheduleSeat.key = layout.map LayoutSeat.key := by
  induction layout generalizing count with
  | nil => rfl
  | cons seat seats ih =>
      rw [copies, List.map_cons, List.map_cons, ih]
      rfl

theorem mem_copies {layout : List LayoutSeat} {count : ℕ} {v : NewScheduleSeat} :
    v ∈ copies body k layout count →
      v.scheduleId = k ∧ v.source = .base ∧ (count : ℤ) < v.seatIndex ∧
        ∃ seat ∈ layout, v.price = body.price seat.seatClass := by
  induction layout generalizing count with
  | nil =>
      intro hv
      exact absurd hv List.not_mem_nil
  | cons seat seats ih =>
      intro hv
      rw [copies, List.mem_cons] at hv
      rcases hv with rfl | hv
      · refine ⟨rfl, rfl, ?_, seat, List.mem_cons_self, rfl⟩
        exact Int.ofNat_lt.mpr (Nat.lt_succ_self count)
      · obtain ⟨hk, hbase, hindex, x, hx, hprice⟩ := ih hv
        refine ⟨hk, hbase, ?_, x, List.mem_cons_of_mem _ hx, hprice⟩
        exact (Int.ofNat_lt.mpr (Nat.lt_succ_self count)).trans hindex

theorem length_sortedSeats (layout : List LayoutSeat) :
    (sortedSeats layout).length = layout.length :=
  (List.perm_insertionSort _ layout).length_eq

/-- A layout with a seat has one to copy. -/
theorem exists_mem_copies {layout : List LayoutSeat} :
    layout ≠ [] → ∃ v, v ∈ copies body k (sortedSeats layout) 0 := by
  intro h
  apply List.exists_mem_of_ne_nil
  intro hnil
  have hlength := congrArg List.length hnil
  rw [length_copies, length_sortedSeats] at hlength
  exact h (List.length_eq_zero_iff.mp hlength)

theorem copies_indices (layout : List LayoutSeat) (count : ℕ) :
    ((copies body k layout count).map NewScheduleSeat.seatIndex).Nodup := by
  induction layout generalizing count with
  | nil => exact List.nodup_nil
  | cons seat seats ih =>
      rw [copies, List.map_cons, List.nodup_cons]
      refine ⟨?_, ih (count + 1)⟩
      intro hmem
      obtain ⟨v, hv, heq⟩ := List.mem_map.mp hmem
      have hindex := (mem_copies hv).2.2.1
      exact absurd heq hindex.ne'

/-- The layout has fewer seats than there are serial numbers. -/
theorem length_layout {s : World} (hs : LayoutsKept s.layoutSeats) (layoutId : ℤ) :
    (s.layoutOf layoutId).length < 2 ^ 31 := by
  have hsub : (s.layoutOf layoutId).Sublist s.layoutSeats := List.filter_sublist
  have hnodup : ((s.layoutOf layoutId).map fun seat => seat.id).Nodup := hs.ids.sublist (hsub.map _)
  have hrange : ((s.layoutOf layoutId).map fun seat => seat.id).toFinset ⊆
      Finset.Icc (1 : ℤ) (2 ^ 31 - 1) := by
    intro id hid
    rw [List.mem_toFinset] at hid
    obtain ⟨seat, hseat, rfl⟩ := List.mem_map.mp hid
    have hserial := hs.serial seat (hsub.subset hseat)
    exact Finset.mem_Icc.mpr ⟨hserial.1, by omega⟩
  have hcard := Finset.card_le_card hrange
  rw [List.toFinset_card_of_nodup hnodup, List.length_map, Int.card_Icc] at hcard
  norm_num at hcard
  omega

end Copy

/-! ## Inserts of seats -/

section Insert

/-- A seat that is free is added. -/
theorem insertSeat_of_free {s : World} {seat : NewScheduleSeat} :
    ¬Taken s.seats seat →
      s.insertSeat seat = { s with
        seats := s.seats ++ [seat.row s.nextSeatId]
        nextSeatId := s.nextSeatId + 1 } := by
  intro hfree
  exact if_neg hfree

/-- An insert of seats adds rows for some of them. -/
theorem foldl_insertSeat_adds (values : List NewScheduleSeat) (s : World) :
    (values.foldl World.insertSeat s).layoutSeats = s.layoutSeats ∧
      ∃ rows, (values.foldl World.insertSeat s).seats = s.seats ++ rows ∧
        ∀ r ∈ rows, ∃ v ∈ values, r.toNewScheduleSeat = v.stored := by
  induction values generalizing s with
  | nil => exact ⟨rfl, [], (List.append_nil _).symm, fun _ hr => absurd hr List.not_mem_nil⟩
  | cons seat values ih =>
      obtain ⟨hlayout, rows, hrows, hfrom⟩ := ih (s.insertSeat seat)
      have hmem : ∀ r ∈ rows, ∃ v ∈ seat :: values, r.toNewScheduleSeat = v.stored := by
        intro r hr
        obtain ⟨v, hv, heq⟩ := hfrom r hr
        exact ⟨v, List.mem_cons_of_mem _ hv, heq⟩
      rw [List.foldl_cons]
      by_cases htaken : Taken s.seats seat
      · have hskip : s.insertSeat seat = { s with nextSeatId := s.nextSeatId + 1 } := if_pos htaken
        rw [hskip] at hlayout hrows ⊢
        exact ⟨hlayout, rows, hrows, hmem⟩
      · rw [insertSeat_of_free htaken] at hlayout hrows ⊢
        refine ⟨hlayout, seat.row s.nextSeatId :: rows, ?_, ?_⟩
        · rw [hrows, List.append_assoc, List.singleton_append]
        · intro r hr
          rcases List.mem_cons.mp hr with rfl | hr
          · exact ⟨seat, List.mem_cons_self, rfl⟩
          · exact hmem r hr

/-- An insert of seats that are free, and free of each other, adds them all. -/
theorem foldl_insertSeat_all (values : List NewScheduleSeat) (s : World) :
    (∀ v ∈ values, ¬Taken s.seats v) →
      (values.map NewScheduleSeat.seatIndex).Nodup → (values.map NewScheduleSeat.key).Nodup →
        ∃ rows, (values.foldl World.insertSeat s).seats = s.seats ++ rows ∧
          rows.map ScheduleSeat.toNewScheduleSeat = values.map NewScheduleSeat.stored := by
  induction values generalizing s with
  | nil =>
      intro _ _ _
      exact ⟨[], (List.append_nil _).symm, rfl⟩
  | cons seat values ih =>
      intro hfree hindices hkeys
      rw [List.map_cons, List.nodup_cons] at hindices hkeys
      have hseat := insertSeat_of_free (hfree seat List.mem_cons_self)
      have hrest : ∀ v ∈ values, ¬Taken (s.insertSeat seat).seats v := by
        intro v hv htaken
        obtain ⟨r, hr, hid, hclash⟩ := htaken
        rw [hseat, List.mem_append] at hr
        rcases hr with hr | hr
        · exact hfree v (List.mem_cons_of_mem _ hv) ⟨r, hr, hid, hclash⟩
        · obtain rfl := List.mem_singleton.mp hr
          rcases hclash with hindex | hkey
          · exact hindices.1 (List.mem_map.mpr ⟨v, hv, hindex.symm⟩)
          · exact hkeys.1 (List.mem_map.mpr ⟨v, hv, hkey.symm⟩)
      obtain ⟨rows, hrows, hmap⟩ := ih (s.insertSeat seat) hrest hindices.2 hkeys.2
      refine ⟨seat.row s.nextSeatId :: rows, ?_, ?_⟩
      · rw [List.foldl_cons, hrows, hseat, List.append_assoc, List.singleton_append]
      · rw [List.map_cons, List.map_cons, hmap]
        rfl

end Insert

/-! ## Steps that add seats -/

/-- Schedules, layouts and the seats that are there stay; the seats that are added satisfy `P`. -/
structure Grows (P : ScheduleSeat → Prop) (s t : World) : Prop where
  layoutSeats : t.layoutSeats = s.layoutSeats
  ids : t.schedules.map Schedule.id = s.schedules.map Schedule.id
  nextScheduleId : s.nextScheduleId ≤ t.nextScheduleId
  seats : ∃ rows, t.seats = s.seats ++ rows ∧
    ∀ r ∈ rows, P r ∧ r.scheduleId ∈ s.schedules.map Schedule.id

section Grows

variable {P : ScheduleSeat → Prop} {s t : World}

theorem Grows.refl (s : World) : Grows P s s where
  layoutSeats := rfl
  ids := rfl
  nextScheduleId := le_rfl
  seats := ⟨[], (List.append_nil _).symm, fun _ hr => absurd hr List.not_mem_nil⟩

theorem Grows.mono {Q : ScheduleSeat → Prop} (hPQ : ∀ r, P r → Q r) : Grows P s t → Grows Q s t := by
  intro h
  obtain ⟨rows, hrows, hP⟩ := h.seats
  exact
    { layoutSeats := h.layoutSeats
      ids := h.ids
      nextScheduleId := h.nextScheduleId
      seats := ⟨rows, hrows, fun r hr => ⟨hPQ r (hP r hr).1, (hP r hr).2⟩⟩ }

/-- The base seats of a schedule for which nothing is added. -/
theorem Grows.baseSeats {k : ℤ} (hP : ∀ r, P r → ¬(r.source = .base ∧ r.scheduleId = k)) :
    Grows P s t → t.baseSeats k = s.baseSeats k := by
  intro h
  obtain ⟨rows, hrows, hadded⟩ := h.seats
  have hnone : rows.filter (fun r => decide (r.source = .base ∧ r.scheduleId = k)) = [] := by
    rw [List.filter_eq_nil_iff]
    intro r hr
    simpa using hP r (hadded r hr).1
  unfold World.baseSeats
  rw [hrows, List.filter_append, hnone, List.append_nil]

theorem mem_ids_of_scheduleRow {k : ℤ} :
    (s.scheduleRow k).isSome = true → k ∈ s.schedules.map Schedule.id := by
  intro h
  by_contra hk
  have hnone : s.scheduleRow k = none := Table.rowAt_eq_none.mpr hk
  rw [hnone] at h
  cases h

theorem grows_insertSeats (values : List NewScheduleSeat) (s : World) :
    Grows (fun r => ∃ v ∈ values, r.toNewScheduleSeat = v.stored) s (s.insertSeats values).1 := by
  have hschedules := insertSeats_schedules values s
  unfold World.insertSeats at hschedules ⊢
  split_ifs at hschedules ⊢ with haccepted
  · obtain ⟨hlayout, rows, hrows, hfrom⟩ := foldl_insertSeat_adds values s
    refine ⟨hlayout, congrArg _ hschedules.1, hschedules.2.ge, rows, hrows, ?_⟩
    intro r hr
    refine ⟨hfrom r hr, ?_⟩
    obtain ⟨v, hv, heq⟩ := hfrom r hr
    have hthere := List.all_eq_true.mp haccepted v hv
    rw [Bool.and_eq_true] at hthere
    have hid : r.scheduleId = v.stored.scheduleId := congrArg NewScheduleSeat.scheduleId heq
    exact hid ▸ mem_ids_of_scheduleRow hthere.2
  · exact .refl s

/-- The commands that insert no schedule and no copied seats. -/
def Quiet : Cmd → Prop
  | .insertSchedule _ | .insertSeats _ => False
  | _ => True

def Extra (r : ScheduleSeat) : Prop :=
  r.source = .extra

theorem grows_of_exec {l : Link} {c : Cmd} {r : Rep c} (hc : Quiet c) :
    exec l c s = (t, r) → Grows Extra s t := by
  intro h
  by_cases hreads : c.reads = true
  · obtain rfl := exec_reads hreads h
    exact .refl _
  cases c with
  | connect => exact absurd rfl hreads
  | findShow id => exact absurd rfl hreads
  | loadLayout layoutId => exact absurd rfl hreads
  | findSchedule scheduleId => exact absurd rfl hreads
  | readSchedule scheduleId => exact absurd rfl hreads
  | insertSchedule values => exact hc.elim
  | insertSeats values => exact hc.elim
  | updateSchedule scheduleId changeset =>
      rcases attempt_cases h with ⟨-, rfl, -⟩ | ⟨-, rfl, -⟩
      · exact .refl _
      · unfold World.updateSchedule
        split
        · exact .refl _
        split_ifs
        · exact .refl _
        · refine ⟨rfl, ?_, le_rfl, [], (List.append_nil _).symm, ?_⟩
          · exact Table.map_updateWhere fun _ => rfl
          · exact fun _ hr => absurd hr List.not_mem_nil
  | addExtraSeats scheduleId seats =>
      rcases Link.deliver_cases h with ⟨rfl, -⟩ | ⟨rfl, -⟩
      · exact .refl _
      · rcases addExtraSeats_cases scheduleId seats s with hnone | ⟨values, hvalues, hinsert⟩
        · rw [hnone]
          exact .refl _
        · rw [hinsert]
          refine (grows_insertSeats values s).mono ?_
          rintro r ⟨v, hv, heq⟩
          have hsource : r.source = v.stored.source := congrArg NewScheduleSeat.source heq
          exact hsource.trans (hvalues v hv).1

theorem Aside.grows : Aside s t → Grows P s t := by
  intro h
  have hid : Schedule.id = Prod.fst ∘ Schedule.times := rfl
  refine ⟨h.layoutSeats, ?_, h.nextScheduleId.ge, [], ?_, fun _ hr => absurd hr List.not_mem_nil⟩
  · rw [hid, ← List.map_map, ← List.map_map, h.times]
  · rw [h.seats, List.append_nil]

end Grows

/-! ## What a run keeps -/

/-- Every schedule is in the log, with no base seats or with all of them. -/
structure WholeInv (s : World × List Made) : Prop where
  numbered : Numbered s.1
  layouts : LayoutsKept s.1.layoutSeats
  refers : ∀ r ∈ s.1.seats, r.scheduleId ∈ s.1.schedules.map Schedule.id
  made : s.1.schedules.map Schedule.id = s.2.map Made.scheduleId
  layout : ∀ m ∈ s.2, s.1.layoutOf m.body.layoutId ≠ []
  state : ∀ m ∈ s.2, s.1.baseSeats m.scheduleId = [] ∨ m.Complete s.1

/-- Layouts stay, and so do the schedules of a thread and their base seats. -/
structure Spares (i : ℕ) (s t : World × List Made) : Prop where
  layoutSeats : t.1.layoutSeats = s.1.layoutSeats
  mine : (t.2.filter fun m => decide (m.thread = i)) = s.2.filter fun m => decide (m.thread = i)
  baseSeats : ∀ m ∈ s.2, m.thread = i → t.1.baseSeats m.scheduleId = s.1.baseSeats m.scheduleId

theorem Spares.refl (i : ℕ) (s : World × List Made) : Spares i s s :=
  ⟨rfl, rfl, fun _ _ _ => rfl⟩

theorem Spares.trans {i : ℕ} {s t u : World × List Made} (h : Spares i s t) (h' : Spares i t u) :
    Spares i s u where
  layoutSeats := h'.layoutSeats.trans h.layoutSeats
  mine := h'.mine.trans h.mine
  baseSeats := by
    intro m hm hi
    have hmine : m ∈ s.2.filter fun m => decide (m.thread = i) :=
      List.mem_filter.mpr ⟨hm, decide_eq_true hi⟩
    have ht : m ∈ t.2 := List.mem_of_mem_filter (h.mine ▸ hmine)
    exact (h'.baseSeats m ht hi).trans (h.baseSeats m hm hi)

def whole : Contract (World × List Made) Rep Request Link where
  inv := WholeInv
  rely := Spares
  guar _ _ _ := True
  allowed := WholeWrites
  rely_refl := Spares.refl
  rely_trans _ _ _ _ := Spares.trans

section Steps

variable {s t : World} {log : List Made} {reply : Option Unit}

theorem complete_congr {m : Made} (hlayout : t.layoutSeats = s.layoutSeats)
    (hbase : t.baseSeats m.scheduleId = s.baseSeats m.scheduleId) :
    m.Complete t ↔ m.Complete s := by
  have hof : t.layoutOf m.body.layoutId = s.layoutOf m.body.layoutId := by
    unfold World.layoutOf
    rw [hlayout]
  unfold Made.Complete
  rw [hbase, hof]

/-- A step that adds extra seats only keeps the invariant, and spares every thread. -/
theorem Grows.whole (hs : WholeInv (s, log)) :
    Grows Extra s t → WholeInv (t, log) ∧ ∀ i, Spares i (s, log) (t, log) := by
  intro h
  have hbase : ∀ k, t.baseSeats k = s.baseSeats k := by
    intro k
    apply h.baseSeats
    intro r hr hk
    have hr : r.source = .extra := hr
    rw [hr] at hk
    cases hk.1
  refine ⟨⟨hs.numbered.of_ids h.ids h.nextScheduleId, ?_, ?_, h.ids.trans hs.made, ?_, ?_⟩, ?_⟩
  · exact h.layoutSeats ▸ hs.layouts
  · intro r hr
    obtain ⟨rows, hrows, hadded⟩ := h.seats
    rw [h.ids]
    rw [hrows, List.mem_append] at hr
    rcases hr with hr | hr
    · exact hs.refers r hr
    · exact (hadded r hr).2
  · intro m hm
    have hlayout := hs.layout m hm
    unfold World.layoutOf at hlayout ⊢
    rwa [h.layoutSeats]
  · intro m hm
    rcases hs.state m hm with hnone | hcomplete
    · exact .inl ((hbase m.scheduleId).trans hnone)
    · exact .inr ((complete_congr h.layoutSeats (hbase m.scheduleId)).mpr hcomplete)
  · exact fun i => ⟨h.layoutSeats, rfl, fun m _ _ => hbase m.scheduleId⟩

/-- A schedule that is inserted for thread `i` has no seats, and spares the other threads. -/
theorem inserted_whole {i : ℕ} {body : CreateScheduleRequest} {row : Schedule}
    (hs : WholeInv (s, log)) (hlayout : s.layoutOf body.layoutId ≠ [])
    (hid : row.id = s.nextScheduleId)
    (ht : t = { s with
      schedules := s.schedules ++ [row]
      nextScheduleId := s.nextScheduleId + 1 }) :
    WholeInv (t, log ++ [⟨i, body, row.id⟩]) ∧ t.baseSeats row.id = [] ∧
      ∀ j, j ≠ i → Spares j (s, log) (t, log ++ [⟨i, body, row.id⟩]) := by
  have hids : t.schedules.map Schedule.id = s.schedules.map Schedule.id ++ [row.id] := by
    rw [ht, List.map_append, List.map_singleton]
  have hfresh : ∀ k ∈ s.schedules.map Schedule.id, k < row.id := by
    intro k hk
    obtain ⟨r, hr, rfl⟩ := List.mem_map.mp hk
    exact hid ▸ hs.numbered.fresh r hr
  have hnone : t.baseSeats row.id = [] := by
    subst ht
    refine List.filter_eq_nil_iff.mpr ?_
    intro r hr hk
    have hlt := hfresh r.scheduleId (hs.refers r hr)
    exact absurd (of_decide_eq_true hk).2 hlt.ne
  refine ⟨⟨⟨?_, ?_⟩, ?_, ?_, ?_, ?_, ?_⟩, hnone, ?_⟩
  · rw [hids]
    refine List.nodup_append.mpr ⟨hs.numbered.ids, List.nodup_singleton _, ?_⟩
    intro a ha b hb
    rw [List.mem_singleton.mp hb]
    exact (hfresh a ha).ne
  · subst ht
    intro r hr
    rcases List.mem_append.mp hr with hr | hr
    · exact (hs.numbered.fresh r hr).trans (lt_add_one _)
    · rw [List.mem_singleton.mp hr, hid]
      exact lt_add_one s.nextScheduleId
  · subst ht
    exact hs.layouts
  · subst ht
    intro r hr
    rw [hids]
    exact List.mem_append_left _ (hs.refers r hr)
  · rw [hids, List.map_append, List.map_singleton, hs.made]
  · subst ht
    intro m hm
    rcases List.mem_append.mp hm with hm | hm
    · exact hs.layout m hm
    · obtain rfl := List.mem_singleton.mp hm
      exact hlayout
  · intro m hm
    rcases List.mem_append.mp hm with hold | hold
    · subst ht
      exact hs.state m hold
    · obtain rfl := List.mem_singleton.mp hold
      exact .inl hnone
  · intro j hj
    subst ht
    refine ⟨rfl, ?_, fun _ _ _ => rfl⟩
    rw [List.filter_append]
    simp [Ne.symm hj]

/-- The insert of the copied seats of a schedule without seats stores them all. -/
theorem insertSeats_copies {m : Made} (hthere : m.scheduleId ∈ s.schedules.map Schedule.id)
    (hnone : s.seatsOf m.scheduleId = []) (hcopied : Copied m.body (s.layoutOf m.body.layoutId))
    (ht : s.insertSeats
      (copies m.body m.scheduleId (sortedSeats (s.layoutOf m.body.layoutId)) 0) = (t, reply)) :
    reply = some () ∧ m.Complete t := by
  have hperm : (sortedSeats (s.layoutOf m.body.layoutId)).Perm (s.layoutOf m.body.layoutId) :=
    List.perm_insertionSort _ _
  generalize hvalues : copies m.body m.scheduleId (sortedSeats (s.layoutOf m.body.layoutId)) 0 =
    values at ht
  have hprice : ∀ v ∈ values, numeric v.price = some v.price := by
    intro v hv
    obtain ⟨-, -, -, seat, hseat, hprice⟩ := mem_copies (hvalues ▸ hv)
    rw [hprice]
    exact hcopied.2 seat (hperm.mem_iff.mp hseat)
  have hschedule : ∀ v ∈ values, v.scheduleId = m.scheduleId ∧ v.source = .base := by
    intro v hv
    obtain ⟨hid, hbase, -⟩ := mem_copies (hvalues ▸ hv)
    exact ⟨hid, hbase⟩
  have hrow : (s.scheduleRow m.scheduleId).isSome = true := by
    cases hfind : s.scheduleRow m.scheduleId with
    | none => exact absurd hthere (Table.rowAt_eq_none.mp hfind)
    | some r => rfl
  have haccepted : (values.all fun seat =>
      (numeric seat.price).isSome && (s.scheduleRow seat.scheduleId).isSome) = true := by
    rw [List.all_eq_true]
    intro v hv
    rw [hprice v hv, (hschedule v hv).1, hrow]
    rfl
  have hfree : ∀ v ∈ values, ¬Taken s.seats v := by
    rintro v hv ⟨r, hr, hid, -⟩
    have hmem : r ∈ s.seatsOf m.scheduleId :=
      List.mem_filter.mpr ⟨hr, decide_eq_true (hid.trans (hschedule v hv).1)⟩
    rw [hnone] at hmem
    exact absurd hmem List.not_mem_nil
  have hindices : (values.map NewScheduleSeat.seatIndex).Nodup := hvalues ▸ copies_indices _ 0
  have hkeys : (values.map NewScheduleSeat.key).Nodup := by
    rw [← hvalues, copies_key]
    exact (hperm.map _).nodup_iff.mpr hcopied.1
  obtain ⟨rows, hrows, hmap⟩ := foldl_insertSeat_all values s hfree hindices hkeys
  have hstored : rows.map ScheduleSeat.toNewScheduleSeat = values := by
    rw [hmap]
    refine (List.map_congr_left ?_).trans (List.map_id values)
    intro v hv
    simp [NewScheduleSeat.stored, hprice v hv]
  unfold World.insertSeats at ht
  rw [if_pos haccepted] at ht
  obtain ⟨rfl, rfl⟩ := Prod.mk.inj ht
  refine ⟨rfl, ?_⟩
  have hbase : (values.foldl World.insertSeat s).baseSeats m.scheduleId = rows := by
    have hold : s.baseSeats m.scheduleId = [] := by
      refine List.filter_eq_nil_iff.mpr ?_
      intro r hr hk
      have hmem : r ∈ s.seatsOf m.scheduleId :=
        List.mem_filter.mpr ⟨hr, decide_eq_true (of_decide_eq_true hk).2⟩
      rw [hnone] at hmem
      exact absurd hmem List.not_mem_nil
    have hnew : rows.filter (fun r => decide (r.source = .base ∧ r.scheduleId = m.scheduleId)) =
        rows := by
      refine List.filter_eq_self.mpr ?_
      intro r hr
      have hv : r.toNewScheduleSeat ∈ values := hstored ▸ List.mem_map_of_mem hr
      exact decide_eq_true ⟨(hschedule _ hv).2, (hschedule _ hv).1⟩
    unfold World.baseSeats at hold ⊢
    rw [hrows, List.filter_append, hold, hnew, List.nil_append]
  have hlayout : (values.foldl World.insertSeat s).layoutOf m.body.layoutId =
      s.layoutOf m.body.layoutId := by
    unfold World.layoutOf
    rw [(foldl_insertSeat_adds values s).1]
  unfold Made.Complete
  rw [hbase, hlayout]
  calc rows.map (fun r => r.toNewScheduleSeat.copied)
      = values.map NewScheduleSeat.copied := by
        rw [← hstored, List.map_map]
        rfl
    _ = (sortedSeats (s.layoutOf m.body.layoutId)).map (LayoutSeat.copy m.body) := by
        rw [← hvalues, copies_copied]
    List.Perm _ ((s.layoutOf m.body.layoutId).map (LayoutSeat.copy m.body)) := hperm.map _

/-- It keeps the invariant, and spares the other schedules. -/
theorem completed_whole {m : Made} (hs : WholeInv (s, log)) (hm : m ∈ log)
    (hcomplete : m.Complete t)
    (hgrows : Grows (fun r => r.scheduleId = m.scheduleId) s t) :
    WholeInv (t, log) ∧ ∀ j, j ≠ m.thread → Spares j (s, log) (t, log) := by
  have hbase : ∀ k, k ≠ m.scheduleId → t.baseSeats k = s.baseSeats k := by
    intro k hk
    apply hgrows.baseSeats
    intro r hr hid
    exact hk (hid.2.symm.trans hr)
  have hids : (log.map Made.scheduleId).Nodup := hs.made ▸ hs.numbered.ids
  have hother : ∀ m' ∈ log, m'.scheduleId = m.scheduleId → m' = m := by
    intro m' hm' hid
    exact List.inj_on_of_nodup_map hids hm' hm hid
  refine ⟨⟨hs.numbered.of_ids hgrows.ids hgrows.nextScheduleId, ?_, ?_,
    hgrows.ids.trans hs.made, ?_, ?_⟩, ?_⟩
  · exact hgrows.layoutSeats ▸ hs.layouts
  · intro r hr
    obtain ⟨rows, hrows, hadded⟩ := hgrows.seats
    rw [hgrows.ids]
    rw [hrows, List.mem_append] at hr
    rcases hr with hr | hr
    · exact hs.refers r hr
    · exact (hadded r hr).2
  · intro m' hm'
    have hlayout := hs.layout m' hm'
    unfold World.layoutOf at hlayout ⊢
    rwa [hgrows.layoutSeats]
  · intro m' hm'
    by_cases hid : m'.scheduleId = m.scheduleId
    · exact .inr (hother m' hm' hid ▸ hcomplete)
    · rcases hs.state m' hm' with hnone | hcomplete'
      · exact .inl ((hbase m'.scheduleId hid).trans hnone)
      · exact .inr ((complete_congr hgrows.layoutSeats (hbase m'.scheduleId hid)).mpr hcomplete')
  · intro j hj
    refine ⟨hgrows.layoutSeats, rfl, ?_⟩
    intro m' hm' hthread
    apply hbase
    intro hid
    rw [hother m' hm' hid] at hthread
    exact hj hthread.symm

end Steps

/-! ## Handlers -/

/-- The thread has inserted no schedule. -/
def Idle (i : ℕ) (s : World × List Made) : Prop :=
  ∀ m ∈ s.2, m.thread ≠ i

/-- The schedules of the thread are complete, and its answer counts the base seats of one. -/
def Whole (n : Request) (i : ℕ) (b : Except Payments.AppError Response) (s : World × List Made) :
    Prop :=
  (∀ m ∈ s.2, m.thread = i → m.Complete s.1) ∧
    ∀ body id start state copied, n = .create body → b = .ok (.created id start state copied) →
      ∃ m ∈ s.2, m.thread = i ∧ m.scheduleId = id ∧ copied = (s.1.baseSeats id).length

section Handlers

variable {n : Request} {i : ℕ} {s t : World × List Made}

theorem Spares.idle (h : Spares i s t) : Idle i s → Idle i t := by
  intro hs m hm hi
  have hmine : m ∈ t.2.filter fun m => decide (m.thread = i) :=
    List.mem_filter.mpr ⟨hm, decide_eq_true hi⟩
  exact hs m (List.mem_of_mem_filter (h.mine ▸ hmine)) hi

theorem Spares.mem {m : Made} (h : Spares i s t) (hi : m.thread = i) : m ∈ s.2 → m ∈ t.2 := by
  intro hm
  have hmine : m ∈ s.2.filter fun m => decide (m.thread = i) :=
    List.mem_filter.mpr ⟨hm, decide_eq_true hi⟩
  exact List.mem_of_mem_filter (h.mine ▸ hmine)

theorem Idle.whole {e : Payments.AppError} : Idle i s → Whole n i (.error e) s := by
  intro h
  refine ⟨fun m hm hi => absurd hi (h m hm), ?_⟩
  intro body id start state copied _ hb
  cases hb

theorem logMade_quiet {l : Link} {c : Cmd} {w : World} {log : List Made} (hc : Quiet c) :
    logMade n i l c w log = log := by
  unfold logMade
  split
  · exact hc.elim
  · rfl

/-- A command that inserts neither a schedule nor copied seats. -/
theorem honours_quiet {l : Link} {c : Cmd} {r : Rep c} (hc : Quiet c) (hs : WholeInv s) :
    madeMachine.exec n i l c s = some (t, r) →
      exec l c s.1 = (t.1, r) ∧ whole.Honours n i s t ∧ Spares i s t := by
  intro h
  obtain ⟨hex, hlog⟩ := Machine.logged_exec.mp h
  have hex : exec l c s.1 = (t.1, r) := Option.some.inj hex
  rw [logMade_quiet hc] at hlog
  have hs : WholeInv (s.1, s.2) := hs
  obtain ⟨hinv, hspares⟩ := (grows_of_exec hc hex).whole hs
  have ht : t = (t.1, s.2) := Prod.ext rfl hlog
  rw [ht]
  exact ⟨hex, ⟨hinv, trivial, fun j _ => hspares j⟩, hspares i⟩

theorem ensures_quiet {c : Cmd} {k : Rep c → Handler}
    {Q : Except Payments.AppError Response → World × List Made → Prop} (hc : Quiet c) :
    (∀ t u l r, Spares i s t → Spares i t u → WholeInv u → exec l c t.1 = (u.1, r) →
      whole.Ensures (madeMachine.exec n) n i Q (k r) u) →
    whole.Ensures (madeMachine.exec n) n i Q (.call c k) s := by
  intro h
  apply Contract.Ensures.call
  intro t hst ht l _ u r hex
  obtain ⟨hrun, hhonours, hspares⟩ := honours_quiet hc ht hex
  exact ⟨hhonours, h t u l r hst hspares hhonours.inv hrun⟩

/-- A handler that inserts neither has inserted no schedule in the end. -/
theorem ensures_idle {q : Handler} :
    q.Issues Quiet → Idle i s →
      whole.Ensures (madeMachine.exec n) n i (fun _ t => Idle i t) q s := by
  intro hq hs
  induction q generalizing s with
  | ret b => exact .ret fun t hst _ => hst.idle hs
  | call c k ih =>
      apply ensures_quiet hq.1
      intro t u l r hst htu _ _
      exact ih r (hq.2 r) (htu.idle (hst.idle hs))

theorem ensures_error {e : Payments.AppError} :
    Idle i s → whole.Ensures (madeMachine.exec n) n i (Whole n i) (.ret (.error e)) s := by
  intro hs
  exact .ret fun t hst _ => (hst.idle hs).whole

/-- The thread has inserted one schedule. -/
def Sole (i : ℕ) (m : Made) (s : World × List Made) : Prop :=
  (s.2.filter fun m => decide (m.thread = i)) = [m]

theorem Sole.mem {m : Made} (h : Sole i m s) : m ∈ s.2 ∧ m.thread = i := by
  have hm : m ∈ s.2.filter fun m => decide (m.thread = i) := h ▸ List.mem_singleton_self m
  exact ⟨List.mem_of_mem_filter hm, of_decide_eq_true (List.mem_filter.mp hm).2⟩

theorem Sole.eq {m m' : Made} (h : Sole i m s) : m' ∈ s.2 → m'.thread = i → m' = m := by
  intro hm' hi
  have hmine : m' ∈ s.2.filter fun m => decide (m.thread = i) :=
    List.mem_filter.mpr ⟨hm', decide_eq_true hi⟩
  exact List.mem_singleton.mp (h ▸ hmine)

theorem Spares.complete {m : Made} (h : Spares i s t) (hm : m ∈ s.2) (hi : m.thread = i) :
    m.Complete t.1 ↔ m.Complete s.1 :=
  complete_congr h.layoutSeats (h.baseSeats m hm hi)

/-- The answer of a thread whose one schedule is complete. -/
theorem Sole.ensures_ret {m : Made} {b : Except Payments.AppError Response} (h : Sole i m s)
    (hcomplete : m.Complete s.1)
    (hb : ∀ id start state copied, b = .ok (.created id start state copied) →
      id = m.scheduleId ∧ copied = (s.1.layoutOf m.body.layoutId).length) :
    whole.Ensures (madeMachine.exec n) n i (Whole n i) (.ret b) s := by
  apply Contract.Ensures.ret
  intro t hst _
  have hsole : Sole i m t := hst.mine.trans h
  have ht : m.Complete t.1 := (hst.complete h.mem.1 h.mem.2).mpr hcomplete
  refine ⟨?_, ?_⟩
  · intro m' hm' hi
    exact hsole.eq hm' hi ▸ ht
  · intro body id start state copied _ hret
    obtain ⟨rfl, rfl⟩ := hb id start state copied hret
    refine ⟨m, hsole.mem.1, hsole.mem.2, rfl, ?_⟩
    have hlength := hcomplete.length_eq
    rw [List.length_map, List.length_map] at hlength
    rw [hst.baseSeats m h.mem.1 h.mem.2, hlength]

/-- The second insert, and the answer. -/
theorem ensures_insertSeats {m : Made} {start : ℤ} {state : Schedules.LifecycleState}
    {values : List NewScheduleSeat} (h : Sole i m s)
    (hcopied : Copied m.body (s.1.layoutOf m.body.layoutId))
    (hvalues : copies m.body m.scheduleId (sortedSeats (s.1.layoutOf m.body.layoutId)) 0 = values) :
    whole.Ensures (madeMachine.exec n) n i (Whole n i)
      (.call (.insertSeats values) fun r =>
        match r with
        | none => .ret (.error (.internal "database error"))
        | some () => .ret (.ok (.created m.scheduleId start state values.length))) s := by
  apply Contract.Ensures.call
  intro t hst ht l hallowed u r hex
  obtain ⟨hl, hfree⟩ := hallowed
  obtain ⟨hrun, hlog⟩ := Machine.logged_exec.mp hex
  have hrun : attempt l (World.insertSeats values) t.1 = (u.1, r) := Option.some.inj hrun
  have hlog : u.2 = t.2 := by
    cases n with
    | create body => exact hlog
    | update scheduleId body => exact hlog
    | addExtraSeats scheduleId seats => exact hlog
  have hsole : Sole i m t := hst.mine.trans h
  obtain ⟨hm, hi⟩ := hsole.mem
  have hof : s.1.layoutOf m.body.layoutId = t.1.layoutOf m.body.layoutId := by
    unfold World.layoutOf
    rw [hst.layoutSeats]
  rw [hof] at hcopied hvalues
  -- there is a seat to insert, which the condition is about
  have hnone : t.1.seatsOf m.scheduleId = [] := by
    obtain ⟨v, hv⟩ : ∃ v, v ∈ copies m.body m.scheduleId
        (sortedSeats (t.1.layoutOf m.body.layoutId)) 0 := exists_mem_copies (ht.layout m hm)
    have hk : v.scheduleId = m.scheduleId := (mem_copies hv).1
    exact hk ▸ hfree v (hvalues ▸ hv)
  have hthere : m.scheduleId ∈ t.1.schedules.map Schedule.id :=
    ht.made ▸ List.mem_map_of_mem hm
  obtain ⟨hreply, hcomplete⟩ : (t.1.insertSeats values).2 = some () ∧
      m.Complete (t.1.insertSeats values).1 := by
    apply insertSeats_copies hthere hnone hcopied
    rw [hvalues]
  have hgrows : Grows (fun r => r.scheduleId = m.scheduleId) t.1 (t.1.insertSeats values).1 := by
    refine (grows_insertSeats values t.1).mono ?_
    rintro r ⟨v, hv, heq⟩
    have hid : r.scheduleId = v.stored.scheduleId := congrArg NewScheduleSeat.scheduleId heq
    have hk : v.scheduleId = m.scheduleId := (mem_copies (hvalues ▸ hv)).1
    exact hid.trans hk
  rcases attempt_cases hrun with ⟨rfl, -⟩ | ⟨-, hu, hr⟩
  · exact absurd rfl hl
  have ht : WholeInv (t.1, t.2) := ht
  obtain ⟨hinv, hspares⟩ := completed_whole ht hm hcomplete hgrows
  have hut : u = ((t.1.insertSeats values).1, t.2) := Prod.ext hu hlog
  subst hut
  refine ⟨⟨hinv, trivial, fun j hj => hspares j (hi ▸ hj)⟩, ?_⟩
  have hsole' : Sole i m ((t.1.insertSeats values).1, t.2) := hsole
  rcases hr with rfl | ⟨-, rfl⟩
  · exact hsole'.ensures_ret hcomplete fun _ _ _ _ hb => by cases hb
  · rw [hreply]
    apply hsole'.ensures_ret hcomplete
    intro id start' state' copied hb
    injection hb with hb
    injection hb with hid _ _ hcount
    refine ⟨hid.symm, ?_⟩
    have hlayout : (t.1.insertSeats values).1.layoutOf m.body.layoutId =
        t.1.layoutOf m.body.layoutId := by
      unfold World.layoutOf
      rw [hgrows.layoutSeats]
    rw [← hcount, hlayout, ← hvalues, length_copies, length_sortedSeats]

/-- The two inserts, for the layout as it is. -/
theorem ensures_insertWithSeats {body : CreateScheduleRequest} {layout : List LayoutSeat}
    {values : NewSchedule} (hs : Idle i s) (hlayout : s.1.layoutOf body.layoutId = layout)
    (hne : layout ≠ []) :
    whole.Ensures (madeMachine.exec (.create body)) (.create body) i (Whole (.create body) i)
      (insertWithSeats body layout values) s := by
  simp only [insertWithSeats, Prog.perform_bind, Prog.pure_eq]
  apply Contract.Ensures.call
  intro t hst ht l hallowed u r hex
  obtain ⟨hrun, hlog⟩ := Machine.logged_exec.mp hex
  have hrun : attempt l (World.insertSchedule values) t.1 = (u.1, r) := Option.some.inj hrun
  have hidle : Idle i t := hst.idle hs
  have hof : t.1.layoutOf body.layoutId = layout := by
    rw [← hlayout]
    unfold World.layoutOf
    rw [hst.layoutSeats]
  by_cases hl : l = .lost
  · -- nothing has happened
    rcases attempt_cases hrun with ⟨-, hu, rfl⟩ | ⟨hne, -⟩
    · have hut : u = t := Prod.ext hu (hlog.trans (if_pos (.inl hl)))
      subst hut
      exact ⟨⟨ht, trivial, fun j _ => Spares.refl j u⟩, ensures_error hidle⟩
    · exact absurd hl hne
  by_cases hblocked : t.1.Blocked (values.row t.1.nextScheduleId t.1.now)
  · -- the serial column has moved on, and nothing else
    have hskip : t.1.insertSchedule values =
        ({ t.1 with nextScheduleId := t.1.nextScheduleId + 1 }, none) := if_pos hblocked
    have hlog : u.2 = t.2 := hlog.trans (if_pos (.inr hblocked))
    rcases attempt_cases hrun with ⟨hlost, -⟩ | ⟨-, hu, hr⟩
    · exact absurd hlost hl
    have hnone : r = none := by
      rcases hr with hr | ⟨-, hr⟩
      · exact hr
      · rw [hr, hskip]
    have hgrows : Grows Extra t.1 u.1 := by
      rw [hu, hskip]
      exact ⟨rfl, rfl, (lt_add_one t.1.nextScheduleId).le, [], (List.append_nil _).symm,
        fun _ hr => absurd hr List.not_mem_nil⟩
    have ht : WholeInv (t.1, t.2) := ht
    obtain ⟨hinv, hspares⟩ := hgrows.whole ht
    have hut : u = (u.1, t.2) := Prod.ext rfl hlog
    rw [hut, hnone]
    exact ⟨⟨hinv, trivial, fun j _ => hspares j⟩, ensures_error ((hspares i).idle hidle)⟩
  · obtain ⟨rfl, hcopied⟩ := hallowed hl hblocked
    have hcopied : Copied body (t.1.layoutOf body.layoutId) := hcopied
    have hadd : t.1.insertSchedule values =
        ({ t.1 with
            schedules := t.1.schedules ++ [values.row t.1.nextScheduleId t.1.now]
            nextScheduleId := t.1.nextScheduleId + 1 },
          some (values.row t.1.nextScheduleId t.1.now)) := if_neg hblocked
    have hrun : t.1.insertSchedule values = (u.1, r) := hrun
    obtain ⟨hu, hr⟩ := Prod.mk.inj (hadd.symm.trans hrun)
    have hlog : u.2 = t.2 ++ [⟨i, body, t.1.nextScheduleId⟩] :=
      hlog.trans (if_neg (not_or.mpr ⟨hl, hblocked⟩))
    obtain ⟨hinv, hnone, hspares⟩ := inserted_whole (i := i) (show WholeInv (t.1, t.2) from ht)
      (hof.symm ▸ hne : t.1.layoutOf body.layoutId ≠ []) rfl hu.symm
    have hut : u = (u.1, t.2 ++ [⟨i, body, t.1.nextScheduleId⟩]) := Prod.ext rfl hlog
    rw [← hr, hut]
    refine ⟨⟨hinv, trivial, hspares⟩, ?_⟩
    have hsole : Sole i ⟨i, body, t.1.nextScheduleId⟩
        (u.1, t.2 ++ [⟨i, body, t.1.nextScheduleId⟩]) := by
      have hnil : (t.2.filter fun m => decide (m.thread = i)) = [] := by
        rw [List.filter_eq_nil_iff]
        intro m hm
        simpa using hidle m hm
      unfold Sole
      rw [List.filter_append, hnil]
      simp
    have hlayout' : u.1.layoutOf body.layoutId = layout := by
      rw [← hof, ← hu]
      rfl
    have hperm : (sortedSeats layout).Perm layout := List.perm_insertionSort _ _
    have hcopy : copySeats body (values.row t.1.nextScheduleId t.1.now).id (sortedSeats layout) [] 0 =
        .ok (copies body t.1.nextScheduleId (sortedSeats layout) 0) := by
      apply copySeats_eq
      · exact (hperm.map _).nodup_iff.mpr (hof ▸ hcopied.1)
      · exact fun _ _ => List.not_mem_nil
      · rw [length_sortedSeats, Nat.zero_add, ← hof]
        exact length_layout ht.layouts body.layoutId
    simp only [hcopy]
    apply ensures_insertSeats hsole
    · rw [hlayout', ← hof]
      exact hcopied
    · rw [hlayout']

theorem ensures_insertWithLayout {body : CreateScheduleRequest} {values : NewSchedule} :
    Idle i s →
      whole.Ensures (madeMachine.exec (.create body)) (.create body) i (Whole (.create body) i)
        (insertWithLayout body values) s := by
  intro hs
  simp only [insertWithLayout, Prog.perform_bind, Prog.pure_eq]
  apply ensures_quiet (c := .loadLayout body.layoutId) trivial
  intro t u l r hst htu _ hex
  have hu : Idle i u := htu.idle (hst.idle hs)
  cases r with
  | none => exact ensures_error hu
  | some baseSeats =>
      have hbase : u.1.layoutOf body.layoutId = baseSeats := by
        have hread : l.deliver (fun s => (s, s.layoutOf body.layoutId)) t.1 =
          (u.1, some baseSeats) := hex
        rcases Link.deliver_cases hread with ⟨-, hnone⟩ | ⟨hsame, hnone | hsome⟩
        · cases hnone
        · cases hnone
        · rw [hsame]
          exact (Option.some.inj hsome).symm
      by_cases hne : baseSeats = []
      · simp only [hne, if_pos]
        exact ensures_error hu
      · simp only [hne, if_false]
        exact ensures_insertWithSeats hu hbase hne

theorem ensures_createSchedule {body : CreateScheduleRequest} :
    Idle i s →
      whole.Ensures (madeMachine.exec (.create body)) (.create body) i (Whole (.create body) i)
        (createSchedule body) s := by
  intro hs
  unfold createSchedule
  simp only [Prog.perform_bind, Prog.pure_eq]
  split
  · exact ensures_error hs
  split
  · exact ensures_error hs
  next showOid _ =>
  apply ensures_quiet (c := .findShow showOid) trivial
  intro t u l r hst htu _ _
  have hu : Idle i u := htu.idle (hst.idle hs)
  rcases r with - | - | mongoShow
  · exact ensures_error hu
  · exact ensures_error hu
  · dsimp only
    split
    · exact ensures_error hu
    split
    · exact ensures_error hu
    apply ensures_quiet (c := .connect) trivial
    intro t' u' l' r' hut htu' _ _
    have hu' : Idle i u' := htu'.idle (hut.idle hu)
    cases r' with
    | none => exact ensures_error hu'
    | some _ => exact ensures_insertWithLayout hu'

theorem quiet_updateSchedule {scheduleId : ℤ} {body : UpdateScheduleRequest} :
    (updateSchedule scheduleId body).Issues Quiet := by
  unfold updateSchedule
  simp only [Prog.perform_bind, Prog.pure_eq]
  split
  · trivial
  refine ⟨trivial, fun r => ?_⟩
  match r with
  | none => trivial
  | some () =>
      refine ⟨trivial, fun r => ?_⟩
      match r with
      | none => trivial
      | some none => trivial
      | some (some existing) =>
          dsimp only
          split
          · trivial
          split
          · trivial
          refine ⟨trivial, fun r => ?_⟩
          match r with
          | none => trivial
          | some () =>
              refine ⟨trivial, fun r => ?_⟩
              match r with
              | none => trivial
              | some none => trivial
              | some (some updated) => trivial

theorem quiet_addExtraSeats {scheduleId : ℤ} {seats : List ExtraSeatInput} :
    (addExtraSeats scheduleId seats).Issues Quiet := by
  unfold addExtraSeats
  simp only [Prog.perform_bind, Prog.pure_eq]
  split
  · trivial
  refine ⟨trivial, fun r => ?_⟩
  match r with
  | none => trivial
  | some () =>
      refine ⟨trivial, fun r => ?_⟩
      match r with
      | none => trivial
      | some (.error e) => trivial
      | some (.ok inserted) => trivial

theorem ensures_handle (n : Request) :
    Idle i s → whole.Ensures (madeMachine.exec n) n i (Whole n i) (handle n) s := by
  cases n with
  | create body => exact ensures_createSchedule
  | update scheduleId body =>
      intro hs
      refine (ensures_idle quiet_updateSchedule hs).weaken ?_
      intro b t ht
      refine ⟨fun m hm hi => absurd hi (ht m hm), ?_⟩
      intro body id start state copied hn
      cases hn
  | addExtraSeats scheduleId seats =>
      intro hs
      refine (ensures_idle quiet_addExtraSeats hs).weaken ?_
      intro b t ht
      refine ⟨fun m hm hi => absurd hi (ht m hm), ?_⟩
      intro body id start state copied hn
      cases hn

end Handlers

/-! ## Runs -/

/-- What a run reaches: threads within their contract, logged under their own requests, and complete
where they have been lost. -/
structure WholePool (p : MadePool) : Prop where
  fulfils : madeMachine.Fulfils whole Whole p
  owned : ∀ m ∈ p.store.2, ∃ q, p.threads[m.thread]? = some ⟨.create m.body, q⟩
  lost : ∀ m ∈ p.store.2, ∀ n, p.threads[m.thread]? = some ⟨n, none⟩ → m.Complete p.store.1

section Runs

variable {p q : MadePool}

theorem WholeRun.guarded {a : Act Link Environ} :
    WholeRun p a → Machine.Guarded whole.allowed (fun _ _ => True) p a := by
  intro h
  cases a with
  | environ x => trivial
  | run i l => exact h
  | crash i => trivial

theorem idle_of_unstarted {i : ℕ} {s : World × List Made} :
    madeMachine.Unstarted whole i s → Idle i s := by
  rintro ⟨s₀, ⟨-, hlog⟩, hspares⟩
  refine hspares.idle ?_
  intro m hm
  rw [hlog] at hm
  exact absurd hm List.not_mem_nil

theorem environ_whole {x : Environ} {s t : World × List Made} {new : List (Request × Handler)}
    (hs : WholeInv s) :
    madeMachine.environ x s = some (t, new) →
      WholeInv t ∧ (∀ i, Spares i s t) ∧ t.2 = s.2 ∧ ∀ n q, (n, q) ∈ new → q = handle n := by
  intro h
  obtain ⟨henviron, hlog⟩ := Machine.logged_environ.mp h
  have henviron : environ x s.1 = (t.1, new) := Option.some.inj henviron
  have hs : WholeInv (s.1, s.2) := hs
  obtain ⟨hinv, hspares⟩ := (environ_aside henviron).grows.whole hs
  have ht : t = (t.1, s.2) := Prod.ext rfl hlog
  rw [ht]
  exact ⟨hinv, hspares, rfl, environ_new henviron⟩

theorem environMeets_whole : madeMachine.EnvironMeets whole Whole (fun _ _ => True) := by
  intro x s t new hs _ hx
  obtain ⟨ht, hspares, -, hnew⟩ := environ_whole hs hx
  refine ⟨ht, hspares, ?_⟩
  intro i n q hq hunstarted
  rw [hnew n q hq]
  exact ensures_handle n (idle_of_unstarted hunstarted)

/-- What a thread logs is of its own request. -/
theorem mem_logMade {n : Request} {i : ℕ} {l : Link} {c : Cmd} {s : World} {log : List Made}
    {m : Made} :
    m ∈ logMade n i l c s log → m ∈ log ∨ (m.thread = i ∧ n = .create m.body) := by
  intro hm
  unfold logMade at hm
  split at hm
  · split_ifs at hm
    · exact .inl hm
    · rcases List.mem_append.mp hm with hm | hm
      · exact .inl hm
      · rw [List.mem_singleton.mp hm]
        exact .inr ⟨rfl, rfl⟩
  · exact .inl hm

theorem wholePool_environ {x : Environ} (hp : WholePool p) :
    madeMachine.step p (.environ x) = some q → WholePool q := by
  intro hst
  have hfulfils := Machine.fulfils_step environMeets_whole
    (fun i s hs => ⟨hs, fun j _ => Spares.refl j s⟩) hp.fulfils (a := .environ x) trivial hst
  obtain ⟨s, new, hs, rfl⟩ := Machine.step_environ hst
  obtain ⟨-, hspares, hlog, -⟩ := environ_whole hp.fulfils.inv hs
  have hlookup : ∀ m ∈ s.2, (p.threads ++ Machine.start new)[m.thread]? = p.threads[m.thread]? := by
    intro m hm
    obtain ⟨r, hr⟩ := hp.owned m (hlog ▸ hm)
    exact List.getElem?_append_left (List.getElem?_eq_some_iff.mp hr).1
  refine ⟨hfulfils, ?_, ?_⟩
  · intro m hm
    obtain ⟨r, hr⟩ := hp.owned m (hlog ▸ hm)
    exact ⟨r, (hlookup m hm).trans hr⟩
  · intro m hm n hn
    have hm' : m ∈ p.store.2 := hlog ▸ hm
    exact ((hspares m.thread).complete hm' rfl).mpr (hp.lost m hm' n ((hlookup m hm).symm.trans hn))

theorem wholePool_run {i : ℕ} {l : Link} (hp : WholePool p) (hG : WholeRun p (.run i l)) :
    madeMachine.step p (.run i l) = some q → WholePool q := by
  intro hst
  have hG := hG.guarded
  have hfulfils := Machine.fulfils_step environMeets_whole
    (fun i s hs => ⟨hs, fun j _ => Spares.refl j s⟩) hp.fulfils hG hst
  obtain ⟨n, c, k, s, r, ht, hs, rfl⟩ := Machine.step_run hst
  have hi : i < p.threads.length := (List.getElem?_eq_some_iff.mp ht).1
  have hallowed : whole.allowed n i l c p.store := by
    simpa only [Machine.Guarded, ht, Machine.Permits] using hG
  have hhonours := ((hp.fulfils.threads i n _ ht).exec_step hp.fulfils.inv hallowed hs).1
  have hlog : s.2 = logMade n i l c p.store.1 p.store.2 := (Machine.logged_exec.mp hs).2
  refine ⟨hfulfils, ?_, ?_⟩
  · intro m hm
    by_cases hthread : m.thread = i
    · -- the request of a thread does not change
      rw [hthread, List.getElem?_set_self hi]
      rcases mem_logMade (hlog ▸ hm) with hold | ⟨-, rfl⟩
      · obtain ⟨r', hr'⟩ := hp.owned m hold
        rw [hthread, ht] at hr'
        obtain ⟨rfl, -⟩ := Thread.mk.inj (Option.some.inj hr')
        exact ⟨_, rfl⟩
      · exact ⟨_, rfl⟩
    · rw [List.getElem?_set_ne (Ne.symm hthread)]
      rcases mem_logMade (hlog ▸ hm) with hold | ⟨hmine, -⟩
      · exact hp.owned m hold
      · exact absurd hmine hthread
  · intro m hm n' hn'
    by_cases hthread : m.thread = i
    · rw [hthread, List.getElem?_set_self hi] at hn'
      cases hn'
    · rw [List.getElem?_set_ne (Ne.symm hthread)] at hn'
      rcases mem_logMade (hlog ▸ hm) with hold | ⟨hmine, -⟩
      · exact ((hhonours.rely m.thread hthread).complete hold rfl).mpr (hp.lost m hold n' hn')
      · exact absurd hmine hthread

theorem wholePool_crash {i : ℕ} (hp : WholePool p) (hG : WholeRun p (.crash i)) :
    madeMachine.step p (.crash i) = some q → WholePool q := by
  intro hst
  have hfulfils := Machine.fulfils_step environMeets_whole
    (fun i s hs => ⟨hs, fun j _ => Spares.refl j s⟩) hp.fulfils hG.guarded hst
  obtain ⟨n, c, k, ht, rfl⟩ := Machine.step_crash hst
  have hi : i < p.threads.length := (List.getElem?_eq_some_iff.mp ht).1
  refine ⟨hfulfils, ?_, ?_⟩
  · intro m hm
    obtain ⟨r, hr⟩ := hp.owned m hm
    by_cases hthread : m.thread = i
    · rw [hthread, ht] at hr
      obtain ⟨rfl, -⟩ := Thread.mk.inj (Option.some.inj hr)
      rw [hthread, List.getElem?_set_self hi]
      exact ⟨_, rfl⟩
    · rw [List.getElem?_set_ne (Ne.symm hthread)]
      exact ⟨r, hr⟩
  · intro m hm n' hn'
    by_cases hthread : m.thread = i
    · -- the thread was past its second insert
      rcases hp.fulfils.inv.state m hm with hnone | hcomplete
      · exact absurd hnone (hG m hm hthread)
      · exact hcomplete
    · rw [List.getElem?_set_ne (Ne.symm hthread)] at hn'
      exact hp.lost m hm n' hn'

theorem wholePool_of_run : madeMachine.system.ReachableUnder WholeRun p → WholePool p := by
  intro h
  refine System.invariant ?_ ?_ h
  · rintro p ⟨⟨⟨hschedules, hseats, hlayouts⟩, hlog⟩, hthreads⟩
    have hmem : ∀ m, m ∉ p.store.2 := by
      intro m hm
      rw [hlog] at hm
      exact absurd hm List.not_mem_nil
    refine ⟨⟨⟨⟨?_, ?_⟩, hlayouts, ?_, ?_, ?_, ?_⟩, ?_, ?_⟩, ?_, ?_⟩
    · simp [hschedules]
    · simp [hschedules]
    · simp [hseats]
    · simp [hschedules, hlog]
    · exact fun m hm => absurd hm (hmem m)
    · exact fun m hm => absurd hm (hmem m)
    · exact fun i _ => ⟨p.store, ⟨⟨hschedules, hseats, hlayouts⟩, hlog⟩, Spares.refl i p.store⟩
    · intro i n q hq
      simp [Pool.Runs, hthreads] at hq
    · exact fun m hm => absurd hm (hmem m)
    · exact fun m hm => absurd hm (hmem m)
  · intro p a q hp hG hst
    cases a with
    | environ x => exact wholePool_environ hp hst
    | run i l => exact wholePool_run hp hG hst
    | crash i => exact wholePool_crash hp hG hst

end Runs

/-- Where a schedule is inserted for a layout that can be copied, the insert is answered, its seats are
inserted before any other, and no thread is lost in between: every schedule is one that a request has
asked for, and once that request is over it has every seat of the layout, at the request's price; and the
answer counts its base seats. -/
theorem schedules_are_whole (p : MadePool) :
    madeMachine.system.ReachableUnder WholeRun p →
      (∀ r ∈ p.store.1.schedules, ∃ m ∈ p.store.2, m.scheduleId = r.id) ∧
      (∀ m ∈ p.store.2, p.threads[m.thread]?.map Thread.info = some (.create m.body) ∧
        (Over p m.thread = true → m.Complete p.store.1)) ∧
      ∀ i body id start state copied,
        p.Runs i (.create body) (.ret (.ok (.created id start state copied))) →
          ∃ m ∈ p.store.2, m.thread = i ∧ m.scheduleId = id ∧
            copied = (p.store.1.baseSeats id).length := by
  intro h
  have hp := wholePool_of_run h
  refine ⟨?_, ?_, ?_⟩
  · intro r hr
    have hid : r.id ∈ p.store.2.map Made.scheduleId :=
      hp.fulfils.inv.made ▸ List.mem_map_of_mem hr
    exact List.mem_map.mp hid
  · intro m hm
    obtain ⟨q, hq⟩ := hp.owned m hm
    refine ⟨by rw [hq, Option.map_some], ?_⟩
    intro hover
    rw [Over, hq, Option.any_some] at hover
    match q with
    | none => exact hp.lost m hm _ hq
    | some (.ret b) => exact (hp.fulfils.returned hq).1 m hm rfl
    | some (.call c k) => cases hover
  · intro i body id start state copied hret
    exact (hp.fulfils.returned hret).2 body id start state copied rfl rfl

/-! ### Runs on fixed inputs -/

instance {body : CreateScheduleRequest} {layout : List LayoutSeat} :
    Decidable (Copied body layout) := by
  unfold Copied
  infer_instance

instance {n : Request} {i : ℕ} {l : Link} {c : Cmd} {s : World × List Made} :
    Decidable (WholeWrites n i l c s) :=
  match n, c with
  | .create body, .insertSchedule values =>
      inferInstanceAs (Decidable (l ≠ .lost → ¬s.1.Blocked (values.row s.1.nextScheduleId s.1.now) →
        l = .ok ∧ Copied body (s.1.layoutOf body.layoutId)))
  | .update _ _, .insertSchedule values =>
      inferInstanceAs (Decidable (l ≠ .lost → ¬s.1.Blocked (values.row s.1.nextScheduleId s.1.now) →
        l = .ok ∧ True))
  | .addExtraSeats _ _, .insertSchedule values =>
      inferInstanceAs (Decidable (l ≠ .lost → ¬s.1.Blocked (values.row s.1.nextScheduleId s.1.now) →
        l = .ok ∧ True))
  | _, .insertSeats values =>
      inferInstanceAs (Decidable (l ≠ .lost ∧ ∀ seat ∈ values, s.1.seatsOf seat.scheduleId = []))
  | _, .connect => isTrue trivial
  | _, .findShow _ => isTrue trivial
  | _, .loadLayout _ => isTrue trivial
  | _, .findSchedule _ => isTrue trivial
  | _, .updateSchedule _ _ => isTrue trivial
  | _, .readSchedule _ => isTrue trivial
  | _, .addExtraSeats _ _ => isTrue trivial

instance {p : MadePool} {a : Act Link Environ} : Decidable (WholeRun p a) :=
  match a with
  | .environ _ => isTrue trivial
  | .run i l => inferInstanceAs (Decidable (Machine.Permits WholeWrites i l p.store p.threads[i]?))
  | .crash i => inferInstanceAs (Decidable (∀ m ∈ p.store.2, m.thread = i →
      p.store.1.baseSeats m.scheduleId ≠ []))

instance {s : World} {m : Made} : Decidable (m.Complete s) := by
  unfold Made.Complete
  infer_instance

/-- A layout of two seats, in one row or in two blocks. -/
def twoSeats (second : ℤ) : World :=
  { oneSeat with
    layoutSeats := [⟨⟨1, 1, "A", 1, .standard⟩, some "Left"⟩,
      ⟨⟨2, 1, "A", second, .standard⟩, some "Right"⟩] }

theorem twoSeats_initial (second : ℤ) : Initial (twoSeats second) := by
  refine ⟨rfl, rfl, ?_, ?_, ?_⟩
  · simp [twoSeats]
  · simp [twoSeats]
  · simp [twoSeats]

/-- A schedule is created, and a seat is added to it afterwards. -/
def createdWithExtra : List (Act Link Environ) :=
  [.environ (.request (.create creation)), .run 0 .ok, .run 0 .ok, .run 0 .ok, .run 0 .ok,
    .run 0 .ok,
    .environ (.request (.addExtraSeats 1 [⟨⟨"X", 1, "99", some 99⟩, .standard⟩])), .run 1 .ok,
    .run 1 .ok]

theorem schedules_are_whole_two :
    ∃ p : MadePool, p.store.1.seats.map (·.rowLetter) = ["A", "A", "X"] ∧
      (∀ r ∈ p.store.1.schedules, ∃ m ∈ p.store.2, m.scheduleId = r.id) ∧
      ∀ m ∈ p.store.2, Over p m.thread = true → m.Complete p.store.1 := by
  obtain ⟨p, hp, h⟩ := System.exists_reachable_of_runUnder madeMachine.system WholeRun
    (fun p : MadePool => decide (p.store.1.seats.map (·.rowLetter) = ["A", "A", "X"]))
    (s := ⟨(twoSeats 2, []), []⟩) ⟨⟨twoSeats_initial 2, rfl⟩, rfl⟩ createdWithExtra
    (by decide +kernel)
  have hwhole := schedules_are_whole p hp
  exact ⟨p, of_decide_eq_true h, hwhole.1, fun m hm => (hwhole.2.1 m hm).2⟩

/-- One of the two seats of a layout, which are in different blocks, is not copied. -/
theorem blocks_are_merged :
    ∃ p : MadePool, madeMachine.system.Reachable p ∧
      ∃ m ∈ p.store.2, Over p m.thread = true ∧ ¬m.Complete p.store.1 := by
  obtain ⟨p, hp, h⟩ := System.exists_reachable_of_run madeMachine.system
    (fun p : MadePool =>
      decide (∃ m ∈ p.store.2, Over p m.thread = true ∧ ¬m.Complete p.store.1))
    (s := ⟨(twoSeats 1, []), []⟩) ⟨⟨twoSeats_initial 1, rfl⟩, rfl⟩ createdWithExtra
    (by decide +kernel)
  exact ⟨p, hp, of_decide_eq_true h⟩

end ScheduleHandlers
end Bookit

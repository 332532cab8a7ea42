import Bookit.Web.ScheduleHandlers

/-!
# Web.BookingOpens — bookings open before the show

`create_schedule` refuses a request whose bookings do not open before its start.  `update_schedule`
compares nothing: an update that leaves the order has to give the two times in order, or the one it
gives in order with the other one of the row.  The columns hold microseconds, so that times a few
nanoseconds apart may be stored as one.
-/

namespace Bookit
namespace ScheduleHandlers

open Lib
open ListCaches (TimeSlot)

/-! ## The condition -/

/-- The row keeps its order: the update gives neither time, or those it gives are in order with what
the row keeps. -/
def ScheduleChangeset.InOrder (c : ScheduleChangeset) (old : Schedule) : Prop :=
  match c.bookingOpenAt, c.startTime with
  | none, none => True
  | some b, none => b.micros < old.startTime
  | none, some t => old.bookingOpenAt < t.micros
  | some b, some t => b.micros < t.micros

/-- An update that is written leaves the order of its row; the times of a row that is inserted are in
order as the columns hold them, where they are. -/
def InOrderWrites (_ : Request) (_ : ℕ) (l : Link) : Cmd → World → Prop
  | .insertSchedule values, s =>
      l ≠ .lost → ¬s.Blocked (values.row s.nextScheduleId s.now) →
        values.bookingOpenAt.lt values.startTime →
          values.bookingOpenAt.micros < values.startTime.micros
  | .updateSchedule scheduleId changeset, s =>
      l ≠ .lost → ∀ old ∈ s.scheduleRow scheduleId, ¬s.Blocked (changeset.apply old) →
        changeset.InOrder old
  | _, _ => True

/-! ## Rows -/

/-- Bookings open before the start. -/
def Schedule.Opens (r : Schedule) : Prop :=
  r.bookingOpenAt < r.startTime

/-- A row that opens before its start does so after an update exactly where that leaves the order. -/
theorem opens_apply_iff {c : ScheduleChangeset} {old : Schedule} :
    old.Opens → ((c.apply old).Opens ↔ c.InOrder old) := by
  intro hold
  unfold ScheduleChangeset.InOrder
  unfold Schedule.Opens ScheduleChangeset.apply
  cases hb : c.bookingOpenAt with
  | none =>
      cases ht : c.startTime with
      | none => exact iff_of_true hold trivial
      | some t => exact Iff.rfl
  | some b =>
      cases ht : c.startTime with
      | none => exact Iff.rfl
      | some t => exact Iff.rfl

structure OrderKept (s : World) : Prop extends Numbered s where
  opens : ∀ r ∈ s.schedules, r.Opens

/-- What `create_schedule` checks. -/
def Checked : Cmd → Prop
  | .insertSchedule values => values.bookingOpenAt.lt values.startTime
  | _ => True

theorem Rewrites.opens {n : Request} {i : ℕ} {l : Link} {c : Cmd} {s t : World} (hs : OrderKept s)
    (hguard : InOrderWrites n i l c s) (hchecked : Checked c) :
    Rewrites l s t c → ∀ r ∈ t.schedules, r.Opens := by
  intro h r hr
  cases h with
  | kept hschedules _ => exact hs.opens r (hschedules ▸ hr)
  | inserted hl hblocked hschedules _ =>
      rw [hschedules, List.mem_append] at hr
      rcases hr with hr | hr
      · exact hs.opens r hr
      · rw [List.mem_singleton.mp hr]
        exact hguard hl hblocked hchecked
  | updated hl hrow hblocked hschedules _ =>
      rw [hschedules] at hr
      rcases Table.mem_updateWhere_cases hr with ⟨hr, -⟩ | ⟨r₀, hr₀, hid, rfl⟩
      · exact hs.opens r hr
      · -- the row that the statement finds is the only one of its identifier
        have hfound := Table.rowAt_of_mem hs.ids hr₀
        rw [of_decide_eq_true hid] at hfound
        obtain rfl := Option.some.inj (hrow.symm.trans hfound)
        exact (opens_apply_iff (hs.opens _ hr₀)).mpr (hguard hl _ hrow hblocked)

theorem orderKept_of_exec {n : Request} {i : ℕ} {l : Link} {c : Cmd} {s t : World} {r : Rep c}
    (hs : OrderKept s) (hguard : InOrderWrites n i l c s) (hchecked : Checked c) :
    exec l c s = (t, r) → OrderKept t := by
  intro h
  have hrewrites := rewrites_of_exec h
  exact ⟨hrewrites.numbered hs.toNumbered, hrewrites.opens hs hguard hchecked⟩

theorem Aside.orderKept {s t : World} (hs : OrderKept s) : Aside s t → OrderKept t := by
  intro h
  refine ⟨h.numbered hs.toNumbered, ?_⟩
  intro r hr
  have htimes : r.times ∈ s.schedules.map Schedule.times := h.times ▸ List.mem_map_of_mem hr
  obtain ⟨r', hr', heq⟩ := List.mem_map.mp htimes
  have hopens := hs.opens r' hr'
  have htimes := (Prod.mk.inj heq).2
  unfold Schedule.Opens at hopens ⊢
  rwa [(Prod.mk.inj htimes).1, (Prod.mk.inj htimes).2] at hopens

/-! ## Handlers -/

theorem newSchedule_checked {body : CreateScheduleRequest} {values : NewSchedule} :
    newSchedule body = .ok values → values.bookingOpenAt.lt values.startTime := by
  intro h
  unfold newSchedule at h
  split at h
  · cases h
  split at h
  · cases h
  split at h
  · cases h
  split at h
  · cases h
  · split_ifs at h with hlt
    obtain rfl := Except.ok.inj h
    exact hlt

section Handlers

variable {body : CreateScheduleRequest} {scheduleId : ℤ}

theorem issues_insertWithSeats {layout : List LayoutSeat} {values : NewSchedule} :
    values.bookingOpenAt.lt values.startTime →
      (insertWithSeats body layout values).Issues Checked := by
  intro hlt
  simp only [insertWithSeats, Prog.perform_bind, Prog.pure_eq]
  refine ⟨hlt, fun r => ?_⟩
  match r with
  | none => trivial
  | some schedule =>
      dsimp only
      split
      · trivial
      · refine ⟨trivial, fun r => ?_⟩
        match r with
        | none => trivial
        | some () => trivial

theorem issues_insertWithLayout {values : NewSchedule} :
    values.bookingOpenAt.lt values.startTime → (insertWithLayout body values).Issues Checked := by
  intro hlt
  simp only [insertWithLayout, Prog.perform_bind, Prog.pure_eq]
  refine ⟨trivial, fun r => ?_⟩
  match r with
  | none => trivial
  | some baseSeats =>
      dsimp only
      split
      · trivial
      · exact issues_insertWithSeats hlt

theorem issues_createSchedule : (createSchedule body).Issues Checked := by
  unfold createSchedule
  simp only [Prog.perform_bind, Prog.pure_eq]
  split
  · trivial
  split
  · trivial
  refine ⟨trivial, fun r => ?_⟩
  rcases r with - | - | mongoShow
  · trivial
  · trivial
  · dsimp only
    split
    · trivial
    split
    · trivial
    · next values hvalues =>
      refine ⟨trivial, fun r => ?_⟩
      cases r with
      | none => trivial
      | some _ => exact issues_insertWithLayout (newSchedule_checked hvalues)

theorem issues_updateSchedule {body : UpdateScheduleRequest} :
    (updateSchedule scheduleId body).Issues Checked := by
  unfold updateSchedule
  simp only [Prog.perform_bind, Prog.pure_eq]
  split
  · trivial
  refine ⟨trivial, fun r => ?_⟩
  match r with
  | none => trivial
  | some () =>
      refine ⟨trivial, fun r => ?_⟩
      match r with
      | none => trivial
      | some none => trivial
      | some (some existing) =>
          dsimp only
          split
          · trivial
          split
          · trivial
          refine ⟨trivial, fun r => ?_⟩
          match r with
          | none => trivial
          | some () =>
              refine ⟨trivial, fun r => ?_⟩
              match r with
              | none => trivial
              | some none => trivial
              | some (some updated) => trivial

theorem issues_addExtraSeats {seats : List ExtraSeatInput} :
    (addExtraSeats scheduleId seats).Issues Checked := by
  unfold addExtraSeats
  simp only [Prog.perform_bind, Prog.pure_eq]
  split
  · trivial
  refine ⟨trivial, fun r => ?_⟩
  match r with
  | none => trivial
  | some () =>
      refine ⟨trivial, fun r => ?_⟩
      match r with
      | none => trivial
      | some (.error e) => trivial
      | some (.ok inserted) => trivial

theorem issues_handle (n : Request) : (handle n).Issues Checked := by
  cases n with
  | create body =>
      rw [handle]
      exact issues_createSchedule
  | update scheduleId body =>
      rw [handle]
      exact issues_updateSchedule
  | addExtraSeats scheduleId seats =>
      rw [handle]
      exact issues_addExtraSeats

end Handlers

/-! ## Runs -/

abbrev SchedulePool := Pool World Rep Request (Except Payments.AppError Response)

/-- The handlers write under the condition, and disturb each other as they like. -/
def inOrder : Contract World Rep Request Link where
  inv := OrderKept
  rely _ _ _ := True
  guar _ _ _ := True
  allowed := InOrderWrites
  rely_refl _ _ := trivial
  rely_trans _ _ _ _ _ _ := trivial

/-- Every step of a run meets the condition. -/
def OrderedRun (p : SchedulePool) (a : Act Link Environ) : Prop :=
  Machine.Guarded InOrderWrites (fun _ _ => True) p a

theorem orderKept_of_run {p : SchedulePool} :
    machine.system.ReachableUnder OrderedRun p → OrderKept p.store := by
  intro h
  have h : machine.system.ReachableUnder (Machine.Guarded inOrder.allowed fun _ _ => True) p := h
  have hfulfils : machine.Fulfils inOrder (fun _ _ _ _ => True) p := by
    refine Machine.ensures_of_reachable ?_ ?_ (fun i s hs => ⟨hs, fun _ _ => trivial⟩) h
    · rintro s ⟨hschedules, -⟩
      refine ⟨⟨?_, ?_⟩, ?_⟩
      · simp [hschedules]
      · simp [hschedules]
      · simp [hschedules]
    · intro x s t new hs _ hx
      have hx : environ x s = (t, new) := Option.some.inj hx
      refine ⟨(environ_aside hx).orderKept hs, fun _ => trivial, ?_⟩
      intro i n q hq _
      rw [environ_new hx n q hq]
      refine Contract.Ensures.of_issues ?_ (issues_handle n)
      intro c hc l s t r hs hguard hex
      have hex : exec l c s = (t, r) := Option.some.inj hex
      exact ⟨orderKept_of_exec (n := n) (i := i) hs hguard hc hex, trivial, fun _ _ => trivial⟩
  exact hfulfils.inv

/-- Where every update that is written leaves the order of its row, and no insert loses the order of
its times to the precision of the columns, every schedule opens for booking before it starts. -/
theorem booking_opens_before_start (p : SchedulePool) :
    machine.system.ReachableUnder OrderedRun p →
      ∀ r ∈ p.store.schedules, r.bookingOpenAt < r.startTime := by
  intro h
  exact (orderKept_of_run h).opens

/-! ### Runs on fixed inputs -/

instance {c : ScheduleChangeset} {old : Schedule} : Decidable (c.InOrder old) := by
  unfold ScheduleChangeset.InOrder
  split <;> infer_instance

instance {n : Request} {i : ℕ} {l : Link} {c : Cmd} {s : World} :
    Decidable (InOrderWrites n i l c s) := by
  unfold InOrderWrites
  split <;> infer_instance

instance {p : SchedulePool} {a : Act Link Environ} : Decidable (OrderedRun p a) :=
  inferInstanceAs (Decidable (Machine.Guarded _ _ p a))

def showId : String := "65f000000000000000000001"

/-- One show, and a layout of one seat. -/
def oneSeat : World :=
  { now := 0, shows := [(showId, ⟨.movie, none⟩)]
    layoutSeats := [⟨⟨1, 1, "A", 1, .standard⟩, none⟩], schedules := [], nextScheduleId := 1
    seats := [], nextSeatId := 1 }

theorem oneSeat_initial : Initial oneSeat := by
  refine ⟨rfl, rfl, ?_, ?_, ?_⟩
  · decide
  · decide
  · decide

def atSecond (seconds : ℤ) : Instant := { seconds := seconds, nanos := 0 }

/-- Bookings from the hundredth second, and the show from the two hundredth. -/
def creation : CreateScheduleRequest :=
  { layoutId := 1, prices := [("Standard", some 150)], mongoShowId := showId, showType := .movie
    date := some 0, slot := .evening, startTime := some (some (atSecond 200))
    endTime := some (atSecond 300), bookingOpenAt := some (atSecond 100), venueName := none
    venueAddress := none, venueCity := "Pune", venueState := none }

/-- Bookings from another second, and nothing else. -/
def opensAt (seconds : ℤ) : UpdateScheduleRequest :=
  { date := none, slot := none, startTime := none, endTime := none
    bookingOpenAt := some (some (atSecond seconds)), venueName := none, venueAddress := none
    venueCity := none, venueState := none }

/-- A schedule is created, and its bookings are moved. -/
def moved (seconds : ℤ) : List (Act Link Environ) :=
  [.environ (.request (.create creation)), .run 0 .ok, .run 0 .ok, .run 0 .ok, .run 0 .ok,
    .run 0 .ok, .environ (.request (.update 1 (opensAt seconds))), .run 1 .ok, .run 1 .ok,
    .run 1 .ok, .run 1 .ok]

theorem booking_opens_before_start_moved :
    ∃ p : SchedulePool, p.store.schedules.map (·.bookingOpenAt) = [150000000] ∧
      ∀ r ∈ p.store.schedules, r.bookingOpenAt < r.startTime := by
  obtain ⟨p, hp, h⟩ := System.exists_reachable_of_runUnder machine.system OrderedRun
    (fun p : SchedulePool => decide (p.store.schedules.map (·.bookingOpenAt) = [150000000]))
    (s := ⟨oneSeat, []⟩) ⟨oneSeat_initial, rfl⟩ (moved 150) (by decide +kernel)
  exact ⟨p, of_decide_eq_true h, booking_opens_before_start p hp⟩

/-- An update of the one time behind the other. -/
theorem opens_after_start :
    ∃ p : SchedulePool, machine.system.Reachable p ∧
      ¬∀ r ∈ p.store.schedules, r.bookingOpenAt < r.startTime := by
  obtain ⟨p, hp, h⟩ := System.exists_reachable_of_run machine.system
    (fun p : SchedulePool => decide (¬∀ r ∈ p.store.schedules, r.bookingOpenAt < r.startTime))
    (s := ⟨oneSeat, []⟩) ⟨oneSeat_initial, rfl⟩ (moved 300) (by decide +kernel)
  exact ⟨p, hp, of_decide_eq_true h⟩

end ScheduleHandlers
end Bookit

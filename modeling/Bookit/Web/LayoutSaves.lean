import Bookit.Web.BaseSeats
import Bookit.Web.LayoutEdits

/-!
# Web.LayoutSaves — the last save of a layout, and the schedules that copy it

A transaction deletes the rows that it has seen when it starts.  Where no other save of the layout comes
in between, and seats are added only to a layout that has none, a layout holds the seats of its last
save.  Their numbers are their own, so that a schedule copies every one of them: from the designer's
blocks to the seats that are sold, each place is there once.
-/

namespace Bookit
namespace LayoutStore

open Lib SeatDesigner

/-! ## Saves -/

/-- The seats are numbered from one, and each is in a block. -/
def Designed (seats : List SeatInput) : Prop :=
  seats.map (·.seatNumber) = List.range' 1 seats.length ∧
    ∀ seat ∈ seats, seat.blockName.isSome = true

instance (seats : List SeatInput) : Decidable (Designed seats) := by
  unfold Designed
  infer_instance

/-- The request brings the seats of a designer, if any. -/
def Request.Designed : Request → Prop
  | .addSeats _ seats => LayoutStore.Designed seats
  | .updateLayout _ body => ∀ seats ∈ body.seats, LayoutStore.Designed seats
  | _ => True

instance (r : Request) : Decidable r.Designed :=
  match r with
  | .addSeats _ seats => inferInstanceAs (Decidable (Designed seats))
  | .updateLayout _ body => inferInstanceAs (Decidable (∀ seats ∈ body.seats, Designed seats))
  | .createLayout _ => isTrue trivial
  | .deleteLayout _ => isTrue trivial
  | .edit _ => isTrue trivial

/-- The last save of each layout. -/
abbrev Saves := ℤ → List SeatInput

/-- The seats of a save that takes effect; what is added to seats that are there is no save. -/
def logSave (o : Outcome) (u : Task) (s : World) (log : Saves) : Saves :=
  match u with
  | .insertSeats k seats =>
      if o.link = .lost ∨ k ∉ s.layouts.map SeatLayout.id ∨ s.seatsOf k ≠ [] then log
      else Function.update log k seats
  | .replaceSeats k _ seats =>
      if o.link = .lost ∨ k ∉ s.layouts.map SeatLayout.id then log
      else Function.update log k seats
  | _ => log

/-- The tables before the first request. -/
def noLayouts : World where
  now := 0
  layouts := []
  seats := []
  nextLayoutId := 1
  nextSeatId := 1

/-- The layouts from empty tables, with the last save of each. -/
def saves (c : Collation) : System (Crew World Task × Saves) (CrewAct Outcome ℕ Request) :=
  ((handlers c).system.startingAt ⟨noLayouts, []⟩).withHistory (fun _ => []) fun p a _ log =>
    match a with
    | .run i o =>
        match p.tasks[i]? with
        | some (some u) => logSave o u p.store log
        | _ => log
    | _ => log

/-- A save does not meet another: seats are added to a layout that has none, or once more; and those that
are replaced are all that there are. -/
def Alone (o : Outcome) (s : World) (log : Saves) : Task → Prop
  | .insertSeats k seats => o.link ≠ .lost → s.seatsOf k = [] ∨ seats = log k
  | .replaceSeats k deleted _ => o.link ≠ .lost → ∀ r ∈ s.seatsOf k, r.id ∈ deleted
  | _ => True

/-- Seats come from a designer, and no two saves of a layout meet. -/
def Apart (p : Crew World Task × Saves) : CrewAct Outcome ℕ Request → Prop
  | .start r => r.Designed
  | .run i o => ∀ u ∈ p.1.tasks[i]?.join, Alone o p.1.store p.2 u
  | _ => True

/-! ## What a save leaves -/

/-- What a task brings, and what a transaction has seen. -/
def Brought (s : World) : Task → Prop
  | .verifyLayout _ seats => Designed seats
  | .insertSeats _ seats => Designed seats
  | .setName _ _ body => ∀ seats ∈ body.seats, Designed seats
  | .setDescription _ _ seats => ∀ x ∈ seats, Designed x
  | .deleteSeats _ seats => Designed seats
  | .replaceSeats k deleted seats =>
      Designed seats ∧ (∀ i ∈ deleted, i < s.nextSeatId) ∧
        ∀ r ∈ s.seats, r.layoutId ≠ k → r.id ∉ deleted
  | _ => True

/-- Rows are drawn anew, and no layout is dropped. -/
structure Grows (s t : World) : Prop where
  drawn : s.nextSeatId ≤ t.nextSeatId
  rows : ∀ r ∈ t.seats, r ∈ s.seats ∨ s.nextSeatId ≤ r.id
  layouts : s.layouts.map SeatLayout.id ⊆ t.layouts.map SeatLayout.id

/-- Each layout has the seats of its last save. -/
structure Saved (s : World) (log : Saves) : Prop where
  sound : s.Sound
  there : ∀ r ∈ s.seats, r.layoutId ∈ s.layouts.map SeatLayout.id
  seats : ∀ k, (s.inputsOf k).Perm (log k)
  designed : ∀ k, Designed (log k)

section Saves

variable {c : Collation} {s t : World} {log : Saves} {k : ℤ} {seats values : List SeatInput}
  {deleted : List ℤ}

theorem logSave_lost {o : Outcome} {u : Task} (ho : o.link = .lost) : logSave o u s log = log := by
  cases u with
  | insertSeats k seats => exact if_pos (.inl ho)
  | replaceSeats k deleted seats => exact if_pos (.inl ho)
  | _ => rfl

/-- Seats that are added are the save of a layout that has none. -/
theorem logSave_insertSeats {o : Outcome} (ho : o.link ≠ .lost)
    (hk : k ∈ s.layouts.map SeatLayout.id) :
    logSave o (.insertSeats k seats) s log =
      if s.seatsOf k = [] then Function.update log k seats else log := by
  by_cases hnone : s.seatsOf k = []
  · rw [if_pos hnone]
    exact if_neg (by simp [ho, hk, hnone])
  · rw [if_neg hnone]
    exact if_pos (.inr (.inr hnone))

theorem Grows.refl (s : World) : Grows s s :=
  ⟨Int.le_refl _, fun _ hr => .inl hr, fun _ h => h⟩

theorem Grows.brought {u : Task} (h : Grows s t) : Brought s u → Brought t u := by
  intro hu
  cases u with
  | replaceSeats k deleted seats =>
      refine ⟨hu.1, fun i hi => (hu.2.1 i hi).trans_le h.drawn, ?_⟩
      intro r hr hother
      cases h.rows r hr with
      | inl hr => exact hu.2.2 r hr hother
      | inr hnew => exact fun hmem => absurd (hu.2.1 r.id hmem) (Int.not_lt.2 hnew)
  | _ => exact hu

theorem Designed.numbers (h : Designed seats) : (seats.map (·.seatNumber)).Nodup := by
  rw [h.1]
  exact List.nodup_range'

theorem Designed.keys (h : Designed seats) : (seats.map seatKey).Nodup :=
  nodup_seatKey h.numbers

theorem designed_handleSave (shape : LayoutShape) (blocks : List LayoutBlock) :
    Designed (handleSave shape blocks) := by
  constructor
  · apply List.ext_getElem
    · simp
    · intro i hi hi'
      simp [handleSave, Nat.add_comm]
  · intro seat hseat
    have hmem : seat.toSeat ∈ SeatDesigner.seats shape blocks :=
      toSeat_handleSave shape blocks ▸ List.mem_map_of_mem hseat
    obtain ⟨block, -, hblock⟩ := List.mem_flatMap.1 hmem
    obtain ⟨-, -, name, hname⟩ := placed_of_mem hblock
    rw [hname]
    rfl

/-- A statement that leaves the seats as they are. -/
theorem saved_of_layouts (hs : Saved s log) (hlayouts : ∀ r ∈ t.layouts, r.id < t.nextLayoutId)
    (hthere : s.layouts.map SeatLayout.id ⊆ t.layouts.map SeatLayout.id) (hseats : t.seats = s.seats)
    (hnext : s.nextSeatId ≤ t.nextSeatId) : Saved t log ∧ Grows s t := by
  have hrows : ∀ k, t.inputsOf k = s.inputsOf k :=
    fun k => inputsOf_congr (congrArg (List.filter _) hseats)
  refine ⟨⟨⟨hlayouts, ?_, hseats ▸ hs.sound.nodup⟩, ?_, ?_, hs.designed⟩, ⟨hnext, ?_, hthere⟩⟩
  · intro r hr
    exact (hs.sound.seats r (hseats ▸ hr)).trans_le hnext
  · intro r hr
    exact hthere (hs.there r (hseats ▸ hr))
  · intro k
    rw [hrows k]
    exact hs.seats k
  · intro r hr
    exact .inl (hseats ▸ hr)

/-- A layout is saved that has no rows any more. -/
theorem saved_foldl (hs : s.Sound) (hthere : ∀ r ∈ s.seats, r.layoutId ∈ s.layouts.map SeatLayout.id)
    (hseats : ∀ k', k' ≠ k → (s.inputsOf k').Perm (log k')) (hdesigned : ∀ k, Designed (log k))
    (hk : k ∈ s.layouts.map SeatLayout.id) (hinputs : (s.inputsOf k) = []) (hd : Designed seats)
    (hvalues : values.Perm seats) :
    Saved (values.foldl (World.insertSeat k) s) (Function.update log k seats) := by
  have hkeys : (values.map seatKey).Nodup := (hvalues.map _).nodup_iff.2 hd.keys
  have hnew : (values.foldl (World.insertSeat k) s).inputsOf k = values := by
    rw [World.inputsOf_foldl hkeys, hinputs, List.nil_append]
    intro seat _ hconflict
    obtain ⟨-, r, hr, hlayout, -⟩ := hconflict
    have hmem : r.toSeatInput ∈ s.inputsOf k :=
      List.mem_map_of_mem (List.mem_filter.2 ⟨hr, decide_eq_true hlayout⟩)
    rw [hinputs] at hmem
    exact List.not_mem_nil hmem
  have hsound : (values.foldl (World.insertSeat k) s).Sound := hs.foldl
  have hothers : ∀ k', k' ≠ k →
      (values.foldl (World.insertSeat k) s).inputsOf k' = s.inputsOf k' :=
    fun k' hne => inputsOf_congr (World.seatsOf_foldl hne)
  refine ⟨hsound, ?_, ?_, ?_⟩
  · obtain ⟨rows, heq, hrows, -⟩ := World.foldl_insertSeat k values s
    rw [heq]
    intro r hr
    cases List.mem_append.1 hr with
    | inl hr => exact hthere r hr
    | inr hr => exact (hrows r hr).1.symm ▸ hk
  · intro k'
    by_cases hne : k' = k
    · subst hne
      rw [hnew, Function.update_self]
      exact hvalues
    · rw [hothers k' hne, Function.update_of_ne hne]
      exact hseats k' hne
  · intro k'
    by_cases hne : k' = k
    · subst hne
      rw [Function.update_self]
      exact hd
    · rw [Function.update_of_ne hne]
      exact hdesigned k'

theorem grows_foldl (values : List SeatInput) : Grows s (values.foldl (World.insertSeat k) s) := by
  obtain ⟨rows, heq, hrows, -⟩ := World.foldl_insertSeat k values s
  rw [heq]
  refine ⟨?_, ?_, fun _ h => h⟩
  · dsimp only
    omega
  · intro r hr
    cases List.mem_append.1 hr with
    | inl hr => exact .inl hr
    | inr hr => exact .inr (hrows r hr).2.1

/-- The rows of the other layouts are none that a transaction has seen. -/
theorem saved_without (hs : Saved s log) (hother : ∀ r ∈ s.seats, r.layoutId ≠ k → r.id ∉ deleted) :
    (s.without deleted).Sound ∧
      (∀ r ∈ (s.without deleted).seats, r.layoutId ∈ s.layouts.map SeatLayout.id) ∧
      ∀ k', k' ≠ k → ((s.without deleted).inputsOf k').Perm (log k') := by
  refine ⟨hs.sound.without deleted, fun r hr => hs.there r (List.mem_filter.1 hr).1, ?_⟩
  intro k' hne
  have hrows : (s.without deleted).inputsOf k' = s.inputsOf k' := by
    apply inputsOf_congr
    apply World.seatsOf_without_eq
    intro r hr
    obtain ⟨hr, hlayout⟩ := List.mem_filter.1 hr
    apply hother r hr
    rw [of_decide_eq_true hlayout]
    exact hne
  rw [hrows]
  exact hs.seats k'

/-- Seats are added to a layout that has none, or once more. -/
theorem saved_insertSeats {o : Outcome} (hs : Saved s log) (hd : Designed seats)
    (ho : o.link ≠ .lost) (hG : s.seatsOf k = [] ∨ seats = log k) :
    Saved (s.insertSeats k (uniqueSeats o.hash seats)).1 (logSave o (.insertSeats k seats) s log) ∧
      Grows s (s.insertSeats k (uniqueSeats o.hash seats)).1 := by
  have hvalues := uniqueSeats_perm o.hash hd.keys
  unfold World.insertSeats
  by_cases hk : k ∈ s.layouts.map SeatLayout.id
  · rw [if_pos hk, logSave_insertSeats ho hk]
    refine ⟨?_, grows_foldl _⟩
    split_ifs with hnone
    · apply saved_foldl hs.sound hs.there (fun k' _ => hs.seats k') hs.designed hk _ hd hvalues
      unfold World.inputsOf
      rw [hnone]
      rfl
    · obtain rfl : seats = log k := hG.resolve_left hnone
      -- the seats are there already
      have htaken : ∀ seat ∈ uniqueSeats o.hash (log k), Conflicts s.seats k seat := by
        intro seat hseat
        have hmem := hvalues.mem_iff.1 hseat
        exact World.conflicts_of_mem (hd.2 seat hmem) ((hs.seats k).mem_iff.2 hmem)
      have hdraw : s.nextSeatId ≤ s.nextSeatId + (uniqueSeats o.hash (log k)).length := by omega
      rw [World.foldl_insertSeat_taken htaken]
      exact (saved_of_layouts (t := { s with
        nextSeatId := s.nextSeatId + (uniqueSeats o.hash (log k)).length })
        hs hs.sound.layouts (fun _ h => h) rfl hdraw).1
  · have hlog : logSave o (.insertSeats k seats) s log = log := if_pos (.inr (.inl hk))
    rw [if_neg hk, hlog]
    exact ⟨hs, .refl s⟩

/-- All seats of a layout are replaced. -/
theorem saved_replaceSeats {o : Outcome} (hs : Saved s log) (hd : Designed seats)
    (hother : ∀ r ∈ s.seats, r.layoutId ≠ k → r.id ∉ deleted) (ho : o.link ≠ .lost)
    (hall : ∀ r ∈ s.seatsOf k, r.id ∈ deleted) :
    Saved (s.replaceSeats k deleted (uniqueSeats o.hash seats)).1
        (logSave o (.replaceSeats k deleted seats) s log) ∧
      Grows s (s.replaceSeats k deleted (uniqueSeats o.hash seats)).1 := by
  have hvalues := uniqueSeats_perm o.hash hd.keys
  obtain ⟨hsound, hthere, hseats⟩ := saved_without hs hother
  by_cases hk : k ∈ s.layouts.map SeatLayout.id
  · have hlog : logSave o (.replaceSeats k deleted seats) s log = Function.update log k seats :=
      if_neg (by simp [ho, hk])
    rw [World.replaceSeats_eq hk, hlog]
    constructor
    · apply saved_foldl hsound hthere hseats hs.designed hk _ hd hvalues
      unfold World.inputsOf
      rw [World.seatsOf_without, List.map_eq_nil_iff]
      apply List.filter_eq_nil_iff.2
      intro r hr hkept
      exact absurd (hall r hr) (of_decide_eq_true hkept)
    · have hgrows : Grows (s.without deleted) _ := grows_foldl (k := k) (uniqueSeats o.hash seats)
      refine ⟨hgrows.drawn, ?_, hgrows.layouts⟩
      intro r hr
      exact (hgrows.rows r hr).imp_left fun h => (List.mem_filter.1 h).1
  · have hlog : logSave o (.replaceSeats k deleted seats) s log = log := if_pos (.inr hk)
    rw [hlog]
    cases World.replaceSeats_of_missing hk deleted (uniqueSeats o.hash seats) with
    | inl h =>
        rw [h]
        exact ⟨hs, .refl s⟩
    | inr h =>
        -- no row is of a layout that is not there
        have hrows : (s.without deleted).seats = s.seats := by
          apply List.filter_eq_self.2
          intro r hr
          apply decide_eq_true
          apply hother r hr
          intro heq
          exact hk (heq ▸ hs.there r hr)
        rw [h]
        exact saved_of_layouts hs hs.sound.layouts (fun _ h => h) hrows (Int.le_refl _)

/-! ## Steps -/

theorem andThen_saved {ρ : Type} {link : Link} {run : World → World × ρ} {next : ρ → Option Task}
    {log' : Saves} (hs : Saved s log) (hlost : link = .lost → log' = log)
    (hrun : link ≠ .lost → Saved (run s).1 log' ∧ Grows s (run s).1)
    (hnext : ∀ v, next (run s).2 = some v → Brought (run s).1 v) :
    (Saved (andThen (link.deliver run s) next).1 log' ∧
      Grows s (andThen (link.deliver run s) next).1) ∧
      ∀ v, (andThen (link.deliver run s) next).2 = some v →
        Brought (andThen (link.deliver run s) next).1 v := by
  cases link with
  | ok => exact ⟨hrun (by decide), hnext⟩
  | lost => exact ⟨⟨hlost rfl ▸ hs, .refl s⟩, fun v hv => by cases hv⟩
  | unacked => exact ⟨hrun (by decide), fun v hv => by cases hv⟩

theorem brought_updateSeats {seats : Option (List SeatInput)} {u : Task}
    (h : ∀ x ∈ seats, Designed x) : updateSeats k seats = some u → Brought t u := by
  intro hu
  obtain ⟨x, rfl, rfl⟩ := Option.map_eq_some_iff.1 hu
  exact h x rfl

theorem brought_updateDescription {body : UpdateLayoutRequest} {u : Task}
    (h : ∀ x ∈ body.seats, Designed x) : updateDescription k body = some u → Brought t u := by
  unfold updateDescription
  split
  · intro hu
    obtain rfl := Option.some.inj hu
    exact h
  · exact brought_updateSeats h

theorem brought_updateLayout {body : UpdateLayoutRequest} {u : Task}
    (h : ∀ x ∈ body.seats, Designed x) : updateLayout k body = some u → Brought t u := by
  unfold updateLayout
  split
  · intro hu
    obtain rfl := Option.some.inj hu
    exact h
  · exact brought_updateDescription h

theorem saved_insertLayout (hs : Saved s log) (body : CreateLayoutRequest) :
    Saved (s.insertLayout body).1 log ∧ Grows s (s.insertLayout body).1 := by
  apply saved_of_layouts hs
  · intro r hr
    show r.id < s.nextLayoutId + 1
    cases List.mem_append.1 hr with
    | inl hr =>
        have hdrawn := hs.sound.layouts r hr
        omega
    | inr hr =>
        rw [List.mem_singleton.1 hr]
        exact Int.lt_succ _
  · intro i hi
    show i ∈ (s.layouts ++ _).map SeatLayout.id
    rw [List.map_append]
    exact List.mem_append_left _ hi
  · rfl
  · exact Int.le_refl _

theorem saved_updateLayoutRow (hs : Saved s log) {set : SeatLayout → SeatLayout}
    (hid : ∀ r, (set r).id = r.id) :
    Saved (s.updateLayoutRow k set).1 log ∧ Grows s (s.updateLayoutRow k set).1 := by
  have hids : (s.updateLayoutRow k set).1.layouts.map SeatLayout.id =
      s.layouts.map SeatLayout.id := by
    unfold World.updateLayoutRow
    rw [List.map_map]
    apply List.map_congr_left
    intro r _
    show SeatLayout.id (if r.id = k then set r else r) = r.id
    split_ifs
    · exact hid r
    · rfl
  apply saved_of_layouts hs
  · intro r hr
    obtain ⟨r', hr', heq⟩ := List.mem_map.1 (hids ▸ List.mem_map_of_mem (f := SeatLayout.id) hr)
    rw [← heq]
    exact hs.sound.layouts r' hr'
  · intro i hi
    rw [hids]
    exact hi
  · rfl
  · exact Int.le_refl _

/-- A step keeps the saves, and leaves its task with what it has to know. -/
theorem exec_saved {o : Outcome} {u : Task} (hs : Saved s log) (hu : Brought s u)
    (hG : Alone o s log u) :
    (Saved (exec c o u s).1 (logSave o u s log) ∧ Grows s (exec c o u s).1) ∧
      ∀ v, (exec c o u s).2 = some v → Brought (exec c o u s).1 v := by
  cases u with
  | insertLayout body =>
      apply andThen_saved hs (fun _ => rfl) fun _ => saved_insertLayout hs body
      intro v hv
      cases hv
  | verifyLayout k seats =>
      apply andThen_saved hs (fun _ => rfl) fun _ => ⟨hs, .refl s⟩
      intro v hv
      obtain ⟨row, -, rfl⟩ := Option.map_eq_some_iff.1 hv
      exact hu
  | insertSeats k seats =>
      apply andThen_saved hs logSave_lost
      · intro ho
        exact saved_insertSeats hs hu ho (hG ho)
      · intro v hv
        cases hv
  | setName k name body =>
      apply andThen_saved hs (fun _ => rfl)
      · intro _
        exact saved_updateLayoutRow hs fun _ => rfl
      · intro v hv
        exact brought_updateDescription hu hv
  | setDescription k description seats =>
      apply andThen_saved hs (fun _ => rfl)
      · intro _
        exact saved_updateLayoutRow hs fun _ => rfl
      · intro v hv
        exact brought_updateSeats hu hv
  | deleteSeats k seats =>
      apply andThen_saved hs (fun _ => rfl) fun _ => ⟨hs, .refl s⟩
      intro v hv
      obtain rfl := Option.some.inj hv
      refine ⟨hu, ?_, ?_⟩
      · intro i hi
        obtain ⟨r, hr, rfl⟩ := List.mem_map.1 hi
        exact hs.sound.seats r (List.mem_filter.1 hr).1
      · intro r hr hother hmem
        obtain ⟨r', hr', hid⟩ := List.mem_map.1 hmem
        obtain ⟨hr', hlayout⟩ := List.mem_filter.1 hr'
        have heq : r' = r := List.inj_on_of_nodup_map hs.sound.nodup hr' hr hid
        exact hother (heq ▸ of_decide_eq_true hlayout)
  | replaceSeats k deleted seats =>
      apply andThen_saved hs logSave_lost
      · intro ho
        exact saved_replaceSeats hs hu.1 hu.2.2 ho (hG ho)
      · intro v hv
        cases hv
  | markDeleted k =>
      apply andThen_saved hs (fun _ => rfl)
      · intro _
        exact saved_updateLayoutRow hs fun _ => rfl
      · intro v hv
        cases hv
  | findLayout k =>
      apply andThen_saved hs (fun _ => rfl) fun _ => ⟨hs, .refl s⟩
      intro v hv
      obtain ⟨row, -, rfl⟩ := Option.map_eq_some_iff.1 hv
      trivial
  | loadSeats layout =>
      apply andThen_saved hs (fun _ => rfl) fun _ => ⟨hs, .refl s⟩
      intro v hv
      apply brought_updateLayout _ hv
      intro x hx
      obtain rfl := Option.some.inj hx
      exact designed_handleSave _ _

theorem brought_first {r : Request} {u : Task} (hr : r.Designed) :
    first r = some u → Brought t u := by
  intro hu
  cases r with
  | createLayout body =>
      have hu : createLayout body = some u := hu
      unfold createLayout at hu
      split_ifs at hu
      obtain rfl := Option.some.inj hu
      trivial
  | addSeats k seats =>
      have hu : addSeatsToLayout k seats = some u := hu
      unfold addSeatsToLayout at hu
      split_ifs at hu
      obtain rfl := Option.some.inj hu
      exact hr
  | updateLayout k body => exact brought_updateLayout hr hu
  | deleteLayout k =>
      obtain rfl := Option.some.inj hu
      trivial
  | edit k =>
      obtain rfl := Option.some.inj hu
      trivial

theorem alone_of_apart {p : Crew World Task × Saves} {i : ℕ} {o : Outcome} {u : Task}
    (hu : p.1.tasks[i]? = some (some u)) (h : Apart p (.run i o)) : Alone o p.1.store p.2 u := by
  apply h
  rw [hu]
  rfl

theorem saved_noLayouts : Saved noLayouts fun _ => [] where
  sound := ⟨by simp [noLayouts], by simp [noLayouts], List.nodup_nil⟩
  there := by simp [noLayouts]
  seats _ := List.Perm.refl _
  designed _ := ⟨rfl, by simp⟩

/-- Every run in which no two saves meet keeps the saves. -/
theorem saved_of_run {p : Crew World Task × Saves} (h : (saves c).ReachableUnder Apart p) :
    Saved p.1.store p.2 ∧ ∀ u, some u ∈ p.1.tasks → Brought p.1.store u := by
  apply System.invariant (I := fun p : Crew World Task × Saves => Saved p.1.store p.2 ∧
    ∀ u, some u ∈ p.1.tasks → Brought p.1.store u) _ _ h
  · intro p hp
    obtain ⟨hstore, hlog⟩ := hp
    have hstore : p.1 = ⟨noLayouts, []⟩ := hstore
    rw [hstore, hlog]
    exact ⟨saved_noLayouts, fun u hu => absurd hu List.not_mem_nil⟩
  · intro p a q hp hG hst
    obtain ⟨hsaved, htasks⟩ := hp
    obtain ⟨hst, hlog⟩ := System.withHistory_step.1 hst
    rw [hlog]
    have hst : (handlers c).step p.1 a = some q.1 := hst
    cases a with
    | environ d =>
        obtain heq := Option.some.inj hst
        rw [← heq]
        obtain ⟨hsaved', hgrows⟩ := saved_of_layouts (t := { p.1.store with
          now := p.1.store.now + d }) hsaved hsaved.sound.layouts (fun _ h => h) rfl (Int.le_refl _)
        exact ⟨hsaved', fun u hu => hgrows.brought (htasks u hu)⟩
    | start r =>
        obtain heq := Option.some.inj hst
        rw [← heq]
        refine ⟨hsaved, ?_⟩
        intro u hu
        cases List.mem_append.1 hu with
        | inl hu => exact htasks u hu
        | inr hu => exact brought_first hG (List.mem_singleton.1 hu).symm
    | run i o =>
        obtain ⟨u, hu, heq⟩ := Handlers.step_run (H := handlers c) hst
        obtain ⟨⟨hsaved', hgrows⟩, hnext⟩ :=
          exec_saved (c := c) hsaved (htasks u (List.mem_of_getElem? hu)) (alone_of_apart hu hG)
        rw [heq]
        dsimp only
        rw [hu]
        refine ⟨hsaved', ?_⟩
        intro v hv
        cases List.mem_or_eq_of_mem_set hv with
        | inl hv => exact hgrows.brought (htasks v hv)
        | inr hv => exact hnext v hv.symm
    | crash i =>
        obtain ⟨u, -, heq⟩ := Handlers.step_crash (H := handlers c) hst
        rw [heq]
        refine ⟨hsaved, ?_⟩
        intro v hv
        cases List.mem_or_eq_of_mem_set hv with
        | inl hv => exact htasks v hv
        | inr hv => cases hv

end Saves

/-! ## Reading a layout -/

/-- Where the seats come from designers and no two saves of a layout meet, whatever else is lost or
abandoned: a layout is read as the seats of its last save, by letter and number, and the seats are
numbered from one. -/
theorem layout_is_last_save (c : Collation) {p : Crew World Task × Saves}
    (h : (saves c).ReachableUnder Apart p) (k : ℤ) :
    (∀ scan, p.1.store.layoutSeats c scan k = c.shown (p.2 k)) ∧
      ((p.1.store.inputsOf k).map (·.seatNumber)).Perm (List.range' 1 (p.2 k).length) := by
  have hsaved := (saved_of_run h).1
  have hdesigned := hsaved.designed k
  constructor
  · intro scan
    apply c.shown_eq_of_perm hdesigned.numbers
    exact ((List.perm_insertionSort _ _).map _).trans (hsaved.seats k)
  · rw [← hdesigned.1]
    exact (hsaved.seats k).map _

/-! ## Schedules of a layout -/

/-- The class of a seat, as the schedules have it. -/
def LayoutSeatClass.toSchedule : SeatDesigner.LayoutSeatClass → SeatNumbering.LayoutSeatClass
  | .standard => .standard
  | .premium => .premium
  | .vip => .vip
  | .ga => .ga

/-- The row as a schedule copies it; `decode` gives the text of the units. -/
def SeatLayoutSeat.toSchedule (decode : Text → String) (r : SeatLayoutSeat) :
    ScheduleHandlers.LayoutSeat where
  id := r.id
  layoutId := r.layoutId
  rowLetter := decode r.rowLetter
  seatNumber := r.seatNumber
  seatClass := LayoutSeatClass.toSchedule r.seatClass
  blockName := r.blockName.map decode

/-- The rows of a layout that a schedule copies. -/
def World.toCopy (s : World) (decode : Text → String) (k : ℤ) : List ScheduleHandlers.LayoutSeat :=
  (s.seatsOf k).map (SeatLayoutSeat.toSchedule decode)

/-- What is sold of a seat of a class: its letter, its class and its price. -/
def sold (decode : Text → String) (body : ScheduleHandlers.CreateScheduleRequest) (letter : Text)
    (seatClass : SeatDesigner.LayoutSeatClass) :
    String × SeatNumbering.LayoutSeatClass × ℚ :=
  (decode letter, LayoutSeatClass.toSchedule seatClass,
    body.price (LayoutSeatClass.toSchedule seatClass))

section Schedules

variable {s : World} {log : Saves} {k : ℤ} {decode : Text → String}
  {body : ScheduleHandlers.CreateScheduleRequest} {shape : LayoutShape} {blocks : List LayoutBlock}

theorem Saved.toCopy_keys (hs : Saved s log) :
    ((s.toCopy decode k).map ScheduleHandlers.LayoutSeat.key).Nodup := by
  have hnumbers : ((s.seatsOf k).map fun r => (r.seatNumber : ℤ)).Nodup := by
    have hnodup : ((s.inputsOf k).map (·.seatNumber)).Nodup :=
      ((hs.seats k).map _).nodup_iff.2 (hs.designed k).numbers
    have hcast := hnodup.map Int.ofNat_injective
    unfold World.inputsOf at hcast
    rw [List.map_map, List.map_map] at hcast
    exact hcast
  apply List.Nodup.of_map Prod.snd
  unfold World.toCopy
  rw [List.map_map, List.map_map]
  exact hnumbers

/-- The seats that are copied of a layout are sold as they have been saved. -/
theorem Saved.toCopy_sold (hs : Saved s log) :
    ((s.toCopy decode k).map fun seat =>
        (seat.rowLetter, seat.seatClass, body.price seat.seatClass)).Perm
      ((log k).map fun seat => sold decode body seat.rowLetter seat.seatClass) := by
  have hrows := (hs.seats k).map fun seat => sold decode body seat.rowLetter seat.seatClass
  unfold World.inputsOf at hrows
  rw [List.map_map] at hrows
  unfold World.toCopy
  rw [List.map_map]
  exact hrows

/-- The seats of blocks are sold place by place. -/
theorem sold_handleSave :
    (handleSave shape blocks).map (fun seat => sold decode body seat.rowLetter seat.seatClass) =
      blocks.flatMap fun block =>
        (places block).map fun place => sold decode body place.letter block.category := by
  have hseats : (handleSave shape blocks).map
      (fun seat => sold decode body seat.rowLetter seat.seatClass) =
      ((handleSave shape blocks).map (·.toSeat)).map
        fun seat => sold decode body seat.rowLetter seat.seatClass := by
    rw [List.map_map]
    rfl
  rw [hseats, toSeat_handleSave]
  unfold seats
  rw [List.map_flatMap]
  apply List.flatMap_congr
  intro block _
  rw [blockSeats_eq, List.map_map]
  rfl

/-- The copies are counted on from those before. -/
theorem copies_seatIndex {k : ℤ} (layout : List ScheduleHandlers.LayoutSeat) (count : ℕ) :
    (ScheduleHandlers.copies body k layout count).map (·.seatIndex) =
      (List.range' (count + 1) layout.length).map Int.ofNat := by
  induction layout generalizing count with
  | nil => rfl
  | cons seat layout ih =>
      rw [ScheduleHandlers.copies, List.map_cons, ih, List.length_cons, List.range'_succ,
        List.map_cons]
      rfl

theorem copies_sold {k : ℤ} (layout : List ScheduleHandlers.LayoutSeat) (count : ℕ) :
    (ScheduleHandlers.copies body k layout count).map
        (fun seat => (seat.rowLetter, seat.seatClass, seat.price)) =
      layout.map fun seat => (seat.rowLetter, seat.seatClass, body.price seat.seatClass) := by
  have hcopied := congrArg (List.map fun x : String × ℤ × SeatNumbering.LayoutSeatClass × ℚ =>
    (x.1, x.2.2)) (@ScheduleHandlers.copies_copied body k layout count)
  rw [List.map_map, List.map_map] at hcopied
  exact hcopied

end Schedules

/-- In such a run, a schedule of a layout that was last saved from a designer's blocks copies every place
of them once, under the letter of the place and at the price of the block's class, and counts the seats
from one. -/
theorem places_are_sold (c : Collation) {p : Crew World Task × Saves}
    (h : (saves c).ReachableUnder Apart p) {k : ℤ} {shape : LayoutShape} {blocks : List LayoutBlock}
    (hk : p.2 k = handleSave shape blocks) (hcount : (p.2 k).length < 2 ^ 31)
    (decode : Text → String) (body : ScheduleHandlers.CreateScheduleRequest) (scheduleId : ℤ) :
    ∃ seats, ScheduleHandlers.copySeats body scheduleId
        (ScheduleHandlers.sortedSeats (p.1.store.toCopy decode k)) [] 0 = .ok seats ∧
      seats.map (·.seatIndex) = (List.range' 1 seats.length).map Int.ofNat ∧
      (seats.map fun seat => (seat.rowLetter, seat.seatClass, seat.price)).Perm
        (blocks.flatMap fun block =>
          (places block).map fun place => sold decode body place.letter block.category) := by
  have hsaved := (saved_of_run h).1
  have hperm : (ScheduleHandlers.sortedSeats (p.1.store.toCopy decode k)).Perm
      (p.1.store.toCopy decode k) := List.perm_insertionSort _ _
  have hlength : (p.1.store.toCopy decode k).length = (p.2 k).length := by
    have hrows := (hsaved.seats k).length_eq
    unfold World.inputsOf at hrows
    unfold World.toCopy
    rw [List.length_map] at hrows ⊢
    exact hrows
  have hkeys : ((ScheduleHandlers.sortedSeats (p.1.store.toCopy decode k)).map
      ScheduleHandlers.LayoutSeat.key).Nodup := (hperm.map _).nodup_iff.2 hsaved.toCopy_keys
  have hfits : 0 + (ScheduleHandlers.sortedSeats (p.1.store.toCopy decode k)).length < 2 ^ 31 := by
    rw [hperm.length_eq, hlength, Nat.zero_add]
    exact hcount
  refine ⟨_, ScheduleHandlers.copySeats_eq hkeys (fun _ _ => List.not_mem_nil) hfits, ?_, ?_⟩
  · rw [copies_seatIndex, ScheduleHandlers.length_copies]
  · rw [copies_sold]
    apply (hperm.map _).trans
    apply hsaved.toCopy_sold.trans
    rw [hk, sold_handleSave]

/-! ### Runs on fixed inputs -/

instance {o : Outcome} {s : World} {log : Saves} {u : Task} : Decidable (Alone o s log u) :=
  match u with
  | .insertSeats k seats =>
      inferInstanceAs (Decidable (o.link ≠ .lost → s.seatsOf k = [] ∨ seats = log k))
  | .replaceSeats k deleted _ =>
      inferInstanceAs (Decidable (o.link ≠ .lost → ∀ r ∈ s.seatsOf k, r.id ∈ deleted))
  | .insertLayout _ => isTrue trivial
  | .verifyLayout _ _ => isTrue trivial
  | .setName _ _ _ => isTrue trivial
  | .setDescription _ _ _ => isTrue trivial
  | .deleteSeats _ _ => isTrue trivial
  | .markDeleted _ => isTrue trivial
  | .findLayout _ => isTrue trivial
  | .loadSeats _ => isTrue trivial

instance {p : Crew World Task × Saves} {a : CrewAct Outcome ℕ Request} : Decidable (Apart p a) :=
  match a with
  | .start r => inferInstanceAs (Decidable r.Designed)
  | .run i o => inferInstanceAs (Decidable (∀ u ∈ p.1.tasks[i]?.join, Alone o p.1.store p.2 u))
  | .environ _ => isTrue trivial
  | .crash _ => isTrue trivial

/-- Two rows of one letter, in blocks of their own. -/
def twoBlocks : List LayoutBlock :=
  [oneRow "Left" "A" 0, oneRow "Right" "A" 90]

/-- A layout is created with one block. -/
def created : List (CrewAct Outcome ℕ Request) :=
  [.start (.createLayout ⟨text "Hall", none, .rectangular⟩), .run 0 answered,
    .start (.addSeats 1 (handleSave .rectangular [oneRow "Middle" "B" 0])), .run 1 answered,
    .run 1 answered]

/-- The answer to an edit of a new layout is lost, and it is sent again. -/
def createdAndEdited : List (CrewAct Outcome ℕ Request) :=
  created ++
    [.start (.updateLayout 1 ⟨none, none, some (handleSave .rectangular twoBlocks)⟩),
      .run 2 answered, .run 2 ⟨.unacked, fun _ => 0, fun _ => 0⟩,
      .start (.updateLayout 1 ⟨none, none, some (handleSave .rectangular twoBlocks)⟩),
      .run 3 answered, .run 3 answered]

theorem exists_created_and_edited : ∃ p, (saves byUnits).ReachableUnder Apart p ∧
    p.2 1 = handleSave .rectangular twoBlocks := by
  obtain ⟨p, hp, h⟩ := System.exists_reachable_of_runUnder (saves byUnits) Apart
    (fun p : Crew World Task × Saves => decide (p.2 1 = handleSave .rectangular twoBlocks))
    (s := ⟨⟨noLayouts, []⟩, fun _ => []⟩) ⟨rfl, rfl⟩ createdAndEdited (by decide +kernel)
  exact ⟨p, hp, of_decide_eq_true h⟩

theorem layout_is_last_save_edited : ∃ p : Crew World Task × Saves,
    p.2 1 = handleSave .rectangular twoBlocks ∧
      (∀ scan, p.1.store.layoutSeats byUnits scan 1 = byUnits.shown (p.2 1)) ∧
      ((p.1.store.inputsOf 1).map (·.seatNumber)).Perm (List.range' 1 (p.2 1).length) := by
  obtain ⟨p, hp, hk⟩ := exists_created_and_edited
  exact ⟨p, hk, layout_is_last_save byUnits hp 1⟩

/-- Two edits that meet leave the seats of both. -/
theorem saves_that_meet_are_mixed : ∃ p, (saves byUnits).Reachable p ∧
    (p.1.store.layoutSeats byUnits (fun _ => 0) 1).map (·.blockName) =
      [some (text "Left"), some (text "Right")] ∧
    p.2 1 = handleSave .rectangular [oneRow "Right" "A" 90] := by
  obtain ⟨p, hp, h⟩ := System.exists_reachable_of_run (saves byUnits)
    (fun p : Crew World Task × Saves =>
      decide ((p.1.store.layoutSeats byUnits (fun _ => 0) 1).map (·.blockName) =
          [some (text "Left"), some (text "Right")] ∧
        p.2 1 = handleSave .rectangular [oneRow "Right" "A" 90]))
    (s := ⟨⟨noLayouts, []⟩, fun _ => []⟩) ⟨rfl, rfl⟩
    (created ++
      [.start (.updateLayout 1 ⟨none, none, some (handleSave .rectangular [oneRow "Left" "A" 0])⟩),
        .start (.updateLayout 1 ⟨none, none, some (handleSave .rectangular [oneRow "Right" "A" 90])⟩),
        .run 2 answered, .run 3 answered, .run 2 answered, .run 3 answered])
    (by decide +kernel)
  exact ⟨p, hp, of_decide_eq_true h⟩

theorem places_are_sold_edited : ∃ p : Crew World Task × Saves, ∃ seats,
    ScheduleHandlers.copySeats ScheduleHandlers.creation 1
        (ScheduleHandlers.sortedSeats (p.1.store.toCopy (fun t => String.ofList (t.map Char.ofNat)) 1))
        [] 0 = .ok seats ∧
      (seats.map fun seat => (seat.rowLetter, seat.seatClass, seat.price)).Perm
        (twoBlocks.flatMap fun block => (places block).map fun place =>
          sold (fun t => String.ofList (t.map Char.ofNat)) ScheduleHandlers.creation place.letter
            block.category) := by
  obtain ⟨p, hp, hk⟩ := exists_created_and_edited
  have hcount : (handleSave .rectangular twoBlocks).length < 2 ^ 31 := by decide +kernel
  obtain ⟨seats, hcopy, -, hsold⟩ := places_are_sold byUnits hp hk (hk ▸ hcount)
    (fun t => String.ofList (t.map Char.ofNat)) ScheduleHandlers.creation 1
  exact ⟨p, seats, hcopy, hsold⟩

end LayoutStore
end Bookit

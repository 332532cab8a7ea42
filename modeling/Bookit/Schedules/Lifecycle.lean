import Bookit.Schedules.Store

/-!
# Schedules.Lifecycle — what a closed schedule leaves in the three stores

The commits of the handlers are ordered by the row lock, so that a closed schedule stays closed in
PostgreSQL.  The markers and the events that follow the commits are not: those of an earlier start may
come after those of a close.  In the runs in which they do not, and in which a close gets through,
the marker is set and every gateway has the schedule among its closed shows once all is handled.
-/

namespace Bookit
namespace Schedules

open Lib

/-! ## The events of a schedule -/

/-- The closed shows of a gateway that has handled these events. -/
def closedAfter (events : List LifecycleEvent) : ℤ → Bool :=
  events.foldl (fun closedShows event => handleScheduleLifecycleMessage event closedShows)
    fun _ => false

@[simp] theorem closedAfter_append (events : List LifecycleEvent) (event : LifecycleEvent) :
    closedAfter (events ++ [event]) = handleScheduleLifecycleMessage event (closedAfter events) := by
  simp [closedAfter]

/-! ## Rows stay closed -/

def Rows (s : World) : Prop := (s.schedules.map (·.id)).Nodup

/-- The rows of closed schedules are closed rows still. -/
def StayClosed (s t : World) : Prop :=
  ∀ r ∈ s.schedules, r.lifecycleState = .closed → ∀ r' ∈ t.schedules, r'.id = r.id →
    r'.lifecycleState = .closed

theorem StayClosed.of_eq {s t : World} (hs : Rows s) (h : t.schedules = s.schedules) :
    StayClosed s t := by
  intro r hr hc r' hr' hid
  rw [h] at hr'
  exact List.inj_on_of_nodup_map hs hr' hr hid ▸ hc

/-- The schedule that a command closes, where it gets through. -/
def closes (c : Cmd) (s : World) : Option ℤ :=
  match c with
  | .close scheduleId => (s.findSchedule scheduleId).map fun _ => scheduleId
  | .markDeleted scheduleId => some scheduleId
  | _ => none

/-- A change of the rows: none, an update that opens a schedule that was not closed, or an update that
closes one. -/
inductive Updates (s : World) (c : Cmd) (l : Link) (t : World) : Prop where
  | same : t.schedules = s.schedules → Updates s c l t
  | opens (scheduleId : ℤ) (current : ScheduleRow) :
      s.findSchedule scheduleId = some current → current.lifecycleState ≠ .closed →
        t.schedules = (s.setState scheduleId .open_).schedules → Updates s c l t
  | closes (scheduleId : ℤ) (f : ScheduleRow → ScheduleRow) :
      (∀ r, (f r).id = r.id ∧ (f r).lifecycleState = .closed) → closes c s = some scheduleId →
        l ≠ .lost →
        t.schedules = Table.updateWhere (fun r => decide (r.id = scheduleId)) f s.schedules →
        Updates s c l t

theorem Updates.deliver {s : World} {c : Cmd} {l : Link} {ρ : Type} {run : World → World × ρ}
    {t : World} {r : Option ρ} (h : l.deliver run s = (t, r))
    (hrun : l ≠ .lost → Updates s c l (run s).1) : Updates s c l t := by
  cases l with
  | ok =>
      obtain ⟨rfl, -⟩ := Prod.mk.inj h
      exact hrun nofun
  | lost =>
      obtain ⟨rfl, -⟩ := Prod.mk.inj h
      exact .same rfl
  | unacked =>
      obtain ⟨rfl, -⟩ := Prod.mk.inj h
      exact hrun nofun

theorem updates_of_exec {i : ℕ} {l : Link} {c : Cmd} {s t : World} {r : Rep c}
    (h : exec i l c s = some (t, r)) : Updates s c l t := by
  cases c with
  | start scheduleId =>
      refine .deliver (Option.some.inj h) fun _ => ?_
      unfold World.start
      cases hfind : s.findSchedule scheduleId with
      | none => exact .same rfl
      | some current =>
          cases hstate : current.lifecycleState with
          | closed => exact .same (by simp [hstate])
          | open_ => exact .same (by simp [hstate])
          | scheduled =>
              simp only [hstate]
              exact .opens scheduleId current hfind (by simp [hstate]) rfl
  | close scheduleId =>
      refine .deliver (Option.some.inj h) fun hl => ?_
      unfold World.close
      cases hfind : s.findSchedule scheduleId with
      | none => exact .same rfl
      | some current =>
          have hcloses : closes (.close scheduleId) s = some scheduleId := by simp [closes, hfind]
          cases hstate : current.lifecycleState with
          | closed => exact .same (by simp [hstate])
          | open_ =>
              simp only [hstate]
              exact .closes scheduleId (fun r => { r with lifecycleState := .closed })
                (fun _ => ⟨rfl, rfl⟩) hcloses hl rfl
          | scheduled =>
              simp only [hstate]
              exact .closes scheduleId (fun r => { r with lifecycleState := .closed })
                (fun _ => ⟨rfl, rfl⟩) hcloses hl rfl
  | markDeleted scheduleId =>
      refine .deliver (Option.some.inj h) fun hl => ?_
      exact .closes scheduleId
        (fun r => { r with lifecycleState := .closed, deletedAt := some s.now })
        (fun _ => ⟨rfl, rfl⟩) rfl hl rfl
  | connect => exact .deliver (Option.some.inj h) fun _ => .same rfl
  | findSchedule scheduleId => exact .deliver (Option.some.inj h) fun _ => .same rfl
  | setClosedKey scheduleId => exact .deliver (Option.some.inj h) fun _ => .same rfl
  | delClosedKey scheduleId => exact .deliver (Option.some.inj h) fun _ => .same rfl
  | publish event => exact .deliver (Option.some.inj h) fun _ => .same rfl

theorem findSchedule_eq_some {s : World} {scheduleId : ℤ} {r : ScheduleRow}
    (h : s.findSchedule scheduleId = some r) : r ∈ s.schedules ∧ r.id = scheduleId := by
  have hcond : r.id = scheduleId ∧ r.deletedAt = none := by simpa using List.find?_some h
  exact ⟨List.mem_of_find?_eq_some h, hcond.1⟩

/-- The rows of schedules are never lost, and stay closed. -/
structure Keeps (s t : World) : Prop where
  rows : Rows t
  ids : s.schedules.map (·.id) ⊆ t.schedules.map (·.id)
  closed : StayClosed s t

theorem Keeps.trans {s t u : World} (hst : Keeps s t) (htu : Keeps t u) : Keeps s u := by
  refine ⟨htu.rows, fun k hk => htu.ids (hst.ids hk), fun r hr hc r'' hr'' hid => ?_⟩
  obtain ⟨r', hr', hid'⟩ := List.mem_map.1 (hst.ids (List.mem_map_of_mem hr))
  exact htu.closed r' hr' (hst.closed r hr hc r' hr' hid') r'' hr'' (hid.trans hid'.symm)

theorem Keeps.of_eq {s t : World} (hs : Rows s) (h : t.schedules = s.schedules) : Keeps s t := by
  have hids : t.schedules.map (·.id) = s.schedules.map (·.id) := congrArg _ h
  exact ⟨by rw [Rows, hids]; exact hs, fun k hk => hids ▸ hk, .of_eq hs h⟩

theorem Updates.keeps {s t : World} {c : Cmd} {l : Link} (h : Updates s c l t) (hs : Rows s) :
    Keeps s t := by
  cases h with
  | same heq => exact .of_eq hs heq
  | opens scheduleId current hfind hstate heq =>
      have hids : t.schedules.map (·.id) = s.schedules.map (·.id) := by
        rw [heq]
        exact Table.map_updateWhere fun _ => rfl
      refine ⟨by rw [Rows, hids]; exact hs, fun k hk => hids ▸ hk, fun r hr hc r' hr' hid => ?_⟩
      rw [heq] at hr'
      rcases Table.mem_updateWhere_cases hr' with ⟨hr', -⟩ | ⟨r₀, hr₀, hin, rfl⟩
      · exact List.inj_on_of_nodup_map hs hr' hr hid ▸ hc
      · -- the schedule that is opened is the one that was found
        obtain ⟨hcur, hcurid⟩ := findSchedule_eq_some hfind
        have hrid : r.id = current.id := by
          rw [← hid, hcurid]
          exact of_decide_eq_true hin
        exact absurd (List.inj_on_of_nodup_map hs hr hcur hrid ▸ hc) hstate
  | closes scheduleId f hf hcloses hl heq =>
      have hids : t.schedules.map (·.id) = s.schedules.map (·.id) := by
        rw [heq]
        exact Table.map_updateWhere fun r => (hf r).1
      refine ⟨by rw [Rows, hids]; exact hs, fun k hk => hids ▸ hk, fun r hr hc r' hr' hid => ?_⟩
      rw [heq] at hr'
      rcases Table.mem_updateWhere_cases hr' with ⟨hr', -⟩ | ⟨r₀, hr₀, -, rfl⟩
      · exact List.inj_on_of_nodup_map hs hr' hr hid ▸ hc
      · exact (hf r₀).2

/-- A step of the environment leaves the rows alone, or adds one of a new schedule. -/
theorem schedules_of_environ {x : Environ} {s t : World}
    {new : List (Task × Service (Except Payments.AppError Response))}
    (h : environ x s = some (t, new)) :
    t.schedules = s.schedules ∨ ∃ scheduleId, (∀ r ∈ s.schedules, r.id ≠ scheduleId) ∧
      t.schedules = s.schedules ++ [⟨scheduleId, .scheduled, none⟩] := by
  cases x with
  | tick d | start scheduleId | close scheduleId | delete scheduleId =>
      obtain ⟨rfl, -⟩ := Prod.mk.inj (Option.some.inj h)
      exact .inl rfl
  | create scheduleId =>
      simp only [environ] at h
      split_ifs at h with hany
      obtain ⟨rfl, -⟩ := Prod.mk.inj (Option.some.inj h)
      exact .inr ⟨scheduleId, by simpa using hany, rfl⟩
  | handle g =>
      simp only [environ, World.handleNext, Option.map_map, Option.map_eq_some_iff] at h
      obtain ⟨event, -, h⟩ := h
      obtain ⟨rfl, -⟩ := Prod.mk.inj h
      exact .inl rfl
  | findMarker g scheduleId =>
      simp only [environ, World.findMarker] at h
      split_ifs at h
      · obtain ⟨rfl, -⟩ := Prod.mk.inj (Option.some.inj h)
        exact .inl rfl
      · cases h

theorem keeps_of_environ {x : Environ} {s t : World}
    {new : List (Task × Service (Except Payments.AppError Response))} (hs : Rows s)
    (h : environ x s = some (t, new)) : Keeps s t := by
  rcases schedules_of_environ h with heq | ⟨scheduleId, hfresh, heq⟩
  · exact .of_eq hs heq
  · have hids : t.schedules.map (·.id) = s.schedules.map (·.id) ++ [scheduleId] := by
      rw [heq, List.map_append]
      rfl
    refine ⟨?_, fun k hk => hids ▸ List.mem_append_left _ hk, fun r hr hc r' hr' hid => ?_⟩
    · rw [Rows, hids, List.nodup_append]
      refine ⟨hs, List.nodup_singleton _, ?_⟩
      rintro a ha b hb rfl
      obtain ⟨r, hr, rfl⟩ := List.mem_map.1 ha
      exact hfresh r hr (List.mem_singleton.1 hb)
    · rw [heq] at hr'
      rcases List.mem_append.1 hr' with hr' | hr'
      · exact List.inj_on_of_nodup_map hs hr' hr hid ▸ hc
      · rw [List.mem_singleton.1 hr'] at hid
        exact absurd hid.symm (hfresh r hr)

/-! ## The closers of a schedule -/

/-- The sessions that have closed a schedule. -/
abbrev Closers := List (ℕ × ℤ)

def record (_ : Task) (i : ℕ) (l : Link) (c : Cmd) (s : World) (log : Closers) : Closers :=
  if l = .lost then log else log ++ ((closes c s).map fun scheduleId => (i, scheduleId)).toList

/-- The handlers with the log of the closers. -/
def machine : Machine (World × Closers) Rep Task (Except Payments.AppError Response) Link Environ :=
  handlers.logged [] record

abbrev LifecyclePool := Pool (World × Closers) Rep Task (Except Payments.AppError Response)

/-- A close gets through; the marker and the event of a start do not follow those of a close. -/
def InOrder (_ : Task) (_ : ℕ) (l : Link) (c : Cmd) (s : World × Closers) : Prop :=
  match c with
  | .close _ | .markDeleted _ => l ≠ .unacked
  | .setClosedKey _ => l = .ok
  | .delClosedKey scheduleId => l ≠ .lost → s.1.closedKeys scheduleId = false
  | .publish (.scheduleClosed _) => l = .ok
  | .publish (.scheduleOpened scheduleId) =>
      l ≠ .lost → closedAfter s.1.published scheduleId = false
  | _ => True

instance {n : Task} {i : ℕ} {l : Link} {c : Cmd} {s : World × Closers} :
    Decidable (InOrder n i l c s) := by
  unfold InOrder
  split <;> infer_instance

/-- Runs whose steps are all in order. -/
def InOrderRun (p : LifecyclePool) (a : Act Link Environ) : Prop :=
  Machine.Guarded InOrder (fun _ _ => True) p a

instance {p : LifecyclePool} {a : Act Link Environ} : Decidable (InOrderRun p a) :=
  inferInstanceAs (Decidable (Machine.Guarded _ _ p a))

/-! ## The contract -/

/-- The marker is set, and a gateway that handles all events has the schedule closed. -/
structure Settled (scheduleId : ℤ) (s : World) : Prop where
  marker : s.closedKeys scheduleId = true
  events : closedAfter s.published scheduleId = true

/-- A closed schedule has a closer, and a gateway has at least the closed shows of the events that it
has handled. -/
structure Inv (s : World × Closers) : Prop where
  rows : Rows s.1
  closers : ∀ r ∈ s.1.schedules, r.lifecycleState = .closed → ∃ i, (i, r.id) ∈ s.2
  handled : ∀ g, (s.1.gateways g).handled ≤ s.1.published.length
  closedShows : ∀ g scheduleId,
    closedAfter (s.1.published.take (s.1.gateways g).handled) scheduleId = true →
      (s.1.gateways g).closedShows scheduleId = true

/-- What no other session undoes for session `i`. -/
structure Leaves (i : ℕ) (s t : World × Closers) : Prop where
  own : ∀ scheduleId, (i, scheduleId) ∈ t.2 → (i, scheduleId) ∈ s.2
  marker : ∀ scheduleId, s.1.closedKeys scheduleId = true → t.1.closedKeys scheduleId = true
  events : ∀ scheduleId, closedAfter s.1.published scheduleId = true →
    closedAfter t.1.published scheduleId = true

theorem Leaves.refl (i : ℕ) (s : World × Closers) : Leaves i s s :=
  ⟨fun _ h => h, fun _ h => h, fun _ h => h⟩

theorem Leaves.trans {i : ℕ} {s t u : World × Closers} (hst : Leaves i s t) (htu : Leaves i t u) :
    Leaves i s u :=
  ⟨fun k h => hst.own k (htu.own k h), fun k h => htu.marker k (hst.marker k h),
    fun k h => htu.events k (hst.events k h)⟩

theorem Settled.leaves {i : ℕ} {s t : World × Closers} {scheduleId : ℤ}
    (h : Settled scheduleId s.1) (hst : Leaves i s t) : Settled scheduleId t.1 :=
  ⟨hst.marker _ h.marker, hst.events _ h.events⟩

def contract : Contract (World × Closers) Rep Task Link where
  inv := Inv
  rely := Leaves
  guar _ _ _ := True
  allowed := InOrder
  rely_refl := Leaves.refl
  rely_trans _ _ _ _ := Leaves.trans

/-- What a session has closed is settled when it returns. -/
def Post (_ : Task) (i : ℕ) (_ : Except Payments.AppError Response) (s : World × Closers) : Prop :=
  ∀ scheduleId, (i, scheduleId) ∈ s.2 → Settled scheduleId s.1

/-! ### Commands -/

section Commands

variable {n : Task} {i : ℕ} {l : Link} {c : Cmd} {s t : World × Closers} {r : Rep c}

/-- What a command does beside the rows: it sets or removes a marker, or publishes an event. -/
inductive Effect (s : World) (c : Cmd) (l : Link) (t : World) : Prop where
  | none : t.closedKeys = s.closedKeys → t.published = s.published → t.gateways = s.gateways →
      Effect s c l t
  | marker (scheduleId : ℤ) (closed : Bool) : l ≠ .lost →
      c = (if closed then .setClosedKey scheduleId else .delClosedKey scheduleId) →
        t.closedKeys = Redis.setAt s.closedKeys scheduleId closed → t.published = s.published →
          t.gateways = s.gateways → Effect s c l t
  | publish (event : LifecycleEvent) : l ≠ .lost → c = .publish event →
      t.closedKeys = s.closedKeys → t.published = s.published ++ [event] →
        t.gateways = s.gateways → Effect s c l t

theorem Effect.deliver {s : World} {c : Cmd} {l : Link} {ρ : Type} {run : World → World × ρ}
    {t : World} {r : Option ρ} (h : l.deliver run s = (t, r))
    (hrun : l ≠ .lost → Effect s c l (run s).1) : Effect s c l t := by
  cases l with
  | ok =>
      obtain ⟨rfl, -⟩ := Prod.mk.inj h
      exact hrun nofun
  | lost =>
      obtain ⟨rfl, -⟩ := Prod.mk.inj h
      exact .none rfl rfl rfl
  | unacked =>
      obtain ⟨rfl, -⟩ := Prod.mk.inj h
      exact hrun nofun

theorem effect_of_exec {s t : World} (h : exec i l c s = some (t, r)) : Effect s c l t := by
  cases c with
  | start scheduleId =>
      refine .deliver (Option.some.inj h) fun _ => ?_
      unfold World.start
      split
      · exact .none rfl rfl rfl
      · split <;> exact .none rfl rfl rfl
  | close scheduleId =>
      refine .deliver (Option.some.inj h) fun _ => ?_
      unfold World.close
      split
      · exact .none rfl rfl rfl
      · split <;> exact .none rfl rfl rfl
  | connect => exact .deliver (Option.some.inj h) fun _ => .none rfl rfl rfl
  | findSchedule scheduleId => exact .deliver (Option.some.inj h) fun _ => .none rfl rfl rfl
  | markDeleted scheduleId => exact .deliver (Option.some.inj h) fun _ => .none rfl rfl rfl
  | setClosedKey scheduleId =>
      exact .deliver (Option.some.inj h) fun hl => .marker scheduleId true hl rfl rfl rfl rfl
  | delClosedKey scheduleId =>
      exact .deliver (Option.some.inj h) fun hl => .marker scheduleId false hl rfl rfl rfl rfl
  | publish event => exact .deliver (Option.some.inj h) fun hl => .publish event hl rfl rfl rfl rfl

theorem setAt_true {f : ℤ → Bool} {a b : ℤ} {v : Bool} (h : f b = true)
    (hv : v = false → f a = false) : Redis.setAt f a v b = true := by
  unfold Redis.setAt
  split_ifs with hb
  · subst hb
    cases v with
    | true => rfl
    | false =>
        rw [hv rfl] at h
        cases h
  · exact h

/-- A command in order disturbs no marker and no event. -/
theorem leaves_of_exec {j : ℕ} {s t : World} {log log' : Closers} (h : exec i l c s = some (t, r))
    (hallowed : InOrder n i l c (s, log))
    (hown : ∀ scheduleId, (j, scheduleId) ∈ log' → (j, scheduleId) ∈ log) :
    Leaves j (s, log) (t, log') := by
  refine ⟨hown, ?_, ?_⟩
  · show ∀ scheduleId, s.closedKeys scheduleId = true → t.closedKeys scheduleId = true
    cases effect_of_exec h with
    | none hkeys => exact fun k hk => hkeys ▸ hk
    | publish event hl hc hkeys => exact fun k hk => hkeys ▸ hk
    | marker scheduleId closed hl hc hkeys =>
        intro k hk
        rw [hkeys]
        refine setAt_true hk fun hclosed => ?_
        subst hclosed hc
        exact hallowed hl
  · show ∀ scheduleId, closedAfter s.published scheduleId = true →
      closedAfter t.published scheduleId = true
    cases effect_of_exec h with
    | none _ hpub => exact fun k hk => hpub ▸ hk
    | marker _ _ _ _ _ hpub => exact fun k hk => hpub ▸ hk
    | publish event hl hc _ hpub =>
        intro k hk
        rw [hpub, closedAfter_append]
        subst hc
        cases event with
        | scheduleClosed scheduleId => exact setAt_true hk nofun
        | scheduleOpened scheduleId => exact setAt_true hk fun _ => hallowed hl

theorem mem_record {k : ℤ} {j : ℕ} {s : World} {log : Closers} (h : (j, k) ∈ record n i l c s log) :
    (j, k) ∈ log ∨ (j = i ∧ closes c s = some k) := by
  unfold record at h
  split_ifs at h
  · exact .inl h
  · rcases List.mem_append.1 h with h | h
    · exact .inl h
    · obtain ⟨k', hk', heq⟩ := Option.map_eq_some_iff.1 (Option.mem_toList.1 h)
      obtain ⟨rfl, rfl⟩ := Prod.mk.inj heq
      exact .inr ⟨rfl, hk'⟩

theorem record_subset {s : World} {log : Closers} : log ⊆ record n i l c s log := by
  unfold record
  split_ifs
  · exact fun _ h => h
  · exact fun _ h => List.mem_append_left _ h

theorem inv_of_exec (hs : Inv s) (h : exec i l c s.1 = some (t.1, r))
    (hlog : t.2 = record n i l c s.1 s.2) : Inv t := by
  have hup := updates_of_exec h
  have heff := effect_of_exec h
  have hgate : t.1.gateways = s.1.gateways := by cases heff <;> assumption
  have hprefix : s.1.published <+: t.1.published := by
    cases heff with
    | none _ hpub => exact hpub ▸ List.prefix_rfl
    | marker _ _ _ _ _ hpub => exact hpub ▸ List.prefix_rfl
    | publish event _ _ _ hpub => exact hpub ▸ List.prefix_append _ _
  refine ⟨(hup.keeps hs.rows).rows, fun x hx hc => ?_, fun g => ?_, fun g k hk => ?_⟩
  · have hold : ∀ y ∈ s.1.schedules, y.lifecycleState = .closed → ∃ j, (j, y.id) ∈ t.2 := by
      intro y hy hyc
      obtain ⟨j, hj⟩ := hs.closers y hy hyc
      exact ⟨j, hlog ▸ record_subset hj⟩
    cases hup with
    | same heq => exact hold x (heq ▸ hx) hc
    | opens scheduleId current hfind hstate heq =>
        rw [heq] at hx
        rcases Table.mem_updateWhere_cases hx with ⟨hx, -⟩ | ⟨y, hy, -, rfl⟩
        · exact hold x hx hc
        · cases hc
    | closes scheduleId f hf hcloses hl heq =>
        rw [heq] at hx
        rcases Table.mem_updateWhere_cases hx with ⟨hx, -⟩ | ⟨y, hy, hin, rfl⟩
        · exact hold x hx hc
        · refine ⟨i, ?_⟩
          rw [hlog, (hf y).1, of_decide_eq_true hin]
          simp [record, hl, hcloses]
  · rw [hgate]
    exact (hs.handled g).trans hprefix.length_le
  · rw [hgate] at hk ⊢
    obtain ⟨more, hmore⟩ := hprefix
    rw [← hmore, List.take_append_of_le_length (hs.handled g)] at hk
    exact hs.closedShows g k hk

theorem honours (hs : Inv s) (hallowed : InOrder n i l c s)
    (h : machine.exec n i l c s = some (t, r)) : contract.Honours n i s t := by
  obtain ⟨hex, hlog⟩ := Machine.logged_exec.1 h
  refine ⟨inv_of_exec hs hex hlog, trivial, fun j hne => ?_⟩
  refine leaves_of_exec hex hallowed fun k hk => ?_
  rw [hlog] at hk
  exact (mem_record hk).resolve_right fun h => hne h.1

/-- A command that closes nothing. -/
def Quiet (c : Cmd) : Prop :=
  ∀ s, closes c s = none

theorem quiet_step (hc : Quiet c) (hs : Inv s) (hallowed : InOrder n i l c s)
    (h : machine.exec n i l c s = some (t, r)) : contract.Honours n i s t ∧ Leaves i s t := by
  obtain ⟨hex, hlog⟩ := Machine.logged_exec.1 h
  refine ⟨honours hs hallowed h, leaves_of_exec hex hallowed fun k hk => ?_⟩
  rw [hlog] at hk
  refine (mem_record hk).resolve_right fun h => ?_
  rw [hc] at h
  cases h.2

end Commands

/-! ### Handlers -/

section Handlers

variable {n : Task} {i : ℕ} {s : World × Closers} {scheduleId : ℤ}

/-- A handler meets its contract. -/
abbrev Meets (n : Task) (i : ℕ) (p : Service (Except Payments.AppError Response))
    (s : World × Closers) : Prop :=
  contract.Ensures (machine.exec n) n i (Post n i) p s

/-- The session has closed nothing but this schedule. -/
def ClosedOnly (i : ℕ) (scheduleId : ℤ) (s : World × Closers) : Prop :=
  ∀ k, (i, k) ∈ s.2 → k = scheduleId

def ClosedNone (i : ℕ) (s : World × Closers) : Prop :=
  ∀ k, (i, k) ∉ s.2

theorem ClosedOnly.leaves {t : World × Closers} (h : ClosedOnly i scheduleId s)
    (hst : Leaves i s t) : ClosedOnly i scheduleId t :=
  fun k hk => h k (hst.own k hk)

theorem ClosedNone.leaves {t : World × Closers} (h : ClosedNone i s) (hst : Leaves i s t) :
    ClosedNone i t :=
  fun k hk => h k (hst.own k hk)

theorem meets_ret {r : Except Payments.AppError Response} (h : ClosedNone i s) :
    Meets n i (.ret r) s :=
  .ret fun _ hst _ k hk => absurd hk ((h.leaves hst) k)

/-- A command that closes nothing, in a session that has closed nothing. -/
theorem meets_quiet {c : Cmd} {k : Rep c → Service (Except Payments.AppError Response)}
    (hc : Quiet c) (h : ClosedNone i s) (hk : ∀ r t, ClosedNone i t → Meets n i (k r) t) :
    Meets n i (.call c k) s := by
  refine .call fun t hst ht l hl u r hex => ?_
  obtain ⟨hu, htu⟩ := quiet_step hc ht hl hex
  exact ⟨hu, hk r u ((h.leaves hst).leaves htu)⟩

theorem meets_startSchedule (h : ClosedNone i s) : Meets n i (startSchedule scheduleId) s := by
  refine meets_quiet (fun _ => rfl) h fun r t ht => ?_
  match r with
  | none => exact meets_ret ht
  | some () =>
  refine meets_quiet (fun _ => rfl) ht fun r u hu => ?_
  match r with
  | none => exact meets_ret hu
  | some (.error e) => exact meets_ret hu
  | some (.ok ()) =>
  refine meets_quiet (fun _ => rfl) hu fun r v hv => ?_
  match r with
  | none => exact meets_ret hv
  | some () =>
  refine meets_quiet (fun _ => rfl) hv fun r w hw => ?_
  match r with
  | none => exact meets_ret hw
  | some () => exact meets_ret hw

/-- From the commit of a close on: the marker and the event both get through. -/
theorem meets_announce {response : Response} (h : ClosedOnly i scheduleId s) :
    Meets n i (announce (.scheduleClosed scheduleId) response) s := by
  refine .call fun t hst ht l hl u r hex => ?_
  obtain ⟨hu, htu⟩ := quiet_step (c := .setClosedKey scheduleId) (fun _ => rfl) ht hl hex
  refine ⟨hu, ?_⟩
  have hl : l = .ok := hl
  subst hl
  obtain ⟨hrun, -⟩ := Machine.logged_exec.1 hex
  obtain ⟨hu1, rfl⟩ := Prod.mk.inj (Option.some.inj hrun)
  have hmarker : u.1.closedKeys scheduleId = true := by
    rw [← hu1]
    exact if_pos rfl
  refine .call fun v huv hv l hl w r hex => ?_
  obtain ⟨hw, hvw⟩ := quiet_step (c := .publish (.scheduleClosed scheduleId)) (fun _ => rfl) hv hl hex
  refine ⟨hw, ?_⟩
  have hl : l = .ok := hl
  subst hl
  obtain ⟨hrun, -⟩ := Machine.logged_exec.1 hex
  obtain ⟨hw1, rfl⟩ := Prod.mk.inj (Option.some.inj hrun)
  have hevents : closedAfter w.1.published scheduleId = true := by
    rw [← hw1]
    show closedAfter (v.1.published ++ [.scheduleClosed scheduleId]) scheduleId = true
    rw [closedAfter_append]
    exact if_pos rfl
  have hmarker' := hvw.marker _ (huv.marker _ hmarker)
  refine .ret fun x hwx _ k hk => ?_
  have honly := (((h.leaves hst).leaves htu).leaves huv).leaves hvw
  obtain rfl := honly.leaves hwx k hk
  exact Settled.leaves ⟨hmarker', hevents⟩ hwx

/-- What a session that had closed nothing has closed by a command. -/
theorem closed_by {l : Link} {c : Cmd} {t u : World × Closers} {r : Rep c} (h : ClosedNone i t)
    (hex : machine.exec n i l c t = some (u, r)) {k : ℤ} (hk : (i, k) ∈ u.2) :
    l ≠ .lost ∧ closes c t.1 = some k := by
  rw [(Machine.logged_exec.1 hex).2] at hk
  have hl : l ≠ .lost := by
    rintro rfl
    exact h k hk
  exact ⟨hl, ((mem_record hk).resolve_left (h k)).2⟩

/-- A close that is refused closes nothing. -/
theorem closes_of_error {l : Link} {t u : World × Closers} {e : Payments.AppError}
    (hex : machine.exec n i l (.close scheduleId) t = some (u, some (.error e))) :
    closes (.close scheduleId) t.1 = none := by
  have hrun : l.deliver (World.close scheduleId) t.1 = (u.1, some (.error e)) :=
    Option.some.inj (Machine.logged_exec.1 hex).1
  rcases Link.deliver_cases hrun with ⟨-, h⟩ | ⟨-, h | h⟩
  · cases h
  · cases h
  · unfold World.close at h
    cases hfind : t.1.findSchedule scheduleId with
    | none => simp [closes, hfind]
    | some current =>
        rw [hfind] at h
        cases hstate : current.lifecycleState <;> simp [hstate] at h

theorem lost_of_unanswered {ρ : Type} {run : World → World × ρ} {l : Link} {s t : World}
    (h : l.deliver run s = (t, none)) (hl : l ≠ .unacked) : l = .lost := by
  cases l with
  | ok => cases congrArg Prod.snd h
  | lost => rfl
  | unacked => exact absurd rfl hl

theorem meets_closeSchedule (h : ClosedNone i s) : Meets n i (closeSchedule scheduleId) s := by
  refine meets_quiet (fun _ => rfl) h fun r s hs => ?_
  match r with
  | none => exact meets_ret hs
  | some () =>
  refine .call fun t hst ht l hl u r hex => ⟨honours (c := .close scheduleId) ht hl hex, ?_⟩
  have hnone := hs.leaves hst
  have honly : ClosedOnly i scheduleId u := by
    intro k hk
    obtain ⟨-, hcloses⟩ := closed_by hnone hex hk
    obtain ⟨-, -, rfl⟩ := Option.map_eq_some_iff.1 hcloses
    rfl
  match r with
  | none =>
      -- no answer: the transaction was not committed
      refine meets_ret fun k hk => (closed_by hnone hex hk).1 ?_
      exact lost_of_unanswered (Option.some.inj (Machine.logged_exec.1 hex).1) hl
  | some (.error e) =>
      refine meets_ret fun k hk => ?_
      have hcloses := (closed_by hnone hex hk).2
      rw [closes_of_error hex] at hcloses
      cases hcloses
  | some (.ok ()) => exact meets_announce honly

theorem meets_deleteSchedule (h : ClosedNone i s) : Meets n i (deleteSchedule scheduleId) s := by
  refine meets_quiet (fun _ => rfl) h fun r s hs => ?_
  match r with
  | none => exact meets_ret hs
  | some () =>
  refine meets_quiet (fun _ => rfl) hs fun r s hs => ?_
  match r with
  | none => exact meets_ret hs
  | some none => exact meets_ret hs
  | some (some row) =>
  refine .call fun t hst ht l hl u r hex => ⟨honours (c := .markDeleted scheduleId) ht hl hex, ?_⟩
  have hnone := hs.leaves hst
  match r with
  | none =>
      refine meets_ret fun k hk => (closed_by hnone hex hk).1 ?_
      exact lost_of_unanswered (Option.some.inj (Machine.logged_exec.1 hex).1) hl
  | some () =>
      refine meets_announce fun k hk => ?_
      exact (Option.some.inj (closed_by hnone hex hk).2).symm

end Handlers

/-! ## Runs -/

/-- The environment writes no marker and publishes nothing; a gateway handles an event or finds a
marker. -/
theorem gateways_of_environ {x : Environ} {s t : World}
    {new : List (Task × Service (Except Payments.AppError Response))}
    (h : environ x s = some (t, new)) :
    t.closedKeys = s.closedKeys ∧ t.published = s.published ∧
      (t.gateways = s.gateways ∨
        (∃ g event, s.published[(s.gateways g).handled]? = some event ∧
          t.gateways = Function.update s.gateways g
            ⟨handleScheduleLifecycleMessage event (s.gateways g).closedShows,
              (s.gateways g).handled + 1⟩) ∨
        ∃ g scheduleId, t.gateways = Function.update s.gateways g
          ⟨Redis.setAt (s.gateways g).closedShows scheduleId true, (s.gateways g).handled⟩) := by
  cases x with
  | tick d | start scheduleId | close scheduleId | delete scheduleId =>
      obtain ⟨rfl, -⟩ := Prod.mk.inj (Option.some.inj h)
      exact ⟨rfl, rfl, .inl rfl⟩
  | create scheduleId =>
      simp only [environ] at h
      split_ifs at h
      obtain ⟨rfl, -⟩ := Prod.mk.inj (Option.some.inj h)
      exact ⟨rfl, rfl, .inl rfl⟩
  | handle g =>
      simp only [environ, World.handleNext, Option.map_map, Option.map_eq_some_iff] at h
      obtain ⟨event, hevent, h⟩ := h
      obtain ⟨rfl, -⟩ := Prod.mk.inj h
      exact ⟨rfl, rfl, .inr (.inl ⟨g, event, hevent, rfl⟩)⟩
  | findMarker g scheduleId =>
      simp only [environ, World.findMarker] at h
      split_ifs at h
      · obtain ⟨rfl, -⟩ := Prod.mk.inj (Option.some.inj h)
        exact ⟨rfl, rfl, .inr (.inr ⟨g, scheduleId, rfl⟩)⟩
      · cases h

/-- A gateway that handles the next event keeps at least the closed shows of the events. -/
theorem handled_next {published : List LifecycleEvent} {x : Gateway} {event : LifecycleEvent}
    (hnext : published[x.handled]? = some event)
    (h : ∀ k, closedAfter (published.take x.handled) k = true → x.closedShows k = true) (k : ℤ)
    (hk : closedAfter (published.take (x.handled + 1)) k = true) :
    handleScheduleLifecycleMessage event x.closedShows k = true := by
  rw [List.take_add_one, hnext, Option.toList_some, closedAfter_append] at hk
  cases event with
  | scheduleClosed scheduleId =>
      simp only [handleScheduleLifecycleMessage, Redis.setAt] at hk ⊢
      split_ifs at hk ⊢ with heq
      · rfl
      · exact h k hk
  | scheduleOpened scheduleId =>
      simp only [handleScheduleLifecycleMessage, Redis.setAt] at hk ⊢
      split_ifs at hk ⊢ with heq
      exact h k hk

theorem inv_of_environ {x : Environ} {s t : World × Closers}
    {new : List (Task × Service (Except Payments.AppError Response))} (hs : Inv s)
    (h : environ x s.1 = some (t.1, new)) (hlog : t.2 = s.2) : Inv t := by
  obtain ⟨-, hpub, hgates⟩ := gateways_of_environ h
  refine ⟨(keeps_of_environ hs.rows h).rows, fun r hr hc => ?_, fun g => ?_, fun g k hk => ?_⟩
  · rw [hlog]
    rcases schedules_of_environ h with heq | ⟨scheduleId, -, heq⟩
    · exact hs.closers r (heq ▸ hr) hc
    · rw [heq] at hr
      rcases List.mem_append.1 hr with hr | hr
      · exact hs.closers r hr hc
      · rw [List.mem_singleton.1 hr] at hc
        cases hc
  · rw [hpub]
    rcases hgates with heq | ⟨g', event, hnext, heq⟩ | ⟨g', scheduleId, heq⟩
    · rw [heq]
      exact hs.handled g
    · rw [heq]
      rcases eq_or_ne g g' with rfl | hne
      · rw [Function.update_self]
        exact (List.getElem?_eq_some_iff.1 hnext).1
      · rw [Function.update_of_ne hne]
        exact hs.handled g
    · rw [heq]
      rcases eq_or_ne g g' with rfl | hne
      · rw [Function.update_self]
        exact hs.handled g
      · rw [Function.update_of_ne hne]
        exact hs.handled g
  · rw [hpub] at hk
    rcases hgates with heq | ⟨g', event, hnext, heq⟩ | ⟨g', scheduleId, heq⟩
    · rw [heq] at hk ⊢
      exact hs.closedShows g k hk
    · rw [heq] at hk ⊢
      rcases eq_or_ne g g' with rfl | hne
      · rw [Function.update_self] at hk ⊢
        exact handled_next hnext (hs.closedShows g) k hk
      · rw [Function.update_of_ne hne] at hk ⊢
        exact hs.closedShows g k hk
    · rw [heq] at hk ⊢
      rcases eq_or_ne g g' with rfl | hne
      · rw [Function.update_self] at hk ⊢
        exact setAt_true (hs.closedShows g k hk) nofun
      · rw [Function.update_of_ne hne] at hk ⊢
        exact hs.closedShows g k hk

/-- The environment keeps the invariant, disturbs no session, and starts handlers. -/
theorem environ_meets : machine.EnvironMeets contract Post fun _ _ => True := by
  intro x s t new hs _ hx
  obtain ⟨hrun, hlog⟩ := Machine.logged_environ.1 hx
  obtain ⟨hkeys, hpub, -⟩ := gateways_of_environ hrun
  have hleaves : ∀ j, Leaves j s t :=
    fun j => ⟨fun k hk => hlog ▸ hk, fun k hk => hkeys ▸ hk, fun k hk => hpub ▸ hk⟩
  refine ⟨inv_of_environ hs hrun hlog, hleaves, fun i n p hp hun => ?_⟩
  have hclean : ClosedNone i t := by
    obtain ⟨s₀, ⟨-, hempty⟩, hrely⟩ := hun
    intro k hk
    have hmem := hrely.own k hk
    rw [hempty] at hmem
    cases hmem
  cases x with
  | start scheduleId =>
      obtain ⟨-, rfl⟩ := Prod.mk.inj (Option.some.inj hrun)
      obtain ⟨rfl, rfl⟩ := Prod.mk.inj (List.mem_singleton.1 hp)
      exact meets_startSchedule hclean
  | close scheduleId =>
      obtain ⟨-, rfl⟩ := Prod.mk.inj (Option.some.inj hrun)
      obtain ⟨rfl, rfl⟩ := Prod.mk.inj (List.mem_singleton.1 hp)
      exact meets_closeSchedule hclean
  | delete scheduleId =>
      obtain ⟨-, rfl⟩ := Prod.mk.inj (Option.some.inj hrun)
      obtain ⟨rfl, rfl⟩ := Prod.mk.inj (List.mem_singleton.1 hp)
      exact meets_deleteSchedule hclean
  | tick d =>
      obtain ⟨-, rfl⟩ := Prod.mk.inj (Option.some.inj hrun)
      exact absurd hp List.not_mem_nil
  | create scheduleId =>
      have hrun : environ (.create scheduleId) s.1 = some (t.1, new) := hrun
      simp only [environ] at hrun
      split_ifs at hrun
      obtain ⟨-, rfl⟩ := Prod.mk.inj (Option.some.inj hrun)
      exact absurd hp List.not_mem_nil
  | handle g =>
      obtain ⟨u, -, heq⟩ := Option.map_eq_some_iff.1 hrun
      obtain ⟨-, rfl⟩ := Prod.mk.inj heq
      exact absurd hp List.not_mem_nil
  | findMarker g scheduleId =>
      obtain ⟨u, -, heq⟩ := Option.map_eq_some_iff.1 hrun
      obtain ⟨-, rfl⟩ := Prod.mk.inj heq
      exact absurd hp List.not_mem_nil

section Runs

variable {p q : LifecyclePool}

theorem fulfils (h : machine.system.ReachableUnder InOrderRun p) :
    machine.Fulfils contract Post p := by
  refine Machine.ensures_of_reachable ?_ environ_meets ?_ h
  · rintro s ⟨hs, hempty⟩
    have hs : s.1 = newWorld := hs
    refine ⟨?_, ?_, ?_, ?_⟩ <;> rw [hs] <;> simp [Rows, newWorld, closedAfter]
  · intro i s hs
    exact ⟨hs, fun j _ => .refl j s⟩

/-- Every handler has returned, and these gateways have handled every event. -/
structure AllHandled (gates : List ℕ) (p : LifecyclePool) : Prop where
  returned : ∀ i < p.threads.length, (p.result i).isSome = true
  handled : ∀ g ∈ gates, (p.store.1.gateways g).handled = p.store.1.published.length

instance {gates : List ℕ} : Decidable (AllHandled gates p) :=
  decidable_of_iff ((∀ i < p.threads.length, (p.result i).isSome = true) ∧
    ∀ g ∈ gates, (p.store.1.gateways g).handled = p.store.1.published.length)
    ⟨fun h => ⟨h.1, h.2⟩, fun h => ⟨h.returned, h.handled⟩⟩

/-- A schedule closed in PostgreSQL is closed in Redis and at these gateways. -/
def Agree (gates : List ℕ) (s : World) : Prop :=
  ∀ r ∈ s.schedules, r.lifecycleState = .closed →
    s.closedKeys r.id = true ∧ ∀ g ∈ gates, (s.gateways g).closedShows r.id = true

theorem agree_of_run {gates : List ℕ} (h : machine.system.ReachableUnder InOrderRun p)
    (hall : AllHandled gates p) : Agree gates p.store.1 := by
  intro r hr hc
  have hf := fulfils h
  obtain ⟨i, hi⟩ := hf.inv.closers r hr hc
  -- the session that closed the schedule has been started, and has returned
  have hlt : i < p.threads.length := by
    by_contra hlen
    obtain ⟨s₀, ⟨-, hempty⟩, hrely⟩ := hf.unstarted i (Nat.not_lt.1 hlen)
    have hmem := hrely.own r.id hi
    rw [hempty] at hmem
    cases hmem
  obtain ⟨⟨n, b⟩, hb⟩ := Option.isSome_iff_exists.1 (hall.returned i hlt)
  have hsettled := hf.returned (Pool.result_eq_some.1 hb) r.id hi
  refine ⟨hsettled.marker, fun g hg => hf.inv.closedShows g r.id ?_⟩
  rw [hall.handled g hg, List.take_length]
  exact hsettled.events

theorem keeps_of_exec {n : Task} {i : ℕ} {l : Link} {c : Cmd} {s t : World × Closers} {r : Rep c}
    (hs : Rows s.1) (h : machine.exec n i l c s = some (t, r)) : Keeps s.1 t.1 :=
  (updates_of_exec (i := i) (Machine.logged_exec.1 h).1).keeps hs

theorem rows_of_reachable (h : machine.system.Reachable p) : Rows p.store.1 := by
  refine Machine.store_invariant (I := fun s => Rows s.1) ?_ ?_ ?_ (fun _ _ hs => hs)
    (Machine.reachable_guarded (fun _ _ _ _ _ => trivial) h)
  · rintro s ⟨hs, -⟩
    have hs : s.1 = newWorld := hs
    simp [Rows, hs, newWorld]
  · intro n i l c s t r hs _ hex
    exact (keeps_of_exec hs hex).rows
  · intro x s t new hs _ hx
    exact (keeps_of_environ hs (Machine.logged_environ.1 hx).1).rows

theorem keeps_of_run (hp : machine.system.Reachable p)
    (hq : (machine.system.startingAt p).Reachable q) : Keeps p.store.1 q.store.1 := by
  refine Machine.store_kept (I := fun s => Keeps p.store.1 s.1) ?_ ?_ (fun _ _ hs => hs) ?_ hq
  · intro n i l c s t r hs hex
    exact hs.trans (keeps_of_exec hs.rows hex)
  · intro x s t new hs hx
    exact hs.trans (keeps_of_environ hs.rows (Machine.logged_environ.1 hx).1)
  · exact .of_eq (rows_of_reachable hp) rfl

/-- Closed schedules stay closed in PostgreSQL; in the runs whose steps are in order, the three stores
agree once everything is handled. -/
theorem closed_stores_agree (p : LifecyclePool) :
    (machine.system.Reachable p → ∀ q, (machine.system.startingAt p).Reachable q →
      StayClosed p.store.1 q.store.1) ∧
    (machine.system.ReachableUnder InOrderRun p → ∀ gates, AllHandled gates p →
      Agree gates p.store.1) :=
  ⟨fun hp _ hq => (keeps_of_run hp hq).closed, fun h _ hall => agree_of_run h hall⟩

end Runs

/-! ### Runs on fixed inputs -/

def steps (i n : ℕ) : List (Act Link Environ) :=
  List.replicate n (.run i .ok)

/-- A schedule is created and opened; a close of it commits. -/
def openedAndClosed : List (Act Link Environ) :=
  .environ (.create 1) :: .environ (.start 1) :: steps 0 4 ++ .environ (.close 1) :: steps 1 2

/-- The close publishes, and two gateways handle both events. -/
def publishedAndHandled : List (Act Link Environ) :=
  steps 1 2 ++ [.environ (.handle 0), .environ (.handle 1), .environ (.handle 0),
    .environ (.handle 1)]

theorem closed_stores_agree_handled :
    ∃ p q : LifecyclePool, (∃ r ∈ p.store.1.schedules, r.lifecycleState = .closed) ∧
      StayClosed p.store.1 q.store.1 ∧ AllHandled [0, 1] q ∧ Agree [0, 1] q.store.1 := by
  obtain ⟨p, q, hp, hq, h⟩ := System.exists_reachable_pair_of_runUnder machine.system InOrderRun
    (fun p q : LifecyclePool => decide ((∃ r ∈ p.store.1.schedules, r.lifecycleState = .closed) ∧
      AllHandled [0, 1] q))
    (s := ⟨(newWorld, []), []⟩) ⟨⟨rfl, rfl⟩, rfl⟩ openedAndClosed publishedAndHandled
    (by decide +kernel)
  obtain ⟨hclosed, hall⟩ := of_decide_eq_true h
  exact ⟨p, q, hclosed, (closed_stores_agree p).1 hp.reachable q hq.reachable, hall,
    (closed_stores_agree q).2 (hp.of_startingAt hq) [0, 1] hall⟩

/-- A start commits; a close runs from its commit to its event; then the start removes the marker and
publishes. -/
def startOvertaken : List (Act Link Environ) :=
  .environ (.create 1) :: .environ (.start 1) :: steps 0 2 ++ .environ (.close 1) :: steps 1 4 ++
    steps 0 2 ++ [.environ (.handle 0), .environ (.handle 0)]

/-- The schedule is closed, the marker is gone and the gateway lets requests for it in. -/
theorem closed_schedule_opened :
    ∃ p : LifecyclePool, machine.system.Reachable p ∧ AllHandled [0] p ∧
      ¬Agree [0] p.store.1 := by
  obtain ⟨p, hp, h⟩ := System.exists_reachable_of_run machine.system
    (fun p : LifecyclePool => decide (AllHandled [0] p ∧
      ∃ r ∈ p.store.1.schedules, r.lifecycleState = .closed ∧ p.store.1.closedKeys r.id = false))
    (s := ⟨(newWorld, []), []⟩) ⟨⟨rfl, rfl⟩, rfl⟩ startOvertaken (by decide +kernel)
  obtain ⟨hall, r, hr, hclosed, hmarker⟩ := of_decide_eq_true h
  refine ⟨p, hp, hall, fun hagree => ?_⟩
  rw [(hagree r hr hclosed).1] at hmarker
  cases hmarker

end Schedules
end Bookit

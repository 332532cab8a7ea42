import Bookit.Gateway.Effects

/-!
# Gateway.Admission — who holds the slot of a seat

A slot has no owner: it is taken by whoever finds it free, and cleared by cancel requests, room events
and expiry workers without asking whose it is, also while the lock task of the request that took it is
still queued or running.  And a schedule that closes and opens again has a new actor, whose slots are
free.  Beside the replicas we log the admissions that are outstanding.
-/

namespace Bookit
namespace Gateway

open Lib

/-! ## Slots -/

namespace ShowActor

variable {a b : ShowActor}

/-- A seat has a slot exactly where the slot is taken by the seat. -/
def Slots (a : ShowActor) : Prop :=
  ∀ k index, a.seatIndices k = some index ↔ a.seatIds index = k ∧ k ≠ 0

theorem slots_new (seatCount : ℕ) : (new seatCount).Slots := by
  intro k index
  constructor
  · intro h
    cases h
  · rintro ⟨rfl, hne⟩
    exact absurd rfl hne

theorem Slots.congr (h : a.Slots) (hindices : b.seatIndices = a.seatIndices)
    (hids : b.seatIds = a.seatIds) : b.Slots := by
  unfold Slots
  rw [hindices, hids]
  exact h

/-- A seat without a slot takes a free one. -/
theorem Slots.take (h : a.Slots) {seatId : ℤ} {index : ℕ} (hpos : seatId ≠ 0)
    (hfree : a.seatIds index = 0) (hnone : a.seatIndices seatId = none)
    (hindices : b.seatIndices = Redis.setAt a.seatIndices seatId (some index))
    (hids : b.seatIds = Redis.setAt a.seatIds index seatId) : b.Slots := by
  intro k j
  rw [hindices, hids]
  by_cases hk : k = seatId
  · subst hk
    rw [Redis.setAt_self]
    by_cases hj : j = index
    · subst hj
      simp [hpos]
    · rw [Redis.setAt_ne hj]
      refine ⟨fun heq => absurd (Option.some.inj heq).symm hj, fun heq => ?_⟩
      rw [(h k j).2 ⟨heq.1, hpos⟩] at hnone
      cases hnone
  · rw [Redis.setAt_ne hk]
    by_cases hj : j = index
    · subst hj
      rw [Redis.setAt_self]
      refine ⟨fun heq => ?_, fun heq => absurd heq.1.symm hk⟩
      obtain ⟨rfl, hne⟩ := (h k j).1 heq
      exact absurd hfree hne
    · rw [Redis.setAt_ne hj]
      exact h k j

/-- What a registration leaves of the slots. -/
theorem registerSeat_slots (h : a.Slots) (seatId oneBasedIndex : ℤ) :
    (a.registerSeat seatId oneBasedIndex).1.Slots ∧
      (∀ index, a.seatIds index ≠ 0 →
        (a.registerSeat seatId oneBasedIndex).1.seatIds index = a.seatIds index) ∧
      (a.registerSeat seatId oneBasedIndex).1.processing = a.processing := by
  have hself : a.Slots ∧ (∀ index, a.seatIds index ≠ 0 → a.seatIds index = a.seatIds index) ∧
      a.processing = a.processing := ⟨h, fun _ _ => rfl, rfl⟩
  unfold registerSeat
  by_cases hle : seatId ≤ 0
  · rw [if_pos hle]
    exact hself
  have hpos : seatId ≠ 0 := fun heq => hle heq.le
  rw [if_neg hle]
  by_cases hrange : 1 ≤ oneBasedIndex ∧ (oneBasedIndex - 1).toNat < a.seatCount
  · rw [if_neg (not_not.2 hrange)]
    generalize (oneBasedIndex - 1).toNat = index
    dsimp only
    cases hindex : a.seatIndices seatId with
    | some existing =>
        obtain ⟨hid, -⟩ := (h seatId existing).1 hindex
        dsimp only
        by_cases hne : existing = index
        · -- the seat has this slot already
          subst hne
          have hne0 : a.seatIds existing ≠ 0 := by
            rw [hid]
            exact hpos
          rw [if_neg (not_not.2 rfl), takeSlot, if_neg hne0, if_pos hid]
          exact hself
        · rw [if_pos hne]
          exact hself
    | none =>
        dsimp only
        unfold takeSlot
        split_ifs with hfree hid
        · refine ⟨h.take hpos hfree hindex rfl rfl, fun j hne => ?_, rfl⟩
          refine Redis.setAt_ne fun heq => hne ?_
          rw [heq]
          exact hfree
        · rw [(h seatId _).2 ⟨hid, hpos⟩] at hindex
          cases hindex
        · -- the mapping that was inserted is taken back
          refine ⟨h.congr ?_ rfl, fun _ _ => rfl, rfl⟩
          funext k
          by_cases hk : k = seatId
          · subst hk
            exact Redis.setAt_self.trans hindex.symm
          · exact (Redis.setAt_ne hk).trans (Redis.setAt_ne hk)
  · rw [if_pos hrange]
    exact hself

theorem clearSeat_fields (a : ShowActor) (seatId : ℤ) :
    (a.clearSeat seatId).seatIndices = a.seatIndices ∧ (a.clearSeat seatId).seatIds = a.seatIds := by
  unfold clearSeat
  split
  · exact ⟨rfl, rfl⟩
  · exact ⟨rfl, rfl⟩

/-- Clearing seats touches the slots of these seats only. -/
theorem clearSeats_processing (h : a.Slots) (seatIds : List ℤ) :
    (seatIds.foldl clearSeat a).Slots ∧ (seatIds.foldl clearSeat a).seatIds = a.seatIds ∧
      ∀ index, a.seatIds index ∉ seatIds →
        (seatIds.foldl clearSeat a).processing index = a.processing index := by
  induction seatIds generalizing a with
  | nil => exact ⟨h, rfl, fun _ _ => rfl⟩
  | cons k ks ih =>
      obtain ⟨hindices, hids⟩ := clearSeat_fields a k
      obtain ⟨hslots, hids', hproc⟩ := ih (h.congr hindices hids)
      refine ⟨hslots, hids'.trans hids, fun index hnot => ?_⟩
      rw [List.mem_cons, not_or] at hnot
      refine (hproc index (by rw [hids]; exact hnot.2)).trans ?_
      unfold clearSeat
      split
      · rfl
      · next j hj =>
        refine Redis.setAt_ne fun heq => hnot.1 ?_
        rw [heq]
        exact ((h k j).1 hj).1

theorem tryAdmit_cases (a : ShowActor) (index : ℕ) :
    (a.processing index = true ∧ a.tryAdmit index = (a, false)) ∨
    (a.processing index = false ∧ a.tryAdmit index =
      ({ a with processing := Redis.setAt a.processing index true }, true)) := by
  unfold tryAdmit
  cases h : a.processing index with
  | true => exact .inl ⟨rfl, rfl⟩
  | false => exact .inr ⟨rfl, rfl⟩

end ShowActor

/-! ## Replicas whose admissions stand -/

/-- The slots of all actors are registered, and the cell of a show was made for it. -/
structure Registered (t : State) : Prop where
  slots : ∀ cell a, t.actor cell = some a → a.Slots
  shows : ∀ showtimeId cell, t.showActors showtimeId = some cell →
    ∃ x, t.cells[cell]? = some x ∧ x.showtimeId = showtimeId

/-- Actors stay in their cells, seats in their slots, and taken slots stay taken. -/
structure Steady (t t' : State) : Prop where
  registered : Registered t → Registered t'
  cells : ∀ (cell : ℕ) (x : ActorCell) (a : ShowActor), t.cells[cell]? = some x → x.actor = some a →
    Registered t → ∃ a', t'.cells[cell]? = some ⟨x.showtimeId, some a'⟩ ∧
      (∀ index, a.seatIds index ≠ 0 → a'.seatIds index = a.seatIds index) ∧
      ∀ index, a.processing index = true → a'.processing index = true

namespace State

variable {t t' : State} {cell : ℕ} {a a' : ShowActor}

theorem actor_eq_some : t.actor cell = some a ↔ ∃ x, t.cells[cell]? = some x ∧ x.actor = some a :=
  Option.bind_eq_some_iff

theorem cells_setActor (t : State) (cell : ℕ) (a : ShowActor) (c : ℕ) :
    (t.setActor cell a).cells[c]? =
      (t.cells[c]?).map fun x => if cell = c then { x with actor := some a } else x := by
  simp only [setActor, List.getElem?_modify]
  by_cases h : cell = c
  · simp [h]
  · simp [h]

theorem steady_refl (t : State) : Steady t t :=
  ⟨fun h => h, fun _ x a hx ha _ => ⟨a, by rw [hx, ← ha], fun _ _ => rfl, fun _ h => h⟩⟩

/-- The cells are as they were, and so is the map where it still has a cell. -/
theorem steady_of_cells (hcells : t'.cells = t.cells)
    (hshows : ∀ k cell, t'.showActors k = some cell → t.showActors k = some cell) :
    Steady t t' := by
  refine ⟨fun h => ⟨fun cell a ha => h.slots cell a ?_, fun k cell hk => ?_⟩,
    fun cell x a hx ha _ => ⟨a, by rw [hcells, hx, ← ha], fun _ _ => rfl, fun _ h => h⟩⟩
  · rwa [State.actor, ← hcells]
  · rw [hcells]
    exact h.shows k cell (hshows k cell hk)

/-- An actor that is put in its cell, or in a new place. -/
theorem steady_setActor (hslots : Registered t → a.Slots)
    (hold : ∀ x b, t.cells[cell]? = some x → x.actor = some b → Registered t →
      (∀ index, b.seatIds index ≠ 0 → a.seatIds index = b.seatIds index) ∧
      ∀ index, b.processing index = true → a.processing index = true) :
    Steady t (t.setActor cell a) := by
  refine ⟨fun h => ⟨fun c b hb => ?_, fun k c hk => ?_⟩, fun c x b hx hb h => ?_⟩
  · obtain ⟨x, hx, hxb⟩ := actor_eq_some.1 hb
    rw [cells_setActor] at hx
    obtain ⟨y, hy, rfl⟩ := Option.map_eq_some_iff.1 hx
    split_ifs at hxb
    · obtain rfl := Option.some.inj hxb
      exact hslots h
    · exact h.slots c b (actor_eq_some.2 ⟨y, hy, hxb⟩)
  · obtain ⟨x, hx, hxk⟩ := h.shows k c hk
    rw [cells_setActor, hx]
    refine ⟨_, rfl, ?_⟩
    split_ifs <;> exact hxk
  · rw [cells_setActor, hx]
    by_cases hc : cell = c
    · subst hc
      obtain ⟨hids, hproc⟩ := hold x b hx hb h
      exact ⟨a, by simp, hids, hproc⟩
    · refine ⟨b, ?_, fun _ _ => rfl, fun _ h => h⟩
      simp [hc, ← hb]

/-- An operation on an actor that only registers seats and takes slots. -/
theorem steady_onActor {ρ : Type} {f : ShowActor → ShowActor × ρ} {r : ρ}
    (hf : ∀ a : ShowActor, a.Slots → (f a).1.Slots ∧
      (∀ index, a.seatIds index ≠ 0 → (f a).1.seatIds index = a.seatIds index) ∧
      ∀ index, a.processing index = true → (f a).1.processing index = true)
    (h : t.onActor cell f = some (t', r)) : Steady t t' := by
  obtain ⟨a, ha, heq⟩ := Option.map_eq_some_iff.1 h
  obtain ⟨rfl, -⟩ := Prod.mk.inj heq
  refine steady_setActor (fun hreg => (hf a (hreg.slots cell a ha)).1) fun x b hx hb hreg => ?_
  obtain rfl : a = b := by
    rw [actor_eq_some.2 ⟨x, hx, hb⟩] at ha
    exact (Option.some.inj ha).symm
  exact (hf a (hreg.slots cell a ha)).2

theorem steady_actorCell (showtimeId : ℤ) (t : State) : Steady t (t.actorCell showtimeId).1 := by
  unfold actorCell
  cases hk : t.showActors showtimeId with
  | some cell => exact steady_refl t
  | none =>
      have hlast : ∀ (c : ℕ) (x : ActorCell), (t.cells ++ [ActorCell.mk showtimeId none])[c]? = some x →
          t.cells[c]? = some x ∨ x = ActorCell.mk showtimeId none := by
        intro c x hx
        rw [List.getElem?_append] at hx
        split_ifs at hx
        · exact .inl hx
        · exact .inr (List.mem_singleton.1 (List.mem_of_getElem? hx))
      have hold : ∀ (c : ℕ) (x : ActorCell), t.cells[c]? = some x →
          (t.cells ++ [ActorCell.mk showtimeId none])[c]? = some x := by
        intro c x hx
        rw [List.getElem?_append, if_pos (List.getElem?_eq_some_iff.1 hx).1]
        exact hx
      refine ⟨fun h => ⟨fun c b hb => ?_, fun k c hk' => ?_⟩, fun c x b hx hb _ => ⟨b, ?_,
        fun _ _ => rfl, fun _ h => h⟩⟩
      · obtain ⟨x, hx, hxb⟩ := actor_eq_some.1 hb
        rcases hlast c x hx with hx | rfl
        · exact h.slots c b (actor_eq_some.2 ⟨x, hx, hxb⟩)
        · cases hxb
      · by_cases hkk : k = showtimeId
        · subst hkk
          obtain rfl := Option.some.inj (Redis.setAt_self.symm.trans hk')
          refine ⟨⟨k, none⟩, ?_, rfl⟩
          simp
        · obtain ⟨x, hx, hxk⟩ := h.shows k c ((Redis.setAt_ne hkk).symm.trans hk')
          exact ⟨x, hold c x hx, hxk⟩
      · rw [hold c x hx, ← hb]

theorem steady_initCell (cell seatCount : ℕ) (t : State) : Steady t (t.initCell cell seatCount).1 := by
  unfold initCell
  split
  · exact steady_refl t
  · exact steady_refl t
  · next showtimeId hcell =>
    split_ifs
    · exact steady_refl t
    · refine steady_setActor (fun _ => ShowActor.slots_new seatCount) fun x b hx hb _ => ?_
      rw [hcell] at hx
      obtain rfl := Option.some.inj hx
      cases hb

theorem steady_checkOpen (cell : ℕ) (showtimeId : ℤ) (seatCount : ℕ) (t : State) :
    Steady t (t.checkOpen cell showtimeId seatCount).1 := by
  unfold checkOpen
  cases ha : t.actor cell with
  | none => exact steady_refl t
  | some a =>
      dsimp only
      split_ifs
      · refine steady_setActor (fun h => (h.slots cell a ha).congr rfl rfl) fun x b hx hb _ => ?_
        rw [actor_eq_some.2 ⟨x, hx, hb⟩] at ha
        obtain rfl := Option.some.inj ha
        exact ⟨fun _ _ => rfl, fun _ h => h⟩
      · exact steady_refl t
      · exact steady_refl t

theorem registered_clearAdmission {t : State} (h : Registered t) (showtimeId : ℤ)
    (seatIds : List ℤ) : Registered (t.clearAdmission showtimeId seatIds) := by
  unfold clearAdmission
  split
  · exact h
  · next cell hcell =>
    split
    · exact h
    · next a ha =>
      have hslots := (ShowActor.clearSeats_processing (h.slots cell a ha) seatIds).1
      refine ⟨fun c b hb => ?_, fun k c hk => ?_⟩
      · obtain ⟨x, hx, hxb⟩ := actor_eq_some.1 hb
        rw [cells_setActor] at hx
        obtain ⟨y, hy, rfl⟩ := Option.map_eq_some_iff.1 hx
        split_ifs at hxb
        · obtain rfl := Option.some.inj hxb
          exact hslots
        · exact h.slots c b (actor_eq_some.2 ⟨y, hy, hxb⟩)
      · obtain ⟨x, hx, hxk⟩ := h.shows k c hk
        rw [cells_setActor, hx]
        refine ⟨_, rfl, ?_⟩
        split_ifs <;> exact hxk

end State

/-! ## Steps of the world -/

namespace World

variable {s t : World} {g : ℕ}

theorem steady_setGateway {u : State} (h : Steady (s.gateways g) u) (g' : ℕ) :
    Steady (s.gateways g') ((s.setGateway g u).gateways g') := by
  show Steady (s.gateways g') (Redis.setAt s.gateways g u g')
  by_cases hg : g' = g
  · subst hg
    rw [Redis.setAt_self]
    exact h
  · rw [Redis.setAt_ne hg]
    exact State.steady_refl _

theorem steady_onActor {ρ : Type} {cell : ℕ} {f : ShowActor → ShowActor × ρ} {r : ρ}
    (hf : ∀ a : ShowActor, a.Slots → (f a).1.Slots ∧
      (∀ index, a.seatIds index ≠ 0 → (f a).1.seatIds index = a.seatIds index) ∧
      ∀ index, a.processing index = true → (f a).1.processing index = true)
    (h : s.onActor g cell f = some (t, r)) (g' : ℕ) : Steady (s.gateways g') (t.gateways g') := by
  obtain ⟨⟨u, r'⟩, hu, heq⟩ := Option.map_eq_some_iff.1 h
  obtain ⟨rfl, -⟩ := Prod.mk.inj heq
  exact steady_setGateway (State.steady_onActor hf hu) g'

/-- An operation that changes neither the seats of the slots nor which are taken. -/
theorem steady_onActor_fields {ρ : Type} {cell : ℕ} {f : ShowActor → ShowActor × ρ} {r : ρ}
    (hindices : ∀ a, (f a).1.seatIndices = a.seatIndices) (hids : ∀ a, (f a).1.seatIds = a.seatIds)
    (hproc : ∀ a, (f a).1.processing = a.processing) (h : s.onActor g cell f = some (t, r)) (g' : ℕ) :
    Steady (s.gateways g') (t.gateways g') := by
  refine steady_onActor (fun a ha => ⟨ha.congr (hindices a) (hids a), fun _ _ => ?_, fun _ hp => ?_⟩)
    h g'
  · rw [hids]
  · rw [hproc]
    exact hp

end World

/-- The commands that clear slots. -/
def Clears : Cmd → Prop
  | .clearAdmission .. => True
  | .handleEvent _ => True
  | _ => False

/-- The queue of an actor has nothing to do with its slots. -/
theorem enqueue_fields (task : GatewayTask) (a : ShowActor) :
    (a.enqueue task).1.seatIndices = a.seatIndices ∧ (a.enqueue task).1.seatIds = a.seatIds ∧
      (a.enqueue task).1.processing = a.processing := by
  unfold ShowActor.enqueue
  split_ifs
  · exact ⟨rfl, rfl, rfl⟩
  · exact ⟨rfl, rfl, rfl⟩

theorem steady_exec {i : ℕ} {l : Link} {c : Cmd} {s t : World} {r : Rep c}
    (h : exec i l c s = some (t, r)) (hc : ¬Clears c) (g' : ℕ) :
    Steady (s.gateways g') (t.gateways g') := by
  cases c with
  | service c =>
      obtain ⟨x, -, heq⟩ := Option.map_eq_some_iff.1 h
      obtain ⟨rfl, -⟩ := Prod.mk.inj heq
      exact State.steady_refl _
  | isClosed g showtimeId =>
      obtain ⟨rfl, -⟩ := Prod.mk.inj (Option.some.inj h)
      exact State.steady_refl _
  | hasCell g showtimeId =>
      obtain ⟨rfl, -⟩ := Prod.mk.inj (Option.some.inj h)
      exact State.steady_refl _
  | existsClosedKey showtimeId =>
      obtain rfl : s = t := by
        cases l <;> exact (Prod.mk.inj (Option.some.inj h)).1
      exact State.steady_refl _
  | insertClosed g showtimeId =>
      obtain ⟨rfl, -⟩ := Prod.mk.inj (Option.some.inj h)
      refine World.steady_setGateway ?_ g'
      exact State.steady_of_cells rfl fun _ _ hk => hk
  | removeCell g showtimeId =>
      obtain ⟨rfl, -⟩ := Prod.mk.inj (Option.some.inj h)
      refine World.steady_setGateway ?_ g'
      refine State.steady_of_cells rfl fun k cell hk => ?_
      by_cases hkk : k = showtimeId
      · subst hkk
        cases Redis.setAt_self.symm.trans hk
      · exact (Redis.setAt_ne hkk).symm.trans hk
  | setClosing g cell =>
      simp only [exec] at h
      split at h
      · obtain ⟨rfl, -⟩ := Prod.mk.inj (Option.some.inj h)
        exact State.steady_refl _
      · next x hx =>
        obtain rfl := Option.some.inj h
        exact World.steady_onActor_fields (fun _ => rfl) (fun _ => rfl) (fun _ => rfl) hx g'
  | actorCell g showtimeId =>
      obtain ⟨rfl, -⟩ := Prod.mk.inj (Option.some.inj h)
      exact World.steady_setGateway (State.steady_actorCell showtimeId _) g'
  | initCell g cell seatCount =>
      obtain ⟨rfl, -⟩ := Prod.mk.inj (Option.some.inj h)
      exact World.steady_setGateway (State.steady_initCell cell seatCount _) g'
  | checkOpen g cell showtimeId seatCount =>
      obtain ⟨rfl, -⟩ := Prod.mk.inj (Option.some.inj h)
      exact World.steady_setGateway (State.steady_checkOpen cell showtimeId seatCount _) g'
  | isClosing g cell =>
      exact World.steady_onActor_fields (fun _ => rfl) (fun _ => rfl) (fun _ => rfl) h g'
  | registerSeat g cell seatId seatIndex =>
      refine World.steady_onActor (fun a ha => ?_) h g'
      obtain ⟨hslots, hids, hproc⟩ := ShowActor.registerSeat_slots ha seatId seatIndex
      refine ⟨hslots, hids, fun index hp => ?_⟩
      rw [hproc]
      exact hp
  | tryAdmit g cell index =>
      refine World.steady_onActor (fun a ha => ?_) h g'
      rcases a.tryAdmit_cases index with ⟨-, heq⟩ | ⟨-, heq⟩
      · rw [heq]
        exact ⟨ha, fun _ _ => rfl, fun _ hp => hp⟩
      · rw [heq]
        refine ⟨ha.congr rfl rfl, fun _ _ => rfl, fun j hp => ?_⟩
        show Redis.setAt a.processing index true j = true
        by_cases hj : j = index
        · subst hj
          exact Redis.setAt_self
        · rw [Redis.setAt_ne hj]
          exact hp
  | clearAdmission g showtimeId seatIds => exact absurd trivial hc
  | trySend g cell userId seatIds =>
      exact World.steady_onActor_fields (fun a => (enqueue_fields _ a).1)
        (fun a => (enqueue_fields _ a).2.1) (fun a => (enqueue_fields _ a).2.2) h g'
  | send g cell userId seatIds =>
      simp only [exec] at h
      split at h
      · next u hu =>
        obtain ⟨rfl, -⟩ := Prod.mk.inj (Option.some.inj h)
        exact World.steady_onActor_fields (fun a => (enqueue_fields _ a).1)
          (fun a => (enqueue_fields _ a).2.1) (fun a => (enqueue_fields _ a).2.2) hu g'
      · cases h
  | awaitAnswer g =>
      simp only [exec] at h
      split at h
      · cases h
      · obtain ⟨rfl, -⟩ := Prod.mk.inj (Option.some.inj h)
        exact State.steady_refl _
  | recv g cell =>
      simp only [exec] at h
      split at h
      · cases h
      · next a ha =>
        split at h
        · cases h
        · next task tasks hq =>
          obtain ⟨rfl, -⟩ := Prod.mk.inj (Option.some.inj h)
          refine World.steady_setGateway ?_ g'
          refine State.steady_setActor (fun hreg => (hreg.slots cell a ha).congr rfl rfl)
            fun x b hx hb _ => ?_
          rw [State.actor_eq_some.2 ⟨x, hx, hb⟩] at ha
          obtain rfl := Option.some.inj ha
          exact ⟨fun _ _ => rfl, fun _ hp => hp⟩
  | answer g ticket a =>
      obtain ⟨rfl, -⟩ := Prod.mk.inj (Option.some.inj h)
      refine World.steady_setGateway ?_ g'
      exact State.steady_of_cells rfl fun _ _ hk => hk
  | handleEvent g => exact absurd trivial hc
  | publishLocking message =>
      have hgate : t.gateways = s.gateways := by
        cases l <;> obtain ⟨rfl, -⟩ := Prod.mk.inj (Option.some.inj h) <;> rfl
      rw [hgate]
      exact State.steady_refl _

theorem steady_environ {x : Environ} {s t : World} {ts : List (Task × Service Result)}
    (h : environ x s = some (t, ts)) (g : ℕ) : Steady (s.gateways g) (t.gateways g) := by
  obtain ⟨closedShows, heq⟩ := gateways_environ h g
  rw [heq]
  exact State.steady_of_cells rfl fun _ _ hk => hk

/-! ## Outstanding admissions -/

/-- An admission: the request that was admitted, the slot it took and its seat, and whether the
request or its lock task is still under way. -/
structure Claim where
  session : ℕ
  g : ℕ
  showtimeId : ℤ
  cell : ℕ
  index : ℕ
  seatId : ℤ
  underWay : Bool
  deriving DecidableEq

/-- The admission is of a seat that is cleared in a replica's current actor. -/
def Claim.Cleared (c : Claim) (t : State) (g : ℕ) (showtimeId : ℤ) (seatIds : List ℤ) : Prop :=
  c.g = g ∧ c.showtimeId = showtimeId ∧ c.seatId ∈ seatIds ∧ t.showActors showtimeId = some c.cell

instance {c : Claim} {t : State} {g : ℕ} {showtimeId : ℤ} {seatIds : List ℤ} :
    Decidable (c.Cleared t g showtimeId seatIds) := by
  unfold Claim.Cleared
  infer_instance

/-- The admissions left when seats are cleared: one that is under way is not at an end, unless it is
the clearing request's own. -/
def keptClaims (owner : Option ℕ) (t : State) (g : ℕ) (showtimeId : ℤ) (seatIds : List ℤ)
    (claims : List Claim) : List Claim :=
  claims.filter fun c =>
    !decide ((c.Cleared t g showtimeId seatIds ∧ c.underWay = false) ∨
      (owner = some c.session ∧ c.g = g ∧ c.showtimeId = showtimeId ∧ c.seatId ∈ seatIds))

/-- The answer to a lock task: the admissions of its request are at an end where its actor is out of
the map, and else held until they are cleared. -/
def answered (t : State) (g ticket : ℕ) (claims : List Claim) : List Claim :=
  (claims.filter fun c => !decide (c.g = g ∧ c.session = ticket ∧
    t.showActors c.showtimeId ≠ some c.cell)).map fun c =>
      if c.g = g ∧ c.session = ticket then { c with underWay := false } else c

/-- The log of outstanding admissions. -/
def logClaims (_ : Task) (i : ℕ) (_ : Link) (c : Cmd) (s : World) (claims : List Claim) :
    List Claim :=
  match c with
  | .tryAdmit g cell index =>
      match (s.gateways g).cells[cell]? with
      | some ⟨showtimeId, some a⟩ =>
          -- a slot that no seat has taken is no seat's
          if a.processing index = true ∨ a.seatIds index = 0 then
            claims
          else
            claims ++ [⟨i, g, showtimeId, cell, index, a.seatIds index, true⟩]
      | _ => claims
  | .answer g ticket (.lock _) => answered (s.gateways g) g ticket claims
  | .clearAdmission g showtimeId seatIds =>
      keptClaims (some i) (s.gateways g) g showtimeId seatIds claims
  | .handleEvent g =>
      match (s.services.redis.published[(s.gateways g).handled]?).bind clearedBy with
      | none => claims
      | some (showtimeId, seatIds) =>
          keptClaims none (s.gateways g) g showtimeId seatIds claims
  | .removeCell g showtimeId =>
      claims.filter fun c =>
        !decide (c.g = g ∧ c.showtimeId = showtimeId ∧ c.underWay = false)
  | _ => claims

/-- The machine with the log of outstanding admissions. -/
def admissions : Machine (World × List Claim) Rep Task Result Link Environ :=
  machine.logged [] logClaims

/-- The admissions of a seat of a show in a replica. -/
def outstanding (claims : List Claim) (g : ℕ) (showtimeId seatId : ℤ) : List Claim :=
  claims.filter fun c => decide (c.g = g ∧ c.showtimeId = showtimeId ∧ c.seatId = seatId)

/-! ## The condition -/

/-- No admission that is under way, other than the session's own, is cleared. -/
def SparesOthers (owner : Option ℕ) (t : State) (g : ℕ) (showtimeId : ℤ) (seatIds : List ℤ)
    (claims : List Claim) : Prop :=
  ∀ c ∈ claims, c.Cleared t g showtimeId seatIds → c.underWay = true → owner = some c.session

instance {owner : Option ℕ} {t : State} {g : ℕ} {showtimeId : ℤ} {seatIds : List ℤ}
    {claims : List Claim} : Decidable (SparesOthers owner t g showtimeId seatIds claims) := by
  unfold SparesOthers
  infer_instance

/-- The seat of a slot has no admission outstanding at another actor of its show. -/
def OneActor (t : State) (g cell index : ℕ) (claims : List Claim) : Prop :=
  match t.cells[cell]? with
  | some ⟨showtimeId, some a⟩ =>
      ∀ c ∈ claims, c.g = g → c.showtimeId = showtimeId → c.seatId = a.seatIds index →
        c.cell = cell
  | _ => True

instance {t : State} {g cell index : ℕ} {claims : List Claim} :
    Decidable (OneActor t g cell index claims) := by
  unfold OneActor
  split <;> infer_instance

/-- A seat is cleared only while no other request's admission of it is under way, and an actor admits
it only while no admission of it is outstanding at another actor of the show. -/
def Considerate (_ : Task) (i : ℕ) (_ : Link) (c : Cmd) (s : World × List Claim) : Prop :=
  match c with
  | .tryAdmit g cell index => OneActor (s.1.gateways g) g cell index s.2
  | .clearAdmission g showtimeId seatIds =>
      SparesOthers (some i) (s.1.gateways g) g showtimeId seatIds s.2
  | .handleEvent g =>
      match (s.1.services.redis.published[(s.1.gateways g).handled]?).bind clearedBy with
      | none => True
      | some (showtimeId, seatIds) => SparesOthers none (s.1.gateways g) g showtimeId seatIds s.2
  | _ => True

instance {n : Task} {i : ℕ} {l : Link} {c : Cmd} {s : World × List Claim} :
    Decidable (Considerate n i l c s) := by
  unfold Considerate
  split
  · infer_instance
  · infer_instance
  · split <;> infer_instance
  · infer_instance

def ConsiderateRun (p : Pool (World × List Claim) Rep Task Result) (a : Act Link Environ) : Prop :=
  Machine.Guarded Considerate (fun _ _ => True) p a

instance {p : Pool (World × List Claim) Rep Task Result} {a : Act Link Environ} :
    Decidable (ConsiderateRun p a) :=
  inferInstanceAs (Decidable (Machine.Guarded _ _ p a))

/-! ## The invariant -/

namespace Claim

variable {c : Claim} {t t' : State}

/-- The slot of the admission is its seat's, and taken. -/
def Holds (c : Claim) (t : State) : Prop :=
  ∃ a, t.cells[c.cell]? = some (ActorCell.mk c.showtimeId (some a)) ∧
    a.seatIds c.index = c.seatId ∧ a.processing c.index = true

/-- Two admissions of one seat. -/
def Rivals (c d : Claim) : Prop :=
  c.g = d.g ∧ c.showtimeId = d.showtimeId ∧ c.seatId = d.seatId

theorem Holds.steady (h : c.Holds t) (hne : c.seatId ≠ 0) (hreg : Registered t)
    (hst : Steady t t') : c.Holds t' := by
  obtain ⟨a, ha, hid, hproc⟩ := h
  obtain ⟨a', ha', hids, hprocs⟩ := hst.cells c.cell _ a ha rfl hreg
  refine ⟨a', ha', (hids c.index ?_).trans hid, hprocs c.index hproc⟩
  rw [hid]
  exact hne

/-- Clearing leaves a slot alone whose seat is not named, or whose actor is not the show's. -/
theorem Holds.clearAdmission (h : c.Holds t) (hreg : Registered t) {showtimeId : ℤ}
    {seatIds : List ℤ}
    (hnot : c.showtimeId = showtimeId → t.showActors showtimeId = some c.cell → c.seatId ∉ seatIds) :
    c.Holds (t.clearAdmission showtimeId seatIds) := by
  obtain ⟨a, ha, hid, hproc⟩ := h
  unfold State.clearAdmission
  split
  · exact ⟨a, ha, hid, hproc⟩
  · next cell hcell =>
    split
    · exact ⟨a, ha, hid, hproc⟩
    · next b hb =>
      by_cases hc : cell = c.cell
      · subst hc
        obtain ⟨x, hx, hxk⟩ := hreg.shows showtimeId c.cell hcell
        rw [ha] at hx
        obtain rfl := Option.some.inj hx
        obtain rfl : a = b := Option.some.inj
          ((State.actor_eq_some.2 ⟨_, ha, rfl⟩).symm.trans hb)
        obtain ⟨-, hids, hprocs⟩ := ShowActor.clearSeats_processing (hreg.slots c.cell a hb) seatIds
        refine ⟨seatIds.foldl ShowActor.clearSeat a, ?_, ?_, ?_⟩
        · simp [State.cells_setActor, ha]
        · rw [hids, hid]
        · rw [hprocs c.index (by rw [hid]; exact hnot hxk hcell)]
          exact hproc
      · refine ⟨a, ?_, hid, hproc⟩
        simp [State.cells_setActor, ha, hc]

end Claim

/-- Every outstanding admission has its slot, and a seat has one admission at most. -/
structure Exclusive (s : World × List Claim) : Prop where
  registered : ∀ g, Registered (s.1.gateways g)
  holds : ∀ c ∈ s.2, c.seatId ≠ 0 ∧ c.Holds (s.1.gateways c.g)
  apart : s.2.Pairwise fun c d => ¬c.Rivals d

namespace Exclusive

variable {s : World × List Claim} {t : World} {claims : List Claim}

/-- The replicas stay as they are or take more slots; some admissions end. -/
theorem steady (h : Exclusive s) (hst : ∀ g, Steady (s.1.gateways g) (t.gateways g))
    (hsub : claims.Sublist s.2) : Exclusive (t, claims) := by
  refine ⟨fun g => (hst g).registered (h.registered g), fun c hc => ?_, h.apart.sublist hsub⟩
  obtain ⟨hne, hholds⟩ := h.holds c (hsub.subset hc)
  exact ⟨hne, hholds.steady hne (h.registered c.g) (hst c.g)⟩

/-- The answer to a lock task changes of the admissions only whether they are under way. -/
theorem answered (h : Exclusive s) (hst : ∀ g, Steady (s.1.gateways g) (t.gateways g)) (u : State)
    (g ticket : ℕ) : Exclusive (t, Gateway.answered u g ticket s.2) := by
  have hsteady := h.steady hst (List.filter_sublist (p := fun c : Claim =>
    !decide (c.g = g ∧ c.session = ticket ∧ u.showActors c.showtimeId ≠ some c.cell)) (l := s.2))
  have hkeep : ∀ c : Claim, (if c.g = g ∧ c.session = ticket then
      { c with underWay := false } else c).Holds = c.Holds ∧
      (if c.g = g ∧ c.session = ticket then { c with underWay := false } else c).seatId = c.seatId ∧
      (if c.g = g ∧ c.session = ticket then { c with underWay := false } else c).g = c.g ∧
      (if c.g = g ∧ c.session = ticket then
        { c with underWay := false } else c).showtimeId = c.showtimeId := by
    intro c
    split_ifs
    · exact ⟨rfl, rfl, rfl, rfl⟩
    · exact ⟨rfl, rfl, rfl, rfl⟩
  refine ⟨hsteady.registered, fun d hd => ?_, List.pairwise_map.2 (hsteady.apart.imp fun {c d} hcd => ?_)⟩
  · obtain ⟨c, hc, rfl⟩ := List.mem_map.1 hd
    obtain ⟨hholds, hseat, hg, -⟩ := hkeep c
    rw [hholds, hseat, hg]
    exact hsteady.holds c hc
  · obtain ⟨-, hseat, hg, hshow⟩ := hkeep c
    obtain ⟨-, hseat', hg', hshow'⟩ := hkeep d
    unfold Claim.Rivals
    rw [hseat, hg, hshow, hseat', hg', hshow']
    exact hcd

/-- Seats are cleared in a replica's current actor, none of them with another request's admission
under way. -/
theorem clearAdmission (h : Exclusive s) {g : ℕ} {showtimeId : ℤ} {seatIds : List ℤ}
    {owner : Option ℕ} (hspares : SparesOthers owner (s.1.gateways g) g showtimeId seatIds s.2)
    (hself : t.gateways g = (s.1.gateways g).clearAdmission showtimeId seatIds ∨
      ∃ n, t.gateways g =
        { (s.1.gateways g).clearAdmission showtimeId seatIds with handled := n })
    (hother : ∀ g', g' ≠ g → t.gateways g' = s.1.gateways g') :
    Exclusive (t, keptClaims owner (s.1.gateways g) g showtimeId seatIds s.2) := by
  have hsteady : Steady ((s.1.gateways g).clearAdmission showtimeId seatIds) (t.gateways g) := by
    rcases hself with heq | ⟨n, heq⟩
    · rw [heq]
      exact State.steady_refl _
    · rw [heq]
      exact State.steady_of_cells rfl fun _ _ hk => hk
  have hreg : Registered ((s.1.gateways g).clearAdmission showtimeId seatIds) :=
    State.registered_clearAdmission (h.registered g) showtimeId seatIds
  refine ⟨fun g' => ?_, fun c hc => ?_, h.apart.sublist List.filter_sublist⟩
  · by_cases hg : g' = g
    · subst hg
      exact hsteady.registered hreg
    · show Registered (t.gateways g')
      rw [hother g' hg]
      exact h.registered g'
  · obtain ⟨hmem, hkept⟩ := List.mem_filter.1 hc
    have hkept : ¬((c.Cleared (s.1.gateways g) g showtimeId seatIds ∧ c.underWay = false) ∨
        (owner = some c.session ∧ c.g = g ∧ c.showtimeId = showtimeId ∧ c.seatId ∈ seatIds)) := by
      simpa only [Bool.not_eq_true', decide_eq_false_iff_not] using hkept
    obtain ⟨hne, hholds⟩ := h.holds c hmem
    refine ⟨hne, ?_⟩
    show c.Holds (t.gateways c.g)
    by_cases hg : c.g = g
    · subst hg
      refine (hholds.clearAdmission (h.registered c.g) fun hshow hcell hin => hkept ?_).steady hne
        hreg hsteady
      have hcleared : c.Cleared (s.1.gateways c.g) c.g showtimeId seatIds := ⟨rfl, hshow, hin, hcell⟩
      cases hway : c.underWay with
      | false => exact .inl ⟨hcleared, rfl⟩
      | true => exact .inr ⟨hspares c hmem hcleared hway, rfl, hshow, hin⟩
    · rw [hother c.g hg]
      exact hholds

/-- A slot is taken: no admission of its seat was outstanding. -/
theorem letIn (h : Exclusive s) {i g cell index : ℕ} {showtimeId : ℤ} {a : ShowActor}
    (hcell : (s.1.gateways g).cells[cell]? = some (ActorCell.mk showtimeId (some a)))
    (hfree : a.processing index = false) (hne : a.seatIds index ≠ 0)
    (hone : OneActor (s.1.gateways g) g cell index s.2)
    (hst : ∀ g, Steady (s.1.gateways g) (t.gateways g))
    (hnew : t.gateways g = (s.1.gateways g).setActor cell
      { a with processing := Redis.setAt a.processing index true }) :
    Exclusive (t, s.2 ++ [⟨i, g, showtimeId, cell, index, a.seatIds index, true⟩]) := by
  have hsteady := h.steady hst (List.Sublist.refl s.2)
  refine ⟨hsteady.registered, fun c hc => ?_, List.pairwise_append.2
    ⟨h.apart, List.pairwise_singleton _ _, fun c hc d hd hrival => ?_⟩⟩
  · rcases List.mem_append.1 hc with hc | hc
    · exact hsteady.holds c hc
    · obtain rfl := List.mem_singleton.1 hc
      refine ⟨hne, ?_⟩
      show Claim.Holds _ (t.gateways g)
      rw [hnew]
      refine ⟨{ a with processing := Redis.setAt a.processing index true }, ?_, rfl,
        Redis.setAt_self⟩
      simp [State.cells_setActor, hcell]
  · obtain rfl := List.mem_singleton.1 hd
    obtain ⟨rfl, rfl, hseat⟩ := hrival
    have hseat : c.seatId = a.seatIds index := hseat
    -- the earlier admission has its slot at the same actor, and a seat has one slot there
    obtain ⟨-, b, hb, hid, hproc⟩ := h.holds c hc
    have hsame : c.cell = cell := by
      unfold OneActor at hone
      rw [hcell] at hone
      exact hone c hc rfl rfl hseat
    subst hsame
    rw [hcell] at hb
    obtain rfl : a = b := Option.some.inj (ActorCell.mk.inj (Option.some.inj hb)).2
    have hslots := (h.registered c.g).slots c.cell a (State.actor_eq_some.2 ⟨_, hcell, rfl⟩)
    have hindex : c.index = index := by
      have h1 := (hslots c.seatId c.index).2 ⟨hid, hseat ▸ hne⟩
      have h2 := (hslots c.seatId index).2 ⟨hseat.symm, hseat ▸ hne⟩
      exact Option.some.inj (h1.symm.trans h2)
    rw [hindex, hfree] at hproc
    cases hproc

end Exclusive

theorem exclusive_exec {n : Task} {i : ℕ} {l : Link} {c : Cmd} {s t : World × List Claim} {r : Rep c}
    (h : Exclusive s) (hG : Considerate n i l c s) (hexec : admissions.exec n i l c s = some (t, r)) :
    Exclusive t := by
  obtain ⟨t, claims⟩ := t
  obtain ⟨hstep, hlog⟩ := Machine.logged_exec.1 hexec
  have hrun : exec i l c s.1 = some (t, r) := hstep
  dsimp only at hlog
  subst hlog
  cases c with
  | tryAdmit g cell index =>
      have hst := steady_exec hrun fun hc => hc
      obtain ⟨⟨u, r'⟩, hu, heq⟩ := Option.map_eq_some_iff.1 hrun
      obtain ⟨rfl, rfl⟩ := Prod.mk.inj heq
      obtain ⟨a, ha, heq⟩ := Option.map_eq_some_iff.1 hu
      obtain ⟨rfl, -⟩ := Prod.mk.inj heq
      obtain ⟨⟨showtimeId, actor⟩, hcell, rfl⟩ := State.actor_eq_some.1 ha
      simp only [logClaims, hcell]
      split_ifs with hskip
      · exact h.steady hst (List.Sublist.refl _)
      · rw [not_or, Bool.not_eq_true] at hskip
        rcases a.tryAdmit_cases index with ⟨htaken, -⟩ | ⟨hfree, heq⟩
        · rw [hskip.1] at htaken
          cases htaken
        · refine h.letIn hcell hfree hskip.2 hG hst ?_
          show Redis.setAt s.1.gateways g _ g = _
          rw [Redis.setAt_self, heq]
  | answer g ticket a =>
      have hst := steady_exec hrun fun hc => hc
      cases a with
      | lock result => exact h.answered hst _ g ticket
      | cancel seatIds => exact h.steady hst (List.Sublist.refl _)
  | clearAdmission g showtimeId seatIds =>
      obtain ⟨rfl, -⟩ := Prod.mk.inj (Option.some.inj hrun)
      exact h.clearAdmission hG (.inl Redis.setAt_self) fun g' hg => Redis.setAt_ne hg
  | handleEvent g =>
      simp only [exec] at hrun
      cases hevent : s.1.services.redis.published[(s.1.gateways g).handled]? with
      | none =>
          rw [hevent] at hrun
          cases hrun
      | some event =>
          rw [hevent] at hrun
          obtain ⟨rfl, -⟩ := Prod.mk.inj (Option.some.inj hrun)
          simp only [Considerate, hevent, Option.bind_some] at hG
          simp only [logClaims, hevent, Option.bind_some]
          cases hclear : clearedBy event with
          | none =>
              refine h.steady (fun g' => World.steady_setGateway ?_ g') (List.Sublist.refl _)
              unfold State.handlePubsubMessage
              rw [hclear]
              exact State.steady_of_cells rfl fun _ _ hk => hk
          | some cleared =>
              obtain ⟨showtimeId, seatIds⟩ := cleared
              rw [hclear] at hG
              refine h.clearAdmission hG (.inr ⟨(s.1.gateways g).handled + 1, ?_⟩)
                fun g' hg => Redis.setAt_ne hg
              refine Redis.setAt_self.trans ?_
              unfold State.handlePubsubMessage
              rw [hclear]
  | removeCell g showtimeId =>
      exact h.steady (steady_exec hrun fun hc => hc) List.filter_sublist
  | _ => exact h.steady (steady_exec hrun fun hc => hc) (List.Sublist.refl _)

theorem exclusive_reachable {p : Pool (World × List Claim) Rep Task Result}
    (h : admissions.system.ReachableUnder ConsiderateRun p) : Exclusive p.store := by
  have h : admissions.system.ReachableUnder (Machine.Guarded Considerate fun _ _ => True) p := h
  refine Machine.store_invariant (I := Exclusive) ?_ (fun _ _ _ _ _ _ _ => exclusive_exec) ?_
    (fun _ _ hs => ⟨hs.registered, hs.holds, hs.apart⟩) h
  · rintro s ⟨⟨seats, hs⟩, hclaims⟩
    refine ⟨fun g => ?_, ?_, ?_⟩
    · rw [hs]
      refine ⟨fun cell a ha => ?_, fun k cell hk => ?_⟩
      · cases ha
      · cases hk
    · rw [hclaims]
      exact fun c hc => nomatch hc
    · rw [hclaims]
      exact List.Pairwise.nil
  · intro x s t ts hs _ henv
    obtain ⟨hrun, hlog⟩ := Machine.logged_environ.1 henv
    obtain ⟨t, claims⟩ := t
    dsimp only at hrun hlog
    subst hlog
    exact hs.steady (steady_environ hrun) (List.Sublist.refl _)

/-! ## One admission of a seat at a time -/

/-- A user's lock request whose seat was admitted and whose task is in the queue. -/
def queuesLock : List (Act Link Environ) :=
  .environ (.lock 0 42 5 [7] [7] 10) :: steps 0 11

end Gateway
end Bookit

import Bookit.Gateway.Admission

/-!
# Gateway.FreeSlots — slots that stay free, and events that free them

A free slot is taken by `try_admit` only, and the slot of a seat is found by the seat's registration:
commands about other seats leave it free.  An event that a replica understands frees the slots of its
seats there.
-/

namespace Bookit
namespace Gateway

open Lib

/-! ## Actors -/

namespace ShowActor

variable {a b : ShowActor} {k seatId : ℤ}

theorem available_congr (hindices : b.seatIndices k = a.seatIndices k)
    (hproc : b.processing = a.processing) : b.available k = a.available k := by
  simp only [available, hindices, hproc]

theorem clearSeat_available (h : a.available k = true ∨ k = seatId) :
    (a.clearSeat seatId).available k = true := by
  unfold clearSeat
  cases hindex : a.seatIndices seatId with
  | none =>
      rcases h with h | rfl
      · exact h
      · simp only [available, hindex]
  | some index =>
      unfold available
      dsimp only
      cases hk : a.seatIndices k with
      | none => rfl
      | some j =>
          by_cases hj : j = index
          · subst hj
            simp
          · dsimp only
            rw [Redis.setAt_ne hj]
            rcases h with h | rfl
            · simpa [available, hk] using h
            · rw [hindex] at hk
              exact absurd (Option.some.inj hk).symm hj

/-- Clearing seats frees their slots, and takes none. -/
theorem clearSeats_available {seatIds : List ℤ} (h : a.available k = true ∨ k ∈ seatIds) :
    (seatIds.foldl clearSeat a).available k = true := by
  induction seatIds generalizing a with
  | nil => exact h.resolve_right List.not_mem_nil
  | cons seatId seatIds ih =>
      refine ih ?_
      rw [List.mem_cons, ← or_assoc] at h
      exact h.imp_left clearSeat_available

/-- The slot of another seat is taken. -/
theorem tryAdmit_available (ha : a.Slots) {index : ℕ} (hne : a.seatIds index ≠ k)
    (h : a.available k = true) : (a.tryAdmit index).1.available k = true := by
  rcases a.tryAdmit_cases index with ⟨-, heq⟩ | ⟨-, heq⟩
  · rw [heq]
    exact h
  · rw [heq]
    unfold available at h ⊢
    dsimp only
    cases hk : a.seatIndices k with
    | none => rfl
    | some j =>
        have hj : j ≠ index := fun heq => hne (heq ▸ ((ha k j).1 hk).1)
        rw [hk] at h
        dsimp only at h ⊢
        rwa [Redis.setAt_ne hj]

/-- Another seat is registered. -/
theorem registerSeat_available {oneBasedIndex : ℤ} (hne : k ≠ seatId) (h : a.available k = true) :
    (a.registerSeat seatId oneBasedIndex).1.available k = true := by
  have htake : ∀ (b : ShowActor) (index : ℕ), (b.takeSlot seatId index).1.available k = b.available k := by
    intro b index
    unfold takeSlot
    split_ifs
    · exact available_congr rfl rfl
    · rfl
    · exact available_congr (Redis.setAt_ne hne) rfl
  have hindex : ∀ index, ({ a with
      seatIndices := Redis.setAt a.seatIndices seatId (some index) } : ShowActor).available k =
        a.available k := fun index => available_congr (Redis.setAt_ne hne) rfl
  unfold registerSeat
  split_ifs
  · exact h
  · dsimp only
    split
    · split_ifs
      · exact h
      · rw [htake]
        exact h
    · rw [htake, hindex]
      exact h
  · exact h

end ShowActor

/-! ## Replicas -/

/-- Of the seats, no slot that is free is taken, and no event is handled. -/
structure KeepsFree (seatIds : List ℤ) (t t' : State) : Prop where
  handled : t'.handled = t.handled
  free : ∀ showtimeId, ∀ k ∈ seatIds,
    t.available showtimeId k = true → t'.available showtimeId k = true

namespace State

variable {seatIds : List ℤ} {t t' : State} {cell : ℕ} {a b : ShowActor} {showtimeId k : ℤ}

theorem keepsFree_refl (t : State) : KeepsFree seatIds t t := ⟨rfl, fun _ _ _ h => h⟩

theorem actor_setActor (ha : t.actor cell = some a) (b : ShowActor) (c : ℕ) :
    (t.setActor cell b).actor c = if c = cell then some b else t.actor c := by
  obtain ⟨x, hx, -⟩ := actor_eq_some.1 ha
  unfold actor
  rw [cells_setActor]
  by_cases hc : c = cell
  · subst hc
    simp [hx]
  · rw [if_neg hc]
    cases t.cells[c]? with
    | none => rfl
    | some y => simp [Ne.symm hc]

/-- An actor is changed such that a seat that was available still is. -/
theorem available_setActor (ha : t.actor cell = some a)
    (hab : a.available k = true → b.available k = true) (h : t.available showtimeId k = true) :
    (t.setActor cell b).available showtimeId k = true := by
  have hshows : (t.setActor cell b).showActors = t.showActors := rfl
  unfold available actorOf at h ⊢
  rw [hshows]
  cases hc : t.showActors showtimeId with
  | none => rfl
  | some c =>
      rw [hc] at h
      rw [Option.bind_some] at h ⊢
      rw [actor_setActor ha]
      split_ifs with heq
      · subst heq
        rw [ha] at h
        exact hab h
      · exact h

theorem keepsFree_setActor (ha : t.actor cell = some a)
    (hab : ∀ k ∈ seatIds, a.available k = true → b.available k = true) :
    KeepsFree seatIds t (t.setActor cell b) :=
  ⟨rfl, fun _ k hk => available_setActor ha (hab k hk)⟩

/-- A replica with the same cells, whose map has no cell that it did not have. -/
theorem keepsFree_of_cells (hhandled : t'.handled = t.handled) (hcells : t'.cells = t.cells)
    (hshows : ∀ k cell, t'.showActors k = some cell → t.showActors k = some cell) :
    KeepsFree seatIds t t' := by
  refine ⟨hhandled, fun showtimeId k _ h => ?_⟩
  unfold available actorOf at h ⊢
  cases hc : t'.showActors showtimeId with
  | none => rfl
  | some cell =>
      rw [hshows showtimeId cell hc] at h
      unfold actor at h ⊢
      rwa [hcells]

theorem keepsFree_actorCell (k : ℤ) (t : State) : KeepsFree seatIds t (t.actorCell k).1 := by
  unfold actorCell
  split
  · exact keepsFree_refl t
  · refine ⟨rfl, fun showtimeId seatId _ h => ?_⟩
    unfold available actorOf actor at h ⊢
    dsimp only
    by_cases hk : showtimeId = k
    · -- the new cell has no actor yet
      subst hk
      rw [Redis.setAt_self, Option.bind_some]
      simp
    · rw [Redis.setAt_ne hk]
      cases hc : t.showActors showtimeId with
      | none => rfl
      | some cell =>
          rw [hc, Option.bind_some] at h
          rw [Option.bind_some, List.getElem?_append]
          split_ifs with hlt
          · exact h
          · cases hx : [ActorCell.mk k none][cell - t.cells.length]? with
            | none => rfl
            | some x =>
                rw [List.mem_singleton.1 (List.mem_of_getElem? hx)]
                rfl

theorem keepsFree_initCell (cell seatCount : ℕ) (t : State) :
    KeepsFree seatIds t (t.initCell cell seatCount).1 := by
  unfold initCell
  split
  · exact keepsFree_refl t
  · exact keepsFree_refl t
  · next k hcell =>
    split_ifs
    · exact keepsFree_refl t
    · refine ⟨rfl, fun showtimeId seatId _ h => ?_⟩
      have hshows : (t.setActor cell (ShowActor.new seatCount)).showActors = t.showActors := rfl
      unfold available actorOf actor at h ⊢
      rw [hshows]
      cases hc : t.showActors showtimeId with
      | none => rfl
      | some c =>
          rw [hc, Option.bind_some] at h
          rw [Option.bind_some, cells_setActor]
          by_cases hcc : cell = c
          · subst hcc
            rw [hcell]
            simp [ShowActor.available, ShowActor.new]
          · cases hx : t.cells[c]? with
            | none => rfl
            | some x =>
                rw [hx] at h
                simpa [hcc] using h

theorem keepsFree_checkOpen (cell : ℕ) (k : ℤ) (seatCount : ℕ) (t : State) :
    KeepsFree seatIds t (t.checkOpen cell k seatCount).1 := by
  unfold checkOpen
  cases ha : t.actor cell with
  | none => exact keepsFree_refl t
  | some a =>
      dsimp only
      split_ifs
      · exact keepsFree_setActor ha fun k _ h => h
      · exact keepsFree_refl t
      · exact keepsFree_refl t

/-- Clearing seats of a show frees their slots there, and takes none. -/
theorem available_clearAdmission {k' : ℤ} {cleared : List ℤ}
    (h : t.available showtimeId k = true ∨ (k' = showtimeId ∧ k ∈ cleared)) :
    (t.clearAdmission k' cleared).available showtimeId k = true := by
  unfold clearAdmission
  cases hc : t.showActors k' with
  | none =>
      rcases h with h | ⟨rfl, -⟩
      · exact h
      · simp [available, actorOf, hc]
  | some cell =>
      dsimp only
      cases ha : t.actor cell with
      | none =>
          rcases h with h | ⟨rfl, -⟩
          · exact h
          · simp [available, actorOf, hc, ha]
      | some a =>
          rcases h with h | ⟨rfl, hk⟩
          · exact available_setActor ha (fun h => ShowActor.clearSeats_available (.inl h)) h
          · have hshows : (t.setActor cell (cleared.foldl ShowActor.clearSeat a)).showActors =
                t.showActors := rfl
            unfold available actorOf
            rw [hshows, hc, Option.bind_some, actor_setActor ha, if_pos rfl]
            exact ShowActor.clearSeats_available (.inr hk)

theorem handled_clearAdmission (k' : ℤ) (cleared : List ℤ) :
    (t.clearAdmission k' cleared).handled = t.handled := by
  unfold clearAdmission
  split
  · rfl
  · split <;> rfl

/-- An event frees the slots of its seats, and takes none. -/
theorem available_handlePubsubMessage {event : Channel × Json}
    (h : t.available showtimeId k = true ∨
      ∃ cleared, clearedBy event = some (showtimeId, cleared) ∧ k ∈ cleared) :
    (t.handlePubsubMessage event).available showtimeId k = true := by
  unfold handlePubsubMessage
  cases hevent : clearedBy event with
  | none =>
      refine h.resolve_right ?_
      rintro ⟨cleared, heq, -⟩
      rw [hevent] at heq
      cases heq
  | some x =>
      refine available_clearAdmission (h.imp_right ?_)
      rintro ⟨cleared, heq, hk⟩
      rw [hevent] at heq
      obtain rfl := Option.some.inj heq
      exact ⟨rfl, hk⟩

theorem handled_handlePubsubMessage (event : Channel × Json) :
    (t.handlePubsubMessage event).handled = t.handled + 1 := by
  unfold handlePubsubMessage
  split <;> rfl

theorem registered_handlePubsubMessage (h : Registered t) (event : Channel × Json) :
    Registered (t.handlePubsubMessage event) := by
  unfold handlePubsubMessage
  split
  · exact ⟨h.slots, h.shows⟩
  · have hcleared := registered_clearAdmission h
    exact ⟨(hcleared _ _).slots, (hcleared _ _).shows⟩

end State

/-! ## The world -/

namespace World

variable {seatIds : List ℤ} {s t : World} {g : ℕ}

theorem keepsFree_setGateway {u : State} (h : KeepsFree seatIds (s.gateways g) u) (g' : ℕ) :
    KeepsFree seatIds (s.gateways g') ((s.setGateway g u).gateways g') := by
  show KeepsFree seatIds (s.gateways g') (Redis.setAt s.gateways g u g')
  by_cases hg : g' = g
  · subst hg
    rw [Redis.setAt_self]
    exact h
  · rw [Redis.setAt_ne hg]
    exact State.keepsFree_refl _

theorem keepsFree_onActor {ρ : Type} {cell : ℕ} {f : ShowActor → ShowActor × ρ} {r : ρ}
    (hf : ∀ a, (s.gateways g).actor cell = some a → ∀ k ∈ seatIds, a.available k = true →
      (f a).1.available k = true)
    (h : s.onActor g cell f = some (t, r)) (g' : ℕ) :
    KeepsFree seatIds (s.gateways g') (t.gateways g') := by
  obtain ⟨⟨u, r'⟩, hu, heq⟩ := Option.map_eq_some_iff.1 h
  obtain ⟨rfl, -⟩ := Prod.mk.inj heq
  obtain ⟨a, ha, heq⟩ := Option.map_eq_some_iff.1 hu
  obtain ⟨rfl, -⟩ := Prod.mk.inj heq
  exact keepsFree_setGateway (State.keepsFree_setActor ha (hf a ha)) g'

end World

/-- A request for one of the seats: it registers the seat, or takes its slot. -/
def Claims (seatIds : List ℤ) (s : World) : Cmd → Prop
  | .registerSeat _ _ seatId _ => seatId ∈ seatIds
  | .tryAdmit g cell index =>
      match (s.gateways g).actor cell with
      | none => False
      | some a => a.seatIds index ∈ seatIds
  | _ => False

instance {seatIds : List ℤ} {s : World} {c : Cmd} : Decidable (Claims seatIds s c) := by
  unfold Claims
  rcases c with ⟨⟩
  case tryAdmit g cell index =>
    dsimp only
    rcases (s.gateways g).actor cell with _ | _ <;> infer_instance
  all_goals infer_instance

section Exec

variable {seatIds : List ℤ} {i : ℕ} {l : Link} {c : Cmd} {s t : World} {r : Rep c}

/-- What a step that claims none of the seats does in a replica: the next event is handled, or no
slot is taken. -/
theorem keepsFree_exec (h : exec i l c s = some (t, r)) {g : ℕ}
    (hreg : ∀ g, Registered (s.gateways g)) (hc : ¬Claims seatIds s c) :
    (∃ event, s.services.redis.published[(s.gateways g).handled]? = some event ∧
        t.services = s.services ∧ t.gateways g = (s.gateways g).handlePubsubMessage event) ∨
      KeepsFree seatIds (s.gateways g) (t.gateways g) := by
  cases c with
  | service c =>
      obtain ⟨x, -, heq⟩ := Option.map_eq_some_iff.1 h
      obtain ⟨rfl, -⟩ := Prod.mk.inj heq
      exact .inr (State.keepsFree_refl _)
  | isClosed | hasCell =>
      obtain ⟨rfl, -⟩ := Prod.mk.inj (Option.some.inj h)
      exact .inr (State.keepsFree_refl _)
  | existsClosedKey showtimeId =>
      obtain rfl : s = t := by
        cases l <;> exact (Prod.mk.inj (Option.some.inj h)).1
      exact .inr (State.keepsFree_refl _)
  | insertClosed | answer =>
      obtain ⟨rfl, -⟩ := Prod.mk.inj (Option.some.inj h)
      refine .inr (World.keepsFree_setGateway ?_ g)
      exact State.keepsFree_of_cells rfl rfl fun _ _ hk => hk
  | removeCell g' showtimeId =>
      obtain ⟨rfl, -⟩ := Prod.mk.inj (Option.some.inj h)
      refine .inr (World.keepsFree_setGateway ?_ g)
      refine State.keepsFree_of_cells rfl rfl fun k cell hk => ?_
      by_cases hkk : k = showtimeId
      · subst hkk
        cases Redis.setAt_self.symm.trans hk
      · exact (Redis.setAt_ne hkk).symm.trans hk
  | setClosing g' cell =>
      simp only [exec] at h
      split at h
      · obtain ⟨rfl, -⟩ := Prod.mk.inj (Option.some.inj h)
        exact .inr (State.keepsFree_refl _)
      · next x hx =>
        obtain rfl := Option.some.inj h
        exact .inr (World.keepsFree_onActor (fun a _ k _ h => h) hx g)
  | actorCell g' showtimeId =>
      obtain ⟨rfl, -⟩ := Prod.mk.inj (Option.some.inj h)
      exact .inr (World.keepsFree_setGateway (State.keepsFree_actorCell showtimeId _) g)
  | initCell g' cell seatCount =>
      obtain ⟨rfl, -⟩ := Prod.mk.inj (Option.some.inj h)
      exact .inr (World.keepsFree_setGateway (State.keepsFree_initCell cell seatCount _) g)
  | checkOpen g' cell showtimeId seatCount =>
      obtain ⟨rfl, -⟩ := Prod.mk.inj (Option.some.inj h)
      exact .inr (World.keepsFree_setGateway (State.keepsFree_checkOpen cell showtimeId seatCount _) g)
  | isClosing g' cell => exact .inr (World.keepsFree_onActor (fun a _ k _ h => h) h g)
  | registerSeat g' cell seatId seatIndex =>
      refine .inr (World.keepsFree_onActor (fun a _ k hk hfree => ?_) h g)
      exact ShowActor.registerSeat_available (fun heq => hc (heq ▸ hk)) hfree
  | tryAdmit g' cell index =>
      refine .inr (World.keepsFree_onActor (fun a ha k hk hfree => ?_) h g)
      refine ShowActor.tryAdmit_available ((hreg g').slots cell a ha) (fun heq => hc ?_) hfree
      simp only [Claims, ha, heq]
      exact hk
  | clearAdmission g' showtimeId cleared =>
      obtain ⟨rfl, -⟩ := Prod.mk.inj (Option.some.inj h)
      refine .inr (World.keepsFree_setGateway ⟨State.handled_clearAdmission _ _, ?_⟩ g)
      exact fun _ _ _ hfree => State.available_clearAdmission (.inl hfree)
  | trySend g' cell userId seatIds' =>
      refine .inr (World.keepsFree_onActor (fun a _ k _ hfree => ?_) h g)
      obtain ⟨hindices, -, hproc⟩ := enqueue_fields (.lock i userId seatIds') a
      rwa [ShowActor.available_congr (by rw [hindices]) hproc]
  | send g' cell userId seatIds' =>
      simp only [exec] at h
      split at h
      · next u hu =>
        obtain ⟨rfl, -⟩ := Prod.mk.inj (Option.some.inj h)
        refine .inr (World.keepsFree_onActor (fun a _ k _ hfree => ?_) hu g)
        obtain ⟨hindices, -, hproc⟩ := enqueue_fields (.cancel i userId seatIds') a
        rwa [ShowActor.available_congr (by rw [hindices]) hproc]
      · cases h
  | awaitAnswer g' =>
      simp only [exec] at h
      split at h
      · cases h
      · obtain ⟨rfl, -⟩ := Prod.mk.inj (Option.some.inj h)
        exact .inr (State.keepsFree_refl _)
  | recv g' cell =>
      simp only [exec] at h
      split at h
      · cases h
      · next a ha =>
        split at h
        · cases h
        · obtain ⟨rfl, -⟩ := Prod.mk.inj (Option.some.inj h)
          refine .inr (World.keepsFree_setGateway ?_ g)
          exact State.keepsFree_setActor ha fun k _ h => h
  | handleEvent g' =>
      simp only [exec] at h
      split at h
      · cases h
      · next event hevent =>
        obtain ⟨rfl, -⟩ := Prod.mk.inj (Option.some.inj h)
        by_cases hg : g = g'
        · subst hg
          exact .inl ⟨event, hevent, rfl, Redis.setAt_self⟩
        · refine .inr ?_
          show KeepsFree seatIds (s.gateways g) (Redis.setAt s.gateways g' _ g)
          rw [Redis.setAt_ne hg]
          exact State.keepsFree_refl _
  | publishLocking message =>
      have hgate : t.gateways = s.gateways := by
        cases l <;> obtain ⟨rfl, -⟩ := Prod.mk.inj (Option.some.inj h) <;> rfl
      rw [hgate]
      exact .inr (State.keepsFree_refl _)

/-- The slots of a replica stay registered. -/
theorem registered_exec (h : exec i l c s = some (t, r)) {g : ℕ} (hs : Registered (s.gateways g)) :
    Registered (t.gateways g) := by
  by_cases hclears : Clears c
  · cases c with
    | clearAdmission g' showtimeId cleared =>
        obtain ⟨rfl, -⟩ := Prod.mk.inj (Option.some.inj h)
        show Registered (Redis.setAt s.gateways g' _ g)
        by_cases hg : g = g'
        · subst hg
          rw [Redis.setAt_self]
          exact State.registered_clearAdmission hs showtimeId cleared
        · rwa [Redis.setAt_ne hg]
    | handleEvent g' =>
        simp only [exec] at h
        split at h
        · cases h
        · next event _ =>
          obtain ⟨rfl, -⟩ := Prod.mk.inj (Option.some.inj h)
          show Registered (Redis.setAt s.gateways g' _ g)
          by_cases hg : g = g'
          · subst hg
            rw [Redis.setAt_self]
            exact State.registered_handlePubsubMessage hs event
          · rwa [Redis.setAt_ne hg]
    | _ => exact hclears.elim
  · exact (steady_exec h hclears g).registered hs

/-- Published events stay published. -/
theorem published_exec (h : exec i l c s = some (t, r)) :
    s.services.redis.published <+: t.services.redis.published := by
  rcases redis_exec h with ⟨k, rfl, ht⟩ | ⟨-, heq⟩
  · rw [ht]
    split_ifs
    · exact List.prefix_refl _
    · by_cases hk : ∃ channel payload, k = .publish channel payload
      · obtain ⟨channel, payload, rfl⟩ := hk
        exact List.prefix_append _ _
      · have hsame : (k.effect s.services.redis).published = s.services.redis.published :=
          Redis.effect_published fun channel payload heq => hk ⟨channel, payload, heq⟩
        show _ <+: (k.effect s.services.redis).published
        exact hsame ▸ List.prefix_refl _
  · exact heq ▸ List.prefix_refl _

end Exec

/-! ## Runs -/

/-- A replica has handled no more events than there are. -/
structure Listens (s : World) : Prop where
  registered : ∀ g, Registered (s.gateways g)
  handled : ∀ g, (s.gateways g).handled ≤ s.services.redis.published.length

theorem listens_exec {i : ℕ} {l : Link} {c : Cmd} {s t : World} {r : Rep c} (hs : Listens s)
    (h : exec i l c s = some (t, r)) : Listens t := by
  refine ⟨fun g => registered_exec h (hs.registered g), fun g => ?_⟩
  have hnone : ¬Claims [] s c := by
    unfold Claims
    split
    · exact List.not_mem_nil
    · split
      · exact id
      · exact List.not_mem_nil
    · exact id
  rcases keepsFree_exec (g := g) h hs.registered hnone with ⟨event, hevent, hservices, hgate⟩ | hkeeps
  · rw [hgate, State.handled_handlePubsubMessage, hservices]
    exact (List.getElem?_eq_some_iff.1 hevent).1
  · rw [hkeeps.handled]
    exact (hs.handled g).trans (published_exec h).length_le

theorem listens_environ {x : Environ} {s t : World} {ts : List (Task × Service Result)}
    (hs : Listens s) (h : environ x s = some (t, ts)) : Listens t := by
  refine ⟨fun g => (steady_environ h g).registered (hs.registered g), fun g => ?_⟩
  obtain ⟨-, -, d, hredis⟩ := services_environ h
  obtain ⟨closedShows, hgate⟩ := gateways_environ h g
  rw [hgate, hredis]
  exact hs.handled g

theorem listens_newWorld (seats : List Payments.SeatRow) : Listens (newWorld seats) := by
  refine ⟨fun g => ⟨fun cell a ha => ?_, fun k cell hk => ?_⟩, fun g => Nat.le_refl 0⟩
  · cases ha
  · cases hk

theorem listens_reachable {p : Pool World Rep Task Result} (h : machine.system.Reachable p) :
    Listens p.store := by
  have h : machine.system.ReachableUnder
      (Machine.Guarded (fun _ _ _ _ _ => True) fun _ _ => True) p :=
    Machine.reachable_guarded (fun _ _ _ _ _ => trivial) h
  refine Machine.store_invariant (I := Listens) ?_ ?_ ?_ ?_ h
  · rintro s ⟨seats, rfl⟩
    exact listens_newWorld seats
  · exact fun _ _ _ _ _ _ _ hs _ hexec => listens_exec hs hexec
  · exact fun _ _ _ _ hs _ henv => listens_environ hs henv
  · exact fun _ _ hs => ⟨hs.registered, hs.handled⟩

end Gateway
end Bookit

import Bookit.Gateway.FreeSlots

/-!
# Gateway.TakenSlots — which slots can be taken

A slot is taken for the seat that is registered in it, and by `try_admit` only: the other commands
take no slot, and leave every registered seat where it is.
-/

namespace Bookit
namespace Gateway

open Lib

namespace State

variable {t t' : State} {cell index : ℕ} {a b : ShowActor} {seatId : ℤ}

/-- A slot that is taken has a seat. -/
def TakenSeated (t : State) : Prop :=
  ∀ cell a, t.actor cell = some a → ∀ index, a.processing index = true → a.seatIds index ≠ 0

/-- The slot is the seat's. -/
def SlotOf (t : State) (cell index : ℕ) (seatId : ℤ) : Prop :=
  ∃ a, t.actor cell = some a ∧ a.seatIds index = seatId

/-- No slot has been taken, and none has lost its seat. -/
def TakesNone (t t' : State) : Prop :=
  ∀ cell a', t'.actor cell = some a' → (∀ index, a'.processing index = false) ∨
    ∃ a, t.actor cell = some a ∧ ∀ index, a'.processing index = true →
      a.processing index = true ∧ (a.seatIds index ≠ 0 → a'.seatIds index ≠ 0)

theorem TakenSeated.mono (h : t.TakenSeated) (htakes : TakesNone t t') : t'.TakenSeated := by
  intro cell a' ha' index hproc
  rcases htakes cell a' ha' with hnone | ⟨a, ha, hold⟩
  · rw [hnone] at hproc
    cases hproc
  · obtain ⟨htaken, hseat⟩ := hold index hproc
    exact hseat (h cell a ha index htaken)

theorem takesNone_of_cells (hcells : t'.cells = t.cells) : TakesNone t t' := by
  intro cell a' ha'
  unfold State.actor at ha'
  rw [hcells] at ha'
  exact .inr ⟨a', ha', fun _ h => ⟨h, id⟩⟩

theorem takesNone_refl (t : State) : TakesNone t t := takesNone_of_cells rfl

theorem takesNone_setActor (ha : t.actor cell = some a)
    (hb : ∀ index, b.processing index = true →
      a.processing index = true ∧ (a.seatIds index ≠ 0 → b.seatIds index ≠ 0)) :
    TakesNone t (t.setActor cell b) := by
  intro c a' ha'
  rw [actor_setActor ha] at ha'
  split_ifs at ha' with hc
  · obtain rfl := Option.some.inj ha'
    subst hc
    exact .inr ⟨a, ha, hb⟩
  · exact .inr ⟨a', ha', fun _ h => ⟨h, id⟩⟩

theorem takesNone_actorCell (k : ℤ) (t : State) : TakesNone t (t.actorCell k).1 := by
  unfold actorCell
  split
  · exact takesNone_refl t
  · intro c a' ha'
    obtain ⟨x, hx, hxa⟩ := actor_eq_some.1 ha'
    rw [List.getElem?_append] at hx
    split_ifs at hx
    · exact .inr ⟨a', actor_eq_some.2 ⟨x, hx, hxa⟩, fun _ h => ⟨h, id⟩⟩
    · -- the new cell has no actor yet
      rw [List.mem_singleton.1 (List.mem_of_getElem? hx)] at hxa
      cases hxa

theorem takesNone_initCell (cell seatCount : ℕ) (t : State) :
    TakesNone t (t.initCell cell seatCount).1 := by
  unfold initCell
  split
  · exact takesNone_refl t
  · exact takesNone_refl t
  · split_ifs
    · exact takesNone_refl t
    · intro c a' ha'
      obtain ⟨x, hx, hxa⟩ := actor_eq_some.1 ha'
      rw [cells_setActor] at hx
      obtain ⟨y, hy, rfl⟩ := Option.map_eq_some_iff.1 hx
      split_ifs at hxa with hc
      · obtain rfl := Option.some.inj hxa
        exact .inl fun _ => rfl
      · exact .inr ⟨a', actor_eq_some.2 ⟨y, hy, hxa⟩, fun _ h => ⟨h, id⟩⟩

theorem takesNone_checkOpen (cell : ℕ) (k : ℤ) (seatCount : ℕ) (t : State) :
    TakesNone t (t.checkOpen cell k seatCount).1 := by
  unfold checkOpen
  cases ha : t.actor cell with
  | none => exact takesNone_refl t
  | some a =>
      dsimp only
      split_ifs
      · exact takesNone_setActor ha fun _ h => ⟨h, id⟩
      · exact takesNone_refl t
      · exact takesNone_refl t

theorem processing_clearSeats {seatIds : List ℤ} (h : (seatIds.foldl ShowActor.clearSeat a).processing
    index = true) : a.processing index = true := by
  induction seatIds generalizing a with
  | nil => exact h
  | cons seatId seatIds ih =>
      have hone := ih h
      unfold ShowActor.clearSeat at hone
      split at hone
      · exact hone
      · next j _ =>
        dsimp only at hone
        by_cases hj : index = j
        · subst hj
          rw [Redis.setAt_self] at hone
          cases hone
        · rwa [Redis.setAt_ne hj] at hone

theorem seatIds_clearSeats (seatIds : List ℤ) (a : ShowActor) :
    (seatIds.foldl ShowActor.clearSeat a).seatIds = a.seatIds := by
  induction seatIds generalizing a with
  | nil => rfl
  | cons seatId seatIds ih => exact (ih (a.clearSeat seatId)).trans (a.clearSeat_fields seatId).2

theorem takesNone_clearAdmission (k : ℤ) (seatIds : List ℤ) (t : State) :
    TakesNone t (t.clearAdmission k seatIds) := by
  unfold clearAdmission
  split
  · exact takesNone_refl t
  · split
    · exact takesNone_refl t
    · next a ha =>
      refine takesNone_setActor ha fun index h => ⟨processing_clearSeats h, fun hne => ?_⟩
      rw [seatIds_clearSeats]
      exact hne

theorem takesNone_handlePubsubMessage (event : Channel × Json) (t : State) :
    TakesNone t (t.handlePubsubMessage event) := by
  unfold handlePubsubMessage
  split
  · exact takesNone_of_cells rfl
  · next k seatIds _ => exact takesNone_clearAdmission k seatIds t

/-- The seats of a show whose actor is in another cell. -/
theorem available_setActor_ne {k : ℤ} (ha : t.actor cell = some a)
    (hcell : ¬t.showActors k = some cell) :
    (t.setActor cell b).available k seatId = t.available k seatId := by
  have hshows : (t.setActor cell b).showActors = t.showActors := rfl
  unfold available actorOf
  rw [hshows]
  cases hc : t.showActors k with
  | none => rfl
  | some c =>
      have hne : c ≠ cell := fun heq => hcell (heq ▸ hc)
      rw [Option.bind_some, Option.bind_some, actor_setActor ha, if_neg hne]

/-- A slot keeps its seat when seats are cleared. -/
theorem slotOf_clearAdmission (k : ℤ) (seatIds : List ℤ) (h : t.SlotOf cell index seatId) :
    (t.clearAdmission k seatIds).SlotOf cell index seatId := by
  obtain ⟨a, ha, hid⟩ := h
  unfold clearAdmission
  cases t.showActors k with
  | none => exact ⟨a, ha, hid⟩
  | some c =>
      dsimp only
      cases hb : t.actor c with
      | none => exact ⟨a, ha, hid⟩
      | some b =>
          by_cases hc : cell = c
          · subst hc
            rw [ha] at hb
            obtain rfl := Option.some.inj hb
            refine ⟨seatIds.foldl ShowActor.clearSeat a, ?_, ?_⟩
            · rw [actor_setActor ha, if_pos rfl]
            · rw [seatIds_clearSeats]
              exact hid
          · refine ⟨a, ?_, hid⟩
            rw [actor_setActor hb, if_neg hc]
            exact ha

end State

/-- Another seat is registered in the slot, or the slot was not taken. -/
theorem registerSeat_takesNone (a : ShowActor) (ha : a.Slots) (seatId oneBasedIndex : ℤ) {index : ℕ}
    (h : (a.registerSeat seatId oneBasedIndex).1.processing index = true) :
    a.processing index = true ∧
      (a.seatIds index ≠ 0 → (a.registerSeat seatId oneBasedIndex).1.seatIds index ≠ 0) := by
  obtain ⟨-, hids, hproc⟩ := ShowActor.registerSeat_slots ha seatId oneBasedIndex
  rw [hproc] at h
  refine ⟨h, fun hne => ?_⟩
  rw [hids index hne]
  exact hne

section Exec

open State

variable {i : ℕ} {l : Link} {c : Cmd} {s t : World} {r : Rep c} {g cell : ℕ}

/-- An operation on an actor, at the actor and around it. -/
theorem World.onActor_eq {ρ : Type} {f : ShowActor → ShowActor × ρ} {r : ρ}
    (h : s.onActor g cell f = some (t, r)) :
    ∃ a, (s.gateways g).actor cell = some a ∧ r = (f a).2 ∧
      t = s.setGateway g ((s.gateways g).setActor cell (f a).1) := by
  obtain ⟨⟨u, r'⟩, hu, heq⟩ := Option.map_eq_some_iff.1 h
  obtain ⟨rfl, rfl⟩ := Prod.mk.inj heq
  obtain ⟨a, ha, heq⟩ := Option.map_eq_some_iff.1 hu
  obtain ⟨rfl, rfl⟩ := Prod.mk.inj heq
  exact ⟨a, ha, rfl, rfl⟩

theorem World.takesNone_setGateway {u : State} (h : TakesNone (s.gateways g) u) (g' : ℕ) :
    TakesNone (s.gateways g') ((s.setGateway g u).gateways g') := by
  show TakesNone (s.gateways g') (Redis.setAt s.gateways g u g')
  by_cases hg : g' = g
  · subst hg
    rw [Redis.setAt_self]
    exact h
  · rw [Redis.setAt_ne hg]
    exact takesNone_refl _

theorem World.takesNone_onActor {ρ : Type} {f : ShowActor → ShowActor × ρ} {r : ρ}
    (hf : ∀ a, (s.gateways g).actor cell = some a → ∀ index, (f a).1.processing index = true →
      a.processing index = true ∧ (a.seatIds index ≠ 0 → (f a).1.seatIds index ≠ 0))
    (h : s.onActor g cell f = some (t, r)) (g' : ℕ) :
    TakesNone (s.gateways g') (t.gateways g') := by
  obtain ⟨⟨u, r'⟩, hu, heq⟩ := Option.map_eq_some_iff.1 h
  obtain ⟨rfl, -⟩ := Prod.mk.inj heq
  obtain ⟨a, ha, heq⟩ := Option.map_eq_some_iff.1 hu
  obtain ⟨rfl, -⟩ := Prod.mk.inj heq
  exact World.takesNone_setGateway (takesNone_setActor ha (hf a ha)) g'

/-- Only `try_admit` takes a slot. -/
theorem takesNone_exec (h : exec i l c s = some (t, r)) (hreg : ∀ g, Registered (s.gateways g))
    (hc : ∀ g cell index, c ≠ .tryAdmit g cell index) (g' : ℕ) :
    TakesNone (s.gateways g') (t.gateways g') := by
  have henqueue : ∀ (task : GatewayTask) (a : ShowActor) (index : ℕ),
      (a.enqueue task).1.processing index = true →
        a.processing index = true ∧ (a.seatIds index ≠ 0 → (a.enqueue task).1.seatIds index ≠ 0) := by
    intro task a index hproc
    obtain ⟨-, hids, hsame⟩ := enqueue_fields task a
    rw [hsame] at hproc
    rw [hids]
    exact ⟨hproc, id⟩
  cases c with
  | tryAdmit => exact absurd rfl (hc _ _ _)
  | service c =>
      obtain ⟨x, -, heq⟩ := Option.map_eq_some_iff.1 h
      obtain ⟨rfl, -⟩ := Prod.mk.inj heq
      exact takesNone_refl _
  | isClosed | hasCell =>
      obtain ⟨rfl, -⟩ := Prod.mk.inj (Option.some.inj h)
      exact takesNone_refl _
  | existsClosedKey showtimeId =>
      obtain rfl : s = t := by
        cases l <;> exact (Prod.mk.inj (Option.some.inj h)).1
      exact takesNone_refl _
  | insertClosed | removeCell | answer =>
      obtain ⟨rfl, -⟩ := Prod.mk.inj (Option.some.inj h)
      refine World.takesNone_setGateway ?_ g'
      exact takesNone_of_cells rfl
  | setClosing g cell =>
      simp only [exec] at h
      split at h
      · obtain ⟨rfl, -⟩ := Prod.mk.inj (Option.some.inj h)
        exact takesNone_refl _
      · next x hx =>
        obtain rfl := Option.some.inj h
        exact World.takesNone_onActor (fun _ _ _ hproc => ⟨hproc, id⟩) hx g'
  | actorCell g showtimeId =>
      obtain ⟨rfl, -⟩ := Prod.mk.inj (Option.some.inj h)
      exact World.takesNone_setGateway (takesNone_actorCell showtimeId _) g'
  | initCell g cell seatCount =>
      obtain ⟨rfl, -⟩ := Prod.mk.inj (Option.some.inj h)
      exact World.takesNone_setGateway (takesNone_initCell cell seatCount _) g'
  | checkOpen g cell showtimeId seatCount =>
      obtain ⟨rfl, -⟩ := Prod.mk.inj (Option.some.inj h)
      exact World.takesNone_setGateway (takesNone_checkOpen cell showtimeId seatCount _) g'
  | isClosing => exact World.takesNone_onActor (fun _ _ _ hproc => ⟨hproc, id⟩) h g'
  | registerSeat g cell =>
      exact World.takesNone_onActor
        (fun a ha _ => registerSeat_takesNone a ((hreg g).slots cell a ha) _ _) h g'
  | clearAdmission g showtimeId seatIds =>
      obtain ⟨rfl, -⟩ := Prod.mk.inj (Option.some.inj h)
      exact World.takesNone_setGateway (takesNone_clearAdmission showtimeId seatIds _) g'
  | trySend => exact World.takesNone_onActor (fun a _ => henqueue _ a) h g'
  | send g cell userId seatIds =>
      simp only [exec] at h
      split at h
      · next u hu =>
        obtain ⟨rfl, -⟩ := Prod.mk.inj (Option.some.inj h)
        exact World.takesNone_onActor (fun a _ => henqueue _ a) hu g'
      · cases h
  | awaitAnswer g =>
      simp only [exec] at h
      split at h
      · cases h
      · obtain ⟨rfl, -⟩ := Prod.mk.inj (Option.some.inj h)
        exact takesNone_refl _
  | recv g cell =>
      simp only [exec] at h
      split at h
      · cases h
      · next a ha =>
        split at h
        · cases h
        · obtain ⟨rfl, -⟩ := Prod.mk.inj (Option.some.inj h)
          refine World.takesNone_setGateway ?_ g'
          exact takesNone_setActor ha fun _ hproc => ⟨hproc, id⟩
  | handleEvent g =>
      simp only [exec] at h
      split at h
      · cases h
      · next event _ =>
        obtain ⟨rfl, -⟩ := Prod.mk.inj (Option.some.inj h)
        exact World.takesNone_setGateway (takesNone_handlePubsubMessage event _) g'
  | publishLocking message =>
      have hgate : t.gateways = s.gateways := by
        cases l <;> obtain ⟨rfl, -⟩ := Prod.mk.inj (Option.some.inj h) <;> rfl
      rw [hgate]
      exact takesNone_refl _

/-- A seat stays in its slot. -/
theorem slotOf_exec (h : exec i l c s = some (t, r)) (hreg : Registered (s.gateways g))
    {index : ℕ} {seatId : ℤ} (hne : seatId ≠ 0)
    (hslot : (s.gateways g).SlotOf cell index seatId) : (t.gateways g).SlotOf cell index seatId := by
  by_cases hclears : Clears c
  · have hclear : ∀ {u : State} {g₀ : ℕ}, (u.SlotOf cell index seatId ∨ g ≠ g₀) →
        ((s.setGateway g₀ u).gateways g).SlotOf cell index seatId := by
      intro u g₀ hu
      show (Redis.setAt s.gateways g₀ u g).SlotOf cell index seatId
      by_cases hg : g = g₀
      · subst hg
        rw [Redis.setAt_self]
        exact hu.resolve_right fun hne => hne rfl
      · rwa [Redis.setAt_ne hg]
    have hcases : ∀ {u : State} {g₀ : ℕ}, (g = g₀ → u.SlotOf cell index seatId) →
        u.SlotOf cell index seatId ∨ g ≠ g₀ := by
      intro u g₀ hu
      by_cases hg : g = g₀
      · exact .inl (hu hg)
      · exact .inr hg
    cases c with
    | clearAdmission g₀ showtimeId seatIds =>
        obtain ⟨rfl, -⟩ := Prod.mk.inj (Option.some.inj h)
        refine hclear (hcases ?_)
        rintro rfl
        exact slotOf_clearAdmission showtimeId seatIds hslot
    | handleEvent g₀ =>
        simp only [exec] at h
        split at h
        · cases h
        · next event _ =>
          obtain ⟨rfl, -⟩ := Prod.mk.inj (Option.some.inj h)
          refine hclear (hcases ?_)
          rintro rfl
          unfold State.handlePubsubMessage
          split
          · exact hslot
          · next k seatIds _ => exact slotOf_clearAdmission k seatIds hslot
    | _ => exact hclears.elim
  · obtain ⟨a, ha, hid⟩ := hslot
    obtain ⟨x, hx, hxa⟩ := actor_eq_some.1 ha
    obtain ⟨a', ha', hids, -⟩ := (steady_exec h hclears g).cells cell x a hx hxa hreg
    refine ⟨a', actor_eq_some.2 ⟨_, ha', rfl⟩, ?_⟩
    rw [hids index (by rw [hid]; exact hne)]
    exact hid

/-- A seat that is registered again is taken only where it was. -/
theorem registerSeat_taken {a : ShowActor} (ha : a.Slots)
    (hseated : ∀ index, a.processing index = true → a.seatIds index ≠ 0) {seatId k : ℤ}
    (oneBasedIndex : ℤ) (h : (a.registerSeat seatId oneBasedIndex).1.available k = false) :
    a.available k = false := by
  obtain ⟨hslots, hids, hproc⟩ := ShowActor.registerSeat_slots ha seatId oneBasedIndex
  unfold ShowActor.available at h ⊢
  cases hindex : (a.registerSeat seatId oneBasedIndex).1.seatIndices k with
  | none =>
      rw [hindex] at h
      cases h
  | some index =>
      rw [hindex, hproc] at h
      have htaken : a.processing index = true := by simpa using h
      obtain ⟨hid, hne⟩ := (hslots k index).1 hindex
      -- the slot had its seat before
      have hold : a.seatIds index = k := by rw [← hids index (hseated index htaken), hid]
      rw [(ha k index).2 ⟨hold, hne⟩]
      simpa using htaken

/-- A seat that is not available was not so before, or its slot has just been taken. -/
theorem taken_cases (h : exec i l c s = some (t, r)) (hreg : ∀ g, Registered (s.gateways g))
    (hseated : ∀ g, (s.gateways g).TakenSeated) {k seatId : ℤ}
    (htaken : (t.gateways g).available k seatId = false) :
    (s.gateways g).available k seatId = false ∨
      ∃ cell index a, c = .tryAdmit g cell index ∧ (s.gateways g).showActors k = some cell ∧
        (s.gateways g).actor cell = some a ∧ a.processing index = false ∧
          a.seatIds index = seatId := by
  by_cases hfree : (s.gateways g).available k seatId = false
  · exact .inl hfree
  have hfree : (s.gateways g).available k seatId = true := by simpa using hfree
  have hnot : ¬(t.gateways g).available k seatId = true := by
    rw [htaken]
    exact Bool.false_ne_true
  by_cases hclaims : Claims [seatId] s c
  · cases c with
    | registerSeat g' cell seatId' seatIndex =>
        refine absurd ?_ hnot
        obtain ⟨a, ha, -, rfl⟩ := World.onActor_eq h
        by_cases hg : g = g'
        · subst hg
          show (Redis.setAt s.gateways g _ g).available k seatId = true
          rw [Redis.setAt_self]
          refine available_setActor ha (fun hold => ?_) hfree
          by_contra hnew
          have hnew := registerSeat_taken ((hreg g).slots cell a ha) (hseated g cell a ha) seatIndex
            (by simpa using hnew)
          rw [hold] at hnew
          cases hnew
        · show (Redis.setAt s.gateways g' _ g).available k seatId = true
          rw [Redis.setAt_ne hg]
          exact hfree
    | tryAdmit g' cell index =>
        obtain ⟨a, ha, -, rfl⟩ := World.onActor_eq h
        unfold Claims at hclaims
        simp only [ha, List.mem_singleton] at hclaims
        by_cases hg : g = g'
        · subst hg
          have ht : ((s.gateways g).setActor cell (a.tryAdmit index).1).available k seatId = false := by
            have hself : (Redis.setAt s.gateways g ((s.gateways g).setActor cell
                (a.tryAdmit index).1) g).available k seatId = false := htaken
            rwa [Redis.setAt_self] at hself
          rcases a.tryAdmit_cases index with ⟨-, heq⟩ | ⟨hproc, heq⟩
          · -- the slot was taken already
            rw [heq] at ht
            rw [available_setActor ha id hfree] at ht
            cases ht
          · refine .inr ⟨cell, index, a, rfl, ?_, ha, hproc, hclaims⟩
            by_contra hcell
            have hsame : ((s.gateways g).setActor cell (a.tryAdmit index).1).available k seatId =
                (s.gateways g).available k seatId := available_setActor_ne ha hcell
            rw [hsame, hfree] at ht
            cases ht
        · refine absurd ?_ hnot
          show (Redis.setAt s.gateways g' _ g).available k seatId = true
          rw [Redis.setAt_ne hg]
          exact hfree
    | _ => exact absurd hclaims id
  · refine absurd ?_ hnot
    rcases keepsFree_exec (g := g) h hreg hclaims with ⟨event, -, -, hgate⟩ | hkeeps
    · rw [hgate]
      exact available_handlePubsubMessage (.inl hfree)
    · exact hkeeps.free k seatId (List.mem_singleton_self _) hfree

end Exec

end Gateway
end Bookit

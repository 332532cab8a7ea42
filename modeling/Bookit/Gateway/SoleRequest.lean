import Bookit.Gateway.Admission
import Bookit.Lib.Alone

/-!
# Gateway.SoleRequest — one request in a replica

A request is followed to its end in a replica that works on nothing else, while the other services
may do anything between any two of its commands.  Where it waits for its answer, the actor works on
its task, or panics and drops the reply.  What becomes of the seat locks on the way is recorded.

* `ShowActor.registerSeats` — the registrations of a request, as one change of the actor;
* `beginRequest_ends`, `registerSeats_ends` — what the parts of a request do to the actor.
-/

namespace Bookit
namespace Gateway

open Lib LockServer

/-! ## Registrations -/

namespace ShowActor

/-- The registrations of a request, up to the first that is refused. -/
def registerSeats : List (ℤ × ℤ) → ShowActor → ShowActor × Except String (List (ℤ × ℕ))
  | [], a => (a, .ok [])
  | (seatId, seatIndex) :: seats, a =>
      match a.registerSeat seatId seatIndex with
      | (b, .error e) => (b, .error e)
      | (b, .ok index) =>
          match registerSeats seats b with
          | (c, .error e) => (c, .error e)
          | (c, .ok rest) => (c, .ok ((seatId, index) :: rest))

/-- The seats, their slots and which of them are admitted are the same. -/
structure SameSeats (a b : ShowActor) : Prop where
  seatIndices : b.seatIndices = a.seatIndices
  seatIds : b.seatIds = a.seatIds
  processing : b.processing = a.processing

theorem SameSeats.refl (a : ShowActor) : SameSeats a a := ⟨rfl, rfl, rfl⟩

theorem SameSeats.trans {a b c : ShowActor} : SameSeats a b → SameSeats b c → SameSeats a c := by
  intro hab hbc
  refine ⟨?_, ?_, ?_⟩
  · rw [hbc.seatIndices, hab.seatIndices]
  · rw [hbc.seatIds, hab.seatIds]
  · rw [hbc.processing, hab.processing]

/-- The seat has its slot. -/
def Placed (a : ShowActor) (seatId : ℤ) (index : ℕ) : Prop :=
  a.seatIndices seatId = some index ∧ a.seatIds index = seatId

/-- `register_seat` refuses the seat and leaves the actor as it is. -/
def TurnsAway (a : ShowActor) (seatId seatIndex : ℤ) : Prop :=
  seatId ≤ 0 ∨ ¬(1 ≤ seatIndex ∧ (seatIndex - 1).toNat < a.seatCount) ∨
    (∃ index, a.seatIndices seatId = some index ∧ index ≠ (seatIndex - 1).toNat) ∨
    (a.seatIndices seatId = none ∧ a.seatIds (seatIndex - 1).toNat ≠ 0 ∧
      a.seatIds (seatIndex - 1).toNat ≠ seatId)

/-- What a registration can do. -/
inductive Registers (a : ShowActor) (seatId seatIndex : ℤ) :
    ShowActor × Except String ℕ → Prop
  | away {e : String} : a.TurnsAway seatId seatIndex → Registers a seatId seatIndex (a, .error e)
  /-- The entry of a seat whose slot another seat has taken is removed. -/
  | removed {e : String} :
      ¬a.TurnsAway seatId seatIndex → a.seatIndices seatId = some (seatIndex - 1).toNat →
        a.seatIds (seatIndex - 1).toNat ≠ seatId →
          Registers a seatId seatIndex
            ({ a with seatIndices := Redis.setAt a.seatIndices seatId none }, .error e)
  | known :
      ¬a.TurnsAway seatId seatIndex → a.Placed seatId (seatIndex - 1).toNat →
        Registers a seatId seatIndex (a, .ok (seatIndex - 1).toNat)
  | placed {b : ShowActor} :
      ¬a.TurnsAway seatId seatIndex → ¬a.Placed seatId (seatIndex - 1).toNat →
        (a.seatIds (seatIndex - 1).toNat = 0 ∨ a.seatIds (seatIndex - 1).toNat = seatId) →
          b = { a with
            seatIndices := Redis.setAt a.seatIndices seatId (some (seatIndex - 1).toNat)
            seatIds := Redis.setAt a.seatIds (seatIndex - 1).toNat seatId } →
            Registers a seatId seatIndex (b, .ok (seatIndex - 1).toNat)

section Registers

variable {a b : ShowActor} {seatId seatIndex : ℤ} {r : Except String ℕ}

/-- A value that is written where it stands already. -/
theorem setAt_same {K V : Type} [DecidableEq K] {f : K → V} {k : K} {v : V} :
    f k = v → Redis.setAt f k v = f := by
  intro h
  funext j
  by_cases hj : j = k
  · rw [hj, Redis.setAt_self, h]
  · rw [Redis.setAt_ne hj]

theorem pos_of_not_turnsAway : ¬a.TurnsAway seatId seatIndex → 0 < seatId := by
  intro h
  by_contra hpos
  exact h (.inl (Int.not_lt.1 hpos))

theorem registers_registerSeat (a : ShowActor) (seatId seatIndex : ℤ) :
    a.Registers seatId seatIndex (a.registerSeat seatId seatIndex) := by
  unfold registerSeat
  by_cases hpos : seatId ≤ 0
  · rw [if_pos hpos]
    exact .away (.inl hpos)
  rw [if_neg hpos]
  by_cases hrange : 1 ≤ seatIndex ∧ (seatIndex - 1).toNat < a.seatCount
  · rw [if_neg (not_not.2 hrange)]
    dsimp only
    cases hmap : a.seatIndices seatId with
    | some existing =>
        dsimp only
        by_cases hsame : existing = (seatIndex - 1).toNat
        · subst hsame
          have haway : ¬a.TurnsAway seatId seatIndex := by
            rintro (h | h | ⟨index, h, hne⟩ | ⟨h, -⟩)
            · exact hpos h
            · exact h hrange
            · exact hne (Option.some.inj (h.symm.trans hmap))
            · rw [hmap] at h
              cases h
          rw [if_neg (not_not.2 rfl)]
          unfold takeSlot
          by_cases hfree : a.seatIds (seatIndex - 1).toNat = 0
          · rw [if_pos hfree]
            refine .placed haway ?_ (.inl hfree) ?_
            · rintro ⟨-, hheld⟩
              exact (pos_of_not_turnsAway haway).ne' (hheld.symm.trans hfree)
            · rw [setAt_same hmap]
          · rw [if_neg hfree]
            by_cases hheld : a.seatIds (seatIndex - 1).toNat = seatId
            · rw [if_pos hheld]
              exact .known haway ⟨hmap, hheld⟩
            · rw [if_neg hheld]
              exact .removed haway hmap hheld
        · rw [if_pos hsame]
          exact .away (.inr (.inr (.inl ⟨existing, hmap, hsame⟩)))
    | none =>
        unfold takeSlot
        dsimp only
        have hstays : ¬a.Placed seatId (seatIndex - 1).toNat := by
          rintro ⟨h, -⟩
          rw [hmap] at h
          cases h
        have haway : a.seatIds (seatIndex - 1).toNat = 0 ∨
            a.seatIds (seatIndex - 1).toNat = seatId → ¬a.TurnsAway seatId seatIndex := by
          rintro hslot (h | h | ⟨index, h, -⟩ | ⟨-, hne, hother⟩)
          · exact hpos h
          · exact h hrange
          · rw [hmap] at h
            cases h
          · exact hslot.elim hne hother
        by_cases hfree : a.seatIds (seatIndex - 1).toNat = 0
        · rw [if_pos hfree]
          exact .placed (haway (.inl hfree)) hstays (.inl hfree) rfl
        · rw [if_neg hfree]
          by_cases hheld : a.seatIds (seatIndex - 1).toNat = seatId
          · rw [if_pos hheld]
            refine .placed (haway (.inr hheld)) hstays (.inr hheld) ?_
            rw [setAt_same hheld]
          · rw [if_neg hheld]
            have hback : Redis.setAt (Redis.setAt a.seatIndices seatId
                (some (seatIndex - 1).toNat)) seatId none = a.seatIndices := by
              funext k
              by_cases hk : k = seatId
              · rw [hk, Redis.setAt_self, hmap]
              · rw [Redis.setAt_ne hk, Redis.setAt_ne hk]
            rw [hback]
            exact .away (.inr (.inr (.inr ⟨hmap, hfree, hheld⟩)))
  · rw [if_pos hrange]
    exact .away (.inr (.inl hrange))

/-- A seat that has its slot keeps it. -/
theorem Registers.keepsPlaced {other : ℤ} {index : ℕ} (h : a.Registers seatId seatIndex (b, r)) :
    other ≠ 0 → a.Placed other index → b.Placed other index := by
  rintro hne ⟨hmap, hslot⟩
  cases h with
  | away _ => exact ⟨hmap, hslot⟩
  | known _ _ => exact ⟨hmap, hslot⟩
  | removed _ hentry hother =>
      refine ⟨?_, hslot⟩
      have hseat : other ≠ seatId := by
        rintro rfl
        rw [hmap] at hentry
        obtain rfl := Option.some.inj hentry
        exact hother hslot
      dsimp only
      rwa [Redis.setAt_ne hseat]
  | placed haway _ hfree hb =>
      subst hb
      by_cases hseat : other = seatId
      · subst hseat
        have hindex : index = (seatIndex - 1).toNat := by
          by_contra hindex
          exact haway (.inr (.inr (.inl ⟨index, hmap, hindex⟩)))
        subst hindex
        exact ⟨Redis.setAt_self, Redis.setAt_self⟩
      · have hindex : index ≠ (seatIndex - 1).toNat := by
          rintro rfl
          rw [hslot] at hfree
          exact hfree.elim hne hseat
        exact ⟨(Redis.setAt_ne hseat).trans hmap, (Redis.setAt_ne hindex).trans hslot⟩

/-- A registration that succeeds has placed its seat. -/
theorem Registers.placed_of_ok {index : ℕ} (h : a.Registers seatId seatIndex (b, .ok index)) :
    0 < seatId ∧ b.Placed seatId index := by
  cases h with
  | known haway hplaced => exact ⟨pos_of_not_turnsAway haway, hplaced⟩
  | placed haway _ _ hb =>
      subst hb
      exact ⟨pos_of_not_turnsAway haway, Redis.setAt_self, Redis.setAt_self⟩

/-- Registrations have nothing to do with the rest of the actor. -/
theorem Registers.fields (h : a.Registers seatId seatIndex (b, r)) :
    b.seatCount = a.seatCount ∧ b.processing = a.processing ∧ b.queue = a.queue ∧
      b.closing = a.closing := by
  cases h with
  | away _ => exact ⟨rfl, rfl, rfl, rfl⟩
  | removed _ _ _ => exact ⟨rfl, rfl, rfl, rfl⟩
  | known _ _ => exact ⟨rfl, rfl, rfl, rfl⟩
  | placed _ _ _ hb =>
      subst hb
      exact ⟨rfl, rfl, rfl, rfl⟩

/-- The registrations of a list, one by one. -/
theorem registerSeats_cons (a : ShowActor) (seatId seatIndex : ℤ) (seats : List (ℤ × ℤ)) :
    ∃ b r, a.Registers seatId seatIndex (b, r) ∧
      ((∃ e, r = .error e ∧ registerSeats ((seatId, seatIndex) :: seats) a = (b, .error e)) ∨
       ∃ index c, r = .ok index ∧
        ((∃ e, registerSeats seats b = (c, .error e) ∧
            registerSeats ((seatId, seatIndex) :: seats) a = (c, .error e)) ∨
          ∃ rest, registerSeats seats b = (c, .ok rest) ∧
            registerSeats ((seatId, seatIndex) :: seats) a = (c, .ok ((seatId, index) :: rest)))) := by
  have hregisters := registers_registerSeat a seatId seatIndex
  match hr : a.registerSeat seatId seatIndex with
  | (b, .error e) =>
      rw [hr] at hregisters
      exact ⟨b, _, hregisters, .inl ⟨e, rfl, by simp only [registerSeats, hr]⟩⟩
  | (b, .ok index) =>
      rw [hr] at hregisters
      refine ⟨b, _, hregisters, .inr ⟨index, ?_⟩⟩
      match hrest : registerSeats seats b with
      | (c, .error e) =>
          exact ⟨c, rfl, .inl ⟨e, rfl, by simp only [registerSeats, hr, hrest]⟩⟩
      | (c, .ok rest) =>
          exact ⟨c, rfl, .inr ⟨rest, rfl, by simp only [registerSeats, hr, hrest]⟩⟩

/-- What the registrations of a request leave as it is. -/
theorem registerSeats_fields (seats : List (ℤ × ℤ)) (a : ShowActor) :
    (registerSeats seats a).1.seatCount = a.seatCount ∧
      (registerSeats seats a).1.processing = a.processing ∧
      (registerSeats seats a).1.queue = a.queue ∧ (registerSeats seats a).1.closing = a.closing := by
  induction seats generalizing a with
  | nil => exact ⟨rfl, rfl, rfl, rfl⟩
  | cons seat seats ih =>
      obtain ⟨seatId, seatIndex⟩ := seat
      obtain ⟨b, r, hb, ⟨e, -, heq⟩ | ⟨index, c, -, ⟨e, hc, heq⟩ | ⟨rest, hc, heq⟩⟩⟩ :=
        registerSeats_cons a seatId seatIndex seats
      · rw [heq]
        exact hb.fields
      · have hfields := ih b
        obtain ⟨hcount, hproc, hqueue, hclosing⟩ := hb.fields
        rw [hc, hcount, hproc, hqueue, hclosing] at hfields
        rw [heq]
        exact hfields
      · have hfields := ih b
        obtain ⟨hcount, hproc, hqueue, hclosing⟩ := hb.fields
        rw [hc, hcount, hproc, hqueue, hclosing] at hfields
        rw [heq]
        exact hfields

/-- A seat that has its slot keeps it. -/
theorem registerSeats_keepsPlaced {seats : List (ℤ × ℤ)} {other : ℤ} {index : ℕ} :
    other ≠ 0 → a.Placed other index → (registerSeats seats a).1.Placed other index := by
  intro hne hplaced
  induction seats generalizing a with
  | nil => exact hplaced
  | cons seat seats ih =>
      obtain ⟨seatId, seatIndex⟩ := seat
      obtain ⟨b, r, hb, ⟨e, -, heq⟩ | ⟨index, c, -, ⟨e, hc, heq⟩ | ⟨rest, hc, heq⟩⟩⟩ :=
        registerSeats_cons a seatId seatIndex seats
      · rw [heq]
        exact hb.keepsPlaced hne hplaced
      · have hrest := ih (hb.keepsPlaced hne hplaced)
        rw [hc] at hrest
        rwa [heq]
      · have hrest := ih (hb.keepsPlaced hne hplaced)
        rw [hc] at hrest
        rwa [heq]

/-- The seats of a request that are all registered, each in the slot that it was given. -/
theorem registerSeats_placed {seats : List (ℤ × ℤ)} {b : ShowActor} {placed : List (ℤ × ℕ)} :
    registerSeats seats a = (b, .ok placed) →
      placed.map Prod.fst = seats.map Prod.fst ∧
        ∀ x ∈ placed, 0 < x.1 ∧ b.Placed x.1 x.2 := by
  intro h
  induction seats generalizing a placed with
  | nil =>
      obtain ⟨rfl, heq⟩ := Prod.mk.inj h
      obtain rfl := Except.ok.inj heq
      exact ⟨rfl, fun x hx => nomatch hx⟩
  | cons seat seats ih =>
      obtain ⟨seatId, seatIndex⟩ := seat
      obtain ⟨b', r, hb, ⟨e, -, heq⟩ | ⟨index, c, rfl, ⟨e, hc, heq⟩ | ⟨rest, hc, heq⟩⟩⟩ :=
        registerSeats_cons a seatId seatIndex seats
      · rw [h] at heq
        cases heq
      · rw [h] at heq
        cases heq
      · rw [h] at heq
        obtain ⟨rfl, hplaced⟩ := Prod.mk.inj heq
        obtain rfl := Except.ok.inj hplaced
        obtain ⟨hids, hrest⟩ := ih hc
        obtain ⟨hpos, hfirst⟩ := hb.placed_of_ok
        refine ⟨by rw [List.map_cons, List.map_cons, hids], fun x hx => ?_⟩
        rcases List.mem_cons.1 hx with rfl | hx
        · have hkept : (registerSeats seats b').1.Placed seatId index :=
            registerSeats_keepsPlaced hpos.ne' hfirst
          rw [hc] at hkept
          exact ⟨hpos, hkept⟩
        · exact hrest x hx

end Registers

end ShowActor

/-! ## The actor of a show -/

namespace State

variable {t : State} {showtimeId totalSeatCount : ℤ} {cell : ℕ} {a b : ShowActor}

/-- The show has its actor in the cell. -/
def Serves (t : State) (showtimeId : ℤ) (cell : ℕ) (a : ShowActor) : Prop :=
  t.showActors showtimeId = some cell ∧ t.cells[cell]? = some ⟨showtimeId, some a⟩

/-- The actor of a show; the first request makes one. -/
def showActor (t : State) (showtimeId totalSeatCount : ℤ) : ShowActor :=
  (t.actorOf showtimeId).getD (.new totalSeatCount.toNat)

/-- The map has the show's own cell. -/
def OwnCell (t : State) (showtimeId : ℤ) : Prop :=
  ∀ cell, t.showActors showtimeId = some cell →
    ∃ x, t.cells[cell]? = some x ∧ x.showtimeId = showtimeId

/-- A request is refused before it registers a seat. -/
def Refuses (t : State) (showtimeId totalSeatCount : ℤ) : Prop :=
  t.closedShows showtimeId = true ∨
    ¬(0 < totalSeatCount ∧ totalSeatCount ≤ maxSeatsPerShow) ∨
    (t.showActor showtimeId totalSeatCount).seatCount ≠ totalSeatCount.toNat ∨
    (t.showActor showtimeId totalSeatCount).closing = true

theorem Serves.actorOf : t.Serves showtimeId cell a → t.actorOf showtimeId = some a := by
  rintro ⟨hmap, hcell⟩
  unfold State.actorOf State.actor
  rw [hmap]
  simp [hcell]

theorem Serves.actor : t.Serves showtimeId cell a → t.actor cell = some a := by
  rintro ⟨-, hcell⟩
  exact actor_eq_some.2 ⟨_, hcell, rfl⟩

theorem Serves.showActor : t.Serves showtimeId cell a → t.showActor showtimeId totalSeatCount = a := by
  intro h
  unfold State.showActor
  rw [h.actorOf]
  rfl

theorem Serves.setActor (h : t.Serves showtimeId cell a) (b : ShowActor) :
    (t.setActor cell b).Serves showtimeId cell b := by
  obtain ⟨hmap, hcell⟩ := h
  refine ⟨hmap, ?_⟩
  rw [cells_setActor, hcell]
  simp

theorem Serves.clearAdmission (h : t.Serves showtimeId cell a) (seatIds : List ℤ) :
    (t.clearAdmission showtimeId seatIds).Serves showtimeId cell
      (seatIds.foldl ShowActor.clearSeat a) := by
  have hset := h.setActor (seatIds.foldl ShowActor.clearSeat a)
  unfold State.clearAdmission
  rw [h.1]
  dsimp only
  rw [h.actor]
  exact hset

/-- The cell that a request is given. -/
theorem serves_actorCell (h : t.OwnCell showtimeId) :
    (t.actorCell showtimeId).1.showActors showtimeId = some (t.actorCell showtimeId).2 ∧
      (t.actorCell showtimeId).1.cells[(t.actorCell showtimeId).2]? =
        some ⟨showtimeId, t.actorOf showtimeId⟩ ∧
      (t.actorCell showtimeId).1.closedShows = t.closedShows := by
  unfold State.actorCell
  cases hmap : t.showActors showtimeId with
  | none =>
      refine ⟨Redis.setAt_self, ?_, rfl⟩
      simp [State.actorOf, hmap]
  | some cell =>
      obtain ⟨x, hx, rfl⟩ := h cell hmap
      refine ⟨hmap, ?_, rfl⟩
      simp [State.actorOf, State.actor, hmap, hx]

/-- The actor that a request finds in its cell, or makes. -/
theorem serves_initCell {seatCount : ℕ} {made : Option ShowActor} {t' : State}
    (hmap : t.showActors showtimeId = some cell) (hcell : t.cells[cell]? = some ⟨showtimeId, made⟩)
    {r : Except String Unit} (h : t.initCell cell seatCount = (t', r)) :
    t'.closedShows = t.closedShows ∧
      ((∃ e, r = .error e ∧ t' = t ∧ t.closedShows showtimeId = true) ∨
        (r = .ok () ∧ t'.Serves showtimeId cell (made.getD (.new seatCount)))) := by
  unfold State.initCell at h
  rw [hcell] at h
  cases made with
  | some a =>
      obtain ⟨rfl, rfl⟩ := Prod.mk.inj h
      exact ⟨rfl, .inr ⟨rfl, hmap, hcell⟩⟩
  | none =>
      by_cases hclosed : t.closedShows showtimeId = true
      · dsimp only at h
        rw [if_pos hclosed] at h
        obtain ⟨rfl, rfl⟩ := Prod.mk.inj h
        exact ⟨rfl, .inl ⟨_, rfl, rfl, hclosed⟩⟩
      · dsimp only at h
        rw [if_neg hclosed] at h
        obtain ⟨rfl, rfl⟩ := Prod.mk.inj h
        refine ⟨rfl, .inr ⟨rfl, hmap, ?_⟩⟩
        rw [cells_setActor, hcell]
        simp

/-- The last checks on the actor. -/
theorem serves_checkOpen {seatCount : ℕ} {t' : State} (hserves : t.Serves showtimeId cell a)
    {r : Except String Unit} (h : t.checkOpen cell showtimeId seatCount = (t', r)) :
    (∃ e b, r = .error e ∧ t'.Serves showtimeId cell b ∧ a.SameSeats b ∧
        (t.closedShows showtimeId = true ∨ a.seatCount ≠ seatCount)) ∨
      (r = .ok () ∧ t' = t ∧ t.closedShows showtimeId = false ∧ a.seatCount = seatCount) := by
  unfold State.checkOpen at h
  rw [hserves.actor] at h
  dsimp only at h
  by_cases hclosed : t.closedShows showtimeId = true
  · rw [if_pos hclosed] at h
    obtain ⟨rfl, rfl⟩ := Prod.mk.inj h
    exact .inl ⟨_, _, rfl, hserves.setActor _, ⟨rfl, rfl, rfl⟩, .inl hclosed⟩
  · rw [if_neg hclosed] at h
    by_cases hcount : a.seatCount = seatCount
    · rw [if_pos hcount] at h
      obtain ⟨rfl, rfl⟩ := Prod.mk.inj h
      exact .inr ⟨rfl, rfl, Bool.eq_false_iff.2 hclosed, hcount⟩
    · rw [if_neg hcount] at h
      obtain ⟨rfl, rfl⟩ := Prod.mk.inj h
      exact .inl ⟨_, a, rfl, hserves, .refl a, .inr hcount⟩

end State

/-! ## Steps of a request -/

namespace SoleRequest

/-- What becomes of a seat lock: a `SET` that takes effect, whose reply may or may not arrive, and an
owner that is found.  A reply of the actor may be dropped. -/
inductive Event where
  | taken (showtimeId seatId userId : ℤ) (answered : Bool)
  | found (showtimeId seatId userId : ℤ)
  | dropped
  deriving DecidableEq

def recorded (l : Link) : (c : Cmd) → World → World → Rep c → List Event
  | .service (.redis (.setLockNx showtimeId seatId userId _)), s, t, _ =>
      if s.services.redis.lockOwner showtimeId seatId = none ∧
          t.services.redis.lockOwner showtimeId seatId = some userId then
        [.taken showtimeId seatId userId (decide (l = .ok))]
      else
        []
  | .service (.redis (.getLock showtimeId seatId)), _, _, r =>
      match r with
      | some (some userId) => [.found showtimeId seatId userId]
      | _ => []
  | _, _, _, _ => []

/-- The world, and what has been recorded. -/
abbrev Moment := World × List Event

/-- A command in the replica; the other services may have done anything before it. -/
def Step (g i : ℕ) (c : Cmd) (s t : Moment) (r : Rep c) : Prop :=
  ∃ (w : World) (l : Link), w.gateways g = s.1.gateways g ∧ exec i l c w = some (t.1, r) ∧
    t.2 = s.2 ++ recorded l c w t.1 r

/-- The actor takes the task at the end of its queue, when it has served the others. -/
def TakesUp (g : ℕ) (s w : World) (showtimeId : ℤ) (task : GatewayTask) : Prop :=
  ∃ (cell : ℕ) (a : ShowActor) (tasks : List GatewayTask),
    (s.gateways g).Serves showtimeId cell a ∧ a.queue = tasks ++ [task] ∧
      w.gateways g = (s.gateways g).setActor cell { a with queue := [] }

/-- How a request that waits is answered.  A dropped reply reads as an answer without a result. -/
inductive Replies (g i : ℕ) (showtimeId : ℤ) (s t : Moment) : Answer → Prop
  | locked {w : World} {userId : ℤ} {seatIds : List ℤ} {result : LockResult} :
      TakesUp g s.1 w showtimeId (.lock i userId seatIds) →
        (acquireAndPublish userId showtimeId seatIds).Ends (Step g i) (w, s.2) t result →
          Replies g i showtimeId s t (.lock result)
  | cancelled {w : World} {userId : ℤ} {seatIds cancelled : List ℤ} :
      TakesUp g s.1 w showtimeId (.cancel i userId seatIds) →
        (cancelCommitted userId showtimeId seatIds).Ends (Step g i) (w, s.2) t cancelled →
          Replies g i showtimeId s t (.cancel cancelled)
  /-- The actor panics while it serves a lock task, and clears its seats. -/
  | dropped {w : World} {u : Moment} {userId : ℤ} {seatIds : List ℤ} :
      TakesUp g s.1 w showtimeId (.lock i userId seatIds) →
        (acquireAndPublish userId showtimeId seatIds).Passes (Step g i) (w, s.2) u →
          t.1.gateways g = (u.1.gateways g).clearAdmission showtimeId seatIds →
            t.2 = u.2 ++ [.dropped] → Replies g i showtimeId s t (.cancel [])

/-- A command of the request, the wait for its answer included. -/
inductive RequestStep (g i : ℕ) (showtimeId : ℤ) : (c : Cmd) → Moment → Moment → Rep c → Prop
  | command {c : Cmd} {s t : Moment} {r : Rep c} :
      (∀ g', c ≠ .awaitAnswer g') → Step g i c s t r → RequestStep g i showtimeId c s t r
  | answered {s t : Moment} {a : Answer} :
      Replies g i showtimeId s t a → RequestStep g i showtimeId (.awaitAnswer g) s t a

/-! ## What a step does to the replica -/

section Steps

variable {g i : ℕ} {c : Cmd} {s t : Moment} {r : Rep c}

/-- What a command does to the replica, it does there whatever the other services do. -/
theorem Step.memory {P : State → State → Rep c → Prop} (hexec : ∀ l w t r,
      exec i l c w = some (t, r) → P (w.gateways g) (t.gateways g) r) :
    Step g i c s t r → P (s.1.gateways g) (t.1.gateways g) r := by
  rintro ⟨w, l, hmem, hw, -⟩
  rw [← hmem]
  exact hexec l w t.1 r hw

/-- Commands other than those on seat locks are not recorded. -/
theorem Step.log (hnone : ∀ l w t r, recorded l c w t r = []) :
    Step g i c s t r → t.2 = s.2 := by
  rintro ⟨w, l, -, -, hlog⟩
  rw [hlog, hnone, List.append_nil]

/-- Commands that neither ask another service nor wait for the answer. -/
def AtOnce : Cmd → Prop
  | .service _ => False
  | .awaitAnswer _ => False
  | _ => True

theorem recorded_atOnce (hc : AtOnce c) (l : Link) (w t : World) (r : Rep c) :
    recorded l c w t r = [] := by
  cases c with
  | service k => exact absurd hc id
  | _ => rfl

theorem onActor_memory {ρ : Type} {w u : World} {cell : ℕ} {f : ShowActor → ShowActor × ρ} {r : ρ} :
    w.onActor g cell f = some (u, r) → ∃ a, (w.gateways g).actor cell = some a ∧
      u.gateways g = (w.gateways g).setActor cell (f a).1 ∧ r = (f a).2 := by
  intro h
  obtain ⟨⟨x, r'⟩, hx, heq⟩ := Option.map_eq_some_iff.1 h
  obtain ⟨rfl, rfl⟩ := Prod.mk.inj heq
  obtain ⟨a, ha, heq⟩ := Option.map_eq_some_iff.1 hx
  obtain ⟨rfl, rfl⟩ := Prod.mk.inj heq
  exact ⟨a, ha, Redis.setAt_self, rfl⟩

theorem onGateway_memory {ρ : Type} {w u : World} {f : State → State × ρ} {r : ρ} :
    some (w.onGateway g f) = some (u, r) →
      u.gateways g = (f (w.gateways g)).1 ∧ r = (f (w.gateways g)).2 := by
  intro h
  obtain ⟨rfl, rfl⟩ := Prod.mk.inj (Option.some.inj h)
  exact ⟨Redis.setAt_self, rfl⟩

theorem step_service {c : Payments.Cmd} {r : Payments.Rep c} :
    Step g i (.service c) s t r → t.1.gateways g = s.1.gateways g := by
  refine Step.memory (P := fun x y _ => y = x) fun l w t r h => ?_
  obtain ⟨x, -, heq⟩ := Option.map_eq_some_iff.1 h
  obtain ⟨rfl, -⟩ := Prod.mk.inj heq
  rfl

theorem step_isClosed {showtimeId : ℤ} {r : Bool} :
    Step g i (.isClosed g showtimeId) s t r →
      t.1.gateways g = s.1.gateways g ∧ r = (s.1.gateways g).closedShows showtimeId := by
  refine Step.memory (c := .isClosed g showtimeId)
    (P := fun x y (r : Bool) => y = x ∧ r = x.closedShows showtimeId) fun l w t r h => ?_
  obtain ⟨rfl, rfl⟩ := Prod.mk.inj (Option.some.inj h)
  exact ⟨rfl, rfl⟩

theorem step_hasCell {showtimeId : ℤ} {r : Bool} :
    Step g i (.hasCell g showtimeId) s t r → t.1.gateways g = s.1.gateways g := by
  refine Step.memory (c := .hasCell g showtimeId) (P := fun x y _ => y = x) fun l w t r h => ?_
  obtain ⟨rfl, rfl⟩ := Prod.mk.inj (Option.some.inj h)
  rfl

theorem step_existsClosedKey {showtimeId : ℤ} {r : Option Bool} :
    Step g i (.existsClosedKey showtimeId) s t r → t.1.gateways g = s.1.gateways g := by
  refine Step.memory (c := .existsClosedKey showtimeId) (P := fun x y _ => y = x) fun l w t r h => ?_
  cases l with
  | ok => rw [← (Prod.mk.inj (Option.some.inj h)).1]
  | lost => rw [← (Prod.mk.inj (Option.some.inj h)).1]
  | unacked => rw [← (Prod.mk.inj (Option.some.inj h)).1]

theorem step_publishLocking {message : SeatLockMessage} {r : Bool} :
    Step g i (.publishLocking message) s t r → t.1.gateways g = s.1.gateways g := by
  refine Step.memory (c := .publishLocking message) (P := fun x y _ => y = x) fun l w t r h => ?_
  cases l with
  | ok => rw [← (Prod.mk.inj (Option.some.inj h)).1]
  | lost => rw [← (Prod.mk.inj (Option.some.inj h)).1]
  | unacked => rw [← (Prod.mk.inj (Option.some.inj h)).1]

/-- The commands on the memory of the replica. -/
theorem step_onGateway {f : State → State × Rep c}
    (hexec : ∀ l w, exec i l c w = some (w.onGateway g f)) :
    Step g i c s t r →
      t.1.gateways g = (f (s.1.gateways g)).1 ∧ r = (f (s.1.gateways g)).2 := by
  refine Step.memory (P := fun x y r => y = (f x).1 ∧ r = (f x).2) fun l w t r h => ?_
  rw [hexec] at h
  exact onGateway_memory h

/-- The commands on an actor. -/
theorem step_onActor {showtimeId : ℤ} {cell : ℕ} {a : ShowActor} {f : ShowActor → ShowActor × Rep c}
    (hexec : ∀ l w, exec i l c w = w.onActor g cell f)
    (hserves : (s.1.gateways g).Serves showtimeId cell a) :
    Step g i c s t r →
      (t.1.gateways g).Serves showtimeId cell (f a).1 ∧
        (t.1.gateways g).closedShows = (s.1.gateways g).closedShows ∧ r = (f a).2 := by
  intro h
  obtain ⟨b, hb, hmem, hr⟩ := Step.memory (P := fun x y r => ∃ a : ShowActor,
    x.actor cell = some a ∧ y = x.setActor cell (f a).1 ∧ r = (f a).2) (fun l w t r h => by
      rw [hexec] at h
      exact onActor_memory h) h
  obtain rfl : a = b := Option.some.inj (hserves.actor.symm.trans hb)
  rw [hmem]
  exact ⟨hserves.setActor _, rfl, hr⟩

theorem step_clearAdmission {showtimeId : ℤ} {cell : ℕ} {seatIds : List ℤ} {a : ShowActor} {r : Unit}
    (hserves : (s.1.gateways g).Serves showtimeId cell a) :
    Step g i (.clearAdmission g showtimeId seatIds) s t r →
      (t.1.gateways g).Serves showtimeId cell (seatIds.foldl ShowActor.clearSeat a) := by
  intro h
  rw [(step_onGateway (c := .clearAdmission g showtimeId seatIds) (fun _ _ => rfl) h).1]
  exact hserves.clearAdmission seatIds

theorem RequestStep.toStep {showtimeId : ℤ} (hc : AtOnce c) :
    RequestStep g i showtimeId c s t r → Step g i c s t r := by
  intro h
  cases h with
  | command _ hstep => exact hstep
  | answered _ => exact absurd hc id

theorem RequestStep.toService {showtimeId : ℤ} {k : Payments.Cmd} {r : Payments.Rep k} :
    RequestStep g i showtimeId (.service k) s t r → Step g i (.service k) s t r := by
  intro h
  cases h with
  | command _ hstep => exact hstep

end Steps

/-! ## The parts of a request -/

section Parts

variable {g i : ℕ} {s t : Moment} {showtimeId totalSeatCount : ℤ} {cell : ℕ} {a : ShowActor}

theorem ends_atOnce {c : Cmd} {β : Type} {k : Rep c → Service β} {b : β} (hc : AtOnce c) :
    (Prog.call c k).Ends (RequestStep g i showtimeId) s t b →
      ∃ u r, Step g i c s u r ∧ u.2 = s.2 ∧ (k r).Ends (RequestStep g i showtimeId) u t b := by
  intro h
  obtain ⟨u, r, hstep, hrest⟩ := h.of_call
  have hstep := hstep.toStep hc
  exact ⟨u, r, hstep, hstep.log (recorded_atOnce hc), hrest⟩

theorem ends_service {c : Payments.Cmd} {β : Type} {k : Payments.Rep c → Service β} {b : β} :
    (Prog.call (.service c) k).Ends (RequestStep g i showtimeId) s t b →
      ∃ u r, Step g i (.service c) s u r ∧ (k r).Ends (RequestStep g i showtimeId) u t b := by
  intro h
  obtain ⟨u, r, hstep, hrest⟩ := h.of_call
  exact ⟨u, r, hstep.toService, hrest⟩

/-- The schedule may be found closed, which the replica then knows. -/
theorem closedInRedis_ends {r : Bool} :
    (closedInRedis g showtimeId).Ends (RequestStep g i showtimeId) s t r →
      t.2 = s.2 ∧ ((r = false ∧ t.1.gateways g = s.1.gateways g) ∨
        (r = true ∧ t.1.gateways g = { s.1.gateways g with
          closedShows := Redis.setAt (s.1.gateways g).closedShows showtimeId true })) := by
  intro h
  obtain ⟨s₁, known, hknown, hlog₁, h⟩ := ends_atOnce (c := .hasCell g showtimeId) trivial h
  have hmem₁ := step_hasCell hknown
  cases (known : Bool) with
  | true =>
      obtain ⟨rfl, rfl⟩ := Prog.Ends.of_ret h
      exact ⟨hlog₁, .inl ⟨rfl, hmem₁⟩⟩
  | false =>
      obtain ⟨s₂, conn, hconn, h⟩ := ends_service (c := .redis .connect) h
      have hlog₂ : s₂.2 = s₁.2 := hconn.log fun _ _ _ _ => rfl
      have hmem₂ := step_service hconn
      match (conn : Option Unit) with
      | none =>
          obtain ⟨rfl, rfl⟩ := Prog.Ends.of_ret h
          exact ⟨hlog₂.trans hlog₁, .inl ⟨rfl, hmem₂.trans hmem₁⟩⟩
      | some () =>
          obtain ⟨s₃, closed, hclosed, hlog₃, h⟩ :=
            ends_atOnce (c := .existsClosedKey showtimeId) trivial h
          have hmem₃ := step_existsClosedKey hclosed
          have h : Prog.Ends (RequestStep g i showtimeId)
            (if Option.getD (closed : Option Bool) false = true then _ else _) s₃ t r := h
          split_ifs at h
          · obtain ⟨s₄, u, hinsert, hlog₄, h⟩ :=
              ends_atOnce (c := .insertClosed g showtimeId) trivial h
            have hmem₄ := (step_onGateway (fun _ _ => rfl) hinsert).1
            obtain ⟨rfl, rfl⟩ := Prog.Ends.of_ret h
            refine ⟨((hlog₄.trans hlog₃).trans hlog₂).trans hlog₁, .inr ⟨rfl, ?_⟩⟩
            rw [hmem₄, hmem₃, hmem₂, hmem₁]
          · obtain ⟨rfl, rfl⟩ := Prog.Ends.of_ret h
            exact ⟨(hlog₃.trans hlog₂).trans hlog₁, .inl ⟨rfl, (hmem₃.trans hmem₂).trans hmem₁⟩⟩

/-- A request that is refused before it registers a seat leaves the seats alone. -/
def LeavesSeats (g : ℕ) (showtimeId totalSeatCount : ℤ) (s t : Moment) : Prop :=
  ((s.1.gateways g).showActor showtimeId totalSeatCount).SameSeats
    ((t.1.gateways g).showActor showtimeId totalSeatCount)

theorem leavesSeats_of_memory (h : t.1.gateways g = s.1.gateways g) :
    LeavesSeats g showtimeId totalSeatCount s t := by
  unfold LeavesSeats
  rw [h]
  exact .refl _

/-- The cell of a request, with the actor that was there or a new one. -/
theorem openActor_ends {r : Except String ℕ} (hown : (s.1.gateways g).OwnCell showtimeId) :
    (openActor g showtimeId totalSeatCount).Ends (RequestStep g i showtimeId) s t r →
      t.2 = s.2 ∧
        ((∃ e, r = .error e ∧ LeavesSeats g showtimeId totalSeatCount s t) ∨
          ∃ cell, r = .ok cell ∧ (0 < totalSeatCount ∧ totalSeatCount ≤ maxSeatsPerShow) ∧
            (s.1.gateways g).closedShows showtimeId = false ∧
            ((s.1.gateways g).showActor showtimeId totalSeatCount).seatCount = totalSeatCount.toNat ∧
            (t.1.gateways g).Serves showtimeId cell
              ((s.1.gateways g).showActor showtimeId totalSeatCount)) := by
  intro h
  unfold openActor at h
  by_cases hrange : 0 < totalSeatCount ∧ totalSeatCount ≤ maxSeatsPerShow
  · rw [if_neg (not_not.2 hrange)] at h
    obtain ⟨s₁, cell, hcell, hlog₁, h⟩ :=
      ends_atOnce (c := .actorCell g showtimeId) trivial h
    obtain ⟨hmem₁, rfl⟩ := step_onGateway (fun _ _ => rfl) hcell
    obtain ⟨hmap, hmade, hclosed₁⟩ := State.serves_actorCell hown
    rw [← hmem₁] at hmap hmade hclosed₁
    obtain ⟨s₂, made, hinit, hlog₂, h⟩ :=
        ends_atOnce (c := .initCell g _ totalSeatCount.toNat) trivial h
    obtain ⟨hmem₂, hmade₂⟩ := step_onGateway (fun _ _ => rfl) hinit
    obtain ⟨hclosed₂, ⟨e, he, hsame, -⟩ | ⟨hok, hserves⟩⟩ :=
      State.serves_initCell hmap hmade (Prod.ext hmem₂.symm hmade₂.symm)
    · -- the schedule was closed before its actor was made
      subst he
      obtain ⟨rfl, rfl⟩ := Prog.Ends.of_ret h
      have hsame : t.1.gateways g = s₁.1.gateways g := hsame
      refine ⟨hlog₂.trans hlog₁, .inl ⟨e, rfl, ?_⟩⟩
      have hactor : (t.1.gateways g).actorOf showtimeId = (s.1.gateways g).actorOf showtimeId := by
        rw [hsame]
        show ((s₁.1.gateways g).showActors showtimeId).bind (s₁.1.gateways g).actor = _
        rw [hmap]
        show ((s₁.1.gateways g).cells[_]?).bind ActorCell.actor = _
        rw [hmade]
        rfl
      unfold LeavesSeats State.showActor
      rw [hactor]
      exact .refl _
    · subst hok
      have hserves : (s₂.1.gateways g).Serves showtimeId _
        ((s.1.gateways g).showActor showtimeId totalSeatCount) := hserves
      obtain ⟨s₃, checked, hcheck, hlog₃, h⟩ :=
          ends_atOnce (c := .checkOpen g _ showtimeId totalSeatCount.toNat) trivial h
      obtain ⟨hmem₃, hchecked⟩ := step_onGateway (fun _ _ => rfl) hcheck
      rcases State.serves_checkOpen hserves (Prod.ext hmem₃.symm hchecked.symm) with
        ⟨e, b, he, hserves₃, hsame, -⟩ | ⟨hok, hsame, hopen, hcount⟩
      · subst he
        obtain ⟨rfl, rfl⟩ := Prog.Ends.of_ret h
        refine ⟨(hlog₃.trans hlog₂).trans hlog₁, .inl ⟨e, rfl, ?_⟩⟩
        unfold LeavesSeats
        rw [hserves₃.showActor]
        exact hsame
      · subst hok
        obtain ⟨rfl, rfl⟩ := Prog.Ends.of_ret h
        have hsame : t.1.gateways g = s₂.1.gateways g := hsame
        have hclosed₂ : (s₂.1.gateways g).closedShows = (s₁.1.gateways g).closedShows := hclosed₂
        refine ⟨(hlog₃.trans hlog₂).trans hlog₁, .inr ⟨_, rfl, hrange, ?_, hcount, ?_⟩⟩
        · rw [← hclosed₁, ← hclosed₂]
          exact hopen
        · rw [hsame]
          exact hserves
  · rw [if_pos hrange] at h
    obtain ⟨rfl, rfl⟩ := Prog.Ends.of_ret h
    exact ⟨rfl, .inl ⟨_, rfl, leavesSeats_of_memory rfl⟩⟩

/-- A request either fails without having touched a seat, or works on the show's actor. -/
theorem beginRequest_ends {r : Except String ℕ} (hown : (s.1.gateways g).OwnCell showtimeId) :
    (beginRequest g showtimeId totalSeatCount).Ends (RequestStep g i showtimeId) s t r →
      t.2 = s.2 ∧
        ((∃ e, r = .error e ∧ LeavesSeats g showtimeId totalSeatCount s t) ∨
          ∃ cell, r = .ok cell ∧ ¬(s.1.gateways g).Refuses showtimeId totalSeatCount ∧
            (t.1.gateways g).Serves showtimeId cell
              ((s.1.gateways g).showActor showtimeId totalSeatCount)) := by
  intro h
  obtain ⟨u, r₁, h₁, h⟩ := Prog.Ends.of_bind (p := getOrCreateShowActor g showtimeId totalSeatCount) h
  have hget : u.2 = s.2 ∧
      ((∃ e, r₁ = .error e ∧ LeavesSeats g showtimeId totalSeatCount s u) ∨
        ∃ cell, r₁ = .ok cell ∧ (0 < totalSeatCount ∧ totalSeatCount ≤ maxSeatsPerShow) ∧
          (s.1.gateways g).closedShows showtimeId = false ∧
          ((s.1.gateways g).showActor showtimeId totalSeatCount).seatCount = totalSeatCount.toNat ∧
          (u.1.gateways g).Serves showtimeId cell
            ((s.1.gateways g).showActor showtimeId totalSeatCount)) := by
    obtain ⟨s₁, closed, hclosed, hlog₁, h₁⟩ :=
      ends_atOnce (c := .isClosed g showtimeId) trivial h₁
    obtain ⟨hmem₁, -⟩ := step_isClosed hclosed
    cases (closed : Bool) with
    | true =>
        obtain ⟨rfl, rfl⟩ := Prog.Ends.of_ret h₁
        exact ⟨hlog₁, .inl ⟨_, rfl, leavesSeats_of_memory hmem₁⟩⟩
    | false =>
        obtain ⟨s₂, known, hknown, h₁⟩ := Prog.Ends.of_bind (p := closedInRedis g showtimeId) h₁
        obtain ⟨hlog₂, ⟨rfl, hmem₂⟩ | ⟨rfl, hmem₂⟩⟩ := closedInRedis_ends hknown
        · have hmem : s₂.1.gateways g = s.1.gateways g := hmem₂.trans hmem₁
          have hopen := openActor_ends (by rwa [hmem]) h₁
          unfold LeavesSeats at hopen ⊢
          rw [hlog₂, hlog₁, hmem] at hopen
          exact hopen
        · obtain ⟨rfl, rfl⟩ := Prog.Ends.of_ret h₁
          refine ⟨hlog₂.trans hlog₁, .inl ⟨_, rfl, ?_⟩⟩
          unfold LeavesSeats
          rw [hmem₂, hmem₁]
          exact .refl _
  obtain ⟨hlog, ⟨e, rfl, hleaves⟩ | ⟨cell, rfl, hrange, hopen, hcount, hserves⟩⟩ := hget
  · obtain ⟨rfl, rfl⟩ := Prog.Ends.of_ret h
    exact ⟨hlog, .inl ⟨e, rfl, hleaves⟩⟩
  · obtain ⟨v, closing, hclosing, hlog', h⟩ :=
      ends_atOnce (c := .isClosing g cell) trivial h
    obtain ⟨hserves', -, hreply⟩ := step_onActor (c := .isClosing g cell) (fun _ _ => rfl) hserves
      hclosing
    cases hval : (closing : Bool) with
    | true =>
        rw [hval] at h
        obtain ⟨rfl, rfl⟩ := Prog.Ends.of_ret h
        refine ⟨hlog'.trans hlog, .inl ⟨_, rfl, ?_⟩⟩
        unfold LeavesSeats
        rw [hserves'.showActor]
        exact .refl _
    | false =>
        rw [hval] at h
        obtain ⟨rfl, rfl⟩ := Prog.Ends.of_ret h
        refine ⟨hlog'.trans hlog, .inr ⟨cell, rfl, ?_, hserves'⟩⟩
        rintro (hclosed | hbad | hother | hshut)
        · rw [hopen] at hclosed
          cases hclosed
        · exact hbad hrange
        · exact hother hcount
        · have hopened : ((s.1.gateways g).showActor showtimeId totalSeatCount).closing = false :=
            hreply.symm.trans hval
          rw [hopened] at hshut
          cases hshut

/-- The registrations of a request are those of its actor. -/
theorem registerSeats_ends {seats : List (ℤ × ℤ)} {r : Except String (List (ℤ × ℕ))}
    (hserves : (s.1.gateways g).Serves showtimeId cell a) :
    (registerSeats g cell seats).Ends (RequestStep g i showtimeId) s t r →
      t.2 = s.2 ∧ (t.1.gateways g).Serves showtimeId cell (a.registerSeats seats).1 ∧
        r = (a.registerSeats seats).2 := by
  intro h
  induction seats generalizing s t a r with
  | nil =>
      obtain ⟨rfl, rfl⟩ := Prog.Ends.of_ret h
      exact ⟨rfl, hserves, rfl⟩
  | cons seat seats ih =>
      obtain ⟨seatId, seatIndex⟩ := seat
      obtain ⟨u, index, hstep, hlog, h⟩ :=
        ends_atOnce (c := .registerSeat g cell seatId seatIndex) trivial h
      obtain ⟨hserves₁, -, hreply⟩ := step_onActor
        (c := .registerSeat g cell seatId seatIndex) (fun _ _ => rfl) hserves hstep
      have hreply : index = (a.registerSeat seatId seatIndex).2 := hreply
      match hone : a.registerSeat seatId seatIndex with
      | (b, .error e) =>
          rw [hone] at hserves₁ hreply
          subst hreply
          obtain ⟨rfl, rfl⟩ := Prog.Ends.of_ret h
          simp only [ShowActor.registerSeats, hone]
          exact ⟨hlog, hserves₁, trivial⟩
      | (b, .ok slot) =>
          rw [hone] at hserves₁ hreply
          subst hreply
          obtain ⟨v, rest, hrest, h⟩ := Prog.Ends.of_bind (p := registerSeats g cell seats) h
          obtain ⟨hlog', hserves', hrest'⟩ := ih hserves₁ hrest
          subst hrest'
          match hmore : b.registerSeats seats with
          | (c, .error e) =>
              rw [hmore] at hserves' h
              obtain ⟨rfl, rfl⟩ := Prog.Ends.of_ret h
              simp only [ShowActor.registerSeats, hone, hmore]
              exact ⟨hlog'.trans hlog, hserves', trivial⟩
          | (c, .ok slots) =>
              rw [hmore] at hserves' h
              obtain ⟨rfl, rfl⟩ := Prog.Ends.of_ret h
              simp only [ShowActor.registerSeats, hone, hmore]
              exact ⟨hlog'.trans hlog, hserves', trivial⟩

end Parts

end SoleRequest

end Gateway
end Bookit

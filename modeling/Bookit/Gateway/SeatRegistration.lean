import Bookit.Gateway.Admission
import Bookit.Lib.Alone

/-!
# Gateway.SeatRegistration — `register_seat` in atomic steps

Calls of `register_seat` share the actor without a lock: the map of seats is read, extended and cut
back entry by entry, and a slot is taken by a compare-exchange.  A thread is described by the stage
that it has reached, `Moves` says once what a step can do, and the invariant is read off it.

* `registerSeat_alone` — a call that nobody overlaps is `ShowActor.registerSeat`;
* `Consistent` — what holds at every moment of every interleaving;
* `registerSeat_bijection` — slots and map are inverse to each other when no call is running.
-/

namespace Bookit
namespace Gateway
namespace SeatRegistration

open Lib

/-! ## Atomic steps -/

inductive Command where
  /-- `seat_indices.get`. -/
  | get (seatId : ℤ)
  /-- `seat_indices.entry`: the index that is there, or `none` where the entry has been inserted. -/
  | entry (seatId : ℤ) (index : ℕ)
  | compareExchange (index : ℕ) (current new : ℤ)
  /-- `seat_indices.remove_if` mapped to the index. -/
  | removeIf (seatId : ℤ) (index : ℕ)

abbrev Reply : Command → Type
  | .get _ => Option ℕ
  | .entry _ _ => Option ℕ
  | .compareExchange _ _ _ => Except ℤ ℤ
  | .removeIf _ _ => Unit

def exec (a : ShowActor) : (c : Command) → ShowActor × Reply c
  | .get seatId => (a, a.seatIndices seatId)
  | .entry seatId index =>
      match a.seatIndices seatId with
      | some existing => (a, some existing)
      | none => ({ a with seatIndices := Redis.setAt a.seatIndices seatId (some index) }, none)
  | .compareExchange index current new =>
      if a.seatIds index = current then
        ({ a with seatIds := Redis.setAt a.seatIds index new }, .ok current)
      else
        (a, .error (a.seatIds index))
  | .removeIf seatId index =>
      if a.seatIndices seatId = some index then
        ({ a with seatIndices := Redis.setAt a.seatIndices seatId none }, ())
      else
        (a, ())

def get (seatId : ℤ) : Prog Reply (Option ℕ) := Prog.perform (Command.get seatId)

def entry (seatId : ℤ) (index : ℕ) : Prog Reply (Option ℕ) :=
  Prog.perform (Command.entry seatId index)

def compareExchange (index : ℕ) (current new : ℤ) : Prog Reply (Except ℤ ℤ) :=
  Prog.perform (Command.compareExchange index current new)

def removeIf (seatId : ℤ) (index : ℕ) : Prog Reply Unit :=
  Prog.perform (Command.removeIf seatId index)

/-! ## The call -/

/-- The end of a call whose slot is taken by another seat. -/
def undo (seatId : ℤ) (index : ℕ) : Prog Reply (Except String ℕ) := do
  removeIf seatId index
  return .error "seat index maps to a different seat id"

/-- The slot is taken by the seat, or the entry of the seat is taken back. -/
def claim (seatId : ℤ) (index : ℕ) : Prog Reply (Except String ℕ) := do
  match ← compareExchange index 0 seatId with
  | .ok _ => return .ok index
  | .error existing =>
      if existing = seatId then
        return .ok index
      else
        undo seatId index

def enter (seatId : ℤ) (index : ℕ) : Prog Reply (Except String ℕ) := do
  match ← entry seatId index with
  | some existing =>
      if existing ≠ index then
        return .error "seat id maps to a different seat index"
      else
        claim seatId index
  | none => claim seatId index

def lookUp (seatId : ℤ) (index : ℕ) : Prog Reply (Except String ℕ) := do
  match ← get seatId with
  | some existing =>
      if existing ≠ index then
        return .error "seat id maps to a different seat index"
      else
        claim seatId index
  | none => enter seatId index

def registerSeat (seatCount : ℕ) (seatId oneBasedIndex : ℤ) : Prog Reply (Except String ℕ) :=
  if seatId ≤ 0 then
    return .error "seat ids must be positive"
  else if ¬(1 ≤ oneBasedIndex ∧ (oneBasedIndex - 1).toNat < seatCount) then
    return .error "seat index is outside the show seat count"
  else
    lookUp seatId (oneBasedIndex - 1).toNat

/-- What a call was made with. -/
structure Call where
  seatId : ℤ
  oneBasedIndex : ℤ
  deriving DecidableEq

def Call.index (c : Call) : ℕ :=
  (c.oneBasedIndex - 1).toNat

/-- What else happens to an actor: calls come in, and slots are admitted and cleared. -/
inductive Event where
  | call (seatId oneBasedIndex : ℤ)
  | tryAdmit (index : ℕ)
  | clearSeat (seatId : ℤ)
  deriving DecidableEq

def happens (a : ShowActor) :
    Event → ShowActor × List (Call × Prog Reply (Except String ℕ))
  | .call seatId oneBasedIndex =>
      (a, [(⟨seatId, oneBasedIndex⟩, registerSeat a.seatCount seatId oneBasedIndex)])
  | .tryAdmit index => ((a.tryAdmit index).1, [])
  | .clearSeat seatId => (a.clearSeat seatId, [])

/-- Any number of calls on one actor. -/
def machine : Machine ShowActor Reply Call (Except String ℕ) Unit Event where
  init a := ∃ seatCount, a = ShowActor.new seatCount
  exec _ _ _ c a := some (exec a c)
  environ x a := some (happens a x)
  close _ a := a

/-- No call is running. -/
def Idle (p : Pool ShowActor Reply Call (Except String ℕ)) : Prop :=
  ∀ t ∈ p.threads, ∃ result, t.prog = some (.ret result)

/-! ## A call by itself -/

section Alone

variable {a : ShowActor} {seatId : ℤ} {index : ℕ}

theorem claim_alone (hmapped : a.seatIndices seatId = some index) :
    (claim seatId index).evalAlone (fun c s => some (exec s c)) a =
      some (a.takeSlot seatId index) := by
  unfold claim ShowActor.takeSlot
  by_cases hfree : a.seatIds index = 0
  · simp [compareExchange, Prog.evalAlone, exec, hfree]
  · by_cases hself : a.seatIds index = seatId
    · have hne : ¬seatId = 0 := fun h => hfree (hself.trans h)
      simp [compareExchange, Prog.evalAlone, exec, hself, hne]
    · simp [compareExchange, undo, removeIf, Prog.evalAlone, exec, hfree, hself, hmapped]

/-- A call that no other overlaps. -/
theorem registerSeat_alone (a : ShowActor) (seatId oneBasedIndex : ℤ) :
    (registerSeat a.seatCount seatId oneBasedIndex).evalAlone (fun c s => some (exec s c)) a =
      some (a.registerSeat seatId oneBasedIndex) := by
  unfold registerSeat ShowActor.registerSeat
  by_cases hpos : seatId ≤ 0
  · simp [hpos, Prog.evalAlone]
  rw [if_neg hpos, if_neg hpos]
  by_cases hrange : 1 ≤ oneBasedIndex ∧ (oneBasedIndex - 1).toNat < a.seatCount
  · rw [if_neg (not_not.2 hrange), if_neg (not_not.2 hrange)]
    generalize (oneBasedIndex - 1).toNat = index
    cases hmap : a.seatIndices seatId with
    | some existing =>
        by_cases hsame : existing = index
        · subst hsame
          simpa [lookUp, get, Prog.evalAlone, exec, hmap] using claim_alone hmap
        · simp [lookUp, get, Prog.evalAlone, exec, hmap, hsame]
    | none =>
        have hentry : ({ a with seatIndices := Redis.setAt a.seatIndices seatId (some index) } :
            ShowActor).seatIndices seatId = some index := Redis.setAt_self
        have hclaim := claim_alone hentry
        simpa [lookUp, enter, get, entry, Prog.evalAlone, exec, hmap] using hclaim
  · rw [if_pos hrange, if_pos hrange]
    rfl

end Alone

/-! ## Stages -/

/-- How far a call for an index has come. -/
inductive Stage where
  | lookUp
  | enter
  | claim
  | undo
  | returned (result : Except String ℕ)

/-- What is left of a call. -/
def Stage.prog (seatId : ℤ) (index : ℕ) : Stage → Prog Reply (Except String ℕ)
  | .lookUp => SeatRegistration.lookUp seatId index
  | .enter => SeatRegistration.enter seatId index
  | .claim => SeatRegistration.claim seatId index
  | .undo => SeatRegistration.undo seatId index
  | .returned result => .ret result

section Moves

variable {seatId : ℤ} {index : ℕ} {a b : ShowActor} {stage stage' : Stage}

/-- What one step of a call does to the actor, and where it leads. -/
inductive Moves (seatId : ℤ) (index : ℕ) : ShowActor → Stage → ShowActor → Stage → Prop
  | known {a : ShowActor} {stage : Stage} :
      stage = .lookUp ∨ stage = .enter → a.seatIndices seatId = some index →
        Moves seatId index a stage a .claim
  | mismatch {a : ShowActor} {stage : Stage} {text : String} :
      a.seatIndices seatId ≠ some index → Moves seatId index a stage a (.returned (.error text))
  | unknown {a : ShowActor} :
      a.seatIndices seatId = none → Moves seatId index a .lookUp a .enter
  | inserted {a : ShowActor} :
      a.seatIndices seatId = none →
        Moves seatId index a .enter
          { a with seatIndices := Redis.setAt a.seatIndices seatId (some index) } .claim
  | taken {a : ShowActor} :
      a.seatIds index = 0 →
        Moves seatId index a .claim
          { a with seatIds := Redis.setAt a.seatIds index seatId } (.returned (.ok index))
  | held {a : ShowActor} :
      a.seatIds index = seatId → Moves seatId index a .claim a (.returned (.ok index))
  | lost {a : ShowActor} :
      a.seatIds index ≠ 0 → a.seatIds index ≠ seatId → Moves seatId index a .claim a .undo
  | removed {a : ShowActor} {text : String} :
      a.seatIndices seatId = some index →
        Moves seatId index a .undo
          { a with seatIndices := Redis.setAt a.seatIndices seatId none } (.returned (.error text))

/-- A step of a call at a stage. -/
theorem moves_of_exec {c : Command} {k : Reply c → Prog Reply (Except String ℕ)} {r : Reply c} :
    stage.prog seatId index = .call c k → exec a c = (b, r) →
      ∃ stage', k r = stage'.prog seatId index ∧ Moves seatId index a stage b stage' := by
  intro hprog hexec
  cases stage with
  | returned result => cases hprog
  | lookUp =>
      obtain ⟨rfl, hk⟩ := Prog.call.inj hprog
      obtain rfl := eq_of_heq hk
      obtain ⟨rfl, rfl⟩ := Prod.mk.inj hexec
      dsimp only
      cases hmap : a.seatIndices seatId with
      | none => exact ⟨.enter, rfl, .unknown hmap⟩
      | some existing =>
          by_cases hsame : existing = index
          · subst hsame
            exact ⟨.claim, if_neg (not_not.2 rfl), .known (.inl rfl) hmap⟩
          · refine ⟨.returned (.error _), if_pos hsame, .mismatch ?_⟩
            rw [hmap]
            exact fun h => hsame (Option.some.inj h)
  | enter =>
      obtain ⟨rfl, hk⟩ := Prog.call.inj hprog
      obtain rfl := eq_of_heq hk
      simp only [exec] at hexec
      cases hmap : a.seatIndices seatId with
      | none =>
          rw [hmap] at hexec
          obtain ⟨rfl, rfl⟩ := Prod.mk.inj hexec
          exact ⟨.claim, rfl, .inserted hmap⟩
      | some existing =>
          rw [hmap] at hexec
          obtain ⟨rfl, rfl⟩ := Prod.mk.inj hexec
          by_cases hsame : existing = index
          · subst hsame
            exact ⟨.claim, if_neg (not_not.2 rfl), .known (.inr rfl) hmap⟩
          · refine ⟨.returned (.error _), if_pos hsame, .mismatch ?_⟩
            rw [hmap]
            exact fun h => hsame (Option.some.inj h)
  | claim =>
      obtain ⟨rfl, hk⟩ := Prog.call.inj hprog
      obtain rfl := eq_of_heq hk
      simp only [exec] at hexec
      by_cases hfree : a.seatIds index = 0
      · rw [if_pos hfree] at hexec
        obtain ⟨rfl, rfl⟩ := Prod.mk.inj hexec
        exact ⟨.returned (.ok index), rfl, .taken hfree⟩
      · rw [if_neg hfree] at hexec
        obtain ⟨rfl, rfl⟩ := Prod.mk.inj hexec
        by_cases hheld : a.seatIds index = seatId
        · exact ⟨.returned (.ok index), if_pos hheld, .held hheld⟩
        · exact ⟨.undo, if_neg hheld, .lost hfree hheld⟩
  | undo =>
      obtain ⟨rfl, hk⟩ := Prog.call.inj hprog
      obtain rfl := eq_of_heq hk
      simp only [exec] at hexec
      by_cases hmap : a.seatIndices seatId = some index
      · rw [if_pos hmap] at hexec
        obtain ⟨rfl, -⟩ := Prod.mk.inj hexec
        exact ⟨.returned (.error _), rfl, .removed hmap⟩
      · rw [if_neg hmap] at hexec
        obtain ⟨rfl, -⟩ := Prod.mk.inj hexec
        exact ⟨.returned (.error _), rfl, .mismatch hmap⟩

end Moves

/-! ## What holds between the steps -/

/-- Taken slots are those of the map. -/
structure Sound (a : ShowActor) : Prop where
  held : ∀ index, a.seatIds index ≠ 0 →
    a.seatIndices (a.seatIds index) = some index ∧ index < a.seatCount
  positive : ∀ seatId index, a.seatIndices seatId = some index → seatId ≠ 0

/-- The slot is taken by a seat other than this one. -/
def Lost (a : ShowActor) (c : Call) : Prop :=
  a.seatIds c.index ≠ 0 ∧ a.seatIds c.index ≠ c.seatId

def Valid (a : ShowActor) (c : Call) : Prop :=
  0 < c.seatId ∧ c.index < a.seatCount

/-- What a call may count on at each stage. -/
def Stage.Fits (a : ShowActor) (c : Call) : Stage → Prop
  | .lookUp => Valid a c
  | .enter => Valid a c
  | .claim => Valid a c ∧ (a.seatIndices c.seatId = some c.index ∨ Lost a c)
  | .undo => Valid a c ∧ Lost a c
  | .returned (.ok index) => 0 < c.seatId ∧ index = c.index ∧ a.seatIds index = c.seatId
  | .returned (.error _) => True

/-- What the calls do to each other: no slot changes hands, and an entry disappears only where its
slot is taken by another seat. -/
structure Keeps (a b : ShowActor) : Prop where
  seatCount : b.seatCount = a.seatCount
  slots : ∀ index, a.seatIds index ≠ 0 → b.seatIds index = a.seatIds index
  entries : ∀ seatId index, a.seatIndices seatId = some index →
    b.seatIndices seatId = some index ∨ (b.seatIds index ≠ 0 ∧ b.seatIds index ≠ seatId)

section Stable

variable {a b : ShowActor} {c : Call} {stage stage' : Stage}

theorem Keeps.refl (a : ShowActor) : Keeps a a where
  seatCount := rfl
  slots _ _ := rfl
  entries _ _ h := .inl h

theorem Keeps.lost (h : Keeps a b) : Lost a c → Lost b c := by
  rintro ⟨htaken, hother⟩
  unfold Lost
  rw [h.slots c.index htaken]
  exact ⟨htaken, hother⟩

theorem Keeps.valid (h : Keeps a b) : Valid a c → Valid b c := by
  rintro ⟨hpos, hlt⟩
  exact ⟨hpos, h.seatCount ▸ hlt⟩

/-- The stages of the other calls stand what a call does. -/
theorem Keeps.fits (h : Keeps a b) : stage.Fits a c → stage.Fits b c := by
  intro hfits
  cases stage with
  | lookUp => exact h.valid hfits
  | enter => exact h.valid hfits
  | claim =>
      obtain ⟨hvalid, hmapped | hlost⟩ := hfits
      · exact ⟨h.valid hvalid, h.entries c.seatId c.index hmapped⟩
      · exact ⟨h.valid hvalid, .inr (h.lost hlost)⟩
  | undo => exact ⟨h.valid hfits.1, h.lost hfits.2⟩
  | returned result =>
      cases result with
      | error text => trivial
      | ok index =>
          obtain ⟨hpos, rfl, hslot⟩ := hfits
          refine ⟨hpos, rfl, ?_⟩
          calc b.seatIds c.index
            _ = a.seatIds c.index := h.slots c.index (by rw [hslot]; exact hpos.ne')
            _ = c.seatId := hslot

/-- A step keeps what the other calls count on. -/
theorem Moves.keeps :
    Moves c.seatId c.index a stage b stage' → stage.Fits a c → Keeps a b := by
  intro hmoves hfits
  cases hmoves with
  | known _ _ => exact .refl a
  | mismatch _ => exact .refl a
  | unknown _ => exact .refl a
  | held _ => exact .refl a
  | lost _ _ => exact .refl a
  | inserted hnone =>
      refine ⟨rfl, fun _ _ => rfl, fun seatId index hmapped => .inl ?_⟩
      have hne : seatId ≠ c.seatId := by
        rintro rfl
        rw [hnone] at hmapped
        cases hmapped
      dsimp only
      rwa [Redis.setAt_ne hne]
  | taken hfree =>
      refine ⟨rfl, fun index htaken => ?_, fun _ _ hmapped => .inl hmapped⟩
      have hne : index ≠ c.index := by
        rintro rfl
        exact htaken hfree
      exact Redis.setAt_ne hne
  | removed hmapped =>
      refine ⟨rfl, fun _ _ => rfl, fun seatId index hentry => ?_⟩
      by_cases hseat : seatId = c.seatId
      · subst hseat
        obtain rfl : c.index = index := Option.some.inj (hmapped.symm.trans hentry)
        exact .inr hfits.2
      · left
        dsimp only
        rwa [Redis.setAt_ne hseat]

/-- A step leaves the map and the slots sound. -/
theorem Moves.sound :
    Moves c.seatId c.index a stage b stage' → stage.Fits a c → Sound a → Sound b := by
  intro hmoves hfits ha
  cases hmoves with
  | known _ _ => exact ha
  | mismatch _ => exact ha
  | unknown _ => exact ha
  | held _ => exact ha
  | lost _ _ => exact ha
  | inserted hnone =>
      refine ⟨fun index htaken => ⟨?_, (ha.held index htaken).2⟩, fun seatId index hmapped => ?_⟩
      · have hne : a.seatIds index ≠ c.seatId := by
          intro heq
          have := (ha.held index htaken).1
          rw [heq, hnone] at this
          cases this
        dsimp only
        rw [Redis.setAt_ne hne]
        exact (ha.held index htaken).1
      · by_cases hseat : seatId = c.seatId
        · subst hseat
          exact (ne_of_lt hfits.1).symm
        · dsimp only at hmapped
          rw [Redis.setAt_ne hseat] at hmapped
          exact ha.positive seatId index hmapped
  | taken hfree =>
      obtain ⟨hvalid, hmapped | hlost⟩ := hfits
      · refine ⟨fun index htaken => ?_, ha.positive⟩
        by_cases hindex : index = c.index
        · subst hindex
          dsimp only
          rw [Redis.setAt_self]
          exact ⟨hmapped, hvalid.2⟩
        · dsimp only at htaken ⊢
          rw [Redis.setAt_ne hindex] at htaken ⊢
          exact ha.held index htaken
      · exact absurd hfree hlost.1
  | removed hmapped =>
      refine ⟨fun index htaken => ⟨?_, (ha.held index htaken).2⟩, fun seatId index hentry => ?_⟩
      · have hne : a.seatIds index ≠ c.seatId := by
          intro heq
          have hheld := (ha.held index htaken).1
          rw [heq] at hheld
          obtain rfl : c.index = index := Option.some.inj (hmapped.symm.trans hheld)
          exact hfits.2.2 heq
        dsimp only
        rw [Redis.setAt_ne hne]
        exact (ha.held index htaken).1
      · by_cases hseat : seatId = c.seatId
        · subst hseat
          simp at hentry
        · dsimp only at hentry
          rw [Redis.setAt_ne hseat] at hentry
          exact ha.positive seatId index hentry

/-- A call counts on as much after its own step. -/
theorem Moves.fits :
    Moves c.seatId c.index a stage b stage' → stage.Fits a c → stage'.Fits b c := by
  intro hmoves hfits
  cases hmoves with
  | known hstage hmapped =>
      have hvalid : Valid a c := by
        rcases hstage with rfl | rfl
        · exact hfits
        · exact hfits
      exact ⟨hvalid, .inl hmapped⟩
  | mismatch _ => trivial
  | unknown _ => exact hfits
  | inserted _ => exact ⟨hfits, .inl Redis.setAt_self⟩
  | taken _ => exact ⟨hfits.1.1, rfl, Redis.setAt_self⟩
  | held hheld => exact ⟨hfits.1.1, rfl, hheld⟩
  | lost htaken hother => exact ⟨hfits.1, htaken, hother⟩
  | removed _ => trivial

/-- An entry after a step has its slot, is that of a call that goes on, or was there before and is
none of this call's. -/
theorem Moves.entry_cases {seatId : ℤ} {index : ℕ} :
    Moves c.seatId c.index a stage b stage' → b.seatIndices seatId = some index →
      b.seatIds index = seatId ∨
      (seatId = c.seatId ∧ index = c.index ∧ ∀ result, stage' ≠ .returned result) ∨
      (a.seatIndices seatId = some index ∧ ¬(seatId = c.seatId ∧ index = c.index)) := by
  intro hmoves hentry
  by_cases hown : seatId = c.seatId ∧ index = c.index
  · obtain ⟨rfl, rfl⟩ := hown
    cases hmoves with
    | known _ _ => exact .inr (.inl ⟨rfl, rfl, nofun⟩)
    | mismatch hne => exact absurd hentry hne
    | unknown _ => exact .inr (.inl ⟨rfl, rfl, nofun⟩)
    | inserted _ => exact .inr (.inl ⟨rfl, rfl, nofun⟩)
    | taken _ => exact .inl Redis.setAt_self
    | held hheld => exact .inl hheld
    | lost _ _ => exact .inr (.inl ⟨rfl, rfl, nofun⟩)
    | removed _ => simp at hentry
  · refine .inr (.inr ⟨?_, hown⟩)
    cases hmoves with
    | known _ _ => exact hentry
    | mismatch _ => exact hentry
    | unknown _ => exact hentry
    | inserted _ =>
        by_cases hseat : seatId = c.seatId
        · subst hseat
          simp only [Redis.setAt_self, Option.some.injEq] at hentry
          exact absurd ⟨rfl, hentry.symm⟩ hown
        · dsimp only at hentry
          rwa [Redis.setAt_ne hseat] at hentry
    | taken _ => exact hentry
    | held _ => exact hentry
    | lost _ _ => exact hentry
    | removed _ =>
        by_cases hseat : seatId = c.seatId
        · subst hseat
          simp at hentry
        · dsimp only at hentry
          rwa [Redis.setAt_ne hseat] at hentry

end Stable

/-! ## Every interleaving -/

/-- Some call for the entry has not returned. -/
def Pending (p : Pool ShowActor Reply Call (Except String ℕ)) (seatId : ℤ) (index : ℕ) : Prop :=
  ∃ (j : ℕ) (t : Thread Reply Call (Except String ℕ)), p.threads[j]? = some t ∧
    seatId = t.info.seatId ∧ index = t.info.index ∧ ∀ result, t.prog ≠ some (.ret result)

structure Consistent (p : Pool ShowActor Reply Call (Except String ℕ)) : Prop where
  sound : Sound p.store
  calls : ∀ j c prog, p.Runs j c prog →
    ∃ stage : Stage, prog = stage.prog c.seatId c.index ∧ stage.Fits p.store c
  entries : ∀ seatId index, p.store.seatIndices seatId = some index →
    p.store.seatIds index = seatId ∨ Pending p seatId index

section Run

variable {p q : Pool ShowActor Reply Call (Except String ℕ)}

/-- A call starts with a check of its arguments. -/
theorem registerSeat_fits (a : ShowActor) (c : Call) :
    ∃ stage : Stage, registerSeat a.seatCount c.seatId c.oneBasedIndex =
      stage.prog c.seatId c.index ∧ stage.Fits a c := by
  unfold registerSeat
  by_cases hpos : c.seatId ≤ 0
  · exact ⟨.returned (.error _), if_pos hpos, trivial⟩
  rw [if_neg hpos]
  by_cases hrange : 1 ≤ c.oneBasedIndex ∧ (c.oneBasedIndex - 1).toNat < a.seatCount
  · exact ⟨.lookUp, if_neg (not_not.2 hrange), Int.not_le.1 hpos, hrange.2⟩
  · exact ⟨.returned (.error _), if_pos hrange, trivial⟩

/-- Slots are admitted and cleared without a change to the map. -/
theorem happens_same (a : ShowActor) (x : Event) :
    (happens a x).1.seatCount = a.seatCount ∧ (happens a x).1.seatIndices = a.seatIndices ∧
      (happens a x).1.seatIds = a.seatIds := by
  cases x with
  | call seatId oneBasedIndex => exact ⟨rfl, rfl, rfl⟩
  | tryAdmit index =>
      rcases a.tryAdmit_cases index with ⟨-, heq⟩ | ⟨-, heq⟩
      · simp only [happens, heq, and_self]
      · simp only [happens, heq, and_self]
  | clearSeat seatId =>
      simp only [happens, ShowActor.clearSeat]
      cases a.seatIndices seatId with
      | none => simp only [and_self]
      | some index => simp only [and_self]

theorem happens_keeps (a : ShowActor) (x : Event) : Keeps a (happens a x).1 := by
  obtain ⟨hcount, hindices, hids⟩ := happens_same a x
  refine ⟨hcount, fun index _ => ?_, fun seatId index hentry => .inl ?_⟩
  · rw [hids]
  · rw [hindices]
    exact hentry

/-- What a step does to the actor, whoever makes it. -/
theorem step_keeps {x : Act Unit Event} :
    Consistent p → machine.step p x = some q → Keeps p.store q.store := by
  intro hp hst
  cases x with
  | environ x =>
      obtain ⟨b, ts, hx, rfl⟩ := Machine.step_environ hst
      obtain rfl : (happens p.store x).1 = b := congrArg Prod.fst (Option.some.inj hx)
      exact happens_keeps p.store x
  | run j _ =>
      obtain ⟨c, cmd, k, b, r, ht, hx, rfl⟩ := Machine.step_run hst
      obtain ⟨stage, hprog, hfits⟩ := hp.calls j c _ ht
      obtain ⟨stage', -, hmoves⟩ := moves_of_exec hprog.symm (Option.some.inj hx)
      exact hmoves.keeps hfits
  | crash j =>
      obtain ⟨c, cmd, k, -, rfl⟩ := Machine.step_crash hst
      exact .refl p.store

theorem consistent_environ {x : Event} :
    Consistent p → machine.step p (.environ x) = some q → Consistent q := by
  intro hp hst
  have hkeeps := step_keeps hp hst
  obtain ⟨b, ts, hx, rfl⟩ := Machine.step_environ hst
  have hx : happens p.store x = (b, ts) := Option.some.inj hx
  obtain ⟨hcount, hindices, hids⟩ := happens_same p.store x
  rw [hx] at hcount hindices hids
  dsimp only at hcount hindices hids
  refine ⟨?_, fun j c prog hr => ?_, fun seatId index hentry => ?_⟩
  · constructor
    · dsimp only
      rw [hids, hindices, hcount]
      exact hp.sound.held
    · dsimp only
      rw [hindices]
      exact hp.sound.positive
  · rcases Pool.runs_start hr with ⟨-, hnew⟩ | hold
    · cases x with
      | call seatId oneBasedIndex =>
          obtain ⟨rfl, rfl⟩ := Prod.mk.inj hx
          obtain ⟨rfl, rfl⟩ := Prod.mk.inj (List.mem_singleton.1 hnew)
          exact registerSeat_fits p.store ⟨seatId, oneBasedIndex⟩
      | tryAdmit index =>
          obtain ⟨-, rfl⟩ := Prod.mk.inj hx
          cases hnew
      | clearSeat seatId =>
          obtain ⟨-, rfl⟩ := Prod.mk.inj hx
          cases hnew
    · obtain ⟨stage, hprog, hfits⟩ := hp.calls j c prog hold
      exact ⟨stage, hprog, hkeeps.fits hfits⟩
  · dsimp only at hentry ⊢
    rw [hindices] at hentry
    rw [hids]
    refine (hp.entries seatId index hentry).imp_right ?_
    rintro ⟨j, t, ht, hseat, hindex, hrunning⟩
    have hlt := (List.getElem?_eq_some_iff.1 ht).1
    exact ⟨j, t, (List.getElem?_append_left hlt).trans ht, hseat, hindex, hrunning⟩

theorem consistent_run {j : ℕ} {e : Unit} :
    Consistent p → machine.step p (.run j e) = some q → Consistent q := by
  intro hp hst
  have hkeeps := step_keeps hp hst
  obtain ⟨c, cmd, k, b, r, ht, hx, rfl⟩ := Machine.step_run hst
  obtain ⟨stage, hprog, hfits⟩ := hp.calls j c _ ht
  obtain ⟨stage', hnext, hmoves⟩ := moves_of_exec hprog.symm (Option.some.inj hx)
  have hlt := (List.getElem?_eq_some_iff.1 ht).1
  refine ⟨hmoves.sound hfits hp.sound, fun i c' prog hr => ?_, fun seatId index hentry => ?_⟩
  · rcases Pool.runs_set hr with ⟨rfl, rfl, heq⟩ | ⟨-, hold⟩
    · obtain rfl := Option.some.inj heq
      exact ⟨stage', hnext, hmoves.fits hfits⟩
    · obtain ⟨stage₁, hprog₁, hfits₁⟩ := hp.calls i c' prog hold
      exact ⟨stage₁, hprog₁, hkeeps.fits hfits₁⟩
  · rcases hmoves.entry_cases hentry with hslot | ⟨hseat, hindex, hrunning⟩ | ⟨hbefore, hother⟩
    · exact .inl hslot
    · -- this call has not come to its end
      refine .inr ⟨j, _, List.getElem?_set_self hlt, hseat, hindex, fun result heq => ?_⟩
      rw [hnext] at heq
      cases stage' with
      | returned result' => exact hrunning result' rfl
      | lookUp => cases Option.some.inj heq
      | enter => cases Option.some.inj heq
      | claim => cases Option.some.inj heq
      | undo => cases Option.some.inj heq
    · rcases hp.entries seatId index hbefore with hslot | ⟨i, t, hi, hseat, hindex, hrunning⟩
      · have hne : p.store.seatIds index ≠ 0 := by
          rw [hslot]
          exact hp.sound.positive seatId index hbefore
        exact .inl ((hkeeps.slots index hne).trans hslot)
      · -- the call that has not returned is another one
        have hne : j ≠ i := by
          rintro rfl
          obtain rfl := Option.some.inj (ht.symm.trans hi)
          exact hother ⟨hseat, hindex⟩
        exact .inr ⟨i, t, (List.getElem?_set_ne hne).trans hi, hseat, hindex, hrunning⟩

theorem consistent_crash {j : ℕ} :
    Consistent p → machine.step p (.crash j) = some q → Consistent q := by
  intro hp hst
  obtain ⟨c, cmd, k, ht, rfl⟩ := Machine.step_crash hst
  have hlt := (List.getElem?_eq_some_iff.1 ht).1
  refine ⟨hp.sound, fun i c' prog hr => ?_, fun seatId index hentry => ?_⟩
  · rcases Pool.runs_set hr with ⟨-, -, heq⟩ | ⟨-, hold⟩
    · cases heq
    · exact hp.calls i c' prog hold
  · refine (hp.entries seatId index hentry).imp_right ?_
    rintro ⟨i, t, hi, hseat, hindex, hrunning⟩
    by_cases hij : j = i
    · subst hij
      obtain rfl := Option.some.inj (ht.symm.trans hi)
      exact ⟨j, _, List.getElem?_set_self hlt, hseat, hindex, fun _ h => nomatch h⟩
    · exact ⟨i, t, (List.getElem?_set_ne hij).trans hi, hseat, hindex, hrunning⟩

theorem consistent_step {x : Act Unit Event} :
    Consistent p → machine.step p x = some q → Consistent q := by
  cases x with
  | environ x => exact consistent_environ
  | run j e => exact consistent_run
  | crash j => exact consistent_crash

theorem consistent_of_reachable : machine.system.Reachable p → Consistent p := by
  intro h
  refine System.invariant (I := Consistent) ?_ ?_ h
  · rintro q ⟨⟨seatCount, hstore⟩, hthreads⟩
    refine ⟨?_, fun j c prog hr => ?_, fun seatId index hentry => ?_⟩
    · rw [hstore]
      exact ⟨fun index htaken => absurd rfl htaken, fun _ _ hentry => nomatch hentry⟩
    · simp [Pool.Runs, hthreads] at hr
    · rw [hstore] at hentry
      cases hentry
  · intro p x q hp _ hst
    exact consistent_step hp hst

/-- A slot that is taken stays with its seat. -/
theorem slots_stay {index : ℕ} :
    machine.system.Reachable p → (machine.system.startingAt p).Reachable q →
      p.store.seatIds index ≠ 0 → q.store.seatIds index = p.store.seatIds index := by
  intro hp hq htaken
  have hinv : Consistent q ∧ q.store.seatIds index = p.store.seatIds index := by
    refine System.invariant
      (I := fun q => Consistent q ∧ q.store.seatIds index = p.store.seatIds index) ?_ ?_ hq
    · rintro _ rfl
      exact ⟨consistent_of_reachable hp, rfl⟩
    · rintro q x r ⟨hcons, hsame⟩ _ hst
      have hkeeps := step_keeps hcons hst
      refine ⟨consistent_step hcons hst, ?_⟩
      calc r.store.seatIds index
        _ = q.store.seatIds index := hkeeps.slots index (by rwa [hsame])
        _ = p.store.seatIds index := hsame
  exact hinv.2

/-- Where no call is running, the entries of the map are the slots that are taken. -/
theorem slots_of_idle : Consistent p → Idle p → p.store.Slots := by
  intro hp hidle seatId index
  constructor
  · intro hentry
    refine ⟨?_, hp.sound.positive seatId index hentry⟩
    rcases hp.entries seatId index hentry with hslot | ⟨j, t, hj, -, -, hrunning⟩
    · exact hslot
    · obtain ⟨result, hreturned⟩ := hidle t (List.mem_of_getElem? hj)
      exact absurd hreturned (hrunning result)
  · rintro ⟨rfl, hne⟩
    exact (hp.sound.held index hne).1

/-- What a call that succeeded has established. -/
theorem slot_of_result {j index : ℕ} {c : Call} :
    Consistent p → p.result j = some (c, .ok index) →
      0 < c.seatId ∧ index = c.index ∧ p.store.seatIds index = c.seatId := by
  intro hp hresult
  obtain ⟨stage, hprog, hfits⟩ := hp.calls j c _ (Pool.result_eq_some.1 hresult)
  cases stage with
  | lookUp => cases hprog
  | enter => cases hprog
  | claim => cases hprog
  | undo => cases hprog
  | returned result =>
      obtain rfl := Prog.ret.inj hprog
      exact hfits

/-- In every interleaving of the steps of any number of calls: a taken slot is the entry of its seat
and is within the actor, it is never given to another seat, map and taken slots are inverse to each
other whenever no call is running, and a call that succeeds has its slot. -/
theorem registerSeat_bijection (h : machine.system.Reachable p) :
    (∀ index, p.store.seatIds index ≠ 0 →
      p.store.seatIndices (p.store.seatIds index) = some index ∧ index < p.store.seatCount) ∧
    (∀ q, (machine.system.startingAt p).Reachable q → ∀ index, p.store.seatIds index ≠ 0 →
      q.store.seatIds index = p.store.seatIds index) ∧
    (Idle p → ∀ seatId index, p.store.seatIndices seatId = some index ↔
      p.store.seatIds index = seatId ∧ seatId ≠ 0) ∧
    ∀ j c index, p.result j = some (c, .ok index) →
      0 < c.seatId ∧ index = c.index ∧ p.store.seatIds index = c.seatId := by
  have hcons := consistent_of_reachable h
  refine ⟨hcons.sound.held, fun q hq index htaken => slots_stay h hq htaken, fun hidle => ?_, ?_⟩
  · exact slots_of_idle hcons hidle
  · intro j c index hresult
    exact slot_of_result hcons hresult

/-- Two seats are registered for one index at once, and one of them twice: the slot goes to the seat
that takes it first, and the entries of the other are gone when the calls have returned. -/
theorem registerSeat_bijection_contended :
    ∃ p, machine.system.Reachable p ∧ p.threads.length = 3 ∧ p.store.seatIds 0 = 6 ∧
      p.store.seatIndices 6 = some 0 := by
  obtain ⟨p, hp, htest⟩ := machine.system.exists_reachable_of_run
    (fun p => decide (p.threads.length = 3) && decide (p.store.seatIds 0 = 6) &&
      p.threads.all fun t => t.prog.any Prog.returned)
    (s := ⟨.new 2, []⟩) ⟨⟨2, rfl⟩, rfl⟩
    [.environ (.call 5 1), .environ (.call 6 1), .run 0 (), .run 0 (), .environ (.call 5 1),
      .run 1 (), .run 1 (), .run 2 (), .run 1 (), .run 0 (), .run 2 (), .run 0 (), .run 2 ()]
    (by decide +kernel)
  simp only [Bool.and_eq_true, decide_eq_true_eq] at htest
  obtain ⟨⟨hlen, hslot⟩, hreturned⟩ := htest
  have hidle : Idle p := by
    intro t ht
    have hprog := List.all_eq_true.1 hreturned t ht
    match ht' : t.prog with
    | some (.ret result) => exact ⟨result, rfl⟩
    | some (.call _ _) => simp [ht', Prog.returned] at hprog
    | none => simp [ht'] at hprog
  have h := registerSeat_bijection hp
  exact ⟨p, hp, hlen, hslot, (h.2.2.1 hidle 6 0).2 ⟨hslot, by decide⟩⟩

end Run

end SeatRegistration
end Gateway
end Bookit

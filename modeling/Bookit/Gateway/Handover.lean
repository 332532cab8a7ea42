import Bookit.Gateway.Answers

/-!
# Gateway.Handover — from hand to hand

A lock request takes the slots of its seats, hands the seats to the actor of the show with its task,
and gets those back that the actor could not lock, to free their slots.  A stage says which seats a
request holds, whether it waits for the actor, and which seats of its task an actor has yet to lock.
-/

namespace Bookit
namespace Gateway

open Lib LockServer

namespace GatewayTask

/-- The session that sent the task. -/
def ticket : GatewayTask → ℕ
  | lock ticket _ _ => ticket
  | cancel ticket _ _ => ticket

/-- The seats that the task asks to be locked. -/
def lockSeats : GatewayTask → List ℤ
  | lock _ _ seatIds => seatIds
  | cancel .. => []

end GatewayTask

/-! ## Stages -/

/-- How far a request has come, and an actor with the task that it serves. -/
structure HandoverStage where
  cell : Option ℕ
  /-- The seats that are registered and not yet asked for, with their slots. -/
  slots : List (ℤ × ℕ)
  /-- The seats whose slots the request has taken, and has neither handed over nor freed. -/
  held : List ℤ
  sent : Bool
  awaits : Bool
  serving : Option GatewayTask
  /-- The seats of the task that the actor has not found locked for its user. -/
  pending : List ℤ

namespace HandoverStage

def start : HandoverStage := ⟨none, [], [], false, false, none, []⟩

/-- Nothing is left to hand over. -/
def Resting (b : HandoverStage) : Prop :=
  b.held = [] ∧ b.awaits = false ∧ b.pending = [] ∧ b.serving = none

/-- The seat is locked for the user of the task. -/
def won (b : HandoverStage) (seatId : ℤ) : HandoverStage :=
  { b with pending := b.pending.filter fun k => decide (k ≠ seatId) }

/-- An actor has a reply to the acquisition of a seat. -/
def acquire (b : HandoverStage) : (k : Redis.Cmd) → Redis.Rep k → HandoverStage
  | .setLockNx _ seatId _ _, r => if r = some true then b.won seatId else b
  | .getLock _ seatId, r =>
      match b.serving with
      | some (.lock _ userId _) => if r.join = some userId then b.won seatId else b
      | _ => b
  | _, _ => b

theorem acquire_eq (b : HandoverStage) (k : Redis.Cmd) (r : Redis.Rep k) :
    ∃ l, b.acquire k r = { b with pending := l } := by
  cases k with
  | setLockNx showtimeId seatId userId ttlMs =>
      show ∃ l, (if r = some true then b.won seatId else b) = { b with pending := l }
      split_ifs
      · exact ⟨_, rfl⟩
      · exact ⟨b.pending, rfl⟩
  | getLock showtimeId seatId =>
      obtain ⟨cell, slots, held, sent, awaits, serving, pending⟩ := b
      cases serving with
      | none => exact ⟨pending, rfl⟩
      | some task =>
          cases task with
          | cancel => exact ⟨pending, rfl⟩
          | lock ticket userId seatIds =>
              unfold acquire
              dsimp only
              split_ifs
              · exact ⟨_, rfl⟩
              · exact ⟨pending, rfl⟩
  | _ => exact ⟨b.pending, rfl⟩

/-- The owner of a seat that is locked already wins it. -/
theorem acquire_getLock (b : HandoverStage) (showtimeId seatId : ℤ) (r : Option (Option ℤ)) :
    b.acquire (.getLock showtimeId seatId) r = b ∨
      b.acquire (.getLock showtimeId seatId) r = b.won seatId ∧ ∃ userId, r.join = some userId := by
  unfold acquire
  cases b.serving with
  | none => exact .inl rfl
  | some task =>
      cases task with
      | cancel => exact .inl rfl
      | lock ticket userId seatIds =>
          dsimp only
          split_ifs with howner
          · exact .inr ⟨rfl, userId, howner⟩
          · exact .inl rfl

theorem acquire_sub (b : HandoverStage) (k : Redis.Cmd) (r : Redis.Rep k) :
    (b.acquire k r).held = b.held ∧ (b.acquire k r).awaits = b.awaits ∧
      (b.acquire k r).pending ⊆ b.pending := by
  have hwon : ∀ seatId, (b.won seatId).pending ⊆ b.pending :=
    fun seatId x hx => List.mem_of_mem_filter hx
  obtain ⟨l, heq⟩ := b.acquire_eq k r
  refine ⟨by rw [heq], by rw [heq], ?_⟩
  cases k with
  | setLockNx showtimeId seatId userId ttlMs =>
      show (if r = some true then b.won seatId else b).pending ⊆ _
      split_ifs
      · exact hwon seatId
      · exact List.Subset.refl _
  | getLock showtimeId seatId =>
      rcases b.acquire_getLock showtimeId seatId r with hsame | ⟨hsame, -⟩
      · rw [hsame]
        exact List.Subset.refl _
      · rw [hsame]
        exact hwon seatId
  | _ => exact List.Subset.refl _

end HandoverStage

/-- The seats that come back to a request with the answer to its task. -/
def comeBack : Task → Answer → List ℤ
  | .lock .., .lock result => result.failedSeatIds
  | _, _ => []

def handoverNext (n : Task) (b : HandoverStage) : (c : Cmd) → Rep c → HandoverStage
  | .actorCell .., r => { b with cell := some r }
  | .registerSeat _ _ seatId _, .ok index => { b with slots := b.slots ++ [(seatId, index)] }
  | .tryAdmit .., r =>
      { b with
        slots := b.slots.tail
        held := if r then b.held ++ (b.slots.take 1).map Prod.fst else b.held }
  | .trySend .., r => if r then { b with held := [], sent := true, awaits := true } else
      { b with sent := true }
  | .send .., _ => { b with sent := true, awaits := true }
  | .awaitAnswer _, a => if b.awaits then { b with held := comeBack n a, awaits := false } else b
  | .clearAdmission _ _ seatIds, _ =>
      { b with held := b.held.filter fun k => decide (k ∉ seatIds) }
  | .recv .., task => { b with serving := some task, pending := task.lockSeats }
  | .answer .., _ => { b with serving := none, pending := [] }
  | .service (.redis k), r =>
      match n with
      | .actor .. => b.acquire k r
      | _ => b
  | _, _ => b

/-- A lock request works on the cell that it was given, sends the seats that it holds, and waits for
the answer; an actor answers the task that it serves, and names the seats that it has not locked. -/
def handoverMay (n : Task) (b : HandoverStage) : Cmd → Prop
  | .actorCell g k => ∀ g' u k' seats, n = .lock g' u k' seats → g' = g ∧ k' = k ∧ b.slots = []
  | .registerSeat g cell seatId _ => ∀ g' u k seats, n = .lock g' u k seats →
      g' = g ∧ b.cell = some cell ∧ seatId ∈ seats
  | .tryAdmit g cell index => ∃ u k seats seatId, n = .lock g u k seats ∧ b.cell = some cell ∧
      b.slots.head? = some (seatId, index)
  | .trySend g cell u seats => ∃ k asked, n = .lock g u k asked ∧ b.cell = some cell ∧
      b.sent = false ∧ b.awaits = false ∧ b.held ⊆ seats
  | .send .. => b.sent = false ∧ ∀ g u k seats, n ≠ .lock g u k seats
  | .awaitAnswer g => b.awaits = true ∧ b.held = [] ∧
      ∀ g' u k seats, n = .lock g' u k seats → g' = g
  | .clearAdmission g k _ => ∀ g' u k' seats, n = .lock g' u k' seats → g' = g ∧ k' = k
  | .recv g _ => (∃ k, n = .actor g k) ∧ b.pending = [] ∧ b.serving = none
  | .answer g ticket a => ∃ k task, n = .actor g k ∧ b.serving = some task ∧ task.ticket = ticket ∧
      ∀ seatId ∈ b.pending, seatId ∈ task.lockSeats ∧
        ∃ result, a = .lock result ∧ seatId ∈ result.failedSeatIds
  | .service (.redis (.setLockNx k _ _ _)) => ∀ g k', n = .actor g k' → k' = k
  | .service (.redis (.getLock k _)) => ∀ g k', n = .actor g k' → k' = k
  | _ => True

section Follows

variable {n : Task} {b : HandoverStage}

/-- The commands of requests and actors that no hand-over is about. -/
def Idle : Cmd → Prop
  | .isClosed .. => True
  | .hasCell .. => True
  | .existsClosedKey _ => True
  | .insertClosed .. => True
  | .initCell .. => True
  | .checkOpen .. => True
  | .isClosing .. => True
  | .publishLocking _ => True
  | .service (.redis .connect) => True
  | .service (.redis (.existsCheckout ..)) => True
  | _ => False

theorem handover_idle {c : Cmd} (h : Idle c) :
    handoverMay n b c ∧ ∀ r, handoverNext n b c r = b := by
  cases c with
  | isClosed | hasCell | existsClosedKey | insertClosed | initCell | checkOpen | isClosing
    | publishLocking => exact ⟨trivial, fun _ => rfl⟩
  | service c =>
      cases c with
      | redis k =>
          cases k with
          | connect | existsCheckout =>
              refine ⟨trivial, fun _ => ?_⟩
              cases n <;> rfl
          | _ => exact absurd h id
      | _ => exact absurd h id
  | _ => exact absurd h id

theorem follows_idle {β : Type} {p : Service β} (h : p.Issues Idle) :
    p.Follows (handoverMay n) (handoverNext n) (fun _ b' => b' = b) b := by
  refine Prog.follows_of_issues (S := fun b' => b' = b) (h.mono fun c hc b' hb' => ?_) rfl
  subst hb'
  exact handover_idle hc

theorem idle_closedInRedis (g : ℕ) (showtimeId : ℤ) :
    (closedInRedis g showtimeId).Issues Idle := by
  refine ⟨trivial, fun known => ?_⟩
  show Prog.Issues _ (if known = true then _ else _)
  split_ifs
  · trivial
  · refine ⟨trivial, fun r => ?_⟩
    match r with
    | none => trivial
    | some () =>
        refine ⟨trivial, fun closed => ?_⟩
        show Prog.Issues _ (if Option.getD (closed : Option Bool) false then _ else _)
        split_ifs
        · exact ⟨trivial, fun _ => trivial⟩
        · trivial

/-! ### Requests -/

/-- A request goes on with the cell that it was given; nothing else has changed. -/
theorem handover_beginRequest {g : ℕ} {k : ℤ} (totalSeatCount : ℤ)
    (hn : ∀ g' u k' seats, n = .lock g' u k' seats → g' = g ∧ k' = k ∧ b.slots = []) :
    (beginRequest g k totalSeatCount).Follows (handoverMay n) (handoverNext n)
      (fun r b' => ∃ o, b' = { b with cell := o } ∧ ∀ cell, r = .ok cell → o = some cell) b := by
  have herror : ∀ (e : String) (o : Option ℕ),
      (pure (.error e) : Service (Except String ℕ)).Follows (handoverMay n) (handoverNext n)
        (fun r b' => ∃ o, b' = { b with cell := o } ∧ ∀ cell, r = .ok cell → o = some cell)
          { b with cell := o } :=
    fun _ o => ⟨o, rfl, fun _ h => nomatch h⟩
  have hopen : (openActor g k totalSeatCount).Follows (handoverMay n) (handoverNext n)
      (fun r b' => ∃ o, b' = { b with cell := o } ∧ ∀ cell, r = .ok cell → o = some cell) b := by
    unfold openActor
    split
    · exact herror _ b.cell
    · refine ⟨hn, fun cell => ⟨trivial, fun r => ?_⟩⟩
      match r with
      | .error e => exact herror e (some cell)
      | .ok () =>
          refine ⟨trivial, fun r => ?_⟩
          match r with
          | .error e => exact herror e (some cell)
          | .ok () => exact ⟨some cell, rfl, fun c hc => congrArg some (Except.ok.inj hc)⟩
  refine Prog.Follows.bind (p := getOrCreateShowActor g k totalSeatCount)
    (Q := fun r b' => ∃ o, b' = { b with cell := o } ∧ ∀ cell, r = .ok cell → o = some cell) ?_
    fun r b' hb' => ?_
  · refine ⟨trivial, fun closed => ?_⟩
    show Prog.Follows _ _ _ (if closed = true then _ else _) b
    split_ifs
    · exact herror _ b.cell
    · refine (follows_idle (idle_closedInRedis g k)).bind fun closed b' hb' => ?_
      subst hb'
      cases closed with
      | true => exact herror _ _
      | false => exact hopen
  · obtain ⟨o, rfl, ho⟩ := hb'
    cases r with
    | error e => exact herror e o
    | ok cell =>
        refine ⟨trivial, fun closing => ?_⟩
        show Prog.Follows _ _ _ (if closing = true then _ else _) { b with cell := o }
        split_ifs
        · exact herror _ o
        · exact ⟨o, rfl, fun c hc => ho c (by rw [← Except.ok.inj hc])⟩

/-- The seats that are registered are listed with their slots. -/
theorem handover_registerSeats {g cell : ℕ} {seats : List (ℤ × ℤ)}
    (hn : ∀ g' u k asked, n = .lock g' u k asked →
      g' = g ∧ b.cell = some cell ∧ ∀ x ∈ seats, x.1 ∈ asked) :
    (registerSeats g cell seats).Follows (handoverMay n) (handoverNext n)
      (fun r b' => ∃ l, b' = { b with slots := b.slots ++ l } ∧ ∀ rest, r = .ok rest → l = rest)
        b := by
  have hnil : b = { b with slots := b.slots ++ [] } := by rw [List.append_nil]
  induction seats generalizing b with
  | nil => exact ⟨[], hnil, fun rest h => Except.ok.inj h⟩
  | cons seat seats ih =>
      obtain ⟨seatId, seatIndex⟩ := seat
      refine ⟨fun g' u k asked heq => ?_, fun r => ?_⟩
      · obtain ⟨hg, hcell, hmem⟩ := hn g' u k asked heq
        exact ⟨hg, hcell, hmem _ List.mem_cons_self⟩
      · match r with
        | .error e => exact ⟨[], hnil, fun rest h => nomatch h⟩
        | .ok index =>
            refine Prog.Follows.bind (p := registerSeats g cell seats) (ih ?_ ?_)
              fun r b' hb' => ?_
            · intro g' u k asked heq
              obtain ⟨hg, hcell, hmem⟩ := hn g' u k asked heq
              exact ⟨hg, hcell, fun x hx => hmem x (List.mem_cons_of_mem _ hx)⟩
            · show _ = { b with slots := b.slots ++ [(seatId, index)] ++ [] }
              rw [List.append_nil]
              rfl
            · obtain ⟨l, rfl, hl⟩ := hb'
              have hslots : b.slots ++ [(seatId, index)] ++ l = b.slots ++ (seatId, index) :: l := by
                rw [List.append_assoc, List.singleton_append]
              cases r with
              | error e =>
                  exact ⟨(seatId, index) :: l, by rw [← hslots]; rfl, fun rest h => nomatch h⟩
              | ok rest =>
                  refine ⟨(seatId, index) :: l, by rw [← hslots]; rfl, fun rest' h => ?_⟩
                  rw [hl rest rfl]
                  exact Except.ok.inj h

/-- The seats whose slots were free are held. -/
theorem handover_admitSeats {g : ℕ} {u k : ℤ} {asked : List ℤ} {cell : ℕ}
    {seats : List (ℤ × ℕ)} {admitted failed : List ℤ} (hn : n = .lock g u k asked)
    (hcell : b.cell = some cell) (hslots : b.slots = seats) (hheld : b.held = admitted) :
    (admitSeats g cell seats admitted failed).Follows (handoverMay n) (handoverNext n)
      (fun r b' => b' = { b with slots := [], held := r.1 }) b := by
  induction seats generalizing b admitted failed with
  | nil =>
      show b = _
      rw [← hslots, ← hheld]
  | cons seat seats ih =>
      obtain ⟨seatId, index⟩ := seat
      refine ⟨⟨u, k, asked, seatId, hn, hcell, by rw [hslots]; rfl⟩, fun ok => ?_⟩
      have hfirst : (b.slots.take 1).map Prod.fst = [seatId] := by rw [hslots]; rfl
      have htail : b.slots.tail = seats := by rw [hslots]; rfl
      show Prog.Follows _ _ _ (if ok = true then _ else _) { b with
        slots := b.slots.tail
        held := if ok = true then b.held ++ (b.slots.take 1).map Prod.fst else b.held }
      rw [hfirst, htail, hheld]
      split_ifs
      · exact ih (b := { b with slots := seats, held := admitted ++ [seatId] }) hcell rfl rfl
      · exact ih (b := { b with slots := seats, held := admitted }) hcell rfl rfl

/-- From the admission on, all seats that are held are sent, and those that come back are freed. -/
theorem handover_lockAdmitted {g : ℕ} {u k : ℤ} {asked : List ℤ} {cell : ℕ}
    {admitted failed : List ℤ} (hn : n = .lock g u k asked) (hcell : b.cell = some cell)
    (hsent : b.sent = false) (hawaits : b.awaits = false)
    (hidle : b.pending = [] ∧ b.serving = none) (hheld : b.held = admitted) :
    (lockAdmitted g cell u k admitted failed).Follows (handoverMay n) (handoverNext n)
      (fun _ b' => b'.Resting) b := by
  have hclear : ∀ (seats : List ℤ), seats.filter (fun x => decide (x ∉ seats)) = [] := by
    intro seats
    rw [List.filter_eq_nil_iff]
    intro x hx
    simpa using hx
  have hown : ∀ g' u' k' seats, n = .lock g' u' k' seats → g' = g ∧ k' = k := by
    intro g' u' k' seats heq
    rw [hn] at heq
    cases heq
    exact ⟨rfl, rfl⟩
  refine ⟨⟨k, asked, hn, hcell, hsent, hawaits, fun x hx => hheld ▸ hx⟩, fun sent => ?_⟩
  cases sent with
  | true =>
      refine ⟨⟨rfl, rfl, fun g' u' k' seats heq => (hown g' u' k' seats heq).1⟩, fun a => ?_⟩
      refine ⟨hown, fun _ => ?_⟩
      cases a with
      | lock result =>
          subst hn
          exact ⟨hclear result.failedSeatIds, rfl, hidle⟩
      | cancel cancelled =>
          subst hn
          exact ⟨rfl, rfl, hidle⟩
  | false =>
      refine ⟨hown, fun _ => ⟨?_, hawaits, hidle⟩⟩
      show b.held.filter _ = []
      rw [hheld]
      exact hclear admitted

theorem handover_lockTask (g : ℕ) (u k : ℤ) (seatIds seatIndices : List ℤ) (totalSeatCount : ℤ) :
    (lockTask g u k seatIds seatIndices totalSeatCount).Follows
      (handoverMay (.lock g u k seatIds)) (handoverNext (.lock g u k seatIds))
        (fun _ b' => b'.Resting) .start := by
  have hrest : ∀ (o : Option ℕ) (l : List (ℤ × ℕ)),
      HandoverStage.Resting { HandoverStage.start with cell := o, slots := l } :=
    fun _ _ => ⟨rfl, rfl, rfl, rfl⟩
  refine Prog.Follows.bind (p := lock g u k seatIds seatIndices totalSeatCount)
    (Q := fun _ b' => b'.Resting) ?_ fun _ _ h => h
  unfold lock
  split
  · exact hrest none []
  have hn : ∀ g' u' k' seats, Task.lock g u k seatIds = .lock g' u' k' seats →
      g' = g ∧ k' = k ∧ HandoverStage.start.slots = [] := by
    intro g' u' k' seats heq
    cases heq
    exact ⟨rfl, rfl, rfl⟩
  refine (handover_beginRequest totalSeatCount hn).bind fun r b₁ hb₁ => ?_
  obtain ⟨o, rfl, ho⟩ := hb₁
  cases r with
  | error e => exact hrest o []
  | ok cell =>
      obtain rfl := ho cell rfl
      refine (handover_registerSeats ?_).bind fun r b₂ hb₂ => ?_
      · intro g' u' k' asked heq
        cases heq
        exact ⟨rfl, rfl, fun x hx => (List.of_mem_zip (show (x.1, x.2) ∈ _ from hx)).1⟩
      obtain ⟨l, rfl, hl⟩ := hb₂
      cases r with
      | error e => exact hrest (some cell) l
      | ok seats =>
          obtain rfl := hl seats rfl
          have htries : (admitSeats g cell l [] []).Follows (handoverMay (.lock g u k seatIds))
              (handoverNext (.lock g u k seatIds))
              (fun r b' => b' = { HandoverStage.start with cell := some cell, held := r.1 })
              { HandoverStage.start with cell := some cell, slots := l } :=
            handover_admitSeats (b := { HandoverStage.start with cell := some cell, slots := l })
              rfl rfl rfl rfl
          refine htries.bind fun r b₃ hb₃ => ?_
          subst hb₃
          show Prog.Follows _ _ _ (if r.1 = [] then _ else _) _
          split_ifs with hnone
          · rw [hnone]
            exact hrest (some cell) []
          · refine Prog.Follows.bind (p := lockAdmitted g cell u k r.1 r.2)
              (Q := fun _ b' => b'.Resting) ?_ fun _ _ h => h
            exact handover_lockAdmitted rfl rfl rfl rfl ⟨rfl, rfl⟩ rfl

/-- A cancel request sends one task, and holds no seat. -/
theorem handover_cancelTask (g : ℕ) (u k : ℤ) (seatIds seatIndices : List ℤ)
    (totalSeatCount : ℤ) :
    (cancelTask g u k seatIds seatIndices totalSeatCount).Follows
      (handoverMay (.cancel g u k seatIds)) (handoverNext (.cancel g u k seatIds))
        (fun _ b' => b'.Resting) .start := by
  refine Prog.Follows.bind (p := cancel g u k seatIds seatIndices totalSeatCount)
    (Q := fun _ b' => b'.Resting) ?_ fun _ _ h => h
  have hrest : ∀ (o : Option ℕ) (l : List (ℤ × ℕ)),
      HandoverStage.Resting { HandoverStage.start with cell := o, slots := l } :=
    fun _ _ => ⟨rfl, rfl, rfl, rfl⟩
  unfold cancel
  split
  · exact hrest none []
  have hn : ∀ g' u' k' seats, Task.cancel g u k seatIds ≠ .lock g' u' k' seats :=
    fun _ _ _ _ h => nomatch h
  refine (handover_beginRequest totalSeatCount fun g' u' k' seats h =>
    absurd h (hn g' u' k' seats)).bind fun r b₁ hb₁ => ?_
  obtain ⟨o, rfl, ho⟩ := hb₁
  cases r with
  | error e => exact hrest o []
  | ok cell =>
      refine (handover_registerSeats fun g' u' k' seats h =>
        absurd h (hn g' u' k' seats)).bind fun r b₂ hb₂ => ?_
      obtain ⟨l, rfl, -⟩ := hb₂
      cases r with
      | error e => exact hrest o l
      | ok seats =>
          refine (follows_idle ?_).bind fun held b₃ hb₃ => ?_
          · refine Prog.Issues.hoist _ ((?_ : (checkoutInProgress k seatIds).Issues fun c =>
              Idle (.service (.redis c))).mono fun c hc => ⟨hc, fun _ => trivial⟩)
            refine ⟨trivial, fun r => ?_⟩
            match r with
            | none => trivial
            | some () =>
                have hany : ∀ seats : List ℤ, (anyCheckout k seats).Issues fun c =>
                    Idle (.service (.redis c)) := by
                  intro seats
                  induction seats with
                  | nil => trivial
                  | cons seatId seats ih =>
                      refine ⟨trivial, fun r => ?_⟩
                      show Prog.Issues _ (if Option.getD (r : Option Bool) false then _ else _)
                      split_ifs
                      · trivial
                      · exact ih
                exact hany seatIds
          subst hb₃
          cases held with
          | true => exact hrest o _
          | false =>
              refine ⟨fun _ _ _ _ h => (nomatch h), fun _ => ⟨⟨rfl, hn⟩, fun _ => ?_⟩⟩
              refine ⟨⟨rfl, rfl, fun _ _ _ _ h => (nomatch h)⟩, fun a => ?_⟩
              match a with
              | .cancel cancelled => exact ⟨rfl, rfl, rfl, rfl⟩
              | .lock result => exact ⟨rfl, rfl, rfl, rfl⟩

/-! ### Actors -/

section Actor

variable {g : ℕ} {k : ℤ}

/-- A seat is won where its acquisition says so. -/
theorem handover_acquire {ticket : ℕ} {u : ℤ} {seats : List ℤ} (seatId : ℤ)
    (hserving : b.serving = some (.lock ticket u seats)) :
    (SingleNodeLock.acquireDistributedLock k seatId u 300).Follows
      (fun b c => handoverMay (.actor g k) b (.service (.redis c))) HandoverStage.acquire
      (fun ok b' => b' = if ok = true then b.won seatId else b) b := by
  have hown : ∀ g' k', Task.actor g k = .actor g' k' → k' = k := by
    intro g' k' heq
    cases heq
    rfl
  refine ⟨trivial, fun conn => ?_⟩
  match (conn : Option Unit) with
  | none => exact rfl
  | some () =>
      refine ⟨hown, fun set => ?_⟩
      show Prog.Follows _ _ _ (if set = some true then _ else _)
        (if set = some true then b.won seatId else b)
      split_ifs with hset
      · exact rfl
      · refine ⟨hown, fun owner => ?_⟩
        have hnext : b.acquire (.getLock k seatId) owner =
            if (owner : Option (Option ℤ)).join = some u then b.won seatId else b := by
          unfold HandoverStage.acquire
          rw [hserving]
        rw [hnext]
        show Prog.Follows _ _ _ (if (owner : Option (Option ℤ)).join = some u then _ else _) _
        split_ifs with howner
        · exact ⟨trivial, fun _ => rfl⟩
        · exact rfl

/-- The seats that an actor does not win are those that it says it failed to lock. -/
theorem handover_acquireSeats {ticket : ℕ} {u : ℤ} {seats seatIds : List ℤ} {result : LockResult}
    (hserving : b.serving = some (.lock ticket u seats)) :
    (acquireSeats k u seatIds result).Follows
      (fun b c => handoverMay (.actor g k) b (.service (.redis c))) HandoverStage.acquire
      (fun r b' => result.failedSeatIds ⊆ r.failedSeatIds ∧ ∃ l, b' = { b with pending := l } ∧
        ∀ seatId ∈ l, seatId ∈ b.pending ∧ (seatId ∈ seatIds → seatId ∈ r.failedSeatIds)) b := by
  induction seatIds generalizing b result with
  | nil => exact ⟨List.Subset.refl _, b.pending, rfl, fun x hx => ⟨hx, fun h => nomatch h⟩⟩
  | cons seatId seatIds ih =>
      refine (handover_acquire seatId hserving).bind fun ok b' hb' => ?_
      subst hb'
      cases ok with
      | true =>
          refine (ih (b := b.won seatId) hserving).mono fun r b' hr => ?_
          obtain ⟨hfailed, l, rfl, hl⟩ := hr
          refine ⟨hfailed, l, rfl, fun x hx => ?_⟩
          obtain ⟨hmem, hrest⟩ := hl x hx
          obtain ⟨hmem, hne⟩ := List.mem_filter.1 hmem
          refine ⟨hmem, fun h => hrest ?_⟩
          exact (List.mem_cons.1 h).resolve_left (of_decide_eq_true hne)
      | false =>
          refine (ih (b := b) hserving).mono fun r b' hr => ?_
          obtain ⟨hfailed, l, rfl, hl⟩ := hr
          refine ⟨fun x hx => hfailed (List.mem_append_left _ hx), l, rfl, fun x hx => ?_⟩
          obtain ⟨hmem, hrest⟩ := hl x hx
          refine ⟨hmem, fun h => ?_⟩
          rcases List.mem_cons.1 h with rfl | h
          · exact hfailed (List.mem_append_right _ (List.mem_singleton_self x))
          · exact hrest h

/-- The seats that are left of a lock task fail in the answer to it. -/
theorem handover_serve {task : GatewayTask} (hrest : b.held = [] ∧ b.awaits = false)
    (hserving : b.serving = some task) (hpending : b.pending = task.lockSeats) :
    (serve g k task).Follows (handoverMay (.actor g k)) (handoverNext (.actor g k))
      (fun _ b' => b'.Resting) b := by
  cases task with
  | lock ticket u seatIds =>
      refine Prog.Follows.bind (p := acquireAndPublish u k seatIds)
        (Q := fun r b' => (b'.held = [] ∧ b'.awaits = false) ∧
          b'.serving = some (.lock ticket u seatIds) ∧
          ∀ seatId ∈ b'.pending, seatId ∈ seatIds ∧ seatId ∈ r.failedSeatIds) ?_ fun r b' hb' => ?_
      · have hseats := show (acquireSeats k u seatIds ⟨[], []⟩).Follows _ _ _ b from
          handover_acquireSeats (g := g) hserving
        have hacquire : (onRedis (acquireSeats k u seatIds ⟨[], []⟩)).Follows
            (handoverMay (.actor g k)) (handoverNext (.actor g k))
            (fun r b' => ([] : List ℤ) ⊆ r.failedSeatIds ∧ ∃ l, b' = { b with pending := l } ∧
              ∀ seatId ∈ l, seatId ∈ b.pending ∧ (seatId ∈ seatIds → seatId ∈ r.failedSeatIds))
            b :=
          Prog.Follows.hoist (fun b c h => ⟨h, fun _ => rfl⟩) hseats
        refine hacquire.bind fun result b' hb' => ?_
        obtain ⟨-, l, rfl, hl⟩ := hb'
        have hfailed : ∀ seatId ∈ l, seatId ∈ seatIds ∧ seatId ∈ result.failedSeatIds := by
          intro x hx
          obtain ⟨hmem, hfailed⟩ := hl x hx
          rw [hpending] at hmem
          exact ⟨hmem, hfailed hmem⟩
        show Prog.Follows _ _ _ (if result.lockedSeatIds = [] then _ else _) _
        split_ifs
        · exact ⟨hrest, hserving, hfailed⟩
        · exact ⟨trivial, fun _ => ⟨hrest, hserving, hfailed⟩⟩
      · obtain ⟨hrest, hserving, hfailed⟩ := hb'
        refine ⟨⟨k, _, rfl, hserving, rfl, fun x hx =>
          ⟨(hfailed x hx).1, r, rfl, (hfailed x hx).2⟩⟩, fun _ => ?_⟩
        exact ⟨hrest.1, hrest.2, rfl, rfl⟩
  | cancel ticket u seatIds =>
      refine Prog.Follows.bind (p := cancelCommitted u k seatIds)
        (Q := fun _ b' => b' = b) ?_ fun r b' hb' => ?_
      · refine ⟨trivial, fun published => ?_⟩
        show Prog.Follows _ _ _ (if published = true then _ else _) b
        split_ifs <;> exact rfl
      · subst hb'
        refine ⟨⟨k, _, rfl, hserving, rfl, fun x hx => ?_⟩, fun _ => ⟨hrest.1, hrest.2, rfl, rfl⟩⟩
        rw [hpending] at hx
        cases hx

theorem handover_runShowActor (cell rounds : ℕ) (hrest : b.Resting) :
    (runShowActor g k cell rounds).Follows (handoverMay (.actor g k)) (handoverNext (.actor g k))
      (fun _ b' => b'.Resting) b := by
  induction rounds generalizing b with
  | zero => exact hrest
  | succ rounds ih =>
      refine ⟨⟨⟨k, rfl⟩, hrest.2.2.1, hrest.2.2.2⟩, fun task => ?_⟩
      have hserve : (serve g k task).Follows (handoverMay (.actor g k)) (handoverNext (.actor g k))
          (fun _ b' => b'.Resting) (handoverNext (.actor g k) b (.recv g cell) task) :=
        handover_serve ⟨hrest.1, hrest.2.1⟩ rfl rfl
      exact hserve.bind fun _ _ hb' => ih hb'

end Actor

/-! ### The others -/

/-- What sessions do that neither are requests nor actors. -/
def Apart : Cmd → Prop
  | .service _ => True
  | .clearAdmission .. => True
  | .handleEvent _ => True
  | .insertClosed .. => True
  | .removeCell .. => True
  | .setClosing .. => True
  | _ => False

theorem follows_apart {β : Type} {p : Service β} (h : p.Issues Apart)
    (hlock : ∀ g u k seats, n ≠ .lock g u k seats) (hactor : ∀ g k, n ≠ .actor g k) :
    p.Follows (handoverMay n) (handoverNext n) (fun _ b' => b' = .start) .start := by
  refine Prog.follows_of_issues (S := fun b' => b' = HandoverStage.start)
    (h.mono fun c hc b' hb' => ?_) rfl
  subst hb'
  cases c with
  | service c =>
      cases c with
      | redis k =>
          have hmay : handoverMay n .start (.service (.redis k)) := by
            cases k with
            | setLockNx | getLock => exact fun g k' h => absurd h (hactor g k')
            | _ => trivial
          refine ⟨hmay, fun r => ?_⟩
          cases n with
          | actor g k => exact absurd rfl (hactor g k)
          | _ => rfl
      | _ => exact ⟨trivial, fun _ => rfl⟩
  | clearAdmission => exact ⟨fun g u k seats h => absurd h (hlock g u k seats), fun _ => rfl⟩
  | handleEvent | insertClosed | removeCell | setClosing => exact ⟨trivial, fun _ => rfl⟩
  | _ => exact absurd hc id

theorem apart_onServices {β : Type} (p : Payments.Service β) : (onServices p).Issues Apart :=
  Prog.Issues.hoist _ (Prog.issues_of_forall p fun _ => ⟨trivial, fun _ => trivial⟩)

theorem apart_onRedis {β : Type} (p : SingleNodeLock.Op β) : (onRedis p).Issues Apart :=
  Prog.Issues.hoist _ (Prog.issues_of_forall p fun _ => ⟨trivial, fun _ => trivial⟩)

theorem handover_started {s : World} {q : Service Result} (h : Started s n q) :
    q.Follows (handoverMay n) (handoverNext n) (fun _ b' => b'.Resting) .start := by
  have hstart : HandoverStage.start.Resting := ⟨rfl, rfl, rfl, rfl⟩
  have hapart : ∀ {β : Type} {p : Service β}, p.Issues Apart →
      (∀ g u k seats, n ≠ .lock g u k seats) → (∀ g k, n ≠ .actor g k) →
        (forget p).Follows (handoverMay n) (handoverNext n) (fun _ b' => b'.Resting) .start := by
    intro β p hp hlock hactor
    refine (follows_apart hp hlock hactor).bind fun _ b' hb' => ?_
    rw [hb']
    exact hstart
  cases h with
  | lock => exact handover_lockTask _ _ _ _ _ _
  | cancel => exact handover_cancelTask _ _ _ _ _ _
  | actor _ rounds =>
      exact (handover_runShowActor _ rounds hstart).bind fun _ _ hb' => hb'
  | operation | lockMessage =>
      exact hapart (apart_onRedis _) (fun _ _ _ _ h => nomatch h) fun _ _ h => nomatch h
  | updater | request | cancelOrder | checkout | cancellation =>
      exact hapart (apart_onServices _) (fun _ _ _ _ h => nomatch h) fun _ _ h => nomatch h
  | listener =>
      exact hapart ⟨trivial, fun _ => trivial⟩ (fun _ _ _ _ h => nomatch h) fun _ _ h => nomatch h
  | closing g k =>
      refine hapart ⟨trivial, fun _ => ⟨trivial, fun r => ?_⟩⟩ (fun _ _ _ _ h => nomatch h)
        fun _ _ h => nomatch h
      match r with
      | none => trivial
      | some cell => exact ⟨trivial, fun _ => trivial⟩
  | expiry g =>
      refine hapart ((apart_onRedis _).bind fun passed => ?_) (fun _ _ _ _ h => nomatch h)
        fun _ _ h => nomatch h
      cases passed with
      | true => exact ⟨trivial, fun _ => apart_onRedis _⟩
      | false => trivial

end Follows

/-- The machine with the hands that seats are in. -/
def handover : Machine (World × (ℕ → HandoverStage)) Rep Task Result Link Environ :=
  machine.staged .start handoverNext

abbrev HandoverPool := Pool (World × (ℕ → HandoverStage)) Rep Task Result

theorem handover_follows {G : HandoverPool → Act Link Environ → Prop} {p : HandoverPool}
    (h : handover.system.ReachableUnder G p) {i : ℕ} {n : Task} {q : Service Result}
    (hr : p.Runs i n q) :
    q.Follows (handoverMay n) (handoverNext n) (fun _ b' => b'.Resting) (p.store.2 i) :=
  Machine.follows_of_reachable (Q := fun _ _ b' => b'.Resting)
    (fun _ _ _ _ _ henv n q hmem => handover_started (started_of_environ henv n q hmem)) h i n q hr

/-- A run with the stages is one of the machine. -/
theorem handover_machine {G : HandoverPool → Act Link Environ → Prop} {p : HandoverPool}
    (h : handover.system.ReachableUnder G p) :
    machine.system.Reachable ⟨p.store.1, p.threads⟩ := by
  have h : (machine.staged .start handoverNext).system.ReachableUnder G p := h
  exact Machine.logged_reachable (fun _ _ _ => trivial) h

end Gateway
end Bookit

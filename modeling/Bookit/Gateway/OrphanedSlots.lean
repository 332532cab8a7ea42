import Bookit.Gateway.TicketPlaces

/-!
# Gateway.OrphanedSlots — slots that nothing stands for

A slot is taken until its seat is cleared.  Until then something stands for it: a request that has
the seat in hand, a task in the queue or at the actor of the show, the lock of the seat, or an event
that the replica has yet to handle.  A lock that ends and a request that is dropped may leave a slot
that nothing stands for; only an expiry worker of the same replica finds such slots.
-/

namespace Bookit
namespace Gateway

open Lib LockServer

namespace Task

/-- The replica and the show of a lock request. -/
def locksIn : Task → Option (ℕ × ℤ)
  | lock g _ showtimeId _ => some (g, showtimeId)
  | _ => none

/-- The replica and the show of an actor. -/
def actsIn : Task → Option (ℕ × ℤ)
  | actor g showtimeId => some (g, showtimeId)
  | _ => none

/-- The replica, the show and the seat of everything that a lock request asks for. -/
def asked : Task → List (ℕ × ℤ × ℤ)
  | lock g _ showtimeId seatIds => seatIds.map fun seatId => (g, showtimeId, seatId)
  | _ => []

end Task

def Answer.failedSeatIds : Answer → List ℤ
  | .lock result => result.failedSeatIds
  | .cancel _ => []

/-- The answer that a request gets. -/
def State.answerTo (t : State) (ticket : ℕ) : Option Answer :=
  (t.answers.find? fun a => decide (a.1 = ticket)).map Prod.snd

/-! ## Seats in hand -/

/-- The request has taken the slot of the seat, and has neither passed the seat on nor freed it. -/
def HeldBy (p : HandoverPool) (i g : ℕ) (seat : ℤ × ℤ) : Prop :=
  (p.working i).bind Task.locksIn = some (g, seat.1) ∧ seat.2 ∈ (p.store.2 i).held

/-- The answer that the request waits for says that the seat could not be locked. -/
def FailedFor (p : HandoverPool) (i g : ℕ) (seat : ℤ × ℤ) : Prop :=
  (p.working i).bind Task.locksIn = some (g, seat.1) ∧ (p.store.2 i).awaits = true ∧
    ∃ a ∈ (p.store.1.gateways g).answerTo i, seat.2 ∈ a.failedSeatIds

/-- The actor serves a task with the seat, and has not found the seat locked for its user. -/
def ServedBy (p : HandoverPool) (i g : ℕ) (seat : ℤ × ℤ) : Prop :=
  (p.working i).bind Task.actsIn = some (g, seat.1) ∧ seat.2 ∈ (p.store.2 i).pending

def InHands (p : HandoverPool) (i g : ℕ) (seat : ℤ × ℤ) : Prop :=
  HeldBy p i g seat ∨ FailedFor p i g seat ∨ ServedBy p i g seat

/-- A task with the seat is in a queue of its show. -/
def QueuedFor (p : HandoverPool) (g : ℕ) (seat : ℤ × ℤ) : Prop :=
  ∃ x ∈ (p.store.1.gateways g).cells, x.showtimeId = seat.1 ∧
    ∃ a ∈ x.actor, ∃ task ∈ a.queue, seat.2 ∈ task.lockSeats

/-- A lock task for the seat is in the queue or in the hands of a session other than the given one. -/
def Pending (p : HandoverPool) (but : Option ℕ) (g : ℕ) (seat : ℤ × ℤ) : Prop :=
  QueuedFor p g seat ∨ ∃ i ∈ List.range p.threads.length, some i ≠ but ∧ InHands p i g seat

/-- The replica has yet to handle an event that frees the slot of the seat. -/
def ToHear (p : HandoverPool) (g : ℕ) (seat : ℤ × ℤ) : Prop :=
  ∃ event ∈ p.store.1.services.redis.published.drop (p.store.1.gateways g).handled,
    ∃ cleared ∈ clearedBy event, cleared.1 = seat.1 ∧ seat.2 ∈ cleared.2

/-- The slot of the seat is free, or something other than its lock stands for it. -/
def Provided (p : HandoverPool) (but : Option ℕ) (g : ℕ) (seat : ℤ × ℤ) : Prop :=
  (p.store.1.gateways g).available seat.1 seat.2 = true ∨ ToHear p g seat ∨ Pending p but g seat

def Locked (r : Redis) (seat : ℤ × ℤ) : Prop := (r.lockOwner seat.1 seat.2).isSome = true

/-! ## The condition -/

/-- Everything that lock requests have asked for. -/
def requested (p : HandoverPool) : List (ℕ × ℤ × ℤ) :=
  (p.threads.map Thread.info).flatMap Task.asked

/-- Where a lock ends, something else stands for the slots of its seat. -/
def EndsWell (p : HandoverPool) (r : Redis) : Prop :=
  ∀ x ∈ requested p, Locked p.store.1.services.redis x.2 → ¬Locked r x.2 → Provided p none x.1 x.2

/-- The seats in the hands of the session are locked, or do without it. -/
def DropsWell (p : HandoverPool) (i : ℕ) : Prop :=
  ∀ x ∈ requested p, InHands p i x.1 x.2 →
    Locked p.store.1.services.redis x.2 ∨ Provided p (some i) x.1 x.2

/-- The next command of a session orphans no slot: only the end of a lock does, and an answer that
nothing waits for. -/
def CommandGivesBack (p : HandoverPool) (i : ℕ) (l : Link) : Cmd → Prop
  | .service (.redis k) => l = .lost ∨ EndsWell p (k.effect p.store.1.services.redis)
  | .answer _ ticket _ => (p.working ticket).isSome = true ∨ DropsWell p i
  | _ => True

/-- Locks end, and requests and actors are lost, only where something else stands for the slots. -/
def GivesBack (p : HandoverPool) : Act Link Environ → Prop
  | .environ (.tick d) =>
      EndsWell p { p.store.1.services.redis with now := p.store.1.services.redis.now + d }
  | .environ _ => True
  | .run i l =>
      match p.threads[i]? with
      | some ⟨_, some (.call c _)⟩ => CommandGivesBack p i l c
      | _ => True
  | .crash i => DropsWell p i

instance {p : HandoverPool} {i g : ℕ} {seat : ℤ × ℤ} : Decidable (InHands p i g seat) := by
  unfold InHands HeldBy FailedFor ServedBy
  infer_instance

instance {p : HandoverPool} {but : Option ℕ} {g : ℕ} {seat : ℤ × ℤ} :
    Decidable (Pending p but g seat) := by
  unfold Pending QueuedFor
  infer_instance

instance {p : HandoverPool} {but : Option ℕ} {g : ℕ} {seat : ℤ × ℤ} :
    Decidable (Provided p but g seat) := by
  unfold Provided ToHear
  infer_instance

instance {r : Redis} {seat : ℤ × ℤ} : Decidable (Locked r seat) := by
  unfold Locked
  infer_instance

instance {p : HandoverPool} {i : ℕ} : Decidable (DropsWell p i) := by
  unfold DropsWell
  infer_instance

instance {p : HandoverPool} {i : ℕ} {l : Link} {c : Cmd} :
    Decidable (CommandGivesBack p i l c) := by
  unfold CommandGivesBack EndsWell
  rcases c with c | _
  · rcases c with ⟨⟩ <;> infer_instance
  all_goals infer_instance

instance {p : HandoverPool} {a : Act Link Environ} : Decidable (GivesBack p a) := by
  unfold GivesBack EndsWell
  rcases a with x | ⟨i, l⟩ | _
  · rcases x with ⟨⟩ <;> infer_instance
  · dsimp only
    rcases p.threads[i]? with _ | ⟨n, _ | _ | ⟨c, k⟩⟩ <;> infer_instance
  · infer_instance

/-! ## Stages -/

section Stages

variable {n : Task} {b : HandoverStage} {c : Cmd} {r : Rep c}

theorem slots_next (hregister : ∀ g cell seatId index, c ≠ .registerSeat g cell seatId index)
    (htries : ∀ g cell index, c ≠ .tryAdmit g cell index) :
    (handoverNext n b c r).slots = b.slots := by
  cases c with
  | registerSeat => exact absurd rfl (hregister _ _ _ _)
  | tryAdmit => exact absurd rfl (htries _ _ _)
  | trySend =>
      show HandoverStage.slots (if (r : Bool) = true then _ else _) = _
      split_ifs <;> rfl
  | awaitAnswer =>
      show HandoverStage.slots (if b.awaits = true then { b with
        held := comeBack n r, awaits := false } else b) = _
      split_ifs <;> rfl
  | service c =>
      cases c with
      | redis k =>
          cases n with
          | actor =>
              obtain ⟨l, heq⟩ := b.acquire_eq k r
              have hslots := congrArg HandoverStage.slots heq
              exact hslots
          | _ => rfl
      | _ => rfl
  | _ => rfl

/-- The commands by which a request takes slots, passes seats on and frees them. -/
def Shifts : Cmd → Prop
  | .tryAdmit .. => True
  | .trySend .. => True
  | .awaitAnswer _ => True
  | .clearAdmission .. => True
  | _ => False

theorem held_next (hc : ¬Shifts c) : (handoverNext n b c r).held = b.held := by
  cases c with
  | tryAdmit | trySend | awaitAnswer | clearAdmission => exact absurd trivial hc
  | registerSeat =>
      match r with
      | .ok index => rfl
      | .error e => rfl
  | service c =>
      cases c with
      | redis k =>
          cases n with
          | actor =>
              obtain ⟨l, heq⟩ := b.acquire_eq k r
              have hheld := congrArg HandoverStage.held heq
              exact hheld
          | _ => rfl
      | _ => rfl
  | _ => rfl

/-- The commands by which an actor takes a task, locks its seats and answers it. -/
def Serves : Cmd → Prop
  | .recv .. => True
  | .answer .. => True
  | .service (.redis (.setLockNx ..)) => True
  | .service (.redis (.getLock ..)) => True
  | _ => False

theorem pending_next (hc : ¬Serves c) : (handoverNext n b c r).pending = b.pending := by
  cases c with
  | recv | answer => exact absurd trivial hc
  | registerSeat =>
      match r with
      | .ok index => rfl
      | .error e => rfl
  | trySend =>
      show HandoverStage.pending (if (r : Bool) = true then _ else _) = _
      split_ifs <;> rfl
  | awaitAnswer =>
      show HandoverStage.pending (if b.awaits = true then { b with
        held := comeBack n r, awaits := false } else b) = _
      split_ifs <;> rfl
  | service c =>
      cases c with
      | redis k =>
          cases k with
          | setLockNx | getLock => exact absurd trivial hc
          | _ => cases n <;> rfl
      | _ => rfl
  | _ => rfl

end Stages

theorem ShowActor.registerSeat_ok {a : ShowActor} {seatId oneBasedIndex : ℤ} {index : ℕ}
    (h : (a.registerSeat seatId oneBasedIndex).2 = .ok index) :
    (a.registerSeat seatId oneBasedIndex).1.seatIds index = seatId ∧ seatId ≠ 0 := by
  have htake : ∀ (b : ShowActor) (j : ℕ), (b.takeSlot seatId j).2 = .ok index →
      (b.takeSlot seatId j).1.seatIds index = seatId := by
    intro b j hj
    unfold takeSlot at hj ⊢
    split_ifs at hj ⊢ with hfree hsame
    · obtain rfl := Except.ok.inj hj
      exact Redis.setAt_self
    · obtain rfl := Except.ok.inj hj
      exact hsame
  unfold registerSeat at h ⊢
  split_ifs at h ⊢ with hpos hrange
  refine ⟨?_, fun hzero => hpos (le_of_eq hzero)⟩
  dsimp only at h ⊢
  cases hindex : a.seatIndices seatId with
  | none =>
      simp only [hindex] at h ⊢
      exact htake _ _ h
  | some existing =>
      simp only [hindex] at h ⊢
      split_ifs at h ⊢
      exact htake _ _ h

/-! ## Hands after a step -/

theorem lt_of_working {p : HandoverPool} {i : ℕ} {x : ℕ × ℤ} {f : Task → Option (ℕ × ℤ)}
    (h : (p.working i).bind f = some x) : i < p.threads.length := by
  obtain ⟨n, hn, -⟩ := Option.bind_eq_some_iff.1 h
  obtain ⟨c, k, hr⟩ := Pool.working_eq_some.1 hn
  exact (List.getElem?_eq_some_iff.1 hr).1

theorem pending_of_inHands {p : HandoverPool} {but : Option ℕ} {i g : ℕ} {seat : ℤ × ℤ}
    (hbut : some i ≠ but) (h : InHands p i g seat) : Pending p but g seat := by
  have hlt : i < p.threads.length := by
    rcases h with h | h | h
    · exact lt_of_working h.1
    · exact lt_of_working h.1
    · exact lt_of_working h.1
  exact .inr ⟨i, List.mem_range.2 hlt, hbut, h⟩

theorem queuedFor_iff {p : HandoverPool} {g : ℕ} {seat : ℤ × ℤ} :
    QueuedFor p g seat ↔
      ∃ task, (p.store.1.gateways g).HasTask seat.1 task ∧ seat.2 ∈ task.lockSeats := by
  constructor
  · rintro ⟨x, hx, hk, a, ha, task, htask, hseat⟩
    obtain ⟨cell, hcell⟩ := List.mem_iff_getElem?.1 hx
    exact ⟨task, ⟨cell, x, a, hcell, hk, ha, htask⟩, hseat⟩
  · rintro ⟨task, ⟨cell, x, a, hcell, hk, ha, htask⟩, hseat⟩
    exact ⟨x, List.mem_of_getElem? hcell, hk, a, ha, task, htask, hseat⟩

/-- The first answer stays the first. -/
theorem State.answerTo_mono {t t' : State} (h : t.answers <+: t'.answers) {ticket : ℕ} {a : Answer}
    (ha : a ∈ t.answerTo ticket) : a ∈ t'.answerTo ticket := by
  obtain ⟨rest, hrest⟩ := h
  obtain ⟨x, hx, rfl⟩ := Option.map_eq_some_iff.1 ha
  refine Option.map_eq_some_iff.2 ⟨x, ?_, rfl⟩
  rw [← hrest, List.find?_append, hx, Option.some_or]

section Step

variable {G : HandoverPool → Act Link Environ → Prop} {p : HandoverPool} {i : ℕ} {l : Link}
variable {n : Task} {c : Cmd} {k : Rep c → Service Result} {r : Rep c}
variable {s : World × (ℕ → HandoverStage)} {g j : ℕ} {seat : ℤ × ℤ}

/-- The pool after a command of a session. -/
abbrev after (p : HandoverPool) (i : ℕ) (n : Task) (s : World × (ℕ → HandoverStage))
    (q : Service Result) : HandoverPool :=
  ⟨s, p.threads.set i ⟨n, some q⟩⟩

theorem exec_of_staged (hs : handover.exec n i l c p.store = some (s, r)) :
    exec i l c p.store.1 = some (s.1, r) ∧ s.2 i = handoverNext n (p.store.2 i) c r ∧
      ∀ j, j ≠ i → s.2 j = p.store.2 j := by
  obtain ⟨hrun, hstages⟩ := Machine.staged_exec.1 hs
  refine ⟨hrun, ?_, fun j hne => ?_⟩
  · rw [hstages, Function.update_self]
  · rw [hstages, Function.update_of_ne hne]

/-- A session goes on, or has nothing in hand. -/
theorem working_or_resting (hp : handover.system.ReachableUnder G p) (hr : p.Runs i n (.call c k))
    (hs : handover.exec n i l c p.store = some (s, r)) :
    (after p i n s (k r)).working i = some n ∨ (s.2 i).Resting := by
  have hrest := (handover_follows hp hr).2 r
  rw [← (exec_of_staged hs).2.1] at hrest
  cases hk : k r with
  | ret x =>
      rw [hk] at hrest
      exact .inr hrest
  | call c' k' =>
      have hlt := (List.getElem?_eq_some_iff.1 hr).1
      exact .inl (Pool.working_set_self hlt rfl)

theorem working_other (hne : j ≠ i) : (after p i n s (k r)).working j = p.working j :=
  Pool.working_set_ne hne

theorem inHands_other (hs : handover.exec n i l c p.store = some (s, r)) (hne : j ≠ i)
    (h : InHands p j g seat) : InHands (after p i n s (k r)) j g seat := by
  obtain ⟨hrun, -, hstage⟩ := exec_of_staged hs
  have hstage : s.2 j = p.store.2 j := hstage j hne
  unfold InHands HeldBy FailedFor ServedBy at h ⊢
  rw [working_other hne]
  show (_ ∧ seat.2 ∈ (s.2 j).held) ∨ (_ ∧ (s.2 j).awaits = true ∧ _) ∨
    (_ ∧ seat.2 ∈ (s.2 j).pending)
  rw [hstage]
  refine h.imp_right (Or.imp_left fun hfailed => ?_)
  obtain ⟨hlocks, hawaits, a, ha, hseat⟩ := hfailed
  exact ⟨hlocks, hawaits, a, State.answerTo_mono (answers_exec hrun g) ha, hseat⟩

/-- A queued task stays, or the session that took it has its seats in hand. -/
theorem queuedFor_run (hp : handover.system.ReachableUnder G p) (hr : p.Runs i n (.call c k))
    (hs : handover.exec n i l c p.store = some (s, r)) (h : QueuedFor p g seat) :
    Pending (after p i n s (k r)) none g seat := by
  obtain ⟨hrun, hself, -⟩ := exec_of_staged hs
  obtain ⟨task, htask, hseat⟩ := queuedFor_iff.1 h
  by_cases hrecv : ∃ g' cell, c = .recv g' cell
  · obtain ⟨g', cell, rfl⟩ := hrecv
    rcases hasTask_of_recv_or hrun htask with hstays | ⟨rfl, rfl, hshow⟩
    · exact .inl (queuedFor_iff.2 ⟨task, hstays, hseat⟩)
    · obtain ⟨⟨k', rfl⟩, -⟩ := (handover_follows hp hr).1
      obtain ⟨-, hcell⟩ := (recvs_reachable (handover_machine hp) hr).1 g cell rfl
      have hpending : seat.2 ∈ (s.2 i).pending := by
        rw [hself]
        exact hseat
      refine pending_of_inHands (fun h => nomatch h) (.inr (.inr ⟨?_, hpending⟩))
      rcases working_or_resting hp hr hs with hworks | ⟨-, -, hnone, -⟩
      · rw [hworks]
        exact congrArg some (Prod.ext rfl (hcell.unique hshow))
      · rw [hnone] at hpending
        cases hpending
  · refine .inl (queuedFor_iff.2 ⟨task, hasTask_exec hrun ?_ htask, hseat⟩)
    exact fun g' cell heq => hrecv ⟨g', cell, heq⟩

/-- A request passes a seat on, or frees its slot, or still has it. -/
theorem heldBy_run (hp : handover.system.ReachableUnder G p) (hr : p.Runs i n (.call c k))
    (hs : handover.exec n i l c p.store = some (s, r)) (h : HeldBy p i g seat) :
    (s.1.gateways g).available seat.1 seat.2 = true ∨
      Pending (after p i n s (k r)) none g seat := by
  obtain ⟨hrun, hself, -⟩ := exec_of_staged hs
  have hmay := (handover_follows hp hr).1
  obtain ⟨hlocks, hheld⟩ := h
  rw [Pool.working_eq_some.2 ⟨c, k, hr⟩] at hlocks
  obtain ⟨u, seats, rfl⟩ : ∃ u seats, n = .lock g u seat.1 seats := by
    cases n with
    | lock g' u k' seats =>
        obtain ⟨rfl, rfl⟩ := Prod.mk.inj (Option.some.inj hlocks)
        exact ⟨u, seats, rfl⟩
    | _ => cases hlocks
  have hkeep : seat.2 ∈ (s.2 i).held → Pending (after p i (.lock g u seat.1 seats) s (k r)) none g
      seat := by
    intro hmem
    refine pending_of_inHands (fun h => nomatch h) (.inl ⟨?_, hmem⟩)
    rcases working_or_resting hp hr hs with hworks | ⟨hnone, -⟩
    · rw [hworks]
      rfl
    · rw [hnone] at hmem
      cases hmem
  rw [hself] at hkeep
  by_cases hshifts : Shifts c
  swap
  · refine .inr (hkeep ?_)
    rw [held_next hshifts]
    exact hheld
  cases c with
  | tryAdmit g' cell index =>
      refine .inr (hkeep ?_)
      show seat.2 ∈ if (r : Bool) = true then _ else _
      split_ifs
      · exact List.mem_append_left _ hheld
      · exact hheld
  | trySend g' cell u' asked =>
      obtain ⟨k', seats', heq, hcell, -, -, hsub⟩ := hmay
      cases heq
      obtain ⟨a, ha, ⟨rfl, ht⟩ | ⟨rfl, -⟩⟩ := enqueue_exec hrun
      · -- the task is last in the queue of the cell
        refine .inr (.inl (queuedFor_iff.2 ⟨.lock i u asked, ?_, hsub hheld⟩))
        obtain ⟨x, hx, hxa⟩ := State.actor_eq_some.1 ha
        obtain ⟨y, hy, hyk⟩ := (routed_reachable hp).cells i g u seat.1 seats cell
          (Pool.Runs.task hr) hcell
        rw [hx] at hy
        obtain rfl := Option.some.inj hy
        show (s.1.gateways g).HasTask seat.1 _
        rw [ht]
        show (Redis.setAt p.store.1.gateways g _ g).HasTask seat.1 _
        rw [Redis.setAt_self]
        refine ⟨cell, { x with actor := some { a with queue := a.queue ++ [.lock i u asked] } }, _,
          ?_, hyk, rfl, List.mem_append_right _ (List.mem_singleton_self _)⟩
        rw [State.cells_setActor, hx, Option.map_some, if_pos rfl]
      · exact .inr (hkeep hheld)
  | awaitAnswer g' =>
      rw [hmay.2.1] at hheld
      cases hheld
  | clearAdmission g' k' cleared =>
      obtain ⟨rfl, rfl⟩ := hmay g u seat.1 seats rfl
      by_cases hmem : seat.2 ∈ cleared
      · refine .inl ?_
        obtain ⟨ht, -⟩ := Prod.mk.inj (Option.some.inj hrun)
        rw [← ht]
        show (Redis.setAt p.store.1.gateways g _ g).available seat.1 seat.2 = true
        rw [Redis.setAt_self]
        exact State.available_clearAdmission (.inr ⟨rfl, hmem⟩)
      · refine .inr (hkeep ?_)
        exact List.mem_filter.2 ⟨hheld, decide_eq_true hmem⟩
  | _ => exact absurd hshifts id

/-- A seat that failed is in the hands of its request, once the request has the answer. -/
theorem failedFor_run (hp : handover.system.ReachableUnder G p) (hr : p.Runs i n (.call c k))
    (hs : handover.exec n i l c p.store = some (s, r)) (h : FailedFor p i g seat) :
    Pending (after p i n s (k r)) none g seat := by
  obtain ⟨hrun, hself, -⟩ := exec_of_staged hs
  have hmay := (handover_follows hp hr).1
  obtain ⟨hlocks, hawaits, a, ha, hseat⟩ := h
  rw [Pool.working_eq_some.2 ⟨c, k, hr⟩] at hlocks
  have hworks : (s.2 i).held ≠ [] ∨ (s.2 i).awaits = true →
      (after p i n s (k r)).working i = some n := by
    intro hbusy
    refine (working_or_resting hp hr hs).resolve_right ?_
    rintro ⟨hheld, hnot, -⟩
    rcases hbusy with hbusy | hbusy
    · exact hbusy hheld
    · rw [hnot] at hbusy
      cases hbusy
  by_cases hanswer : ∃ g', c = .awaitAnswer g'
  · obtain ⟨g', rfl⟩ := hanswer
    obtain rfl : g' = g := by
      cases n with
      | lock g₀ u k' seats =>
          obtain ⟨rfl, -⟩ := Prod.mk.inj (Option.some.inj hlocks)
          exact (hmay.2.2 g₀ u k' seats rfl).symm
      | _ => cases hlocks
    obtain ⟨place, hplaced, -⟩ := (routed_reachable hp).placed
    obtain ⟨-, -, hfind⟩ := answer_of_await hplaced hrun
    have hsame : a = r := by
      have heq : (p.store.1.gateways g').answerTo i = some r := by
        unfold State.answerTo
        rw [hfind]
        rfl
      rw [heq] at ha
      exact (Option.some.inj ha).symm
    subst hsame
    have hheld : seat.2 ∈ (s.2 i).held := by
      rw [hself]
      show seat.2 ∈ HandoverStage.held (if (p.store.2 i).awaits = true then _ else _)
      rw [if_pos hawaits]
      cases n with
      | lock =>
          cases a with
          | lock result => exact hseat
          | cancel => cases hseat
      | _ => cases hlocks
    refine pending_of_inHands (fun h => nomatch h) (.inl ⟨?_, hheld⟩)
    rw [hworks (.inl (List.ne_nil_of_mem hheld))]
    exact hlocks
  · have hwaits : (s.2 i).awaits = true := by
      rw [hself]
      by_cases hpasses : Passes c
      · cases c with
        | trySend =>
            obtain ⟨-, -, -, -, -, hnot, -⟩ := hmay
            rw [hawaits] at hnot
            cases hnot
        | send => exact rfl
        | recv | answer => exact hawaits
        | _ => exact absurd hpasses id
      · exact (awaits_next _ hpasses fun g' heq => hanswer ⟨g', heq⟩).trans hawaits
    refine pending_of_inHands (fun h => nomatch h) (.inr (.inl ⟨?_, hwaits, a, ?_, hseat⟩))
    · rw [hworks (.inr hwaits)]
      exact hlocks
    · exact State.answerTo_mono (answers_exec hrun g) ha

/-- A seat that is set for the user of a task is locked. -/
theorem locked_of_set {w t : World} {k a u : ℤ} {ttl : ℕ}
    (h : exec i l (.service (.redis (.setLockNx k a u ttl))) w = some (t, some true)) :
    Locked t.services.redis (k, a) := by
  have h := Option.some.inj h
  have hredis : Redis.deliver l (Redis.setLockNx k a u ttl) w.services.redis =
      (t.services.redis, some true) := by
    have hnode := congrArg (fun x => x.1.services.redis) h
    have hreply : (Redis.deliver l (Redis.setLockNx k a u ttl) w.services.redis).2 = some true :=
      congrArg Prod.snd h
    exact Prod.ext hnode hreply
  rcases Redis.setLockNx_cases hredis with ⟨-, hne⟩ | ⟨-, hput⟩
  · exact absurd rfl hne
  · have howner : t.services.redis.lockOwner k a = some u := by
      rw [hput]
      exact Expiring.lookup_put_self (Nat.le_add_right _ _)
    unfold Locked
    rw [howner]
    rfl

theorem locked_of_get {w t : World} {k a u : ℤ} {r : Option (Option ℤ)}
    (h : exec i l (.service (.redis (.getLock k a))) w = some (t, r)) (hr : r.join = some u) :
    Locked t.services.redis (k, a) := by
  have h := Option.some.inj h
  have hnode : (Redis.read l (·.lockOwner k a) w.services.redis).1 = t.services.redis :=
    congrArg (fun x => x.1.services.redis) h
  have hreply : (Redis.read l (·.lockOwner k a) w.services.redis).2 = r := congrArg Prod.snd h
  rw [Redis.read_fst] at hnode
  cases l with
  | lost | unacked =>
      obtain rfl : none = r := hreply
      cases hr
  | ok =>
      obtain rfl : some (w.services.redis.lockOwner k a) = r := hreply
      have howner : w.services.redis.lockOwner k a = some u := hr
      unfold Locked
      rw [← hnode, howner]
      rfl

/-- An event that is yet to be handled frees its seats when it is. -/
theorem toHear_run (hp : handover.system.ReachableUnder G p)
    (hs : handover.exec n i l c p.store = some (s, r)) (h : ToHear p g seat) :
    (s.1.gateways g).available seat.1 seat.2 = true ∨ ToHear (after p i n s (k r)) g seat := by
  obtain ⟨hrun, -⟩ := exec_of_staged hs
  obtain ⟨event, hevent, cleared, hcleared, hseat⟩ := h
  have hreg := (listens_reachable (handover_machine hp)).registered
  have hnone : ¬Claims [] p.store.1 c := by
    unfold Claims
    split
    · exact List.not_mem_nil
    · split
      · exact id
      · exact List.not_mem_nil
    · exact id
  obtain ⟨more, hmore⟩ := published_exec hrun
  have hdrop : ∀ m, m ≤ p.store.1.services.redis.published.length →
      event ∈ p.store.1.services.redis.published.drop m →
        event ∈ s.1.services.redis.published.drop m := by
    intro m hm hmem
    rw [← hmore, List.drop_append_of_le_length hm]
    exact List.mem_append_left _ hmem
  have hle := (listens_reachable (handover_machine hp)).handled g
  rcases keepsFree_exec (g := g) hrun hreg hnone with ⟨first, hfirst, -, hgate⟩ | hkeeps
  · obtain ⟨hlt, hfirst⟩ := List.getElem?_eq_some_iff.1 hfirst
    rw [List.drop_eq_getElem_cons hlt] at hevent
    rcases List.mem_cons.1 hevent with rfl | hrest
    · refine .inl ?_
      rw [hgate, ← hfirst]
      refine State.available_handlePubsubMessage (.inr ⟨cleared.2, ?_, hseat.2⟩)
      rw [← hseat.1]
      exact hcleared
    · refine .inr ⟨event, ?_, cleared, hcleared, hseat⟩
      show event ∈ s.1.services.redis.published.drop (s.1.gateways g).handled
      rw [hgate, State.handled_handlePubsubMessage]
      exact hdrop _ hlt hrest
  · refine .inr ⟨event, ?_, cleared, hcleared, hseat⟩
    show event ∈ s.1.services.redis.published.drop (s.1.gateways g).handled
    rw [hkeeps.handled]
    exact hdrop _ hle hevent

/-- What others have in hand stays there. -/
theorem pending_other (hp : handover.system.ReachableUnder G p) (hr : p.Runs i n (.call c k))
    (hs : handover.exec n i l c p.store = some (s, r)) (h : Pending p (some i) g seat) :
    Pending (after p i n s (k r)) none g seat := by
  rcases h with hqueued | ⟨j, -, hne, hhands⟩
  · exact queuedFor_run hp hr hs hqueued
  · refine pending_of_inHands (fun h => nomatch h) (inHands_other hs ?_ hhands)
    rintro rfl
    exact hne rfl

/-- An actor locks a seat, or says in its answer that it has not. -/
theorem servedBy_run (hp : handover.system.ReachableUnder G p) (hr : p.Runs i n (.call c k))
    (hs : handover.exec n i l c p.store = some (s, r)) (hG : CommandGivesBack p i l c)
    (hasked : (g, seat) ∈ requested p)
    (htaken : (p.store.1.gateways g).available seat.1 seat.2 = false) (h : ServedBy p i g seat) :
    Locked s.1.services.redis seat ∨ (s.1.gateways g).available seat.1 seat.2 = true ∨
      ToHear (after p i n s (k r)) g seat ∨ Pending (after p i n s (k r)) none g seat := by
  obtain ⟨hrun, hself, hstage⟩ := exec_of_staged hs
  have hmay := (handover_follows hp hr).1
  have hserved := h
  obtain ⟨hacts, hpending⟩ := h
  rw [Pool.working_eq_some.2 ⟨c, k, hr⟩] at hacts
  obtain rfl : n = .actor g seat.1 := by
    cases n with
    | actor g' k' =>
        obtain ⟨rfl, rfl⟩ := Prod.mk.inj (Option.some.inj hacts)
        rfl
    | _ => cases hacts
  have hkeep : seat.2 ∈ (handoverNext (.actor g seat.1) (p.store.2 i) c r).pending →
      Pending (after p i (.actor g seat.1) s (k r)) none g seat := by
    intro hmem
    rw [← hself] at hmem
    refine pending_of_inHands (fun h => nomatch h) (.inr (.inr ⟨?_, hmem⟩))
    rcases working_or_resting hp hr hs with hworks | ⟨-, -, hnone, -⟩
    · rw [hworks]
      rfl
    · rw [hnone] at hmem
      cases hmem
  have hwon : ∀ seatId, seat.2 ≠ seatId → seat.2 ∈ ((p.store.2 i).won seatId).pending :=
    fun seatId hne => List.mem_filter.2 ⟨hpending, decide_eq_true hne⟩
  by_cases hserves : Serves c
  swap
  · refine .inr (.inr (.inr (hkeep ?_)))
    rw [pending_next hserves]
    exact hpending
  cases c with
  | recv g' cell =>
      rw [hmay.2.1] at hpending
      cases hpending
  | answer g' ticket a =>
      obtain ⟨k', task, heq, hserving, rfl, hfails⟩ := hmay
      obtain ⟨rfl, rfl⟩ := Task.actor.inj heq
      obtain ⟨hseat, result, rfl, hfailed⟩ := hfails seat.2 hpending
      rcases hG with hworks | hdrops
      · -- the request is told
        obtain ⟨u, seats, hticket⟩ : Asks p task.ticket g seat.1 := by
          cases task with
          | cancel => cases hseat
          | lock ticket u seats =>
              exact (routed_reachable hp).serving i g seat.1 ticket u seats (Pool.Runs.task hr)
                hserving
        obtain ⟨m, hm⟩ := Option.isSome_iff_exists.1 hworks
        obtain ⟨c', f, hruns⟩ := Pool.working_eq_some.1 hm
        obtain rfl : m = .lock g u seat.1 seats :=
          Option.some.inj ((Pool.Runs.task hruns).symm.trans hticket)
        have hne : task.ticket ≠ i := by
          intro heq
          rw [heq] at hticket
          exact nomatch (Option.some.inj ((Pool.Runs.task hr).symm.trans hticket))
        obtain ⟨place, hplaced, hawaits⟩ := (routed_reachable hp).placed
        have hplace := hplaced.served i task hserving
        refine .inr (.inr (.inr (pending_of_inHands (i := task.ticket) (fun h => nomatch h)
          (.inr (.inl ⟨?_, ?_, .lock result, ?_, hfailed⟩)))))
        · rw [working_other hne, hm]
          rfl
        · show (s.2 task.ticket).awaits = true
          rw [hstage _ hne]
          rcases hawaits task.ticket with ⟨htrue, -⟩ | ⟨-, hnone | ⟨g₀, a, hanswered⟩⟩
          · exact htrue
          · rw [hplace] at hnone
            cases hnone
          · rw [hplace] at hanswered
            cases hanswered
        · -- there was no answer to it before
          obtain ⟨ht, -⟩ := Prod.mk.inj (Option.some.inj hrun)
          have hanswers : (s.1.gateways g).answers =
              (p.store.1.gateways g).answers ++ [(task.ticket, .lock result)] := by
            rw [← ht]
            show State.answers (Redis.setAt p.store.1.gateways g _ g) = _
            rw [Redis.setAt_self]
          have hnone : (p.store.1.gateways g).answers.find?
              (fun a => decide (a.1 = task.ticket)) = none := by
            refine List.find?_eq_none.2 fun x hx heq => ?_
            have heq := of_decide_eq_true heq
            have hother := hplaced.answered g x.1 x.2 hx
            rw [heq, hplace] at hother
            cases hother
          show Answer.lock result ∈ (s.1.gateways g).answerTo task.ticket
          unfold State.answerTo
          rw [hanswers, List.find?_append, hnone, Option.none_or]
          simp
      · rcases hdrops (g, seat) hasked (.inr (.inr hserved)) with hlocked | hfree | hhear | hpend
        · refine .inl ?_
          obtain ⟨ht, -⟩ := Prod.mk.inj (Option.some.inj hrun)
          rw [← ht]
          exact hlocked
        · rw [htaken] at hfree
          cases hfree
        · exact .inr ((toHear_run hp hs hhear).imp_right .inl)
        · exact .inr (.inr (.inr (pending_other hp hr hs hpend)))
  | service c =>
      cases c with
      | redis cmd =>
          cases cmd with
          | setLockNx k' seatId u ttl =>
              obtain rfl := hmay g seat.1 rfl
              by_cases hset : r = some true
              · by_cases hsame : seat.2 = seatId
                · refine .inl ?_
                  subst hset hsame
                  exact locked_of_set hrun
                · refine .inr (.inr (.inr (hkeep ?_)))
                  show seat.2 ∈ HandoverStage.pending (if r = some true then _ else _)
                  rw [if_pos hset]
                  exact hwon seatId hsame
              · refine .inr (.inr (.inr (hkeep ?_)))
                show seat.2 ∈ HandoverStage.pending (if r = some true then _ else _)
                rw [if_neg hset]
                exact hpending
          | getLock k' seatId =>
              obtain rfl := hmay g seat.1 rfl
              have hstays : seat.2 ∈ ((p.store.2 i).acquire (.getLock seat.1 seatId) r).pending ∨
                  seat.2 = seatId ∧ ∃ u, (r : Option (Option ℤ)).join = some u := by
                rcases (p.store.2 i).acquire_getLock seat.1 seatId r with heq | ⟨heq, howner⟩
                · rw [heq]
                  exact .inl hpending
                · rw [heq]
                  by_cases hsame : seat.2 = seatId
                  · exact .inr ⟨hsame, howner⟩
                  · exact .inl (hwon seatId hsame)
              rcases hstays with hmem | ⟨rfl, u, howner⟩
              · exact .inr (.inr (.inr (hkeep hmem)))
              · exact .inl (locked_of_get hrun howner)
          | _ => exact absurd hserves id
      | _ => exact absurd hserves id
  | _ => exact absurd hserves id

end Step

/-! ## The invariant -/

/-- The seats that a request has registered are in its slots, seats that are not available were asked
for, and something stands for each. -/
structure SlotsProvided (p : HandoverPool) : Prop where
  seated : ∀ g, (p.store.1.gateways g).TakenSeated
  slotted : ∀ i g u k seats, p.task i = some (.lock g u k seats) → ∀ x ∈ (p.store.2 i).slots,
    x.1 ∈ seats ∧ x.1 ≠ 0 ∧
      ∃ cell, (p.store.2 i).cell = some cell ∧ (p.store.1.gateways g).SlotOf cell x.2 x.1
  asked : ∀ g (seat : ℤ × ℤ), (p.store.1.gateways g).available seat.1 seat.2 = false →
    (g, seat) ∈ requested p
  kept : ∀ g (seat : ℤ × ℤ), (p.store.1.gateways g).available seat.1 seat.2 = false →
    Locked p.store.1.services.redis seat ∨ ToHear p g seat ∨ Pending p none g seat

section SlotsProvided

variable {G : HandoverPool → Act Link Environ → Prop} {p : HandoverPool} {i : ℕ} {l : Link}
variable {n : Task} {c : Cmd} {k : Rep c → Service Result} {r : Rep c}
variable {s : World × (ℕ → HandoverStage)}

theorem mem_requested {g : ℕ} {u showtimeId seatId : ℤ} {seats : List ℤ}
    (htask : p.task i = some (.lock g u showtimeId seats)) (hseat : seatId ∈ seats) :
    (g, showtimeId, seatId) ∈ requested p := by
  obtain ⟨t, ht, heq⟩ := Option.map_eq_some_iff.1 htask
  refine List.mem_flatMap.2 ⟨t.info, List.mem_map_of_mem (List.mem_of_getElem? ht), ?_⟩
  rw [heq]
  exact List.mem_map_of_mem hseat

theorem requested_set (hr : p.Runs i n (.call c k)) {q : Option (Service Result)} :
    requested ⟨s, p.threads.set i ⟨n, q⟩⟩ = requested p := by
  have hinfo : (p.threads.set i ⟨n, q⟩).map Thread.info = p.threads.map Thread.info := by
    obtain ⟨hlt, hget⟩ := List.getElem?_eq_some_iff.1 hr
    have hlt' : i < (p.threads.map Thread.info).length := by rwa [List.length_map]
    have hself : (p.threads.map Thread.info)[i] = n := by rw [List.getElem_map, hget]
    rw [List.map_set, ← hself]
    exact List.set_getElem_self hlt'
  unfold requested
  rw [hinfo]

/-- The slot that a request takes is that of a seat that it asks for. -/
theorem slotOf_admit {g cell index : ℕ} {f : Rep (.tryAdmit g cell index) → Service Result}
    (hp : handover.system.ReachableUnder G p) (hI : SlotsProvided p)
    (hr : p.Runs i n (.call (.tryAdmit g cell index) f)) :
    ∃ u showtimeId seats seatId, n = .lock g u showtimeId seats ∧ seatId ∈ seats ∧ seatId ≠ 0 ∧
      (p.store.2 i).slots.head? = some (seatId, index) ∧
      (p.store.1.gateways g).ShowOf cell showtimeId ∧
        (p.store.1.gateways g).SlotOf cell index seatId := by
  obtain ⟨u, showtimeId, seats, seatId, rfl, hcell, hhead⟩ := (handover_follows hp hr).1
  obtain ⟨hmem, hne, cell', hcell', hslot⟩ := hI.slotted i g u showtimeId seats (Pool.Runs.task hr)
    (seatId, index) (List.mem_of_mem_head? hhead)
  obtain rfl : cell' = cell := Option.some.inj (hcell'.symm.trans hcell)
  exact ⟨u, showtimeId, seats, seatId, rfl, hmem, hne, hhead,
    (routed_reachable hp).cells i g u showtimeId seats cell' (Pool.Runs.task hr) hcell', hslot⟩

/-- A seat that is not available was not so before, or the request that asked for it has it. -/
theorem taken_run (hp : handover.system.ReachableUnder G p) (hI : SlotsProvided p)
    (hr : p.Runs i n (.call c k)) (hs : handover.exec n i l c p.store = some (s, r)) {g : ℕ}
    {seat : ℤ × ℤ} (htaken : (s.1.gateways g).available seat.1 seat.2 = false) :
    (p.store.1.gateways g).available seat.1 seat.2 = false ∨
      (g, seat) ∈ requested p ∧ HeldBy (after p i n s (k r)) i g seat := by
  obtain ⟨hrun, hself, -⟩ := exec_of_staged hs
  have hreg := (listens_reachable (handover_machine hp)).registered
  rcases taken_cases hrun hreg hI.seated htaken with hold | ⟨cell, index, a, rfl, hshow, ha, hfree, hid⟩
  · exact .inl hold
  · obtain ⟨u, showtimeId, seats, seatId, rfl, hmem, hne, hhead, hcell, hslot⟩ := slotOf_admit hp hI hr
    obtain rfl := hcell.unique ((hreg g).shows seat.1 cell hshow)
    obtain ⟨a', ha', hid'⟩ := hslot
    rw [ha] at ha'
    obtain rfl := Option.some.inj ha'
    obtain rfl : seat.2 = seatId := hid.symm.trans hid'
    obtain ⟨a', ha', hr', -⟩ := World.onActor_eq hrun
    rw [ha] at ha'
    obtain rfl := Option.some.inj ha'
    obtain rfl : r = true := by
      rcases a.tryAdmit_cases index with ⟨hproc, -⟩ | ⟨-, heq⟩
      · rw [hfree] at hproc
        cases hproc
      · rw [hr', heq]
    have hheld : seat.2 ∈ (s.2 i).held := by
      rw [hself]
      refine List.mem_append_right _ ?_
      rw [List.mem_map]
      refine ⟨(seat.2, index), ?_, rfl⟩
      cases hslots : (p.store.2 i).slots with
      | nil =>
          rw [hslots] at hhead
          cases hhead
      | cons x xs =>
          rw [hslots] at hhead
          obtain rfl := Option.some.inj hhead
          exact List.mem_cons_self
    refine .inr ⟨mem_requested (Pool.Runs.task hr) hmem, ?_, hheld⟩
    rcases working_or_resting hp hr hs with hworks | ⟨hnone, -⟩
    · rw [hworks]
      rfl
    · rw [hnone] at hheld
      cases hheld

/-- What leads to the clearing of a seat goes on to do so, or the seat is locked. -/
theorem provided_run (hp : handover.system.ReachableUnder G p) (hI : SlotsProvided p)
    (hr : p.Runs i n (.call c k)) (hs : handover.exec n i l c p.store = some (s, r))
    (hG : CommandGivesBack p i l c) {g : ℕ} {seat : ℤ × ℤ}
    (htaken : (p.store.1.gateways g).available seat.1 seat.2 = false)
    (h : ToHear p g seat ∨ Pending p none g seat) :
    Locked s.1.services.redis seat ∨ (s.1.gateways g).available seat.1 seat.2 = true ∨
      ToHear (after p i n s (k r)) g seat ∨ Pending (after p i n s (k r)) none g seat := by
  rcases h with hhear | hqueued | ⟨j, -, -, hhands⟩
  · exact .inr ((toHear_run hp hs hhear).imp_right .inl)
  · exact .inr (.inr (.inr (queuedFor_run hp hr hs hqueued)))
  · by_cases hji : j = i
    · subst hji
      rcases hhands with hheld | hfailed | hserved
      · exact .inr ((heldBy_run hp hr hs hheld).imp_right .inr)
      · exact .inr (.inr (.inr (failedFor_run hp hr hs hfailed)))
      · exact servedBy_run hp hr hs hG (hI.asked g seat htaken) htaken hserved
    · exact .inr (.inr (.inr (pending_of_inHands (fun h => nomatch h) (inHands_other hs hji hhands))))

theorem provided_slots_run (hp : handover.system.ReachableUnder G p) (hI : SlotsProvided p)
    (hr : p.Runs i n (.call c k)) (hs : handover.exec n i l c p.store = some (s, r))
    (hG : CommandGivesBack p i l c) : SlotsProvided (after p i n s (k r)) := by
  obtain ⟨hrun, hself, hstage⟩ := exec_of_staged hs
  have hreg := (listens_reachable (handover_machine hp)).registered
  refine ⟨fun g => ?_, fun j g u k' seats hj x hx => ?_, fun g seat htaken => ?_,
    fun g seat htaken => ?_⟩
  · by_cases htries : ∃ g' cell index, c = .tryAdmit g' cell index
    · obtain ⟨g', cell, index, rfl⟩ := htries
      obtain ⟨-, -, -, seatId, -, -, hne, -, -, a', ha', hid⟩ := slotOf_admit hp hI hr
      obtain ⟨a, ha, -, ht⟩ := World.onActor_eq hrun
      rw [ha] at ha'
      obtain rfl := Option.some.inj ha'
      show (s.1.gateways g).TakenSeated
      rw [ht]
      show (Redis.setAt p.store.1.gateways g' _ g).TakenSeated
      by_cases hg : g = g'
      · subst hg
        rw [Redis.setAt_self]
        intro c' b hb j hproc
        rw [State.actor_setActor ha] at hb
        split_ifs at hb with hc
        · obtain rfl := Option.some.inj hb
          rcases a.tryAdmit_cases index with ⟨-, heq⟩ | ⟨-, heq⟩
          · rw [heq] at hproc ⊢
            exact hI.seated g cell a ha j hproc
          · rw [heq] at hproc ⊢
            by_cases hj : j = index
            · subst hj
              show a.seatIds j ≠ 0
              rw [hid]
              exact hne
            · refine hI.seated g cell a ha j ?_
              exact (Redis.setAt_ne hj).symm.trans hproc
        · exact hI.seated g c' b hb j hproc
      · rw [Redis.setAt_ne hg]
        exact hI.seated g
    · exact (hI.seated g).mono (takesNone_exec hrun hreg
        (fun g' cell index heq => htries ⟨g', cell, index, heq⟩) g)
  · replace hj : p.task j = some (.lock g u k' seats) :=
      (Pool.task_set (Pool.Runs.task hr)).symm.trans hj
    have hold : x ∈ (p.store.2 j).slots → (s.2 j).cell = (p.store.2 j).cell →
        x.1 ∈ seats ∧ x.1 ≠ 0 ∧ ∃ cell, (s.2 j).cell = some cell ∧
          (s.1.gateways g).SlotOf cell x.2 x.1 := by
      intro hmem hcell
      obtain ⟨hseat, hne, cell, hcell', hslot⟩ := hI.slotted j g u k' seats hj x hmem
      exact ⟨hseat, hne, cell, hcell.trans hcell', slotOf_exec hrun (hreg g) hne hslot⟩
    have hx : x ∈ (s.2 j).slots := hx
    show x.1 ∈ seats ∧ x.1 ≠ 0 ∧ ∃ cell, (s.2 j).cell = some cell ∧
      (s.1.gateways g).SlotOf cell x.2 x.1
    by_cases hji : j = i
    swap
    · rw [hstage j hji] at hx ⊢
      obtain ⟨hseat, hne, cell, hcell, hslot⟩ := hI.slotted j g u k' seats hj x hx
      exact ⟨hseat, hne, cell, hcell, slotOf_exec hrun (hreg g) hne hslot⟩
    subst hji
    obtain rfl : n = .lock g u k' seats := Option.some.inj ((Pool.Runs.task hr).symm.trans hj)
    have hmay := (handover_follows hp hr).1
    rw [hself] at hx hold ⊢
    by_cases hcell : ∃ g' k₀, c = .actorCell g' k₀
    · -- a request is given its cell first
      obtain ⟨g', k₀, rfl⟩ := hcell
      obtain ⟨-, -, hnone⟩ := hmay g u k' seats rfl
      have hx : x ∈ (p.store.2 j).slots := hx
      rw [hnone] at hx
      cases hx
    have hcell := cell_next (n := .lock g u k' seats) (r := r) (p.store.2 j)
      fun g' k₀ heq => hcell ⟨g', k₀, heq⟩
    by_cases hregister : ∃ g' cell seatId index, c = .registerSeat g' cell seatId index
    · obtain ⟨g', cell, seatId, oneBasedIndex, rfl⟩ := hregister
      obtain ⟨rfl, hcell', hseat⟩ := hmay g u k' seats rfl
      match r with
      | .error e => exact hold hx rfl
      | .ok index =>
          rcases List.mem_append.1 hx with hx | hx
          · exact hold hx rfl
          · obtain rfl := List.mem_singleton.1 hx
            obtain ⟨a, ha, hok, ht⟩ := World.onActor_eq hrun
            obtain ⟨hid, hne⟩ := ShowActor.registerSeat_ok hok.symm
            refine ⟨hseat, hne, cell, hcell', _, ?_, hid⟩
            rw [ht]
            show (Redis.setAt p.store.1.gateways g _ g).actor cell = _
            rw [Redis.setAt_self, State.actor_setActor ha, if_pos rfl]
    by_cases htries : ∃ g' cell index, c = .tryAdmit g' cell index
    · obtain ⟨g', cell, index, rfl⟩ := htries
      exact hold (List.mem_of_mem_tail hx) hcell
    · refine hold ?_ hcell
      rwa [slots_next (fun g' cell seatId index heq => hregister ⟨g', cell, seatId, index, heq⟩)
        fun g' cell index heq => htries ⟨g', cell, index, heq⟩] at hx
  · rw [requested_set hr]
    rcases taken_run hp hI hr hs htaken with hold | ⟨hasked, -⟩
    · exact hI.asked g seat hold
    · exact hasked
  · have hfree : ¬(s.1.gateways g).available seat.1 seat.2 = true := by
      have htaken : (s.1.gateways g).available seat.1 seat.2 = false := htaken
      rw [htaken]
      exact Bool.false_ne_true
    have hprovided : (p.store.1.gateways g).available seat.1 seat.2 = false →
        ToHear p g seat ∨ Pending p none g seat →
        Locked s.1.services.redis seat ∨ ToHear (after p i n s (k r)) g seat ∨
          Pending (after p i n s (k r)) none g seat := by
      intro hold h
      rcases provided_run hp hI hr hs hG hold h with hlocked | havail | h
      · exact .inl hlocked
      · exact absurd havail hfree
      · exact .inr h
    rcases taken_run hp hI hr hs htaken with hold | ⟨-, hheld⟩
    · rcases hI.kept g seat hold with hlocked | h
      · by_cases hstill : Locked s.1.services.redis seat
        · exact .inl hstill
        · -- the lock ends here
          refine hprovided hold ?_
          have hends : EndsWell p s.1.services.redis := by
            rcases redis_exec hrun with ⟨cmd, rfl, ht⟩ | ⟨-, heq⟩
            · have hredis := congrArg Payments.World.redis ht
              rcases hG with rfl | hends
              · intro x _ hx hnot
                rw [hredis] at hnot
                exact absurd hx hnot
              · by_cases hl : l = .lost
                · intro x _ hx hnot
                  rw [hredis, if_pos hl] at hnot
                  exact absurd hx hnot
                · rw [hredis]
                  show EndsWell p (if l = .lost then _ else _)
                  rw [if_neg hl]
                  exact hends
            · intro x _ hx hnot
              rw [heq] at hnot
              exact absurd hx hnot
          rcases hends (g, seat) (hI.asked g seat hold) hlocked hstill with havail | h
          · rw [hold] at havail
            cases havail
          · exact h
      · exact hprovided hold h
    · exact .inr (.inr (pending_of_inHands (fun h => nomatch h) (.inl hheld)))

theorem inHands_environ {x : Environ} {ts : List (Task × Service Result)}
    (hs : handover.environ x p.store = some (s, ts)) {j g : ℕ} {seat : ℤ × ℤ}
    (h : InHands p j g seat) : InHands ⟨s, p.threads ++ Machine.start ts⟩ j g seat := by
  obtain ⟨henv, hstages⟩ := Machine.staged_environ.1 hs
  obtain ⟨closedShows, hgate⟩ := gateways_environ henv g
  have hworks : ∀ {f : Task → Option (ℕ × ℤ)} {y : ℕ × ℤ}, (p.working j).bind f = some y →
      (Pool.working ⟨s, p.threads ++ Machine.start ts⟩ j).bind f = some y := by
    intro f y hy
    have hlt := lt_of_working hy
    have hsame : Pool.working ⟨s, p.threads ++ Machine.start ts⟩ j = p.working j := by
      unfold Pool.working
      rw [List.getElem?_append_left hlt]
    rw [hsame]
    exact hy
  unfold InHands HeldBy FailedFor ServedBy at h ⊢
  show (_ ∧ seat.2 ∈ (s.2 j).held) ∨ (_ ∧ (s.2 j).awaits = true ∧
    ∃ a ∈ (s.1.gateways g).answerTo j, _) ∨ (_ ∧ seat.2 ∈ (s.2 j).pending)
  have hanswer : (s.1.gateways g).answerTo j = (p.store.1.gateways g).answerTo j := by
    rw [hgate]
    rfl
  rw [hstages, hanswer]
  exact h.imp (And.imp_left hworks) (Or.imp (And.imp_left hworks) (And.imp_left hworks))

theorem queuedFor_of_cells {q : HandoverPool} {g : ℕ} {seat : ℤ × ℤ}
    (hcells : (q.store.1.gateways g).cells = (p.store.1.gateways g).cells)
    (h : QueuedFor p g seat) : QueuedFor q g seat := by
  unfold QueuedFor at h ⊢
  rwa [hcells]

theorem provided_slots_environ (hp : handover.system.ReachableUnder G p) (hI : SlotsProvided p)
    {x : Environ} {ts : List (Task × Service Result)}
    (hs : handover.environ x p.store = some (s, ts)) (hG : GivesBack p (.environ x)) :
    SlotsProvided ⟨s, p.threads ++ Machine.start ts⟩ := by
  obtain ⟨henv, hstages⟩ := Machine.staged_environ.1 hs
  have henv : environ x p.store.1 = some (s.1, ts) := henv
  have hgate := gateways_environ henv
  have hcells : ∀ g, (s.1.gateways g).cells = (p.store.1.gateways g).cells := by
    intro g
    obtain ⟨closedShows, heq⟩ := hgate g
    rw [heq]
  have hactor : ∀ g cell, (s.1.gateways g).actor cell = (p.store.1.gateways g).actor cell := by
    intro g cell
    unfold State.actor
    rw [hcells]
  have havail : ∀ g (seat : ℤ × ℤ), (s.1.gateways g).available seat.1 seat.2 =
      (p.store.1.gateways g).available seat.1 seat.2 := by
    intro g seat
    obtain ⟨closedShows, heq⟩ := hgate g
    rw [heq]
    rfl
  have hpending : ∀ {g : ℕ} {seat : ℤ × ℤ}, ToHear p g seat ∨ Pending p none g seat →
      ToHear ⟨s, p.threads ++ Machine.start ts⟩ g seat ∨
        Pending ⟨s, p.threads ++ Machine.start ts⟩ none g seat := by
    rintro g seat (⟨event, hevent, hclears⟩ | hqueued | ⟨j, -, -, hhands⟩)
    · refine .inl ⟨event, ?_, hclears⟩
      obtain ⟨-, -, d, hredis⟩ := services_environ henv
      obtain ⟨closedShows, heq⟩ := hgate g
      show event ∈ s.1.services.redis.published.drop (s.1.gateways g).handled
      rw [hredis, heq]
      exact hevent
    · exact .inr (.inl (queuedFor_of_cells (hcells g) hqueued))
    · exact .inr (pending_of_inHands (fun h => nomatch h) (inHands_environ hs hhands))
  have hrequested : ∀ y ∈ requested p, y ∈ requested ⟨s, p.threads ++ Machine.start ts⟩ := by
    intro y hy
    unfold requested
    rw [List.map_append, List.flatMap_append]
    exact List.mem_append_left _ hy
  refine ⟨fun g cell a ha => ?_, fun j g u k seats hj y hy => ?_, fun g seat htaken => ?_,
    fun g seat htaken => ?_⟩
  · exact hI.seated g cell a ((hactor g cell).symm.trans ha)
  · have hy : y ∈ (s.2 j).slots := hy
    rcases Pool.task_of_append hj with htask | hlen
    · rw [hstages] at hy
      obtain ⟨hseat, hne, cell, hcell, a, ha, hid⟩ := hI.slotted j g u k seats htask y hy
      refine ⟨hseat, hne, cell, ?_, a, (hactor g cell).trans ha, hid⟩
      show (s.2 j).cell = some cell
      rw [hstages]
      exact hcell
    · rw [hstages, Machine.unstarted_of_reachable hp j hlen] at hy
      cases hy
  · exact hrequested _ (hI.asked g seat ((havail g seat).symm.trans htaken))
  · have hold : (p.store.1.gateways g).available seat.1 seat.2 = false :=
      (havail g seat).symm.trans htaken
    rcases hI.kept g seat hold with hlocked | h
    · by_cases hstill : Locked s.1.services.redis seat
      · exact .inl hstill
      · -- only time ends locks
        refine .inr (hpending ?_)
        have hends : EndsWell p s.1.services.redis := by
          have hsame : p.store.1.services.redis = s.1.services.redis →
              EndsWell p s.1.services.redis := fun heq y _ hy hnot => absurd (heq ▸ hy) hnot
          cases x with
          | tick d =>
              obtain ⟨ht, -⟩ := Prod.mk.inj (Option.some.inj henv)
              rw [← ht]
              exact hG
          | operation | lock | cancel | handle | scheduleClosed | request | cancelOrder =>
              obtain ⟨ht, -⟩ := Prod.mk.inj (Option.some.inj henv)
              exact hsame (congrArg (fun w : World => w.services.redis) ht)
          | scheduleOpened =>
              obtain ⟨ht, -⟩ := Prod.mk.inj (Option.some.inj henv)
              exact hsame (by rw [← ht]; rfl)
          | setClosedKey =>
              obtain ⟨ht, -⟩ := Prod.mk.inj (Option.some.inj henv)
              exact hsame (by rw [← ht])
          | lockMessage | actor =>
              obtain ⟨y, -, heq⟩ := Option.map_eq_some_iff.1 henv
              obtain ⟨ht, -⟩ := Prod.mk.inj heq
              exact hsame (congrArg (fun w : World => w.services.redis) ht)
          | updater | expiry =>
              simp only [environ] at henv
              split at henv
              · obtain ⟨ht, -⟩ := Prod.mk.inj (Option.some.inj henv)
                exact hsame (congrArg (fun w : World => w.services.redis) ht)
              · cases henv
          | deliver =>
              simp only [environ] at henv
              split at henv
              · cases henv
              · obtain ⟨y, -, heq⟩ := Option.map_eq_some_iff.1 henv
                obtain ⟨ht, -⟩ := Prod.mk.inj heq
                exact hsame (congrArg (fun w : World => w.services.redis) ht)
        rcases hends (g, seat) (hI.asked g seat hold) hlocked hstill with hfree | h
        · rw [hold] at hfree
          cases hfree
        · exact h
    · exact .inr (hpending h)

theorem provided_slots_crash (hI : SlotsProvided p) (hr : p.Runs i n (.call c k)) (hG : DropsWell p i) :
    SlotsProvided ⟨handover.close i p.store, p.threads.set i ⟨n, none⟩⟩ := by
  have hhands : ∀ {j g : ℕ} {seat : ℤ × ℤ}, j ≠ i → InHands p j g seat →
      InHands ⟨handover.close i p.store, p.threads.set i ⟨n, none⟩⟩ j g seat := by
    intro j g seat hne h
    have hworks : Pool.working ⟨handover.close i p.store, p.threads.set i ⟨n, none⟩⟩ j =
        p.working j := Pool.working_set_ne hne
    unfold InHands HeldBy FailedFor ServedBy at h ⊢
    rw [hworks]
    exact h
  refine ⟨hI.seated, fun j g u k' seats hj => ?_, fun g seat htaken => ?_, fun g seat htaken => ?_⟩
  · exact hI.slotted j g u k' seats ((Pool.task_set (Pool.Runs.task hr)).symm.trans hj)
  · rw [requested_set hr]
    exact hI.asked g seat htaken
  · have htaken : (p.store.1.gateways g).available seat.1 seat.2 = false := htaken
    have hother : ToHear p g seat ∨ Pending p (some i) g seat →
        ToHear ⟨handover.close i p.store, p.threads.set i ⟨n, none⟩⟩ g seat ∨
          Pending ⟨handover.close i p.store, p.threads.set i ⟨n, none⟩⟩ none g seat := by
      rintro (hhear | hqueued | ⟨j, -, hne, h⟩)
      · exact .inl hhear
      · exact .inr (.inl hqueued)
      · refine .inr (pending_of_inHands (fun h => nomatch h) (hhands ?_ h))
        rintro rfl
        exact hne rfl
    rcases hI.kept g seat htaken with hlocked | hhear | hqueued | ⟨j, hj, -, h⟩
    · exact .inl hlocked
    · exact .inr (hother (.inl hhear))
    · exact .inr (.inr (.inl hqueued))
    · by_cases hji : j = i
      · subst hji
        rcases hG (g, seat) (hI.asked g seat htaken) h with hlocked | hfree | hleft
        · exact .inl hlocked
        · exact absurd (htaken.symm.trans hfree) Bool.false_ne_true
        · exact .inr (hother hleft)
      · exact .inr (hother (.inr (pending_of_inHands (fun heq => hji (Option.some.inj heq)) h)))

theorem provided_slots_reachable (h : handover.system.ReachableUnder GivesBack p) : SlotsProvided p := by
  induction h with
  | @init p h0 =>
      obtain ⟨⟨⟨seats, hstore⟩, hstages⟩, hthreads⟩ := h0
      have hgate : ∀ g, p.store.1.gateways g = .new := fun g => by rw [hstore]; rfl
      refine ⟨fun g cell a ha => ?_, fun j g u k seats hj => ?_, fun g seat htaken => ?_,
        fun g seat htaken => ?_⟩
      · rw [hgate] at ha
        cases ha
      · unfold Pool.task at hj
        rw [hthreads] at hj
        cases hj
      · rw [hgate] at htaken
        cases htaken
      · rw [hgate] at htaken
        cases htaken
  | @step p q a hp hG hst ih =>
      have hst : handover.step p a = some q := hst
      cases a with
      | environ x =>
          obtain ⟨s, ts, hs, rfl⟩ := Machine.step_environ hst
          exact provided_slots_environ hp ih hs hG
      | run i l =>
          obtain ⟨n, c, k, s, r, hr, hs, rfl⟩ := Machine.step_run hst
          refine provided_slots_run hp ih hr hs ?_
          have hr : p.threads[i]? = some ⟨n, some (.call c k)⟩ := hr
          simpa only [GivesBack, hr] using hG
      | crash i =>
          obtain ⟨n, c, k, hr, rfl⟩ := Machine.step_crash hst
          exact provided_slots_crash ih hr hG

end SlotsProvided

/-! ## Orphans -/

/-- The slot of the seat is taken, and no lock, task or event stands for it. -/
def Orphaned (p : HandoverPool) (g : ℕ) (seat : ℤ × ℤ) : Prop :=
  (p.store.1.gateways g).available seat.1 seat.2 = false ∧ ¬Locked p.store.1.services.redis seat ∧
    ¬ToHear p g seat ∧ ¬Pending p none g seat

section Orphaned

variable {G : HandoverPool → Act Link Environ → Prop} {p q : HandoverPool} {i g : ℕ} {l : Link}
variable {n : Task} {c : Cmd} {k : Rep c → Service Result} {r : Rep c}
variable {s : World × (ℕ → HandoverStage)} {seat : ℤ × ℤ} {but : Option ℕ}

theorem not_orphaned (hI : SlotsProvided p) : ¬Orphaned p g seat := by
  intro h
  obtain ⟨htaken, hfree, hhear, hpending⟩ := h
  rcases hI.kept g seat htaken with hlocked | hheard | hqueued
  · exact hfree hlocked
  · exact hhear hheard
  · exact hpending hqueued

theorem not_pending_of (hcells : (q.store.1.gateways g).cells = (p.store.1.gateways g).cells)
    (hhands : ∀ j, InHands q j g seat → InHands p j g seat ∧ some j ≠ but)
    (h : ¬Pending p but g seat) : ¬Pending q none g seat := by
  intro hpending
  rcases hpending with hqueued | ⟨j, -, -, hj⟩
  · exact h (.inl (queuedFor_of_cells hcells.symm hqueued))
  · obtain ⟨hold, hne⟩ := hhands j hj
    exact h (pending_of_inHands hne hold)

/-- A slot that was not provided for is an orphan once its lock is gone, where the step changes
neither the slots of the replica nor the events. -/
theorem orphaned_of (h : ¬Provided p but g seat)
    (hgate : ∃ answers, q.store.1.gateways g = { p.store.1.gateways g with answers := answers })
    (hpublished : q.store.1.services.redis.published = p.store.1.services.redis.published)
    (hhands : ∀ j, InHands q j g seat → InHands p j g seat ∧ some j ≠ but)
    (hfree : ¬Locked q.store.1.services.redis seat) : Orphaned q g seat := by
  unfold Provided at h
  obtain ⟨answers, hgate⟩ := hgate
  have havail : (p.store.1.gateways g).available seat.1 seat.2 = false :=
    Bool.eq_false_iff.2 fun htrue => h (.inl htrue)
  have hcells : (q.store.1.gateways g).cells = (p.store.1.gateways g).cells := by
    rw [hgate]
  refine ⟨?_, hfree, fun hhear => ?_, ?_⟩
  · rw [hgate]
    exact havail
  · unfold ToHear at hhear
    rw [hgate, hpublished] at hhear
    exact h (.inr (.inl hhear))
  · exact not_pending_of hcells hhands fun hp => h (.inr (.inr hp))

theorem exists_of_not_endsWell {r : Redis} (h : ¬EndsWell p r) :
    ∃ x : ℕ × ℤ × ℤ, ¬Locked r x.2 ∧ Locked p.store.1.services.redis x.2 ∧
      ¬Provided p none x.1 x.2 := by
  unfold EndsWell at h
  push Not at h
  obtain ⟨x, -, hlocked, hfree, hnot⟩ := h
  exact ⟨x, hfree, hlocked, hnot⟩

theorem exists_of_not_dropsWell (h : ¬DropsWell p i) :
    ∃ x : ℕ × ℤ × ℤ, InHands p i x.1 x.2 ∧ ¬Locked p.store.1.services.redis x.2 ∧
      ¬Provided p (some i) x.1 x.2 := by
  unfold DropsWell at h
  push Not at h
  obtain ⟨x, -, hhands, hfree, hnot⟩ := h
  exact ⟨x, hhands, hfree, hnot⟩

/-- A lock that expires. -/
theorem orphaned_tick {d : ℕ}
    (hG : ¬EndsWell p { p.store.1.services.redis with now := p.store.1.services.redis.now + d })
    (hs : handover.environ (.tick d) p.store = some (s, [])) :
    ∃ g seat, Orphaned ⟨s, p.threads ++ Machine.start []⟩ g seat := by
  obtain ⟨henv, hstages⟩ := Machine.staged_environ.1 hs
  obtain ⟨ht, -⟩ := Prod.mk.inj (Option.some.inj henv)
  obtain ⟨w, stages⟩ := s
  obtain rfl : _ = w := ht
  obtain rfl : stages = p.store.2 := hstages
  obtain ⟨x, hfree, -, hnot⟩ := exists_of_not_endsWell hG
  refine ⟨x.1, x.2, orphaned_of hnot ⟨_, rfl⟩ rfl (fun j hj => ⟨?_, fun heq => nomatch heq⟩) hfree⟩
  have hthreads : p.threads ++ Machine.start [] = p.threads := List.append_nil _
  rw [hthreads] at hj
  exact hj

/-- A request or an actor that is lost. -/
theorem orphaned_crash (hr : p.Runs i n (.call c k)) (hG : ¬DropsWell p i) :
    ∃ g seat, Orphaned ⟨handover.close i p.store, p.threads.set i ⟨n, none⟩⟩ g seat := by
  obtain ⟨x, -, hfree, hnot⟩ := exists_of_not_dropsWell hG
  refine ⟨x.1, x.2, orphaned_of hnot ⟨_, rfl⟩ rfl (fun j hj => ?_) hfree⟩
  have hne : j ≠ i := by
    intro heq
    subst heq
    have hidle : Pool.working ⟨handover.close j p.store, p.threads.set j ⟨n, none⟩⟩ j = none := by
      unfold Pool.working
      rw [List.getElem?_set_self (List.getElem?_eq_some_iff.1 hr).1]
    unfold InHands HeldBy FailedFor ServedBy at hj
    rw [hidle] at hj
    rcases hj with hj | hj | hj
    · exact nomatch hj.1
    · exact nomatch hj.1
    · exact nomatch hj.1
  have hworks : Pool.working ⟨handover.close i p.store, p.threads.set i ⟨n, none⟩⟩ j =
      p.working j := Pool.working_set_ne hne
  unfold InHands HeldBy FailedFor ServedBy at hj ⊢
  rw [hworks] at hj
  exact ⟨hj, fun heq => hne (Option.some.inj heq)⟩

/-- Only publishing adds events, and that ends no lock. -/
theorem published_of_ends {cmd : Redis.Cmd} {t : Redis} (hlocked : Locked t seat)
    (hfree : ¬Locked (cmd.effect t) seat) : (cmd.effect t).published = t.published := by
  refine Redis.effect_published fun channel payload heq => ?_
  subst heq
  exact hfree hlocked

/-- A session has no more in hand after a Redis command. -/
theorem inHands_of_redis {cmd : Redis.Cmd} {k : Rep (.service (.redis cmd)) → Service Result}
    {r : Rep (.service (.redis cmd))} (hr : p.Runs i n (.call (.service (.redis cmd)) k))
    (hs : handover.exec n i l (.service (.redis cmd)) p.store = some (s, r))
    (hgate : s.1.gateways = p.store.1.gateways) {j : ℕ}
    (h : InHands (after p i n s (k r)) j g seat) : InHands p j g seat := by
  obtain ⟨-, hself, hstage⟩ := exec_of_staged hs
  have hworks : ∀ {f : Task → Option (ℕ × ℤ)} {y : ℕ × ℤ},
      ((after p i n s (k r)).working j).bind f = some y → (p.working j).bind f = some y := by
    intro f y hy
    by_cases hji : j = i
    · subst hji
      obtain ⟨m, hm, hf⟩ := Option.bind_eq_some_iff.1 hy
      obtain ⟨c', f', hruns⟩ := Pool.working_eq_some.1 hm
      have htask : (after p j n s (k r)).task j = p.task j := Pool.task_set (Pool.Runs.task hr)
      obtain rfl : m = n :=
        Option.some.inj ((Pool.Runs.task hruns).symm.trans (htask.trans (Pool.Runs.task hr)))
      rw [Pool.working_eq_some.2 ⟨_, k, hr⟩]
      exact hf
    · rw [working_other hji] at hy
      exact hy
  have hstages : (s.2 j).held = (p.store.2 j).held ∧ (s.2 j).awaits = (p.store.2 j).awaits ∧
      (s.2 j).pending ⊆ (p.store.2 j).pending := by
    by_cases hji : j = i
    · subst hji
      rw [hself]
      cases n with
      | actor g' k' => exact HandoverStage.acquire_sub _ cmd r
      | _ => exact ⟨rfl, rfl, fun _ h => h⟩
    · rw [hstage j hji]
      exact ⟨rfl, rfl, fun _ h => h⟩
  obtain ⟨hheld, hawaits, hpending⟩ := hstages
  rcases h with h | h | h
  · exact .inl ⟨hworks h.1, hheld ▸ h.2⟩
  · obtain ⟨hlocks, hwaits, a, ha, hseat⟩ := h
    have hanswers : s.1.gateways g = p.store.1.gateways g := congrFun hgate g
    exact .inr (.inl ⟨hworks hlocks, hawaits ▸ hwaits, a, hanswers ▸ ha, hseat⟩)
  · exact .inr (.inr ⟨hworks h.1, hpending h.2⟩)

/-- The end of a lock by a command. -/
theorem orphaned_redis {cmd : Redis.Cmd} {k : Rep (.service (.redis cmd)) → Service Result}
    {r : Rep (.service (.redis cmd))} (hr : p.Runs i n (.call (.service (.redis cmd)) k))
    (hs : handover.exec n i l (.service (.redis cmd)) p.store = some (s, r))
    (hG : ¬CommandGivesBack p i l (.service (.redis cmd))) :
    ∃ g seat, Orphaned (after p i n s (k r)) g seat := by
  obtain ⟨hrun, -⟩ := exec_of_staged hs
  unfold CommandGivesBack at hG
  push Not at hG
  obtain ⟨hlost, hends⟩ := hG
  obtain ⟨x, hfree, hlocked, hnot⟩ := exists_of_not_endsWell hends
  have hgate : s.1.gateways = p.store.1.gateways := by
    have hmap := hrun
    unfold exec at hmap
    obtain ⟨y, -, heq⟩ := Option.map_eq_some_iff.1 hmap
    obtain ⟨ht, -⟩ := Prod.mk.inj heq
    rw [← ht]
  have hredis : s.1.services.redis = cmd.effect p.store.1.services.redis := by
    rcases redis_exec hrun with ⟨cmd', heq, ht⟩ | ⟨hne, -⟩
    · cases heq
      rw [ht, if_neg hlost]
    · exact absurd rfl (hne cmd)
  refine ⟨x.1, x.2, orphaned_of hnot ⟨_, congrFun hgate _⟩ ?_ (fun j hj => ?_) ?_⟩
  · show s.1.services.redis.published = _
    rw [hredis]
    exact published_of_ends hlocked hfree
  · exact ⟨inHands_of_redis hr hs hgate hj, fun heq => nomatch heq⟩
  · show ¬Locked s.1.services.redis x.2
    rw [hredis]
    exact hfree

/-- An answer that nothing waits for. -/
theorem orphaned_answer {g' ticket : ℕ} {a : Answer}
    {k : Rep (.answer g' ticket a) → Service Result} {r : Rep (.answer g' ticket a)}
    (hp : handover.system.ReachableUnder G p) (hr : p.Runs i n (.call (.answer g' ticket a) k))
    (hs : handover.exec n i l (.answer g' ticket a) p.store = some (s, r))
    (hG : ¬CommandGivesBack p i l (.answer g' ticket a)) :
    ∃ g seat, Orphaned (after p i n s (k r)) g seat := by
  obtain ⟨hrun, hself, hstage⟩ := exec_of_staged hs
  unfold CommandGivesBack at hG
  push Not at hG
  obtain ⟨hidle, hdrops⟩ := hG
  obtain ⟨x, -, hfree, hnot⟩ := exists_of_not_dropsWell hdrops
  obtain ⟨k', task, rfl, -⟩ := (handover_follows hp hr).1
  obtain ⟨ht, -⟩ := Prod.mk.inj (Option.some.inj hrun)
  have hgate : ∀ g, ∃ answers, s.1.gateways g =
      { p.store.1.gateways g with answers := (p.store.1.gateways g).answers ++ answers } ∧
        ∀ y ∈ answers, y.1 = ticket := by
    intro g
    rw [← ht]
    by_cases hg : g = g'
    · subst hg
      exact ⟨[(ticket, a)], Redis.setAt_self, fun y hy => by rw [List.mem_singleton.1 hy]⟩
    · refine ⟨[], ?_, fun y hy => nomatch hy⟩
      rw [List.append_nil]
      exact Redis.setAt_ne hg
  have hredis : s.1.services.redis = p.store.1.services.redis := by rw [← ht]; rfl
  obtain ⟨answers, hanswers, htickets⟩ := hgate x.1
  refine ⟨x.1, x.2, orphaned_of hnot ⟨_, hanswers⟩ (congrArg Redis.published hredis)
    (fun j hj => ?_) (show ¬Locked s.1.services.redis x.2 from hredis ▸ hfree)⟩
  have hne : j ≠ i := by
    intro heq
    subst heq
    have hacts : ∀ {y : ℕ × ℤ},
        ((after p j (.actor g' k') s (k r)).working j).bind Task.locksIn ≠ some y := by
      intro y hy
      obtain ⟨m, hm, hf⟩ := Option.bind_eq_some_iff.1 hy
      obtain ⟨c', f', hruns⟩ := Pool.working_eq_some.1 hm
      have htask : (after p j (.actor g' k') s (k r)).task j = p.task j :=
        Pool.task_set (Pool.Runs.task hr)
      obtain rfl : m = .actor g' k' :=
        Option.some.inj ((Pool.Runs.task hruns).symm.trans (htask.trans (Pool.Runs.task hr)))
      exact nomatch hf
    rcases hj with hj | hj | hj
    · exact hacts hj.1
    · exact hacts hj.1
    · have hnone : (s.2 j).pending = [] := by rw [hself]; rfl
      have hmem : x.2.2 ∈ (s.2 j).pending := hj.2
      rw [hnone] at hmem
      cases hmem
  have hstage : s.2 j = p.store.2 j := hstage j hne
  refine ⟨?_, fun heq => hne (Option.some.inj heq)⟩
  unfold InHands HeldBy FailedFor ServedBy at hj ⊢
  rw [working_other hne] at hj
  rcases hj with hj | hj | hj
  · exact .inl ⟨hj.1, hstage ▸ hj.2⟩
  · obtain ⟨hlocks, hwaits, b, hb, hseat⟩ := hj
    refine .inr (.inl ⟨hlocks, hstage ▸ hwaits, b, ?_, hseat⟩)
    have hb : b ∈ (s.1.gateways x.1).answerTo j := hb
    -- the answer is to somebody else
    have hother : ∀ y ∈ answers, ¬decide (y.1 = j) = true := by
      intro y hy heq
      have hsome := Option.isSome_of_mem hlocks
      rw [← of_decide_eq_true heq, htickets y hy] at hsome
      obtain ⟨m, hm, -⟩ := Option.bind_eq_some_iff.1 (Option.isSome_iff_exists.1 hsome).choose_spec
      exact hidle (Option.isSome_of_mem hm)
    have hnone : answers.find? (fun y => decide (y.1 = j)) = none := List.find?_eq_none.2 hother
    unfold State.answerTo at hb ⊢
    rw [hanswers, List.find?_append, hnone, Option.or_none] at hb
    exact hb
  · exact .inr (.inr ⟨hj.1, hstage ▸ hj.2⟩)

end Orphaned

/-- Slots are orphaned by a step that does not give back, and by no other. -/
theorem slot_orphaned_iff {p : HandoverPool} (h : handover.system.ReachableUnder GivesBack p) :
    (∀ g seat, ¬Orphaned p g seat) ∧ ∀ a q, handover.system.step p a = some q →
      ((∃ g seat, Orphaned q g seat) ↔ ¬GivesBack p a) := by
  refine ⟨fun g seat => not_orphaned (provided_slots_reachable h), fun a q hst => ⟨?_, ?_⟩⟩
  · intro horphan hG
    obtain ⟨g, seat, horphan⟩ := horphan
    exact not_orphaned (provided_slots_reachable (h.step hG hst)) horphan
  · intro hG
    have hst : handover.step p a = some q := hst
    cases a with
    | environ x =>
        obtain ⟨s, ts, hs, rfl⟩ := Machine.step_environ hst
        cases x with
        | tick d =>
            obtain ⟨henv, -⟩ := Machine.staged_environ.1 hs
            obtain ⟨-, rfl⟩ := Prod.mk.inj (Option.some.inj henv)
            exact orphaned_tick hG hs
        | _ => exact absurd trivial hG
    | run i l =>
        obtain ⟨n, c, k, s, r, hr, hs, rfl⟩ := Machine.step_run hst
        have hthread : p.threads[i]? = some ⟨n, some (.call c k)⟩ := hr
        have hG : ¬CommandGivesBack p i l c := by
          simpa only [GivesBack, hthread] using hG
        cases c with
        | answer => exact orphaned_answer h hr hs hG
        | service c =>
            cases c with
            | redis cmd => exact orphaned_redis hr hs hG
            | _ => exact absurd trivial hG
        | _ => exact absurd trivial hG
    | crash i =>
        obtain ⟨n, c, k, hr, rfl⟩ := Machine.step_crash hst
        exact orphaned_crash hr hG

/-- The lock of a seat expires, and its slot is left taken. -/
theorem slot_orphaned_expired :
    ∃ p q, handover.system.ReachableUnder GivesBack p ∧
      handover.system.step p (.environ (.tick 301000)) = some q ∧ ∃ g seat, Orphaned q g seat := by
  obtain ⟨p, hp, hend⟩ := System.exists_reachable_of_runUnder handover.system GivesBack
    (fun p => (handover.system.step p (.environ (.tick 301000))).isSome &&
      decide (¬GivesBack p (.environ (.tick 301000))))
    (s := ⟨(newWorld Payments.oneSeat, fun _ => .start), []⟩) ⟨⟨⟨_, rfl⟩, rfl⟩, rfl⟩
    (locksSeat ++ steps 0 2) (by decide +kernel)
  obtain ⟨hstep, hG⟩ := (Bool.and_eq_true _ _).mp hend
  obtain ⟨q, hq⟩ := Option.isSome_iff_exists.1 hstep
  exact ⟨p, q, hp, hq, ((slot_orphaned_iff hp).2 _ q hq).2 (of_decide_eq_true hG)⟩

end Gateway
end Bookit

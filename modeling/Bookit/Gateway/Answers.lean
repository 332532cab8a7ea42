import Bookit.Gateway.Admission
import Bookit.Gateway.Commands
import Bookit.Lib.Stages

/-!
# Gateway.Answers — whose cancel an answer is

A cancel request hands its task to an actor of its show and waits for the answer under its own ticket;
the actor answers with seats once it has published the unlock message for them.  A stage says which
cell a request was given, which task an actor serves, and whether the last message was published.
-/

namespace Bookit
namespace Gateway

open Lib LockServer

/-! ## Cells, tasks and answers -/

namespace State

/-- The cell was made for the show. -/
def ShowOf (t : State) (cell : ℕ) (showtimeId : ℤ) : Prop :=
  ∃ x, t.cells[cell]? = some x ∧ x.showtimeId = showtimeId

/-- The task is in the queue of an actor of the show. -/
def HasTask (t : State) (showtimeId : ℤ) (task : GatewayTask) : Prop :=
  ∃ (cell : ℕ) (x : ActorCell) (a : ShowActor), t.cells[cell]? = some x ∧
    x.showtimeId = showtimeId ∧ x.actor = some a ∧ task ∈ a.queue

/-- Cells keep their shows, and new tasks and answers are those that were added. -/
structure Carries (added : ℤ → GatewayTask → Prop) (answered : ℕ × Answer → Prop) (t t' : State) :
    Prop where
  shows : ∀ cell k, t.ShowOf cell k → t'.ShowOf cell k
  map : ∀ k cell, t'.showActors k = some cell → t.showActors k = some cell ∨ t'.ShowOf cell k
  tasks : ∀ k task, t'.HasTask k task → t.HasTask k task ∨ added k task
  answers : ∀ x ∈ t'.answers, x ∈ t.answers ∨ answered x

variable {t t' : State} {cell : ℕ} {a : ShowActor} {k k' : ℤ}
variable {added : ℤ → GatewayTask → Prop} {answered : ℕ × Answer → Prop}

theorem ShowOf.unique (h : t.ShowOf cell k) (h' : t.ShowOf cell k') : k = k' := by
  obtain ⟨x, hx, rfl⟩ := h
  obtain ⟨y, hy, rfl⟩ := h'
  rw [hx] at hy
  rw [Option.some.inj hy]

theorem carries_refl (t : State) : Carries added answered t t :=
  ⟨fun _ _ h => h, fun _ _ h => .inl h, fun _ _ h => .inl h, fun _ h => .inl h⟩

/-- The cells are as they were, and so is the map where it still has a cell. -/
theorem carries_of_cells (hcells : t'.cells = t.cells)
    (hmap : ∀ k cell, t'.showActors k = some cell → t.showActors k = some cell)
    (hanswers : ∀ x ∈ t'.answers, x ∈ t.answers ∨ answered x) : Carries added answered t t' := by
  refine ⟨fun cell k h => ?_, fun k cell h => .inl (hmap k cell h), fun k task h => .inl ?_,
    hanswers⟩
  · unfold ShowOf
    rw [hcells]
    exact h
  · unfold HasTask at h
    rw [hcells] at h
    exact h

/-- An actor that is put in its cell has the tasks of the one before, and new ones. -/
theorem carries_setActor (hqueue : ∀ x, t.cells[cell]? = some x → ∀ task ∈ a.queue,
    t.HasTask x.showtimeId task ∨ added x.showtimeId task) :
    Carries added answered t (t.setActor cell a) := by
  refine ⟨fun c k h => ?_, fun k c h => .inl h, fun k task h => ?_, fun x h => .inl h⟩
  · obtain ⟨x, hx, hk⟩ := h
    unfold ShowOf
    rw [cells_setActor, hx]
    refine ⟨_, rfl, ?_⟩
    split_ifs
    · exact hk
    · exact hk
  · obtain ⟨c, y, b, hy, hk, hb, hmem⟩ := h
    rw [cells_setActor] at hy
    obtain ⟨x, hx, rfl⟩ := Option.map_eq_some_iff.1 hy
    split_ifs at hk hb with hc
    · obtain rfl := Option.some.inj hb
      subst hc
      rw [← hk]
      exact hqueue x hx task hmem
    · exact .inl ⟨c, x, b, hx, hk, hb, hmem⟩

/-- An actor whose tasks are those of the one before. -/
theorem carries_setActor_same {b : ShowActor} (hb : t.actor cell = some b)
    (hqueue : ∀ task ∈ a.queue, task ∈ b.queue) :
    Carries added answered t (t.setActor cell a) := by
  obtain ⟨y, hy, hyb⟩ := actor_eq_some.1 hb
  refine carries_setActor fun x hx task htask => .inl ⟨cell, y, b, hy, ?_, hyb, hqueue task htask⟩
  rw [hx] at hy
  rw [Option.some.inj hy]

theorem carries_onActor {ρ : Type} {f : ShowActor → ShowActor × ρ} {r : ρ}
    (hf : ∀ a : ShowActor, ∀ task ∈ (f a).1.queue,
      task ∈ a.queue ∨ ∀ k, t.ShowOf cell k → added k task)
    (h : t.onActor cell f = some (t', r)) : Carries added answered t t' := by
  obtain ⟨a, ha, heq⟩ := Option.map_eq_some_iff.1 h
  obtain ⟨rfl, -⟩ := Prod.mk.inj heq
  obtain ⟨x, hx, hxa⟩ := actor_eq_some.1 ha
  refine carries_setActor fun y hy task htask => ?_
  rw [hx] at hy
  obtain rfl := Option.some.inj hy
  rcases hf a task htask with hold | hnew
  · exact .inl ⟨cell, x, a, hx, rfl, hxa, hold⟩
  · exact .inr (hnew x.showtimeId ⟨x, hx, rfl⟩)

/-- The cell that a request is given is its show's. -/
theorem showOf_actorCell (hmap : ∀ cell, t.showActors k = some cell → t.ShowOf cell k) :
    (t.actorCell k).1.ShowOf (t.actorCell k).2 k := by
  unfold actorCell
  cases hk : t.showActors k with
  | some cell => exact hmap cell hk
  | none => exact ⟨⟨k, none⟩, by simp, rfl⟩

theorem carries_actorCell (k : ℤ) (t : State) :
    Carries added answered t (t.actorCell k).1 := by
  unfold actorCell
  cases hk : t.showActors k with
  | some cell => exact carries_refl t
  | none =>
      refine ⟨fun c j h => ?_, fun j c h => ?_, fun j task h => ?_, fun x h => .inl h⟩
      · obtain ⟨x, hx, hj⟩ := h
        refine ⟨x, ?_, hj⟩
        rw [List.getElem?_append_left (List.getElem?_eq_some_iff.1 hx).1]
        exact hx
      · by_cases hjk : j = k
        · subst hjk
          obtain rfl := Option.some.inj (Redis.setAt_self.symm.trans h)
          exact .inr ⟨⟨j, none⟩, by simp, rfl⟩
        · exact .inl ((Redis.setAt_ne hjk).symm.trans h)
      · obtain ⟨c, x, a, hx, hj, ha, hmem⟩ := h
        rw [List.getElem?_append] at hx
        split_ifs at hx
        · exact .inl ⟨c, x, a, hx, hj, ha, hmem⟩
        · obtain rfl := List.mem_singleton.1 (List.mem_of_getElem? hx)
          cases ha

theorem carries_initCell (cell seatCount : ℕ) (t : State) :
    Carries added answered t (t.initCell cell seatCount).1 := by
  unfold initCell
  split
  · exact carries_refl t
  · exact carries_refl t
  · split_ifs
    · exact carries_refl t
    · exact carries_setActor fun _ _ _ hmem => nomatch hmem

theorem carries_checkOpen (cell : ℕ) (k : ℤ) (seatCount : ℕ) (t : State) :
    Carries added answered t (t.checkOpen cell k seatCount).1 := by
  unfold checkOpen
  cases ha : t.actor cell with
  | none => exact carries_refl t
  | some a =>
      dsimp only
      split_ifs
      · exact carries_setActor_same ha fun _ h => h
      · exact carries_refl t
      · exact carries_refl t

theorem queue_clearSeats (seatIds : List ℤ) (a : ShowActor) :
    (seatIds.foldl ShowActor.clearSeat a).queue = a.queue := by
  induction seatIds generalizing a with
  | nil => rfl
  | cons seatId seatIds ih =>
      refine (ih _).trans ?_
      unfold ShowActor.clearSeat
      split <;> rfl

theorem carries_clearAdmission (k : ℤ) (seatIds : List ℤ) (t : State) :
    Carries added answered t (t.clearAdmission k seatIds) := by
  unfold clearAdmission
  split
  · exact carries_refl t
  · split
    · exact carries_refl t
    · next a ha =>
      refine carries_setActor_same ha fun task htask => ?_
      rwa [queue_clearSeats] at htask

end State

/-! ## What a command adds -/

/-- The task that a command puts in a queue of a replica. -/
def Sends (i : ℕ) (c : Cmd) (s : World) (g : ℕ) (k : ℤ) (task : GatewayTask) : Prop :=
  ∃ cell u seats, (s.gateways g).ShowOf cell k ∧
    (c = .trySend g cell u seats ∧ task = .lock i u seats ∨
      c = .send g cell u seats ∧ task = .cancel i u seats)

section Exec

open State

variable {i : ℕ} {l : Link} {c : Cmd} {s t : World} {r : Rep c}
variable {added : ℕ → ℤ → GatewayTask → Prop} {answered : ℕ → ℕ × Answer → Prop}

variable (added answered) in
theorem World.carries_setGateway {g : ℕ} {u : State}
    (h : Carries (added g) (answered g) (s.gateways g) u) (g' : ℕ) :
    Carries (added g') (answered g') (s.gateways g') ((s.setGateway g u).gateways g') := by
  show Carries _ _ (s.gateways g') (Redis.setAt s.gateways g u g')
  by_cases hg : g' = g
  · subst hg
    rw [Redis.setAt_self]
    exact h
  · rw [Redis.setAt_ne hg]
    exact carries_refl _

variable (added answered) in
theorem World.carries_onActor {ρ : Type} {g cell : ℕ} {f : ShowActor → ShowActor × ρ} {r : ρ}
    (hf : ∀ a : ShowActor, ∀ task ∈ (f a).1.queue,
      task ∈ a.queue ∨ ∀ k, (s.gateways g).ShowOf cell k → added g k task)
    (h : s.onActor g cell f = some (t, r)) (g' : ℕ) :
    Carries (added g') (answered g') (s.gateways g') (t.gateways g') := by
  obtain ⟨⟨u, r'⟩, hu, heq⟩ := Option.map_eq_some_iff.1 h
  obtain ⟨rfl, -⟩ := Prod.mk.inj heq
  exact World.carries_setGateway added answered (State.carries_onActor hf hu) g'

theorem mem_enqueue {a : ShowActor} {task task' : GatewayTask}
    (h : task' ∈ (a.enqueue task).1.queue) : task' ∈ a.queue ∨ task' = task := by
  unfold ShowActor.enqueue at h
  split_ifs at h
  · exact (List.mem_append.1 h).imp id List.mem_singleton.1
  · exact .inl h

theorem queue_takeSlot (seatId : ℤ) (index : ℕ) (a : ShowActor) :
    (a.takeSlot seatId index).1.queue = a.queue := by
  unfold ShowActor.takeSlot
  split_ifs <;> rfl

theorem queue_registerSeat (seatId oneBasedIndex : ℤ) (a : ShowActor) :
    (a.registerSeat seatId oneBasedIndex).1.queue = a.queue := by
  unfold ShowActor.registerSeat
  split_ifs
  · rfl
  · dsimp only
    split
    · split
      · rfl
      · exact queue_takeSlot _ _ _
    · exact queue_takeSlot _ _ _
  · rfl

theorem queue_tryAdmit (index : ℕ) (a : ShowActor) : (a.tryAdmit index).1.queue = a.queue := by
  unfold ShowActor.tryAdmit
  split <;> rfl

/-- Tasks are added by requests, and answers by actors. -/
theorem carries_exec (h : exec i l c s = some (t, r)) (g' : ℕ) :
    Carries (Sends i c s g') (fun x => c = .answer g' x.1 x.2) (s.gateways g') (t.gateways g') := by
  have hset : ∀ {g : ℕ} {u : State},
      Carries (Sends i c s g) (fun x => c = .answer g x.1 x.2) (s.gateways g) u →
        Carries (Sends i c s g') (fun x => c = .answer g' x.1 x.2) (s.gateways g')
          ((s.setGateway g u).gateways g') :=
    fun hu => World.carries_setGateway (Sends i c s) (fun g x => c = .answer g x.1 x.2) hu g'
  have hactor : ∀ {ρ : Type} {g cell : ℕ} {f : ShowActor → ShowActor × ρ} {r : ρ} {u : World},
      (∀ a : ShowActor, ∀ task ∈ (f a).1.queue,
        task ∈ a.queue ∨ ∀ k, (s.gateways g).ShowOf cell k → Sends i c s g k task) →
      s.onActor g cell f = some (u, r) →
        Carries (Sends i c s g') (fun x => c = .answer g' x.1 x.2) (s.gateways g')
          (u.gateways g') :=
    fun hf hu => World.carries_onActor (Sends i c s) (fun g x => c = .answer g x.1 x.2) hf hu g'
  cases c with
  | service c =>
      obtain ⟨x, -, heq⟩ := Option.map_eq_some_iff.1 h
      obtain ⟨rfl, -⟩ := Prod.mk.inj heq
      exact carries_refl _
  | isClosed | hasCell =>
      obtain ⟨rfl, -⟩ := Prod.mk.inj (Option.some.inj h)
      exact carries_refl _
  | existsClosedKey showtimeId =>
      obtain rfl : s = t := by
        cases l <;> exact (Prod.mk.inj (Option.some.inj h)).1
      exact carries_refl _
  | insertClosed g showtimeId =>
      obtain ⟨rfl, -⟩ := Prod.mk.inj (Option.some.inj h)
      exact hset (carries_of_cells rfl (fun _ _ hk => hk) fun _ hx => .inl hx)
  | removeCell g showtimeId =>
      obtain ⟨rfl, -⟩ := Prod.mk.inj (Option.some.inj h)
      refine hset (carries_of_cells rfl (fun k cell hk => ?_) fun _ hx => .inl hx)
      by_cases hkk : k = showtimeId
      · subst hkk
        cases Redis.setAt_self.symm.trans hk
      · exact (Redis.setAt_ne hkk).symm.trans hk
  | setClosing g cell =>
      simp only [exec] at h
      split at h
      · obtain ⟨rfl, -⟩ := Prod.mk.inj (Option.some.inj h)
        exact carries_refl _
      · next x hx =>
        obtain rfl := Option.some.inj h
        exact hactor (fun a task htask => .inl htask) hx
  | actorCell g showtimeId =>
      obtain ⟨rfl, -⟩ := Prod.mk.inj (Option.some.inj h)
      exact hset (carries_actorCell showtimeId _)
  | initCell g cell seatCount =>
      obtain ⟨rfl, -⟩ := Prod.mk.inj (Option.some.inj h)
      exact hset (carries_initCell cell seatCount _)
  | checkOpen g cell showtimeId seatCount =>
      obtain ⟨rfl, -⟩ := Prod.mk.inj (Option.some.inj h)
      exact hset (carries_checkOpen cell showtimeId seatCount _)
  | isClosing g cell => exact hactor (fun a task htask => .inl htask) h
  | registerSeat g cell seatId seatIndex =>
      refine hactor (fun a task htask => .inl ?_) h
      rwa [queue_registerSeat] at htask
  | tryAdmit g cell index =>
      refine hactor (fun a task htask => .inl ?_) h
      rwa [queue_tryAdmit] at htask
  | clearAdmission g showtimeId seatIds =>
      obtain ⟨rfl, -⟩ := Prod.mk.inj (Option.some.inj h)
      exact hset (carries_clearAdmission showtimeId seatIds _)
  | trySend g cell u seats =>
      refine hactor (fun a task htask => (mem_enqueue htask).imp id ?_) h
      rintro rfl k hk
      exact ⟨cell, u, seats, hk, .inl ⟨rfl, rfl⟩⟩
  | send g cell u seats =>
      simp only [exec] at h
      split at h
      · next hu =>
        obtain ⟨rfl, -⟩ := Prod.mk.inj (Option.some.inj h)
        refine hactor (fun a task htask => (mem_enqueue htask).imp id ?_) hu
        rintro rfl k hk
        exact ⟨cell, u, seats, hk, .inr ⟨rfl, rfl⟩⟩
      · cases h
  | awaitAnswer g =>
      simp only [exec] at h
      split at h
      · cases h
      · obtain ⟨rfl, -⟩ := Prod.mk.inj (Option.some.inj h)
        exact carries_refl _
  | recv g cell =>
      simp only [exec] at h
      split at h
      · cases h
      · next a ha =>
        split at h
        · cases h
        · next task tasks hq =>
          obtain ⟨rfl, -⟩ := Prod.mk.inj (Option.some.inj h)
          refine hset (carries_setActor_same ha fun task' htask => ?_)
          rw [hq]
          exact List.mem_cons_of_mem _ htask
  | answer g ticket a =>
      obtain ⟨rfl, -⟩ := Prod.mk.inj (Option.some.inj h)
      refine hset (carries_of_cells rfl (fun _ _ hk => hk) fun x hx => ?_)
      refine (List.mem_append.1 hx).imp id fun hnew => ?_
      rw [List.mem_singleton.1 hnew]
  | handleEvent g =>
      simp only [exec] at h
      split at h
      · cases h
      · next event hevent =>
        obtain ⟨rfl, -⟩ := Prod.mk.inj (Option.some.inj h)
        refine hset ?_
        show Carries _ _ _ (State.handlePubsubMessage event (s.gateways g))
        unfold State.handlePubsubMessage
        split
        · exact carries_of_cells rfl (fun _ _ hk => hk) fun _ hx => .inl hx
        · next k seatIds _ =>
          have hclear : Carries (Sends i (.handleEvent g) s g)
              (fun x => Cmd.handleEvent g = .answer g x.1 x.2) (s.gateways g)
              ((s.gateways g).clearAdmission k seatIds) := carries_clearAdmission ..
          exact ⟨hclear.shows, hclear.map, hclear.tasks, hclear.answers⟩
  | publishLocking message =>
      have hgate : t.gateways = s.gateways := by
        cases l <;> obtain ⟨rfl, -⟩ := Prod.mk.inj (Option.some.inj h) <;> rfl
      rw [hgate]
      exact carries_refl _

/-- The task that an actor takes was in the queue of its cell. -/
theorem hasTask_of_recv {g cell : ℕ} {k : ℤ} {task : GatewayTask}
    (h : exec i l (.recv g cell) s = some (t, task)) (hshow : (s.gateways g).ShowOf cell k) :
    (s.gateways g).HasTask k task := by
  simp only [exec] at h
  split at h
  · cases h
  · next a ha =>
    split at h
    · cases h
    · next task' tasks hq =>
      obtain ⟨-, rfl⟩ := Prod.mk.inj (Option.some.inj h)
      obtain ⟨x, hx, hxa⟩ := actor_eq_some.1 ha
      obtain ⟨y, hy, hyk⟩ := hshow
      rw [hx] at hy
      obtain rfl := Option.some.inj hy
      exact ⟨cell, x, a, hx, hyk, hxa, by rw [hq]; exact List.mem_cons_self⟩

end Exec

/-! ## The stages of requests and actors -/

/-- The cell a request was given, the task an actor serves, and whether the last message was
published. -/
structure AnswerStage where
  cell : Option ℕ
  serving : Option GatewayTask
  published : Bool

namespace AnswerStage

def start : AnswerStage := ⟨none, none, false⟩

/-- The cancel task of a request, and the show it is served for, whose seats the actor may give as
answer. -/
def Cancelled (b : AnswerStage) (ticket : ℕ) (seatIds : List ℤ) : Prop :=
  seatIds = [] ∨ b.published = true ∧ ∃ u, b.serving = some (.cancel ticket u seatIds)

end AnswerStage

def answerNext (_ : Task) (b : AnswerStage) : (c : Cmd) → Rep c → AnswerStage
  | .actorCell .., r => { b with cell := some r }
  | .recv .., r => { b with serving := some r, published := false }
  | .publishLocking _, r => { b with published := r }
  | _, _ => b

/-- A cancel request sends its task to the cell it was given; an actor publishes the unlock message of
the cancel that it serves, and answers with the seats once it is published. -/
def answerMay (n : Task) (b : AnswerStage) : Cmd → Prop
  | .actorCell g k => ∀ g' u k' seats, n = .cancel g' u k' seats → g' = g ∧ k' = k
  | .send g cell u _ => ∃ k seats, n = .cancel g u k seats ∧ b.cell = some cell
  | .awaitAnswer g => ∀ g' u k seats, n = .cancel g' u k seats → g' = g
  | .publishLocking message => ∃ g k, n = .actor g k ∧ ∀ ticket u seats,
      b.serving = some (.cancel ticket u seats) → message = ⟨"unlock", u, k, seats⟩
  | .answer g ticket (.cancel seats) => ∃ k, n = .actor g k ∧ b.Cancelled ticket seats
  | _ => True

section Follows

variable {n : Task} {b : AnswerStage}

/-- Commands that no stage has to do with. -/
def Aside : Cmd → Prop
  | .actorCell .. => False
  | .send .. => False
  | .awaitAnswer _ => False
  | .recv .. => False
  | .publishLocking _ => False
  | .answer .. => False
  | _ => True

theorem Looks.aside {c : Cmd} (h : Looks c) : Aside c := by
  cases c with
  | actorCell | send | awaitAnswer | recv | publishLocking | answer => exact absurd h id
  | _ => trivial

theorem follows_aside {β : Type} {p : Service β} (h : p.Issues Aside) :
    p.Follows (answerMay n) (answerNext n) (fun _ b' => b' = b) b := by
  refine Prog.follows_of_issues (S := fun b' => b' = b) (h.mono fun c hc b' hb' => ?_) rfl
  subst hb'
  cases c with
  | actorCell | send | awaitAnswer | recv | publishLocking | answer => exact absurd hc id
  | _ => exact ⟨trivial, fun _ => rfl⟩

theorem aside_onServices {β : Type} (p : Payments.Service β) : (onServices p).Issues Aside :=
  Prog.Issues.hoist _ (Prog.issues_of_forall p fun _ => ⟨trivial, fun _ => trivial⟩)

theorem aside_onRedis {β : Type} (p : SingleNodeLock.Op β) : (onRedis p).Issues Aside :=
  Prog.Issues.hoist _ (Prog.issues_of_forall p fun _ => ⟨trivial, fun _ => trivial⟩)

/-- A request goes on with the cell it was given. -/
theorem follows_beginRequest {g : ℕ} {k : ℤ} (totalSeatCount : ℤ)
    (hn : ∀ g' u k' seats, n = .cancel g' u k' seats → g' = g ∧ k' = k) :
    (beginRequest g k totalSeatCount).Follows (answerMay n) (answerNext n)
      (fun r b => ∀ cell, r = .ok cell → b.cell = some cell) b := by
  have herror : ∀ (e : String) (b' : AnswerStage),
      (pure (.error e) : Service (Except String ℕ)).Follows (answerMay n) (answerNext n)
        (fun r b => ∀ cell, r = .ok cell → b.cell = some cell) b' :=
    fun _ _ _ h => nomatch h
  have hopen : ∀ b' : AnswerStage, (openActor g k totalSeatCount).Follows (answerMay n)
      (answerNext n) (fun r b => ∀ cell, r = .ok cell → b.cell = some cell) b' := by
    intro b'
    unfold openActor
    split
    · exact herror _ b'
    · refine ⟨hn, fun cell => ⟨trivial, fun r => ?_⟩⟩
      match r with
      | .error e => exact herror e _
      | .ok () =>
          refine ⟨trivial, fun r => ?_⟩
          match r with
          | .error e => exact herror e _
          | .ok () => exact fun c hc => by rw [← Except.ok.inj hc]; rfl
  refine Prog.Follows.bind (p := getOrCreateShowActor g k totalSeatCount)
    (Q := fun r b => ∀ cell, r = .ok cell → b.cell = some cell) ?_ fun r b' hb' => ?_
  · refine ⟨trivial, fun closed => ?_⟩
    show Prog.Follows _ _ _ (if closed = true then _ else _) b
    split_ifs
    · exact herror _ b
    · refine (follows_aside ((issues_closedInRedis g k).mono fun _ => Looks.aside)).bind
        fun closed b' _ => ?_
      cases closed with
      | true => exact herror _ b'
      | false => exact hopen b'
  · cases r with
    | error e => exact herror e b'
    | ok cell =>
        refine ⟨trivial, fun closing => ?_⟩
        show Prog.Follows _ _ _ (if closing = true then _ else _) b'
        split_ifs
        · exact herror _ b'
        · exact fun c hc => hb' c (by rw [← Except.ok.inj hc])

theorem follows_cancelTask (g : ℕ) (u k : ℤ) (seatIds seatIndices : List ℤ) (totalSeatCount : ℤ) :
    (cancelTask g u k seatIds seatIndices totalSeatCount).Follows
      (answerMay (.cancel g u k seatIds)) (answerNext (.cancel g u k seatIds))
        (fun _ _ => True) b := by
  refine Prog.Follows.bind (p := cancel g u k seatIds seatIndices totalSeatCount)
    (Q := fun _ _ => True) ?_ fun _ _ _ => trivial
  unfold cancel
  split
  · trivial
  refine (follows_beginRequest totalSeatCount fun g' u' k' seats h => ?_).bind fun r b₁ hb₁ => ?_
  · cases h
    exact ⟨rfl, rfl⟩
  cases r with
  | error e => trivial
  | ok cell =>
      refine (follows_aside ((issues_registerSeats g cell _).mono fun _ => Looks.aside)).bind
        fun r b₂ hb₂ => ?_
      cases r with
      | error e => trivial
      | ok seats =>
          refine (follows_aside ((issues_checkoutInProgress k seatIds).mono fun _ =>
            Looks.aside)).bind fun held b₃ hb₃ => ?_
          cases held with
          | true => trivial
          | false =>
              subst hb₂ hb₃
              refine ⟨trivial, fun _ => ⟨⟨k, seatIds, rfl, hb₁ cell rfl⟩, fun _ => ⟨?_, ?_⟩⟩⟩
              · intro g' u' k' seats' h
                cases h
                rfl
              · intro a
                match a with
                | .cancel cancelled => trivial
                | .lock result => trivial

theorem follows_lockTask (g : ℕ) (u k : ℤ) (seatIds seatIndices : List ℤ) (totalSeatCount : ℤ) :
    (lockTask g u k seatIds seatIndices totalSeatCount).Follows (answerMay (.lock g u k seatIds))
      (answerNext (.lock g u k seatIds)) (fun _ _ => True) b := by
  refine Prog.Follows.bind (p := lock g u k seatIds seatIndices totalSeatCount)
    (Q := fun _ _ => True) ?_ fun _ _ _ => trivial
  unfold lock
  split
  · trivial
  have hn : ∀ g' u' k' seats, Task.lock g u k seatIds = .cancel g' u' k' seats →
      g' = g ∧ k' = k := fun _ _ _ _ h => (nomatch h)
  refine (follows_beginRequest totalSeatCount hn).bind fun r b₁ _ => ?_
  cases r with
  | error e => trivial
  | ok cell =>
      refine (follows_aside ((issues_registerSeats g cell _).mono fun _ => Looks.aside)).bind
        fun r b₂ _ => ?_
      cases r with
      | error e => trivial
      | ok seats =>
          refine (follows_aside ((issues_admitSeats g cell seats [] []).mono fun _ =>
            Looks.aside)).bind fun r b₃ _ => ?_
          show Prog.Follows _ _ _ (if r.1 = [] then _ else _) b₃
          split_ifs
          · trivial
          · refine Prog.Follows.bind (p := lockAdmitted g cell u k r.1 r.2)
              (Q := fun _ _ => True) ?_ fun _ _ _ => trivial
            refine ⟨trivial, fun sent => ?_⟩
            show Prog.Follows _ _ _ (if sent = true then _ else _) b₃
            split_ifs
            · exact ⟨fun _ _ _ _ h => (nomatch h), fun _ => ⟨trivial, fun _ => trivial⟩⟩
            · exact ⟨trivial, fun _ => trivial⟩

theorem follows_runShowActor (g : ℕ) (k : ℤ) (cell rounds : ℕ) :
    (runShowActor g k cell rounds).Follows (answerMay (.actor g k)) (answerNext (.actor g k))
      (fun _ _ => True) b := by
  have hserve : ∀ (task : GatewayTask) (b' : AnswerStage), b'.serving = some task →
      (serve g k task).Follows (answerMay (.actor g k)) (answerNext (.actor g k))
        (fun _ _ => True) b' := by
    intro task b' hb'
    cases task with
    | lock ticket u seatIds =>
        refine Prog.Follows.bind (p := acquireAndPublish u k seatIds) (Q := fun _ _ => True) ?_
          fun _ _ _ => ⟨trivial, fun _ => trivial⟩
        refine (follows_aside (aside_onRedis _)).bind fun result b'' hb'' => ?_
        subst hb''
        show Prog.Follows _ _ _ (if result.lockedSeatIds = [] then _ else _) b''
        split_ifs
        · trivial
        · refine ⟨⟨g, k, rfl, fun ticket' u' seats h => ?_⟩, fun _ => trivial⟩
          rw [hb'] at h
          cases h
    | cancel ticket u seatIds =>
        refine Prog.Follows.bind (p := cancelCommitted u k seatIds)
          (Q := fun cancelled b'' => b''.Cancelled ticket cancelled) ?_
          fun cancelled b'' hb'' => ⟨⟨k, rfl, hb''⟩, fun _ => trivial⟩
        refine ⟨⟨g, k, rfl, fun ticket' u' seats h => ?_⟩, fun published => ?_⟩
        · rw [hb'] at h
          cases h
          rfl
        · show Prog.Follows _ _ _ (if published = true then _ else _) { b' with published := published }
          split_ifs with hpublished
          · exact .inr ⟨hpublished, u, hb'⟩
          · exact .inl rfl
  induction rounds generalizing b with
  | zero => trivial
  | succ rounds ih =>
      exact ⟨trivial, fun task => (hserve task _ rfl).bind fun _ _ _ => ih⟩

theorem answerFollows_started {s : World} {n : Task} {q : Service Result} (h : Started s n q) :
    q.Follows (answerMay n) (answerNext n) (fun _ _ => True) b := by
  have haside : ∀ {β : Type} {p : Service β}, p.Issues Aside →
      (forget p).Follows (answerMay n) (answerNext n) (fun _ _ => True) b :=
    fun hp => (follows_aside hp).bind fun _ _ _ => trivial
  cases h with
  | lock => exact follows_lockTask _ _ _ _ _ _
  | cancel => exact follows_cancelTask _ _ _ _ _ _
  | actor _ rounds => exact (follows_runShowActor _ _ _ rounds).bind fun _ _ _ => trivial
  | operation | lockMessage => exact haside (aside_onRedis _)
  | updater | request | cancelOrder | checkout | cancellation =>
      exact haside (aside_onServices _)
  | listener => exact haside ⟨trivial, fun _ => trivial⟩
  | closing g k =>
      refine haside ⟨trivial, fun _ => ⟨trivial, fun r => ?_⟩⟩
      match r with
      | none => trivial
      | some cell => exact ⟨trivial, fun _ => trivial⟩
  | expiry g =>
      refine haside ((aside_onRedis _).bind fun passed => ?_)
      cases passed with
      | true => exact ⟨trivial, fun _ => aside_onRedis _⟩
      | false => trivial

end Follows

/-! ## Where answers come from -/

/-- The machine with the stages of requests and actors. -/
def answering : Machine (World × (ℕ → AnswerStage)) Rep Task Result Link Environ :=
  machine.staged .start answerNext

abbrev AnswerPool := Pool (World × (ℕ → AnswerStage)) Rep Task Result

/-- The message unlocks the seat for the user. -/
def Unlocks (message : SeatLockMessage) (seat : ℤ × ℤ) (userId : ℤ) : Prop :=
  message.action = "unlock" ∧ message.userId = userId ∧ message.showtimeId = seat.1 ∧
    seat.2 ∈ message.seatIds

instance {message : SeatLockMessage} {seat : ℤ × ℤ} {userId : ℤ} :
    Decidable (Unlocks message seat userId) := by
  unfold Unlocks
  infer_instance

/-- The ticket is a cancel request's of the user, for the show. -/
def IsCancel (p : AnswerPool) (ticket g : ℕ) (u k : ℤ) : Prop :=
  ∃ seats, p.task ticket = some (.cancel g u k seats)

/-- The commands of the actor in a cell of the show. -/
def RecvsOf (t : ℕ → State) (g : ℕ) (k : ℤ) (c : Cmd) : Prop :=
  ∀ g' cell, c = .recv g' cell → g' = g ∧ (t g).ShowOf cell k

/-- Requests and actors work on cells of their shows, tasks are those of their tickets, and an answer
with seats was given after the unlock message for them. -/
structure Provenance (p : AnswerPool) : Prop where
  map : ∀ g k cell, (p.store.1.gateways g).showActors k = some cell →
    (p.store.1.gateways g).ShowOf cell k
  cells : ∀ i g u k seats cell, p.task i = some (.cancel g u k seats) →
    (p.store.2 i).cell = some cell → (p.store.1.gateways g).ShowOf cell k
  recvs : ∀ i g k q, p.Runs i (.actor g k) q → q.Issues (RecvsOf p.store.1.gateways g k)
  tasks : ∀ g k ticket u seats, (p.store.1.gateways g).HasTask k (.cancel ticket u seats) →
    IsCancel p ticket g u k
  serving : ∀ i g k ticket u seats, p.task i = some (.actor g k) →
    (p.store.2 i).serving = some (.cancel ticket u seats) → IsCancel p ticket g u k
  published : ∀ i g k ticket u seats, p.task i = some (.actor g k) →
    (p.store.2 i).serving = some (.cancel ticket u seats) → (p.store.2 i).published = true →
      ⟨"unlock", u, k, seats⟩ ∈ p.store.1.lockingQueue
  answers : ∀ g ticket seats a, (ticket, .cancel seats) ∈ (p.store.1.gateways g).answers →
    a ∈ seats → ∃ u k, IsCancel p ticket g u k ∧
      ∃ message ∈ p.store.1.lockingQueue, Unlocks message (k, a) u

section Provenance

variable {p : AnswerPool}

theorem answerFollows_reachable {G : AnswerPool → Act Link Environ → Prop}
    (h : answering.system.ReachableUnder G p) {i : ℕ} {n : Task} {q : Service Result}
    (hr : p.Runs i n q) :
    q.Follows (answerMay n) (answerNext n) (fun _ _ => True) (p.store.2 i) :=
  Machine.follows_of_reachable (Q := fun _ _ _ => True)
    (fun _ _ _ _ _ henv n q hmem => answerFollows_started (started_of_environ henv n q hmem)) h i n
      q hr

theorem recvs_runShowActor (g : ℕ) (k : ℤ) (cell rounds : ℕ) :
    (runShowActor g k cell rounds).Issues fun c =>
      ∀ g' cell', c = .recv g' cell' → g' = g ∧ cell' = cell := by
  have hredis : ∀ {β : Type} (p : SingleNodeLock.Op β), (onRedis p).Issues fun c =>
      ∀ g' cell', c = .recv g' cell' → g' = g ∧ cell' = cell :=
    fun p => (aside_onRedis p).mono fun c hc g' cell' heq => by
      subst heq
      exact absurd hc id
  have hserve : ∀ task, (serve g k task).Issues fun c =>
      ∀ g' cell', c = .recv g' cell' → g' = g ∧ cell' = cell := by
    intro task
    cases task with
    | lock ticket u seatIds =>
        refine Prog.Issues.bind (p := acquireAndPublish u k seatIds) ?_
          fun _ => ⟨fun _ _ h => (nomatch h), fun _ => trivial⟩
        refine (hredis _).bind fun result => ?_
        show Prog.Issues _ (if result.lockedSeatIds = [] then _ else _)
        split_ifs
        · trivial
        · exact ⟨fun _ _ h => (nomatch h), fun _ => trivial⟩
    | cancel ticket u seatIds =>
        refine Prog.Issues.bind (p := cancelCommitted u k seatIds) ?_
          fun _ => ⟨fun _ _ h => (nomatch h), fun _ => trivial⟩
        refine ⟨fun _ _ h => (nomatch h), fun published => ?_⟩
        show Prog.Issues _ (if published = true then _ else _)
        split_ifs <;> trivial
  induction rounds with
  | zero => trivial
  | succ rounds ih =>
      refine ⟨fun g' cell' h => ?_, fun task => (hserve task).bind fun _ => ih⟩
      obtain ⟨rfl, rfl⟩ := Cmd.recv.inj h
      exact ⟨rfl, rfl⟩

theorem provenance_run {G : AnswerPool → Act Link Environ → Prop} {i : ℕ} {l : Link}
    (hp : answering.system.ReachableUnder G p) (hI : Provenance p) {n : Task} {c : Cmd}
    {k : Rep c → Service Result} (hr : p.Runs i n (.call c k)) {s : World × (ℕ → AnswerStage)}
    {r : Rep c} (hs : answering.exec n i l c p.store = some (s, r)) :
    Provenance ⟨s, p.threads.set i ⟨n, some (k r)⟩⟩ := by
  obtain ⟨hrun, hstages⟩ := Machine.staged_exec.1 hs
  have hrun : exec i l c p.store.1 = some (s.1, r) := hrun
  have hmay := (answerFollows_reachable hp hr).1
  have hself : s.2 i = answerNext n (p.store.2 i) c r := by
    rw [hstages, Function.update_self]
  have hstage : ∀ j, j ≠ i → s.2 j = p.store.2 j := fun j hne => by
    rw [hstages, Function.update_of_ne hne]
  have hcarries := carries_exec hrun
  obtain ⟨messages, hqueue⟩ := lockingQueue_exec hrun
  have hmem : ∀ {message}, message ∈ p.store.1.lockingQueue → message ∈ s.1.lockingQueue := by
    intro message hmessage
    rw [hqueue]
    exact List.mem_append_left _ hmessage
  have htask : ∀ j, Pool.task ⟨s, p.threads.set i ⟨n, some (k r)⟩⟩ j = p.task j :=
    fun j => Pool.task_set (Pool.Runs.task hr)
  have hcancel : ∀ {ticket g : ℕ} {u k' : ℤ}, IsCancel p ticket g u k' →
      IsCancel ⟨s, p.threads.set i ⟨n, some (k r)⟩⟩ ticket g u k' := by
    rintro ticket g u k' ⟨seats, hseats⟩
    exact ⟨seats, (htask ticket).trans hseats⟩
  refine ⟨fun g k' cell hk => ?_, fun j g u k' seats cell hj hcell => ?_, fun j g k' q hq => ?_,
    fun g k' ticket u seats h => ?_, fun j g k' ticket u seats hj hserving => ?_,
    fun j g k' ticket u seats hj hserving hpublished => ?_, fun g ticket seats a h ha => ?_⟩
  · rcases (hcarries g).map k' cell hk with hold | hnew
    · exact (hcarries g).shows cell k' (hI.map g k' cell hold)
    · exact hnew
  · rw [htask] at hj
    have hold : (p.store.2 j).cell = some cell → (s.1.gateways g).ShowOf cell k' :=
      fun h => (hcarries g).shows cell k' (hI.cells j g u k' seats cell hj h)
    have hcell : (s.2 j).cell = some cell := hcell
    by_cases hji : j = i
    · subst hji
      obtain rfl : n = .cancel g u k' seats := Option.some.inj ((Pool.Runs.task hr).symm.trans hj)
      rw [hself] at hcell
      cases c with
      | actorCell g' k₀ =>
          obtain ⟨rfl, rfl⟩ := hmay g u k' seats rfl
          obtain rfl : r = cell := Option.some.inj hcell
          have hrun := Option.some.inj hrun
          have hgate := congrArg (fun x => World.gateways x.1 g) hrun
          have hreply := congrArg Prod.snd hrun
          dsimp only [World.onGateway, World.setGateway] at hgate hreply
          rw [Redis.setAt_self] at hgate
          rw [← hgate, ← hreply]
          exact State.showOf_actorCell (hI.map g k')
      | _ => exact hold hcell
    · rw [hstage j hji] at hcell
      exact hold hcell
  · have hmono : ∀ q' : Service Result, q'.Issues (RecvsOf p.store.1.gateways g k') →
        q'.Issues (RecvsOf s.1.gateways g k') := fun q' hq' => hq'.mono fun c' hc' g' cell heq =>
      ⟨(hc' g' cell heq).1, (hcarries g).shows cell k' (hc' g' cell heq).2⟩
    rcases Pool.runs_set hq with ⟨rfl, rfl, heq⟩ | ⟨-, hold⟩
    · obtain rfl := Option.some.inj heq
      exact hmono _ ((hI.recvs j g k' _ hr).2 r)
    · exact hmono q (hI.recvs j g k' q hold)
  · rcases (hcarries g).tasks k' _ h with hold | ⟨cell, u', seats', hshow, hsend | hsend⟩
    · exact hcancel (hI.tasks g k' ticket u seats hold)
    · cases hsend.2
    · obtain ⟨rfl, htk⟩ := hsend
      obtain ⟨rfl, rfl, rfl⟩ := GatewayTask.cancel.inj htk
      obtain ⟨k₀, seats₀, rfl, hcell⟩ := hmay
      obtain rfl := (hI.cells ticket g u k₀ seats₀ cell (Pool.Runs.task hr) hcell).unique hshow
      exact ⟨seats₀, (htask ticket).trans (Pool.Runs.task hr)⟩
  · rw [htask] at hj
    have hserving : (s.2 j).serving = some (.cancel ticket u seats) := hserving
    refine hcancel ?_
    by_cases hji : j = i
    · subst hji
      obtain rfl : n = .actor g k' := Option.some.inj ((Pool.Runs.task hr).symm.trans hj)
      rw [hself] at hserving
      cases c with
      | recv g' cell =>
          obtain ⟨rfl, hshow⟩ := (hI.recvs j g k' _ hr).1 g' cell rfl
          obtain rfl : r = .cancel ticket u seats := Option.some.inj hserving
          exact hI.tasks g' k' ticket u seats (hasTask_of_recv (i := j) (l := l) hrun hshow)
      | _ => exact hI.serving j g k' ticket u seats hj hserving
    · rw [hstage j hji] at hserving
      exact hI.serving j g k' ticket u seats hj hserving
  · rw [htask] at hj
    have hserving : (s.2 j).serving = some (.cancel ticket u seats) := hserving
    have hpublished : (s.2 j).published = true := hpublished
    by_cases hji : j = i
    · subst hji
      obtain rfl : n = .actor g k' := Option.some.inj ((Pool.Runs.task hr).symm.trans hj)
      rw [hself] at hserving hpublished
      cases c with
      | recv g' cell => cases hpublished
      | publishLocking message =>
          obtain ⟨g₀, k₀, heq, hmessage⟩ := hmay
          cases heq
          obtain rfl := hmessage ticket u seats hserving
          obtain rfl : r = true := hpublished
          cases l with
          | ok =>
              obtain ⟨hs, -⟩ := Prod.mk.inj (Option.some.inj hrun)
              rw [← hs]
              exact List.mem_append_right _ (List.mem_singleton_self _)
          | lost | unacked => cases (Prod.mk.inj (Option.some.inj hrun)).2
      | _ => exact hmem (hI.published j g k' ticket u seats hj hserving hpublished)
    · rw [hstage j hji] at hserving hpublished
      exact hmem (hI.published j g k' ticket u seats hj hserving hpublished)
  · rcases (hcarries g).answers _ h with hold | hnew
    · obtain ⟨u, k', hticket, message, hmessage, hunlocks⟩ := hI.answers g ticket seats a hold ha
      exact ⟨u, k', hcancel hticket, message, hmem hmessage, hunlocks⟩
    · have hnew : c = .answer g ticket (.cancel seats) := hnew
      subst hnew
      obtain ⟨k', rfl, hnone | ⟨hpublished, u, hserving⟩⟩ := hmay
      · rw [hnone] at ha
        cases ha
      · have hn := Pool.Runs.task hr
        refine ⟨u, k', hcancel (hI.serving i g k' ticket u seats hn hserving),
          ⟨"unlock", u, k', seats⟩, hmem ?_, rfl, rfl, rfl, ha⟩
        exact hI.published i g k' ticket u seats hn hserving hpublished

theorem provenance_environ {G : AnswerPool → Act Link Environ → Prop}
    (hp : answering.system.ReachableUnder G p) (hI : Provenance p) {x : Environ}
    {s : World × (ℕ → AnswerStage)} {ts : List (Task × Service Result)}
    (hs : answering.environ x p.store = some (s, ts)) :
    Provenance ⟨s, p.threads ++ Machine.start ts⟩ := by
  obtain ⟨henv, hstages⟩ := Machine.staged_environ.1 hs
  have henv : environ x p.store.1 = some (s.1, ts) := henv
  obtain ⟨hqueue, -⟩ := services_environ henv
  have hgate := gateways_environ henv
  have hcarries : ∀ g, State.Carries (fun _ _ => False) (fun _ => False)
      (p.store.1.gateways g) (s.1.gateways g) := by
    intro g
    obtain ⟨closedShows, heq⟩ := hgate g
    rw [heq]
    exact State.carries_of_cells rfl (fun _ _ hk => hk) fun _ hx => .inl hx
  have hcancel : ∀ {ticket g : ℕ} {u k : ℤ}, IsCancel p ticket g u k →
      IsCancel ⟨s, p.threads ++ Machine.start ts⟩ ticket g u k := by
    rintro ticket g u k ⟨seats, hseats⟩
    exact ⟨seats, Pool.task_append hseats⟩
  -- a session that has just been started has no cell and serves no task
  have hold : ∀ {j : ℕ} {m : Task}, Pool.task ⟨s, p.threads ++ Machine.start ts⟩ j = some m →
      p.task j = some m ∧ s.2 j = p.store.2 j ∨ s.2 j = .start := by
    intro j m hj
    rcases Pool.task_of_append hj with htask | hlen
    · exact .inl ⟨htask, congrFun hstages j⟩
    · exact .inr ((congrFun hstages j).trans (Machine.unstarted_of_reachable hp j hlen))
  refine ⟨fun g k cell hk => ?_, fun j g u k seats cell hj hcell => ?_, fun j g k q hq => ?_,
    fun g k ticket u seats h => ?_, fun j g k ticket u seats hj hserving => ?_,
    fun j g k ticket u seats hj hserving hpublished => ?_, fun g ticket seats a h ha => ?_⟩
  · rcases (hcarries g).map k cell hk with hmap | hnew
    · exact (hcarries g).shows cell k (hI.map g k cell hmap)
    · exact hnew
  · have hcell : (s.2 j).cell = some cell := hcell
    rcases hold hj with ⟨htask, hstage⟩ | hstart
    · rw [hstage] at hcell
      exact (hcarries g).shows cell k (hI.cells j g u k seats cell htask hcell)
    · rw [hstart] at hcell
      cases hcell
  · have hmono : ∀ {q' : Service Result}, q'.Issues (RecvsOf p.store.1.gateways g k) →
        q'.Issues (RecvsOf s.1.gateways g k) := fun hq' => hq'.mono fun c hc g' cell heq =>
      ⟨(hc g' cell heq).1, (hcarries g).shows cell k (hc g' cell heq).2⟩
    rcases Pool.runs_start hq with ⟨-, hnew⟩ | hold
    · refine hmono ?_
      cases started_of_environ henv _ _ hnew with
      | @actor _ cell y hcell rounds =>
          refine Prog.Issues.bind (p := runShowActor g y.showtimeId cell rounds) ?_ fun _ => trivial
          refine (recvs_runShowActor g y.showtimeId cell rounds).mono fun c hc g' cell' heq => ?_
          obtain ⟨rfl, rfl⟩ := hc g' cell' heq
          exact ⟨rfl, y, hcell, rfl⟩
    · exact hmono (hI.recvs j g k q hold)
  · rcases (hcarries g).tasks k _ h with htask | hnone
    · exact hcancel (hI.tasks g k ticket u seats htask)
    · exact absurd hnone id
  · have hserving : (s.2 j).serving = some (.cancel ticket u seats) := hserving
    rcases hold hj with ⟨htask, hstage⟩ | hstart
    · rw [hstage] at hserving
      exact hcancel (hI.serving j g k ticket u seats htask hserving)
    · rw [hstart] at hserving
      cases hserving
  · have hserving : (s.2 j).serving = some (.cancel ticket u seats) := hserving
    have hpublished : (s.2 j).published = true := hpublished
    rcases hold hj with ⟨htask, hstage⟩ | hstart
    · rw [hstage] at hserving hpublished
      show _ ∈ s.1.lockingQueue
      rw [hqueue]
      exact hI.published j g k ticket u seats htask hserving hpublished
    · rw [hstart] at hserving
      cases hserving
  · rcases (hcarries g).answers _ h with hanswer | hnone
    · obtain ⟨u, k, hticket, message, hmessage, hunlocks⟩ := hI.answers g ticket seats a hanswer ha
      exact ⟨u, k, hcancel hticket, message, by rw [hqueue]; exact hmessage, hunlocks⟩
    · exact absurd hnone id

theorem provenance_crash (hI : Provenance p) {i : ℕ} {n : Task} {c : Cmd}
    {k : Rep c → Service Result} (hr : p.Runs i n (.call c k)) :
    Provenance ⟨answering.close i p.store, p.threads.set i ⟨n, none⟩⟩ := by
  have htask : ∀ j, Pool.task ⟨answering.close i p.store, p.threads.set i ⟨n, none⟩⟩ j = p.task j :=
    fun j => Pool.task_set (Pool.Runs.task hr)
  have hcancel : ∀ {ticket g : ℕ} {u k' : ℤ}, IsCancel p ticket g u k' →
      IsCancel ⟨answering.close i p.store, p.threads.set i ⟨n, none⟩⟩ ticket g u k' := by
    rintro ticket g u k' ⟨seats, hseats⟩
    exact ⟨seats, (htask ticket).trans hseats⟩
  refine ⟨hI.map, fun j g u k' seats cell hj => ?_, fun j g k' q hq => ?_,
    fun g k' ticket u seats h => hcancel (hI.tasks g k' ticket u seats h),
    fun j g k' ticket u seats hj hserving => ?_,
    fun j g k' ticket u seats hj => ?_, fun g ticket seats a h ha => ?_⟩
  · rw [htask] at hj
    exact hI.cells j g u k' seats cell hj
  · rcases Pool.runs_set hq with ⟨-, -, heq⟩ | ⟨-, hold⟩
    · cases heq
    · exact hI.recvs j g k' q hold
  · rw [htask] at hj
    exact hcancel (hI.serving j g k' ticket u seats hj hserving)
  · rw [htask] at hj
    exact hI.published j g k' ticket u seats hj
  · obtain ⟨u, k', hticket, hmessage⟩ := hI.answers g ticket seats a h ha
    exact ⟨u, k', hcancel hticket, hmessage⟩

theorem provenance_reachable {G : AnswerPool → Act Link Environ → Prop}
    (h : answering.system.ReachableUnder G p) : Provenance p := by
  induction h with
  | @init p h0 =>
      obtain ⟨⟨⟨seats, hstore⟩, hstages⟩, hthreads⟩ := h0
      have htask : ∀ j, p.task j = none := fun j => by
        unfold Pool.task
        rw [hthreads]
        rfl
      have hgate : ∀ g, p.store.1.gateways g = .new := fun g => by rw [hstore]; rfl
      refine ⟨fun g k cell hk => ?_, fun j g u k seats cell hj => ?_, fun j g k q hq => ?_,
        fun g k ticket u seats h => ?_, fun j g k ticket u seats hj => ?_,
        fun j g k ticket u seats hj => ?_, fun g ticket seats a h => ?_⟩
      · rw [hgate] at hk
        cases hk
      · rw [htask] at hj
        cases hj
      · rw [Pool.Runs, hthreads] at hq
        cases hq
      · obtain ⟨cell, x, a, hx, -⟩ := h
        rw [hgate] at hx
        cases hx
      · rw [htask] at hj
        cases hj
      · rw [htask] at hj
        cases hj
      · rw [hgate] at h
        cases h
  | @step p q a hp hG hst ih =>
      have hst : answering.step p a = some q := hst
      cases a with
      | environ x =>
          obtain ⟨s, ts, hs, rfl⟩ := Machine.step_environ hst
          exact provenance_environ hp ih hs
      | run i l =>
          obtain ⟨n, c, k, s, r, hr, hs, rfl⟩ := Machine.step_run hst
          exact provenance_run hp ih hr hs
      | crash i =>
          obtain ⟨n, c, k, hr, rfl⟩ := Machine.step_crash hst
          exact provenance_crash ih hr

/-- A cancel that succeeds has its unlock message published. -/
theorem unlocks_of_answer {G : AnswerPool → Act Link Environ → Prop}
    (h : answering.system.ReachableUnder G p) {i g g' : ℕ} {u k : ℤ} {seats cancelled : List ℤ}
    {rest : Answer → Service Result} (hr : p.Runs i (.cancel g u k seats) (.call (.awaitAnswer g') rest))
    {l : Link} {t : World} (hexec : exec i l (.awaitAnswer g') p.store.1 = some (t, .cancel cancelled))
    {a : ℤ} (ha : a ∈ cancelled) :
    ∃ message ∈ p.store.1.lockingQueue, Unlocks message (k, a) u := by
  obtain rfl := (answerFollows_reachable h hr).1 g u k seats rfl
  simp only [exec] at hexec
  split at hexec
  · cases hexec
  · next x hx =>
    obtain ⟨-, hx2⟩ := Prod.mk.inj (Option.some.inj hexec)
    have hticket : x.1 = i := by simpa using List.find?_some hx
    have hmem : (i, Answer.cancel cancelled) ∈ (p.store.1.gateways g).answers := by
      rw [← hticket, ← hx2]
      exact List.mem_of_find?_eq_some hx
    obtain ⟨u', k', ⟨seats', htask⟩, hmessage⟩ :=
      (provenance_reachable h).answers g i cancelled a hmem ha
    have hsame := htask.symm.trans (Pool.Runs.task hr)
    cases hsame
    exact hmessage

end Provenance

end Gateway
end Bookit

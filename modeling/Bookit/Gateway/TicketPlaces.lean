import Bookit.Gateway.Handover
import Bookit.Gateway.TakenSlots

/-!
# Gateway.TicketPlaces — where the task of a request is

A request sends one task at most.  The task is in one queue, or served by one actor, or answered, and
it is answered once; it is in a queue of its own show, and an actor of that show serves it.
-/

namespace Bookit
namespace Gateway

open Lib LockServer

/-! ## Queues and answers -/

namespace State

/-- Actors have the tasks that they had, and the same answers are there. -/
structure SameQueues (t t' : State) : Prop where
  queues : ∀ cell a', t'.actor cell = some a' →
    a'.queue = [] ∨ ∃ a, t.actor cell = some a ∧ a'.queue = a.queue
  stay : ∀ cell a, t.actor cell = some a → ∃ a', t'.actor cell = some a' ∧ a'.queue = a.queue
  answers : t'.answers = t.answers

variable {t t' : State} {cell : ℕ} {a b : ShowActor}

theorem sameQueues_refl (t : State) : SameQueues t t :=
  ⟨fun _ a' h => .inr ⟨a', h, rfl⟩, fun _ a h => ⟨a, h, rfl⟩, rfl⟩

theorem sameQueues_of_cells (hcells : t'.cells = t.cells) (hanswers : t'.answers = t.answers) :
    SameQueues t t' := by
  have hactor : ∀ cell, t'.actor cell = t.actor cell := by
    intro cell
    unfold State.actor
    rw [hcells]
  refine ⟨fun cell a' h => .inr ⟨a', ?_, rfl⟩, fun cell a h => ⟨a, ?_, rfl⟩, hanswers⟩
  · rwa [← hactor]
  · rwa [hactor]

theorem sameQueues_setActor (ha : t.actor cell = some a) (hqueue : b.queue = a.queue) :
    SameQueues t (t.setActor cell b) := by
  refine ⟨fun c a' h => .inr ?_, fun c a' h => ?_, rfl⟩
  · rw [actor_setActor ha] at h
    split_ifs at h with hc
    · obtain rfl := Option.some.inj h
      subst hc
      exact ⟨a, ha, hqueue⟩
    · exact ⟨a', h, rfl⟩
  · rw [actor_setActor ha]
    split_ifs with hc
    · subst hc
      rw [ha] at h
      obtain rfl := Option.some.inj h
      exact ⟨b, rfl, hqueue⟩
    · exact ⟨a', h, rfl⟩

theorem sameQueues_actorCell (k : ℤ) (t : State) : SameQueues t (t.actorCell k).1 := by
  unfold actorCell
  split
  · exact sameQueues_refl t
  · refine ⟨fun c a' h => .inr ⟨a', ?_, rfl⟩, fun c a h => ⟨a, ?_, rfl⟩, rfl⟩
    · obtain ⟨x, hx, hxa⟩ := actor_eq_some.1 h
      rw [List.getElem?_append] at hx
      split_ifs at hx
      · exact actor_eq_some.2 ⟨x, hx, hxa⟩
      · -- the new cell is empty
        rw [List.mem_singleton.1 (List.mem_of_getElem? hx)] at hxa
        cases hxa
    · obtain ⟨x, hx, hxa⟩ := actor_eq_some.1 h
      refine actor_eq_some.2 ⟨x, ?_, hxa⟩
      exact (List.getElem?_append_left (List.getElem?_eq_some_iff.1 hx).1).trans hx

theorem sameQueues_initCell (cell seatCount : ℕ) (t : State) :
    SameQueues t (t.initCell cell seatCount).1 := by
  unfold initCell
  split
  · exact sameQueues_refl t
  · exact sameQueues_refl t
  · next k hcell =>
    split_ifs
    · exact sameQueues_refl t
    · refine ⟨fun c a' h => ?_, fun c a h => ?_, rfl⟩
      · obtain ⟨x, hx, hxa⟩ := actor_eq_some.1 h
        rw [cells_setActor] at hx
        obtain ⟨y, hy, rfl⟩ := Option.map_eq_some_iff.1 hx
        split_ifs at hxa with hc
        · obtain rfl := Option.some.inj hxa
          exact .inl rfl
        · exact .inr ⟨a', actor_eq_some.2 ⟨y, hy, hxa⟩, rfl⟩
      · obtain ⟨x, hx, hxa⟩ := actor_eq_some.1 h
        have hc : cell ≠ c := by
          rintro rfl
          rw [hcell] at hx
          obtain rfl := Option.some.inj hx
          cases hxa
        refine ⟨a, actor_eq_some.2 ⟨x, ?_, hxa⟩, rfl⟩
        rw [cells_setActor, hx, Option.map_some, if_neg hc]

theorem sameQueues_checkOpen (cell : ℕ) (k : ℤ) (seatCount : ℕ) (t : State) :
    SameQueues t (t.checkOpen cell k seatCount).1 := by
  unfold checkOpen
  cases ha : t.actor cell with
  | none => exact sameQueues_refl t
  | some a =>
      dsimp only
      split_ifs
      · exact sameQueues_setActor ha rfl
      · exact sameQueues_refl t
      · exact sameQueues_refl t

theorem sameQueues_clearAdmission (k : ℤ) (seatIds : List ℤ) (t : State) :
    SameQueues t (t.clearAdmission k seatIds) := by
  unfold clearAdmission
  split
  · exact sameQueues_refl t
  · split
    · exact sameQueues_refl t
    · next a ha => exact sameQueues_setActor ha (queue_clearSeats seatIds a)

theorem sameQueues_handlePubsubMessage (event : Channel × Json) (t : State) :
    SameQueues t (t.handlePubsubMessage event) := by
  unfold handlePubsubMessage
  split
  · exact sameQueues_of_cells rfl rfl
  · next k seatIds _ =>
    have hclear := sameQueues_clearAdmission k seatIds t
    exact ⟨hclear.queues, hclear.stay, hclear.answers⟩

end State

section Exec

open State

variable {i : ℕ} {l : Link} {c : Cmd} {s t : World} {r : Rep c} {g cell : ℕ}

theorem World.sameQueues_setGateway {u : State} (h : SameQueues (s.gateways g) u) (g' : ℕ) :
    SameQueues (s.gateways g') ((s.setGateway g u).gateways g') := by
  show SameQueues (s.gateways g') (Redis.setAt s.gateways g u g')
  by_cases hg : g' = g
  · subst hg
    rw [Redis.setAt_self]
    exact h
  · rw [Redis.setAt_ne hg]
    exact sameQueues_refl _

theorem World.sameQueues_onActor {ρ : Type} {f : ShowActor → ShowActor × ρ} {r : ρ}
    (hf : ∀ a, (f a).1.queue = a.queue) (h : s.onActor g cell f = some (t, r)) (g' : ℕ) :
    SameQueues (s.gateways g') (t.gateways g') := by
  obtain ⟨a, ha, -, rfl⟩ := World.onActor_eq h
  exact World.sameQueues_setGateway (sameQueues_setActor ha (hf a)) g'

/-- The commands that pass tasks and answers on. -/
def Passes : Cmd → Prop
  | .trySend .. => True
  | .send .. => True
  | .recv .. => True
  | .answer .. => True
  | _ => False

theorem sameQueues_exec (h : exec i l c s = some (t, r)) (hc : ¬Passes c) (g' : ℕ) :
    SameQueues (s.gateways g') (t.gateways g') := by
  cases c with
  | service c =>
      obtain ⟨x, -, heq⟩ := Option.map_eq_some_iff.1 h
      obtain ⟨rfl, -⟩ := Prod.mk.inj heq
      exact sameQueues_refl _
  | isClosed | hasCell =>
      obtain ⟨rfl, -⟩ := Prod.mk.inj (Option.some.inj h)
      exact sameQueues_refl _
  | existsClosedKey showtimeId =>
      obtain rfl : s = t := by
        cases l <;> exact (Prod.mk.inj (Option.some.inj h)).1
      exact sameQueues_refl _
  | insertClosed | removeCell =>
      obtain ⟨rfl, -⟩ := Prod.mk.inj (Option.some.inj h)
      refine World.sameQueues_setGateway ?_ g'
      exact sameQueues_of_cells rfl rfl
  | setClosing g cell =>
      simp only [exec] at h
      split at h
      · obtain ⟨rfl, -⟩ := Prod.mk.inj (Option.some.inj h)
        exact sameQueues_refl _
      · next x hx =>
        obtain rfl := Option.some.inj h
        exact World.sameQueues_onActor (fun _ => rfl) hx g'
  | actorCell g showtimeId =>
      obtain ⟨rfl, -⟩ := Prod.mk.inj (Option.some.inj h)
      exact World.sameQueues_setGateway (sameQueues_actorCell showtimeId _) g'
  | initCell g cell seatCount =>
      obtain ⟨rfl, -⟩ := Prod.mk.inj (Option.some.inj h)
      exact World.sameQueues_setGateway (sameQueues_initCell cell seatCount _) g'
  | checkOpen g cell showtimeId seatCount =>
      obtain ⟨rfl, -⟩ := Prod.mk.inj (Option.some.inj h)
      exact World.sameQueues_setGateway (sameQueues_checkOpen cell showtimeId seatCount _) g'
  | isClosing => exact World.sameQueues_onActor (fun _ => rfl) h g'
  | registerSeat => exact World.sameQueues_onActor (fun a => queue_registerSeat _ _ a) h g'
  | tryAdmit => exact World.sameQueues_onActor (fun a => queue_tryAdmit _ a) h g'
  | clearAdmission g showtimeId seatIds =>
      obtain ⟨rfl, -⟩ := Prod.mk.inj (Option.some.inj h)
      exact World.sameQueues_setGateway (sameQueues_clearAdmission showtimeId seatIds _) g'
  | awaitAnswer g =>
      simp only [exec] at h
      split at h
      · cases h
      · obtain ⟨rfl, -⟩ := Prod.mk.inj (Option.some.inj h)
        exact sameQueues_refl _
  | handleEvent g =>
      simp only [exec] at h
      split at h
      · cases h
      · next event _ =>
        obtain ⟨rfl, -⟩ := Prod.mk.inj (Option.some.inj h)
        exact World.sameQueues_setGateway (sameQueues_handlePubsubMessage event _) g'
  | publishLocking message =>
      have hgate : t.gateways = s.gateways := by
        cases l <;> obtain ⟨rfl, -⟩ := Prod.mk.inj (Option.some.inj h) <;> rfl
      rw [hgate]
      exact sameQueues_refl _
  | trySend | send | recv | answer => exact absurd trivial hc

/-- What a task does that is sent to a cell: it is last in the queue, or the queue was full. -/
theorem enqueue_exec {task : GatewayTask} {sent : Bool}
    (h : s.onActor g cell (ShowActor.enqueue task) = some (t, sent)) :
    ∃ a, (s.gateways g).actor cell = some a ∧
      (sent = true ∧
          t = s.setGateway g ((s.gateways g).setActor cell { a with queue := a.queue ++ [task] }) ∨
        sent = false ∧ t = s.setGateway g ((s.gateways g).setActor cell a)) := by
  obtain ⟨a, ha, rfl, rfl⟩ := World.onActor_eq h
  refine ⟨a, ha, ?_⟩
  unfold ShowActor.enqueue
  split_ifs
  · exact .inl ⟨rfl, rfl⟩
  · exact .inr ⟨rfl, rfl⟩

/-- The task that an actor takes up is the first of its queue. -/
theorem recv_exec {task : GatewayTask} (h : exec i l (.recv g cell) s = some (t, task)) :
    ∃ a tasks, (s.gateways g).actor cell = some a ∧ a.queue = task :: tasks ∧
      t = s.setGateway g ((s.gateways g).setActor cell { a with queue := tasks }) := by
  simp only [exec] at h
  split at h
  · cases h
  · next a ha =>
    split at h
    · cases h
    · next first tasks hqueue =>
      obtain ⟨rfl, rfl⟩ := Prod.mk.inj (Option.some.inj h)
      exact ⟨a, tasks, ha, hqueue, rfl⟩

/-- Answers stay, and new ones come last. -/
theorem answers_exec (h : exec i l c s = some (t, r)) (g : ℕ) :
    (s.gateways g).answers <+: (t.gateways g).answers := by
  by_cases hpasses : Passes c
  · have hset : ∀ {u : State} {g₀ : ℕ}, (s.gateways g₀).answers <+: u.answers →
        (s.gateways g).answers <+: ((s.setGateway g₀ u).gateways g).answers := by
      intro u g₀ hu
      show _ <+: (Redis.setAt s.gateways g₀ u g).answers
      by_cases hg : g = g₀
      · subst hg
        exact Redis.setAt_self (f := s.gateways) ▸ hu
      · exact (Redis.setAt_ne hg).symm ▸ List.prefix_refl _
    cases c with
    | trySend g₀ cell u seats =>
        obtain ⟨a, ha, -, rfl⟩ := World.onActor_eq h
        exact hset (List.prefix_refl _)
    | send g₀ cell u seats =>
        simp only [exec] at h
        split at h
        · next x hx =>
          obtain ⟨rfl, -⟩ := Prod.mk.inj (Option.some.inj h)
          obtain ⟨a, ha, -, rfl⟩ := World.onActor_eq hx
          exact hset (List.prefix_refl _)
        · cases h
    | recv g₀ cell =>
        obtain ⟨a, tasks, ha, -, rfl⟩ := recv_exec h
        exact hset (List.prefix_refl _)
    | answer g₀ ticket a =>
        obtain ⟨rfl, -⟩ := Prod.mk.inj (Option.some.inj h)
        exact hset (List.prefix_append _ _)
    | _ => exact absurd hpasses id
  · exact (sameQueues_exec h hpasses g).answers.symm ▸ List.prefix_refl _

/-- The tasks of an actor whose queue keeps them. -/
theorem hasTask_setActor {u : State} {a b : ShowActor} {k : ℤ} {task : GatewayTask}
    (ha : u.actor cell = some a)
    (hqueue : task ∈ a.queue → task ∈ b.queue) (h : u.HasTask k task) :
    (u.setActor cell b).HasTask k task := by
  obtain ⟨c, x, a', hx, hk, hxa, hmem⟩ := h
  by_cases hc : cell = c
  · subst hc
    rw [actor_eq_some.2 ⟨x, hx, hxa⟩] at ha
    obtain rfl := Option.some.inj ha
    refine ⟨cell, { x with actor := some b }, b, ?_, hk, rfl, hqueue hmem⟩
    rw [cells_setActor, hx, Option.map_some, if_pos rfl]
  · refine ⟨c, x, a', ?_, hk, hxa, hmem⟩
    rw [cells_setActor, hx, Option.map_some, if_neg hc]

/-- A task stays in its queue until an actor takes it. -/
theorem hasTask_exec (h : exec i l c s = some (t, r)) (hrecv : ∀ g cell, c ≠ .recv g cell)
    {g' : ℕ} {k : ℤ} {task : GatewayTask} (htask : (s.gateways g').HasTask k task) :
    (t.gateways g').HasTask k task := by
  by_cases hpasses : Passes c
  · have hset : ∀ {u : State} {g₀ : ℕ}, ((s.gateways g₀).HasTask k task → u.HasTask k task) →
        ((s.setGateway g₀ u).gateways g').HasTask k task := by
      intro u g₀ hu
      show (Redis.setAt s.gateways g₀ u g').HasTask k task
      by_cases hg : g' = g₀
      · subst hg
        rw [Redis.setAt_self]
        exact hu htask
      · rwa [Redis.setAt_ne hg]
    have henqueue : ∀ (new : GatewayTask) (a : ShowActor), task ∈ a.queue →
        task ∈ (a.enqueue new).1.queue := by
      intro new a hmem
      unfold ShowActor.enqueue
      split_ifs
      · exact List.mem_append_left _ hmem
      · exact hmem
    cases c with
    | trySend g₀ cell u seats =>
        obtain ⟨a, ha, -, rfl⟩ := World.onActor_eq h
        exact hset (hasTask_setActor ha (henqueue _ a))
    | send g₀ cell u seats =>
        simp only [exec] at h
        split at h
        · next x hx =>
          obtain ⟨rfl, -⟩ := Prod.mk.inj (Option.some.inj h)
          obtain ⟨a, ha, -, rfl⟩ := World.onActor_eq hx
          exact hset (hasTask_setActor ha (henqueue _ a))
        · cases h
    | recv => exact absurd rfl (hrecv _ _)
    | answer g₀ ticket a =>
        obtain ⟨rfl, -⟩ := Prod.mk.inj (Option.some.inj h)
        exact hset id
    | _ => exact absurd hpasses id
  · obtain ⟨cell, x, a, hx, hk, hxa, hmem⟩ := htask
    have hsame := sameQueues_exec h hpasses g'
    obtain ⟨a', ha', hqueue⟩ := hsame.stay cell a (actor_eq_some.2 ⟨x, hx, hxa⟩)
    obtain ⟨y, hy, hya⟩ := actor_eq_some.1 ha'
    obtain ⟨z, hz, hzk⟩ := (carries_exec h g').shows cell k ⟨x, hx, hk⟩
    rw [hy] at hz
    obtain rfl := Option.some.inj hz
    exact ⟨cell, y, a', hy, hzk, hya, hqueue ▸ hmem⟩

/-- The task that an actor takes leaves the queue; the others stay. -/
theorem hasTask_of_recv_or {taken task : GatewayTask}
    (h : exec i l (.recv g cell) s = some (t, taken)) {g' : ℕ} {k : ℤ}
    (htask : (s.gateways g').HasTask k task) :
    (t.gateways g').HasTask k task ∨
      g' = g ∧ task = taken ∧ (s.gateways g).ShowOf cell k := by
  obtain ⟨a, tasks, ha, hqueue, rfl⟩ := recv_exec h
  show (Redis.setAt s.gateways g _ g').HasTask k task ∨ _
  by_cases hg : g' = g
  · subst hg
    rw [Redis.setAt_self]
    by_cases hsame : task = taken ∧ (s.gateways g').ShowOf cell k
    · exact .inr ⟨rfl, hsame⟩
    · refine .inl ?_
      obtain ⟨c, x, a', hx, hk, hxa, hmem⟩ := htask
      by_cases hc : cell = c
      · subst hc
        rw [actor_eq_some.2 ⟨x, hx, hxa⟩] at ha
        obtain rfl := Option.some.inj ha
        refine hasTask_setActor (actor_eq_some.2 ⟨x, hx, hxa⟩) (fun h => ?_)
          ⟨cell, x, a', hx, hk, hxa, hmem⟩
        rw [hqueue] at h
        refine (List.mem_cons.1 h).resolve_left fun heq => hsame ⟨heq, x, hx, hk⟩
      · refine ⟨c, x, a', ?_, hk, hxa, hmem⟩
        rw [cells_setActor, hx, Option.map_some, if_neg hc]
  · rw [Redis.setAt_ne hg]
    exact .inl htask

end Exec

/-! ## One place at a time -/

/-- Where the task of a request is. -/
inductive Place where
  | unsent
  | queued (g cell : ℕ)
  | served (session : ℕ)
  | answered (g : ℕ) (a : Answer)
  deriving DecidableEq

/-- The task of the request, or the answer to it, is there. -/
def FoundAt (gateways : ℕ → State) (stages : ℕ → HandoverStage) (i : ℕ) : Place → Prop
  | .unsent => True
  | .queued g cell => ∃ a, (gateways g).actor cell = some a ∧ i ∈ a.queue.map GatewayTask.ticket
  | .served j => (stages j).serving.map GatewayTask.ticket = some i
  | .answered g a => (i, a) ∈ (gateways g).answers

/-- The tasks in the queues and at the actors are where they are said to be, and so are the answers,
and nothing else is said of them; there are no two tasks of a request, and no two answers. -/
structure Placed (place : ℕ → Place) (gateways : ℕ → State) (stages : ℕ → HandoverStage) :
    Prop where
  found : ∀ i, FoundAt gateways stages i (place i)
  once : ∀ g, ((gateways g).answers.map Prod.fst).Nodup
  unsent : ∀ i, (stages i).sent = false → place i = .unsent
  nodup : ∀ g cell a, (gateways g).actor cell = some a →
    (a.queue.map GatewayTask.ticket).Nodup
  queued : ∀ g cell a, (gateways g).actor cell = some a →
    ∀ task ∈ a.queue, place task.ticket = .queued g cell
  served : ∀ j task, (stages j).serving = some task → place task.ticket = .served j
  answered : ∀ g i a, (i, a) ∈ (gateways g).answers → place i = .answered g a

section Placed

variable {place : ℕ → Place} {gateways gateways' : ℕ → State} {stages stages' : ℕ → HandoverStage}
variable {i g cell : ℕ} {a : ShowActor} {task : GatewayTask}

theorem Placed.same (h : Placed place gateways stages)
    (hqueues : ∀ g, State.SameQueues (gateways g) (gateways' g))
    (hsent : ∀ j, (stages' j).sent = (stages j).sent)
    (hserving : ∀ j, (stages' j).serving = (stages j).serving) :
    Placed place gateways' stages' := by
  refine ⟨fun j => ?_, fun g => ?_, fun j hj => h.unsent j ((hsent j).symm.trans hj),
    fun g cell a' ha' => ?_, fun g cell a' ha' task htask => ?_,
    fun j task hj => h.served j task ((hserving j).symm.trans hj), fun g j b hb => h.answered g j b ?_⟩
  · have hfound := h.found j
    cases hplace : place j with
    | unsent => trivial
    | queued g cell =>
        rw [hplace] at hfound
        obtain ⟨a, ha, hmem⟩ := hfound
        obtain ⟨a', ha', hqueue⟩ := (hqueues g).stay cell a ha
        exact ⟨a', ha', hqueue ▸ hmem⟩
    | served j' =>
        rw [hplace] at hfound
        show (stages' j').serving.map _ = _
        rw [hserving]
        exact hfound
    | answered g b =>
        rw [hplace] at hfound
        show _ ∈ (gateways' g).answers
        rw [(hqueues g).answers]
        exact hfound
  · rw [(hqueues g).answers]
    exact h.once g
  · rcases (hqueues g).queues cell a' ha' with hnone | ⟨a, ha, heq⟩
    · rw [hnone]
      exact List.nodup_nil
    · rw [heq]
      exact h.nodup g cell a ha
  · rcases (hqueues g).queues cell a' ha' with hnone | ⟨a, ha, heq⟩
    · rw [hnone] at htask
      cases htask
    · rw [heq] at htask
      exact h.queued g cell a ha task htask
  · rw [← (hqueues g).answers]
    exact hb

/-- The actor in one cell of one replica is another one now. -/
theorem actor_update (ha : (gateways g).actor cell = some a) {b : ShowActor}
    (hg : gateways' = Redis.setAt gateways g ((gateways g).setActor cell b)) {g' cell' : ℕ}
    {a' : ShowActor} (ha' : (gateways' g').actor cell' = some a') :
    (g' = g ∧ cell' = cell ∧ a' = b) ∨
      (¬(g' = g ∧ cell' = cell) ∧ (gateways g').actor cell' = some a') := by
  rw [hg] at ha'
  by_cases hgg : g' = g
  · subst hgg
    rw [Redis.setAt_self, State.actor_setActor ha] at ha'
    split_ifs at ha' with hc
    · exact .inl ⟨rfl, hc, (Option.some.inj ha').symm⟩
    · exact .inr ⟨fun h => hc h.2, ha'⟩
  · rw [Redis.setAt_ne hgg] at ha'
    exact .inr ⟨fun h => hgg h.1, ha'⟩

/-- The other actors are still there. -/
theorem actor_update_or (ha : (gateways g).actor cell = some a) {b : ShowActor}
    (hg : gateways' = Redis.setAt gateways g ((gateways g).setActor cell b)) {g' cell' : ℕ}
    {a' : ShowActor} (ha' : (gateways g').actor cell' = some a') :
    (g' = g ∧ cell' = cell ∧ a' = a ∧ (gateways' g').actor cell' = some b) ∨
      (gateways' g').actor cell' = some a' := by
  rw [hg]
  by_cases hgg : g' = g
  · subst hgg
    rw [Redis.setAt_self, State.actor_setActor ha]
    split_ifs with hc
    · subst hc
      exact .inl ⟨rfl, rfl, Option.some.inj (ha'.symm.trans ha), rfl⟩
    · exact .inr ha'
  · rw [Redis.setAt_ne hgg]
    exact .inr ha'

theorem answers_update {u : State} (hg : gateways' = Redis.setAt gateways g u)
    (hu : u.answers = (gateways g).answers) (g' : ℕ) :
    (gateways' g').answers = (gateways g').answers := by
  rw [hg]
  by_cases hgg : g' = g
  · subst hgg
    rw [Redis.setAt_self, hu]
  · rw [Redis.setAt_ne hgg]

/-- A task or an answer that has a place keeps it while the task of another request moves. -/
theorem Placed.found_ne {ticket j : ℕ} {x : Place} (h : Placed place gateways stages)
    (hne : j ≠ ticket)
    (hqueues : ∀ g cell a, (gateways g).actor cell = some a → j ∈ a.queue.map GatewayTask.ticket →
      ∃ a', (gateways' g).actor cell = some a' ∧ j ∈ a'.queue.map GatewayTask.ticket)
    (hserving : ∀ j', (stages j').serving.map GatewayTask.ticket = some j →
      (stages' j').serving.map GatewayTask.ticket = some j)
    (hanswers : ∀ g, (gateways g).answers ⊆ (gateways' g).answers) :
    FoundAt gateways' stages' j (Function.update place ticket x j) := by
  rw [Function.update_of_ne hne]
  have hfound := h.found j
  cases hplace : place j with
  | unsent => trivial
  | queued g cell =>
      rw [hplace] at hfound
      obtain ⟨a, ha, hmem⟩ := hfound
      exact hqueues g cell a ha hmem
  | served j' =>
      rw [hplace] at hfound
      exact hserving j' hfound
  | answered g b =>
      rw [hplace] at hfound
      exact hanswers g hfound

/-- A request that has not sent a task sends one. -/
theorem Placed.enqueue (h : Placed place gateways stages) (task : GatewayTask)
    (hi : (stages i).sent = false) (htask : task.ticket = i) (ha : (gateways g).actor cell = some a)
    (hg : gateways' = Redis.setAt gateways g
      ((gateways g).setActor cell { a with queue := a.queue ++ [task] }))
    (hsent : ∀ j, j ≠ i → (stages' j).sent = (stages j).sent) (hnow : (stages' i).sent = true)
    (hserving : ∀ j, (stages' j).serving = (stages j).serving) :
    Placed (Function.update place i (.queued g cell)) gateways' stages' := by
  have hfree : place i = .unsent := h.unsent i hi
  -- whatever is somewhere is not the task of this request
  have hother : ∀ {j : ℕ} {x : Place}, place j = x → x ≠ .unsent →
      Function.update place i (.queued g cell) j = x := by
    intro j x hj hx
    rw [Function.update_of_ne, hj]
    rintro rfl
    exact hx (hj.symm.trans hfree)
  have hanswers := answers_update hg rfl
  refine ⟨fun j => ?_, fun g' => (hanswers g').symm ▸ h.once g', fun j hj => ?_,
    fun g' c a' ha' => ?_, fun g' c a' ha' other hother' => ?_, fun j other hj => ?_,
    fun g' j b hb => ?_⟩
  · by_cases hji : j = i
    · subst hji
      rw [Function.update_self, hg]
      refine ⟨{ a with queue := a.queue ++ [task] }, ?_, ?_⟩
      · rw [Redis.setAt_self, State.actor_setActor ha, if_pos rfl]
      · rw [List.map_append]
        exact List.mem_append_right _ (List.mem_singleton.2 htask.symm)
    · refine h.found_ne hji (fun g' c a' ha' hmem => ?_) (fun j' hj' => ?_) fun g' => ?_
      · rcases actor_update_or ha hg ha' with ⟨rfl, rfl, rfl, hnew⟩ | hsame
        · refine ⟨_, hnew, ?_⟩
          rw [List.map_append]
          exact List.mem_append_left _ hmem
        · exact ⟨a', hsame, hmem⟩
      · rw [hserving]
        exact hj'
      · rw [hanswers]
        exact List.Subset.refl _
  · have hji : j ≠ i := by
      rintro rfl
      rw [hnow] at hj
      cases hj
    rw [Function.update_of_ne hji]
    exact h.unsent j ((hsent j hji).symm.trans hj)
  · rcases actor_update ha hg ha' with ⟨rfl, rfl, rfl⟩ | ⟨-, hold⟩
    · have hnodup := h.nodup g' c a ha
      rw [List.map_append]
      refine List.nodup_append.2 ⟨hnodup, List.nodup_singleton _, fun x hx y hy heq => ?_⟩
      obtain ⟨other, hmem, rfl⟩ := List.mem_map.1 hx
      have hplace := h.queued g' c a ha other hmem
      have hy := List.mem_singleton.1 hy
      rw [heq, hy, htask, hfree] at hplace
      cases hplace
    · exact h.nodup g' c a' hold
  · rcases actor_update ha hg ha' with ⟨rfl, rfl, rfl⟩ | ⟨-, hold⟩
    · rcases List.mem_append.1 hother' with hmem | hmem
      · exact hother (h.queued g' c a ha other hmem) fun heq => nomatch heq
      · rw [List.mem_singleton.1 hmem, htask, Function.update_self]
    · exact hother (h.queued g' c a' hold other hother') fun heq => nomatch heq
  · exact hother (h.served j other ((hserving j).symm.trans hj)) fun heq => nomatch heq
  · refine hother (h.answered g' j b ?_) fun heq => nomatch heq
    rwa [← hanswers]

/-- An actor takes the first task of its queue. -/
theorem Placed.recv (h : Placed place gateways stages) {tasks : List GatewayTask}
    (ha : (gateways g).actor cell = some a) (hqueue : a.queue = task :: tasks)
    (hg : gateways' = Redis.setAt gateways g
      ((gateways g).setActor cell { a with queue := tasks }))
    (hsent : ∀ j, (stages' j).sent = (stages j).sent)
    (hserving : ∀ j, j ≠ i → (stages' j).serving = (stages j).serving)
    (hidle : (stages i).serving = none) (hnow : (stages' i).serving = some task) :
    Placed (Function.update place task.ticket (.served i)) gateways' stages' := by
  have hfirst : place task.ticket = .queued g cell :=
    h.queued g cell a ha task (by rw [hqueue]; exact List.mem_cons_self)
  have hother : ∀ {j : ℕ} {x : Place}, place j = x → x ≠ .queued g cell →
      Function.update place task.ticket (.served i) j = x := by
    intro j x hj hx
    rw [Function.update_of_ne, hj]
    rintro rfl
    exact hx (hj.symm.trans hfirst)
  have hnodup := h.nodup g cell a ha
  rw [hqueue, List.map_cons, List.nodup_cons] at hnodup
  have hanswers := answers_update hg rfl
  refine ⟨fun j => ?_, fun g' => (hanswers g').symm ▸ h.once g', fun j hj => ?_,
    fun g' c a' ha' => ?_, fun g' c a' ha' other hmem => ?_, fun j other hj => ?_,
    fun g' j b hb => ?_⟩
  · by_cases hj : j = task.ticket
    · subst hj
      rw [Function.update_self]
      show (stages' i).serving.map _ = _
      rw [hnow]
      rfl
    · refine h.found_ne hj (fun g' c a' ha' hmem => ?_) (fun j' hj' => ?_) fun g' => ?_
      · rcases actor_update_or ha hg ha' with ⟨rfl, rfl, rfl, hnew⟩ | hsame
        · refine ⟨_, hnew, ?_⟩
          rw [hqueue, List.map_cons] at hmem
          exact (List.mem_cons.1 hmem).resolve_left hj
        · exact ⟨a', hsame, hmem⟩
      · have hne : j' ≠ i := by
          rintro rfl
          rw [hidle] at hj'
          cases hj'
        rw [hserving j' hne]
        exact hj'
      · rw [hanswers]
        exact List.Subset.refl _
  · exact hother (h.unsent j ((hsent j).symm.trans hj)) fun heq => nomatch heq
  · rcases actor_update ha hg ha' with ⟨rfl, rfl, rfl⟩ | ⟨-, hold⟩
    · exact hnodup.2
    · exact h.nodup g' c a' hold
  · rcases actor_update ha hg ha' with ⟨rfl, rfl, rfl⟩ | ⟨hne, hold⟩
    · -- a queue has no two tasks of a request
      have hticket : other.ticket ≠ task.ticket := by
        intro heq
        exact hnodup.1 (heq ▸ List.mem_map_of_mem hmem)
      rw [Function.update_of_ne hticket]
      exact h.queued g' c a ha other (by rw [hqueue]; exact List.mem_cons_of_mem _ hmem)
    · refine hother (h.queued g' c a' hold other hmem) fun heq => hne ?_
      exact Place.queued.inj heq
  · by_cases hji : j = i
    · subst hji
      rw [hnow] at hj
      obtain rfl := Option.some.inj hj
      exact Function.update_self ..
    · exact hother (h.served j other ((hserving j hji).symm.trans hj)) fun heq => nomatch heq
  · refine hother (h.answered g' j b ?_) fun heq => nomatch heq
    rwa [← hanswers]

/-- An actor answers the task that it serves. -/
theorem Placed.answer (h : Placed place gateways stages) {b : Answer}
    (hi : (stages i).serving = some task)
    (hg : gateways' = Redis.setAt gateways g { gateways g with
      answers := (gateways g).answers ++ [(task.ticket, b)] })
    (hsent : ∀ j, (stages' j).sent = (stages j).sent)
    (hserving : ∀ j, j ≠ i → (stages' j).serving = (stages j).serving)
    (hnow : (stages' i).serving = none) :
    Placed (Function.update place task.ticket (.answered g b)) gateways' stages' := by
  have hserved : place task.ticket = .served i := h.served i task hi
  have hother : ∀ {j : ℕ} {x : Place}, place j = x → x ≠ .served i →
      Function.update place task.ticket (.answered g b) j = x := by
    intro j x hj hx
    rw [Function.update_of_ne, hj]
    rintro rfl
    exact hx (hj.symm.trans hserved)
  have hcells : ∀ g', (gateways' g').cells = (gateways g').cells := by
    intro g'
    rw [hg]
    by_cases hgg : g' = g
    · subst hgg
      rw [Redis.setAt_self]
    · rw [Redis.setAt_ne hgg]
  have hactor : ∀ {g' c : ℕ} {a' : ShowActor}, (gateways' g').actor c = some a' →
      (gateways g').actor c = some a' := by
    intro g' c a' ha'
    unfold State.actor at ha' ⊢
    rwa [hcells] at ha'
  have hadds : ∀ g', ∃ more, (gateways' g').answers = (gateways g').answers ++ more ∧
      (more = [(task.ticket, b)] ∧ g' = g ∨ more = [] ∧ g' ≠ g) := by
    intro g'
    rw [hg]
    by_cases hgg : g' = g
    · subst hgg
      rw [Redis.setAt_self]
      exact ⟨_, rfl, .inl ⟨rfl, rfl⟩⟩
    · rw [Redis.setAt_ne hgg]
      exact ⟨[], (List.append_nil _).symm, .inr ⟨rfl, hgg⟩⟩
  have hactor' : ∀ {g' c : ℕ} {a' : ShowActor}, (gateways g').actor c = some a' →
      (gateways' g').actor c = some a' := by
    intro g' c a' ha'
    unfold State.actor at ha' ⊢
    rwa [hcells]
  refine ⟨fun j => ?_, fun g' => ?_, fun j hj => ?_,
    fun g' c a' ha' => h.nodup g' c a' (hactor ha'),
    fun g' c a' ha' other hmem => ?_, fun j other hj => ?_, fun g' j x hx => ?_⟩
  · by_cases hj : j = task.ticket
    · subst hj
      rw [Function.update_self]
      show (task.ticket, b) ∈ (gateways' g).answers
      obtain ⟨more, heq, ⟨rfl, -⟩ | ⟨-, hne⟩⟩ := hadds g
      · rw [heq]
        exact List.mem_append_right _ (List.mem_singleton_self _)
      · exact absurd rfl hne
    · refine h.found_ne hj (fun g' c a' ha' hmem => ⟨a', hactor' ha', hmem⟩) (fun j' hj' => ?_)
        fun g' => ?_
      · have hne : j' ≠ i := by
          rintro rfl
          rw [hi] at hj'
          exact hj (Option.some.inj hj').symm
        rw [hserving j' hne]
        exact hj'
      · obtain ⟨more, heq, -⟩ := hadds g'
        rw [heq]
        exact List.subset_append_left _ _
  · obtain ⟨more, heq, ⟨rfl, rfl⟩ | ⟨rfl, -⟩⟩ := hadds g'
    · rw [heq, List.map_append]
      refine List.nodup_append.2 ⟨h.once g', List.nodup_singleton _, fun x hx y hy hxy => ?_⟩
      -- a task that is served is not answered
      obtain ⟨⟨j, c⟩, hmem, rfl⟩ := List.mem_map.1 hx
      have hplace := h.answered g' j c hmem
      have hy : y = task.ticket := List.mem_singleton.1 hy
      have hj : j = task.ticket := hxy.trans hy
      rw [hj, hserved] at hplace
      cases hplace
    · rw [heq, List.append_nil]
      exact h.once g'
  · exact hother (h.unsent j ((hsent j).symm.trans hj)) fun heq => nomatch heq
  · exact hother (h.queued g' c a' (hactor ha') other hmem) fun heq => nomatch heq
  · have hji : j ≠ i := by
      rintro rfl
      rw [hnow] at hj
      cases hj
    refine hother (h.served j other ((hserving j hji).symm.trans hj)) fun heq => hji ?_
    exact Place.served.inj heq
  · have hold : (j, x) ∈ (gateways g').answers → Function.update place task.ticket
        (.answered g b) j = .answered g' x :=
      fun hmem => hother (h.answered g' j x hmem) fun heq => nomatch heq
    rw [hg] at hx
    by_cases hgg : g' = g
    · subst hgg
      rw [Redis.setAt_self] at hx
      rcases List.mem_append.1 hx with hmem | hmem
      · exact hold hmem
      · obtain ⟨rfl, rfl⟩ := Prod.mk.inj (List.mem_singleton.1 hmem)
        exact Function.update_self ..
    · rw [Redis.setAt_ne hgg] at hx
      exact hold hx

end Placed

/-! ## Tasks of lock requests -/

/-- The actors of a reachable world take tasks of their own shows. -/
theorem recvs_reachable {p : Pool World Rep Task Result} (h : machine.system.Reachable p) {i g : ℕ}
    {k : ℤ} {q : Service Result} (hr : p.Runs i (.actor g k) q) :
    q.Issues (RecvsOf p.store.gateways g k) := by
  induction h generalizing i g k q with
  | @init p h0 =>
      rw [Pool.Runs, h0.2] at hr
      cases hr
  | @step p p' a hp _ hst ih =>
      have hst : machine.step p a = some p' := hst
      have hmono : ∀ {s : World}, (∀ cell, (p.store.gateways g).ShowOf cell k →
          (s.gateways g).ShowOf cell k) → ∀ {q : Service Result},
          q.Issues (RecvsOf p.store.gateways g k) → q.Issues (RecvsOf s.gateways g k) :=
        fun hshow _ hq => hq.mono fun c hc g' cell heq =>
          ⟨(hc g' cell heq).1, hshow cell (hc g' cell heq).2⟩
      cases a with
      | environ x =>
          obtain ⟨s, ts, hs, rfl⟩ := Machine.step_environ hst
          have hshow : ∀ cell, (p.store.gateways g).ShowOf cell k → (s.gateways g).ShowOf cell k := by
            obtain ⟨closedShows, heq⟩ := gateways_environ hs g
            intro cell hcell
            rw [heq]
            exact hcell
          rcases Pool.runs_start hr with ⟨-, hnew⟩ | hold
          · refine hmono hshow ?_
            cases started_of_environ hs _ _ hnew with
            | @actor _ cell x hcell rounds =>
                refine Prog.Issues.bind (p := runShowActor g x.showtimeId cell rounds) ?_
                  fun _ => trivial
                refine (recvs_runShowActor g x.showtimeId cell rounds).mono fun c hc g' cell' heq => ?_
                obtain ⟨rfl, rfl⟩ := hc g' cell' heq
                exact ⟨rfl, x, hcell, rfl⟩
          · exact hmono hshow (ih hold)
      | run j l =>
          obtain ⟨n, c, f, s, r, hj, hs, rfl⟩ := Machine.step_run hst
          have hshow : ∀ cell, (p.store.gateways g).ShowOf cell k → (s.gateways g).ShowOf cell k :=
            fun cell hcell => (carries_exec (i := j) (l := l) hs g).shows cell k hcell
          rcases Pool.runs_set hr with ⟨rfl, rfl, heq⟩ | ⟨-, hold⟩
          · obtain rfl := Option.some.inj heq
            exact hmono hshow ((ih hj).2 r)
          · exact hmono hshow (ih hold)
      | crash j =>
          obtain ⟨n, c, f, hj, rfl⟩ := Machine.step_crash hst
          rcases Pool.runs_set hr with ⟨-, -, heq⟩ | ⟨-, hold⟩
          · cases heq
          · exact ih hold

/-- The ticket is a lock request's, for the show, in the replica. -/
def Asks (p : HandoverPool) (ticket g : ℕ) (k : ℤ) : Prop :=
  ∃ u seats, p.task ticket = some (.lock g u k seats)

/-- A request waits for its answer while its task is on its way, and only if it has sent it. -/
def Awaits (place : ℕ → Place) (stages : ℕ → HandoverStage) : Prop :=
  ∀ i, ((stages i).awaits = true ∧ place i ≠ .unsent) ∨
    ((stages i).awaits = false ∧ (place i = .unsent ∨ ∃ g a, place i = .answered g a))

/-- Lock tasks are in queues of the shows that they were sent for, and each is in one place. -/
structure Routed (p : HandoverPool) : Prop where
  cells : ∀ i g u k seats cell, p.task i = some (.lock g u k seats) →
    (p.store.2 i).cell = some cell → (p.store.1.gateways g).ShowOf cell k
  tasks : ∀ g k ticket u seats, (p.store.1.gateways g).HasTask k (.lock ticket u seats) →
    Asks p ticket g k
  serving : ∀ j g k ticket u seats, p.task j = some (.actor g k) →
    (p.store.2 j).serving = some (.lock ticket u seats) → Asks p ticket g k
  placed : ∃ place, Placed place p.store.1.gateways p.store.2 ∧ Awaits place p.store.2

section Routed

variable {p : HandoverPool} {s : World × (ℕ → HandoverStage)} {i : ℕ} {l : Link} {n : Task} {c : Cmd}
variable {k : Rep c → Service Result} {r : Rep c}

theorem sent_next (b : HandoverStage) (hc : ¬Passes c) :
    (handoverNext n b c r).sent = b.sent ∧ (handoverNext n b c r).serving = b.serving := by
  have hwon : ∀ (k : Redis.Cmd) (r : Redis.Rep k),
      (b.acquire k r).sent = b.sent ∧ (b.acquire k r).serving = b.serving := by
    intro k r
    obtain ⟨l, heq⟩ := b.acquire_eq k r
    rw [heq]
    exact ⟨rfl, rfl⟩
  cases c with
  | trySend | send | recv | answer => exact absurd trivial hc
  | registerSeat =>
      match r with
      | .ok index => exact ⟨rfl, rfl⟩
      | .error e => exact ⟨rfl, rfl⟩
  | awaitAnswer =>
      show HandoverStage.sent (if b.awaits = true then { b with
        held := comeBack n r, awaits := false } else b) = _ ∧
          HandoverStage.serving (if b.awaits = true then { b with
            held := comeBack n r, awaits := false } else b) = _
      split_ifs <;> exact ⟨rfl, rfl⟩
  | service c =>
      cases c with
      | redis k =>
          cases n with
          | actor => exact hwon k r
          | _ => exact ⟨rfl, rfl⟩
      | _ => exact ⟨rfl, rfl⟩
  | _ => exact ⟨rfl, rfl⟩

/-- Requests wait from the sending of their tasks to the answer. -/
theorem awaits_next (b : HandoverStage) (hc : ¬Passes c)
    (hawait : ∀ g, c ≠ .awaitAnswer g) : (handoverNext n b c r).awaits = b.awaits := by
  cases c with
  | trySend | send => exact absurd trivial hc
  | awaitAnswer => exact absurd rfl (hawait _)
  | registerSeat =>
      match r with
      | .ok index => rfl
      | .error e => rfl
  | service c =>
      cases c with
      | redis k =>
          cases n with
          | actor =>
              obtain ⟨l, heq⟩ := b.acquire_eq k r
              have hawaits := congrArg HandoverStage.awaits heq
              exact hawaits
          | _ => rfl
      | _ => rfl
  | _ => rfl

/-- A request keeps the cell that it was given. -/
theorem cell_next (b : HandoverStage) (hcell : ∀ g k, c ≠ .actorCell g k) :
    (handoverNext n b c r).cell = b.cell := by
  cases c with
  | actorCell => exact absurd rfl (hcell _ _)
  | registerSeat =>
      match r with
      | .ok index => rfl
      | .error e => rfl
  | trySend =>
      show HandoverStage.cell (if (r : Bool) = true then _ else _) = _
      split_ifs <;> rfl
  | awaitAnswer =>
      show HandoverStage.cell (if b.awaits = true then { b with
        held := comeBack n r, awaits := false } else b) = _
      split_ifs <;> rfl
  | service c =>
      cases c with
      | redis k =>
          cases n with
          | actor =>
              obtain ⟨l, heq⟩ := b.acquire_eq k r
              have hsame := congrArg HandoverStage.cell heq
              exact hsame
          | _ => rfl
      | _ => rfl
  | _ => rfl

theorem serving_next (b : HandoverStage) (hrecv : ∀ g cell, c ≠ .recv g cell) :
    (handoverNext n b c r).serving = b.serving ∨ (handoverNext n b c r).serving = none := by
  by_cases hpasses : Passes c
  · cases c with
    | recv => exact absurd rfl (hrecv _ _)
    | answer => exact .inr rfl
    | trySend =>
        refine .inl ?_
        show HandoverStage.serving (if (r : Bool) = true then _ else _) = _
        split_ifs <;> rfl
    | send => exact .inl rfl
    | _ => exact absurd hpasses id
  · exact .inl (sent_next b hpasses).2

/-- An answer that a request gets is the one to its task. -/
theorem answer_of_await {place : ℕ → Place} (h : Placed place p.store.1.gateways p.store.2) {g : ℕ}
    {a : Answer} {t : World} (hexec : exec i l (.awaitAnswer g) p.store.1 = some (t, a)) :
    t = p.store.1 ∧ place i = .answered g a ∧
      (p.store.1.gateways g).answers.find? (fun x => decide (x.1 = i)) = some (i, a) := by
  simp only [exec] at hexec
  split at hexec
  · cases hexec
  · next x hx =>
    obtain ⟨rfl, rfl⟩ := Prod.mk.inj (Option.some.inj hexec)
    have hticket : x.1 = i := by simpa using List.find?_some hx
    subst hticket
    exact ⟨rfl, h.answered g x.1 x.2 (List.mem_of_find?_eq_some hx), hx⟩

/-- A request whose task moves on still waits. -/
theorem Awaits.move {place : ℕ → Place} {stages stages' : ℕ → HandoverStage}
    (h : Awaits place stages) {ticket : ℕ} {x : Place}
    (hsame : ∀ j, (stages' j).awaits = (stages j).awaits) (hsent : place ticket ≠ .unsent)
    (hanswered : ∀ g a, place ticket ≠ .answered g a) (hx : x ≠ .unsent) :
    Awaits (Function.update place ticket x) stages' := by
  intro j
  rw [hsame]
  by_cases hj : j = ticket
  · subst hj
    rw [Function.update_self]
    rcases h j with ⟨hawaits, -⟩ | ⟨-, hnone | ⟨g, a, hplace⟩⟩
    · exact .inl ⟨hawaits, hx⟩
    · exact absurd hnone hsent
    · exact absurd hplace (hanswered g a)
  · rw [Function.update_of_ne hj]
    exact h j

/-- Tasks are passed on one at a time. -/
theorem placed_run {G : HandoverPool → Act Link Environ → Prop}
    (hp : handover.system.ReachableUnder G p) (hr : p.Runs i n (.call c k))
    (hs : handover.exec n i l c p.store = some (s, r)) {place : ℕ → Place}
    (h : Placed place p.store.1.gateways p.store.2) (hawaits : Awaits place p.store.2) :
    ∃ place', Placed place' s.1.gateways s.2 ∧ Awaits place' s.2 := by
  obtain ⟨hrun, hstages⟩ := Machine.staged_exec.1 hs
  have hrun : exec i l c p.store.1 = some (s.1, r) := hrun
  have hmay := (handover_follows hp hr).1
  have hself : s.2 i = handoverNext n (p.store.2 i) c r := by
    rw [hstages, Function.update_self]
  have hstage : ∀ j, j ≠ i → s.2 j = p.store.2 j := fun j hne => by
    rw [hstages, Function.update_of_ne hne]
  have hforall : ∀ {β : Type} (f : HandoverStage → β),
      f (handoverNext n (p.store.2 i) c r) = f (p.store.2 i) → ∀ j, f (s.2 j) = f (p.store.2 j) := by
    intro β f hf j
    by_cases hji : j = i
    · subst hji
      rw [hself, hf]
    · rw [hstage j hji]
  -- a request that has sent its task waits for the answer
  have hsends : ∀ {g cell : ℕ}, (s.2 i).awaits = true →
      Awaits (Function.update place i (.queued g cell)) s.2 := by
    intro g cell hnow j
    by_cases hji : j = i
    · subst hji
      rw [Function.update_self]
      exact .inl ⟨hnow, by simp⟩
    · rw [Function.update_of_ne hji, hstage j hji]
      exact hawaits j
  by_cases hpasses : Passes c
  · cases c with
    | trySend g cell u seats =>
        obtain ⟨k', asked, rfl, -, hsent, hnot, -⟩ := hmay
        obtain ⟨a, ha, ⟨rfl, ht⟩ | ⟨rfl, ht⟩⟩ := enqueue_exec hrun
        · exact ⟨Function.update place i (.queued g cell), h.enqueue (.lock i u seats)
            hsent rfl ha (congrArg World.gateways ht) (fun j hji => by rw [hstage j hji])
            (by rw [hself]; rfl) (hforall HandoverStage.serving rfl), hsends (by rw [hself]; rfl)⟩
        · -- the queue is full, and the task is nowhere
          refine ⟨place, ?_, fun j => ?_⟩
          · have hqueues : ∀ g', State.SameQueues (p.store.1.gateways g') (s.1.gateways g') := by
              intro g'
              rw [ht]
              exact World.sameQueues_setGateway (State.sameQueues_setActor ha rfl) g'
            have hserving := hforall HandoverStage.serving rfl
            have hsame : Placed place s.1.gateways p.store.2 :=
              h.same hqueues (fun _ => rfl) fun _ => rfl
            refine ⟨fun j => ?_, hsame.once, fun j hj => ?_, hsame.nodup, hsame.queued,
              fun j task hj => h.served j task ((hserving j).symm.trans hj), hsame.answered⟩
            · have hfound := hsame.found j
              cases hplace : place j with
              | served j' =>
                  rw [hplace] at hfound
                  show (s.2 j').serving.map _ = _
                  rw [hserving]
                  exact hfound
              | _ =>
                  rw [hplace] at hfound
                  exact hfound
            · by_cases hji : j = i
              · subst hji
                rw [hself] at hj
                cases hj
              · rw [hstage j hji] at hj
                exact h.unsent j hj
          · have hsame : (s.2 j).awaits = (p.store.2 j).awaits := hforall HandoverStage.awaits rfl j
            rw [hsame]
            exact hawaits j
    | send g cell u seats =>
        obtain ⟨hsent, hn⟩ := hmay
        simp only [exec] at hrun
        split at hrun
        · next t hu =>
          obtain ⟨rfl, -⟩ := Prod.mk.inj (Option.some.inj hrun)
          obtain ⟨a, ha, ⟨-, ht⟩ | ⟨hfalse, -⟩⟩ := enqueue_exec hu
          · exact ⟨Function.update place i (.queued g cell), h.enqueue
              (.cancel i u seats) hsent rfl ha (congrArg World.gateways ht)
              (fun j hji => by rw [hstage j hji]) (by rw [hself]; rfl)
              (hforall HandoverStage.serving rfl), hsends (by rw [hself]; rfl)⟩
          · cases hfalse
        · cases hrun
    | recv g cell =>
        obtain ⟨-, -, hidle⟩ := hmay
        obtain ⟨a, tasks, ha, hqueue, ht⟩ := recv_exec hrun
        have hfirst : place r.ticket = .queued g cell :=
          h.queued g cell a ha r (by rw [hqueue]; exact List.mem_cons_self)
        refine ⟨Function.update place r.ticket (.served i), h.recv ha hqueue
          (congrArg World.gateways ht) (hforall HandoverStage.sent rfl)
          (fun j hji => by rw [hstage j hji]) hidle (by rw [hself]; rfl),
          hawaits.move (hforall HandoverStage.awaits rfl) ?_ ?_ (by simp)⟩
        · rw [hfirst]
          simp
        · rw [hfirst]
          simp
    | answer g ticket b =>
        obtain ⟨k', task, rfl, hserving, rfl, -⟩ := hmay
        have hserved := h.served i task hserving
        obtain ⟨ht, -⟩ := Prod.mk.inj (Option.some.inj hrun)
        refine ⟨Function.update place task.ticket (.answered g b), h.answer hserving
          (congrArg World.gateways ht.symm) (hforall HandoverStage.sent rfl)
          (fun j hji => by rw [hstage j hji]) (by rw [hself]; rfl),
          hawaits.move (hforall HandoverStage.awaits rfl) ?_ ?_ (by simp)⟩
        · rw [hserved]
          simp
        · rw [hserved]
          simp
    | _ => exact absurd hpasses id
  · obtain ⟨hsent, hserving⟩ := sent_next (n := n) (r := r) (p.store.2 i) hpasses
    refine ⟨place, h.same (sameQueues_exec hrun hpasses) (hforall HandoverStage.sent hsent)
      (hforall HandoverStage.serving hserving), fun j => ?_⟩
    by_cases hawait : j = i ∧ ∃ g, c = .awaitAnswer g
    · obtain ⟨rfl, g', rfl⟩ := hawait
      have hplace := (answer_of_await h hrun).2.1
      refine .inr ⟨?_, .inr ⟨g', r, hplace⟩⟩
      rw [hself]
      show (if (p.store.2 j).awaits = true then _ else p.store.2 j).awaits = false
      rw [if_pos hmay.1]
    · have hsame : (s.2 j).awaits = (p.store.2 j).awaits := by
        by_cases hji : j = i
        · subst hji
          rw [hself]
          exact awaits_next _ hpasses fun g heq => hawait ⟨rfl, g, heq⟩
        · rw [hstage j hji]
      rw [hsame]
      exact hawaits j

theorem Asks.mono {q : HandoverPool} {ticket g : ℕ} {k : ℤ} (h : Asks p ticket g k)
    (htask : ∀ m, p.task ticket = some m → q.task ticket = some m) : Asks q ticket g k := by
  obtain ⟨u, seats, hseats⟩ := h
  exact ⟨u, seats, htask _ hseats⟩

theorem routed_run {G : HandoverPool → Act Link Environ → Prop}
    (hp : handover.system.ReachableUnder G p) (hI : Routed p) (hr : p.Runs i n (.call c k))
    (hs : handover.exec n i l c p.store = some (s, r)) :
    Routed ⟨s, p.threads.set i ⟨n, some (k r)⟩⟩ := by
  obtain ⟨hrun, hstages⟩ := Machine.staged_exec.1 hs
  have hrun : exec i l c p.store.1 = some (s.1, r) := hrun
  have hmay := (handover_follows hp hr).1
  have hself : s.2 i = handoverNext n (p.store.2 i) c r := by
    rw [hstages, Function.update_self]
  have hstage : ∀ j, j ≠ i → s.2 j = p.store.2 j := fun j hne => by
    rw [hstages, Function.update_of_ne hne]
  have hcarries := carries_exec hrun
  have htask : ∀ j, Pool.task ⟨s, p.threads.set i ⟨n, some (k r)⟩⟩ j = p.task j :=
    fun j => Pool.task_set (Pool.Runs.task hr)
  have hasks : ∀ {ticket g : ℕ} {k' : ℤ}, Asks p ticket g k' →
      Asks ⟨s, p.threads.set i ⟨n, some (k r)⟩⟩ ticket g k' :=
    fun h => h.mono fun m hm => (htask _).trans hm
  refine ⟨fun j g u k' seats cell hj hcell => ?_, fun g k' ticket u seats h => ?_,
    fun j g k' ticket u seats hj hserving => ?_, ?_⟩
  · rw [htask] at hj
    have hold : (p.store.2 j).cell = some cell → (s.1.gateways g).ShowOf cell k' :=
      fun h => (hcarries g).shows cell k' (hI.cells j g u k' seats cell hj h)
    have hcell : (s.2 j).cell = some cell := hcell
    by_cases hji : j = i
    · subst hji
      obtain rfl : n = .lock g u k' seats := Option.some.inj ((Pool.Runs.task hr).symm.trans hj)
      rw [hself] at hcell
      by_cases hcmd : ∃ g' k₀, c = .actorCell g' k₀
      · obtain ⟨g', k₀, rfl⟩ := hcmd
        obtain ⟨rfl, rfl, -⟩ := hmay g u k' seats rfl
        obtain rfl : r = cell := Option.some.inj hcell
        have hrun := Option.some.inj hrun
        have hgate := congrArg (fun x => World.gateways x.1 g) hrun
        have hreply := congrArg Prod.snd hrun
        dsimp only [World.onGateway, World.setGateway] at hgate hreply
        rw [Redis.setAt_self] at hgate
        rw [← hgate, ← hreply]
        exact State.showOf_actorCell
          (((listens_reachable (handover_machine hp)).registered g).shows k')
      · refine hold ?_
        rwa [cell_next _ fun g' k₀ heq => hcmd ⟨g', k₀, heq⟩] at hcell
    · rw [hstage j hji] at hcell
      exact hold hcell
  · rcases (hcarries g).tasks k' _ h with hold | ⟨cell, u', seats', hshow, hsend | hsend⟩
    · exact hasks (hI.tasks g k' ticket u seats hold)
    · obtain ⟨rfl, htk⟩ := hsend
      obtain ⟨rfl, rfl, rfl⟩ := GatewayTask.lock.inj htk
      obtain ⟨k₀, asked, rfl, hcell, -⟩ := hmay
      obtain rfl := (hI.cells ticket g u k₀ asked cell (Pool.Runs.task hr) hcell).unique hshow
      exact ⟨u, asked, (htask ticket).trans (Pool.Runs.task hr)⟩
    · cases hsend.2
  · rw [htask] at hj
    have hserving : (s.2 j).serving = some (.lock ticket u seats) := hserving
    refine hasks ?_
    by_cases hji : j = i
    · subst hji
      obtain rfl : n = .actor g k' := Option.some.inj ((Pool.Runs.task hr).symm.trans hj)
      rw [hself] at hserving
      by_cases hcmd : ∃ g' cell, c = .recv g' cell
      · obtain ⟨g', cell, rfl⟩ := hcmd
        obtain ⟨rfl, hshow⟩ := (recvs_reachable (handover_machine hp) hr).1 g' cell rfl
        obtain rfl : r = .lock ticket u seats := Option.some.inj hserving
        exact hI.tasks g' k' ticket u seats (hasTask_of_recv (i := j) (l := l) hrun hshow)
      · refine hI.serving j g k' ticket u seats hj ?_
        rcases serving_next (p.store.2 j) (fun g' cell heq => hcmd ⟨g', cell, heq⟩) with heq | hnone
        · rwa [heq] at hserving
        · rw [hnone] at hserving
          cases hserving
    · rw [hstage j hji] at hserving
      exact hI.serving j g k' ticket u seats hj hserving
  · obtain ⟨place, hplaced, hawaits⟩ := hI.placed
    exact placed_run hp hr hs hplaced hawaits

theorem routed_environ {G : HandoverPool → Act Link Environ → Prop}
    (hp : handover.system.ReachableUnder G p) (hI : Routed p) {x : Environ}
    {ts : List (Task × Service Result)} (hs : handover.environ x p.store = some (s, ts)) :
    Routed ⟨s, p.threads ++ Machine.start ts⟩ := by
  obtain ⟨henv, hstages⟩ := Machine.staged_environ.1 hs
  have henv : environ x p.store.1 = some (s.1, ts) := henv
  have hcells : ∀ g, (s.1.gateways g).cells = (p.store.1.gateways g).cells ∧
      (s.1.gateways g).answers = (p.store.1.gateways g).answers := by
    intro g
    obtain ⟨closedShows, heq⟩ := gateways_environ henv g
    rw [heq]
    exact ⟨rfl, rfl⟩
  -- a session that has just been started has no cell, serves no task, and waits for nothing
  have hold : ∀ {j : ℕ} {m : Task}, Pool.task ⟨s, p.threads ++ Machine.start ts⟩ j = some m →
      p.task j = some m ∧ s.2 j = p.store.2 j ∨ s.2 j = .start := by
    intro j m hj
    rcases Pool.task_of_append hj with htask | hlen
    · exact .inl ⟨htask, congrFun hstages j⟩
    · exact .inr ((congrFun hstages j).trans (Machine.unstarted_of_reachable hp j hlen))
  have hasks : ∀ {ticket g : ℕ} {k : ℤ}, Asks p ticket g k →
      Asks ⟨s, p.threads ++ Machine.start ts⟩ ticket g k :=
    fun h => h.mono fun m hm => Pool.task_append hm
  refine ⟨fun j g u k seats cell hj hcell => ?_, fun g k ticket u seats h => ?_,
    fun j g k ticket u seats hj hserving => ?_, ?_⟩
  · have hcell : (s.2 j).cell = some cell := hcell
    unfold State.ShowOf
    rw [(hcells g).1]
    rcases hold hj with ⟨htask, hstage⟩ | hstart
    · rw [hstage] at hcell
      exact hI.cells j g u k seats cell htask hcell
    · rw [hstart] at hcell
      cases hcell
  · refine hasks (hI.tasks g k ticket u seats ?_)
    unfold State.HasTask at h ⊢
    rwa [(hcells g).1] at h
  · have hserving : (s.2 j).serving = some (.lock ticket u seats) := hserving
    rcases hold hj with ⟨htask, hstage⟩ | hstart
    · rw [hstage] at hserving
      exact hasks (hI.serving j g k ticket u seats htask hserving)
    · rw [hstart] at hserving
      cases hserving
  · obtain ⟨place, hplaced, hawaits⟩ := hI.placed
    refine ⟨place, ?_, fun j => ?_⟩
    · exact hplaced.same (fun g => State.sameQueues_of_cells (hcells g).1 (hcells g).2)
        (fun j => by rw [hstages]) fun j => by rw [hstages]
    · rw [hstages]
      exact hawaits j

theorem routed_crash (hI : Routed p) (hr : p.Runs i n (.call c k)) :
    Routed ⟨handover.close i p.store, p.threads.set i ⟨n, none⟩⟩ := by
  have htask : ∀ j, Pool.task ⟨handover.close i p.store, p.threads.set i ⟨n, none⟩⟩ j = p.task j :=
    fun j => Pool.task_set (Pool.Runs.task hr)
  have hasks : ∀ {ticket g : ℕ} {k' : ℤ}, Asks p ticket g k' →
      Asks ⟨handover.close i p.store, p.threads.set i ⟨n, none⟩⟩ ticket g k' :=
    fun h => h.mono fun m hm => (htask _).trans hm
  refine ⟨fun j g u k' seats cell hj => ?_,
    fun g k' ticket u seats h => hasks (hI.tasks g k' ticket u seats h),
    fun j g k' ticket u seats hj hserving => ?_, ?_⟩
  · rw [htask] at hj
    exact hI.cells j g u k' seats cell hj
  · rw [htask] at hj
    exact hasks (hI.serving j g k' ticket u seats hj hserving)
  · exact hI.placed

theorem routed_reachable {G : HandoverPool → Act Link Environ → Prop}
    (h : handover.system.ReachableUnder G p) : Routed p := by
  induction h with
  | @init p h0 =>
      obtain ⟨⟨⟨seats, hstore⟩, hstages⟩, hthreads⟩ := h0
      have htask : ∀ j, p.task j = none := fun j => by
        unfold Pool.task
        rw [hthreads]
        rfl
      have hgate : ∀ g, p.store.1.gateways g = .new := fun g => by rw [hstore]; rfl
      refine ⟨fun j g u k seats cell hj => ?_, fun g k ticket u seats h => ?_,
        fun j g k ticket u seats hj => ?_, fun _ => .unsent,
        ⟨fun _ => trivial, fun g => ?_, fun _ _ => rfl, fun g cell a ha => ?_,
          fun g cell a ha => ?_, fun j task hj => ?_, fun g j a ha => ?_⟩, fun j => ?_⟩
      · rw [htask] at hj
        cases hj
      · obtain ⟨cell, x, a, hx, -⟩ := h
        rw [hgate] at hx
        cases hx
      · rw [htask] at hj
        cases hj
      · rw [hgate]
        exact List.nodup_nil
      · rw [hgate] at ha
        cases ha
      · rw [hgate] at ha
        cases ha
      · rw [hstages] at hj
        cases hj
      · rw [hgate] at ha
        cases ha
      · refine .inr ⟨?_, .inl rfl⟩
        rw [hstages]
        rfl
  | @step p q a hp hG hst ih =>
      have hst : handover.step p a = some q := hst
      cases a with
      | environ x =>
          obtain ⟨s, ts, hs, rfl⟩ := Machine.step_environ hst
          exact routed_environ hp ih hs
      | run i l =>
          obtain ⟨n, c, k, s, r, hr, hs, rfl⟩ := Machine.step_run hst
          exact routed_run hp ih hr hs
      | crash i =>
          obtain ⟨n, c, k, hr, rfl⟩ := Machine.step_crash hst
          exact routed_crash ih hr

end Routed

/-! ## Conservation -/

/-- A spot in a queue, an actor, and a spot among the answers. -/
inductive Spot where
  | queue (g cell m : ℕ)
  | actor (session : ℕ)
  | answer (g m : ℕ)
  deriving DecidableEq

/-- The task of the request, or the answer to it, is in the spot. -/
def TaskAt (p : HandoverPool) (i : ℕ) : Spot → Prop
  | .queue g cell m => ∃ a ∈ (p.store.1.gateways g).actor cell,
      (a.queue.map GatewayTask.ticket)[m]? = some i
  | .actor j => (p.store.2 j).serving.map GatewayTask.ticket = some i
  | .answer g m => ((p.store.1.gateways g).answers.map Prod.fst)[m]? = some i

instance {p : HandoverPool} {i : ℕ} {x : Spot} : Decidable (TaskAt p i x) := by
  unfold TaskAt
  split <;> infer_instance

section TaskAt

variable {p : HandoverPool} {i : ℕ} {place : ℕ → Place}

/-- What is said of the task that is in a spot. -/
theorem Placed.of_taskAt (h : Placed place p.store.1.gateways p.store.2) :
    ∀ {x : Spot}, TaskAt p i x →
      (∃ g cell m, x = .queue g cell m ∧ place i = .queued g cell) ∨
        (∃ j, x = .actor j ∧ place i = .served j) ∨
          ∃ g m a, x = .answer g m ∧ place i = .answered g a := by
  intro x hx
  cases x with
  | queue g cell m =>
      obtain ⟨a, ha, hm⟩ := hx
      obtain ⟨task, htask, rfl⟩ := List.mem_map.1 (List.mem_of_getElem? hm)
      exact .inl ⟨g, cell, m, rfl, h.queued g cell a ha task htask⟩
  | actor j =>
      obtain ⟨task, htask, rfl⟩ := Option.map_eq_some_iff.1 hx
      exact .inr (.inl ⟨j, rfl, h.served j task htask⟩)
  | answer g m =>
      obtain ⟨⟨j, a⟩, hmem, rfl⟩ := List.mem_map.1 (List.mem_of_getElem? hx)
      exact .inr (.inr ⟨g, m, a, rfl, h.answered g j a hmem⟩)

theorem Placed.unique (h : Placed place p.store.1.gateways p.store.2) {x y : Spot}
    (hx : TaskAt p i x) (hy : TaskAt p i y) : x = y := by
  have hspot : ∀ {l : List ℕ} {m m' : ℕ}, l.Nodup → l[m]? = some i → l[m']? = some i → m = m' := by
    intro l m m' hnodup hm hm'
    obtain ⟨hlt, hm⟩ := List.getElem?_eq_some_iff.1 hm
    obtain ⟨hlt', hm'⟩ := List.getElem?_eq_some_iff.1 hm'
    exact hnodup.getElem_inj_iff.1 (hm.trans hm'.symm)
  rcases h.of_taskAt hx with ⟨g, cell, m, rfl, hplace⟩ | ⟨j, rfl, hplace⟩ | ⟨g, m, a, rfl, hplace⟩
  · rcases h.of_taskAt hy with ⟨g', c, m', rfl, hplace'⟩ | ⟨j, rfl, hplace'⟩ | ⟨g', m', b, rfl, hplace'⟩
    · obtain ⟨rfl, rfl⟩ := Place.queued.inj (hplace.symm.trans hplace')
      obtain ⟨a, ha, hm⟩ := hx
      obtain ⟨a', ha', hm'⟩ := hy
      obtain rfl := Option.mem_unique ha ha'
      rw [hspot (h.nodup g cell a ha) hm hm']
    · cases hplace.symm.trans hplace'
    · cases hplace.symm.trans hplace'
  · rcases h.of_taskAt hy with ⟨g', c, m', rfl, hplace'⟩ | ⟨j', rfl, hplace'⟩ | ⟨g', m', b, rfl, hplace'⟩
    · cases hplace.symm.trans hplace'
    · rw [Place.served.inj (hplace.symm.trans hplace')]
    · cases hplace.symm.trans hplace'
  · rcases h.of_taskAt hy with ⟨g', c, m', rfl, hplace'⟩ | ⟨j', rfl, hplace'⟩ | ⟨g', m', b, rfl, hplace'⟩
    · cases hplace.symm.trans hplace'
    · cases hplace.symm.trans hplace'
    · obtain ⟨rfl, rfl⟩ := Place.answered.inj (hplace.symm.trans hplace')
      have hm : ((p.store.1.gateways g).answers.map Prod.fst)[m]? = some i := hx
      rw [hspot (h.once g) hm hy]

/-- A request that waits has its task or the answer to it somewhere. -/
theorem Placed.exists_spot (h : Placed place p.store.1.gateways p.store.2)
    (hsent : place i ≠ .unsent) : ∃ x, TaskAt p i x := by
  have hfound := h.found i
  cases hplace : place i with
  | unsent => exact absurd hplace hsent
  | queued g cell =>
      rw [hplace] at hfound
      obtain ⟨a, ha, hmem⟩ := hfound
      obtain ⟨m, hm⟩ := List.mem_iff_getElem?.1 hmem
      exact ⟨.queue g cell m, a, ha, hm⟩
  | served j =>
      rw [hplace] at hfound
      exact ⟨.actor j, hfound⟩
  | answered g a =>
      rw [hplace] at hfound
      have hmem : i ∈ (p.store.1.gateways g).answers.map Prod.fst := List.mem_map_of_mem hfound
      obtain ⟨m, hm⟩ := List.mem_iff_getElem?.1 hmem
      exact ⟨.answer g m, hm⟩

end TaskAt

/-- The task of a request is never in two spots, and as long as the request waits it is in one. -/
theorem task_in_one_spot {p : HandoverPool} (h : handover.system.Reachable p) (i : ℕ) :
    (∀ x y, TaskAt p i x → TaskAt p i y → x = y) ∧
      ∀ n g k, p.Runs i n (.call (.awaitAnswer g) k) → ∃ x, TaskAt p i x := by
  obtain ⟨place, hplaced, hawaits⟩ := (routed_reachable h).placed
  refine ⟨fun x y hx hy => hplaced.unique hx hy, fun n g k hr => hplaced.exists_spot ?_⟩
  obtain ⟨hwaits, -⟩ := (handover_follows h hr).1
  rcases hawaits i with ⟨-, hsent⟩ | ⟨hidle, -⟩
  · exact hsent
  · rw [hwaits] at hidle
    cases hidle

/-- The task of a request that waits is in the queue, at the actor, and then answered. -/
theorem task_in_one_spot_served :
    ∃ p, handover.system.Reachable p ∧ TaskAt p 0 (.actor 1) ∧
      ∀ x, TaskAt p 0 x → x = .actor 1 := by
  obtain ⟨p, hp, hend⟩ := System.exists_reachable_of_run handover.system
    (fun p => decide (TaskAt p 0 (.actor 1)))
    (s := ⟨(newWorld Payments.oneSeat, fun _ => .start), []⟩) ⟨⟨⟨_, rfl⟩, rfl⟩, rfl⟩
    (.environ (.lock 0 42 1 [1] [1] 10) :: steps 0 11 ++ .environ (.actor 0 0 1) :: steps 1 1)
    (by decide +kernel)
  have hspot := of_decide_eq_true hend
  exact ⟨p, hp, hspot, fun x hx => (task_in_one_spot hp 0).1 x (.actor 1) hx hspot⟩

end Gateway
end Bookit

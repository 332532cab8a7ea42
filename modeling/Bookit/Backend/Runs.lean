import Bookit.Backend.Server

/-!
# Backend.Runs — a run of the backend is a sequence of turns

The threads that the environment starts meet the contract of the services, and so does the
environment itself; from the rely–guarantee rule, every step of a run is a turn.  In the runs guarded
by `NothingLost` and `NothingDropped` the last copy of a message leaves the queue only when it is
finished.
-/

namespace Bookit
namespace Backend

open Lib Payments

/-- A message expires only when it can go, and goes with the broker only when it is done. -/
def NothingDropped (x : Environ) (s : Store) : Prop :=
  match x with
  | .expire n => Spare n s
  | .restart => ∀ n ∈ s.queue, Done n s
  | _ => True

/-- Runs in which, where `X` holds, no message is lost. -/
abbrev Guard (X : Prop) (encode : OutboxRow → Json) : BackendPool → Act Outcome Environ → Prop :=
  Machine.Guarded (turns X encode).allowed fun x s => X → NothingDropped x s

/-- The threads of the services ensure no more than the steps they take. -/
abbrev Served (X : Prop) (encode : OutboxRow → Json) (p : BackendPool) : Prop :=
  (machine encode).Fulfils (turns X encode) (fun _ _ _ _ => True) p

section Runs

variable {X : Prop} {encode : OutboxRow → Json} {n : Unit} {i : ℕ} {s t : Store}

/-! ## Threads -/

/-- A program whose result is of no account. -/
theorem ensures_task {β : Type} {p : Service β}
    (h : (turns X encode).Ensures (exec encode) n i (fun _ _ => True) p s) :
    (turns X encode).Ensures (exec encode) n i (fun _ _ => True)
      (p >>= fun _ => pure ()) s :=
  .bind (h.weaken fun _ _ _ => .ret fun _ _ _ => trivial)

theorem meets_redis (p : SingleNodeLock.Op Bool) :
    Meets X encode n i (fun _ _ => True) (onRedis p) s :=
  meets_quiet (issues_onRedis (fun _ => trivial) p)

/-- A session that has not started has no open transaction. -/
theorem own_of_unstarted (h : (machine encode).Unstarted (turns X encode) i s) :
    own s.pg i = [] := by
  obtain ⟨s₀, ⟨seats, -, rfl⟩, hrely⟩ := h
  exact hrely.1.trans rfl

/-- What leaves the queue with a step of the environment is finished. -/
theorem queue_of_environ {x : Environ} {new : List (Unit × Service Unit)}
    (h : environ x s = some (t, new)) (hkept : NothingDropped x s) :
    ∀ n ∈ s.queue, n ∈ t.queue ∨ Finished n s := by
  intro n hn
  cases x with
  | deliver k orderId mockMode =>
      simp only [environ] at h
      split at h
      · obtain ⟨rfl, -⟩ := Prod.mk.inj (Option.some.inj h)
        exact .inl hn
      · obtain ⟨rfl, -⟩ := Prod.mk.inj (Option.some.inj h)
        exact .inl hn
      · cases h
  | expire k =>
      simp only [environ] at h
      split_ifs at h
      obtain ⟨rfl, -⟩ := Prod.mk.inj (Option.some.inj h)
      rcases eq_or_ne n k with rfl | hne
      · exact (show Spare n s from hkept).symm.imp_right .inl
      · exact .inl ((List.mem_erase_of_ne hne).2 hn)
  | restart =>
      exact .inr (.inl (hkept n hn))
  | _ =>
      obtain ⟨rfl, -⟩ := Prod.mk.inj (Option.some.inj h)
      exact .inl hn

theorem turn_of_environ {x : Environ} {new : List (Unit × Service Unit)}
    (h : environ x s = some (t, new)) (hkept : X → NothingDropped x s) : Turn X encode s t := by
  obtain ⟨hpg, hevents⟩ := pg_of_environ h
  exact .rest (hpg ▸ .refl _) (.refl hevents) fun hX => queue_of_environ h (hkept hX)

/-- The threads that the environment starts. -/
theorem ensures_started {x : Environ} {new : List (Unit × Service Unit)} (hs : Filed s)
    (h : environ x s = some (t, new)) (hown : own t.pg i = []) {p : Service Unit}
    (hp : (n, p) ∈ new) : (turns X encode).Ensures (exec encode) n i (fun _ _ => True) p t := by
  have hnone : new = [] → (turns X encode).Ensures (exec encode) n i (fun _ _ => True) p t := by
    rintro rfl
    exact absurd hp List.not_mem_nil
  have hstarted : ∀ {q : Service Unit}, new = [((), q)] →
      (turns X encode).Ensures (exec encode) n i (fun _ _ => True) q t →
      (turns X encode).Ensures (exec encode) n i (fun _ _ => True) p t := by
    rintro q rfl hq
    obtain ⟨-, rfl⟩ := Prod.mk.inj (List.mem_singleton.1 hp)
    exact hq
  cases x with
  | request provider userId request paymentRequestId =>
      obtain ⟨rfl, hnew⟩ := Prod.mk.inj (Option.some.inj h)
      exact hstarted hnew.symm (ensures_task (meets_requestPayment provider hown))
  | cancelOrder userId orderId idempotencyKey =>
      obtain ⟨rfl, hnew⟩ := Prod.mk.inj (Option.some.inj h)
      exact hstarted hnew.symm (ensures_task (meets_cancelOrder userId orderId idempotencyKey))
  | deliver k orderId mockMode =>
      simp only [environ] at h
      split at h
      · next message hrow =>
        obtain ⟨rfl, hnew⟩ := Prod.mk.inj (Option.some.inj h)
        have hknown : Known s.pg (.paymentRequested message) :=
          hs.known _ (List.mem_of_getElem? hrow)
        exact hstarted hnew.symm (settles_task (meets_processCheckout hrow hknown))
      · next message hrow =>
        obtain ⟨rfl, hnew⟩ := Prod.mk.inj (Option.some.inj h)
        exact hstarted hnew.symm (settles_task (meets_processCancellation mockMode hrow))
      · cases h
  | startServer ttl rounds =>
      obtain ⟨rfl, hnew⟩ := Prod.mk.inj (Option.some.inj h)
      exact hstarted hnew.symm (ensures_task serves_run)
  | onRedis q =>
      obtain ⟨rfl, hnew⟩ := Prod.mk.inj (Option.some.inj h)
      exact hstarted hnew.symm (ensures_task (meets_redis q))
  | expire k =>
      simp only [environ] at h
      split_ifs at h
      exact hnone (Prod.mk.inj (Option.some.inj h)).2.symm
  | tick d => exact hnone (Prod.mk.inj (Option.some.inj h)).2.symm
  | tickRedis d => exact hnone (Prod.mk.inj (Option.some.inj h)).2.symm
  | restart => exact hnone (Prod.mk.inj (Option.some.inj h)).2.symm

/-! ## Runs -/

/-- A session that is lost takes its transaction with it. -/
theorem turn_of_close (i : ℕ) : Turn X encode s ((machine encode).close i s) :=
  .rest (rest_rollback s.pg i) (.refl rfl) fun _ _ hn => .inl hn

theorem served_of_reachable {p : BackendPool}
    (h : (machine encode).system.ReachableUnder (Guard X encode) p) : Served X encode p := by
  refine Machine.ensures_of_reachable ?_ ?_ ?_ h
  · rintro s ⟨seats, -, rfl⟩
    exact ⟨rfl, fun row hrow => absurd hrow List.not_mem_nil⟩
  · intro x s t new hs hkept hx
    have hturn : Turn X encode s t := turn_of_environ hx hkept
    obtain ⟨ht, hprogress⟩ := hturn.keeps hs
    refine ⟨ht, fun j => ⟨?_, hprogress⟩, fun i n p hp hunstarted => ?_⟩
    · rw [(pg_of_environ hx).1]
    · exact ensures_started hs hx (own_of_unstarted hunstarted) hp
  · intro i s hs
    have hturn : Turn X encode s ((machine encode).close i s) := turn_of_close i
    obtain ⟨ht, hprogress⟩ := hturn.keeps hs
    exact ⟨ht, fun j hj => ⟨own_others hj, hprogress⟩⟩

/-- Every step of a run is a turn. -/
theorem turn_of_step {p q : BackendPool} {a : Act Outcome Environ} (hp : Served X encode p)
    (hG : Guard X encode p a) (hst : (machine encode).step p a = some q) :
    Turn X encode p.store q.store := by
  cases a with
  | environ x =>
      obtain ⟨s, new, hs, rfl⟩ := Machine.step_environ hst
      exact turn_of_environ hs hG
  | run i e =>
      obtain ⟨n, c, k, -, hguar⟩ := hp.guar hG hst
      exact hguar
  | crash i =>
      obtain ⟨n, c, k, -, rfl⟩ := Machine.step_crash hst
      exact turn_of_close i

/-- What holds of an empty backend and is kept by every turn holds in every run. -/
theorem reachable_induction {I : Store → Prop} (hinit : ∀ seats, I (newStore seats))
    (hturn : ∀ s t, Base s.pg → Filed s → I s → Turn X encode s t → I t) {p : BackendPool}
    (h : (machine encode).system.ReachableUnder (Guard X encode) p) : I p.store := by
  induction h with
  | init h0 =>
      obtain ⟨⟨seats, -, hs⟩, -⟩ := h0
      rw [hs]
      exact hinit seats
  | step hp hG hst ih =>
      have hserved := served_of_reachable hp
      exact hturn _ _ (base_of_reachable hp.reachable) hserved.inv ih (turn_of_step hserved hG hst)

/-- Where no message matters, every step is guarded. -/
theorem guard_of_false (p : BackendPool) (a : Act Outcome Environ) : Guard False encode p a := by
  have hall : Machine.Guarded (turns False encode).allowed (fun _ _ => True) p a :=
    .of_forall fun _ _ _ _ _ hX => hX.elim
  exact hall.mono (fun _ _ _ _ _ h => h) fun _ _ _ hX => hX.elim

theorem guarded_of_reachable {p : BackendPool} (h : (machine encode).system.Reachable p) :
    (machine encode).system.ReachableUnder (Guard False encode) p :=
  h.mono fun p a _ => guard_of_false p a

/-- From any state of a run, what every turn keeps is kept. -/
theorem kept_of_startingAt {I : Store → Prop}
    (hturn : ∀ s t, Base s.pg → Filed s → I s → Turn False encode s t → I t) {p q : BackendPool}
    (hp : (machine encode).system.Reachable p) (hI : I p.store)
    (h : ((machine encode).system.startingAt p).Reachable q) : I q.store := by
  induction h with
  | init h0 =>
      obtain rfl := h0
      exact hI
  | @step q r a hq _ hst ih =>
      have hreach : (machine encode).system.Reachable q := System.ReachableUnder.of_startingAt hp hq
      have hserved := served_of_reachable (guarded_of_reachable hreach)
      have hturned := turn_of_step hserved (guard_of_false q a) hst
      exact hturn _ _ (base_of_reachable hreach) hserved.inv ih hturned

end Runs

/-! ## One buyer -/

/-- Payloads that nothing looks into. -/
def plain : OutboxRow → Json := fun _ => .null

/-- The steps of thread `i`, `n` times, without a failure. -/
def steps (i n : ℕ) : List (Act Outcome Environ) :=
  List.replicate n (.run i (.link .ok 0))

/-- User 42 locks seat 1 and has a request accepted, in threads 0 and 1. -/
def buys : List (Act Outcome Environ) :=
  .environ (.onRedis (SingleNodeLock.acquireSeatLockLua 1 1 42 300)) :: steps 0 3 ++
    .environ (.request ⟨"secret", fun _ _ => ""⟩ 42 ⟨1, [1], "key", none, none, none⟩ 10) ::
    steps 1 10

theorem init_oneSeat : (machine plain).system.init ⟨newStore oneSeat, []⟩ :=
  ⟨⟨oneSeat, by decide, rfl⟩, rfl⟩

end Backend
end Bookit

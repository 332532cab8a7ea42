import Bookit.Lib.System
import Bookit.Lib.Prog

/-!
# Threads — interleaved programs over a shared store, and a rely–guarantee rule

A machine runs any number of programs against one store, a command at a time in any order.  The
environment may change the store and start further threads, and a thread may crash between any two
of its commands.  A command is executed in the session of its thread (the thread's index), with an
outcome chosen by the run, so that lost requests and lost replies are part of the execution.

* `Machine.system` — the transition system of a machine;
* `Contract` — an invariant of the store, the interference each session has to stand, and the steps
  that are allowed;
* `Contract.Ensures` — what one thread establishes under that interference, by recursion on its
  program;
* `Machine.ensures_of_reachable` — the rely–guarantee rule: threads that meet their contract alone
  meet it in every interleaving;
* `Machine.ensures_of_thread` — the rule for one thread, from a state within a run.
-/

namespace Bookit
namespace Lib

/-- A thread: what it was started for, and what is left of its program (`none` after a crash). -/
structure Thread {C : Type} (Rep : C → Type) (ι β : Type) where
  info : ι
  prog : Option (Prog Rep β)

/-- A store and the threads working on it, each under its index for good. -/
structure Pool {C : Type} (σ : Type) (Rep : C → Type) (ι β : Type) where
  store : σ
  threads : List (Thread Rep ι β)

/-- The effect of commands: session, outcome chosen by the run, command, store. -/
abbrev Exec {C : Type} (σ : Type) (Rep : C → Type) (E : Type) :=
  ℕ → E → (c : C) → σ → Option (σ × Rep c)

structure Machine {C : Type} (σ : Type) (Rep : C → Type) (ι β E X : Type) where
  init : σ → Prop
  exec : ι → Exec σ Rep E
  /-- A step of the environment: the new store, and the threads it starts. -/
  environ : X → σ → Option (σ × List (ι × Prog Rep β))
  /-- What the loss of a session does to the store. -/
  close : ℕ → σ → σ

/-- The steps of a pool. -/
inductive Act (E X : Type) where
  | environ (x : X)
  | run (i : ℕ) (e : E)
  | crash (i : ℕ)
  deriving DecidableEq

namespace Machine

variable {C σ ι β E X : Type} {Rep : C → Type} (M : Machine σ Rep ι β E X)

/-- Threads started by the environment. -/
def start (ts : List (ι × Prog Rep β)) : List (Thread Rep ι β) :=
  ts.map fun t => ⟨t.1, some t.2⟩

def step (p : Pool σ Rep ι β) : Act E X → Option (Pool σ Rep ι β)
  | .environ x =>
      match M.environ x p.store with
      | some (s, ts) => some ⟨s, p.threads ++ start ts⟩
      | none => none
  | .run i e =>
      match p.threads[i]? with
      | some ⟨n, some (.call c k)⟩ =>
          match M.exec n i e c p.store with
          | some (s, r) => some ⟨s, p.threads.set i ⟨n, some (k r)⟩⟩
          | none => none
      | _ => none
  | .crash i =>
      match p.threads[i]? with
      | some ⟨n, some (.call _ _)⟩ => some ⟨M.close i p.store, p.threads.set i ⟨n, none⟩⟩
      | _ => none

/-- The transition system of the machine. -/
def system : System (Pool σ Rep ι β) (Act E X) where
  init p := M.init p.store ∧ p.threads = []
  step := M.step

/-! ## What a step can do -/

variable {M}

theorem step_environ {p q : Pool σ Rep ι β} {x : X} (h : M.step p (.environ x) = some q) :
    ∃ s ts, M.environ x p.store = some (s, ts) ∧ q = ⟨s, p.threads ++ start ts⟩ := by
  simp only [step] at h
  cases he : M.environ x p.store with
  | none => simp [he] at h
  | some r =>
      obtain ⟨s, ts⟩ := r
      simp only [he, Option.some.injEq] at h
      exact ⟨s, ts, rfl, h.symm⟩

theorem step_run {p q : Pool σ Rep ι β} {i : ℕ} {e : E} (h : M.step p (.run i e) = some q) :
    ∃ n c k s r, p.threads[i]? = some ⟨n, some (.call c k)⟩ ∧
      M.exec n i e c p.store = some (s, r) ∧ q = ⟨s, p.threads.set i ⟨n, some (k r)⟩⟩ := by
  simp only [step] at h
  split at h
  · next n c k ht =>
    cases he : M.exec n i e c p.store with
    | none => simp [he] at h
    | some v =>
        obtain ⟨s, r⟩ := v
        simp only [he, Option.some.injEq] at h
        exact ⟨n, c, k, s, r, ht, he, h.symm⟩
  · cases h

theorem step_crash {p q : Pool σ Rep ι β} {i : ℕ} (h : M.step p (.crash i) = some q) :
    ∃ n c k, p.threads[i]? = some ⟨n, some (.call c k)⟩ ∧
      q = ⟨M.close i p.store, p.threads.set i ⟨n, none⟩⟩ := by
  simp only [step] at h
  split at h
  · next n c k ht => exact ⟨n, c, k, ht, by simpa using h.symm⟩
  · cases h

end Machine

/-! ## A log beside the store -/

/-- The machine with a log beside its store: `record` writes it as commands are executed, and
nothing reads it. -/
def Machine.logged {C σ ι β E X η : Type} {Rep : C → Type} (M : Machine σ Rep ι β E X) (start : η)
    (record : ι → ℕ → E → C → σ → η → η) : Machine (σ × η) Rep ι β E X where
  init s := M.init s.1 ∧ s.2 = start
  exec n i e c s := (M.exec n i e c s.1).map fun x => ((x.1, record n i e c s.1 s.2), x.2)
  environ x s := (M.environ x s.1).map fun y => ((y.1, s.2), y.2)
  close i s := (M.close i s.1, s.2)

namespace Machine

variable {C σ ι β E X η : Type} {Rep : C → Type} {M : Machine σ Rep ι β E X} {start : η}
variable {record : ι → ℕ → E → C → σ → η → η}

theorem logged_exec {n : ι} {i : ℕ} {e : E} {c : C} {s t : σ × η} {r : Rep c} :
    (M.logged start record).exec n i e c s = some (t, r) ↔
      M.exec n i e c s.1 = some (t.1, r) ∧ t.2 = record n i e c s.1 s.2 := by
  obtain ⟨u, h⟩ := t
  simp only [logged, Option.map_eq_some_iff, Prod.mk.injEq]
  constructor
  · rintro ⟨⟨v, r'⟩, hv, ⟨rfl, rfl⟩, rfl⟩
    exact ⟨hv, rfl⟩
  · rintro ⟨hu, rfl⟩
    exact ⟨(u, r), hu, ⟨rfl, rfl⟩, rfl⟩

theorem logged_environ {x : X} {s t : σ × η} {ts : List (ι × Prog Rep β)} :
    (M.logged start record).environ x s = some (t, ts) ↔
      M.environ x s.1 = some (t.1, ts) ∧ t.2 = s.2 := by
  obtain ⟨u, h⟩ := t
  simp only [logged, Option.map_eq_some_iff, Prod.mk.injEq]
  constructor
  · rintro ⟨⟨v, ts'⟩, hv, ⟨rfl, rfl⟩, rfl⟩
    exact ⟨hv, rfl⟩
  · rintro ⟨hu, rfl⟩
    exact ⟨(u, ts), hu, ⟨rfl, rfl⟩, rfl⟩

/-- The machine with a log from which a session is struck when it is lost. -/
def tracked (M : Machine σ Rep ι β E X) (start : η) (record : ι → ℕ → E → C → σ → η → η)
    (strike : ℕ → η → η) : Machine (σ × η) Rep ι β E X :=
  { M.logged start record with close := fun i s => (M.close i s.1, strike i s.2) }

variable {strike : ℕ → η → η}

theorem tracked_exec {n : ι} {i : ℕ} {e : E} {c : C} {s t : σ × η} {r : Rep c} :
    (M.tracked start record strike).exec n i e c s = some (t, r) ↔
      M.exec n i e c s.1 = some (t.1, r) ∧ t.2 = record n i e c s.1 s.2 := by
  show (M.logged start record).exec n i e c s = some (t, r) ↔ _
  exact logged_exec

theorem tracked_environ {x : X} {s t : σ × η} {ts : List (ι × Prog Rep β)} :
    (M.tracked start record strike).environ x s = some (t, ts) ↔
      M.environ x s.1 = some (t.1, ts) ∧ t.2 = s.2 := by
  show (M.logged start record).environ x s = some (t, ts) ↔ _
  exact logged_environ

/-- A step of the machine with its log is one of the machine. -/
theorem tracked_step {p q : Pool (σ × η) Rep ι β} {a : Act E X}
    (h : (M.tracked start record strike).step p a = some q) :
    M.step ⟨p.store.1, p.threads⟩ a = some ⟨q.store.1, q.threads⟩ := by
  cases a with
  | environ x =>
      obtain ⟨s, ts, hs, rfl⟩ := step_environ h
      simp only [step, (tracked_environ.1 hs).1]
  | run i e =>
      obtain ⟨n, c, k, s, r, ht, hs, rfl⟩ := step_run h
      simp only [step, ht, (tracked_exec.1 hs).1]
  | crash i =>
      obtain ⟨n, c, k, ht, rfl⟩ := step_crash h
      simp only [step, ht, tracked]

/-- A run of the machine with its log is one of the machine. -/
theorem tracked_reachable {G : Pool σ Rep ι β → Act E X → Prop}
    {H : Pool (σ × η) Rep ι β → Act E X → Prop}
    (hG : ∀ p a, H p a → G ⟨p.store.1, p.threads⟩ a) {p : Pool (σ × η) Rep ι β}
    (h : (M.tracked start record strike).system.ReachableUnder H p) :
    M.system.ReachableUnder G ⟨p.store.1, p.threads⟩ := by
  induction h with
  | init h0 => exact .init ⟨h0.1.1, h0.2⟩
  | @step p q a _ hH hst ih => exact .step (a := a) ih (hG p a hH) (tracked_step hst)

/-- A run of the machine with a log that keeps every session is one of the machine. -/
theorem logged_reachable {G : Pool σ Rep ι β → Act E X → Prop}
    {H : Pool (σ × η) Rep ι β → Act E X → Prop}
    (hG : ∀ p a, H p a → G ⟨p.store.1, p.threads⟩ a) {p : Pool (σ × η) Rep ι β}
    (h : (M.logged start record).system.ReachableUnder H p) :
    M.system.ReachableUnder G ⟨p.store.1, p.threads⟩ := by
  have h : (M.tracked start record fun _ log => log).system.ReachableUnder H p := h
  exact tracked_reachable hG h

end Machine

/-! ## Threads of a pool -/

section Pool

variable {C σ ι β : Type} {Rep : C → Type}

/-- Thread `i` of the pool is running `p`, started for `n`. -/
def Pool.Runs (P : Pool σ Rep ι β) (i : ℕ) (n : ι) (p : Prog Rep β) : Prop :=
  P.threads[i]? = some ⟨n, some p⟩

/-- What thread `i` was started for and has returned. -/
def Pool.result (P : Pool σ Rep ι β) (i : ℕ) : Option (ι × β) :=
  match P.threads[i]? with
  | some ⟨n, some (.ret b)⟩ => some (n, b)
  | _ => none

theorem Pool.result_eq_some {P : Pool σ Rep ι β} {i : ℕ} {n : ι} {b : β} :
    P.result i = some (n, b) ↔ P.Runs i n (.ret b) := by
  unfold Pool.result Pool.Runs
  constructor
  · intro h
    split at h
    · next m c ht =>
      obtain ⟨rfl, rfl⟩ := Prod.mk.inj (Option.some.inj h)
      exact ht
    · cases h
  · intro h
    rw [h]

/-- After a step of thread `i`, thread `j` is the stepping one or as it was. -/
theorem Pool.runs_set {s : σ} {ts : List (Thread Rep ι β)} {i j : ℕ} {n m : ι}
    {q : Option (Prog Rep β)} {p : Prog Rep β}
    (h : (Pool.mk s (ts.set i ⟨n, q⟩)).Runs j m p) :
    (j = i ∧ m = n ∧ q = some p) ∨ (j ≠ i ∧ ts[j]? = some ⟨m, some p⟩) := by
  unfold Pool.Runs at h
  rcases eq_or_ne j i with rfl | hne
  · rw [List.getElem?_set_self'] at h
    cases hj : ts[j]? with
    | none => simp [hj] at h
    | some t =>
        rw [hj] at h
        injection h with h
        injection h with hn hq
        exact .inl ⟨rfl, hn.symm, hq⟩
  · rw [List.getElem?_set_ne (Ne.symm hne)] at h
    exact .inr ⟨hne, h⟩

/-- After a step of the environment, a thread is one of those it started or as it was. -/
theorem Pool.runs_start {s : σ} {ts : List (Thread Rep ι β)} {new : List (ι × Prog Rep β)}
    {j : ℕ} {m : ι} {p : Prog Rep β}
    (h : (Pool.mk s (ts ++ Machine.start new)).Runs j m p) :
    (ts.length ≤ j ∧ (m, p) ∈ new) ∨ ts[j]? = some ⟨m, some p⟩ := by
  unfold Pool.Runs at h
  rw [List.getElem?_append] at h
  split_ifs at h with hj
  · exact .inr h
  · obtain ⟨t, ht, heq⟩ := List.mem_map.1 (List.mem_of_getElem? h)
    simp only [Thread.mk.injEq, Option.some.injEq] at heq
    obtain ⟨rfl, rfl⟩ := heq
    exact .inl ⟨Nat.le_of_not_lt hj, ht⟩

end Pool

/-! ## Contracts -/

/-- What holds of the store, what a session has to stand from the others, what it promises of each
of its own steps, and which executions of commands a run is allowed. -/
structure Contract {C : Type} (σ : Type) (Rep : C → Type) (ι E : Type) where
  inv : σ → Prop
  rely : ℕ → σ → σ → Prop
  guar : ι → σ → σ → Prop
  allowed : ι → ℕ → E → C → σ → Prop
  rely_refl : ∀ i s, rely i s s
  rely_trans : ∀ i s t u, rely i s t → rely i t u → rely i s u

namespace Contract

variable {C σ ι β γ E X : Type} {Rep : C → Type}
variable (K : Contract σ Rep ι E) (exec : Exec σ Rep E)

/-- A step of session `i` within its contract. -/
structure Honours (n : ι) (i : ℕ) (t u : σ) : Prop where
  inv : K.inv u
  guar : K.guar n t u
  rely : ∀ j, j ≠ i → K.rely j t u

/-- From `s`, and whatever the other sessions do, every allowed command of the program honours the
contract, and a value returned satisfies `Q`. -/
def Ensures (n : ι) (i : ℕ) (Q : β → σ → Prop) : Prog Rep β → σ → Prop
  | .ret b, s => ∀ t, K.rely i s t → K.inv t → Q b t
  | .call c k, s =>
      ∀ t, K.rely i s t → K.inv t → ∀ e, K.allowed n i e c t → ∀ u r,
        exec i e c t = some (u, r) → K.Honours n i t u ∧ Ensures n i Q (k r) u

variable {K exec} {n : ι} {i : ℕ}

theorem Ensures.ret {b : β} {Q : β → σ → Prop} {s : σ}
    (h : ∀ t, K.rely i s t → K.inv t → Q b t) : K.Ensures exec n i Q (.ret b) s := h

theorem Ensures.call {c : C} {k : Rep c → Prog Rep β} {Q : β → σ → Prop} {s : σ}
    (h : ∀ t, K.rely i s t → K.inv t → ∀ e, K.allowed n i e c t → ∀ u r,
      exec i e c t = some (u, r) → K.Honours n i t u ∧ K.Ensures exec n i Q (k r) u) :
    K.Ensures exec n i Q (.call c k) s := h

/-- What a thread ensures, it still ensures after interference. -/
theorem Ensures.stable {Q : β → σ → Prop} {p : Prog Rep β} {s t : σ}
    (h : K.Ensures exec n i Q p s) (hst : K.rely i s t) : K.Ensures exec n i Q p t := by
  cases p with
  | ret b => exact fun u htu hu => h u (K.rely_trans i s t u hst htu) hu
  | call c k => exact fun u htu hu => h u (K.rely_trans i s t u hst htu) hu

/-- What a thread ensures wherever the others can lead, it ensures here. -/
theorem Ensures.later {Q : β → σ → Prop} {p : Prog Rep β} {s : σ}
    (h : ∀ t, K.rely i s t → K.inv t → K.Ensures exec n i Q p t) : K.Ensures exec n i Q p s := by
  cases p with
  | ret b => exact fun t hst ht => h t hst ht t (K.rely_refl i t) ht
  | call c k => exact fun t hst ht => h t hst ht t (K.rely_refl i t) ht

theorem Ensures.weaken {Q Q' : β → σ → Prop} {p : Prog Rep β} {s : σ}
    (h : K.Ensures exec n i Q p s) (hQ : ∀ b t, Q b t → Q' b t) : K.Ensures exec n i Q' p s := by
  induction p generalizing s with
  | ret b => exact fun t hst ht => hQ b t (h t hst ht)
  | call c k ih =>
      intro t hst ht e he u r hex
      obtain ⟨hu, hk⟩ := h t hst ht e he u r hex
      exact ⟨hu, ih r hk⟩

/-- The sequencing rule. -/
theorem Ensures.bind {Q : γ → σ → Prop} {p : Prog Rep β} {f : β → Prog Rep γ} {s : σ}
    (h : K.Ensures exec n i (fun b t => K.Ensures exec n i Q (f b) t) p s) :
    K.Ensures exec n i Q (p >>= f) s := by
  induction p generalizing s with
  | ret b => exact .later h
  | call c k ih =>
      intro t hst ht e he u r hex
      obtain ⟨hu, hk⟩ := h t hst ht e he u r hex
      exact ⟨hu, ih r hk⟩

/-- A program all of whose commands honour the contract wherever they are executed. -/
theorem Ensures.of_issues {φ : C → Prop}
    (hφ : ∀ c, φ c → ∀ e t u r, K.inv t → K.allowed n i e c t → exec i e c t = some (u, r) →
      K.Honours n i t u)
    {p : Prog Rep β} (hp : p.Issues φ) {s : σ} : K.Ensures exec n i (fun _ _ => True) p s := by
  induction p generalizing s with
  | ret b => exact .ret fun _ _ _ => trivial
  | call c k ih =>
      exact .call fun t _ ht e he u r hex => ⟨hφ c hp.1 e t u r ht he hex, ih r (hp.2 r)⟩

/-- A program all of whose commands honour the contract and disturb no session, their own included:
what it ensures, it ensures in a state that the others could have led to. -/
theorem Ensures.and_rely {φ : C → Prop}
    (hφ : ∀ c, φ c → ∀ e t u r, K.inv t → K.allowed n i e c t → exec i e c t = some (u, r) →
      K.Honours n i t u ∧ K.rely i t u)
    {Q : β → σ → Prop} {p : Prog Rep β} (hp : p.Issues φ) {s : σ} (h : K.Ensures exec n i Q p s) :
    K.Ensures exec n i (fun b t => Q b t ∧ K.rely i s t) p s := by
  induction p generalizing s with
  | ret b => exact fun t hst ht => ⟨h t hst ht, hst⟩
  | call c k ih =>
      intro t hst ht e he u r hex
      obtain ⟨hu, hrely⟩ := hφ c hp.1 e t u r ht he hex
      have hsu := K.rely_trans i s t u hst hrely
      refine ⟨hu, (ih r (hp.2 r) (h t hst ht e he u r hex).2).weaken fun b v hv => ⟨hv.1, ?_⟩⟩
      exact K.rely_trans i s u v hsu hv.2

/-- Such a program, followed by one that copes with what is known after such disturbances. -/
theorem Ensures.bind_of_issues {φ : C → Prop}
    (hφ : ∀ c, φ c → ∀ e t u r, K.inv t → K.allowed n i e c t → exec i e c t = some (u, r) →
      K.Honours n i t u ∧ K.rely i t u)
    {p : Prog Rep β} (hp : p.Issues φ) {f : β → Prog Rep γ} {Q : γ → σ → Prop} {s : σ}
    (h : ∀ b t, K.rely i s t → K.Ensures exec n i Q (f b) t) :
    K.Ensures exec n i Q (p >>= f) s := by
  have hsafe : K.Ensures exec n i (fun _ _ => True) p s :=
    .of_issues (fun c hc e t u r ht he hex => (hφ c hc e t u r ht he hex).1) hp
  exact .bind ((hsafe.and_rely hφ hp).weaken fun b t ht => h b t ht.2)

/-- A thread about to issue a command, at the moment it does. -/
theorem Ensures.exec_step {Q : β → σ → Prop} {c : C} {k : Rep c → Prog Rep β} {s u : σ} {e : E}
    {r : Rep c} (h : K.Ensures exec n i Q (.call c k) s) (hs : K.inv s)
    (he : K.allowed n i e c s) (hex : exec i e c s = some (u, r)) :
    K.Honours n i s u ∧ K.Ensures exec n i Q (k r) u :=
  h s (K.rely_refl i s) hs e he u r hex

/-! ### Programs over a larger store -/

section Hoist

variable {C' σ' ι' E' : Type} {Rep' : C' → Type} {K' : Contract σ' Rep' ι' E'}
variable {exec' : Exec σ' Rep' E'} {n' : ι'}

/-- A contract of a part of the store, met by a program, is met where the program runs against the
whole store, command by command.  `π` is the part, `φ` what is known of the commands, and `P` what
holds beside the contract for as long as the program runs. -/
theorem Ensures.hoist {π : σ' → σ} {up : C → C'} {down : (c : C) → Rep' (up c) → Rep c}
    {link : E' → E} {φ : C → Prop} {P : σ' → Prop}
    (hrely : ∀ s t, K'.rely i s t → K.rely i (π s) (π t)) (hinv : ∀ s, K'.inv s → K.inv (π s))
    (hP : ∀ s t, K'.rely i s t → P s → P t)
    (hstep : ∀ c, φ c → ∀ e t u r, P t → K'.inv t → K'.allowed n' i e (up c) t →
      exec' i e (up c) t = some (u, r) →
      K.allowed n i (link e) c (π t) ∧ exec i (link e) c (π t) = some (π u, down c r) ∧
        (K.Honours n i (π t) (π u) → K'.Honours n' i t u ∧ P u))
    {Q : β → σ → Prop} {p : Prog Rep β} (hp : p.Issues φ) {s : σ'} (hs : P s)
    (h : K.Ensures exec n i Q p (π s)) :
    K'.Ensures exec' n' i (fun b t => Q b (π t) ∧ P t)
      (p.hoist fun c => .call (up c) fun r => .ret (down c r)) s := by
  induction p generalizing s with
  | ret b => exact .ret fun t hst ht => ⟨h (π t) (hrely s t hst) (hinv t ht), hP s t hst hs⟩
  | call c k ih =>
      refine .call fun t hst ht e he u r hex => ?_
      have hPt := hP s t hst hs
      obtain ⟨hallowed, hexec, hlift⟩ := hstep c hp.1 e t u r hPt ht he hex
      obtain ⟨hu, hk⟩ := h (π t) (hrely s t hst) (hinv t ht) (link e) hallowed (π u) _ hexec
      obtain ⟨hu', hPu⟩ := hlift hu
      exact ⟨hu', ih (down c r) (hp.2 _) hPu hk⟩

end Hoist

end Contract

/-! ## Lost requests and lost replies -/

/-- What happens to one request to a server: answered, lost before it took effect, or lost after. -/
inductive Link where
  | ok
  | lost
  | unacked
  deriving DecidableEq

/-- The store after a request over a link, and the reply if one arrives. -/
def Link.deliver {σ ρ : Type} (l : Link) (run : σ → σ × ρ) (s : σ) : σ × Option ρ :=
  match l with
  | .ok => ((run s).1, some (run s).2)
  | .lost => (s, none)
  | .unacked => ((run s).1, none)

/-- What holds with and without the effect of a request holds after it. -/
theorem Link.deliver_induction {σ ρ : Type} {P : σ → Prop} {l : Link} {run : σ → σ × ρ} {s : σ}
    (h0 : P s) (h1 : P (run s).1) : P (l.deliver run s).1 := by
  cases l with
  | ok => exact h1
  | lost => exact h0
  | unacked => exact h1

/-- A request over a link takes effect or does not, and a reply is the one of the request. -/
theorem Link.deliver_cases {σ ρ : Type} {l : Link} {run : σ → σ × ρ} {s t : σ} {r : Option ρ}
    (h : l.deliver run s = (t, r)) :
    (t = s ∧ r = none) ∨ (t = (run s).1 ∧ (r = none ∨ r = some (run s).2)) := by
  cases l with
  | ok => exact .inr ⟨(congrArg Prod.fst h).symm, .inr (congrArg Prod.snd h).symm⟩
  | lost => exact .inl ⟨(congrArg Prod.fst h).symm, (congrArg Prod.snd h).symm⟩
  | unacked => exact .inr ⟨(congrArg Prod.fst h).symm, .inl (congrArg Prod.snd h).symm⟩

/-! ## The rely–guarantee rule -/

namespace Machine

variable {C σ ι β E X : Type} {Rep : C → Type} (M : Machine σ Rep ι β E X)

/-- The next command of thread `t`, if it has one, is allowed in `s`. -/
def Permits (allowed : ι → ℕ → E → C → σ → Prop) (i : ℕ) (e : E) (s : σ) :
    Option (Thread Rep ι β) → Prop
  | some ⟨n, some (.call c _)⟩ => allowed n i e c s
  | _ => True

instance {allowed : ι → ℕ → E → C → σ → Prop} [∀ n i e c s, Decidable (allowed n i e c s)]
    (i : ℕ) (e : E) (s : σ) (t : Option (Thread Rep ι β)) : Decidable (Permits allowed i e s t) :=
  match t with
  | some ⟨n, some (.call c _)⟩ => inferInstanceAs (Decidable (allowed n i e c s))
  | some ⟨_, some (.ret _)⟩ => isTrue trivial
  | some ⟨_, none⟩ => isTrue trivial
  | none => isTrue trivial

/-- The guard of a run: allowed commands, and allowed steps of the environment. -/
def Guarded (allowed : ι → ℕ → E → C → σ → Prop) (allowedEnv : X → σ → Prop)
    (p : Pool σ Rep ι β) : Act E X → Prop
  | .environ x => allowedEnv x p.store
  | .run i e => Permits allowed i e p.store p.threads[i]?
  | .crash _ => True

instance {allowed : ι → ℕ → E → C → σ → Prop} {allowedEnv : X → σ → Prop}
    [∀ n i e c s, Decidable (allowed n i e c s)] [∀ x s, Decidable (allowedEnv x s)]
    (p : Pool σ Rep ι β) (a : Act E X) : Decidable (Guarded allowed allowedEnv p a) :=
  match a with
  | .environ x => inferInstanceAs (Decidable (allowedEnv x p.store))
  | .run i e => inferInstanceAs (Decidable (Permits allowed i e p.store p.threads[i]?))
  | .crash _ => isTrue trivial

/-- What session `i` finds when it starts: an initial store, and the interference since. -/
def Unstarted (K : Contract σ Rep ι E) (i : ℕ) (s : σ) : Prop :=
  ∃ s₀, M.init s₀ ∧ K.rely i s₀ s

/-- Every running thread of the pool ensures what it was started for. -/
structure Fulfils (K : Contract σ Rep ι E) (Q : ι → ℕ → β → σ → Prop) (p : Pool σ Rep ι β) :
    Prop where
  inv : K.inv p.store
  unstarted : ∀ i, p.threads.length ≤ i → M.Unstarted K i p.store
  threads : ∀ i n q, p.Runs i n q → K.Ensures (M.exec n) n i (Q n i) q p.store

/-- What the steps of the environment have to meet. -/
abbrev EnvironMeets (K : Contract σ Rep ι E) (Q : ι → ℕ → β → σ → Prop)
    (allowedEnv : X → σ → Prop) : Prop :=
  ∀ x s t ts, K.inv s → allowedEnv x s → M.environ x s = some (t, ts) →
    K.inv t ∧ (∀ j, K.rely j s t) ∧
      ∀ i n p, (n, p) ∈ ts → M.Unstarted K i t → K.Ensures (M.exec n) n i (Q n i) p t

/-- What the loss of a session has to meet. -/
abbrev CloseMeets (K : Contract σ Rep ι E) : Prop :=
  ∀ i s, K.inv s → K.inv (M.close i s) ∧ ∀ j, j ≠ i → K.rely j s (M.close i s)

variable {M}

/-- A guard with weaker conditions. -/
theorem Guarded.mono {allowed allowed' : ι → ℕ → E → C → σ → Prop}
    {allowedEnv allowedEnv' : X → σ → Prop} {p : Pool σ Rep ι β} {a : Act E X}
    (hall : ∀ n i e c s, allowed n i e c s → allowed' n i e c s)
    (henv : ∀ x s, allowedEnv x s → allowedEnv' x s) (h : Guarded allowed allowedEnv p a) :
    Guarded allowed' allowedEnv' p a := by
  cases a with
  | environ x => exact henv x p.store h
  | run i e =>
      have h : Permits allowed i e p.store p.threads[i]? := h
      show Permits allowed' i e p.store p.threads[i]?
      match hi : p.threads[i]? with
      | some ⟨n, some (.call c k)⟩ =>
          rw [hi] at h
          exact hall n i e c p.store h
      | some ⟨_, some (.ret _)⟩ => trivial
      | some ⟨_, none⟩ => trivial
      | none => trivial
  | crash i => trivial

/-- Where every command is allowed, every step is guarded. -/
theorem Guarded.of_forall {allowed : ι → ℕ → E → C → σ → Prop} {p : Pool σ Rep ι β} {a : Act E X}
    (hall : ∀ n i e c s, allowed n i e c s) : Guarded allowed (fun _ _ => True) p a := by
  cases a with
  | environ x => trivial
  | run i e =>
      show Permits allowed i e p.store p.threads[i]?
      unfold Permits
      split
      · exact hall _ _ _ _ _
      · trivial
  | crash i => trivial

/-- Where every command is allowed, a run is guarded. -/
theorem reachable_guarded {allowed : ι → ℕ → E → C → σ → Prop} {p : Pool σ Rep ι β}
    (hall : ∀ n i e c s, allowed n i e c s) (h : M.system.Reachable p) :
    M.system.ReachableUnder (Guarded allowed fun _ _ => True) p :=
  h.mono fun _ _ _ => Guarded.of_forall hall

theorem Unstarted.trans {K : Contract σ Rep ι E} {i : ℕ} {s t : σ} (h : M.Unstarted K i s)
    (hst : K.rely i s t) : M.Unstarted K i t := by
  obtain ⟨s₀, h0, hrely⟩ := h
  exact ⟨s₀, h0, K.rely_trans i s₀ s t hrely hst⟩

theorem fulfils_step {K : Contract σ Rep ι E} {Q : ι → ℕ → β → σ → Prop}
    {allowedEnv : X → σ → Prop} (henv : M.EnvironMeets K Q allowedEnv) (hclose : M.CloseMeets K)
    {p q : Pool σ Rep ι β} {a : Act E X} (hp : M.Fulfils K Q p)
    (hG : Guarded K.allowed allowedEnv p a) (h : M.step p a = some q) : M.Fulfils K Q q := by
  obtain ⟨hI, hU, hT⟩ := hp
  cases a with
  | environ x =>
      obtain ⟨s, ts, hs, rfl⟩ := step_environ h
      obtain ⟨hIs, hrely, hnew⟩ := henv x p.store s ts hI hG hs
      refine ⟨hIs, fun j hj => ?_, fun j m r hr => ?_⟩
      · refine (hU j ?_).trans (hrely j)
        rw [List.length_append] at hj
        exact Nat.le_trans (Nat.le_add_right _ _) hj
      · rcases Pool.runs_start hr with ⟨hlen, hmem⟩ | hold
        · exact hnew j m r hmem ((hU j hlen).trans (hrely j))
        · exact (hT j m r hold).stable (hrely j)
  | run i e =>
      obtain ⟨n, c, k, s, r, ht, hs, rfl⟩ := step_run h
      have hallowed : K.allowed n i e c p.store := by
        simpa only [Guarded, ht, Permits] using hG
      obtain ⟨hstep, hk⟩ := (hT i n _ ht).exec_step hI hallowed hs
      have hi := (List.getElem?_eq_some_iff.1 ht).1
      refine ⟨hstep.inv, fun j hj => ?_, fun j m r' hr => ?_⟩
      · rw [List.length_set] at hj
        exact (hU j hj).trans (hstep.rely j (Nat.ne_of_gt (Nat.lt_of_lt_of_le hi hj)))
      · rcases Pool.runs_set hr with ⟨rfl, rfl, heq⟩ | ⟨hne, hold⟩
        · cases heq
          exact hk
        · exact (hT j m r' hold).stable (hstep.rely j hne)
  | crash i =>
      obtain ⟨n, c, k, ht, rfl⟩ := step_crash h
      obtain ⟨hIs, hrely⟩ := hclose i p.store hI
      have hi := (List.getElem?_eq_some_iff.1 ht).1
      refine ⟨hIs, fun j hj => ?_, fun j m r hr => ?_⟩
      · rw [List.length_set] at hj
        exact (hU j hj).trans (hrely j (Nat.ne_of_gt (Nat.lt_of_lt_of_le hi hj)))
      · rcases Pool.runs_set hr with ⟨_, _, heq⟩ | ⟨hne, hold⟩
        · cases heq
        · exact (hT j m r hold).stable (hrely j hne)

/-- Threads that meet their contract alone meet it in every interleaving. -/
theorem ensures_of_reachable {K : Contract σ Rep ι E} {Q : ι → ℕ → β → σ → Prop}
    {allowedEnv : X → σ → Prop} (hinit : ∀ s, M.init s → K.inv s)
    (henv : M.EnvironMeets K Q allowedEnv) (hclose : M.CloseMeets K) {p : Pool σ Rep ι β}
    (h : M.system.ReachableUnder (Guarded K.allowed allowedEnv) p) : M.Fulfils K Q p := by
  refine System.invariant ?_ ?_ h
  · rintro q ⟨h0, hts⟩
    refine ⟨hinit _ h0, fun i _ => ⟨_, h0, K.rely_refl i _⟩, fun i n r hr => ?_⟩
    simp [Pool.Runs, hts] at hr
  · intro q a r hq hG hst
    exact fulfils_step henv hclose hq hG hst

section Store

variable {allowed : ι → ℕ → E → C → σ → Prop} {allowedEnv : X → σ → Prop} {I : σ → Prop}

/-- What every allowed command, every allowed step of the environment and every loss of a session
keeps of the store is kept by a guarded step. -/
theorem store_step
    (hexec : ∀ n i e c s t r, I s → allowed n i e c s → M.exec n i e c s = some (t, r) → I t)
    (henv : ∀ x s t ts, I s → allowedEnv x s → M.environ x s = some (t, ts) → I t)
    (hclose : ∀ i s, I s → I (M.close i s)) {p q : Pool σ Rep ι β} {a : Act E X} (hp : I p.store)
    (hG : Guarded allowed allowedEnv p a) (hst : M.step p a = some q) : I q.store := by
  cases a with
  | environ x =>
      obtain ⟨s, ts, hs, rfl⟩ := step_environ hst
      exact henv x p.store s ts hp hG hs
  | run i e =>
      obtain ⟨n, c, k, s, r, ht, hs, rfl⟩ := step_run hst
      have hallowed : allowed n i e c p.store := by
        simpa only [Guarded, ht, Permits] using hG
      exact hexec n i e c p.store s r hp hallowed hs
  | crash i =>
      obtain ⟨n, c, k, ht, rfl⟩ := step_crash hst
      exact hclose i p.store hp

/-- It holds throughout. -/
theorem store_invariant (hinit : ∀ s, M.init s → I s)
    (hexec : ∀ n i e c s t r, I s → allowed n i e c s → M.exec n i e c s = some (t, r) → I t)
    (henv : ∀ x s t ts, I s → allowedEnv x s → M.environ x s = some (t, ts) → I t)
    (hclose : ∀ i s, I s → I (M.close i s)) {p : Pool σ Rep ι β}
    (h : M.system.ReachableUnder (Guarded allowed allowedEnv) p) : I p.store := by
  refine System.invariant (I := fun p => I p.store) ?_ ?_ h
  · rintro q ⟨hq, -⟩
    exact hinit _ hq
  · intro p a q hp hG hst
    exact store_step hexec henv hclose hp hG hst

/-- From a state in which it holds, it holds throughout. -/
theorem store_kept
    (hexec : ∀ n i e c s t r, I s → M.exec n i e c s = some (t, r) → I t)
    (henv : ∀ x s t ts, I s → M.environ x s = some (t, ts) → I t)
    (hclose : ∀ i s, I s → I (M.close i s)) {p q : Pool σ Rep ι β} (hp : I p.store)
    (h : (M.system.startingAt p).Reachable q) : I q.store := by
  refine System.invariant (I := fun p => I p.store) ?_ ?_ h
  · rintro _ rfl
    exact hp
  · intro _ _ _ hp _ hst
    exact store_step (fun n i e c s t r hs _ => hexec n i e c s t r hs)
      (fun x s t ts hs _ => henv x s t ts hs) hclose hp
      (Guarded.of_forall fun _ _ _ _ _ => trivial) hst

end Store

/-- Each step of a thread keeps the promise of its contract. -/
theorem Fulfils.guar {K : Contract σ Rep ι E} {Q : ι → ℕ → β → σ → Prop}
    {allowedEnv : X → σ → Prop} {p q : Pool σ Rep ι β} {i : ℕ} {e : E} (hp : M.Fulfils K Q p)
    (hG : Guarded K.allowed allowedEnv p (.run i e)) (h : M.step p (.run i e) = some q) :
    ∃ n c k, p.Runs i n (.call c k) ∧ K.guar n p.store q.store := by
  obtain ⟨n, c, k, s, r, ht, hs, rfl⟩ := step_run h
  have hallowed : K.allowed n i e c p.store := by
    simpa only [Guarded, ht, Permits] using hG
  exact ⟨n, c, k, ht, ((hp.threads i n _ ht).exec_step hp.inv hallowed hs).1.guar⟩

/-- What a thread that has returned has established. -/
theorem Fulfils.returned {K : Contract σ Rep ι E} {Q : ι → ℕ → β → σ → Prop}
    {p : Pool σ Rep ι β} (h : M.Fulfils K Q p) {i : ℕ} {n : ι} {b : β}
    (hr : p.Runs i n (.ret b)) : Q n i b p.store :=
  h.threads i n _ hr p.store (K.rely_refl i _) h.inv

/-- The rule for a single thread: from a state in which it ensures its contract, it does so in every
run whose other steps keep the invariant and what the thread relies on. -/
theorem ensures_of_thread {K : Contract σ Rep ι E} {Q : β → σ → Prop} {i : ℕ} {n : ι}
    {G : Pool σ Rep ι β → Act E X → Prop}
    (hown : ∀ p e c k, G p (.run i e) → p.Runs i n (.call c k) → K.allowed n i e c p.store)
    (hothers : ∀ p q a, (∀ e, a ≠ .run i e) → K.inv p.store → G p a → M.step p a = some q →
      K.inv q.store ∧ K.rely i p.store q.store)
    {p q : Pool σ Rep ι β} {r : Prog Rep β} (hp : K.inv p.store) (hr : p.Runs i n r)
    (hens : K.Ensures (M.exec n) n i Q r p.store)
    (hq : (M.system.startingAt p).ReachableUnder G q) :
    K.inv q.store ∧ i < q.threads.length ∧
      ∀ m r, q.Runs i m r → m = n ∧ K.Ensures (M.exec n) n i Q r q.store := by
  refine System.invariant (I := fun q => K.inv q.store ∧ i < q.threads.length ∧
    ∀ m r, q.Runs i m r → m = n ∧ K.Ensures (M.exec n) n i Q r q.store) ?_ ?_ hq
  · rintro _ rfl
    refine ⟨hp, (List.getElem?_eq_some_iff.1 hr).1, fun m r' hr' => ?_⟩
    obtain ⟨rfl, heq⟩ := Thread.mk.inj (Option.some.inj (hr.symm.trans hr'))
    obtain rfl := Option.some.inj heq
    exact ⟨rfl, hens⟩
  · rintro q a t ⟨hI, hi, hT⟩ hG hst
    have hst : M.step q a = some t := hst
    cases a with
    | environ x =>
        obtain ⟨hIt, hrely⟩ := hothers q t _ (fun _ h => by cases h) hI hG hst
        obtain ⟨s, ts, -, rfl⟩ := step_environ hst
        refine ⟨hIt, ?_, fun m r' hr' => ?_⟩
        · rw [List.length_append]
          exact Nat.lt_of_lt_of_le hi (Nat.le_add_right _ _)
        · rcases Pool.runs_start hr' with ⟨hle, -⟩ | hold
          · exact absurd hi (Nat.not_lt.2 hle)
          · exact ⟨(hT m r' hold).1, (hT m r' hold).2.stable hrely⟩
    | run j e =>
        by_cases hj : j = i
        · subst hj
          obtain ⟨m, c, k, s, v, ht, hs, rfl⟩ := step_run hst
          obtain ⟨rfl, hcall⟩ := hT m _ ht
          obtain ⟨hstep, hk⟩ := hcall.exec_step hI (hown q e c k hG ht) hs
          refine ⟨hstep.inv, by rwa [List.length_set], fun m' r' hr' => ?_⟩
          rcases Pool.runs_set hr' with ⟨-, rfl, heq⟩ | ⟨hne, -⟩
          · obtain rfl := Option.some.inj heq
            exact ⟨rfl, hk⟩
          · exact absurd rfl hne
        · obtain ⟨hIt, hrely⟩ := hothers q t _ (fun _ h => hj (Act.run.inj h).1) hI hG hst
          obtain ⟨m, c, k, s, v, -, -, rfl⟩ := step_run hst
          refine ⟨hIt, by rwa [List.length_set], fun m' r' hr' => ?_⟩
          rcases Pool.runs_set hr' with ⟨heq, -, -⟩ | ⟨-, hold⟩
          · exact absurd heq.symm hj
          · exact ⟨(hT m' r' hold).1, (hT m' r' hold).2.stable hrely⟩
    | crash j =>
        obtain ⟨hIt, hrely⟩ := hothers q t _ (fun _ h => by cases h) hI hG hst
        obtain ⟨m, c, k, -, rfl⟩ := step_crash hst
        refine ⟨hIt, by rwa [List.length_set], fun m' r' hr' => ?_⟩
        rcases Pool.runs_set hr' with ⟨-, -, heq⟩ | ⟨-, hold⟩
        · cases heq
        · exact ⟨(hT m' r' hold).1, (hT m' r' hold).2.stable hrely⟩

end Machine

end Lib
end Bookit

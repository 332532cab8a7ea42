import Bookit.Lib.Threads

/-!
# Stages — programs whose commands depend on the replies they have had

A stage sums up what matters of the replies that a program has had so far: `next` moves it on, and
`may` says which commands a stage allows.  A staged machine keeps the stage of each session beside
its store, so that conditions on runs can speak of how far the other sessions have come.

* `Prog.Follows` — a program issues only what its stage allows;
* `Machine.staged` — a machine with the stages of its sessions;
* `Machine.follows_of_reachable` — threads stay within their stages;
* `Machine.working_invariant` — what the stages of working threads say of the store.
-/

namespace Bookit
namespace Lib

namespace Prog

variable {C B α β : Type} {Rep : C → Type}
variable (may : B → C → Prop) (next : B → (c : C) → Rep c → B)

/-- From stage `b` on, the program issues only commands that its stage allows; it returns in a stage
that `Q` admits. -/
def Follows (Q : β → B → Prop) : Prog Rep β → B → Prop
  | ret x, b => Q x b
  | call c k, b => may b c ∧ ∀ r, Follows Q (k r) (next b c r)

variable {may next}

theorem Follows.bind {Q : α → B → Prop} {Q' : β → B → Prop} {p : Prog Rep α}
    {f : α → Prog Rep β} {b : B} (hp : p.Follows may next Q b)
    (hf : ∀ a b', Q a b' → (f a).Follows may next Q' b') : (p >>= f).Follows may next Q' b := by
  induction p generalizing b with
  | ret a => exact hf a b hp
  | call c k ih => exact ⟨hp.1, fun r => ih r (hp.2 r)⟩

theorem Follows.mono {Q Q' : β → B → Prop} {p : Prog Rep β} {b : B}
    (h : p.Follows may next Q b) (hQ : ∀ x b', Q x b' → Q' x b') : p.Follows may next Q' b := by
  induction p generalizing b with
  | ret x => exact hQ x b h
  | call c k ih => exact ⟨h.1, fun r => ih r (h.2 r)⟩

/-- A program whose commands are allowed in the stages of a set, and lead to no other. -/
theorem follows_of_issues {S : B → Prop} {p : Prog Rep β} {b : B}
    (h : p.Issues fun c => ∀ b, S b → may b c ∧ ∀ r, S (next b c r)) (hb : S b) :
    p.Follows may next (fun _ => S) b := by
  induction p generalizing b with
  | ret x => exact hb
  | call c k ih => exact ⟨(h.1 b hb).1, fun r => ih r (h.2 r) ((h.1 b hb).2 r)⟩

/-- A program over a smaller command set, each of whose commands follows the stages by itself. -/
theorem Follows.hoist {D : Type} {Rep' : D → Type} {may' : B → D → Prop}
    {next' : B → (d : D) → Rep' d → B} {f : (c : C) → Prog Rep' (Rep c)} {Q : β → B → Prop}
    {p : Prog Rep β} {b : B}
    (hf : ∀ b c, may b c → (f c).Follows may' next' (fun r b' => b' = next b c r) b)
    (h : p.Follows may next Q b) : (Prog.hoist f p).Follows may' next' Q b := by
  induction p generalizing b with
  | ret x => exact h
  | call c k ih =>
      refine (hf b c h.1).bind fun r b' hb' => ?_
      subst hb'
      exact ih r (h.2 r)

end Prog

/-- What the thread of a session is at work on. -/
def Pool.working {C σ ι β : Type} {Rep : C → Type} (p : Pool σ Rep ι β) (i : ℕ) : Option ι :=
  match p.threads[i]? with
  | some ⟨n, some (.call _ _)⟩ => some n
  | _ => none

theorem Pool.working_eq_some {C σ ι β : Type} {Rep : C → Type} {p : Pool σ Rep ι β} {i : ℕ} {n : ι} :
    p.working i = some n ↔ ∃ c k, p.Runs i n (.call c k) := by
  unfold Pool.working Pool.Runs
  constructor
  · intro h
    split at h
    · next m c k ht =>
      obtain rfl := Option.some.inj h
      exact ⟨c, k, ht⟩
    · cases h
  · rintro ⟨c, k, ht⟩
    rw [ht]

section Working

variable {C σ ι β : Type} {Rep : C → Type} {s : σ} {ts : List (Thread Rep ι β)} {i : ℕ} {m : ι}

/-- The other threads are at work as before. -/
theorem Pool.working_set_ne {u : σ} {j : ℕ} {t : Thread Rep ι β} (hne : i ≠ j) :
    (Pool.mk s (ts.set j t)).working i = (Pool.mk u ts).working i := by
  unfold Pool.working
  rw [List.getElem?_set_ne hne.symm]

/-- A thread that has not come to its end is still at work. -/
theorem Pool.working_set_self {n : ι} {q : Prog Rep β} (hi : i < ts.length)
    (hq : q.returned = false) : (Pool.mk s (ts.set i ⟨n, some q⟩)).working i = some n := by
  cases q with
  | ret x => cases hq
  | call c k => exact Pool.working_eq_some.2 ⟨c, k, List.getElem?_set_self hi⟩

/-- A thread at work after a step of session `j` was at work before. -/
theorem Pool.working_of_set {u : σ} {j : ℕ} {n : ι} {q : Option (Prog Rep β)}
    (hj : (Pool.mk u ts).working j = some n)
    (h : (Pool.mk s (ts.set j ⟨n, q⟩)).working i = some m) : (Pool.mk u ts).working i = some m := by
  obtain ⟨c, k, hr⟩ := Pool.working_eq_some.1 h
  rcases Pool.runs_set hr with ⟨rfl, rfl, -⟩ | ⟨-, hold⟩
  · exact hj
  · exact Pool.working_eq_some.2 ⟨c, k, hold⟩

/-- A thread at work after a step of the environment was at work before, or is one of those that were
started. -/
theorem Pool.working_of_start {u : σ} {new : List (ι × Prog Rep β)}
    (h : (Pool.mk s (ts ++ Machine.start new)).working i = some m) :
    (Pool.mk u ts).working i = some m ∨ ∃ q, (m, q) ∈ new := by
  obtain ⟨c, k, hr⟩ := Pool.working_eq_some.1 h
  rcases Pool.runs_start hr with ⟨-, hmem⟩ | hold
  · exact .inr ⟨_, hmem⟩
  · exact .inl (Pool.working_eq_some.2 ⟨c, k, hold⟩)

/-- A thread at work after the crash of a session was at work before. -/
theorem Pool.working_of_crash {u : σ} {j : ℕ} {n : ι}
    (h : (Pool.mk s (ts.set j ⟨n, none⟩)).working i = some m) :
    i ≠ j ∧ (Pool.mk u ts).working i = some m := by
  obtain ⟨c, k, hr⟩ := Pool.working_eq_some.1 h
  rcases Pool.runs_set hr with ⟨-, -, heq⟩ | ⟨hne, hold⟩
  · cases heq
  · exact ⟨hne, Pool.working_eq_some.2 ⟨c, k, hold⟩⟩

end Working

/-- What session `i` was started for. -/
def Pool.task {C σ ι β : Type} {Rep : C → Type} (p : Pool σ Rep ι β) (i : ℕ) : Option ι :=
  (p.threads[i]?).map Thread.info

section Tasks

variable {C σ ι β : Type} {Rep : C → Type} {s u : σ} {ts : List (Thread Rep ι β)} {i j : ℕ} {n m : ι}
variable {q : Option (Prog Rep β)} {new : List (ι × Prog Rep β)}

theorem Pool.Runs.task {p : Pool σ Rep ι β} {q : Prog Rep β} (h : p.Runs i n q) :
    p.task i = some n :=
  congrArg (Option.map Thread.info) h

theorem Pool.task_set (h : (Pool.mk u ts).task i = some n) :
    (Pool.mk s (ts.set i ⟨n, q⟩)).task j = (Pool.mk u ts).task j := by
  unfold Pool.task at h ⊢
  by_cases hij : i = j
  · subst hij
    obtain ⟨t, ht, rfl⟩ := Option.map_eq_some_iff.1 h
    rw [List.getElem?_set_self (List.getElem?_eq_some_iff.1 ht).1, ht]
    rfl
  · rw [List.getElem?_set_ne hij]

theorem Pool.task_append (h : (Pool.mk u ts).task j = some m) :
    (Pool.mk s (ts ++ Machine.start new)).task j = some m := by
  obtain ⟨t, ht, rfl⟩ := Option.map_eq_some_iff.1 h
  unfold Pool.task
  rw [List.getElem?_append_left (List.getElem?_eq_some_iff.1 ht).1, ht]
  rfl

/-- A session was started for its task before, or has just been started. -/
theorem Pool.task_of_append (h : (Pool.mk s (ts ++ Machine.start new)).task j = some m) :
    (Pool.mk u ts).task j = some m ∨ ts.length ≤ j := by
  by_cases hj : j < ts.length
  · unfold Pool.task at h ⊢
    rw [List.getElem?_append_left hj] at h
    exact .inl h
  · exact .inr (Nat.not_lt.1 hj)

end Tasks

namespace Machine

variable {C σ ι β E X B : Type} {Rep : C → Type}

/-- The machine with the stage of each session. -/
def staged (M : Machine σ Rep ι β E X) (start : B) (next : ι → B → (c : C) → Rep c → B) :
    Machine (σ × (ℕ → B)) Rep ι β E X :=
  M.logged (fun _ => start) fun n i e c s stages =>
    match M.exec n i e c s with
    | none => stages
    | some (_, r) => Function.update stages i (next n (stages i) c r)

variable {M : Machine σ Rep ι β E X} {start : B} {next : ι → B → (c : C) → Rep c → B}
variable {may : ι → B → C → Prop} {Q : ι → β → B → Prop}
variable {G : Pool (σ × (ℕ → B)) Rep ι β → Act E X → Prop}

theorem staged_exec {n : ι} {i : ℕ} {e : E} {c : C} {s t : σ × (ℕ → B)} {r : Rep c} :
    (M.staged start next).exec n i e c s = some (t, r) ↔
      M.exec n i e c s.1 = some (t.1, r) ∧
        t.2 = Function.update s.2 i (next n (s.2 i) c r) := by
  refine logged_exec.trans ⟨fun ⟨hrun, hlog⟩ => ⟨hrun, ?_⟩, fun ⟨hrun, hlog⟩ => ⟨hrun, ?_⟩⟩
  · rw [hrun] at hlog
    exact hlog
  · rw [hrun]
    exact hlog

theorem staged_environ {x : X} {s t : σ × (ℕ → B)} {ts : List (ι × Prog Rep β)} :
    (M.staged start next).environ x s = some (t, ts) ↔
      M.environ x s.1 = some (t.1, ts) ∧ t.2 = s.2 :=
  logged_environ

/-- Sessions to come are at the start. -/
theorem unstarted_of_reachable {p : Pool (σ × (ℕ → B)) Rep ι β}
    (h : (M.staged start next).system.ReachableUnder G p) :
    ∀ i, p.threads.length ≤ i → p.store.2 i = start := by
  refine System.invariant
    (I := fun p : Pool (σ × (ℕ → B)) Rep ι β => ∀ i, p.threads.length ≤ i → p.store.2 i = start)
    ?_ ?_ h
  · rintro q ⟨⟨-, hstages⟩, -⟩ i -
    rw [hstages]
  · intro p a q hp _ hst j hj
    have hst : (M.staged start next).step p a = some q := hst
    cases a with
    | environ x =>
        obtain ⟨s, ts, hs, rfl⟩ := step_environ hst
        rw [List.length_append] at hj
        show s.2 j = start
        rw [(staged_environ.1 hs).2]
        exact hp j (Nat.le_trans (Nat.le_add_right _ _) hj)
    | run i e =>
        obtain ⟨n, c, k, s, r, ht, hs, rfl⟩ := step_run hst
        have hi := (List.getElem?_eq_some_iff.1 ht).1
        rw [List.length_set] at hj
        show s.2 j = start
        rw [(staged_exec.1 hs).2, Function.update_of_ne (Nat.ne_of_gt (Nat.lt_of_lt_of_le hi hj))]
        exact hp j hj
    | crash i =>
        obtain ⟨n, c, k, -, rfl⟩ := step_crash hst
        rw [List.length_set] at hj
        exact hp j hj

/-- Threads that are started within their stages stay there. -/
theorem follows_of_reachable
    (henv : ∀ (p : Pool (σ × (ℕ → B)) Rep ι β) x s ts, G p (.environ x) →
      M.environ x p.store.1 = some (s, ts) →
        ∀ n q, (n, q) ∈ ts → q.Follows (may n) (next n) (Q n) start)
    {p : Pool (σ × (ℕ → B)) Rep ι β} (h : (M.staged start next).system.ReachableUnder G p) :
    ∀ i n q, p.Runs i n q → q.Follows (may n) (next n) (Q n) (p.store.2 i) := by
  induction h with
  | init h0 =>
      intro i n r hr
      simp [Pool.Runs, h0.2] at hr
  | @step p q a hp hG hst ih =>
      intro j m r hr
      have hst : (M.staged start next).step p a = some q := hst
      cases a with
      | environ x =>
          obtain ⟨s, ts, hs, rfl⟩ := step_environ hst
          obtain ⟨hrun, hstages⟩ := staged_environ.1 hs
          show r.Follows _ _ _ (s.2 j)
          rw [hstages]
          rcases Pool.runs_start hr with ⟨hlen, hmem⟩ | hold
          · rw [unstarted_of_reachable hp j hlen]
            exact henv p x s.1 ts hG hrun m r hmem
          · exact ih j m r hold
      | run i e =>
          obtain ⟨n, c, k, s, r', ht, hs, rfl⟩ := step_run hst
          show r.Follows _ _ _ (s.2 j)
          rw [(staged_exec.1 hs).2]
          rcases Pool.runs_set hr with ⟨rfl, rfl, heq⟩ | ⟨hne, hold⟩
          · cases heq
            rw [Function.update_self]
            exact (ih j m _ ht).2 r'
          · rw [Function.update_of_ne hne]
            exact ih j m r hold
      | crash i =>
          obtain ⟨n, c, k, ht, rfl⟩ := step_crash hst
          rcases Pool.runs_set hr with ⟨_, _, heq⟩ | ⟨hne, hold⟩
          · cases heq
          · exact ih j m r hold

/-- What the stage of a working thread says of the store, where it says nothing at the start, the
thread's own steps keep it, and so does every other step. -/
theorem working_invariant {Φ : ι → B → σ → Prop}
    (hstart : ∀ n s, Φ n start s)
    (hown : ∀ (p : Pool (σ × (ℕ → B)) Rep ι β) i e n c k s r, (M.staged start next).system.ReachableUnder G p →
      p.Runs i n (.call c k) → G p (.run i e) → M.exec n i e c p.store.1 = some (s, r) →
        Φ n (p.store.2 i) p.store.1 → Φ n (next n (p.store.2 i) c r) s)
    (hother : ∀ (p : Pool (σ × (ℕ → B)) Rep ι β) i e n c k s r j m, (M.staged start next).system.ReachableUnder G p →
      p.Runs i n (.call c k) → G p (.run i e) → M.exec n i e c p.store.1 = some (s, r) →
        j ≠ i → p.working j = some m → Φ m (p.store.2 j) p.store.1 → Φ m (p.store.2 j) s)
    (henv : ∀ (p : Pool (σ × (ℕ → B)) Rep ι β) x s ts j m, G p (.environ x) → M.environ x p.store.1 = some (s, ts) →
      p.working j = some m → Φ m (p.store.2 j) p.store.1 → Φ m (p.store.2 j) s)
    (hclose : ∀ (p : Pool (σ × (ℕ → B)) Rep ι β) i j m, j ≠ i → p.working j = some m → Φ m (p.store.2 j) p.store.1 →
      Φ m (p.store.2 j) (M.close i p.store.1))
    {p : Pool (σ × (ℕ → B)) Rep ι β} (h : (M.staged start next).system.ReachableUnder G p) :
    ∀ i n, p.working i = some n → Φ n (p.store.2 i) p.store.1 := by
  induction h with
  | init h0 =>
      intro i n hn
      obtain ⟨c, k, hr⟩ := Pool.working_eq_some.1 hn
      simp [Pool.Runs, h0.2] at hr
  | @step p q a hp hG hst ih =>
      intro j m hm
      obtain ⟨c', k', hr⟩ := Pool.working_eq_some.1 hm
      have hst : (M.staged start next).step p a = some q := hst
      cases a with
      | environ x =>
          obtain ⟨s, ts, hs, rfl⟩ := step_environ hst
          obtain ⟨hrun, hstages⟩ := staged_environ.1 hs
          show Φ m (s.2 j) s.1
          rw [hstages]
          rcases Pool.runs_start hr with ⟨hlen, -⟩ | hold
          · rw [unstarted_of_reachable hp j hlen]
            exact hstart m s.1
          · have hj : p.working j = some m := Pool.working_eq_some.2 ⟨c', k', hold⟩
            exact henv p x s.1 ts j m hG hrun hj (ih j m hj)
      | run i e =>
          obtain ⟨n, c, k, s, r, ht, hs, rfl⟩ := step_run hst
          obtain ⟨hrun, hstages⟩ := staged_exec.1 hs
          show Φ m (s.2 j) s.1
          rw [hstages]
          rcases Pool.runs_set hr with ⟨rfl, rfl, -⟩ | ⟨hne, hold⟩
          · rw [Function.update_self]
            exact hown p j e m c k s.1 r hp ht hG hrun
              (ih j m (Pool.working_eq_some.2 ⟨c, k, ht⟩))
          · rw [Function.update_of_ne hne]
            have hj : p.working j = some m := Pool.working_eq_some.2 ⟨c', k', hold⟩
            exact hother p i e n c k s.1 r j m hp ht hG hrun hne hj (ih j m hj)
      | crash i =>
          obtain ⟨n, c, k, ht, rfl⟩ := step_crash hst
          rcases Pool.runs_set hr with ⟨_, _, heq⟩ | ⟨hne, hold⟩
          · cases heq
          · have hj : p.working j = some m := Pool.working_eq_some.2 ⟨c', k', hold⟩
            exact hclose p i j m hne hj (ih j m hj)

end Machine

end Lib
end Bookit

import Bookit.Circuit.Breaker
import Bookit.Lib.Alone

/-!
# Circuit.Probes — the requests let through while the breaker is half open

The state is moved to `HALF_OPEN` by a read and a later write, and a call that reads `HALF_OPEN` is
answered `true`.  We log the requests let through from the move on, until one of them records its
outcome.  There is one in the runs in which no other call touches the state meanwhile, and the probe
itself records its outcome.
-/

namespace Bookit
namespace Circuit

open Lib

/-! ## Probes -/

/-- The state becomes `HALF_OPEN`. -/
def HalfOpens (s : Store) (e : Outcome) : Cmd → Prop
  | .redis .allowRequest (.setState .halfOpened) =>
      e ≠ .link .lost ∧ s.state ≠ some .halfOpened
  | _ => False

instance {s : Store} {e : Outcome} {c : Cmd} : Decidable (HalfOpens s e c) := by
  unfold HalfOpens
  split <;> infer_instance

/-- The state is set by the outcome of a request. -/
def RecordsOutcome (e : Outcome) : Cmd → Prop
  | .redis .recordSuccess (.setState _) => e ≠ .link .lost
  | .redis .recordFailure (.setState _) => e ≠ .link .lost
  | _ => False

instance {e : Outcome} {c : Cmd} : Decidable (RecordsOutcome e c) := by
  unfold RecordsOutcome
  rcases c with ⟨op, q⟩ | _ | _
  · rcases op with ⟨⟩ <;> rcases q with ⟨⟩ <;> infer_instance
  · infer_instance
  · infer_instance

/-- The requests let through since the state became `HALF_OPEN`, while none of them has recorded its
outcome. -/
abbrev Window := Option (List ℕ)

def Window.after (i : ℕ) (e : Outcome) (c : Cmd) (s : Store) : Window → Window
  | none => if HalfOpens s e c then some [i] else none
  | some probes =>
      if RecordsOutcome e c ∧ i ∈ probes then none
      else if LetsThrough s e c then some (i :: probes)
      else some probes

/-- The replicas with the probes on record. -/
def probing (cfg : Settings) : Machine (Store × Window) Rep Proxy Response Outcome Environ :=
  (machine cfg).logged none fun _ i e c s w => w.after i e c s

def Probe (i : ℕ) (s : Store × Window) : Prop :=
  i ∈ s.2.getD []

instance {i : ℕ} {s : Store × Window} : Decidable (Probe i s) := by
  unfold Probe
  infer_instance

/-- The request has no command left, or was dropped. -/
def Ended (i : ℕ) (p : Pool (Store × Window) Rep Proxy Response) : Prop :=
  ∀ n c k, ¬ p.Runs i n (.call c k)

/-- One call of `allowRequest` at a time when nobody else does anything. -/
def callAlone (s : Store) : Option (Store × Bool) :=
  Prog.evalAlone (exec 0 (.link .ok)) allowRequest s

/-- Whenever a call is made, it is answered `true` and changes nothing. -/
def PassesAll (s : Store) : Prop :=
  ∀ seconds : ℕ, callAlone { s with now := s.now + seconds } =
    some ({ s with now := s.now + seconds }, true)

theorem passesAll_of_halfOpened {s : Store} (h : s.state = some .halfOpened) : PassesAll s := by
  intro seconds
  obtain ⟨state, openUntil, failures, now⟩ := s
  obtain rfl : state = some .halfOpened := h
  rfl

/-- At most one request has been let through since the state became `HALF_OPEN`, and where it has
ended without recording an outcome the breaker does not pass all traffic. -/
structure AdmitsOne (p : Pool (Store × Window) Rep Proxy Response) : Prop where
  one : ∀ probes, p.store.2 = some probes → probes.length ≤ 1
  abandoned : ∀ i, Probe i p.store → Ended i p → ¬ PassesAll p.store.1

/-! ## The runs -/

/-- While the state is `HALF_OPEN` no other call reads or writes it or is answered by a failure of
Redis, and no other request sets it; the probe's request is built, it finds the service reachable or
not, and its own record gets through. -/
def SingleProbe (_ : Proxy) (i : ℕ) (e : Outcome) (c : Cmd) (s : Store × Window) : Prop :=
  match c with
  | .redis .allowRequest .connect => s.1.state = some .halfOpened → e = .link .ok
  | .redis .allowRequest .getState => s.1.state ≠ some .halfOpened
  | .redis .allowRequest (.setState _) => s.1.state ≠ some .halfOpened
  | .redis _ .connect => Probe i s → e = .link .ok
  | .redis .recordFailure .getState => Probe i s → e = .link .ok
  | .redis _ (.setState _) =>
      s.1.state = some .halfOpened → if Probe i s then e ≠ .link .lost else e = .link .lost
  | .call .build => Probe i s → e = .answer .done
  | .call .execute => Probe i s → e ≠ .answer .failed
  | _ => True

instance {n : Proxy} {i : ℕ} {e : Outcome} {c : Cmd} {s : Store × Window} :
    Decidable (SingleProbe n i e c s) := by
  unfold SingleProbe
  rcases c with ⟨op, q⟩ | _ | step
  · rcases op with ⟨⟩ <;> rcases q with ⟨⟩ <;> infer_instance
  · infer_instance
  · rcases step with ⟨⟩ <;> infer_instance

/-- Every command is so, and no probe is dropped. -/
def SingleProbeRun (p : Pool (Store × Window) Rep Proxy Response) (a : Act Outcome Environ) :
    Prop :=
  Machine.Guarded SingleProbe (fun _ _ => True) p a ∧
    match a with
    | .crash i => ¬ Probe i p.store
    | _ => True

instance {p : Pool (Store × Window) Rep Proxy Response} {a : Act Outcome Environ} :
    Decidable (SingleProbeRun p a) := by
  unfold SingleProbeRun
  cases a <;> infer_instance

/-! ## The contract -/

/-- The state is `HALF_OPEN` exactly while the outcome of a probe is awaited, and it is one. -/
structure Probed (s : Store × Window) : Prop where
  state : s.2.isSome ↔ s.1.state = some .halfOpened
  one : ∀ probes, s.2 = some probes → ∃ i, probes = [i]

def admitting : Contract (Store × Window) Rep Proxy Outcome where
  inv := Probed
  rely i s t := Probe i t ↔ Probe i s
  guar _ _ _ := True
  allowed := SingleProbe
  rely_refl _ _ := Iff.rfl
  rely_trans _ _ _ _ h1 h2 := h2.trans h1

section Steps

variable {cfg : Settings} {n : Proxy} {i : ℕ} {e : Outcome} {c : Cmd} {s t : Store × Window}

/-- Nobody sets the state to `HALF_OPEN` but `allowRequest`. -/
def Cmd.Regular (c : Cmd) : Prop :=
  ∀ op state, c = .redis op (.setState state) → op ≠ .allowRequest → state ≠ .halfOpened

/-- The command sets the state. -/
def Sets (e : Outcome) (c : Cmd) : Prop :=
  ∃ op state, c = .redis op (.setState state) ∧ e ≠ .link .lost

theorem sets_of_halfOpens {v : Store} (h : HalfOpens v e c) : Sets e c := by
  unfold HalfOpens at h
  split at h
  · exact ⟨_, _, rfl, h.1⟩
  · exact h.elim

theorem sets_of_recordsOutcome (h : RecordsOutcome e c) : Sets e c := by
  unfold RecordsOutcome at h
  split at h
  · exact ⟨_, _, rfl, h⟩
  · exact ⟨_, _, rfl, h⟩
  · exact h.elim

theorem window_none (hs : Probed s) (h : s.1.state ≠ some .halfOpened) : s.2 = none :=
  Option.not_isSome_iff_eq_none.1 fun hsome => h (hs.state.1 hsome)

/-- Nobody is let through while the state is `HALF_OPEN`. -/
theorem not_letsThrough (hG : SingleProbe n i e c s) (h : s.1.state = some .halfOpened) :
    ¬ LetsThrough s.1 e c := by
  intro hthrough
  unfold LetsThrough at hthrough
  split at hthrough
  · exact hthrough (hG h)
  · exact hG h
  · exact hG h
  · exact hthrough

/-- What a step does to the window: it opens one, closes its own, or leaves it. -/
theorem window_cases {r : Rep c} (hs : Probed s) (hG : SingleProbe n i e c s) (hc : c.Regular)
    (hexec : exec i e c s.1 = some (t.1, r)) (ht : t.2 = s.2.after i e c s.1) :
    (HalfOpens s.1 e c ∧ s.2 = none ∧ t.2 = some [i] ∧ t.1.state = some .halfOpened) ∨
      (RecordsOutcome e c ∧ s.2 = some [i] ∧ t.2 = none ∧ t.1.state ≠ some .halfOpened) ∨
      (t.2 = s.2 ∧ (t.1.state = some .halfOpened ↔ s.1.state = some .halfOpened)) := by
  by_cases hsets : Sets e c
  · obtain ⟨op, state, rfl, hlost⟩ := hsets
    have hstate : t.1.state = some state := state_of_set hexec hlost
    by_cases hhalf : s.1.state = some .halfOpened
    · have hop : op ≠ .allowRequest := by
        rintro rfl
        exact hG hhalf
      obtain ⟨probes, hprobes⟩ := Option.isSome_iff_exists.1 (hs.state.2 hhalf)
      obtain ⟨k, rfl⟩ := hs.one probes hprobes
      have hprobe : Probe i s := by
        by_contra hnot
        refine hlost ?_
        cases op with
        | allowRequest => exact absurd rfl hop
        | recordSuccess => exact (if_neg hnot).mp (hG hhalf)
        | recordFailure => exact (if_neg hnot).mp (hG hhalf)
      have hmem : i ∈ [k] := by
        unfold Probe at hprobe
        rwa [hprobes] at hprobe
      have hrecords : RecordsOutcome e (.redis op (.setState state)) := by
        cases op with
        | allowRequest => exact absurd rfl hop
        | recordSuccess => exact hlost
        | recordFailure => exact hlost
      obtain rfl := List.mem_singleton.1 hmem
      rw [hprobes] at ht
      refine .inr (.inl ⟨hrecords, hprobes, ht.trans (if_pos ⟨hrecords, hmem⟩), fun heq => ?_⟩)
      exact hc op state rfl hop (Option.some.inj (hstate.symm.trans heq))
    · have hnone := window_none hs hhalf
      rw [hnone] at ht
      by_cases hopens : HalfOpens s.1 e (.redis op (.setState state))
      · refine .inl ⟨hopens, hnone, ht.trans (if_pos hopens), ?_⟩
        unfold HalfOpens at hopens
        split at hopens
        · next heq =>
          cases heq
          exact hstate
        · exact hopens.elim
      · refine .inr (.inr ⟨(ht.trans (if_neg hopens)).trans hnone.symm, iff_of_false ?_ hhalf⟩)
        rw [hstate]
        rintro heq
        obtain rfl := Option.some.inj heq
        by_cases hop : op = .allowRequest
        · subst hop
          exact hopens ⟨hlost, hhalf⟩
        · exact hc op .halfOpened rfl hop rfl
  · have hstate : t.1.state = s.1.state := by
      rcases exec_state hexec with hsame | ⟨op, state, rfl, hlost, -⟩
      · exact hsame
      · exact absurd ⟨op, state, rfl, hlost⟩ hsets
    refine .inr (.inr ⟨?_, by rw [hstate]⟩)
    cases hw : s.2 with
    | none =>
        rw [hw] at ht
        exact ht.trans (if_neg fun h => hsets (sets_of_halfOpens h))
    | some probes =>
        rw [hw] at ht
        have hhalf := hs.state.1 (Option.isSome_iff_exists.2 ⟨probes, hw⟩)
        refine ht.trans ((if_neg fun h => hsets (sets_of_recordsOutcome h.1)).trans ?_)
        exact if_neg (not_letsThrough hG hhalf)

theorem honours_step {r : Rep c} (hs : Probed s) (hG : admitting.allowed n i e c s) (hc : c.Regular)
    (hexec : exec i e c s.1 = some (t.1, r)) (ht : t.2 = s.2.after i e c s.1) :
    admitting.Honours n i s t := by
  have hprobe : ∀ k, Probe k t ↔ k ∈ t.2.getD [] := fun _ => Iff.rfl
  have hbefore : ∀ k, Probe k s ↔ k ∈ s.2.getD [] := fun _ => Iff.rfl
  rcases window_cases (n := n) hs hG hc hexec ht with ⟨-, hnone, hsome, hstate⟩ | ⟨-, hsome, hnone, hstate⟩ |
    ⟨hsame, hstate⟩
  · refine ⟨⟨by rw [hsome]; exact ⟨fun _ => hstate, fun _ => rfl⟩, fun probes hprobes => ?_⟩,
      trivial, fun j hj => ?_⟩
    · exact ⟨i, Option.some.inj (hprobes.symm.trans hsome)⟩
    · show Probe j t ↔ Probe j s
      rw [hprobe, hbefore, hsome, hnone]
      exact iff_of_false (fun h => hj (List.mem_singleton.1 h)) List.not_mem_nil
  · refine ⟨⟨by rw [hnone]; exact ⟨nofun, fun h => absurd h hstate⟩, by rw [hnone]; nofun⟩,
      trivial, fun j hj => ?_⟩
    show Probe j t ↔ Probe j s
    rw [hprobe, hbefore, hsome, hnone]
    exact iff_of_false List.not_mem_nil fun h => hj (List.mem_singleton.1 h)
  · refine ⟨⟨by rw [hsame, hstate]; exact hs.state, by rw [hsame]; exact hs.one⟩, trivial,
      fun j _ => ?_⟩
    show Probe j t ↔ Probe j s
    rw [hprobe, hbefore, hsame]

/-- A request becomes a probe only by moving the state to `HALF_OPEN`. -/
theorem not_probe_after {r : Rep c} (hs : Probed s) (hG : SingleProbe n i e c s) (hc : c.Regular)
    (hexec : exec i e c s.1 = some (t.1, r)) (ht : t.2 = s.2.after i e c s.1)
    (hopens : ¬ HalfOpens s.1 e c) (h : ¬ Probe i s) : ¬ Probe i t := by
  unfold Probe at h ⊢
  rcases window_cases hs hG hc hexec ht with ⟨hyes, -⟩ | ⟨-, -, hnone, -⟩ | ⟨hsame, -⟩
  · exact absurd hyes hopens
  · rw [hnone]
    exact List.not_mem_nil
  · rwa [hsame]

theorem regular_of_records (hc : c.Records) : c.Regular := by
  rintro op state rfl hop rfl
  cases op with
  | allowRequest => exact hop rfl
  | recordSuccess => cases hc
  | recordFailure => cases hc

theorem not_halfOpens_of_records {v : Store} (hc : c.Records) : ¬ HalfOpens v e c := by
  intro hopens
  unfold HalfOpens at hopens
  split at hopens
  · exact hc
  · exact hopens

/-- While the outcome of a probe is awaited the state is `HALF_OPEN`. -/
theorem state_of_probe (hs : Probed s) (h : Probe i s) : s.1.state = some .halfOpened := by
  refine hs.state.1 (Option.ne_none_iff_isSome.1 fun hnone => ?_)
  unfold Probe at h
  rw [hnone] at h
  exact absurd h List.not_mem_nil

/-- Once its outcome is set, a request is no probe. -/
theorem not_probe_of_set {op : Op} {state : State} {r : Option Unit} (hs : Probed s)
    (hG : admitting.allowed n i e (.redis op (.setState state)) s)
    (hc : Cmd.Records (.redis op (.setState state)))
    (hexec : exec i e (.redis op (.setState state)) s.1 = some (t.1, r))
    (ht : t.2 = s.2.after i e (.redis op (.setState state)) s.1) : ¬ Probe i t := by
  by_cases hprobe : Probe i s
  · have hhalf := state_of_probe hs hprobe
    have hrecords : RecordsOutcome e (.redis op (.setState state)) := by
      cases op with
      | allowRequest => exact hc.elim
      | recordSuccess => exact (if_pos hprobe).mp (hG hhalf)
      | recordFailure => exact (if_pos hprobe).mp (hG hhalf)
    unfold Probe at hprobe ⊢
    cases hw : s.2 with
    | none =>
        rw [hw] at hprobe
        exact absurd hprobe List.not_mem_nil
    | some probes =>
        rw [hw] at ht hprobe
        rw [ht.trans (if_pos ⟨hrecords, hprobe⟩)]
        exact List.not_mem_nil
  · exact not_probe_after (n := n) hs hG (regular_of_records hc) hexec ht (not_halfOpens_of_records hc) hprobe

end Steps

/-! ## The requests -/

section Requests

variable {cfg : Settings} {n : Proxy} {i : ℕ}

/-- What a request that is no probe does after the answer. -/
theorem admitting_other {β : Type} {p : Request β} (hp : p.Issues Cmd.Records) {s : Store × Window}
    (h : ¬ Probe i s) :
    admitting.Ensures ((probing cfg).exec n) n i (fun _ t => ¬ Probe i t) p s := by
  induction p generalizing s with
  | ret b => exact .ret fun t hst _ => mt hst.1 h
  | call c k ih =>
      refine .call fun t hst ht e hG u r hexec => ?_
      obtain ⟨hexec, hu⟩ := Machine.logged_exec.1 hexec
      exact ⟨honours_step ht hG (regular_of_records hp.1) hexec hu, ih r (hp.2 r)
        (not_probe_after (n := n) ht hG (regular_of_records hp.1) hexec hu (not_halfOpens_of_records hp.1)
          (mt hst.1 h))⟩

/-- A command after the answer that ends no window: what is known of a probe before it holds after
it. -/
theorem admitting_call {β : Type} {c : Cmd} {k : Rep c → Request β} {Q : β → Store × Window → Prop}
    {s : Store × Window} (hc : c.Records)
    (hk : ∀ t e u r, Probed t → SingleProbe n i e c t → exec i e c t.1 = some (u.1, r) →
      (Probe i u → Probe i t ∧ Probe i s) → admitting.Ensures ((probing cfg).exec n) n i Q (k r) u) :
    admitting.Ensures ((probing cfg).exec n) n i Q (.call c k) s := by
  refine .call fun t hst ht e hG u r hexec => ?_
  obtain ⟨hexec, hu⟩ := Machine.logged_exec.1 hexec
  refine ⟨honours_step ht hG (regular_of_records hc) hexec hu, hk t e u r ht hG hexec fun hprobe => ?_⟩
  by_contra hnot
  refine not_probe_after (n := n) ht hG (regular_of_records hc) hexec hu (not_halfOpens_of_records hc)
    (fun hbefore => hnot ⟨hbefore, hst.1 hbefore⟩) hprobe

/-- The connection fails where its request does not get through. -/
theorem not_ok_of_none {e : Outcome} {op : Op} {v w : Store}
    (h : exec i e (.redis op .connect) v = some (w, none)) : e ≠ .link .ok := by
  rintro rfl
  have h : some (v, some ()) = some (w, none) := h
  cases (Prod.mk.inj (Option.some.inj h)).2

theorem admitting_recordSuccess (s : Store × Window) :
    admitting.Ensures ((probing cfg).exec n) n i (fun _ t => ¬ Probe i t) recordSuccess s := by
  refine admitting_call (c := Cmd.redis .recordSuccess .connect) trivial
    fun t e u r ht hG hexec hprobe => ?_
  cases r with
  | none =>
      refine .ret fun v huv _ hv => ?_
      obtain ⟨hbefore, -⟩ := hprobe (huv.1 hv)
      exact absurd (hG hbefore) (not_ok_of_none hexec)
  | some _ =>
      refine admitting_call (c := Cmd.redis .recordSuccess .getState) trivial fun _ _ u _ _ _ _ _ => ?_
      refine admitting_call (c := Cmd.redis .recordSuccess .delFailures) trivial fun _ _ u _ _ _ _ _ => ?_
      refine .call (c := Cmd.redis .recordSuccess (.setState .closed)) fun t _ ht e hG u r hexec => ?_
      obtain ⟨hexec, hu⟩ := Machine.logged_exec.1 hexec
      have hnot := not_probe_of_set (n := n) ht hG rfl hexec hu
      exact ⟨honours_step ht hG (regular_of_records rfl) hexec hu, .ret fun v huv _ => mt huv.1 hnot⟩

/-- A probe that has found the service unreachable read the state `HALF_OPEN`, so that it trips the
breaker again whatever the failures are. -/
theorem admitting_recordFailure (s : Store × Window) :
    admitting.Ensures ((probing cfg).exec n) n i (fun _ t => ¬ Probe i t) (recordFailure cfg) s := by
  refine admitting_call (c := Cmd.redis .recordFailure .connect) trivial
    fun t e u r ht hG hexec hprobe => ?_
  cases r with
  | none =>
      refine .ret fun v huv _ hv => ?_
      exact absurd (hG (hprobe (huv.1 hv)).1) (not_ok_of_none hexec)
  | some _ =>
      refine admitting_call (c := Cmd.redis .recordFailure .getState) trivial
        fun t e u currentState ht hG hexec hprobe => ?_
      have hread : Probe i u → (currentState.getD none).getD .closed = .halfOpened := by
        intro hu
        obtain rfl : e = .link .ok := hG (hprobe hu).1
        have hexec : some (t.1, some t.1.state) = some (u.1, currentState) := hexec
        rw [← (Prod.mk.inj (Option.some.inj hexec)).2, state_of_probe ht (hprobe hu).1]
        rfl
      refine admitting_call (c := Cmd.redis .recordFailure .incrFailures) trivial
        fun t e v failures ht hG hexec hprobe => ?_
      dsimp only [Prog.perform, Prog.bind]
      split_ifs with htrips
      · refine admitting_call (c := Cmd.now .recordFailure) rfl fun _ _ _ now _ _ _ _ => ?_
        refine .call (c := Cmd.redis .recordFailure (.setState .opened)) fun t _ ht e hG w r hexec => ?_
        obtain ⟨hexec, hw⟩ := Machine.logged_exec.1 hexec
        have hnot := not_probe_of_set (n := n) ht hG rfl hexec hw
        refine ⟨honours_step ht hG (regular_of_records rfl) hexec hw, admitting_other ?_ hnot⟩
        exact ⟨trivial, fun _ => trivial⟩
      · refine .ret fun w hvw _ hw => htrips (.inr (hread ?_))
        exact (hprobe (hvw.1 hw)).2

theorem admitting_record_then {p : Request Unit} {response : Response} {s : Store × Window}
    (h : admitting.Ensures ((probing cfg).exec n) n i (fun _ t => ¬ Probe i t) p s) :
    admitting.Ensures ((probing cfg).exec n) n i (fun _ t => ¬ Probe i t)
      (p >>= fun _ => Prog.ret response) s :=
  .bind (h.weaken fun _ _ hnot => .ret fun _ hst _ => mt hst.1 hnot)

/-- Every path of a proxy on which a probe ends records its outcome. -/
theorem admitting_forward (proxy : Proxy) (s : Store × Window) :
    admitting.Ensures ((probing cfg).exec n) n i (fun _ t => ¬ Probe i t) (proxy.forward cfg) s := by
  cases proxy with
  | http =>
      refine admitting_call (c := Cmd.call .build) trivial fun t e u built ht hG hexec hprobe => ?_
      have hbuilt : Probe i u → built = .done := fun hu => by
        obtain ⟨-, rfl⟩ := exec_call hexec
        exact Outcome.answer.inj (hG (hprobe hu).1)
      cases built with
      | done =>
          refine admitting_call (c := Cmd.call .execute) trivial
            fun t e v executed ht hG hexec hprobe => ?_
          cases executed with
          | done => exact admitting_record_then (admitting_recordSuccess v)
          | unreachable => exact admitting_record_then (admitting_recordFailure v)
          | failed =>
              obtain ⟨-, rfl⟩ := exec_call hexec
              exact .ret fun w hvw _ hw => hG (hprobe (hvw.1 hw)).1 rfl
      | unreachable => exact .ret fun w huw _ hw => nomatch hbuilt (huw.1 hw)
      | failed => exact .ret fun w huw _ hw => nomatch hbuilt (huw.1 hw)
  | search =>
      refine admitting_call (c := Cmd.call .connect) trivial fun _ _ u connected _ _ _ _ => ?_
      cases connected with
      | done =>
          refine admitting_call (c := Cmd.call .search) trivial fun _ _ v searched _ _ _ _ => ?_
          cases searched with
          | done => exact admitting_record_then (admitting_recordSuccess v)
          | unreachable => exact admitting_record_then (admitting_recordFailure v)
          | failed => exact admitting_record_then (admitting_recordFailure v)
      | unreachable => exact admitting_record_then (admitting_recordFailure u)
      | failed => exact admitting_record_then (admitting_recordFailure u)

/-- A call that is answered `false` has not moved the state. -/
theorem admitting_allowRequest {s : Store × Window} (h : ¬ Probe i s) :
    admitting.Ensures ((probing cfg).exec n) n i (fun b t => b = false → ¬ Probe i t)
      allowRequest s := by
  have hanswered : ∀ b, ∀ t : Store × Window, ¬ Probe i t → admitting.Ensures ((probing cfg).exec n)
      n i (fun b u => b = false → ¬ Probe i u) (.ret b) t :=
    fun _ _ hnot => .ret fun _ htu _ _ => mt htu.1 hnot
  have hcall : ∀ {c : Cmd} {k : Rep c → Request Bool} {t : Store × Window}, ¬ Probe i t →
      c.Regular → (∀ v e, ¬ HalfOpens v e c) → (∀ r u, ¬ Probe i u →
        admitting.Ensures ((probing cfg).exec n) n i (fun b t => b = false → ¬ Probe i t) (k r) u) →
      admitting.Ensures ((probing cfg).exec n) n i (fun b t => b = false → ¬ Probe i t)
        (.call c k) t := by
    intro c k t hnot hc hopens hk
    refine .call fun t' ht ht' e hG u r hexec => ?_
    obtain ⟨hexec, hu⟩ := Machine.logged_exec.1 hexec
    exact ⟨honours_step ht' hG hc hexec hu,
      hk r u (not_probe_after (n := n) ht' hG hc hexec hu (hopens t'.1 e) (mt ht.1 hnot))⟩
  rw [allowRequest_eq]
  refine hcall h (fun _ _ heq => nomatch heq) (fun _ _ => id) fun r t ht => ?_
  cases r with
  | none => exact hanswered true t ht
  | some _ =>
      refine hcall ht (fun _ _ heq => nomatch heq) (fun _ _ => id) fun currentState u hu => ?_
      unfold checkingState
      split_ifs
      · refine hcall hu (fun _ _ heq => nomatch heq) (fun _ _ => id) fun openUntil v hv => ?_
        refine hcall hv (fun _ _ heq => nomatch heq) (fun _ _ => id) fun now w hw => ?_
        split_ifs
        · exact hanswered false w hw
        · refine .call fun w' _ hw' e hG x r hexec => ?_
          obtain ⟨hexec, hx⟩ := Machine.logged_exec.1 hexec
          refine ⟨honours_step hw' hG ?_ hexec hx, .ret fun _ _ _ => nofun⟩
          rintro op state heq hop
          obtain ⟨rfl, -⟩ := Cmd.redis.inj heq
          exact absurd rfl hop
      · exact hanswered true u hu

theorem admitting_environ :
    (probing cfg).EnvironMeets admitting (fun _ i _ t => ¬ Probe i t) fun _ _ => True := by
  rintro x s t ts hs - henv
  obtain ⟨henv, ht⟩ := Machine.logged_environ.1 henv
  have hstate : t.1.state = s.1.state := by
    cases x with
    | tick seconds =>
        have heq := (Prod.mk.inj (Option.some.inj henv)).1
        rw [← heq]
    | request proxy =>
        have heq := (Prod.mk.inj (Option.some.inj henv)).1
        rw [← heq]
  have hprobed : Probed t := ⟨by rw [ht, hstate]; exact hs.state, by rw [ht]; exact hs.one⟩
  have hrely : ∀ j, Probe j t ↔ Probe j s := fun j => by
    unfold Probe
    rw [ht]
  refine ⟨hprobed, hrely, fun i n p hp hunstarted => ?_⟩
  obtain ⟨s₀, ⟨-, hs₀⟩, hfollows⟩ := hunstarted
  have hnot : ¬ Probe i t := by
    refine mt hfollows.1 ?_
    unfold Probe
    rw [hs₀]
    exact List.not_mem_nil
  cases x with
  | tick seconds =>
      obtain ⟨-, rfl⟩ := Prod.mk.inj (Option.some.inj henv)
      exact absurd hp List.not_mem_nil
  | request proxy =>
      obtain ⟨-, rfl⟩ := Prod.mk.inj (Option.some.inj henv)
      obtain ⟨rfl, rfl⟩ := Prod.mk.inj (List.mem_singleton.1 hp)
      rw [program_eq]
      refine .bind ((admitting_allowRequest hnot).weaken fun allowed u hu => ?_)
      cases allowed with
      | true => exact admitting_forward n u
      | false => exact .ret fun v huv _ => mt huv.1 (hu rfl)

end Requests

section Runs

variable {cfg : Settings} {p : Pool (Store × Window) Rep Proxy Response}

/-- A command makes no other request a probe. -/
theorem mem_window_after {i j : ℕ} {e : Outcome} {c : Cmd} {v : Store} {w : Window}
    (h : i ∈ (w.after j e c v).getD []) : i = j ∨ i ∈ w.getD [] := by
  cases w with
  | none =>
      simp only [Window.after] at h
      split_ifs at h
      · exact .inl (List.mem_singleton.1 h)
      · exact absurd h List.not_mem_nil
  | some probes =>
      simp only [Window.after] at h
      split_ifs at h
      · exact absurd h List.not_mem_nil
      · exact List.mem_cons.1 h
      · exact .inr h

/-- No probe is dropped. -/
theorem runs_of_probe (h : (probing cfg).system.ReachableUnder SingleProbeRun p) :
    ∀ i, Probe i p.store → ∃ n q, p.Runs i n q := by
  refine System.invariant (I := fun p => ∀ i, Probe i p.store → ∃ n q, p.Runs i n q) ?_ ?_ h
  · rintro q ⟨⟨-, hnone⟩, -⟩ i hprobe
    unfold Probe at hprobe
    rw [hnone] at hprobe
    exact absurd hprobe List.not_mem_nil
  · rintro p a q hp ⟨-, hcrash⟩ hst i hprobe
    have hst : (probing cfg).step p a = some q := hst
    cases a with
    | environ x =>
        obtain ⟨s, ts, hs, rfl⟩ := Machine.step_environ hst
        obtain ⟨-, hs⟩ := Machine.logged_environ.1 hs
        obtain ⟨n, r, hr⟩ := hp i (by unfold Probe at hprobe ⊢; rwa [← hs])
        exact ⟨n, r, (List.getElem?_append_left (List.getElem?_eq_some_iff.1 hr).1).trans hr⟩
    | run j e =>
        obtain ⟨n, c, k, s, r, hj, hs, rfl⟩ := Machine.step_run hst
        obtain ⟨-, hs⟩ := Machine.logged_exec.1 hs
        have hmem : i ∈ (p.store.2.after j e c p.store.1).getD [] := by
          rw [← hs]
          exact hprobe
        by_cases hij : i = j
        · subst hij
          refine ⟨n, k r, ?_⟩
          exact List.getElem?_set_self (List.getElem?_eq_some_iff.1 hj).1
        · obtain ⟨m, r', hr'⟩ := hp i ((mem_window_after hmem).resolve_left hij)
          exact ⟨m, r', (List.getElem?_set_ne (Ne.symm hij)).trans hr'⟩
    | crash j =>
        obtain ⟨n, c, k, hj, rfl⟩ := Machine.step_crash hst
        have hij : i ≠ j := by
          rintro rfl
          exact hcrash hprobe
        obtain ⟨m, r', hr'⟩ := hp i hprobe
        exact ⟨m, r', (List.getElem?_set_ne (Ne.symm hij)).trans hr'⟩

/-- At most one request is let through between the moment the state becomes `HALF_OPEN` and the
record of its outcome, and it is not given up. -/
theorem admits_one (h : (probing cfg).system.ReachableUnder SingleProbeRun p) : AdmitsOne p := by
  have hfulfils : (probing cfg).Fulfils admitting (fun _ i _ t => ¬ Probe i t) p := by
    refine Machine.ensures_of_reachable ?_ admitting_environ
      (fun i s hs => ⟨hs, fun j _ => Iff.rfl⟩) (h.mono fun _ _ hG => hG.1)
    rintro s ⟨⟨hstate, -, -⟩, hnone⟩
    exact (⟨by rw [hnone, hstate]; exact ⟨nofun, nofun⟩, by rw [hnone]; nofun⟩ : Probed s)
  refine ⟨fun probes hprobes => ?_, fun i hprobe hended => ?_⟩
  · obtain ⟨i, rfl⟩ := hfulfils.inv.one probes hprobes
    exact Nat.le_refl 1
  · obtain ⟨n, r, hruns⟩ := runs_of_probe h i hprobe
    cases r with
    | ret response => exact absurd hprobe (hfulfils.returned hruns)
    | call c k => exact absurd hruns (hended n c k)

/-- Where a probe ends without an outcome on record, the breaker passes all traffic. -/
theorem passesAll_of_probe {s : Store × Window} {i : ℕ} (hs : Probed s) (h : Probe i s) :
    PassesAll s.1 :=
  passesAll_of_halfOpened (state_of_probe hs h)

end Runs

/-! ### A trip, and requests after its period -/

/-- The end of the open period is written, and the minute passes. -/
def tripsAndWaits : List (Act Outcome Environ) :=
  tripsFirst ++ commands 0 1 ++ [.environ (.tick 60)]

/-- One request is let through, and its outcome is awaited. -/
theorem admits_one_probe : ∃ p : Pool (Store × Window) Rep Proxy Response,
    p.store.2 = some [1] ∧ p.store.1.state = some .halfOpened ∧ AdmitsOne p := by
  obtain ⟨p, hp, htest⟩ := System.exists_reachable_of_runUnder (probing minute).system
    SingleProbeRun
    (fun p => decide (p.store.2 = some [1] ∧ p.store.1.state = some .halfOpened))
    (s := ⟨(noKeys, none), []⟩) ⟨⟨⟨rfl, rfl, rfl⟩, rfl⟩, rfl⟩
    (tripsAndWaits ++ .environ (.request .http) :: commands 1 5) (by decide +kernel)
  obtain ⟨hprobes, hstate⟩ := of_decide_eq_true htest
  exact ⟨p, hprobes, hstate, admits_one hp⟩

/-- The second request reads `HALF_OPEN` before the first has its outcome. -/
theorem half_open_admits_two :
    ¬ ∀ (cfg : Settings) (p : Pool (Store × Window) Rep Proxy Response),
      (probing cfg).system.Reachable p → AdmitsOne p := by
  intro hall
  obtain ⟨p, hp, htest⟩ := System.exists_reachable_of_run (probing minute).system
    (fun p => decide (p.store.2 = some [2, 1]))
    (s := ⟨(noKeys, none), []⟩) ⟨⟨⟨rfl, rfl, rfl⟩, rfl⟩, rfl⟩
    (tripsAndWaits ++ .environ (.request .http) :: commands 1 5 ++
      .environ (.request .http) :: commands 2 2) (by decide +kernel)
  have hlength := (hall minute p hp).one [2, 1] (of_decide_eq_true htest)
  exact absurd hlength (by decide)

end Circuit
end Bookit

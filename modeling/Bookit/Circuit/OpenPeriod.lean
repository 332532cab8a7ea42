import Bookit.Circuit.Breaker

/-!
# Circuit.OpenPeriod — calls of `allowRequest` while the breaker is open

A `recordFailure` that trips the breaker writes the state and the end of the open period by separate
commands, and a call of `allowRequest` reads them by separate commands.  We log every trip with the
calls that started in its period and the requests let through since; the calls are answered `false`
in the runs in which nobody else writes the state in the period and no call reads the end of an
earlier one.
-/

namespace Bookit
namespace Circuit

open Lib

/-! ## Trips -/

/-- The state was set to `OPEN` at the end of a `recordFailure` that read the clock at
`deadline - open_ttl_secs`. -/
structure Trip where
  deadline : ℤ
  /-- The requests whose call of `allowRequest` started since, before the deadline. -/
  begun : List ℕ
  /-- The requests let through since. -/
  allowed : List ℕ
  /-- One of those has succeeded. -/
  succeeded : Bool
  deriving DecidableEq

/-- The service has answered. -/
def Succeeds (e : Outcome) (c : Cmd) : Prop :=
  (c = .call .execute ∨ c = .call .search) ∧ e = .answer .done

instance {e : Outcome} {c : Cmd} : Decidable (Succeeds e c) := by
  unfold Succeeds
  infer_instance

/-- The call of `allowRequest` starts. -/
def Begins (c : Cmd) : Prop :=
  c = .redis .allowRequest .connect

instance {c : Cmd} : Decidable (Begins c) := by
  unfold Begins
  infer_instance

/-- The breaker is tripped. -/
def Trips (e : Outcome) (c : Cmd) : Prop :=
  c = .redis .recordFailure (.setState .opened) ∧ e ≠ .link .lost

instance {e : Outcome} {c : Cmd} : Decidable (Trips e c) := by
  unfold Trips
  infer_instance

namespace Trip

/-- The open period still runs, and no request let through in it has succeeded. -/
def InForce (s : Store) (trip : Trip) : Prop :=
  trip.succeeded = false ∧ s.now < trip.deadline

instance {s : Store} {trip : Trip} : Decidable (trip.InForce s) := by
  unfold InForce
  infer_instance

/-- No call that started in the open period was let through before such a success. -/
def Kept (trip : Trip) : Prop :=
  ∀ i ∈ trip.begun, i ∈ trip.allowed → trip.succeeded = true

instance {trip : Trip} : Decidable trip.Kept := by
  unfold Kept
  infer_instance

/-- Request `i` issues a command. -/
def after (i : ℕ) (e : Outcome) (c : Cmd) (s : Store) (trip : Trip) : Trip where
  deadline := trip.deadline
  begun := if Begins c ∧ s.now < trip.deadline then i :: trip.begun else trip.begun
  allowed := if LetsThrough s e c then i :: trip.allowed else trip.allowed
  succeeded := trip.succeeded || decide (Succeeds e c ∧ i ∈ trip.allowed)

end Trip

/-- The trips, and the clock that each request's `recordFailure` has read. -/
structure History where
  readings : ℕ → Option ℤ
  trips : List Trip

def History.after (cfg : Settings) (i : ℕ) (e : Outcome) (c : Cmd) (s : Store) (h : History) :
    History where
  readings :=
    if c = .now .recordFailure then Function.update h.readings i (some s.now) else h.readings
  trips := h.trips.map (Trip.after i e c s) ++
    if Trips e c then [⟨(h.readings i).getD s.now + cfg.openTtlSecs, [], [], false⟩] else []

/-- The replicas with the trips on record. -/
def tripping (cfg : Settings) :
    Machine (Store × History) Rep Proxy Response Outcome Environ :=
  (machine cfg).logged ⟨fun _ => none, []⟩ fun _ i e c s h => h.after cfg i e c s

/-! ## The runs -/

/-- While a trip is in force nobody else writes the state, the commands of the calls that start get
through, what they read of the end of the open period is not the end of an earlier one, and they are
answered before the deadline. -/
def Undisturbed (_ : Proxy) (i : ℕ) (e : Outcome) (c : Cmd) (s : Store × History) : Prop :=
  match c with
  | .redis .recordSuccess (.setState _) =>
      e = .link .lost ∨ ∀ trip ∈ s.2.trips, ¬ trip.InForce s.1
  | .redis .allowRequest (.setState _) =>
      e = .link .lost ∨ ∀ trip ∈ s.2.trips, ¬ trip.InForce s.1
  | .redis .allowRequest .connect => (∃ trip ∈ s.2.trips, trip.InForce s.1) → e = .link .ok
  | .redis .allowRequest .getState =>
      ∀ trip ∈ s.2.trips, i ∈ trip.begun → trip.succeeded = false →
        s.1.now < trip.deadline ∧ e = .link .ok
  | .redis .allowRequest .getOpenUntil =>
      ∀ trip ∈ s.2.trips, i ∈ trip.begun → trip.succeeded = false →
        e = .link .ok ∧ trip.deadline ≤ s.1.openUntil.getD 0
  | .now .allowRequest =>
      ∀ trip ∈ s.2.trips, i ∈ trip.begun → trip.succeeded = false → s.1.now < trip.deadline
  | _ => True

instance {proxy : Proxy} {i : ℕ} {e : Outcome} {c : Cmd} {s : Store × History} :
    Decidable (Undisturbed proxy i e c s) := by
  unfold Undisturbed
  rcases c with ⟨op, q⟩ | op | step
  · rcases op with ⟨⟩ <;> rcases q with ⟨⟩ <;> infer_instance
  · rcases op with ⟨⟩ <;> infer_instance
  · infer_instance

/-! ## The contract -/

/-- Request `i` has been let through by no trip on record. -/
def Waiting (i : ℕ) (s : Store × History) : Prop :=
  ∀ trip ∈ s.2.trips, i ∉ trip.allowed

/-- The call of request `i` has read an end of the open period that is no earlier than the deadlines
of the trips it started under. -/
def Covered (i : ℕ) (openUntil : ℤ) (s : Store × History) : Prop :=
  ∀ trip ∈ s.2.trips, i ∈ trip.begun → trip.succeeded = false → trip.deadline ≤ openUntil

/-- Every trip that the call of request `i` started under has been followed by a success. -/
def Excused (i : ℕ) (s : Store × History) : Prop :=
  ∀ trip ∈ s.2.trips, i ∈ trip.begun → trip.succeeded = true

/-- What the others leave of request `i` in the trips. -/
def Follows (i : ℕ) (h h' : History) : Prop :=
  ∀ trip' ∈ h'.trips, (i ∉ trip'.begun ∧ i ∉ trip'.allowed) ∨
    ∃ trip ∈ h.trips, trip'.deadline = trip.deadline ∧ (i ∈ trip'.begun ↔ i ∈ trip.begun) ∧
      (i ∈ trip'.allowed ↔ i ∈ trip.allowed) ∧ (trip.succeeded = true → trip'.succeeded = true)

theorem Follows.refl (i : ℕ) (h : History) : Follows i h h :=
  fun trip htrip => .inr ⟨trip, htrip, rfl, Iff.rfl, Iff.rfl, id⟩

theorem Follows.trans {i : ℕ} {h h' h'' : History} (h1 : Follows i h h') (h2 : Follows i h' h'') :
    Follows i h h'' := by
  intro trip'' htrip''
  rcases h2 trip'' htrip'' with hnew | ⟨trip', htrip', hdeadline', hbegun', hallowed', hsucceeded'⟩
  · exact .inl hnew
  · rcases h1 trip' htrip' with ⟨hbegun, hallowed⟩ | ⟨trip, htrip, hdeadline, hbegun, hallowed, hsucceeded⟩
    · exact .inl ⟨fun h => hbegun (hbegun'.1 h), fun h => hallowed (hallowed'.1 h)⟩
    · exact .inr ⟨trip, htrip, hdeadline'.trans hdeadline, hbegun'.trans hbegun,
        hallowed'.trans hallowed, fun h => hsucceeded' (hsucceeded h)⟩

/-- In the period of a trip the state is `OPEN`, and every trip is kept. -/
structure Open (s : Store × History) : Prop where
  state : ∀ trip ∈ s.2.trips, trip.InForce s.1 → s.1.state = some .opened
  kept : ∀ trip ∈ s.2.trips, trip.Kept

def opening : Contract (Store × History) Rep Proxy Outcome where
  inv := Open
  rely i s t := Follows i s.2 t.2
  guar _ _ _ := True
  allowed := Undisturbed
  rely_refl i s := .refl i s.2
  rely_trans _ _ _ _ h1 h2 := h1.trans h2

section Facts

variable {i : ℕ} {s t : Store × History}

theorem Waiting.stable (h : Waiting i s) (hst : Follows i s.2 t.2) : Waiting i t := by
  intro trip' htrip'
  rcases hst trip' htrip' with ⟨-, hallowed⟩ | ⟨trip, htrip, -, -, hallowed, -⟩
  · exact hallowed
  · exact fun h' => h trip htrip (hallowed.1 h')

theorem Covered.stable {openUntil : ℤ} (h : Covered i openUntil s) (hst : Follows i s.2 t.2) :
    Covered i openUntil t := by
  intro trip' htrip' hi hnot
  rcases hst trip' htrip' with ⟨hbegun, -⟩ | ⟨trip, htrip, hdeadline, hbegun, -, hsucceeded⟩
  · exact absurd hi hbegun
  · rw [hdeadline]
    refine h trip htrip (hbegun.1 hi) (Bool.eq_false_iff.2 fun hyes => ?_)
    rw [hsucceeded hyes] at hnot
    cases hnot

theorem Excused.stable (h : Excused i s) (hst : Follows i s.2 t.2) : Excused i t := by
  intro trip' htrip' hi
  rcases hst trip' htrip' with ⟨hbegun, -⟩ | ⟨trip, htrip, -, hbegun, -, hsucceeded⟩
  · exact absurd hi hbegun
  · exact hsucceeded (h trip htrip (hbegun.1 hi))

end Facts

/-! ## Steps -/

section Steps

variable {cfg : Settings} {n : Proxy} {i j : ℕ} {e : Outcome} {c : Cmd} {s t : Store × History}
variable {v : Store} {h : History} {trip : Trip}

theorem mem_trips_after {trip' : Trip} :
    trip' ∈ (h.after cfg i e c v).trips ↔
      (∃ trip ∈ h.trips, trip.after i e c v = trip') ∨
        Trips e c ∧ trip' = ⟨(h.readings i).getD v.now + cfg.openTtlSecs, [], [], false⟩ := by
  unfold History.after
  rw [List.mem_append, List.mem_map]
  split_ifs with htrips
  · rw [List.mem_singleton]
    simp only [htrips, true_and]
  · simp only [htrips, List.not_mem_nil, false_and]

theorem succeeded_after (hsucceeded : trip.succeeded = true) :
    (trip.after i e c v).succeeded = true := by
  simp only [Trip.after, hsucceeded, Bool.true_or]

theorem mem_begun_after (h : j ∈ (trip.after i e c v).begun) (hbegins : ¬ Begins c) :
    j ∈ trip.begun := by
  unfold Trip.after at h
  dsimp only at h
  rwa [if_neg fun hb => hbegins hb.1] at h

theorem inForce_after (hforce : (trip.after i e c v).InForce v) : trip.InForce v := by
  obtain ⟨hsucceeded, hdeadline⟩ := hforce
  exact ⟨(Bool.or_eq_false_iff.1 hsucceeded).1, hdeadline⟩

/-- A command leaves the other requests as they are, and its own unless it starts or ends a call. -/
theorem follows_after (hj : j ≠ i ∨ ¬ Begins c ∧ ¬ LetsThrough v e c) :
    Follows j h (h.after cfg i e c v) := by
  intro trip' htrip'
  rcases mem_trips_after.1 htrip' with ⟨trip, htrip, rfl⟩ | ⟨-, rfl⟩
  · refine .inr ⟨trip, htrip, rfl, ?_, ?_, succeeded_after⟩
    · unfold Trip.after
      rcases hj with hne | ⟨hbegins, -⟩
      · dsimp only
        split_ifs
        · rw [List.mem_cons, or_iff_right hne]
        · rfl
      · exact iff_of_eq (congrArg (j ∈ ·) (if_neg fun hb => hbegins hb.1))
    · unfold Trip.after
      rcases hj with hne | ⟨-, hthrough⟩
      · dsimp only
        split_ifs
        · rw [List.mem_cons, or_iff_right hne]
        · rfl
      · exact iff_of_eq (congrArg (j ∈ ·) (if_neg hthrough))
  · exact .inl ⟨List.not_mem_nil, List.not_mem_nil⟩

/-- A trip is kept where nobody is let through that started under it, short of a success. -/
theorem kept_after (hkept : trip.Kept)
    (hthrough : LetsThrough v e c → i ∈ (trip.after i e c v).begun → trip.succeeded = true)
    (hbegins : Begins c → i ∉ trip.allowed) : (trip.after i e c v).Kept := by
  intro k hbegun hallowed
  by_cases hletsThrough : LetsThrough v e c ∧ k = i
  · obtain ⟨hletsThrough, rfl⟩ := hletsThrough
    exact succeeded_after (hthrough hletsThrough hbegun)
  · have hbefore : k ∈ trip.allowed := by
      unfold Trip.after at hallowed
      dsimp only at hallowed
      split_ifs at hallowed with hl
      · exact (List.mem_cons.1 hallowed).resolve_left fun heq => hletsThrough ⟨hl, heq⟩
      · exact hallowed
    have hstarted : k ∈ trip.begun := by
      unfold Trip.after at hbegun
      dsimp only at hbegun
      split_ifs at hbegun with hb
      · refine (List.mem_cons.1 hbegun).resolve_left ?_
        rintro rfl
        exact hbegins hb.1 hbefore
      · exact hbegun
    exact succeeded_after (hkept k hstarted hbefore)

theorem state_of_trips {r : Rep c} (htrips : Trips e c) (hexec : exec i e c s.1 = some (t.1, r)) :
    t.1.state = some .opened := by
  obtain ⟨rfl, hlost⟩ := htrips
  exact state_of_set hexec hlost

/-- A command honours the contract where it neither trips the breaker with another state nor lets
through a call that started in an open period. -/
theorem honours_after {r : Rep c} (hs : Open s) (hG : opening.allowed n i e c s)
    (hwrites : ∀ state, c = .redis .recordFailure (.setState state) → state = .opened)
    (hexec : exec i e c s.1 = some (t.1, r)) (ht : t.2 = s.2.after cfg i e c s.1)
    (hthrough : LetsThrough s.1 e c → ∀ trip ∈ s.2.trips,
      i ∈ (trip.after i e c s.1).begun → trip.succeeded = true)
    (hbegins : Begins c → Waiting i s) : opening.Honours n i s t := by
  refine ⟨⟨fun trip' htrip' hforce => ?_, fun trip' htrip' => ?_⟩, trivial, fun k hk => ?_⟩
  · rw [ht] at htrip'
    rcases mem_trips_after.1 htrip' with ⟨trip, htrip, rfl⟩ | ⟨htrips, -⟩
    · have hbefore : trip.InForce s.1 := inForce_after (v := s.1) ⟨hforce.1, exec_clock hexec ▸ hforce.2⟩
      rcases exec_state hexec with hstate | ⟨op, state, rfl, hlost, hstate⟩
      · exact hstate.trans (hs.state trip htrip hbefore)
      · cases op with
        | allowRequest =>
            have hG : e = .link .lost ∨ ∀ trip ∈ s.2.trips, ¬ trip.InForce s.1 := hG
            exact absurd hbefore ((hG.resolve_left hlost) trip htrip)
        | recordSuccess =>
            have hG : e = .link .lost ∨ ∀ trip ∈ s.2.trips, ¬ trip.InForce s.1 := hG
            exact absurd hbefore ((hG.resolve_left hlost) trip htrip)
        | recordFailure => rw [hstate, hwrites state rfl]
    · exact state_of_trips htrips hexec
  · rw [ht] at htrip'
    rcases mem_trips_after.1 htrip' with ⟨trip, htrip, rfl⟩ | ⟨-, rfl⟩
    · exact kept_after (hs.kept trip htrip) (fun hl => hthrough hl trip htrip)
        fun hb => hbegins hb trip htrip
    · exact fun _ hbegun => absurd hbegun List.not_mem_nil
  · show Follows k s.2 t.2
    rw [ht]
    exact follows_after (.inl hk)

end Steps

/-! ## The requests -/

section Requests

variable {cfg : Settings} {n : Proxy} {i : ℕ}

/-- After the answer. -/
theorem opening_records {β : Type} {p : Request β} (hp : p.Issues Cmd.Records)
    (s : Store × History) :
    opening.Ensures ((tripping cfg).exec n) n i (fun _ _ => True) p s := by
  refine .of_issues (fun c hc e t u r ht hG hexec => ?_) hp
  obtain ⟨hexec, hu⟩ := Machine.logged_exec.1 hexec
  refine honours_after ht hG ?_ hexec hu ?_ ?_
  · rintro state rfl
    exact hc
  · intro hthrough
    cases c with
    | redis op q => cases op with
      | allowRequest => exact hc.elim
      | recordSuccess => exact hthrough.elim
      | recordFailure => exact hthrough.elim
    | now op => exact hthrough.elim
    | call what => exact hthrough.elim
  · rintro rfl
    exact hc.elim

theorem opening_setHalfOpened {s : Store × History} (h : Excused i s) :
    opening.Ensures ((tripping cfg).exec n) n i (fun _ _ => True)
      (.call (.redis .allowRequest (.setState .halfOpened)) fun _ => .ret true) s := by
  refine .call fun t hst ht e hG u r hexec => ?_
  obtain ⟨hexec, hu⟩ := Machine.logged_exec.1 hexec
  refine ⟨honours_after ht hG nofun hexec hu (fun _ trip htrip hbegun => ?_) nofun,
    .ret fun _ _ _ => trivial⟩
  exact h.stable hst trip htrip (mem_begun_after hbegun nofun)

theorem opening_checkingClock {s : Store × History} {openUntil : Option (Option ℤ)}
    (h : Covered i ((openUntil.getD (some 0)).getD 0) s) :
    opening.Ensures ((tripping cfg).exec n) n i (fun _ _ => True) (checkingClock openUntil) s := by
  refine .call fun t hst ht e hG u now hexec => ?_
  obtain ⟨hexec, hu⟩ := Machine.logged_exec.1 hexec
  refine ⟨honours_after ht hG nofun hexec hu (fun hthrough => hthrough.elim) nofun, ?_⟩
  obtain ⟨-, rfl⟩ := exec_now (i := i) hexec
  split_ifs with hnow
  · exact .ret fun _ _ _ => trivial
  · refine opening_setHalfOpened ?_
    have hexcused : Excused i t := by
      intro trip htrip hbegun
      by_contra hnot
      have hnot := Bool.eq_false_iff.2 hnot
      have hlate : t.1.now < trip.deadline := hG trip htrip hbegun hnot
      exact hnow (Int.lt_of_lt_of_le hlate (h.stable hst trip htrip hbegun hnot))
    exact hexcused.stable (hu ▸ follows_after (.inr ⟨nofun, id⟩))

theorem opening_checkingState {s : Store × History} (currentState : Option (Option State)) :
    opening.Ensures ((tripping cfg).exec n) n i (fun _ _ => True)
      (checkingState currentState) s := by
  unfold checkingState
  split_ifs
  · refine .call fun t hst ht e hG u openUntil hexec => ?_
    obtain ⟨hexec, hu⟩ := Machine.logged_exec.1 hexec
    refine ⟨honours_after ht hG nofun hexec hu (fun hthrough => hthrough.elim) nofun,
      opening_checkingClock ?_⟩
    have hcovered : Covered i ((openUntil.getD (some 0)).getD 0) t := by
      intro trip htrip hbegun hnot
      obtain ⟨rfl, hread⟩ := hG trip htrip hbegun hnot
      have hexec : some (t.1, some t.1.openUntil) = some (u.1, openUntil) := hexec
      obtain ⟨-, rfl⟩ := Prod.mk.inj (Option.some.inj hexec)
      exact hread
    exact hcovered.stable (hu ▸ follows_after (.inr ⟨nofun, id⟩))
  · exact .ret fun _ _ _ => trivial

/-- A request that no trip knows of asks within the contract. -/
theorem opening_allowRequest {s : Store × History} (hwaiting : Waiting i s)
    (hbegun : ∀ trip ∈ s.2.trips, i ∉ trip.begun) :
    opening.Ensures ((tripping cfg).exec n) n i (fun _ _ => True) allowRequest s := by
  rw [allowRequest_eq]
  refine .call fun t hst ht e hG u r hexec => ?_
  obtain ⟨hexec, hu⟩ := Machine.logged_exec.1 hexec
  have hwaiting : Waiting i t := hwaiting.stable hst
  refine ⟨honours_after ht hG nofun hexec hu (fun hthrough trip htrip hafter => ?_)
    fun _ => hwaiting, ?_⟩
  · have hnot : i ∉ trip.begun := by
      rcases hst trip htrip with ⟨hnot, -⟩ | ⟨trip₀, htrip₀, -, hiff, -⟩
      · exact hnot
      · exact fun hi => hbegun trip₀ htrip₀ (hiff.1 hi)
    unfold Trip.after at hafter
    dsimp only at hafter
    split_ifs at hafter with hbegins
    · by_contra hsucceeded
      exact hthrough (hG ⟨trip, htrip, Bool.eq_false_iff.2 hsucceeded, hbegins.2⟩)
    · exact absurd hafter hnot
  · cases r with
    | none => exact .ret fun _ _ _ => trivial
    | some _ =>
        refine .call fun t' hst' ht' e' hG' u' currentState hexec' => ?_
        obtain ⟨hexec', hu'⟩ := Machine.logged_exec.1 hexec'
        refine ⟨honours_after ht' hG' nofun hexec' hu' (fun hthrough trip htrip hafter => ?_) nofun,
          opening_checkingState currentState⟩
        by_contra hsucceeded
        have hsucceeded := Bool.eq_false_iff.2 hsucceeded
        obtain ⟨hlate, hlink⟩ := hG' trip htrip (mem_begun_after hafter nofun) hsucceeded
        exact hthrough ⟨hlink, ht'.state trip htrip ⟨hsucceeded, hlate⟩⟩

theorem opening_environ :
    (tripping cfg).EnvironMeets opening (fun _ _ _ _ => True) fun _ _ => True := by
  rintro x s t ts hs - henv
  obtain ⟨henv, ht⟩ := Machine.logged_environ.1 henv
  have hopen : Open t := by
    refine ⟨fun trip htrip hforce => ?_, ht ▸ hs.kept⟩
    rw [ht] at htrip
    cases x with
    | tick seconds =>
        obtain ⟨heq, -⟩ := Prod.mk.inj (Option.some.inj henv)
        rw [← heq] at hforce ⊢
        have hbefore : s.1.now + seconds < trip.deadline := hforce.2
        exact hs.state trip htrip ⟨hforce.1, by omega⟩
    | request proxy =>
        obtain ⟨heq, -⟩ := Prod.mk.inj (Option.some.inj henv)
        rw [← heq] at hforce ⊢
        exact hs.state trip htrip hforce
  have hrely : ∀ j, Follows j s.2 t.2 := fun j => ht ▸ .refl j s.2
  refine ⟨hopen, hrely, fun i n p hp hunstarted => ?_⟩
  obtain ⟨s₀, ⟨-, hs₀⟩, hfollows⟩ := hunstarted
  have hnew : ∀ trip ∈ t.2.trips, i ∉ trip.begun ∧ i ∉ trip.allowed := by
    intro trip htrip
    rcases hfollows trip htrip with hnew | ⟨trip₀, htrip₀, -⟩
    · exact hnew
    · rw [hs₀] at htrip₀
      exact absurd htrip₀ List.not_mem_nil
  cases x with
  | tick seconds =>
      obtain ⟨-, rfl⟩ := Prod.mk.inj (Option.some.inj henv)
      exact absurd hp List.not_mem_nil
  | request proxy =>
      obtain ⟨-, rfl⟩ := Prod.mk.inj (Option.some.inj henv)
      obtain ⟨rfl, rfl⟩ := Prod.mk.inj (List.mem_singleton.1 hp)
      rw [program_eq]
      refine .bind ((opening_allowRequest (fun trip htrip => (hnew trip htrip).2)
        fun trip htrip => (hnew trip htrip).1).weaken fun allowed u _ => ?_)
      cases allowed with
      | true => exact opening_records (issues_forward cfg n) u
      | false => exact .ret fun _ _ _ => trivial

end Requests

/-- In the undisturbed runs of any number of replicas no call of `allowRequest` that starts in an
open period is answered `true`, unless a request let through since the trip has succeeded. -/
theorem stays_open {cfg : Settings} {p : Pool (Store × History) Rep Proxy Response}
    (h : (tripping cfg).system.ReachableUnder
      (Machine.Guarded Undisturbed fun _ _ => True) p) : ∀ trip ∈ p.store.2.trips, trip.Kept := by
  have h : (tripping cfg).system.ReachableUnder
      (Machine.Guarded opening.allowed fun _ _ => True) p := h
  refine (Machine.ensures_of_reachable (K := opening) (Q := fun _ _ _ _ => True) ?_ ?_ ?_ h).inv.kept
  · rintro s ⟨-, hs⟩
    have hnone : s.2.trips = [] := congrArg History.trips hs
    exact (⟨by rw [hnone]; nofun, by rw [hnone]; nofun⟩ : Open s)
  · exact opening_environ
  · exact fun i s hs => ⟨hs, fun j _ => .refl j s.2⟩

/-! ### A trip and a call -/

/-- A call that starts after the end of the open period has been written. -/
theorem stays_open_minute : ∃ p : Pool (Store × History) Rep Proxy Response,
    (∃ trip ∈ p.store.2.trips, trip.begun = [1] ∧ trip.allowed = [] ∧ trip.Kept) ∧
      p.Runs 1 .http (.ret .serviceBusy) := by
  obtain ⟨p, hp, htest⟩ := System.exists_reachable_of_runUnder (tripping minute).system
    (Machine.Guarded Undisturbed fun _ _ => True)
    (fun p => decide ((∃ trip ∈ p.store.2.trips, trip.begun = [1] ∧ trip.allowed = []) ∧
      p.result 1 = some (.http, .serviceBusy)))
    (s := ⟨(noKeys, ⟨fun _ => none, []⟩), []⟩) ⟨⟨⟨rfl, rfl, rfl⟩, rfl⟩, rfl⟩
    (tripsFirst ++ commands 0 1 ++ .environ (.request .http) :: commands 1 4)
    (by decide +kernel)
  obtain ⟨⟨trip, htrip, hbegun, hallowed⟩, hresult⟩ := of_decide_eq_true htest
  exact ⟨p, ⟨trip, htrip, hbegun, hallowed, stays_open hp trip htrip⟩, Pool.result_eq_some.1 hresult⟩

/-- A call that starts before finds no end of the open period, and is let through. -/
theorem tripped_lets_through : ¬ ∀ (cfg : Settings) (p : Pool (Store × History) Rep Proxy Response),
    (tripping cfg).system.Reachable p → ∀ trip ∈ p.store.2.trips, trip.Kept := by
  intro hall
  obtain ⟨p, hp, htest⟩ := System.exists_reachable_of_run (tripping minute).system
    (fun p => decide (∃ trip ∈ p.store.2.trips, ¬ trip.Kept))
    (s := ⟨(noKeys, ⟨fun _ => none, []⟩), []⟩) ⟨⟨⟨rfl, rfl, rfl⟩, rfl⟩, rfl⟩
    (tripsFirst ++ .environ (.request .http) :: commands 1 5) (by decide +kernel)
  obtain ⟨trip, htrip, hnot⟩ := of_decide_eq_true htest
  exact hnot (hall minute p hp trip htrip)

end Circuit
end Bookit

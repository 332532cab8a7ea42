import Bookit.Outbox.NoLoss

/-!
# Outbox.Exclusive — who is at work on an event

A claim of an event lasts five minutes, and an event whose claim has timed out is taken over.  The
statements that record an outcome name the event and not the claim: a late `mark_failed` of the old
holder makes the event claimable under the new one.  Where that does not happen two claims on one event
are more than five minutes apart, and nothing but its age makes an event claimable under its holder.
-/

namespace Bookit
namespace Outbox

open Lib

/-! ## Claims -/

/-- The event that a server is at work on, and when the server claimed it. -/
structure Claim where
  server : ℕ
  event : ℕ
  since : ℕ
  deriving DecidableEq

abbrev Claims := List Claim

def release (i : ℕ) (claims : Claims) : Claims :=
  claims.filter fun c => !decide (c.server = i)

/-- A server holds an event from the answer of its claim until it has tried to record an outcome. -/
def recordClaim (_ : Unit) (i : ℕ) : Outcome → Cmd → Store → Claims → Claims
  | .db link skip, .claimNext, s, claims =>
      match (link.deliver (execClaim skip) s).2.join with
      | some (some event) => release i claims ++ [⟨i, event.id, s.now⟩]
      | _ => claims
  | _, .markPublished _, _, claims => release i claims
  | _, .deadLetter _ _, _, claims => release i claims
  | _, .scheduleRetry _ _ _, _, claims => release i claims
  | _, _, _, claims => claims

/-- The outbox servers with the claims that they hold; a server that is lost holds none. -/
def servers : Machine (Store × Claims) Rep Unit (Except String Unit) Outcome Environ :=
  machine.tracked [] recordClaim release

abbrev ServerPool := Pool (Store × Claims) Rep Unit (Except String Unit)

/-! ## What is claimed -/

/-- Two servers hold one event only where the older claim had timed out, and an event whose holder has
claimed it within five minutes is not claimable. -/
structure Exclusive (s : Store × Claims) : Prop where
  apart : ∀ c ∈ s.2, ∀ d ∈ s.2, c.server ≠ d.server → c.event = d.event →
    c.since + claimTimeout < d.since ∨ d.since + claimTimeout < c.since
  closed : ∀ c ∈ s.2, s.1.now ≤ c.since + claimTimeout → ∀ o ∈ s.1.events, o.id = c.event →
    o.claimable s.1.now = false

/-- No two servers hold one event of which the newer claim is less than five minutes old. -/
def ClaimedOnce (s : Store × Claims) : Prop :=
  ∀ c ∈ s.2, ∀ d ∈ s.2, c.server ≠ d.server → c.event = d.event → c.since ≤ d.since →
    d.since + claimTimeout ≤ s.1.now

/-- An outcome makes an event claimable only where no other server has claimed it within five
minutes. -/
def TimelyRetry (_ : Unit) (i : ℕ) : Outcome → Cmd → Store × Claims → Prop
  | .db link _, .scheduleRetry event _ _, s =>
      link ≠ .lost → ∀ c ∈ s.2, c.event = event.id → c.server ≠ i →
        c.since + claimTimeout < s.1.now
  | _, _, _ => True

/-- Time passes no further than every server has done with the event that it claimed. -/
def TimelyTick : Environ → Store × Claims → Prop
  | .tick d, s => ∀ c ∈ s.2, s.1.now + d ≤ c.since + claimTimeout
  | _, _ => True

/-- Runs in which no late outcome makes an event claimable under its holder. -/
def TimelyRetries (p : ServerPool) (a : Act Outcome Environ) : Prop :=
  Machine.Guarded TimelyRetry (fun _ _ => True) p a

/-- Runs in which no server is at work on an event for more than five minutes. -/
def TimelyServers (p : ServerPool) (a : Act Outcome Environ) : Prop :=
  Machine.Guarded (fun _ _ _ _ _ => True) TimelyTick p a

/-! ## The invariant -/

/-- As long as a claim has not timed out, its event is done or carries a claim that is as new. -/
def Kept (now : ℕ) (c : Claim) (o : OutboxEvent) : Prop :=
  now ≤ c.since + claimTimeout → o.id = c.event →
    o.publishedAt.isSome = true ∨ o.deadLetteredAt.isSome = true ∨
      ∃ u, o.processingAt = some u ∧ c.since ≤ u

theorem Kept.not_claimable {now : ℕ} {c : Claim} {o : OutboxEvent} (h : Kept now c o)
    (hnow : now ≤ c.since + claimTimeout) (hid : o.id = c.event) : o.claimable now = false := by
  unfold OutboxEvent.claimable
  rcases h hnow hid with hpub | hdead | ⟨u, hu, hle⟩
  · simp [Option.isNone_eq_false_iff.2 hpub]
  · simp [Option.isNone_eq_false_iff.2 hdead]
  · have hlt : ¬u + claimTimeout < now := by omega
    simp [hu, hlt]

structure ClaimsInv (s : Store × Claims) : Prop where
  known : ∀ c ∈ s.2, ∃ o ∈ s.1.events, o.id = c.event
  past : ∀ c ∈ s.2, c.since ≤ s.1.now
  apart : ∀ c ∈ s.2, ∀ d ∈ s.2, c.server ≠ d.server → c.event = d.event →
    c.since + claimTimeout < d.since ∨ d.since + claimTimeout < c.since
  kept : ∀ c ∈ s.2, ∀ o ∈ s.1.events, Kept s.1.now c o

theorem ClaimsInv.exclusive {s : Store × Claims} (hs : ClaimsInv s) : Exclusive s :=
  ⟨hs.apart, fun c hc hnow o ho => (hs.kept c hc o ho).not_claimable hnow⟩

theorem release_subset {i : ℕ} {claims : Claims} : release i claims ⊆ claims :=
  fun _ h => List.mem_of_mem_filter h

theorem mem_release {i : ℕ} {claims : Claims} {c : Claim} :
    c ∈ release i claims ↔ c ∈ claims ∧ c.server ≠ i := by
  simp [release]

/-- Claims that are left, and rows that are as they were. -/
theorem ClaimsInv.of_subset {s : Store × Claims} (hs : ClaimsInv s) {t : Store} {claims : Claims}
    (hnow : t.now = s.1.now) (hevents : t.events = s.1.events) (hsub : claims ⊆ s.2) :
    ClaimsInv (t, claims) := by
  refine ⟨fun c hc => ?_, fun c hc => ?_, fun c hc d hd => hs.apart c (hsub hc) d (hsub hd),
    fun c hc o ho => ?_⟩
  · obtain ⟨o, ho, hid⟩ := hs.known c (hsub hc)
    exact ⟨o, hevents ▸ ho, hid⟩
  · exact (hs.past c (hsub hc)).trans_eq hnow.symm
  · have ho : o ∈ s.1.events := hevents ▸ ho
    show Kept t.now c o
    rw [hnow]
    exact hs.kept c (hsub hc) o ho

/-- An update of one row, which keeps what the claims that are left want of it. -/
theorem ClaimsInv.update {s : Store × Claims} (hs : ClaimsInv s) {t : Store} {claims : Claims} {k : ℕ}
    {f : OutboxEvent → OutboxEvent} (hnow : t.now = s.1.now)
    (hevents : t.events = Table.updateWhere (fun o => decide (o.id = k)) f s.1.events)
    (hid : ∀ o, (f o).id = o.id) (hsub : claims ⊆ s.2)
    (hf : ∀ c ∈ claims, c.event = k → ∀ o, Kept s.1.now c o → Kept s.1.now c (f o)) :
    ClaimsInv (t, claims) := by
  refine ⟨fun c hc => ?_, fun c hc => ?_, fun c hc d hd => hs.apart c (hsub hc) d (hsub hd),
    fun c hc o ho => ?_⟩
  · obtain ⟨o, ho, hoid⟩ := hs.known c (hsub hc)
    refine ⟨_, hevents ▸ Table.mem_updateWhere_of_mem ho, ?_⟩
    split_ifs
    · rw [hid, hoid]
    · exact hoid
  · exact (hs.past c (hsub hc)).trans_eq hnow.symm
  · show Kept t.now c o
    have ho : o ∈ t.events := ho
    rw [hevents] at ho
    rw [hnow]
    rcases Table.mem_updateWhere_cases ho with ⟨ho, -⟩ | ⟨o₀, ho₀, hk, rfl⟩
    · exact hs.kept c (hsub hc) o ho
    · intro hfresh hev
      have hck : c.event = k := by
        rw [← hev, hid]
        exact of_decide_eq_true hk
      exact hf c hc hck o₀ (hs.kept c (hsub hc) o₀ ho₀) hfresh hev

/-- A new claim of an event, all other claims of which have timed out. -/
theorem ClaimsInv.take {s : Store × Claims} (hs : ClaimsInv s) {i k : ℕ}
    (hknown : ∃ o ∈ s.1.events, o.id = k)
    (hold : ∀ c ∈ s.2, c.event = k → c.since + claimTimeout < s.1.now)
    (hrow : ∀ o ∈ s.1.events, o.id = k → o.processingAt = some s.1.now) :
    ClaimsInv (s.1, release i s.2 ++ [⟨i, k, s.1.now⟩]) := by
  have hmem : ∀ c ∈ release i s.2 ++ [(⟨i, k, s.1.now⟩ : Claim)],
      (c ∈ s.2 ∧ c.server ≠ i) ∨ c = ⟨i, k, s.1.now⟩ := by
    intro c hc
    rcases List.mem_append.1 hc with hc | hc
    · exact .inl (mem_release.1 hc)
    · exact .inr (List.mem_singleton.1 hc)
  refine ⟨fun c hc => ?_, fun c hc => ?_, fun c hc d hd hne hev => ?_, fun c hc o ho => ?_⟩
  · rcases hmem c hc with ⟨hc, -⟩ | rfl
    · exact hs.known c hc
    · exact hknown
  · rcases hmem c hc with ⟨hc, -⟩ | rfl
    · exact hs.past c hc
    · exact le_rfl
  · rcases hmem c hc with ⟨hc, -⟩ | rfl <;> rcases hmem d hd with ⟨hd, -⟩ | rfl
    · exact hs.apart c hc d hd hne hev
    · exact .inl (hold c hc hev)
    · exact .inr (hold d hd hev.symm)
    · exact absurd rfl hne
  · rcases hmem c hc with ⟨hc, -⟩ | rfl
    · exact hs.kept c hc o ho
    · exact fun _ hid => .inr (.inr ⟨_, hrow o ho hid, le_rfl⟩)

/-! ## Commands -/

section Commands

variable {n : Unit} {i : ℕ} {e : Outcome} {c : Cmd} {s t : Store × Claims} {r : Rep c}

/-- A claim takes no row, or one that is claimable. -/
theorem claim_cases {skip : List ℕ} {s u : Store} {answer : Option (Option ClaimedEvent)}
    (h : execClaim skip s = (u, answer)) :
    (u = s ∧ ∀ event, answer ≠ some (some event)) ∨
      ∃ o ∈ s.events, o.claimable s.now = true ∧ u.now = s.now ∧
        u.events = Table.updateWhere (fun r => decide (r.id = o.id))
          (fun r => { r with processingAt := some s.now, attempts := r.attempts + 1 }) s.events ∧
        ∀ event, answer = some (some event) → event.id = o.id := by
  unfold execClaim at h
  cases hc : candidate skip s with
  | none =>
      rw [hc] at h
      obtain ⟨rfl, rfl⟩ := Prod.mk.inj h
      exact .inl ⟨rfl, fun event h => by cases h⟩
  | some o =>
      obtain ⟨ho, hdue⟩ := List.mem_filter.1 (List.argmin_mem (Option.mem_def.2 hc))
      obtain ⟨hclaimable, -⟩ := (Bool.and_eq_true_iff.1 hdue)
      simp only [hc] at h
      split_ifs at h with hmax
      · obtain ⟨rfl, rfl⟩ := Prod.mk.inj h
        refine .inr ⟨o, ho, hclaimable, rfl, rfl, fun event h => ?_⟩
        rw [← Option.some.inj (Option.some.inj h)]
      · obtain ⟨rfl, rfl⟩ := Prod.mk.inj h
        exact .inl ⟨rfl, fun event h => by cases h⟩

/-- The holders of a claimable event have claimed it more than five minutes ago. -/
theorem ClaimsInv.timed_out (hs : ClaimsInv s) {o : OutboxEvent} (ho : o ∈ s.1.events)
    (hclaimable : o.claimable s.1.now = true) {c : Claim} (hc : c ∈ s.2) (hev : c.event = o.id) :
    c.since + claimTimeout < s.1.now := by
  by_contra hfresh
  have hkept := (hs.kept c hc o ho).not_claimable (Nat.not_lt.1 hfresh) hev.symm
  rw [hclaimable] at hkept
  cases hkept

theorem claims_of_claimNext {skip : List ℕ} {link : Link} (hs : ClaimsInv s) :
    ClaimsInv ((link.deliver (execClaim skip) s.1).1,
      recordClaim n i (.db link skip) .claimNext s.1 s.2) := by
  cases hex : execClaim skip s.1 with
  | mk u answer =>
      rcases claim_cases hex with ⟨rfl, hnone⟩ | ⟨o, ho, hclaimable, hnow, hevents, hanswer⟩
      · cases link with
        | lost => exact hs
        | unacked =>
            simp only [Link.deliver, recordClaim, hex]
            exact hs
        | ok =>
            simp only [Link.deliver, recordClaim, hex, Option.join_some]
            exact hs
      · have hold : ∀ c ∈ s.2, c.event = o.id → c.since + claimTimeout < s.1.now :=
          fun c hc hev => hs.timed_out ho hclaimable hc hev
        have hu : ClaimsInv (u, s.2) := by
          refine hs.update hnow hevents (fun _ => rfl) (fun _ h => h) fun c hc hev _ _ hfresh => ?_
          exact absurd hfresh (Nat.not_le.2 (hold c hc hev))
        cases link with
        | lost => exact hs
        | unacked =>
            simp only [Link.deliver, recordClaim, hex]
            exact hu
        | ok =>
            simp only [Link.deliver, recordClaim, hex, Option.join_some]
            split
            · next event =>
              rw [hanswer event rfl, ← hnow]
              refine hu.take ?_ (fun c hc hev => ?_) fun x hx hid => ?_
              · refine ⟨_, hevents ▸ Table.mem_updateWhere_of_mem ho, ?_⟩
                simp
              · show c.since + claimTimeout < u.now
                rw [hnow]
                exact hold c hc hev
              · have hx : x ∈ u.events := hx
                rw [hevents] at hx
                rcases Table.mem_updateWhere_cases hx with ⟨-, hne⟩ | ⟨x₀, -, -, rfl⟩
                · exact absurd hid (of_decide_eq_false hne)
                · exact congrArg some hnow.symm
            · exact hu

/-- The record of an outcome, by a server that is done with its event. -/
theorem claims_of_outcome {link : Link} {run : Store → Store × Unit} {t : Store} {r : Option Unit}
    {k : ℕ} {f : OutboxEvent → OutboxEvent} (hs : ClaimsInv s) (h : link.deliver run s.1 = (t, r))
    (hnow : (run s.1).1.now = s.1.now)
    (hevents : (run s.1).1.events =
      Table.updateWhere (fun o => decide (o.id = k)) f s.1.events)
    (hid : ∀ o, (f o).id = o.id)
    (hf : link ≠ .lost → ∀ c ∈ s.2, c.server ≠ i → c.event = k →
      ∀ o, Kept s.1.now c o → Kept s.1.now c (f o)) :
    ClaimsInv (t, release i s.2) := by
  have hrun : link ≠ .lost → ClaimsInv ((run s.1).1, release i s.2) := by
    intro hlink
    refine hs.update hnow hevents hid release_subset fun c hc => ?_
    obtain ⟨hc, hne⟩ := mem_release.1 hc
    exact hf hlink c hc hne
  cases link with
  | ok =>
      obtain ⟨rfl, -⟩ := Prod.mk.inj h
      exact hrun nofun
  | lost =>
      obtain ⟨rfl, -⟩ := Prod.mk.inj h
      exact hs.of_subset rfl rfl release_subset
  | unacked =>
      obtain ⟨rfl, -⟩ := Prod.mk.inj h
      exact hrun nofun

/-- Every command keeps the invariant, but for a retry that comes late. -/
theorem claims_of_exec (hs : ClaimsInv s) (htimely : TimelyRetry n i e c s)
    (h : servers.exec n i e c s = some (t, r)) : ClaimsInv t := by
  obtain ⟨hex, hclaims⟩ := Machine.tracked_exec.1 h
  obtain ⟨t, claims⟩ := t
  subst hclaims
  cases e with
  | broker answer =>
      cases c with
      | basicPublish publication =>
          obtain ⟨rfl, -⟩ := Prod.mk.inj (Option.some.inj hex)
          exact hs.of_subset rfl rfl fun _ h => h
      | claimNext | markPublished _ | deadLetter _ _ | scheduleRetry _ _ _ => cases hex
  | db link skip =>
      cases c with
      | claimNext =>
          obtain ⟨rfl, -⟩ := Prod.mk.inj (Option.some.inj hex)
          exact claims_of_claimNext hs
      | markPublished event =>
          exact claims_of_outcome hs (Option.some.inj hex) rfl rfl (fun _ => rfl)
            fun _ _ _ _ _ _ _ _ _ => .inl rfl
      | deadLetter event message =>
          exact claims_of_outcome hs (Option.some.inj hex) rfl rfl (fun _ => rfl)
            fun _ _ _ _ _ _ _ _ _ => .inr (.inl rfl)
      | scheduleRetry event delay message =>
          refine claims_of_outcome hs (Option.some.inj hex) rfl rfl (fun _ => rfl)
            fun hlink c hc hne hev _ _ hfresh => ?_
          exact absurd hfresh (Nat.not_le.2 (htimely hlink c hc hev hne))
      | basicPublish publication => cases hex

end Commands

/-- The environment commits new events and lets time pass. -/
theorem claims_of_environ {x : Environ} {s t : Store × Claims}
    {new : List (Unit × Server (Except String Unit))} (hs : ClaimsInv s)
    (h : servers.environ x s = some (t, new)) : ClaimsInv t := by
  obtain ⟨hx, hclaims⟩ := Machine.tracked_environ.1 h
  obtain ⟨t, claims⟩ := t
  subst hclaims
  have hx : environ x s.1 = some (t, new) := hx
  cases x with
  | tick d =>
      obtain ⟨rfl, -⟩ := Prod.mk.inj (Option.some.inj hx)
      refine ⟨hs.known, fun c hc => ?_, hs.apart, fun c hc o ho hfresh => ?_⟩
      · exact (hs.past c hc).trans (Nat.le_add_right _ _)
      · exact hs.kept c hc o ho ((Nat.le_add_right _ _).trans hfresh)
  | commitEvent id aggregateId eventType payload age =>
      simp only [environ] at hx
      split_ifs at hx with hany
      obtain ⟨rfl, -⟩ := Prod.mk.inj (Option.some.inj hx)
      refine ⟨fun c hc => ?_, hs.past, hs.apart, fun c hc o ho hfresh hid => ?_⟩
      · obtain ⟨o, ho, hid⟩ := hs.known c hc
        exact ⟨o, List.mem_append_left _ ho, hid⟩
      · rcases List.mem_append.1 ho with ho | ho
        · exact hs.kept c hc o ho hfresh hid
        · -- the id of a new event is not that of one that is held
          obtain ⟨o', ho', hid'⟩ := hs.known c hc
          rw [List.mem_singleton.1 ho] at hid
          exact absurd (List.any_eq_true.2 ⟨o', ho', decide_eq_true (hid'.trans hid.symm)⟩) hany
  | setRequest id status failureReason =>
      obtain ⟨rfl, -⟩ := Prod.mk.inj (Option.some.inj hx)
      exact hs.of_subset rfl rfl fun _ h => h
  | startServer ttl rounds =>
      obtain ⟨rfl, -⟩ := Prod.mk.inj (Option.some.inj hx)
      exact hs.of_subset rfl rfl fun _ h => h

theorem claims_of_init {s : Store × Claims} (h : servers.init s) : ClaimsInv s := by
  obtain ⟨-, h⟩ := h
  refine ⟨?_, ?_, ?_, ?_⟩ <;> simp [h]

theorem exclusive_of_run {p : ServerPool} (h : servers.system.ReachableUnder TimelyRetries p) :
    Exclusive p.store := by
  have h : servers.system.ReachableUnder (Machine.Guarded TimelyRetry fun _ _ => True) p := h
  have hp : ClaimsInv p.store := by
    refine Machine.store_invariant (I := ClaimsInv) (fun s hs => claims_of_init hs) ?_ ?_ ?_ h
    · intro n i e c s t r hs htimely hex
      exact claims_of_exec hs htimely hex
    · intro x s t new hs _ hx
      exact claims_of_environ hs hx
    · intro i s hs
      exact hs.of_subset rfl rfl release_subset
  exact hp.exclusive

/-! ## Servers in time -/

/-- No claim is older than five minutes. -/
structure TimelyInv (s : Store × Claims) : Prop where
  claims : ClaimsInv s
  fresh : ∀ c ∈ s.2, s.1.now ≤ c.since + claimTimeout

/-- No two servers hold one event. -/
theorem TimelyInv.sole {s : Store × Claims} (hs : TimelyInv s) {c d : Claim} (hc : c ∈ s.2)
    (hd : d ∈ s.2) (hev : c.event = d.event) : c.server = d.server := by
  by_contra hne
  have hcnow := hs.claims.past c hc
  have hdnow := hs.claims.past d hd
  have hcfresh := hs.fresh c hc
  have hdfresh := hs.fresh d hd
  rcases hs.claims.apart c hc d hd hne hev with h | h <;> omega

/-- No other server gives up a claim of server `i`. -/
def holdings : Contract (Store × Claims) Rep Unit Outcome where
  inv := TimelyInv
  rely i s t := ∀ c ∈ s.2, c.server = i → c ∈ t.2
  guar _ _ _ := True
  allowed _ _ _ _ _ := True
  rely_refl _ _ _ h _ := h
  rely_trans _ _ _ _ hst htu c hc hi := htu c (hst c hc hi) hi

/-- Server `i` holds the event. -/
def Holds (i : ℕ) (event : ClaimedEvent) (s : Store × Claims) : Prop :=
  ∃ c ∈ s.2, c.server = i ∧ c.event = event.id

section Servers

variable {n : Unit} {i : ℕ} {e : Outcome} {c : Cmd} {s t : Store × Claims} {r : Rep c}

theorem Holds.later {event : ClaimedEvent} (h : Holds i event s) (hst : holdings.rely i s t) :
    Holds i event t := by
  obtain ⟨c, hc, hi, hev⟩ := h
  exact ⟨c, hst c hc hi, hi, hev⟩

theorem record_cases (n : Unit) (i : ℕ) (e : Outcome) (c : Cmd) (s : Store) (claims : Claims) :
    recordClaim n i e c s claims = claims ∨ recordClaim n i e c s claims = release i claims ∨
      ∃ k, recordClaim n i e c s claims = release i claims ++ [⟨i, k, s.now⟩] := by
  unfold recordClaim
  split
  · split
    · next event _ => exact .inr (.inr ⟨event.id, rfl⟩)
    · exact .inl rfl
  · exact .inr (.inl rfl)
  · exact .inr (.inl rfl)
  · exact .inr (.inl rfl)
  · exact .inl rfl

theorem now_of_deliver {ρ : Type} {link : Link} {run : Store → Store × ρ} {s t : Store}
    {r : Option ρ} (hrun : (run s).1.now = s.now) (h : link.deliver run s = (t, r)) :
    t.now = s.now := by
  have hnow := Link.deliver_induction (l := link) (P := fun u : Store => u.now = s.now) rfl hrun
  rwa [h] at hnow

theorem now_of_exec {s t : Store} (h : exec i e c s = some (t, r)) : t.now = s.now := by
  cases e with
  | broker answer =>
      cases c with
      | basicPublish publication =>
          obtain ⟨rfl, -⟩ := Prod.mk.inj (Option.some.inj h)
          rfl
      | claimNext | markPublished _ | deadLetter _ _ | scheduleRetry _ _ _ => cases h
  | db link skip =>
      cases c with
      | claimNext =>
          obtain ⟨rfl, -⟩ := Prod.mk.inj (Option.some.inj h)
          refine now_of_deliver ?_ (Prod.mk.eta (p := link.deliver (execClaim skip) s)).symm
          rcases claim_cases (Prod.mk.eta (p := execClaim skip s)).symm with
            ⟨hsame, -⟩ | ⟨o, -, -, hnow, -⟩
          · rw [hsame]
          · exact hnow
      | markPublished event => exact now_of_deliver rfl (Option.some.inj h)
      | deadLetter event message => exact now_of_deliver rfl (Option.some.inj h)
      | scheduleRetry event delay message => exact now_of_deliver rfl (Option.some.inj h)
      | basicPublish publication => cases h

/-- A command that is in time honours the contract. -/
theorem holdings_of_exec (hs : TimelyInv s) (htimely : TimelyRetry n i e c s)
    (h : servers.exec n i e c s = some (t, r)) : holdings.Honours n i s t := by
  obtain ⟨hex, hclaims⟩ := Machine.tracked_exec.1 h
  have hnow := now_of_exec (i := i) hex
  refine ⟨⟨claims_of_exec hs.claims htimely h, fun d hd => ?_⟩, trivial, fun j hj d hd hdj => ?_⟩
  · rw [hnow]
    rcases record_cases n i e c s.1 s.2 with heq | heq | ⟨k, heq⟩ <;> rw [hclaims, heq] at hd
    · exact hs.fresh d hd
    · exact hs.fresh d (release_subset hd)
    · rcases List.mem_append.1 hd with hd | hd
      · exact hs.fresh d (release_subset hd)
      · rw [List.mem_singleton.1 hd]
        exact Nat.le_add_right _ _
  · have hkeep : d ∈ release i s.2 := mem_release.2 ⟨hd, hdj ▸ hj⟩
    rcases record_cases n i e c s.1 s.2 with heq | heq | ⟨k, heq⟩ <;> rw [hclaims, heq]
    · exact hd
    · exact hkeep
    · exact List.mem_append_left _ hkeep

/-- The retry of a holder is in time: the event has no other holder. -/
theorem Holds.timelyRetry {event : ClaimedEvent} (h : Holds i event s) (hs : TimelyInv s) {delay : ℕ}
    {message : String} : TimelyRetry n i e (.scheduleRetry event delay message) s := by
  cases e with
  | broker answer => trivial
  | db link skip =>
      intro _ d hd hev hne
      obtain ⟨c, hc, hi, hcev⟩ := h
      exact absurd ((hs.sole hd hc (hev.trans hcev.symm)).trans hi) hne

/-- A server meets its contract. -/
abbrev InTime (n : Unit) (i : ℕ) {β : Type} (p : Server β) (s : Store × Claims) : Prop :=
  holdings.Ensures (servers.exec n) n i (fun _ _ => True) p s

theorem inTime_call {β : Type} {k : Rep c → Server β}
    (htimely : ∀ t e, holdings.rely i s t → TimelyInv t → TimelyRetry n i e c t)
    (hk : ∀ t u r e, holdings.rely i s t → servers.exec n i e c t = some (u, r) →
      InTime n i (k r) u) : InTime n i (.call c k) s := by
  intro t hst ht e _ u r hex
  exact ⟨holdings_of_exec ht (htimely t e hst ht) hex, hk t u r e hst hex⟩

theorem holds_of_claim {event : ClaimedEvent}
    (h : servers.exec n i e .claimNext s = some (t, some (some event))) : Holds i event t := by
  obtain ⟨hex, hclaims⟩ := Machine.tracked_exec.1 h
  cases e with
  | broker answer => cases hex
  | db link skip =>
      obtain ⟨-, hanswer⟩ := Prod.mk.inj (Option.some.inj hex)
      refine ⟨⟨i, event.id, s.1.now⟩, ?_, rfl, rfl⟩
      rw [hclaims]
      simp only [recordClaim, hanswer]
      exact List.mem_append_right _ (List.mem_singleton.2 rfl)

section Calls

variable {β : Type}

theorem inTime_claimNext {f : Except String (Option ClaimedEvent) → Server β}
    (h : ∀ t a, (∀ event, a = .ok (some event) → Holds i event t) → InTime n i (f a) t) :
    InTime n i (claimNext >>= f) s := by
  refine inTime_call (c := .claimNext) (fun t e _ _ => ?_) fun t u r e _ hex => ?_
  · cases e <;> trivial
  · match r with
    | none => exact h u _ fun event heq => by cases heq
    | some none => exact h u _ fun event heq => by cases heq
    | some (some event) =>
        refine h u (.ok (some event)) fun event' heq => ?_
        cases heq
        exact holds_of_claim hex

theorem inTime_publish {ttl : Option String} {event : ClaimedEvent}
    {f : Except String Unit → Server β} (hholds : Holds i event s)
    (h : ∀ t a, Holds i event t → InTime n i (f a) t) : InTime n i (publish ttl event >>= f) s := by
  unfold publish
  cases routeFor event.eventType with
  | none => exact h s _ hholds
  | some route =>
      refine inTime_call (c := .basicPublish (publication ttl route event)) (fun t e _ _ => ?_)
        fun t u r e hst hex => ?_
      · cases e <;> trivial
      · have hu : Holds i event u := by
          obtain ⟨c, hc, hi, hev⟩ := hholds.later hst
          refine ⟨c, ?_, hi, hev⟩
          rw [(Machine.tracked_exec.1 hex).2]
          cases e <;> exact hc
        match r with
        | .error _ => exact h _ _ hu
        | .ok (.ack false) => exact h _ _ hu
        | .ok (.ack true) => exact h _ _ hu
        | .ok .nack => exact h _ _ hu
        | .ok .notRequested => exact h _ _ hu

theorem inTime_markPublished {event : ClaimedEvent} {f : Except String Unit → Server β}
    (h : ∀ t a, InTime n i (f a) t) : InTime n i (markPublished event >>= f) s := by
  refine inTime_call (c := .markPublished event) (fun t e _ _ => ?_) fun _ u r _ _ _ => h u _
  cases e <;> trivial

theorem inTime_markFailed {event : ClaimedEvent} {message : String} {permanent : Bool}
    {f : Except String Unit → Server β} (hholds : Holds i event s)
    (h : ∀ t a, InTime n i (f a) t) :
    InTime n i (markFailed event message permanent >>= f) s := by
  unfold markFailed
  split_ifs
  · refine inTime_call (c := .deadLetter event message) (fun t e _ _ => ?_) fun _ u r _ _ _ => h u _
    cases e <;> trivial
  · refine inTime_call (c := .scheduleRetry event (retryDelaySeconds event.attempts) message)
      (fun t e hst ht => ?_) fun _ u r _ _ _ => h u _
    exact (hholds.later hst).timelyRetry ht

end Calls

/-- The loop meets the contract, by induction on the passes left. -/
theorem inTime_run {ttl : Option String} {rounds : ℕ} : InTime n i (run ttl rounds) s := by
  induction rounds generalizing s with
  | zero => exact Contract.Ensures.ret (fun _ _ _ => trivial)
  | succ rounds ih =>
      refine inTime_claimNext fun t a hclaim => ?_
      match a with
      | .error _ => exact Contract.Ensures.ret (fun _ _ _ => trivial)
      | .ok none => exact ih
      | .ok (some event) =>
          refine inTime_publish (hclaim event rfl) fun u b hu => ?_
          match b with
          | .ok () =>
              refine inTime_markPublished fun v c => ?_
              match c with
              | .error _ => exact Contract.Ensures.ret (fun _ _ _ => trivial)
              | .ok () => exact ih
          | .error _ =>
              refine inTime_markFailed hu fun v c => ?_
              match c with
              | .error _ => exact Contract.Ensures.ret (fun _ _ _ => trivial)
              | .ok () => exact Contract.Ensures.ret (fun _ _ _ => trivial)

end Servers

/-- The claims of a step of the environment that is in time. -/
theorem timely_of_environ {x : Environ} {s t : Store × Claims}
    {new : List (Unit × Server (Except String Unit))} (hs : TimelyInv s) (htimely : TimelyTick x s)
    (h : servers.environ x s = some (t, new)) : TimelyInv t := by
  refine ⟨claims_of_environ hs.claims h, ?_⟩
  obtain ⟨hx, hclaims⟩ := Machine.tracked_environ.1 h
  have hx : environ x s.1 = some (t.1, new) := hx
  rw [hclaims]
  cases x with
  | tick d =>
      obtain ⟨ht, -⟩ := Prod.mk.inj (Option.some.inj hx)
      rw [← ht]
      exact htimely
  | commitEvent id aggregateId eventType payload age =>
      simp only [environ] at hx
      split_ifs at hx
      obtain ⟨ht, -⟩ := Prod.mk.inj (Option.some.inj hx)
      rw [← ht]
      exact hs.fresh
  | setRequest id status failureReason =>
      obtain ⟨ht, -⟩ := Prod.mk.inj (Option.some.inj hx)
      rw [← ht]
      exact hs.fresh
  | startServer ttl rounds =>
      obtain ⟨ht, -⟩ := Prod.mk.inj (Option.some.inj hx)
      rw [← ht]
      exact hs.fresh

theorem timely_of_run {p : ServerPool} (h : servers.system.ReachableUnder TimelyServers p) :
    TimelyInv p.store := by
  have h : servers.system.ReachableUnder (Machine.Guarded holdings.allowed TimelyTick) p := h
  have hfulfils : servers.Fulfils holdings (fun _ _ _ _ => True) p := by
    refine Machine.ensures_of_reachable (fun s hs => ?_) (fun x s t new hs htimely hx => ?_)
      (fun i s hs => ?_) h
    · refine ⟨claims_of_init hs, fun c hc => ?_⟩
      have hempty : s.2 = [] := hs.2
      rw [hempty] at hc
      cases hc
    · refine ⟨timely_of_environ hs htimely hx, fun j c hc _ => ?_, fun i n q hq _ => ?_⟩
      · rw [(Machine.tracked_environ.1 hx).2]
        exact hc
      · obtain ⟨ttl, rounds, rfl⟩ := environ_starts (Machine.tracked_environ.1 hx).1 hq
        exact inTime_run
    · refine ⟨⟨hs.claims.of_subset rfl rfl release_subset, fun c hc => ?_⟩, fun j hj c hc hcj => ?_⟩
      · exact hs.fresh c (release_subset hc)
      · exact mem_release.2 ⟨hc, hcj ▸ hj⟩
  exact hfulfils.inv

/-- Where no outcome comes late, a claim excludes all others for five minutes; where no server is at
work on an event for longer, no two servers hold one event. -/
theorem claims_exclusive (p : ServerPool) :
    (servers.system.ReachableUnder TimelyRetries p → Exclusive p.store) ∧
    (servers.system.ReachableUnder TimelyServers p → ClaimedOnce p.store) := by
  refine ⟨exclusive_of_run, fun h c hc d hd hne hev _ => ?_⟩
  exact absurd ((timely_of_run h).sole hc hd hev) hne

/-! ### Runs on fixed inputs -/

instance {i : ℕ} {n : Unit} {e : Outcome} {c : Cmd} {s : Store × Claims} :
    Decidable (TimelyRetry n i e c s) := by
  unfold TimelyRetry
  split <;> infer_instance

instance {x : Environ} {s : Store × Claims} : Decidable (TimelyTick x s) := by
  unfold TimelyTick
  split <;> infer_instance

instance {p : ServerPool} {a : Act Outcome Environ} : Decidable (TimelyRetries p a) :=
  inferInstanceAs (Decidable (Machine.Guarded _ _ p a))

instance {p : ServerPool} {a : Act Outcome Environ} : Decidable (TimelyServers p a) :=
  inferInstanceAs (Decidable (Machine.Guarded _ _ p a))

def noClaims : ServerPool :=
  ⟨(⟨0, [], [], []⟩, []), []⟩

/-- A server claims an event, and another takes it over after five minutes. -/
def takenOver : List (Act Outcome Environ) :=
  [.environ (.commitEvent 1 7 "payment.requested" .null 0), .environ (.startServer none 1),
    .environ (.startServer none 1), .run 0 (.db .ok []), .environ (.tick 300001),
    .run 1 (.db .ok [])]

/-- Two servers claim two events. -/
def bothClaimed : List (Act Outcome Environ) :=
  [.environ (.commitEvent 1 7 "payment.requested" .null 0),
    .environ (.commitEvent 2 8 "payment.requested" .null 0), .environ (.startServer none 1),
    .environ (.startServer none 1), .run 0 (.db .ok []), .run 1 (.db .ok [])]

theorem claims_exclusive_held :
    (∃ p : ServerPool, p.store.2 = [⟨0, 1, 0⟩, ⟨1, 1, 300001⟩] ∧ Exclusive p.store) ∧
    ∃ p : ServerPool, p.store.2 = [⟨0, 1, 0⟩, ⟨1, 2, 0⟩] ∧ ClaimedOnce p.store := by
  constructor
  · obtain ⟨p, hp, h⟩ := System.exists_reachable_of_runUnder servers.system TimelyRetries
      (fun p : ServerPool => decide (p.store.2 = [⟨0, 1, 0⟩, ⟨1, 1, 300001⟩])) (s := noClaims)
      ⟨⟨⟨rfl, rfl⟩, rfl⟩, rfl⟩ takenOver (by decide +kernel)
    exact ⟨p, of_decide_eq_true h, (claims_exclusive p).1 hp⟩
  · obtain ⟨p, hp, h⟩ := System.exists_reachable_of_runUnder servers.system TimelyServers
      (fun p : ServerPool => decide (p.store.2 = [⟨0, 1, 0⟩, ⟨1, 2, 0⟩])) (s := noClaims)
      ⟨⟨⟨rfl, rfl⟩, rfl⟩, rfl⟩ bothClaimed (by decide +kernel)
    exact ⟨p, of_decide_eq_true h, (claims_exclusive p).2 hp⟩

/-- The first server's publication fails late; its retry makes the event claimable two seconds after
the second server has claimed it, and a third server claims it. -/
def retriedLate : List (Act Outcome Environ) :=
  [.environ (.commitEvent 1 7 "payment.requested" .null 0), .environ (.startServer none 1),
    .environ (.startServer none 1), .environ (.startServer none 1), .run 0 (.db .ok []),
    .run 0 (.broker (.error "timeout")), .environ (.tick 300001), .run 1 (.db .ok []),
    .run 0 (.db .ok []), .environ (.tick 2000), .run 2 (.db .ok [])]

theorem event_claimed_twice :
    ∃ p : ServerPool, servers.system.Reachable p ∧ ¬Exclusive p.store ∧ ¬ClaimedOnce p.store := by
  obtain ⟨p, hp, h⟩ := System.exists_reachable_of_run servers.system
    (fun p : ServerPool => decide (p.store.2 = [⟨1, 1, 300001⟩, ⟨2, 1, 302001⟩] ∧
      p.store.1.now = 302001)) (s := noClaims) ⟨⟨⟨rfl, rfl⟩, rfl⟩, rfl⟩ retriedLate
    (by decide +kernel)
  obtain ⟨hclaims, hnow⟩ := of_decide_eq_true h
  have hc : (⟨1, 1, 300001⟩ : Claim) ∈ p.store.2 := by simp [hclaims]
  have hd : (⟨2, 1, 302001⟩ : Claim) ∈ p.store.2 := by simp [hclaims]
  refine ⟨p, hp, fun hexclusive => ?_, fun honce => ?_⟩
  · have hapart := hexclusive.apart _ hc _ hd (by decide) rfl
    simp [claimTimeout] at hapart
  · have hold := honce _ hc _ hd (by decide) rfl (by decide)
    rw [hnow] at hold
    simp [claimTimeout] at hold

end Outbox
end Bookit

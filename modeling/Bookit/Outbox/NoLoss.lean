import Bookit.Outbox.Store
import Mathlib.Data.List.Nodup

/-!
# Outbox.NoLoss — what the outbox server never does to an event

An event is marked published only after a confirmed publication, a routed event is never
dead-lettered and its payment request never failed, an event without a route never reaches the
broker, and an event that is neither published nor dead-lettered stays due for a claim.  The servers
are any number of threads; each meets the contract `contract` alone, and the rely–guarantee rule
carries it to every interleaving, crash and broker answer.
-/

namespace Bookit
namespace Outbox

open Lib

/-! ## The invariant -/

/-- The broker confirmed a publication of event `id`. -/
def Confirmed (s : Store) (id : ℕ) : Prop :=
  ∃ m ∈ s.broker, m.1.messageId = id ∧ m.2 = .ok (.ack false)

def Routed (eventType : String) : Prop :=
  (routeFor eventType).isSome = true

/-- The longest time an event can be put off by a failed publication. -/
def maxRetryDelay : ℕ := 300000

structure Inv (s : Store) : Prop where
  ids : (s.events.map (·.id)).Nodup
  published : ∀ o ∈ s.events, o.publishedAt.isSome = true → Confirmed s o.id
  kept : ∀ o ∈ s.events, Routed o.eventType → o.deadLetteredAt = none
  sent : ∀ m ∈ s.broker, ∃ o ∈ s.events, o.id = m.1.messageId ∧ Routed o.eventType
  next : ∀ o ∈ s.events, o.nextAttemptAt ≤ s.now + maxRetryDelay
  claimed : ∀ o ∈ s.events, ∀ t, o.processingAt = some t → t ≤ s.now

/-- Two versions of one event: what no statement of the server writes. -/
structure SameEvent (o o' : OutboxEvent) : Prop where
  id : o'.id = o.id
  aggregateId : o'.aggregateId = o.aggregateId
  eventType : o'.eventType = o.eventType
  payload : o'.payload = o.payload

theorem SameEvent.refl (o : OutboxEvent) : SameEvent o o := ⟨rfl, rfl, rfl, rfl⟩

/-- What every step of the system keeps: committed events, and what the broker was sent. -/
structure Evolves (s t : Store) : Prop where
  events : ∀ o ∈ s.events, ∃ o' ∈ t.events, SameEvent o o'
  broker : ∀ m ∈ s.broker, m ∈ t.broker

theorem Evolves.refl (s : Store) : Evolves s s :=
  ⟨fun o ho => ⟨o, ho, .refl o⟩, fun _ h => h⟩

theorem Evolves.trans {s t u : Store} (hst : Evolves s t) (htu : Evolves t u) : Evolves s u := by
  refine ⟨fun o ho => ?_, fun m hm => htu.broker m (hst.broker m hm)⟩
  obtain ⟨o', ho', h⟩ := hst.events o ho
  obtain ⟨o'', ho'', h'⟩ := htu.events o' ho'
  exact ⟨o'', ho'', h'.id.trans h.id, h'.aggregateId.trans h.aggregateId,
    h'.eventType.trans h.eventType, h'.payload.trans h.payload⟩

theorem Confirmed.mono {s t : Store} {id : ℕ} (h : Confirmed s id) (hst : Evolves s t) :
    Confirmed t id := by
  obtain ⟨m, hm, hid, hok⟩ := h
  exact ⟨m, hst.broker m hm, hid, hok⟩

/-- The server does not fail a payment request. -/
def FailsNone (s t : Store) : Prop :=
  ∀ r ∈ t.requests, r.status = .failed → ∃ r₀ ∈ s.requests, r₀.id = r.id ∧ r₀.status = .failed

theorem FailsNone.of_eq {s t : Store} (h : t.requests = s.requests) : FailsNone s t :=
  fun r hr hf => ⟨r, h ▸ hr, rfl, hf⟩

def contract : Contract Store Rep Unit Outcome where
  inv := Inv
  rely _ := Evolves
  guar _ := FailsNone
  allowed _ _ _ _ _ := True
  rely_refl _ := Evolves.refl
  rely_trans _ _ _ _ := Evolves.trans

/-! ## Updating one row -/

/-- An update that writes neither the identity of events nor the broker's log, and that sets
`published_at` and `dead_lettered_at` only where it may, keeps the invariant. -/
theorem Inv.update {s : Store} (hs : Inv s) {p : OutboxEvent → Bool}
    {f : OutboxEvent → OutboxEvent} (requests : List PaymentRequest)
    (hsame : ∀ o, SameEvent o (f o))
    (hpub : ∀ o ∈ s.events, p o = true → (f o).publishedAt.isSome = true → Confirmed s o.id)
    (hdead : ∀ o ∈ s.events, p o = true → Routed o.eventType → (f o).deadLetteredAt = none)
    (hnext : ∀ o ∈ s.events, p o = true → (f o).nextAttemptAt ≤ s.now + maxRetryDelay)
    (hclaim : ∀ o ∈ s.events, p o = true → ∀ t, (f o).processingAt = some t → t ≤ s.now) :
    Inv { s with events := Table.updateWhere p f s.events, requests := requests } ∧
      Evolves s { s with events := Table.updateWhere p f s.events, requests := requests } := by
  have hevents : ∀ o ∈ s.events, ∃ o' ∈ Table.updateWhere p f s.events, SameEvent o o' := by
    intro o ho
    refine ⟨_, Table.mem_updateWhere_of_mem ho, ?_⟩
    by_cases hp : p o
    · simpa [hp] using hsame o
    · simpa [hp] using SameEvent.refl o
  have hcases : ∀ o ∈ Table.updateWhere p f s.events,
      o ∈ s.events ∨ ∃ o₀ ∈ s.events, p o₀ = true ∧ o = f o₀ := by
    intro o ho
    rcases Table.mem_updateWhere_cases ho with ⟨h, _⟩ | h
    · exact .inl h
    · exact .inr h
  refine ⟨⟨?_, ?_, ?_, ?_, ?_, ?_⟩, hevents, fun _ h => h⟩
  · show ((Table.updateWhere p f s.events).map (·.id)).Nodup
    rw [Table.map_updateWhere (fun o => (hsame o).id)]
    exact hs.ids
  · intro o ho hsome
    rcases hcases o ho with h | ⟨o₀, h₀, hp, rfl⟩
    · exact hs.published o h hsome
    · rw [(hsame o₀).id]
      exact hpub o₀ h₀ hp hsome
  · intro o ho hr
    rcases hcases o ho with h | ⟨o₀, h₀, hp, rfl⟩
    · exact hs.kept o h hr
    · rw [(hsame o₀).eventType] at hr
      exact hdead o₀ h₀ hp hr
  · intro m hm
    obtain ⟨o, ho, hid, hr⟩ := hs.sent m hm
    obtain ⟨o', ho', hsame'⟩ := hevents o ho
    exact ⟨o', ho', hsame'.id.trans hid, by rw [hsame'.eventType]; exact hr⟩
  · intro o ho
    rcases hcases o ho with h | ⟨o₀, h₀, hp, rfl⟩
    · exact hs.next o h
    · exact hnext o₀ h₀ hp
  · intro o ho t ht
    rcases hcases o ho with h | ⟨o₀, h₀, hp, rfl⟩
    · exact hs.claimed o h t ht
    · exact hclaim o₀ h₀ hp t ht

/-- Rows with one id are one row. -/
theorem Inv.unique {s : Store} (hs : Inv s) {o o' : OutboxEvent} (ho : o ∈ s.events)
    (ho' : o' ∈ s.events) (h : o.id = o'.id) : o = o' :=
  List.inj_on_of_nodup_map hs.ids ho ho' h

/-! ## What the statements do -/

/-- The event a server has claimed is a committed one. -/
def Claimed (event : ClaimedEvent) (s : Store) : Prop :=
  ∃ o ∈ s.events, o.id = event.id ∧ o.eventType = event.eventType

theorem Claimed.mono {event : ClaimedEvent} {s t : Store} (h : Claimed event s)
    (hst : Evolves s t) : Claimed event t := by
  obtain ⟨o, ho, hid, hty⟩ := h
  obtain ⟨o', ho', hsame⟩ := hst.events o ho
  exact ⟨o', ho', hsame.id.trans hid, hsame.eventType.trans hty⟩

theorem Claimed.routed_iff {event : ClaimedEvent} {s : Store} (hs : Inv s)
    (h : Claimed event s) {o : OutboxEvent} (ho : o ∈ s.events) (hid : o.id = event.id) :
    Routed o.eventType ↔ Routed event.eventType := by
  obtain ⟨o', ho', hid', hty⟩ := h
  rw [hs.unique ho ho' (hid.trans hid'.symm), hty]

/-- A step within the contract, from a store the step starts in. -/
def Safe (s t : Store) : Prop :=
  Inv t ∧ Evolves s t ∧ FailsNone s t

theorem Safe.refl {s : Store} (hs : Inv s) : Safe s s :=
  ⟨hs, .refl s, .of_eq rfl⟩

theorem execClaim_safe (skip : List ℕ) {s : Store} (hs : Inv s) :
    Safe s (execClaim skip s).1 ∧
      ∀ event, (execClaim skip s).2 = some (some event) → Claimed event (execClaim skip s).1 := by
  unfold execClaim
  cases hc : candidate skip s with
  | none => exact ⟨.refl hs, fun event h => by simp at h⟩
  | some o =>
      have ho : o ∈ s.events :=
        (List.mem_filter.1 (List.argmin_mem (Option.mem_def.2 hc))).1
      by_cases hmax : o.attempts < maxInteger
      · simp only [hmax, if_true]
        obtain ⟨hinv, hev⟩ := hs.update (p := fun r => decide (r.id = o.id))
          (f := fun r => { r with processingAt := some s.now, attempts := r.attempts + 1 })
          s.requests (fun r => ⟨rfl, rfl, rfl, rfl⟩)
          (fun r hr _ h => hs.published r hr h) (fun r hr _ h => hs.kept r hr h)
          (fun r hr _ => hs.next r hr) (fun r _ _ t ht => by simp at ht; omega)
        refine ⟨⟨hinv, hev, .of_eq rfl⟩, fun event h => ?_⟩
        obtain ⟨o', ho', hsame⟩ := hev.events o ho
        simp only [Option.some.injEq] at h
        subst h
        exact ⟨o', ho', hsame.id, hsame.eventType⟩
      · simp only [hmax, if_false]
        exact ⟨.refl hs, fun event h => by simp at h⟩

theorem execMarkPublished_safe {event : ClaimedEvent} {s : Store} (hs : Inv s)
    (hconf : Confirmed s event.id) : Safe s (execMarkPublished event s).1 := by
  obtain ⟨hinv, hev⟩ := hs.update (p := fun o => decide (o.id = event.id))
    (f := fun o => { o with publishedAt := some s.now, processingAt := none, lastError := none })
    (execMarkPublished event s).1.requests (fun r => ⟨rfl, rfl, rfl, rfl⟩)
    (fun o _ hp _ => by rw [of_decide_eq_true hp]; exact hconf)
    (fun o ho _ h => hs.kept o ho h) (fun o ho _ => hs.next o ho) (fun o _ _ t ht => by simp at ht)
  refine ⟨hinv, hev, fun r hr hf => ?_⟩
  unfold execMarkPublished at hr
  by_cases hty : event.eventType = "payment.requested"
  · simp only [hty, if_true] at hr
    rcases Table.mem_updateWhere_cases hr with ⟨h, _⟩ | ⟨r₀, _, _, rfl⟩
    · exact ⟨r, h, rfl, hf⟩
    · simp at hf
  · simp only [hty, if_false] at hr
    exact ⟨r, hr, rfl, hf⟩

theorem execDeadLetter_safe {event : ClaimedEvent} (message : String) {s : Store} (hs : Inv s)
    (hclaim : Claimed event s) (hroute : ¬ Routed event.eventType) :
    Safe s (execDeadLetter event message s).1 := by
  obtain ⟨hinv, hev⟩ := hs.update (p := fun o => decide (o.id = event.id))
    (f := fun o => { o with
      deadLetteredAt := some s.now, processingAt := none, lastError := some message })
    (execDeadLetter event message s).1.requests (fun r => ⟨rfl, rfl, rfl, rfl⟩)
    (fun o ho _ h => hs.published o ho h)
    (fun o ho hp h =>
      absurd ((hclaim.routed_iff hs ho (of_decide_eq_true hp)).1 h) hroute)
    (fun o ho _ => hs.next o ho) (fun o _ _ t ht => by simp at ht)
  -- a payment request is only failed for an event type that has a route
  have hty : event.eventType ≠ "payment.requested" := by
    intro h
    exact hroute (by simp [Routed, routeFor, h])
  exact ⟨hinv, hev, .of_eq (by simp [execDeadLetter, hty])⟩

theorem retryDelaySeconds_le (attempts : ℕ) : retryDelaySeconds attempts ≤ 300 :=
  min_le_right _ _

theorem execScheduleRetry_safe (event : ClaimedEvent) {delay : ℕ} (message : String) {s : Store}
    (hs : Inv s) (hdelay : delay ≤ 300) :
    Safe s (execScheduleRetry event delay message s).1 := by
  obtain ⟨hinv, hev⟩ := hs.update (p := fun o => decide (o.id = event.id))
    (f := fun o => { o with
      processingAt := none, nextAttemptAt := s.now + delay * 1000, lastError := some message })
    s.requests (fun r => ⟨rfl, rfl, rfl, rfl⟩)
    (fun o ho _ h => hs.published o ho h) (fun o ho _ h => hs.kept o ho h)
    (fun o _ _ => by simp only [maxRetryDelay]; omega) (fun o _ _ t ht => by simp at ht)
  exact ⟨hinv, hev, .of_eq rfl⟩

theorem basicPublish_safe {event : ClaimedEvent} {s : Store} {m : Publication} {a : BrokerAnswer}
    (hs : Inv s) (hclaim : Claimed event s) (hid : m.messageId = event.id)
    (hroute : Routed event.eventType) : Safe s { s with broker := s.broker ++ [(m, a)] } := by
  have hev : Evolves s { s with broker := s.broker ++ [(m, a)] } :=
    ⟨fun o ho => ⟨o, ho, .refl o⟩, fun _ h => List.mem_append_left _ h⟩
  refine ⟨⟨hs.ids, fun o ho h => (hs.published o ho h).mono hev, hs.kept, ?_, hs.next,
    hs.claimed⟩, hev, .of_eq rfl⟩
  intro m' hm'
  rcases List.mem_append.1 hm' with h | h
  · exact hs.sent m' h
  · obtain rfl := List.mem_singleton.1 h
    obtain ⟨o, ho, hoid, hty⟩ := hclaim
    exact ⟨o, ho, hoid.trans hid.symm, by rw [hty]; exact hroute⟩

/-! ## What a server ensures -/

section Server

variable {n : Unit} {i : ℕ} {α : Type}

theorem Safe.honours {s t : Store} (h : Safe s t) : contract.Honours n i s t :=
  ⟨h.1, h.2.2, fun _ _ => h.2.1⟩

theorem ensures_claimNext {Q : α → Store → Prop} {s : Store}
    {f : Except String (Option ClaimedEvent) → Server α}
    (h : ∀ t a, (∀ event, a = .ok (some event) → Claimed event t) →
      contract.Ensures exec n i Q (f a) t) :
    contract.Ensures exec n i Q (claimNext >>= f) s := by
  intro t _ ht e _ u r hex
  cases e with
  | broker a => simp [exec] at hex
  | db link skip =>
      obtain ⟨hsafe, hclaim⟩ := execClaim_safe skip ht
      simp only [exec, Option.some.injEq, Prod.mk.injEq] at hex
      obtain ⟨rfl, rfl⟩ := hex
      refine ⟨(Link.deliver_induction (P := Safe t) (.refl ht) hsafe).honours, ?_⟩
      cases link with
      | lost => exact h _ _ (fun event h => by cases h)
      | unacked => exact h _ _ (fun event h => by cases h)
      | ok =>
          cases hr : (execClaim skip t).2 with
          | none =>
              simp only [Link.deliver, hr, Option.join_some]
              exact h _ _ (fun event h => by cases h)
          | some event? =>
              simp only [Link.deliver, hr, Option.join_some]
              refine h _ _ (fun event heq => hclaim event ?_)
              rw [hr]
              exact congrArg some (by simpa using heq)

/-- A transaction that is safe where it runs, whatever the answer. -/
theorem ensures_markPublished {Q : α → Store → Prop} {s : Store} {event : ClaimedEvent}
    {f : Except String Unit → Server α} (hconf : Confirmed s event.id)
    (h : ∀ t a, contract.Ensures exec n i Q (f a) t) :
    contract.Ensures exec n i Q (markPublished event >>= f) s := by
  intro t hst ht e _ u r hex
  cases e with
  | broker a => simp [exec] at hex
  | db link skip =>
      simp only [exec, Option.some.injEq] at hex
      have hsafe : Safe t u := by
        have := Link.deliver_induction (l := link) (P := Safe t) (.refl ht)
          (execMarkPublished_safe ht (hconf.mono hst))
        rwa [hex] at this
      exact ⟨hsafe.honours, h _ _⟩

theorem ensures_markFailed {Q : α → Store → Prop} {s : Store} {event : ClaimedEvent}
    {message : String} {f : Except String Unit → Server α} (hclaim : Claimed event s)
    (h : ∀ t a, contract.Ensures exec n i Q (f a) t) :
    contract.Ensures exec n i Q
      (markFailed event message (routeFor event.eventType).isNone >>= f) s := by
  unfold markFailed
  split_ifs with hdead
  · intro t hst ht e _ u r hex
    have hroute : ¬ Routed event.eventType := by
      simp only [shouldDeadLetter, Bool.and_eq_true, Option.isNone_iff_eq_none] at hdead
      simp [Routed, hdead.1]
    cases e with
    | broker a => simp [exec] at hex
    | db link skip =>
        simp only [exec, Option.some.injEq] at hex
        have hsafe : Safe t u := by
          have := Link.deliver_induction (l := link) (P := Safe t) (.refl ht)
            (execDeadLetter_safe message ht (hclaim.mono hst) hroute)
          rwa [hex] at this
        exact ⟨hsafe.honours, h _ _⟩
  · intro t _ ht e _ u r hex
    cases e with
    | broker a => simp [exec] at hex
    | db link skip =>
        simp only [exec, Option.some.injEq] at hex
        have hsafe : Safe t u := by
          have := Link.deliver_induction (l := link) (P := Safe t) (.refl ht)
            (execScheduleRetry_safe event message ht
              (retryDelaySeconds_le event.attempts))
          rwa [hex] at this
        exact ⟨hsafe.honours, h _ _⟩

/-- A publication that returns successfully was confirmed by the broker. -/
theorem ensures_publish {Q : α → Store → Prop} {s : Store} {ttl : Option String}
    {event : ClaimedEvent} {f : Except String Unit → Server α} (hclaim : Claimed event s)
    (h : ∀ t a, Evolves s t → (a = .ok () → Confirmed t event.id) →
      contract.Ensures exec n i Q (f a) t) :
    contract.Ensures exec n i Q (publish ttl event >>= f) s := by
  unfold publish
  cases hroute : routeFor event.eventType with
  | none => exact h s _ (.refl s) (fun h => by cases h)
  | some route =>
      intro t hst ht e _ u r hex
      cases e with
      | db link skip => simp [exec] at hex
      | broker answer =>
          simp only [exec, Option.some.injEq, Prod.mk.injEq] at hex
          obtain ⟨rfl, rfl⟩ := hex
          have hsafe := basicPublish_safe (m := publication ttl route event) (a := answer) ht
            (hclaim.mono hst) rfl (by simp [Routed, hroute])
          refine ⟨hsafe.honours, ?_⟩
          have hconf : answer = .ok (.ack false) →
              Confirmed { t with broker := t.broker ++ [(publication ttl route event, answer)] }
                event.id :=
            fun heq => ⟨_, List.mem_append_right _ (List.mem_singleton.2 rfl), rfl, heq⟩
          have hst' := hst.trans hsafe.2.1
          match answer with
          | .error _ => exact h _ _ hst' (fun h => by cases h)
          | .ok (.ack false) => exact h _ _ hst' (fun _ => hconf rfl)
          | .ok (.ack true) => exact h _ _ hst' (fun h => by cases h)
          | .ok .nack => exact h _ _ hst' (fun h => by cases h)
          | .ok .notRequested => exact h _ _ hst' (fun h => by cases h)

/-- The loop meets the contract, by induction on the passes left. -/
theorem ensures_run {ttl : Option String} {rounds : ℕ} {s : Store} :
    contract.Ensures exec n i (fun _ _ => True) (run ttl rounds) s := by
  induction rounds generalizing s with
  | zero => exact Contract.Ensures.ret (fun _ _ _ => trivial)
  | succ rounds ih =>
      refine ensures_claimNext (fun t a hclaim => ?_)
      match a with
      | .error _ => exact Contract.Ensures.ret (fun _ _ _ => trivial)
      | .ok none => exact ih
      | .ok (some event) =>
          refine ensures_publish (hclaim event rfl) (fun u b htu hconf => ?_)
          match b with
          | .ok () =>
              refine ensures_markPublished (hconf rfl) (fun v c => ?_)
              match c with
              | .error _ => exact Contract.Ensures.ret (fun _ _ _ => trivial)
              | .ok () => exact ih
          | .error _ =>
              refine ensures_markFailed ((hclaim event rfl).mono htu) (fun v c => ?_)
              match c with
              | .error _ => exact Contract.Ensures.ret (fun _ _ _ => trivial)
              | .ok () => exact Contract.Ensures.ret (fun _ _ _ => trivial)

end Server

/-! ## The system -/

theorem environ_safe {x : Environ} {s t : Store}
    {ts : List (Unit × Server (Except String Unit))} (hs : Inv s)
    (h : environ x s = some (t, ts)) : Inv t ∧ Evolves s t := by
  cases x with
  | tick d =>
      simp only [environ, Option.some.injEq, Prod.mk.injEq] at h
      obtain ⟨rfl, -⟩ := h
      refine ⟨⟨hs.ids, hs.published, hs.kept, hs.sent, fun o ho => ?_, fun o ho t ht => ?_⟩,
        fun o ho => ⟨o, ho, .refl o⟩, fun _ h => h⟩
      · have := hs.next o ho
        show o.nextAttemptAt ≤ s.now + d + maxRetryDelay
        omega
      · have := hs.claimed o ho t ht
        show t ≤ s.now + d
        omega
  | commitEvent id aggregateId eventType payload age =>
      simp only [environ] at h
      split_ifs at h with hnew
      simp only [Option.some.injEq, Prod.mk.injEq] at h
      obtain ⟨rfl, -⟩ := h
      have hfresh : ∀ o ∈ s.events, o.id ≠ id := by
        intro o ho heq
        exact hnew (List.any_eq_true.2 ⟨o, ho, decide_eq_true heq⟩)
      have hmem : ∀ o, o ∈ s.events ++ [newEvent s.now id aggregateId eventType payload age] →
          o ∈ s.events ∨ o = newEvent s.now id aggregateId eventType payload age := by
        intro o ho
        simpa using ho
      have hev : Evolves s { s with
          events := s.events ++ [newEvent s.now id aggregateId eventType payload age] } :=
        ⟨fun o ho => ⟨o, List.mem_append_left _ ho, .refl o⟩, fun _ h => h⟩
      refine ⟨⟨?_, ?_, ?_, ?_, ?_, ?_⟩, hev⟩
      · simp only [List.map_append, List.map_cons, List.map_nil]
        refine List.nodup_append.2 ⟨hs.ids, List.nodup_singleton _, ?_⟩
        intro a ha b hb
        obtain ⟨o, ho, rfl⟩ := List.mem_map.1 ha
        rw [List.mem_singleton.1 hb]
        exact hfresh o ho
      · intro o ho hsome
        rcases hmem o ho with h | rfl
        · exact (hs.published o h hsome).mono hev
        · cases hsome
      · intro o ho hr
        rcases hmem o ho with h | rfl
        · exact hs.kept o h hr
        · rfl
      · intro m hm
        obtain ⟨o, ho, h⟩ := hs.sent m hm
        exact ⟨o, List.mem_append_left _ ho, h⟩
      · intro o ho
        rcases hmem o ho with h | rfl
        · exact hs.next o h
        · show s.now - age ≤ s.now + maxRetryDelay
          omega
      · intro o ho t ht
        rcases hmem o ho with h | rfl
        · exact hs.claimed o h t ht
        · cases ht
  | setRequest id status failureReason =>
      simp only [environ, Option.some.injEq, Prod.mk.injEq] at h
      obtain ⟨rfl, -⟩ := h
      exact ⟨⟨hs.ids, hs.published, hs.kept, hs.sent, hs.next, hs.claimed⟩,
        fun o ho => ⟨o, ho, .refl o⟩, fun _ h => h⟩
  | startServer ttl rounds =>
      simp only [environ, Option.some.injEq, Prod.mk.injEq] at h
      obtain ⟨rfl, -⟩ := h
      exact ⟨hs, .refl s⟩

theorem environ_starts {x : Environ} {s t : Store}
    {ts : List (Unit × Server (Except String Unit))} (h : environ x s = some (t, ts))
    {n : Unit} {p : Server (Except String Unit)} (hp : (n, p) ∈ ts) :
    ∃ ttl rounds, p = run ttl rounds := by
  cases x with
  | startServer ttl rounds =>
      simp only [environ, Option.some.injEq, Prod.mk.injEq] at h
      obtain ⟨-, rfl⟩ := h
      exact ⟨ttl, rounds, by simpa using hp⟩
  | commitEvent =>
      simp only [environ] at h
      split_ifs at h
      simp only [Option.some.injEq, Prod.mk.injEq] at h
      simp [← h.2] at hp
  | tick d =>
      simp only [environ, Option.some.injEq, Prod.mk.injEq] at h
      simp [← h.2] at hp
  | setRequest =>
      simp only [environ, Option.some.injEq, Prod.mk.injEq] at h
      simp [← h.2] at hp

theorem fulfils_of_reachable {p : Pool Store Rep Unit (Except String Unit)}
    (h : machine.system.Reachable p) :
    machine.Fulfils contract (fun _ _ _ _ => True) p := by
  refine Machine.ensures_of_reachable ?_ ?_ ?_
    (Machine.reachable_guarded (fun _ _ _ _ _ => trivial) h)
  · rintro s ⟨he, hb⟩
    refine ⟨by simp [he], ?_, ?_, ?_, ?_, ?_⟩ <;> simp [he, hb]
  · intro x s t ts hs _ hx
    obtain ⟨ht, hev⟩ := environ_safe hs hx
    refine ⟨ht, fun _ => hev, fun i n q hq _ => ?_⟩
    obtain ⟨ttl, rounds, rfl⟩ := environ_starts hx hq
    exact ensures_run
  · exact fun i s hs => ⟨hs, fun _ _ => .refl s⟩

/-- An event that is neither published nor dead-lettered meets the condition of the claim query
once its next attempt is due and a claim on it, if there is one, has timed out. -/
theorem claimable_of_due {o : OutboxEvent} {t : ℕ} (hpub : o.publishedAt = none)
    (hdead : o.deadLetteredAt = none) (hnext : o.nextAttemptAt ≤ t)
    (hclaim : ∀ c, o.processingAt = some c → c + claimTimeout < t) : o.claimable t = true := by
  unfold OutboxEvent.claimable
  cases hc : o.processingAt with
  | none => simp [hpub, hdead, hnext]
  | some c => simp [hpub, hdead, hnext, hclaim c hc]

/-- No event is lost, sent without a route or given up while it has one, and none is marked
published without a confirmation, in any interleaving of any number of outbox servers. -/
theorem outbox_no_loss {p : Pool Store Rep Unit (Except String Unit)}
    (h : machine.system.Reachable p) :
    (∀ o ∈ p.store.events, o.publishedAt.isSome = true → Confirmed p.store o.id) ∧
    (∀ o ∈ p.store.events, (routeFor o.eventType).isSome = true → o.deadLetteredAt = none) ∧
    (∀ i e q, machine.step p (.run i e) = some q → ∀ r ∈ q.store.requests, r.status = .failed →
      ∃ r₀ ∈ p.store.requests, r₀.id = r.id ∧ r₀.status = .failed) ∧
    (∀ m ∈ p.store.broker, ∀ o ∈ p.store.events, o.id = m.1.messageId →
      (routeFor o.eventType).isSome = true) ∧
    (∀ a q, machine.step p a = some q → ∀ o ∈ p.store.events,
      ∃ o' ∈ q.store.events, SameEvent o o') ∧
    (∀ o ∈ p.store.events, o.publishedAt = none → o.deadLetteredAt = none →
      (∀ t, o.nextAttemptAt ≤ t → (∀ c, o.processingAt = some c → c + claimTimeout < t) →
        o.claimable t = true) ∧
      (∀ t, p.store.now + maxRetryDelay < t → o.claimable t = true)) := by
  have hp := fulfils_of_reachable h
  refine ⟨hp.inv.published, hp.inv.kept, ?_, ?_, ?_, ?_⟩
  · intro i e q hstep
    obtain ⟨n, c, k, s, r, ht, hs, rfl⟩ := Machine.step_run hstep
    exact ((hp.threads i n _ ht).exec_step hp.inv trivial hs).1.guar
  · intro m hm o ho hid
    obtain ⟨o', ho', hid', hr⟩ := hp.inv.sent m hm
    rw [hp.inv.unique ho ho' (hid.trans hid'.symm)]
    exact hr
  · intro a q hstep o ho
    cases a with
    | environ x =>
        obtain ⟨s, ts, hs, rfl⟩ := Machine.step_environ hstep
        exact (environ_safe hp.inv hs).2.events o ho
    | run i e =>
        obtain ⟨n, c, k, s, r, ht, hs, rfl⟩ := Machine.step_run hstep
        exact (((hp.threads i n _ ht).exec_step hp.inv trivial hs).1.rely (i + 1) (by omega)).events o ho
    | crash i =>
        obtain ⟨n, c, k, ht, rfl⟩ := Machine.step_crash hstep
        exact ⟨o, ho, .refl o⟩
  · intro o ho hpub hdead
    refine ⟨fun t => claimable_of_due hpub hdead, fun t ht => ?_⟩
    refine claimable_of_due hpub hdead ?_ ?_
    · have := hp.inv.next o ho
      omega
    · intro c hc
      have := hp.inv.claimed o ho c hc
      simp only [maxRetryDelay, claimTimeout] at *
      omega

/-- The rule at a run in which a server claims, publishes and marks an event. -/
theorem outbox_no_loss_published :
    ∃ p, machine.system.Reachable p ∧
      p.store.events.any (fun o => o.publishedAt.isSome) = true ∧
      ∀ o ∈ p.store.events, o.publishedAt.isSome = true → Confirmed p.store o.id := by
  obtain ⟨p, hp, hpub⟩ := System.exists_reachable_of_run machine.system
    (fun p => p.store.events.any fun o => o.publishedAt.isSome) (s := ⟨⟨0, [], [], []⟩, []⟩)
    ⟨⟨rfl, rfl⟩, rfl⟩
    [.environ (.commitEvent 1 7 "payment.requested" .null 0),
      .environ (.startServer none 1), .run 0 (.db .ok []), .run 0 (.broker (.ok (.ack false))),
      .run 0 (.db .ok [])] (by decide)
  exact ⟨p, hp, hpub, (outbox_no_loss hp).1⟩

end Outbox
end Bookit

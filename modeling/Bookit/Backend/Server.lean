import Bookit.Backend.Services

/-!
# Backend.Server — every step of an outbox server is a turn

A server holds a claim on a row of the outbox.  It marks the row as published when the broker has
confirmed the message, which is then in the queue; it gives up no row of a known type.
-/

namespace Bookit
namespace Backend

open Lib Payments

section Server

variable {X : Prop} {encode : OutboxRow → Json} {n : Unit} {i : ℕ} {s t : Store}

/-! ## Statements -/

/-- The server holds a claim on the row. -/
def Claimed (event : Outbox.ClaimedEvent) (s : Store) : Prop :=
  (event.id, event.eventType, event.aggregateId) ∈ s.events.map column

theorem Claimed.mono {event : Outbox.ClaimedEvent} (h : Claimed event s) (hst : Progress X s t) :
    Claimed event t :=
  hst.events.subset h

theorem Filed.row (hs : Filed s) {k aggregate : ℕ} {type : String}
    (h : (k, type, aggregate) ∈ s.events.map column) :
    ∃ row, s.pg.outbox[k]? = some row ∧ eventType row = type ∧ aggregateId row = aggregate := by
  rw [hs.columns] at h
  obtain ⟨k', hk', heq⟩ := List.mem_mapIdx.1 h
  obtain ⟨rfl, htype, haggregate⟩ : k' = k ∧ _ ∧ _ := by simpa using heq
  exact ⟨_, List.getElem?_eq_getElem hk', htype, haggregate⟩

theorem Filed.type_eq (hs : Filed s) {event : Outbox.ClaimedEvent} (hclaimed : Claimed event s)
    {e : Outbox.OutboxEvent} (he : e ∈ s.events) (hid : e.id = event.id) :
    e.eventType = event.eventType := by
  obtain ⟨row, hrow, htype, -⟩ := hs.row hclaimed
  obtain ⟨row', hrow', htype', -⟩ := hs.row (List.mem_map_of_mem (f := column) he)
  rw [hid, hrow] at hrow'
  obtain rfl := Option.some.inj hrow'
  exact htype'.symm.trans htype

theorem queue_subset_enqueued (queue : List ℕ) (queued : Bool) (c : Outbox.Cmd) (e : Outbox.Outcome) :
    queue ⊆ enqueued queue queued c e := by
  unfold enqueued
  split
  · split_ifs
    · exact List.subset_append_left _ _
    · exact fun _ h => h
  · exact fun _ h => h

/-- A statement of the outbox server, whatever it does to the requests. -/
theorem outbox_turn {e : Outbox.Outcome} {queued : Bool} {c : Outbox.Cmd} {v : Outbox.Store}
    {r : Outbox.Rep c} (hs : Filed s) (hv : Outbox.exec i e c s.server = some (v, r))
    (ht : t = { s.putServer v with queue := enqueued s.queue queued c e })
    (hevents : EventsMoved X s t) : (turns X encode).Honours n i s t := by
  obtain ⟨g, hg, hsettles⟩ := requests_putServer hv
  subst ht
  refine honours_of_turn hs (.rest ⟨⟨g, hg, hsettles⟩, rfl, rfl, rfl, fun x hx => .inl ⟨x, hx, rfl⟩⟩
    hevents fun _ m hm => .inl (queue_subset_enqueued _ _ _ _ hm)) fun _ _ => rfl

theorem moved_updateWhere {p : Outbox.OutboxEvent → Bool} {f : Outbox.OutboxEvent → Outbox.OutboxEvent}
    (ht : t.events = Table.updateWhere p f s.events)
    (hf : ∀ e ∈ s.events, p e = true → column (f e) = column e ∧
      (Due e → Due (f e) ∨ (X → Placed e.id s) ∨ Outbox.routeFor e.eventType = none)) :
    EventsMoved X s t := by
  refine ⟨fun e => if p e then f e else e, ht, fun e he => ?_⟩
  show column (if p e then f e else e) = _ ∧ (Due e → Due (if p e then f e else e) ∨ _)
  split_ifs with hp
  · exact hf e he hp
  · exact ⟨rfl, fun hdue => .inl hdue⟩

/-- A claim moves nothing, and names a row. -/
theorem claimNext_turn {e : Outcome} {r : Option (Option Outbox.ClaimedEvent)} (hs : Filed s)
    (h : exec encode i e (.outbox .claimNext) s = some (t, r)) :
    (turns X encode).Honours n i s t ∧ ∀ event, r = some (some event) → Claimed event t := by
  obtain ⟨e, queued, v, rfl, hv, ht⟩ := exec_outbox h
  cases e with
  | broker answer => cases hv
  | db link skip =>
      obtain ⟨hstore, hreply⟩ := Prod.mk.inj (Option.some.inj hv)
      have hclaim : EventsMoved X s { s.putServer (Outbox.execClaim skip s.server).1 with
          queue := s.queue } ∧ ∀ event, (Outbox.execClaim skip s.server).2 = some (some event) →
            (event.id, event.eventType, event.aggregateId) ∈ s.events.map column := by
        unfold Outbox.execClaim
        split
        · exact ⟨.refl rfl, fun _ h => by cases h⟩
        · next o hcandidate =>
          split_ifs
          · refine ⟨moved_updateWhere rfl fun _ _ _ => ⟨rfl, fun hdue => .inl hdue⟩, fun event h => ?_⟩
            obtain rfl := Option.some.inj (Option.some.inj h)
            have ho : o ∈ s.events := (List.mem_filter.1 (List.argmin_mem hcandidate)).1
            exact List.mem_map_of_mem (f := column) ho
          · exact ⟨.refl rfl, fun _ h => by cases h⟩
      have hmoved : EventsMoved X s t := by
        rw [ht, ← hstore]
        cases link with
        | ok => exact hclaim.1
        | unacked => exact hclaim.1
        | lost => exact .refl rfl
      have hturn : (turns X encode).Honours n i s t := outbox_turn hs hv ht hmoved
      refine ⟨hturn, fun event hevent => ?_⟩
      have hprogress := (hturn.rely (i + 1) (Nat.succ_ne_self i)).2
      refine hprogress.events.subset (hclaim.2 event ?_)
      rw [hevent] at hreply
      cases link with
      | ok => exact hreply
      | unacked => cases hreply
      | lost => cases hreply

theorem markPublished_turn {e : Outcome} {event : Outbox.ClaimedEvent} {r : Option Unit}
    (hs : Filed s) (hplaced : X → Placed event.id s)
    (h : exec encode i e (.outbox (.markPublished event)) s = some (t, r)) :
    (turns X encode).Honours n i s t := by
  obtain ⟨e, queued, v, rfl, hv, ht⟩ := exec_outbox h
  cases e with
  | broker answer => cases hv
  | db link skip =>
      refine outbox_turn hs hv ht ?_
      rw [ht]
      rcases Link.deliver_cases (Option.some.inj hv) with ⟨rfl, -⟩ | ⟨rfl, -⟩
      · exact .refl rfl
      · refine moved_updateWhere rfl fun o _ ho => ⟨rfl, fun _ => .inr (.inl fun hX => ?_)⟩
        rw [of_decide_eq_true ho]
        exact hplaced hX

theorem scheduleRetry_turn {e : Outcome} {event : Outbox.ClaimedEvent} {delay : ℕ}
    {message : String} {r : Option Unit} (hs : Filed s)
    (h : exec encode i e (.outbox (.scheduleRetry event delay message)) s = some (t, r)) :
    (turns X encode).Honours n i s t := by
  obtain ⟨e, queued, v, rfl, hv, ht⟩ := exec_outbox h
  cases e with
  | broker answer => cases hv
  | db link skip =>
      refine outbox_turn hs hv ht ?_
      rw [ht]
      rcases Link.deliver_cases (Option.some.inj hv) with ⟨rfl, -⟩ | ⟨rfl, -⟩
      · exact .refl rfl
      · exact moved_updateWhere rfl fun o _ _ => ⟨rfl, fun hdue => .inl hdue⟩

/-- Only a row that no route is known for is given up. -/
theorem deadLetter_turn {e : Outcome} {event : Outbox.ClaimedEvent} {message : String}
    {r : Option Unit} (hs : Filed s) (hclaimed : Claimed event s)
    (hroute : Outbox.routeFor event.eventType = none)
    (h : exec encode i e (.outbox (.deadLetter event message)) s = some (t, r)) :
    (turns X encode).Honours n i s t := by
  obtain ⟨e, queued, v, rfl, hv, ht⟩ := exec_outbox h
  cases e with
  | broker answer => cases hv
  | db link skip =>
      refine outbox_turn hs hv ht ?_
      rw [ht]
      rcases Link.deliver_cases (Option.some.inj hv) with ⟨rfl, -⟩ | ⟨rfl, -⟩
      · exact .refl rfl
      · refine moved_updateWhere rfl fun o ho hid => ⟨rfl, fun _ => .inr (.inr ?_)⟩
        rw [hs.type_eq hclaimed ho (of_decide_eq_true hid)]
        exact hroute

/-! ## Publication -/

theorem routeFor_payment {type : String} {route : Outbox.Route}
    (h : Outbox.routeFor type = some route) (hkey : route.routingKey ≠ "payment_processing") :
    type ≠ "payment.requested" ∧ type ≠ "payment.cancellation_requested" := by
  unfold Outbox.routeFor at h
  split_ifs at h with hpayment
  · obtain rfl := Option.some.inj h
    exact absurd rfl hkey
  · exact not_or.1 hpayment

/-- A message that is not for the payment queue is of no account there. -/
theorem done_of_type (hs : Filed s) {event : Outbox.ClaimedEvent} (hclaimed : Claimed event s)
    (htype : event.eventType ≠ "payment.requested" ∧
      event.eventType ≠ "payment.cancellation_requested") : Done event.id s := by
  obtain ⟨row, hrow, heq, -⟩ := hs.row hclaimed
  unfold Done
  rw [hrow]
  match row with
  | .paymentRequested m => exact absurd heq.symm htype.1
  | .cancellationRequested m => exact absurd heq.symm htype.2
  | .orderCompleted _ => trivial
  | .ticketCancelled _ => trivial

/-- A confirmed message is placed. -/
theorem basicPublish_turn {e : Outcome} {ttl : Option String} {route : Outbox.Route}
    {event : Outbox.ClaimedEvent} {r : Outbox.BrokerAnswer} (hs : Filed s)
    (hclaimed : Claimed event s) (hroute : Outbox.routeFor event.eventType = some route)
    (h : exec encode i e (.outbox (.basicPublish (Outbox.publication ttl route event))) s =
      some (t, r)) :
    (turns X encode).Honours n i s t ∧ (r = .ok (.ack false) → Placed event.id t) := by
  obtain ⟨e, queued, v, rfl, hv, ht⟩ := exec_outbox h
  cases e with
  | db link skip => cases hv
  | broker answer =>
      have hturn : (turns X encode).Honours n i s t := by
        refine outbox_turn hs hv ht ?_
        rw [ht]
        obtain ⟨rfl, -⟩ := Prod.mk.inj (Option.some.inj hv)
        exact .refl rfl
      refine ⟨hturn, fun hr => ?_⟩
      obtain ⟨-, rfl⟩ := Prod.mk.inj (Option.some.inj hv)
      by_cases hkey : route.routingKey = "payment_processing"
      · left
        have haccepted : accepted queued answer = true := by
          rw [hr]
          rfl
        rw [ht]
        have hcond : (Outbox.publication ttl route event).routingKey = "payment_processing" ∧
            accepted queued answer = true := ⟨hkey, haccepted⟩
        have hqueue : enqueued s.queue queued (.basicPublish (Outbox.publication ttl route event))
            (.broker answer) = s.queue ++ [event.id] := if_pos hcond
        show event.id ∈ enqueued s.queue queued (.basicPublish _) (.broker answer)
        rw [hqueue]
        exact List.mem_append_right _ (List.mem_singleton_self _)
      · have hdone := done_of_type hs hclaimed (routeFor_payment hroute hkey)
        exact .inr (.inl (hdone.mono (hturn.rely (i + 1) (Nat.succ_ne_self i)).2))

/-! ## The server -/

/-- A program of an outbox server. -/
abbrev Serves (X : Prop) (encode : OutboxRow → Json) (n : Unit) (i : ℕ) {β : Type}
    (Q : β → Store → Prop) (p : Outbox.Server β) (s : Store) : Prop :=
  (turns X encode).Ensures (exec encode) n i Q (serving p) s

theorem serves_bind {α β : Type} {p : Outbox.Server α} {f : α → Outbox.Server β}
    {Q : β → Store → Prop}
    (h : Serves X encode n i (fun b t => Serves X encode n i Q (f b) t) p s) :
    Serves X encode n i Q (p >>= f) s := by
  unfold Serves serving
  rw [Prog.hoist_bind]
  exact .bind h

theorem serves_ret {α : Type} {b : α} : Serves X encode n i (fun _ _ => True) (.ret b) s :=
  .ret fun _ _ _ => trivial

theorem serves_claimNext :
    Serves X encode n i (fun r t => ∀ event, r = Except.ok (some event) → Claimed event t)
      Outbox.claimNext s := by
  refine .call fun t _ ht e _ u r hex => ?_
  obtain ⟨hu, hclaimed⟩ := claimNext_turn ht hex
  refine ⟨hu, ?_⟩
  match r with
  | none => exact .ret fun _ _ _ _ h => by cases h
  | some answer =>
      refine .ret fun v huv _ event h => ?_
      have hanswer : answer = some event := by
        cases h
        rfl
      exact (hclaimed event (congrArg some hanswer)).mono huv.2

/-- A publication that succeeds places the message. -/
theorem serves_publish {ttl : Option String} {event : Outbox.ClaimedEvent}
    (hclaimed : Claimed event s) :
    Serves X encode n i (fun r t => Claimed event t ∧ (r = Except.ok () → X → Placed event.id t))
      (Outbox.publish ttl event) s := by
  unfold Outbox.publish
  split
  · exact .ret fun t hst _ => ⟨hclaimed.mono hst.2, fun h => by cases h⟩
  · next route hroute =>
    refine .call fun t hst ht e _ u r hex => ?_
    have hclaimed := hclaimed.mono hst.2
    obtain ⟨hu, hplaced⟩ := basicPublish_turn ht hclaimed hroute hex
    refine ⟨hu, ?_⟩
    have hclaimed := hclaimed.mono (hu.rely (i + 1) (Nat.succ_ne_self i)).2
    have herror : ∀ m : String, Serves X encode n i
        (fun r t => Claimed event t ∧ (r = Except.ok () → X → Placed event.id t))
        (.ret (.error m)) u :=
      fun m => .ret fun v huv _ => ⟨hclaimed.mono huv.2, fun h => by cases h⟩
    match r with
    | .error m => exact herror m
    | .ok (.ack false) =>
        exact .ret fun v huv _ =>
          ⟨hclaimed.mono huv.2, fun _ hX => (hplaced rfl).mono hX huv.2⟩
    | .ok (.ack true) => exact herror _
    | .ok .nack => exact herror _
    | .ok .notRequested => exact herror _

theorem serves_markPublished {event : Outbox.ClaimedEvent} (hplaced : X → Placed event.id s) :
    Serves X encode n i (fun _ _ => True) (Outbox.markPublished event) s := by
  refine .call fun t hst ht e _ u r hex => ⟨?_, serves_ret⟩
  exact markPublished_turn ht (fun hX => (hplaced hX).mono hX hst.2) hex

theorem serves_markFailed {event : Outbox.ClaimedEvent} {message : String}
    (hclaimed : Claimed event s) :
    Serves X encode n i (fun _ _ => True)
      (Outbox.markFailed event message (Outbox.routeFor event.eventType).isNone) s := by
  unfold Outbox.markFailed
  split_ifs with hdead
  · have hroute : Outbox.routeFor event.eventType = none := by
      have hnone : (Outbox.routeFor event.eventType).isNone = true :=
        ((Bool.and_eq_true _ _).mp hdead).1
      exact Option.isNone_iff_eq_none.1 hnone
    exact .call fun t hst ht e _ u r hex =>
      ⟨deadLetter_turn ht (hclaimed.mono hst.2) hroute hex, serves_ret⟩
  · exact .call fun t _ ht e _ u r hex => ⟨scheduleRetry_turn ht hex, serves_ret⟩

/-- The server's loop, by induction on the passes left. -/
theorem serves_run {ttl : Option String} {rounds : ℕ} :
    Serves X encode n i (fun _ _ => True) (Outbox.run ttl rounds) s := by
  induction rounds generalizing s with
  | zero => exact serves_ret
  | succ rounds ih =>
      refine serves_bind (serves_claimNext.weaken fun r t hclaimed => ?_)
      match r with
      | .error e => exact serves_ret
      | .ok none => exact ih
      | .ok (some event) =>
          refine serves_bind ((serves_publish (hclaimed event rfl)).weaken fun r u hpublished => ?_)
          match r with
          | .ok () =>
              refine serves_bind ((serves_markPublished (hpublished.2 rfl)).weaken fun r v _ => ?_)
              match r with
              | .error e => exact serves_ret
              | .ok () => exact ih
          | .error error =>
              refine serves_bind ((serves_markFailed hpublished.1).weaken fun r v _ => ?_)
              match r with
              | .error e => exact serves_ret
              | .ok () => exact serves_ret

end Server

end Backend
end Bookit

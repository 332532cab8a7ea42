import Bookit.Gateway.Commands

/-!
# Gateway.AskedCancellations — the orders that cancellations are of

A cancellation is asked for by `cancel_order` only, with the schedule and the seats of the order that it
has read; an order keeps both for good.
-/

namespace Bookit

open Lib

namespace Payments

/-! ## Places of orders -/

/-- What an order keeps: its id, its schedule and its seats. -/
def OrderRow.place (o : OrderRow) : ℕ × ℤ × List ℤ := (o.id, o.scheduleId, o.seatIds)

/-- Orders keep their places, a new one has an id of its own, and a cancellation is asked for by one
command only. -/
structure PlacesKept (c : Cmd) (s t : Postgres) : Prop where
  places : s.orders.map OrderRow.place <+: t.orders.map OrderRow.place
  ids : (s.orders.map (·.id)).Nodup → (t.orders.map (·.id)).Nodup
  requested : ∀ m, .cancellationRequested m ∈ t.outbox →
    .cancellationRequested m ∈ s.outbox ∨ ∃ id, c = .startCancellation id m

section Places

variable {c : Cmd} {s t : Postgres}

theorem PlacesKept.of_eq (horders : t.orders = s.orders) (houtbox : t.outbox = s.outbox) :
    PlacesKept c s t := by
  refine ⟨?_, ?_, fun m hm => .inl (houtbox ▸ hm)⟩
  · exact horders ▸ List.prefix_refl _
  · rw [horders]
    exact id

/-- A change of statuses. -/
theorem PlacesKept.update {p : OrderRow → Bool} {f : OrderRow → OrderRow}
    (horders : t.orders = Table.updateWhere p f s.orders) (hplace : ∀ o, (f o).place = o.place)
    (hid : ∀ o, (f o).id = o.id)
    (hrequested : ∀ m, .cancellationRequested m ∈ t.outbox →
      .cancellationRequested m ∈ s.outbox ∨ ∃ id, c = .startCancellation id m) :
    PlacesKept c s t := by
  refine ⟨?_, ?_, hrequested⟩
  · have hplaces : t.orders.map OrderRow.place = s.orders.map OrderRow.place := by
      rw [horders, Table.map_updateWhere hplace]
    exact hplaces ▸ List.prefix_refl _
  · rw [horders, Table.map_updateWhere (g := fun o : OrderRow => o.id) hid]
    exact id

theorem PlacesKept.commitCheckout (s : Postgres) (k : CheckoutCommit) :
    PlacesKept c s (s.commitCheckout k).1 := by
  unfold Postgres.commitCheckout
  split_ifs with hrefused
  · exact .of_eq rfl rfl
  · refine ⟨?_, fun hids => ?_, fun m hm => .inl ?_⟩
    · simp only [List.map_append]
      exact List.prefix_append _ _
    · simp only [List.map_append, List.map_cons, List.map_nil]
      refine List.nodup_append.2 ⟨hids, List.nodup_singleton _, ?_⟩
      rintro a ha b hb rfl
      obtain ⟨o, ho, rfl⟩ := List.mem_map.1 ha
      exact hrefused (List.any_eq_true.2 ⟨o, ho, decide_eq_true (.inl (List.mem_singleton.1 hb))⟩)
    · simpa using hm

theorem PlacesKept.startCancellation (s : Postgres) (id : ℕ) (message : CancellationMessage) :
    PlacesKept (.startCancellation id message) s (s.startCancellation id message) := by
  unfold Postgres.startCancellation
  split_ifs
  · refine .update rfl (fun _ => rfl) (fun _ => rfl) fun m hm => ?_
    rcases List.mem_append.1 hm with hm | hm
    · exact .inl hm
    · obtain rfl := OutboxRow.cancellationRequested.inj (List.mem_singleton.1 hm)
      exact .inr ⟨id, rfl⟩
  · exact .of_eq rfl rfl

theorem PlacesKept.commit (s : Postgres) (i : ℕ) : PlacesKept c s (s.commit i) := by
  unfold Postgres.commit
  split
  · exact .of_eq rfl rfl
  · next txn _ =>
    refine ⟨List.prefix_refl _, id, fun m hm => .inl ?_⟩
    rcases List.mem_append.1 hm with hm | hm
    · exact hm
    · cases hevent : txn.event with
      | none => simp [hevent] at hm
      | some message => simp [hevent] at hm

end Places

theorem placesKept_exec {i : ℕ} {l : Link} {c : Cmd} {s t : World} {r : Rep c}
    (h : exec i l c s = some (t, r)) : PlacesKept c s.pg t.pg := by
  cases c with
  | redis c =>
      obtain ⟨rfl, -⟩ := Prod.mk.inj (Option.some.inj h)
      exact .of_eq rfl rfl
  | connect | findRequest | loadSeats | orderExists | findOrder | bookedCount | activeTicketCount =>
      obtain rfl : _ = t := congrArg Prod.fst (Option.some.inj h)
      rw [query_fst]
      exact .of_eq rfl rfl
  | insertRequest row =>
      simp only [exec] at h
      split at h
      · obtain ⟨rfl, -⟩ := Prod.mk.inj (Option.some.inj h)
        exact .of_eq rfl rfl
      · split at h
        · cases h
        · next hins =>
          obtain ⟨rfl, -⟩ := Prod.mk.inj (Option.some.inj h)
          rcases insertRequest_cases hins with ⟨rfl, -⟩ | ⟨rfl, -⟩
          · exact .of_eq rfl rfl
          · exact .of_eq rfl rfl
  | commit =>
      cases l with
      | ok | unacked =>
          obtain ⟨rfl, -⟩ := Prod.mk.inj (Option.some.inj h)
          exact .commit s.pg i
      | lost =>
          obtain ⟨rfl, -⟩ := Prod.mk.inj (Option.some.inj h)
          exact .of_eq rfl rfl
  | rollback =>
      obtain ⟨rfl, -⟩ := Prod.mk.inj (Option.some.inj h)
      exact .of_eq rfl rfl
  | commitCheckout k =>
      obtain rfl : (World.onPg l (Postgres.commitCheckout k) s).1 = t :=
        congrArg Prod.fst (Option.some.inj h)
      cases l with
      | lost => exact .of_eq rfl rfl
      | ok | unacked => exact .commitCheckout s.pg k
  | commitCancellation k =>
      rcases Link.deliver_cases (Option.some.inj h) with ⟨rfl, -⟩ | ⟨rfl, -⟩
      · exact .of_eq rfl rfl
      · refine .update rfl (fun _ => rfl) (fun _ => rfl) fun m hm => .inl ?_
        simpa [Postgres.commitCancellation] using hm
  | startCancellation id message =>
      rcases Link.deliver_cases (Option.some.inj h) with ⟨rfl, -⟩ | ⟨rfl, -⟩
      · exact .of_eq rfl rfl
      · exact .startCancellation s.pg id message
  | insertRequested | failRequest | refund =>
      rcases Link.deliver_cases (Option.some.inj h) with ⟨rfl, -⟩ | ⟨rfl, -⟩
      · exact .of_eq rfl rfl
      · exact .of_eq rfl rfl

end Payments

namespace Gateway

open LockServer SingleNodeLock
open Payments (OrderRow CancellationMessage)

/-! ## Who asks for cancellations -/

/-- Commands that start no cancellation. -/
def NoStart (c : Cmd) : Prop := ∀ id message, c ≠ .service (.startCancellation id message)

theorem noStart_onRedis {β : Type} (p : Op β) : (onRedis p).Issues NoStart :=
  Prog.Issues.hoist _ (Prog.issues_of_forall p fun _ => ⟨fun _ _ h => (by cases h), fun _ => trivial⟩)

theorem noStart_forget {β : Type} {p : Service β} (h : p.Issues NoStart) :
    (forget p).Issues NoStart := h.bind fun _ => trivial

theorem noStart_onServices {β : Type} {p : Payments.Service β}
    (h : p.Issues fun c => ∀ id message, c ≠ .startCancellation id message) :
    (onServices p).Issues NoStart :=
  Prog.Issues.hoist _ (h.mono fun _ hc => ⟨fun id message heq => hc id message (Cmd.service.inj heq),
    fun _ => trivial⟩)

theorem noStart_of_calm {c : Payments.Cmd} (h : Payments.Calm c) (id : ℕ)
    (message : CancellationMessage) : c ≠ .startCancellation id message := by
  rintro rfl
  exact h

theorem noStart_of_local {c : Cmd} (h : Local c) : NoStart c := by
  rintro id message rfl
  exact h

theorem noStart_of_asksRedis {c : Cmd} (h : AsksRedis c) : NoStart c := by
  rintro id message rfl
  exact h

theorem noStart_processDueEntry (entry : QueueEntry) :
    (onServices (processDueEntry entry)).Issues NoStart := by
  have hredis : ∀ p : Op Unit, (Payments.onRedis p).Issues
      fun c => ∀ id message, c ≠ .startCancellation id message :=
    fun p => Payments.issues_onRedis (fun _ _ _ h => by cases h) p
  refine noStart_onServices (Prog.Issues.bind (p := isSeatBookedInDb _ _) ?_ fun booked => ?_)
  · refine ⟨fun _ _ h => (by cases h), fun r => ?_⟩
    match r with
    | none => trivial
    | some () =>
        refine ⟨fun _ _ h => (by cases h), fun booked => ?_⟩
        show Prog.Issues _ (if 0 < booked.getD 0 then _ else _)
        split_ifs
        · trivial
        · exact ⟨fun _ _ h => (by cases h), fun _ => trivial⟩
  · cases booked with
    | true => exact hredis _
    | false => exact hredis _

theorem noStart_releaseExpiredEntry (g : ℕ) (now : ℤ) (entry : QueueEntry) :
    (releaseExpiredEntry g now entry).Issues NoStart := by
  refine (noStart_onRedis _).bind fun goes => ?_
  cases goes with
  | true => exact ⟨fun _ _ h => (by cases h), fun _ => noStart_onRedis _⟩
  | false => trivial

theorem noStart_started {s : World} {n : Task} {q : Service Result} (h : Started s n q)
    (hn : ∀ userId orderId, n ≠ .cancelOrder userId orderId) : q.Issues NoStart := by
  cases h with
  | operation p => exact noStart_forget (noStart_onRedis p)
  | lockMessage => exact noStart_forget (noStart_onRedis _)
  | updater => exact noStart_forget (noStart_processDueEntry _)
  | expiry g => exact noStart_forget (noStart_releaseExpiredEntry g _ _)
  | lock => exact (issues_lockTask _ _ _ _ _ _).mono fun _ hc => noStart_of_asksRedis hc
  | cancel => exact (issues_cancelTask _ _ _ _ _ _).mono fun _ hc => noStart_of_asksRedis hc
  | actor _ rounds =>
      exact noStart_forget ((local_runShowActor _ _ _ rounds).mono fun _ hc => noStart_of_local hc)
  | listener => exact noStart_forget ⟨fun _ _ h => (by cases h), fun _ => trivial⟩
  | closing =>
      exact noStart_forget ((local_markScheduleClosed _ _).mono fun _ hc => noStart_of_local hc)
  | request provider userId request paymentRequestId =>
      refine noStart_forget (noStart_onServices
        ((Payments.issues_requestPayment provider userId request paymentRequestId).mono ?_))
      rintro c hc id message rfl
      cases hc with
      | asks h => exact h.calm
  | cancelOrder userId orderId => exact absurd rfl (hn userId orderId)
  | checkout message orderId =>
      refine noStart_forget (noStart_onServices
        ((Payments.issues_processCheckout message orderId).mono ?_))
      rintro c (hcalm | rfl) id message
      · exact noStart_of_calm hcalm id message
      · exact fun h => (by cases h)
  | cancellation mockMode message =>
      refine noStart_forget (noStart_onServices
        ((Payments.issues_processCancellation mockMode message).mono ?_))
      rintro c hc id message rfl
      cases hc with
      | asks h => exact h.calm

/-! ## The contract -/

/-- The message is of an order, and names its schedule and its seats. -/
def OfOrder (s : World) (m : CancellationMessage) : Prop :=
  (m.orderId, m.scheduleId, m.seatIds) ∈ s.services.pg.orders.map OrderRow.place

/-- Order ids are unique, and the cancellations asked for are of orders. -/
structure CancelAsked (s : World) : Prop where
  ids : (s.services.pg.orders.map (·.id)).Nodup
  requested : ∀ m, .cancellationRequested m ∈ s.services.pg.outbox → OfOrder s m

/-- Sessions rely on it that orders keep their places. -/
def asking : Contract World Rep Task Link where
  inv := CancelAsked
  rely _ s t := s.services.pg.orders.map OrderRow.place <+: t.services.pg.orders.map OrderRow.place
  guar _ _ _ := True
  allowed _ _ _ _ _ := True
  rely_refl _ _ := List.prefix_refl _
  rely_trans _ _ _ _ := List.IsPrefix.trans

section Asking

variable {n : Task} {i : ℕ} {l : Link} {c : Cmd} {s t : World} {r : Rep c}

/-- A command that starts no cancellation, or one of an order. -/
theorem asking_step (hs : CancelAsked s)
    (hc : ∀ id m, c = .service (.startCancellation id m) → OfOrder s m)
    (h : exec i l c s = some (t, r)) : asking.Honours n i s t ∧ asking.rely i s t := by
  have hkept : s.services.pg.orders.map OrderRow.place <+: t.services.pg.orders.map OrderRow.place ∧
      CancelAsked t := by
    rcases services_exec h with ⟨k, r', rfl, hk⟩ | ⟨-, heq⟩
    · have hplaces := Payments.placesKept_exec hk
      refine ⟨hplaces.places, hplaces.ids hs.ids, fun m hm => ?_⟩
      rcases hplaces.requested m hm with hm | ⟨id, rfl⟩
      · exact hplaces.places.subset (hs.requested m hm)
      · exact hplaces.places.subset (hc id m rfl)
    · rw [heq]
      refine ⟨List.prefix_refl _, ?_, ?_⟩
      · rw [heq]
        exact hs.ids
      · unfold OfOrder
        rw [heq]
        exact hs.requested
  exact ⟨⟨hkept.2, trivial, fun _ _ => hkept.1⟩, hkept.1⟩

theorem asking_issues {q : Service Result} (h : q.Issues NoStart) :
    asking.Ensures exec n i (fun _ _ => True) q s :=
  .of_issues (fun _ hc _ _ _ _ ht _ hex =>
    (asking_step ht (fun id m heq => absurd heq (hc id m)) hex).1) h

/-- The order is read before its cancellation is asked for. -/
theorem asking_cancelOrder (userId : ℤ) (orderId : ℕ) (idempotencyKey : String) :
    asking.Ensures exec n i (fun _ _ => True)
      (forget (onServices (Payments.cancelOrder userId orderId idempotencyKey))) s := by
  have hret : ∀ {b : Result} {t : World}, asking.Ensures exec n i (fun _ _ => True) (.ret b) t :=
    .ret fun _ _ _ => trivial
  unfold Payments.cancelOrder
  split_ifs
  · exact hret
  refine .call fun u _ hu l _ v r hex => ?_
  refine ⟨(asking_step hu (fun _ _ h => by cases h) hex).1, ?_⟩
  match r with
  | none => exact hret
  | some () =>
  refine .call fun w _ hw l _ x r hex => ?_
  obtain ⟨hx, hwx⟩ := asking_step (n := n) hw (fun _ _ h => by cases h) hex
  refine ⟨hx, ?_⟩
  match r with
  | none => exact hret
  | some none => exact hret
  | some (some order) =>
  have horder : order.place ∈ w.services.pg.orders.map OrderRow.place := by
    have hex : (Payments.exec i l (.findOrder orderId) w.services).map
        (fun y => ({ w with services := y.1 }, y.2)) = some (x, some (some order)) := hex
    obtain ⟨⟨y, r'⟩, hy, heq⟩ := Option.map_eq_some_iff.1 hex
    have hreply : (Payments.World.query l (·.findOrder orderId) w.services).2 = some (some order) :=
      (congrArg Prod.snd (Option.some.inj hy)).trans (Prod.mk.inj heq).2
    exact List.mem_map_of_mem (List.mem_of_find?_eq_some (Payments.query_snd hreply).symm)
  show asking.Ensures exec n i _ (Prog.bind (Prog.hoist _ (if order.userId ≠ userId then _ else
    if order.status ≠ .completed then _ else _)) _) x
  split_ifs
  · exact hret
  · exact hret
  refine .call fun y hxy hy l _ z r hex => ?_
  refine ⟨(asking_step hy (fun id m heq => ?_) hex).1, ?_⟩
  · obtain ⟨-, rfl⟩ := Payments.Cmd.startCancellation.inj (Cmd.service.inj heq)
    exact hxy.subset (hwx.subset horder)
  match r with
  | none => exact hret
  | some () => exact hret

end Asking

/-! ## Runs -/

theorem asked_reachable {p : Pool World Rep Task Result} (h : machine.system.Reachable p) :
    CancelAsked p.store := by
  have hfulfils : machine.Fulfils asking (fun _ _ _ _ => True) p := by
    refine Machine.ensures_of_reachable ?_ ?_ ?_ (Machine.reachable_guarded (fun _ _ _ _ _ => trivial) h)
    · rintro s ⟨seats, rfl⟩
      exact ⟨List.nodup_nil, fun m hm => absurd hm List.not_mem_nil⟩
    · intro x s t ts hs _ henv
      obtain ⟨-, hpg, -⟩ := services_environ henv
      refine ⟨⟨?_, ?_⟩, fun j => ?_, fun i n q hq _ => ?_⟩
      · rw [hpg]
        exact hs.ids
      · unfold OfOrder
        rw [hpg]
        exact hs.requested
      · show s.services.pg.orders.map OrderRow.place <+: t.services.pg.orders.map OrderRow.place
        exact hpg ▸ List.prefix_refl _
      · have hstarted := started_of_environ henv n q hq
        by_cases hn : ∃ userId orderId, n = .cancelOrder userId orderId
        · obtain ⟨userId, orderId, rfl⟩ := hn
          cases hstarted with
          | cancelOrder _ _ idempotencyKey => exact asking_cancelOrder userId orderId idempotencyKey
        · exact asking_issues (noStart_started hstarted fun userId orderId heq =>
            hn ⟨userId, orderId, heq⟩)
    · exact fun i s hs => ⟨⟨hs.ids, hs.requested⟩, fun _ _ => List.prefix_refl _⟩
  exact hfulfils.inv

/-- A cancellation that is asked for names the seats of its order. -/
theorem seats_of_cancellation {p : Pool World Rep Task Result} (h : machine.system.Reachable p)
    {m : CancellationMessage} (hm : .cancellationRequested m ∈ p.store.services.pg.outbox)
    {o : OrderRow} (ho : o ∈ p.store.services.pg.orders) (hid : o.id = m.orderId) :
    o.scheduleId = m.scheduleId ∧ o.seatIds = m.seatIds := by
  have hasked := asked_reachable h
  obtain ⟨o', ho', hplace⟩ := List.mem_map.1 (hasked.requested m hm)
  obtain ⟨hid', hrest⟩ := Prod.mk.inj hplace
  obtain ⟨hschedule, hseats⟩ := Prod.mk.inj hrest
  obtain rfl : o = o' := List.inj_on_of_nodup_map hasked.ids ho ho' (hid.trans hid'.symm)
  exact ⟨hschedule, hseats⟩

end Gateway
end Bookit

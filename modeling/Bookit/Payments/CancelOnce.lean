import Bookit.Payments.Cancellation

/-!
# Payments.CancelOnce — each effect of a cancellation at most once

The contract of the threads around a cancellation, and what follows for runs in which a single
delivery acts for an order.  A delivery knows its order and which kinds of effects it has had so far;
that no other session has acted makes a new kind of effect the first of its kind for the order.
-/

namespace Bookit
namespace Cancellation

open Lib Payments

/-! ## The contract -/

/-- A step of a delivery leaves the seats of other orders as they are, unless they are refunded. -/
def Spares (n : Task) (s t : World × List Effect) : Prop :=
  ∀ message, n = .cancellation message → ∀ o ∈ s.1.pg.orders, o.id ≠ message.orderId →
    o.status ≠ .refunded → ∀ r ∈ s.1.pg.seats, r.id ∈ o.seatIds → r ∈ t.1.pg.seats

def contract : Contract (World × List Effect) Rep Task Link where
  inv := Inv
  rely i s t := KeepsOrders s.1.pg t.1.pg ∧ ownLog t.2 i = ownLog s.2 i
  guar := Spares
  allowed := ActsAlone
  rely_refl _ s := ⟨.refl s.1.pg, rfl⟩
  rely_trans _ _ _ _ hst htu := ⟨hst.1.trans htu.1, htu.2.trans hst.2⟩

section Threads

variable {mockMode : Bool} {n : Task} {i : ℕ} {l : Link} {s t : World × List Effect}
variable {message : CancellationMessage}

/-- Commands that leave the tables as they are. -/
def Reads : Cmd → Prop
  | .redis _ | .connect | .findOrder _ | .refund .. => True
  | _ => False

theorem pg_of_reads {c : Cmd} (hc : Reads c) {w u : World} {r : Rep c}
    (hex : exec i l c w = some (u, r)) : u.pg = w.pg := by
  cases c with
  | redis c =>
      obtain ⟨rfl, -⟩ := Prod.mk.inj (Option.some.inj hex)
      rfl
  | connect | findOrder =>
      obtain rfl : _ = u := congrArg Prod.fst (Option.some.inj hex)
      cases l <;> rfl
  | refund paymentId paise =>
      rcases Link.deliver_cases (Option.some.inj hex) with ⟨rfl, -⟩ | ⟨rfl, -⟩
      · rfl
      · rfl
  | _ => exact hc.elim

theorem record_of_none {c : Cmd} {w : World} {log : List Effect} (h : effectOf n i l c = none) :
    record n i l c w log = log := by
  simp [record, h]

/-- A command that leaves the tables as they are and is no effect. -/
theorem quiet_step {c : Cmd} (hc : Reads c) (hnone : effectOf n i l c = none) {r : Rep c}
    (hs : Inv s) (hex : (machine mockMode).exec n i l c s = some (t, r)) :
    contract.Honours n i s t ∧ contract.rely i s t := by
  obtain ⟨hrun, hlog⟩ := Machine.logged_exec.1 hex
  have hpg := pg_of_reads hc hrun
  rw [record_of_none hnone] at hlog
  have hrely : ∀ j, contract.rely j s t :=
    fun j => ⟨by rw [hpg]; exact .refl _, by rw [hlog]⟩
  refine ⟨⟨⟨?_, ?_, ?_⟩, ?_, fun j _ => hrely j⟩, hrely i⟩
  · exact hpg ▸ hs.orders
  · exact hpg ▸ hlog ▸ hs.tally
  · exact hlog ▸ hs.once
  · intro m _ o _ _ _ r hr _
    rw [hpg]
    exact hr

theorem effectOf_none {c : Cmd} (h : kindOf c = none) : effectOf n i l c = none := by
  cases n with
  | cancellation message =>
      simp only [effectOf, h, Option.map_none]
      split_ifs <;> rfl
  | cancelOrder => rfl
  | redis => rfl

theorem effectOf_some {c : Cmd} {kind : Kind} (h : kindOf c = some kind) (hl : l ≠ .lost) :
    effectOf (.cancellation message) i l c = some ⟨i, message.orderId, kind⟩ := by
  simp [effectOf, h, hl]

theorem effectOf_lost {c : Cmd} : effectOf n i .lost c = none := by
  cases n <;> simp [effectOf]

/-- A guarded effect is taken in the only session that has acted for the order. -/
theorem sole_of_actsAlone {c : Cmd} {kind : Kind} (h : kindOf c = some kind) (hl : l ≠ .lost)
    (hk : kind ≠ .increment) (ha : ActsAlone (.cancellation message) i l c s) :
    Sole i message.orderId s.2 := by
  unfold ActsAlone at ha
  rw [effectOf_some h hl] at ha
  exact ha hk

/-- What is known of a delivery: its order, and the kinds of its effects so far. -/
structure Acted (kinds : List Kind) (message : CancellationMessage) (i : ℕ)
    (s : World × List Effect) : Prop where
  names : Names s.1.pg message
  only : Only kinds i s.2

theorem Acted.stable {kinds : List Kind} (h : Acted kinds message i s)
    (hst : contract.rely i s t) : Acted kinds message i t :=
  ⟨h.names.congr hst.1, h.only.congr hst.2⟩

/-- A refund or an increment, new of its kind in the only session that acted for the order. -/
theorem effect_step {c : Cmd} {kind : Kind} {kinds : List Kind} {r : Rep c} (hc : Reads c)
    (hkind : kindOf c = some kind) (hcommit : kind ≠ .commit) (hs : Inv s)
    (hacted : Acted kinds message i s) (hnew : kind ∉ kinds)
    (hsole : l ≠ .lost → Sole i message.orderId s.2)
    (hpaired : kind = .increment → ⟨i, message.orderId, .commit⟩ ∈ s.2)
    (hex : (machine mockMode).exec (.cancellation message) i l c s = some (t, r)) :
    contract.Honours (.cancellation message) i s t ∧
      Acted (kinds ++ [kind]) message i t := by
  by_cases hl : l = .lost
  · subst hl
    obtain ⟨hu, hrely⟩ := quiet_step hc effectOf_lost hs hex
    have hstill := hacted.stable hrely
    exact ⟨hu, hstill.names, fun e he hi => List.mem_append_left _ (hstill.only e he hi)⟩
  obtain ⟨hrun, hlog⟩ := Machine.logged_exec.1 hex
  have hpg := pg_of_reads hc hrun
  have hlog : t.2 = s.2 ++ [⟨i, message.orderId, kind⟩] := by
    rw [hlog, record, effectOf_some hkind hl]
    rfl
  have hcount : ∀ orderId, count t.2 orderId .commit = count s.2 orderId .commit := by
    intro orderId
    rw [hlog, count_append, if_neg fun h => hcommit h.2, Nat.add_zero]
  refine ⟨⟨⟨?_, ⟨?_, ?_, ?_, ?_⟩, ?_⟩, ?_, ?_⟩, hpg ▸ hacted.names, hlog ▸ hacted.only.append⟩
  · exact hpg ▸ hs.orders
  · intro e he
    rw [hlog] at he
    rw [hpg]
    rcases List.mem_append.1 he with he | he
    · exact hs.tally.known e he
    · obtain ⟨o, ho, hid, -⟩ := hacted.names
      exact ⟨o, ho, by rw [List.mem_singleton.1 he, hid]⟩
  · intro o ho
    rw [hpg] at ho
    rw [hcount]
    exact hs.tally.commits o ho
  · intro orderId
    rw [hcount, hpg]
    exact hs.tally.audits orderId
  · intro orderId
    rw [hcount, hpg]
    exact hs.tally.events orderId
  · exact hlog ▸ hs.once.append (hsole hl) hacted.only hnew hpaired
  · intro m _ o _ _ _ r hr _
    rw [hpg]
    exact hr
  · intro j hj
    exact ⟨by rw [hpg]; exact .refl _, by rw [hlog]; exact ownLog_append_ne hj.symm⟩

/-- The commit of a delivery that has at most refunded. -/
theorem commit_step {r : Option Unit} (hs : Inv s) (hacted : Acted [.refund] message i s)
    (hallowed : ActsAlone (.cancellation message) i l
      (.commitCancellation (cancellationCommit message)) s)
    (hex : (machine mockMode).exec (.cancellation message) i l
      (.commitCancellation (cancellationCommit message)) s = some (t, r)) :
    contract.Honours (.cancellation message) i s t ∧
      (r = some () → Acted [.refund, .commit] message i t ∧
        ⟨i, message.orderId, .commit⟩ ∈ t.2) := by
  obtain ⟨hrun, hlog⟩ := Machine.logged_exec.1 hex
  have hrun : World.onPg l (Postgres.commitCancellation (cancellationCommit message)) s.1 =
      (t.1, r) := Option.some.inj hrun
  have hkind : kindOf (.commitCancellation (cancellationCommit message)) = some .commit := rfl
  by_cases hl : l = .lost
  · subst hl
    obtain ⟨ht, rfl⟩ := Prod.mk.inj hrun
    rw [record_of_none effectOf_lost] at hlog
    obtain rfl : s = t := Prod.ext ht hlog.symm
    refine ⟨⟨hs, ?_, fun j _ => contract.rely_refl j s⟩, fun h => by cases h⟩
    exact fun _ _ _ _ _ _ r hr _ => hr
  have hpg : t.1.pg = (s.1.pg.commitCancellation (cancellationCommit message)).1 := by
    obtain ⟨ht, -⟩ := Prod.mk.inj hrun
    rw [← ht]
    cases l with
    | lost => exact absurd rfl hl
    | ok | unacked => rfl
  have hlog : t.2 = s.2 ++ [⟨i, message.orderId, .commit⟩] := by
    rw [hlog, record, effectOf_some hkind hl]
    rfl
  have hsole := sole_of_actsAlone hkind hl (by decide) hallowed
  have hzero : count s.2 message.orderId .commit = 0 :=
    hsole.count_eq_zero hacted.only (by decide)
  -- an order without a commit is not refunded, so its seats are nobody else's
  have hactive : ∀ o ∈ s.1.pg.orders, o.id = message.orderId → o.status ≠ .refunded := by
    intro o ho hid href
    have hone := hs.tally.commits o ho
    rw [hid, hzero, if_pos href] at hone
    cases hone
  have hkeeps : KeepsOrders s.1.pg t.1.pg :=
    .of_map (sameOrder_refund message.orderId) (by rw [hpg, orders_commitCancellation])
  refine ⟨⟨⟨?_, ?_, ?_⟩, ?_, ?_⟩, fun _ => ⟨⟨hacted.names.congr hkeeps, ?_⟩, ?_⟩⟩
  · exact hpg ▸ hs.orders.commitCancellation hacted.names hactive
  · exact hpg ▸ hlog ▸ hs.tally.commitCancellation hacted.names hzero
  · exact hlog ▸ hs.once.append hsole hacted.only (by decide) fun h => by cases h
  · intro m hm o ho hne hact r hr hk
    obtain rfl : message = m := by injection hm
    have hspared := hs.orders.spared hacted.names hactive ho hne hact r.id hk
    have hmem := Table.mem_updateWhere_of_mem (p := fun r => decide (r.id ∈ message.seatIds))
      (f := fun r : SeatRow => { r with status := .available }) hr
    have hsame : r ∈ (s.1.pg.commitCancellation (cancellationCommit message)).1.seats := by
      rwa [if_neg (by simpa using hspared)] at hmem
    exact hpg ▸ hsame
  · exact fun j hj => ⟨hkeeps, by rw [hlog]; exact ownLog_append_ne hj.symm⟩
  · exact hlog ▸ hacted.only.append
  · rw [hlog]
    exact List.mem_append_right _ (List.mem_singleton_self _)

/-- A step of another service that asks for a cancellation of an order it has read. -/
theorem startCancellation_step {id : ℕ} {r : Option Unit} (hs : Inv s)
    (hnone : ∀ c, effectOf n i l c = none) (hm : Names s.1.pg message)
    (hn : ∀ m, n ≠ .cancellation m)
    (hex : (machine mockMode).exec n i l (.startCancellation id message) s = some (t, r)) :
    contract.Honours n i s t := by
  obtain ⟨hrun, hlog⟩ := Machine.logged_exec.1 hex
  rw [record_of_none (hnone _)] at hlog
  rcases Link.deliver_cases (Option.some.inj hrun) with ⟨ht, -⟩ | ⟨ht, -⟩
  · obtain rfl : s = t := Prod.ext ht.symm hlog.symm
    exact ⟨hs, fun m hm => absurd hm (hn m), fun j _ => contract.rely_refl j s⟩
  · have hpg : t.1.pg = s.1.pg.startCancellation id message := by rw [ht]
    refine ⟨⟨?_, ?_, ?_⟩, fun m hm => absurd hm (hn m), fun j _ => ⟨?_, by rw [hlog]⟩⟩
    · exact hpg ▸ hs.orders.startCancellation hm
    · exact hpg ▸ hlog ▸ hs.tally.startCancellation id message
    · exact hlog ▸ hs.once
    · exact hpg ▸ keepsOrders_startCancellation s.1.pg id message

/-- A program whose commands read and have no effect in the log. -/
theorem quiet_bind {α β : Type} {p : Service α} {f : α → Service β}
    {Q : β → World × List Effect → Prop}
    (hp : p.Issues fun c => Reads c ∧ ∀ l, effectOf n i l c = none)
    (h : ∀ b t, contract.rely i s t → contract.Ensures ((machine mockMode).exec n) n i Q (f b) t) :
    contract.Ensures ((machine mockMode).exec n) n i Q (p >>= f) s :=
  .bind_of_issues (fun _ hc l _ _ _ hinv _ hex => quiet_step hc.1 (hc.2 l) hinv hex) hp h

theorem quiet_perform {c : Cmd} (hc : Reads c) (hnone : ∀ l, effectOf n i l c = none) :
    (Prog.perform c : Service (Rep c)).Issues fun c => Reads c ∧ ∀ l, effectOf n i l c = none :=
  ⟨⟨hc, hnone⟩, fun _ => trivial⟩

/-- What follows a commit: the increment, once, and the announcement. -/
theorem ensures_announceCancellation (hacted : Acted [.refund, .commit] message i s)
    (hcommit : ⟨i, message.orderId, .commit⟩ ∈ s.2) :
    contract.Ensures ((machine mockMode).exec (.cancellation message)) (.cancellation message) i
      (fun _ _ => True) (announceCancellation message) s := by
  have hpublish : ∀ t, contract.Ensures ((machine mockMode).exec (.cancellation message))
      (.cancellation message) i (fun _ _ => True)
      (publishRoom message.scheduleId
        (roomEvent "seat_unlocked" message.seatIds message.userId)) t := by
    intro t
    refine .of_issues (φ := fun c => Reads c ∧ kindOf c = none) ?_ ?_
    · exact fun c hc l u v r hinv _ hex => (quiet_step hc.1 (effectOf_none hc.2) hinv hex).1
    · exact Prog.Issues.hoist _ (SingleNodeLock.issues_cluster ⟨⟨trivial, rfl⟩, fun _ => trivial⟩
        ⟨⟨trivial, rfl⟩, fun _ => trivial⟩)
  refine .call fun t hst ht _ _ u r hex => ?_
  obtain ⟨hu, htu⟩ := quiet_step (c := .redis .connect) trivial (effectOf_none rfl) ht hex
  refine ⟨hu, ?_⟩
  match r with
  | none => exact hpublish u
  | some () =>
  refine .call fun v huv hv l _ w r hex => ?_
  have hrely := contract.rely_trans i s t v hst (contract.rely_trans i t u v htu huv)
  have hacted := hacted.stable hrely
  have hcommit : ⟨i, message.orderId, .commit⟩ ∈ v.2 := by
    have hmem : ⟨i, message.orderId, .commit⟩ ∈ ownLog v.2 i :=
      hrely.2 ▸ mem_ownLog.2 ⟨hcommit, rfl⟩
    exact (mem_ownLog.1 hmem).1
  -- whoever acted for the order is the session of its commit
  have hsole : Sole i message.orderId v.2 := fun e he horder =>
    hv.once.alone e he _ hcommit horder
  have hstep := effect_step (c := .redis (.adjustAvailable message.scheduleId
    message.seatIds.length)) trivial rfl (by decide) hv hacted (by decide) (fun _ => hsole)
    (fun _ => hcommit) hex
  exact ⟨hstep.1, hpublish w⟩

/-- From the commit on, where at most the refund has been requested. -/
theorem ensures_commitAndAnnounce (hacted : Acted [.refund] message i s) :
    contract.Ensures ((machine mockMode).exec (.cancellation message)) (.cancellation message) i
      (fun _ _ => True) (commitAndAnnounce message) s := by
  refine .call fun t hst ht l hallowed u r hex => ?_
  obtain ⟨hu, hdone⟩ := commit_step ht (hacted.stable hst) hallowed hex
  refine ⟨hu, ?_⟩
  match r with
  | none => exact .ret fun _ _ _ => trivial
  | some () =>
      obtain ⟨hacted, hcommit⟩ := hdone rfl
      have hrest : contract.Ensures ((machine mockMode).exec (.cancellation message))
          (.cancellation message) i (fun _ _ => True)
          (announceCancellation message >>= fun _ => pure Verdict.ack) u :=
        .bind ((ensures_announceCancellation hacted hcommit).weaken fun _ _ _ =>
          .ret fun _ _ _ => trivial)
      exact hrest

theorem ensures_processCancellation (hacted : Acted [] message i s) :
    contract.Ensures ((machine mockMode).exec (.cancellation message)) (.cancellation message) i
      (fun _ _ => True) (processCancellation mockMode message) s := by
  have hnone : Acted [.refund] message i s :=
    ⟨hacted.names, fun e he hi => absurd (hacted.only e he hi) List.not_mem_nil⟩
  unfold processCancellation refundPayment processRazorpayRefund
  cases message.razorpayPaymentId with
  | none => exact ensures_commitAndAnnounce hnone
  | some paymentId =>
  cases mockMode with
  | true => exact ensures_commitAndAnnounce hnone
  | false =>
  refine .call fun t hst ht l hallowed u r hex => ?_
  obtain ⟨hu, hacted'⟩ := effect_step (c := .refund paymentId (paise message.amount)) trivial rfl
    (by decide) ht (hacted.stable hst) (by decide)
    (fun hl => sole_of_actsAlone rfl hl (by decide) hallowed) (fun h => by cases h) hex
  refine ⟨hu, ?_⟩
  match r with
  | none => exact .ret fun _ _ _ => trivial
  | some () => exact ensures_commitAndAnnounce hacted'

theorem findOrder_eq_some {w : Postgres} {id : ℕ} {o : OrderRow} (h : w.findOrder id = some o) :
    o ∈ w.orders ∧ o.id = id :=
  ⟨List.mem_of_find?_eq_some h, by simpa using List.find?_some h⟩

theorem ensures_cancelOrder {userId : ℤ} {orderId : ℕ} {key : String}
    (hn : ∀ m, n ≠ .cancellation m) :
    contract.Ensures ((machine mockMode).exec n) n i (fun _ _ => True)
      (cancelOrder userId orderId key) s := by
  have hnone : ∀ l c, effectOf n i l c = none := by
    intro l c
    cases n with
    | cancellation m => exact absurd rfl (hn m)
    | cancelOrder => rfl
    | redis => rfl
  unfold cancelOrder
  split_ifs
  · exact .ret fun _ _ _ => trivial
  refine quiet_bind (quiet_perform trivial fun l => hnone l _) fun r t _ => ?_
  match r with
  | none => exact .ret fun _ _ _ => trivial
  | some () =>
  refine .call fun u _ hu l _ v r hex => ?_
  obtain ⟨hv, huv⟩ := quiet_step (c := .findOrder orderId) trivial (hnone l _) hu hex
  refine ⟨hv, ?_⟩
  match r with
  | none => exact .ret fun _ _ _ => trivial
  | some none => exact .ret fun _ _ _ => trivial
  | some (some order) =>
  have hfind : u.1.pg.findOrder orderId = some order := by
    obtain ⟨hrun, -⟩ := Machine.logged_exec.1 hex
    have hr : (World.query l (·.findOrder orderId) u.1).2 = some (some order) :=
      congrArg Prod.snd (Option.some.inj hrun)
    cases l with
    | ok => exact Option.some.inj hr
    | lost | unacked => cases hr
  show contract.Ensures _ n i _ (if order.userId ≠ userId then _ else _) v
  split_ifs
  · exact .ret fun _ _ _ => trivial
  · exact .ret fun _ _ _ => trivial
  · refine .call fun w hvw hw l _ x r hex => ?_
    have hnames : Names w.1.pg (cancellationMessage order userId key) := by
      refine Names.congr (s := u.1.pg) ⟨order, (findOrder_eq_some hfind).1, rfl, rfl⟩ ?_
      exact huv.1.trans hvw.1
    refine ⟨startCancellation_step hw (hnone l) hnames hn hex, ?_⟩
    match r with
    | none => exact .ret fun _ _ _ => trivial
    | some () => exact .ret fun _ _ _ => trivial

end Threads

/-! ## Runs -/

section Runs

variable {mockMode : Bool}

theorem inv_newWorld (seats : List SeatRow) : Inv (newWorld seats, []) := by
  refine ⟨⟨?_, ?_, ?_, ?_, ?_⟩, ⟨?_, ?_, ?_, ?_⟩, ⟨?_, ?_, ?_, ?_⟩⟩ <;>
    simp [newWorld, count, auditCount, eventCount]

/-- A session that has not started has had no effect. -/
theorem only_of_unstarted {i : ℕ} {s : World × List Effect}
    (h : (machine mockMode).Unstarted contract i s) : Only [] i s.2 := by
  obtain ⟨s₀, ⟨-, hlog⟩, hrely⟩ := h
  have hnil : Only [] i s₀.2 := by
    rw [hlog]
    intro e he
    cases he
  exact hnil.congr hrely.2

theorem environ_meets :
    (machine mockMode).EnvironMeets contract (fun _ _ _ _ => True) fun _ _ => True := by
  intro x s t new hs _ hx
  obtain ⟨hx, hlog⟩ := Machine.logged_environ.1 hx
  have hsame : t.1.pg = s.1.pg → Inv t ∧ ∀ j, contract.rely j s t := by
    intro hpg
    refine ⟨⟨hpg ▸ hs.orders, hpg ▸ hlog ▸ hs.tally, hlog ▸ hs.once⟩, fun j => ⟨?_, by rw [hlog]⟩⟩
    rw [hpg]
    exact .refl _
  cases x with
  | tick d =>
      obtain ⟨ht, rfl⟩ := Prod.mk.inj (Option.some.inj hx)
      obtain ⟨hinv, hrely⟩ := hsame (by rw [← ht])
      exact ⟨hinv, hrely, fun _ _ _ hp => absurd hp List.not_mem_nil⟩
  | book c =>
      have hx : (if Bookable c s.1.pg then
          some ({ s.1 with pg := (s.1.pg.commitCheckout c).1 }, []) else none) = some (t.1, new) := hx
      split_ifs at hx with hc
      obtain ⟨ht, rfl⟩ := Prod.mk.inj (Option.some.inj hx)
      have hpg : t.1.pg = (s.1.pg.commitCheckout c).1 := by rw [← ht]
      refine ⟨⟨?_, ?_, hlog ▸ hs.once⟩, fun j => ⟨?_, by rw [hlog]⟩, ?_⟩
      · exact hpg ▸ hs.orders.book hc
      · exact hpg ▸ hlog ▸ hs.tally.book hc
      · exact hpg ▸ keepsOrders_book s.1.pg c
      · exact fun _ _ _ hp => absurd hp List.not_mem_nil
  | cancelOrder userId orderId key =>
      obtain ⟨ht, rfl⟩ := Prod.mk.inj (Option.some.inj hx)
      obtain ⟨hinv, hrely⟩ := hsame (by rw [← ht])
      refine ⟨hinv, hrely, fun i n p hp _ => ?_⟩
      obtain ⟨rfl, rfl⟩ := Prod.mk.inj (List.mem_singleton.1 hp)
      refine .bind ((ensures_cancelOrder fun m h => by cases h).weaken fun _ _ _ => ?_)
      exact .ret fun _ _ _ => trivial
  | deliver k =>
      have hx : environ mockMode (.deliver k) s.1 = some (t.1, new) := hx
      simp only [environ] at hx
      split at hx
      · next message hget =>
        obtain ⟨ht, rfl⟩ := Prod.mk.inj (Option.some.inj hx)
        obtain ⟨hinv, hrely⟩ := hsame (by rw [← ht])
        refine ⟨hinv, hrely, fun i n p hp hun => ?_⟩
        obtain ⟨rfl, rfl⟩ := Prod.mk.inj (List.mem_singleton.1 hp)
        have hnames : Names t.1.pg message := by
          rw [← ht]
          exact hs.orders.requested message (List.mem_of_getElem? hget)
        refine .bind ((ensures_processCancellation ⟨hnames, only_of_unstarted hun⟩).weaken ?_)
        exact fun _ _ _ => .ret fun _ _ _ => trivial
      · cases hx
  | onRedis p =>
      obtain ⟨ht, rfl⟩ := Prod.mk.inj (Option.some.inj hx)
      obtain ⟨hinv, hrely⟩ := hsame (by rw [← ht])
      refine ⟨hinv, hrely, fun i n q hq _ => ?_⟩
      obtain ⟨rfl, rfl⟩ := Prod.mk.inj (List.mem_singleton.1 hq)
      refine quiet_bind ?_ fun _ _ _ => .ret fun _ _ _ => trivial
      exact Prog.Issues.hoist _ (Prog.issues_of_forall p fun _ =>
        ⟨⟨trivial, fun _ => rfl⟩, fun _ => trivial⟩)

/-- Every thread of a run in which one delivery acts for an order meets the contract. -/
theorem fulfils {p : Pool (World × List Effect) Rep Task Result}
    (h : (machine mockMode).system.ReachableUnder AloneRun p) :
    (machine mockMode).Fulfils contract (fun _ _ _ _ => True) p := by
  refine Machine.ensures_of_reachable ?_ environ_meets ?_ h
  · rintro ⟨s, log⟩ ⟨⟨seats, rfl⟩, rfl⟩
    exact inv_newWorld seats
  · exact fun i s hs => ⟨hs, fun j _ => contract.rely_refl j s⟩

/-- In every run in which a single delivery acts for each order, the refund is requested and the
cached count incremented at most once, a refunded order has one audit row and one event, and no step
of a delivery touches the seats of another order that is not refunded. -/
theorem cancellation_once {p : Pool (World × List Effect) Rep Task Result}
    (h : (machine mockMode).system.ReachableUnder AloneRun p) :
    (∀ orderId, count p.store.2 orderId .refund ≤ 1) ∧
    (∀ o ∈ p.store.1.pg.orders, o.status = .refunded →
      auditCount p.store.1.pg o.id = 1 ∧ eventCount p.store.1.pg o.id = 1) ∧
    (∀ orderId, count p.store.2 orderId .increment ≤ 1) ∧
    (∀ i message prog l q, p.Runs i (.cancellation message) prog → AloneRun p (.run i l) →
      (machine mockMode).step p (.run i l) = some q →
      ∀ o ∈ p.store.1.pg.orders, o.id ≠ message.orderId → o.status ≠ .refunded →
        ∀ r ∈ p.store.1.pg.seats, r.id ∈ o.seatIds → r ∈ q.store.1.pg.seats) := by
  have hfulfils := fulfils h
  have hinv : Inv p.store := hfulfils.inv
  refine ⟨hinv.once.refunds, fun o ho href => ?_, hinv.once.increments, ?_⟩
  · have hone : count p.store.2 o.id .commit = 1 := by
      rw [hinv.tally.commits o ho, if_pos href]
    exact ⟨(hinv.tally.audits o.id).trans hone, (hinv.tally.events o.id).trans hone⟩
  · intro i message prog l q hruns hG hstep
    obtain ⟨n, c, k, hruns', hguar⟩ := hfulfils.guar hG hstep
    have hn : n = .cancellation message := by
      have heq := hruns'.symm.trans hruns
      injection heq with heq
      injection heq
    exact hguar message hn

/-! ## One order, delivered twice -/

/-- The checkout of seat 1 under an order, paid with a payment that can be refunded. -/
def checkoutOf (orderId paymentRequestId : ℕ) (userId : ℤ) : CheckoutCommit :=
  ⟨orderId, paymentRequestId, userId, 1, [1], 118, "order_1", some "pay_1"⟩

/-- Order 100 for seat 1 is booked, and its buyer asks for a cancellation. -/
def cancelled : List (Act Link Environ) :=
  [.environ (.book (checkoutOf 100 10 42)), .environ (.cancelOrder 42 100 "cancel"),
    .run 0 .ok, .run 0 .ok, .run 0 .ok]

/-- A delivery that crashes before its refund, and one that goes through; the seat is sold again. -/
theorem cancellation_once_redelivered :
    ∃ p, (machine false).system.ReachableUnder AloneRun p ∧
      p.store.1.pg.orders.map (·.status) = [.refunded, .completed] ∧
      (∀ orderId, count p.store.2 orderId .refund ≤ 1) ∧
      (∀ o ∈ p.store.1.pg.orders, o.status = .refunded →
        auditCount p.store.1.pg o.id = 1 ∧ eventCount p.store.1.pg o.id = 1) := by
  obtain ⟨p, hp, horders⟩ := System.exists_reachable_of_runUnder (machine false).system AloneRun
    (fun p => decide (p.store.1.pg.orders.map (·.status) = [.refunded, .completed]))
    (s := ⟨(newWorld oneSeat, []), []⟩) ⟨⟨⟨oneSeat, rfl⟩, rfl⟩, rfl⟩
    (cancelled ++ [.environ (.deliver 1), .crash 1, .environ (.deliver 1), .run 2 .ok, .run 2 .ok,
      .run 2 .ok, .run 2 .ok, .environ (.book (checkoutOf 101 11 43))]) (by decide +kernel)
  obtain ⟨hrefunds, hrows, -⟩ := cancellation_once hp
  exact ⟨p, hp, of_decide_eq_true horders, hrefunds, hrows⟩

def orderRows (s : Postgres) : List (ℕ × OrderStatus × List ℤ) :=
  s.orders.map fun o => (o.id, o.status, o.seatIds)

/-- The order whose cancellation thread `i` is working on. -/
def orderOf (p : Pool (World × List Effect) Rep Task Result) (i : ℕ) : Option ℕ :=
  match p.threads[i]? with
  | some ⟨.cancellation message, some _⟩ => some message.orderId
  | _ => none

theorem runs_of_orderOf {p : Pool (World × List Effect) Rep Task Result} {i orderId : ℕ}
    (h : orderOf p i = some orderId) :
    ∃ message prog, p.Runs i (.cancellation message) prog ∧ message.orderId = orderId := by
  unfold orderOf at h
  split at h
  · next message prog ht => exact ⟨message, prog, ht, Option.some.inj h⟩
  · cases h

/-- A worker crashes after its last effect, seat 1 is sold again, and the second delivery has
requested the refund. -/
def redelivered : List (Act Link Environ) :=
  cancelled ++ [.environ (.deliver 1), .run 1 .ok, .run 1 .ok, .run 1 .ok, .run 1 .ok, .crash 1,
    .environ (.book (checkoutOf 101 11 43)), .environ (.deliver 1), .run 2 .ok]

/-- The second delivery refunds the payment, writes the rows and increments the count once more, and
its commit frees the seat of the new order. -/
theorem cancellation_repeated :
    (¬ ∀ p, (machine false).system.Reachable p → ∀ orderId, count p.store.2 orderId .refund ≤ 1) ∧
    (¬ ∀ p, (machine false).system.Reachable p → ∀ o ∈ p.store.1.pg.orders, o.status = .refunded →
      auditCount p.store.1.pg o.id = 1 ∧ eventCount p.store.1.pg o.id = 1) ∧
    (¬ ∀ p, (machine false).system.Reachable p →
      ∀ orderId, count p.store.2 orderId .increment ≤ 1) ∧
    (¬ ∀ p, (machine false).system.Reachable p → ∀ i message prog l q,
      p.Runs i (.cancellation message) prog → (machine false).step p (.run i l) = some q →
      ∀ o ∈ p.store.1.pg.orders, o.id ≠ message.orderId → o.status ≠ .refunded →
        ∀ r ∈ p.store.1.pg.seats, r.id ∈ o.seatIds → r ∈ q.store.1.pg.seats) := by
  have hinit : (machine false).system.init ⟨(newWorld oneSeat, []), []⟩ :=
    ⟨⟨⟨oneSeat, rfl⟩, rfl⟩, rfl⟩
  obtain ⟨p, hp, hbefore⟩ := System.exists_reachable_of_run (machine false).system
    (fun p => decide (count p.store.2 100 .refund = 2 ∧ orderOf p 2 = some 100 ∧
      (101, .completed, [1]) ∈ orderRows p.store.1.pg ∧
      (⟨1, 1, 100, .booked⟩ : SeatRow) ∈ p.store.1.pg.seats ∧
      ((machine false).step p (.run 2 .ok)).map (fun q => q.store.1.pg.seats) =
        some [⟨1, 1, 100, .available⟩]))
    hinit redelivered (by decide +kernel)
  obtain ⟨p', hp', hafter⟩ := System.exists_reachable_of_run (machine false).system
    (fun p => decide (count p.store.2 100 .increment = 2 ∧ auditCount p.store.1.pg 100 = 2 ∧
      (100, .refunded, [1]) ∈ orderRows p.store.1.pg))
    hinit (redelivered ++ [.run 2 .ok, .run 2 .ok, .run 2 .ok]) (by decide +kernel)
  obtain ⟨hrefunds, horder, hnew, hseat, hstep⟩ := of_decide_eq_true hbefore
  obtain ⟨hincrements, haudits, hold⟩ := of_decide_eq_true hafter
  refine ⟨fun h => ?_, fun h => ?_, fun h => ?_, fun h => ?_⟩
  · have := h p hp 100
    omega
  · obtain ⟨o, ho, heq⟩ := List.mem_map.1 hold
    obtain ⟨hid, href, -⟩ := by simpa only [Prod.mk.injEq] using heq
    have := (h p' hp' o ho href).1
    rw [hid] at this
    omega
  · have := h p' hp' 100
    omega
  · obtain ⟨message, prog, hruns, hid⟩ := runs_of_orderOf horder
    obtain ⟨o, ho, heq⟩ := List.mem_map.1 hnew
    obtain ⟨hid', hcomp, hseats⟩ := by simpa only [Prod.mk.injEq] using heq
    obtain ⟨q, hq, hfree⟩ := Option.map_eq_some_iff.1 hstep
    have hmem := h p hp 2 message prog .ok q hruns hq o ho (by omega) (by simp [hcomp]) _ hseat
      (by simp [hseats])
    rw [hfree] at hmem
    simp at hmem

end Runs

end Cancellation
end Bookit

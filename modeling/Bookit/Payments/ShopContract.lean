import Bookit.Payments.Razorpay
import Bookit.Payments.Traces

/-!
# Payments.ShopContract — the runs of the shop and what its rows have in common

The condition on the calls of `request_payment`, and the invariant that it keeps: every row belongs
to a call, and the provider has the orders for the prices of the seats they were asked for.  The
threads of the payment path keep their contract in the shop.
-/

namespace Bookit
namespace Payments

open Lib

/-! ## The runs -/

/-- The body's signature verifies only where the provider has signed that text: HMAC signatures are
not forged. -/
def Unforged (provider : Provider) (request : PaymentRequest) (s : Shop) : Prop :=
  match request.razorpayOrderId, request.razorpayPaymentId, request.razorpaySignature with
  | some orderId, some paymentId, some signature =>
      provider.hmacHex provider.keySecret (orderId ++ "|" ++ paymentId) = signature →
        ∃ x ∈ s.razorpay.payments, x.1 ++ "|" ++ x.2 = orderId ++ "|" ++ paymentId
  | _, _, _ => True

instance {provider : Provider} {request : PaymentRequest} {s : Shop} :
    Decidable (Unforged provider request s) := by
  unfold Unforged
  split <;> infer_instance

/-- The total of the seats of a request. -/
def requestTotal (s : Postgres) (request : PaymentRequest) : ℚ :=
  totalAmount (s.loadSeats request.seatIds request.scheduleId)

/-- The body names an order that `create_razorpay_order` obtained for seats of the same price. -/
def NamesOrder (request : PaymentRequest) (s : Shop) : Prop :=
  match request.razorpayOrderId with
  | none => False
  | some orderId =>
      "order_mock_".toList.isPrefixOf orderId.toList = false ∧
        ∃ x ∈ s.issued, x.1 = orderId ∧
          paiseOf (priceTotal (loadPrices s.world.pg x.2)) =
            paiseOf (requestTotal s.world.pg request)

instance {request : PaymentRequest} {s : Shop} : Decidable (NamesOrder request s) := by
  unfold NamesOrder
  split <;> infer_instance

/-- Two calls are for one purchase, or present different pairs of order and payment. -/
def Call.Apart (c c' : Call) : Prop :=
  (c.userId = c'.userId ∧ c.request.idempotencyKey = c'.request.idempotencyKey) ∨
    (c.request.razorpayOrderId, c.request.razorpayPaymentId) ≠
      (c'.request.razorpayOrderId, c'.request.razorpayPaymentId)

instance {c c' : Call} : Decidable (c.Apart c') := by
  unfold Call.Apart
  infer_instance

/-- A call of `request_payment` with no forged signature. -/
def SignsProperly (provider : Provider) (x : ShopEnviron) (s : Shop) : Prop :=
  match x with
  | .request _ request _ => Unforged provider request s
  | _ => True

instance {provider : Provider} {x : ShopEnviron} {s : Shop} :
    Decidable (SignsProperly provider x s) := by
  unfold SignsProperly
  split <;> infer_instance

/-- Runs without forged signatures. -/
def UnforgedRun (provider : Provider) (p : Pool Shop ShopRep ShopTask ShopResult)
    (a : Act Link ShopEnviron) : Prop :=
  Machine.Guarded (fun _ _ _ _ _ => True) (SignsProperly provider) p a

instance {provider : Provider} {p : Pool Shop ShopRep ShopTask ShopResult}
    {a : Act Link ShopEnviron} : Decidable (UnforgedRun provider p a) :=
  inferInstanceAs (Decidable (Machine.Guarded _ _ p a))

/-- The condition on the calls of `request_payment`. -/
def PaysProperly (provider : Provider) (x : ShopEnviron) (s : Shop) : Prop :=
  match x with
  | .request userId request newId =>
      Unforged provider request s ∧ NamesOrder request s ∧
        ∀ c ∈ s.calls, c.Apart ⟨newId, userId, request⟩
  | _ => True

instance {provider : Provider} {x : ShopEnviron} {s : Shop} :
    Decidable (PaysProperly provider x s) := by
  unfold PaysProperly
  split <;> infer_instance

/-- Runs whose calls of `request_payment` all meet the condition. -/
def ProperRun (provider : Provider) (p : Pool Shop ShopRep ShopTask ShopResult)
    (a : Act Link ShopEnviron) : Prop :=
  Machine.Guarded (fun _ _ _ _ _ => True) (PaysProperly provider) p a

instance {provider : Provider} {p : Pool Shop ShopRep ShopTask ShopResult}
    {a : Act Link ShopEnviron} : Decidable (ProperRun provider p a) :=
  inferInstanceAs (Decidable (Machine.Guarded _ _ p a))

/-! ## The invariant -/

/-- A request row is that of a call. -/
def CalledFor (s : Shop) (r : RequestRow) : Prop :=
  ∃ c ∈ s.calls, c.newId = r.id ∧ c.userId = r.userId ∧
    c.request.idempotencyKey = r.idempotencyKey

/-- A checkout is that of a call whose signature verified. -/
def CarriedFor (provider : Provider) (s : Shop) (m : CheckoutMessage) : Prop :=
  ∃ c ∈ s.calls, c.newId = m.paymentRequestId ∧ checkSignature provider c.request = .ok () ∧
    m.razorpayPaymentId = c.request.razorpayPaymentId

/-- An order is that of a checkout. -/
def OrderedFor (s : Shop) (o : ℕ × Option String) : Prop :=
  ∃ m ∈ s.world.pg.checkouts, m.paymentRequestId = o.1 ∧ m.razorpayPaymentId = o.2

/-- What the provider's record says of the orders it was asked for. -/
structure Recorded (s : Shop) : Prop where
  amounts : ∀ x ∈ s.issued,
    s.razorpay.amountOf x.1 = some (paiseOf (priceTotal (loadPrices s.world.pg x.2)))
  plain : ∀ x ∈ s.razorpay.payments, plainId x.1 = true ∧ plainId x.2 = true
  single : (s.razorpay.payments.map Prod.snd).Nodup

structure Linked (provider : Provider) (s : Shop) : Prop where
  ids : (s.calls.map (·.newId)).Nodup
  proper : ∀ c ∈ s.calls, Unforged provider c.request s ∧ NamesOrder c.request s
  apart : s.calls.Pairwise Call.Apart
  openRow : ∀ x ∈ s.world.pg.open_, CalledFor s x.2.row
  rows : ∀ r ∈ s.world.pg.requests, CalledFor s r
  openEvent : ∀ x ∈ s.world.pg.open_, ∀ m, x.2.event = some m → CarriedFor provider s m
  events : ∀ m ∈ s.world.pg.checkouts, CarriedFor provider s m
  orders : ∀ o ∈ s.world.pg.orders.map OrderRow.paid, OrderedFor s o
  once : ((s.world.pg.orders.map OrderRow.paid).map Prod.fst).Nodup
  recorded : Recorded s

/-- How the shop may change behind a thread's back. -/
structure Grows (s t : Shop) : Prop where
  offers : t.world.pg.seats.map SeatRow.offer = s.world.pg.seats.map SeatRow.offer
  calls : ∀ c ∈ s.calls, c ∈ t.calls
  events : ∀ m ∈ s.world.pg.checkouts, m ∈ t.world.pg.checkouts
  issued : ∀ x ∈ s.issued, x ∈ t.issued
  payments : ∀ x ∈ s.razorpay.payments, x ∈ t.razorpay.payments

theorem Grows.refl (s : Shop) : Grows s s :=
  ⟨rfl, fun _ h => h, fun _ h => h, fun _ h => h, fun _ h => h⟩

theorem Grows.trans {s t u : Shop} (hst : Grows s t) (htu : Grows t u) : Grows s u :=
  ⟨htu.offers.trans hst.offers, fun c hc => htu.calls c (hst.calls c hc),
    fun m hm => htu.events m (hst.events m hm), fun x hx => htu.issued x (hst.issued x hx),
    fun x hx => htu.payments x (hst.payments x hx)⟩

section Grows

variable {provider : Provider} {s t : Shop}

/-- A sum over the offers with a property does not depend on the statuses. -/
theorem prices_congr {s t : Postgres} (h : t.seats.map SeatRow.offer = s.seats.map SeatRow.offer)
    (p : ℤ × ℤ × ℚ → Bool) :
    (t.seats.filter fun r => p r.offer).map (·.price) =
      (s.seats.filter fun r => p r.offer).map (·.price) := by
  have hprices : ∀ u : Postgres, (u.seats.filter fun r => p r.offer).map (·.price) =
      ((u.seats.map SeatRow.offer).filter p).map (fun o => o.2.2) := by
    intro u
    rw [List.filter_map, List.map_map]
    rfl
  rw [hprices, hprices, h]

theorem loadPrices_congr {s t : Postgres}
    (h : t.seats.map SeatRow.offer = s.seats.map SeatRow.offer) (seatIds : List ℤ) :
    loadPrices t seatIds = loadPrices s seatIds :=
  prices_congr h fun o => decide (o.1 ∈ seatIds)

theorem requestTotal_congr {s t : Postgres}
    (h : t.seats.map SeatRow.offer = s.seats.map SeatRow.offer) (request : PaymentRequest) :
    requestTotal t request = requestTotal s request :=
  congrArg priceTotal (prices_congr h fun o =>
    decide (o.1 ∈ request.seatIds ∧ o.2.1 = request.scheduleId))

theorem Unforged.grows {request : PaymentRequest} (h : Unforged provider request s)
    (hst : Grows s t) : Unforged provider request t := by
  unfold Unforged at h ⊢
  split
  · next orderId paymentId signature ho hp hs =>
    simp only [ho, hp, hs] at h
    intro hmac
    obtain ⟨x, hx, heq⟩ := h hmac
    exact ⟨x, hst.payments x hx, heq⟩
  · trivial

theorem NamesOrder.grows {request : PaymentRequest} (h : NamesOrder request s)
    (hst : Grows s t) : NamesOrder request t := by
  unfold NamesOrder at h ⊢
  split
  · next ho => simp only [ho] at h
  · next orderId ho =>
    simp only [ho] at h
    obtain ⟨hmock, x, hx, heq, hprice⟩ := h
    refine ⟨hmock, x, hst.issued x hx, heq, ?_⟩
    rw [loadPrices_congr hst.offers, requestTotal_congr hst.offers]
    exact hprice

theorem CalledFor.grows {r r' : RequestRow} (h : CalledFor s r) (hst : Grows s t)
    (hr : SameRow r r') : CalledFor t r' := by
  obtain ⟨c, hc, hid, huser, hkey⟩ := h
  exact ⟨c, hst.calls c hc, hid.trans hr.id.symm, huser.trans hr.userId.symm,
    hkey.trans hr.idempotencyKey.symm⟩

theorem CarriedFor.grows {m : CheckoutMessage} (h : CarriedFor provider s m) (hst : Grows s t) :
    CarriedFor provider t m := by
  obtain ⟨c, hc, hm⟩ := h
  exact ⟨c, hst.calls c hc, hm⟩

theorem OrderedFor.grows {o : ℕ × Option String} (h : OrderedFor s o) (hst : Grows s t) :
    OrderedFor t o := by
  obtain ⟨m, hm, heq⟩ := h
  exact ⟨m, hst.events m hm, heq⟩

end Grows

/-- What a command of the payment path writes is that of a call. -/
def Justified (provider : Provider) (s : Shop) : Cmd → Prop
  | .insertRequest row => CalledFor s row
  | .insertRequested m => CarriedFor provider s m
  | .commitCheckout k => OrderedFor s (k.paymentRequestId, k.razorpayPaymentId)
  | _ => True

/-- A statement whose own rows are justified keeps the rows linked. -/
theorem Linked.statement {provider : Provider} {s : Shop} {w : World} {c : Cmd}
    (hs : Linked provider s) (hc : Justified provider s c) (h : Traces c s.world.pg w.pg) :
    Linked provider { s with world := w } ∧ Grows s { s with world := w } := by
  have hgrows : Grows s { s with world := w } :=
    ⟨h.offers, fun _ h => h, h.kept, fun _ h => h, fun _ h => h⟩
  refine ⟨⟨hs.ids, fun c hc => ?_, hs.apart, fun x hx => ?_, fun r hr => ?_, fun x hx m hm => ?_,
    fun m hm => ?_, fun o ho => ?_, ?_, ?_⟩, hgrows⟩
  · exact ⟨(hs.proper c hc).1.grows hgrows, (hs.proper c hc).2.grows hgrows⟩
  · rcases h.openRow x hx with ⟨y, hy, heq⟩ | rfl
    · exact heq ▸ (hs.openRow y hy).grows hgrows (.refl _)
    · exact CalledFor.grows hc hgrows (.refl _)
  · rcases h.rows r hr with ⟨q, hq, hsame⟩ | ⟨x, hx, rfl⟩
    · exact (hs.rows q hq).grows hgrows hsame
    · exact (hs.openRow x hx).grows hgrows (.refl _)
  · rcases h.openEvent x hx m hm with ⟨y, hy, hym⟩ | rfl
    · exact (hs.openEvent y hy m hym).grows hgrows
    · exact CarriedFor.grows hc hgrows
  · rcases h.events m hm with hm | ⟨x, hx, hxm⟩
    · exact (hs.events m hm).grows hgrows
    · exact (hs.openEvent x hx m hxm).grows hgrows
  · rcases h.orders with heq | ⟨k, rfl, -, heq⟩
    · exact (hs.orders o (heq ▸ ho)).grows hgrows
    · rcases List.mem_append.1 (heq ▸ ho) with ho | ho
      · exact (hs.orders o ho).grows hgrows
      · rw [List.mem_singleton.1 ho]
        exact OrderedFor.grows hc hgrows
  · show ((w.pg.orders.map OrderRow.paid).map Prod.fst).Nodup
    rcases h.orders with heq | ⟨k, rfl, hrefused, heq⟩
    · rw [heq]
      exact hs.once
    · rw [heq, List.map_append, List.nodup_append]
      refine ⟨hs.once, List.nodup_singleton _, ?_⟩
      rintro a ha b hb rfl
      -- the unique index refuses a second order for a payment request
      obtain ⟨o, ho, hpaid⟩ := List.mem_map.1 (List.mem_map.1 ha).choose_spec.1
      have hid : o.paymentRequestId = k.paymentRequestId := by
        have hfst : o.paid.1 = a := by
          rw [hpaid]
          exact (List.mem_map.1 ha).choose_spec.2
        exact hfst.trans (List.mem_singleton.1 hb)
      have htaken : s.world.pg.orderRefused k = true :=
        List.any_eq_true.2 ⟨o, ho, decide_eq_true (.inr hid)⟩
      rw [hrefused] at htaken
      cases htaken
  · refine ⟨fun x hx => ?_, hs.recorded.plain, hs.recorded.single⟩
    show s.razorpay.amountOf x.1 = some (paiseOf (priceTotal (loadPrices w.pg x.2)))
    rw [loadPrices_congr h.offers]
    exact hs.recorded.amounts x hx

/-! ## Steps at the provider -/

section Provider

variable {provider : Provider} {s : Shop}

/-- A new order for the price of the seats it was asked for. -/
theorem Linked.addOrder (hs : Linked provider s) {razorpayId : String} {amount : ℤ}
    {seatIds : List ℤ} (hfresh : s.razorpay.fresh razorpayId = true)
    (hamount : amount = paiseOf (priceTotal (loadPrices s.world.pg seatIds))) :
    Linked provider (s.addOrder razorpayId amount seatIds) ∧
      Grows s (s.addOrder razorpayId amount seatIds) := by
  have hgrows : Grows s (s.addOrder razorpayId amount seatIds) :=
    ⟨rfl, fun _ h => h, fun _ h => h, fun _ h => List.mem_append_left _ h, fun _ h => h⟩
  refine ⟨⟨hs.ids, fun c hc => ⟨(hs.proper c hc).1.grows hgrows, (hs.proper c hc).2.grows hgrows⟩,
    hs.apart, hs.openRow, hs.rows, hs.openEvent, hs.events, hs.orders, hs.once, ?_⟩, hgrows⟩
  refine ⟨fun x hx => ?_, hs.recorded.plain, hs.recorded.single⟩
  show ((s.razorpay.orders ++ [(razorpayId, amount)]).find? _).map Prod.snd =
    some (paiseOf (priceTotal (loadPrices s.world.pg x.2)))
  rw [List.find?_append]
  rcases List.mem_append.1 hx with hx | hx
  · obtain ⟨o, ho, hval⟩ := Option.map_eq_some_iff.1 (hs.recorded.amounts x hx)
    rw [ho]
    exact congrArg some hval
  · rw [List.mem_singleton.1 hx]
    have hnone : s.razorpay.orders.find? (fun o => decide (o.1 = razorpayId)) = none := by
      have hnew : (!s.razorpay.orders.any fun o => decide (o.1 = razorpayId)) = true :=
        (Bool.and_eq_true_iff.1 hfresh).2
      rw [List.find?_eq_none]
      intro o ho htaken
      rw [List.any_eq_true.2 ⟨o, ho, htaken⟩] at hnew
      cases hnew
    rw [hnone]
    simp [hamount]

/-- A payment of an order. -/
theorem Linked.pay (hs : Linked provider s) {orderId paymentId : String} {p : Razorpay}
    (h : s.razorpay.pay orderId paymentId = some p) :
    Linked provider { s with razorpay := p } ∧ Grows s { s with razorpay := p } := by
  unfold Razorpay.pay at h
  split_ifs at h with hcond
  obtain ⟨hpayment, -, horder, hnew⟩ := hcond
  obtain rfl := Option.some.inj h
  have hgrows : Grows s { s with
      razorpay := { s.razorpay with payments := s.razorpay.payments ++ [(orderId, paymentId)] } } :=
    ⟨rfl, fun _ h => h, fun _ h => h, fun _ h => h, fun _ h => List.mem_append_left _ h⟩
  refine ⟨⟨hs.ids, fun c hc => ⟨(hs.proper c hc).1.grows hgrows, (hs.proper c hc).2.grows hgrows⟩,
    hs.apart, hs.openRow, hs.rows, hs.openEvent, hs.events, hs.orders, hs.once, ?_⟩, hgrows⟩
  refine ⟨hs.recorded.amounts, fun x hx => ?_, ?_⟩
  · rcases List.mem_append.1 hx with hx | hx
    · exact hs.recorded.plain x hx
    · rw [List.mem_singleton.1 hx]
      exact ⟨horder, hpayment⟩
  · rw [List.map_append, List.nodup_append]
    refine ⟨hs.recorded.single, List.nodup_singleton _, ?_⟩
    rintro a ha b hb rfl
    obtain ⟨x, hx, rfl⟩ := List.mem_map.1 ha
    exact hnew x hx (List.mem_singleton.1 hb)

/-- A new call that meets the condition. -/
theorem Linked.call (hs : Linked provider s) {c : Call} (hnew : ∀ c' ∈ s.calls, c'.newId ≠ c.newId)
    (hunforged : Unforged provider c.request s) (hnames : NamesOrder c.request s)
    (hapart : ∀ c' ∈ s.calls, c'.Apart c) :
    Linked provider { s with calls := s.calls ++ [c] } ∧
      Grows s { s with calls := s.calls ++ [c] } := by
  have hgrows : Grows s { s with calls := s.calls ++ [c] } :=
    ⟨rfl, fun _ h => List.mem_append_left _ h, fun _ h => h, fun _ h => h, fun _ h => h⟩
  refine ⟨⟨?_, fun c' hc' => ?_, ?_, fun x hx => (hs.openRow x hx).grows hgrows (.refl _),
    fun r hr => (hs.rows r hr).grows hgrows (.refl _),
    fun x hx m hm => (hs.openEvent x hx m hm).grows hgrows,
    fun m hm => (hs.events m hm).grows hgrows, fun o ho => (hs.orders o ho).grows hgrows, hs.once,
    ⟨hs.recorded.amounts, hs.recorded.plain, hs.recorded.single⟩⟩, hgrows⟩
  · rw [List.map_append, List.nodup_append]
    refine ⟨hs.ids, List.nodup_singleton _, ?_⟩
    rintro a ha b hb rfl
    obtain ⟨c', hc', rfl⟩ := List.mem_map.1 ha
    exact hnew c' hc' (List.mem_singleton.1 hb)
  · rcases List.mem_append.1 hc' with hc' | hc'
    · exact ⟨(hs.proper c' hc').1.grows hgrows, (hs.proper c' hc').2.grows hgrows⟩
    · rw [List.mem_singleton.1 hc']
      exact ⟨hunforged.grows hgrows, hnames.grows hgrows⟩
  · rw [List.pairwise_append]
    refine ⟨hs.apart, List.pairwise_singleton _ _, fun c' hc' d hd => ?_⟩
    rw [List.mem_singleton.1 hd]
    exact hapart c' hc'

end Provider

/-! ## The threads of the shop -/

/-- The contract of the shop's threads. -/
def shopContract (provider : Provider) : Contract Shop ShopRep ShopTask Link where
  inv s := Base s.world.pg ∧ Linked provider s
  rely i s t := Evolves i s.world.pg t.world.pg ∧ Grows s t
  guar _ _ _ := True
  allowed _ _ _ _ _ := True
  rely_refl i s := ⟨.refl i s.world.pg, .refl s⟩
  rely_trans _ _ _ _ hst htu := ⟨hst.1.trans htu.1, hst.2.trans htu.2⟩

section Threads

variable {provider : Provider} {n : Task} {n' : ShopTask} {i : ℕ} {s : Shop}

/-- A program of the payment path that keeps its contract keeps that of the shop where all it writes
is justified. -/
theorem ensures_inShop {β : Type} {P : Shop → Prop} (hP : ∀ s t, Grows s t → P s → P t)
    {Q : β → World → Prop} {p : Service β}
    (hp : p.Issues fun c => ∀ t, P t → Justified provider t c) (hs : P s)
    (h : (contract False).Ensures exec n i Q p s.world) :
    (shopContract provider).Ensures (shopExec n') n' i (fun b t => Q b t.world ∧ P t) (inShop p) s := by
  have hrely : ∀ s t, (shopContract provider).rely i s t →
      (contract False).rely i s.world t.world := fun _ _ h => h.1
  have hinv : ∀ s, (shopContract provider).inv s → (contract False).inv s.world :=
    fun _ h => ⟨h.1, fun hX => hX.elim⟩
  have hkeep : ∀ s t, (shopContract provider).rely i s t → P s → P t := fun s t h => hP s t h.2
  have hstep : ∀ c, (∀ t, P t → Justified provider t c) → ∀ (l : Link) t u r, P t →
      (shopContract provider).inv t → (shopContract provider).allowed n' i l (.service c) t →
      shopExec n' i l (.service c) t = some (u, r) →
      (contract False).allowed n i l c t.world ∧ exec i l c t.world = some (u.world, r) ∧
        ((contract False).Honours n i t.world u.world →
          (shopContract provider).Honours n' i t u ∧ P u) := by
    intro c hc l t u r hPt ht _ hex
    obtain ⟨⟨w, r'⟩, hw, heq⟩ := Option.map_eq_some_iff.1 hex
    obtain ⟨rfl, rfl⟩ := Prod.mk.inj heq
    refine ⟨fun hX => hX.elim, hw, fun hhon => ?_⟩
    obtain ⟨hlinked, hgrows⟩ := ht.2.statement (hc t hPt) (traces_exec hw)
    exact ⟨⟨⟨hhon.inv.1, hlinked⟩, trivial, fun j hj => ⟨hhon.rely j hj, hgrows⟩⟩, hP _ _ hgrows hPt⟩
  exact Contract.Ensures.hoist hrely hinv hkeep hstep hp hs h

/-- Calm commands write nothing that needs a justification. -/
theorem justified_of_calm {c : Cmd} (hc : Calm c) (s : Shop) : Justified provider s c := by
  cases c with
  | insertRequest | insertRequested | commitCheckout => exact hc.elim
  | _ => trivial

theorem issues_of_calm {β : Type} {P : Shop → Prop} {p : Service β} (hp : p.Issues Calm) :
    p.Issues fun c => ∀ t, P t → Justified provider t c :=
  hp.mono fun _ hc t _ => justified_of_calm hc t

/-- A calm program in the shop. -/
theorem ensures_calm {β : Type} {p : Service β} (hp : p.Issues Calm) :
    (shopContract provider).Ensures (shopExec n') n' i (fun _ _ => True) (inShop p) s := by
  have hensures : (contract False).Ensures exec (.redis) i (fun _ _ => True) p s.world :=
    .of_issues (fun _ hc _ _ _ _ hinv _ hex => (calm_step hc hinv hex).1) hp
  exact (ensures_inShop (P := fun _ => True) (fun _ _ _ h => h) (issues_of_calm hp) trivial
    hensures).weaken fun _ _ _ => trivial

/-- A command that leaves the shop as it was. -/
theorem honours_self (hs : (shopContract provider).inv s) :
    (shopContract provider).Honours n' i s s :=
  ⟨hs, trivial, fun j _ => ⟨.refl j _, .refl s⟩⟩

/-- The request for an order, for the price the seats had. -/
theorem createOrder_step {request : CreateRazorpayOrderRequest} {userId : ℤ} {razorpayId : String}
    {l : Link} {t : Shop} {r : Option String} (hs : (shopContract provider).inv s)
    (hamount : request.amountPaise = paiseOf (priceTotal (loadPrices s.world.pg request.seatIds)))
    (hex : shopExec (.createOrder userId request) i l (.createOrder razorpayId request.amountPaise) s =
      some (t, r)) : (shopContract provider).Honours n' i s t := by
  simp only [shopExec] at hex
  split_ifs at hex with hfresh
  rcases Link.deliver_cases (Option.some.inj hex) with ⟨rfl, -⟩ | ⟨rfl, -⟩
  · exact honours_self hs
  · obtain ⟨hlinked, hgrows⟩ := hs.2.addOrder hfresh hamount
    exact ⟨⟨hs.1, hlinked⟩, trivial, fun j _ => ⟨.refl j _, hgrows⟩⟩

theorem ensures_orderForPrices {keyId : String} {userId : ℤ} {request : CreateRazorpayOrderRequest}
    {uuid razorpayId : String} {prices : List ℚ}
    (hprices : prices = loadPrices s.world.pg request.seatIds) :
    (shopContract provider).Ensures (shopExec (.createOrder userId request))
      (.createOrder userId request) i (fun _ _ => True)
      (orderForPrices keyId request uuid razorpayId prices) s := by
  unfold orderForPrices
  split
  · exact .ret fun _ _ _ => trivial
  · next backendAmountPaise hbackend =>
    unfold toI64 at hbackend
    split_ifs at hbackend
    obtain rfl := Option.some.inj hbackend
    split_ifs with hne hkey
    · exact .ret fun _ _ _ => trivial
    · exact .ret fun _ _ _ => trivial
    · refine .call fun t hst ht l _ u r hex => ⟨createOrder_step ht ?_ hex, ?_⟩
      · rw [loadPrices_congr hst.2.offers, ← hprices]
        exact (not_not.1 hne).symm
      · match r with
        | none => exact .ret fun _ _ _ => trivial
        | some orderId => exact .ret fun _ _ _ => trivial

theorem ensures_createRazorpayOrder {keyId : String} {userId : ℤ}
    {request : CreateRazorpayOrderRequest} {uuid razorpayId : String} :
    (shopContract provider).Ensures (shopExec (.createOrder userId request))
      (.createOrder userId request) i (fun _ _ => True)
      (createRazorpayOrder keyId userId request uuid razorpayId) s := by
  unfold createRazorpayOrder
  split_ifs
  · exact .ret fun _ _ _ => trivial
  refine .bind ((ensures_calm (calm_onRedis _)).weaken fun r t _ => ?_)
  match r with
  | .error message => exact .ret fun _ _ _ => trivial
  | .ok () =>
  refine .bind ((ensures_calm (calm_perform (c := .connect) trivial)).weaken fun r u _ => ?_)
  match r with
  | none => exact .ret fun _ _ _ => trivial
  | some () =>
  refine .call fun v huv hv l _ x r hex => ?_
  have hsame : x = v ∧ (r = none ∨ r = some (loadPrices v.world.pg request.seatIds)) := by
    rcases Link.deliver_cases (Option.some.inj hex) with ⟨rfl, rfl⟩ | ⟨rfl, hr⟩
    · exact ⟨rfl, .inl rfl⟩
    · exact ⟨rfl, hr⟩
  obtain ⟨rfl, hr⟩ := hsame
  refine ⟨honours_self hv, ?_⟩
  match r with
  | none => exact .ret fun _ _ _ => trivial
  | some prices =>
      refine ensures_orderForPrices ?_
      rcases hr with hr | hr
      · cases hr
      · exact Option.some.inj hr

end Threads

end Payments
end Bookit

import Bookit.Payments.Programs
import Bookit.Payments.ShopContract

/-!
# Payments.PaymentBinding — what an accepted payment request has paid for

`request_payment` checks a signature only where the body names an order, and not for a mock order; it
does not ask what the order was created for, nor whether the payment was used before.  Where every
body names an order of the seats' price, and no two purchases present one payment, the accepted
requests are paid for and the completed orders have payments of their own.
-/

namespace Bookit
namespace Payments

open Lib

/-! ## What a call of `request_payment` writes -/

section Requests

variable {provider : Provider} {userId : ℤ} {request : PaymentRequest} {newId : ℕ}

/-- The call is on record. -/
def Placed (userId : ℤ) (request : PaymentRequest) (newId : ℕ) (s : Shop) : Prop :=
  ⟨newId, userId, request⟩ ∈ s.calls

/-- The commands of a call write its own row, and its own checkout. -/
abbrev WritesOwn (provider : Provider) (userId : ℤ) (request : PaymentRequest) (newId : ℕ)
    (c : Cmd) : Prop :=
  ∀ s, Placed userId request newId s → Justified provider s c

theorem writesOwn_requestPayment (provider : Provider) (userId : ℤ) (request : PaymentRequest)
    (newId : ℕ) : (requestPayment provider userId request newId).Issues
      (WritesOwn provider userId request newId) := by
  refine (issues_requestPayment provider userId request newId).mono fun c hc => ?_
  cases hc with
  | asks h => exact fun s _ => justified_of_calm h.calm s
  | row => exact fun s hs => ⟨_, hs, rfl, rfl, rfl⟩
  | event amount hsig => exact fun s hs => ⟨_, hs, rfl, hsig, rfl⟩
  | commit | rollback => exact fun _ _ => trivial

/-- A call whose signature does not verify is answered with an error. -/
theorem requestPayment_rejects {e : AppError} (hsig : checkSignature provider request = .error e) :
    ∃ e', requestPayment provider userId request newId = .ret (.error e') := by
  unfold requestPayment
  split
  · next e' _ => exact ⟨e', rfl⟩
  · rw [hsig]
    exact ⟨e, rfl⟩

end Requests

/-! ## Payment binding -/

/-- The body names an order and a payment whose signature verifies, and the provider has the order
for the total of the request's seats. -/
def Paid (provider : Provider) (request : PaymentRequest) (s : Shop) : Prop :=
  ∃ orderId paymentId signature,
    request.razorpayOrderId = some orderId ∧ request.razorpayPaymentId = some paymentId ∧
    request.razorpaySignature = some signature ∧
    provider.hmacHex provider.keySecret (orderId ++ "|" ++ paymentId) = signature ∧
    s.razorpay.amountOf orderId = some (paiseOf (requestTotal s.world.pg request))

section Binding

variable {provider : Provider} {s : Shop}

/-- What the signature check of an order that is no mock has found. -/
theorem signed_of_checkSignature {request : PaymentRequest} {orderId : String}
    (h : checkSignature provider request = .ok ()) (ho : request.razorpayOrderId = some orderId)
    (hmock : "order_mock_".toList.isPrefixOf orderId.toList = false) :
    ∃ paymentId signature, request.razorpayPaymentId = some paymentId ∧
      request.razorpaySignature = some signature ∧
      provider.hmacHex provider.keySecret (orderId ++ "|" ++ paymentId) = signature := by
  unfold checkSignature at h
  simp only [ho, hmock, Bool.false_eq_true, if_false] at h
  split at h
  · cases h
  · cases h
  · next paymentId signature hp hs =>
    split_ifs at h with hmac
    exact ⟨paymentId, signature, hp, hs, hmac⟩

/-- A call on record whose signature verified has paid. -/
theorem Linked.paid (hs : Linked provider s) {c : Call} (hc : c ∈ s.calls)
    (hsig : checkSignature provider c.request = .ok ()) : Paid provider c.request s := by
  have hnames := (hs.proper c hc).2
  unfold NamesOrder at hnames
  split at hnames
  · exact hnames.elim
  · next orderId ho =>
    obtain ⟨hmock, x, hx, rfl, hprice⟩ := hnames
    obtain ⟨paymentId, signature, hp, hsigned, hmac⟩ := signed_of_checkSignature hsig ho hmock
    refine ⟨x.1, paymentId, signature, ho, hp, hsigned, hmac, ?_⟩
    rw [hs.recorded.amounts x hx, hprice]

/-- A text of two plain parts with a bar between them can be split in one way only. -/
theorem append_bar_inj {a b a' b' : List Char} (ha : '|' ∉ a) (hb : '|' ∉ b)
    (h : a ++ '|' :: b = a' ++ '|' :: b') : a = a' ∧ b = b' := by
  induction a generalizing a' with
  | nil =>
      cases a' with
      | nil => exact ⟨rfl, (List.cons.inj h).2⟩
      | cons x xs =>
          have hmem : '|' ∈ b := by
            rw [(List.cons.inj h).2]
            exact List.mem_append_right _ List.mem_cons_self
          exact absurd hmem hb
  | cons x xs ih =>
      cases a' with
      | nil =>
          have hx : x = '|' := (List.cons.inj h).1
          exact absurd (hx ▸ List.mem_cons_self) ha
      | cons y ys =>
          obtain ⟨hhead, htail⟩ := List.cons.inj h
          obtain ⟨hxs, hb'⟩ := ih (fun hmem => ha (List.mem_cons_of_mem _ hmem)) htail
          exact ⟨by rw [hhead, hxs], hb'⟩

theorem payload_inj {a b a' b' : String} (ha : plainId a = true) (hb : plainId b = true)
    (h : a ++ "|" ++ b = a' ++ "|" ++ b') : a = a' ∧ b = b' := by
  have hplain : ∀ {x : String}, plainId x = true → '|' ∉ x.toList := by
    intro x hx hmem
    exact of_decide_eq_true (List.all_eq_true.1 hx _ hmem) rfl
  have hlist : a.toList ++ '|' :: b.toList = a'.toList ++ '|' :: b'.toList := by
    simpa using congrArg String.toList h
  obtain ⟨hfst, hsnd⟩ := append_bar_inj (hplain ha) (hplain hb) hlist
  exact ⟨String.toList_inj.1 hfst, String.toList_inj.1 hsnd⟩

/-- The payment of a call on record whose signature verified is one that was made for its order. -/
theorem Linked.payment_made (hs : Linked provider s) {c : Call} (hc : c ∈ s.calls)
    (hsig : checkSignature provider c.request = .ok ()) :
    ∃ x ∈ s.razorpay.payments, c.request.razorpayOrderId = some x.1 ∧
      c.request.razorpayPaymentId = some x.2 := by
  obtain ⟨orderId, paymentId, signature, ho, hp, hsigned, hmac, -⟩ := hs.paid hc hsig
  have hunforged := (hs.proper c hc).1
  simp only [Unforged, ho, hp, hsigned] at hunforged
  obtain ⟨x, hx, hpayload⟩ := hunforged hmac
  obtain ⟨hplain, hplain'⟩ := hs.recorded.plain x hx
  obtain ⟨rfl, rfl⟩ := payload_inj hplain hplain' hpayload
  exact ⟨x, hx, ho, hp⟩

/-- Orders for different payment requests have different payments. -/
theorem Linked.payments_differ (hs : Linked provider s) (hbase : Base s.world.pg)
    {o o' : OrderRow} (ho : o ∈ s.world.pg.orders) (ho' : o' ∈ s.world.pg.orders)
    (hne : o.paymentRequestId ≠ o'.paymentRequestId) {paymentId : String}
    (hpay : o.razorpayPaymentId = some paymentId) : o'.razorpayPaymentId ≠ some paymentId := by
  intro hpay'
  -- both payments come from calls whose signatures verified
  have hcall : ∀ o ∈ s.world.pg.orders, o.razorpayPaymentId = some paymentId →
      ∃ c ∈ s.calls, c.newId = o.paymentRequestId ∧
        ∃ x ∈ s.razorpay.payments, c.request.razorpayOrderId = some x.1 ∧ x.2 = paymentId ∧
          c.request.razorpayPaymentId = some paymentId ∧
          ∃ r ∈ s.world.pg.requests, r.id = o.paymentRequestId ∧ r.userId = c.userId ∧
            r.idempotencyKey = c.request.idempotencyKey := by
    intro o ho hpay
    obtain ⟨m, hm, hid, hmpay⟩ := hs.orders o.paid (List.mem_map_of_mem ho)
    obtain ⟨c, hc, hcid, hsig, hcpay⟩ := hs.events m hm
    obtain ⟨x, hx, hxorder, hxpay⟩ := hs.payment_made hc hsig
    have hcpay : c.request.razorpayPaymentId = some paymentId :=
      (hcpay.symm.trans hmpay).trans hpay
    obtain ⟨⟨r, hr, hrid⟩, -⟩ := hbase.event m hm
    obtain ⟨c', hc', hcid', huser, hkey⟩ := hs.rows r hr
    have hcc : c' = c :=
      List.inj_on_of_nodup_map hs.ids hc' hc (hcid'.trans (hrid.trans hcid.symm))
    subst hcc
    exact ⟨c', hc, hcid.trans hid, x, hx, hxorder, Option.some.inj (hxpay.symm.trans hcpay), hcpay,
      r, hr, hrid.trans hid, huser.symm, hkey.symm⟩
  obtain ⟨c, hc, hid, x, hx, hxorder, hxid, hcpay, r, hr, hrid, huser, hkey⟩ := hcall o ho hpay
  obtain ⟨c', hc', hid', x', hx', hxorder', hxid', hcpay', r', hr', hrid', huser', hkey'⟩ :=
    hcall o' ho' hpay'
  -- a payment belongs to one order, so the calls present the same pair
  have hxx : x = x' := List.inj_on_of_nodup_map hs.recorded.single hx hx' (hxid.trans hxid'.symm)
  have hcne : c ≠ c' := by
    rintro rfl
    exact hne (hid.symm.trans hid')
  have hsymm : Std.Symm Call.Apart := by
    refine ⟨fun c c' h => ?_⟩
    rcases h with ⟨h, h'⟩ | h
    · exact .inl ⟨h.symm, h'.symm⟩
    · exact .inr h.symm
  have hsame : c.userId = c'.userId ∧ c.request.idempotencyKey = c'.request.idempotencyKey := by
    rcases hs.apart.forall hc hc' hcne with h | h
    · exact h
    · exact absurd (by rw [hxorder, hxorder', hcpay, hcpay', hxx]) h
  -- so they are under one key, which has one row
  have hrne : r ≠ r' := by
    rintro rfl
    exact hne (hrid.symm.trans hrid')
  have hsymm' : Std.Symm fun r q : RequestRow => Postgres.conflicts r q = false :=
    ⟨fun r q h => (conflicts_comm _ _).trans h⟩
  have hfree := hbase.rows.forall hr hr' hrne
  simp [Postgres.conflicts, huser, huser', hkey, hkey', hsame] at hfree

end Binding

/-! ## Runs -/

/-- The postcondition of the shop's threads. -/
def ShopPost (provider : Provider) (n : ShopTask) (_ : ℕ) (b : ShopResult) (s : Shop) : Prop :=
  match n, b with
  | .service (.request _ request _), .service (.response (.ok _)) => Paid provider request s
  | _, _ => True

section Runs

variable {provider : Provider} {keyId : String} {n : Task} {i : ℕ} {s : Shop}

theorem ensures_shopThread {P : Shop → Prop} (hP : ∀ s t, Grows s t → P s → P t)
    {p : Service Result} (hp : p.Issues fun c => ∀ t, P t → Justified provider t c) (hs : P s)
    (h : (contract False).Ensures exec n i (Post n i) p s.world)
    (hpost : ∀ r t, Linked provider t → P t → ShopPost provider (.service n) i (.service r) t) :
    (shopContract provider).Ensures (shopExec (.service n)) (.service n) i
      (ShopPost provider (.service n) i) (shopThread (n, p)).2 s := by
  refine .bind ((ensures_inShop hP hp hs h).weaken fun r t hr => ?_)
  exact .ret fun u htu hu => hpost r u hu.2 (hP t u htu.2 hr.2)

/-- The commit of a checkout is for the checkout's request and payment. -/
theorem justified_processCheckout (message : CheckoutMessage) (orderId : ℕ) :
    (processCheckout message orderId).Issues
      fun c => ∀ t : Shop, message ∈ t.world.pg.checkouts → Justified provider t c := by
  refine (issues_processCheckout message orderId).mono fun c hc t ht => ?_
  rcases hc with hcalm | rfl
  · exact justified_of_calm hcalm t
  · exact ⟨message, ht, rfl, rfl⟩

/-- A thread that the payment path's environment starts, a request apart. -/
theorem ensures_started {x : Environ} {w : World} {new : List (Task × Service Result)}
    (hx : environ x s.world = some (w, new)) (hbase : Base s.world.pg)
    (hrequest : ∀ provider userId request newId, x ≠ .request provider userId request newId)
    {p : Service Result} (hp : (n, p) ∈ new) :
    (shopContract provider).Ensures (shopExec (.service n)) (.service n) i
      (ShopPost provider (.service n) i) (shopThread (n, p)).2 { s with world := w } := by
  have hensures := (environ_step (X := False) ⟨hbase, fun hX => hX.elim⟩ hx).2.2 i n p hp
  cases x with
  | tick d =>
      obtain ⟨rfl, rfl⟩ := Prod.mk.inj (Option.some.inj hx)
      exact absurd hp List.not_mem_nil
  | request provider userId request newId => exact absurd rfl (hrequest _ _ _ _)
  | deliver k orderId =>
      simp only [environ] at hx
      split at hx
      · next message hget =>
        obtain ⟨rfl, rfl⟩ := Prod.mk.inj (Option.some.inj hx)
        obtain ⟨rfl, rfl⟩ := Prod.mk.inj (List.mem_singleton.1 hp)
        have hmem : message ∈ s.world.pg.checkouts :=
          List.mem_filterMap.2 ⟨_, List.mem_of_getElem? hget, rfl⟩
        exact ensures_shopThread (P := fun t => message ∈ t.world.pg.checkouts)
          (fun _ _ hst h => hst.events _ h)
          ((justified_processCheckout message orderId).bind fun _ => trivial) hmem hensures
          fun _ _ _ _ => trivial
      · cases hx
  | onRedis q =>
      obtain ⟨rfl, rfl⟩ := Prod.mk.inj (Option.some.inj hx)
      obtain ⟨rfl, rfl⟩ := Prod.mk.inj (List.mem_singleton.1 hp)
      exact ensures_shopThread (P := fun _ => True) (fun _ _ _ h => h)
        ((issues_of_calm (calm_onRedis q)).bind fun _ => trivial) trivial hensures
        fun _ _ _ _ => trivial
  | setStatus id status =>
      obtain ⟨rfl, rfl⟩ := Prod.mk.inj (Option.some.inj hx)
      exact absurd hp List.not_mem_nil

/-- A call of `request_payment` that is on record. -/
theorem ensures_requestTask {userId : ℤ} {request : PaymentRequest} {newId : ℕ}
    (hplaced : Placed userId request newId s)
    (h : (contract False).Ensures exec (.request userId request newId) i
      (Post (.request userId request newId) i) (requestTask provider userId request newId) s.world) :
    (shopContract provider).Ensures (shopExec (.service (.request userId request newId)))
      (.service (.request userId request newId)) i
      (ShopPost provider (.service (.request userId request newId)) i)
      (shopThread (.request userId request newId, requestTask provider userId request newId)).2 s := by
  cases hsig : checkSignature provider request with
  | error e =>
      obtain ⟨e', heq⟩ := requestPayment_rejects hsig
      have hret : requestTask provider userId request newId = .ret (.response (.error e')) := by
        unfold requestTask
        rw [heq]
        rfl
      rw [hret]
      exact .ret fun _ _ _ => trivial
  | ok _ =>
      refine ensures_shopThread (P := Placed userId request newId)
        (fun _ _ hst h => hst.calls _ h)
        ((writesOwn_requestPayment provider userId request newId).bind fun _ => trivial) hplaced h fun r t ht hplaced => ?_
      match r with
      | .response (.ok _) => exact ht.paid hplaced hsig
      | .response (.error _) => trivial
      | .verdict _ => trivial
      | .done => trivial

theorem shop_environ_step : (shopMachine provider keyId).EnvironMeets (shopContract provider)
    (ShopPost provider) (PaysProperly provider) := by
  intro x s t ts hs hproper hx
  -- a step of the payment path's environment
  have hstep : ∀ {x : Environ} {s t : Shop} {ts}, (shopContract provider).inv s →
      shopStep x s = some (t, ts) → ∃ w new, environ x s.world = some (w, new) ∧
        t = { s with world := w } ∧ ts = new.map shopThread ∧ (shopContract provider).inv t ∧
        ∀ j, (shopContract provider).rely j s t := by
    intro x s t ts hs hx
    obtain ⟨⟨w, new⟩, hw, heq⟩ := Option.map_eq_some_iff.1 hx
    obtain ⟨rfl, rfl⟩ := Prod.mk.inj heq
    obtain ⟨hinv, hrely, -⟩ := environ_step (X := False) ⟨hs.1, fun hX => hX.elim⟩ hw
    obtain ⟨hlinked, hgrows⟩ := hs.2.statement (c := .connect) trivial (traces_environ hw)
    exact ⟨w, new, hw, rfl, rfl, ⟨hinv.1, hlinked⟩, fun j => ⟨hrely j, hgrows⟩⟩
  cases x with
  | service x =>
      have hrequest : ∀ provider userId request newId,
          x ≠ .request provider userId request newId := by
        rintro _ _ _ _ rfl
        cases hx
      have hx : shopStep x s = some (t, ts) := by
        cases x with
        | request => exact absurd rfl (hrequest _ _ _ _)
        | _ => exact hx
      obtain ⟨w, new, hw, rfl, rfl, hinv, hrely⟩ := hstep hs hx
      refine ⟨hinv, hrely, fun i n p hp _ => ?_⟩
      obtain ⟨⟨m, q⟩, hq, heq⟩ := List.mem_map.1 hp
      obtain ⟨rfl, rfl⟩ := Prod.mk.inj heq
      exact ensures_started hw hs.1 hrequest hq
  | request userId request newId =>
      obtain ⟨hunforged, hnames, hapart⟩ := hproper
      have hx : (if s.calls.any fun c => decide (c.newId = newId) then none else
          shopStep (.request provider userId request newId)
            { s with calls := s.calls ++ [⟨newId, userId, request⟩] }) = some (t, ts) := hx
      split_ifs at hx with hnew
      have hnew : ∀ c ∈ s.calls, c.newId ≠ newId := fun c hc hid =>
        hnew (List.any_eq_true.2 ⟨c, hc, decide_eq_true hid⟩)
      obtain ⟨hlinked, hgrows⟩ := hs.2.call (c := ⟨newId, userId, request⟩) hnew hunforged hnames
        hapart
      obtain ⟨w, new, hw, rfl, rfl, hinv, hrely⟩ := hstep
        (s := { s with calls := s.calls ++ [⟨newId, userId, request⟩] }) ⟨hs.1, hlinked⟩ hx
      refine ⟨hinv, fun j => ⟨(hrely j).1, hgrows.trans (hrely j).2⟩, fun i n p hp _ => ?_⟩
      have hensures := (environ_step (X := False) ⟨hs.1, fun hX => hX.elim⟩ hw).2.2 i
      obtain ⟨rfl, rfl⟩ := Prod.mk.inj (Option.some.inj hw)
      obtain ⟨rfl, rfl⟩ := Prod.mk.inj (List.mem_singleton.1 hp)
      exact ensures_requestTask (List.mem_append_right _ (List.mem_singleton_self _))
        (hensures _ _ (List.mem_singleton_self _))
  | createOrder userId request uuid razorpayId =>
      obtain ⟨rfl, rfl⟩ := Prod.mk.inj (Option.some.inj hx)
      refine ⟨hs, fun j => ⟨.refl j _, .refl _⟩, fun i n p hp _ => ?_⟩
      obtain ⟨rfl, rfl⟩ := Prod.mk.inj (List.mem_singleton.1 hp)
      refine .bind (ensures_createRazorpayOrder.weaken fun r u _ => ?_)
      exact .ret fun _ _ _ => trivial
  | pay orderId paymentId =>
      obtain ⟨p, hp, heq⟩ := Option.map_eq_some_iff.1 hx
      obtain ⟨rfl, rfl⟩ := Prod.mk.inj heq
      obtain ⟨hlinked, hgrows⟩ := hs.2.pay hp
      exact ⟨⟨hs.1, hlinked⟩, fun j => ⟨.refl j _, hgrows⟩,
        fun _ _ _ hp => absurd hp List.not_mem_nil⟩

/-- Every thread of a proper run meets the contract. -/
theorem shop_fulfils {p : Pool Shop ShopRep ShopTask ShopResult}
    (h : (shopMachine provider keyId).system.ReachableUnder (ProperRun provider) p) :
    (shopMachine provider keyId).Fulfils (shopContract provider) (ShopPost provider) p := by
  refine Machine.ensures_of_reachable ?_ shop_environ_step ?_ h
  · rintro s ⟨seats, hids, rfl⟩
    refine ⟨(inv_newWorld (X := False) ⟨seats, hids, rfl⟩).1, ?_⟩
    refine ⟨?_, ?_, ?_, ?_, ?_, ?_, ?_, ?_, ?_, ⟨?_, ?_, ?_⟩⟩ <;>
      simp [newShop, newWorld, Postgres.checkouts]
  · intro i s hs
    obtain ⟨hbase, hrely⟩ := hs.1.rollback i
    obtain ⟨hlinked, hgrows⟩ := hs.2.statement (c := .connect)
      (w := { s.world with pg := s.world.pg.rollback i }) trivial (.rollback _ _ i)
    exact ⟨⟨hbase, hlinked⟩, fun j hj => ⟨hrely j hj, hgrows⟩⟩

end Runs

/-- In a run whose calls present an order of the seats' price and a payment of their own, an accepted
call has paid for its seats, and no payment is that of two completed orders. -/
theorem payments_bound {provider : Provider} {keyId : String}
    {p : Pool Shop ShopRep ShopTask ShopResult}
    (h : (shopMachine provider keyId).system.ReachableUnder (ProperRun provider) p) :
    (∀ i userId request newId accepted,
      p.Runs i (.service (.request userId request newId))
        (.ret (.service (.response (.ok accepted)))) → Paid provider request p.store) ∧
    p.store.world.pg.orders.Pairwise fun o o' =>
      o.status = .completed → o'.status = .completed → ∀ paymentId,
        o.razorpayPaymentId = some paymentId → o'.razorpayPaymentId ≠ some paymentId := by
  have hfulfils := shop_fulfils h
  refine ⟨fun i userId request newId accepted hr => hfulfils.returned hr, ?_⟩
  have honce : p.store.world.pg.orders.Pairwise fun o o' =>
      o.paymentRequestId ≠ o'.paymentRequestId := by
    have hnodup := hfulfils.inv.2.once
    rw [List.map_map] at hnodup
    exact List.pairwise_map.1 hnodup
  refine honce.imp_of_mem fun {o o'} ho ho' hne _ _ paymentId hpay => ?_
  exact hfulfils.inv.2.payments_differ hfulfils.inv.1 ho ho' hne hpay

/-! ## One seat -/

/-- A secret, and the signatures under it as far as the runs below need them. -/
def oneProvider : Provider :=
  { keySecret := "secret"
    hmacHex := fun secret text =>
      if secret = "secret" ∧ text = "order_1|pay_1" then
        "52115a0d3400de9e86aade1f1b6eba9e8974604f4e267a9e9a16633a4c8dd2cb"
      else
        "" }

/-- A request for seat 1 with what the provider has signed. -/
def signedRequest : PaymentRequest :=
  { scheduleId := 1, seatIds := [1], idempotencyKey := "key", razorpayOrderId := some "order_1"
    razorpayPaymentId := some "pay_1"
    razorpaySignature :=
      some "52115a0d3400de9e86aade1f1b6eba9e8974604f4e267a9e9a16633a4c8dd2cb" }

/-- The steps of thread `i`, `n` times, without a failure. -/
def shopSteps (i n : ℕ) : List (Act Link ShopEnviron) :=
  List.replicate n (.run i .ok)

/-- User 42 locks seat 1. -/
def locksSeat : List (Act Link ShopEnviron) :=
  .environ (.service (.onRedis (SingleNodeLock.acquireSeatLockLua 1 1 42 300))) :: shopSteps 0 3

/-- The answer to a finished request. -/
def shopAnswer (p : Pool Shop ShopRep ShopTask ShopResult) (i : ℕ) :
    Option (PaymentRequest × Except AppError PaymentAccepted) :=
  match p.threads[i]? with
  | some ⟨.service (.request _ request _), some (.ret (.service (.response r)))⟩ =>
      some (request, r)
  | _ => none

theorem runs_of_shopAnswer {p : Pool Shop ShopRep ShopTask ShopResult} {i : ℕ}
    {request : PaymentRequest} {r : Except AppError PaymentAccepted}
    (h : shopAnswer p i = some (request, r)) :
    ∃ userId newId, p.Runs i (.service (.request userId request newId))
      (.ret (.service (.response r))) := by
  unfold shopAnswer at h
  split at h
  · next userId request' newId r' hthread =>
    obtain ⟨rfl, rfl⟩ := Prod.mk.inj (Option.some.inj h)
    exact ⟨userId, newId, hthread⟩
  · cases h

/-- An order for the seat, its payment, the request, and the checkout. -/
theorem payments_bound_checkout :
    ∃ p, (shopMachine oneProvider "rzp_key").system.ReachableUnder (ProperRun oneProvider) p ∧
      p.store.world.pg.orders.map (·.razorpayPaymentId) = [some "pay_1"] ∧
      Paid oneProvider signedRequest p.store := by
  obtain ⟨p, hp, hend⟩ := System.exists_reachable_of_runUnder
    (shopMachine oneProvider "rzp_key").system (ProperRun oneProvider)
    (fun p => decide (p.store.world.pg.orders.map (·.razorpayPaymentId) = [some "pay_1"] ∧
      shopAnswer p 2 = some (signedRequest, .ok ⟨10, "pending"⟩)))
    (s := ⟨newShop oneSeat, []⟩) ⟨⟨oneSeat, by decide, rfl⟩, rfl⟩
    (locksSeat ++ .environ (.createOrder 42 ⟨1, [1], 11800⟩ "" "order_1") :: shopSteps 1 5 ++
      .environ (.pay "order_1" "pay_1") :: .environ (.request 42 signedRequest 10) ::
      shopSteps 2 10 ++ .environ (.service (.deliver 0 100)) :: shopSteps 3 7) (by decide +kernel)
  obtain ⟨horders, hanswer⟩ := of_decide_eq_true hend
  obtain ⟨userId, newId, hr⟩ := runs_of_shopAnswer hanswer
  exact ⟨p, hp, horders, (payments_bound hp).1 2 userId signedRequest newId _ hr⟩

/-- A request that names no order. -/
def unpaidRequest : PaymentRequest :=
  { scheduleId := 1, seatIds := [1], idempotencyKey := "key", razorpayOrderId := none
    razorpayPaymentId := none, razorpaySignature := none }

/-- A request that names no order is accepted. -/
theorem payment_unbound :
    ¬ ∀ p, (shopMachine oneProvider "rzp_key").system.ReachableUnder (UnforgedRun oneProvider) p →
      (∀ i userId request newId accepted,
        p.Runs i (.service (.request userId request newId))
          (.ret (.service (.response (.ok accepted)))) → Paid oneProvider request p.store) ∧
      p.store.world.pg.orders.Pairwise fun o o' =>
        o.status = .completed → o'.status = .completed → ∀ paymentId,
          o.razorpayPaymentId = some paymentId → o'.razorpayPaymentId ≠ some paymentId := by
  intro hall
  obtain ⟨p, hp, hend⟩ := System.exists_reachable_of_runUnder
    (shopMachine oneProvider "rzp_key").system (UnforgedRun oneProvider)
    (fun p => decide (shopAnswer p 1 = some (unpaidRequest, .ok ⟨10, "pending"⟩)))
    (s := ⟨newShop oneSeat, []⟩) ⟨⟨oneSeat, by decide, rfl⟩, rfl⟩
    (locksSeat ++ .environ (.request 42 unpaidRequest 10) :: shopSteps 1 10) (by decide +kernel)
  obtain ⟨userId, newId, hr⟩ := runs_of_shopAnswer (of_decide_eq_true hend)
  obtain ⟨orderId, -, -, ho, -⟩ := (hall p hp).1 1 userId unpaidRequest newId _ hr
  cases ho

end Payments
end Bookit

import Bookit.Backend.Turns

/-!
# Backend.Services — every step of a service is a turn

A request commits its row with the outbox row of its checkout.  A cancellation is asked for with what
an order keeps for good.  A delivery is acknowledged when its order exists or is refunded, and a row is
marked as published when its message is in the queue or done.
-/

namespace Bookit
namespace Backend

open Lib Payments

/-- A message is rejected only when it can go. -/
def NothingLost (e : Outcome) (c : Cmd) (s : Store) : Prop :=
  match c with
  | .settle n .nack => e.fate ≠ .lost → Spare n s
  | _ => True

/-- The contract of the services; with `X`, for runs in which no message is lost. -/
def turns (X : Prop) (encode : OutboxRow → Json) : Contract Store Rep Unit Outcome where
  inv := Filed
  rely i s t := own t.pg i = own s.pg i ∧ Progress X s t
  guar _ := Turn X encode
  allowed _ _ e c s := X → NothingLost e c s
  rely_refl _ s := ⟨rfl, .refl s⟩
  rely_trans _ _ _ _ hst htu := ⟨htu.1.trans hst.1, hst.2.trans htu.2⟩

section Services

variable {X : Prop} {encode : OutboxRow → Json} {n : Unit} {i : ℕ} {s t : Store}

/-! ## Commands of the payment path -/

theorem honours_of_turn (hs : Filed s) (h : Turn X encode s t)
    (hown : ∀ j, j ≠ i → own t.pg j = own s.pg j) : (turns X encode).Honours n i s t :=
  ⟨(h.keeps hs).1, h, fun j hj => ⟨hown j hj, (h.keeps hs).2⟩⟩

theorem Rest.refl (s : Postgres) : Rest s s :=
  ⟨⟨id, (List.map_id _).symm, .refl⟩, rfl, rfl, rfl, fun x hx => .inl ⟨x, hx, rfl⟩⟩

theorem EventsMoved.refl {s t : Store} (h : t.events = s.events) : EventsMoved X s t :=
  ⟨id, h.trans (List.map_id _).symm, fun _ _ => ⟨rfl, fun hdue => .inl hdue⟩⟩

/-- A command of the payment path that inserts no outbox row. -/
theorem turn_of_rest {w : World} {age : ℕ} (hs : Filed s) (h : Rest s.pg w.pg) :
    Turn X encode s (s.putWorld encode age w) := by
  rw [putWorld_same hs h.outbox]
  exact .rest h (.refl rfl) fun _ _ hn => .inl hn

/-- Commands that change no more than the status of requests. -/
def Quiet : Payments.Cmd → Prop
  | .findOrder _ | .refund .. => True
  | c => Calm c

theorem quiet_of_calm {c : Payments.Cmd} (hc : Calm c) : Quiet c := by
  cases c with
  | insertRequest | insertRequested | commit | rollback | commitCheckout | findOrder
  | startCancellation | commitCancellation | refund | bookedCount | activeTicketCount => exact hc.elim
  | _ => exact hc

theorem rest_failRequest (pg : Postgres) (id : ℕ) (reason : String) :
    Rest pg (pg.failRequest id reason) := by
  refine ⟨⟨fun r => if decide (r.id = id ∧ r.status ≠ .succeeded) then
    { r with status := .failed, failureReason := some reason } else r, rfl, fun r => ?_⟩,
    rfl, rfl, rfl, fun x hx => .inl ⟨x, hx, rfl⟩⟩
  show Settles r (if decide (r.id = id ∧ r.status ≠ .succeeded) then _ else r)
  split_ifs with h
  · have hopen := (of_decide_eq_true h).2
    exact ⟨⟨rfl, rfl, rfl, rfl, rfl⟩, by simp [hopen], fun _ => .inr rfl⟩
  · exact .refl r

theorem rest_of_quiet {l : Link} {c : Payments.Cmd} (hc : Quiet c) {w u : World}
    {r : Payments.Rep c} (h : Payments.exec i l c w = some (u, r)) :
    Rest w.pg u.pg ∧ u.pg.open_ = w.pg.open_ := by
  have hsame : u.pg = w.pg → Rest w.pg u.pg ∧ u.pg.open_ = w.pg.open_ := by
    intro heq
    rw [heq]
    exact ⟨.refl _, rfl⟩
  cases c with
  | redis c =>
      obtain ⟨rfl, -⟩ := Prod.mk.inj (Option.some.inj h)
      exact hsame rfl
  | connect | findRequest | loadSeats | orderExists | findOrder =>
      obtain rfl : _ = u := congrArg Prod.fst (Option.some.inj h)
      exact hsame (by rw [query_fst])
  | failRequest id reason =>
      rcases Link.deliver_cases (Option.some.inj h) with ⟨rfl, -⟩ | ⟨rfl, -⟩
      · exact hsame rfl
      · exact ⟨rest_failRequest w.pg id reason, rfl⟩
  | refund paymentId paise =>
      rcases Link.deliver_cases (Option.some.inj h) with ⟨rfl, -⟩ | ⟨rfl, -⟩
      · exact hsame rfl
      · exact hsame rfl
  | _ => exact hc.elim

theorem quiet_step {e : Outcome} {c : Payments.Cmd} (hc : Quiet c) {r : Rep (.pay c)}
    (hs : Filed s) (h : exec encode i e (.pay c) s = some (t, r)) :
    (turns X encode).Honours n i s t ∧ (turns X encode).rely i s t := by
  obtain ⟨l, age, w, rfl, hw, rfl⟩ := exec_pay h
  obtain ⟨hrest, hopen⟩ := rest_of_quiet hc hw
  have hturn : Turn X encode s (s.putWorld encode age w) := turn_of_rest hs hrest
  have hown : ∀ j, own (s.putWorld encode age w).pg j = own s.pg j := by
    intro j
    unfold own
    show w.pg.open_.filter _ = s.world.pg.open_.filter _
    rw [hopen]
  exact ⟨honours_of_turn hs hturn fun j _ => hown j, hown i, (hturn.keeps hs).2⟩

/-- A program of the payment path. -/
abbrev Meets (X : Prop) (encode : OutboxRow → Json) (n : Unit) (i : ℕ) {β : Type}
    (Q : β → Store → Prop) (p : Payments.Service β) (s : Store) : Prop :=
  (turns X encode).Ensures (exec encode) n i Q (paying p) s

theorem meets_bind {α β : Type} {p : Payments.Service α} {f : α → Payments.Service β}
    {Q : β → Store → Prop}
    (h : Meets X encode n i (fun b t => Meets X encode n i Q (f b) t) p s) :
    Meets X encode n i Q (p >>= f) s := by
  unfold Meets paying
  rw [Prog.hoist_bind]
  exact .bind h

/-- Quiet commands first. -/
theorem quiet_bind {α β : Type} {p : Payments.Service α} {f : α → Payments.Service β}
    {Q : β → Store → Prop} (hp : p.Issues Quiet)
    (h : ∀ b t, (turns X encode).rely i s t → Meets X encode n i Q (f b) t) :
    Meets X encode n i Q (p >>= f) s := by
  unfold Meets paying
  rw [Prog.hoist_bind]
  refine .bind_of_issues (φ := fun c => ∃ c', c = .pay c' ∧ Quiet c') ?_ ?_ h
  · rintro _ ⟨c, rfl, hc⟩ e t u r ht _ hex
    exact quiet_step hc ht hex
  · exact Prog.Issues.hoist _ (hp.mono fun c hc => ⟨⟨c, rfl, hc⟩, fun _ => trivial⟩)

/-- Quiet commands first, and what they establish. -/
theorem quiet_bind_post {α β : Type} {p : Payments.Service α} {f : α → Payments.Service β}
    {Q : β → Store → Prop} {Q' : α → Store → Prop} (hp : p.Issues Quiet)
    (hpost : Meets X encode n i Q' p s)
    (h : ∀ b t, (turns X encode).rely i s t → Q' b t → Meets X encode n i Q (f b) t) :
    Meets X encode n i Q (p >>= f) s := by
  refine meets_bind ?_
  have hkept := hpost.and_rely (φ := fun c => ∃ c', c = .pay c' ∧ Quiet c') ?_ ?_
  · exact hkept.weaken fun b t ht => h b t ht.2 ht.1
  · rintro _ ⟨c, rfl, hc⟩ e t u r ht _ hex
    exact quiet_step hc ht hex
  · exact Prog.Issues.hoist _ (hp.mono fun c hc => ⟨⟨c, rfl, hc⟩, fun _ => trivial⟩)

theorem meets_quiet {α : Type} {p : Payments.Service α} (hp : p.Issues Quiet) :
    Meets X encode n i (fun _ _ => True) p s := by
  refine .of_issues (φ := fun c => ∃ c', c = .pay c' ∧ Quiet c') ?_ ?_
  · rintro _ ⟨c, rfl, hc⟩ e t u r ht _ hex
    exact (quiet_step hc ht hex).1
  · exact Prog.Issues.hoist _ (hp.mono fun c hc => ⟨⟨c, rfl, hc⟩, fun _ => trivial⟩)

theorem quiet_issues {β : Type} {p : Payments.Service β} (hp : p.Issues Calm) : p.Issues Quiet :=
  hp.mono fun _ hc => quiet_of_calm hc

/-! ## Requests -/

theorem own_of_insertRequest {pg pg' : Postgres} {row : RequestRow} {r : Option ℕ}
    (h : pg.insertRequest i row = some (pg', r)) :
    (pg' = pg ∧ r ≠ some 1) ∨ (pg' = { pg with open_ := pg.others i ++ [(i, ⟨row, none⟩)] } ∧
      r = some 1 ∧ own pg' i = [(i, ⟨row, none⟩)]) := by
  rcases insertRequest_cases h with ⟨rfl, hr⟩ | ⟨rfl, hr, -⟩
  · exact .inl ⟨rfl, hr⟩
  · refine .inr ⟨rfl, hr, ?_⟩
    simp only [own, List.filter_append]
    rw [own_others_self]
    simp

theorem rest_insertRequest (pg : Postgres) {row : RequestRow} (hrow : row.status = .pending) :
    Rest pg { pg with open_ := pg.others i ++ [(i, ⟨row, none⟩)] } := by
  refine ⟨⟨id, (List.map_id _).symm, .refl⟩, rfl, rfl, rfl, fun x hx => ?_⟩
  rcases List.mem_append.1 hx with hx | hx
  · exact .inl ⟨x, (mem_others.1 hx).1, rfl⟩
  · rw [List.mem_singleton.1 hx]
    exact .inr hrow

theorem own_insertRequest_ne (pg : Postgres) (row : RequestRow) {j : ℕ} (hne : j ≠ i) :
    own { pg with open_ := pg.others i ++ [(i, ⟨row, none⟩)] } j = own pg j := by
  simp only [own, List.filter_append]
  rw [own_others hne]
  simp [own, hne.symm]

theorem insertRequest_turn {e : Outcome} {row : RequestRow} (hrow : row.status = .pending)
    {r : Option ℕ} (hs : Filed s) (h : exec encode i e (.pay (.insertRequest row)) s = some (t, r)) :
    (turns X encode).Honours n i s t ∧ (r = some 1 → own t.pg i = [(i, ⟨row, none⟩)]) ∧
      (∀ k, r = some k → k ≠ 1 → own t.pg i = own s.pg i) := by
  obtain ⟨l, age, w, rfl, hw, rfl⟩ := exec_pay h
  have hsame : w.pg = s.pg → (turns X encode).Honours n i s (s.putWorld encode age w) := by
    intro heq
    refine honours_of_turn hs (turn_of_rest hs (heq ▸ .refl _)) fun j _ => ?_
    show own w.pg j = own s.pg j
    rw [heq]
  simp only [Payments.exec] at hw
  split at hw
  · obtain ⟨rfl, rfl⟩ := Prod.mk.inj (Option.some.inj hw)
    exact ⟨hsame rfl, (fun h => by cases h), (fun _ h => by cases h)⟩
  · split at hw
    · cases hw
    · next pg r' hins =>
      obtain ⟨rfl, rfl⟩ := Prod.mk.inj (Option.some.inj hw)
      have hreply : ∀ k, (if l = .ok then r' else none) = some k → r' = some k := by
        intro k hk
        split_ifs at hk
        exact hk
      rcases own_of_insertRequest hins with ⟨hpg, hr⟩ | ⟨hpg, hr, hown⟩
      · refine ⟨hsame hpg, fun hone => absurd (hreply 1 hone) hr, fun _ _ _ => ?_⟩
        show own pg i = own s.pg i
        rw [hpg]
      · refine ⟨honours_of_turn hs (turn_of_rest hs ?_) fun j hj => ?_, fun _ => hown,
          fun k hk hne => ?_⟩
        · show Rest s.pg pg
          rw [hpg]
          exact rest_insertRequest s.pg hrow
        · show own pg j = own s.pg j
          rw [hpg]
          exact own_insertRequest_ne s.pg row hj
        · have := (hreply k hk).symm.trans hr
          exact absurd (Option.some.inj this) hne

theorem insertRequested_turn {e : Outcome} {message : CheckoutMessage} {row : RequestRow}
    {r : Option Unit} (hs : Filed s) (hown : own s.pg i = [(i, ⟨row, none⟩)])
    (h : exec encode i e (.pay (.insertRequested message)) s = some (t, r)) :
    (turns X encode).Honours n i s t ∧
      (r = some () → own t.pg i = [(i, ⟨row, some message⟩)]) := by
  obtain ⟨l, age, w, rfl, hw, rfl⟩ := exec_pay h
  rcases Link.deliver_cases (Option.some.inj hw) with ⟨rfl, rfl⟩ | ⟨rfl, -⟩
  · exact ⟨honours_of_turn hs (turn_of_rest hs (.refl _)) fun _ _ => rfl, fun h => by cases h⟩
  · refine ⟨honours_of_turn hs (turn_of_rest hs ?_) fun j hj => ?_, fun _ => ?_⟩
    · refine ⟨⟨id, (List.map_id _).symm, .refl⟩, rfl, rfl, rfl, fun x hx => ?_⟩
      obtain ⟨y, hy, rfl⟩ := List.mem_map.1 hx
      exact .inl ⟨y, hy, (setEvent_row i message y).symm⟩
    · show own (s.pg.insertRequested i message) j = own s.pg j
      rw [own_insertRequested]
      have hkeep : ∀ x ∈ own s.pg j, Postgres.setEvent i message x = id x := by
        intro x hx
        have hxj : x.1 = j := by simpa using (List.mem_filter.1 hx).2
        exact setEvent_ne (hxj ▸ hj)
      rw [List.map_congr_left hkeep, List.map_id]
    · show own (s.pg.insertRequested i message) i = _
      rw [own_insertRequested, hown]
      simp [Postgres.setEvent]

theorem rest_rollback (pg : Postgres) (i : ℕ) : Rest pg (pg.rollback i) :=
  ⟨⟨id, (List.map_id _).symm, .refl⟩, rfl, rfl, rfl,
    fun x hx => .inl ⟨x, (mem_others.1 hx).1, rfl⟩⟩

theorem rollback_turn {e : Outcome} {r : Option Unit} (hs : Filed s)
    (h : exec encode i e (.pay .rollback) s = some (t, r)) : (turns X encode).Honours n i s t := by
  obtain ⟨l, age, w, rfl, hw, rfl⟩ := exec_pay h
  obtain ⟨rfl, -⟩ := Prod.mk.inj (Option.some.inj hw)
  exact honours_of_turn hs (turn_of_rest hs (rest_rollback s.pg i)) fun j hj => own_others hj

theorem txnOf_of_nil {pg : Postgres} (h : own pg i = []) : pg.txnOf i = none := by
  rw [Postgres.txnOf, ← List.head?_filter]
  show ((own pg i).head?).map Prod.snd = none
  rw [h]
  rfl

theorem own_commit_ne (pg : Postgres) {j : ℕ} (hne : j ≠ i) : own (pg.commit i) j = own pg j := by
  unfold Postgres.commit
  split
  · rfl
  · exact own_others hne

/-- A session commits nothing, or a request with the outbox row of its checkout. -/
theorem commit_turn {e : Outcome} {r : Option Unit} (hs : Filed s)
    (hown : own s.pg i = [] ∨ ∃ row message, own s.pg i = [(i, ⟨row, some message⟩)] ∧
      message.paymentRequestId = row.id)
    (h : exec encode i e (.pay .commit) s = some (t, r)) : (turns X encode).Honours n i s t := by
  obtain ⟨l, age, w, rfl, hw, rfl⟩ := exec_pay h
  have hcommit : (turns X encode).Honours n i s
      (s.putWorld encode age { s.world with pg := s.pg.commit i }) := by
    refine honours_of_turn hs ?_ fun j hj => own_commit_ne s.pg hj
    rcases hown with hnil | ⟨row, message, htxn, hid⟩
    · refine turn_of_rest hs ?_
      show Rest s.pg (s.pg.commit i)
      rw [Postgres.commit, txnOf_of_nil hnil]
      exact .refl s.pg
    · exact .commit i age _ message (txnOf_of_own htxn) rfl hid rfl
  cases l with
  | ok =>
      obtain ⟨rfl, -⟩ := Prod.mk.inj (Option.some.inj hw)
      exact hcommit
  | unacked =>
      obtain ⟨rfl, -⟩ := Prod.mk.inj (Option.some.inj hw)
      exact hcommit
  | lost =>
      obtain ⟨rfl, -⟩ := Prod.mk.inj (Option.some.inj hw)
      exact honours_of_turn hs (turn_of_rest hs (rest_rollback s.pg i)) fun j hj => own_others hj

/-- The transaction of a request, in a session without another. -/
theorem meets_insertTransaction {row : RequestRow} {message : CheckoutMessage}
    (hrow : row.status = .pending) (hid : message.paymentRequestId = row.id)
    (hs : own s.pg i = []) :
    Meets X encode n i (fun _ _ => True) (insertTransaction row message) s := by
  have hrollback : ∀ u, Meets X encode n i (fun _ _ => True)
      (do let _ ← Prog.perform Payments.Cmd.rollback; pure (none : Option ℕ)) u := by
    intro u
    exact .call fun v _ hv _ _ w r hex => ⟨rollback_turn hv hex, .ret fun _ _ _ => trivial⟩
  refine .call fun t hst ht e _ u r hex => ?_
  obtain ⟨hu, hnew, hold⟩ := insertRequest_turn hrow ht hex
  refine ⟨hu, ?_⟩
  match r with
  | none => exact hrollback u
  | some inserted =>
      show Meets X encode n i _ (if inserted = 1 then _ else _) u
      split_ifs with hins
      · subst hins
        refine .call fun v huv hv e _ w r hex => ?_
        obtain ⟨hw, hown⟩ := insertRequested_turn hv (huv.1.trans (hnew rfl)) hex
        refine ⟨hw, ?_⟩
        match r with
        | none => exact hrollback w
        | some () =>
            refine .call fun x hwx hx e _ y r hex => ⟨commit_turn hx ?_ hex, ?_⟩
            · exact .inr ⟨row, message, hwx.1.trans (hown rfl), hid⟩
            · match r with
              | none => exact .ret fun _ _ _ => trivial
              | some () => exact .ret fun _ _ _ => trivial
      · refine .call fun v huv hv e _ w r hex => ⟨commit_turn hv (.inl ?_) hex, ?_⟩
        · exact ((huv.1.trans (hold inserted rfl hins)).trans hst.1).trans hs
        · match r with
          | none => exact .ret fun _ _ _ => trivial
          | some () => exact .ret fun _ _ _ => trivial

variable {userId : ℤ} {request : PaymentRequest} {newId : ℕ}

theorem meets_storeRequest {amount : ℚ} (hs : own s.pg i = []) :
    Meets X encode n i (fun _ _ => True) (storeRequest userId request newId amount) s := by
  refine quiet_bind (quiet_issues (calm_perform trivial)) fun r t hst => ?_
  match r with
  | none => exact .ret fun _ _ _ => trivial
  | some () =>
  refine quiet_bind (quiet_issues (calm_holdCheckouts _ _ _ _)) fun r u htu => ?_
  match r with
  | .error e => exact .ret fun _ _ _ => trivial
  | .ok created =>
  have hown : own u.pg i = [] := (htu.1.trans hst.1).trans hs
  refine meets_bind ((meets_insertTransaction rfl rfl hown).weaken fun r v _ => ?_)
  match r with
  | none =>
      exact quiet_bind (quiet_issues (calm_delCheckouts _ _)) fun _ _ _ => .ret fun _ _ _ => trivial
  | some inserted =>
  show Meets X encode n i _ (if inserted = 1 then _ else _) v
  split_ifs
  · exact .ret fun _ _ _ => trivial
  · refine meets_quiet ⟨trivial, fun r => ?_⟩
    match r with
    | none => trivial
    | some none => trivial
    | some (some existing) => trivial

theorem meets_checkAndStore (hs : own s.pg i = []) :
    Meets X encode n i (fun _ _ => True) (checkAndStore userId request newId) s := by
  refine quiet_bind (quiet_issues (calm_onRedis _)) fun r t hst => ?_
  match r with
  | .error message => exact .ret fun _ _ _ => trivial
  | .ok () =>
  refine quiet_bind (quiet_issues (calm_perform trivial)) fun r u htu => ?_
  match r with
  | none => exact .ret fun _ _ _ => trivial
  | some dbSeats =>
  dsimp only
  cases checkSeats request dbSeats with
  | error e => exact .ret fun _ _ _ => trivial
  | ok _ => exact meets_storeRequest ((htu.1.trans hst.1).trans hs)

theorem meets_requestPayment (provider : Provider) (hs : own s.pg i = []) :
    Meets X encode n i (fun _ _ => True) (requestPayment provider userId request newId) s := by
  unfold requestPayment
  split
  · exact .ret fun _ _ _ => trivial
  split
  · exact .ret fun _ _ _ => trivial
  refine quiet_bind (quiet_issues (calm_perform trivial)) fun r t hst => ?_
  match r with
  | none => exact .ret fun _ _ _ => trivial
  | some () =>
  refine quiet_bind (quiet_issues (calm_perform trivial)) fun r u htu => ?_
  match r with
  | none => exact .ret fun _ _ _ => trivial
  | some (some existing) => exact .ret fun _ _ _ => trivial
  | some none => exact meets_checkAndStore ((htu.1.trans hst.1).trans hs)

/-! ## Deliveries -/

/-- A delivery is settled: it is acknowledged when it is finished, and rejected as the run allows. -/
theorem settle_turn {e : Outcome} {k : ℕ} {verdict : Verdict} {r : Unit} (hs : Filed s)
    (hack : verdict = .ack → Finished k s) (hallowed : X → NothingLost e (.settle k verdict) s)
    (h : exec encode i e (.settle k verdict) s = some (t, r)) : (turns X encode).Honours n i s t := by
  obtain ⟨l, age, rfl, rfl⟩ := exec_settle h
  split_ifs with hl
  · exact honours_of_turn hs (.rest (.refl _) (.refl rfl) fun _ _ hn => .inl hn) fun _ _ => rfl
  · have hspare : X → k ∈ s.queue.erase k ∨ Finished k s := by
      intro hX
      cases verdict with
      | ack => exact .inr (hack rfl)
      | nack => exact (hallowed hX hl).symm.imp_right .inl
    have hpg : (s.settle k verdict).pg = s.pg := congrArg World.pg (settle_world k verdict s)
    have hevents : (s.settle k verdict).events = s.events := by cases verdict <;> rfl
    have hqueue : (s.settle k verdict).queue = s.queue.erase k := by cases verdict <;> rfl
    refine honours_of_turn hs (.rest (hpg ▸ .refl _) (.refl hevents) fun hX m hm => ?_) fun j _ => ?_
    · rw [hqueue]
      rcases eq_or_ne m k with rfl | hne
      · exact hspare hX
      · exact .inl ((List.mem_erase_of_ne hne).2 hm)
    · show own (s.settle k verdict).pg j = own s.pg j
      rw [hpg]

/-- A delivery whose handler acknowledges what is finished. -/
theorem settles_task {k : ℕ} {p : Payments.Service Verdict}
    (h : Meets X encode n i (fun v t => v = .ack → Finished k t) p s) :
    (turns X encode).Ensures (exec encode) n i (fun _ _ => True)
      (paying p >>= fun verdict => Prog.perform (Cmd.settle k verdict)) s := by
  refine .bind (h.weaken fun verdict t hfinished => ?_)
  refine .call fun u htu hu e hallowed v r hex => ⟨settle_turn hu ?_ hallowed hex, ?_⟩
  · exact fun hack => (hfinished hack).mono htu.2
  · exact .ret fun _ _ _ => trivial

theorem finished_of_order {k : ℕ} {message : CheckoutMessage}
    (hrow : s.pg.outbox[k]? = some (.paymentRequested message))
    (h : ∃ o ∈ s.pg.orders, o.paymentRequestId = message.paymentRequestId) : Finished k s := by
  right
  unfold Ordered
  rw [hrow]
  exact h

theorem commitCheckout_turn {e : Outcome} {c : CheckoutCommit} {r : Option Unit} (hs : Filed s)
    (hrow : ∃ q ∈ s.pg.requests, q.id = c.paymentRequestId)
    (h : exec encode i e (.pay (.commitCheckout c)) s = some (t, r)) :
    (turns X encode).Honours n i s t ∧
      (r = some () → ∃ o ∈ t.pg.orders, o.paymentRequestId = c.paymentRequestId) := by
  obtain ⟨l, age, w, rfl, hw, rfl⟩ := exec_pay h
  obtain ⟨hworld, hreply⟩ := Prod.mk.inj (Option.some.inj hw)
  have hdone : (World.onPg l (Postgres.commitCheckout c) s.world).1 =
      { s.world with pg := (s.pg.commitCheckout c).1 } →
      (turns X encode).Honours n i s (s.putWorld encode age w) := by
    intro heq
    rw [heq] at hworld
    subst hworld
    cases hfree : s.pg.orderRefused c with
    | true =>
        refine honours_of_turn hs (turn_of_rest hs ?_) fun j _ => ?_
        · show Rest s.pg (s.pg.commitCheckout c).1
          rw [Postgres.commitCheckout, if_pos hfree]
          exact .refl s.pg
        · show own (s.pg.commitCheckout c).1 j = own s.pg j
          rw [Postgres.commitCheckout, if_pos hfree]
    | false =>
        refine honours_of_turn hs (.checkout c age hrow hfree rfl) fun j _ => ?_
        show own (s.pg.commitCheckout c).1 j = own s.pg j
        rw [Postgres.commitCheckout, if_neg (by rw [hfree]; exact Bool.false_ne_true)]
        rfl
  cases l with
  | ok =>
      refine ⟨hdone rfl, fun hr => ?_⟩
      subst hworld
      show ∃ o ∈ (s.pg.commitCheckout c).1.orders, _
      rw [hr] at hreply
      have hreply : (s.pg.commitCheckout c).2 = some () := hreply
      unfold Postgres.commitCheckout at hreply ⊢
      split_ifs at hreply ⊢
      exact ⟨Postgres.newOrder c, List.mem_append_right _ (List.mem_singleton_self _), rfl⟩
  | unacked => exact ⟨hdone rfl, fun hr => by rw [hr] at hreply; cases hreply⟩
  | lost =>
      subst hworld
      refine ⟨honours_of_turn hs (turn_of_rest hs (.refl _)) fun _ _ => rfl, fun hr => ?_⟩
      rw [hr] at hreply
      cases hreply

theorem Progress.ordered (h : Progress X s t) {paymentRequestId : ℕ}
    (ho : ∃ o ∈ s.pg.orders, o.paymentRequestId = paymentRequestId) :
    ∃ o ∈ t.pg.orders, o.paymentRequestId = paymentRequestId := by
  obtain ⟨o, ho, hid⟩ := ho
  obtain ⟨o', ho', hsame, -⟩ := h.orders o ho
  refine ⟨o', ho', ?_⟩
  rw [hsame]
  exact hid

/-- An order that is found exists. -/
theorem meets_orderExists (paymentRequestId : ℕ) :
    Meets X encode n i (fun found t => found = true →
      ∃ o ∈ t.pg.orders, o.paymentRequestId = paymentRequestId) (orderExists paymentRequestId) s := by
  refine quiet_bind (quiet_issues (calm_perform trivial)) fun r t _ => ?_
  match r with
  | none => exact .ret fun _ _ _ h => by cases h
  | some () =>
  refine .call fun u _ hu e _ v r hex => ?_
  obtain ⟨hv, huv⟩ := quiet_step (c := .orderExists paymentRequestId) trivial hu hex
  refine ⟨hv, .ret fun w hvw _ hfound => ?_⟩
  obtain ⟨l, age, w', rfl, hw, -⟩ := exec_pay hex
  have hreply : (World.query l (·.orderExists paymentRequestId) u.world).2 = r :=
    congrArg Prod.snd (Option.some.inj hw)
  cases r with
  | none => cases hfound
  | some b =>
      have hb : b = u.pg.orderExists paymentRequestId := query_snd hreply
      have hfound : b = true := hfound
      obtain ⟨o, ho, hid⟩ := List.any_eq_true.1 (hb.symm.trans hfound)
      exact (huv.2.trans hvw.2).ordered ⟨o, ho, of_decide_eq_true hid⟩

/-- A delivery of a checkout whose request is committed. -/
theorem meets_processCheckout {k orderId : ℕ} {message : CheckoutMessage}
    (hrow : s.pg.outbox[k]? = some (.paymentRequested message))
    (hknown : ∃ q ∈ s.pg.requests, q.id = message.paymentRequestId) :
    Meets X encode n i (fun verdict t => verdict = .ack → Finished k t)
      (processCheckout message orderId) s := by
  have hnack : ∀ {t}, Meets X encode n i (fun verdict t => verdict = .ack → Finished k t)
      (.ret Verdict.nack) t := .ret fun _ _ _ h => by cases h
  have hclear : ∀ {t} (verdict : Verdict), (verdict = .ack → Finished k t) →
      Meets X encode n i (fun verdict t => verdict = .ack → Finished k t)
        (clearCheckouts message.scheduleId message.seatIds >>= fun _ => pure verdict) t := by
    intro t verdict hfinished
    refine quiet_bind (quiet_issues (calm_clearCheckouts _ _)) fun _ u htu => ?_
    exact .ret fun v huv _ hack => ((hfinished hack).mono htu.2).mono huv.2
  refine quiet_bind_post (quiet_issues (calm_orderExists _)) (meets_orderExists _)
    fun found t hst hfound => ?_
  cases found with
  | true =>
      have hfinished := finished_of_order (hst.2.getElem? hrow) (hfound rfl)
      exact .ret fun u htu _ _ => hfinished.mono htu.2
  | false =>
  show Meets X encode n i _ (if message.seatIds = [] then _ else _) t
  split_ifs
  · exact hnack
  refine quiet_bind (quiet_issues (calm_checkOwnership _ _ _)) fun reason u htu => ?_
  match reason with
  | some reason =>
      exact quiet_bind (quiet_issues (calm_rejectCheckout _ _)) fun _ _ _ => hnack
  | none =>
  refine .call fun v huv hv e _ w r hex => ?_
  have hsv := (hst.2.trans htu.2).trans huv.2
  have hknown' : ∃ q ∈ v.pg.requests, q.id = message.paymentRequestId := by
    obtain ⟨q, hq, hid⟩ := hknown
    obtain ⟨q', hq', hid', -⟩ := hsv.requests q hq
    exact ⟨q', hq', hid'.trans hid⟩
  obtain ⟨hw, hordered⟩ := commitCheckout_turn (n := n) (X := X) hv hknown' hex
  have hvw : Progress X v w := (hw.rely (i + 1) (Nat.succ_ne_self i)).2
  refine ⟨hw, ?_⟩
  match r with
  | none => exact hclear .nack fun h => by cases h
  | some () =>
      have hfinished : Finished k w :=
        finished_of_order ((hsv.trans hvw).getElem? hrow) (hordered rfl)
      have hdone : Meets X encode n i (fun verdict t => verdict = .ack → Finished k t)
          (announceCheckout message >>= fun _ =>
            clearCheckouts message.scheduleId message.seatIds >>= fun _ => pure Verdict.ack) w :=
        quiet_bind (quiet_issues (calm_announceCheckout _)) fun _ x hwx =>
          hclear .ack fun _ => hfinished.mono hwx.2
      exact hdone

/-! ## Cancellations -/

theorem startCancellation_turn {e : Outcome} {o : OrderRow} {message : CancellationMessage}
    {r : Option Unit} (hs : Filed s) (ho : o ∈ s.pg.orders) (hnames : NamesOrder message o)
    (h : exec encode i e (.pay (.startCancellation o.id message)) s = some (t, r)) :
    (turns X encode).Honours n i s t := by
  obtain ⟨l, age, w, rfl, hw, rfl⟩ := exec_pay h
  rcases Link.deliver_cases (Option.some.inj hw) with ⟨rfl, -⟩ | ⟨rfl, -⟩
  · exact honours_of_turn hs (turn_of_rest hs (.refl _)) fun _ _ => rfl
  · by_cases hcompleted : ∃ q ∈ s.pg.orders, q.id = o.id ∧ q.status = .completed
    · refine honours_of_turn hs (.start o age message ho hcompleted hnames rfl) fun j _ => ?_
      show own (s.pg.startCancellation o.id message) j = own s.pg j
      unfold Postgres.startCancellation
      split_ifs <;> rfl
    · have hsame : s.pg.startCancellation o.id message = s.pg := by
        unfold Postgres.startCancellation
        rw [if_neg]
        intro hany
        obtain ⟨q, hq, hcond⟩ := List.any_eq_true.1 hany
        exact hcompleted ⟨q, hq, of_decide_eq_true hcond⟩
      refine honours_of_turn hs (turn_of_rest hs ?_) fun j _ => ?_
      · show Rest s.pg (s.pg.startCancellation o.id message)
        rw [hsame]
        exact .refl s.pg
      · show own (s.pg.startCancellation o.id message) j = own s.pg j
        rw [hsame]

/-- A cancellation is asked for with what the order that was read keeps for good. -/
theorem meets_cancelOrder (userId : ℤ) (orderId : ℕ) (idempotencyKey : String) :
    Meets X encode n i (fun _ _ => True) (cancelOrder userId orderId idempotencyKey) s := by
  have hret : ∀ {α : Type} {b : α} {t : Store}, Meets X encode n i (fun _ _ => True) (.ret b) t :=
    .ret fun _ _ _ => trivial
  unfold cancelOrder
  split_ifs
  · exact hret
  refine quiet_bind (quiet_issues (calm_perform trivial)) fun r t _ => ?_
  match r with
  | none => exact hret
  | some () =>
  refine .call fun u _ hu e _ v r hex => ?_
  obtain ⟨hv, huv⟩ := quiet_step (c := .findOrder orderId) trivial hu hex
  refine ⟨hv, ?_⟩
  obtain ⟨l, age, w, rfl, hw, -⟩ := exec_pay hex
  have hreply : (World.query l (·.findOrder orderId) u.world).2 = r :=
    congrArg Prod.snd (Option.some.inj hw)
  match r with
  | none => exact hret
  | some none => exact hret
  | some (some order) =>
  have hfind : some order = u.pg.findOrder orderId := query_snd hreply
  have horder : order ∈ u.pg.orders := List.mem_of_find?_eq_some hfind.symm
  show Meets X encode n i _ (if order.userId ≠ userId then _ else _) v
  split_ifs
  · exact hret
  · exact hret
  refine .call fun x hvx hx e _ y r hex => ?_
  obtain ⟨o, ho, hsame, -⟩ := (huv.2.trans hvx.2).orders order horder
  have hid : order.id = o.id := by
    rw [hsame]
  have hnames : NamesOrder (cancellationMessage order userId idempotencyKey) o :=
    NamesOrder.same ⟨rfl, rfl, rfl, rfl, rfl⟩ hsame
  rw [hid] at hex
  refine ⟨startCancellation_turn hx ho hnames hex, ?_⟩
  match r with
  | none => exact hret
  | some () => exact hret

theorem commitCancellation_turn {e : Outcome} {k : ℕ} {message : CancellationMessage}
    {r : Option Unit} (hs : Filed s)
    (hrow : s.pg.outbox[k]? = some (.cancellationRequested message))
    (h : exec encode i e (.pay (.commitCancellation (cancellationCommit message))) s =
      some (t, r)) :
    (turns X encode).Honours n i s t ∧ (r = some () → Finished k t) := by
  obtain ⟨l, age, w, rfl, hw, rfl⟩ := exec_pay h
  have hmem : .cancellationRequested message ∈ s.pg.outbox := List.mem_of_getElem? hrow
  rcases Link.deliver_cases (Option.some.inj hw) with ⟨rfl, rfl⟩ | ⟨rfl, -⟩
  · exact ⟨honours_of_turn hs (turn_of_rest hs (.refl _)) fun _ _ => rfl, fun h => by cases h⟩
  · have hturn : Turn X encode s (s.putWorld encode age { s.world with
        pg := (s.pg.commitCancellation (cancellationCommit message)).1 }) :=
      .cancel message age hmem rfl
    refine ⟨honours_of_turn hs hturn fun _ _ => rfl, fun _ => .inl ?_⟩
    have hrow' := (hturn.keeps hs).2.getElem? hrow
    unfold Done
    rw [hrow']
    obtain ⟨o, ho, hid⟩ := hs.known _ hmem
    refine ⟨_, Table.mem_updateWhere_of_mem ho, ?_⟩
    have hcond : decide (o.id = (cancellationCommit message).orderId) = true := decide_eq_true hid
    rw [if_pos hcond]
    exact ⟨hid, rfl⟩

theorem quiet_announceCancellation (message : CancellationMessage) :
    (announceCancellation message).Issues Quiet := by
  have hredis : ∀ {β : Type} (p : SingleNodeLock.Op β), (onRedis p).Issues Quiet :=
    fun p => issues_onRedis (fun _ => trivial) p
  exact (hredis _).bind fun _ => hredis _

/-- A delivery of a cancellation. -/
theorem meets_processCancellation {k : ℕ} {message : CancellationMessage} (mockMode : Bool)
    (hrow : s.pg.outbox[k]? = some (.cancellationRequested message)) :
    Meets X encode n i (fun verdict t => verdict = .ack → Finished k t)
      (processCancellation mockMode message) s := by
  have hrefund : (refundPayment mockMode message).Issues Quiet := by
    unfold refundPayment processRazorpayRefund
    split
    · trivial
    · split_ifs
      · trivial
      · exact ⟨trivial, fun _ => trivial⟩
  refine quiet_bind hrefund fun r t hst => ?_
  match r with
  | none => exact .ret fun _ _ _ h => by cases h
  | some () =>
  refine .call fun u htu hu e _ v r hex => ?_
  obtain ⟨hv, hfinished⟩ :=
    commitCancellation_turn (n := n) (X := X) hu ((hst.2.trans htu.2).getElem? hrow) hex
  refine ⟨hv, ?_⟩
  match r with
  | none => exact .ret fun _ _ _ h => by cases h
  | some () =>
      have hdone : Meets X encode n i (fun verdict t => verdict = .ack → Finished k t)
          (announceCancellation message >>= fun _ => pure Verdict.ack) v :=
        quiet_bind (quiet_announceCancellation message) fun _ w hvw =>
          .ret fun x hwx _ _ => ((hfinished rfl).mono hvw.2).mono hwx.2
      exact hdone

end Services

end Backend
end Bookit

import Bookit.Backend.Store
import Bookit.Payments.Programs

/-!
# Backend.Tables — the rows of the payment path in the backend

The services of the backend keep what the rows of the payment path have in common.  For requests and
checkouts this is their contract against the world alone; cancellations, the outbox servers and the
settlements leave alone what it speaks of.
-/

namespace Bookit
namespace Backend

open Lib Payments

/-! ## What the outbox server writes of a request -/

/-- The request has succeeded or failed for good. -/
def Final (status : RequestStatus) : Prop :=
  status = .succeeded ∨ status = .failed

instance {status : RequestStatus} : Decidable (Final status) := by
  unfold Final
  infer_instance

/-- Two versions of a request row, neither of which the other services take back. -/
structure Settles (r r' : RequestRow) : Prop where
  same : SameRow r r'
  succeeded : r'.status = .succeeded ↔ r.status = .succeeded
  final : Final r.status → Final r'.status

theorem Settles.refl (r : RequestRow) : Settles r r := ⟨.refl r, .rfl, fun h => h⟩

theorem ofServer_toServer (status : RequestStatus) : ofServer (toServer status) = status := by
  cases status <;> rfl

theorem putRow_serverRow (r : RequestRow) : putRow r (serverRow r) = r := by
  simp [putRow, serverRow, ofServer_toServer]

/-- A statement on the rows that the outbox server sees. -/
theorem zipWith_putRow (rows : List RequestRow) (g : Outbox.PaymentRequest → Outbox.PaymentRequest) :
    List.zipWith putRow rows ((rows.map serverRow).map g) =
      rows.map fun r => putRow r (g (serverRow r)) := by
  induction rows with
  | nil => rfl
  | cons r rows ih =>
      simp only [List.map_cons, List.zipWith_cons_cons]
      exact congrArg _ ih

/-- What the outbox server may do to a request. -/
structure ServerSettles (q q' : Outbox.PaymentRequest) : Prop where
  id : q'.id = q.id
  succeeded : q'.status = .succeeded ↔ q.status = .succeeded
  failed : q.status = .failed → q'.status = .failed

theorem ServerSettles.refl (q : Outbox.PaymentRequest) : ServerSettles q q := ⟨rfl, .rfl, fun h => h⟩

theorem ofServer_succeeded {status : Outbox.RequestStatus} :
    ofServer status = .succeeded ↔ status = .succeeded := by
  cases status <;> simp [ofServer]

theorem ofServer_failed {status : Outbox.RequestStatus} :
    ofServer status = .failed ↔ status = .failed := by
  cases status <;> simp [ofServer]

theorem ServerSettles.settles {r : RequestRow} {q : Outbox.PaymentRequest}
    (h : ServerSettles (serverRow r) q) : Settles r (putRow r q) := by
  have hstatus : r.status = ofServer (serverRow r).status := (ofServer_toServer r.status).symm
  refine ⟨⟨rfl, rfl, rfl, rfl, rfl⟩, ?_, fun hfinal => ?_⟩
  · rw [hstatus]
    exact ofServer_succeeded.trans (h.succeeded.trans ofServer_succeeded.symm)
  · rw [hstatus] at hfinal
    rcases hfinal with hs | hf
    · exact .inl (ofServer_succeeded.2 (h.succeeded.2 (ofServer_succeeded.1 hs)))
    · exact .inr (ofServer_failed.2 (h.failed (ofServer_failed.1 hf)))

section Server

variable {i : ℕ} {e : Outbox.Outcome} {c : Outbox.Cmd} {v v' : Outbox.Store} {r : Outbox.Rep c}

theorem serverSettles_updateWhere {p : Outbox.PaymentRequest → Bool}
    {f : Outbox.PaymentRequest → Outbox.PaymentRequest}
    (hf : ∀ q, p q = true → ServerSettles q (f q)) (rows : List Outbox.PaymentRequest) :
    ∃ g, Table.updateWhere p f rows = rows.map g ∧ ∀ q, ServerSettles q (g q) := by
  refine ⟨fun q => if p q then f q else q, rfl, fun q => ?_⟩
  show ServerSettles q (if p q then f q else q)
  split_ifs with hp
  · exact hf q hp
  · exact .refl q

theorem serverSettles_markPublished (event : Outbox.ClaimedEvent) (v : Outbox.Store) :
    ∃ g, (Outbox.execMarkPublished event v).1.requests = v.requests.map g ∧
      ∀ q, ServerSettles q (g q) := by
  unfold Outbox.execMarkPublished
  simp only
  split_ifs
  · refine serverSettles_updateWhere (fun q hq => ?_) _
    have hpending := (of_decide_eq_true hq).2
    exact ⟨rfl, by simp [hpending], fun h => by rw [hpending] at h; cases h⟩
  · exact ⟨id, (List.map_id _).symm, .refl⟩

theorem serverSettles_deadLetter (event : Outbox.ClaimedEvent) (message : String)
    (v : Outbox.Store) :
    ∃ g, (Outbox.execDeadLetter event message v).1.requests = v.requests.map g ∧
      ∀ q, ServerSettles q (g q) := by
  unfold Outbox.execDeadLetter
  simp only
  split_ifs
  · refine serverSettles_updateWhere (fun q hq => ?_) _
    have hopen := (of_decide_eq_true hq).2
    exact ⟨rfl, by simp [hopen], fun _ => rfl⟩
  · exact ⟨id, (List.map_id _).symm, .refl⟩

theorem requests_execClaim (skip : List ℕ) (v : Outbox.Store) :
    (Outbox.execClaim skip v).1.requests = v.requests := by
  unfold Outbox.execClaim
  split
  · rfl
  · split_ifs <;> rfl

theorem serverSettles_of_exec (h : Outbox.exec i e c v = some (v', r)) :
    ∃ g, v'.requests = v.requests.map g ∧ ∀ q, ServerSettles q (g q) := by
  have hsame : v'.requests = v.requests →
      ∃ g, v'.requests = v.requests.map g ∧ ∀ q, ServerSettles q (g q) :=
    fun heq => ⟨id, heq.trans (List.map_id _).symm, .refl⟩
  cases e with
  | db link skip =>
      cases c with
      | claimNext =>
          have h := congrArg Prod.fst (Option.some.inj h)
          have h : (link.deliver (Outbox.execClaim skip) v).1 = v' := h
          rw [← h]
          refine Link.deliver_induction (P := fun u : Outbox.Store => ∃ g, u.requests = v.requests.map g ∧
            ∀ q, ServerSettles q (g q)) ?_ ?_
          · exact ⟨id, (List.map_id _).symm, .refl⟩
          · exact ⟨id, (requests_execClaim skip v).trans (List.map_id _).symm, .refl⟩
      | markPublished event =>
          rcases Link.deliver_cases (Option.some.inj h) with ⟨rfl, -⟩ | ⟨rfl, -⟩
          · exact hsame rfl
          · exact serverSettles_markPublished event v
      | deadLetter event message =>
          rcases Link.deliver_cases (Option.some.inj h) with ⟨rfl, -⟩ | ⟨rfl, -⟩
          · exact hsame rfl
          · exact serverSettles_deadLetter event message v
      | scheduleRetry event delay message =>
          rcases Link.deliver_cases (Option.some.inj h) with ⟨rfl, -⟩ | ⟨rfl, -⟩
          · exact hsame rfl
          · exact hsame rfl
      | basicPublish publication => cases h
  | broker answer =>
      cases c with
      | basicPublish publication =>
          obtain ⟨rfl, -⟩ := Prod.mk.inj (Option.some.inj h)
          exact hsame rfl
      | claimNext => cases h
      | markPublished event => cases h
      | deadLetter event message => cases h
      | scheduleRetry event delay message => cases h

end Server

/-! ## The contract -/

/-- The commands of the payment path are those of a run against the world. -/
theorem exec_pay {encode : OutboxRow → Json} {i : ℕ} {e : Outcome} {c : Payments.Cmd} {s t : Store}
    {r : Rep (.pay c)} (h : exec encode i e (.pay c) s = some (t, r)) :
    ∃ l age w, e = .link l age ∧ Payments.exec i l c s.world = some (w, r) ∧
      t = s.putWorld encode age w := by
  cases e with
  | link l age =>
      obtain ⟨⟨w, r'⟩, hw, heq⟩ := Option.map_eq_some_iff.1 h
      obtain ⟨rfl, rfl⟩ := Prod.mk.inj heq
      exact ⟨l, age, w, rfl, hw, rfl⟩
  | server e queued => cases h

theorem exec_outbox {encode : OutboxRow → Json} {i : ℕ} {e : Outcome} {c : Outbox.Cmd} {s t : Store}
    {r : Rep (.outbox c)} (h : exec encode i e (.outbox c) s = some (t, r)) :
    ∃ e' queued v, e = .server e' queued ∧ Outbox.exec i e' c s.server = some (v, r) ∧
      t = { s.putServer v with queue := enqueued s.queue queued c e' } := by
  cases e with
  | link l age => cases h
  | server e' queued =>
      obtain ⟨⟨v, r'⟩, hv, heq⟩ := Option.map_eq_some_iff.1 h
      obtain ⟨rfl, rfl⟩ := Prod.mk.inj heq
      exact ⟨e', queued, v, rfl, hv, rfl⟩

theorem exec_settle {encode : OutboxRow → Json} {i : ℕ} {e : Outcome} {n : ℕ} {verdict : Verdict}
    {s t : Store} {r : Rep (.settle n verdict)} (h : exec encode i e (.settle n verdict) s = some (t, r)) :
    ∃ l age, e = .link l age ∧ t = if l = .lost then s else s.settle n verdict := by
  cases e with
  | link l age => exact ⟨l, age, rfl, (congrArg Prod.fst (Option.some.inj h)).symm⟩
  | server e queued => cases h

@[simp] theorem settle_world (n : ℕ) (verdict : Verdict) (s : Store) :
    (s.settle n verdict).world = s.world := by
  cases verdict <;> rfl

/-- The request rows after a command of the outbox server. -/
theorem requests_putServer {i : ℕ} {e : Outbox.Outcome} {c : Outbox.Cmd} {s : Store}
    {v : Outbox.Store} {r : Outbox.Rep c} (h : Outbox.exec i e c s.server = some (v, r)) :
    ∃ g, (s.putServer v).pg.requests = s.pg.requests.map g ∧ ∀ q, Settles q (g q) := by
  obtain ⟨g, hg, hsettles⟩ := serverSettles_of_exec h
  refine ⟨fun q => putRow q (g (serverRow q)), ?_, fun q => (hsettles _).settles⟩
  show List.zipWith putRow s.pg.requests v.requests = _
  rw [hg]
  exact zipWith_putRow s.pg.requests g

/-- The contract of the payment path against the world, kept in the backend. -/
def tables : Contract Store Rep Unit Outcome where
  inv s := Base s.pg
  rely i s t := Evolves i s.pg t.pg
  guar _ _ _ := True
  allowed _ _ _ _ _ := True
  rely_refl i s := .refl i s.pg
  rely_trans _ _ _ _ := Evolves.trans

section Threads

variable {encode : OutboxRow → Json} {n : Unit} {i : ℕ} {s t : Store}

theorem tables_honours (hbase : Base t.pg) (hrely : ∀ j, j ≠ i → Evolves j s.pg t.pg) :
    tables.Honours n i s t :=
  ⟨hbase, trivial, hrely⟩

/-- A program of the payment path that keeps its contract against the world. -/
theorem tables_paying {β : Type} {m : Task} {Q : β → World → Prop} {p : Payments.Service β}
    (h : (contract False).Ensures Payments.exec m i Q p s.world) :
    tables.Ensures (exec encode) n i (fun _ _ => True) (paying p) s := by
  have hrely : ∀ s t, tables.rely i s t → (contract False).rely i s.world t.world := fun _ _ h => h
  have hinv : ∀ s, tables.inv s → (contract False).inv s.world := fun _ h => ⟨h, fun hX => hX.elim⟩
  have hstep : ∀ c, True → ∀ (e : Outcome) (t u : Store) (r : Payments.Rep c), True →
      tables.inv t → tables.allowed n i e (.pay c) t → exec encode i e (.pay c) t = some (u, r) →
      (contract False).allowed m i e.fate c t.world ∧
        Payments.exec i e.fate c t.world = some (u.world, r) ∧
        ((contract False).Honours m i t.world u.world → tables.Honours n i t u ∧ True) := by
    intro c _ e t u r _ _ _ hex
    obtain ⟨l, age, w, rfl, hw, rfl⟩ := exec_pay hex
    exact ⟨fun hX => hX.elim, hw, fun hhon => ⟨tables_honours hhon.inv.1 hhon.rely, trivial⟩⟩
  have hlift : tables.Ensures (exec encode) n i (fun b t => Q b t.world ∧ True) (paying p) s :=
    Contract.Ensures.hoist (P := fun _ => True) hrely hinv (fun _ _ _ _ => trivial) hstep
      (Prog.issues_of_forall p fun _ => trivial) trivial h
  exact hlift.weaken fun _ _ _ => trivial

/-- Commands that touch neither the open rows nor the bookings. -/
def Mild : Payments.Cmd → Prop
  | .findOrder _ | .refund .. | .startCancellation .. | .commitCancellation _ => True
  | c => Calm c

theorem mild_of_calm {c : Payments.Cmd} (hc : Calm c) : Mild c := by
  cases c with
  | insertRequest | insertRequested | commit | rollback | commitCheckout | findOrder
  | startCancellation | commitCancellation | refund | bookedCount | activeTicketCount => exact hc.elim
  | _ => exact hc

theorem base_of_mild {l : Link} {c : Payments.Cmd} (hc : Mild c) {w u : World} {r : Payments.Rep c}
    (hbase : Base w.pg) (h : Payments.exec i l c w = some (u, r)) :
    Base u.pg ∧ ∀ j, Evolves j w.pg u.pg := by
  have hsame : u.pg = w.pg → Base u.pg ∧ ∀ j, Evolves j w.pg u.pg := by
    intro heq
    rw [heq]
    exact ⟨hbase, fun j => .refl j w.pg⟩
  cases c with
  | redis c =>
      obtain ⟨rfl, -⟩ := Prod.mk.inj (Option.some.inj h)
      exact hsame rfl
  | connect | findRequest | loadSeats | orderExists | findOrder =>
      obtain rfl : _ = u := congrArg Prod.fst (Option.some.inj h)
      exact hsame (by rw [query_fst])
  | failRequest id reason =>
      rcases Link.deliver_cases (Option.some.inj h) with ⟨rfl, -⟩ | ⟨rfl, -⟩
      · exact hsame rfl
      · exact hbase.failRequest id reason
  | startCancellation id message =>
      rcases Link.deliver_cases (Option.some.inj h) with ⟨rfl, -⟩ | ⟨rfl, -⟩
      · exact hsame rfl
      · exact hbase.startCancellation id message
  | commitCancellation k =>
      rcases Link.deliver_cases (Option.some.inj h) with ⟨rfl, -⟩ | ⟨rfl, -⟩
      · exact hsame rfl
      · exact hbase.commitCancellation k
  | refund paymentId paise =>
      rcases Link.deliver_cases (Option.some.inj h) with ⟨rfl, -⟩ | ⟨rfl, -⟩
      · exact hsame rfl
      · exact hsame rfl
  | _ => exact hc.elim

/-- A command of the backend that keeps the tables wherever it is executed. -/
def Harmless : Cmd → Prop
  | .pay c => Mild c
  | _ => True

theorem tables_of_harmless {e : Outcome} {c : Cmd} (hc : Harmless c) {r : Rep c}
    (hs : tables.inv s) (h : exec encode i e c s = some (t, r)) :
    tables.Honours n i s t := by
  cases c with
  | pay c =>
      obtain ⟨l, age, w, rfl, hw, rfl⟩ := exec_pay h
      obtain ⟨hbase, hrely⟩ := base_of_mild hc hs hw
      exact tables_honours hbase fun j _ => hrely j
  | outbox c =>
      obtain ⟨e, queued, v, rfl, hv, rfl⟩ := exec_outbox h
      obtain ⟨g, hg, hsettles⟩ := requests_putServer hv
      have hs : Base s.pg := hs
      obtain ⟨hbase, hrely⟩ := hs.update (t := (s.putServer v).pg) (fun q => (hsettles q).same) hg
        rfl rfl rfl hs.orders
      exact tables_honours hbase fun j _ => hrely j
  | settle k verdict =>
      obtain ⟨l, age, rfl, rfl⟩ := exec_settle h
      have hworld : (if l = .lost then s else s.settle k verdict).world = s.world := by
        split_ifs
        · rfl
        · exact settle_world k verdict s
      refine tables_honours ?_ fun j _ => ?_
      · show Base (if l = .lost then s else s.settle k verdict).world.pg
        rw [hworld]
        exact hs
      · show Evolves j s.pg (if l = .lost then s else s.settle k verdict).world.pg
        rw [hworld]
        exact .refl j s.pg

theorem mild_cancelOrder (userId : ℤ) (orderId : ℕ) (idempotencyKey : String) :
    (cancelOrder userId orderId idempotencyKey).Issues Mild := by
  refine (issues_cancelOrder userId orderId idempotencyKey).mono fun c hc => ?_
  cases hc with
  | asks h => exact mild_of_calm h.calm
  | find | start => trivial

theorem mild_processCancellation (mockMode : Bool) (message : CancellationMessage) :
    (processCancellation mockMode message).Issues Mild := by
  refine (issues_processCancellation mockMode message).mono fun c hc => ?_
  cases hc with
  | asks h => exact mild_of_calm h.calm
  | refund | commit => trivial

/-- A program of the payment path, followed by one that is harmless. -/
theorem harmless_paying {β γ : Type} {p : Payments.Service β} (hp : p.Issues Mild)
    {f : β → Service γ} (hf : ∀ b, (f b).Issues Harmless) : (paying p >>= f).Issues Harmless :=
  Prog.Issues.bind (Prog.Issues.hoist _ (hp.mono fun _ hc => ⟨hc, fun _ => trivial⟩)) hf

theorem tables_of_issues {p : Service Unit} (hp : p.Issues Harmless) :
    tables.Ensures (exec encode) n i (fun _ _ => True) p s :=
  .of_issues (fun _ hc _ _ _ _ hinv _ hex => tables_of_harmless hc hinv hex) hp

/-- A program of the payment path that keeps its contract, followed by one that is harmless. -/
theorem tables_task {β : Type} {m : Task} {Q : β → World → Prop} {p : Payments.Service β}
    (h : (contract False).Ensures Payments.exec m i Q p s.world) {f : β → Service Unit}
    (hf : ∀ b, (f b).Issues Harmless) :
    tables.Ensures (exec encode) n i (fun _ _ => True) (paying p >>= f) s :=
  .bind ((tables_paying h).weaken fun b _ _ => tables_of_issues (hf b))

/-- The environment leaves the tables alone. -/
theorem pg_of_environ {x : Environ} {new : List (Unit × Service Unit)}
    (h : environ x s = some (t, new)) : t.pg = s.pg ∧ t.events = s.events := by
  cases x with
  | deliver k orderId mockMode =>
      simp only [environ] at h
      split at h
      · obtain ⟨rfl, -⟩ := Prod.mk.inj (Option.some.inj h)
        exact ⟨rfl, rfl⟩
      · obtain ⟨rfl, -⟩ := Prod.mk.inj (Option.some.inj h)
        exact ⟨rfl, rfl⟩
      · cases h
  | expire k =>
      simp only [environ] at h
      split_ifs at h
      obtain ⟨rfl, -⟩ := Prod.mk.inj (Option.some.inj h)
      exact ⟨rfl, rfl⟩
  | _ =>
      obtain ⟨rfl, -⟩ := Prod.mk.inj (Option.some.inj h)
      exact ⟨rfl, rfl⟩

/-- The threads that the environment starts keep the contract. -/
theorem tables_environ {x : Environ} {s t : Store} {new : List (Unit × Service Unit)}
    (hs : Base s.pg) (h : environ x s = some (t, new)) :
    ∀ n p, (n, p) ∈ new → tables.Ensures (exec encode) n i (fun _ _ => True) p t := by
  have hstarted : ∀ {q : Service Unit}, tables.Ensures (exec encode) () i (fun _ _ => True) q s →
      ∀ n p, (n, p) ∈ [((), q)] → tables.Ensures (exec encode) n i (fun _ _ => True) p s := by
    intro q hq n p hp
    obtain ⟨rfl, rfl⟩ := Prod.mk.inj (List.mem_singleton.1 hp)
    exact hq
  have hnone : ∀ {u : Store} n p, (n, p) ∈ ([] : List (Unit × Service Unit)) →
      tables.Ensures (exec encode) n i (fun _ _ => True) p u :=
    fun _ _ hp => absurd hp List.not_mem_nil
  cases x with
  | tick d =>
      obtain ⟨rfl, rfl⟩ := Prod.mk.inj (Option.some.inj h)
      exact hnone
  | tickRedis d =>
      obtain ⟨rfl, rfl⟩ := Prod.mk.inj (Option.some.inj h)
      exact hnone
  | request provider userId request paymentRequestId =>
      obtain ⟨rfl, rfl⟩ := Prod.mk.inj (Option.some.inj h)
      exact hstarted (tables_task (answers_requestPayment (n := .redis) provider)
        fun _ => trivial)
  | cancelOrder userId orderId idempotencyKey =>
      obtain ⟨rfl, rfl⟩ := Prod.mk.inj (Option.some.inj h)
      exact hstarted (tables_of_issues
        (harmless_paying (mild_cancelOrder userId orderId idempotencyKey) fun _ => trivial))
  | deliver k orderId mockMode =>
      simp only [environ] at h
      split at h
      · next message hget =>
        obtain ⟨rfl, rfl⟩ := Prod.mk.inj (Option.some.inj h)
        have hmem : message ∈ s.pg.checkouts :=
          List.mem_filterMap.2 ⟨_, List.mem_of_getElem? hget, rfl⟩
        exact hstarted (tables_task (ensures_processCheckout (n := .redis)
          (hs.event message hmem).2) fun _ => ⟨trivial, fun _ => trivial⟩)
      · next message hget =>
        obtain ⟨rfl, rfl⟩ := Prod.mk.inj (Option.some.inj h)
        exact hstarted (tables_of_issues (harmless_paying
          (mild_processCancellation mockMode message) fun _ => ⟨trivial, fun _ => trivial⟩))
      · cases h
  | startServer ttl rounds =>
      obtain ⟨rfl, rfl⟩ := Prod.mk.inj (Option.some.inj h)
      refine hstarted (tables_of_issues (Prog.Issues.bind ?_ fun _ => trivial))
      exact Prog.Issues.hoist _ (Prog.issues_of_forall _ fun _ => ⟨trivial, fun _ => trivial⟩)
  | onRedis p =>
      obtain ⟨rfl, rfl⟩ := Prod.mk.inj (Option.some.inj h)
      exact hstarted (tables_of_issues
        (harmless_paying (issues_onRedis (fun _ => trivial) p) fun _ => trivial))
  | expire k =>
      simp only [environ] at h
      split_ifs at h
      obtain ⟨rfl, rfl⟩ := Prod.mk.inj (Option.some.inj h)
      exact hnone
  | restart =>
      obtain ⟨rfl, rfl⟩ := Prod.mk.inj (Option.some.inj h)
      exact hnone

end Threads

/-- The rows of the payment path belong together in every run. -/
theorem base_of_reachable {encode : OutboxRow → Json} {p : BackendPool}
    (h : (machine encode).system.Reachable p) : Base p.store.pg := by
  have hfulfils : (machine encode).Fulfils tables (fun _ _ _ _ => True) p := by
    refine Machine.ensures_of_reachable ?_ ?_ ?_
      (Machine.reachable_guarded (fun _ _ _ _ _ => trivial) h)
    · rintro s ⟨seats, hids, rfl⟩
      exact (inv_newWorld (X := False) ⟨seats, hids, rfl⟩).1
    · intro x s t new hs _ hx
      have hpg : t.pg = s.pg := (pg_of_environ hx).1
      refine ⟨?_, fun j => ?_, fun i n p hp _ => tables_environ hs hx n p hp⟩
      · show Base t.pg
        rw [hpg]
        exact hs
      · show Evolves j s.pg t.pg
        rw [hpg]
        exact .refl j s.pg
    · intro i s hs
      obtain ⟨hbase, hrely⟩ := Base.rollback hs i
      exact ⟨hbase, hrely⟩
  exact hfulfils.inv

end Backend
end Bookit

import Bookit.Payments.System

/-!
# Payments.FailedRequests — the checkout keys behind a failed request

A payment request sets the checkout key of one seat after the other, and deletes those it has set
where a seat is in another checkout or the insertion fails.  The exits in between return at once.

* `Held` — the keys that a request has set, in the loop and behind it;
* `CleansUp` — the runs in which no exit is taken that leaves the key of the seat;
* `failed_request_leaves_seat` — in these a request that fails leaves the key as it found it.
-/

namespace Bookit
namespace Payments

open Lib

/-- The seat is in checkout, or not, as it was when the request came. -/
def AsFound (seat : ℤ × ℤ) (had : Bool) (s : World) : Prop :=
  s.redis.inCheckout seat = had

instance {seat : ℤ × ℤ} {had : Bool} {s : World} : Decidable (AsFound seat had s) :=
  inferInstanceAs (Decidable (_ = _))

/-! ## Runs -/

/-- The step does not take the key of the seat from what the request has found. -/
def LeavesSeat (seat : ℤ × ℤ) (had : Bool) (p : Pool World Rep Task Result)
    (a : Act Link Environ) : Prop :=
  match machine.step p a with
  | some q => AsFound seat had p.store → AsFound seat had q.store
  | none => True

/-- Only session `i` changes the key of the seat. -/
def OthersLeave (i : ℕ) (seat : ℤ × ℤ) (had : Bool) (p : Pool World Rep Task Result) :
    Act Link Environ → Prop
  | .run j l => j ≠ i → LeavesSeat seat had p (.run j l)
  | a => LeavesSeat seat had p a

/-- The command does not end the request where it has set the key of the seat: no connection breaks
in the loop or under the `DEL` of the key, and the row behind a conflict is for the same purchase. -/
def Cleans (request : PaymentRequest) (seat : ℤ × ℤ) (had : Bool) (l : Link) (s : World) :
    Cmd → Prop
  | .redis (.setCheckoutNx scheduleId seatId _ _) =>
      (¬ AsFound seat had s → l = .ok) ∧
        (seat = (scheduleId, seatId) → s.redis.inCheckout seat = false → l ≠ .unacked)
  | .redis (.getCheckout _ _) => ¬ AsFound seat had s → l = .ok
  | .redis (.delCheckout scheduleId seatId) =>
      seat = (scheduleId, seatId) → ¬ AsFound seat had s → l ≠ .lost
  | .findRequest userId idempotencyKey =>
      ¬ AsFound seat had s → l = .ok ∧
        ∃ row ∈ s.pg.findRequest userId idempotencyKey,
          samePaymentIntent row.scheduleId row.seatIds request.scheduleId request.seatIds = true
  | _ => True

/-- The commands of session `i` clean up, and the others leave the key alone. -/
def CleansUp (i : ℕ) (request : PaymentRequest) (seat : ℤ × ℤ) (had : Bool)
    (p : Pool World Rep Task Result) : Act Link Environ → Prop
  | .run j l =>
      if j = i then
        Machine.Permits (fun _ _ l c s => Cleans request seat had l s c) j l p.store p.threads[j]?
      else
        LeavesSeat seat had p (.run j l)
  | a => LeavesSeat seat had p a

section Decidable

variable {i : ℕ} {request : PaymentRequest} {seat : ℤ × ℤ} {had : Bool}
variable (p : Pool World Rep Task Result)

instance (a : Act Link Environ) : Decidable (LeavesSeat seat had p a) := by
  unfold LeavesSeat
  split <;> infer_instance

instance (a : Act Link Environ) : Decidable (OthersLeave i seat had p a) := by
  unfold OthersLeave
  split <;> infer_instance

instance (l : Link) (c : Cmd) (s : World) : Decidable (Cleans request seat had l s c) := by
  unfold Cleans
  split <;> infer_instance

instance (a : Act Link Environ) : Decidable (CleansUp i request seat had p a) := by
  unfold CleansUp
  split
  · next j l =>
    have hown : Decidable (Machine.Permits (fun _ _ l c s => Cleans request seat had l s c) j l
      p.store p.threads[j]?) := inferInstance
    infer_instance
  · infer_instance

end Decidable

/-! ## Commands -/

section Commands

variable {n : Task} {i : ℕ} {l : Link} {s t : World}

/-- Commands that write no checkout key. -/
def Spares : Cmd → Prop
  | .redis (.setCheckoutNx ..) | .redis (.delCheckout ..) => False
  | _ => True

theorem spares_exec {seat : ℤ × ℤ} {had : Bool} {c : Cmd} {r : Rep c} (hc : Spares c)
    (h : exec i l c s = some (t, r)) (hs : AsFound seat had s) : AsFound seat had t := by
  rcases redis_exec h with ⟨k, rfl, rfl⟩ | ⟨-, heq⟩
  · by_cases hl : l = .lost
    · show Redis.inCheckout (if l = .lost then _ else _) seat = had
      rw [if_pos hl]
      exact hs
    · show Redis.inCheckout (if l = .lost then _ else _) seat = had
      rw [if_neg hl, Redis.effect_inCheckout_eq]
      · exact hs
      · rintro owner ttlSec rfl
        exact hc
      · rintro rfl
        exact hc
  · show t.redis.inCheckout seat = had
    rw [heq]
    exact hs

end Commands

/-! ## The keys a request has set -/

/-- The request has set the keys of the seats in `created`: the key it has found is none of them, and
any other is as it found it. -/
structure Held (scheduleId : ℤ) (created : List ℤ) (seat : ℤ × ℤ) (had : Bool) (s : World) :
    Prop where
  found : (∀ seatId ∈ created, seat ≠ (scheduleId, seatId)) → AsFound seat had s
  fresh : had = true → ∀ seatId ∈ created, seat ≠ (scheduleId, seatId)

section Held

variable {scheduleId seatId : ℤ} {created : List ℤ} {seat : ℤ × ℤ} {had : Bool}
variable {i : ℕ} {l : Link} {s t : World}

theorem Held.nil (h : AsFound seat had s) : Held scheduleId [] seat had s :=
  ⟨fun _ => h, fun _ _ hmem => absurd hmem List.not_mem_nil⟩

/-- It survives what leaves the key alone. -/
theorem Held.mono (h : Held scheduleId created seat had s)
    (hst : AsFound seat had s → AsFound seat had t) : Held scheduleId created seat had t :=
  ⟨fun hnone => hst (h.found hnone), h.fresh⟩

/-- One more key, which was not there. -/
theorem Held.append (h : Held scheduleId created seat had s)
    (habsent : s.redis.inCheckout (scheduleId, seatId) = false)
    (hst : seat ≠ (scheduleId, seatId) → t.redis.inCheckout seat = s.redis.inCheckout seat) :
    Held scheduleId (created ++ [seatId]) seat had t := by
  constructor
  · intro hnone
    have hrest : ∀ k ∈ created, seat ≠ (scheduleId, k) :=
      fun k hk => hnone k (List.mem_append_left _ hk)
    have hne : seat ≠ (scheduleId, seatId) :=
      hnone seatId (List.mem_append_right _ (List.mem_singleton_self seatId))
    exact (hst hne).trans (h.found hrest)
  · intro hhad k hk
    rcases List.mem_append.1 hk with hk | hk
    · exact h.fresh hhad k hk
    · -- the seat had a key and still has, so it was not set
      intro heq
      obtain rfl := List.mem_singleton.1 hk
      have hfound : s.redis.inCheckout seat = had := h.found (h.fresh hhad)
      rw [heq, habsent, hhad] at hfound
      cases hfound

/-- A key is set where there was none, and left as it was where there was one. -/
theorem setCheckoutNx_cases (scheduleId seatId : ℤ) (owner : ℤ × String) (ttlSec : ℕ) (s : Redis) :
    (s.inCheckout (scheduleId, seatId) = true ∧
        Redis.setCheckoutNx scheduleId seatId owner ttlSec s = (s, false)) ∨
      (s.inCheckout (scheduleId, seatId) = false ∧
        (Redis.setCheckoutNx scheduleId seatId owner ttlSec s).2 = true) := by
  unfold Redis.inCheckout Redis.setCheckoutNx
  cases s.seatCheckout.lookup s.now (scheduleId, seatId) with
  | some v => exact .inl ⟨rfl, rfl⟩
  | none => exact .inr ⟨rfl, rfl⟩

/-- What the request knows after it has tried to set a key. -/
def AfterSet (scheduleId seatId : ℤ) (created : List ℤ) (seat : ℤ × ℤ) (had : Bool) (s : World) :
    Option Bool → Prop
  | none => AsFound seat had s
  | some true => Held scheduleId (created ++ [seatId]) seat had s
  | some false => Held scheduleId created seat had s

theorem setCheckoutNx_step {request : PaymentRequest} {owner : ℤ × String} {ttlSec : ℕ}
    {r : Option Bool} (h : Held scheduleId created seat had s)
    (hl : Cleans request seat had l s (.redis (.setCheckoutNx scheduleId seatId owner ttlSec)))
    (hex : exec i l (.redis (.setCheckoutNx scheduleId seatId owner ttlSec)) s = some (t, r)) :
    AfterSet scheduleId seatId created seat had t r := by
  obtain ⟨hok, hacked⟩ := hl
  obtain ⟨rfl, rfl⟩ := Prod.mk.inj (Option.some.inj hex)
  have hother : seat ≠ (scheduleId, seatId) →
      (Redis.setCheckoutNx scheduleId seatId owner ttlSec s.redis).1.inCheckout seat =
        s.redis.inCheckout seat := by
    intro hne
    have hspared : ((Redis.Cmd.setCheckoutNx scheduleId seatId owner ttlSec).effect
        s.redis).inCheckout seat = s.redis.inCheckout seat := by
      apply Redis.effect_inCheckout_eq
      · intro owner' ttlSec' heq
        injection heq with hschedule hseat
        exact hne (Prod.ext hschedule.symm hseat.symm)
      · nofun
    exact hspared
  have hset := setCheckoutNx_cases scheduleId seatId owner ttlSec s.redis
  cases l with
  | ok =>
      rcases hset with ⟨-, heq⟩ | ⟨habsent, htrue⟩
      · show AfterSet _ _ _ _ _ { s with redis := (Redis.setCheckoutNx _ _ _ _ s.redis).1 }
          (some (Redis.setCheckoutNx _ _ _ _ s.redis).2)
        rw [heq]
        exact h
      · show AfterSet _ _ _ _ _ { s with redis := (Redis.setCheckoutNx _ _ _ _ s.redis).1 }
          (some (Redis.setCheckoutNx _ _ _ _ s.redis).2)
        rw [htrue]
        exact h.append habsent hother
  | lost =>
      -- the loop gives up, and the key is not one of those it has set
      by_contra hleft
      exact absurd (hok hleft) (by decide)
  | unacked =>
      have hfound : AsFound seat had s := by
        by_contra hleft
        exact absurd (hok hleft) (by decide)
      show (Redis.setCheckoutNx _ _ _ _ s.redis).1.inCheckout seat = had
      rcases hset with ⟨-, heq⟩ | ⟨habsent, -⟩
      · rw [heq]
        exact hfound
      · have hne : seat ≠ (scheduleId, seatId) := by
          rintro rfl
          exact hacked rfl habsent rfl
        exact (hother hne).trans hfound

/-- Where a key has been deleted, there is one less to delete. -/
theorem delCheckout_step {request : PaymentRequest} {r : Option Unit}
    (h : Held scheduleId (seatId :: created) seat had s)
    (hl : Cleans request seat had l s (.redis (.delCheckout scheduleId seatId)))
    (hex : exec i l (.redis (.delCheckout scheduleId seatId)) s = some (t, r)) :
    Held scheduleId created seat had t := by
  have hfresh : had = true → ∀ k ∈ created, seat ≠ (scheduleId, k) :=
    fun hhad k hk => h.fresh hhad k (List.mem_cons_of_mem seatId hk)
  refine ⟨fun hnone => ?_, hfresh⟩
  obtain ⟨rfl, -⟩ := Prod.mk.inj (Option.some.inj hex)
  show (Redis.exec l (.delCheckout scheduleId seatId) s.redis).1.inCheckout seat = had
  rw [Redis.exec_fst]
  by_cases hseat : seat = (scheduleId, seatId)
  · have habsent : had = false :=
      Bool.eq_false_iff.2 fun hhad => h.fresh hhad seatId List.mem_cons_self hseat
    split_ifs with hlost
    · by_contra hleft
      exact hl hseat hleft hlost
    · rw [habsent, hseat]
      exact Redis.inCheckout_delCheckout
  · have hfound : AsFound seat had s :=
      h.found fun k hk => (List.mem_cons.1 hk).elim (fun heq => heq ▸ hseat) (hnone k)
    split_ifs
    · exact hfound
    · rw [Redis.effect_inCheckout_eq]
      · exact hfound
      · nofun
      · intro heq
        injection heq with hschedule hk
        exact hseat (Prod.ext hschedule.symm hk.symm)

end Held

/-! ## The request -/

/-- The session of the request relies on it that the others leave the key of the seat alone. -/
def leaving (i : ℕ) (request : PaymentRequest) (seat : ℤ × ℤ) (had : Bool) :
    Contract World Rep Task Link where
  inv _ := True
  rely j s t := j = i → AsFound seat had s → AsFound seat had t
  guar _ _ _ := True
  allowed _ j l c s := j = i → Cleans request seat had l s c
  rely_refl _ _ _ h := h
  rely_trans _ _ _ _ hst htu hj h := htu hj (hst hj h)

section Request

variable {i : ℕ} {request : PaymentRequest} {seat : ℤ × ℤ} {had : Bool} {n : Task} {s : World}

theorem honours_own {t u : World} : (leaving i request seat had).Honours n i t u :=
  ⟨trivial, trivial, fun _ hj heq => absurd heq hj⟩

/-- Commands that write no checkout key come first. -/
theorem sparing_bind {β γ : Type} {p : Service β} {f : β → Service γ} {Q : γ → World → Prop}
    (hp : p.Issues Spares)
    (h : ∀ b t, (leaving i request seat had).rely i s t →
      (leaving i request seat had).Ensures exec n i Q (f b) t) :
    (leaving i request seat had).Ensures exec n i Q (p >>= f) s :=
  .bind_of_issues (fun _ hc _ _ _ _ _ _ hex => ⟨honours_own, fun _ => spares_exec hc hex⟩) hp h

theorem sparing_perform {c : Cmd} (hc : Spares c) :
    (Prog.perform c : Service (Rep c)).Issues Spares :=
  ⟨hc, fun _ => trivial⟩

/-- The keys that the request has set are deleted. -/
theorem ensures_delCheckouts {scheduleId : ℤ} {created : List ℤ}
    (h : Held scheduleId created seat had s) :
    (leaving i request seat had).Ensures exec n i (fun _ t => AsFound seat had t)
      (delCheckouts scheduleId created) s := by
  induction created generalizing s with
  | nil =>
      have hfound : AsFound seat had s := h.found fun k hk => absurd hk List.not_mem_nil
      exact .ret fun t hst _ => hst rfl hfound
  | cons seatId created ih =>
      apply Contract.Ensures.call
      intro t hst _ l hl u r hex
      exact ⟨honours_own, ih (delCheckout_step (h.mono (hst rfl)) (hl rfl) hex)⟩

/-- The loop fails where it has left the key as it was, or reports the keys it has set. -/
theorem ensures_holdCheckouts {scheduleId : ℤ} {owner : ℤ × String} {seatIds created : List ℤ}
    (h : Held scheduleId created seat had s) :
    (leaving i request seat had).Ensures exec n i
      (fun r t => match r with
        | .ok created => Held scheduleId created seat had t
        | .error _ => AsFound seat had t)
      (holdCheckouts scheduleId owner seatIds created) s := by
  induction seatIds generalizing created s with
  | nil => exact .ret fun t hst _ => h.mono (hst rfl)
  | cons seatId seatIds ih =>
      apply Contract.Ensures.call
      intro t hst _ l hl u r hex
      refine ⟨honours_own, ?_⟩
      have hafter := setCheckoutNx_step (h.mono (hst rfl)) (hl rfl) hex
      match r with
      | none => exact .ret fun v huv _ => huv rfl hafter
      | some true => exact ih hafter
      | some false =>
          apply Contract.Ensures.call
          intro v huv _ l hl w r hex
          refine ⟨honours_own, ?_⟩
          have hheld : Held scheduleId created seat had v := Held.mono hafter (huv rfl)
          have hw : AsFound seat had v → AsFound seat had w :=
            spares_exec (c := .redis (.getCheckout scheduleId seatId)) trivial hex
          match r, hex with
          | none, hex =>
              -- the key was not read, so the connection broke
              have hfound : AsFound seat had v := by
                by_contra hleft
                obtain rfl : l = .ok := hl rfl hleft
                cases hex
              exact .ret fun x hwx _ => hwx rfl (hw hfound)
          | some current, _ =>
              show (leaving i request seat had).Ensures exec n i _
                (if current = some owner then _ else _) w
              split_ifs
              · exact ih (hheld.mono hw)
              · apply Contract.Ensures.bind
                exact (ensures_delCheckouts (hheld.mono hw)).weaken fun _ x hx =>
                  .ret fun y hxy _ => hxy rfl hx

theorem sparing_insertTransaction (row : RequestRow) (message : CheckoutMessage) :
    (insertTransaction row message).Issues Spares := by
  refine ⟨trivial, fun r => ?_⟩
  cases r with
  | none => exact ⟨trivial, fun _ => trivial⟩
  | some inserted =>
      show Prog.Issues Spares (if inserted = 1 then _ else _)
      split_ifs
      · refine ⟨trivial, fun r => ?_⟩
        cases r with
        | none => exact ⟨trivial, fun _ => trivial⟩
        | some _ => exact ⟨trivial, fun r => by cases r <;> trivial⟩
      · exact ⟨trivial, fun r => by cases r <;> trivial⟩

/-- A failed request leaves the key as it found it. -/
abbrev FailsClean (i : ℕ) (request : PaymentRequest) (seat : ℤ × ℤ) (had : Bool) (n : Task)
    (p : Service (Except AppError PaymentAccepted)) (s : World) : Prop :=
  (leaving i request seat had).Ensures exec n i (fun r t => ∀ e, r = .error e → AsFound seat had t)
    p s

theorem failsClean_ok {accepted : PaymentAccepted} :
    FailsClean i request seat had n (.ret (.ok accepted)) s :=
  .ret fun _ _ _ _ heq => nomatch heq

theorem failsClean_ret {r : Except AppError PaymentAccepted} (h : AsFound seat had s) :
    FailsClean i request seat had n (.ret r) s :=
  .ret fun _ hst _ _ _ => hst rfl h

variable {userId : ℤ} {id : ℕ}

theorem failsClean_storeRequest {amount : ℚ} (h : AsFound seat had s) :
    FailsClean i request seat had n (storeRequest userId request id amount) s := by
  refine sparing_bind (sparing_perform trivial) fun r t hst => ?_
  have ht : AsFound seat had t := hst rfl h
  match r with
  | none => exact failsClean_ret ht
  | some () =>
  apply Contract.Ensures.bind
  apply (ensures_holdCheckouts (Held.nil ht)).weaken
  intro r u hu
  match r with
  | .error e => exact failsClean_ret hu
  | .ok created =>
  refine sparing_bind (sparing_insertTransaction _ _) fun r v huv => ?_
  have hv : Held request.scheduleId created seat had v := Held.mono hu (huv rfl)
  match r with
  | none =>
      apply Contract.Ensures.bind
      exact (ensures_delCheckouts hv).weaken fun _ w hw => failsClean_ret hw
  | some inserted =>
  show FailsClean i request seat had n (if inserted = 1 then _ else _) v
  split_ifs
  · exact failsClean_ok
  · apply Contract.Ensures.call
    intro w _ _ l hl x r hex
    refine ⟨honours_own, ?_⟩
    have hx : AsFound seat had w → AsFound seat had x :=
      spares_exec (c := .findRequest userId request.idempotencyKey) trivial hex
    by_cases hfound : AsFound seat had w
    · -- every exit is clean
      match r with
      | none => exact failsClean_ret (hx hfound)
      | some none => exact failsClean_ret (hx hfound)
      | some (some existing) => exact failsClean_ret (hx hfound)
    · obtain ⟨rfl, row, hrow, hsame⟩ := hl rfl hfound
      have hr : r = some (some row) :=
        calc r = some (w.pg.findRequest userId request.idempotencyKey) :=
              (Prod.mk.inj (Option.some.inj hex)).2.symm
          _ = some (some row) := congrArg some hrow
      subst hr
      show FailsClean i request seat had n (.ret ((acceptExisting request row).map _)) x
      rw [acceptExisting, if_pos hsame]
      exact failsClean_ok

theorem sparing_checkSeatLocks (scheduleId userId : ℤ) (seatIds : List ℤ) :
    (onRedis (Locks.checkSeatLocks scheduleId userId seatIds)).Issues Spares := by
  have hreads : (Locks.checkSeatLocks scheduleId userId seatIds).Issues
      fun c => Spares (.redis c) := by
    induction seatIds with
    | nil => trivial
    | cons seatId seatIds ih =>
        apply Prog.Issues.bind
        · refine ⟨trivial, fun r => ?_⟩
          match r with
          | none => trivial
          | some () => exact ⟨trivial, fun _ => trivial⟩
        · intro held
          cases held with
          | true => exact ih
          | false => trivial
  exact Prog.Issues.hoist _ (hreads.mono fun c hc => ⟨hc, fun _ => trivial⟩)

theorem failsClean_requestPayment {provider : Provider} (h : AsFound seat had s) :
    FailsClean i request seat had n (requestPayment provider userId request id) s := by
  unfold requestPayment
  split
  · exact failsClean_ret h
  split
  · exact failsClean_ret h
  refine sparing_bind (sparing_perform trivial) fun r t hst => ?_
  have ht : AsFound seat had t := hst rfl h
  match r with
  | none => exact failsClean_ret ht
  | some () =>
  refine sparing_bind (sparing_perform trivial) fun r u htu => ?_
  have hu : AsFound seat had u := htu rfl ht
  match r with
  | none => exact failsClean_ret hu
  | some (some existing) => exact failsClean_ret hu
  | some none =>
  refine sparing_bind (sparing_checkSeatLocks _ _ _) fun r v huv => ?_
  have hv : AsFound seat had v := huv rfl hu
  match r with
  | .error message => exact failsClean_ret hv
  | .ok () =>
  refine sparing_bind (sparing_perform trivial) fun r w hvw => ?_
  have hw : AsFound seat had w := hvw rfl hv
  match r with
  | none => exact failsClean_ret hw
  | some dbSeats =>
  dsimp only
  cases checkSeats request dbSeats with
  | error e => exact failsClean_ret hw
  | ok _ => exact failsClean_storeRequest hw

theorem failsClean_requestTask {provider : Provider} (h : AsFound seat had s) :
    (leaving i request seat had).Ensures exec n i
      (fun b t => ∀ e, b = .response (.error e) → AsFound seat had t)
      (requestTask provider userId request id) s := by
  apply Contract.Ensures.bind
  apply (failsClean_requestPayment h).weaken
  intro r t ht
  exact .ret fun u htu _ e heq => htu rfl (ht e (Result.response.inj heq))

end Request

section Runs

variable {i : ℕ} {seat : ℤ × ℤ} {had : Bool} {p q : Pool World Rep Task Result}
variable {provider : Provider} {userId : ℤ} {request : PaymentRequest} {id : ℕ}

/-- Steps of the others leave the key as the request has found it. -/
theorem asFound_others {a : Act Link Environ} (ha : ∀ l, a ≠ .run i l)
    (hG : CleansUp i request seat had p a) (hst : machine.step p a = some q) :
    AsFound seat had p.store → AsFound seat had q.store := by
  have hleaves : LeavesSeat seat had p a := by
    cases a with
    | run j l =>
        have hj : j ≠ i := fun heq => ha l (by rw [heq])
        rwa [CleansUp, if_neg hj] at hG
    | environ x => exact hG
    | crash j => exact hG
  unfold LeavesSeat at hleaves
  rwa [hst] at hleaves

/-- A payment request that fails leaves the checkout key of every seat as it found it, unless a
connection breaks where it has set the key, or the row behind a conflict cannot be read or is for
another purchase. -/
theorem failed_request_leaves_seat {e : AppError}
    (hrun : p.Runs i (.request userId request id) (requestTask provider userId request id))
    (hq : (machine.system.startingAt p).ReachableUnder
      (CleansUp i request seat (p.store.redis.inCheckout seat)) q)
    (hdone : q.Runs i (.request userId request id) (.ret (.response (.error e)))) :
    q.store.redis.inCheckout seat = p.store.redis.inCheckout seat := by
  have hown : ∀ (p' : Pool World Rep Task Result) (l : Link) (c : Cmd)
      (k : Rep c → Service Result),
      CleansUp i request seat (p.store.redis.inCheckout seat) p' (.run i l) →
        p'.Runs i (.request userId request id) (.call c k) →
        (leaving i request seat (p.store.redis.inCheckout seat)).allowed
          (.request userId request id) i l c p'.store := by
    intro p' l c k hG hr _
    rw [CleansUp, if_pos rfl, show p'.threads[i]? = _ from hr] at hG
    exact hG
  have hfound : AsFound seat (p.store.redis.inCheckout seat) p.store := rfl
  obtain ⟨-, -, hthread⟩ := Machine.ensures_of_thread
    (K := leaving i request seat (p.store.redis.inCheckout seat)) hown
    (fun p q a ha _ hG hst => ⟨trivial, fun _ => asFound_others ha hG hst⟩)
    trivial hrun (failsClean_requestTask hfound) hq
  exact (hthread _ _ hdone).2 q.store (fun _ h => h) trivial e rfl

end Runs

/-! ### Two seats -/

def twoSeats : List SeatRow := [⟨1, 1, 100, .available⟩, ⟨2, 1, 100, .available⟩]

def twoSeatRequest : PaymentRequest := ⟨1, [1, 2], "key", none, none, none⟩

/-- The pool in which the user who holds both seats asks to pay for them. -/
def requesting (p : Pool World Rep Task Result) : Pool World Rep Task Result :=
  ⟨p.store, p.threads ++ Machine.start [(.request 42 twoSeatRequest 10,
    requestTask ⟨"secret", fun _ _ => ""⟩ 42 twoSeatRequest 10)]⟩

theorem reachable_requesting {p : Pool World Rep Task Result} (h : machine.system.Reachable p) :
    machine.system.Reachable (requesting p) ∧
      (requesting p).Runs p.threads.length (.request 42 twoSeatRequest 10)
        (requestTask ⟨"secret", fun _ _ => ""⟩ 42 twoSeatRequest 10) := by
  constructor
  · exact .step (a := .environ (.request ⟨"secret", fun _ _ => ""⟩ 42 twoSeatRequest 10)) h trivial
      rfl
  · show (p.threads ++ _)[p.threads.length]? = _
    rw [List.getElem?_append_right (Nat.le_refl _), Nat.sub_self]
    rfl

/-- The request has failed. -/
def Failed (i : ℕ) (q : Pool World Rep Task Result) : Prop :=
  match q.result i with
  | some (.request userId request id, .response (.error _)) =>
      userId = 42 ∧ request = twoSeatRequest ∧ id = 10
  | _ => False

instance {i : ℕ} {q : Pool World Rep Task Result} : Decidable (Failed i q) := by
  unfold Failed
  split <;> infer_instance

theorem runs_of_failed {i : ℕ} {q : Pool World Rep Task Result} (h : Failed i q) :
    ∃ e, q.Runs i (.request 42 twoSeatRequest 10) (.ret (.response (.error e))) := by
  unfold Failed at h
  split at h
  · next e heq =>
    obtain ⟨rfl, rfl, rfl⟩ := h
    exact ⟨e, Pool.result_eq_some.1 heq⟩
  · exact h.elim

/-- The locks of both seats, taken one after the other. -/
def locksSeats : List (Act Link Environ) :=
  .environ (.onRedis (SingleNodeLock.acquireSeatLockLua 1 1 42 300)) ::
    .environ (.onRedis (SingleNodeLock.acquireSeatLockLua 1 2 42 300)) ::
    [.run 0 .ok, .run 0 .ok, .run 0 .ok, .run 1 .ok, .run 1 .ok, .run 1 .ok]

/-- A run in which the request fails, and what it leaves of the first seat's key. -/
theorem exists_failed (G : Pool World Rep Task Result → Act Link Environ → Prop)
    [∀ p a, Decidable (G p a)] (i : ℕ) (before after : List (Act Link Environ)) (left : Bool)
    (h : (machine.system.run ⟨newWorld twoSeats, []⟩ before).any (fun p => decide
      (p.threads.length = i ∧ p.store.redis.inCheckout (1, 1) = false ∧
        (machine.system.runUnder G (requesting p) after).any (fun q => decide
          (Failed i q ∧ q.store.redis.inCheckout (1, 1) = left)) = true)) = true) :
    ∃ p q e, machine.system.Reachable p ∧
      p.Runs i (.request 42 twoSeatRequest 10)
        (requestTask ⟨"secret", fun _ _ => ""⟩ 42 twoSeatRequest 10) ∧
      (machine.system.startingAt p).ReachableUnder G q ∧
      q.Runs i (.request 42 twoSeatRequest 10) (.ret (.response (.error e))) ∧
      p.store.redis.inCheckout (1, 1) = false ∧ q.store.redis.inCheckout (1, 1) = left := by
  obtain ⟨p, hp, htest⟩ := System.exists_reachable_of_run machine.system _
    (s := ⟨newWorld twoSeats, []⟩) ⟨⟨_, by decide, rfl⟩, rfl⟩ _ h
  obtain ⟨hlength, hfree, hrun⟩ := of_decide_eq_true htest
  obtain ⟨hreach, hruns⟩ := reachable_requesting hp
  rw [hlength] at hruns
  obtain ⟨q, hq, hend⟩ := (Option.any_eq_true _ _).1 hrun
  obtain ⟨hfailed, hleft⟩ := of_decide_eq_true hend
  rw [← machine.system.runUnder_startingAt _ (requesting p)] at hq
  obtain ⟨e, he⟩ := runs_of_failed hfailed
  exact ⟨requesting p, q, e, hreach, hruns, .runUnder (.init rfl) hq, he, hfree, hleft⟩

/-- The second seat is in another user's checkout: the key of the first is set and deleted. -/
theorem failed_request_leaves_seat_taken :
    ∃ (p q : Pool World Rep Task Result) (e : AppError), machine.system.Reachable p ∧
      q.Runs 3 (.request 42 twoSeatRequest 10) (.ret (.response (.error e))) ∧
      q.store.redis.inCheckout (1, 1) = p.store.redis.inCheckout (1, 1) := by
  obtain ⟨p, q, e, hp, hrun, hq, hdone, hfree, -⟩ := exists_failed
    (CleansUp 3 twoSeatRequest (1, 1) false) 3
    (locksSeats ++ [.environ (.onRedis do
      let _ ← Prog.perform (Redis.Cmd.setCheckoutNx 1 2 (7, "other") 300)
      pure true), .run 2 .ok])
    ((List.range 12).map fun _ => .run 3 .ok) false (by decide +kernel)
  rw [← hfree] at hq
  exact ⟨p, q, e, hp, hdone, failed_request_leaves_seat hrun hq hdone⟩

/-- The connection breaks at the second seat: the request fails, and the first stays in checkout. -/
theorem failed_request_leaves_key :
    ¬ ∀ (p q : Pool World Rep Task Result) (i : ℕ) (provider : Provider) (userId : ℤ)
        (request : PaymentRequest) (id : ℕ) (seat : ℤ × ℤ) (e : AppError),
      machine.system.Reachable p →
        p.Runs i (.request userId request id) (requestTask provider userId request id) →
        (machine.system.startingAt p).ReachableUnder
          (OthersLeave i seat (p.store.redis.inCheckout seat)) q →
        q.Runs i (.request userId request id) (.ret (.response (.error e))) →
        q.store.redis.inCheckout seat = p.store.redis.inCheckout seat := by
  intro hall
  obtain ⟨p, q, e, hp, hrun, hq, hdone, hfree, hleft⟩ := exists_failed
    (OthersLeave 2 (1, 1) false) 2 locksSeats
    (((List.range 9).map fun _ => .run 2 .ok) ++ [.run 2 .lost]) true (by decide +kernel)
  rw [← hfree] at hq
  have hsame := hall p q 2 _ 42 twoSeatRequest 10 (1, 1) e hp hrun hq hdone
  rw [hleft, hfree] at hsame
  cases hsame

end Payments
end Bookit

import Bookit.Gateway.AskedCancellations
import Bookit.Gateway.FreeSlots
import Bookit.Web.RoomEvents
import Bookit.Web.SeatMap

/-!
# Gateway.Rebooking — the seats of a cancelled order

A cancellation makes the rows of its seats available, and its event frees their slots in the gateway.
The field that the checkout has set to booked is not written, and the seat map shows the field.
-/

namespace Bookit
namespace Gateway

open Lib
open Payments (OrderRow CancellationMessage SeatRow)

/-- A delivery of a cancellation from its transaction on. -/
def committing (message : CancellationMessage) : Service Result :=
  forget (onServices (Payments.commitAndAnnounce message))

/-- The event of a cancellation. -/
def announcement (message : CancellationMessage) : Channel × Json :=
  (.room message.scheduleId,
    Payments.roomEvent "seat_unlocked" message.seatIds message.userId)

/-- The seats of the order can be booked again: their rows are available and their fields `00`, the
seat map shows them as available whether or not it is given a snapshot, and every replica that has
handled the events admits requests for them. -/
structure Rebookable (o : OrderRow) (s : World) : Prop where
  rows : ∀ r ∈ s.services.pg.seats, r.id ∈ o.seatIds → r.status = .available
  fields : ∀ k ∈ o.seatIds, s.services.redis.bitmap (o.scheduleId, k) = .available
  shown : ∀ bitmap : Option (List UInt8),
    (∀ snapshot ∈ bitmap, Web.Snapshot snapshot s.services.redis o.scheduleId) →
      ∀ seatLock, ∀ seat ∈ Web.getScheduleSeats o.scheduleId s.services.pg.seats bitmap seatLock,
        seat.id ∈ o.seatIds → seat.status = "Available"
  admitted : ∀ g, (s.gateways g).handled = s.services.redis.published.length →
    ∀ k ∈ o.seatIds, (s.gateways g).available o.scheduleId k = true

/-! ## The condition -/

/-- A command that writes the row of a seat, or its field. -/
def WritesSeat (scheduleId : ℤ) (seatIds : List ℤ) (s : World) : Cmd → Prop
  | .service (.redis k) =>
      match k.writes s.services.redis with
      | none => False
      | some (field, _) => field.1 = scheduleId ∧ field.2 ∈ seatIds
  | .service (.commitCheckout c) => ∃ k ∈ c.seatIds, k ∈ seatIds
  | .service (.commitCancellation c) => ∃ k ∈ c.seatIds, k ∈ seatIds
  | _ => False

instance {scheduleId : ℤ} {seatIds : List ℤ} {s : World} {c : Cmd} :
    Decidable (WritesSeat scheduleId seatIds s c) := by
  unfold WritesSeat
  rcases c with c | _
  · rcases c with k | _
    · dsimp only
      rcases k.writes s.services.redis with _ | _ <;> infer_instance
    all_goals infer_instance
  all_goals infer_instance

/-- The commands of session `i` get through, and no other session does anything to the seats. -/
def LeavesSeats (i : ℕ) (message : CancellationMessage) (_ : Task) (j : ℕ) (l : Link) (c : Cmd)
    (s : World) : Prop :=
  if j = i then
    l = .ok
  else
    ¬Claims message.seatIds s c ∧ ¬WritesSeat message.scheduleId message.seatIds s c

instance {i : ℕ} {message : CancellationMessage} {n : Task} {j : ℕ} {l : Link} {c : Cmd}
    {s : World} : Decidable (LeavesSeats i message n j l c s) := by
  unfold LeavesSeats
  infer_instance

def LeavesSeatsRun (i : ℕ) (message : CancellationMessage) (p : Pool World Rep Task Result)
    (a : Act Link Environ) : Prop :=
  Machine.Guarded (LeavesSeats i message) (fun _ _ => True) p a

instance {i : ℕ} {message : CancellationMessage} {p : Pool World Rep Task Result}
    {a : Act Link Environ} : Decidable (LeavesSeatsRun i message p a) :=
  inferInstanceAs (Decidable (Machine.Guarded _ _ p a))

/-! ## What is left of the seats -/

/-- No row of the seats was written, nor their fields, and events were published at most. -/
structure SeatsKept (message : CancellationMessage) (s t : World) : Prop where
  rows : ∀ r ∈ t.services.pg.seats, r.id ∈ message.seatIds → r ∈ s.services.pg.seats
  fields : ∀ k ∈ message.seatIds, t.services.redis.bitmap (message.scheduleId, k) =
    s.services.redis.bitmap (message.scheduleId, k)
  published : s.services.redis.published <+: t.services.redis.published

/-- Where the event of the cancellation has been handled since there were `m₀` events, the slots of
its seats are free. -/
structure Heard (message : CancellationMessage) (m₀ : ℕ) (s : World) : Prop extends Listens s where
  free : ∀ g m, m₀ ≤ m → m < (s.gateways g).handled →
    s.services.redis.published[m]? = some (announcement message) →
      ∀ k ∈ message.seatIds, (s.gateways g).available message.scheduleId k = true

/-- The seats are released: their rows are available, their fields as they were in `s`, and the event
is published. -/
structure Released (message : CancellationMessage) (m₀ : ℕ) (s t : World) : Prop where
  rows : ∀ r ∈ t.services.pg.seats, r.id ∈ message.seatIds → r.status = .available
  fields : ∀ k ∈ message.seatIds, t.services.redis.bitmap (message.scheduleId, k) =
    s.services.redis.bitmap (message.scheduleId, k)
  published : ∃ m, m₀ ≤ m ∧ t.services.redis.published[m]? = some (announcement message)

section Steps

variable {message : CancellationMessage} {m₀ : ℕ} {i : ℕ} {l : Link} {c : Cmd} {s t u : World}
variable {r : Rep c}

theorem SeatsKept.refl (s : World) : SeatsKept message s s :=
  ⟨fun _ hr _ => hr, fun _ _ => rfl, List.prefix_refl _⟩

theorem SeatsKept.trans (h : SeatsKept message s t) (h' : SeatsKept message t u) :
    SeatsKept message s u :=
  ⟨fun r hr hk => h.rows r (h'.rows r hr hk) hk, fun k hk => (h'.fields k hk).trans (h.fields k hk),
    h.published.trans h'.published⟩

theorem clearedBy_announcement (message : CancellationMessage) :
    clearedBy (announcement message) = some (message.scheduleId, message.seatIds) :=
  congrArg (fun seatIds => some (message.scheduleId, seatIds))
    (Web.seatsOfEvent_roomEvent message.seatIds message.userId (.inl rfl))

/-- The rows of the seats after a transaction on other seats. -/
theorem mem_of_mem_setSeats {pg : Payments.Postgres} {seatIds : List ℤ}
    {status : Payments.SeatStatus} (hnot : ¬∃ k ∈ seatIds, k ∈ message.seatIds) :
    ∀ r ∈ pg.setSeats seatIds status, r.id ∈ message.seatIds → r ∈ pg.seats := by
  intro r hr hk
  rcases Table.mem_updateWhere_cases hr with ⟨hr, -⟩ | ⟨q, -, hq, rfl⟩
  · exact hr
  · exact absurd ⟨q.id, of_decide_eq_true hq, hk⟩ hnot

/-- Of the rows of seats, a command that writes none of these changes none of them. -/
theorem rows_exec {k : Payments.Cmd} {w v : Payments.World} {r : Payments.Rep k}
    (h : Payments.exec i l k w = some (v, r))
    (hcheckout : ∀ c, k = .commitCheckout c → ¬∃ k ∈ c.seatIds, k ∈ message.seatIds)
    (hcancel : ∀ c, k = .commitCancellation c → ¬∃ k ∈ c.seatIds, k ∈ message.seatIds) :
    ∀ r ∈ v.pg.seats, r.id ∈ message.seatIds → r ∈ w.pg.seats := by
  have hself : v.pg.seats = w.pg.seats →
      ∀ r ∈ v.pg.seats, r.id ∈ message.seatIds → r ∈ w.pg.seats := fun heq r hr _ => heq ▸ hr
  cases k with
  | redis c =>
      obtain ⟨rfl, -⟩ := Prod.mk.inj (Option.some.inj h)
      exact hself rfl
  | connect | findRequest | loadSeats | orderExists | findOrder | bookedCount | activeTicketCount =>
      obtain rfl : _ = v := congrArg Prod.fst (Option.some.inj h)
      exact hself (by rw [Payments.query_fst])
  | insertRequest row =>
      simp only [Payments.exec] at h
      split at h
      · obtain ⟨rfl, -⟩ := Prod.mk.inj (Option.some.inj h)
        exact hself rfl
      · split at h
        · cases h
        · next hins =>
          obtain ⟨rfl, -⟩ := Prod.mk.inj (Option.some.inj h)
          rcases Payments.insertRequest_cases hins with ⟨rfl, -⟩ | ⟨rfl, -⟩
          · exact hself rfl
          · exact hself rfl
  | commit =>
      have hcommit : (w.pg.commit i).seats = w.pg.seats := by
        unfold Payments.Postgres.commit
        split <;> rfl
      cases l with
      | ok | unacked =>
          obtain ⟨rfl, -⟩ := Prod.mk.inj (Option.some.inj h)
          exact hself hcommit
      | lost =>
          obtain ⟨rfl, -⟩ := Prod.mk.inj (Option.some.inj h)
          exact hself rfl
  | rollback =>
      obtain ⟨rfl, -⟩ := Prod.mk.inj (Option.some.inj h)
      exact hself rfl
  | commitCheckout c =>
      obtain rfl : (Payments.World.onPg l (Payments.Postgres.commitCheckout c) w).1 = v :=
        congrArg Prod.fst (Option.some.inj h)
      cases l with
      | lost => exact hself rfl
      | ok | unacked =>
          show ∀ r ∈ (w.pg.commitCheckout c).1.seats, _
          rcases Payments.commitCheckout_cases w.pg c with heq | ⟨-, heq⟩
          · rw [heq]
            exact fun r hr _ => hr
          · rw [heq]
            exact mem_of_mem_setSeats (hcheckout c rfl)
  | commitCancellation c =>
      rcases Link.deliver_cases (Option.some.inj h) with ⟨rfl, -⟩ | ⟨rfl, -⟩
      · exact hself rfl
      · exact mem_of_mem_setSeats (hcancel c rfl)
  | startCancellation id m =>
      have hstart : (w.pg.startCancellation id m).seats = w.pg.seats := by
        unfold Payments.Postgres.startCancellation
        split_ifs <;> rfl
      rcases Link.deliver_cases (Option.some.inj h) with ⟨rfl, -⟩ | ⟨rfl, -⟩
      · exact hself rfl
      · exact hself hstart
  | insertRequested | failRequest | refund =>
      rcases Link.deliver_cases (Option.some.inj h) with ⟨rfl, -⟩ | ⟨rfl, -⟩
      · exact hself rfl
      · exact hself rfl

/-- A command that writes none of the fields changes none of them. -/
theorem fields_exec (h : exec i l c s = some (t, r))
    (hc : ∀ k, c = .service (.redis k) → ∀ seatId ∈ message.seatIds, ∀ state,
      k.writes s.services.redis ≠ some ((message.scheduleId, seatId), state)) :
    ∀ seatId ∈ message.seatIds, t.services.redis.bitmap (message.scheduleId, seatId) =
      s.services.redis.bitmap (message.scheduleId, seatId) := by
  intro seatId hseat
  rcases redis_exec h with ⟨k, rfl, ht⟩ | ⟨-, heq⟩
  · rw [ht]
    dsimp only
    split_ifs
    · rfl
    · by_contra hne
      exact hc k rfl seatId hseat _ (Redis.effect_field hne)
  · rw [heq]

theorem seatsKept_exec (h : exec i l c s = some (t, r))
    (hc : ¬WritesSeat message.scheduleId message.seatIds s c) : SeatsKept message s t := by
  refine ⟨?_, fields_exec h ?_, published_exec h⟩
  · rcases services_exec h with ⟨k, r', rfl, hk⟩ | ⟨-, heq⟩
    · refine rows_exec hk ?_ ?_
      · rintro c rfl
        exact hc
      · rintro c rfl
        exact hc
    · rw [heq]
      exact fun r hr _ => hr
  · rintro k rfl seatId hseat state hwrites
    refine hc ?_
    simp only [WritesSeat, hwrites]
    exact ⟨trivial, hseat⟩

/-- The event frees the slots where it is handled, and only requests for the seats take them. -/
theorem heard_exec (hs : Heard message m₀ s) (h : exec i l c s = some (t, r))
    (hc : ¬Claims message.seatIds s c) : Heard message m₀ t := by
  refine ⟨listens_exec hs.toListens h, fun g m hm hlt hevent k hk => ?_⟩
  have hold : m < (s.gateways g).handled →
      s.services.redis.published[m]? = some (announcement message) := by
    intro hlt
    have hlen := Nat.lt_of_lt_of_le hlt (hs.handled g)
    obtain ⟨events, hevents⟩ := published_exec h
    rw [← hevents, List.getElem?_append_left hlen] at hevent
    exact hevent
  rcases keepsFree_exec (g := g) h hs.registered hc with ⟨event, hnext, hservices, hgate⟩ | hkeeps
  · rw [hgate, State.handled_handlePubsubMessage] at hlt
    rw [hgate]
    refine State.available_handlePubsubMessage ?_
    rcases Nat.lt_succ_iff_lt_or_eq.1 hlt with hlt | rfl
    · exact .inl (hs.free g m hm hlt (hold hlt) k hk)
    · rw [hservices] at hevent
      obtain rfl := Option.some.inj (hnext.symm.trans hevent)
      exact .inr ⟨_, clearedBy_announcement message, hk⟩
  · rw [hkeeps.handled] at hlt
    exact hkeeps.free _ k hk (hs.free g m hm hlt (hold hlt) k hk)

/-! ## The delivery -/

/-- The session of the delivery relies on it that the others leave its seats alone. -/
def rebooking (i : ℕ) (message : CancellationMessage) (m₀ : ℕ) : Contract World Rep Task Link where
  inv := Heard message m₀
  rely j s t := j = i → SeatsKept message s t
  guar _ _ _ := True
  allowed _ j l _ _ := j = i → l = .ok
  rely_refl _ s _ := .refl s
  rely_trans _ _ _ _ hst htu hj := (hst hj).trans (htu hj)

theorem honours_own {n : Task} (hs : Heard message m₀ s) (h : exec i l c s = some (t, r))
    (hc : ¬Claims message.seatIds s c) : (rebooking i message m₀).Honours n i s t :=
  ⟨heard_exec hs h hc, trivial, fun _ hj heq => absurd heq hj⟩

/-- What follows the transaction publishes the event and leaves the rows and the fields as they are. -/
theorem ensures_announcing {n : Task} (hm : m₀ ≤ s.services.redis.published.length)
    (hrows : ∀ r ∈ s.services.pg.seats, r.id ∈ message.seatIds → r.status = .available) :
    (rebooking i message m₀).Ensures exec n i (fun _ t => Released message m₀ s t)
      (forget (onServices (Payments.announceCancellation message >>= fun _ =>
        pure Payments.Verdict.ack))) s := by
  -- a Redis command of the delivery that writes no field
  have hstep : ∀ {k : Redis.Cmd} {t u : World} {r : Redis.Rep k}, SeatsKept message s t →
      Heard message m₀ t → (∀ s, k.writes s = none) →
      exec i .ok (.service (.redis k)) t = some (u, r) →
        (rebooking i message m₀).Honours n i t u ∧ SeatsKept message s u := by
    intro k t u r hst ht hk hex
    refine ⟨honours_own ht hex id, hst.trans (seatsKept_exec hex ?_)⟩
    simp only [WritesSeat, hk, not_false_iff]
  refine .call fun t₁ h₁ ht₁ l hl u₁ r hex => ?_
  obtain rfl := hl rfl
  obtain ⟨hu₁, hsu₁⟩ := hstep (h₁ rfl) ht₁ (fun _ => rfl) hex
  refine ⟨hu₁, ?_⟩
  obtain ⟨-, rfl⟩ := Prod.mk.inj (Option.some.inj hex)
  refine .call fun t₂ h₂ ht₂ l hl u₂ r hex => ?_
  obtain rfl := hl rfl
  obtain ⟨hu₂, hsu₂⟩ := hstep (hsu₁.trans (h₂ rfl)) ht₂ (fun _ => rfl) hex
  refine ⟨hu₂, ?_⟩
  refine .call fun t₃ h₃ ht₃ l hl u₃ r hex => ?_
  obtain rfl := hl rfl
  obtain ⟨hu₃, hsu₃⟩ := hstep (hsu₂.trans (h₃ rfl)) ht₃ (fun _ => rfl) hex
  refine ⟨hu₃, ?_⟩
  obtain ⟨-, rfl⟩ := Prod.mk.inj (Option.some.inj hex)
  refine .call fun t₄ h₄ ht₄ l hl u₄ r hex => ?_
  obtain rfl := hl rfl
  have hst₄ := hsu₃.trans (h₄ rfl)
  obtain ⟨hu₄, hsu₄⟩ := hstep hst₄ ht₄ (fun _ => rfl) hex
  refine ⟨hu₄, .ret fun t ht _ => ?_⟩
  have hst := hsu₄.trans (ht rfl)
  refine ⟨fun r hr hk => hrows r (hst.rows r hr hk) hk, hst.fields,
    t₄.services.redis.published.length, hm.trans hst₄.published.length_le, ?_⟩
  obtain ⟨rfl, -⟩ := Prod.mk.inj (Option.some.inj hex)
  obtain ⟨events, hevents⟩ := (ht rfl).published
  have hpublished : t₄.services.redis.published ++ [announcement message] ++ events =
      t.services.redis.published := hevents
  rw [← hpublished, List.append_assoc, List.getElem?_append_right (Nat.le_refl _), Nat.sub_self]
  rfl

theorem ensures_committing {n : Task} (hm : m₀ ≤ s.services.redis.published.length) :
    (rebooking i message m₀).Ensures exec n i (fun _ t => Released message m₀ s t)
      (committing message) s := by
  refine .call fun t hst ht l hl u r hex => ?_
  obtain rfl := hl rfl
  refine ⟨honours_own ht hex id, ?_⟩
  obtain ⟨rfl, rfl⟩ := Prod.mk.inj (Option.some.inj hex)
  have hpublished := (hst rfl).published.length_le
  have hrows : ∀ r ∈ t.services.pg.setSeats message.seatIds .available, r.id ∈ message.seatIds →
      r.status = .available := by
    intro r hr hk
    rcases Table.mem_updateWhere_cases hr with ⟨-, hnot⟩ | ⟨r₀, -, -, rfl⟩
    · exact absurd hk (of_decide_eq_false hnot)
    · rfl
  exact (ensures_announcing (s := { t with services := { t.services with
      pg := (t.services.pg.commitCancellation (Payments.cancellationCommit message)).1 } })
    (hm.trans hpublished) hrows).weaken fun _ v hv =>
      ⟨hv.rows, fun k hk => (hv.fields k hk).trans ((hst rfl).fields k hk), hv.published⟩

end Steps

/-! ## Runs -/

section Runs

variable {message : CancellationMessage} {i : ℕ} {p q : Pool World Rep Task Result}

/-- Steps of the others leave the seats alone. -/
theorem heard_others {m₀ : ℕ} {a : Act Link Environ} (ha : ∀ l, a ≠ .run i l)
    (hp : Heard message m₀ p.store) (hG : LeavesSeatsRun i message p a)
    (hst : machine.step p a = some q) :
    Heard message m₀ q.store ∧ SeatsKept message p.store q.store := by
  cases a with
  | environ x =>
      obtain ⟨s, ts, hs, rfl⟩ := Machine.step_environ hst
      obtain ⟨-, hpg, d, hredis⟩ := services_environ hs
      refine ⟨⟨listens_environ hp.toListens hs, fun g m hm hlt hevent k hk => ?_⟩,
        ⟨fun r hr _ => ?_, fun k _ => ?_, ?_⟩⟩
      · obtain ⟨closedShows, hgate⟩ := gateways_environ hs g
        rw [hredis] at hevent
        rw [hgate] at hlt ⊢
        exact hp.free g m hm hlt hevent k hk
      · rwa [hpg] at hr
      · rw [hredis]
      · exact hredis ▸ List.prefix_refl _
  | run j l =>
      obtain ⟨n, c, k, s, r, ht, hs, rfl⟩ := Machine.step_run hst
      have hallowed : LeavesSeats i message n j l c p.store := by
        have hG : Machine.Permits (LeavesSeats i message) j l p.store p.threads[j]? := hG
        rwa [ht] at hG
      have hj : j ≠ i := fun heq => ha l (by rw [heq])
      rw [LeavesSeats, if_neg hj] at hallowed
      exact ⟨heard_exec hp hs hallowed.1, seatsKept_exec hs hallowed.2⟩
  | crash j =>
      obtain ⟨n, c, k, -, rfl⟩ := Machine.step_crash hst
      exact ⟨⟨⟨hp.registered, hp.handled⟩, hp.free⟩, ⟨fun _ hr _ => hr, fun _ _ => rfl,
        List.prefix_refl _⟩⟩

/-- When the delivery has returned, its seats are released, and their slots are free wherever the
event was handled. -/
theorem released_of_returned (h : machine.system.Reachable p)
    (hrun : p.Runs i (.cancellation message) (committing message))
    (hq : (machine.system.startingAt p).ReachableUnder (LeavesSeatsRun i message) q)
    (hdone : q.Runs i (.cancellation message) (.ret .done)) :
    ∃ m₀, Heard message m₀ q.store ∧ Released message m₀ p.store q.store := by
  have hlistens := listens_reachable h
  let m₀ := p.store.services.redis.published.length
  have hp : Heard message m₀ p.store := ⟨hlistens, fun g m hm hlt _ _ _ =>
    absurd (Nat.lt_of_lt_of_le hlt (hlistens.handled g)) (Nat.not_lt.2 hm)⟩
  have hown : ∀ (p : Pool World Rep Task Result) (l : Link) (c : Cmd) (k : Rep c → Service Result),
      LeavesSeatsRun i message p (.run i l) → p.Runs i (.cancellation message) (.call c k) →
        (rebooking i message m₀).allowed (.cancellation message) i l c p.store := by
    intro p l c k hG hr _
    have hG : Machine.Permits (LeavesSeats i message) i l p.store p.threads[i]? := hG
    rw [show p.threads[i]? = _ from hr] at hG
    have hG : LeavesSeats i message (.cancellation message) i l c p.store := hG
    rwa [LeavesSeats, if_pos rfl] at hG
  obtain ⟨hheard, -, hthread⟩ := Machine.ensures_of_thread (K := rebooking i message m₀) hown
    (fun p q a ha hp hG hst =>
      (heard_others ha hp hG hst).imp id fun hkept _ => hkept)
    hp hrun (ensures_committing (Nat.le_refl _)) hq
  exact ⟨m₀, hheard, (hthread _ _ hdone).2 q.store (fun _ => .refl _) hheard⟩

/-- The seats of a cancelled order can be booked again, unless other sessions claim or write them,
exactly where their fields were `00` already when the cancellation was committed. -/
theorem rebookable_iff (h : machine.system.Reachable p)
    (hasked : .cancellationRequested message ∈ p.store.services.pg.outbox) {o : OrderRow}
    (ho : o ∈ p.store.services.pg.orders) (hid : o.id = message.orderId)
    (hrun : p.Runs i (.cancellation message) (committing message))
    (hq : (machine.system.startingAt p).ReachableUnder (LeavesSeatsRun i message) q)
    (hdone : q.Runs i (.cancellation message) (.ret .done)) :
    Rebookable o q.store ↔
      ∀ k ∈ o.seatIds, p.store.services.redis.bitmap (o.scheduleId, k) = .available := by
  obtain ⟨hschedule, hseats⟩ := seats_of_cancellation h hasked ho hid
  obtain ⟨m₀, hheard, hreleased⟩ := released_of_returned h hrun hq hdone
  have hrows : ∀ r ∈ q.store.services.pg.seats, r.id ∈ o.seatIds → r.status = .available :=
    fun r hr hk => hreleased.rows r hr (hseats ▸ hk)
  have hfields : ∀ k ∈ o.seatIds, q.store.services.redis.bitmap (o.scheduleId, k) =
      p.store.services.redis.bitmap (o.scheduleId, k) := by
    rw [hschedule, hseats]
    exact hreleased.fields
  refine ⟨fun hre k hk => (hfields k hk).symm.trans (hre.fields k hk), fun hbefore => ?_⟩
  have hafter : ∀ k ∈ o.seatIds, q.store.services.redis.bitmap (o.scheduleId, k) = .available :=
    fun k hk => (hfields k hk).trans (hbefore k hk)
  refine ⟨hrows, hafter, fun bitmap hsnap seatLock seat hseat hk => ?_, fun g hhandled k hk => ?_⟩
  · obtain ⟨r, hr, rfl⟩ := List.mem_map.1 hseat
    exact Web.statusStr_of_available hsnap (hrows r (List.mem_filter.1 hr).1 hk) (hafter r.id hk)
  · obtain ⟨m, hm, hpublished⟩ := hreleased.published
    have hlt : m < (q.store.gateways g).handled := by
      rw [hhandled]
      exact (List.getElem?_eq_some_iff.1 hpublished).1
    rw [hschedule]
    exact hheard.free g m hm hlt hpublished k (hseats ▸ hk)

/-- The pool in which a cancellation is delivered that has no payment to refund. -/
def delivering (message : CancellationMessage) (p : Pool World Rep Task Result) :
    Pool World Rep Task Result :=
  ⟨p.store, p.threads ++ Machine.start [(.cancellation message, committing message)]⟩

theorem reachable_delivering (h : machine.system.Reachable p) {n : ℕ}
    (hrow : p.store.services.pg.outbox[n]? = some (.cancellationRequested message))
    (hpayment : message.razorpayPaymentId = none) :
    machine.system.Reachable (delivering message p) ∧
      (delivering message p).Runs p.threads.length (.cancellation message) (committing message) := by
  have hprogram : forget (onServices (Payments.processCancellation true message)) =
      committing message := by
    unfold Payments.processCancellation Payments.refundPayment
    rw [hpayment]
    rfl
  have henv : environ (.deliver n 0 true) p.store =
      some (p.store, [(.cancellation message, committing message)]) := by
    simp only [environ, hrow, deliver, hprogram, Option.map_some]
  refine ⟨.step (a := .environ (.deliver n 0 true)) h trivial ?_, ?_⟩
  · have henv : machine.environ (.deliver n 0 true) p.store =
        some (p.store, [(.cancellation message, committing message)]) := henv
    show Machine.step machine p (.environ (.deliver n 0 true)) = some (delivering message p)
    simp only [Machine.step, henv]
    rfl
  · show (p.threads ++ _)[p.threads.length]? = _
    rw [List.getElem?_append_right (Nat.le_refl _), Nat.sub_self]
    rfl

end Runs

/-! ### One order -/

/-- The cancellation of the order of `paysSeat`. -/
def soldSeat : CancellationMessage :=
  { orderId := 100, userId := 42, scheduleId := 1, seatIds := [1], amount := 118,
    razorpayPaymentId := none, idempotencyKey := "cancel" }

/-- The seat is sold, the checkout runs for a number of steps and its worker crashes; the buyer asks
for the cancellation. -/
def sellsAndAsks (n : ℕ) : List (Act Link Environ) :=
  locksSeat ++ paysSeat 2 ++ steps 4 n ++ .crash 4 ::
    .environ (.cancelOrder 42 100 "cancel") :: steps 5 3

/-- The cancellation is delivered and replica 0 handles every event. -/
def cancelsAndListens (events : ℕ) : List (Act Link Environ) :=
  steps 6 5 ++ (List.range events).flatMap fun n => [.environ (.handle 0), .run (7 + n) .ok]

/-- The delivery has returned. -/
def Cancelled (q : Pool World Rep Task Result) : Prop :=
  match q.result 6 with
  | some (.cancellation message, .done) => message = soldSeat
  | _ => False

instance {q : Pool World Rep Task Result} : Decidable (Cancelled q) := by
  unfold Cancelled
  split <;> infer_instance

/-- The cancellation of the order, delivered where the checkout has left the seat's field in a state,
and returned where the replica has handled every event. -/
theorem exists_cancelled (n events : ℕ) (state : SeatState)
    (h : (machine.system.run ⟨newWorld Payments.oneSeat, []⟩ (sellsAndAsks n)).any (fun p => decide
      (p.threads.length = 6 ∧
        p.store.services.pg.outbox[2]? = some (.cancellationRequested soldSeat) ∧
        p.store.services.pg.orders.map OrderRow.place = [(100, 1, [1])] ∧
        p.store.services.redis.bitmap (1, 1) = state ∧
        (machine.system.runUnder (LeavesSeatsRun 6 soldSeat) (delivering soldSeat p)
          (cancelsAndListens events)).any (fun q => decide (Cancelled q ∧
            (q.store.gateways 0).handled = q.store.services.redis.published.length)) = true)) =
        true) :
    ∃ p q, ∃ o ∈ p.store.services.pg.orders, machine.system.Reachable p ∧
      .cancellationRequested soldSeat ∈ p.store.services.pg.outbox ∧ o.id = soldSeat.orderId ∧
      o.scheduleId = 1 ∧ o.seatIds = [1] ∧
      p.Runs 6 (.cancellation soldSeat) (committing soldSeat) ∧
      (machine.system.startingAt p).ReachableUnder (LeavesSeatsRun 6 soldSeat) q ∧
      q.Runs 6 (.cancellation soldSeat) (.ret .done) ∧
      p.store.services.redis.bitmap (1, 1) = state ∧
      (q.store.gateways 0).handled = q.store.services.redis.published.length := by
  obtain ⟨p, hp, htest⟩ := System.exists_reachable_of_run machine.system _
    (s := ⟨newWorld Payments.oneSeat, []⟩) ⟨⟨_, rfl⟩, rfl⟩ _ h
  obtain ⟨hlength, hrow, horders, hfield, hrun⟩ := of_decide_eq_true htest
  obtain ⟨hreach, hruns⟩ := reachable_delivering hp hrow rfl
  rw [hlength] at hruns
  obtain ⟨q, hq, hend⟩ := (Option.any_eq_true _ _).1 hrun
  obtain ⟨hcancelled, hhandled⟩ := of_decide_eq_true hend
  obtain ⟨o, ho, hplace⟩ := List.mem_map.1 (horders ▸ List.mem_singleton_self (100, (1 : ℤ), [(1 : ℤ)]))
  obtain ⟨hid, hrest⟩ := Prod.mk.inj hplace
  obtain ⟨hschedule, hseats⟩ := Prod.mk.inj hrest
  rw [← machine.system.runUnder_startingAt _ (delivering soldSeat p)] at hq
  have hdone : q.result 6 = some (.cancellation soldSeat, .done) := by
    unfold Cancelled at hcancelled
    split at hcancelled
    · next message heq =>
      rw [heq, hcancelled]
    · exact hcancelled.elim
  exact ⟨delivering soldSeat p, q, o, ho, hreach, List.mem_of_getElem? hrow, hid, hschedule, hseats,
    hruns, .runUnder (.init rfl) hq, Pool.result_eq_some.1 hdone, hfield, hhandled⟩

/-- The worker of the checkout crashed between the release of the lock and the mark: the seat can be
booked again. -/
theorem rebookable_unmarked :
    ∃ (p q : Pool World Rep Task Result) (o : OrderRow), machine.system.Reachable p ∧
      o ∈ p.store.services.pg.orders ∧ o.seatIds = [1] ∧
      (q.store.gateways 0).handled = q.store.services.redis.published.length ∧
      Rebookable o q.store := by
  obtain ⟨p, q, o, ho, hp, hasked, hid, hschedule, hseats, hrun, hq, hdone, hfield, hhandled⟩ :=
    exists_cancelled 20 1 .available (by decide +kernel)
  refine ⟨p, q, o, hp, ho, hseats, hhandled,
    (rebookable_iff hp hasked ho hid hrun hq hdone).2 fun k hk => ?_⟩
  rw [hseats] at hk
  rw [List.mem_singleton.1 hk, hschedule]
  exact hfield

/-- A checkout, its cancellation, and nothing else: the field of the seat is still booked. -/
theorem cancelled_stays_booked :
    ¬ ∀ (p q : Pool World Rep Task Result) (i : ℕ) (message : CancellationMessage) (o : OrderRow),
      machine.system.Reachable p → .cancellationRequested message ∈ p.store.services.pg.outbox →
        o ∈ p.store.services.pg.orders → o.id = message.orderId →
        p.Runs i (.cancellation message) (committing message) →
        (machine.system.startingAt p).ReachableUnder (LeavesSeatsRun i message) q →
        q.Runs i (.cancellation message) (.ret .done) → Rebookable o q.store := by
  intro hall
  obtain ⟨p, q, o, ho, hp, hasked, hid, hschedule, hseats, hrun, hq, hdone, hfield, -⟩ :=
    exists_cancelled 24 2 .booked (by decide +kernel)
  have hrebookable := hall p q 6 soldSeat o hp hasked ho hid hrun hq hdone
  obtain ⟨m₀, -, hreleased⟩ := released_of_returned hp hrun hq hdone
  have hafter := hrebookable.fields 1 (by rw [hseats]; exact List.mem_singleton_self 1)
  have hkept : q.store.services.redis.bitmap (1, 1) = p.store.services.redis.bitmap (1, 1) :=
    hreleased.fields 1 (List.mem_singleton_self 1)
  rw [hschedule] at hafter
  exact absurd ((hafter.symm.trans hkept).trans hfield) (by decide)

end Gateway
end Bookit

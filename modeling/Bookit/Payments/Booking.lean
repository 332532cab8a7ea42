import Bookit.Payments.Idempotency

/-!
# Payments.Booking — whether a seat is sold once

Between the dual-key check of a checkout and its commit the locks may expire, and another buyer may
lock the seats, pay and commit; `commit_checkout` writes `booked` over whatever status it finds.  A
run in which every commit finds its seats free sells no seat twice.  That a seat belongs to the
schedule of its order needs no condition: `request_payment` counts the rows it finds.
-/

namespace Bookit
namespace Payments

open Lib

/-- Runs all of whose commits book free seats. -/
def CommitsFreeRun (p : Pool World Rep Task Result) (a : Act Link Environ) : Prop :=
  Machine.Guarded CommitsFree (fun _ _ => True) p a

instance {p : Pool World Rep Task Result} {a : Act Link Environ} :
    Decidable (CommitsFreeRun p a) :=
  inferInstanceAs (Decidable (Machine.Guarded _ _ p a))

theorem fulfils_of_commitsFree {p : Pool World Rep Task Result}
    (h : machine.system.ReachableUnder CommitsFreeRun p) :
    machine.Fulfils (contract True) Post p :=
  fulfils (h.mono fun _ _ hG => hG.mono (fun _ _ _ _ _ hc _ => hc) fun _ _ _ => trivial)

/-- The seats of a completed order are seats of its schedule, in every run; and where every commit
books free seats, no two completed orders of one schedule share a seat. -/
theorem seats_sold_once (p : Pool World Rep Task Result) :
    (machine.system.Reachable p → ∀ o ∈ p.store.pg.orders, o.status = .completed →
      ∀ k ∈ o.seatIds, ∃ r ∈ p.store.pg.seats, r.id = k ∧ r.scheduleId = o.scheduleId) ∧
    (machine.system.ReachableUnder CommitsFreeRun p →
      p.store.pg.orders.Pairwise fun o o' => o.status = .completed → o'.status = .completed →
        o.scheduleId = o'.scheduleId → ∀ k ∈ o.seatIds, k ∉ o'.seatIds) := by
  constructor
  · intro h o ho _
    have hfulfils : machine.Fulfils (contract False) Post p :=
      fulfils (Machine.reachable_guarded (fun _ _ _ _ _ hX => hX.elim) h)
    exact hfulfils.inv.1.orders o ho
  · intro h
    have hfulfils := fulfils_of_commitsFree h
    exact (hfulfils.inv.2 trivial).apart

/-! ## Two buyers around a lock expiry -/

/-- The steps of thread `i`, `n` times, without a failure. -/
def steps (i n : ℕ) : List (Act Link Environ) :=
  List.replicate n (.run i .ok)

/-- User `userId` locks seat 1 and has a request accepted, in threads `i` and `i + 1`. -/
def buys (i : ℕ) (userId : ℤ) (key : String) (newId : ℕ) : List (Act Link Environ) :=
  .environ (.onRedis (SingleNodeLock.acquireSeatLockLua 1 1 userId 300)) :: steps i 3 ++
    .environ (.request ⟨"secret", fun _ _ => ""⟩ userId ⟨1, [1], key, none, none, none⟩ newId) ::
    steps (i + 1) 10

/-- A checkout that passes the dual-key check and commits. -/
theorem seats_sold_once_checkout :
    ∃ p, machine.system.ReachableUnder CommitsFreeRun p ∧
      p.store.pg.orders.map (·.seatIds) = [[1]] ∧
      (∀ o ∈ p.store.pg.orders, o.status = .completed →
        ∀ k ∈ o.seatIds, ∃ r ∈ p.store.pg.seats, r.id = k ∧ r.scheduleId = o.scheduleId) ∧
      (p.store.pg.orders.Pairwise fun o o' => o.status = .completed → o'.status = .completed →
        o.scheduleId = o'.scheduleId → ∀ k ∈ o.seatIds, k ∉ o'.seatIds) := by
  obtain ⟨p, hp, horders⟩ := System.exists_reachable_of_runUnder machine.system CommitsFreeRun
    (fun p => decide (p.store.pg.orders.map (·.seatIds) = [[1]]))
    (s := ⟨newWorld oneSeat, []⟩) ⟨⟨oneSeat, by decide, rfl⟩, rfl⟩
    (buys 0 42 "key" 10 ++ .environ (.deliver 0 100) :: steps 2 7) (by decide +kernel)
  exact ⟨p, hp, of_decide_eq_true horders, (seats_sold_once p).1 hp.reachable,
    (seats_sold_once p).2 hp⟩

/-- The first buyer's checkout passes its check and stalls; the locks expire, the second buyer locks,
pays and commits, and the first commit goes through as well. -/
theorem seat_sold_twice :
    ¬ ∀ p, machine.system.Reachable p →
      p.store.pg.orders.Pairwise fun o o' => o.status = .completed → o'.status = .completed →
        o.scheduleId = o'.scheduleId → ∀ k ∈ o.seatIds, k ∉ o'.seatIds := by
  intro hall
  obtain ⟨p, hp, horders⟩ := System.exists_reachable_of_run machine.system
    (fun p => decide (p.store.pg.orders.map (fun o => (o.status, o.scheduleId, o.seatIds)) =
      [(.completed, 1, [1]), (.completed, 1, [1])]))
    (s := ⟨newWorld oneSeat, []⟩) ⟨⟨oneSeat, by decide, rfl⟩, rfl⟩
    (buys 0 42 "key" 10 ++ .environ (.deliver 0 100) :: steps 2 6 ++
      .environ (.tick 300001) :: buys 3 43 "key2" 11 ++
      .environ (.deliver 1 101) :: steps 5 7 ++ steps 2 1) (by decide +kernel)
  have h := hall p hp
  match hlist : p.store.pg.orders with
  | [] => simp [hlist] at horders
  | [_] => simp [hlist] at horders
  | o :: o' :: rest =>
      simp only [hlist, List.map_cons, decide_eq_true_eq, List.cons.injEq, Prod.mk.injEq] at horders
      obtain ⟨⟨hc, hs, hseats⟩, ⟨hc', hs', hseats'⟩, -⟩ := horders
      rw [hlist] at h
      have hapart := (List.pairwise_cons.1 h).1 o' List.mem_cons_self hc hc' (hs.trans hs'.symm)
      exact hapart 1 (by simp [hseats]) (by simp [hseats'])

end Payments
end Bookit

import Bookit.Gateway.LockedFields

/-!
# Gateway.LeftLocked — when no field stays locked for ever

A field that says locked, with no entry in the queue, is reset by a session that owes it, or gets an
entry from a lock message that has yet to be written.  Where neither is left, no worker ever finds the
seat again.
-/

namespace Bookit
namespace Gateway

open Lib LockServer

/-! ## Who may still come to a seat -/

/-- The machine with the debts of the sessions. -/
def debts : Machine (World × (ℕ → DebtStage)) Rep Task Result Link Environ :=
  machine.staged .start debtNext

abbrev DebtPool := Pool (World × (ℕ → DebtStage)) Rep Task Result

/-- The thread has handled the `k`-th message to its end. -/
def Ended (k : ℕ) : Thread Rep Task Result → Prop
  | ⟨.lockMessage m _, some (.ret _)⟩ => m = k
  | _ => False

instance {k : ℕ} {t : Thread Rep Task Result} : Decidable (Ended k t) := by
  unfold Ended
  split <;> infer_instance

/-- The message was handled to its end, and is acknowledged. -/
def Acked {σ : Type} (p : Pool σ Rep Task Result) (k : ℕ) : Prop := ∃ t ∈ p.threads, Ended k t

instance {σ : Type} {p : Pool σ Rep Task Result} {k : ℕ} : Decidable (Acked p k) := by
  unfold Acked
  infer_instance

/-- A session of the `k`-th message has written the metadata of the seat. -/
def WroteFor (k : ℕ) (seat : ℤ × ℤ) (b : DebtStage) : Option (Thread Rep Task Result) → Prop
  | some ⟨.lockMessage m _, _⟩ => m = k ∧ seat ∈ b.written
  | _ => False

instance {k : ℕ} {seat : ℤ × ℤ} {b : DebtStage} {t : Option (Thread Rep Task Result)} :
    Decidable (WroteFor k seat b t) := by
  unfold WroteFor
  split <;> infer_instance

def Written (p : DebtPool) (k : ℕ) (seat : ℤ × ℤ) : Prop :=
  ∃ j ∈ List.range p.threads.length, WroteFor k seat (p.store.2 j) p.threads[j]?

instance {p : DebtPool} {k : ℕ} {seat : ℤ × ℤ} : Decidable (Written p k seat) := by
  unfold Written
  infer_instance

/-- The `k`-th message locks the seat, is not acknowledged, and its metadata was not written. -/
def AwaitedBy (p : DebtPool) (seat : ℤ × ℤ) (k : ℕ) : Prop :=
  (∃ message ∈ p.store.1.lockingQueue[k]?, LocksSeat message seat) ∧ ¬Acked p k ∧ ¬Written p k seat

instance {p : DebtPool} {seat : ℤ × ℤ} {k : ℕ} : Decidable (AwaitedBy p seat k) := by
  unfold AwaitedBy
  infer_instance

/-- The session is at work on the seat, and has its field to reset. -/
def OwedBy (p : DebtPool) (seat : ℤ × ℤ) (j : ℕ) : Prop :=
  (∃ n ∈ p.working j, n.Handles seat) ∧ (p.store.2 j).owes.map Prod.fst = some seat

instance {p : DebtPool} {seat : ℤ × ℤ} {j : ℕ} : Decidable (OwedBy p seat j) := by
  unfold OwedBy
  infer_instance

/-- A session other than `i` owes the field, or a message other than `k` is awaited. -/
def Hope (p : DebtPool) (i k : Option ℕ) (seat : ℤ × ℤ) : Prop :=
  (∃ j ∈ List.range p.threads.length, some j ≠ i ∧ OwedBy p seat j) ∨
    ∃ m ∈ List.range p.store.1.lockingQueue.length, some m ≠ k ∧ AwaitedBy p seat m

instance {p : DebtPool} {i k : Option ℕ} {seat : ℤ × ℤ} : Decidable (Hope p i k seat) := by
  unfold Hope
  infer_instance

/-- The field of the seat says locked, and no entry for it is in the queue. -/
def Forgotten (s : Redis) (seat : ℤ × ℤ) : Prop := s.bitmap seat = .locked ∧ ¬s.Queued seat

instance {s : Redis} {seat : ℤ × ℤ} : Decidable (Forgotten s seat) := by
  unfold Forgotten
  infer_instance

/-! ## The condition -/

/-- The seat is not forgotten, or not by all. -/
def Excused (p : DebtPool) (i k : Option ℕ) (seat : ℤ × ℤ) : Prop :=
  ¬Forgotten p.store.1.services.redis seat ∨ Hope p i k seat

instance {p : DebtPool} {i k : Option ℕ} {seat : ℤ × ℤ} : Decidable (Excused p i k seat) := by
  unfold Excused
  infer_instance

/-- The seat whose field a session will not reset, as its last connection or its last command did not
get through. -/
def forfeits (l : Link) (c : Cmd) (b : DebtStage) : Option (ℤ × ℤ) :=
  match c, b.owes with
  | .service (.redis .connect), some (seat, 1) => if l = .ok then none else some seat
  | .service (.redis (.setBits ..)), some (seat, _) => if l = .lost then some seat else none
  | _, _ => none

/-- The entry that the gateway's worker drops for another owner's sake. -/
def abandons (l : Link) (c : Cmd) (b : DebtStage) : Option QueueEntry :=
  match c with
  | .service (.redis (.zremQueue entry)) =>
      if b.refused = true ∧ l ≠ .lost then some entry else none
  | _ => none

/-- The dropped entry is not the last that leads to a locked field. -/
def DropsAnother (s : Redis) (e : QueueEntry) : Prop :=
  s.bitmap e.seat ≠ .locked ∨ ∃ x ∈ s.queue.entries, x.1.seat = e.seat ∧ x.1 ≠ e

instance {s : Redis} {e : QueueEntry} : Decidable (DropsAnother s e) := by
  unfold DropsAnother
  infer_instance

/-- The message that a session handles. -/
def Task.message : Task → Option ℕ
  | .lockMessage k _ => some k
  | _ => none

/-- A lock message comes to its end with the metadata of its seats written. -/
def EndsWritten (p : DebtPool) (i : ℕ) (n : Task) (b : DebtStage) (q : Prog Rep Result) : Prop :=
  q.returned = false ∨ ∀ k ∈ n.message, ∀ message ∈ p.store.1.lockingQueue[k]?,
    message.action = "unlock" ∨ ∀ a ∈ message.seatIds,
      (message.showtimeId, a) ∈ b.written ∨ Excused p (some i) n.message (message.showtimeId, a)

instance {p : DebtPool} {i : ℕ} {n : Task} {b : DebtStage} {q : Prog Rep Result} :
    Decidable (EndsWritten p i n b q) := by
  unfold EndsWritten
  infer_instance

/-- What a step has to look to. -/
def LooksAhead (p : DebtPool) (i : ℕ) (l : Link) (n : Task) (c : Cmd) (k : Rep c → Prog Rep Result) :
    Prop :=
  (∀ seat ∈ forfeits l c (p.store.2 i), Excused p (some i) n.message seat) ∧
    (∀ e ∈ abandons l c (p.store.2 i),
      DropsAnother p.store.1.services.redis e ∨ Hope p (some i) n.message e.seat) ∧
        ∀ x ∈ exec i l c p.store.1,
          EndsWritten p i n (debtNext n (p.store.2 i) c x.2) (k x.2)

instance {p : DebtPool} {i : ℕ} {l : Link} {n : Task} {c : Cmd} {k : Rep c → Prog Rep Result} :
    Decidable (LooksAhead p i l n c k) := by
  unfold LooksAhead
  infer_instance

/-- Only the deployed services are at work. -/
def Deployed {σ : Type} (_ : Pool σ Rep Task Result) : Act Link Environ → Prop
  | .environ (.operation _) => False
  | _ => True

instance {σ : Type} {p : Pool σ Rep Task Result} {a : Act Link Environ} : Decidable (Deployed p a) := by
  unfold Deployed
  rcases a with x | _ | _
  · rcases x with ⟨⟩ <;> infer_instance
  · infer_instance
  · infer_instance

/-- No debt is forfeited and no last entry abandoned, and lock messages are written, unless someone
else may still come to the seat; and only the deployed services are at work. -/
def PaysDebts (p : DebtPool) : Act Link Environ → Prop
  | .environ (.operation _) => False
  | .environ _ => True
  | .run i l =>
      match p.threads[i]? with
      | some ⟨n, some (.call c k)⟩ => LooksAhead p i l n c k
      | _ => True
  | .crash i => ∀ x ∈ (p.store.2 i).owes, Excused p (some i) none x.1

instance {p : DebtPool} {a : Act Link Environ} : Decidable (PaysDebts p a) := by
  unfold PaysDebts
  rcases a with x | ⟨i, l⟩ | i
  · rcases x with ⟨⟩ <;> infer_instance
  · dsimp only
    rcases p.threads[i]? with _ | ⟨n, _ | _ | ⟨c, k⟩⟩ <;> infer_instance
  · infer_instance

/-! ## Steps -/

section Effect

variable {n : Task} {b : DebtStage} {s : Redis} {k : Redis.Cmd} {seat : ℤ × ℤ}

/-- A seat is forgotten by a script that refuses an expired entry, or by taking away its last entry. -/
theorem forgotten_effect (hk : DebtCmd n b k) (hpos : 0 ≤ seat.2) (hbefore : ¬Forgotten s seat)
    (hafter : Forgotten (k.effect s) seat) :
    (∃ userId entry, k = .eval .releaseExpired seat.1 seat.2 userId entry) ∨
      ∃ e, k = .zremQueue e ∧ e.seat = seat ∧ ¬DropsAnother s e := by
  have hfield : s.bitmap seat = .locked := by
    by_contra hfield
    have hwrites : k.writes s = some (seat, (k.effect s).bitmap seat) :=
      Redis.effect_field fun heq => hfield (heq.symm.trans hafter.1)
    rw [hafter.1] at hwrites
    cases k with
    | eval script showtimeId seatId userId entry =>
        simp only [Redis.Cmd.writes] at hwrites
        split_ifs at hwrites
        have hstate := (Prod.mk.inj (Option.some.inj hwrites)).2
        cases script with
        | acquire => exact hk.1
        | _ => cases hstate
    | writeMetadata showtimeId seatId userId expiry processingExpiry entry =>
        simp only [Redis.Cmd.writes] at hwrites
        split_ifs at hwrites
        refine hafter.2 ?_
        have hentry : entry.seat = (showtimeId, seatId) := hk
        rw [← (Prod.mk.inj (Option.some.inj hwrites)).1, ← hentry]
        exact Redis.queued_of_writeMetadata ..
    | setBits showtimeId seatId state =>
        simp only [Redis.Cmd.writes] at hwrites
        split_ifs at hwrites
        exact hk.1 (Prod.mk.inj (Option.some.inj hwrites)).2
    | _ => cases hwrites
  have hqueued : s.Queued seat := not_not.1 fun h => hbefore ⟨hfield, h⟩
  have hdrops : ∀ e, s.queue.Mem e → e.seat = seat → k.drops s = some e := by
    intro e hmem hseat
    by_contra hne
    exact hafter.2 (Redis.queued_iff.2 ⟨e, Redis.effect_queue hmem hne, hseat⟩)
  obtain ⟨e, hmem, hseat⟩ := Redis.queued_iff.1 hqueued
  have hdrop := hdrops e hmem hseat
  cases k with
  | eval script showtimeId seatId userId entry =>
      simp only [Redis.Cmd.drops] at hdrop
      split_ifs at hdrop with hcond
      obtain rfl := Option.some.inj hdrop
      have hkey : (showtimeId, seatId) = seat := hk.2.1.symm.trans hseat
      rcases hcond.2 with hacts | rfl
      · -- the script resets the field together with the entry
        exfalso
        have hbits := Redis.effect_bitmap (.eval script showtimeId seatId userId entry) s
        have hpos : 0 ≤ seatId := by
          rwa [← congrArg Prod.snd hkey] at hpos
        simp only [Redis.Cmd.writes, hacts, hpos, and_self, if_true] at hbits
        have hlocked := hafter.1
        rw [hbits, ← hkey, Redis.setAt_self] at hlocked
        cases script with
        | acquire => exact hk.1
        | _ => cases hlocked
      · obtain ⟨rfl, rfl⟩ := Prod.mk.inj hkey
        exact .inl ⟨userId, entry, rfl⟩
  | zremQueue entry =>
      obtain rfl := Option.some.inj hdrop
      refine .inr ⟨entry, rfl, hseat, ?_⟩
      rintro (hne | ⟨⟨e', score⟩, hmem', hseat', hne⟩)
      · exact hne (hseat ▸ hfield)
      · have hdrop' := hdrops e' ⟨score, hmem'⟩ (hseat'.trans hseat)
        exact hne (Option.some.inj hdrop').symm
  | _ => cases hdrop

/-- A field that says locked belongs to a seat that has a bit offset. -/
def LockedInRange (s : Redis) : Prop := ∀ seat, s.bitmap seat = .locked → 0 ≤ seat.2

theorem LockedInRange.effect (h : LockedInRange s) : LockedInRange (k.effect s) := by
  intro seat hlocked
  by_cases hfield : (k.effect s).bitmap seat = s.bitmap seat
  · exact h seat (hfield ▸ hlocked)
  · exact Redis.writes_nonneg (Redis.effect_field hfield)

end Effect

section Commands

variable {n : Task} {b : DebtStage} {i : ℕ} {l : Link} {s t : World} {k : Redis.Cmd}
variable {r : Redis.Rep k} {seat : ℤ × ℤ}

/-- What a Redis command leaves behind, and what it answers. -/
theorem exec_redis (h : exec i l (.service (.redis k)) s = some (t, r)) :
    t.services.redis = (if l = .lost then s.services.redis else k.effect s.services.redis) ∧
      r = (Redis.exec l k s.services.redis).2 := by
  have h : some ({ s with services := { s.services with
      redis := (Redis.exec l k s.services.redis).1 } }, (Redis.exec l k s.services.redis).2) =
        some (t, r) := h
  obtain ⟨rfl, rfl⟩ := Prod.mk.inj (Option.some.inj h)
  exact ⟨Redis.exec_fst l k s.services.redis, rfl⟩

/-- The session of a debt keeps it, or forfeits it, as long as the seat is forgotten. -/
theorem owes_kept (h : exec i l (.service (.redis k)) s = some (t, r)) (hk : DebtCmd n b k)
    (hpos : 0 ≤ seat.2) (hafter : Forgotten t.services.redis seat)
    (howes : b.owes.map Prod.fst = some seat) :
    (b.next n k r).owes.map Prod.fst = some seat ∨
      forfeits l (.service (.redis k)) b = some seat := by
  obtain ⟨hredis, hreply⟩ := exec_redis h
  obtain ⟨⟨seat', m⟩, hx, rfl⟩ := Option.map_eq_some_iff.1 howes
  cases k with
  | connect =>
      match m with
      | 0 =>
          refine .inl ?_
          show (b.afterConnect r).owes.map Prod.fst = _
          unfold DebtStage.afterConnect
          rw [hx]
          exact howes
      | 1 =>
          cases l with
          | ok =>
              obtain rfl : r = some () := hreply
              refine .inl ?_
              show (b.afterConnect (some ())).owes.map Prod.fst = _
              unfold DebtStage.afterConnect
              rw [hx]
              rfl
          | lost | unacked =>
              refine .inr ?_
              unfold forfeits
              rw [hx]
              rfl
      | m + 2 =>
          refine .inl ?_
          show (b.afterConnect r).owes.map Prod.fst = _
          unfold DebtStage.afterConnect
          rw [hx]
          rfl
  | eval =>
      rw [hk.2.2.2] at hx
      cases hx
  | zremQueue entry =>
      have hseat : seat' = entry.seat := hk.2.1 _ hx
      refine .inl ?_
      show (if b.refused = true ∨ entry.seatId < 0 then b else _ : DebtStage).owes.map Prod.fst = _
      split_ifs
      · exact howes
      · exact congrArg some hseat.symm
  | setBits showtimeId seatId state =>
      have hseat : seat' = (showtimeId, seatId) := hk.2 _ hx
      subst hseat
      by_cases hl : l = .lost
      · refine .inr ?_
        unfold forfeits
        rw [hx]
        exact if_pos hl
      · exfalso
        rw [if_neg hl] at hredis
        have hpos : ¬seatId < 0 := not_lt.2 hpos
        have hlocked := hafter.1
        rw [hredis] at hlocked
        have hlocked : (s.services.redis.setBits showtimeId seatId state).bitmap
          (showtimeId, seatId) = .locked := hlocked
        rw [Redis.setBits_bitmap, if_neg hpos, Redis.setAt_self] at hlocked
        exact hk.1 hlocked
  | getLock =>
      refine .inl ?_
      show (b.afterOwner n _).owes.map Prod.fst = _
      unfold DebtStage.afterOwner
      split <;> exact howes
  | writeMetadata =>
      refine .inl ?_
      show (if (r : Option Unit) = none then b else _ : DebtStage).owes.map Prod.fst = _
      split_ifs <;> exact howes
  | _ => exact .inl howes

/-- Metadata that was written brings an entry. -/
theorem written_before (h : exec i l (.service (.redis k)) s = some (t, r)) (hk : DebtCmd n b k)
    (hafter : Forgotten t.services.redis seat) (hw : seat ∈ (b.next n k r).written) :
    seat ∈ b.written := by
  obtain ⟨hredis, hreply⟩ := exec_redis h
  cases k with
  | writeMetadata showtimeId seatId userId expiry processingExpiry entry =>
      have hw : seat ∈ (if (r : Option Unit) = none then b else
        { b with written := (showtimeId, seatId) :: b.written }).written := hw
      split_ifs at hw with hnone
      · exact hw
      rcases List.mem_cons.1 hw with rfl | hold
      · exfalso
        by_cases hl : l = .lost
        · subst hl
          exact hnone hreply
        · rw [if_neg hl] at hredis
          refine hafter.2 ?_
          have hentry : entry.seat = (showtimeId, seatId) := hk
          rw [hredis, ← hentry]
          exact Redis.queued_of_writeMetadata ..
      · exact hold
  | connect =>
      have hw : seat ∈ (b.afterConnect r).written := hw
      unfold DebtStage.afterConnect at hw
      split at hw <;> exact hw
  | getLock =>
      have hw : seat ∈ (b.afterOwner n _).written := hw
      unfold DebtStage.afterOwner at hw
      split at hw <;> exact hw
  | eval =>
      have hw : seat ∈ (if _ ∧ _ then _ else b : DebtStage).written := hw
      split_ifs at hw <;> exact hw
  | zremQueue =>
      have hw : seat ∈ (if _ ∨ _ then b else _ : DebtStage).written := hw
      split_ifs at hw <;> exact hw
  | _ => exact hw

end Commands

section Acked

variable {σ : Type} {p : Pool σ Rep Task Result} {s : σ} {k : ℕ}

/-- A message that was handled was handled before, or this session has come to its end. -/
theorem acked_of_set {i : ℕ} {n : Task} {q : Option (Prog Rep Result)}
    (h : Acked (Pool.mk s (p.threads.set i ⟨n, q⟩)) k) :
    Acked p k ∨ n.message = some k ∧ ∃ x, q = some (.ret x) := by
  obtain ⟨t, ht, hended⟩ := h
  rcases List.mem_or_eq_of_mem_set ht with hold | rfl
  · exact .inl ⟨t, hold, hended⟩
  · unfold Ended at hended
    split at hended
    · next k' message x heq =>
      obtain ⟨rfl, rfl⟩ := Thread.mk.inj heq
      subst hended
      exact .inr ⟨rfl, x, rfl⟩
    · exact absurd hended id

/-- A message with something to do is not handled by being delivered. -/
theorem acked_of_start {w : World} {ts : List (Task × Service Result)} {message : SeatLockMessage}
    (hstarted : ∀ n q, (n, q) ∈ ts → Started w n q)
    (hmessage : w.lockingQueue[k]? = some message)
    (hreturned : (forget (onRedis (processLockRequest message))).returned = false)
    (h : Acked (Pool.mk s (p.threads ++ Machine.start ts)) k) : Acked p k := by
  obtain ⟨t, ht, hended⟩ := h
  rcases List.mem_append.1 ht with hold | hnew
  · exact ⟨t, hold, hended⟩
  · obtain ⟨⟨n, q⟩, hq, rfl⟩ := List.mem_map.1 hnew
    have hstart := hstarted n q hq
    unfold Ended at hended
    split at hended
    · next m message' x heq =>
      obtain ⟨rfl, hx⟩ := Thread.mk.inj heq
      subst hended
      cases hstart with
      | lockMessage hm =>
          obtain rfl : message' = message := Option.some.inj (hm.symm.trans hmessage)
          have hret : forget (onRedis (processLockRequest message')) = .ret x := Option.some.inj hx
          rw [hret] at hreturned
          cases hreturned
    · exact absurd hended id

end Acked

section Pools

variable {p : DebtPool} {i : ℕ} {n : Task} {s : World × (ℕ → DebtStage)}
variable {q : Option (Prog Rep Result)} {seat : ℤ × ℤ}

/-- The debts of other sessions stay. -/
theorem OwedBy.other {j : ℕ} (h : OwedBy p seat j) (hne : j ≠ i) (hstage : s.2 j = p.store.2 j) :
    OwedBy ⟨s, p.threads.set i ⟨n, q⟩⟩ seat j := by
  obtain ⟨⟨m, hm, hhandles⟩, howes⟩ := h
  refine ⟨⟨m, ?_, hhandles⟩, ?_⟩
  · show Pool.working _ j = some m
    rw [Pool.working_set_ne hne]
    exact hm
  · show (s.2 j).owes.map Prod.fst = some seat
    rw [hstage]
    exact howes

/-- A message is awaited still, unless this session has come to its end or written the seat. -/
theorem AwaitedBy.other {m : ℕ} (h : AwaitedBy p seat m) {q₀ : Option (Prog Rep Result)}
    (hr : p.threads[i]? = some ⟨n, q₀⟩)
    (hqueue : ∃ messages, s.1.lockingQueue = p.store.1.lockingQueue ++ messages)
    (hstage : ∀ j, j ≠ i → s.2 j = p.store.2 j)
    (hend : n.message = some m → ∀ x, q ≠ some (.ret x))
    (hwritten : seat ∈ (s.2 i).written → seat ∈ (p.store.2 i).written) :
    AwaitedBy ⟨s, p.threads.set i ⟨n, q⟩⟩ seat m := by
  obtain ⟨⟨message, hmessage, hlocks⟩, hacked, hnot⟩ := h
  refine ⟨⟨message, ?_, hlocks⟩, ?_, ?_⟩
  · obtain ⟨messages, hq⟩ := hqueue
    show s.1.lockingQueue[m]? = some message
    have hmessage : p.store.1.lockingQueue[m]? = some message := hmessage
    rw [hq, List.getElem?_append_left (List.getElem?_eq_some_iff.1 hmessage).1]
    exact hmessage
  · intro h
    rcases acked_of_set h with hbefore | ⟨hn, x, hx⟩
    · exact hacked hbefore
    · exact hend hn x hx
  · rintro ⟨j, hj, hwrote⟩
    rw [List.mem_range, List.length_set] at hj
    refine hnot ⟨j, List.mem_range.2 hj, ?_⟩
    by_cases hji : j = i
    · subst hji
      have hwrote : WroteFor m seat (s.2 j) (p.threads.set j ⟨n, q⟩)[j]? := hwrote
      rw [List.getElem?_set_self hj] at hwrote
      rw [hr]
      cases n with
      | lockMessage => exact ⟨hwrote.1, hwritten hwrote.2⟩
      | _ => exact hwrote
    · have hwrote : WroteFor m seat (s.2 j) (p.threads.set i ⟨n, q⟩)[j]? := hwrote
      rwa [List.getElem?_set_ne (Ne.symm hji), hstage j hji] at hwrote

/-- Who else may come to the seat may do so after this session's step. -/
theorem Hope.other (h : Hope p (some i) n.message seat) {q₀ : Option (Prog Rep Result)}
    (hr : p.threads[i]? = some ⟨n, q₀⟩)
    (hqueue : ∃ messages, s.1.lockingQueue = p.store.1.lockingQueue ++ messages)
    (hstage : ∀ j, j ≠ i → s.2 j = p.store.2 j)
    (hwritten : seat ∈ (s.2 i).written → seat ∈ (p.store.2 i).written) :
    Hope ⟨s, p.threads.set i ⟨n, q⟩⟩ none none seat := by
  rcases h with ⟨j, hj, hne, howed⟩ | ⟨m, hm, hne, hawaited⟩
  · have hji : j ≠ i := fun heq => hne (congrArg some heq)
    refine .inl ⟨j, ?_, fun hnone => (nomatch hnone), howed.other hji (hstage j hji)⟩
    rw [List.mem_range, List.length_set]
    exact List.mem_range.1 hj
  · refine .inr ⟨m, ?_, fun hnone => (nomatch hnone),
      hawaited.other hr hqueue hstage (fun heq => absurd heq.symm hne) hwritten⟩
    obtain ⟨messages, hq⟩ := hqueue
    show m ∈ List.range s.1.lockingQueue.length
    rw [List.mem_range, hq, List.length_append]
    exact Nat.lt_of_lt_of_le (List.mem_range.1 hm) (Nat.le_add_right _ _)

end Pools

/-! ## The invariant -/

/-- A forgotten seat has someone who may still come to it. -/
structure LeadsBack (p : DebtPool) : Prop where
  inRange : LockedInRange p.store.1.services.redis
  hope : ∀ seat, Forgotten p.store.1.services.redis seat → Hope p none none seat

/-- An operation is started by itself only. -/
theorem operation_of_environ {x : Environ} {s t : World} {ts : List (Task × Service Result)}
    {q : Service Result} (h : environ x s = some (t, ts)) (hmem : (.operation, q) ∈ ts) :
    ∃ p, x = .operation p := by
  have hone : ∀ {m : Task} {p : Service Result}, ts = [(m, p)] → m = .operation := by
    intro m p hts
    rw [hts] at hmem
    exact (Prod.mk.inj (List.mem_singleton.1 hmem)).1.symm
  cases x with
  | operation p => exact ⟨p, rfl⟩
  | tick | scheduleOpened | setClosedKey =>
      rw [← (Prod.mk.inj (Option.some.inj h)).2] at hmem
      cases hmem
  | lock | cancel | handle | scheduleClosed | request | cancelOrder =>
      cases hone (Prod.mk.inj (Option.some.inj h)).2.symm
  | lockMessage | actor =>
      obtain ⟨y, -, heq⟩ := Option.map_eq_some_iff.1 h
      cases hone (Prod.mk.inj heq).2.symm
  | updater entry =>
      simp only [environ] at h
      split_ifs at h
      cases hone (Prod.mk.inj (Option.some.inj h)).2.symm
  | expiry g entry =>
      simp only [environ] at h
      split_ifs at h
      cases hone (Prod.mk.inj (Option.some.inj h)).2.symm
  | deliver k orderId mockMode =>
      simp only [environ] at h
      split at h
      · cases h
      · next row hrow =>
        obtain ⟨task, htask, heq⟩ := Option.map_eq_some_iff.1 h
        have hop := hone (p := task.2) (m := task.1) (Prod.mk.inj heq).2.symm
        cases row with
        | paymentRequested message =>
            obtain rfl := Option.some.inj htask
            cases hop
        | cancellationRequested message =>
            obtain rfl := Option.some.inj htask
            cases hop
        | orderCompleted event => cases htask
        | ticketCancelled event => cases htask

theorem debtFollows_reachable {p : DebtPool} (h : debts.system.ReachableUnder PaysDebts p) {i : ℕ}
    {n : Task} {q : Service Result} (hr : p.Runs i n q) :
    q.Follows (debtMay n) (debtNext n) (fun _ b => b.owes = none) (p.store.2 i) := by
  refine Machine.follows_of_reachable (Q := fun _ _ b => b.owes = none) ?_ h i n q hr
  intro p x s ts hG henv n q hmem
  refine debtFollows_started (started_of_environ henv n q hmem) ?_
  rintro rfl
  obtain ⟨p', rfl⟩ := operation_of_environ henv hmem
  exact hG

theorem leadsBack_run {p : DebtPool} {i : ℕ} {l : Link}
    (hp : debts.system.ReachableUnder PaysDebts p) (hI : LeadsBack p) (hG : PaysDebts p (.run i l))
    {n : Task} {c : Cmd} {k : Rep c → Service Result} (hr : p.Runs i n (.call c k))
    {s : World × (ℕ → DebtStage)} {r : Rep c} (hs : debts.exec n i l c p.store = some (s, r)) :
    LeadsBack ⟨s, p.threads.set i ⟨n, some (k r)⟩⟩ := by
  obtain ⟨hrun, hstages⟩ := Machine.staged_exec.1 hs
  have hrun : exec i l c p.store.1 = some (s.1, r) := hrun
  obtain ⟨hmay, hrest⟩ := debtFollows_reachable hp hr
  have hr' : p.threads[i]? = some ⟨n, some (.call c k)⟩ := hr
  have hlen : i < p.threads.length := (List.getElem?_eq_some_iff.1 hr').1
  obtain ⟨hforfeits, habandons, hends⟩ : LooksAhead p i l n c k := by
    simpa only [PaysDebts, hr'] using hG
  have hself : s.2 i = debtNext n (p.store.2 i) c r := by
    rw [hstages, Function.update_self]
  have hstage : ∀ j, j ≠ i → s.2 j = p.store.2 j := fun j hne => by
    rw [hstages, Function.update_of_ne hne]
  have hqueue := lockingQueue_exec hrun
  have hrange : LockedInRange s.1.services.redis := by
    rcases redis_exec hrun with ⟨k', rfl, ht⟩ | ⟨-, ht⟩
    · rw [ht]
      by_cases hl : l = .lost
      · rw [if_pos hl]
        exact hI.inRange
      · rw [if_neg hl]
        exact hI.inRange.effect
    · rw [ht]
      exact hI.inRange
  refine ⟨hrange, fun seat hafter => ?_⟩
  have hafter : Forgotten s.1.services.redis seat := hafter
  have hpos := hrange seat hafter.1
  have hwritten : seat ∈ (s.2 i).written → seat ∈ (p.store.2 i).written := by
    intro hw
    rw [hself] at hw
    cases c with
    | service c =>
        cases c with
        | redis k' => exact written_before hrun (hmay k' rfl) hafter hw
        | _ => exact hw
    | _ => exact hw
  have hother : Hope p (some i) n.message seat →
      Hope ⟨s, p.threads.set i ⟨n, some (k r)⟩⟩ none none seat :=
    fun hhope => hhope.other hr' hqueue hstage hwritten
  -- a session that owes the field has not come to its end
  have hown : n.Handles seat → (debtNext n (p.store.2 i) c r).owes.map Prod.fst = some seat →
      Hope ⟨s, p.threads.set i ⟨n, some (k r)⟩⟩ none none seat := by
    intro hhandles howes
    have hreturned : (k r).returned = false := by
      have hfollows := hrest r
      cases hk : k r with
      | call => rfl
      | ret x =>
          rw [hk] at hfollows
          have hnone : (debtNext n (p.store.2 i) c r).owes = none := hfollows
          rw [hnone] at howes
          cases howes
    refine .inl ⟨i, ?_, fun hnone => (nomatch hnone),
      ⟨n, Pool.working_set_self hlen hreturned, hhandles⟩, ?_⟩
    · rw [List.mem_range, List.length_set]
      exact hlen
    · show (s.2 i).owes.map Prod.fst = some seat
      rw [hself]
      exact howes
  by_cases hbefore : Forgotten p.store.1.services.redis seat
  · rcases hI.hope seat hbefore with ⟨j, hj, -, howed⟩ | ⟨m, hm, -, hawaited⟩
    · by_cases hji : j = i
      · subst hji
        obtain ⟨⟨n', hn', hhandles⟩, howes⟩ := howed
        obtain rfl : n = n' := Option.some.inj ((Pool.working_eq_some.2 ⟨c, k, hr⟩).symm.trans hn')
        have hkept : (debtNext n (p.store.2 j) c r).owes.map Prod.fst = some seat ∨
            forfeits l c (p.store.2 j) = some seat := by
          cases c with
          | service c =>
              cases c with
              | redis k' => exact owes_kept hrun (hmay k' rfl) hpos hafter howes
              | _ => exact .inl howes
          | _ => exact .inl howes
        rcases hkept with hkept | hforfeit
        · exact hown hhandles hkept
        · exact hother ((hforfeits seat hforfeit).resolve_left (not_not.2 hbefore))
      · refine hother (.inl ⟨j, hj, fun heq => hji (Option.some.inj heq), howed⟩)
    · by_cases hm' : some m = n.message ∧ (k r).returned = true
      · obtain ⟨⟨message, hmessage, haction, hshow, hseat⟩, -, hnot⟩ := hawaited
        have hwrite := (hends (s.1, r) hrun).resolve_left (by rw [hm'.2]; exact fun h => nomatch h)
          m hm'.1.symm message hmessage
        have hkey : (message.showtimeId, seat.2) = seat := by rw [hshow]
        rcases (hwrite.resolve_left haction) seat.2 hseat with hw | hexcused
        · exfalso
          rw [hkey, ← hself] at hw
          refine hnot ⟨i, List.mem_range.2 hlen, ?_⟩
          rw [hr']
          cases n with
          | lockMessage k' message' =>
              exact ⟨(Option.some.inj hm'.1).symm, hwritten hw⟩
          | _ => cases hm'.1
        · rw [hkey] at hexcused
          exact hother (hexcused.resolve_left (not_not.2 hbefore))
      · refine .inr ⟨m, ?_, fun hnone => (nomatch hnone),
          hawaited.other hr' hqueue hstage (fun heq x hx => hm' ⟨heq.symm, ?_⟩) hwritten⟩
        · obtain ⟨messages, hq⟩ := hqueue
          show m ∈ List.range s.1.lockingQueue.length
          rw [List.mem_range, hq, List.length_append]
          exact Nat.lt_of_lt_of_le (List.mem_range.1 hm) (Nat.le_add_right _ _)
        · rw [Option.some.inj hx]
          rfl
  · rcases redis_exec hrun with ⟨k', rfl, ht⟩ | ⟨-, ht⟩
    · have hredis := congrArg Payments.World.redis ht
      dsimp only at hredis
      by_cases hl : l = .lost
      · rw [if_pos hl] at hredis
        rw [hredis] at hafter
        exact absurd hafter hbefore
      · rw [if_neg hl] at hredis
        rw [hredis] at hafter
        have hcmd := hmay k' rfl
        rcases forgotten_effect hcmd hpos hbefore hafter with ⟨userId, entry, rfl⟩ |
          ⟨e, rfl, hseat, hlast⟩
        · refine hown hcmd.2.2.1 ?_
          show (if _ ∧ 0 ≤ seat.2 then _ else _ : DebtStage).owes.map Prod.fst = some seat
          rw [if_pos ⟨rfl, hpos⟩]
          rfl
        · subst hseat
          by_cases hrefused : (p.store.2 i).refused = true
          · have habandon : e ∈ abandons l (.service (.redis (.zremQueue e))) (p.store.2 i) :=
              if_pos ⟨hrefused, hl⟩
            exact hother ((habandons e habandon).resolve_left hlast)
          · refine hown hcmd.1 ?_
            show (if _ ∨ e.seatId < 0 then _ else _ : DebtStage).owes.map Prod.fst = some e.seat
            have hpos : 0 ≤ e.seatId := hpos
            rw [if_neg (by rintro (h | h); exact hrefused h; exact absurd h (not_lt.2 hpos))]
            rfl
    · rw [ht] at hafter
      exact absurd hafter hbefore

/-- A delivered lock message is not at its end when it is started. -/
theorem returned_lockMessage {message : SeatLockMessage} (h : message.action ≠ "unlock") :
    (forget (onRedis (processLockRequest message))).returned = false := by
  unfold processLockRequest
  rw [if_neg h]
  rfl

theorem leadsBack_environ {p : DebtPool} (hp : debts.system.ReachableUnder PaysDebts p)
    (hI : LeadsBack p) {x : Environ} {s : World × (ℕ → DebtStage)}
    {ts : List (Task × Service Result)} (hs : debts.environ x p.store = some (s, ts)) :
    LeadsBack ⟨s, p.threads ++ Machine.start ts⟩ := by
  obtain ⟨henv, hstages⟩ := Machine.staged_environ.1 hs
  have henv : environ x p.store.1 = some (s.1, ts) := henv
  obtain ⟨hqueue, -, d, hredis⟩ := services_environ henv
  have hold : ∀ seat, Forgotten s.1.services.redis seat →
      Forgotten p.store.1.services.redis seat := by
    intro seat h
    rw [hredis] at h
    exact h
  refine ⟨fun seat hlocked => ?_, fun seat hafter => ?_⟩
  · have hlocked : s.1.services.redis.bitmap seat = .locked := hlocked
    rw [hredis] at hlocked
    exact hI.inRange seat hlocked
  · have hget : ∀ {j : ℕ}, j < p.threads.length →
        (p.threads ++ Machine.start ts)[j]? = p.threads[j]? :=
      fun hj => List.getElem?_append_left hj
    have hmem : ∀ {j : ℕ}, j ∈ List.range p.threads.length →
        j ∈ List.range (p.threads ++ Machine.start ts).length := by
      intro j hj
      rw [List.mem_range, List.length_append]
      exact Nat.lt_of_lt_of_le (List.mem_range.1 hj) (Nat.le_add_right _ _)
    rcases hI.hope seat (hold seat hafter) with ⟨j, hj, hne, ⟨n, hn, hhandles⟩, howes⟩ |
      ⟨m, hm, hne, ⟨message, hmessage, hlocks⟩, hacked, hnot⟩
    · refine .inl ⟨j, hmem hj, hne, ⟨n, ?_, hhandles⟩, ?_⟩
      · show Pool.working ⟨s, p.threads ++ Machine.start ts⟩ j = some n
        unfold Pool.working
        rw [hget (List.mem_range.1 hj)]
        exact hn
      · show (s.2 j).owes.map Prod.fst = some seat
        rw [hstages]
        exact howes
    · refine .inr ⟨m, ?_, hne, ⟨message, ?_, hlocks⟩, ?_, ?_⟩
      · show m ∈ List.range s.1.lockingQueue.length
        rw [hqueue]
        exact hm
      · show s.1.lockingQueue[m]? = some message
        rw [hqueue]
        exact hmessage
      · -- a message that locks seats is started with something to do
        intro h
        have hreturned := returned_lockMessage hlocks.1
        exact hacked (acked_of_start (started_of_environ henv) hmessage hreturned h)
      · rintro ⟨j, hj, hwrote⟩
        have hwrote : WroteFor m seat (s.2 j) (p.threads ++ Machine.start ts)[j]? := hwrote
        rw [hstages] at hwrote
        by_cases hlt : j < p.threads.length
        · rw [hget hlt] at hwrote
          exact hnot ⟨j, List.mem_range.2 hlt, hwrote⟩
        · rw [Machine.unstarted_of_reachable hp j (not_lt.1 hlt)] at hwrote
          unfold WroteFor at hwrote
          split at hwrote
          · cases hwrote.2
          · exact hwrote

theorem leadsBack_crash {p : DebtPool} {i : ℕ} (hI : LeadsBack p) (hG : PaysDebts p (.crash i))
    {n : Task} {c : Cmd} {k : Rep c → Service Result} (hr : p.Runs i n (.call c k)) :
    LeadsBack ⟨debts.close i p.store, p.threads.set i ⟨n, none⟩⟩ := by
  have hr' : p.threads[i]? = some ⟨n, some (.call c k)⟩ := hr
  have hqueue : ∃ messages, (debts.close i p.store).1.lockingQueue =
      p.store.1.lockingQueue ++ messages := ⟨[], (List.append_nil _).symm⟩
  refine ⟨hI.inRange, fun seat hafter => ?_⟩
  have hbefore : Forgotten p.store.1.services.redis seat := hafter
  have hawait : ∀ m, AwaitedBy p seat m →
      AwaitedBy ⟨debts.close i p.store, p.threads.set i ⟨n, none⟩⟩ seat m :=
    fun m h => h.other hr' hqueue (fun _ _ => rfl) (fun _ x hx => (nomatch hx)) id
  have hkept : Hope p (some i) none seat →
      Hope ⟨debts.close i p.store, p.threads.set i ⟨n, none⟩⟩ none none seat := by
    rintro (⟨j, hj, hne, howed⟩ | ⟨m, hm, hne, hawaited⟩)
    · refine .inl ⟨j, ?_, fun hnone => (nomatch hnone),
        howed.other (fun heq => hne (congrArg some heq)) rfl⟩
      rw [List.mem_range, List.length_set]
      exact List.mem_range.1 hj
    · exact .inr ⟨m, hm, hne, hawait m hawaited⟩
  rcases hI.hope seat hbefore with ⟨j, hj, hne, howed⟩ | ⟨m, hm, hne, hawaited⟩
  · by_cases hji : j = i
    · subst hji
      obtain ⟨x, hx, rfl⟩ := Option.map_eq_some_iff.1 howed.2
      exact hkept ((hG x hx).resolve_left (not_not.2 hbefore))
    · exact hkept (.inl ⟨j, hj, fun heq => hji (Option.some.inj heq), howed⟩)
  · exact hkept (.inr ⟨m, hm, hne, hawaited⟩)

theorem leadsBack_reachable {p : DebtPool} (h : debts.system.ReachableUnder PaysDebts p) :
    LeadsBack p := by
  induction h with
  | @init p h0 =>
      obtain ⟨⟨⟨seats, hstore⟩, -⟩, -⟩ := h0
      have hfields : ∀ seat, p.store.1.services.redis.bitmap seat ≠ .locked := by
        intro seat
        rw [hstore]
        exact fun h => nomatch h
      exact ⟨fun seat hlocked => absurd hlocked (hfields seat),
        fun seat hforgotten => absurd hforgotten.1 (hfields seat)⟩
  | @step p q a hp hG hst ih =>
      have hst : debts.step p a = some q := hst
      cases a with
      | environ x =>
          obtain ⟨s, ts, hs, rfl⟩ := Machine.step_environ hst
          exact leadsBack_environ hp ih hs
      | run i l =>
          obtain ⟨n, c, k, s, r, hr, hs, rfl⟩ := Machine.step_run hst
          exact leadsBack_run hp ih hG hr hs
      | crash i =>
          obtain ⟨n, c, k, hr, rfl⟩ := Machine.step_crash hst
          exact leadsBack_crash ih hG hr

/-- No lock message for the seat is queued or in flight, and nothing is at work on it. -/
structure Quiescent (p : DebtPool) (seat : ℤ × ℤ) : Prop where
  acked : ∀ k ∈ List.range p.store.1.lockingQueue.length,
    ∀ message ∈ p.store.1.lockingQueue[k]?, LocksSeat message seat → Acked p k
  idle : ∀ j ∈ List.range p.threads.length, ∀ n ∈ p.working j, ¬n.Handles seat

instance {p : DebtPool} {seat : ℤ × ℤ} : Decidable (Quiescent p seat) :=
  decidable_of_iff (_ ∧ _) ⟨fun h => ⟨h.1, h.2⟩, fun h => ⟨h.1, h.2⟩⟩

/-- Where debts are paid, entries are abandoned for the sake of a message to come only, and messages
come to their end with their metadata written, a locked field has a live lock or an entry. -/
theorem locked_leads_back {p : DebtPool} (h : debts.system.ReachableUnder PaysDebts p)
    {seat : ℤ × ℤ} (hquiet : Quiescent p seat)
    (hlocked : p.store.1.services.redis.bitmap seat = .locked) :
    (p.store.1.services.redis.lockOwner seat.1 seat.2).isSome = true ∨
      p.store.1.services.redis.Queued seat := by
  refine .inr (not_not.1 fun hnot => ?_)
  rcases (leadsBack_reachable h).hope seat ⟨hlocked, hnot⟩ with
    ⟨j, hj, -, ⟨n, hn, hhandles⟩, -⟩ | ⟨m, hm, -, ⟨message, hmessage, hlocks⟩, hacked, -⟩
  · exact hquiet.idle j hj n hn hhandles
  · exact hacked (hquiet.acked m hm message hmessage hlocks)

/-! ## Runs -/

/-- User 42 locks the seat and the message is handled; user 43 locks it after 301 seconds, and the
publication of the message goes over the link. -/
def relocksOver (l : Link) : List (Act Link Environ) :=
  locksSeat ++ .environ (.lockMessage 0) :: steps 2 7 ++ .environ (.tick 301000) ::
    .environ (.lock 1 43 1 [1] [1] 10) :: steps 3 11 ++ .environ (.actor 1 0 1) :: steps 4 3 ++
      [.run 4 l, .run 4 .ok]

/-- The gateway's worker drops user 42's entry, which is due. -/
def dropsEntry (i : ℕ) : List (Act Link Environ) :=
  .environ (.tick 15000) :: .environ (.expiry 0 ⟨1, 1, 42⟩) :: steps i 4

/-- The field of seat 1 of show 1 says locked, and nothing is on its way to the seat. -/
def RestsLocked (p : DebtPool) : Prop :=
  Quiescent p (1, 1) ∧ p.store.1.services.redis.bitmap (1, 1) = .locked

instance {p : DebtPool} : Decidable (RestsLocked p) := by
  unfold RestsLocked
  infer_instance

/-- User 43's message was handled before user 42's entry is dropped. -/
theorem locked_leads_back_relocked :
    ∃ p, debts.system.ReachableUnder PaysDebts p ∧ RestsLocked p ∧
      ((p.store.1.services.redis.lockOwner 1 1).isSome = true ∨
        p.store.1.services.redis.Queued (1, 1)) := by
  obtain ⟨p, hp, hend⟩ := System.exists_reachable_of_runUnder debts.system PaysDebts
    (fun p => decide (RestsLocked p))
    (s := ⟨(newWorld Payments.oneSeat, fun _ => .start), []⟩) ⟨⟨⟨_, rfl⟩, rfl⟩, rfl⟩
    (relocksOver .ok ++ .environ (.lockMessage 1) :: steps 5 7 ++ dropsEntry 6) (by decide +kernel)
  have hrests : RestsLocked p := of_decide_eq_true hend
  exact ⟨p, hp, hrests, locked_leads_back hp hrests.1 hrests.2⟩

/-- The publication of user 43's message fails, user 42's entry is dropped all the same, and user 43's
lock expires. -/
theorem left_locked :
    ¬ ∀ p seat, debts.system.ReachableUnder Deployed p → Quiescent p seat →
      p.store.1.services.redis.bitmap seat = .locked →
        (p.store.1.services.redis.lockOwner seat.1 seat.2).isSome = true ∨
          p.store.1.services.redis.Queued seat := by
  intro hall
  obtain ⟨p, hp, hend⟩ := System.exists_reachable_of_runUnder debts.system Deployed
    (fun p => decide (RestsLocked p ∧ p.store.1.services.redis.lockOwner 1 1 = none ∧
      ¬p.store.1.services.redis.Queued (1, 1)))
    (s := ⟨(newWorld Payments.oneSeat, fun _ => .start), []⟩) ⟨⟨⟨_, rfl⟩, rfl⟩, rfl⟩
    (relocksOver .lost ++ dropsEntry 5 ++ [.environ (.tick 300000)]) (by decide +kernel)
  obtain ⟨hrests, hfree, hnone⟩ := of_decide_eq_true hend
  rcases hall p (1, 1) hp hrests.1 hrests.2 with hlive | hqueued
  · rw [hfree] at hlive
    cases hlive
  · exact hnone hqueued

end Gateway
end Bookit

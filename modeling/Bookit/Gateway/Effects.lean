import Bookit.Gateway.System
import Bookit.Redis.Effects

/-!
# Gateway.Effects — what the steps of the world do to Redis and PostgreSQL

Redis changes by the effect of a Redis command or by the passage of time, and PostgreSQL by no Redis
command; the commands on actors leave both alone.
-/

namespace Bookit

open Lib

namespace Gateway

variable {i : ℕ} {l : Link} {c : Cmd} {s t : World} {r : Rep c}

theorem World.onActor_services {ρ : Type} {g cell : ℕ} {f : ShowActor → ShowActor × ρ} {r : ρ}
    (h : s.onActor g cell f = some (t, r)) :
    t.services = s.services ∧ t.lockingQueue = s.lockingQueue := by
  obtain ⟨x, -, heq⟩ := Option.map_eq_some_iff.1 h
  obtain ⟨rfl, -⟩ := Prod.mk.inj heq
  exact ⟨rfl, rfl⟩

/-- A command is one of the payment path, or leaves its world alone. -/
theorem services_exec (h : exec i l c s = some (t, r)) :
    (∃ k r', c = .service k ∧ Payments.exec i l k s.services = some (t.services, r')) ∨
      ((∀ k, c ≠ .service k) ∧ t.services = s.services) := by
  cases c with
  | service k =>
      obtain ⟨x, hx, heq⟩ := Option.map_eq_some_iff.1 h
      obtain ⟨rfl, -⟩ := Prod.mk.inj heq
      exact .inl ⟨k, x.2, rfl, hx⟩
  | isClosed | hasCell | insertClosed | removeCell | actorCell | initCell | checkOpen
    | clearAdmission | answer =>
      obtain ⟨rfl, -⟩ := Prod.mk.inj (Option.some.inj h)
      exact .inr ⟨fun _ hk => (nomatch hk), rfl⟩
  | existsClosedKey showtimeId =>
      refine .inr ⟨fun _ hk => (nomatch hk), ?_⟩
      cases l <;> exact congrArg (World.services ·.1) (Option.some.inj h.symm)
  | setClosing g cell =>
      refine .inr ⟨fun _ hk => (nomatch hk), ?_⟩
      simp only [exec] at h
      split at h
      · obtain ⟨rfl, -⟩ := Prod.mk.inj (Option.some.inj h)
        rfl
      · next x hx =>
        obtain rfl := Option.some.inj h
        exact (World.onActor_services hx).1
  | isClosing | registerSeat | tryAdmit | trySend =>
      exact .inr ⟨fun _ hk => (nomatch hk), (World.onActor_services h).1⟩
  | send g cell userId seatIds =>
      refine .inr ⟨fun _ hk => (nomatch hk), ?_⟩
      simp only [exec] at h
      split at h
      · next hx =>
        obtain ⟨rfl, -⟩ := Prod.mk.inj (Option.some.inj h)
        exact (World.onActor_services hx).1
      · cases h
  | awaitAnswer g =>
      refine .inr ⟨fun _ hk => (nomatch hk), ?_⟩
      simp only [exec] at h
      split at h
      · cases h
      · obtain ⟨rfl, -⟩ := Prod.mk.inj (Option.some.inj h)
        rfl
  | recv g cell =>
      refine .inr ⟨fun _ hk => (nomatch hk), ?_⟩
      simp only [exec] at h
      split at h
      · cases h
      · split at h
        · cases h
        · obtain ⟨rfl, -⟩ := Prod.mk.inj (Option.some.inj h)
          rfl
  | handleEvent g =>
      refine .inr ⟨fun _ hk => (nomatch hk), ?_⟩
      simp only [exec] at h
      split at h
      · cases h
      · obtain ⟨rfl, -⟩ := Prod.mk.inj (Option.some.inj h)
        rfl
  | publishLocking message =>
      refine .inr ⟨fun _ hk => (nomatch hk), ?_⟩
      cases l <;> obtain ⟨rfl, -⟩ := Prod.mk.inj (Option.some.inj h) <;> rfl

/-- Published messages stay published. -/
theorem lockingQueue_exec (h : exec i l c s = some (t, r)) :
    ∃ messages, t.lockingQueue = s.lockingQueue ++ messages := by
  have hself : t.lockingQueue = s.lockingQueue → ∃ messages,
      t.lockingQueue = s.lockingQueue ++ messages := fun heq => ⟨[], by rw [heq, List.append_nil]⟩
  cases c with
  | service k =>
      obtain ⟨x, hx, heq⟩ := Option.map_eq_some_iff.1 h
      obtain ⟨rfl, -⟩ := Prod.mk.inj heq
      exact hself rfl
  | isClosed | hasCell | insertClosed | removeCell | actorCell | initCell | checkOpen
    | clearAdmission | answer =>
      obtain ⟨rfl, -⟩ := Prod.mk.inj (Option.some.inj h)
      exact hself rfl
  | existsClosedKey showtimeId =>
      cases l <;> exact hself (congrArg (World.lockingQueue ·.1) (Option.some.inj h.symm))
  | setClosing g cell =>
      simp only [exec] at h
      split at h
      · obtain ⟨rfl, -⟩ := Prod.mk.inj (Option.some.inj h)
        exact hself rfl
      · next x hx =>
        obtain rfl := Option.some.inj h
        exact hself (World.onActor_services hx).2
  | isClosing | registerSeat | tryAdmit | trySend => exact hself (World.onActor_services h).2
  | send g cell userId seatIds =>
      simp only [exec] at h
      split at h
      · next hx =>
        obtain ⟨rfl, -⟩ := Prod.mk.inj (Option.some.inj h)
        exact hself (World.onActor_services hx).2
      · cases h
  | awaitAnswer g | handleEvent g =>
      simp only [exec] at h
      split at h
      · cases h
      · obtain ⟨rfl, -⟩ := Prod.mk.inj (Option.some.inj h)
        exact hself rfl
  | recv g cell =>
      simp only [exec] at h
      split at h
      · cases h
      · split at h
        · cases h
        · obtain ⟨rfl, -⟩ := Prod.mk.inj (Option.some.inj h)
          exact hself rfl
  | publishLocking message =>
      cases l with
      | ok | unacked =>
          obtain ⟨rfl, -⟩ := Prod.mk.inj (Option.some.inj h)
          exact ⟨[message], rfl⟩
      | lost =>
          obtain ⟨rfl, -⟩ := Prod.mk.inj (Option.some.inj h)
          exact hself rfl

/-- What a command does to Redis, and that a Redis command does nothing else. -/
theorem redis_exec (h : exec i l c s = some (t, r)) :
    (∃ k, c = .service (.redis k) ∧ t.services = { s.services with
        redis := if l = .lost then s.services.redis else k.effect s.services.redis }) ∨
      ((∀ k, c ≠ .service (.redis k)) ∧ t.services.redis = s.services.redis) := by
  rcases services_exec h with ⟨k, r', rfl, hk⟩ | ⟨hne, heq⟩
  · rcases Payments.redis_exec hk with ⟨k, rfl, ht⟩ | ⟨hne, heq⟩
    · exact .inl ⟨k, rfl, ht⟩
    · exact .inr ⟨fun k heq => hne k (Cmd.service.inj heq), heq⟩
  · exact .inr ⟨fun k => hne _, congrArg _ heq⟩

/-- The environment lets time pass, or opens a schedule in a replica, or sets a key. -/
theorem environ_cases {x : Environ} {ts : List (Task × Service Result)}
    (h : environ x s = some (t, ts)) :
    t = s ∨
      (∃ d, t = { s with services := { s.services with redis :=
        { s.services.redis with now := s.services.redis.now + d } } }) ∨
      (∃ g closedShows, t = s.setGateway g { s.gateways g with closedShows := closedShows }) ∨
      ∃ closedKeys, t = { s with closedKeys := closedKeys } := by
  cases x with
  | tick d =>
      obtain ⟨rfl, -⟩ := Prod.mk.inj (Option.some.inj h)
      exact .inr (.inl ⟨d, rfl⟩)
  | scheduleOpened g showtimeId =>
      obtain ⟨rfl, -⟩ := Prod.mk.inj (Option.some.inj h)
      exact .inr (.inr (.inl ⟨g, _, rfl⟩))
  | setClosedKey showtimeId closed =>
      obtain ⟨rfl, -⟩ := Prod.mk.inj (Option.some.inj h)
      exact .inr (.inr (.inr ⟨_, rfl⟩))
  | lockMessage n | actor g cell rounds =>
      obtain ⟨m, -, heq⟩ := Option.map_eq_some_iff.1 h
      exact .inl (Prod.mk.inj heq).1.symm
  | updater entry =>
      simp only [environ] at h
      split_ifs at h
      exact .inl (Prod.mk.inj (Option.some.inj h)).1.symm
  | expiry g entry =>
      simp only [environ] at h
      split_ifs at h
      exact .inl (Prod.mk.inj (Option.some.inj h)).1.symm
  | deliver n orderId mockMode =>
      simp only [environ] at h
      split at h
      · cases h
      · obtain ⟨task, -, heq⟩ := Option.map_eq_some_iff.1 h
        exact .inl (Prod.mk.inj heq).1.symm
  | operation | lock | cancel | handle | scheduleClosed | request | cancelOrder =>
      exact .inl (Prod.mk.inj (Option.some.inj h)).1.symm

/-- The steps of the environment let time pass at most. -/
theorem services_environ {x : Environ} {ts : List (Task × Service Result)}
    (h : environ x s = some (t, ts)) :
    t.lockingQueue = s.lockingQueue ∧ t.services.pg = s.services.pg ∧
      ∃ d, t.services.redis = { s.services.redis with now := s.services.redis.now + d } := by
  rcases environ_cases h with rfl | ⟨d, rfl⟩ | ⟨g, closedShows, rfl⟩ | ⟨closedKeys, rfl⟩
  · exact ⟨rfl, rfl, 0, rfl⟩
  · exact ⟨rfl, rfl, d, rfl⟩
  · exact ⟨rfl, rfl, 0, rfl⟩
  · exact ⟨rfl, rfl, 0, rfl⟩

/-- Of a replica, the environment changes which schedules it knows to be closed at most. -/
theorem gateways_environ {x : Environ} {ts : List (Task × Service Result)}
    (h : environ x s = some (t, ts)) (g : ℕ) :
    ∃ closedShows, t.gateways g = { s.gateways g with closedShows := closedShows } := by
  rcases environ_cases h with rfl | ⟨d, rfl⟩ | ⟨g', closedShows, rfl⟩ | ⟨closedKeys, rfl⟩
  · exact ⟨_, rfl⟩
  · exact ⟨_, rfl⟩
  · by_cases hg : g = g'
    · subst hg
      exact ⟨closedShows, Redis.setAt_self⟩
    · exact ⟨_, Redis.setAt_ne hg⟩
  · exact ⟨_, rfl⟩

/-- The threads that the environment starts, with what there is to do when they are started. -/
inductive Started (s : World) : Task → Service Result → Prop where
  | operation (p : SingleNodeLock.Op Bool) : Started s .operation (forget (onRedis p))
  | lockMessage {n : ℕ} {message : LockServer.SeatLockMessage}
      (hmessage : s.lockingQueue[n]? = some message) :
      Started s (.lockMessage n message) (forget (onRedis (LockServer.processLockRequest message)))
  | updater {entry : QueueEntry} (hdue : due entry s = true) :
      Started s (.updater entry) (forget (onServices (LockServer.processDueEntry entry)))
  | expiry (g : ℕ) {entry : QueueEntry} (hdue : due entry s = true) :
      Started s (.expiry g entry)
        (forget (releaseExpiredEntry g s.services.redis.timestamp entry))
  | lock (g : ℕ) (userId showtimeId : ℤ) (seatIds seatIndices : List ℤ) (totalSeatCount : ℤ) :
      Started s (.lock g userId showtimeId seatIds)
        (lockTask g userId showtimeId seatIds seatIndices totalSeatCount)
  | cancel (g : ℕ) (userId showtimeId : ℤ) (seatIds seatIndices : List ℤ) (totalSeatCount : ℤ) :
      Started s (.cancel g userId showtimeId seatIds)
        (cancelTask g userId showtimeId seatIds seatIndices totalSeatCount)
  | actor {g cell : ℕ} {x : ActorCell} (hcell : (s.gateways g).cells[cell]? = some x) (rounds : ℕ) :
      Started s (.actor g x.showtimeId) (forget (runShowActor g x.showtimeId cell rounds))
  | listener (g : ℕ) : Started s (.listener g) (forget (Prog.perform (Cmd.handleEvent g)))
  | closing (g : ℕ) (showtimeId : ℤ) :
      Started s (.closing g showtimeId) (forget (markScheduleClosed g showtimeId))
  | request (provider : Payments.Provider) (userId : ℤ) (request : Payments.PaymentRequest)
      (paymentRequestId : ℕ) :
      Started s (.request userId request) (forget (onServices
        (Payments.requestPayment provider userId request paymentRequestId)))
  | cancelOrder (userId : ℤ) (orderId : ℕ) (idempotencyKey : String) :
      Started s (.cancelOrder userId orderId) (forget (onServices
        (Payments.cancelOrder userId orderId idempotencyKey)))
  | checkout (message : Payments.CheckoutMessage) (orderId : ℕ) :
      Started s (.checkout message orderId)
        (forget (onServices (Payments.processCheckout message orderId)))
  | cancellation (mockMode : Bool) (message : Payments.CancellationMessage) :
      Started s (.cancellation message)
        (forget (onServices (Payments.processCancellation mockMode message)))

theorem started_of_environ {x : Environ} {ts : List (Task × Service Result)}
    (h : environ x s = some (t, ts)) : ∀ n q, (n, q) ∈ ts → Started s n q := by
  intro n q hmem
  have hone : ∀ {m : Task} {p : Service Result}, ts = [(m, p)] → Started s m p → Started s n q := by
    intro m p hts hp
    rw [hts] at hmem
    obtain ⟨rfl, rfl⟩ := Prod.mk.inj (List.mem_singleton.1 hmem)
    exact hp
  have hnone : ts = [] → Started s n q := by
    intro hts
    rw [hts] at hmem
    cases hmem
  cases x with
  | tick | scheduleOpened | setClosedKey =>
      exact hnone (Prod.mk.inj (Option.some.inj h)).2.symm
  | operation p => exact hone (Prod.mk.inj (Option.some.inj h)).2.symm (.operation p)
  | lockMessage k =>
      obtain ⟨message, hmessage, heq⟩ := Option.map_eq_some_iff.1 h
      exact hone (Prod.mk.inj heq).2.symm (.lockMessage hmessage)
  | updater entry =>
      simp only [environ] at h
      split_ifs at h with hdue
      exact hone (Prod.mk.inj (Option.some.inj h)).2.symm (.updater hdue)
  | expiry g entry =>
      simp only [environ] at h
      split_ifs at h with hdue
      exact hone (Prod.mk.inj (Option.some.inj h)).2.symm (.expiry g hdue)
  | lock g userId showtimeId seatIds seatIndices totalSeatCount =>
      exact hone (Prod.mk.inj (Option.some.inj h)).2.symm
        (.lock g userId showtimeId seatIds seatIndices totalSeatCount)
  | cancel g userId showtimeId seatIds seatIndices totalSeatCount =>
      exact hone (Prod.mk.inj (Option.some.inj h)).2.symm
        (.cancel g userId showtimeId seatIds seatIndices totalSeatCount)
  | actor g cell rounds =>
      obtain ⟨y, hy, heq⟩ := Option.map_eq_some_iff.1 h
      exact hone (Prod.mk.inj heq).2.symm (.actor hy rounds)
  | handle g => exact hone (Prod.mk.inj (Option.some.inj h)).2.symm (.listener g)
  | scheduleClosed g showtimeId =>
      exact hone (Prod.mk.inj (Option.some.inj h)).2.symm (.closing g showtimeId)
  | request provider userId request paymentRequestId =>
      exact hone (Prod.mk.inj (Option.some.inj h)).2.symm
        (.request provider userId request paymentRequestId)
  | cancelOrder userId orderId idempotencyKey =>
      exact hone (Prod.mk.inj (Option.some.inj h)).2.symm (.cancelOrder userId orderId idempotencyKey)
  | deliver k orderId mockMode =>
      simp only [environ] at h
      split at h
      · cases h
      · next row hrow =>
        obtain ⟨task, htask, heq⟩ := Option.map_eq_some_iff.1 h
        have hts := (Prod.mk.inj heq).2.symm
        cases row with
        | paymentRequested message =>
            obtain rfl := Option.some.inj htask
            exact hone hts (.checkout message orderId)
        | cancellationRequested message =>
            obtain rfl := Option.some.inj htask
            exact hone hts (.cancellation mockMode message)
        | orderCompleted event => cases htask
        | ticketCancelled event => cases htask

end Gateway
end Bookit

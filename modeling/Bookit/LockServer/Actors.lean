import Bookit.LockServer.Handlers
import Mathlib.Algebra.BigOperators.Group.List.Basic

/-!
# LockServer.Actors — one actor for each show, and its supervisor

The consumer of `locking_queue` hands each delivery to the actor of its show, which it creates where
there is none.  The actors share a semaphore.  An actor keeps the lock of its receiver until its
handler panics; the supervisor then waits and starts it again on the same receiver.  Every `await` is
a step of its own, and the tasks take steps in any order.
-/

namespace Bookit
namespace LockServer

open Lib

/-! ## Tasks -/

/-- A delivery of `locking_queue` with its delivery tag. -/
structure Delivery where
  tag : ℕ
  message : SeatLockMessage
  deriving DecidableEq

abbrev Delivery.showtimeId (task : Delivery) : ℤ := task.message.showtimeId

/-- How a delivery was settled. -/
inductive Settlement where
  | ack
  | nack
  deriving DecidableEq

/-- Where `supervise` and `run_actor` are: before the lock of the receiver, in `recv`, waiting for a
permit, in the handler, in the acknowledgement of a handler that returned or the rejection of one
that panicked, and in the delay before the restart. -/
inductive Stage where
  | locking
  | receiving
  | acquiring (task : Delivery)
  | processing (task : Delivery)
  | acking (task : Delivery)
  | nacking (task : Delivery)
  | sleeping
  deriving DecidableEq

/-- The channel of an actor, the lock of its receiver, and its supervisor. -/
structure Actor where
  showtimeId : ℤ
  queue : List Delivery
  locked : Bool
  stage : Stage
  deriving DecidableEq

/-- `LOCK_WORKER_CONCURRENCY`, read with a minimum of 1. -/
structure Settings where
  concurrency : ℕ
  positive : 0 < concurrency

def Settings.queueCapacity (cfg : Settings) : ℕ :=
  cfg.concurrency * 2

/-! ## The instance -/

/-- The actors and the loop of the consumer, with the log of its deliveries. -/
structure LockServerActors where
  actors : ℤ → Option ℕ
  tasks : List Actor
  permits : ℕ
  /-- The seats marked `PROCESSING`. -/
  processing : ℤ → ℤ → Bool
  /-- The delivery that the consumer is handing on. -/
  sending : Option Delivery
  received : List Delivery
  handled : List Delivery
  settled : List (Delivery × Settlement)

/-- A delivery arrives; the consumer creates the actor or sends to it; an actor takes a step. -/
inductive Event where
  | deliver (message : SeatLockMessage)
  | actor
  | send
  | lock (k : ℕ)
  | recv (k : ℕ)
  | acquire (k : ℕ)
  | finish (k : ℕ) (panicked : Bool)
  | settle (k : ℕ)
  | wake (k : ℕ)
  deriving DecidableEq

namespace LockServerActors

def markProcessing (task : Delivery) (seats : ℤ → ℤ → Bool) : ℤ → ℤ → Bool :=
  fun showtimeId seatId =>
    if showtimeId = task.showtimeId ∧ seatId ∈ task.message.seatIds then true
    else seats showtimeId seatId

def clearProcessing (task : Delivery) (seats : ℤ → ℤ → Bool) : ℤ → ℤ → Bool :=
  fun showtimeId seatId =>
    if showtimeId = task.showtimeId ∧ seatId ∈ task.message.seatIds then false
    else seats showtimeId seatId

def step (cfg : Settings) (s : LockServerActors) : Event → Option LockServerActors
  | .deliver message =>
      match s.sending with
      | none =>
          let task : Delivery := ⟨s.received.length, message⟩
          some { s with sending := some task, received := s.received ++ [task] }
      | some _ => none
  | .actor =>
      match s.sending with
      | some task =>
          match s.actors task.showtimeId with
          | none =>
              some { s with
                actors := Function.update s.actors task.showtimeId (some s.tasks.length)
                tasks := s.tasks ++ [⟨task.showtimeId, [], false, .locking⟩] }
          | some _ => none
      | none => none
  | .send =>
      match s.sending with
      | some task =>
          match s.actors task.showtimeId with
          | some k =>
              match s.tasks[k]? with
              | some a =>
                  if a.queue.length < cfg.queueCapacity then
                    some { s with
                      sending := none
                      tasks := s.tasks.set k { a with queue := a.queue ++ [task] } }
                  else
                    none
              | none => none
          | none => none
      | none => none
  | .lock k =>
      match s.tasks[k]? with
      | some ⟨showtimeId, queue, false, .locking⟩ =>
          some { s with tasks := s.tasks.set k ⟨showtimeId, queue, true, .receiving⟩ }
      | _ => none
  | .recv k =>
      match s.tasks[k]? with
      | some ⟨showtimeId, task :: queue, locked, .receiving⟩ =>
          some { s with tasks := s.tasks.set k ⟨showtimeId, queue, locked, .acquiring task⟩ }
      | _ => none
  | .acquire k =>
      match s.tasks[k]? with
      | some ⟨showtimeId, queue, locked, .acquiring task⟩ =>
          if 0 < s.permits then
            some { s with
              tasks := s.tasks.set k ⟨showtimeId, queue, locked, .processing task⟩
              permits := s.permits - 1
              processing := markProcessing task s.processing
              handled := s.handled ++ [task] }
          else
            none
      | _ => none
  | .finish k panicked =>
      match s.tasks[k]? with
      | some ⟨showtimeId, queue, locked, .processing task⟩ =>
          some { s with
            tasks := s.tasks.set k
              ⟨showtimeId, queue, locked, if panicked then .nacking task else .acking task⟩
            processing := clearProcessing task s.processing }
      | _ => none
  | .settle k =>
      match s.tasks[k]? with
      | some ⟨showtimeId, queue, locked, .acking task⟩ =>
          some { s with
            tasks := s.tasks.set k ⟨showtimeId, queue, locked, .receiving⟩
            permits := s.permits + 1
            settled := s.settled ++ [(task, .ack)] }
      | some ⟨showtimeId, queue, _, .nacking task⟩ =>
          some { s with
            tasks := s.tasks.set k ⟨showtimeId, queue, false, .sleeping⟩
            permits := s.permits + 1
            settled := s.settled ++ [(task, .nack)] }
      | _ => none
  | .wake k =>
      match s.tasks[k]? with
      | some ⟨showtimeId, queue, locked, .sleeping⟩ =>
          some { s with tasks := s.tasks.set k ⟨showtimeId, queue, locked, .locking⟩ }
      | _ => none

def new (cfg : Settings) : LockServerActors where
  actors _ := none
  tasks := []
  permits := cfg.concurrency
  processing _ _ := false
  sending := none
  received := []
  handled := []
  settled := []

def system (cfg : Settings) : System LockServerActors Event where
  init s := s = new cfg
  step := step cfg

end LockServerActors

/-! ## What an actor has in hand -/

/-- The delivery that the handler has been given and that is not settled yet. -/
def Stage.current : Stage → List Delivery
  | .processing task => [task]
  | .acking task => [task]
  | .nacking task => [task]
  | _ => []

/-- The delivery taken from the channel that waits for a permit. -/
def Stage.taken : Stage → List Delivery
  | .acquiring task => [task]
  | _ => []

/-- The supervisor holds the lock of the receiver. -/
def Stage.holdsLock : Stage → Bool
  | .locking => false
  | .sleeping => false
  | _ => true

abbrev Actor.current (a : Actor) : List Delivery := a.stage.current

def Actor.waiting (a : Actor) : List Delivery :=
  a.stage.taken ++ a.queue

/-- The deliveries of one show, in order. -/
abbrev ofShow (showtimeId : ℤ) (ds : List Delivery) : List Delivery :=
  ds.filter fun d => decide (d.showtimeId = showtimeId)

namespace LockServerActors

/-- The actor that the consumer finds for a show. -/
def actorOf (s : LockServerActors) (showtimeId : ℤ) : Option Actor :=
  (s.actors showtimeId).bind fun k => s.tasks[k]?

def waiting (s : LockServerActors) (showtimeId : ℤ) : List Delivery :=
  ((s.actorOf showtimeId).map Actor.waiting).getD [] ++ ofShow showtimeId s.sending.toList

def current (s : LockServerActors) (showtimeId : ℤ) : List Delivery :=
  ((s.actorOf showtimeId).map Actor.current).getD []

/-- The deliveries that were acknowledged or rejected. -/
def answered (s : LockServerActors) : List Delivery :=
  s.settled.map Prod.fst

end LockServerActors

/-! ## The invariant -/

/-- Every show has at most one actor, which has the deliveries of the show in the order in which they
were received. -/
structure Serial (cfg : Settings) (s : LockServerActors) : Prop where
  index : ∀ r k, s.actors r = some k ↔ ∃ a, s.tasks[k]? = some a ∧ a.showtimeId = r
  own : ∀ a ∈ s.tasks, ∀ d ∈ a.current ++ a.waiting, d.showtimeId = a.showtimeId
  order : ∀ r, ofShow r s.received = ofShow r s.handled ++ s.waiting r
  serial : ∀ r, ofShow r s.handled = ofShow r s.answered ++ s.current r
  permits : s.permits + (s.tasks.map fun a => a.current.length).sum = cfg.concurrency
  locked : ∀ a ∈ s.tasks, a.locked = a.stage.holdsLock
  tags : s.received.map Delivery.tag = List.range s.received.length

section Actors

variable {cfg : Settings} {s t : LockServerActors} {k : ℕ} {a b : Actor} {r : ℤ}

/-- A sum over the actors after one of them has changed. -/
theorem sum_set (f : Actor → ℕ) {as : List Actor} (h : as[k]? = some a) :
    ((as.set k b).map f).sum + f a = (as.map f).sum + f b := by
  induction as generalizing k with
  | nil => cases h
  | cons x as ih =>
      cases k with
      | zero =>
          obtain rfl := Option.some.inj h
          simp only [List.set_cons_zero, List.map_cons, List.sum_cons]
          omega
      | succ k =>
          have hih := ih (k := k) h
          simp only [List.set_cons_succ, List.map_cons, List.sum_cons]
          omega

theorem actorOf_index (hs : Serial cfg s) (h : s.tasks[k]? = some a) :
    s.actorOf a.showtimeId = some a := by
  unfold LockServerActors.actorOf
  rw [(hs.index a.showtimeId k).2 ⟨a, h, rfl⟩]
  exact h

/-- One actor changes, and stays the actor of its show. -/
theorem actorOf_set (hs : Serial cfg s) (h : s.tasks[k]? = some a) (hactors : t.actors = s.actors)
    (htasks : t.tasks = s.tasks.set k b) :
    t.actorOf r = if r = a.showtimeId then some b else s.actorOf r := by
  unfold LockServerActors.actorOf
  rw [hactors, htasks]
  split_ifs with hr
  · subst hr
    rw [(hs.index a.showtimeId k).2 ⟨a, h, rfl⟩]
    exact List.getElem?_set_self (List.getElem?_eq_some_iff.1 h).1
  · refine Option.bind_congr fun j hj => List.getElem?_set_ne ?_
    rintro rfl
    obtain ⟨a', ha', hr'⟩ := (hs.index r k).1 hj
    rw [h] at ha'
    exact hr ((Option.some.inj ha') ▸ hr'.symm)

theorem ofShow_append (ds es : List Delivery) : ofShow r (ds ++ es) = ofShow r ds ++ ofShow r es :=
  List.filter_append ..

/-- Deliveries of one show. -/
theorem ofShow_eq {q : ℤ} {ds : List Delivery} (h : ∀ d ∈ ds, d.showtimeId = q) :
    ofShow r ds = if r = q then ds else [] := by
  split_ifs with hr
  · exact List.filter_eq_self.2 fun d hd => decide_eq_true ((h d hd).trans hr.symm)
  · exact List.filter_eq_nil_iff.2 fun d hd => by
      rw [h d hd, decide_eq_true_eq]
      exact fun heq => hr heq.symm

/-- Actor `k` takes deliveries over from the consumer, hands some to its handler and settles some,
each in order. -/
theorem serial_set {new done : List Delivery} (hs : Serial cfg s) (h : s.tasks[k]? = some a)
    (hactors : t.actors = s.actors) (htasks : t.tasks = s.tasks.set k b)
    (hshow : b.showtimeId = a.showtimeId) (hlocked : b.locked = b.stage.holdsLock)
    (hreceived : t.received = s.received) (hhandled : t.handled = s.handled ++ new)
    (hanswered : t.answered = s.answered ++ done)
    (hown : ∀ d ∈ new ++ done ++ b.current ++ b.waiting, d.showtimeId = a.showtimeId)
    (hwaiting : a.waiting ++ ofShow a.showtimeId s.sending.toList =
      new ++ (b.waiting ++ ofShow a.showtimeId t.sending.toList))
    (hsending : ∀ r, r ≠ a.showtimeId → ofShow r t.sending.toList = ofShow r s.sending.toList)
    (hcurrent : a.current ++ new = done ++ b.current)
    (hpermits : t.permits + b.current.length = s.permits + a.current.length) : Serial cfg t := by
  have hk := (List.getElem?_eq_some_iff.1 h).1
  have hof : ∀ r, t.actorOf r = if r = a.showtimeId then some b else s.actorOf r :=
    fun r => actorOf_set hs h hactors htasks
  have hnew : ∀ r, ofShow r new = if r = a.showtimeId then new else [] := fun r =>
    ofShow_eq fun d hd => hown d (by simp only [List.mem_append]; exact .inl (.inl (.inl hd)))
  have hdone : ∀ r, ofShow r done = if r = a.showtimeId then done else [] := fun r =>
    ofShow_eq fun d hd => hown d (by simp only [List.mem_append]; exact .inl (.inl (.inr hd)))
  refine ⟨fun r j => ?_, fun a' ha' d hd => ?_, fun r => ?_, fun r => ?_, ?_, fun a' ha' => ?_, ?_⟩
  · rw [hactors, hs.index, htasks]
    by_cases hj : j = k
    · subst hj
      rw [h, List.getElem?_set_self hk]
      constructor
      · rintro ⟨_, heq, rfl⟩
        obtain rfl := Option.some.inj heq
        exact ⟨b, rfl, hshow⟩
      · rintro ⟨_, heq, rfl⟩
        obtain rfl := Option.some.inj heq
        exact ⟨a, rfl, hshow.symm⟩
    · rw [List.getElem?_set_ne (Ne.symm hj)]
  · rw [htasks] at ha'
    rcases List.mem_or_eq_of_mem_set ha' with hold | rfl
    · exact hs.own a' hold d hd
    · rw [hshow]
      refine hown d ?_
      rw [List.append_assoc]
      exact List.mem_append_right _ hd
  · have horder := hs.order r
    unfold LockServerActors.waiting at horder ⊢
    rw [hreceived, hhandled, ofShow_append, hnew, hof, horder, List.append_assoc]
    refine congrArg (ofShow r s.handled ++ ·) ?_
    split_ifs with hr
    · subst hr
      rw [actorOf_index hs h]
      exact hwaiting
    · rw [hsending r hr]
      rfl
  · have hserial := hs.serial r
    unfold LockServerActors.current at hserial ⊢
    rw [hhandled, hanswered, ofShow_append, ofShow_append, hnew, hdone, hof, hserial,
      List.append_assoc, List.append_assoc]
    refine congrArg (ofShow r s.answered ++ ·) ?_
    split_ifs with hr
    · subst hr
      rw [actorOf_index hs h]
      exact hcurrent
    · exact List.append_nil _
  · have hsum := sum_set (b := b) (fun a => a.current.length) h
    have hold := hs.permits
    rw [htasks]
    omega
  · rw [htasks] at ha'
    rcases List.mem_or_eq_of_mem_set ha' with hold | rfl
    · exact hs.locked a' hold
    · exact hlocked
  · rw [hreceived]
    exact hs.tags

/-- A step of actor `k` by itself. -/
theorem serial_own {new done : List Delivery} (hs : Serial cfg s) (h : s.tasks[k]? = some a)
    (hactors : t.actors = s.actors) (htasks : t.tasks = s.tasks.set k b)
    (hshow : b.showtimeId = a.showtimeId) (hlocked : b.locked = b.stage.holdsLock)
    (hreceived : t.received = s.received) (hsending : t.sending = s.sending)
    (hhandled : t.handled = s.handled ++ new) (hanswered : t.answered = s.answered ++ done)
    (hwaiting : a.waiting = new ++ b.waiting) (hcurrent : a.current ++ new = done ++ b.current)
    (hpermits : t.permits + b.current.length = s.permits + a.current.length) : Serial cfg t := by
  refine serial_set hs h hactors htasks hshow hlocked hreceived hhandled hanswered (fun d hd => ?_) ?_
    (fun r _ => by rw [hsending]) hcurrent hpermits
  · refine hs.own a (List.mem_of_getElem? h) d ?_
    have hall : done ++ b.current ++ b.waiting = a.current ++ a.waiting := by
      rw [hwaiting, ← List.append_assoc, hcurrent]
    rw [List.mem_append, List.mem_append, List.mem_append] at hd
    rcases hd with ((hd | hd) | hd) | hd
    · rw [hwaiting]
      exact List.mem_append_right _ (List.mem_append_left _ hd)
    · rw [← hall]
      exact List.mem_append_left _ (List.mem_append_left _ hd)
    · rw [← hall]
      exact List.mem_append_left _ (List.mem_append_right _ hd)
    · rw [← hall]
      exact List.mem_append_right _ hd
  · rw [hwaiting, hsending, List.append_assoc]

theorem serial_deliver {message : SeatLockMessage} (hs : Serial cfg s)
    (hst : s.step cfg (.deliver message) = some t) : Serial cfg t := by
  simp only [LockServerActors.step] at hst
  split at hst
  · next hsending =>
    obtain rfl := Option.some.inj hst
    refine ⟨hs.index, hs.own, fun r => ?_, hs.serial, hs.permits, hs.locked, ?_⟩
    · have horder := hs.order r
      unfold LockServerActors.waiting at horder ⊢
      rw [hsending] at horder
      rw [ofShow_append, horder, List.append_assoc]
      refine congrArg (ofShow r s.handled ++ ·) ?_
      show _ ++ [] ++ _ = _
      rw [List.append_nil]
      rfl
    · show (s.received ++ [_]).map Delivery.tag = List.range (s.received ++ [_]).length
      rw [List.map_append, hs.tags, List.length_append, List.length_singleton, List.range_succ]
      rfl
  · cases hst

/-- A show that has no actor gets one. -/
theorem serial_actor (hs : Serial cfg s) (hst : s.step cfg .actor = some t) : Serial cfg t := by
  simp only [LockServerActors.step] at hst
  split at hst
  · next task hsending =>
    split at hst
    · next hnone =>
      obtain rfl := Option.some.inj hst
      let new : Actor := ⟨task.showtimeId, [], false, .locking⟩
      have hof : ∀ r, LockServerActors.actorOf { s with
          actors := Function.update s.actors task.showtimeId (some s.tasks.length)
          tasks := s.tasks ++ [new] } r =
            if r = task.showtimeId then some new else s.actorOf r := by
        intro r
        unfold LockServerActors.actorOf
        dsimp only
        split_ifs with hr
        · rw [hr, Function.update_self]
          exact List.getElem?_concat_length
        · rw [Function.update_of_ne hr]
          refine Option.bind_congr fun j hj => List.getElem?_append_left ?_
          obtain ⟨a, ha, -⟩ := (hs.index r j).1 hj
          exact (List.getElem?_eq_some_iff.1 ha).1
      have hnew : s.actorOf task.showtimeId = none := by
        unfold LockServerActors.actorOf
        rw [hnone]
        rfl
      refine ⟨fun r j => ?_, fun a ha d hd => ?_, fun r => ?_, fun r => ?_, ?_, fun a ha => ?_, hs.tags⟩
      · show Function.update s.actors task.showtimeId (some s.tasks.length) r = some j ↔
          ∃ a, (s.tasks ++ [new])[j]? = some a ∧ a.showtimeId = r
        rcases Nat.lt_trichotomy j s.tasks.length with hj | rfl | hj
        · rw [List.getElem?_append_left hj, ← hs.index]
          by_cases hr : r = task.showtimeId
          · rw [hr, Function.update_self, hnone]
            exact iff_of_false (fun h => Nat.ne_of_gt hj (Option.some.inj h)) (fun h => nomatch h)
          · rw [Function.update_of_ne hr]
        · rw [List.getElem?_concat_length]
          by_cases hr : r = task.showtimeId
          · rw [hr, Function.update_self]
            exact iff_of_true rfl ⟨new, rfl, rfl⟩
          · rw [Function.update_of_ne hr, hs.index]
            refine iff_of_false (fun ⟨a, ha, _⟩ => ?_) fun ⟨a, ha, hshow⟩ => ?_
            · exact Nat.lt_irrefl _ (List.getElem?_eq_some_iff.1 ha).1
            · exact hr (hshow.symm.trans (congrArg Actor.showtimeId (Option.some.inj ha)).symm)
        · have hlast : (s.tasks ++ [new])[j]? = none := by
            refine List.getElem?_eq_none ?_
            rw [List.length_append]
            exact hj
          rw [hlast]
          refine iff_of_false (fun h => ?_) fun ⟨_, h, _⟩ => nomatch h
          by_cases hr : r = task.showtimeId
          · rw [hr, Function.update_self] at h
            exact Nat.ne_of_lt hj (Option.some.inj h)
          · rw [Function.update_of_ne hr, hs.index] at h
            obtain ⟨a, ha, -⟩ := h
            exact Nat.lt_asymm hj (List.getElem?_eq_some_iff.1 ha).1
      · rcases List.mem_append.1 ha with hold | hlast
        · exact hs.own a hold d hd
        · rw [List.mem_singleton.1 hlast] at hd
          exact absurd hd List.not_mem_nil
      · have horder := hs.order r
        unfold LockServerActors.waiting at horder ⊢
        rw [hof]
        split_ifs with hr
        · subst hr
          rw [hnew] at horder
          exact horder
        · exact horder
      · have hserial := hs.serial r
        unfold LockServerActors.current at hserial ⊢
        rw [hof]
        split_ifs with hr
        · subst hr
          rw [hnew] at hserial
          exact hserial
        · exact hserial
      · show s.permits + ((s.tasks ++ [new]).map fun a => a.current.length).sum = _
        rw [List.map_append, List.sum_append]
        exact hs.permits
      · rcases List.mem_append.1 ha with hold | hlast
        · exact hs.locked a hold
        · rw [List.mem_singleton.1 hlast]
          rfl
    · cases hst
  · cases hst

theorem serial_send (hs : Serial cfg s) (hst : s.step cfg .send = some t) : Serial cfg t := by
  simp only [LockServerActors.step] at hst
  split at hst
  · next task hsending =>
    split at hst
    · next k hk =>
      split at hst
      · next a ha =>
        split_ifs at hst with hlength
        obtain rfl := Option.some.inj hst
        have hshow : task.showtimeId = a.showtimeId := by
          obtain ⟨a', ha', hr⟩ := (hs.index _ _).1 hk
          rw [ha] at ha'
          rw [Option.some.inj ha']
          exact hr.symm
        have htask : ∀ r, ofShow r [task] = if r = a.showtimeId then [task] else [] := fun r =>
          ofShow_eq fun d hd => (List.mem_singleton.1 hd) ▸ hshow
        refine serial_set (b := { a with queue := a.queue ++ [task] }) hs ha rfl rfl rfl
          (hs.locked a (List.mem_of_getElem? ha)) rfl (List.append_nil _).symm
          (List.append_nil _).symm (fun d hd => ?_) ?_ (fun r hr => ?_) (List.append_nil _) rfl
        · have hd : d ∈ a.current ++ (a.stage.taken ++ (a.queue ++ [task])) := hd
          rw [← List.append_assoc a.stage.taken, ← List.append_assoc] at hd
          rcases List.mem_append.1 hd with hold | hnew
          · exact hs.own a (List.mem_of_getElem? ha) d hold
          · rw [List.mem_singleton.1 hnew]
            exact hshow
        · rw [hsending]
          show a.waiting ++ ofShow a.showtimeId [task] = a.stage.taken ++ (a.queue ++ [task]) ++ []
          rw [htask, if_pos rfl, List.append_nil, ← List.append_assoc]
          rfl
        · rw [hsending]
          show [] = ofShow r [task]
          rw [htask, if_neg hr]
      · cases hst
    · cases hst
  · cases hst

theorem serial_step {e : Event} (hs : Serial cfg s) (hst : s.step cfg e = some t) :
    Serial cfg t := by
  cases e with
  | deliver message => exact serial_deliver hs hst
  | actor => exact serial_actor hs hst
  | send => exact serial_send hs hst
  | lock k =>
      simp only [LockServerActors.step] at hst
      split at hst
      · next showtimeId queue hk =>
        obtain rfl := Option.some.inj hst
        exact serial_own hs hk rfl rfl rfl rfl rfl rfl (List.append_nil _).symm
          (List.append_nil _).symm rfl rfl rfl
      · cases hst
  | recv k =>
      simp only [LockServerActors.step] at hst
      split at hst
      · next showtimeId task queue locked hk =>
        obtain rfl := Option.some.inj hst
        have hlocked := hs.locked _ (List.mem_of_getElem? hk)
        exact serial_own hs hk rfl rfl rfl hlocked rfl rfl (List.append_nil _).symm
          (List.append_nil _).symm rfl rfl rfl
      · cases hst
  | acquire k =>
      simp only [LockServerActors.step] at hst
      split at hst
      · next showtimeId queue locked task hk =>
        split_ifs at hst with hpermits
        obtain rfl := Option.some.inj hst
        have hlocked := hs.locked _ (List.mem_of_getElem? hk)
        exact serial_own hs hk rfl rfl rfl hlocked rfl rfl rfl (List.append_nil _).symm rfl rfl
          (Nat.sub_add_cancel hpermits)
      · cases hst
  | finish k panicked =>
      simp only [LockServerActors.step] at hst
      split at hst
      · next showtimeId queue locked task hk =>
        obtain rfl := Option.some.inj hst
        have hlocked := hs.locked _ (List.mem_of_getElem? hk)
        cases panicked <;>
          exact serial_own hs hk rfl rfl rfl hlocked rfl rfl (List.append_nil _).symm
            (List.append_nil _).symm rfl rfl rfl
      · cases hst
  | settle k =>
      simp only [LockServerActors.step] at hst
      split at hst
      · next showtimeId queue locked task hk =>
        obtain rfl := Option.some.inj hst
        have hlocked := hs.locked _ (List.mem_of_getElem? hk)
        exact serial_own hs hk rfl rfl rfl hlocked rfl rfl (List.append_nil _).symm
          (List.map_append ..) rfl rfl rfl
      · next showtimeId queue locked task hk =>
        obtain rfl := Option.some.inj hst
        exact serial_own hs hk rfl rfl rfl rfl rfl rfl (List.append_nil _).symm
          (List.map_append ..) rfl rfl rfl
      · cases hst
  | wake k =>
      simp only [LockServerActors.step] at hst
      split at hst
      · next showtimeId queue locked hk =>
        obtain rfl := Option.some.inj hst
        have hlocked := hs.locked _ (List.mem_of_getElem? hk)
        exact serial_own hs hk rfl rfl rfl hlocked rfl rfl (List.append_nil _).symm
          (List.append_nil _).symm rfl rfl rfl
      · cases hst

theorem serial_of_reachable (h : (LockServerActors.system cfg).Reachable s) : Serial cfg s := by
  refine System.invariant (I := Serial cfg) ?_ (fun s e t hs _ hst => serial_step hs hst) h
  rintro _ rfl
  exact ⟨fun r k => ⟨nofun, fun ⟨_, h, _⟩ => nomatch h⟩, nofun, fun _ => rfl, fun _ => rfl, rfl,
    nofun, rfl⟩

/-! ## Progress -/

/-- Nothing but another delivery can happen. -/
def LockServerActors.Stuck (cfg : Settings) (s : LockServerActors) : Prop :=
  ∀ e, (∀ message, e ≠ .deliver message) → s.step cfg e = none

/-- An actor that holds a permit can go on. -/
theorem current_of_stuck (hstuck : s.Stuck cfg) (h : s.tasks[k]? = some a) : a.current = [] := by
  obtain ⟨showtimeId, queue, locked, stage⟩ := a
  cases stage with
  | processing task =>
      have hnone := hstuck (.finish k false) nofun
      simp only [LockServerActors.step, h, reduceCtorEq] at hnone
  | acking task =>
      have hnone := hstuck (.settle k) nofun
      simp only [LockServerActors.step, h, reduceCtorEq] at hnone
  | nacking task =>
      have hnone := hstuck (.settle k) nofun
      simp only [LockServerActors.step, h, reduceCtorEq] at hnone
  | _ => rfl

/-- Where nobody holds a permit, one is free. -/
theorem permits_of_stuck (hs : Serial cfg s) (hstuck : s.Stuck cfg) : 0 < s.permits := by
  have hpermits := hs.permits
  have hzero : (s.tasks.map fun a => a.current.length).sum = 0 := by
    refine List.sum_eq_zero fun n hn => ?_
    obtain ⟨a, ha, rfl⟩ := List.mem_map.1 hn
    obtain ⟨k, hk⟩ := List.mem_iff_getElem?.1 ha
    rw [current_of_stuck hstuck hk]
    rfl
  have hpositive := cfg.positive
  omega

/-- An actor that cannot go on waits for a delivery. -/
theorem receiving_of_stuck (hs : Serial cfg s) (hstuck : s.Stuck cfg) (h : s.tasks[k]? = some a) :
    a.stage = .receiving ∧ a.queue = [] := by
  have hcurrent := current_of_stuck hstuck h
  have hlocked := hs.locked a (List.mem_of_getElem? h)
  obtain ⟨showtimeId, queue, locked, stage⟩ := a
  cases stage with
  | locking =>
      obtain rfl : locked = false := hlocked
      have hnone := hstuck (.lock k) nofun
      simp only [LockServerActors.step, h, reduceCtorEq] at hnone
  | receiving =>
      cases queue with
      | nil => exact ⟨rfl, rfl⟩
      | cons task queue =>
          have hnone := hstuck (.recv k) nofun
          simp only [LockServerActors.step, h, reduceCtorEq] at hnone
  | acquiring task =>
      have hnone := hstuck (.acquire k) nofun
      simp only [LockServerActors.step, h, if_pos (permits_of_stuck hs hstuck), reduceCtorEq] at hnone
  | sleeping =>
      have hnone := hstuck (.wake k) nofun
      simp only [LockServerActors.step, h, reduceCtorEq] at hnone
  | processing task | acking task | nacking task => cases hcurrent

theorem sending_of_stuck (hs : Serial cfg s) (hstuck : s.Stuck cfg) : s.sending = none := by
  cases hsending : s.sending with
  | none => rfl
  | some task =>
      cases hactor : s.actors task.showtimeId with
      | none =>
          have hnone := hstuck .actor nofun
          simp only [LockServerActors.step, hsending, hactor, reduceCtorEq] at hnone
      | some k =>
          obtain ⟨a, ha, -⟩ := (hs.index _ _).1 hactor
          have hqueue := (receiving_of_stuck hs hstuck ha).2
          have hnone := hstuck .send nofun
          have hlength : a.queue.length < cfg.queueCapacity := by
            rw [hqueue]
            exact Nat.mul_pos cfg.positive (by decide)
          simp only [LockServerActors.step, hsending, hactor, ha, if_pos hlength, reduceCtorEq] at hnone

/-- An actor that waits on an empty channel. -/
def Actor.Idle (a : Actor) : Prop :=
  a.stage = .receiving ∧ a.queue = []

/-- While the actor of a show waits, all its deliveries are settled but the one that the consumer is
handing on. -/
theorem answered_of_idle (hs : Serial cfg s) (h : s.tasks[k]? = some a) (hidle : a.Idle) :
    ofShow a.showtimeId s.received =
      ofShow a.showtimeId s.answered ++ ofShow a.showtimeId s.sending.toList := by
  have hwaiting : s.waiting a.showtimeId = ofShow a.showtimeId s.sending.toList := by
    unfold LockServerActors.waiting
    rw [actorOf_index hs h]
    show a.stage.taken ++ a.queue ++ _ = _
    rw [hidle.1, hidle.2]
    rfl
  have hcurrent : s.current a.showtimeId = [] := by
    unfold LockServerActors.current
    rw [actorOf_index hs h]
    show a.stage.current = []
    rw [hidle.1]
    rfl
  rw [hs.order, hs.serial, hwaiting, hcurrent, List.append_nil]

/-- The consumer can hand a delivery on to an actor that waits. -/
theorem send_of_idle {task : Delivery} (hs : Serial cfg s) (h : s.tasks[k]? = some a)
    (hidle : a.Idle) (hsending : s.sending = some task) (hshow : task.showtimeId = a.showtimeId) :
    (s.step cfg .send).isSome := by
  have hactor : s.actors task.showtimeId = some k := (hs.index _ _).2 ⟨a, h, hshow.symm⟩
  have hlength : a.queue.length < cfg.queueCapacity := by
    rw [hidle.2]
    exact Nat.mul_pos cfg.positive (by decide)
  simp only [LockServerActors.step, hsending, hactor, h, if_pos hlength, Option.isSome_some]

theorem answered_of_stuck (hs : Serial cfg s) (hstuck : s.Stuck cfg) :
    ofShow r s.received = ofShow r s.answered := by
  have hsending := sending_of_stuck hs hstuck
  rw [hs.order, hs.serial]
  unfold LockServerActors.waiting LockServerActors.current
  rw [hsending]
  cases hactor : s.actorOf r with
  | none => simp
  | some a =>
      obtain ⟨k, -, hk⟩ := Option.bind_eq_some_iff.1 hactor
      obtain ⟨hstage, hqueue⟩ := receiving_of_stuck hs hstuck hk
      simp [Actor.waiting, Stage.taken, Stage.current, hstage, hqueue]

/-! ## Work -/

/-- What is left to do for an actor at a stage, at most. -/
def Stage.work : Stage → ℕ
  | .receiving => 0
  | .locking => 1
  | .acking _ => 1
  | .sleeping => 2
  | .nacking _ => 3
  | .processing _ => 4
  | .acquiring _ => 5

def Actor.work (a : Actor) : ℕ :=
  6 * a.queue.length + a.stage.work

/-- What is left to do for the delivery that the consumer is handing on. -/
def LockServerActors.sendingWork (s : LockServerActors) : ℕ :=
  match s.sending with
  | none => 0
  | some task =>
      match s.actors task.showtimeId with
      | none => 9
      | some _ => 7

/-- The steps that are left to do for the deliveries received so far, at most. -/
def LockServerActors.work (s : LockServerActors) : ℕ :=
  (s.tasks.map Actor.work).sum + s.sendingWork

/-- A step of actor `k` that leaves it less to do. -/
theorem work_own (h : s.tasks[k]? = some a) (htasks : t.tasks = s.tasks.set k b)
    (hsending : t.sendingWork = s.sendingWork) (hlt : b.work < a.work) : t.work < s.work := by
  have hsum := sum_set (b := b) Actor.work h
  unfold LockServerActors.work
  rw [htasks, hsending]
  omega

/-- Every step but a delivery uses some of the work up. -/
theorem work_step {e : Event} (he : ∀ message, e ≠ .deliver message)
    (hst : s.step cfg e = some t) : t.work < s.work := by
  cases e with
  | deliver message => exact absurd rfl (he message)
  | actor =>
      simp only [LockServerActors.step] at hst
      split at hst
      · next task hsending =>
        split at hst
        · next hnone =>
          obtain rfl := Option.some.inj hst
          have hbefore : s.sendingWork = 9 := by
            simp only [LockServerActors.sendingWork, hsending, hnone]
          have hafter : LockServerActors.sendingWork { s with
              actors := Function.update s.actors task.showtimeId (some s.tasks.length)
              tasks := s.tasks ++ [⟨task.showtimeId, [], false, .locking⟩] } = 7 := by
            simp only [LockServerActors.sendingWork, hsending, Function.update_self]
          unfold LockServerActors.work
          rw [hbefore, hafter]
          simp only [List.map_append, List.sum_append, List.map_cons, List.map_nil, List.sum_cons,
            List.sum_nil, Actor.work, Stage.work, List.length_nil]
          omega
        · cases hst
      · cases hst
  | send =>
      simp only [LockServerActors.step] at hst
      split at hst
      · next task hsending =>
        split at hst
        · next k hk =>
          split at hst
          · next a ha =>
            split_ifs at hst with hlength
            obtain rfl := Option.some.inj hst
            have hbefore : s.sendingWork = 7 := by
              simp only [LockServerActors.sendingWork, hsending, hk]
            have hsum := sum_set (b := { a with queue := a.queue ++ [task] }) Actor.work ha
            unfold LockServerActors.work
            rw [hbefore]
            simp only [Actor.work, List.length_append, List.length_singleton,
              LockServerActors.sendingWork] at hsum ⊢
            omega
          · cases hst
        · cases hst
      · cases hst
  | lock k =>
      simp only [LockServerActors.step] at hst
      split at hst
      · next hk =>
        obtain rfl := Option.some.inj hst
        exact work_own hk rfl rfl (Nat.lt_succ_self _)
      · cases hst
  | recv k =>
      simp only [LockServerActors.step] at hst
      split at hst
      · next hk =>
        obtain rfl := Option.some.inj hst
        exact work_own hk rfl rfl (Nat.lt_succ_self _)
      · cases hst
  | acquire k =>
      simp only [LockServerActors.step] at hst
      split at hst
      · next hk =>
        split_ifs at hst
        obtain rfl := Option.some.inj hst
        exact work_own hk rfl rfl (Nat.lt_succ_self _)
      · cases hst
  | finish k panicked =>
      simp only [LockServerActors.step] at hst
      split at hst
      · next hk =>
        obtain rfl := Option.some.inj hst
        refine work_own hk rfl rfl (Nat.add_lt_add_left ?_ _)
        cases panicked with
        | false => exact Nat.lt_of_sub_eq_succ rfl
        | true => exact Nat.lt_succ_self 3
      · cases hst
  | settle k =>
      simp only [LockServerActors.step] at hst
      split at hst
      · next hk =>
        obtain rfl := Option.some.inj hst
        exact work_own hk rfl rfl (Nat.lt_succ_self _)
      · next hk =>
        obtain rfl := Option.some.inj hst
        exact work_own hk rfl rfl (Nat.lt_succ_self _)
      · cases hst
  | wake k =>
      simp only [LockServerActors.step] at hst
      split at hst
      · next hk =>
        obtain rfl := Option.some.inj hst
        exact work_own hk rfl rfl (Nat.lt_succ_self _)
      · cases hst

/-- A run without deliveries is as long as the work at most. -/
theorem length_le_work {es : List Event} (hes : ∀ e ∈ es, ∀ message, e ≠ .deliver message)
    (h : (LockServerActors.system cfg).run s es = some t) : es.length ≤ s.work := by
  induction es generalizing s with
  | nil => exact Nat.zero_le _
  | cons e es ih =>
      simp only [System.run] at h
      split at h
      · next u hu =>
        have hrest : es.length ≤ u.work := ih (fun e he => hes e (List.mem_cons_of_mem _ he)) h
        have hlt : u.work < s.work := work_step (hes e List.mem_cons_self) hu
        exact Nat.lt_of_le_of_lt hrest hlt
      · cases h

/-! ## The deliveries of a show -/

/-- The deliveries are settled at most once each: the tags tell them apart. -/
theorem answered_nodup (hs : Serial cfg s) : s.answered.Nodup := by
  refine List.nodup_iff_count_le_one.2 fun d => ?_
  have hreceived : s.received.Nodup :=
    List.Nodup.of_map Delivery.tag (hs.tags ▸ List.nodup_range)
  have hcount : ∀ ds : List Delivery, (ofShow d.showtimeId ds).count d = ds.count d := fun ds =>
    List.count_filter (decide_eq_true rfl)
  have horder : ofShow d.showtimeId s.answered <+: ofShow d.showtimeId s.received := by
    rw [hs.order, hs.serial, List.append_assoc]
    exact List.prefix_append ..
  calc s.answered.count d = (ofShow d.showtimeId s.answered).count d := (hcount _).symm
    _ ≤ (ofShow d.showtimeId s.received).count d := horder.sublist.count_le d
    _ = s.received.count d := hcount _
    _ ≤ 1 := List.nodup_iff_count_le_one.1 hreceived d

theorem current_length : (s.current r).length ≤ 1 := by
  unfold LockServerActors.current
  cases hactor : s.actorOf r with
  | none => exact Nat.zero_le 1
  | some a =>
      show a.stage.current.length ≤ 1
      cases a.stage <;> first | exact Nat.zero_le 1 | exact Nat.le_refl 1

/-- What holds of the deliveries of every show. -/
structure Serialized (cfg : Settings) (s : LockServerActors) : Prop where
  inOrder : ∀ r, ofShow r s.handled <+: ofShow r s.received
  oneAtATime : ∀ r, ∃ now, now.length ≤ 1 ∧ ofShow r s.handled = ofShow r s.answered ++ now
  once : s.answered.Nodup
  idle : ∀ a ∈ s.tasks, a.Idle →
    ofShow a.showtimeId s.received =
      ofShow a.showtimeId s.answered ++ ofShow a.showtimeId s.sending.toList
  handedOn : ∀ a ∈ s.tasks, a.Idle → ∀ task, s.sending = some task →
    task.showtimeId = a.showtimeId → (s.step cfg .send).isSome
  bounded : ∀ es t, (∀ e ∈ es, ∀ message, e ≠ .deliver message) →
    (LockServerActors.system cfg).run s es = some t → es.length ≤ s.work
  settled : s.Stuck cfg → ∀ r, ofShow r s.received = ofShow r s.answered

/-- Whatever is delivered, however the actors interleave and whichever handlers panic, the deliveries
of a show are handled one by one in their order, each is settled at most once, and once the
deliveries stop each is settled after boundedly many steps. -/
theorem serialized (h : (LockServerActors.system cfg).Reachable s) : Serialized cfg s := by
  have hs := serial_of_reachable h
  refine ⟨fun r => ?_, fun r => ⟨s.current r, current_length, hs.serial r⟩, answered_nodup hs,
    fun a ha hidle => ?_, fun a ha hidle task hsending hshow => ?_,
    fun es t hes hrun => length_le_work hes hrun, fun hstuck r => answered_of_stuck hs hstuck⟩
  · rw [hs.order r]
    exact List.prefix_append ..
  · obtain ⟨k, hk⟩ := List.mem_iff_getElem?.1 ha
    exact answered_of_idle hs hk hidle
  · obtain ⟨k, hk⟩ := List.mem_iff_getElem?.1 ha
    exact send_of_idle hs hk hidle hsending hshow

/-- A handler panics, its delivery is rejected and comes again behind the next one of the show; the
actor of another show goes on while this one sleeps. -/
def panicRun : List Event :=
  [.deliver ⟨"lock", 1, 7, [3]⟩, .actor, .send, .deliver ⟨"lock", 2, 7, [3]⟩, .send,
    .lock 0, .recv 0, .acquire 0, .finish 0 true, .settle 0,
    .deliver ⟨"lock", 1, 7, [3]⟩, .send, .deliver ⟨"unlock", 1, 8, [5]⟩, .actor, .send,
    .lock 1, .recv 1, .acquire 1, .wake 0, .finish 1 false, .settle 1,
    .lock 0, .recv 0, .acquire 0, .finish 0 false, .settle 0]

theorem serialized_panic :
    ∃ s, Serialized ⟨1, Nat.one_pos⟩ s ∧
      s.settled = [(⟨0, "lock", 1, 7, [3]⟩, .nack), (⟨3, "unlock", 1, 8, [5]⟩, .ack),
        (⟨1, "lock", 2, 7, [3]⟩, .ack)] ∧
      s.received.length = 4 := by
  obtain ⟨s, hs, hp⟩ := System.exists_reachable_of_run
    (LockServerActors.system ⟨1, Nat.one_pos⟩)
    (fun s => decide (s.settled = [(⟨0, "lock", 1, 7, [3]⟩, .nack),
      (⟨3, "unlock", 1, 8, [5]⟩, .ack), (⟨1, "lock", 2, 7, [3]⟩, .ack)] ∧ s.received.length = 4))
    (s := LockServerActors.new ⟨1, Nat.one_pos⟩) rfl panicRun (by decide +kernel)
  exact ⟨s, serialized hs, of_decide_eq_true hp⟩

end Actors

end LockServer
end Bookit

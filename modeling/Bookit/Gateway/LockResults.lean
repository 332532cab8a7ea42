import Bookit.Gateway.FreeSlots
import Bookit.Gateway.RejectedRequests
import Mathlib.Data.List.Perm.Basic

/-!
# Gateway.LockResults — what a lock request answers

The answer of a lock request is put together in three places: seats whose slots are not free fail at
once, all seats fail where the queue is full, and the actor finds out which of the others it can lock.
A seat that is asked for twice is admitted once, and fails the other time.

* `Admits` — the seats that get their slots, and those that do not;
* `Settles` — the seats that the actor locks, and those that it does not;
* `lock_partitions` — the answer as a whole.
-/

namespace Bookit
namespace Gateway

open Lib LockServer SoleRequest

/-! ## Admissions -/

namespace ShowActor

variable {a b c : ShowActor} {seats : List (ℤ × ℕ)} {admitted failed : List ℤ}

/-- Each seat has the slot that it is listed with. -/
def AllPlaced (a : ShowActor) (seats : List (ℤ × ℕ)) : Prop :=
  ∀ x ∈ seats, a.Placed x.1 x.2

/-- From `a` to `b` the slots of the admitted seats have been taken; those of the failed ones were
not free. -/
structure Admits (a b : ShowActor) (seats : List (ℤ × ℕ)) (admitted failed : List ℤ) : Prop where
  perm : (admitted ++ failed).Perm (seats.map Prod.fst)
  nodup : admitted.Nodup
  free : ∀ id ∈ admitted, ∃ index, (id, index) ∈ seats ∧ a.processing index = false
  taken : ∀ index, b.processing index = true ↔
    a.processing index = true ∨ ∃ id ∈ admitted, (id, index) ∈ seats
  seatIndices : b.seatIndices = a.seatIndices
  seatIds : b.seatIds = a.seatIds

theorem Admits.nil (a : ShowActor) : Admits a a [] [] [] where
  perm := .refl _
  nodup := List.nodup_nil
  free _ h := nomatch h
  taken index := by simp
  seatIndices := rfl
  seatIds := rfl

/-- A seat whose slot is taken. -/
theorem Admits.fail {id : ℤ} {index : ℕ} (htaken : a.processing index = true) :
    Admits a b seats admitted failed → Admits a b ((id, index) :: seats) admitted (id :: failed) := by
  intro h
  refine ⟨?_, h.nodup, fun j hj => ?_, fun j => ?_, h.seatIndices, h.seatIds⟩
  · exact List.perm_middle.trans (h.perm.cons id)
  · obtain ⟨slot, hmem, hfree⟩ := h.free j hj
    exact ⟨slot, List.mem_cons_of_mem _ hmem, hfree⟩
  · rw [h.taken j]
    constructor
    · rintro (hj | ⟨k, hk, hmem⟩)
      · exact .inl hj
      · exact .inr ⟨k, hk, List.mem_cons_of_mem _ hmem⟩
    · rintro (hj | ⟨k, hk, hmem⟩)
      · exact .inl hj
      · rcases List.mem_cons.1 hmem with heq | hmem
        · obtain ⟨rfl, rfl⟩ := Prod.mk.inj heq
          exact .inl htaken
        · exact .inr ⟨k, hk, hmem⟩

/-- A seat whose slot is free. -/
theorem Admits.admit {id : ℤ} {index : ℕ} (hfree : a.processing index = false)
    (hplaced : a.AllPlaced ((id, index) :: seats)) :
    Admits { a with processing := Redis.setAt a.processing index true } b seats admitted failed →
      Admits a b ((id, index) :: seats) (id :: admitted) failed := by
  intro h
  have hslot : ∀ slot, (id, slot) ∈ seats → slot = index := by
    intro slot hmem
    have hfirst := (hplaced (id, index) List.mem_cons_self).1
    have hother := (hplaced (id, slot) (List.mem_cons_of_mem _ hmem)).1
    exact Option.some.inj (hother.symm.trans hfirst)
  -- a slot that is free with this one taken is another one
  have hne : ∀ slot, Redis.setAt a.processing index true slot = false →
      slot ≠ index ∧ a.processing slot = false := by
    intro slot hslot
    by_cases heq : slot = index
    · subst heq
      rw [Redis.setAt_self] at hslot
      cases hslot
    · exact ⟨heq, by rwa [Redis.setAt_ne heq] at hslot⟩
  refine ⟨h.perm.cons id, List.nodup_cons.2 ⟨fun hmem => ?_, h.nodup⟩, fun j hj => ?_,
    fun j => ?_, h.seatIndices, h.seatIds⟩
  · obtain ⟨slot, hseat, hslot'⟩ := h.free id hmem
    exact (hne slot hslot').1 (hslot slot hseat)
  · rcases List.mem_cons.1 hj with rfl | hj
    · exact ⟨index, List.mem_cons_self, hfree⟩
    · obtain ⟨slot, hmem, hslot'⟩ := h.free j hj
      exact ⟨slot, List.mem_cons_of_mem _ hmem, (hne slot hslot').2⟩
  · rw [h.taken j]
    constructor
    · rintro (hj | ⟨k, hk, hmem⟩)
      · by_cases heq : j = index
        · subst heq
          exact .inr ⟨id, List.mem_cons_self, List.mem_cons_self⟩
        · exact .inl ((Redis.setAt_ne heq).symm.trans hj)
      · exact .inr ⟨k, List.mem_cons_of_mem _ hk, List.mem_cons_of_mem _ hmem⟩
    · rintro (hj | ⟨k, hk, hmem⟩)
      · by_cases heq : j = index
        · subst heq
          exact .inl Redis.setAt_self
        · exact .inl ((Redis.setAt_ne heq).trans hj)
      · rcases List.mem_cons.1 hmem with heq | hrest
        · obtain ⟨rfl, rfl⟩ := Prod.mk.inj heq
          exact .inl Redis.setAt_self
        · rcases List.mem_cons.1 hk with rfl | hk
          · rw [hslot j hrest]
            exact .inl Redis.setAt_self
          · exact .inr ⟨k, hk, hrest⟩

/-- Clearing seats frees their slots and no others. -/
theorem processing_clearSeats (seatIds : List ℤ) (index : ℕ) :
    (seatIds.foldl clearSeat a).seatIndices = a.seatIndices ∧
      ((seatIds.foldl clearSeat a).processing index = true ↔
        a.processing index = true ∧ ∀ id ∈ seatIds, a.seatIndices id ≠ some index) := by
  induction seatIds generalizing a with
  | nil => exact ⟨rfl, ⟨fun h => ⟨h, fun _ h => nomatch h⟩, fun h => h.1⟩⟩
  | cons seatId seatIds ih =>
      have hindices : (a.clearSeat seatId).seatIndices = a.seatIndices := by
        unfold clearSeat
        cases a.seatIndices seatId with
        | none => rfl
        | some slot => rfl
      have hproc : (a.clearSeat seatId).processing index = true ↔
          a.processing index = true ∧ a.seatIndices seatId ≠ some index := by
        unfold clearSeat
        cases hmap : a.seatIndices seatId with
        | none => simp
        | some slot =>
            dsimp only
            by_cases hslot : index = slot
            · subst hslot
              simp
            · rw [Redis.setAt_ne hslot]
              simp [Ne.symm hslot]
      obtain ⟨hrest, hiff⟩ := ih (a := a.clearSeat seatId)
      refine ⟨hrest.trans hindices, hiff.trans ?_⟩
      rw [hproc, hindices, List.forall_mem_cons, and_assoc]

/-- Of the admitted seats those that are cleared again are free, and the others keep their slots. -/
theorem Admits.cleared {new locked rejected : List ℤ} (h : a.Admits b seats new rejected)
    (hplaced : a.AllPlaced seats) (hperm : (locked ++ failed).Perm new) (index : ℕ) :
    (b.processing index = true ∧ ∀ id ∈ failed, b.seatIndices id ≠ some index) ↔
      a.processing index = true ∨ ∃ id ∈ locked, a.seatIndices id = some index := by
  have hmem : ∀ id, id ∈ new ↔ id ∈ locked ∨ id ∈ failed := by
    intro id
    rw [← hperm.mem_iff, List.mem_append]
  have hapart : ∀ id ∈ locked, id ∉ failed := by
    have hnodup := hperm.nodup_iff.2 h.nodup
    intro id hlocked hfailed
    exact (List.nodup_append.1 hnodup).2.2 id hlocked id hfailed rfl
  have hslot : ∀ id slot, (id, slot) ∈ seats → a.seatIndices id = some slot :=
    fun id slot hseat => (hplaced (id, slot) hseat).1
  rw [h.seatIndices]
  constructor
  · rintro ⟨htaken, hkept⟩
    rcases (h.taken index).1 htaken with hbefore | ⟨id, hnew, hseat⟩
    · exact .inl hbefore
    · rcases (hmem id).1 hnew with hlocked | hfailed
      · exact .inr ⟨id, hlocked, hslot id index hseat⟩
      · exact absurd (hslot id index hseat) (hkept id hfailed)
  · rintro (hbefore | ⟨id, hlocked, hindex⟩)
    · refine ⟨(h.taken index).2 (.inl hbefore), fun id hfailed hindex => ?_⟩
      obtain ⟨slot, hseat, hfree⟩ := h.free id ((hmem id).2 (.inr hfailed))
      obtain rfl := Option.some.inj ((hslot id slot hseat).symm.trans hindex)
      rw [hbefore] at hfree
      cases hfree
    · obtain ⟨slot, hseat, -⟩ := h.free id ((hmem id).2 (.inl hlocked))
      obtain rfl := Option.some.inj ((hslot id slot hseat).symm.trans hindex)
      refine ⟨(h.taken slot).2 (.inr ⟨id, (hmem id).2 (.inl hlocked), hseat⟩),
        fun other hfailed hother => ?_⟩
      obtain ⟨slot', hseat', -⟩ := h.free other ((hmem other).2 (.inr hfailed))
      obtain rfl := Option.some.inj ((hslot other slot' hseat').symm.trans hother)
      have hsame : id = other := (hplaced (id, slot') hseat).2.symm.trans (hplaced _ hseat').2
      exact hapart id hlocked (hsame ▸ hfailed)

end ShowActor

/-! ## The parts of a lock request -/

section Parts

variable {g i : ℕ} {s t : Moment} {userId showtimeId seatId : ℤ} {cell : ℕ} {a : ShowActor}

/-- The admissions of a request. -/
theorem admitSeats_ends {seats : List (ℤ × ℕ)} {admitted failed : List ℤ} {r : List ℤ × List ℤ}
    (hserves : (s.1.gateways g).Serves showtimeId cell a) (hplaced : a.AllPlaced seats) :
    (admitSeats g cell seats admitted failed).Ends (RequestStep g i showtimeId) s t r →
      t.2 = s.2 ∧ ∃ b new rejected, (t.1.gateways g).Serves showtimeId cell b ∧
        a.Admits b seats new rejected ∧ r = (admitted ++ new, failed ++ rejected) := by
  intro h
  induction seats generalizing s a admitted failed with
  | nil =>
      obtain ⟨rfl, rfl⟩ := Prog.Ends.of_ret h
      refine ⟨rfl, a, [], [], hserves, .nil a, ?_⟩
      rw [List.append_nil, List.append_nil]
  | cons seat seats ih =>
      obtain ⟨id, index⟩ := seat
      obtain ⟨u, free, hstep, hlog, h⟩ := ends_atOnce (c := .tryAdmit g cell index) trivial h
      obtain ⟨hserves', -, hreply⟩ :=
        step_onActor (c := .tryAdmit g cell index) (fun _ _ => rfl) hserves hstep
      have hreply : free = (a.tryAdmit index).2 := hreply
      rcases a.tryAdmit_cases index with ⟨htaken, heq⟩ | ⟨hfree, heq⟩
      · rw [heq] at hserves' hreply
        subst hreply
        have hrest : a.AllPlaced seats := fun x hx => hplaced x (List.mem_cons_of_mem _ hx)
        obtain ⟨hlog', b, new, rejected, hb, hadmits, rfl⟩ := ih hserves' hrest h
        refine ⟨hlog'.trans hlog, b, new, id :: rejected, hb, hadmits.fail htaken, ?_⟩
        rw [List.append_assoc, List.singleton_append]
      · rw [heq] at hserves' hreply
        subst hreply
        have hrest : ({ a with processing := Redis.setAt a.processing index true } :
            ShowActor).AllPlaced seats := fun x hx => hplaced x (List.mem_cons_of_mem _ hx)
        obtain ⟨hlog', b, new, rejected, hb, hadmits, rfl⟩ := ih hserves' hrest h
        refine ⟨hlog'.trans hlog, b, id :: new, rejected, hb, hadmits.admit hfree hplaced, ?_⟩
        rw [List.append_assoc, List.singleton_append]

/-! ## Acquisitions -/

/-- The record tells the user that the lock of the seat was set for him, or is his. -/
def Confirms (showtimeId seatId userId : ℤ) (e : Event) : Prop :=
  e = .taken showtimeId seatId userId true ∨ e = .found showtimeId seatId userId

/-- The record is about the lock of the seat. -/
def About (showtimeId seatId : ℤ) (e : Event) : Prop :=
  (∃ userId answered, e = .taken showtimeId seatId userId answered) ∨
    ∃ userId, e = .found showtimeId seatId userId

def Acquired (log : List Event) (showtimeId seatId userId : ℤ) : Prop :=
  ∃ e ∈ log, Confirms showtimeId seatId userId e

/-- No record tells so. -/
def Unconfirmed (log : List Event) (showtimeId seatId userId : ℤ) : Prop :=
  ∀ e ∈ log, ¬Confirms showtimeId seatId userId e

theorem seat_of_about {other : ℤ} {e : Event} :
    About showtimeId seatId e → Confirms showtimeId other userId e → other = seatId := by
  rintro (⟨_, _, rfl⟩ | ⟨_, rfl⟩) (heq | heq)
  · exact (Event.taken.inj heq).2.1.symm
  · cases heq
  · cases heq
  · exact (Event.found.inj heq).2.1.symm

/-- What the records of a task say about its seats: those that are locked have been acquired, and no
other has as far as the replies say. -/
structure Settles (log : List Event) (userId showtimeId : ℤ) (seatIds locked failed : List ℤ) :
    Prop where
  perm : (locked ++ failed).Perm seatIds
  about : ∀ e ∈ log, ∃ id ∈ seatIds, About showtimeId id e
  locked : ∀ id ∈ locked, Acquired log showtimeId id userId
  failed : seatIds.Nodup → ∀ id ∈ failed, Unconfirmed log showtimeId id userId

section Settles

variable {first rest : List Event} {seatIds locked failed : List ℤ}

/-- A task whose seats all fail, and of which nothing is recorded. -/
theorem settles_none (userId showtimeId : ℤ) (seatIds : List ℤ) :
    Settles [] userId showtimeId seatIds [] seatIds where
  perm := .refl _
  about _ h := nomatch h
  locked _ h := nomatch h
  failed _ _ _ _ h := nomatch h

theorem about_append (habout : ∀ e ∈ first, About showtimeId seatId e)
    (h : ∀ e ∈ rest, ∃ id ∈ seatIds, About showtimeId id e) :
    ∀ e ∈ first ++ rest, ∃ id ∈ seatId :: seatIds, About showtimeId id e := by
  intro e he
  rcases List.mem_append.1 he with he | he
  · exact ⟨seatId, List.mem_cons_self, habout e he⟩
  · obtain ⟨id, hid, hab⟩ := h e he
    exact ⟨id, List.mem_cons_of_mem _ hid, hab⟩

theorem acquired_append (h : ∀ id ∈ locked, Acquired rest showtimeId id userId) :
    ∀ id ∈ locked, Acquired (first ++ rest) showtimeId id userId := by
  intro id hid
  obtain ⟨e, he, hconfirms⟩ := h id hid
  exact ⟨e, List.mem_append_right _ he, hconfirms⟩

/-- Of the seats after the first, the records of the first tell nothing. -/
theorem unconfirmed_append (habout : ∀ e ∈ first, About showtimeId seatId e)
    (h : Settles rest userId showtimeId seatIds locked failed)
        (hnodup : (seatId :: seatIds).Nodup) :
    ∀ id ∈ failed, Unconfirmed (first ++ rest) showtimeId id userId := by
  intro id hid e he hconfirms
  obtain ⟨hnot, hrest⟩ := List.nodup_cons.1 hnodup
  rcases List.mem_append.1 he with he | he
  · apply hnot
    rw [← seat_of_about (habout e he) hconfirms]
    exact h.perm.subset (List.mem_append_right _ hid)
  · exact h.failed hrest id hid e he hconfirms

/-- A seat that is locked, before the others. -/
theorem Settles.lock (habout : ∀ e ∈ first, About showtimeId seatId e)
    (hacquired : Acquired first showtimeId seatId userId) :
    Settles rest userId showtimeId seatIds locked failed →
      Settles (first ++ rest) userId showtimeId (seatId :: seatIds) (seatId :: locked) failed := by
  intro h
  refine ⟨h.perm.cons seatId, about_append habout h.about, ?_, fun hnodup => ?_⟩
  · rw [List.forall_mem_cons]
    obtain ⟨e, he, hconfirms⟩ := hacquired
    exact ⟨⟨e, List.mem_append_left _ he, hconfirms⟩, acquired_append h.locked⟩
  · exact unconfirmed_append habout h hnodup

/-- A seat that is not, before the others. -/
theorem Settles.fail (habout : ∀ e ∈ first, About showtimeId seatId e)
    (hunconfirmed : Unconfirmed first showtimeId seatId userId) :
    Settles rest userId showtimeId seatIds locked failed →
      Settles (first ++ rest) userId showtimeId (seatId :: seatIds) locked (seatId :: failed) := by
  intro h
  refine ⟨List.perm_middle.trans (h.perm.cons seatId), about_append habout h.about,
    acquired_append h.locked, fun hnodup => ?_⟩
  rw [List.forall_mem_cons]
  refine ⟨fun e he hconfirms => ?_, unconfirmed_append habout h hnodup⟩
  rcases List.mem_append.1 he with he | he
  · exact hunconfirmed e he hconfirms
  · -- the seat is not among the others
    obtain ⟨id, hid, hab⟩ := h.about e he
    apply (List.nodup_cons.1 hnodup).1
    rwa [seat_of_about hab hconfirms]

end Settles

/-- A command of the seat lock. -/
theorem onRedis_call {β : Type} {c : Redis.Cmd} {k : Redis.Rep c → SingleNodeLock.Op β} {b : β} :
    (onRedis (Prog.call c k)).Ends (Step g i) s t b →
      ∃ (u : Moment) (w : World) (l : Link) (r : Redis.Rep c),
        u.1.gateways g = s.1.gateways g ∧
        Redis.exec l c w.services.redis = (u.1.services.redis, r) ∧
        u.2 = s.2 ++ recorded l (.service (.redis c)) w u.1 r ∧
        (onRedis (k r)).Ends (Step g i) u t b := by
  intro h
  obtain ⟨u, r, hstep, hrest⟩ := Prog.Ends.of_call (c := Cmd.service (.redis c)) h
  have hmem := step_service hstep
  obtain ⟨w, l, -, hexec, hlog⟩ := hstep
  have hexec : some (({ w with services := { w.services with
      redis := (Redis.exec l c w.services.redis).1 } } : World),
      (Redis.exec l c w.services.redis).2) = some (u.1, r) := hexec
  obtain ⟨hu, hr⟩ := Prod.mk.inj (Option.some.inj hexec)
  refine ⟨u, w, l, r, hmem, ?_, hlog, hrest⟩
  rw [← hu]
  exact Prod.ext rfl hr

/-- A `SET` that takes effect is recorded, and confirms as far as its reply says so. -/
theorem recorded_setLockNx {l : Link} {w : World} {u : World} {ttlMs : ℕ} {r : Option Bool}
    (h : Redis.exec l (.setLockNx showtimeId seatId userId ttlMs) w.services.redis =
      (u.services.redis, r)) :
    (∀ e ∈ recorded l (.service (.redis (.setLockNx showtimeId seatId userId ttlMs))) w u r,
        About showtimeId seatId e) ∧
      (r = some true → Acquired
        (recorded l (.service (.redis (.setLockNx showtimeId seatId userId ttlMs))) w u r)
          showtimeId seatId userId) ∧
      (r ≠ some true → Unconfirmed
        (recorded l (.service (.redis (.setLockNx showtimeId seatId userId ttlMs))) w u r)
          showtimeId seatId userId) := by
  have h : Redis.deliver l (Redis.setLockNx showtimeId seatId userId ttlMs) w.services.redis =
    (u.services.redis, r) := h
  have hrec : recorded l (.service (.redis (.setLockNx showtimeId seatId userId ttlMs))) w u r =
      if w.services.redis.lockOwner showtimeId seatId = none ∧
          u.services.redis.lockOwner showtimeId seatId = some userId then
        [.taken showtimeId seatId userId (decide (l = .ok))] else [] := rfl
  rw [hrec]
  refine ⟨fun e he => ?_, fun hr => ?_, fun hr e hmem hconfirms => ?_⟩
  · split_ifs at he
    · exact .inl ⟨userId, _, List.mem_singleton.1 he⟩
    · cases he
  · subst hr
    obtain ⟨hnode, hreply⟩ := Prod.mk.inj h
    cases l with
    | lost => cases hreply
    | unacked => cases hreply
    | ok =>
        have hreply : (Redis.setLockNx showtimeId seatId userId ttlMs w.services.redis).2 =
          some true := hreply
        have hnode : (Redis.setLockNx showtimeId seatId userId ttlMs w.services.redis).1 =
          u.services.redis := hnode
        unfold Redis.setLockNx at hreply hnode
        by_cases hvalid : w.services.redis.validTtl ttlMs = true
        · rw [if_pos hvalid] at hreply hnode
          cases howner : w.services.redis.lockOwner showtimeId seatId with
          | some owner =>
              rw [howner] at hreply
              cases hreply
          | none =>
              rw [howner] at hnode
              have hnew : u.services.redis.lockOwner showtimeId seatId = some userId := by
                rw [← hnode]
                exact Expiring.lookup_put_self (Nat.le_add_right _ _)
              rw [if_pos ⟨rfl, hnew⟩]
              exact ⟨_, List.mem_singleton_self _, .inl rfl⟩
        · rw [if_neg hvalid] at hreply
          cases hreply
  · split_ifs at hmem with hset
    · obtain rfl := List.mem_singleton.1 hmem
      have hok : l = .ok := by
        rcases hconfirms with heq | heq
        · exact of_decide_eq_true (Event.taken.inj heq).2.2.2
        · cases heq
      subst hok
      obtain ⟨hnode, hreply⟩ := Prod.mk.inj h
      have hreply : (Redis.setLockNx showtimeId seatId userId ttlMs w.services.redis).2 = r := hreply
      have hnode : (Redis.setLockNx showtimeId seatId userId ttlMs w.services.redis).1 =
        u.services.redis := hnode
      unfold Redis.setLockNx at hreply hnode
      rw [hset.1] at hreply hnode
      by_cases hvalid : w.services.redis.validTtl ttlMs = true
      · rw [if_pos hvalid] at hreply
        exact hr hreply.symm
      · rw [if_neg hvalid] at hnode
        have howner := hset.2
        rw [← hnode, hset.1] at howner
        cases howner
    · cases hmem

/-- An owner that is found is recorded. -/
theorem recorded_getLock {l : Link} {w u : World} (userId : ℤ) (owner : Option (Option ℤ)) :
    (∀ e ∈ recorded l (.service (.redis (.getLock showtimeId seatId))) w u owner,
        About showtimeId seatId e) ∧
      (owner.join = some userId →
        Acquired (recorded l (.service (.redis (.getLock showtimeId seatId))) w u owner)
          showtimeId seatId userId) ∧
      (owner.join ≠ some userId →
        Unconfirmed (recorded l (.service (.redis (.getLock showtimeId seatId))) w u owner)
          showtimeId seatId userId) := by
  match owner with
  | none => exact ⟨fun _ h => (nomatch h), fun h => (nomatch h), fun _ _ h => nomatch h⟩
  | some none => exact ⟨fun _ h => (nomatch h), fun h => (nomatch h), fun _ _ h => nomatch h⟩
  | some (some other) =>
      refine ⟨fun e he => .inr ⟨other, List.mem_singleton.1 he⟩, fun h => ?_,
        fun h e he hconfirms => ?_⟩
      · obtain rfl := Option.some.inj h
        exact ⟨_, List.mem_singleton_self _, .inr rfl⟩
      · obtain rfl := List.mem_singleton.1 he
        rcases hconfirms with heq | heq
        · cases heq
        · exact h (congrArg some (Event.found.inj heq).2.2)

/-- One acquisition. -/
theorem acquire_ends {ok : Bool} :
    (onRedis (SingleNodeLock.acquireDistributedLock showtimeId seatId userId 300)).Ends (Step g i)
        s t ok →
      ∃ new, t.2 = s.2 ++ new ∧ t.1.gateways g = s.1.gateways g ∧
        (∀ e ∈ new, About showtimeId seatId e) ∧
        (ok = true → Acquired new showtimeId seatId userId) ∧
        (ok = false → Unconfirmed new showtimeId seatId userId) := by
  intro h
  obtain ⟨s₁, w₁, l₁, conn, hmem₁, -, hlog₁, h⟩ := onRedis_call h
  have hsame₁ : s₁.2 = s.2 := hlog₁.trans (List.append_nil _)
  match (conn : Option Unit) with
  | none =>
      obtain ⟨rfl, rfl⟩ := Prog.Ends.of_ret h
      exact ⟨[], hsame₁.trans (List.append_nil _).symm, hmem₁, List.forall_mem_nil _,
        fun h => absurd h Bool.false_ne_true, fun _ => List.forall_mem_nil _⟩
  | some () =>
      obtain ⟨s₂, w₂, l₂, set, hmem₂, hexec₂, hlog₂, h⟩ := onRedis_call h
      obtain ⟨habout₂, htrue₂, hfalse₂⟩ := recorded_setLockNx hexec₂
      by_cases hset : (set : Option Bool) = some true
      · subst hset
        obtain ⟨rfl, rfl⟩ := Prog.Ends.of_ret h
        exact ⟨_, by rw [hlog₂, hsame₁], hmem₂.trans hmem₁, habout₂, fun _ => htrue₂ rfl,
          fun h => absurd h.symm Bool.false_ne_true⟩
      · have h : Prog.Ends (Step g i) (onRedis (if (set : Option Bool) = some true then _ else
          SingleNodeLock.extendLock showtimeId seatId userId (SingleNodeLock.ttlMs 300))) s₂ t ok := h
        rw [if_neg hset] at h
        obtain ⟨s₃, w₃, l₃, owner, hmem₃, -, hlog₃, h⟩ := onRedis_call h
        obtain ⟨habout₃, htrue₃, hfalse₃⟩ :=
          recorded_getLock (l := l₃) (w := w₃) (u := s₃.1) userId owner
        have hmem := hmem₃.trans (hmem₂.trans hmem₁)
        rw [hlog₂, hsame₁, List.append_assoc] at hlog₃
        have habout := List.forall_mem_append.2 ⟨habout₂, habout₃⟩
        by_cases howner : (owner : Option (Option ℤ)).join = some userId
        · -- the lock is the user's, whatever becomes of its extension
          have h : Prog.Ends (Step g i) (onRedis (if (owner : Option (Option ℤ)).join = some userId
            then (do
              let _ ← Prog.perform (Redis.Cmd.pexpireLock showtimeId seatId
                (SingleNodeLock.ttlMs 300))
              pure true)
            else pure false)) s₃ t ok := h
          rw [if_pos howner] at h
          obtain ⟨s₄, w₄, l₄, extended, hmem₄, -, hlog₄, h⟩ := onRedis_call h
          have hlog₄ : s₄.2 = s₃.2 := hlog₄.trans (List.append_nil _)
          obtain ⟨rfl, rfl⟩ := Prog.Ends.of_ret h
          refine ⟨_, hlog₄.trans hlog₃, hmem₄.trans hmem, habout, fun _ => ?_,
            fun h => absurd h.symm Bool.false_ne_true⟩
          obtain ⟨e, he, hconfirms⟩ := htrue₃ howner
          exact ⟨e, List.mem_append_right _ he, hconfirms⟩
        · have h : Prog.Ends (Step g i) (onRedis (if (owner : Option (Option ℤ)).join = some userId
            then _ else pure false)) s₃ t ok := h
          rw [if_neg howner] at h
          obtain ⟨rfl, rfl⟩ := Prog.Ends.of_ret h
          exact ⟨_, hlog₃, hmem, habout, fun h => absurd h Bool.false_ne_true,
            fun _ => List.forall_mem_append.2 ⟨hfalse₂ hset, hfalse₃ howner⟩⟩

/-- The acquisitions of a task. -/
theorem acquireSeats_ends {seatIds : List ℤ} {start result : LockResult} :
    (onRedis (acquireSeats showtimeId userId seatIds start)).Ends (Step g i) s t result →
      ∃ new locked failed, t.2 = s.2 ++ new ∧ t.1.gateways g = s.1.gateways g ∧
        result = ⟨start.lockedSeatIds ++ locked, start.failedSeatIds ++ failed⟩ ∧
        Settles new userId showtimeId seatIds locked failed := by
  intro h
  induction seatIds generalizing s start with
  | nil =>
      obtain ⟨rfl, rfl⟩ := Prog.Ends.of_ret h
      refine ⟨[], [], [], (List.append_nil _).symm, rfl, ?_, settles_none userId showtimeId []⟩
      rw [List.append_nil, List.append_nil]
  | cons seatId seatIds ih =>
      have h : Prog.Ends (Step g i) (onRedis
        (SingleNodeLock.acquireDistributedLock showtimeId seatId userId 300 >>= fun ok =>
          if ok = true then
            acquireSeats showtimeId userId seatIds
              { start with lockedSeatIds := start.lockedSeatIds ++ [seatId] }
          else
            acquireSeats showtimeId userId seatIds
              { start with failedSeatIds := start.failedSeatIds ++ [seatId] })) s t result := h
      unfold onRedis at h
      rw [Prog.hoist_bind] at h
      obtain ⟨u, ok, hone, h⟩ := h.of_bind
      obtain ⟨first, hlog, hmem, habout, hlocked, hfailed⟩ := acquire_ends hone
      cases ok with
      | true =>
          obtain ⟨rest, locked, failed, hlog', hmem', rfl, hsettles⟩ := ih h
          refine ⟨first ++ rest, seatId :: locked, failed, ?_, hmem'.trans hmem, ?_,
            hsettles.lock habout (hlocked rfl)⟩
          · rw [hlog', hlog, List.append_assoc]
          · rw [List.append_assoc, List.singleton_append]
      | false =>
          obtain ⟨rest, locked, failed, hlog', hmem', rfl, hsettles⟩ := ih h
          refine ⟨first ++ rest, locked, seatId :: failed, ?_, hmem'.trans hmem, ?_,
            hsettles.fail habout (hfailed rfl)⟩
          · rw [hlog', hlog, List.append_assoc]
          · rw [List.append_assoc, List.singleton_append]

/-- A task of the actor; publishing its locks is not on record. -/
theorem acquireAndPublish_ends {seatIds : List ℤ} {result : LockResult} :
    (acquireAndPublish userId showtimeId seatIds).Ends (Step g i) s t result →
      ∃ new, t.2 = s.2 ++ new ∧ t.1.gateways g = s.1.gateways g ∧
        Settles new userId showtimeId seatIds result.lockedSeatIds result.failedSeatIds := by
  intro h
  obtain ⟨u, acquired, hacquire, h⟩ :=
    Prog.Ends.of_bind (p := onRedis (acquireSeats showtimeId userId seatIds ⟨[], []⟩)) h
  obtain ⟨new, locked, failed, hlog, hmem, rfl, hsettles⟩ := acquireSeats_ends hacquire
  have h : Prog.Ends (Step g i) (if [] ++ locked = [] then _ else _) u t result := h
  split_ifs at h
  · obtain ⟨rfl, rfl⟩ := Prog.Ends.of_ret h
    exact ⟨new, hlog, hmem, hsettles⟩
  · obtain ⟨v, published, hpublish, h⟩ := Prog.Ends.of_call h
    obtain ⟨rfl, rfl⟩ := Prog.Ends.of_ret h
    refine ⟨new, ?_, (step_publishLocking hpublish).trans hmem, hsettles⟩
    rw [hpublish.log fun _ _ _ _ => rfl, hlog]

/-- A task leaves the replica alone, also where it does not come to its end. -/
theorem acquireAndPublish_passes {seatIds : List ℤ} :
    (acquireAndPublish userId showtimeId seatIds).Passes (Step g i) s t →
      t.1.gateways g = s.1.gateways g ∧ s.2 <+: t.2 := by
  intro h
  refine Prog.Passes.keeps
    (φ := fun c => (∃ k, c = .service (.redis k)) ∨ ∃ message, c = .publishLocking message)
    (I := fun u => u.1.gateways g = s.1.gateways g ∧ s.2 <+: u.2) ?_ h ?_
    ⟨rfl, List.prefix_refl _⟩
  · rintro c hc u v r ⟨hu, hlog⟩ hstep
    have hmore : u.2 <+: v.2 := by
      obtain ⟨w, l, -, -, hrec⟩ := hstep
      exact ⟨_, hrec.symm⟩
    refine ⟨Eq.trans ?_ hu, hlog.trans hmore⟩
    rcases hc with ⟨k, rfl⟩ | ⟨message, rfl⟩
    · exact step_service hstep
    · exact step_publishLocking hstep
  · refine Prog.Issues.bind (p := onRedis (acquireSeats showtimeId userId seatIds ⟨[], []⟩)) ?_
      fun acquired => ?_
    · exact Prog.Issues.hoist _
        (Prog.issues_of_forall _ fun k => ⟨.inl ⟨k, rfl⟩, fun _ => trivial⟩)
    · show Prog.Issues _ (if acquired.lockedSeatIds = [] then _ else _)
      split_ifs
      · trivial
      · exact ⟨.inr ⟨_, rfl⟩, fun _ => trivial⟩

/-! ## The answer -/

/-- The actor takes the task that has just been sent, and keeps its seats. -/
theorem takesUp_sent {u w : World} {sent task : GatewayTask} {tasks : List GatewayTask}
    (hserves : (u.gateways g).Serves showtimeId cell { a with queue := tasks ++ [sent] }) :
    TakesUp g u w showtimeId task →
      task = sent ∧ (w.gateways g).Serves showtimeId cell { a with queue := [] } := by
  rintro ⟨cell', b, earlier, hserves', hqueue, hmem⟩
  obtain rfl : cell = cell' := Option.some.inj (hserves.1.symm.trans hserves'.1)
  obtain rfl := Option.some.inj (hserves.actor.symm.trans hserves'.actor)
  refine ⟨?_, ?_⟩
  · have hlast : tasks ++ [sent] = earlier ++ [task] := hqueue
    exact (List.singleton_inj.1 (List.append_inj' hlast rfl).2).symm
  · rw [hmem]
    exact hserves.setActor _

/-- How the seats of a task came out, as the records tell; a reply that is dropped tells nothing. -/
def CameOut (log : List Event) (userId showtimeId : ℤ) (seatIds locked failed : List ℤ) : Prop :=
  Settles log userId showtimeId seatIds locked failed ∨
    (.dropped ∈ log ∧ locked = [] ∧ failed = seatIds)

/-- The answer to a task: the actor's, or none.  Meanwhile only seats that it names as failed have
lost their slots. -/
theorem replies_sent {answer : Answer} {sent : List ℤ} {tasks : List GatewayTask}
    (hserves : (s.1.gateways g).Serves showtimeId cell
      { a with queue := tasks ++ [.lock i userId sent] }) :
    Replies g i showtimeId s t answer →
      ∃ new b, t.2 = s.2 ++ new ∧ (t.1.gateways g).Serves showtimeId cell b ∧
        b.seatIndices = a.seatIndices ∧
        CameOut new userId showtimeId sent (answer.lockResult sent).lockedSeatIds
          (answer.lockResult sent).failedSeatIds ∧
        ∀ index, (∀ id ∈ (answer.lockResult sent).failedSeatIds, a.seatIndices id ≠ some index) →
          (b.processing index = true ↔ a.processing index = true) := by
  intro h
  cases h with
  | locked htakes hends =>
      obtain ⟨heq, hserves'⟩ := takesUp_sent hserves htakes
      obtain ⟨-, rfl, rfl⟩ := GatewayTask.lock.inj heq.symm
      obtain ⟨new, hlog, hmem, hsettles⟩ := acquireAndPublish_ends hends
      rw [← hmem] at hserves'
      exact ⟨new, _, hlog, hserves', rfl, .inl hsettles, fun _ _ => .rfl⟩
  | cancelled htakes _ =>
      obtain ⟨heq, -⟩ := takesUp_sent hserves htakes
      cases heq
  | dropped htakes hpasses hmem hlog =>
      obtain ⟨heq, hserves'⟩ := takesUp_sent hserves htakes
      obtain ⟨-, rfl, rfl⟩ := GatewayTask.lock.inj heq.symm
      obtain ⟨hkept, new, hnew⟩ := acquireAndPublish_passes hpasses
      rw [← hkept] at hserves'
      have hcleared := hserves'.clearAdmission sent
      rw [← hmem] at hcleared
      rw [← hnew, List.append_assoc] at hlog
      obtain ⟨hindices, -⟩ :=
        ShowActor.processing_clearSeats (a := { a with queue := [] }) sent 0
      refine ⟨_, _, hlog, hcleared, hindices, .inr ⟨?_, rfl, rfl⟩, fun index hkeeps => ?_⟩
      · exact List.mem_append_right _ (List.mem_singleton_self _)
      · rw [(ShowActor.processing_clearSeats sent index).2]
        exact ⟨fun h => h.1, fun h => ⟨h, hkeeps⟩⟩

/-- From the admission on.  The slots of the failed seats are free again, the others are as they
were. -/
theorem lockAdmitted_ends {sent rejected : List ℤ} {r : LockResult}
    (hserves : (s.1.gateways g).Serves showtimeId cell a) :
    (lockAdmitted g cell userId showtimeId sent rejected).Ends (RequestStep g i showtimeId) s t r →
      ∃ new b failed, t.2 = s.2 ++ new ∧ (t.1.gateways g).Serves showtimeId cell b ∧
        b.seatIndices = a.seatIndices ∧ r.failedSeatIds.Perm (failed ++ rejected) ∧
        CameOut new userId showtimeId sent r.lockedSeatIds failed ∧
        ∀ index, b.processing index = true ↔
          a.processing index = true ∧ ∀ id ∈ failed, a.seatIndices id ≠ some index := by
  intro h
  obtain ⟨u, room, hsend, hlog, h⟩ :=
    ends_atOnce (c := .trySend g cell userId sent) trivial h
  obtain ⟨hserves', -, hroom⟩ :=
    step_onActor (c := .trySend g cell userId sent) (fun _ _ => rfl) hserves hsend
  have hroom : room = (a.enqueue (.lock i userId sent)).2 := hroom
  unfold ShowActor.enqueue at hserves' hroom
  split_ifs at hserves' hroom
  · subst hroom
    obtain ⟨v, answer, hanswer, h⟩ := Prog.Ends.of_call h
    have hreplies : Replies g i showtimeId u v answer := by
      cases hanswer with
      | command hnot _ => exact absurd rfl (hnot g)
      | answered hreplies => exact hreplies
    obtain ⟨new, b, hlog', hb, hindices, hout, hkept⟩ := replies_sent hserves' hreplies
    obtain ⟨x, done, hclear, hlog'', h⟩ := ends_atOnce
      (c := .clearAdmission g showtimeId (answer.lockResult sent).failedSeatIds) trivial h
    have hb' := step_clearAdmission hb hclear
    obtain ⟨rfl, rfl⟩ := Prog.Ends.of_ret h
    obtain ⟨hindices', -⟩ :=
      ShowActor.processing_clearSeats (a := b) (answer.lockResult sent).failedSeatIds 0
    refine ⟨new, _, _, ?_, hb', hindices'.trans hindices, .refl _, hout, fun index => ?_⟩
    · rw [hlog'', hlog', hlog]
    · rw [(ShowActor.processing_clearSeats _ index).2, hindices]
      exact and_congr_left (hkept index)
  · -- the queue is full
    subst hroom
    obtain ⟨x, done, hclear, hlog', h⟩ :=
      ends_atOnce (c := .clearAdmission g showtimeId sent) trivial h
    have hb' := step_clearAdmission hserves' hclear
    obtain ⟨rfl, rfl⟩ := Prog.Ends.of_ret h
    obtain ⟨hindices', -⟩ := ShowActor.processing_clearSeats (a := a) sent 0
    refine ⟨[], _, sent, ?_, hb', hindices', List.perm_append_comm,
      .inl (settles_none userId showtimeId sent),
      fun index => (ShowActor.processing_clearSeats sent index).2⟩
    rw [hlog', hlog, List.append_nil]

/-- What a lock request says of its seats, and what it leaves behind. -/
structure Partitions (log : List Event) (userId showtimeId : ℤ) (seatIds : List ℤ)
    (before after : ShowActor) (r : LockResult) : Prop where
  perm : (r.lockedSeatIds ++ r.failedSeatIds).Perm seatIds
  once : r.lockedSeatIds.Nodup
  locked : ∀ id ∈ r.lockedSeatIds, Acquired log showtimeId id userId
  failed : ∀ id ∈ r.failedSeatIds, id ∉ r.lockedSeatIds →
    .dropped ∈ log ∨ Unconfirmed log showtimeId id userId
  admitted : ∀ index, after.processing index = true ↔
    before.processing index = true ∨ ∃ id ∈ r.lockedSeatIds, after.seatIndices id = some index

/-- The seats of a request, put together from those that were refused a slot and those that were
not locked. -/
theorem partitions_of_parts {log : List Event} {b c d : ShowActor} {seats : List (ℤ × ℕ)}
    {new rejected failed seatIds : List ℤ} {r : LockResult} (hplaced : b.AllPlaced seats)
    (hids : seats.map Prod.fst = seatIds) (hproc : b.processing = a.processing)
    (hadmits : b.Admits c seats new rejected) (hindices : d.seatIndices = c.seatIndices)
    (hfailed : r.failedSeatIds.Perm (failed ++ rejected))
    (hout : CameOut log userId showtimeId new r.lockedSeatIds failed)
    (htaken : ∀ index, d.processing index = true ↔
      c.processing index = true ∧ ∀ id ∈ failed, c.seatIndices id ≠ some index) :
    Partitions log userId showtimeId seatIds a d r := by
  have hperm : (r.lockedSeatIds ++ failed).Perm new := by
    rcases hout with hsettles | ⟨-, hnone, hall⟩
    · exact hsettles.perm
    · rw [hnone, hall]
      exact .refl _
  refine ⟨?_, ?_, ?_, ?_, fun index => ?_⟩
  · rw [← hids]
    calc List.Perm (r.lockedSeatIds ++ r.failedSeatIds) (r.lockedSeatIds ++ (failed ++ rejected)) :=
          hfailed.append_left _
      _ = (r.lockedSeatIds ++ failed) ++ rejected := (List.append_assoc _ _ _).symm
      List.Perm _ (new ++ rejected) := hperm.append_right _
      List.Perm _ (seats.map Prod.fst) := hadmits.perm
  · exact (List.nodup_append.1 (hperm.nodup_iff.2 hadmits.nodup)).1
  · rcases hout with hsettles | ⟨-, hnone, -⟩
    · exact hsettles.locked
    · rw [hnone]
      exact List.forall_mem_nil _
  · intro id hid hnot
    rcases hout with hsettles | ⟨hdropped, -, -⟩
    · refine .inr fun e he hconfirms => ?_
      -- a seat on record was admitted, and came out of the task
      obtain ⟨other, hother, habout⟩ := hsettles.about e he
      obtain rfl := seat_of_about habout hconfirms
      rcases List.mem_append.1 (hperm.symm.subset hother) with hlocked | hfailed'
      · exact hnot hlocked
      · exact hsettles.failed hadmits.nodup id hfailed' e he hconfirms
    · exact .inl hdropped
  · rw [htaken index, hadmits.cleared hplaced hperm index, hproc, hindices, hadmits.seatIndices]

/-- The parts of a lock request, one after the other. -/
theorem lock_ends {totalSeatCount : ℤ} {seatIds seatIndices : List ℤ} {s : World} {r : LockResult}
    (hown : (s.gateways g).OwnCell showtimeId)
    (h : (lock g userId showtimeId seatIds seatIndices totalSeatCount).Ends
      (RequestStep g i showtimeId) (s, []) t (.ok r)) :
    Partitions t.2 userId showtimeId seatIds
      ((s.gateways g).showActor showtimeId totalSeatCount)
      ((t.1.gateways g).showActor showtimeId totalSeatCount) r := by
  unfold lock at h
  by_cases hlen : seatIds.length = seatIndices.length
  · rw [if_neg (not_not.2 hlen)] at h
    obtain ⟨u, opened, hbegin, h⟩ :=
      Prog.Ends.of_bind (p := beginRequest g showtimeId totalSeatCount) h
    obtain ⟨hlog, ⟨e, rfl, -⟩ | ⟨cell, rfl, -, hserves⟩⟩ :=
        beginRequest_ends (s := (s, [])) hown hbegin
    · obtain ⟨-, heq⟩ := Prog.Ends.of_ret h
      cases heq
    obtain ⟨v, registered, hregister, h⟩ :=
      Prog.Ends.of_bind (p := registerSeats g cell (seatIds.zip seatIndices)) h
    obtain ⟨hlog', hserves', hr⟩ := registerSeats_ends hserves hregister
    cases registered with
    | error e =>
        obtain ⟨-, heq⟩ := Prog.Ends.of_ret h
        cases heq
    | ok seats =>
        obtain ⟨hids, hplaced⟩ := ShowActor.registerSeats_placed (Prod.ext rfl hr.symm)
        rw [List.map_fst_zip hlen.le] at hids
        obtain ⟨-, hproc, -⟩ := ShowActor.registerSeats_fields (seatIds.zip seatIndices)
          ((s.gateways g).showActor showtimeId totalSeatCount)
        obtain ⟨w, r', hadmit, h⟩ := Prog.Ends.of_bind (p := admitSeats g cell seats [] []) h
        obtain ⟨hlog'', c, new, rejected, hc, hadmits, rfl⟩ :=
          admitSeats_ends hserves' (fun x hx => (hplaced x hx).2) hadmit
        have hnone : w.2 = [] := hlog''.trans (hlog'.trans hlog)
        have h : Prog.Ends (RequestStep g i showtimeId) (if [] ++ new = [] then _ else _) w t
          (.ok r : Except String LockResult) := h
        split_ifs at h with hempty
        · -- no seat was admitted
          obtain rfl : new = [] := hempty
          obtain ⟨rfl, heq⟩ := Prog.Ends.of_ret h
          obtain rfl := Except.ok.inj heq
          rw [hc.showActor, hnone]
          exact partitions_of_parts (fun x hx => (hplaced x hx).2) hids hproc hadmits rfl (.refl _)
            (.inl (settles_none userId showtimeId [])) fun index => by simp
        · obtain ⟨x, result, hlocked, h⟩ :=
            Prog.Ends.of_bind (p := lockAdmitted g cell userId showtimeId new rejected) h
          obtain ⟨log, d, failed, hlog₃, hd, hindices, hfailed, hout, htaken⟩ :=
            lockAdmitted_ends hc hlocked
          obtain ⟨rfl, heq⟩ := Prog.Ends.of_ret h
          obtain rfl := Except.ok.inj heq
          rw [hd.showActor, hlog₃, hnone]
          exact partitions_of_parts (fun x hx => (hplaced x hx).2) hids hproc hadmits hindices
            hfailed hout htaken
  · rw [if_pos hlen] at h
    obtain ⟨-, heq⟩ := Prog.Ends.of_ret h
    cases heq

end Parts

/-- The map of a reachable replica has every show's own cell. -/
theorem ownCell_reachable {p : Pool World Rep Task Result} (h : machine.system.Reachable p) (g : ℕ)
    (showtimeId : ℤ) : (p.store.gateways g).OwnCell showtimeId :=
  ((listens_reachable h).registered g).shows showtimeId

theorem exec_onRedis (i : ℕ) (l : Link) (c : Redis.Cmd) (w : World) :
    exec i l (.service (.redis c)) w =
      some ({ w with services := { w.services with redis := (Redis.exec l c w.services.redis).1 } },
        (Redis.exec l c w.services.redis).2) := rfl

/-- A task of one seat whose lock is free is answered, and its locks may be published. -/
theorem replies_free (g i : ℕ) (tasks : List GatewayTask) {s : Moment} {cell : ℕ} {a : ShowActor}
    (hserves : (s.1.gateways g).Serves 1 cell a)
    (hqueue : a.queue = tasks ++ [.lock i 42 [5]]) :
    ∃ t, Replies g i 1 s t (.lock ⟨[5], []⟩) ∧
      (t.1.gateways g).Serves 1 cell { a with queue := [] } := by
  -- the other services are as new when the actor turns to them
  let w : World := s.1.setGateway g ((s.1.gateways g).setActor cell { a with queue := [] })
  let free : World := { newWorld [] with gateways := w.gateways }
  let set := Redis.exec .ok (.setLockNx 1 5 42 (SingleNodeLock.ttlMs 300)) free.services.redis
  have hset : (Redis.exec .ok (.setLockNx 1 5 42 (SingleNodeLock.ttlMs 300))
      (newWorld []).services.redis).2 = some true := by decide +kernel
  let locked : World := { free with services := { free.services with redis := set.1 } }
  let log := s.2 ++ recorded .ok
    (.service (.redis (.setLockNx 1 5 42 (SingleNodeLock.ttlMs 300)))) free locked (some true)
  have hconn : Step g i (.service (.redis .connect)) (w, s.2) (free, s.2) (some ()) :=
    ⟨free, .ok, rfl, rfl, (List.append_nil _).symm⟩
  have htake : Step g i (.service (.redis (.setLockNx 1 5 42 (SingleNodeLock.ttlMs 300))))
      (free, s.2) (locked, log) (some true) := by
    refine ⟨free, .ok, rfl, ?_, rfl⟩
    rw [exec_onRedis]
    exact congrArg (fun r => some (locked, r)) hset
  have hpublish : Step g i (.publishLocking
      { action := "lock", userId := 42, showtimeId := 1, seatIds := [5] })
      (locked, log) (locked, log) false :=
    ⟨locked, .lost, rfl, rfl, (List.append_nil _).symm⟩
  have hserves' : (w.gateways g).Serves 1 cell { a with queue := [] } := by
    show (Redis.setAt s.1.gateways g _ g).Serves _ _ _
    rw [Redis.setAt_self]
    exact hserves.setActor _
  refine ⟨(locked, log), .locked (w := w) ⟨cell, a, tasks, hserves, hqueue, Redis.setAt_self⟩ ?_,
    hserves'⟩
  exact .call hconn (.call htake (.call hpublish .ret))

/-- Seat 5 is asked for twice: one of its two admissions succeeds, and its lock is free. -/
theorem lock_repeated_ends :
    ∃ t, (lock 0 42 1 [5, 5] [5, 5] 10).Ends (RequestStep 0 0 1) (newWorld [], []) t
      (.ok ⟨[5], [5]⟩) := by
  have hopen : ¬((newWorld []).gateways 0).Refuses 1 10 := by
    rintro (h | h | h | h)
    · cases h
    · exact h (by decide)
    · exact h rfl
    · cases h
  obtain ⟨s₁, cell, hbegin, hserves₁⟩ := beginRequest_can (i := 0) (s := noActors)
    (ownCell_noActors 1) hopen
  obtain ⟨s₂, hregister⟩ := registerSeats_can (i := 0) hserves₁ ([5, 5].zip [5, 5])
  obtain ⟨-, hserves₂, -⟩ := registerSeats_ends hserves₁ hregister
  obtain ⟨s₃, hfirst, hserves₃, -⟩ :=
    can_onActor (c := .tryAdmit 0 cell 4) trivial (fun _ _ => rfl) (i := 0) hserves₂
  obtain ⟨s₄, hsecond, hserves₄, -⟩ :=
    can_onActor (c := .tryAdmit 0 cell 4) trivial (fun _ _ => rfl) (i := 0) hserves₃
  obtain ⟨s₅, hsend, hserves₅, -⟩ :=
    can_onActor (c := .trySend 0 cell 42 [5]) trivial (fun _ _ => rfl) (i := 0) hserves₄
  obtain ⟨s₆, hanswer, hserves₆⟩ := replies_free 0 0 [] hserves₅ rfl
  have hanswered : RequestStep 0 0 1 (.awaitAnswer 0) s₅ s₆ (.lock ⟨[5], []⟩) := .answered hanswer
  obtain ⟨s₇, hclear⟩ : ∃ s₇, RequestStep 0 0 1 (.clearAdmission 0 1 []) s₆ s₇ () :=
    ⟨_, can_atOnce (c := .clearAdmission 0 1 []) trivial (l := .ok) rfl⟩
  refine ⟨s₇, Prog.Ends.bind (p := beginRequest 0 1 10) hbegin ?_⟩
  refine Prog.Ends.bind (p := registerSeats 0 cell ([5, 5].zip [5, 5])) hregister ?_
  exact .call hfirst (.call hsecond (.call hsend (.call hanswered (.call hclear .ret))))

end Gateway
end Bookit

import Bookit.Gateway.SoleRequest

/-!
# Gateway.RejectedRequests — what a refused request leaves behind

A request registers its seats one by one and gives up at the first that is refused, or at a checkout;
the seats that it has registered by then stay.  So a refused request leaves the actor as it was
exactly where each of these seats had its slot before.

* `ShowActor.sameSeats_registerSeats` — which registrations change nothing;
* `lock_error`, `cancel_error` — how requests fail;
* `rejected_unchanged` — when every refused request leaves the actor as it was.
-/

namespace Bookit
namespace Gateway

open Lib LockServer SoleRequest

/-! ## Registrations that change nothing -/

namespace ShowActor

variable {a b : ShowActor}

/-- Every seat up to the first that is turned away has its slot. -/
def Unharmed (a : ShowActor) : List (ℤ × ℤ) → Prop
  | [] => True
  | (seatId, seatIndex) :: seats =>
      a.TurnsAway seatId seatIndex ∨
        (a.Placed seatId (seatIndex - 1).toNat ∧ a.Unharmed seats)

theorem SameSeats.placed {seatId : ℤ} {index : ℕ} (h : a.SameSeats b) :
    b.Placed seatId index → a.Placed seatId index := by
  rintro ⟨hmap, hslot⟩
  rw [h.seatIndices] at hmap
  rw [h.seatIds] at hslot
  exact ⟨hmap, hslot⟩

/-- The registrations of a request change nothing where its seats have their slots, and nowhere
else: a seat that gets its slot keeps it. -/
theorem sameSeats_registerSeats (a : ShowActor) (seats : List (ℤ × ℤ)) :
    a.SameSeats (a.registerSeats seats).1 ↔ a.Unharmed seats := by
  induction seats generalizing a with
  | nil => exact ⟨fun _ => trivial, fun _ => .refl a⟩
  | cons seat seats ih =>
      obtain ⟨seatId, seatIndex⟩ := seat
      obtain ⟨b, r, hb, hrest⟩ := registerSeats_cons a seatId seatIndex seats
      have hstop : ∀ e, r = .error e →
          (a.registerSeats ((seatId, seatIndex) :: seats)).1 = b := by
        intro e he
        rcases hrest with ⟨e', -, heq⟩ | ⟨index, c, hok, -⟩
        · rw [heq]
        · rw [hok] at he
          cases he
      have hmore : ∀ index, r = .ok index →
          (a.registerSeats ((seatId, seatIndex) :: seats)).1 = (b.registerSeats seats).1 := by
        intro index hindex
        rcases hrest with ⟨e, he, -⟩ | ⟨_, c, -, ⟨e, hc, heq⟩ | ⟨rest, hc, heq⟩⟩
        · rw [he] at hindex
          cases hindex
        · rw [heq, hc]
        · rw [heq, hc]
      cases hb with
      | away haway =>
          rw [hstop _ rfl]
          exact ⟨fun _ => .inl haway, fun _ => .refl a⟩
      | removed haway hmap hother =>
          rw [hstop _ rfl]
          constructor
          · intro hsame
            have hentry := congrFun hsame.seatIndices seatId
            rw [hmap] at hentry
            simp at hentry
          · rintro (h | ⟨⟨-, hheld⟩, -⟩)
            · exact absurd h haway
            · exact absurd hheld hother
      | known haway hplaced =>
          rw [hmore _ rfl, ih]
          constructor
          · intro h
            exact .inr ⟨hplaced, h⟩
          · rintro (h | ⟨-, h⟩)
            · exact absurd h haway
            · exact h
      | placed haway hnot hfree hb' =>
          rw [hmore _ rfl]
          constructor
          · intro hsame
            have hplaced : b.Placed seatId (seatIndex - 1).toNat := by
              subst hb'
              exact ⟨Redis.setAt_self, Redis.setAt_self⟩
            have hpos := pos_of_not_turnsAway haway
            exact absurd (hsame.placed (registerSeats_keepsPlaced hpos.ne' hplaced)) hnot
          · rintro (h | ⟨h, -⟩)
            · exact absurd h haway
            · exact absurd h hnot

end ShowActor

/-! ## How requests fail -/

section Fails

variable {g i : ℕ} {s t : Moment} {userId showtimeId totalSeatCount : ℤ} {cell : ℕ} {a : ShowActor}
variable {seatIds seatIndices : List ℤ} {e : String}

/-- Waiting for a checkout lookup changes nothing in the replica. -/
theorem memory_onRedis {β : Type} {p : SingleNodeLock.Op β} {b : β} :
    (onRedis p).Ends (RequestStep g i showtimeId) s t b → t.1.gateways g = s.1.gateways g := by
  intro h
  refine Prog.Ends.keeps (φ := fun c => ∃ k, c = .service (.redis k))
    (I := fun u => u.1.gateways g = s.1.gateways g) ?_ h ?_ rfl
  · rintro c ⟨k, rfl⟩ u v r hu hstep
    exact (step_service hstep.toService).trans hu
  · exact Prog.Issues.hoist _ (Prog.issues_of_forall p fun k => ⟨⟨k, rfl⟩, fun _ => trivial⟩)

/-- The requests that come to register their seats, up to that point. -/
theorem registered_of_begun {r : Except String (List (ℤ × ℕ))} {u : Moment} (totalSeatCount : ℤ)
    (hserves : (s.1.gateways g).Serves showtimeId cell a) :
    (registerSeats g cell (seatIds.zip seatIndices)).Ends (RequestStep g i showtimeId) s u r →
      (u.1.gateways g).showActor showtimeId totalSeatCount =
        (a.registerSeats (seatIds.zip seatIndices)).1 ∧
      r = (a.registerSeats (seatIds.zip seatIndices)).2 := by
  intro h
  obtain ⟨-, hserves', hr⟩ := registerSeats_ends hserves h
  exact ⟨hserves'.showActor, hr⟩

/-- A lock request fails before it registers a seat, or at the first seat that is refused. -/
theorem lock_error (hown : (s.1.gateways g).OwnCell showtimeId) :
    (lock g userId showtimeId seatIds seatIndices totalSeatCount).Ends
        (RequestStep g i showtimeId) s t (.error e) →
      LeavesSeats g showtimeId totalSeatCount s t ∨
        seatIds.length = seatIndices.length ∧
        ¬(s.1.gateways g).Refuses showtimeId totalSeatCount ∧
        (((s.1.gateways g).showActor showtimeId totalSeatCount).registerSeats
          (seatIds.zip seatIndices)).2 = .error e ∧
        (t.1.gateways g).showActor showtimeId totalSeatCount =
          (((s.1.gateways g).showActor showtimeId totalSeatCount).registerSeats
            (seatIds.zip seatIndices)).1 := by
  intro h
  unfold lock at h
  by_cases hlen : seatIds.length = seatIndices.length
  · rw [if_neg (not_not.2 hlen)] at h
    obtain ⟨u, r, hbegin, h⟩ := Prog.Ends.of_bind (p := beginRequest g showtimeId totalSeatCount) h
    obtain ⟨-, ⟨e', rfl, hleaves⟩ | ⟨cell, rfl, hopen, hserves⟩⟩ := beginRequest_ends hown hbegin
    · obtain ⟨rfl, -⟩ := Prog.Ends.of_ret h
      exact .inl hleaves
    · obtain ⟨v, r, hregister, h⟩ :=
        Prog.Ends.of_bind (p := registerSeats g cell (seatIds.zip seatIndices)) h
      obtain ⟨hactor, hr⟩ := registered_of_begun totalSeatCount hserves hregister
      cases r with
      | error e' =>
          obtain ⟨rfl, heq⟩ := Prog.Ends.of_ret h
          obtain rfl := Except.error.inj heq
          exact .inr ⟨hlen, hopen, hr.symm, hactor⟩
      | ok seats =>
          -- from here on the request is answered
          obtain ⟨w, r, -, h⟩ := Prog.Ends.of_bind (p := admitSeats g cell seats [] []) h
          have h : Prog.Ends (RequestStep g i showtimeId) (if r.1 = [] then _ else _) w t
            (.error e : Except String LockResult) := h
          split_ifs at h
          · obtain ⟨-, heq⟩ := Prog.Ends.of_ret h
            cases heq
          · obtain ⟨x, result, -, h⟩ :=
              Prog.Ends.of_bind (p := lockAdmitted g cell userId showtimeId r.1 r.2) h
            obtain ⟨-, heq⟩ := Prog.Ends.of_ret h
            cases heq
  · rw [if_pos hlen] at h
    obtain ⟨rfl, -⟩ := Prog.Ends.of_ret h
    exact .inl (leavesSeats_of_memory rfl)

/-- A cancel request may also fail when all its seats are registered. -/
theorem cancel_error (hown : (s.1.gateways g).OwnCell showtimeId) :
    (cancel g userId showtimeId seatIds seatIndices totalSeatCount).Ends
        (RequestStep g i showtimeId) s t (.error e) →
      LeavesSeats g showtimeId totalSeatCount s t ∨
        seatIds.length = seatIndices.length ∧
        ¬(s.1.gateways g).Refuses showtimeId totalSeatCount ∧
        (t.1.gateways g).showActor showtimeId totalSeatCount =
          (((s.1.gateways g).showActor showtimeId totalSeatCount).registerSeats
            (seatIds.zip seatIndices)).1 := by
  intro h
  unfold cancel at h
  by_cases hlen : seatIds.length = seatIndices.length
  · rw [if_neg (not_not.2 hlen)] at h
    obtain ⟨u, r, hbegin, h⟩ := Prog.Ends.of_bind (p := beginRequest g showtimeId totalSeatCount) h
    obtain ⟨-, ⟨e', rfl, hleaves⟩ | ⟨cell, rfl, hopen, hserves⟩⟩ := beginRequest_ends hown hbegin
    · obtain ⟨rfl, -⟩ := Prog.Ends.of_ret h
      exact .inl hleaves
    · obtain ⟨v, r, hregister, h⟩ :=
        Prog.Ends.of_bind (p := registerSeats g cell (seatIds.zip seatIndices)) h
      obtain ⟨hactor, -⟩ := registered_of_begun totalSeatCount hserves hregister
      cases r with
      | error e' =>
          obtain ⟨rfl, -⟩ := Prog.Ends.of_ret h
          exact .inr ⟨hlen, hopen, hactor⟩
      | ok seats =>
          obtain ⟨w, held, hcheckout, h⟩ :=
            Prog.Ends.of_bind (p := onRedis (checkoutInProgress showtimeId seatIds)) h
          have hmem := memory_onRedis hcheckout
          cases held with
          | true =>
              obtain ⟨rfl, -⟩ := Prog.Ends.of_ret h
              rw [hmem]
              exact .inr ⟨hlen, hopen, hactor⟩
          | false =>
              -- from here on the request is answered
              obtain ⟨_, _, -, h⟩ := Prog.Ends.of_call h
              obtain ⟨_, _, -, h⟩ := Prog.Ends.of_call h
              obtain ⟨_, answer, -, h⟩ := Prog.Ends.of_call h
              cases (answer : Answer) with
              | cancel cancelled =>
                  obtain ⟨-, heq⟩ := Prog.Ends.of_ret h
                  cases heq
              | lock result =>
                  obtain ⟨-, heq⟩ := Prog.Ends.of_ret h
                  cases heq
  · rw [if_pos hlen] at h
    obtain ⟨rfl, -⟩ := Prog.Ends.of_ret h
    exact .inl (leavesSeats_of_memory rfl)

/-! ## Requests that come that far -/

theorem can_atOnce {c : Cmd} (hc : AtOnce c) {l : Link} {w : World} {r : Rep c}
    (h : exec i l c s.1 = some (w, r)) : RequestStep g i showtimeId c s (w, s.2) r := by
  refine .command ?_ ⟨s.1, l, rfl, h, ?_⟩
  · rintro g' rfl
    exact hc
  · rw [recorded_atOnce hc, List.append_nil]

theorem can_onActor {c : Cmd} (hc : AtOnce c) {f : ShowActor → ShowActor × Rep c}
    (hexec : ∀ l w, exec i l c w = w.onActor g cell f)
    (hserves : (s.1.gateways g).Serves showtimeId cell a) :
    ∃ t, RequestStep g i showtimeId c s t (f a).2 ∧ (t.1.gateways g).Serves showtimeId cell (f a).1 ∧
      t.2 = s.2 := by
  have h : exec i .ok c s.1 =
      some (s.1.setGateway g ((s.1.gateways g).setActor cell (f a).1), (f a).2) := by
    rw [hexec]
    unfold World.onActor State.onActor
    rw [hserves.actor]
    rfl
  refine ⟨_, can_atOnce hc h, ?_, rfl⟩
  show (Redis.setAt s.1.gateways g _ g).Serves _ _ _
  rw [Redis.setAt_self]
  exact hserves.setActor _

/-- A request whose show is open comes to an actor with the right seat count. -/
theorem openActor_can (hown : (s.1.gateways g).OwnCell showtimeId)
    (hclosed : (s.1.gateways g).closedShows showtimeId = false)
    (hrange : 0 < totalSeatCount ∧ totalSeatCount ≤ maxSeatsPerShow)
    (hcount : ((s.1.gateways g).showActor showtimeId totalSeatCount).seatCount =
      totalSeatCount.toNat) :
    ∃ t cell, (openActor g showtimeId totalSeatCount).Ends
        (RequestStep g i showtimeId) s t (.ok cell) ∧
      (t.1.gateways g).Serves showtimeId cell
        ((s.1.gateways g).showActor showtimeId totalSeatCount) := by
  obtain ⟨hmap, hmade, hclosed₁⟩ := State.serves_actorCell hown
  let w₁ : World := (s.1.onGateway g (State.actorCell showtimeId)).1
  let cell : ℕ := (State.actorCell showtimeId (s.1.gateways g)).2
  have hmem₁ : w₁.gateways g = (State.actorCell showtimeId (s.1.gateways g)).1 := Redis.setAt_self
  rw [← hmem₁] at hmap hmade hclosed₁
  let made : State × Except String Unit :=
    State.initCell cell totalSeatCount.toNat (w₁.gateways g)
  obtain ⟨hclosed₂, ⟨e, -, -, hshut⟩ | ⟨hok₂, hserves₂⟩⟩ :=
    State.serves_initCell hmap hmade (show State.initCell cell totalSeatCount.toNat
      (w₁.gateways g) = (made.1, made.2) from rfl)
  · rw [hclosed₁, hclosed] at hshut
    cases hshut
  let w₂ : World := (w₁.onGateway g (State.initCell cell totalSeatCount.toNat)).1
  have hmem₂ : w₂.gateways g = made.1 := Redis.setAt_self
  rw [← hmem₂] at hserves₂ hclosed₂
  let checked : State × Except String Unit :=
    State.checkOpen cell showtimeId totalSeatCount.toNat (w₂.gateways g)
  obtain ⟨e, b, -, -, -, hbad⟩ | ⟨hok₃, hsame₃, -, -⟩ :=
    State.serves_checkOpen hserves₂ (show State.checkOpen cell showtimeId totalSeatCount.toNat
      (w₂.gateways g) = (checked.1, checked.2) from rfl)
  · rcases hbad with hshut | hother
    · rw [hclosed₂, hclosed₁, hclosed] at hshut
      cases hshut
    · exact absurd hcount hother
  let w₃ : World :=
    (w₂.onGateway g (State.checkOpen cell showtimeId totalSeatCount.toNat)).1
  have hmem₃ : w₃.gateways g = w₂.gateways g := by
    have hself : w₃.gateways g = checked.1 := Redis.setAt_self
    rw [hself, hsame₃]
  refine ⟨(w₃, s.2), cell, ?_, ?_⟩
  · unfold openActor
    rw [if_neg (not_not.2 hrange)]
    refine .call (u := (w₁, s.2)) (r := cell)
      (can_atOnce (c := .actorCell g showtimeId) trivial (l := .ok) rfl) ?_
    refine .call (u := (w₂, s.2)) (r := made.2)
      (can_atOnce (c := .initCell g cell totalSeatCount.toNat) trivial (l := .ok) rfl) ?_
    rw [hok₂]
    refine .call (u := (w₃, s.2)) (r := checked.2)
      (can_atOnce (c := .checkOpen g cell showtimeId totalSeatCount.toNat) trivial (l := .ok) rfl) ?_
    rw [hok₃]
    exact .ret
  · show (w₃.gateways g).Serves _ _ _
    rw [hmem₃]
    exact hserves₂

/-- Where Redis cannot be reached, the schedule passes for open. -/
theorem closedInRedis_can (g i : ℕ) (showtimeId : ℤ) (s : Moment) :
    (closedInRedis g showtimeId).Ends (RequestStep g i showtimeId) s s false := by
  refine .call (u := s) (r := ((s.1.gateways g).showActors showtimeId).isSome)
    (can_atOnce (c := .hasCell g showtimeId) trivial (l := .ok) rfl) ?_
  cases ((s.1.gateways g).showActors showtimeId).isSome with
  | true => exact .ret
  | false =>
      refine .call (u := s) (r := (none : Option Unit)) (.command nofun ?_) .ret
      exact ⟨s.1, .lost, rfl, rfl, (List.append_nil _).symm⟩

/-- A request that is not refused can come to its actor. -/
theorem beginRequest_can (hown : (s.1.gateways g).OwnCell showtimeId)
    (hopen : ¬(s.1.gateways g).Refuses showtimeId totalSeatCount) :
    ∃ t cell, (beginRequest g showtimeId totalSeatCount).Ends
        (RequestStep g i showtimeId) s t (.ok cell) ∧
      (t.1.gateways g).Serves showtimeId cell
        ((s.1.gateways g).showActor showtimeId totalSeatCount) := by
  have hclosed : (s.1.gateways g).closedShows showtimeId = false := by
    by_contra h
    exact hopen (.inl (Bool.eq_true_of_not_eq_false h))
  have hrange : 0 < totalSeatCount ∧ totalSeatCount ≤ maxSeatsPerShow := by
    by_contra h
    exact hopen (.inr (.inl h))
  have hcount : ((s.1.gateways g).showActor showtimeId totalSeatCount).seatCount =
      totalSeatCount.toNat := by
    by_contra h
    exact hopen (.inr (.inr (.inl h)))
  have hlive : ((s.1.gateways g).showActor showtimeId totalSeatCount).closing = false := by
    by_contra h
    exact hopen (.inr (.inr (.inr (Bool.eq_true_of_not_eq_false h))))
  obtain ⟨t, cell, hopens, hserves⟩ := openActor_can (i := i) hown hclosed hrange hcount
  obtain ⟨u, hclosing, hserves', -⟩ :=
    can_onActor (c := .isClosing g cell) trivial (fun _ _ => rfl) (i := i) hserves
  rw [hlive] at hclosing
  have hget : (getOrCreateShowActor g showtimeId totalSeatCount).Ends
      (RequestStep g i showtimeId) s t
      (.ok cell) := by
    refine .call (u := s) (r := (s.1.gateways g).closedShows showtimeId)
      (can_atOnce (c := .isClosed g showtimeId) trivial (l := .ok) rfl) ?_
    rw [hclosed]
    show Prog.Ends _ (closedInRedis g showtimeId >>= fun closed => if closed = true then _ else _)
      s t _
    exact Prog.Ends.bind (closedInRedis_can g i showtimeId s) hopens
  refine ⟨u, cell, Prog.Ends.bind (p := getOrCreateShowActor g showtimeId totalSeatCount) hget ?_,
    hserves'⟩
  exact .call hclosing .ret

/-- The registrations of a request are never held up. -/
theorem registerSeats_can (hserves : (s.1.gateways g).Serves showtimeId cell a)
    (seats : List (ℤ × ℤ)) :
    ∃ t, (registerSeats g cell seats).Ends
        (RequestStep g i showtimeId) s t (a.registerSeats seats).2 := by
  induction seats generalizing s a with
  | nil => exact ⟨s, .ret⟩
  | cons seat seats ih =>
      obtain ⟨seatId, seatIndex⟩ := seat
      obtain ⟨u, hstep, hserves', -⟩ := can_onActor (c := .registerSeat g cell seatId seatIndex)
        trivial (fun _ _ => rfl) (i := i) hserves
      have hstep : RequestStep g i showtimeId (.registerSeat g cell seatId seatIndex) s u
        (a.registerSeat seatId seatIndex).2 := hstep
      have hserves' : (u.1.gateways g).Serves showtimeId cell
        (a.registerSeat seatId seatIndex).1 := hserves'
      rcases hone : a.registerSeat seatId seatIndex with ⟨b, e | index⟩
      · rw [hone] at hstep
        refine ⟨u, ?_⟩
        simp only [ShowActor.registerSeats, hone]
        exact .call hstep .ret
      · rw [hone] at hstep hserves'
        obtain ⟨t, ht⟩ := ih hserves'
        refine ⟨t, .call hstep ?_⟩
        refine Prog.Ends.bind (p := registerSeats g cell seats) ht ?_
        rcases hmore : b.registerSeats seats with ⟨c, e | slots⟩
        · simp only [ShowActor.registerSeats, hone, hmore]
          exact .ret
        · simp only [ShowActor.registerSeats, hone, hmore]
          exact .ret

/-- A checkout may begin before it is looked for. -/
theorem checkoutInProgress_can (g i : ℕ) (s : Moment) (showtimeId : ℤ) {seatIds : List ℤ}
    (hne : seatIds ≠ []) :
    ∃ t, (onRedis (checkoutInProgress showtimeId seatIds)).Ends
        (RequestStep g i showtimeId) s t true ∧
      t.1.gateways g = s.1.gateways g := by
  obtain ⟨seatId, rest, rfl⟩ := List.exists_cons_of_ne_nil hne
  let redis := s.1.services.redis
  let w : World := { s.1 with
    services := { s.1.services with
      redis := { redis with
        seatCheckout := redis.seatCheckout.put (showtimeId, seatId) (0, "") redis.now } } }
  have hheld : (redis.seatCheckout.put (showtimeId, seatId) (0, "") redis.now).lookup redis.now
      (showtimeId, seatId) = some (0, "") := Expiring.lookup_put_self (Nat.le_refl _)
  have hconn : RequestStep g i showtimeId (.service (.redis .connect)) s s (some ()) :=
    .command nofun ⟨s.1, .ok, rfl, rfl, (List.append_nil _).symm⟩
  have hexists : RequestStep g i showtimeId
      (.service (.redis (.existsCheckout showtimeId seatId))) s (w, s.2)
      (some true) := by
    refine .command nofun ⟨w, .ok, rfl, ?_, (List.append_nil _).symm⟩
    show some (w, some (((redis.seatCheckout.put (showtimeId, seatId) (0, "") redis.now).lookup
      redis.now (showtimeId, seatId)).isSome)) = _
    rw [hheld]
    rfl
  refine ⟨(w, s.2), .call hconn (.call hexists .ret), rfl⟩

/-- A request comes to register its seats. -/
theorem registered_can (hown : (s.1.gateways g).OwnCell showtimeId)
    (hopen : ¬(s.1.gateways g).Refuses showtimeId totalSeatCount) (seats : List (ℤ × ℤ)) :
    ∃ u cell t, (beginRequest g showtimeId totalSeatCount).Ends
        (RequestStep g i showtimeId) s u (.ok cell) ∧
      (registerSeats g cell seats).Ends (RequestStep g i showtimeId) u t
        (((s.1.gateways g).showActor showtimeId totalSeatCount).registerSeats seats).2 ∧
      (t.1.gateways g).showActor showtimeId totalSeatCount =
        (((s.1.gateways g).showActor showtimeId totalSeatCount).registerSeats seats).1 := by
  obtain ⟨u, cell, hbegin, hserves⟩ := beginRequest_can (i := i) hown hopen
  obtain ⟨t, ht⟩ := registerSeats_can (i := i) hserves seats
  exact ⟨u, cell, t, hbegin, ht, (registerSeats_ends hserves ht).2.1.showActor⟩

/-- A lock request with a seat that is refused fails, and keeps the seats before it. -/
theorem lock_fails (i : ℕ) (userId : ℤ) (hown : (s.1.gateways g).OwnCell showtimeId)
    (hlen : seatIds.length = seatIndices.length)
    (hopen : ¬(s.1.gateways g).Refuses showtimeId totalSeatCount)
    (hrefused : (((s.1.gateways g).showActor showtimeId totalSeatCount).registerSeats
      (seatIds.zip seatIndices)).2 = .error e) :
    ∃ t, (lock g userId showtimeId seatIds seatIndices totalSeatCount).Ends
        (RequestStep g i showtimeId) s t
        (.error e) ∧
      (t.1.gateways g).showActor showtimeId totalSeatCount =
        (((s.1.gateways g).showActor showtimeId totalSeatCount).registerSeats
          (seatIds.zip seatIndices)).1 := by
  obtain ⟨u, cell, t, hbegin, hregister, hactor⟩ := registered_can (i := i) hown hopen
    (seatIds.zip seatIndices)
  rw [hrefused] at hregister
  refine ⟨t, ?_, hactor⟩
  unfold lock
  rw [if_neg (not_not.2 hlen)]
  refine Prog.Ends.bind (p := beginRequest g showtimeId totalSeatCount) hbegin ?_
  exact Prog.Ends.bind (p := registerSeats g cell (seatIds.zip seatIndices)) hregister .ret

/-- A cancel request fails at a seat that is refused, or at a checkout that begins meanwhile. -/
theorem cancel_fails (i : ℕ) (userId : ℤ) (hown : (s.1.gateways g).OwnCell showtimeId)
    (hlen : seatIds.length = seatIndices.length) (hne : seatIds ≠ [])
    (hopen : ¬(s.1.gateways g).Refuses showtimeId totalSeatCount) :
    ∃ t e, (cancel g userId showtimeId seatIds seatIndices totalSeatCount).Ends
        (RequestStep g i showtimeId) s
        t (.error e) ∧
      (t.1.gateways g).showActor showtimeId totalSeatCount =
        (((s.1.gateways g).showActor showtimeId totalSeatCount).registerSeats
          (seatIds.zip seatIndices)).1 := by
  obtain ⟨u, cell, t, hbegin, hregister, hactor⟩ := registered_can (i := i) hown hopen
    (seatIds.zip seatIndices)
  unfold cancel
  rw [if_neg (not_not.2 hlen)]
  cases hr : (((s.1.gateways g).showActor showtimeId totalSeatCount).registerSeats
      (seatIds.zip seatIndices)).2 with
  | error e =>
      rw [hr] at hregister
      refine ⟨t, e, ?_, hactor⟩
      refine Prog.Ends.bind (p := beginRequest g showtimeId totalSeatCount) hbegin ?_
      exact Prog.Ends.bind (p := registerSeats g cell (seatIds.zip seatIndices)) hregister .ret
  | ok slots =>
      rw [hr] at hregister
      obtain ⟨v, hcheckout, hmem⟩ := checkoutInProgress_can g i t showtimeId hne
      refine ⟨v, "Cannot cancel seats while checkout is in progress", ?_, by rw [hmem, hactor]⟩
      refine Prog.Ends.bind (p := beginRequest g showtimeId totalSeatCount) hbegin ?_
      refine Prog.Ends.bind (p := registerSeats g cell (seatIds.zip seatIndices)) hregister ?_
      exact Prog.Ends.bind (p := onRedis (checkoutInProgress showtimeId seatIds)) hcheckout .ret

/-! ## Refused requests -/

/-- No refused lock request changes the actor's seats, slots or admissions exactly where the request
is turned away before it registers a seat, none of its seats is refused, or each seat before the first
that is refused has its slot already.  No refused cancel request does exactly where it is turned away
before it registers a seat, or each such seat has its slot; for it may still fail at a checkout. -/
theorem rejected_unchanged_iff (g i : ℕ) (userId showtimeId totalSeatCount : ℤ)
    (seatIds seatIndices : List ℤ) (s : Moment) (hown : (s.1.gateways g).OwnCell showtimeId) :
    ((∀ t e, (lock g userId showtimeId seatIds seatIndices totalSeatCount).Ends
        (RequestStep g i showtimeId) s t
          (.error e) → LeavesSeats g showtimeId totalSeatCount s t) ↔
      seatIds.length ≠ seatIndices.length ∨
      (s.1.gateways g).Refuses showtimeId totalSeatCount ∨
      (∃ slots, (((s.1.gateways g).showActor showtimeId totalSeatCount).registerSeats
        (seatIds.zip seatIndices)).2 = .ok slots) ∨
      ((s.1.gateways g).showActor showtimeId totalSeatCount).Unharmed (seatIds.zip seatIndices)) ∧
    ((∀ t e, (cancel g userId showtimeId seatIds seatIndices totalSeatCount).Ends
        (RequestStep g i showtimeId) s
          t (.error e) → LeavesSeats g showtimeId totalSeatCount s t) ↔
      seatIds.length ≠ seatIndices.length ∨
      (s.1.gateways g).Refuses showtimeId totalSeatCount ∨
      ((s.1.gateways g).showActor showtimeId totalSeatCount).Unharmed
        (seatIds.zip seatIndices)) := by
  have hkeeps : ∀ t : Moment, (t.1.gateways g).showActor showtimeId totalSeatCount =
      (((s.1.gateways g).showActor showtimeId totalSeatCount).registerSeats
        (seatIds.zip seatIndices)).1 →
      (LeavesSeats g showtimeId totalSeatCount s t ↔
        ((s.1.gateways g).showActor showtimeId totalSeatCount).Unharmed
          (seatIds.zip seatIndices)) := by
    intro t ht
    unfold LeavesSeats
    rw [ht]
    exact ShowActor.sameSeats_registerSeats _ _
  constructor
  · constructor
    · intro h
      by_cases hlen : seatIds.length = seatIndices.length
      · by_cases hopen : (s.1.gateways g).Refuses showtimeId totalSeatCount
        · exact .inr (.inl hopen)
        · cases hr : (((s.1.gateways g).showActor showtimeId totalSeatCount).registerSeats
              (seatIds.zip seatIndices)).2 with
          | ok slots => exact .inr (.inr (.inl ⟨slots, rfl⟩))
          | error e =>
              obtain ⟨t, hends, ht⟩ :=
                lock_fails i userId hown hlen hopen hr
              exact .inr (.inr (.inr ((hkeeps t ht).1 (h t e hends))))
      · exact .inl hlen
    · intro h t e hends
      rcases lock_error hown hends with hleaves | ⟨hlen, hopen, hr, ht⟩
      · exact hleaves
      · rcases h with hlen' | hopen' | ⟨slots, hslots⟩ | hunharmed
        · exact absurd hlen hlen'
        · exact absurd hopen' hopen
        · rw [hr] at hslots
          cases hslots
        · exact (hkeeps t ht).2 hunharmed
  · constructor
    · intro h
      by_cases hlen : seatIds.length = seatIndices.length
      · by_cases hopen : (s.1.gateways g).Refuses showtimeId totalSeatCount
        · exact .inr (.inl hopen)
        · by_cases hne : seatIds = []
          · subst hne
            exact .inr (.inr trivial)
          · obtain ⟨t, e, hends, ht⟩ :=
              cancel_fails i userId hown hlen hne hopen
            exact .inr (.inr ((hkeeps t ht).1 (h t e hends)))
      · exact .inl hlen
    · intro h t e hends
      rcases cancel_error hown hends with hleaves | ⟨hlen, hopen, ht⟩
      · exact hleaves
      · rcases h with hlen' | hopen' | hunharmed
        · exact absurd hlen hlen'
        · exact absurd hopen' hopen
        · exact (hkeeps t ht).2 hunharmed

end Fails

/-- A replica without any actor. -/
def noActors : Moment := (newWorld [], [])

theorem ownCell_noActors (showtimeId : ℤ) :
    (noActors.1.gateways 0).OwnCell showtimeId := by
  intro cell h
  cases h

/-- A lock request whose only seat is beyond the show leaves no trace. -/
theorem rejected_unchanged_iff_beyond :
    (noActors.1.gateways 0).OwnCell 1 ∧
      ∀ t e, (lock 0 42 1 [1] [99] 10).Ends (RequestStep 0 0 1) noActors t (.error e) →
        LeavesSeats 0 1 10 noActors t := by
  have h := rejected_unchanged_iff 0 0 42 1 10 [1] [99] noActors (ownCell_noActors 1)
  exact ⟨ownCell_noActors 1, h.1.2 (.inr (.inr (.inr (.inl (.inr (.inl (by decide)))))))⟩

/-- Seat 1 comes with the index of seat 2, and seat 2 with one beyond the show: the request fails, and
seat 1 has the slot of seat 2 from then on, so that its own index is refused. -/
theorem rejected_request_misplaces_seat :
    ∃ t e, (lock 0 42 1 [1, 2] [2, 99] 10).Ends (RequestStep 0 0 1) noActors t (.error e) ∧
      ¬LeavesSeats 0 1 10 noActors t ∧
      (((t.1.gateways 0).showActor 1 10).registerSeat 1 1).2 =
        .error "seat id maps to a different seat index" := by
  have hopen : ¬(noActors.1.gateways 0).Refuses 1 10 := by
    rintro (h | h | h | h)
    · cases h
    · exact h (by decide)
    · exact h rfl
    · cases h
  have hlen : ([1, 2] : List ℤ).length = ([2, 99] : List ℤ).length := rfl
  have hrefused : (((noActors.1.gateways 0).showActor 1 10).registerSeats
      (([1, 2] : List ℤ).zip [2, 99])).2 = .error "seat index is outside the show seat count" := rfl
  obtain ⟨t, hends, ht⟩ := lock_fails 0 42 (ownCell_noActors 1) hlen hopen hrefused
  refine ⟨t, _, hends, fun hleaves => ?_, ?_⟩
  · have hentry := congrFun hleaves.seatIndices 1
    rw [ht] at hentry
    exact absurd hentry (by decide)
  · rw [ht]
    rfl

end Gateway
end Bookit

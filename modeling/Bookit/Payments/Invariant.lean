import Bookit.Payments.Processor
import Mathlib.Data.List.Nodup
import Mathlib.Data.List.Pairwise

/-!
# Payments.Invariant — what the rows of the payment path have in common

`Base` ties the uncommitted rows of the sessions, the request rows and the outbox rows together, and
holds in every run.  `Exclusive` is what the seats of completed orders satisfy where commits book
free seats only.  `Evolves i` is how the tables may change behind the back of session `i`.  For each
statement there is one lemma saying that it keeps all three.
-/

namespace Bookit
namespace Payments

open Lib

/-! ## Rows that belong together -/

/-- The seat and its schedule. -/
def SeatRow.place (r : SeatRow) : ℤ × ℤ := (r.id, r.scheduleId)

/-- All these seats are rows of the schedule. -/
def Listed (s : Postgres) (seatIds : List ℤ) (scheduleId : ℤ) : Prop :=
  ∀ k ∈ seatIds, ∃ r ∈ s.seats, r.id = k ∧ r.scheduleId = scheduleId

def OutboxRow.checkout : OutboxRow → Option CheckoutMessage
  | paymentRequested m => some m
  | _ => none

/-- The `payment.requested` rows of the outbox. -/
def Postgres.checkouts (s : Postgres) : List CheckoutMessage :=
  s.outbox.filterMap OutboxRow.checkout

/-- The uncommitted rows of a session. -/
def own (s : Postgres) (i : ℕ) : List (ℕ × Txn) :=
  s.open_.filter fun t => decide (t.1 = i)

/-- Two versions of a request row: only the status and its reason may differ. -/
structure SameRow (r r' : RequestRow) : Prop where
  id : r'.id = r.id
  idempotencyKey : r'.idempotencyKey = r.idempotencyKey
  userId : r'.userId = r.userId
  scheduleId : r'.scheduleId = r.scheduleId
  seatIds : r'.seatIds = r.seatIds

theorem SameRow.refl (r : RequestRow) : SameRow r r := ⟨rfl, rfl, rfl, rfl, rfl⟩

theorem SameRow.trans {r r' r'' : RequestRow} (h : SameRow r r') (h' : SameRow r' r'') :
    SameRow r r'' :=
  ⟨h'.id.trans h.id, h'.idempotencyKey.trans h.idempotencyKey, h'.userId.trans h.userId,
    h'.scheduleId.trans h.scheduleId, h'.seatIds.trans h.seatIds⟩

theorem SameRow.conflicts {r r' q q' : RequestRow} (h : SameRow r r') (h' : SameRow q q') :
    Postgres.conflicts r' q' = Postgres.conflicts r q := by
  simp only [Postgres.conflicts, h.id, h'.id, h.userId, h'.userId, h.idempotencyKey,
    h'.idempotencyKey]

theorem conflicts_comm (r q : RequestRow) :
    Postgres.conflicts r q = Postgres.conflicts q r := by
  simp only [Postgres.conflicts, eq_comm]

/-! ## The invariant -/

structure Base (s : Postgres) : Prop where
  ids : (s.seats.map (·.id)).Nodup
  sessions : (s.open_.map Prod.fst).Nodup
  rows : s.requests.Pairwise fun r r' => Postgres.conflicts r r' = false
  open_ : s.open_.Pairwise fun t t' => Postgres.conflicts t.2.row t'.2.row = false
  fresh : ∀ t ∈ s.open_, ∀ r ∈ s.requests, Postgres.conflicts t.2.row r = false
  openEvent : ∀ t ∈ s.open_, ∀ m, t.2.event = some m →
    m.paymentRequestId = t.2.row.id ∧ Listed s m.seatIds m.scheduleId
  event : ∀ m ∈ s.checkouts,
    (∃ r ∈ s.requests, r.id = m.paymentRequestId) ∧ Listed s m.seatIds m.scheduleId
  events : (s.checkouts.map (·.paymentRequestId)).Nodup
  orders : ∀ o ∈ s.orders, Listed s o.seatIds o.scheduleId

/-- The seats of completed orders are booked, and no two of them share a seat. -/
structure Exclusive (s : Postgres) : Prop where
  booked : ∀ o ∈ s.orders, o.status = .completed → ∀ r ∈ s.seats, r.id ∈ o.seatIds →
    r.status = .booked
  apart : s.orders.Pairwise fun o o' =>
    o.status = .completed → o'.status = .completed → o.scheduleId = o'.scheduleId →
      ∀ k ∈ o.seatIds, k ∉ o'.seatIds

/-- Committed requests stay, seats keep their schedule, and session `i` keeps its open rows. -/
structure Evolves (i : ℕ) (s t : Postgres) : Prop where
  rows : ∀ r ∈ s.requests, ∃ r' ∈ t.requests, SameRow r r'
  seats : t.seats.map SeatRow.place = s.seats.map SeatRow.place
  own : own t i = own s i

theorem Evolves.refl (i : ℕ) (s : Postgres) : Evolves i s s :=
  ⟨fun r hr => ⟨r, hr, .refl r⟩, rfl, rfl⟩

theorem Evolves.trans {i : ℕ} {s t u : Postgres} (hst : Evolves i s t) (htu : Evolves i t u) :
    Evolves i s u := by
  refine ⟨fun r hr => ?_, htu.seats.trans hst.seats, htu.own.trans hst.own⟩
  obtain ⟨r', hr', h⟩ := hst.rows r hr
  obtain ⟨r'', hr'', h'⟩ := htu.rows r' hr'
  exact ⟨r'', hr'', h.trans h'⟩

theorem Listed.congr {s t : Postgres} {seatIds : List ℤ} {scheduleId : ℤ}
    (h : Listed s seatIds scheduleId)
    (hst : t.seats.map SeatRow.place = s.seats.map SeatRow.place) :
    Listed t seatIds scheduleId := by
  intro k hk
  obtain ⟨r, hr, hid, hsched⟩ := h k hk
  have hmem : r.place ∈ t.seats.map SeatRow.place := hst ▸ List.mem_map_of_mem hr
  obtain ⟨r', hr', hplace⟩ := List.mem_map.1 hmem
  obtain ⟨hid', hsched'⟩ := Prod.mk.inj hplace
  exact ⟨r', hr', hid'.trans hid, hsched'.trans hsched⟩

theorem ids_congr {s t : Postgres}
    (hst : t.seats.map SeatRow.place = s.seats.map SeatRow.place) :
    t.seats.map (·.id) = s.seats.map (·.id) := by
  have h := congrArg (List.map Prod.fst) hst
  rwa [List.map_map, List.map_map] at h

/-! ## The open rows of the sessions -/

section Sessions

variable {s : Postgres} {i j : ℕ}

theorem own_others (hne : j ≠ i) :
    (s.others i).filter (fun t => decide (t.1 = j)) = own s j := by
  simp only [Postgres.others, own, List.filter_filter]
  refine List.filter_congr fun t _ => ?_
  rcases eq_or_ne t.1 j with rfl | h
  · simp [hne]
  · simp [h]

theorem own_others_self : (s.others i).filter (fun t => decide (t.1 = i)) = [] := by
  simp [Postgres.others]

theorem mem_others {t : ℕ × Txn} : t ∈ s.others i ↔ t ∈ s.open_ ∧ t.1 ≠ i := by
  simp [Postgres.others]

theorem others_sublist (s : Postgres) (i : ℕ) : (s.others i).Sublist s.open_ :=
  List.filter_sublist

theorem txnOf_eq_some {txn : Txn} (h : s.txnOf i = some txn) : (i, txn) ∈ s.open_ := by
  obtain ⟨t, ht, rfl⟩ := Option.map_eq_some_iff.1 h
  have hi : t.1 = i := by simpa using List.find?_some ht
  exact hi ▸ List.mem_of_find?_eq_some ht

/-- A session has at most one open transaction, and `own` shows it. -/
theorem txnOf_of_own {txn : Txn} (h : own s i = [(i, txn)]) : s.txnOf i = some txn := by
  rw [Postgres.txnOf, ← List.head?_filter]
  show ((own s i).head?).map Prod.snd = some txn
  rw [h]
  rfl

end Sessions

/-! ## What a statement keeps -/

/-- A statement of session `i` keeps the invariant and what the other sessions rely on. -/
structure Keeps (i : ℕ) (s t : Postgres) : Prop where
  base : Base t
  rely : ∀ j, j ≠ i → Evolves j s t

theorem Exclusive.congr {s t : Postgres} (h : Exclusive s) (hseats : t.seats = s.seats)
    (horders : t.orders = s.orders) : Exclusive t :=
  ⟨by rw [hseats, horders]; exact h.booked, by rw [horders]; exact h.apart⟩

/-- The invariant where the open rows, the events and the places of the seats are as they were, and
the request rows are new versions of the old ones. -/
theorem Base.update {s t : Postgres} (hs : Base s) {g : RequestRow → RequestRow}
    (hg : ∀ r, SameRow r (g r)) (hreq : t.requests = s.requests.map g)
    (hseats : t.seats.map SeatRow.place = s.seats.map SeatRow.place) (hopen : t.open_ = s.open_)
    (hevents : t.checkouts = s.checkouts) (horders : ∀ o ∈ t.orders, Listed t o.seatIds o.scheduleId) :
    Base t ∧ ∀ j, Evolves j s t := by
  constructor
  · constructor
    · exact ids_congr hseats ▸ hs.ids
    · exact hopen ▸ hs.sessions
    · rw [hreq, List.pairwise_map]
      exact hs.rows.imp fun {r r'} h => ((hg r).conflicts (hg r')).trans h
    · exact hopen ▸ hs.open_
    · intro x hx r hr
      rw [hopen] at hx
      rw [hreq] at hr
      obtain ⟨r₀, hr₀, rfl⟩ := List.mem_map.1 hr
      exact ((SameRow.refl x.2.row).conflicts (hg r₀)).trans (hs.fresh x hx r₀ hr₀)
    · intro x hx m hm
      obtain ⟨hid, hlist⟩ := hs.openEvent x (hopen ▸ hx) m hm
      exact ⟨hid, hlist.congr hseats⟩
    · intro m hm
      obtain ⟨⟨r, hr, hid⟩, hlist⟩ := hs.event m (hevents ▸ hm)
      exact ⟨⟨g r, hreq ▸ List.mem_map_of_mem hr, (hg r).id.trans hid⟩, hlist.congr hseats⟩
    · exact hevents ▸ hs.events
    · exact horders
  · intro j
    refine ⟨fun r hr => ⟨g r, hreq ▸ List.mem_map_of_mem hr, hg r⟩, hseats, ?_⟩
    simp only [own, hopen]

section Statements

variable {s : Postgres} {i : ℕ}

/-- An update of the status of request rows. -/
theorem Base.updateRequests (hs : Base s) {p : RequestRow → Bool} {f : RequestRow → RequestRow}
    (hf : ∀ r, SameRow r (f r)) :
    Base { s with requests := Table.updateWhere p f s.requests } ∧
      ∀ j, Evolves j s { s with requests := Table.updateWhere p f s.requests } := by
  refine hs.update (g := fun r => if p r then f r else r) (fun r => ?_) rfl rfl rfl rfl hs.orders
  split_ifs
  · exact hf r
  · exact .refl r

theorem Base.failRequest (hs : Base s) (id : ℕ) (reason : String) :
    Base (s.failRequest id reason) ∧ ∀ j, Evolves j s (s.failRequest id reason) :=
  hs.updateRequests fun _ => ⟨rfl, rfl, rfl, rfl, rfl⟩

/-- An insertion leaves the tables as they were, or opens a transaction with a row that conflicts
with none. -/
theorem insertRequest_cases {row : RequestRow} {t : Postgres} {r : Option ℕ}
    (h : s.insertRequest i row = some (t, r)) :
    (t = s ∧ r ≠ some 1) ∨
    (t = { s with open_ := s.others i ++ [(i, ⟨row, none⟩)] } ∧ r = some 1 ∧
      (∀ x ∈ s.others i, Postgres.conflicts x.2.row row = false) ∧
      ∀ x ∈ s.requests, Postgres.conflicts row x = false) := by
  unfold Postgres.insertRequest at h
  split_ifs at h with hblocked hfound htaken
  · obtain ⟨rfl, rfl⟩ := Prod.mk.inj (Option.some.inj h)
    exact .inl ⟨rfl, by simp⟩
  · obtain ⟨rfl, rfl⟩ := Prod.mk.inj (Option.some.inj h)
    exact .inl ⟨rfl, by simp⟩
  · obtain ⟨rfl, rfl⟩ := Prod.mk.inj (Option.some.inj h)
    refine .inr ⟨rfl, rfl, fun x hx => ?_, fun x hx => ?_⟩
    · by_contra hc
      exact hblocked (List.any_eq_true.2 ⟨x, hx, by simpa using hc⟩)
    · have hkey : ¬(x.userId = row.userId ∧ x.idempotencyKey = row.idempotencyKey) := by
        intro hkey
        refine hfound (List.find?_isSome.2 ⟨x, hx, ?_⟩)
        simpa using hkey
      have hid : x.id ≠ row.id := by
        intro hid
        exact htaken (List.any_eq_true.2 ⟨x, hx, by simpa using hid⟩)
      rw [conflicts_comm]
      simp only [Postgres.conflicts, decide_eq_false_iff_not, not_or]
      exact ⟨hid, hkey⟩

theorem Base.insertRequest (hs : Base s) {row : RequestRow} {t : Postgres} {r : Option ℕ}
    (h : s.insertRequest i row = some (t, r)) :
    Keeps i s t ∧ (r = some 1 → own t i = [(i, ⟨row, none⟩)]) := by
  rcases insertRequest_cases h with ⟨rfl, hr⟩ | ⟨rfl, -, hopen, hrows⟩
  · exact ⟨⟨hs, fun j _ => .refl j t⟩, fun h1 => absurd h1 hr⟩
  have hmem : ∀ x ∈ s.others i ++ [(i, Txn.mk row none)],
      x ∈ s.open_ ∨ x = (i, Txn.mk row none) := by
    intro x hx
    rcases List.mem_append.1 hx with hx | hx
    · exact .inl (mem_others.1 hx).1
    · exact .inr (List.mem_singleton.1 hx)
  refine ⟨⟨?_, fun j hne => ⟨fun r hr => ⟨r, hr, .refl r⟩, rfl, ?_⟩⟩, fun _ => ?_⟩
  · constructor
    · exact hs.ids
    · have hnew : i ∉ (s.others i).map Prod.fst := by
        intro hi
        obtain ⟨x, hx, rfl⟩ := List.mem_map.1 hi
        exact (mem_others.1 hx).2 rfl
      simp only [List.map_append, List.map_cons, List.map_nil]
      rw [List.nodup_append]
      refine ⟨hs.sessions.sublist ((others_sublist s i).map _), List.nodup_singleton i, ?_⟩
      rintro a ha b hb rfl
      exact hnew (List.mem_singleton.1 hb ▸ ha)
    · exact hs.rows
    · rw [List.pairwise_append]
      refine ⟨hs.open_.sublist (others_sublist s i), List.pairwise_singleton _ _, ?_⟩
      intro x hx y hy
      rw [List.mem_singleton.1 hy]
      exact hopen x hx
    · intro x hx
      rcases hmem x hx with hx | rfl
      · exact hs.fresh x hx
      · exact hrows
    · intro x hx m hm
      rcases hmem x hx with hx | rfl
      · exact hs.openEvent x hx m hm
      · cases hm
    · exact hs.event
    · exact hs.events
    · exact hs.orders
  · simp only [own, List.filter_append]
    rw [own_others hne]
    simp [own, hne.symm]
  · simp only [own, List.filter_append]
    rw [own_others_self]
    simp

@[simp] theorem setEvent_fst (i : ℕ) (message : CheckoutMessage) (t : ℕ × Txn) :
    (Postgres.setEvent i message t).1 = t.1 := by
  unfold Postgres.setEvent
  split_ifs <;> rfl

@[simp] theorem setEvent_row (i : ℕ) (message : CheckoutMessage) (t : ℕ × Txn) :
    (Postgres.setEvent i message t).2.row = t.2.row := by
  unfold Postgres.setEvent
  split_ifs <;> rfl

theorem setEvent_ne {i : ℕ} {message : CheckoutMessage} {t : ℕ × Txn} (h : t.1 ≠ i) :
    Postgres.setEvent i message t = t :=
  if_neg h

theorem own_insertRequested (s : Postgres) (i j : ℕ) (message : CheckoutMessage) :
    own (s.insertRequested i message) j = (own s j).map (Postgres.setEvent i message) := by
  simp only [own, Postgres.insertRequested, List.filter_map]
  refine congrArg (List.map _) (List.filter_congr fun x _ => ?_)
  simp only [Function.comp, setEvent_fst]

/-- The outbox row of an open request, for seats of the schedule. -/
theorem Base.insertRequested (hs : Base s) {row : RequestRow} {message : CheckoutMessage}
    (hown : own s i = [(i, ⟨row, none⟩)]) (hid : message.paymentRequestId = row.id)
    (hlist : Listed s message.seatIds message.scheduleId) :
    Keeps i s (s.insertRequested i message) ∧
      own (s.insertRequested i message) i = [(i, ⟨row, some message⟩)] := by
  have hmem : ∀ x ∈ (s.insertRequested i message).open_,
      ∃ y ∈ s.open_, Postgres.setEvent i message y = x := fun x hx => List.mem_map.1 hx
  refine ⟨⟨?_, fun j hne => ⟨fun r hr => ⟨r, hr, .refl r⟩, rfl, ?_⟩⟩, ?_⟩
  · constructor
    · exact hs.ids
    · have hfst : (s.insertRequested i message).open_.map Prod.fst = s.open_.map Prod.fst := by
        simp only [Postgres.insertRequested, List.map_map]
        exact List.map_congr_left fun x _ => setEvent_fst i message x
      exact hfst ▸ hs.sessions
    · exact hs.rows
    · simp only [Postgres.insertRequested, List.pairwise_map, setEvent_row]
      exact hs.open_
    · intro x hx r hr
      obtain ⟨y, hy, rfl⟩ := hmem x hx
      rw [setEvent_row]
      exact hs.fresh y hy r hr
    · intro x hx m hm
      obtain ⟨y, hy, rfl⟩ := hmem x hx
      by_cases hyi : y.1 = i
      · -- the transaction of the session is the one that `own` shows
        have hy' : y ∈ own s i := List.mem_filter.2 ⟨hy, by simpa using hyi⟩
        rw [hown, List.mem_singleton] at hy'
        subst hy'
        have hm' : some message = some m := by simpa [Postgres.setEvent] using hm
        obtain rfl := Option.some.inj hm'
        exact ⟨by simpa using hid, hlist⟩
      · rw [setEvent_ne hyi] at hm ⊢
        exact hs.openEvent y hy m hm
    · exact hs.event
    · exact hs.events
    · exact hs.orders
  · have hkeep : ∀ x ∈ own s j, Postgres.setEvent i message x = id x := by
      intro x hx
      have hxj : x.1 = j := by simpa using (List.mem_filter.1 hx).2
      exact setEvent_ne (hxj ▸ hne)
    calc own (s.insertRequested i message) j
        = (own s j).map (Postgres.setEvent i message) := own_insertRequested s i j message
      _ = (own s j).map id := List.map_congr_left hkeep
      _ = own s j := List.map_id _
  · rw [own_insertRequested, hown]
    simp [Postgres.setEvent]

theorem Base.rollback (hs : Base s) (i : ℕ) : Keeps i s (s.rollback i) := by
  have hsub : (s.rollback i).open_.Sublist s.open_ := others_sublist s i
  refine ⟨⟨hs.ids, hs.sessions.sublist (hsub.map _), hs.rows, hs.open_.sublist hsub, ?_, ?_,
    hs.event, hs.events, hs.orders⟩, fun j hne => ⟨fun r hr => ⟨r, hr, .refl r⟩, rfl, ?_⟩⟩
  · exact fun x hx => hs.fresh x (hsub.subset hx)
  · exact fun x hx => hs.openEvent x (hsub.subset hx)
  · exact own_others hne

/-- A commit without a transaction is no change; with one, its rows become visible. -/
theorem Base.commit (hs : Base s) (i : ℕ) :
    Keeps i s (s.commit i) ∧
      ∀ txn, own s i = [(i, txn)] → txn.row ∈ (s.commit i).requests := by
  unfold Postgres.commit
  cases htxn : s.txnOf i with
  | none =>
      refine ⟨⟨hs, fun j _ => .refl j s⟩, fun txn hown => ?_⟩
      rw [txnOf_of_own hown] at htxn
      cases htxn
  | some txn =>
      have hopen : (i, txn) ∈ s.open_ := txnOf_eq_some htxn
      have hfresh := hs.fresh _ hopen
      have hsub := others_sublist s i
      have hcheckouts : ∀ u : Postgres, u.outbox = s.outbox ++
          (txn.event.map OutboxRow.paymentRequested).toList →
          u.checkouts = s.checkouts ++ txn.event.toList := by
        intro u hu
        simp only [Postgres.checkouts, hu, List.filterMap_append]
        cases txn.event <;> rfl
      refine ⟨⟨?_, fun j hne => ⟨fun r hr => ⟨r, List.mem_append_left _ hr, .refl r⟩, rfl, ?_⟩⟩, ?_⟩
      · constructor
        · exact hs.ids
        · exact hs.sessions.sublist (hsub.map _)
        · rw [List.pairwise_append]
          refine ⟨hs.rows, List.pairwise_singleton _ _, fun r hr r' hr' => ?_⟩
          rw [List.mem_singleton.1 hr', conflicts_comm]
          exact hfresh r hr
        · exact hs.open_.sublist hsub
        · intro x hx r hr
          rcases List.mem_append.1 hr with hr | hr
          · exact hs.fresh x (hsub.subset hx) r hr
          · -- the row that becomes visible was open next to the others
            have hne : x ≠ (i, txn) := by
              rintro rfl
              exact (mem_others.1 hx).2 rfl
            have hsymm : Std.Symm fun y z : ℕ × Txn =>
                Postgres.conflicts y.2.row z.2.row = false :=
              ⟨fun y z h => (conflicts_comm _ _).trans h⟩
            rw [List.mem_singleton.1 hr]
            exact hs.open_.forall (hsub.subset hx) hopen hne
        · exact fun x hx => hs.openEvent x (hsub.subset hx)
        · intro m hm
          rw [hcheckouts _ rfl] at hm
          rcases List.mem_append.1 hm with hm | hm
          · obtain ⟨⟨r, hr, hid⟩, hlist⟩ := hs.event m hm
            exact ⟨⟨r, List.mem_append_left _ hr, hid⟩, hlist⟩
          · obtain ⟨hid, hlist⟩ := hs.openEvent _ hopen m (Option.mem_toList.1 hm)
            exact ⟨⟨txn.row, List.mem_append_right _ (List.mem_singleton_self _), hid.symm⟩, hlist⟩
        · rw [hcheckouts _ rfl, List.map_append, List.nodup_append]
          refine ⟨hs.events, ?_, ?_⟩
          · cases txn.event <;> simp
          · -- the new event is for the new row, the old ones are for old rows
            rintro a ha b hb rfl
            obtain ⟨m, hm, rfl⟩ := List.mem_map.1 ha
            obtain ⟨m', hm', hmm⟩ := List.mem_map.1 hb
            obtain ⟨⟨r, hr, hid⟩, -⟩ := hs.event m hm
            obtain ⟨hid', -⟩ := hs.openEvent _ hopen m' (Option.mem_toList.1 hm')
            have hconf := hfresh r hr
            simp only [Postgres.conflicts, decide_eq_false_iff_not, not_or] at hconf
            exact hconf.1 (by rw [hid, ← hid', hmm])
        · exact hs.orders
      · exact own_others hne
      · intro txn' hown
        have : s.txnOf i = some txn' := txnOf_of_own hown
        rw [htxn] at this
        obtain rfl := Option.some.inj this
        exact List.mem_append_right _ (List.mem_singleton_self _)

/-! ## Checkouts and the seats of orders -/

theorem place_setSeats (s : Postgres) (seatIds : List ℤ) (status : SeatStatus) :
    (s.setSeats seatIds status).map SeatRow.place = s.seats.map SeatRow.place :=
  Table.map_updateWhere fun _ => rfl

theorem commitCheckout_cases (s : Postgres) (c : CheckoutCommit) :
    (s.commitCheckout c).1 = s ∨ s.orderRefused c = false ∧
      (s.commitCheckout c).1 =
        { s with
          seats := s.setSeats c.seatIds .booked
          orders := s.orders ++ [Postgres.newOrder c]
          requests := Table.updateWhere (fun r => decide (r.id = c.paymentRequestId))
            (fun r => { r with status := .succeeded, failureReason := none }) s.requests
          audits := s.audits ++
            [⟨c.userId, "order_completed", c.orderId, c.totalAmount, c.seatIds⟩]
          outbox := s.outbox ++
            [.orderCompleted ⟨c.orderId, c.userId, c.scheduleId, c.seatIds, c.totalAmount⟩] } := by
  unfold Postgres.commitCheckout
  split_ifs with h
  · exact .inl rfl
  · exact .inr ⟨by simpa using h, rfl⟩

/-- A checkout of seats of the schedule. -/
theorem Base.commitCheckout (hs : Base s) (c : CheckoutCommit)
    (hlist : Listed s c.seatIds c.scheduleId) :
    Base (s.commitCheckout c).1 ∧ ∀ j, Evolves j s (s.commitCheckout c).1 := by
  rcases commitCheckout_cases s c with heq | ⟨-, heq⟩
  · rw [heq]
    exact ⟨hs, fun j => .refl j s⟩
  rw [heq]
  refine hs.update
    (g := fun r => if decide (r.id = c.paymentRequestId) then
      { r with status := .succeeded, failureReason := none } else r)
    (fun r => ?_) rfl (place_setSeats s _ _) rfl ?_ ?_
  · split_ifs
    · exact ⟨rfl, rfl, rfl, rfl, rfl⟩
    · exact .refl r
  · simp [Postgres.checkouts, OutboxRow.checkout]
  · intro o ho
    rcases List.mem_append.1 ho with ho | ho
    · exact (hs.orders o ho).congr (place_setSeats s _ _)
    · rw [List.mem_singleton.1 ho]
      exact hlist.congr (place_setSeats s _ _)

/-- A change of the status of orders. -/
theorem Base.updateOrders (hs : Base s) {t : Postgres} {p : OrderRow → Bool}
    {status : OrderStatus} (hreq : t.requests = s.requests)
    (hseats : t.seats.map SeatRow.place = s.seats.map SeatRow.place) (hopen : t.open_ = s.open_)
    (hevents : t.checkouts = s.checkouts)
    (horders : t.orders = Table.updateWhere p (fun o => { o with status := status }) s.orders) :
    Base t ∧ ∀ j, Evolves j s t := by
  refine hs.update (g := id) .refl (hreq.trans (List.map_id _).symm) hseats hopen hevents
    fun o ho => ?_
  rw [horders] at ho
  rcases Table.mem_updateWhere_cases ho with ⟨ho, -⟩ | ⟨o₀, ho₀, -, rfl⟩
  · exact (hs.orders o ho).congr hseats
  · exact (hs.orders o₀ ho₀).congr hseats

theorem Base.startCancellation (hs : Base s) (id : ℕ) (message : CancellationMessage) :
    Base (s.startCancellation id message) ∧ ∀ j, Evolves j s (s.startCancellation id message) := by
  unfold Postgres.startCancellation
  split_ifs
  · refine hs.updateOrders rfl rfl rfl ?_ rfl
    simp [Postgres.checkouts, OutboxRow.checkout]
  · exact ⟨hs, fun j => .refl j s⟩

theorem Base.commitCancellation (hs : Base s) (c : CancellationCommit) :
    Base (s.commitCancellation c).1 ∧ ∀ j, Evolves j s (s.commitCancellation c).1 := by
  refine hs.updateOrders rfl (place_setSeats s _ _) rfl ?_ rfl
  simp [Postgres.commitCancellation, Postgres.checkouts, OutboxRow.checkout]

/-- The commit books free seats only, unless a unique index refuses it or it never arrives. -/
def BooksFree (l : Link) (c : CheckoutCommit) (s : Postgres) : Prop :=
  l ≠ .lost → s.orderRefused c = false → ∀ r ∈ s.seats, r.id ∈ c.seatIds → r.status ≠ .booked

instance {l : Link} {c : CheckoutCommit} {s : Postgres} : Decidable (BooksFree l c s) := by
  unfold BooksFree
  infer_instance

theorem Exclusive.commitCheckout (hs : Base s) (hx : Exclusive s) {l : Link} {c : CheckoutCommit}
    (hl : l ≠ .lost) (hfree : BooksFree l c s) : Exclusive (s.commitCheckout c).1 := by
  rcases commitCheckout_cases s c with heq | ⟨href, heq⟩
  · rw [heq]
    exact hx
  rw [heq]
  have hfree := hfree hl href
  -- a seat of a completed order is booked, so the commit does not touch it
  have hdisj : ∀ o ∈ s.orders, o.status = .completed → ∀ k ∈ o.seatIds, k ∉ c.seatIds := by
    intro o ho hcomp k hk hkc
    obtain ⟨r, hr, rfl, -⟩ := hs.orders o ho k hk
    exact hfree r hr hkc (hx.booked o ho hcomp r hr hk)
  constructor
  · intro o ho hcomp r hr hmem
    rcases Table.mem_updateWhere_cases hr with ⟨hr, hout⟩ | ⟨r₀, hr₀, hin, rfl⟩
    · rcases List.mem_append.1 ho with ho | ho
      · exact hx.booked o ho hcomp r hr hmem
      · rw [List.mem_singleton.1 ho] at hmem
        have hnot : r.id ∉ c.seatIds := by simpa using hout
        exact absurd hmem hnot
    · rfl
  · rw [List.pairwise_append]
    refine ⟨hx.apart, List.pairwise_singleton _ _, ?_⟩
    intro o ho o' ho' hcomp _ _ k hk
    rw [List.mem_singleton.1 ho']
    exact hdisj o ho hcomp k hk

end Statements

end Payments
end Bookit

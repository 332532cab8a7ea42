import Bookit.Lib.Alone
import Bookit.LockServer.Handlers

/-!
# LockServer.BookedCheck — whether the updater finds out that a seat is sold

The check counts the booked rows of the seat, and where there is none, the active tickets of the
schedule, of whatever seats.  A query that fails counts nothing.  So a seat that is not sold passes for
sold as soon as its schedule has an active ticket, and a sold one for unsold where the database does
not answer; the updater then books, or releases.

* `isSeatBookedInDb_ends` — what the check answers;
* `processDueEntry_ends` — what the updater does;
* `bookedCheck_exact_iff` — when both are right.
-/

namespace Bookit
namespace LockServer

open Lib Payments SingleNodeLock

/-! ## Sold seats -/

section Sold

variable (pg : Postgres) (scheduleId seatId : ℤ)

def BookedSeat : Prop :=
  ∃ r ∈ pg.seats, r.scheduleId = scheduleId ∧ r.id = seatId ∧ r.status = .booked

def HasActiveTicket : Prop :=
  ∃ t ∈ pg.tickets, t.scheduleId = scheduleId ∧ t.status = .active

/-- The seat is booked, or in the order of an active ticket of the schedule. -/
def Sold : Prop :=
  BookedSeat pg scheduleId seatId ∨
    ∃ t ∈ pg.tickets, (t.scheduleId = scheduleId ∧ t.status = .active) ∧
      ∃ o ∈ pg.orders, o.id = t.orderId ∧ seatId ∈ o.seatIds

end Sold

section Counts

variable {pg : Postgres} {scheduleId seatId : ℤ}

theorem bookedCount_pos : 0 < pg.bookedCount scheduleId seatId ↔ BookedSeat pg scheduleId seatId := by
  unfold Postgres.bookedCount
  rw [List.length_filter_pos_iff]
  constructor
  · rintro ⟨r, hr, hmatch⟩
    exact ⟨r, hr, of_decide_eq_true hmatch⟩
  · rintro ⟨r, hr, hmatch⟩
    exact ⟨r, hr, decide_eq_true hmatch⟩

theorem activeTicketCount_pos : 0 < pg.activeTicketCount scheduleId ↔ HasActiveTicket pg scheduleId := by
  unfold Postgres.activeTicketCount
  rw [List.length_filter_pos_iff]
  constructor
  · rintro ⟨t, ht, hmatch⟩
    exact ⟨t, ht, of_decide_eq_true hmatch⟩
  · rintro ⟨t, ht, hmatch⟩
    exact ⟨t, ht, decide_eq_true hmatch⟩

end Counts

/-! ## Runs on one state of the database -/

namespace BookedCheck

/-- What becomes of a seat. -/
inductive Outcome where
  | booked
  | released
  deriving DecidableEq

/-- The scripts and the clean-up commands that book or release a seat. -/
def outcomes : Cmd → List Outcome
  | .redis (.eval .forceBook ..) => [.booked]
  | .redis (.eval .book ..) => [.booked]
  | .redis (.setBits _ _ .booked) => [.booked]
  | .redis (.eval .release ..) => [.released]
  | .redis (.eval .releaseExpired ..) => [.released]
  | .redis (.setBits _ _ .available) => [.released]
  | _ => []

abbrev Moment := World × List Outcome

/-- A command, with `d` for what becomes of the commands to the database.  The database stays as it
is; the rest of the world may change before the command. -/
def Step (i : ℕ) (d : Cmd → Link) (c : Cmd) (s t : Moment) (r : Rep c) : Prop :=
  ∃ (w : World) (l : Link), w.pg = s.1.pg ∧ ((∀ k, c ≠ .redis k) → l = d c) ∧
    exec i l c w = some (t.1, r) ∧ t.2 = s.2 ++ outcomes c

section Runs

variable {i : ℕ} {d : Cmd → Link} {s t : Moment} {scheduleId seatId : ℤ}

/-- A command to the database that changes nothing there, with its reply over a link. -/
theorem step_query {c : Cmd} {r : Rep c} {f : Link → Postgres → Rep c}
    (hexec : ∀ l w, exec i l c w = some (w, f l w.pg)) (hdb : ∀ k, c ≠ .redis k)
    (hnone : outcomes c = []) :
    Step i d c s t r → t.1.pg = s.1.pg ∧ t.2 = s.2 ∧ r = f (d c) s.1.pg := by
  rintro ⟨w, l, hpg, hlink, hrun, hlog⟩
  rw [hexec, hlink hdb] at hrun
  obtain ⟨hw, hr⟩ := Prod.mk.inj (Option.some.inj hrun)
  rw [hnone, List.append_nil] at hlog
  refine ⟨?_, hlog, ?_⟩
  · rw [← hw, hpg]
  · rw [← hr, hpg]

theorem can_query {c : Cmd} {f : Link → Postgres → Rep c}
    (hexec : ∀ l w, exec i l c w = some (w, f l w.pg)) (hnone : outcomes c = []) :
    Step i d c s s (f (d c) s.1.pg) := by
  refine ⟨s.1, d c, rfl, fun _ => rfl, hexec _ _, ?_⟩
  rw [hnone, List.append_nil]

/-- The reply to a query. -/
def answer {ρ : Type} (l : Link) (x : ρ) : Option ρ :=
  if l = .ok then some x else none

theorem answer_of_ne {ρ : Type} {l : Link} {x : ρ} (h : l ≠ .ok) : answer l x = none :=
  if_neg h

theorem exec_connect (l : Link) (w : World) :
    exec i l .connect w = some (w, answer l ()) := by
  cases l with
  | ok => rfl
  | lost => rfl
  | unacked => rfl

theorem exec_bookedCount (l : Link) (w : World) :
    exec i l (.bookedCount scheduleId seatId) w =
      some (w, answer l (w.pg.bookedCount scheduleId seatId)) := by
  cases l with
  | ok => rfl
  | lost => rfl
  | unacked => rfl

theorem exec_activeTicketCount (l : Link) (w : World) :
    exec i l (.activeTicketCount scheduleId) w =
      some (w, answer l (w.pg.activeTicketCount scheduleId)) := by
  cases l with
  | ok => rfl
  | lost => rfl
  | unacked => rfl

/-! ## The check -/

/-- A booked row of the seat is found, or an active ticket of the schedule. -/
def Finds (d : Cmd → Link) (pg : Postgres) (scheduleId seatId : ℤ) : Prop :=
  d .connect = .ok ∧
    ((BookedSeat pg scheduleId seatId ∧ d (.bookedCount scheduleId seatId) = .ok) ∨
      (HasActiveTicket pg scheduleId ∧ d (.activeTicketCount scheduleId) = .ok))

theorem pos_answer {l : Link} {n : ℕ} : 0 < (answer l n).getD 0 ↔ 0 < n ∧ l = .ok := by
  unfold answer
  split_ifs with hl
  · simp [hl]
  · simp [hl]

/-- The check answers what it finds, and changes nothing. -/
theorem isSeatBookedInDb_ends {b : Bool} :
    (isSeatBookedInDb scheduleId seatId).Ends (Step i d) s t b →
      t.1.pg = s.1.pg ∧ t.2 = s.2 ∧ (b = true ↔ Finds d s.1.pg scheduleId seatId) := by
  intro h
  obtain ⟨s₁, conn, hconn, h⟩ := Prog.Ends.of_call (c := Cmd.connect) h
  obtain ⟨hpg₁, hlog₁, hconn⟩ := step_query (c := Cmd.connect)
    (f := fun l _ => answer l ()) exec_connect (fun _ => nofun) rfl hconn
  by_cases hup : d .connect = .ok
  · have hconn : conn = some () := hconn.trans (if_pos hup)
    subst hconn
    obtain ⟨s₂, booked, hbooked, h⟩ := Prog.Ends.of_call (c := Cmd.bookedCount scheduleId seatId) h
    obtain ⟨hpg₂, hlog₂, hcount⟩ := step_query
      (c := Cmd.bookedCount scheduleId seatId)
      (f := fun l pg => answer l (pg.bookedCount scheduleId seatId)) exec_bookedCount
      (fun _ => nofun) rfl hbooked
    rw [hpg₁] at hcount
    have h : Prog.Ends (Step i d) (if 0 < (booked : Option ℕ).getD 0 then _ else _) s₂ t b := h
    by_cases hfound : 0 < (booked : Option ℕ).getD 0
    · rw [if_pos hfound] at h
      obtain ⟨rfl, rfl⟩ := Prog.Ends.of_ret h
      rw [hcount, pos_answer, bookedCount_pos] at hfound
      exact ⟨hpg₂.trans hpg₁, hlog₂.trans hlog₁, fun _ => ⟨hup, .inl hfound⟩, fun _ => rfl⟩
    · rw [if_neg hfound] at h
      obtain ⟨s₃, tickets, htickets, h⟩ := Prog.Ends.of_call (c := Cmd.activeTicketCount scheduleId) h
      obtain ⟨hpg₃, hlog₃, hactive⟩ := step_query
        (c := Cmd.activeTicketCount scheduleId)
        (f := fun l pg => answer l (pg.activeTicketCount scheduleId)) exec_activeTicketCount
        (fun _ => nofun) rfl htickets
      rw [hpg₂, hpg₁] at hactive
      obtain ⟨rfl, rfl⟩ := Prog.Ends.of_ret h
      rw [hcount, pos_answer, bookedCount_pos] at hfound
      refine ⟨hpg₃.trans (hpg₂.trans hpg₁), hlog₃.trans (hlog₂.trans hlog₁), ?_⟩
      rw [decide_eq_true_iff, hactive, pos_answer, activeTicketCount_pos]
      exact ⟨fun h => ⟨hup, .inr h⟩, fun h => h.2.resolve_left hfound⟩
  · have hconn : conn = none := hconn.trans (if_neg hup)
    subst hconn
    obtain ⟨rfl, rfl⟩ := Prog.Ends.of_ret h
    exact ⟨hpg₁, hlog₁, fun h => absurd h Bool.false_ne_true, fun h => absurd h.1 hup⟩

/-- The check comes to an end. -/
theorem isSeatBookedInDb_can (i : ℕ) (d : Cmd → Link) (scheduleId seatId : ℤ) (s : Moment) :
    ∃ b, (isSeatBookedInDb scheduleId seatId).Ends (Step i d) s s b := by
  have hconn : Step i d .connect s s (answer (d .connect) ()) :=
    can_query (c := Cmd.connect) (f := fun l _ => answer l ()) exec_connect rfl
  have hbooked := can_query (s := s) (d := d) (c := Cmd.bookedCount scheduleId seatId)
    (f := fun l pg => answer l (pg.bookedCount scheduleId seatId)) (exec_bookedCount (i := i)) rfl
  have htickets := can_query (s := s) (d := d) (c := Cmd.activeTicketCount scheduleId)
    (f := fun l pg => answer l (pg.activeTicketCount scheduleId))
    (exec_activeTicketCount (i := i)) rfl
  by_cases hup : d .connect = .ok
  · have hanswer : answer (d .connect) () = some () := if_pos hup
    rw [hanswer] at hconn
    by_cases hfound : 0 < (answer (d (.bookedCount scheduleId seatId))
        (s.1.pg.bookedCount scheduleId seatId)).getD 0
    · refine ⟨true, .call hconn (.call hbooked ?_)⟩
      show Prog.Ends _ (if 0 < (answer _ (s.1.pg.bookedCount scheduleId seatId)).getD 0 then _ else _)
        s s true
      rw [if_pos hfound]
      exact .ret
    · let tickets := answer (d (.activeTicketCount scheduleId)) (s.1.pg.activeTicketCount scheduleId)
      refine ⟨decide (0 < tickets.getD 0), .call hconn (.call hbooked ?_)⟩
      show Prog.Ends _ (if 0 < (answer _ (s.1.pg.bookedCount scheduleId seatId)).getD 0 then _ else _)
        s s _
      rw [if_neg hfound]
      exact .call htickets .ret
  · have hanswer : answer (d .connect) () = none := if_neg hup
    rw [hanswer] at hconn
    exact ⟨false, .call hconn .ret⟩

/-! ## A due entry -/

/-- The commands of an operation of the seat lock that brings about nothing but `x`. -/
theorem onRedis_outcomes {p : Op Unit} {x : Outcome}
    (hp : p.Issues fun k => outcomes (.redis k) = [] ∨ outcomes (.redis k) = [x]) :
    (onRedis p).Ends (Step i d) s t () → s.2 = [] → ∀ y ∈ t.2, y = x := by
  intro h hs
  refine Prog.Ends.keeps (φ := fun c => outcomes c = [] ∨ outcomes c = [x])
    (I := fun u : Moment => ∀ y ∈ u.2, y = x) ?_ h ?_ ?_
  · rintro c hc u v r hu ⟨-, -, -, -, -, hlog⟩ y hy
    rw [hlog] at hy
    rcases List.mem_append.1 hy with hy | hy
    · exact hu y hy
    · rcases hc with hc | hc
      · rw [hc] at hy
        cases hy
      · rw [hc] at hy
        exact List.mem_singleton.1 hy
  · exact Prog.Issues.hoist _ (hp.mono fun k hk => ⟨hk, fun _ => trivial⟩)
  · rw [hs]
    exact List.forall_mem_nil _

theorem issues_publishRoomEvent {φ : Redis.Cmd → Prop} (hconn : φ .connect)
    (hpublish : ∀ channel payload, φ (.publish channel payload)) (event : PubSubEvent) :
    (publishRoomEvent event).Issues φ := by
  unfold publishRoomEvent
  cases event.room with
  | none => trivial
  | some showtimeId => exact issues_cluster hconn (hpublish _ _)

/-- Where the check finds the seat sold, the updater books it at most, and else it releases it at
most. -/
theorem processDueEntry_ends {entry : QueueEntry} (hs : s.2 = []) :
    (processDueEntry entry).Ends (Step i d) s t () →
      (.booked ∈ t.2 → Finds d s.1.pg entry.scheduleId entry.seatId) ∧
        (.released ∈ t.2 → ¬Finds d s.1.pg entry.scheduleId entry.seatId) := by
  intro h
  obtain ⟨u, b, hcheck, h⟩ :=
    Prog.Ends.of_bind (p := isSeatBookedInDb entry.scheduleId entry.seatId) h
  obtain ⟨-, hlog, hb⟩ := isSeatBookedInDb_ends hcheck
  rw [hs] at hlog
  cases b with
  | true =>
      have hfinds := hb.1 rfl
      have hbooked : ∀ y ∈ t.2, y = .booked := by
        refine onRedis_outcomes ?_ h hlog
        exact issues_forceBook (.inl rfl) (.inr rfl) (issues_cleanUp (.inl rfl) (.inl rfl) (.inl rfl)
          (.inl rfl) (.inr rfl))
      exact ⟨fun _ => hfinds, fun hmem => nomatch hbooked _ hmem⟩
  | false =>
      have hfinds : ¬Finds d s.1.pg entry.scheduleId entry.seatId :=
        fun hfinds => Bool.false_ne_true (hb.2 hfinds)
      have hreleased : ∀ y ∈ t.2, y = .released := by
        refine onRedis_outcomes ?_ h hlog
        refine (issues_releaseExpired (.inl rfl) (.inr rfl) (issues_cleanUp (.inl rfl) (.inl rfl)
          (.inl rfl) (.inl rfl) (.inr rfl))).bind fun _ => ?_
        exact issues_publishRoomEvent (.inl rfl) (fun _ _ => .inl rfl) _
      exact ⟨fun hmem => (nomatch hreleased _ hmem), fun _ => hfinds⟩

/-- A clean-up command may find no connection. -/
theorem cluster_can (c : Redis.Cmd) (s : Moment) :
    (onRedis (cluster c)).Ends (Step i d) s s () := by
  have hlost : Step i d (.redis .connect) s s (none : Option Unit) :=
    ⟨s.1, .lost, rfl, fun hdb => absurd rfl (hdb .connect), rfl, (List.append_nil _).symm⟩
  exact .call hlost .ret

theorem cleanUp_can (showtimeId seatId userId : ℤ) (entry : QueueEntry) (state : SeatState)
    (s : Moment) : (onRedis (cleanUp showtimeId seatId userId entry state)).Ends (Step i d) s s () := by
  have hbits : (onRedis (setScheduleSeatBitmapStateCluster showtimeId seatId state)).Ends (Step i d)
      s s () := by
    unfold setScheduleSeatBitmapStateCluster
    split_ifs
    · exact .ret
    · exact cluster_can _ s
  unfold onRedis cleanUp
  rw [Prog.hoist_bind]
  refine Prog.Ends.bind (cluster_can _ s) ?_
  rw [Prog.hoist_bind]
  refine Prog.Ends.bind (cluster_can _ s) ?_
  rw [Prog.hoist_bind]
  exact Prog.Ends.bind (cluster_can _ s) hbits

/-- A command of the seat lock gets through. -/
theorem redis_can (i : ℕ) (d : Cmd → Link) (k : Redis.Cmd) (s : Moment) :
    ∃ t r, Step i d (.redis k) s t r ∧ t.2 = s.2 ++ outcomes (.redis k) :=
  ⟨({ s.1 with redis := (Redis.exec .ok k s.1.redis).1 }, s.2 ++ outcomes (.redis k)),
    (Redis.exec .ok k s.1.redis).2,
    ⟨s.1, .ok, rfl, fun hdb => absurd rfl (hdb k), rfl, rfl⟩, rfl⟩

theorem connect_can (i : ℕ) (d : Cmd → Link) (s : Moment) :
    Step i d (.redis .connect) s s (some ()) :=
  ⟨s.1, .ok, rfl, fun hdb => absurd rfl (hdb .connect), rfl, (List.append_nil _).symm⟩

/-- The updater does book, or release, according to what the check finds. -/
theorem processDueEntry_can (i : ℕ) (d : Cmd → Link) (entry : QueueEntry) (s : Moment) :
    ∃ t, (processDueEntry entry).Ends (Step i d) s t () ∧
      ((Finds d s.1.pg entry.scheduleId entry.seatId ∧ .booked ∈ t.2) ∨
        (¬Finds d s.1.pg entry.scheduleId entry.seatId ∧ .released ∈ t.2)) := by
  obtain ⟨b, hcheck⟩ := isSeatBookedInDb_can i d entry.scheduleId entry.seatId s
  obtain ⟨-, -, hb⟩ := isSeatBookedInDb_ends hcheck
  have hconn := connect_can i d s
  cases b with
  | true =>
      obtain ⟨t, r, heval, hlog⟩ := redis_can i d
        (.eval .forceBook entry.scheduleId entry.seatId entry.userId entry) s
      refine ⟨t, Prog.Ends.bind (p := isSeatBookedInDb entry.scheduleId entry.seatId) hcheck ?_,
        .inl ⟨hb.1 rfl, ?_⟩⟩
      · exact .call hconn (.call heval (cleanUp_can _ _ _ _ _ t))
      · rw [hlog]
        exact List.mem_append_right _ (List.mem_singleton_self _)
  | false =>
      obtain ⟨t, r, heval, hlog⟩ := redis_can i d
        (.eval .releaseExpired entry.scheduleId entry.seatId entry.userId entry) s
      refine ⟨t, Prog.Ends.bind (p := isSeatBookedInDb entry.scheduleId entry.seatId) hcheck ?_,
        .inr ⟨fun hfinds => Bool.false_ne_true (hb.2 hfinds), ?_⟩⟩
      · show Prog.Ends _ (onRedis (releaseDueEntry entry)) s t ()
        unfold onRedis releaseDueEntry
        rw [Prog.hoist_bind]
        have hrelease : (onRedis (releaseExpiredLockLua entry.scheduleId entry.seatId entry.userId
            entry)).Ends (Step i d) s t (decide ((r : Option ℤ) = some 1)) := by
          refine .call hconn (.call heval ?_)
          show Prog.Ends _ (onRedis (cleanUp entry.scheduleId entry.seatId entry.userId entry
            .available >>= fun _ => pure (decide ((r : Option ℤ) = some 1)))) t t _
          unfold onRedis
          rw [Prog.hoist_bind]
          exact Prog.Ends.bind (cleanUp_can _ _ _ _ _ t) .ret
        exact Prog.Ends.bind hrelease (cluster_can _ t)
      · rw [hlog]
        exact List.mem_append_right _ (List.mem_singleton_self _)

/-! ## Exactness -/

/-- The seat is sold, and the database tells; or it is not sold, and no active ticket of the schedule
is counted instead. -/
def Reliable (d : Cmd → Link) (pg : Postgres) (scheduleId seatId : ℤ) : Prop :=
  (Sold pg scheduleId seatId ∧ d .connect = .ok ∧
      ((BookedSeat pg scheduleId seatId ∧ d (.bookedCount scheduleId seatId) = .ok) ∨
        (HasActiveTicket pg scheduleId ∧ d (.activeTicketCount scheduleId) = .ok))) ∨
    (¬Sold pg scheduleId seatId ∧
      (¬HasActiveTicket pg scheduleId ∨ d .connect ≠ .ok ∨ d (.activeTicketCount scheduleId) ≠ .ok))

theorem reliable_iff {pg : Postgres} :
    Reliable d pg scheduleId seatId ↔ (Finds d pg scheduleId seatId ↔ Sold pg scheduleId seatId) := by
  unfold Reliable Finds
  by_cases hsold : Sold pg scheduleId seatId
  · simp only [hsold, not_true_eq_false, true_and, false_and, or_false, iff_true]
  · have hrow : ¬BookedSeat pg scheduleId seatId := fun h => hsold (.inl h)
    simp only [hsold, hrow, not_false_eq_true, true_and, false_and, false_or, iff_false]
    tauto

end Runs

end BookedCheck

open BookedCheck in
/-- For every state of the database, and whatever becomes of the commands to it: the check answers
whether the seat is sold, and the updater books the seat of a due entry only if it is sold and releases
it only if it is not, exactly where either the seat is sold and its booked row or an active ticket of
the schedule is counted, or it is not sold and no active ticket of the schedule is. -/
theorem bookedCheck_exact_iff (i : ℕ) (d : Cmd → Link) (s : World) (entry : QueueEntry) :
    ((∀ t b, (isSeatBookedInDb entry.scheduleId entry.seatId).Ends (Step i d) (s, []) t b →
        (b = true ↔ Sold s.pg entry.scheduleId entry.seatId)) ∧
      ∀ t, (processDueEntry entry).Ends (Step i d) (s, []) t () →
        (.booked ∈ t.2 → Sold s.pg entry.scheduleId entry.seatId) ∧
          (.released ∈ t.2 → ¬Sold s.pg entry.scheduleId entry.seatId)) ↔
      Reliable d s.pg entry.scheduleId entry.seatId := by
  rw [reliable_iff]
  constructor
  · rintro ⟨hcheck, -⟩
    obtain ⟨b, hends⟩ := isSeatBookedInDb_can i d entry.scheduleId entry.seatId (s, [])
    obtain ⟨-, -, hb⟩ := isSeatBookedInDb_ends hends
    exact hb.symm.trans (hcheck _ b hends)
  · intro hexact
    refine ⟨fun t b hends => ?_, fun t hends => ?_⟩
    · obtain ⟨-, -, hb⟩ := isSeatBookedInDb_ends hends
      exact hb.trans hexact
    · obtain ⟨hbooked, hreleased⟩ := processDueEntry_ends rfl hends
      exact ⟨fun hmem => hexact.1 (hbooked hmem), fun hmem hsold => hreleased hmem (hexact.2 hsold)⟩

/-- Schedule 1 with seat 1 sold and seat 2 on sale. -/
def oneSold : World :=
  { newWorld [⟨1, 1, 100, .booked⟩, ⟨2, 1, 100, .available⟩] with
    pg := { (newWorld [⟨1, 1, 100, .booked⟩, ⟨2, 1, 100, .available⟩]).pg with
      orders := [⟨1, 1, 42, 1, [1], 100, "order_1", some "pay_1", .completed⟩]
      tickets := [⟨1, 1, .active⟩] } }

open BookedCheck in
/-- With every query answered, a due entry of seat 2 books it, though nobody has bought it.  Without a
connection to the database, a due entry of seat 1 releases it, though it is sold. -/
theorem dueEntry_books_unsold_releases_sold :
    (¬Sold oneSold.pg 1 2 ∧
      ∃ t, (processDueEntry ⟨2, 1, 43⟩).Ends (Step 0 fun _ => .ok) (oneSold, []) t () ∧
        .booked ∈ t.2) ∧
    Sold oneSold.pg 1 1 ∧
      ∃ t, (processDueEntry ⟨1, 1, 42⟩).Ends (Step 0 fun _ => .lost) (oneSold, []) t () ∧
        .released ∈ t.2 := by
  have hticket : HasActiveTicket oneSold.pg 1 := ⟨⟨1, 1, .active⟩, List.mem_singleton_self _, rfl, rfl⟩
  refine ⟨⟨?_, ?_⟩, ?_, ?_⟩
  · unfold Sold BookedSeat
    decide
  · obtain ⟨t, hends, ⟨-, hbooked⟩ | ⟨hnot, -⟩⟩ :=
      processDueEntry_can 0 (fun _ => .ok) ⟨2, 1, 43⟩ (oneSold, [])
    · exact ⟨t, hends, hbooked⟩
    · exact absurd ⟨rfl, .inr ⟨hticket, rfl⟩⟩ hnot
  · exact .inl ⟨⟨1, 1, 100, .booked⟩, List.mem_cons_self, rfl, rfl, rfl⟩
  · obtain ⟨t, hends, ⟨⟨hup, -⟩, -⟩ | ⟨-, hreleased⟩⟩ :=
      processDueEntry_can 0 (fun _ => .lost) ⟨1, 1, 42⟩ (oneSold, [])
    · cases hup
    · exact ⟨t, hends, hreleased⟩

end LockServer
end Bookit

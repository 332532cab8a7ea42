import Bookit.Search.InOrder

/-!
# Search.Overtaken — several workers on one search outbox

A worker reads the checkpoint, finds the next event, writes it to the index and moves the checkpoint to
it; nothing reserves the event meanwhile.  A slow worker can so write an event, and move the checkpoint
back to it, after a fast one has acknowledged a newer one.  Where no worker acknowledges an event while
another is at work on an older one, the checkpoint never moves back, and no event is written after a
newer one of its show has been acknowledged.
-/

namespace Bookit
namespace Search

open Lib

/-! ## Rounds -/

/-- A worker's round: the checkpoint that it has read, and the event that it has found since. -/
structure Round where
  worker : ℕ
  bound : ℕ
  event : Option OutboxDocument

/-- What has been done with an event. -/
inductive Mark where
  | wrote (d : OutboxDocument)
  | acked (d : OutboxDocument)

structure Rounds where
  current : List Round
  history : List Mark

namespace Rounds

def round (i : ℕ) (log : Rounds) : Option Round :=
  log.current.find? fun r => decide (r.worker = i)

/-- The event that a worker has found. -/
def found (i : ℕ) (log : Rounds) : Option OutboxDocument :=
  (log.round i).bind Round.event

def leave (i : ℕ) (log : Rounds) : Rounds :=
  { log with current := log.current.filter fun r => !decide (r.worker = i) }

def enter (r : Round) (log : Rounds) : Rounds :=
  { log with current := (log.leave r.worker).current ++ [r] }

def mark (m : Option Mark) (log : Rounds) : Rounds :=
  { log with history := log.history ++ m.toList }

end Rounds

/-- The index after a write to it; a round goes on when the write is answered. -/
def recordWrite (i : ℕ) (l : Link) (log : Rounds) : Rounds :=
  match l with
  | .ok => log.mark ((log.found i).map .wrote)
  | .unacked => (log.mark ((log.found i).map .wrote)).leave i
  | .lost => log.leave i

def recordRound (_ : Unit) (i : ℕ) (e : Outcome) : Cmd → Store → Rounds → Rounds
  | .findLastSequence, s, log =>
      if e.link = .ok then log.enter ⟨i, s.lastSequence.getD 0, none⟩ else log.leave i
  | .findCandidate last, s, log =>
      match e.link, (execFindCandidate last s).2 with
      | .ok, some d => log.enter ⟨i, last, some d⟩
      | _, _ => log.leave i
  | .putDocument _ _, _, log => recordWrite i e.link log
  | .deleteDocument _, _, log => recordWrite i e.link log
  | .upsertLastSequence _, _, log =>
      if e.link = .lost then log.leave i
      else (log.mark ((log.found i).map .acked)).leave i
  | _, _, log => log

/-- The replicas and the indexing workers with their rounds; a worker that is lost is at work on
nothing. -/
def workers : Machine (Store × Rounds) Rep Unit Unit Outcome Environ :=
  machine.tracked ⟨[], []⟩ recordRound Rounds.leave

abbrev WorkerPool := Pool (Store × Rounds) Rep Unit Unit

/-! ## What is never older -/

/-- A write after the acknowledgement of another event of its show is no older than that one. -/
def Follows : Mark → Mark → Prop
  | .acked d, .wrote d' => d.showId = d'.showId → d.sequence ≤ d'.sequence
  | _, _ => True

/-- No event is written after a newer one of its show has been acknowledged. -/
def NeverOlder (log : Rounds) : Prop :=
  log.history.Pairwise Follows

/-- The round has found no event older than `sequence`, and will find none. -/
def NotBehind (sequence : ℕ) (s : Store) (r : Round) : Prop :=
  match r.event with
  | some d => sequence ≤ d.sequence
  | none => ∀ d ∈ s.outbox, r.bound < d.sequence → sequence ≤ d.sequence

/-- A worker acknowledges an event only while no other is at work on an older one. -/
def NotOvertaking (_ : Unit) (i : ℕ) (e : Outcome) : Cmd → Store × Rounds → Prop
  | .upsertLastSequence sequence, s =>
      e.link ≠ .lost → ∀ r ∈ s.2.current, r.worker ≠ i → NotBehind sequence s.1 r
  | _, _ => True

def NoOvertaking (p : WorkerPool) (a : Act Outcome Environ) : Prop :=
  Machine.Guarded NotOvertaking (fun _ _ => True) p a

/-! ## The invariant -/

/-- The last sequence, `0` where there is none. -/
def last (s : Store) : ℕ :=
  s.lastSequence.getD 0

structure RoundsInv (s : Store × Rounds) : Prop where
  filed : ∀ n, s.1.lastSequence = some n → ∃ d ∈ s.1.outbox, d.sequence = n
  current : ∀ r ∈ s.2.current, NotBehind (last s.1) s.1 r
  events : ∀ r ∈ s.2.current, ∀ d, r.event = some d → d ∈ s.1.outbox
  acked : ∀ d, .acked d ∈ s.2.history → d.sequence ≤ last s.1
  order : NeverOlder s.2

/-! ## Rounds of the workers -/

section Rounds

variable {i j : ℕ} {log : Rounds}

theorem current_leave_subset : (log.leave i).current ⊆ log.current :=
  fun _ h => List.mem_of_mem_filter h

theorem worker_ne_of_mem_leave {r : Round} (h : r ∈ (log.leave i).current) : r.worker ≠ i := by
  simpa using List.of_mem_filter h

theorem mem_of_round {r : Round} (h : log.round i = some r) : r ∈ log.current :=
  List.mem_of_find?_eq_some h

theorem round_leave_of_ne (h : j ≠ i) : (log.leave i).round j = log.round j := by
  unfold Rounds.round Rounds.leave
  rw [List.find?_filter]
  refine congrArg (log.current.find? ·) (funext fun r => ?_)
  by_cases hr : r.worker = j
  · simp [hr, h]
  · simp [hr]

theorem round_leave_self : (log.leave i).round i = none := by
  refine List.find?_eq_none.2 fun r hr => ?_
  simpa using worker_ne_of_mem_leave hr

theorem round_enter_self {r : Round} (h : r.worker = i) : (log.enter r).round i = some r := by
  subst h
  show ((log.leave r.worker).current ++ [r]).find? _ = some r
  have hleave : (log.leave r.worker).current.find? _ = none := round_leave_self
  rw [List.find?_append, hleave]
  simp

theorem round_enter_of_ne {r : Round} (h : j ≠ r.worker) : (log.enter r).round j = log.round j := by
  show ((log.leave r.worker).current ++ [r]).find? _ = log.round j
  rw [List.find?_append]
  have hleave : (log.leave r.worker).current.find? _ = log.round j := round_leave_of_ne h
  rw [hleave]
  simp [Ne.symm h]

theorem mem_enter {r r' : Round} (h : r' ∈ (log.enter r).current) : r' ∈ log.current ∨ r' = r := by
  rcases List.mem_append.1 h with h | h
  · exact .inl (current_leave_subset h)
  · exact .inr (List.mem_singleton.1 h)

end Rounds

/-! ## Turns -/

/-- What a step of a worker does. -/
inductive Turn (s t : Store × Rounds) : Prop where
  | rest (hlast : t.1.lastSequence = s.1.lastSequence) (hcur : t.2.current ⊆ s.2.current)
      (hhist : t.2.history = s.2.history)
  | begin (i : ℕ) (hlast : t.1.lastSequence = s.1.lastSequence)
      (hlog : t.2 = s.2.enter ⟨i, last s.1, none⟩)
  | find (i bound : ℕ) (d : OutboxDocument) (hlast : t.1.lastSequence = s.1.lastSequence)
      (hround : ⟨i, bound, none⟩ ∈ s.2.current) (hfiled : d ∈ s.1.outbox) (hlt : bound < d.sequence)
      (hlog : t.2 = s.2.enter ⟨i, bound, some d⟩)
  | write (r : Round) (d : OutboxDocument) (hlast : t.1.lastSequence = s.1.lastSequence)
      (hround : r ∈ s.2.current) (hevent : r.event = some d) (hcur : t.2.current ⊆ s.2.current)
      (hhist : t.2.history = s.2.history ++ [.wrote d])
  | ack (r : Round) (d : OutboxDocument) (hlast : t.1.lastSequence = some d.sequence)
      (hround : r ∈ s.2.current) (hevent : r.event = some d)
      (hothers : ∀ r' ∈ t.2.current, r' ∈ s.2.current ∧ NotBehind d.sequence s.1 r')
      (houtbox : t.1.outbox = s.1.outbox) (hhist : t.2.history = s.2.history ++ [.acked d])

theorem NotBehind.mono {m n : ℕ} {s : Store} {r : Round} (h : NotBehind n s r) (hmn : m ≤ n) :
    NotBehind m s r := by
  unfold NotBehind at h ⊢
  split at h
  · exact hmn.trans h
  · exact fun d hd hlt => hmn.trans (h d hd hlt)

/-- What is filed later is newer than everything that a round may find now. -/
theorem NotBehind.grows {n : ℕ} {s t : Store} {r : Round} (h : NotBehind n s r)
    (hnew : ∀ d ∈ t.outbox, d ∉ s.outbox → n ≤ d.sequence) : NotBehind n t r := by
  unfold NotBehind at h ⊢
  split
  · next d hd =>
    rw [hd] at h
    exact h
  · next hnone =>
    rw [hnone] at h
    intro d hd hlt
    by_cases hold : d ∈ s.outbox
    · exact h d hold hlt
    · exact hnew d hd hold

section Inv

variable {s t : Store × Rounds}

/-- What is filed is above the last sequence. -/
theorem RoundsInv.last_le_of_new (hs : RoundsInv s) (hgrows : s.1.outbox <+: t.1.outbox)
    (hordered : Ordered t.1.outbox) : ∀ d ∈ t.1.outbox, d ∉ s.1.outbox → last s.1 ≤ d.sequence := by
  intro d hd hnew
  cases hlast : s.1.lastSequence with
  | none => simp [last, hlast]
  | some n =>
      obtain ⟨e, he, rfl⟩ := hs.filed n hlast
      simp only [last, hlast, Option.getD_some]
      exact (hordered.stamp_lt_of_prefix hgrows he hd hnew).le

/-- A step that leaves the last sequence as it is: the rounds after it are not behind, and what is
written is not either. -/
theorem RoundsInv.frame (hs : RoundsInv s) (hgrows : s.1.outbox <+: t.1.outbox)
    (hlast : t.1.lastSequence = s.1.lastSequence)
    (hcurrent : ∀ r ∈ t.2.current, NotBehind (last s.1) t.1 r)
    (hevents : ∀ r ∈ t.2.current, ∀ d, r.event = some d → d ∈ t.1.outbox)
    (hacked : ∀ d, .acked d ∈ t.2.history → .acked d ∈ s.2.history) (horder : NeverOlder t.2) :
    RoundsInv t := by
  have heq : last t.1 = last s.1 := congrArg (·.getD 0) hlast
  refine ⟨fun n hn => ?_, fun r hr => ?_, hevents, fun d hd => ?_, horder⟩
  · obtain ⟨d, hd, hseq⟩ := hs.filed n (hlast ▸ hn)
    exact ⟨d, hgrows.subset hd, hseq⟩
  · rw [heq]
    exact hcurrent r hr
  · rw [heq]
    exact hs.acked d (hacked d hd)

theorem RoundsInv.last_le_event (hs : RoundsInv s) {r : Round} {d : OutboxDocument}
    (hr : r ∈ s.2.current) (hd : r.event = some d) : last s.1 ≤ d.sequence := by
  have hcurrent := hs.current r hr
  simp only [NotBehind, hd] at hcurrent
  exact hcurrent

theorem NeverOlder.of_eq (hs : NeverOlder s.2) (h : t.2.history = s.2.history) : NeverOlder t.2 := by
  unfold NeverOlder
  rw [h]
  exact hs

theorem NeverOlder.append {log log' : Rounds} {m : Mark} (hs : NeverOlder log)
    (h : log'.history = log.history ++ [m]) (hm : ∀ m' ∈ log.history, Follows m' m) :
    NeverOlder log' := by
  unfold NeverOlder
  rw [h]
  refine List.pairwise_append.2 ⟨hs, List.pairwise_singleton _ _, fun m' hm' e he => ?_⟩
  rw [List.mem_singleton.1 he]
  exact hm m' hm'

/-- A turn keeps the invariant and does not move the checkpoint back. -/
theorem RoundsInv.turn (hs : RoundsInv s) (hgrows : s.1.outbox <+: t.1.outbox)
    (hordered : Ordered t.1.outbox) (h : Turn s t) : RoundsInv t ∧ last s.1 ≤ last t.1 := by
  have hnew := hs.last_le_of_new hgrows hordered
  have hcur : ∀ r ∈ s.2.current, NotBehind (last s.1) t.1 r :=
    fun r hr => (hs.current r hr).grows hnew
  have hev : ∀ r ∈ s.2.current, ∀ d, r.event = some d → d ∈ t.1.outbox :=
    fun r hr d hd => hgrows.subset (hs.events r hr d hd)
  cases h with
  | rest hlast hsub hhist =>
      refine ⟨hs.frame hgrows hlast (fun r hr => hcur r (hsub hr)) (fun r hr => hev r (hsub hr))
        (fun d hd => hhist ▸ hd) (hs.order.of_eq hhist), (congrArg (·.getD 0) hlast).ge⟩
  | begin i hlast hlog =>
      have hhist : t.2.history = s.2.history := by
        rw [hlog]
        rfl
      refine ⟨hs.frame hgrows hlast (fun r hr => ?_) (fun r hr d hd => ?_) (fun d hd => hhist ▸ hd)
        (hs.order.of_eq hhist), (congrArg (·.getD 0) hlast).ge⟩
      · rcases mem_enter (hlog ▸ hr) with hr | rfl
        · exact hcur r hr
        · exact fun d _ hlt => hlt.le
      · rcases mem_enter (hlog ▸ hr) with hr | rfl
        · exact hev r hr d hd
        · cases hd
  | find i bound d hlast hround hfiled hlt hlog =>
      have hhist : t.2.history = s.2.history := by
        rw [hlog]
        rfl
      refine ⟨hs.frame hgrows hlast (fun r hr => ?_) (fun r hr e he => ?_) (fun d hd => hhist ▸ hd)
        (hs.order.of_eq hhist), (congrArg (·.getD 0) hlast).ge⟩
      · rcases mem_enter (hlog ▸ hr) with hr | rfl
        · exact hcur r hr
        · exact hs.current _ hround d hfiled hlt
      · rcases mem_enter (hlog ▸ hr) with hr | rfl
        · exact hev r hr e he
        · cases he
          exact hgrows.subset hfiled
  | write r d hlast hround hevent hsub hhist =>
      have hacked : ∀ e, .acked e ∈ t.2.history → .acked e ∈ s.2.history := by
        intro e he
        rw [hhist] at he
        rcases List.mem_append.1 he with he | he
        · exact he
        · cases List.mem_singleton.1 he
      refine ⟨hs.frame hgrows hlast (fun r hr => hcur r (hsub hr)) (fun r hr => hev r (hsub hr))
        hacked (hs.order.append hhist fun m hm => ?_), (congrArg (·.getD 0) hlast).ge⟩
      have hge := hs.last_le_event hround hevent
      match m with
      | .wrote _ => exact trivial
      | .acked e => exact fun _ => (hs.acked e hm).trans hge
  | ack r d hlast hround hevent hothers houtbox hhist =>
      have hd : last t.1 = d.sequence := by simp [last, hlast]
      have hge := hs.last_le_event hround hevent
      refine ⟨⟨fun n hn => ?_, fun r' hr' => ?_, fun r' hr' => hev r' (hothers r' hr').1,
        fun e he => ?_, hs.order.append hhist fun m _ => ?_⟩, hge.trans_eq hd.symm⟩
      · rw [hlast] at hn
        cases hn
        exact ⟨d, hev r hround d hevent, rfl⟩
      · rw [hd]
        refine (hothers r' hr').2.grows fun e he hnot => absurd ?_ hnot
        exact houtbox ▸ he
      · rw [hhist] at he
        rcases List.mem_append.1 he with he | he
        · exact ((hs.acked e he).trans hge).trans_eq hd.symm
        · cases List.mem_singleton.1 he
          exact hd.ge
      · cases m <;> trivial

end Inv

/-! ## What a worker knows of its round -/

def rounds : Contract (Store × Rounds) Rep Unit Outcome where
  inv _ := True
  rely i s t := t.2.round i = s.2.round i
  guar _ := Turn
  allowed := NotOvertaking
  rely_refl _ _ := rfl
  rely_trans _ _ _ _ hst htu := htu.trans hst

section Worker

variable {n : Unit} {i : ℕ} {α : Type} {Q : α → Store × Rounds → Prop} {s : Store × Rounds}

/-- A command of worker `i` that leaves the other rounds alone. -/
theorem rounds_honours {t u : Store × Rounds} (hturn : Turn t u)
    (hothers : ∀ j, j ≠ i → u.2.round j = t.2.round j) : rounds.Honours n i t u :=
  ⟨trivial, hturn, hothers⟩

theorem honours_keep {t u : Store × Rounds} (hlast : u.1.lastSequence = t.1.lastSequence)
    (hlog : u.2 = t.2) : rounds.Honours n i t u := by
  refine rounds_honours (.rest hlast ?_ ?_) fun _ _ => congrArg _ hlog
  · rw [hlog]
    exact fun _ h => h
  · exact congrArg Rounds.history hlog

theorem honours_leave {t u : Store × Rounds} (hlast : u.1.lastSequence = t.1.lastSequence)
    (hlog : u.2 = t.2.leave i) : rounds.Honours n i t u := by
  refine rounds_honours (.rest hlast ?_ ?_) fun j hj => ?_
  · rw [hlog]
    exact current_leave_subset
  · rw [hlog]
    rfl
  · rw [hlog]
    exact round_leave_of_ne hj

/-- A round begins with the checkpoint that is read. -/
theorem ensures_findLastSequence {k : Option (Option ℕ) → Worker α}
    (hnone : ∀ t, rounds.Ensures (workers.exec n) n i Q (k none) t)
    (hsome : ∀ (t : Store × Rounds) checkpoint, t.2.round i = some ⟨i, checkpoint.getD 0, none⟩ →
      rounds.Ensures (workers.exec n) n i Q (k (some checkpoint)) t) :
    rounds.Ensures (workers.exec n) n i Q (.call .findLastSequence k) s := by
  refine .call fun t _ _ e _ u r hex => ?_
  obtain ⟨hex, hlog⟩ := Machine.tracked_exec.1 hex
  obtain ⟨link, lookup⟩ := e
  cases link with
  | ok =>
      obtain ⟨hu, rfl⟩ := Prod.mk.inj (Option.some.inj hex)
      have hlog : u.2 = t.2.enter ⟨i, last t.1, none⟩ := hlog
      refine ⟨rounds_honours (.begin i (hu ▸ rfl) hlog) fun j hj => ?_, hsome u _ ?_⟩
      · rw [hlog]
        exact round_enter_of_ne hj
      · rw [hlog]
        exact round_enter_self rfl
  | lost =>
      obtain ⟨hu, rfl⟩ := Prod.mk.inj (Option.some.inj hex)
      exact ⟨honours_leave (hu ▸ rfl) hlog, hnone u⟩
  | unacked =>
      obtain ⟨hu, rfl⟩ := Prod.mk.inj (Option.some.inj hex)
      exact ⟨honours_leave (hu ▸ rfl) hlog, hnone u⟩

/-- The event that is found is above the checkpoint that the round began with. -/
theorem ensures_findCandidate {bound : ℕ} {k : Option (Option OutboxDocument) → Worker α}
    (hs : s.2.round i = some ⟨i, bound, none⟩)
    (hnone : ∀ t, rounds.Ensures (workers.exec n) n i Q (k none) t)
    (hidle : ∀ t, rounds.Ensures (workers.exec n) n i Q (k (some none)) t)
    (hsome : ∀ (t : Store × Rounds) d, t.2.round i = some ⟨i, bound, some d⟩ →
      rounds.Ensures (workers.exec n) n i Q (k (some (some d))) t) :
    rounds.Ensures (workers.exec n) n i Q (.call (.findCandidate bound) k) s := by
  refine .call fun t hst _ e _ u r hex => ?_
  have hround : t.2.round i = some ⟨i, bound, none⟩ := hst.trans hs
  obtain ⟨hex, hlog⟩ := Machine.tracked_exec.1 hex
  obtain ⟨link, lookup⟩ := e
  cases link with
  | ok =>
      obtain ⟨hu, rfl⟩ := Prod.mk.inj (Option.some.inj hex)
      have hu : (execFindCandidate bound t.1).1 = u.1 := hu
      simp only [recordRound] at hlog
      cases hfound : (execFindCandidate bound t.1).2 with
      | none =>
          rw [hfound] at hlog
          exact ⟨honours_leave (hu ▸ rfl) hlog, hidle u⟩
      | some d =>
          rw [hfound] at hlog
          have hmem := List.mem_filter.1 (List.argmin_mem hfound)
          have hlt : bound < d.sequence := of_decide_eq_true hmem.2
          refine ⟨rounds_honours (.find i bound d (hu ▸ rfl) (mem_of_round hround) hmem.1 hlt hlog)
            fun j hj => ?_, hsome u d ?_⟩
          · rw [hlog]
            exact round_enter_of_ne hj
          · rw [hlog]
            exact round_enter_self rfl
  | lost =>
      obtain ⟨hu, rfl⟩ := Prod.mk.inj (Option.some.inj hex)
      exact ⟨honours_leave (hu ▸ rfl) hlog, hnone u⟩
  | unacked =>
      obtain ⟨hu, rfl⟩ := Prod.mk.inj (Option.some.inj hex)
      exact ⟨honours_leave (hu ▸ rfl) hlog, hnone u⟩

/-- A write to the index is one of the event that the worker has found. -/
theorem honours_write {t u : Store × Rounds} {r : Round} {d : OutboxDocument} {l : Link}
    {run : Store → Store × Unit} {a : Option Unit} (hround : t.2.round i = some r)
    (hevent : r.event = some d) (hrun : ∀ v, (run v).1.lastSequence = v.lastSequence)
    (hex : l.deliver run t.1 = (u.1, a)) (hlog : u.2 = recordWrite i l t.2) :
    rounds.Honours n i t u ∧ (a = some () → u.2.round i = some r) := by
  have hfound : t.2.found i = some d := by
    unfold Rounds.found
    rw [hround]
    exact hevent
  have hlast : u.1.lastSequence = t.1.lastSequence := by
    rcases Link.deliver_cases hex with ⟨hu, -⟩ | ⟨hu, -⟩ <;> rw [hu]
    exact hrun t.1
  cases l with
  | ok =>
      simp only [recordWrite, hfound] at hlog
      refine ⟨rounds_honours (.write r d hlast (mem_of_round hround) hevent ?_ ?_) fun j _ => ?_,
        fun _ => ?_⟩
      · rw [hlog]
        exact fun _ h => h
      · rw [hlog]
        rfl
      · rw [hlog]
        rfl
      · rw [hlog]
        exact hround
  | unacked =>
      obtain ⟨-, rfl⟩ := Prod.mk.inj hex
      simp only [recordWrite, hfound] at hlog
      refine ⟨rounds_honours (.write r d hlast (mem_of_round hround) hevent ?_ ?_) fun j hj => ?_,
        fun h => by cases h⟩
      · rw [hlog]
        exact current_leave_subset
      · rw [hlog]
        rfl
      · rw [hlog]
        exact round_leave_of_ne hj
  | lost =>
      obtain ⟨-, rfl⟩ := Prod.mk.inj hex
      exact ⟨honours_leave hlast hlog, fun h => by cases h⟩

theorem round_applyEvent {event : OutboxDocument} {r : Round} {f : Except String Unit → Worker α}
    (hs : s.2.round i = some r) (hevent : r.event = some event)
    (herror : ∀ t e, rounds.Ensures (workers.exec n) n i Q (f (.error e)) t)
    (hok : ∀ t : Store × Rounds, t.2.round i = some r →
      rounds.Ensures (workers.exec n) n i Q (f (.ok ())) t) :
    rounds.Ensures (workers.exec n) n i Q (applyEvent event >>= f) s := by
  unfold applyEvent
  split_ifs
  · cases event.document with
    | none => exact herror s _
    | some document =>
        intro t hst _ e _ u a hex
        obtain ⟨hex, hlog⟩ := Machine.tracked_exec.1 hex
        obtain ⟨hhon, hkept⟩ := honours_write (n := n) (hst.trans hs) hevent
          (fun _ => rfl) (Option.some.inj hex) hlog
        refine ⟨hhon, ?_⟩
        match a with
        | none => exact herror u _
        | some () => exact hok u (hkept rfl)
  · intro t hst _ e _ u a hex
    obtain ⟨hex, hlog⟩ := Machine.tracked_exec.1 hex
    obtain ⟨hhon, hkept⟩ := honours_write (n := n) (hst.trans hs) hevent
      (fun _ => rfl) (Option.some.inj hex) hlog
    refine ⟨hhon, ?_⟩
    match a with
    | none => exact herror u _
    | some () => exact hok u (hkept rfl)
  · exact herror s _

/-- What a worker acknowledges is the event that it has found, and no other worker is behind it. -/
theorem round_markIndexed {event : OutboxDocument} {r : Round} {f : Except String Unit → Worker α}
    (hs : s.2.round i = some r) (hevent : r.event = some event)
    (hf : ∀ t a, rounds.Ensures (workers.exec n) n i Q (f a) t) :
    rounds.Ensures (workers.exec n) n i Q (markIndexed event >>= f) s := by
  intro t hst _ e he u a hex
  have hround : t.2.round i = some r := hst.trans hs
  have hfound : t.2.found i = some event := by
    unfold Rounds.found
    rw [hround]
    exact hevent
  obtain ⟨hex, hlog⟩ := Machine.tracked_exec.1 hex
  have hex : e.link.deliver (fun v => ({ v with lastSequence := some event.sequence }, ())) t.1 =
    (u.1, a) := Option.some.inj hex
  have hhon : rounds.Honours n i t u := by
    by_cases hlost : e.link = .lost
    · rw [hlost] at hex
      obtain ⟨hu, -⟩ := Prod.mk.inj hex
      simp only [recordRound, hlost, if_true] at hlog
      exact honours_leave (hu ▸ rfl) hlog
    · have hu : u.1 = { t.1 with lastSequence := some event.sequence } := by
        match hl : e.link with
        | .lost => exact absurd hl hlost
        | .ok => rw [hl] at hex; exact (congrArg Prod.fst hex).symm
        | .unacked => rw [hl] at hex; exact (congrArg Prod.fst hex).symm
      simp only [recordRound, if_neg hlost, hfound] at hlog
      have hothers := he hlost
      refine rounds_honours (.ack r event (hu ▸ rfl) (mem_of_round hround) hevent ?_ (hu ▸ rfl) ?_)
        fun j hj => ?_
      · intro r' hr'
        rw [hlog] at hr'
        have hmem : r' ∈ t.2.current := current_leave_subset hr'
        exact ⟨hmem, hothers r' hmem (worker_ne_of_mem_leave hr')⟩
      · rw [hlog]
        rfl
      · rw [hlog]
        exact round_leave_of_ne hj
  refine ⟨hhon, ?_⟩
  match a with
  | none => exact hf u _
  | some () => exact hf u _

/-- The indexing loop, by induction on the passes left. -/
theorem rounds_indexSearchOutbox (budget : ℕ) :
    rounds.Ensures (workers.exec n) n i (fun _ _ => True) (indexSearchOutbox budget) s := by
  induction budget generalizing s with
  | zero => exact .ret fun _ _ _ => trivial
  | succ budget ih =>
      refine ensures_findLastSequence (fun t => ih) fun t checkpoint ht => ?_
      refine ensures_findCandidate ht (fun u => ih) (fun u => ih) fun u event hu => ?_
      refine round_applyEvent hu rfl (fun v e => ih) fun v hv => ?_
      exact round_markIndexed hv rfl fun _ _ => ih

end Worker

/-! ### The change capture -/

/-- The commands of a replica. -/
def Captures : Cmd → Prop
  | .findLastSequence | .findCandidate _ | .putDocument _ _ | .deleteDocument _ => False
  | .upsertLastSequence _ => False
  | _ => True

theorem issues_recordMongoOutboxEvent (event : SearchOutboxEvent) :
    (recordMongoOutboxEvent event).Issues Captures := by
  have hadvance : (advanceCheckpoint event).Issues Captures := by
    refine ⟨trivial, fun r => ?_⟩
    match r with
    | none => trivial
    | some () => trivial
  refine ⟨trivial, fun r => ?_⟩
  match r with
  | none => trivial
  | some true => exact hadvance
  | some false =>
      refine ⟨trivial, fun r => ?_⟩
      match r with
      | none => trivial
      | some sequence =>
          refine ⟨trivial, fun r => ?_⟩
          match r with
          | none => trivial
          | some (.ok ()) => exact hadvance
          | some (.error .duplicateKey) => exact hadvance

theorem issues_watchStream (position budget : ℕ) : (watchStream position budget).Issues Captures := by
  induction budget generalizing position with
  | zero => trivial
  | succ budget ih =>
      refine ⟨trivial, fun r => ?_⟩
      match r with
      | none => trivial
      | some (change, fullDocument) =>
          have hrecord : (recordChange position change fullDocument).Issues Captures := by
            unfold recordChange
            split
            · trivial
            · exact issues_recordMongoOutboxEvent _
          refine hrecord.bind fun a => ?_
          match a with
          | .error _ => trivial
          | .ok () => exact ih (position + 1)

theorem issues_watchSearchOutbox (budgets : List ℕ) :
    (watchSearchOutbox budgets).Issues Captures := by
  induction budgets with
  | nil => trivial
  | cons budget budgets ih =>
      refine ⟨trivial, fun r => ?_⟩
      match r with
      | none => exact ih
      | some () =>
          refine ⟨trivial, fun r => ?_⟩
          match r with
          | none => exact ih
          | some resumeToken =>
              refine ⟨trivial, fun r => ?_⟩
              match r with
              | none => exact ih
              | some () => exact (issues_watchStream _ budget).bind fun _ => ih

/-- A replica does not touch the checkpoint of the indexing workers. -/
theorem lastSequence_of_captures {i : ℕ} {e : Outcome} {c : Cmd} (hc : Captures c) {s t : Store}
    {r : Rep c} (h : exec i e c s = some (t, r)) : t.lastSequence = s.lastSequence := by
  have hread : ∀ {ρ : Type} {run : Store → Store × ρ} {a : Option ρ},
      (run s).1.lastSequence = s.lastSequence → e.link.deliver run s = (t, a) →
      t.lastSequence = s.lastSequence := by
    intro ρ run a hrun h
    rcases Link.deliver_cases h with ⟨rfl, -⟩ | ⟨rfl, -⟩
    · rfl
    · exact hrun
  cases c with
  | next position =>
      simp only [exec] at h
      split at h
      · exact hread rfl (Option.some.inj h)
      · cases h
  | insertOne d =>
      refine hread ?_ (Option.some.inj h)
      unfold execInsert
      split_ifs <;> rfl
  | ensureCollections => exact hread rfl (Option.some.inj h)
  | loadCheckpoint => exact hread rfl (Option.some.inj h)
  | openStream resumeAfter => exact hread rfl (Option.some.inj h)
  | findOne id => exact hread rfl (Option.some.inj h)
  | nextSequence => exact hread rfl (Option.some.inj h)
  | upsertCheckpoint token => exact hread rfl (Option.some.inj h)
  | findLastSequence => exact hc.elim
  | findCandidate bound => exact hc.elim
  | putDocument showId document => exact hc.elim
  | deleteDocument showId => exact hc.elim
  | upsertLastSequence sequence => exact hc.elim

theorem honours_captures {n : Unit} {i : ℕ} {e : Outcome} {c : Cmd} (hc : Captures c)
    {t u : Store × Rounds} {r : Rep c} (h : workers.exec n i e c t = some (u, r)) :
    rounds.Honours n i t u := by
  obtain ⟨hex, hlog⟩ := Machine.tracked_exec.1 h
  refine honours_keep (lastSequence_of_captures (i := i) hc hex) (hlog.trans ?_)
  unfold recordRound
  split
  · exact hc.elim
  · exact hc.elim
  · exact hc.elim
  · exact hc.elim
  · exact hc.elim
  · rfl

/-! ## The system -/

theorem rounds_of_reachable {p : WorkerPool} (h : workers.system.ReachableUnder NoOvertaking p) :
    workers.Fulfils rounds (fun _ _ _ _ => True) p := by
  have h : workers.system.ReachableUnder (Machine.Guarded rounds.allowed fun _ _ => True) p := h
  refine Machine.ensures_of_reachable (fun _ _ => trivial) ?_ ?_ h
  · intro x s t ts _ _ hx
    obtain ⟨hx, hlog⟩ := Machine.tracked_environ.1 hx
    refine ⟨trivial, fun j => congrArg (Rounds.round j) hlog, fun i n q hq _ => ?_⟩
    cases x with
    | change c =>
        obtain ⟨-, rfl⟩ := Prod.mk.inj (Option.some.inj hx)
        cases hq
    | startReplica budgets =>
        obtain ⟨-, rfl⟩ := Prod.mk.inj (Option.some.inj hx)
        obtain ⟨-, rfl⟩ := Prod.mk.inj (List.mem_singleton.1 hq)
        exact Contract.Ensures.of_issues (fun c hc e t u r _ _ hex => honours_captures hc hex)
          (issues_watchSearchOutbox budgets)
    | startIndexer budget =>
        obtain ⟨-, rfl⟩ := Prod.mk.inj (Option.some.inj hx)
        obtain ⟨-, rfl⟩ := Prod.mk.inj (List.mem_singleton.1 hq)
        exact rounds_indexSearchOutbox budget
  · exact fun i s _ => ⟨trivial, fun j hj => round_leave_of_ne hj⟩

/-- Every step of a run is a turn. -/
theorem turn_of_step {p q : WorkerPool} {a : Act Outcome Environ}
    (hp : workers.Fulfils rounds (fun _ _ _ _ => True) p) (hG : NoOvertaking p a)
    (h : workers.step p a = some q) : Turn p.store q.store := by
  cases a with
  | environ x =>
      obtain ⟨s, ts, hs, rfl⟩ := Machine.step_environ h
      obtain ⟨hs, hlog⟩ := Machine.tracked_environ.1 hs
      refine .rest ?_ (fun _ hr => hlog ▸ hr) (congrArg Rounds.history hlog)
      cases x <;> obtain ⟨heq, -⟩ := Prod.mk.inj (Option.some.inj hs) <;> exact heq ▸ rfl
  | run i e =>
      obtain ⟨n, c, k, -, hturn⟩ := hp.guar hG h
      exact hturn
  | crash i =>
      obtain ⟨n, c, k, ht, rfl⟩ := Machine.step_crash h
      exact .rest rfl current_leave_subset rfl

theorem searchInv_of_run {p : WorkerPool} (h : workers.system.ReachableUnder NoOvertaking p) :
    machine.system.Reachable ⟨p.store.1, p.threads⟩ :=
  Machine.tracked_reachable (fun _ _ _ => trivial) h

/-- A step of a run keeps the invariant and does not move the checkpoint back. -/
theorem roundsInv_step {p q : WorkerPool} {a : Act Outcome Environ}
    (hp : workers.system.ReachableUnder NoOvertaking p) (hs : RoundsInv p.store)
    (hG : NoOvertaking p a) (h : workers.step p a = some q) :
    RoundsInv q.store ∧ last p.store.1 ≤ last q.store.1 := by
  have hq : workers.system.ReachableUnder NoOvertaking q := .step hp hG h
  have hordered := (fulfils_of_reachable (searchInv_of_run hq)).inv.ordered
  have hgrows : p.store.1.outbox <+: q.store.1.outbox :=
    (evolves_of_step (fulfils_of_reachable (searchInv_of_run hp)) (Machine.tracked_step h)).outbox
  exact hs.turn hgrows hordered (turn_of_step (rounds_of_reachable hp) hG h)

theorem roundsInv_of_run {p : WorkerPool} (h : workers.system.ReachableUnder NoOvertaking p) :
    RoundsInv p.store := by
  induction h with
  | @init p h0 =>
      obtain ⟨⟨hstore, hlog⟩, -⟩ := h0
      refine ⟨?_, ?_, ?_, ?_, ?_⟩
      · intro n hn
        rw [hstore] at hn
        cases hn
      · rw [hlog]
        exact fun _ hr => absurd hr List.not_mem_nil
      · rw [hlog]
        exact fun _ hr => absurd hr List.not_mem_nil
      · rw [hlog]
        exact fun _ hd => absurd hd List.not_mem_nil
      · rw [hlog]
        exact List.Pairwise.nil
  | step hp hG hst ih => exact (roundsInv_step hp ih hG hst).1

/-- Where no worker acknowledges an event while another is at work on an older one, the checkpoint
never moves back, and no event is written after a newer one of its show has been acknowledged. -/
theorem old_state_never_resurrected (p q : WorkerPool)
    (hp : workers.system.ReachableUnder NoOvertaking p)
    (hq : (workers.system.startingAt p).ReachableUnder NoOvertaking q) :
    last p.store.1 ≤ last q.store.1 ∧ NeverOlder q.store.2 := by
  refine ⟨?_, (roundsInv_of_run (hp.of_startingAt hq)).order⟩
  induction hq with
  | init h0 => exact h0 ▸ le_rfl
  | step hr hG hst ih =>
      have hr := hp.of_startingAt hr
      exact ih.trans (roundsInv_step hr (roundsInv_of_run hr) hG hst).2

/-! ### Runs on fixed inputs -/

instance {m m' : Mark} : Decidable (Follows m m') :=
  match m, m' with
  | .acked d, .wrote d' =>
      inferInstanceAs (Decidable (d.showId = d'.showId → d.sequence ≤ d'.sequence))
  | .acked _, .acked _ => isTrue trivial
  | .wrote _, _ => isTrue trivial

instance {log : Rounds} : Decidable (NeverOlder log) :=
  inferInstanceAs (Decidable (log.history.Pairwise Follows))

instance {n : ℕ} {s : Store} {r : Round} : Decidable (NotBehind n s r) :=
  match h : r.event with
  | some d => decidable_of_iff (n ≤ d.sequence) (by simp [NotBehind, h])
  | none =>
      decidable_of_iff (∀ d ∈ s.outbox, r.bound < d.sequence → n ≤ d.sequence)
        (by simp [NotBehind, h])

instance {n : Unit} {i : ℕ} {e : Outcome} {c : Cmd} {s : Store × Rounds} :
    Decidable (NotOvertaking n i e c s) := by
  unfold NotOvertaking
  split <;> infer_instance

instance {p : WorkerPool} {a : Act Outcome Environ} : Decidable (NoOvertaking p a) :=
  inferInstanceAs (Decidable (Machine.Guarded _ _ p a))

def noWorkers : WorkerPool := ⟨(emptyStore, ⟨[], []⟩), []⟩

def answered : Outcome := ⟨.ok, some (.obj [("title", .str "Night Concert")])⟩

/-- A show is created and deleted, and a replica files both changes; two workers start. -/
def filedTwo : List (Act Outcome Environ) :=
  [.environ (.change ⟨"insert", "65f1"⟩), .environ (.change ⟨"delete", "65f1"⟩),
      .environ (.startReplica [2]), .environ (.startIndexer 2), .environ (.startIndexer 2)] ++
    List.replicate 13 (.run 0 answered)

/-- A pass of a worker over one event. -/
def pass (i : ℕ) : List (Act Outcome Environ) := List.replicate 4 (.run i answered)

theorem old_state_never_resurrected_two :
    ∃ p q : WorkerPool, (last p.store.1 = 1 ∧ last q.store.1 = 2 ∧ q.store.2.history.length = 4) ∧
      last p.store.1 ≤ last q.store.1 ∧ NeverOlder q.store.2 := by
  obtain ⟨p, q, hp, hq, h⟩ := System.exists_reachable_pair_of_runUnder workers.system NoOvertaking
    (fun p q : WorkerPool => decide (last p.store.1 = 1 ∧ last q.store.1 = 2 ∧
      q.store.2.history.length = 4)) (s := noWorkers) ⟨⟨rfl, rfl⟩, rfl⟩ (filedTwo ++ pass 1) (pass 2)
    (by decide +kernel)
  exact ⟨p, q, of_decide_eq_true h, old_state_never_resurrected p q hp hq⟩

/-- A worker is overtaken at the older event by one that acknowledges both. -/
def overtaken : List (Act Outcome Environ) :=
  filedTwo ++ [.run 1 answered, .run 1 answered] ++ pass 2 ++ pass 2

/-- The slow worker moves the checkpoint back, or is lost when it has put the deleted show back. -/
theorem slow_worker_resurrects :
    (∃ p q : WorkerPool, workers.system.Reachable p ∧ (workers.system.startingAt p).Reachable q ∧
      last p.store.1 = 2 ∧ last q.store.1 = 1) ∧
    ∃ p : WorkerPool, workers.system.Reachable p ∧ ¬NeverOlder p.store.2 ∧ last p.store.1 = 2 ∧
      p.store.2.current.length = 0 ∧ p.store.1.index.map (·.1) = ["65f1"] := by
  refine ⟨?_, ?_⟩
  · obtain ⟨p, q, hp, hq, h⟩ := System.exists_reachable_pair_of_runUnder workers.system
      (fun _ _ => True) (fun p q : WorkerPool => decide (last p.store.1 = 2 ∧ last q.store.1 = 1))
      (s := noWorkers) ⟨⟨rfl, rfl⟩, rfl⟩ overtaken [.run 1 answered, .run 1 answered]
      (by decide +kernel)
    exact ⟨p, q, hp, hq, of_decide_eq_true h⟩
  · obtain ⟨p, hp, h⟩ := System.exists_reachable_of_run workers.system
      (fun p : WorkerPool => decide (¬NeverOlder p.store.2 ∧ last p.store.1 = 2 ∧
        p.store.2.current.length = 0 ∧ p.store.1.index.map (·.1) = ["65f1"])) (s := noWorkers)
      ⟨⟨rfl, rfl⟩, rfl⟩ (overtaken ++ [.run 1 answered, .crash 1]) (by decide +kernel)
    exact ⟨p, hp, of_decide_eq_true h⟩

end Search
end Bookit

import Bookit.Search.ProducerSteps

/-!
# Search.Converges — the index under both producers

Neither producer looks at the numbers of the other.  A handler fails when its number is taken by a
row of the change capture, or is being drawn by another handler; a row that is filed below the
acknowledged number is never claimed.  Where none of this happens, no write fails, no row is
skipped, and the index of a drained outbox says what the shows say.
-/

namespace Bookit
namespace Search
namespace Producers

open Lib
open Payments (AppError)

/-! ## The condition -/

/-- The number that a handler draws is not being drawn by another, and is not taken; a row is filed above
the last acknowledged number, and a number is acknowledged when no row is left below it. -/
def Permitted (_ : Role) (i : ℕ) (l : Link) : Command → State → Prop
  | .nextLsn, s =>
      l ≠ .lost → ∀ t ∈ s.transactions, t.session = i →
        t.snapshot = s.lsn ∧ ∀ u ∈ s.transactions, u.sequence = none
  | .insertEvent d, s =>
      l ≠ .lost → (∃ t ∈ s.transactions, t.session = i) → ∀ r ∈ s.rows, r.event.sequence ≠ d.sequence
  | .commitTransaction, s =>
      l ≠ .lost → ∀ t ∈ s.transactions, t.session = i → ∀ d ∈ t.event, s.last < d.sequence
  | .search (.insertOne d), s =>
      l ≠ .lost → (∃ r ∈ s.rows, r.event.sequence = d.sequence) ∨ s.last < d.sequence
  | .search (.upsertLastSequence n), s =>
      l ≠ .lost → ∀ r ∈ s.rows, s.last < r.event.sequence → n ≤ r.event.sequence
  | _, _ => True

/-- The TTL index removes acknowledged rows only. -/
def Outlived : Environ → State → Prop
  | .expire n, s => ∀ r ∈ s.rows, r.event.sequence = n → n ∈ s.acknowledged
  | _, _ => True

def Orderly (p : ProducerPool) (a : Act Link Environ) : Prop :=
  Machine.Guarded Permitted Outlived p a

/-! ## Contracts -/

def producers : Contract State Reply Role Link where
  inv := Inv
  rely := Relies
  guar _ _ _ := True
  allowed := Permitted
  rely_refl := Relies.refl
  rely_trans _ _ _ _ := Relies.trans

/-- The commands of a worker. -/
def workerExec (n : Role) : Exec State Rep Link :=
  fun i l c s => if s.free n i then searchExec l c (s.hold n i) else none

/-- The contract of a worker alone. -/
def workers : Contract State Rep Role Link where
  inv := Inv
  rely := Relies
  guar _ _ _ := True
  allowed n i l c := Permitted n i l (.search c)
  rely_refl := Relies.refl
  rely_trans _ _ _ _ := Relies.trans

/-- A command that only reads. -/
theorem read_cases {ρ : Type} {v : State → ρ} {l : Link} {t u : State} {r : Option ρ}
    (h : l.deliver (fun s => (s, v s)) t = (u, r)) : u = t ∧ (r = none ∨ r = some (v t)) := by
  rcases Link.deliver_cases h with ⟨rfl, hr⟩ | ⟨rfl, hr⟩
  · exact ⟨rfl, .inl hr⟩
  · exact ⟨rfl, hr⟩

/-! ## The change capture -/

section Capture

variable {i p : ℕ} {s : State} {α : Type} {Q : α → State → Prop}

/-- A change capture that runs, and has moved the checkpoint past `p` changes. -/
structure At (i p : ℕ) (s : State) : Prop where
  own : s.capturing = some i
  passed : s.passed = p

theorem At.mono {t : State} (h : At i p s) (hst : Relies i s t) : At i p t := by
  have hcap := hst.capturing h.own
  refine ⟨hcap.capturing.trans h.own, ?_⟩
  unfold State.passed
  rw [hcap.checkpoint]
  exact h.passed

theorem hold_eq (h : s.capturing = some i) : s.hold .capture i = s := by
  unfold State.hold
  rw [← h]

/-- A command of a change capture that runs. -/
theorem ensures_capture {c : Cmd} {k : Rep c → Worker α} (hown : s.capturing = some i)
    (h : ∀ t, Relies i s t → Inv t → t.capturing = some i → ∀ l,
      Permitted .capture i l (.search c) t → ∀ u r, searchExec l c t = some (u, r) →
      Keeps i t u ∧ workers.Ensures (workerExec .capture) .capture i Q (k r) u) :
    workers.Ensures (workerExec .capture) .capture i Q (.call c k) s := by
  refine .call fun t hst ht l hl u r hex => ?_
  have htown : t.capturing = some i := (hst.capturing hown).capturing.trans hown
  have hfree : t.free .capture i = true := decide_eq_true (.inr htown)
  simp only [workerExec, hfree, if_true, hold_eq htown] at hex
  obtain ⟨hkeeps, hk⟩ := h t hst ht htown l hl u r hex
  exact ⟨⟨hkeeps.inv, trivial, hkeeps.others⟩, hk⟩

theorem insertCaptured_frame (d : OutboxDocument) (s : State) :
    (insertCaptured d s).1.capturing = s.capturing ∧
      (insertCaptured d s).1.checkpoint = s.checkpoint ∧
      (insertCaptured d s).1.changes = s.changes := by
  unfold insertCaptured
  split_ifs
  · exact ⟨rfl, rfl, rfl⟩
  · exact ⟨rfl, rfl, rfl⟩

theorem ensures_advanceCheckpoint {event : SearchOutboxEvent} {f : Except String Unit → Worker α}
    (hat : At i event.sourceResumeToken s) (hlt : event.sourceResumeToken < s.changes.length)
    (hcovered : s.Covered (event.sourceResumeToken + 1))
    (hf : ∀ t a, t.capturing = some i → (a = .ok () → At i (event.sourceResumeToken + 1) t) →
      workers.Ensures (workerExec .capture) .capture i Q (f a) t) :
    workers.Ensures (workerExec .capture) .capture i Q (advanceCheckpoint event >>= f) s := by
  refine ensures_capture hat.own fun t hst ht hown l _ u r hex => ?_
  have hlt : event.sourceResumeToken < t.changes.length := hlt.trans_le hst.changes.length_le
  have hcovered := (hst.capturing hat.own).covered _ (show _ ≤ s.changes.length by assumption) hcovered
  have hkeeps := keeps_upsertCheckpoint ht hown (hat.mono hst).passed hlt hcovered
  rcases Link.deliver_cases (Option.some.inj hex) with ⟨rfl, rfl⟩ | ⟨rfl, rfl | rfl⟩
  · exact ⟨.refl ht, hf u _ hown fun h => by cases h⟩
  · exact ⟨hkeeps, hf _ _ hown fun h => by cases h⟩
  · exact ⟨hkeeps, hf _ _ hown fun _ => ⟨hown, rfl⟩⟩

/-- A change capture that has an event of the change at its checkpoint to file. -/
structure Unfiled (i : ℕ) (event : SearchOutboxEvent) (s : State) : Prop where
  at_checkpoint : At i event.sourceResumeToken s
  observed : ∀ n, Observed event.sourceResumeToken (outboxDocument event n) s
  fresh : ∀ r ∈ s.rows, r.producer = .changeCapture → r.event.id ≠ event.sourceResumeToken

theorem Unfiled.mono {event : SearchOutboxEvent} {t : State} (h : Unfiled i event s)
    (hst : Relies i s t) : Unfiled i event t := by
  have hcap := hst.capturing h.at_checkpoint.own
  refine ⟨h.at_checkpoint.mono hst, fun n => (h.observed n).mono hst, fun r hr hproducer => ?_⟩
  exact h.fresh r (hcap.rows r hr hproducer) hproducer

section Record

variable {event : SearchOutboxEvent} {f : Except String Unit → Worker α}

/-- Filing the event under a number that is drawn, and moving the checkpoint. -/
theorem ensures_insertOne {n : ℕ} (hunfiled : Unfiled i event s) (hdrawn : Drawn n s)
    (hf : ∀ t a, t.capturing = some i → (a = .ok () → At i (event.sourceResumeToken + 1) t) →
      workers.Ensures (workerExec .capture) .capture i Q (f a) t) :
    workers.Ensures (workerExec .capture) .capture i Q
      ((do
        match ← Prog.perform (Cmd.insertOne (outboxDocument event n)) with
        | some (.ok ()) => advanceCheckpoint event
        | some (.error .duplicateKey) => advanceCheckpoint event
        | none => pure (.error "failed to write MongoDB search outbox event")) >>= f) s := by
  refine ensures_capture hunfiled.at_checkpoint.own fun t hst ht hown l hallowed u r hex => ?_
  have hcap := hst.capturing hunfiled.at_checkpoint.own
  have hunfiled := hunfiled.mono hst
  simp only [searchExec] at hex
  split_ifs at hex with hwait
  have hinserting : Inserting t i (outboxDocument event n) := by
    refine ⟨ht, hown, hunfiled.at_checkpoint.passed, hdrawn.mono hst.lsn hcap, hunfiled.observed n,
      hunfiled.fresh, fun v hv e he heq => hwait (List.any_eq_true.2 ⟨v, hv, ?_⟩)⟩
    rw [he]
    exact decide_eq_true heq
  obtain ⟨hcapturing, hcheckpoint, hchanges⟩ := insertCaptured_frame (outboxDocument event n) t
  cases l with
  | lost =>
      obtain ⟨rfl, rfl⟩ := Prod.mk.inj (Option.some.inj hex)
      exact ⟨.refl ht, hf _ _ hown fun h => by cases h⟩
  | unacked =>
      obtain ⟨rfl, rfl⟩ := Prod.mk.inj (Option.some.inj hex)
      obtain ⟨hkeeps, -⟩ := hinserting.keeps (hallowed fun h => by cases h)
      exact ⟨hkeeps, hf _ _ (hcapturing.trans hown) fun h => by cases h⟩
  | ok =>
      obtain ⟨rfl, rfl⟩ := Prod.mk.inj (Option.some.inj hex)
      obtain ⟨hkeeps, hcovered⟩ := hinserting.keeps (hallowed fun h => by cases h)
      refine ⟨hkeeps, ?_⟩
      have hnext : workers.Ensures (workerExec .capture) .capture i Q
          (advanceCheckpoint event >>= f) (insertCaptured (outboxDocument event n) t).1 := by
        refine ensures_advanceCheckpoint ⟨hcapturing.trans hown, ?_⟩ ?_ hcovered hf
        · unfold State.passed
          rw [hcheckpoint]
          exact hunfiled.at_checkpoint.passed
        · rw [hchanges]
          exact (hunfiled.observed n).lt
      cases (insertCaptured (outboxDocument event n) t).2 with
      | ok _ => exact hnext
      | error err =>
          cases err
          exact hnext

/-- The hand-off of the change at the checkpoint: if it succeeds, the checkpoint has moved past it. -/
theorem ensures_record (hat : At i event.sourceResumeToken s)
    (hobs : ∀ n, Observed event.sourceResumeToken (outboxDocument event n) s)
    (hf : ∀ t a, t.capturing = some i → (a = .ok () → At i (event.sourceResumeToken + 1) t) →
      workers.Ensures (workerExec .capture) .capture i Q (f a) t) :
    workers.Ensures (workerExec .capture) .capture i Q (recordMongoOutboxEvent event >>= f) s := by
  refine ensures_capture hat.own fun t hst ht hown l _ u r hex => ?_
  obtain ⟨rfl, hr⟩ := read_cases (Option.some.inj hex)
  refine ⟨.refl ht, ?_⟩
  rcases hr with rfl | rfl
  · exact hf u _ hown fun h => by cases h
  cases hfound : u.rows.any fun r =>
      decide (r.producer = .changeCapture ∧ r.event.id = event.sourceResumeToken) with
  | true =>
      obtain ⟨r, hr, heq⟩ := List.any_eq_true.1 hfound
      obtain ⟨hproducer, hid⟩ := of_decide_eq_true heq
      obtain ⟨-, hlt, hcovered⟩ := ht.captured r hr hproducer
      rw [hid] at hlt hcovered
      exact ensures_advanceCheckpoint (hat.mono hst) hlt hcovered hf
  | false =>
      have hunfiled : Unfiled i event u := by
        refine ⟨hat.mono hst, fun n => (hobs n).mono hst, fun r hr hproducer hid => ?_⟩
        have hnot := List.any_eq_false.1 hfound r hr
        exact hnot (decide_eq_true ⟨hproducer, hid⟩)
      refine ensures_capture hown fun v huv hv hvown l₂ _ w r₂ hex₂ => ?_
      have hkeeps := keeps_nextSequence hv hvown
      have hunfiledv := hunfiled.mono huv
      rcases Link.deliver_cases (Option.some.inj hex₂) with ⟨rfl, rfl⟩ | ⟨rfl, rfl | rfl⟩
      · exact ⟨.refl hv, hf w _ hvown fun h => by cases h⟩
      · exact ⟨hkeeps, hf _ _ hvown fun h => by cases h⟩
      · have hdrawn : Drawn (v.counter + 1) { v with counter := v.counter + 1 } := by
          refine ⟨Nat.succ_pos _, le_rfl, fun m hm hlt => ?_⟩
          exact Nat.lt_succ_of_le (hv.numbered.counted m hm hlt)
        have hunfiledw : Unfiled i event { v with counter := v.counter + 1 } := by
          have hat := hunfiledv.at_checkpoint
          refine ⟨⟨hat.own, hat.passed⟩, fun n => ?_, hunfiledv.fresh⟩
          exact ⟨(hunfiledv.observed n).change, (hunfiledv.observed n).tells⟩
        exact ⟨hkeeps, ensures_insertOne hunfiledw hdrawn hf⟩

end Record

/-- What the change capture makes of a change that is reported tells what the show says, unless the show
has changed since. -/
theorem tells_of_reported {c : ShowChange} {event : SearchOutboxEvent} (h : Reported s p c)
    (hev : changeToOutboxEvent c.operationType c.showId p (s.catalogue.fullDocument c) = .ok event)
    (n : ℕ) :
    Tells (s.live c.showId) (Row.mk .changeCapture (outboxDocument event n)).content ∨
      s.Owed (p + 1) c.showId := by
  obtain ⟨hop, h⟩ := h
  rcases h with howed | h
  · exact .inr howed
  refine .inl ?_
  have hfull : s.catalogue.fullDocument c = (s.catalogue.find c.showId).map Show.toDocument := by
    unfold ShowStore.fullDocument
    split_ifs with hupdate
    · rfl
    · rcases h with h | ⟨-, hdoc⟩
      · exact absurd h hupdate
      · rw [hdoc]
  rw [hfull] at hev
  unfold Tells State.live
  cases hfind : s.catalogue.find c.showId with
  | none =>
      rw [hfind] at hev
      simp [changeToOutboxEvent, hop] at hev
  | some d =>
      rw [hfind, Option.map_some] at hev
      rcases content_changeToOutboxEvent hop hev with ⟨hdeleted, hdelete⟩ | ⟨hkept, hupsert, hdoc⟩
      · rw [softDeleted_toDocument] at hdeleted
        have hcontent : (Row.mk .changeCapture (outboxDocument event n)).content = none := by
          refine if_neg fun heq => ?_
          have heq : event.operation = "upsert" := heq
          rw [hdelete] at heq
          exact absurd heq (by decide)
        rw [hcontent]
        simp [Option.filter, Option.isNone_iff_eq_none, Option.isSome_iff_ne_none.1 hdeleted]
      · rw [softDeleted_toDocument] at hkept
        have hcontent : (Row.mk .changeCapture (outboxDocument event n)).content = event.document :=
          if_pos hupsert
        rw [hcontent, hdoc]
        simp [Option.filter, Option.isSome_eq_false_iff.1 hkept]

/-- The change at the checkpoint is handed off where it can be converted. -/
theorem ensures_recordChange {change : Change} {document : Option Json}
    {f : Except String Unit → Worker α} (hat : At i p s) (hs : Inv s)
    (hchange : ∃ c, s.changes[p]? = some c ∧ change = ⟨c.operationType, c.showId⟩ ∧
      document = s.catalogue.fullDocument c)
    (hf : ∀ t a, t.capturing = some i → (a = .ok () → At i (p + 1) t) →
      workers.Ensures (workerExec .capture) .capture i Q (f a) t) :
    workers.Ensures (workerExec .capture) .capture i Q (recordChange p change document >>= f) s := by
  obtain ⟨c, hc, rfl, rfl⟩ := hchange
  unfold recordChange
  cases hev : changeToOutboxEvent c.operationType c.showId p (s.catalogue.fullDocument c) with
  | error e => exact hf s _ hat.own fun h => by cases h
  | ok event =>
      obtain ⟨htoken, hid⟩ := changeToOutboxEvent_ok hev
      subst htoken
      refine ensures_record hat (fun n => ⟨⟨c, hc, hid.symm⟩, ?_⟩) hf
      show Tells (s.live event.showId) _ ∨ s.Owed _ event.showId
      rw [hid]
      exact tells_of_reported (hs.reported _ c hc) hev n

/-- The stream loop from the checkpoint, by induction on its budget. -/
theorem ensures_watchStream {budget : ℕ} {f : Unit → Worker α} (hat : At i p s)
    (hf : ∀ t, t.capturing = some i → workers.Ensures (workerExec .capture) .capture i Q (f ()) t) :
    workers.Ensures (workerExec .capture) .capture i Q (watchStream p budget >>= f) s := by
  induction budget generalizing p s with
  | zero => exact hf s hat.own
  | succ budget ih =>
      refine ensures_capture hat.own fun t hst ht hown l _ u r hex => ?_
      simp only [searchExec] at hex
      split at hex
      · next c hc =>
        obtain ⟨rfl, hr⟩ := read_cases (Option.some.inj hex)
        refine ⟨.refl ht, ?_⟩
        rcases hr with rfl | rfl
        · exact hf u hown
        · show workers.Ensures (workerExec .capture) .capture i Q
            (recordChange p ⟨c.operationType, c.showId⟩ (u.catalogue.fullDocument c) >>= _ >>= f) u
          rw [Prog.bind_assoc]
          refine ensures_recordChange (hat.mono hst) ht ⟨c, hc, rfl, rfl⟩ fun v a hvown hok => ?_
          cases a with
          | error _ => exact hf v hvown
          | ok _ => exact ih (hok rfl)
      · cases hex

/-- The worker's loop meets the contract, by induction on its connections. -/
theorem ensures_watchSearchOutbox {budgets : List ℕ} :
    workers.Ensures (workerExec .capture) .capture i (fun _ _ => True) (watchSearchOutbox budgets)
      s := by
  induction budgets generalizing s with
  | nil => exact Contract.Ensures.ret fun _ _ _ => trivial
  | cons budget budgets ih =>
      -- the first command takes the place of the change capture
      refine .call fun t _ ht l _ u r hex => ?_
      simp only [workerExec] at hex
      split_ifs at hex with hfree
      have hkeeps := keeps_hold ht hfree
      obtain ⟨rfl, hr⟩ := read_cases (v := fun _ => ()) (Option.some.inj hex)
      refine ⟨⟨hkeeps.inv, trivial, hkeeps.others⟩, ?_⟩
      rcases hr with rfl | rfl
      · exact ih
      have hown : (t.hold .capture i).capturing = some i := rfl
      refine ensures_capture hown fun v _ hv hvown l₂ _ w r₂ hex₂ => ?_
      obtain ⟨rfl, hr₂⟩ := read_cases (Option.some.inj hex₂)
      refine ⟨.refl hv, ?_⟩
      rcases hr₂ with rfl | rfl
      · exact ih
      refine ensures_capture hvown fun x hwx hx hxown l₃ _ y r₃ hex₃ => ?_
      obtain ⟨rfl, hr₃⟩ := read_cases (v := fun _ => ()) (Option.some.inj hex₃)
      refine ⟨.refl hx, ?_⟩
      rcases hr₃ with rfl | rfl
      · exact ih
      · cases htoken : w.checkpoint with
        | none =>
            have hat : At i 0 w := ⟨hvown, by simp only [State.passed, htoken]⟩
            exact ensures_watchStream (hat.mono hwx) fun _ _ => ih
        | some token =>
            have hat : At i (token + 1) w := ⟨hvown, by simp only [State.passed, htoken]⟩
            exact ensures_watchStream (hat.mono hwx) fun _ _ => ih

end Capture

/-! ## The indexing worker -/

section Indexer

variable {i : ℕ} {s : State} {α : Type} {Q : α → State → Prop}

theorem hold_indexer_eq (h : s.indexing = some i) : s.hold .indexer i = s := by
  unfold State.hold
  rw [← h]

/-- A command of an indexing worker that runs. -/
theorem ensures_indexer {c : Cmd} {k : Rep c → Worker α} (hown : s.indexing = some i)
    (h : ∀ t, Relies i s t → Inv t → t.indexing = some i → ∀ l,
      Permitted .indexer i l (.search c) t → ∀ u r, searchExec l c t = some (u, r) →
      Keeps i t u ∧ workers.Ensures (workerExec .indexer) .indexer i Q (k r) u) :
    workers.Ensures (workerExec .indexer) .indexer i Q (.call c k) s := by
  refine .call fun t hst ht l hl u r hex => ?_
  have htown : t.indexing = some i := (hst.indexing hown).indexing.trans hown
  have hfree : t.free .indexer i = true := decide_eq_true (.inr htown)
  simp only [workerExec, hfree, if_true, hold_indexer_eq htown] at hex
  obtain ⟨hkeeps, hk⟩ := h t hst ht htown l hl u r hex
  exact ⟨⟨hkeeps.inv, trivial, hkeeps.others⟩, hk⟩

/-- A row that the worker has found, and that nobody but the worker acknowledges. -/
structure Found (d : OutboxDocument) (s : State) : Prop where
  filed : ∃ r ∈ s.rows, r.event = d
  above : s.last < d.sequence

theorem Found.mono {d : OutboxDocument} {t : State} (h : Found d s) (hst : Indexes s t) :
    Found d t := by
  obtain ⟨r, hr, rfl⟩ := h.filed
  have hlast : t.last = s.last := congrArg (·.getD 0) hst.lastSequence
  exact ⟨⟨r, hst.rows r hr h.above, rfl⟩, hlast ▸ h.above⟩

theorem found_findCandidate {d : OutboxDocument} (h : findCandidate s.last s = some d) : Found d s := by
  obtain ⟨hmem, hlt⟩ := List.mem_filter.1 (List.argmin_mem h)
  obtain ⟨r, hr, rfl⟩ := List.mem_map.1 hmem
  exact ⟨⟨r, hr, rfl⟩, of_decide_eq_true hlt⟩

theorem ensures_markIndexed {event : OutboxDocument} {f : Except String Unit → Worker α}
    (hown : s.indexing = some i) (hfound : Found event s)
    (happlied : s.indexed event.showId = (Row.mk .changeCapture event).content)
    (hf : ∀ t a, t.indexing = some i → workers.Ensures (workerExec .indexer) .indexer i Q (f a) t) :
    workers.Ensures (workerExec .indexer) .indexer i Q (markIndexed event >>= f) s := by
  refine ensures_indexer hown fun t hst ht htown l hallowed u r hex => ?_
  have hidx := hst.indexing hown
  obtain ⟨row, hrow, hevent⟩ := (hfound.mono hidx).filed
  have hindexed : t.indexed = s.indexed := by
    unfold State.indexed
    rw [hidx.index]
  have hkeeps : l ≠ .lost → Keeps i t { t with
      lastSequence := some event.sequence
      acknowledged := t.acknowledged ++ [event.sequence] } := by
    intro hl
    subst hevent
    refine keeps_acknowledge ht htown hrow (hfound.mono hidx).above ?_ (hallowed hl)
    rw [hindexed]
    exact happlied
  cases l with
  | lost =>
      obtain ⟨rfl, rfl⟩ := Prod.mk.inj (Option.some.inj hex)
      exact ⟨.refl ht, hf _ _ htown⟩
  | unacked =>
      obtain ⟨rfl, rfl⟩ := Prod.mk.inj (Option.some.inj hex)
      exact ⟨hkeeps (fun h => by cases h), hf _ _ htown⟩
  | ok =>
      obtain ⟨rfl, rfl⟩ := Prod.mk.inj (Option.some.inj hex)
      exact ⟨hkeeps (fun h => by cases h), hf _ _ htown⟩

/-- A row is applied: the index then says what it says. -/
theorem ensures_applyEvent {event : OutboxDocument} {f : Except String Unit → Worker α}
    (hown : s.indexing = some i) (hfound : Found event s)
    (hf : ∀ t a, t.indexing = some i →
      (a = .ok () → Found event t ∧ t.indexed event.showId = (Row.mk .changeCapture event).content) →
      workers.Ensures (workerExec .indexer) .indexer i Q (f a) t) :
    workers.Ensures (workerExec .indexer) .indexer i Q (applyEvent event >>= f) s := by
  -- a write to the index, whatever it leaves there
  have hwrite : ∀ t, Relies i s t → Inv t → t.indexing = some i →
      ∀ (run : State → State × Unit) (index : List (String × Json)),
        (run t).1 = { t with index := index } →
        (∀ id, ({ t with index := index } : State).indexed id =
          if id = event.showId then (Row.mk .changeCapture event).content else t.indexed id) →
        ∀ (l : Link) u r, l.deliver run t = (u, r) → Keeps i t u ∧ u.indexing = some i ∧
          (r = some () → Found event u ∧
            u.indexed event.showId = (Row.mk .changeCapture event).content) := by
    intro t hst ht htown run index hrun hindexed l u r hex
    have hfoundt := hfound.mono (hst.indexing hown)
    obtain ⟨row, hrow, hevent⟩ := hfoundt.filed
    have hkeeps : Keeps i t { t with index := index } := by
      subst hevent
      refine keeps_index ht htown hrow hfoundt.above fun id hne => ?_
      rw [hindexed, if_neg hne]
    rcases Link.deliver_cases hex with ⟨rfl, rfl⟩ | ⟨rfl, hr⟩
    · exact ⟨.refl ht, htown, fun h => by cases h⟩
    · rw [hrun]
      refine ⟨hkeeps, htown, fun _ => ⟨⟨hfoundt.filed, hfoundt.above⟩, ?_⟩⟩
      rw [hindexed, if_pos rfl]
  unfold applyEvent
  split_ifs with hupsert hdelete
  · cases hdoc : event.document with
    | none => exact hf s _ hown fun h => by cases h
    | some document =>
        have hcontent : (Row.mk .changeCapture event).content = some document :=
          (if_pos hupsert).trans hdoc
        refine ensures_indexer hown fun t hst ht htown l _ u r hex => ?_
        obtain ⟨hkeeps, huown, hr⟩ := hwrite t hst ht htown _ _ rfl
          (fun id => by rw [indexed_put, hcontent]) l u r (Option.some.inj hex)
        refine ⟨hkeeps, ?_⟩
        cases r with
        | none => exact hf u _ huown fun h => by cases h
        | some a => exact hf u _ huown fun _ => hr rfl
  · have hcontent : (Row.mk .changeCapture event).content = none := if_neg hupsert
    refine ensures_indexer hown fun t hst ht htown l _ u r hex => ?_
    obtain ⟨hkeeps, huown, hr⟩ := hwrite t hst ht htown _ _ rfl
      (fun id => by rw [indexed_delete, hcontent]) l u r (Option.some.inj hex)
    refine ⟨hkeeps, ?_⟩
    cases r with
    | none => exact hf u _ huown fun h => by cases h
    | some a => exact hf u _ huown fun _ => hr rfl
  · exact hf s _ hown fun h => by cases h

/-- The indexing loop meets the contract, by induction on the passes left. -/
theorem ensures_indexSearchOutbox {rounds : ℕ} :
    workers.Ensures (workerExec .indexer) .indexer i (fun _ _ => True) (indexSearchOutbox rounds)
      s := by
  induction rounds generalizing s with
  | zero => exact Contract.Ensures.ret fun _ _ _ => trivial
  | succ rounds ih =>
      -- the first command takes the place of the indexing worker
      refine .call fun t _ ht l _ u r hex => ?_
      simp only [workerExec] at hex
      split_ifs at hex with hfree
      have hkeeps := keeps_hold ht hfree
      obtain ⟨rfl, hr⟩ := read_cases (Option.some.inj hex)
      refine ⟨⟨hkeeps.inv, trivial, hkeeps.others⟩, ?_⟩
      rcases hr with rfl | rfl
      · exact ih
      have hown : (t.hold .indexer i).indexing = some i := rfl
      refine ensures_indexer hown fun v huv hv hvown l₂ _ w r₂ hex₂ => ?_
      obtain ⟨rfl, hr₂⟩ := read_cases (Option.some.inj hex₂)
      refine ⟨.refl hv, ?_⟩
      rcases hr₂ with rfl | rfl
      · exact ih
      have hlast : w.last = (t.hold .indexer i).last :=
        congrArg (·.getD 0) (huv.indexing hown).lastSequence
      cases hfound : findCandidate ((t.hold .indexer i).lastSequence.getD 0) w with
      | none => exact ih
      | some event =>
          have hfound : Found event w := by
            refine found_findCandidate ?_
            rw [hlast]
            exact hfound
          refine ensures_applyEvent hvown hfound fun x a hxown ha => ?_
          cases a with
          | error _ => exact ih
          | ok _ =>
              obtain ⟨hfoundx, happlied⟩ := ha rfl
              exact ensures_markIndexed hxown hfoundx happlied fun _ _ _ => ih

end Indexer

/-! ## The admin API -/

section Admin

variable {i : ℕ} {s : State} {α : Type} {Q : α → State → Prop}

theorem answer_cases {β : Type} {l : Link} {run : State → State × Except MongoError β} {t u : State}
    {r : Except MongoError β} (h : answer l run t = (u, r)) :
    (u = t ∧ r = .error .unanswered) ∨
      (l ≠ .lost ∧ u = (run t).1 ∧ (r = .error .unanswered ∨ r = (run t).2)) := by
  obtain ⟨rfl, rfl⟩ := Prod.mk.inj h
  cases l with
  | ok => exact .inr ⟨(fun h => by cases h), rfl, .inr rfl⟩
  | lost => exact .inl ⟨rfl, rfl⟩
  | unacked => exact .inr ⟨(fun h => by cases h), rfl, .inl rfl⟩

/-- An error that is not one of the outbox. -/
def Elsewhere : MongoError → Prop
  | .unanswered => True
  | .noTransaction => True
  | .writeConflict collection => collection = "shows"
  | .duplicateKey collection => collection = "shows"

theorem Elsewhere.not_outboxError {e : MongoError} (h : Elsewhere e) :
    ¬OutboxError (.internal e.text) := by
  cases e with
  | unanswered => unfold OutboxError; decide
  | noTransaction => unfold OutboxError; decide
  | writeConflict collection =>
      obtain rfl : collection = "shows" := h
      unfold OutboxError
      decide
  | duplicateKey collection =>
      obtain rfl : collection = "shows" := h
      unfold OutboxError
      decide

/-- What a session knows of its own transaction. -/
def Own (i : ℕ) (P : Transaction → Prop) (s : State) : Prop :=
  ∀ t ∈ s.transactions, t.session = i → P t

theorem Own.mono {P : Transaction → Prop} {t : State} (h : Own i P s) (hst : Relies i s t) :
    Own i P t :=
  fun u hu hsession => h u (hst.transactions u hu hsession) hsession

theorem Own.setTransaction {P R : Transaction → Prop} {f : Transaction → Transaction} (h : Own i P s)
    (hf : ∀ t, P t → R (f t)) : Own i R (s.setTransaction i f) := by
  intro t ht hsession
  rcases Table.mem_updateWhere_cases ht with ⟨-, hp⟩ | ⟨t₀, ht₀, hp, rfl⟩
  · exact absurd hsession (of_decide_eq_false hp)
  · exact hf t₀ (h t₀ ht₀ (of_decide_eq_true hp))

/-- The transaction draws its number. -/
theorem keeps_nextLsn (hs : Inv s)
    (hallowed : ∀ t ∈ s.transactions, t.session = i →
      t.snapshot = s.lsn ∧ ∀ u ∈ s.transactions, u.sequence = none) :
    Keeps i s (s.nextLsn i).1 ∧
      ((s.nextLsn i).2 = .error .noTransaction ∨
        ((s.nextLsn i).1 = s.setTransaction i (fun t => { t with sequence := some (s.lsn + 1) }) ∧
          (s.nextLsn i).2 = .ok (s.lsn + 1))) := by
  unfold State.nextLsn
  cases htx : s.transaction i with
  | none => exact ⟨.refl hs, .inl rfl⟩
  | some t =>
      obtain ⟨ht, hsession⟩ := mem_transaction htx
      obtain ⟨hsnapshot, hnone⟩ := hallowed t ht hsession
      have hfree : ¬(t.snapshot ≠ s.lsn ∨ s.transactions.any (fun u => u.sequence.isSome) = true) := by
        rintro (hne | hany)
        · exact hne hsnapshot
        · obtain ⟨u, hu, hsome⟩ := List.any_eq_true.1 hany
          rw [hnone u hu] at hsome
          cases hsome
      dsimp only
      rw [if_neg hfree]
      refine ⟨keeps_setTransaction hs fun u hu _ => ?_, .inr ⟨rfl, rfl⟩⟩
      have h := hs.underway u hu
      refine ⟨⟨h.fresh, ?_, ?_⟩, rfl, rfl, .inr fun v hv _ => hnone v hv⟩
      · intro n hn
        exact (Option.some.inj hn).symm
      · intro d hd
        obtain ⟨hseq, -⟩ := h.event d hd
        rw [hnone u hu] at hseq
        cases hseq

/-- The transaction inserts its row. -/
theorem keeps_insertEvent {d : OutboxDocument} {w : ShowWrite} (hs : Inv s)
    (hown : Own i (fun t => t.write = w ∧ t.sequence = some d.sequence) s) (hid : d.showId = w.showId)
    (htells : Tells (w.shown s) (Row.mk .adminApi d).content)
    (hallowed : (∃ t ∈ s.transactions, t.session = i) → ∀ r ∈ s.rows, r.event.sequence ≠ d.sequence) :
    Keeps i s (s.insertEvent i d).1 ∧
      ((s.insertEvent i d).2 = .error .noTransaction ∨
        ((s.insertEvent i d).1 = s.setTransaction i (fun t => { t with event := some d }) ∧
          (s.insertEvent i d).2 = .ok ())) := by
  unfold State.insertEvent
  cases htx : s.transaction i with
  | none => exact ⟨.refl hs, .inl rfl⟩
  | some t =>
      have hfree := hallowed ⟨t, mem_transaction htx⟩
      have hnot : ¬(s.rows.any fun r => decide (r.event.sequence = d.sequence)) = true := by
        intro hany
        obtain ⟨r, hr, heq⟩ := List.any_eq_true.1 hany
        exact hfree r hr (of_decide_eq_true heq)
      dsimp only
      rw [if_neg hnot]
      refine ⟨keeps_setTransaction hs fun u hu hsession => ?_, .inr ⟨rfl, rfl⟩⟩
      have h := hs.underway u hu
      obtain ⟨rfl, hseq⟩ := hown u hu hsession
      refine ⟨⟨h.fresh, h.sequence, ?_⟩, rfl, rfl, .inl rfl⟩
      intro e he
      obtain rfl := Option.some.inj he
      exact ⟨hseq, hid, hfree, htells⟩

/-- The transaction is committed. -/
theorem keeps_commitTransaction {d : OutboxDocument} (hs : Inv s)
    (hown : Own i (fun t => t.event = some d) s)
    (hallowed : ∀ t ∈ s.transactions, t.session = i → ∀ d ∈ t.event, s.last < d.sequence) :
    Keeps i s (s.commitTransaction i).1 ∧
      ((s.commitTransaction i).2 = .error .noTransaction ∨ (s.commitTransaction i).2 = .ok ()) := by
  unfold State.commitTransaction
  cases htx : s.transaction i with
  | none => exact ⟨.refl hs, .inl rfl⟩
  | some t =>
      obtain ⟨ht, hsession⟩ := mem_transaction htx
      have hevent := hown t ht hsession
      have hcommitting : Committing s i t d :=
        ⟨hs, ht, hsession, hevent, hallowed t ht hsession d hevent⟩
      exact ⟨hcommitting.keeps, .inr rfl⟩

/-- A statement of a handler. -/
theorem ensures_statement {c : Command} {k : Reply c → Handler α}
    (hc : ∀ t l, exec .admin i l c t = adminExec i l c t)
    (h : ∀ t, Relies i s t → Inv t → ∀ l, Permitted .admin i l c t → ∀ u r,
      adminExec i l c t = some (u, r) →
      Keeps i t u ∧ producers.Ensures (exec .admin) .admin i Q (k r) u) :
    producers.Ensures (exec .admin) .admin i Q (.call c k) s := by
  refine .call fun t hst ht l hl u r hex => ?_
  rw [hc] at hex
  obtain ⟨hkeeps, hk⟩ := h t hst ht l hl u r hex
  exact ⟨⟨hkeeps.inv, trivial, hkeeps.others⟩, hk⟩

/-- The content tells what a write is going to leave. -/
def ShowWrite.Foretells (w : ShowWrite) (content : Option Json) (s : State) : Prop :=
  match w with
  | .insert _ d => Tells ((some d).filter fun d => d.deletedAt.isNone) content
  | .replace id d =>
      (s.catalogue.find id).isSome ∧ Tells ((some d).filter fun d => d.deletedAt.isNone) content
  | .softDelete _ _ => content = none

theorem ShowWrite.Foretells.mono {w : ShowWrite} {content : Option Json} {t : State}
    (h : w.Foretells content s) (hfound : ∀ id, (s.catalogue.find id).isSome → (t.catalogue.find id).isSome) :
    w.Foretells content t := by
  cases w with
  | insert id d => exact h
  | replace id d => exact ⟨hfound id h.1, h.2⟩
  | softDelete id deletedAt => exact h

theorem ShowWrite.Foretells.tells {w : ShowWrite} {content : Option Json} (h : w.Foretells content s) :
    Tells (w.shown s) content := by
  cases w with
  | insert id d => exact h
  | replace id d =>
      obtain ⟨e, he⟩ := Option.isSome_iff_exists.1 h.1
      show Tells (((s.catalogue.find id).map fun _ => d).filter _) content
      rw [he]
      exact h.2
  | softDelete id deletedAt =>
      obtain rfl : content = none := h
      have hnone : (ShowWrite.softDelete id deletedAt).shown s = none := by
        unfold ShowWrite.shown ShowWrite.after ShowWrite.showId
        cases s.catalogue.find id <;> rfl
      rw [hnone]
      rfl

/-- The rest of a transaction: whatever goes wrong, it is not the outbox. -/
theorem ensures_appendOutboxEvent {showId operation : String} {document : Option Json} {w : ShowWrite}
    {f : Except AppError Unit → Handler α} (hown : Own i (fun t => t.write = w) s)
    (hid : showId = w.showId) (hforetold : w.Foretells (if operation = "upsert" then document else none) s)
    (hf : ∀ t a, (∀ e, a = .error e → ¬OutboxError e) →
      producers.Ensures (exec .admin) .admin i Q (f a) t) :
    producers.Ensures (exec .admin) .admin i Q (appendOutboxEvent showId operation document >>= f)
      s := by
  have herror : ∀ t (e : MongoError), Elsewhere e →
      producers.Ensures (exec .admin) .admin i Q (f (.error (.internal e.text))) t := by
    intro t e he
    refine hf t _ fun e' h => ?_
    obtain rfl := Except.error.inj h
    exact he.not_outboxError
  refine ensures_statement (fun _ _ => rfl) fun t hst ht l hallowed u r hex => ?_
  rcases answer_cases (Option.some.inj hex) with ⟨rfl, rfl⟩ | ⟨hl, rfl, hr⟩
  · exact ⟨.refl ht, herror _ _ trivial⟩
  obtain ⟨hkeeps, hcases⟩ := keeps_nextLsn ht (hallowed hl)
  refine ⟨hkeeps, ?_⟩
  rcases hr with rfl | rfl
  · exact herror _ _ trivial
  rcases hcases with hnone | ⟨hset, hok⟩
  · rw [hnone]
    exact herror _ _ trivial
  -- the number is drawn
  rw [hset, hok]
  have hown₁ : Own i (fun u => u.write = w ∧ u.sequence = some (t.lsn + 1))
      (t.setTransaction i fun u => { u with sequence := some (t.lsn + 1) }) :=
    (hown.mono hst).setTransaction fun u hu => ⟨hu, rfl⟩
  have hforetold₁ : w.Foretells (if operation = "upsert" then document else none)
      (t.setTransaction i fun u => { u with sequence := some (t.lsn + 1) }) :=
    hforetold.mono hst.found
  refine ensures_statement (fun _ _ => rfl) fun v huv hv l₂ hallowed₂ x r₂ hex₂ => ?_
  rcases answer_cases (Option.some.inj hex₂) with ⟨rfl, rfl⟩ | ⟨hl₂, rfl, hr₂⟩
  · exact ⟨.refl hv, herror _ _ trivial⟩
  have hforetold₂ := hforetold₁.mono huv.found
  obtain ⟨hkeeps₂, hcases₂⟩ := keeps_insertEvent hv (hown₁.mono huv) hid hforetold₂.tells (hallowed₂ hl₂)
  refine ⟨hkeeps₂, ?_⟩
  rcases hr₂ with rfl | rfl
  · exact herror _ _ trivial
  rcases hcases₂ with hnone | ⟨hset₂, hok₂⟩
  · rw [hnone]
    exact herror _ _ trivial
  -- the row is inserted
  rw [hset₂, hok₂]
  have hown₂ : Own i (fun u => u.event = some (outboxEvent showId operation document (t.lsn + 1)))
      (v.setTransaction i fun u =>
        { u with event := some (outboxEvent showId operation document (t.lsn + 1)) }) :=
    (hown₁.mono huv).setTransaction fun _ _ => rfl
  refine ensures_statement (fun _ _ => rfl) fun y hwy hy l₃ hallowed₃ z r₃ hex₃ => ?_
  rcases answer_cases (Option.some.inj hex₃) with ⟨rfl, rfl⟩ | ⟨hl₃, rfl, hr₃⟩
  · exact ⟨.refl hy, herror _ _ trivial⟩
  obtain ⟨hkeeps₃, hcases₃⟩ := keeps_commitTransaction hy (hown₂.mono hwy) (hallowed₃ hl₃)
  refine ⟨hkeeps₃, ?_⟩
  rcases hr₃ with rfl | rfl
  · exact herror _ _ trivial
  rcases hcases₃ with hnone | hok₃
  · rw [hnone]
    exact herror _ _ trivial
  · rw [hok₃]
    exact hf _ _ fun e h => by cases h

/-! ### Handlers -/

/-- What a handler answers. -/
def Answers (b : Except AppError Json) : Prop :=
  ∀ e, b = .error e → ¬OutboxError e

theorem answers_ok (j : Json) : Answers (.ok j) := fun e h => by cases h

theorem answers_error {e : AppError} (he : ¬OutboxError e) : Answers (.error e) := by
  intro e' h
  obtain rfl := Except.error.inj h
  exact he

theorem answers_mongo {e : MongoError} (he : Elsewhere e) : Answers (.error (.internal e.text)) :=
  answers_error he.not_outboxError

theorem answers_badRequest (message : String) : Answers (.error (.badRequest message)) := by
  refine answers_error fun h => ?_
  rcases h with h | h
  · cases h
  · cases h

theorem answers_notFound (message : String) : Answers (.error (.notFound message)) := by
  refine answers_error fun h => ?_
  rcases h with h | h
  · cases h
  · cases h

/-- A session that has not begun a transaction. -/
abbrev Idle (i : ℕ) (s : State) : Prop :=
  Own i (fun _ => False) s

/-- The first statement of a transaction. -/
theorem keeps_begin_own {w : ShowWrite} (hs : Inv s) (hidle : Idle i s) (hfresh : w.Fresh s.catalogue) :
    Keeps i s (s.begin i w).1 ∧
      ((s.begin i w).2 = .error (.writeConflict "shows") ∨
        (s.begin i w).2 = .ok () ∧ Own i (fun t => t.write = w) (s.begin i w).1 ∧
          (s.begin i w).1.shows = s.shows) := by
  refine ⟨keeps_begin hs (fun t ht => hidle t ht) hfresh, ?_⟩
  unfold State.begin
  split_ifs
  · exact .inl rfl
  · refine .inr ⟨rfl, fun t ht hsession => ?_, rfl⟩
    rcases List.mem_append.1 ht with ht | ht
    · exact (hidle t ht hsession).elim
    · rw [List.mem_singleton.1 ht]

section Handlers

variable {now : ℕ} {id : String} {body : CreateShowRequest}

/-- A returned answer. -/
theorem ensures_answer {b : Except AppError Json} (h : Answers b) :
    producers.Ensures (exec .admin) .admin i (fun b _ => Answers b) (.ret b) s :=
  .ret fun _ _ _ => h

theorem tells_of_kept {d : Show} (hdeleted : d.deletedAt = none) {document : Json}
    (hdoc : indexedFields document = indexedFields d.toDocument) :
    Tells ((some d).filter fun d => d.deletedAt.isNone) (some document) := by
  have hkeep : (some d).filter (fun d => d.deletedAt.isNone) = some d := by
    simp [Option.filter, hdeleted]
  rw [hkeep]
  exact congrArg some hdoc

theorem ensures_createShow (hidle : Idle i s) :
    producers.Ensures (exec .admin) .admin i (fun b _ => Answers b) (createShow now id body) s := by
  unfold createShow
  split_ifs
  · exact ensures_answer (answers_badRequest _)
  refine ensures_statement (fun _ _ => rfl) fun t hst ht l _ u r hex => ?_
  rcases answer_cases (Option.some.inj hex) with ⟨rfl, rfl⟩ | ⟨-, rfl, hr⟩
  · exact ⟨.refl ht, ensures_answer (answers_mongo trivial)⟩
  cases hfind : (t.catalogue.find id).isSome with
  | true =>
      simp only [hfind, if_true] at hr ⊢
      refine ⟨.refl ht, ?_⟩
      rcases hr with rfl | rfl
      · exact ensures_answer (answers_mongo trivial)
      · exact ensures_answer (answers_mongo (e := .duplicateKey "shows") rfl)
  | false =>
      simp only [hfind, Bool.false_eq_true, if_false] at hr ⊢
      have hfresh : (ShowWrite.insert id (body.toShow now)).Fresh t.catalogue := by
        show t.catalogue.find id = none
        exact Option.not_isSome_iff_eq_none.1 (by simp [hfind])
      obtain ⟨hkeeps, hcases⟩ := keeps_begin_own ht (hidle.mono hst) hfresh
      refine ⟨hkeeps, ?_⟩
      rcases hr with rfl | rfl
      · exact ensures_answer (answers_mongo trivial)
      rcases hcases with hbusy | ⟨hok, hown, -⟩
      · rw [hbusy]
        exact ensures_answer (answers_mongo (e := .writeConflict "shows") rfl)
      rw [hok]
      refine ensures_appendOutboxEvent hown rfl ?_ fun v a ha => ?_
      · rw [if_pos rfl]
        exact tells_of_kept rfl rfl
      · cases a with
        | error e => exact ensures_answer (answers_error (ha e rfl))
        | ok _ => exact ensures_answer (answers_ok _)

theorem ensures_updateShow (hidle : Idle i s) :
    producers.Ensures (exec .admin) .admin i (fun b _ => Answers b) (updateShow now id body) s := by
  unfold updateShow
  cases parseObjectId id with
  | none => exact ensures_answer (answers_badRequest _)
  | some oid =>
      refine ensures_statement (fun _ _ => rfl) fun t hst ht l _ u r hex => ?_
      have hread : u = t ∧ (r = .error .unanswered ∨ r = .ok (t.catalogue.find oid)) := by
        rcases answer_cases (Option.some.inj hex) with ⟨rfl, rfl⟩ | ⟨-, rfl, hr⟩
        · exact ⟨rfl, .inl rfl⟩
        · exact ⟨rfl, hr⟩
      obtain ⟨rfl, hr⟩ := hread
      refine ⟨.refl ht, ?_⟩
      rcases hr with rfl | rfl
      · exact ensures_answer (answers_mongo trivial)
      cases hfind : u.catalogue.find oid with
      | none => exact ensures_answer (answers_notFound _)
      | some existing =>
          have hsome : (u.catalogue.find oid).isSome := by rw [hfind]; rfl
          refine ensures_statement (fun _ _ => rfl) fun v huv hv l₂ _ w r₂ hex₂ => ?_
          rcases answer_cases (Option.some.inj hex₂) with ⟨rfl, rfl⟩ | ⟨-, rfl, hr₂⟩
          · exact ⟨.refl hv, ensures_answer (answers_mongo trivial)⟩
          obtain ⟨hkeeps, hcases⟩ := keeps_begin_own
            (w := .replace oid { body.toShow now with createdAt := existing.createdAt }) hv
            ((hidle.mono hst).mono huv) trivial
          refine ⟨hkeeps, ?_⟩
          rcases hr₂ with rfl | rfl
          · exact ensures_answer (answers_mongo trivial)
          rcases hcases with hbusy | ⟨hok, hown, hshows⟩
          · rw [hbusy]
            exact ensures_answer (answers_mongo (e := .writeConflict "shows") rfl)
          rw [hok]
          refine ensures_appendOutboxEvent hown rfl ?_ fun x a ha => ?_
          · rw [if_pos rfl]
            refine ⟨?_, tells_of_kept rfl (indexedFields_identified oid _)⟩
            have hfound := huv.found oid hsome
            unfold State.catalogue ShowStore.find at hfound ⊢
            rw [hshows]
            exact hfound
          · cases a with
            | error e => exact ensures_answer (answers_error (ha e rfl))
            | ok _ => exact ensures_answer (answers_ok _)

theorem ensures_deleteShow (hidle : Idle i s) :
    producers.Ensures (exec .admin) .admin i (fun b _ => Answers b) (deleteShow id) s := by
  unfold deleteShow
  cases parseObjectId id with
  | none => exact ensures_answer (answers_badRequest _)
  | some oid =>
      refine ensures_statement (fun _ _ => rfl) fun t hst ht l _ u r hex => ?_
      rcases answer_cases (Option.some.inj hex) with ⟨rfl, rfl⟩ | ⟨-, rfl, hr⟩
      · exact ⟨.refl ht, ensures_answer (answers_mongo trivial)⟩
      obtain ⟨hkeeps, hcases⟩ := keeps_begin_own (w := .softDelete oid t.now) ht (hidle.mono hst)
        trivial
      refine ⟨hkeeps, ?_⟩
      rcases hr with rfl | rfl
      · exact ensures_answer (answers_mongo trivial)
      rcases hcases with hbusy | ⟨hok, hown, -⟩
      · rw [hbusy]
        exact ensures_answer (answers_mongo (e := .writeConflict "shows") rfl)
      rw [hok]
      refine ensures_appendOutboxEvent hown rfl ?_ fun v a ha => ?_
      · exact if_neg (by decide)
      · cases a with
        | error e => exact ensures_answer (answers_error (ha e rfl))
        | ok _ => exact ensures_answer (answers_ok _)

end Handlers

end Admin

/-! ## The system -/

/-- What a session answers. -/
def Responds (_ : Role) (_ : ℕ) (b : Response) (_ : State) : Prop :=
  ∀ r, b = some r → Answers r

theorem ensures_respond {i : ℕ} {s : State} {p : Handler (Except AppError Json)}
    (h : producers.Ensures (exec .admin) .admin i (fun b _ => Answers b) p s) :
    producers.Ensures (exec .admin) .admin i (Responds .admin i) (respond p) s := by
  refine .bind (h.weaken fun b t hb => ?_)
  refine .ret fun _ _ _ r hr => ?_
  obtain rfl := Option.some.inj hr
  exact hb

/-- A worker that meets its contract alone meets it in the system. -/
theorem ensures_work {n : Role} {i : ℕ} {s : State} {p : Worker Unit}
    (h : workers.Ensures (workerExec n) n i (fun _ _ => True) p s) :
    producers.Ensures (exec n) n i (Responds n i) (work p) s := by
  have hrely : ∀ s t, producers.rely i s t → workers.rely i (id s) (id t) := fun _ _ h => h
  have hinv : ∀ s, producers.inv s → workers.inv (id s) := fun _ h => h
  have hkeep : ∀ s t, producers.rely i s t → True → True := fun _ _ _ h => h
  have hstep : ∀ c, True → ∀ l t u (r : Rep c), True → producers.inv t →
      producers.allowed n i l (.search c) t → exec n i l (.search c) t = some (u, r) →
      workers.allowed n i (id l) c (id t) ∧ workerExec n i (id l) c (id t) = some (id u, id r) ∧
        (workers.Honours n i (id t) (id u) → producers.Honours n i t u ∧ True) := by
    intro c _ l t u r _ _ hallowed hex
    exact ⟨hallowed, hex, fun hu => ⟨⟨hu.inv, trivial, hu.rely⟩, trivial⟩⟩
  have hissues : p.Issues fun _ => True := Prog.issues_of_forall p fun _ => trivial
  have hlift : producers.Ensures (exec n) n i (fun _ _ => True ∧ True)
      (p.hoist fun c => .call (Command.search c) fun r => .ret (id r)) s :=
    Contract.Ensures.hoist hrely hinv hkeep hstep hissues trivial h
  refine .bind (hlift.weaken fun _ t _ => ?_)
  refine .ret fun _ _ _ r hr => ?_
  cases hr

theorem inv_empty : Inv emptyState := by
  have hsettled : ∀ id, emptyState.Settled id := by
    intro id
    refine .inr ⟨fun r hr => absurd hr.mem List.not_mem_nil, ?_⟩
    rfl
  refine ⟨⟨List.nodup_nil, ?_, ?_, ?_, ?_, ?_⟩, ?_, le_rfl, fun id => .inl (hsettled id), ?_,
    fun _ => hsettled, ?_, List.Pairwise.nil⟩
  · exact fun r hr => absurd hr List.not_mem_nil
  · exact fun n hpos hle => absurd hpos (not_lt_of_ge hle)
  · exact fun n hn => absurd hn List.not_mem_nil
  · exact fun n hn => absurd hn List.not_mem_nil
  · exact fun n hn => absurd hn List.not_mem_nil
  · intro p c hc
    cases hc
  · exact fun r hr => absurd hr List.not_mem_nil
  · exact fun t ht => absurd ht List.not_mem_nil

/-- A session that starts has no transaction. -/
theorem idle_of_unstarted {i : ℕ} {s : State} (h : machine.Unstarted producers i s) : Idle i s := by
  obtain ⟨s₀, rfl, hrely⟩ := h
  intro t ht hsession
  exact absurd (hrely.transactions t ht hsession) List.not_mem_nil

theorem environ_meets {x : Environ} {s t : State} {new : List (Role × Handler Response)} (hs : Inv s)
    (houtlived : Outlived x s) (h : environ x s = some (t, new)) :
    Inv t ∧ (∀ j, Relies j s t) ∧
      ∀ i n p, (n, p) ∈ new → machine.Unstarted producers i t →
        producers.Ensures (exec n) n i (Responds n i) p t := by
  have hstart : ∀ {n : Role} {p : Handler Response},
      (∀ i, machine.Unstarted producers i s → producers.Ensures (exec n) n i (Responds n i) p s) →
      ∀ i m q, (m, q) ∈ [(n, p)] → machine.Unstarted producers i s →
        producers.Ensures (exec m) m i (Responds m i) q s := by
    intro n p hp i m q hmem hunstarted
    obtain ⟨rfl, rfl⟩ := Prod.mk.inj (List.mem_singleton.1 hmem)
    exact hp i hunstarted
  cases x with
  | tick d =>
      obtain ⟨rfl, rfl⟩ := Prod.mk.inj (Option.some.inj h)
      obtain ⟨hinv, hrely⟩ := keeps_tick d hs
      exact ⟨hinv, hrely, fun _ _ _ hq => absurd hq List.not_mem_nil⟩
  | create newId body =>
      obtain ⟨rfl, rfl⟩ := Prod.mk.inj (Option.some.inj h)
      refine ⟨hs, fun j => .refl j s, hstart fun i hi => ?_⟩
      exact ensures_respond (ensures_createShow (idle_of_unstarted hi))
  | update id body =>
      obtain ⟨rfl, rfl⟩ := Prod.mk.inj (Option.some.inj h)
      refine ⟨hs, fun j => .refl j s, hstart fun i hi => ?_⟩
      exact ensures_respond (ensures_updateShow (idle_of_unstarted hi))
  | delete id =>
      obtain ⟨rfl, rfl⟩ := Prod.mk.inj (Option.some.inj h)
      refine ⟨hs, fun j => .refl j s, hstart fun i hi => ?_⟩
      exact ensures_respond (ensures_deleteShow (idle_of_unstarted hi))
  | startCapture budgets =>
      obtain ⟨rfl, rfl⟩ := Prod.mk.inj (Option.some.inj h)
      exact ⟨hs, fun j => .refl j s, hstart fun _ _ => ensures_work ensures_watchSearchOutbox⟩
  | startIndexer rounds =>
      obtain ⟨rfl, rfl⟩ := Prod.mk.inj (Option.some.inj h)
      exact ⟨hs, fun j => .refl j s, hstart fun _ _ => ensures_work ensures_indexSearchOutbox⟩
  | abort i =>
      obtain ⟨rfl, rfl⟩ := Prod.mk.inj (Option.some.inj h)
      obtain ⟨hinv, hrely⟩ := keeps_abort i hs
      exact ⟨hinv, hrely, fun _ _ _ hq => absurd hq List.not_mem_nil⟩
  | expire n =>
      obtain ⟨rfl, rfl⟩ := Prod.mk.inj (Option.some.inj h)
      obtain ⟨hinv, hrely⟩ := keeps_expire hs houtlived
      exact ⟨hinv, hrely, fun _ _ _ hq => absurd hq List.not_mem_nil⟩

theorem fulfils_of_run {p : ProducerPool} (h : machine.system.ReachableUnder Orderly p) :
    machine.Fulfils producers Responds p := by
  have h : machine.system.ReachableUnder (Machine.Guarded producers.allowed Outlived) p := h
  refine Machine.ensures_of_reachable ?_ ?_ ?_ h
  · rintro s rfl
    exact inv_empty
  · intro x s t new hs houtlived hx
    exact environ_meets hs houtlived hx
  · intro i s hs
    have hkeeps := keeps_close i hs
    exact ⟨hkeeps.inv, hkeeps.others⟩

/-- Where handlers draw numbers one after the other and no row of the change capture is in their way,
where rows are filed above what is acknowledged, and acknowledged in the order of their numbers, and where
only acknowledged rows expire: no admin write fails because of the outbox, no event is skipped, and the
index of a drained outbox agrees with the show collection. -/
theorem index_converges (p : ProducerPool) (h : machine.system.ReachableUnder Orderly p) :
    NoWriteFails p ∧ NothingSkipped p.store ∧ (Drained p.store → Converged p.store) := by
  have hp := fulfils_of_run h
  refine ⟨fun i e he => ?_, hp.inv.numbered.kept, fun hdrained id => ?_⟩
  · unfold refusal at he
    split at he
    · next n e' hresult =>
      obtain rfl := Option.some.inj he
      exact hp.returned (Pool.result_eq_some.1 hresult) _ rfl _ rfl
    · cases he
  · have hcovered := hp.inv.covered id
    rcases hcovered with hsettled | ⟨q, c, hq, hc, -⟩
    · exact hsettled.drained hdrained.rows
    · rw [hdrained.changes] at hq
      exact absurd (List.getElem?_eq_some_iff.1 hc).1 (not_lt_of_ge hq)

/-! ### Runs on fixed inputs -/

instance {n : Role} {i : ℕ} {l : Link} {c : Command} {s : State} : Decidable (Permitted n i l c s) := by
  unfold Permitted
  split <;> infer_instance

instance {x : Environ} {s : State} : Decidable (Outlived x s) := by
  unfold Outlived
  split <;> infer_instance

instance {p : ProducerPool} {a : Act Link Environ} : Decidable (Orderly p a) :=
  inferInstanceAs (Decidable (Machine.Guarded _ _ p a))

instance {s : State} : Decidable (NothingSkipped s) :=
  inferInstanceAs (Decidable (∀ n ∈ s.filed, n ∈ s.acknowledged ∨
    ∃ r ∈ s.rows, r.event.sequence = n ∧ s.last < n))

def noSessions : ProducerPool := ⟨emptyState, []⟩

def otherShow : String := "65f000000000000000000002"

/-- Statements of a session that are answered. -/
def answered (i n : ℕ) : List (Act Link Environ) :=
  List.replicate n (.run i .ok)

/-- Two shows are created, and the first is deleted.  The change capture loses the answers to two of its
numbers, so that it files its second change under a number of its own. -/
def bothFile : List (Act Link Environ) :=
  [.environ (.create showId (titled "Night Concert"))] ++ answered 0 4 ++
    [.environ (.create otherShow (titled "Day Concert"))] ++ answered 1 4 ++
    [.environ (.delete showId)] ++ answered 2 4 ++
    [.environ (.startCapture [2, 1, 2])] ++ answered 3 10 ++ [.run 3 .unacked] ++ answered 3 5 ++
    [.run 3 .unacked] ++ answered 3 13 ++ [.environ (.startIndexer 5)] ++ answered 4 20

theorem index_converges_drained :
    ∃ p : ProducerPool,
      (p.store.rows.map (fun r => r.event.sequence) = [1, 2, 3, 4, 5] ∧ Drained p.store ∧
        p.store.index.map Prod.fst = [otherShow]) ∧
      NoWriteFails p ∧ NothingSkipped p.store ∧ Converged p.store := by
  obtain ⟨p, hp, h⟩ := System.exists_reachable_of_runUnder machine.system Orderly
    (fun p : ProducerPool => decide (p.store.rows.map (fun r => r.event.sequence) = [1, 2, 3, 4, 5] ∧
      (p.store.passed = p.store.changes.length ∧ ∀ r ∈ p.store.rows, r.event.sequence ≤ p.store.last) ∧
      p.store.index.map Prod.fst = [otherShow])) (s := noSessions) ⟨rfl, rfl⟩ bothFile
    (by decide +kernel)
  obtain ⟨hrows, ⟨hchanges, hlast⟩, hindex⟩ := of_decide_eq_true h
  have hdrained : Drained p.store := ⟨hchanges, hlast⟩
  obtain ⟨hwrites, hskipped, hconverged⟩ := index_converges p hp
  exact ⟨p, ⟨hrows, hdrained, hindex⟩, hwrites, hskipped, hconverged hdrained⟩

/-- A show is created; the change capture loses the answer to its first number and files the change under
the second, which the next handler draws. -/
def numberTaken : List (Act Link Environ) :=
  [.environ (.create showId (titled "Night Concert"))] ++ answered 0 4 ++
    [.environ (.startCapture [1, 1])] ++ answered 1 5 ++ [.run 1 .unacked] ++ answered 1 8 ++
    [.environ (.create otherShow (titled "Day Concert"))] ++ answered 2 3

/-- Two handlers are between their first statements and their commits. -/
def handlersOverlap : List (Act Link Environ) :=
  [.environ (.create showId (titled "Night Concert")),
      .environ (.create otherShow (titled "Day Concert"))] ++ answered 0 2 ++ answered 1 2

/-- The change capture loses the answers to two numbers; the row that it files under the third is
acknowledged before the handler of a deletion draws the second. -/
def filedBelow : List (Act Link Environ) :=
  [.environ (.create showId (titled "Night Concert"))] ++ answered 0 4 ++
    [.environ (.startCapture [1, 1, 1])] ++ answered 1 5 ++ [.run 1 .unacked] ++ answered 1 5 ++
    [.run 1 .unacked] ++ answered 1 8 ++ [.environ (.startIndexer 2)] ++ answered 2 8 ++
    [.environ (.delete showId)] ++ answered 3 4

theorem two_counters_collide :
    (∃ p : ProducerPool, machine.system.Reachable p ∧
      refusal p 2 = some (.internal (MongoError.duplicateKey "search_outbox_events").text) ∧
      ¬NoWriteFails p) ∧
    (∃ p : ProducerPool, machine.system.Reachable p ∧
      refusal p 1 = some (.internal (MongoError.writeConflict "search_outbox_lsn").text) ∧
      ¬NoWriteFails p) ∧
    ∃ p : ProducerPool, machine.system.Reachable p ∧ ¬NothingSkipped p.store := by
  refine ⟨?_, ?_, ?_⟩
  · obtain ⟨p, hp, h⟩ := System.exists_reachable_of_run machine.system
      (fun p : ProducerPool => decide (refusal p 2 =
        some (.internal (MongoError.duplicateKey "search_outbox_events").text))) (s := noSessions)
      ⟨rfl, rfl⟩ numberTaken (by decide +kernel)
    have h := of_decide_eq_true h
    exact ⟨p, hp, h, fun hno => hno 2 _ h (.inr rfl)⟩
  · obtain ⟨p, hp, h⟩ := System.exists_reachable_of_run machine.system
      (fun p : ProducerPool => decide (refusal p 1 =
        some (.internal (MongoError.writeConflict "search_outbox_lsn").text))) (s := noSessions)
      ⟨rfl, rfl⟩ handlersOverlap (by decide +kernel)
    have h := of_decide_eq_true h
    exact ⟨p, hp, h, fun hno => hno 1 _ h (.inl rfl)⟩
  · obtain ⟨p, hp, h⟩ := System.exists_reachable_of_run machine.system
      (fun p : ProducerPool => decide (¬NothingSkipped p.store)) (s := noSessions) ⟨rfl, rfl⟩
      filedBelow (by decide +kernel)
    exact ⟨p, hp, of_decide_eq_true h⟩

end Producers
end Search
end Bookit

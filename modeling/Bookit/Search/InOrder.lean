import Bookit.Search.Store
import Bookit.Lib.OrderedLog

/-!
# Search.InOrder — replicas append each change once, in order and without gaps

Looking a change up, drawing a sequence number, inserting and moving the checkpoint are separate
steps of any number of replicas.  The search outbox is an ordered log of the source all the same: a
replica that works on position `i` knows that all earlier positions are filed, and a sequence number
that it has drawn is above every filed one unless position `i` has been filed meanwhile, in which
case the insertion loses to the unique index.
-/

namespace Bookit
namespace Search

open Lib

/-- The outbox as a log of the source. -/
abbrev Ordered (log : List OutboxDocument) : Prop :=
  OrderedLog OutboxDocument.id OutboxDocument.sequence log

structure Inv (s : Store) : Prop where
  ordered : Ordered s.outbox
  /-- Every document is filed for the change at its position. -/
  filed : ∀ d ∈ s.outbox, ∃ c, s.source[d.id]? = some c ∧ d.showId = c.showId
  counted : ∀ d ∈ s.outbox, d.sequence ≤ s.counter
  /-- The checkpoint names a filed change, also after a slower replica has moved it back. -/
  checkpoint : ∀ t, s.checkpoint = some t → t < s.outbox.length
  claims : ∀ n ∈ s.claims, ∃ d ∈ s.outbox, d.sequence = n

/-- What every step keeps. -/
structure Evolves (s t : Store) : Prop where
  source : s.source <+: t.source
  outbox : s.outbox <+: t.outbox
  counter : s.counter ≤ t.counter

theorem Evolves.refl (s : Store) : Evolves s s :=
  ⟨List.prefix_rfl, List.prefix_rfl, le_refl _⟩

theorem Evolves.trans {s t u : Store} (hst : Evolves s t) (htu : Evolves t u) : Evolves s u :=
  ⟨hst.source.trans htu.source, hst.outbox.trans htu.outbox, hst.counter.trans htu.counter⟩

def contract : Contract Store Rep Unit Outcome where
  inv := Inv
  rely _ := Evolves
  guar _ _ _ := True
  allowed _ _ _ _ _ := True
  rely_refl _ := Evolves.refl
  rely_trans _ _ _ _ := Evolves.trans

/-! ## What a replica knows -/

/-- All changes before `position` are filed. -/
def Reached (position : ℕ) (s : Store) : Prop :=
  position ≤ s.outbox.length

theorem Reached.mono {position : ℕ} {s t : Store} (h : Reached position s) (hst : Evolves s t) :
    Reached position t :=
  le_trans h hst.outbox.length_le

/-- The change at `position` is one of show `showId`. -/
def Observed (position : ℕ) (showId : String) (s : Store) : Prop :=
  ∃ c, s.source[position]? = some c ∧ c.showId = showId

theorem Observed.mono {position : ℕ} {showId : String} {s t : Store}
    (h : Observed position showId s) (hst : Evolves s t) : Observed position showId t := by
  obtain ⟨c, hc, hid⟩ := h
  obtain ⟨hlt, rfl⟩ := List.getElem?_eq_some_iff.1 hc
  exact ⟨_, List.prefix_iff_getElem?.1 hst.source position hlt, hid⟩

/-- A sequence number drawn for `position` is above every filed one, unless `position` is filed. -/
structure Drawn (position sequence : ℕ) (s : Store) : Prop where
  counted : sequence ≤ s.counter
  fresh : position < s.outbox.length ∨ ∀ d ∈ s.outbox, d.sequence < sequence

theorem Drawn.mono {position sequence : ℕ} {s t : Store} (hr : Reached position s)
    (h : Drawn position sequence s) (hst : Evolves s t) : Drawn position sequence t := by
  refine ⟨h.counted.trans hst.counter, ?_⟩
  rcases Nat.lt_or_ge position t.outbox.length with hlt | hge
  · exact .inl hlt
  · -- nothing was appended, so the outbox is the one the number was compared with
    have hle : t.outbox.length ≤ s.outbox.length := hge.trans hr
    have heq : s.outbox = t.outbox := hst.outbox.eq_of_length_le hle
    rcases h.fresh with hlt | hall
    · exact absurd (heq ▸ hlt) (not_lt_of_ge hge)
    · exact .inr (heq ▸ hall)

/-! ## What the commands do -/

/-- A step within the contract. -/
structure Safe (s t : Store) : Prop where
  inv : Inv t
  evolves : Evolves s t

theorem Safe.refl {s : Store} (hs : Inv s) : Safe s s :=
  ⟨hs, .refl s⟩

theorem Safe.honours {n : Unit} {i : ℕ} {s t : Store} (h : Safe s t) :
    contract.Honours n i s t :=
  ⟨h.inv, trivial, fun _ _ => h.evolves⟩

theorem nextSequence_safe {s : Store} (hs : Inv s) :
    Safe s { s with counter := s.counter + 1 } :=
  ⟨⟨hs.ordered, hs.filed, fun d hd => Nat.le_succ_of_le (hs.counted d hd), hs.checkpoint,
    hs.claims⟩, List.prefix_rfl, List.prefix_rfl, Nat.le_succ _⟩

theorem drawn_nextSequence (position : ℕ) {s : Store} (hs : Inv s) :
    Drawn position (s.counter + 1) { s with counter := s.counter + 1 } :=
  ⟨le_refl _, .inr fun d hd => Nat.lt_succ_of_le (hs.counted d hd)⟩

theorem upsertCheckpoint_safe {s : Store} {token : ℕ} (hs : Inv s)
    (h : token < s.outbox.length) : Safe s { s with checkpoint := some token } := by
  refine ⟨⟨hs.ordered, hs.filed, hs.counted, ?_, hs.claims⟩, List.prefix_rfl, List.prefix_rfl,
    le_refl _⟩
  intro t ht
  cases ht
  exact h

theorem findCandidate_safe {s : Store} {last : ℕ} (hs : Inv s) :
    Safe s (execFindCandidate last s).1 := by
  refine ⟨⟨hs.ordered, hs.filed, hs.counted, hs.checkpoint, ?_⟩, List.prefix_rfl, List.prefix_rfl,
    le_refl _⟩
  intro n hn
  rcases List.mem_append.1 hn with h | h
  · exact hs.claims n h
  · obtain ⟨d, hd, rfl⟩ := Option.map_eq_some_iff.1 (Option.mem_toList.1 h)
    exact ⟨d, (List.mem_filter.1 (List.argmin_mem hd)).1, rfl⟩

/-- An insertion with a drawn sequence number is safe, and leaves its position filed: it either
appends the next position or loses to the document that has it. -/
theorem execInsert_safe {s : Store} {d : OutboxDocument} (hs : Inv s) (hr : Reached d.id s)
    (hd : Drawn d.id d.sequence s) (ho : Observed d.id d.showId s) :
    Safe s (execInsert d s).1 ∧ d.id < (execInsert d s).1.outbox.length := by
  unfold execInsert
  split_ifs with hdup
  · refine ⟨.refl hs, ?_⟩
    obtain ⟨e, he, heq⟩ := List.any_eq_true.1 hdup
    rcases of_decide_eq_true heq with hid | hseq
    · exact hs.ordered.exists_pos_iff.1 ⟨e, he, hid⟩
    · rcases hd.fresh with hlt | hall
      · exact hlt
      · exact absurd hseq (ne_of_lt (hall e he))
  · have hnot : ∀ e ∈ s.outbox, e.id ≠ d.id ∧ e.sequence ≠ d.sequence := by
      intro e he
      refine not_or.1 fun h => hdup (List.any_eq_true.2 ⟨e, he, decide_eq_true h⟩)
    have hlen : ¬ d.id < s.outbox.length := by
      intro hlt
      obtain ⟨e, he, hid⟩ := hs.ordered.exists_pos_iff.2 hlt
      exact (hnot e he).1 hid
    have hpos : d.id = s.outbox.length := le_antisymm hr (not_lt.1 hlen)
    have hall := hd.fresh.resolve_left hlen
    refine ⟨⟨⟨hs.ordered.append hpos hall, ?_, ?_, ?_, ?_⟩, List.prefix_rfl,
      List.prefix_append _ _, le_refl _⟩, by simp [hpos]⟩
    · intro e he
      rcases List.mem_append.1 he with h | h
      · exact hs.filed e h
      · obtain ⟨c, hc, hid⟩ := ho
        rw [List.mem_singleton.1 h]
        exact ⟨c, hc, hid.symm⟩
    · intro e he
      rcases List.mem_append.1 he with h | h
      · exact hs.counted e h
      · rw [List.mem_singleton.1 h]
        exact hd.counted
    · intro t ht
      have := hs.checkpoint t ht
      simp only [List.length_append, List.length_singleton]
      omega
    · intro n hn
      obtain ⟨e, he, hseq⟩ := hs.claims n hn
      exact ⟨e, List.mem_append_left _ he, hseq⟩

/-! ## What a worker ensures -/

section Worker

variable {n : Unit} {i : ℕ} {α : Type} {Q : α → Store → Prop} {s : Store}

/-- A command that only reads. -/
theorem honours_read {ρ : Type} {v : Store → ρ} {l : Link} {t u : Store} {r : Option ρ}
    (ht : Inv t) (h : l.deliver (fun s => (s, v s)) t = (u, r)) :
    u = t ∧ contract.Honours n i t u ∧ (r = none ∨ r = some (v t)) := by
  rcases Link.deliver_cases h with ⟨rfl, hr⟩ | ⟨rfl, hr⟩
  · exact ⟨rfl, (Safe.refl ht).honours, .inl hr⟩
  · exact ⟨rfl, (Safe.refl ht).honours, hr⟩

theorem ensures_advanceCheckpoint {event : SearchOutboxEvent} {f : Except String Unit → Worker α}
    (h : event.sourceResumeToken < s.outbox.length)
    (hf : ∀ t a, Evolves s t → contract.Ensures exec n i Q (f a) t) :
    contract.Ensures exec n i Q (advanceCheckpoint event >>= f) s := by
  intro t hst ht e _ u r hex
  have hlt : event.sourceResumeToken < t.outbox.length := h.trans_le hst.outbox.length_le
  have hsafe : Safe t u := by
    rcases Link.deliver_cases (Option.some.inj hex) with ⟨rfl, _⟩ | ⟨rfl, _⟩
    · exact .refl ht
    · exact upsertCheckpoint_safe ht hlt
  refine ⟨hsafe.honours, ?_⟩
  have hsu := hst.trans hsafe.evolves
  match r with
  | none => exact hf u _ hsu
  | some () => exact hf u _ hsu

/-- The hand-off of the change at a position whose predecessors are all filed: if it succeeds, the
position is filed. -/
theorem ensures_record {event : SearchOutboxEvent} {f : Except String Unit → Worker α}
    (hr : Reached event.sourceResumeToken s)
    (ho : Observed event.sourceResumeToken event.showId s)
    (hf : ∀ t a, Evolves s t → (a = .ok () → event.sourceResumeToken < t.outbox.length) →
      contract.Ensures exec n i Q (f a) t) :
    contract.Ensures exec n i Q (recordMongoOutboxEvent event >>= f) s := by
  -- moving the checkpoint, once the position is filed
  have hadvance : ∀ t, Evolves s t → event.sourceResumeToken < t.outbox.length →
      contract.Ensures exec n i Q (advanceCheckpoint event >>= f) t := by
    intro t hst hlt
    refine ensures_advanceCheckpoint hlt (fun u a htu => hf u a (hst.trans htu) fun _ => ?_)
    exact hlt.trans_le htu.outbox.length_le
  intro t hst ht e _ u r hex
  obtain ⟨rfl, hhon, hr₁⟩ := honours_read (n := n) (i := i) ht (Option.some.inj hex)
  refine ⟨hhon, ?_⟩
  match r with
  | none => exact hf u _ hst (fun h => by cases h)
  | some true =>
      have hany : u.outbox.any (fun d => decide (d.id = event.sourceResumeToken)) = true := by
        rcases hr₁ with h | h
        · cases h
        · exact (Option.some.inj h).symm
      obtain ⟨d, hd, hid⟩ := List.any_eq_true.1 hany
      exact hadvance u hst (ht.ordered.exists_pos_iff.1 ⟨d, hd, of_decide_eq_true hid⟩)
  | some false =>
      intro v huv hv e₂ _ w r₂ hex₂
      have hsv := hst.trans huv
      match e₂ with
      | ⟨.lost, _⟩ =>
          obtain ⟨rfl, rfl⟩ := Prod.mk.inj (Option.some.inj hex₂)
          exact ⟨(Safe.refl hv).honours, hf v _ hsv (fun h => by cases h)⟩
      | ⟨.unacked, _⟩ =>
          obtain ⟨rfl, rfl⟩ := Prod.mk.inj (Option.some.inj hex₂)
          have hsafe := nextSequence_safe hv
          exact ⟨hsafe.honours, hf _ _ (hsv.trans hsafe.evolves) (fun h => by cases h)⟩
      | ⟨.ok, _⟩ =>
          obtain ⟨rfl, rfl⟩ := Prod.mk.inj (Option.some.inj hex₂)
          have hsafe := nextSequence_safe hv
          refine ⟨hsafe.honours, ?_⟩
          have hreached := (hr.mono hsv).mono hsafe.evolves
          have hdrawn := drawn_nextSequence event.sourceResumeToken hv
          have hsw := hsv.trans hsafe.evolves
          intro x hwx hx e₃ _ y r₃ hex₃
          have hsx := hsw.trans hwx
          obtain ⟨hins, hfiled⟩ := execInsert_safe
            (d := outboxDocument event (v.counter + 1)) hx (hr.mono hsx)
            (hdrawn.mono hreached hwx) (ho.mono hsx)
          match e₃ with
          | ⟨.lost, _⟩ =>
              obtain ⟨rfl, rfl⟩ := Prod.mk.inj (Option.some.inj hex₃)
              exact ⟨(Safe.refl hx).honours, hf _ _ hsx (fun h => by cases h)⟩
          | ⟨.unacked, _⟩ =>
              obtain ⟨rfl, rfl⟩ := Prod.mk.inj (Option.some.inj hex₃)
              exact ⟨hins.honours, hf _ _ (hsx.trans hins.evolves) (fun h => by cases h)⟩
          | ⟨.ok, _⟩ =>
              obtain ⟨rfl, rfl⟩ := Prod.mk.inj (Option.some.inj hex₃)
              refine ⟨hins.honours, ?_⟩
              have hnext := hadvance _ (hsx.trans hins.evolves) hfiled
              cases (execInsert (outboxDocument event (v.counter + 1)) x).2 with
              | ok _ => exact hnext
              | error err =>
                  cases err
                  exact hnext

theorem changeToOutboxEvent_ok {operation showId : String} {token : ℕ} {doc : Option Json}
    {event : SearchOutboxEvent} (h : changeToOutboxEvent operation showId token doc = .ok event) :
    event.sourceResumeToken = token ∧ event.showId = showId := by
  unfold changeToOutboxEvent at h
  split_ifs at h
  · cases h
    exact ⟨rfl, rfl⟩
  · split at h
    · cases h
    · split_ifs at h
      · cases h
        exact ⟨rfl, rfl⟩
      · simp only at h
        split_ifs at h
        cases h
        exact ⟨rfl, rfl⟩

theorem ensures_recordChange {position : ℕ} {change : Change} (doc : Option Json)
    {f : Except String Unit → Worker α} (hr : Reached position s)
    (ho : Observed position change.showId s)
    (hf : ∀ t a, Evolves s t → (a = .ok () → position < t.outbox.length) →
      contract.Ensures exec n i Q (f a) t) :
    contract.Ensures exec n i Q (recordChange position change doc >>= f) s := by
  unfold recordChange
  cases hev : changeToOutboxEvent change.operationType change.showId position doc with
  | error e => exact hf s _ (.refl s) (fun h => by cases h)
  | ok event =>
      obtain ⟨rfl, hid⟩ := changeToOutboxEvent_ok hev
      exact ensures_record hr (hid ▸ ho) hf

/-- The stream loop from a reached position, by induction on its budget. -/
theorem ensures_watchStream {budget position : ℕ} {f : Unit → Worker α}
    (hr : Reached position s) (hf : ∀ t, contract.Ensures exec n i Q (f ()) t) :
    contract.Ensures exec n i Q (watchStream position budget >>= f) s := by
  induction budget generalizing position s with
  | zero => exact hf s
  | succ budget ih =>
      intro t hst ht e _ u r hex
      simp only [exec] at hex
      split at hex
      · next change hchange =>
        obtain ⟨rfl, hhon, hr₁⟩ := honours_read (n := n) (i := i) ht (Option.some.inj hex)
        refine ⟨hhon, ?_⟩
        rcases hr₁ with rfl | rfl
        · exact hf u
        · have hobs : Observed position change.showId u := ⟨change, hchange, rfl⟩
          show contract.Ensures exec n i Q (recordChange position change e.lookup >>= _ >>= f) u
          rw [Prog.bind_assoc]
          refine ensures_recordChange e.lookup (hr.mono hst) hobs fun v a _ hok => ?_
          cases a with
          | error _ => exact hf v
          | ok _ => exact ih (hok rfl)
      · cases hex

/-- The worker's loop meets the contract, by induction on its connections. -/
theorem ensures_watchSearchOutbox {budgets : List ℕ} :
    contract.Ensures exec n i (fun _ _ => True) (watchSearchOutbox budgets) s := by
  induction budgets generalizing s with
  | nil => exact Contract.Ensures.ret fun _ _ _ => trivial
  | cons budget budgets ih =>
      intro t _ ht e _ u r hex
      obtain ⟨rfl, hhon, -⟩ := honours_read (n := n) (i := i) ht (Option.some.inj hex)
      refine ⟨hhon, ?_⟩
      match r with
      | none => exact ih
      | some () =>
          intro v _ hv e₂ _ w r₂ hex₂
          obtain ⟨rfl, hhon₂, hr₂⟩ := honours_read (n := n) (i := i) hv (Option.some.inj hex₂)
          refine ⟨hhon₂, ?_⟩
          match r₂ with
          | none => exact ih
          | some token =>
              have htoken : w.checkpoint = token := by
                rcases hr₂ with h | h
                · cases h
                · exact (Option.some.inj h).symm
              intro x hwx hx e₃ _ y r₃ hex₃
              obtain ⟨rfl, hhon₃, -⟩ := honours_read (n := n) (i := i) hx (Option.some.inj hex₃)
              refine ⟨hhon₃, ?_⟩
              match r₃ with
              | none => exact ih
              | some () =>
                  refine ensures_watchStream ?_ (fun _ => ih)
                  cases token with
                  | none => exact Nat.zero_le _
                  | some k => exact (hv.checkpoint k htoken).trans_le hwx.outbox.length_le

theorem ensures_claimNext {f : Except String (Option OutboxDocument) → Worker α}
    (hf : ∀ t a, contract.Ensures exec n i Q (f a) t) :
    contract.Ensures exec n i Q (claimNext >>= f) s := by
  intro t _ ht e _ u r hex
  obtain ⟨rfl, hhon, -⟩ := honours_read (n := n) (i := i) ht (Option.some.inj hex)
  refine ⟨hhon, ?_⟩
  match r with
  | none => exact hf u _
  | some checkpoint =>
      intro v _ hv e₂ _ w r₂ hex₂
      have hsafe : Safe v w := by
        rcases Link.deliver_cases (Option.some.inj hex₂) with ⟨rfl, _⟩ | ⟨rfl, _⟩
        · exact .refl hv
        · exact findCandidate_safe hv
      refine ⟨hsafe.honours, ?_⟩
      match r₂ with
      | none => exact hf w _
      | some _ => exact hf w _

/-- A command that writes neither the outbox nor what the invariant reads. -/
theorem honours_frame {run : Store → Store × Unit} {l : Link} {t u : Store} {r : Option Unit}
    (ht : Inv t) (hrun : Safe t (run t).1) (h : l.deliver run t = (u, r)) :
    contract.Honours n i t u := by
  rcases Link.deliver_cases h with ⟨rfl, _⟩ | ⟨rfl, _⟩
  · exact (Safe.refl ht).honours
  · exact hrun.honours

theorem Safe.frame {t : Store} (ht : Inv t) (index : List (String × Json))
    (lastSequence : Option ℕ) :
    Safe t { t with index := index, lastSequence := lastSequence } :=
  ⟨⟨ht.ordered, ht.filed, ht.counted, ht.checkpoint, ht.claims⟩, List.prefix_rfl, List.prefix_rfl,
    le_refl _⟩

theorem ensures_applyEvent {event : OutboxDocument} {f : Except String Unit → Worker α}
    (hf : ∀ t a, contract.Ensures exec n i Q (f a) t) :
    contract.Ensures exec n i Q (applyEvent event >>= f) s := by
  unfold applyEvent
  split_ifs
  · cases event.document with
    | none => exact hf s _
    | some document =>
        intro t _ ht e _ u r hex
        refine ⟨honours_frame ht (Safe.frame ht _ _) (Option.some.inj hex), ?_⟩
        match r with
        | none => exact hf u _
        | some () => exact hf u _
  · intro t _ ht e _ u r hex
    refine ⟨honours_frame ht (Safe.frame ht _ _) (Option.some.inj hex), ?_⟩
    match r with
    | none => exact hf u _
    | some () => exact hf u _
  · exact hf s _

theorem ensures_markIndexed {event : OutboxDocument} {f : Except String Unit → Worker α}
    (hf : ∀ t a, contract.Ensures exec n i Q (f a) t) :
    contract.Ensures exec n i Q (markIndexed event >>= f) s := by
  intro t _ ht e _ u r hex
  refine ⟨honours_frame ht (Safe.frame ht _ _) (Option.some.inj hex), ?_⟩
  match r with
  | none => exact hf u _
  | some () => exact hf u _

/-- The indexing loop meets the contract, by induction on the passes left. -/
theorem ensures_indexSearchOutbox {rounds : ℕ} :
    contract.Ensures exec n i (fun _ _ => True) (indexSearchOutbox rounds) s := by
  induction rounds generalizing s with
  | zero => exact Contract.Ensures.ret fun _ _ _ => trivial
  | succ rounds ih =>
      refine ensures_claimNext fun t a => ?_
      match a with
      | .error _ => exact ih
      | .ok none => exact ih
      | .ok (some event) =>
          refine ensures_applyEvent fun u b => ?_
          match b with
          | .error _ => exact ih
          | .ok () => exact ensures_markIndexed fun _ _ => ih

end Worker

/-! ## The system -/

theorem environ_safe {x : Environ} {s t : Store} {ts : List (Unit × Worker Unit)} (hs : Inv s)
    (h : environ x s = some (t, ts)) : Safe s t := by
  cases x with
  | change c =>
      obtain ⟨rfl, -⟩ := Prod.mk.inj (Option.some.inj h)
      refine ⟨⟨hs.ordered, fun d hd => ?_, hs.counted, hs.checkpoint, hs.claims⟩,
        List.prefix_append _ _, List.prefix_rfl, le_refl _⟩
      obtain ⟨c', hc', hid⟩ := hs.filed d hd
      obtain ⟨hlt, rfl⟩ := List.getElem?_eq_some_iff.1 hc'
      exact ⟨_, List.prefix_iff_getElem?.1 (List.prefix_append _ _) _ hlt, hid⟩
  | startReplica budgets =>
      obtain ⟨rfl, -⟩ := Prod.mk.inj (Option.some.inj h)
      exact .refl hs
  | startIndexer rounds =>
      obtain ⟨rfl, -⟩ := Prod.mk.inj (Option.some.inj h)
      exact .refl hs

theorem environ_ensures {x : Environ} {s t : Store} {ts : List (Unit × Worker Unit)}
    (h : environ x s = some (t, ts)) {n : Unit} {i : ℕ} {p : Worker Unit} (hp : (n, p) ∈ ts) :
    contract.Ensures exec n i (fun _ _ => True) p t := by
  cases x with
  | change c =>
      obtain ⟨-, rfl⟩ := Prod.mk.inj (Option.some.inj h)
      cases hp
  | startReplica budgets =>
      obtain ⟨-, rfl⟩ := Prod.mk.inj (Option.some.inj h)
      obtain ⟨-, rfl⟩ := Prod.mk.inj (List.mem_singleton.1 hp)
      exact ensures_watchSearchOutbox
  | startIndexer rounds =>
      obtain ⟨-, rfl⟩ := Prod.mk.inj (Option.some.inj h)
      obtain ⟨-, rfl⟩ := Prod.mk.inj (List.mem_singleton.1 hp)
      exact ensures_indexSearchOutbox

theorem inv_empty : Inv emptyStore := by
  refine ⟨.nil, ?_, ?_, ?_, ?_⟩ <;> simp [emptyStore]

theorem fulfils_of_reachable {p : Pool Store Rep Unit Unit} (h : machine.system.Reachable p) :
    machine.Fulfils contract (fun _ _ _ _ => True) p := by
  refine Machine.ensures_of_reachable ?_ ?_ ?_
    (Machine.reachable_guarded (fun _ _ _ _ _ => trivial) h)
  · rintro s rfl
    exact inv_empty
  · intro x s t ts hs _ hx
    have hsafe := environ_safe hs hx
    exact ⟨hsafe.inv, fun _ => hsafe.evolves, fun i n q hq _ => environ_ensures hx hq⟩
  · exact fun i s hs => ⟨hs, fun _ _ => .refl s⟩

/-- Every step of a reachable pool only extends the source and the outbox. -/
theorem evolves_of_step {p q : Pool Store Rep Unit Unit} {a : Act Outcome Environ}
    (hp : machine.Fulfils contract (fun _ _ _ _ => True) p)
    (h : machine.step p a = some q) : Evolves p.store q.store := by
  cases a with
  | environ x =>
      obtain ⟨s, ts, hs, rfl⟩ := Machine.step_environ h
      exact (environ_safe hp.inv hs).evolves
  | run i e =>
      obtain ⟨n, c, k, s, r, ht, hs, rfl⟩ := Machine.step_run h
      exact ((hp.threads i n _ ht).exec_step hp.inv trivial hs).1.rely (i + 1) (Nat.succ_ne_self i)
  | crash i =>
      obtain ⟨n, c, k, ht, rfl⟩ := Machine.step_crash h
      exact .refl p.store

/-- Every change is filed at most once, the sequence numbers of the filed changes are in source
order, no change before a filed one is missing, and what is filed after a consumer has claimed a
sequence has a greater one. -/
theorem changes_appended_in_order {p : Pool Store Rep Unit Unit}
    (h : machine.system.Reachable p) :
    (p.store.outbox.map OutboxDocument.id).Nodup ∧
    (∀ d ∈ p.store.outbox, ∃ c, p.store.source[d.id]? = some c ∧ d.showId = c.showId) ∧
    (∀ d ∈ p.store.outbox, ∀ e ∈ p.store.outbox, d.sequence < e.sequence ↔ d.id < e.id) ∧
    (∀ d ∈ p.store.outbox, ∀ i < d.id, ∃ e ∈ p.store.outbox, e.id = i) ∧
    (∀ a q, machine.step p a = some q → ∀ e ∈ q.store.outbox, e ∉ p.store.outbox →
      ∀ n ∈ p.store.claims, n < e.sequence) := by
  have hp := fulfils_of_reachable h
  refine ⟨hp.1.ordered.nodup, hp.1.filed, fun d hd e he => hp.1.ordered.stamp_lt_iff hd he,
    fun d hd i hi => hp.1.ordered.exists_pos_of_lt hd hi, ?_⟩
  intro a q hstep e he hne n hn
  have hq := fulfils_of_reachable (.step h trivial hstep)
  obtain ⟨d, hd, rfl⟩ := hp.1.claims n hn
  exact hq.1.ordered.stamp_lt_of_prefix (evolves_of_step hp hstep).outbox hd he hne

/-- The rule at a race: two replicas draw `1` and `2` for one change, and the one that drew `2` files
it first. -/
theorem changes_appended_in_order_race :
    ∃ p, machine.system.Reachable p ∧
      (p.store.outbox.map OutboxDocument.sequence == [2]) = true ∧
      (p.store.outbox.map OutboxDocument.id).Nodup := by
  let answered : Outcome := ⟨.ok, some (.obj [("title", .str "Night Concert")])⟩
  obtain ⟨p, hp, hseq⟩ := System.exists_reachable_of_run machine.system
    (fun p => p.store.outbox.map OutboxDocument.sequence == [2]) (s := ⟨emptyStore, []⟩) ⟨rfl, rfl⟩
    ([.environ (.change ⟨"insert", "65f1"⟩), .environ (.startReplica [1]),
        .environ (.startReplica [1])] ++
      List.replicate 6 (.run 0 answered) ++ List.replicate 7 (.run 1 answered) ++
      [.run 0 answered]) (by decide)
  exact ⟨p, hp, hseq, (changes_appended_in_order hp).1⟩

end Search
end Bookit

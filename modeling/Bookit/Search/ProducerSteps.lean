import Bookit.Search.ProducerInvariant

/-!
# Search.ProducerSteps — rows are filed, applied and removed

A transaction files its row under the next number of the admin API, the change capture files one
under a number of its own, the indexing worker applies and acknowledges rows, and acknowledged
rows expire.
-/

namespace Bookit
namespace Search
namespace Producers

open Lib

/-! ## Filing -/

section Filing

variable {s t : State} {i : ℕ} {r : Row}

/-- A number up to which the admin API has drawn, and that no row has, is one that is acknowledged. -/
theorem Numbered.le_last {n : ℕ} (hs : Numbered s) (hpos : 0 < n) (hle : n ≤ s.lsn)
    (hfree : ∀ r ∈ s.rows, r.event.sequence ≠ n) : n ≤ s.last := by
  rcases hs.kept n (hs.drawn n hpos hle) with hack | ⟨r, hr, hseq, -⟩
  · exact hs.acknowledged n hack
  · exact absurd hseq (hfree r hr)

/-- A number that no row has, and that is not acknowledged, has not been filed. -/
theorem Numbered.ne_of_filed {n m : ℕ} (hs : Numbered s) (hfree : ∀ r ∈ s.rows, r.event.sequence ≠ n)
    (habove : s.last < n) (hm : m ∈ s.filed) : m ≠ n := by
  rintro rfl
  rcases hs.kept m hm with hack | ⟨r, hr, heq, -⟩
  · exact absurd (hs.acknowledged m hack) (not_le_of_gt habove)
  · exact hfree r hr heq

/-- A step that files a row under a number above the acknowledged ones that no row has. -/
structure Files (r : Row) (s t : State) : Prop where
  rows : t.rows = s.rows ++ [r]
  filed : t.filed = s.filed ++ [r.event.sequence]
  lastSequence : t.lastSequence = s.lastSequence
  acknowledged : t.acknowledged = s.acknowledged
  index : t.index = s.index
  changes : s.changes <+: t.changes
  free : ∀ r' ∈ s.rows, r'.event.sequence ≠ r.event.sequence
  above : s.last < r.event.sequence

namespace Files

theorem last (h : Files r s t) : t.last = s.last :=
  congrArg (·.getD 0) h.lastSequence

theorem mem_rows (h : Files r s t) {r' : Row} : r' ∈ t.rows ↔ r' ∈ s.rows ∨ r' = r := by
  rw [h.rows, List.mem_append, List.mem_singleton]

theorem mem_filed (h : Files r s t) {n : ℕ} : n ∈ t.filed ↔ n ∈ s.filed ∨ n = r.event.sequence := by
  rw [h.filed, List.mem_append, List.mem_singleton]

theorem numbered (h : Files r s t) (hs : Numbered s)
    (hdrawn : ∀ n, 0 < n → n ≤ t.lsn → n ∈ s.filed ∨ n = r.event.sequence)
    (hcounted : ∀ n, n ∈ s.filed ∨ n = r.event.sequence → t.lsn < n → n ≤ t.counter) :
    Numbered t := by
  refine ⟨?_, ?_, ?_, ?_, ?_, ?_⟩
  · rw [h.rows, List.map_append]
    refine List.nodup_append'.2 ⟨hs.distinct, List.nodup_singleton _, ?_⟩
    intro n hn hn'
    obtain ⟨r', hr', rfl⟩ := List.mem_map.1 hn
    exact h.free r' hr' (List.mem_singleton.1 hn')
  · intro r' hr'
    rcases h.mem_rows.1 hr' with hr' | rfl
    · exact h.mem_filed.2 (.inl (hs.filed r' hr'))
    · exact h.mem_filed.2 (.inr rfl)
  · intro n hpos hle
    exact h.mem_filed.2 (hdrawn n hpos hle)
  · intro n hn hlt
    exact hcounted n (h.mem_filed.1 hn) hlt
  · intro n hn
    rw [h.acknowledged, h.last]
    rcases h.mem_filed.1 hn with hn | rfl
    · rcases hs.kept n hn with hack | ⟨r', hr', hseq, hlt⟩
      · exact .inl hack
      · exact .inr ⟨r', h.mem_rows.2 (.inl hr'), hseq, hlt⟩
    · exact .inr ⟨r, h.mem_rows.2 (.inr rfl), rfl, h.above⟩
  · intro n hn
    rw [h.last]
    exact hs.acknowledged n (h.acknowledged ▸ hn)

/-- The row may be anywhere among those that are still to be applied, if it says what its show says. -/
theorem settled (h : Files r s t) {id : String} (hs : s.Settled id) (hlive : t.live id = s.live id)
    (htells : r.event.showId = id → Tells (t.live id) r.content) : t.Settled id := by
  have hindexed : t.indexed = s.indexed := by
    unfold State.indexed
    rw [h.index]
  have hs : Feed.Settled (fun r : Row => r.event.sequence) (fun r => r.event.showId) Row.content
      s.rows s.last s.indexed (Tells (t.live id)) id := by
    rw [hlive]
    exact hs
  unfold State.Settled
  rw [h.rows, h.last, hindexed]
  exact hs.append h.above htells

/-- A row above all others settles its show. -/
theorem settled_top (h : Files r s t) (htop : ∀ r' ∈ s.rows, r'.event.sequence ≤ r.event.sequence)
    (htells : Tells (t.live r.event.showId) r.content) : t.Settled r.event.showId := by
  unfold State.Settled
  rw [h.rows, h.last]
  exact Feed.settled_append_top h.above rfl htop htells

/-- An indexing worker finds the rows that it has found. -/
theorem indexes (h : Files r s t) (hindexing : t.indexing = s.indexing) : Indexes s t :=
  ⟨hindexing, h.lastSequence, h.index, fun _ hr _ => h.mem_rows.2 (.inl hr)⟩

end Files

end Filing

/-! ### The admin API -/

section Commit

variable {s : State} {i : ℕ} {t : Transaction} {d : OutboxDocument}

/-- The state after a transaction. -/
theorem commit_shows (hfresh : t.write.Fresh s.catalogue) (id : String) :
    (s.commit t).catalogue.find id =
      if id = t.write.showId then t.write.after (s.catalogue.find id) else s.catalogue.find id :=
  ShowWrite.find_apply hfresh id

theorem live_commit_of_ne (hfresh : t.write.Fresh s.catalogue) {id : String}
    (hne : id ≠ t.write.showId) : (s.commit t).live id = s.live id := by
  unfold State.live
  rw [commit_shows hfresh, if_neg hne]

theorem live_commit_self (hfresh : t.write.Fresh s.catalogue) :
    (s.commit t).live t.write.showId = t.write.shown s := by
  unfold State.live ShowWrite.shown
  rw [commit_shows hfresh, if_pos rfl]

theorem changes_grow (hfresh : t.write.Fresh s.catalogue) :
    s.changes <+: (s.commit t).changes := by
  rcases ShowWrite.apply_changes hfresh with ⟨hsame, -⟩ | ⟨c, hc, -⟩
  · have hsame : (s.commit t).changes = s.changes := hsame
    exact hsame.symm ▸ List.prefix_rfl
  · have hc : (s.commit t).changes = s.changes ++ [c] := hc
    rw [hc]
    exact List.prefix_append _ _

/-- A transaction that changes its show leaves a change of it. -/
theorem owed_or_same (hfresh : t.write.Fresh s.catalogue) :
    (s.commit t).Owed s.changes.length t.write.showId ∨
      ((s.commit t).changes = s.changes ∧
        (s.commit t).catalogue.find t.write.showId = s.catalogue.find t.write.showId) := by
  rcases ShowWrite.apply_changes hfresh with hsame | ⟨c, hc, hid, -⟩
  · exact .inr hsame
  · refine .inl ⟨s.changes.length, c, le_rfl, ?_, hid⟩
    have hchanges : (s.commit t).changes = s.changes ++ [c] := hc
    rw [hchanges]
    exact List.getElem?_concat_length ..

theorem reported_commit (hs : ∀ p c, s.changes[p]? = some c → Reported s p c)
    (hfresh : t.write.Fresh s.catalogue) :
    ∀ p c, (s.commit t).changes[p]? = some c → Reported (s.commit t) p c := by
  have hold : ∀ p c, s.changes[p]? = some c → Reported (s.commit t) p c := by
    intro p c hc
    obtain ⟨hop, h⟩ := hs p c hc
    refine ⟨hop, ?_⟩
    have hlt : p < s.changes.length := (List.getElem?_eq_some_iff.1 hc).1
    rcases h with howed | hupdate | ⟨hsome, hdoc⟩
    · exact .inl (howed.mono le_rfl (changes_grow hfresh))
    · exact .inr (.inl hupdate)
    · by_cases hid : c.showId = t.write.showId
      · rcases owed_or_same hfresh with howed | ⟨-, hfind⟩
        · exact .inl (hid ▸ howed.mono hlt List.prefix_rfl)
        · exact .inr (.inr ⟨hsome, by rw [hdoc, hid, hfind]⟩)
      · refine .inr (.inr ⟨hsome, ?_⟩)
        rw [commit_shows hfresh, if_neg hid, hdoc]
  intro p c hc
  rcases ShowWrite.apply_changes hfresh with ⟨hsame, -⟩ | ⟨c', hc', hid, hop, h⟩
  · have hsame : (s.commit t).changes = s.changes := hsame
    exact hold p c (hsame ▸ hc)
  · have hc' : (s.commit t).changes = s.changes ++ [c'] := hc'
    rw [hc', List.getElem?_append] at hc
    split_ifs at hc with hlt
    · exact hold p c hc
    · obtain rfl : c' = c := by
        have hmem := List.mem_of_getElem? hc
        exact (List.mem_singleton.1 hmem).symm
      refine ⟨hop, ?_⟩
      rcases h with hupdate | ⟨hsome, hdoc⟩
      · exact .inr (.inl hupdate)
      · exact .inr (.inr ⟨hsome, hid ▸ hdoc⟩)

/-- A transaction that has done all its statements, at its commit. -/
structure Committing (s : State) (i : ℕ) (t : Transaction) (d : OutboxDocument) : Prop where
  inv : Inv s
  mem : t ∈ s.transactions
  session : t.session = i
  event : t.event = some d
  above : s.last < d.sequence

namespace Committing

theorem fresh (h : Committing s i t d) : t.write.Fresh s.catalogue :=
  (h.inv.underway t h.mem).fresh

theorem drawn (h : Committing s i t d) : t.sequence = some d.sequence :=
  ((h.inv.underway t h.mem).event d h.event).1

theorem sequence_eq (h : Committing s i t d) : d.sequence = s.lsn + 1 :=
  (h.inv.underway t h.mem).sequence _ h.drawn

theorem showId_eq (h : Committing s i t d) : d.showId = t.write.showId :=
  ((h.inv.underway t h.mem).event d h.event).2.1

theorem free (h : Committing s i t d) : ∀ r ∈ s.rows, r.event.sequence ≠ d.sequence :=
  ((h.inv.underway t h.mem).event d h.event).2.2.1

/-- The row says what the show says after the commit. -/
theorem tells (h : Committing s i t d) :
    Tells ((s.commit t).live d.showId) (Row.mk .adminApi d).content := by
  rw [h.showId_eq, live_commit_self h.fresh]
  exact ((h.inv.underway t h.mem).event d h.event).2.2.2

theorem lsn_eq (h : Committing s i t d) : (s.commit t).lsn = d.sequence := by
  simp only [State.commit, h.drawn, Option.getD_some]

theorem files (h : Committing s i t d) : Files ⟨.adminApi, d⟩ s (s.commit t) := by
  refine ⟨?_, ?_, rfl, rfl, rfl, changes_grow h.fresh, h.free, h.above⟩
  · simp only [State.commit, h.event, Option.map_some, Option.toList_some]
  · simp only [State.commit, h.event, Option.map_some, Option.toList_some]

theorem numbered (h : Committing s i t d) : Numbered (s.commit t) := by
  have hseq := h.sequence_eq
  refine h.files.numbered h.inv.numbered ?_ ?_
  · intro n hpos hle
    rw [h.lsn_eq, hseq] at hle
    rcases Nat.le_succ_iff.1 hle with hle | heq
    · exact .inl (h.inv.numbered.drawn n hpos hle)
    · exact .inr (heq.trans hseq.symm)
  · intro n hn hlt
    rw [h.lsn_eq] at hlt
    rcases hn with hn | heq
    · refine h.inv.numbered.counted n hn ?_
      omega
    · exact absurd heq hlt.ne'

/-- A show that the transaction leaves as it is stays settled. -/
theorem settled (h : Committing s i t d) {id : String} (hs : s.Settled id)
    (hsame : id = t.write.showId → (s.commit t).catalogue.find id = s.catalogue.find id) :
    (s.commit t).Settled id := by
  refine h.files.settled hs ?_ fun heq => heq ▸ h.tells
  by_cases heq : id = t.write.showId
  · unfold State.live
    rw [hsame heq]
  · exact live_commit_of_ne h.fresh heq

/-- What was covered is, the change of the transaction being at the end of the stream. -/
theorem covered (h : Committing s i t d) {q : ℕ} (hq : q ≤ s.changes.length) (hs : s.Covered q) :
    (s.commit t).Covered q := by
  intro id
  rcases hs id with hsettled | howed
  · by_cases heq : id = t.write.showId
    · rcases owed_or_same h.fresh with howed | ⟨-, hfind⟩
      · exact .inr (heq ▸ howed.mono hq List.prefix_rfl)
      · exact .inl (h.settled hsettled fun _ => heq ▸ hfind)
    · exact .inl (h.settled hsettled fun h => absurd h heq)
  · exact .inr (howed.mono le_rfl h.files.changes)

/-- Where the change capture is behind, the row of the transaction is above all others. -/
theorem settled_of_behind (h : Committing s i t d) (hbehind : (s.commit t).Behind) (id : String) :
    (s.commit t).Settled id := by
  have hseq := h.sequence_eq
  have hle : ∀ n ∈ s.filed, n ≤ s.lsn := by
    intro n hn
    have hle := hbehind n (h.files.mem_filed.2 (.inl hn))
    have hne := h.inv.numbered.ne_of_filed h.free h.above hn
    rw [h.lsn_eq] at hle
    omega
  by_cases heq : id = t.write.showId
  · rw [heq, ← h.showId_eq]
    refine h.files.settled_top (fun r hr => ?_) h.tells
    have hle := hle _ (h.inv.numbered.filed r hr)
    show r.event.sequence ≤ d.sequence
    omega
  · exact h.settled (h.inv.settled hle id) fun h => absurd h heq

/-- The other transactions are of other shows and have drawn no number. -/
theorem others (h : Committing s i t d) {u : Transaction} (hu : u ∈ s.transactions)
    (hne : u.session ≠ i) : u.sequence = none ∧ u.write.showId ≠ t.write.showId := by
  have hne : t ≠ u := by
    rintro rfl
    exact hne h.session
  obtain ⟨-, hid, hseq⟩ : Apart t u := h.inv.apart.forall h.mem hu hne
  refine ⟨?_, hid.symm⟩
  rcases hseq with hseq | hseq
  · rw [h.drawn] at hseq
    cases hseq
  · exact hseq

theorem underway (h : Committing s i t d) {u : Transaction} (hu : u ∈ s.transactions)
    (hne : u.session ≠ i) : Underway (s.commit t) u := by
  obtain ⟨hnone, hid⟩ := h.others hu hne
  have hold := h.inv.underway u hu
  refine ⟨?_, ?_, ?_⟩
  · have hfresh := hold.fresh
    revert hfresh hid
    cases u.write with
    | insert id e =>
        intro hid hfresh
        have hid : id ≠ t.write.showId := hid
        show (s.commit t).catalogue.find id = none
        rw [commit_shows h.fresh, if_neg hid]
        exact hfresh
    | replace id e => exact fun _ _ => trivial
    | softDelete id time => exact fun _ _ => trivial
  · intro n hn
    rw [hnone] at hn
    cases hn
  · intro e he
    obtain ⟨hsome, -⟩ := hold.event e he
    rw [hnone] at hsome
    cases hsome

theorem inv_commit (h : Committing s i t d) : Inv ((s.commit t).abort i) := by
  have hnumbered := h.numbered
  refine ⟨⟨hnumbered.distinct, hnumbered.filed, hnumbered.drawn, hnumbered.counted, hnumbered.kept,
    hnumbered.acknowledged⟩, reported_commit h.inv.reported h.fresh,
    h.inv.passed.trans h.files.changes.length_le, h.covered h.inv.passed h.inv.covered, ?_,
    h.settled_of_behind, ?_, h.inv.apart.sublist List.filter_sublist⟩
  · intro r hr hproducer
    rcases h.files.mem_rows.1 hr with hr | rfl
    · obtain ⟨hle, hlt, hcov⟩ := h.inv.captured r hr hproducer
      exact ⟨hle, hlt.trans_le h.files.changes.length_le, h.covered hlt hcov⟩
    · cases hproducer
  · intro u hu
    obtain ⟨hu, hne⟩ := mem_abort hu
    have hunderway := h.underway hu hne
    exact ⟨hunderway.fresh, hunderway.sequence, hunderway.event⟩

/-- The admin API files the row of a transaction. -/
theorem keeps (h : Committing s i t d) : Keeps i s ((s.commit t).abort i) := by
  have hseq := h.sequence_eq
  refine ⟨h.inv_commit, fun j hj => ⟨h.files.changes, ?_, ?_, ?_, ?_, ?_, ?_⟩⟩
  · show s.lsn ≤ (s.commit t).lsn
    rw [h.lsn_eq]
    omega
  · intro id hsome
    show ((s.commit t).catalogue.find id).isSome
    rw [commit_shows h.fresh]
    split_ifs
    · exact ShowWrite.after_isSome hsome
    · exact hsome
  · intro id
    by_cases heq : id = t.write.showId
    · rcases owed_or_same h.fresh with howed | ⟨-, hfind⟩
      · exact .inr (heq ▸ howed)
      · refine .inl ?_
        show ((s.commit t).catalogue.find id).filter _ = (s.catalogue.find id).filter _
        rw [heq, hfind]
    · exact .inl (live_commit_of_ne h.fresh heq)
  · intro u hu _
    exact (mem_abort hu).1
  · intro _
    refine ⟨rfl, rfl, rfl, ?_, ?_, fun q => h.covered⟩
    · intro r hr hproducer
      rcases h.files.mem_rows.1 hr with hr | rfl
      · exact hr
      · cases hproducer
    · intro n hn hlt
      have hlt : (s.commit t).lsn < n := hlt
      rw [h.lsn_eq] at hlt
      rcases h.files.mem_filed.1 hn with hn | heq
      · exact hn
      · exact absurd heq hlt.ne'
  · intro _
    have hindexes := h.files.indexes rfl
    exact ⟨hindexes.indexing, hindexes.lastSequence, hindexes.index, hindexes.rows⟩

end Committing

end Commit

/-! ### The change capture -/

section Insertion

variable {s : State} {i : ℕ} {d : OutboxDocument}

/-- A number that the change capture has drawn is above all that it has filed. -/
structure Drawn (n : ℕ) (s : State) : Prop where
  pos : 0 < n
  counted : n ≤ s.counter
  above : ∀ m ∈ s.filed, s.lsn < m → m < n

theorem Drawn.mono {n : ℕ} {t : State} (h : Drawn n s) (hlsn : s.lsn ≤ t.lsn) (hst : Captures s t) :
    Drawn n t := by
  refine ⟨h.pos, ?_, ?_⟩
  · rw [hst.counter]
    exact h.counted
  · intro m hm hlt
    exact h.above m (hst.filed m hm hlt) (hlsn.trans_lt hlt)

/-- A row that has the number drawn is one of the admin API, which is ahead then. -/
theorem Drawn.behind_of_taken {n : ℕ} (hs : Numbered s) (hd : Drawn n s) {r : Row} (hr : r ∈ s.rows)
    (heq : r.event.sequence = n) : s.Behind := by
  have hfiled := hs.filed r hr
  rw [heq] at hfiled
  have hle : n ≤ s.lsn := not_lt.1 fun hlt => absurd (hd.above n hfiled hlt) (lt_irrefl n)
  intro m hm
  refine not_lt.1 fun hlt => ?_
  exact absurd ((hd.above m hm hlt).trans_le hle) (lt_asymm hlt)

/-- An event that is made of the change at `position`, and tells what its show says unless the show has
changed since. -/
structure Observed (position : ℕ) (d : OutboxDocument) (s : State) : Prop where
  change : ∃ c, s.changes[position]? = some c ∧ c.showId = d.showId
  tells : Tells (s.live d.showId) (Row.mk .changeCapture d).content ∨ s.Owed (position + 1) d.showId

theorem Observed.lt {position : ℕ} (h : Observed position d s) : position < s.changes.length := by
  obtain ⟨c, hc, -⟩ := h.change
  exact (List.getElem?_eq_some_iff.1 hc).1

theorem Observed.mono {position : ℕ} {t : State} (h : Observed position d s) (hst : Relies i s t) :
    Observed position d t := by
  obtain ⟨c, hc, hid⟩ := h.change
  obtain ⟨hlt, rfl⟩ := List.getElem?_eq_some_iff.1 hc
  refine ⟨⟨_, List.prefix_iff_getElem?.1 hst.changes position hlt, hid⟩, ?_⟩
  rcases h.tells with htells | howed
  · rcases hst.live d.showId with hlive | howed
    · exact .inl (hlive ▸ htells)
    · exact .inr (howed.mono hlt List.prefix_rfl)
  · exact .inr (howed.mono le_rfl hst.changes)

/-- The change capture at an insertion. -/
structure Inserting (s : State) (i : ℕ) (d : OutboxDocument) : Prop where
  inv : Inv s
  own : s.capturing = some i
  passed : s.passed = d.id
  drawn : Drawn d.sequence s
  observed : Observed d.id d s
  /-- The change capture has not filed the change. -/
  fresh : ∀ r ∈ s.rows, r.producer = .changeCapture → r.event.id ≠ d.id
  /-- The insertion waits for no transaction. -/
  ready : ∀ t ∈ s.transactions, ∀ e, t.event = some e → e.sequence ≠ d.sequence

/-- The same where the number is free and above what is acknowledged. -/
structure Admitted (s : State) (i : ℕ) (d : OutboxDocument) : Prop extends Inserting s i d where
  free : ∀ r ∈ s.rows, r.event.sequence ≠ d.sequence
  above : s.last < d.sequence

namespace Admitted

theorem files (h : Admitted s i d) :
    Files ⟨.changeCapture, d⟩ s (s.file ⟨.changeCapture, d⟩) :=
  ⟨rfl, rfl, rfl, rfl, rfl, List.prefix_rfl, h.free, h.above⟩

theorem lsn_lt (h : Admitted s i d) : s.lsn < d.sequence := by
  refine not_le.1 fun hle => ?_
  exact absurd h.above (not_lt_of_ge (h.inv.numbered.le_last h.drawn.pos hle h.free))

theorem top (h : Admitted s i d) : ∀ r ∈ s.rows, r.event.sequence ≤ d.sequence := by
  intro r hr
  rcases le_or_gt r.event.sequence s.lsn with hle | hgt
  · exact hle.trans h.lsn_lt.le
  · exact (h.drawn.above _ (h.inv.numbered.filed r hr) hgt).le

/-- The row is above all others, and its change the first that is not passed. -/
theorem covered (h : Admitted s i d) : (s.file ⟨.changeCapture, d⟩).Covered (d.id + 1) := by
  intro id
  by_cases heq : id = d.showId
  · subst heq
    rcases h.observed.tells with htells | howed
    · exact .inl (h.files.settled_top h.top htells)
    · exact .inr howed
  · have hcovered := h.inv.covered id
    rw [h.passed] at hcovered
    rcases hcovered with hsettled | ⟨p, c, hp, hc, hid⟩
    · exact .inl (h.files.settled hsettled rfl fun h => absurd h.symm heq)
    · refine .inr ⟨p, c, lt_of_le_of_ne hp fun hpd => ?_, hc, hid⟩
      obtain ⟨c', hc', hid'⟩ := h.observed.change
      rw [hpd, hc] at hc'
      obtain rfl := Option.some.inj hc'
      exact heq (hid.symm.trans hid')

theorem numbered (h : Admitted s i d) : Numbered (s.file ⟨.changeCapture, d⟩) := by
  refine h.files.numbered h.inv.numbered ?_ ?_
  · intro n hpos hle
    exact .inl (h.inv.numbered.drawn n hpos hle)
  · intro n hn hlt
    rcases hn with hn | rfl
    · exact h.inv.numbered.counted n hn hlt
    · exact h.drawn.counted

theorem inv_file (h : Admitted s i d) : Inv (s.file ⟨.changeCapture, d⟩) := by
  have hcovered : (s.file ⟨.changeCapture, d⟩).Covered s.passed := by
    rw [h.passed]
    exact h.covered.anti (Nat.le_succ _)
  refine ⟨h.numbered, h.inv.reported, h.inv.passed, hcovered, ?_, ?_, ?_, h.inv.apart⟩
  · intro r hr hproducer
    rcases h.files.mem_rows.1 hr with hr | rfl
    · obtain ⟨hle, hlt, -⟩ := h.inv.captured r hr hproducer
      refine ⟨hle, hlt, h.covered.anti ?_⟩
      rw [h.passed] at hle
      exact Nat.succ_le_succ hle
    · exact ⟨h.passed.ge, h.observed.lt, h.covered⟩
  · intro hbehind
    have hle : d.sequence ≤ s.lsn := hbehind _ (h.files.mem_filed.2 (.inr rfl))
    exact absurd h.lsn_lt (not_lt_of_ge hle)
  · intro t ht
    have hold := h.inv.underway t ht
    refine ⟨hold.fresh, hold.sequence, fun e he => ?_⟩
    obtain ⟨hseq, hid, hfree, htells⟩ := hold.event e he
    refine ⟨hseq, hid, fun r hr => ?_, htells⟩
    rcases h.files.mem_rows.1 hr with hr | rfl
    · exact hfree r hr
    · exact (h.ready t ht e he).symm

theorem keeps (h : Admitted s i d) : Keeps i s (s.file ⟨.changeCapture, d⟩) := by
  refine ⟨h.inv_file, fun j hj => ?_⟩
  refine ⟨List.prefix_rfl, le_rfl, fun _ h => h, fun _ => .inl rfl, fun _ h _ => h, fun hcap => ?_,
    fun _ => h.files.indexes rfl⟩
  exact absurd (Option.some.inj (hcap.symm.trans h.own)) hj

end Admitted

/-- An insertion under a drawn number leaves the change at its position covered: it files a row above
all others, or the admin API has filed everything. -/
theorem Inserting.keeps (h : Inserting s i d)
    (hallowed : (∃ r ∈ s.rows, r.event.sequence = d.sequence) ∨ s.last < d.sequence) :
    Keeps i s (insertCaptured d s).1 ∧ (insertCaptured d s).1.Covered (d.id + 1) := by
  unfold insertCaptured
  split_ifs with htaken
  · refine ⟨.refl h.inv, fun id => .inl ?_⟩
    obtain ⟨r, hr, heq⟩ := List.any_eq_true.1 htaken
    rcases of_decide_eq_true heq with ⟨hproducer, hid⟩ | heq
    · exact absurd hid (h.fresh r hr hproducer)
    · exact h.inv.settled (h.drawn.behind_of_taken h.inv.numbered hr heq) id
  · have hfree : ∀ r ∈ s.rows, r.event.sequence ≠ d.sequence := by
      intro r hr heq
      exact htaken (List.any_eq_true.2 ⟨r, hr, decide_eq_true (.inr heq)⟩)
    have habove : s.last < d.sequence := by
      rcases hallowed with ⟨r, hr, heq⟩ | hlt
      · exact absurd heq (hfree r hr)
      · exact hlt
    have hadmitted : Admitted s i d := ⟨h, hfree, habove⟩
    exact ⟨hadmitted.keeps, hadmitted.covered⟩

/-- The checkpoint moves to a change that is covered. -/
theorem keeps_upsertCheckpoint {p : ℕ} (hs : Inv s) (hown : s.capturing = some i)
    (hpassed : s.passed = p) (hlt : p < s.changes.length) (hcovered : s.Covered (p + 1)) :
    Keeps i s { s with checkpoint := some p } := by
  constructor
  · refine ⟨⟨hs.numbered.distinct, hs.numbered.filed, hs.numbered.drawn, hs.numbered.counted,
      hs.numbered.kept, hs.numbered.acknowledged⟩, hs.reported, hlt, hcovered, ?_, hs.settled,
      fun t ht => ?_, hs.apart⟩
    · intro r hr hproducer
      obtain ⟨hle, hrlt, hcov⟩ := hs.captured r hr hproducer
      refine ⟨?_, hrlt, hcov⟩
      show r.event.id ≤ p + 1
      omega
    · have h := hs.underway t ht
      exact ⟨h.fresh, h.sequence, h.event⟩
  · intro j hj
    refine ⟨List.prefix_rfl, le_rfl, fun _ h => h, fun _ => .inl rfl, fun _ h _ => h, ?_, ?_⟩
    · intro hcap
      exact absurd (Option.some.inj (hcap.symm.trans hown)) hj
    · intro _
      exact ⟨rfl, rfl, rfl, fun _ hr _ => hr⟩

end Insertion

/-! ## Indexing -/

section Indexing

variable {s : State} {i : ℕ}

theorem find_filter_ne {index : List (String × Json)} {showId id : String} :
    ((index.filter fun x => !decide (x.1 = showId)).find? fun x => decide (x.1 = id)) =
      if id = showId then none else index.find? fun x => decide (x.1 = id) := by
  rw [List.find?_filter]
  by_cases hid : id = showId
  · rw [if_pos hid, List.find?_eq_none]
    intro x _
    simp [hid]
  · rw [if_neg hid]
    refine congrArg (index.find? ·) (funext fun x => ?_)
    by_cases hx : x.1 = id
    · simp [hx, hid]
    · simp [hx]

/-- The index after a document is put. -/
theorem indexed_put (showId : String) (document : Json) (id : String) :
    ({ s with index := s.index.filter (fun x => !decide (x.1 = showId)) ++
        [(showId, document)] } : State).indexed id =
      if id = showId then some document else s.indexed id := by
  simp only [State.indexed, List.find?_append, find_filter_ne]
  by_cases hid : id = showId
  · simp [hid]
  · simp [hid, Ne.symm hid]

/-- The index after a document is deleted. -/
theorem indexed_delete (showId id : String) :
    ({ s with index := s.index.filter fun x => !decide (x.1 = showId) } : State).indexed id =
      if id = showId then none else s.indexed id := by
  simp only [State.indexed, find_filter_ne]
  by_cases hid : id = showId
  · simp [hid]
  · simp [hid]

/-- A step on rows, index and acknowledged number that files nothing and leaves what is settled so. -/
structure Consumes (s : State) (rows : List Row) (index : List (String × Json))
    (lastSequence : Option ℕ) (acknowledged : List ℕ) : Prop where
  numbered : Numbered { s with
    rows := rows
    index := index
    lastSequence := lastSequence
    acknowledged := acknowledged }
  remains : ∀ r ∈ rows, r ∈ s.rows
  settled : ∀ id, s.Settled id → State.Settled { s with
    rows := rows
    index := index
    lastSequence := lastSequence
    acknowledged := acknowledged } id

namespace Consumes

variable {rows : List Row} {index : List (String × Json)} {lastSequence : Option ℕ}
  {acknowledged : List ℕ}

theorem covered (h : Consumes s rows index lastSequence acknowledged) {q : ℕ} (hs : s.Covered q) :
    State.Covered { s with
      rows := rows
      index := index
      lastSequence := lastSequence
      acknowledged := acknowledged } q := by
  intro id
  rcases hs id with hs | howed
  · exact .inl (h.settled id hs)
  · exact .inr howed

theorem inv (h : Consumes s rows index lastSequence acknowledged) (hs : Inv s) :
    Inv { s with
      rows := rows
      index := index
      lastSequence := lastSequence
      acknowledged := acknowledged } := by
  refine ⟨h.numbered, hs.reported, hs.passed, h.covered hs.covered, ?_,
    fun hbehind id => h.settled id (hs.settled hbehind id), fun t ht => ?_, hs.apart⟩
  · intro r hr hproducer
    obtain ⟨hle, hlt, hcov⟩ := hs.captured r (h.remains r hr) hproducer
    exact ⟨hle, hlt, h.covered hcov⟩
  · have hold := hs.underway t ht
    refine ⟨hold.fresh, hold.sequence, fun d hd => ?_⟩
    obtain ⟨hseq, hid, hfree, htells⟩ := hold.event d hd
    exact ⟨hseq, hid, fun r hr => hfree r (h.remains r hr), htells⟩

theorem relies (h : Consumes s rows index lastSequence acknowledged) {j : ℕ}
    (hindexing : s.indexing = some j → Indexes s { s with
      rows := rows
      index := index
      lastSequence := lastSequence
      acknowledged := acknowledged }) :
    Relies j s { s with
      rows := rows
      index := index
      lastSequence := lastSequence
      acknowledged := acknowledged } := by
  refine ⟨List.prefix_rfl, le_rfl, fun _ h => h, fun _ => .inl rfl, fun _ h _ => h, fun _ => ?_,
    hindexing⟩
  exact ⟨rfl, rfl, rfl, fun r hr _ => h.remains r hr, fun _ h _ => h, fun _ _ => h.covered⟩

/-- A step of the indexing worker. -/
theorem keeps (h : Consumes s rows index lastSequence acknowledged) (hs : Inv s)
    (hown : s.indexing = some i) :
    Keeps i s { s with
      rows := rows
      index := index
      lastSequence := lastSequence
      acknowledged := acknowledged } :=
  ⟨h.inv hs, fun _ hj => h.relies fun hidx => absurd (Option.some.inj (hidx.symm.trans hown)) hj⟩

end Consumes

/-- The worker writes to the index what a row says that it has still to acknowledge. -/
theorem keeps_index {index : List (String × Json)} {r : Row} (hs : Inv s)
    (hown : s.indexing = some i) (hr : r ∈ s.rows) (habove : s.last < r.event.sequence)
    (hindex : ∀ id, id ≠ r.event.showId →
      ({ s with index := index } : State).indexed id = s.indexed id) :
    Keeps i s { s with index := index } := by
  have h : Consumes s s.rows index s.lastSequence s.acknowledged := by
    refine ⟨⟨hs.numbered.distinct, hs.numbered.filed, hs.numbered.drawn, hs.numbered.counted,
      hs.numbered.kept, hs.numbered.acknowledged⟩, fun _ hr => hr, fun id hsettled => ?_⟩
    exact Feed.Settled.apply hsettled hr habove fun hne => hindex id hne.symm
  exact h.keeps hs hown

/-- The worker acknowledges a row that it has applied. -/
theorem keeps_acknowledge {r : Row} (hs : Inv s) (hown : s.indexing = some i) (hr : r ∈ s.rows)
    (habove : s.last < r.event.sequence) (happlied : s.indexed r.event.showId = r.content)
    (hleast : ∀ r' ∈ s.rows, s.last < r'.event.sequence → r.event.sequence ≤ r'.event.sequence) :
    Keeps i s { s with
      lastSequence := some r.event.sequence
      acknowledged := s.acknowledged ++ [r.event.sequence] } := by
  have h : Consumes s s.rows s.index (some r.event.sequence)
      (s.acknowledged ++ [r.event.sequence]) := by
    refine ⟨⟨hs.numbered.distinct, hs.numbered.filed, hs.numbered.drawn, hs.numbered.counted, ?_, ?_⟩,
      fun _ hr => hr, fun id hsettled => ?_⟩
    · intro n hn
      rcases hs.numbered.kept n hn with hack | ⟨r', hr', rfl, hlt⟩
      · exact .inl (List.mem_append_left _ hack)
      · rcases (hleast r' hr' hlt).eq_or_lt with heq | hlt
        · exact .inl (List.mem_append_right _ (List.mem_singleton.2 heq.symm))
        · exact .inr ⟨r', hr', rfl, hlt⟩
    · intro n hn
      rcases List.mem_append.1 hn with hn | hn
      · exact (hs.numbered.acknowledged n hn).trans habove.le
      · exact (List.mem_singleton.1 hn).le
    · have hinj : ∀ r' ∈ s.rows, r'.event.sequence = r.event.sequence → r' = r := by
        intro r' hr' heq
        exact List.inj_on_of_nodup_map hs.numbered.distinct hr' hr heq
      exact Feed.Settled.acknowledge hsettled hr habove hleast hinj fun heq => heq ▸ happlied
  exact h.keeps hs hown

/-- An acknowledged row goes. -/
theorem keeps_expire {n : ℕ} (hs : Inv s)
    (hn : ∀ r ∈ s.rows, r.event.sequence = n → n ∈ s.acknowledged) :
    Inv { s with rows := s.rows.filter fun r => !decide (r.event.sequence = n) } ∧
      ∀ j, Relies j s { s with rows := s.rows.filter fun r => !decide (r.event.sequence = n) } := by
  have hkeep : ∀ r ∈ s.rows, s.last < r.event.sequence →
      r ∈ s.rows.filter fun r => !decide (r.event.sequence = n) := by
    intro r hr hlt
    refine List.mem_filter.2 ⟨hr, ?_⟩
    have hne : r.event.sequence ≠ n := by
      intro heq
      have hle := hs.numbered.acknowledged n (hn r hr heq)
      exact absurd hlt (not_lt_of_ge (heq.trans_le hle))
    simpa using hne
  have h : Consumes s (s.rows.filter fun r => !decide (r.event.sequence = n)) s.index s.lastSequence
      s.acknowledged := by
    refine ⟨⟨?_, ?_, hs.numbered.drawn, hs.numbered.counted, ?_, hs.numbered.acknowledged⟩,
      fun r hr => List.mem_of_mem_filter hr, fun id hsettled => ?_⟩
    · exact hs.numbered.distinct.sublist (List.filter_sublist.map _)
    · intro r hr
      exact hs.numbered.filed r (List.mem_of_mem_filter hr)
    · intro m hm
      rcases hs.numbered.kept m hm with hack | ⟨r, hr, rfl, hlt⟩
      · exact .inl hack
      · exact .inr ⟨r, hkeep r hr hlt, rfl, hlt⟩
    · exact Feed.Settled.expire hsettled (fun r hr => List.mem_of_mem_filter hr) hkeep
  exact ⟨h.inv hs, fun _ => h.relies fun _ => ⟨rfl, rfl, rfl, hkeep⟩⟩

end Indexing

end Producers
end Search
end Bookit

import Bookit.Search.NoPoison
import Bookit.Search.Producers
import Bookit.Lib.Feed

/-!
# Search.ProducerInvariant — what holds between the two producers

A show is settled when the last row of it that is still to be applied, or the index where there is
none, says what the show says.  The change capture owes a show whose changes it has not passed.
While the change capture is behind the admin API, whose rows are in the order of the commits,
every show is settled; once it has filed a row under a number that the admin API has still to
draw, its own numbers are above all others, and every show is settled or owed.
-/

namespace Bookit
namespace Search
namespace Producers

open Lib

/-! ## Documents -/

section Documents

variable {d : Show}

theorem stringField_cons_of_ne {key field : String} {v : Json} {fields : List (String × Json)}
    (h : key ≠ field) :
    stringField (.obj ((key, v) :: fields)) field = stringField (.obj fields) field := by
  simp [stringField, Json.get, h]

theorem stringArrayField_cons_of_ne {key field : String} {v : Json} {fields : List (String × Json)}
    (h : key ≠ field) :
    stringArrayField (.obj ((key, v) :: fields)) field = stringArrayField (.obj fields) field := by
  simp [stringArrayField, Json.get, h]

theorem asStr_ofOption (s : Option String) : (ofOption s).asStr = s := by
  cases s <;> rfl

/-- The identifier is no field of the index. -/
theorem indexedFields_identified (id : String) (fields : List (String × Json)) :
    indexedFields (identified id (.obj fields)) = indexedFields (.obj fields) := by
  simp only [indexedFields, identified, List.map_cons, List.map_nil]
  simp only [stringField_cons_of_ne (show ("_id" : String) ≠ "title" by decide),
    stringField_cons_of_ne (show ("_id" : String) ≠ "description" by decide),
    stringField_cons_of_ne (show ("_id" : String) ≠ "city" by decide),
    stringField_cons_of_ne (show ("_id" : String) ≠ "venue" by decide),
    stringField_cons_of_ne (show ("_id" : String) ≠ "thumbnail_url" by decide),
    stringField_cons_of_ne (show ("_id" : String) ≠ "poster_url" by decide),
    stringField_cons_of_ne (show ("_id" : String) ≠ "show_type" by decide),
    stringArrayField_cons_of_ne (show ("_id" : String) ≠ "category_ids" by decide),
    stringArrayField_cons_of_ne (show ("_id" : String) ≠ "tags" by decide)]

/-- An array of strings is read back as it is. -/
theorem strings_filterMap (xs : List Json) :
    (xs.filterMap fun v => v.asStr.map Json.str).filterMap (fun v => v.asStr.map Json.str) =
      xs.filterMap fun v => v.asStr.map Json.str := by
  induction xs with
  | nil => rfl
  | cons x xs ih =>
      cases x with
      | str s =>
          simp only [List.filterMap_cons, Json.asStr, Option.map_some]
          exact congrArg _ ih
      | null => exact ih
      | bool b => exact ih
      | num n => exact ih
      | arr ys => exact ih
      | obj fields => exact ih

theorem softDeleted_toDocument (d : Show) : softDeleted d.toDocument = d.deletedAt.isSome := by
  unfold softDeleted Show.toDocument
  cases d.categoryIds <;> cases d.deletedAt <;> rfl

/-- The document that the change capture makes of a document. -/
theorem content_changeToOutboxEvent {operation showId : String} {position : ℕ} {document : Json}
    {event : SearchOutboxEvent} (hop : operation ≠ "delete")
    (h : changeToOutboxEvent operation showId position (some document) = .ok event) :
    (softDeleted document = true ∧ event.operation = "delete") ∨
      (softDeleted document = false ∧ event.operation = "upsert" ∧
        event.document.map indexedFields = some (indexedFields document)) := by
  unfold changeToOutboxEvent at h
  rw [if_neg hop] at h
  simp only at h
  split_ifs at h with hdeleted htitle
  · obtain rfl := Except.ok.inj h
    exact .inl ⟨hdeleted, rfl⟩
  · obtain rfl := Except.ok.inj h
    refine .inr ⟨Bool.eq_false_iff.2 hdeleted, rfl, ?_⟩
    refine congrArg some ?_
    simp [indexedFields, stringField, stringArrayField, Json.get, asStr_ofOption, Json.asArray,
      strings_filterMap]

end Documents

/-! ## Writes of shows -/

section Writes

variable {s : ShowStore} {id k : String}

theorem find_write (f : Show → Show) (c : ShowChange) :
    (s.write id f c).1.find k = if k = id then (s.find k).map f else s.find k := by
  have hupdate : ∀ shows : List (String × Show),
      ((Table.updateWhere (fun x => decide (x.1 = id)) (fun x => (x.1, f x.2)) shows).find?
          fun x => decide (x.1 = k)).map Prod.snd =
        if k = id then ((shows.find? fun x => decide (x.1 = k)).map Prod.snd).map f
        else (shows.find? fun x => decide (x.1 = k)).map Prod.snd := by
    intro shows
    induction shows with
    | nil => simp [Table.updateWhere]
    | cons x shows ih =>
        simp only [Table.updateWhere, List.map_cons, List.find?_cons] at ih ⊢
        by_cases hx : x.1 = id
        · by_cases hk : x.1 = k
          · simp [hx, ← hk]
          · simpa [hx, hk, show id ≠ k from hx ▸ hk] using ih
        · by_cases hk : x.1 = k
          · simp [hk, hk ▸ hx]
          · simpa [hx, hk] using ih
  unfold ShowStore.write
  cases hfind : s.find id with
  | none =>
      by_cases hk : k = id
      · rw [if_pos hk, hk, hfind]
        rfl
      · rw [if_neg hk]
  | some d =>
      simp only
      split_ifs with hsame hk hk
      · rw [hk, hfind, Option.map_some, hsame]
      · rfl
      · refine (hupdate s.shows).trans ?_
        rw [if_pos hk]
        rfl
      · refine (hupdate s.shows).trans ?_
        rw [if_neg hk]
        rfl

theorem find_insertShow {d : Show} (h : s.find id = none) :
    (s.insertShow id d).1.find k = if k = id then some d else s.find k := by
  unfold ShowStore.find ShowStore.insertShow at *
  simp only [List.find?_append]
  by_cases hk : k = id
  · subst hk
    rw [Option.map_eq_none_iff] at h
    simp [h]
  · simp [hk, Ne.symm hk]

/-- A write that is reported, or changes nothing. -/
theorem write_changes (f : Show → Show) (c : ShowChange) :
    ((s.write id f c).1.changes = s.changes ∧ (s.write id f c).1.find id = s.find id) ∨
      ((s.write id f c).1.changes = s.changes ++ [c] ∧ (s.find id).isSome) := by
  unfold ShowStore.write
  cases hfind : s.find id with
  | none => exact .inl ⟨rfl, hfind⟩
  | some d =>
      simp only
      split_ifs
      · exact .inl ⟨rfl, hfind⟩
      · exact .inr ⟨rfl, rfl⟩

end Writes

namespace ShowWrite

/-- The document of the show after a write. -/
def after : ShowWrite → Option Show → Option Show
  | insert _ d, _ => some d
  | replace _ d, found => found.map fun _ => d
  | softDelete _ deletedAt, found => found.map fun d => { d with deletedAt := some deletedAt }

/-- An insertion is of a show that is not there. -/
def Fresh (s : ShowStore) : ShowWrite → Prop
  | insert id _ => s.find id = none
  | _ => True

variable {s : ShowStore} {w : ShowWrite}

theorem find_apply (h : w.Fresh s) (k : String) :
    (w.apply s).find k = if k = w.showId then w.after (s.find k) else s.find k := by
  cases w with
  | insert id d => exact find_insertShow h
  | replace id d => exact find_write _ _
  | softDelete id deletedAt => exact find_write _ _

theorem after_isSome {found : Option Show} (h : found.isSome) : (w.after found).isSome := by
  cases w with
  | insert id d => rfl
  | replace id d => simpa [after] using h
  | softDelete id deletedAt => simpa [after] using h

/-- A change that a write leaves in the stream comes with the document that is there after it. -/
theorem apply_changes (h : w.Fresh s) :
    ((w.apply s).changes = s.changes ∧ (w.apply s).find w.showId = s.find w.showId) ∨
      ∃ c : ShowChange, (w.apply s).changes = s.changes ++ [c] ∧ c.showId = w.showId ∧
        c.operationType ≠ "delete" ∧
        (c.operationType = "update" ∨
          c.document.isSome ∧ c.document = (w.apply s).find w.showId) := by
  have hfind := find_apply h w.showId
  rw [if_pos rfl] at hfind
  cases w with
  | insert id d =>
      refine .inr ⟨⟨"insert", id, some d⟩, rfl, rfl, show "insert" ≠ "delete" by decide, .inr ?_⟩
      exact ⟨rfl, hfind.symm⟩
  | replace id d =>
      have hwrite := @write_changes s id (fun _ => d) ⟨"replace", id, some d⟩
      rcases hwrite with hsame | ⟨hc, hsome⟩
      · exact .inl hsame
      · refine .inr ⟨_, hc, rfl, show "replace" ≠ "delete" by decide, .inr ⟨rfl, ?_⟩⟩
        obtain ⟨e, he⟩ := Option.isSome_iff_exists.1 hsome
        rw [hfind]
        show some d = (s.find id).map fun _ => d
        rw [he]
        rfl
  | softDelete id deletedAt =>
      have hwrite := @write_changes s id (fun d => { d with deletedAt := some deletedAt })
        ⟨"update", id, none⟩
      rcases hwrite with hsame | ⟨hc, -⟩
      · exact .inl hsame
      · exact .inr ⟨_, hc, rfl, show "update" ≠ "delete" by decide, .inl rfl⟩

end ShowWrite

/-! ## The invariant -/

/-- What the index is to hold of the show of a row. -/
def Row.content (r : Row) : Option Json :=
  if r.event.operation = "upsert" then r.event.document else none

namespace State

def Settled (s : State) (id : String) : Prop :=
  Feed.Settled (fun r : Row => r.event.sequence) (fun r => r.event.showId) Row.content s.rows s.last
    s.indexed (Tells (s.live id)) id

/-- A change of the show at `position` or later. -/
def Owed (s : State) (position : ℕ) (id : String) : Prop :=
  ∃ p c, position ≤ p ∧ s.changes[p]? = some c ∧ c.showId = id

/-- What the changes before `position` have left undone is in the outbox. -/
def Covered (s : State) (position : ℕ) : Prop :=
  ∀ id, s.Settled id ∨ s.Owed position id

/-- The change capture has filed no row under a number that the admin API has still to draw. -/
def Behind (s : State) : Prop :=
  ∀ n ∈ s.filed, n ≤ s.lsn

end State

structure Numbered (s : State) : Prop where
  distinct : (s.rows.map fun r => r.event.sequence).Nodup
  filed : ∀ r ∈ s.rows, r.event.sequence ∈ s.filed
  drawn : ∀ n, 0 < n → n ≤ s.lsn → n ∈ s.filed
  counted : ∀ n ∈ s.filed, s.lsn < n → n ≤ s.counter
  kept : NothingSkipped s
  acknowledged : ∀ n ∈ s.acknowledged, n ≤ s.last

/-- The document of a show after its last change is the one that the change comes with. -/
def Reported (s : State) (position : ℕ) (c : ShowChange) : Prop :=
  c.operationType ≠ "delete" ∧
    (s.Owed (position + 1) c.showId ∨ c.operationType = "update" ∨
      c.document.isSome ∧ c.document = s.catalogue.find c.showId)

/-- A show as it is to be found after a write. -/
def ShowWrite.shown (w : ShowWrite) (s : State) : Option Show :=
  (w.after (s.catalogue.find w.showId)).filter fun d => d.deletedAt.isNone

/-- What a transaction has done so far. -/
structure Underway (s : State) (t : Transaction) : Prop where
  fresh : t.write.Fresh s.catalogue
  sequence : ∀ n, t.sequence = some n → n = s.lsn + 1
  event : ∀ d, t.event = some d → t.sequence = some d.sequence ∧ d.showId = t.write.showId ∧
    (∀ r ∈ s.rows, r.event.sequence ≠ d.sequence) ∧
    Tells (t.write.shown s) (Row.mk .adminApi d).content

/-- Transactions of two sessions, of which one at most has drawn a number. -/
def Apart (t u : Transaction) : Prop :=
  t.session ≠ u.session ∧ t.write.showId ≠ u.write.showId ∧
    (t.sequence = none ∨ u.sequence = none)

theorem Apart.symm {t u : Transaction} (h : Apart t u) : Apart u t :=
  ⟨h.1.symm, h.2.1.symm, h.2.2.symm⟩

instance apart_symm : Std.Symm Apart :=
  ⟨fun _ _ => Apart.symm⟩

structure Inv (s : State) : Prop where
  numbered : Numbered s
  reported : ∀ p c, s.changes[p]? = some c → Reported s p c
  passed : s.passed ≤ s.changes.length
  covered : s.Covered s.passed
  captured : ∀ r ∈ s.rows, r.producer = .changeCapture →
    r.event.id ≤ s.passed ∧ r.event.id < s.changes.length ∧ s.Covered (r.event.id + 1)
  settled : s.Behind → ∀ id, s.Settled id
  underway : ∀ t ∈ s.transactions, Underway s t
  apart : s.transactions.Pairwise Apart

/-! ## What a session relies on -/

/-- What a change capture relies on. -/
structure Captures (s t : State) : Prop where
  capturing : t.capturing = s.capturing
  checkpoint : t.checkpoint = s.checkpoint
  counter : t.counter = s.counter
  rows : ∀ r ∈ t.rows, r.producer = .changeCapture → r ∈ s.rows
  filed : ∀ n ∈ t.filed, t.lsn < n → n ∈ s.filed
  covered : ∀ q ≤ s.changes.length, s.Covered q → t.Covered q

/-- What an indexing worker relies on. -/
structure Indexes (s t : State) : Prop where
  indexing : t.indexing = s.indexing
  lastSequence : t.lastSequence = s.lastSequence
  index : t.index = s.index
  rows : ∀ r ∈ s.rows, s.last < r.event.sequence → r ∈ t.rows

structure Relies (i : ℕ) (s t : State) : Prop where
  changes : s.changes <+: t.changes
  lsn : s.lsn ≤ t.lsn
  found : ∀ id, (s.catalogue.find id).isSome → (t.catalogue.find id).isSome
  live : ∀ id, t.live id = s.live id ∨ t.Owed s.changes.length id
  transactions : ∀ u ∈ t.transactions, u.session = i → u ∈ s.transactions
  capturing : s.capturing = some i → Captures s t
  indexing : s.indexing = some i → Indexes s t

namespace State

variable {s t : State} {p q : ℕ} {id : String}

theorem Owed.mono (h : s.Owed p id) (hq : q ≤ p) (hchanges : s.changes <+: t.changes) :
    t.Owed q id := by
  obtain ⟨r, c, hr, hc, hid⟩ := h
  obtain ⟨hlt, rfl⟩ := List.getElem?_eq_some_iff.1 hc
  exact ⟨r, _, hq.trans hr, List.prefix_iff_getElem?.1 hchanges r hlt, hid⟩

end State

theorem State.Covered.anti {s : State} {p q : ℕ} (h : s.Covered p) (hq : q ≤ p) : s.Covered q := by
  intro id
  rcases h id with h | howed
  · exact .inl h
  · exact .inr (howed.mono hq List.prefix_rfl)

theorem Captures.refl (s : State) : Captures s s :=
  ⟨rfl, rfl, rfl, fun _ h _ => h, fun _ h _ => h, fun _ _ h => h⟩

theorem Indexes.refl (s : State) : Indexes s s :=
  ⟨rfl, rfl, rfl, fun _ h _ => h⟩

theorem Relies.refl (i : ℕ) (s : State) : Relies i s s :=
  ⟨List.prefix_rfl, le_rfl, fun _ h => h, fun _ => .inl rfl, fun _ h _ => h, fun _ => .refl s,
    fun _ => .refl s⟩

theorem Captures.trans {s t u : State} (hst : Captures s t) (htu : Captures t u)
    (hlsn : t.lsn ≤ u.lsn) (hchanges : s.changes <+: t.changes) : Captures s u := by
  refine ⟨htu.capturing.trans hst.capturing, htu.checkpoint.trans hst.checkpoint,
    htu.counter.trans hst.counter, ?_, ?_, ?_⟩
  · intro r hr hproducer
    exact hst.rows r (htu.rows r hr hproducer) hproducer
  · intro n hn hlt
    exact hst.filed n (htu.filed n hn hlt) (hlsn.trans_lt hlt)
  · intro q hq h
    exact htu.covered q (hq.trans hchanges.length_le) (hst.covered q hq h)

theorem Indexes.trans {s t u : State} (hst : Indexes s t) (htu : Indexes t u) : Indexes s u := by
  refine ⟨htu.indexing.trans hst.indexing, htu.lastSequence.trans hst.lastSequence,
    htu.index.trans hst.index, ?_⟩
  intro r hr hlt
  have hlast : t.last = s.last := congrArg (·.getD 0) hst.lastSequence
  exact htu.rows r (hst.rows r hr hlt) (hlast ▸ hlt)

theorem Relies.trans {i : ℕ} {s t u : State} (hst : Relies i s t) (htu : Relies i t u) :
    Relies i s u := by
  refine ⟨hst.changes.trans htu.changes, hst.lsn.trans htu.lsn, ?_, ?_, ?_, ?_, ?_⟩
  · intro id h
    exact htu.found id (hst.found id h)
  · intro id
    rcases htu.live id with htu' | howed
    · rcases hst.live id with hst' | howed
      · exact .inl (htu'.trans hst')
      · exact .inr (howed.mono le_rfl htu.changes)
    · exact .inr (howed.mono hst.changes.length_le List.prefix_rfl)
  · intro v hv hsession
    exact hst.transactions v (htu.transactions v hv hsession) hsession
  · intro h
    have h₁ := hst.capturing h
    exact h₁.trans (htu.capturing (h₁.capturing.trans h)) htu.lsn hst.changes
  · intro h
    have h₁ := hst.indexing h
    exact h₁.trans (htu.indexing (h₁.indexing.trans h))

/-- A step of session `i` that keeps the invariant and what the others rely on. -/
structure Keeps (i : ℕ) (s t : State) : Prop where
  inv : Inv t
  others : ∀ j, j ≠ i → Relies j s t

theorem Keeps.refl {i : ℕ} {s : State} (hs : Inv s) : Keeps i s s :=
  ⟨hs, fun j _ => .refl j s⟩

theorem Keeps.trans {i : ℕ} {s t u : State} (hst : Keeps i s t) (htu : Keeps i t u) :
    Keeps i s u :=
  ⟨htu.inv, fun j hj => (hst.others j hj).trans (htu.others j hj)⟩

/-! ## Steps that leave rows and shows alone -/

section Frame

variable {s : State} {i j now counter : ℕ} {transactions : List Transaction}
  {capturing indexing : Option ℕ}

theorem Inv.frame (hs : Inv s) (hcounter : s.counter ≤ counter)
    (hunderway : ∀ t ∈ transactions, Underway s t) (hapart : transactions.Pairwise Apart) :
    Inv { s with
      now := now
      counter := counter
      transactions := transactions
      capturing := capturing
      indexing := indexing } := by
  refine ⟨?_, hs.reported, hs.passed, hs.covered, hs.captured, hs.settled, ?_, hapart⟩
  · have hcounted : ∀ n ∈ s.filed, s.lsn < n → n ≤ counter := fun n hn hlt =>
      (hs.numbered.counted n hn hlt).trans hcounter
    exact ⟨hs.numbered.distinct, hs.numbered.filed, hs.numbered.drawn, hcounted, hs.numbered.kept,
      hs.numbered.acknowledged⟩
  · intro t ht
    have h := hunderway t ht
    exact ⟨h.fresh, h.sequence, h.event⟩

theorem Relies.frame (htransactions : ∀ u ∈ transactions, u.session = j → u ∈ s.transactions)
    (hcapturing : s.capturing = some j → capturing = some j ∧ counter = s.counter)
    (hindexing : s.indexing = some j → indexing = some j) :
    Relies j s { s with
      now := now
      counter := counter
      transactions := transactions
      capturing := capturing
      indexing := indexing } := by
  refine ⟨List.prefix_rfl, le_rfl, fun _ h => h, fun _ => .inl rfl, htransactions, ?_, ?_⟩
  · intro h
    obtain ⟨hcap, hcounter⟩ := hcapturing h
    exact ⟨hcap.trans h.symm, rfl, hcounter, fun _ hr _ => hr, fun _ hn _ => hn, fun _ _ hq => hq⟩
  · intro h
    exact ⟨(hindexing h).trans h.symm, rfl, rfl, fun _ hr _ => hr⟩

theorem keeps_tick (d : ℕ) (hs : Inv s) :
    Inv { s with now := s.now + d } ∧ ∀ j, Relies j s { s with now := s.now + d } :=
  ⟨hs.frame le_rfl hs.underway hs.apart, fun _ => .frame (fun _ h _ => h) (fun h => ⟨h, rfl⟩) id⟩

theorem mem_abort {u : Transaction} (h : u ∈ (s.abort i).transactions) :
    u ∈ s.transactions ∧ u.session ≠ i := by
  obtain ⟨hu, hne⟩ := List.mem_filter.1 h
  exact ⟨hu, by simpa using hne⟩

theorem keeps_abort (i : ℕ) (hs : Inv s) : Inv (s.abort i) ∧ ∀ j, Relies j s (s.abort i) := by
  constructor
  · refine hs.frame le_rfl (fun t ht => hs.underway t (mem_abort ht).1) ?_
    exact hs.apart.sublist List.filter_sublist
  · intro j
    exact .frame (fun u hu _ => (mem_abort hu).1) (fun h => ⟨h, rfl⟩) id

theorem keeps_close (i : ℕ) (hs : Inv s) : Keeps i s (close i s) := by
  constructor
  · refine hs.frame le_rfl (fun t ht => hs.underway t (mem_abort ht).1) ?_
    exact hs.apart.sublist List.filter_sublist
  · intro j hj
    have hkeep : ∀ {holder : Option ℕ}, holder = some j →
        (if holder = some i then none else holder) = some j := by
      intro holder h
      rw [if_neg, h]
      rw [h]
      exact fun heq => hj (Option.some.inj heq)
    exact .frame (fun u hu _ => (mem_abort hu).1) (fun h => ⟨hkeep h, rfl⟩) hkeep

/-- A worker takes a free place, or keeps its own. -/
theorem keeps_hold {n : Role} (hs : Inv s) (h : s.free n i = true) : Keeps i s (s.hold n i) := by
  have hnot : ∀ {holder : Option ℕ} {j : ℕ}, holder = none ∨ holder = some i → j ≠ i →
      holder ≠ some j := by
    intro holder j h hj heq
    rcases h with h | h
    · rw [h] at heq
      cases heq
    · exact hj (Option.some.inj (heq.symm.trans h))
  cases n with
  | admin => cases h
  | capture =>
      have h := of_decide_eq_true h
      refine ⟨hs.frame le_rfl hs.underway hs.apart, fun j hj => ?_⟩
      exact .frame (fun _ hu _ => hu) (fun hcap => absurd hcap (hnot h hj)) id
  | indexer =>
      have h := of_decide_eq_true h
      refine ⟨hs.frame le_rfl hs.underway hs.apart, fun j hj => ?_⟩
      exact .frame (fun _ hu _ => hu) (fun hcap => ⟨hcap, rfl⟩) fun hidx => absurd hidx (hnot h hj)

/-- The change capture draws a number. -/
theorem keeps_nextSequence (hs : Inv s) (hown : s.capturing = some i) :
    Keeps i s { s with counter := s.counter + 1 } := by
  refine ⟨hs.frame (Nat.le_succ _) hs.underway hs.apart, fun j hj => ?_⟩
  refine .frame (fun _ hu _ => hu) (fun hcap => ?_) id
  exact absurd (Option.some.inj (hcap.symm.trans hown)) hj

/-! ### Transactions -/

theorem mem_transaction {t : Transaction} (h : s.transaction i = some t) :
    t ∈ s.transactions ∧ t.session = i :=
  ⟨List.mem_of_find?_eq_some h, by simpa using List.find?_some h⟩

theorem keeps_begin {w : ShowWrite} (hs : Inv s) (hnone : ∀ t ∈ s.transactions, t.session ≠ i)
    (hfresh : w.Fresh s.catalogue) : Keeps i s (s.begin i w).1 := by
  unfold State.begin
  split_ifs with hbusy
  · exact .refl hs
  have hother : ∀ t ∈ s.transactions, t.write.showId ≠ w.showId := by
    intro t ht heq
    exact hbusy (List.any_eq_true.2 ⟨t, ht, decide_eq_true heq⟩)
  constructor
  · refine hs.frame le_rfl (fun t ht => ?_) ?_
    · rcases List.mem_append.1 ht with ht | ht
      · exact hs.underway t ht
      · obtain rfl := List.mem_singleton.1 ht
        refine ⟨hfresh, ?_, ?_⟩
        · intro n hn
          cases hn
        · intro d hd
          cases hd
    · refine List.pairwise_append.2 ⟨hs.apart, List.pairwise_singleton _ _, ?_⟩
      intro t ht u hu
      obtain rfl := List.mem_singleton.1 hu
      exact ⟨hnone t ht, hother t ht, .inr rfl⟩
  · intro j hj
    refine .frame (fun u hu hsession => ?_) (fun h => ⟨h, rfl⟩) id
    rcases List.mem_append.1 hu with hu | hu
    · exact hu
    · obtain rfl := List.mem_singleton.1 hu
      exact absurd hsession.symm hj

/-- A session writes its own transaction. -/
theorem keeps_setTransaction {f : Transaction → Transaction} (hs : Inv s)
    (hf : ∀ t ∈ s.transactions, t.session = i → Underway s (f t) ∧ (f t).session = t.session ∧
      (f t).write = t.write ∧
      ((f t).sequence = t.sequence ∨ ∀ u ∈ s.transactions, u.session ≠ i → u.sequence = none)) :
    Keeps i s (s.setTransaction i f) := by
  have hcases : ∀ t ∈ (s.setTransaction i f).transactions,
      (t ∈ s.transactions ∧ t.session ≠ i) ∨ ∃ t₀ ∈ s.transactions, t₀.session = i ∧ t = f t₀ := by
    intro t ht
    rcases Table.mem_updateWhere_cases ht with ⟨ht, hp⟩ | ⟨t₀, ht₀, hp, rfl⟩
    · exact .inl ⟨ht, of_decide_eq_false hp⟩
    · exact .inr ⟨t₀, ht₀, of_decide_eq_true hp, rfl⟩
  constructor
  · refine hs.frame le_rfl (fun t ht => ?_) ?_
    · rcases hcases t ht with ⟨ht, -⟩ | ⟨t₀, ht₀, hsession, rfl⟩
      · exact hs.underway t ht
      · exact (hf t₀ ht₀ hsession).1
    · refine List.pairwise_map.2 ((List.Pairwise.imp_of_mem ?_) hs.apart)
      intro t u ht hu h
      obtain ⟨hsession, hid, hseq⟩ := h
      by_cases htsession : t.session = i
      · have husession : u.session ≠ i := fun heq => hsession (htsession.trans heq.symm)
        obtain ⟨-, h₁, h₂, h₃⟩ := hf t ht htsession
        simp only [htsession, husession, decide_true, decide_false, if_true]
        refine ⟨by simpa [h₁] using hsession, by simpa [h₂] using hid, ?_⟩
        rcases h₃ with h₃ | h₃
        · simpa [h₃] using hseq
        · exact .inr (h₃ u hu husession)
      · by_cases husession : u.session = i
        · obtain ⟨-, h₁, h₂, h₃⟩ := hf u hu husession
          simp only [htsession, husession, decide_true, decide_false, if_true]
          refine ⟨by simpa [h₁] using hsession, by simpa [h₂] using hid, ?_⟩
          rcases h₃ with h₃ | h₃
          · simpa [h₃] using hseq
          · exact .inl (h₃ t ht htsession)
        · simp only [htsession, husession, decide_false]
          exact ⟨hsession, hid, hseq⟩
  · intro j hj
    refine .frame (fun u hu hsession => ?_) (fun h => ⟨h, rfl⟩) id
    rcases hcases u hu with ⟨hu, -⟩ | ⟨t₀, ht₀, hi, rfl⟩
    · exact hu
    · exact absurd ((hsession.symm.trans (hf t₀ ht₀ hi).2.1).trans hi) hj

end Frame

end Producers
end Search
end Bookit

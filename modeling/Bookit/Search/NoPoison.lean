import Bookit.Search.InOrder
import Bookit.Search.Shows
import Bookit.Lib.Alone

/-!
# Search.NoPoison — changes that the change capture cannot pass

The change capture refuses a change without a document or without a title, and stays at it.  A
replacement carries its own title, which `update_show` does not check; the document of a soft delete is
looked up, and is gone after a hard delete.  Where neither happens every change is converted, and a
worker whose commands are answered passes them all.
-/

namespace Bookit
namespace Search

open Lib

abbrev ShowPool := Pool ShowStore AdminRep Unit (Except Payments.AppError Json)

/-- Every change that the checkpoint has not passed is converted. -/
def NoPoison (s : ShowStore) : Prop :=
  ∀ position c, s.checkpoint ≤ position → s.changes[position]? = some c →
    ∃ event, s.convert position c = .ok event

/-! ## The condition -/

/-- A replacement that gets through has a title. -/
def Titled (_ : Unit) (_ : ℕ) (l : Link) : AdminCmd → ShowStore → Prop
  | .replaceShow _ d, _ => l ≠ .lost → d.title ≠ ""
  | _, _ => True

/-- A document is removed only when the checkpoint has passed the updates of it. -/
def Settled : ShowEnviron → ShowStore → Prop
  | .hardDelete id, s => ∀ c ∈ s.changes.drop s.checkpoint, c.operationType = "update" → c.showId ≠ id
  | _, _ => True

def SafeWrites (p : ShowPool) (a : Act Link ShowEnviron) : Prop :=
  Machine.Guarded Titled Settled p a

/-! ## Conversion -/

section Conversion

variable {d : Show}

theorem stringField_title : stringField d.toDocument "title" = some d.title := rfl

/-- A document with a title is converted, whatever the operation. -/
theorem changeToOutboxEvent_titled {operation showId : String} {position : ℕ} (h : d.title ≠ "") :
    ∃ event, changeToOutboxEvent operation showId position (some d.toDocument) = .ok event := by
  unfold changeToOutboxEvent
  split_ifs
  · exact ⟨_, rfl⟩
  · simp only
    split_ifs with hdeleted hempty
    · exact ⟨_, rfl⟩
    · rw [stringField_title] at hempty
      simp [h] at hempty
    · exact ⟨_, rfl⟩

end Conversion

/-- What a change has to come with. -/
def Convertible (s : ShowStore) (c : ShowChange) : Prop :=
  c.operationType = "delete" ∨
    (c.operationType = "update" ∧ ∃ d, (c.showId, d) ∈ s.shows) ∨
      (c.operationType ≠ "update" ∧ ∃ d, c.document = some d ∧ d.title ≠ "")

structure ShowsInv (s : ShowStore) : Prop where
  titles : ∀ x ∈ s.shows, x.2.title ≠ ""
  changes : ∀ c ∈ s.changes.drop s.checkpoint, Convertible s c

theorem find_eq_some {s : ShowStore} {id : String} {d : Show} (h : s.find id = some d) :
    (id, d) ∈ s.shows := by
  obtain ⟨x, hx, rfl⟩ := Option.map_eq_some_iff.1 h
  have hid : x.1 = id := by simpa using List.find?_some hx
  exact hid ▸ List.mem_of_find?_eq_some hx

theorem find_isSome {s : ShowStore} {id : String} {d : Show} (h : (id, d) ∈ s.shows) :
    ∃ d', s.find id = some d' := by
  cases hfind : s.shows.find? (fun x => decide (x.1 = id)) with
  | none => exact absurd (List.find?_eq_none.1 hfind _ h) (by simp)
  | some x => exact ⟨x.2, by simp [ShowStore.find, hfind]⟩

theorem ShowsInv.convert {s : ShowStore} (hs : ShowsInv s) {c : ShowChange} (h : Convertible s c)
    (position : ℕ) : ∃ event, s.convert position c = .ok event := by
  unfold ShowStore.convert ShowStore.fullDocument
  rcases h with hop | ⟨hop, d, hd⟩ | ⟨hop, d, hd, htitle⟩
  · rw [hop]
    exact ⟨_, if_pos rfl⟩
  · obtain ⟨d', hfind⟩ := find_isSome hd
    rw [if_pos hop, hfind]
    exact changeToOutboxEvent_titled (hs.titles _ (find_eq_some hfind))
  · rw [if_neg hop, hd]
    exact changeToOutboxEvent_titled htitle

/-- A replacement by a show without a title is converted at no time. -/
theorem convert_untitled {s : ShowStore} {c : ShowChange} {d : Show} {position : ℕ}
    (hop : c.operationType ≠ "update" ∧ c.operationType ≠ "delete") (hd : c.document = some d)
    (htitle : d.title = "") (hdeleted : d.deletedAt = none) :
    s.convert position c = .error "show change does not contain a title" := by
  have hsoft : softDeleted d.toDocument = false := by
    unfold softDeleted Show.toDocument
    rw [hdeleted]
    cases d.categoryIds <;> rfl
  unfold ShowStore.convert ShowStore.fullDocument changeToOutboxEvent
  rw [if_neg hop.1, if_neg hop.2, hd]
  simp [hsoft, stringField_title, htitle]

theorem ShowsInv.noPoison {s : ShowStore} (hs : ShowsInv s) : NoPoison s := by
  intro position c hle hc
  refine hs.convert (hs.changes c ?_) position
  obtain ⟨k, rfl⟩ := Nat.exists_eq_add_of_le hle
  rw [← List.getElem?_drop] at hc
  exact List.mem_of_getElem? hc

/-! ## Writes -/

/-- A write adds one change at most, and leaves the checkpoint. -/
theorem ShowsInv.append {s t : ShowStore} {c : ShowChange} (hs : ShowsInv s)
    (htitles : ∀ x ∈ t.shows, x.2.title ≠ "")
    (hids : ∀ id d, (id, d) ∈ s.shows → ∃ d', (id, d') ∈ t.shows)
    (hchanges : t.changes = s.changes ++ [c]) (hcheckpoint : t.checkpoint = s.checkpoint)
    (hc : Convertible t c) : ShowsInv t := by
  refine ⟨htitles, fun x hx => ?_⟩
  rw [hchanges, hcheckpoint, List.drop_append] at hx
  rcases List.mem_append.1 hx with hx | hx
  · rcases hs.changes x hx with hop | ⟨hop, d, hd⟩ | hdoc
    · exact .inl hop
    · exact .inr (.inl ⟨hop, hids _ d hd⟩)
    · exact .inr (.inr hdoc)
  · rw [List.mem_singleton.1 (List.mem_of_mem_drop hx)]
    exact hc

theorem inv_of_write {s : ShowStore} (hs : ShowsInv s) {id : String} {f : Show → Show}
    {c : ShowChange} (htitle : ∀ x ∈ s.shows, (f x.2).title ≠ "") (hid : c.showId = id)
    (hc : c.operationType ≠ "update" → ∃ d, c.document = some d ∧ d.title ≠ "") :
    ShowsInv (s.write id f c).1 := by
  unfold ShowStore.write
  cases hfind : s.find id with
  | none => exact hs
  | some d =>
      simp only
      split_ifs
      · exact hs
      have hids : ∀ k d, (k, d) ∈ s.shows → ∃ d',
          (k, d') ∈ Table.updateWhere (fun x => decide (x.1 = id)) (fun x => (x.1, f x.2)) s.shows := by
        intro k d hd
        have hmem := Table.mem_updateWhere_of_mem (p := fun x : String × Show => decide (x.1 = id))
          (f := fun x => (x.1, f x.2)) hd
        split_ifs at hmem
        · exact ⟨_, hmem⟩
        · exact ⟨_, hmem⟩
      refine hs.append (fun x hx => ?_) hids rfl rfl ?_
      · rcases Table.mem_updateWhere_cases hx with ⟨hx, -⟩ | ⟨y, hy, -, rfl⟩
        · exact hs.titles x hx
        · exact htitle y hy
      · by_cases hop : c.operationType = "update"
        · refine .inr (.inl ⟨hop, ?_⟩)
          rw [hid]
          exact hids id d (find_eq_some hfind)
        · exact .inr (.inr ⟨hop, hc hop⟩)

theorem inv_of_deliver {l : Link} {run : ShowStore → ShowStore × Unit} {s t : ShowStore}
    {r : Option Unit} (hs : ShowsInv s) (h : l.deliver run s = (t, r))
    (hrun : l ≠ .lost → ShowsInv (run s).1) : ShowsInv t := by
  cases l with
  | ok =>
      obtain ⟨rfl, -⟩ := Prod.mk.inj h
      exact hrun nofun
  | lost =>
      obtain ⟨rfl, -⟩ := Prod.mk.inj h
      exact hs
  | unacked =>
      obtain ⟨rfl, -⟩ := Prod.mk.inj h
      exact hrun nofun

/-- What `create_show` checks. -/
def Created : AdminCmd → Prop
  | .insertShow _ d => d.title ≠ ""
  | _ => True

theorem inv_of_adminExec {n : Unit} {i : ℕ} {l : Link} {c : AdminCmd} {s t : ShowStore}
    {r : AdminRep c} (hs : ShowsInv s) (htitled : Titled n i l c s)
    (hcreated : Created c)
    (h : adminExec l c s = some (t, r)) : ShowsInv t := by
  cases c with
  | findShow id =>
      have hread := Link.deliver_cases (Option.some.inj h)
      rcases hread with ⟨rfl, -⟩ | ⟨rfl, -⟩
      · exact hs
      · exact hs
  | insertShow id d =>
      simp only [adminExec] at h
      split_ifs at h
      · obtain ⟨rfl, -⟩ := Prod.mk.inj (Option.some.inj h)
        exact hs
      refine inv_of_deliver hs (Option.some.inj h) fun _ => ?_
      have htitle : d.title ≠ "" := hcreated
      refine hs.append (c := ⟨"insert", id, some d⟩) (fun x hx => ?_) (fun k d' hd => ?_) rfl rfl ?_
      · rcases List.mem_append.1 hx with hx | hx
        · exact hs.titles x hx
        · rw [List.mem_singleton.1 hx]
          exact htitle
      · exact ⟨d', List.mem_append_left _ hd⟩
      · exact .inr (.inr ⟨show "insert" ≠ "update" by decide, d, rfl, htitle⟩)
  | replaceShow id d =>
      refine inv_of_deliver hs (Option.some.inj h) fun hl => ?_
      exact inv_of_write hs (fun _ _ => htitled hl) rfl fun _ => ⟨d, rfl, htitled hl⟩
  | softDelete id =>
      refine inv_of_deliver hs (Option.some.inj h) fun _ => ?_
      exact inv_of_write hs (fun x hx => hs.titles x hx) rfl fun hop => absurd rfl hop

theorem inv_of_pass {s t : ShowStore} (hs : ShowsInv s) (h : s.pass = some t) : ShowsInv t := by
  unfold ShowStore.pass at h
  split at h
  · cases h
  · split at h
    · cases h
    · obtain rfl := Option.some.inj h
      refine ⟨hs.titles, fun c hc => hs.changes c ?_⟩
      have hc : c ∈ s.changes.drop (s.checkpoint + 1) := hc
      rw [← List.drop_drop] at hc
      exact List.mem_of_mem_drop hc

theorem inv_of_hardDelete {s : ShowStore} (hs : ShowsInv s) {id : String}
    (hsettled : Settled (.hardDelete id) s) : ShowsInv (s.hardDelete id) := by
  refine ⟨fun x hx => hs.titles x (List.mem_of_mem_filter hx), fun c hc => ?_⟩
  have hc : c ∈ (s.changes ++ [(⟨"delete", id, none⟩ : ShowChange)]).drop s.checkpoint := hc
  rw [List.drop_append] at hc
  rcases List.mem_append.1 hc with hc | hc
  · rcases hs.changes c hc with hop | ⟨hop, d, hd⟩ | hdoc
    · exact .inl hop
    · -- the update is of another document
      have hkeep : (c.showId, d) ∈ s.shows.filter fun x => !decide (x.1 = id) :=
        List.mem_filter.2 ⟨hd, by simpa using hsettled c hc hop⟩
      exact .inr (.inl ⟨hop, d, hkeep⟩)
    · exact .inr (.inr hdoc)
  · rw [List.mem_singleton.1 (List.mem_of_mem_drop hc)]
    exact .inl rfl

/-! ## Handlers -/

/-- The handlers write under the guard, and disturb each other as they like. -/
def writes : Contract ShowStore AdminRep Unit Link where
  inv := ShowsInv
  rely _ _ _ := True
  guar _ _ _ := True
  allowed := Titled
  rely_refl _ _ := trivial
  rely_trans _ _ _ _ _ _ := trivial

theorem title_of_not_blank {title : String} (h : Payments.isBlank title = false) : title ≠ "" := by
  rintro rfl
  cases h

section Handlers

variable {now : ℕ} {id : String} {body : CreateShowRequest}

theorem issues_createShow : (createShow now id body).Issues Created := by
  unfold createShow
  split_ifs with hblank
  · trivial
  · refine ⟨title_of_not_blank (Bool.eq_false_iff.2 hblank), fun r => ?_⟩
    match r with
    | none => trivial
    | some () => trivial

theorem issues_updateShow : (updateShow now id body).Issues Created := by
  unfold updateShow
  cases parseObjectId id with
  | none => trivial
  | some oid =>
      refine ⟨trivial, fun r => ?_⟩
      match r with
      | none => trivial
      | some none => trivial
      | some (some existing) =>
          refine ⟨trivial, fun r => ?_⟩
          match r with
          | none => trivial
          | some () => trivial

theorem issues_deleteShow : (deleteShow id).Issues Created := by
  unfold deleteShow
  cases parseObjectId id with
  | none => trivial
  | some oid =>
      refine ⟨trivial, fun r => ?_⟩
      match r with
      | none => trivial
      | some () => trivial

end Handlers

/-- The environment starts handlers, and keeps the invariant where it does not remove a document that
is still looked up. -/
theorem showEnviron_cases {x : ShowEnviron} {s t : ShowStore}
    {new : List (Unit × Admin (Except Payments.AppError Json))} (hs : ShowsInv s)
    (hsettled : Settled x s) (h : showEnviron x s = some (t, new)) :
    ShowsInv t ∧ ∀ n p, (n, p) ∈ new → p.Issues Created := by
  have hone : ∀ {q : Admin (Except Payments.AppError Json)}, q.Issues Created →
      ∀ n p, (n, p) ∈ [((), q)] → p.Issues Created := by
    intro q hq n p hp
    obtain ⟨-, rfl⟩ := Prod.mk.inj (List.mem_singleton.1 hp)
    exact hq
  have hnone : ∀ n p, (n, p) ∈ ([] : List (Unit × Admin (Except Payments.AppError Json))) →
      p.Issues Created := fun _ _ hp => absurd hp List.not_mem_nil
  cases x with
  | tick d =>
      obtain ⟨rfl, rfl⟩ := Prod.mk.inj (Option.some.inj h)
      exact ⟨⟨hs.titles, hs.changes⟩, hnone⟩
  | create newId body =>
      obtain ⟨rfl, rfl⟩ := Prod.mk.inj (Option.some.inj h)
      exact ⟨hs, hone issues_createShow⟩
  | update id body =>
      obtain ⟨rfl, rfl⟩ := Prod.mk.inj (Option.some.inj h)
      exact ⟨hs, hone issues_updateShow⟩
  | delete id =>
      obtain ⟨rfl, rfl⟩ := Prod.mk.inj (Option.some.inj h)
      exact ⟨hs, hone issues_deleteShow⟩
  | hardDelete id =>
      simp only [showEnviron] at h
      split_ifs at h
      obtain ⟨rfl, rfl⟩ := Prod.mk.inj (Option.some.inj h)
      exact ⟨inv_of_hardDelete hs hsettled, hnone⟩
  | pass =>
      obtain ⟨u, hu, heq⟩ := Option.map_eq_some_iff.1 h
      obtain ⟨rfl, rfl⟩ := Prod.mk.inj heq
      exact ⟨inv_of_pass hs hu, hnone⟩

theorem inv_of_run {p : ShowPool} (h : showMachine.system.ReachableUnder SafeWrites p) :
    ShowsInv p.store := by
  have h : showMachine.system.ReachableUnder (Machine.Guarded writes.allowed Settled) p := h
  have hfulfils : showMachine.Fulfils writes (fun _ _ _ _ => True) p := by
    refine Machine.ensures_of_reachable ?_ ?_ (fun i s hs => ⟨hs, fun _ _ => trivial⟩) h
    · rintro s rfl
      exact ⟨fun _ hx => absurd hx List.not_mem_nil, fun _ hc => absurd hc List.not_mem_nil⟩
    · intro x s t new hs hsettled hx
      obtain ⟨ht, hnew⟩ := showEnviron_cases hs hsettled hx
      refine ⟨ht, fun _ => trivial, fun i n q hq _ => ?_⟩
      refine Contract.Ensures.of_issues (fun c hc l s t r hs htitled hex => ?_) (hnew n q hq)
      exact ⟨inv_of_adminExec (n := n) (i := i) hs htitled hc hex, trivial, fun _ _ => trivial⟩
  exact hfulfils.inv

/-! ## The change capture goes on -/

section Capture

/-- A worker whose commands are all answered, over a collection that does not change. -/
def capture (s : ShowStore) (c : Cmd) (t : Store) : Option (Store × Rep c) :=
  match c with
  | .next position => exec 0 ⟨.ok, (s.changes[position]?).bind s.fullDocument⟩ (.next position) t
  | c => exec 0 ⟨.ok, none⟩ c t

def ShowChange.change (c : ShowChange) : Change :=
  { operationType := c.operationType, showId := c.showId }

variable {s : ShowStore} {t : Store}

/-- An event is filed, or was filed before, and the checkpoint moves to it. -/
theorem record_passes (event : SearchOutboxEvent) :
    ∃ u, Prog.evalAlone (capture s) (recordMongoOutboxEvent event) t = some (u, .ok ()) ∧
      u.source = t.source ∧ u.checkpoint = some event.sourceResumeToken := by
  have hadvance : ∀ v : Store, Prog.evalAlone (capture s) (advanceCheckpoint event) v =
      some ({ v with checkpoint := some event.sourceResumeToken }, .ok ()) := fun _ => rfl
  cases hfound : t.outbox.any fun d => decide (d.id = event.sourceResumeToken) with
  | true =>
      have hfind : capture s (.findOne event.sourceResumeToken) t = some (t, some true) := by
        simp [capture, exec, Link.deliver, hfound]
      exact ⟨_, (Prog.evalAlone_call hfind).trans (hadvance t), rfl, rfl⟩
  | false =>
      have hfind : capture s (.findOne event.sourceResumeToken) t = some (t, some false) := by
        simp [capture, exec, Link.deliver, hfound]
      have hnext : capture s .nextSequence t =
        some ({ t with counter := t.counter + 1 }, some (t.counter + 1)) := rfl
      -- the event is filed, or another replica has filed it or taken its sequence
      obtain ⟨u, r, hinsert, hsource⟩ : ∃ u r,
          capture s (.insertOne (outboxDocument event (t.counter + 1)))
            { t with counter := t.counter + 1 } = some (u, some r) ∧ u.source = t.source := by
        refine ⟨_, _, rfl, ?_⟩
        unfold execInsert
        split_ifs <;> rfl
      refine ⟨{ u with checkpoint := some event.sourceResumeToken }, ?_, hsource, rfl⟩
      unfold recordMongoOutboxEvent nextSequence
      simp only [Prog.perform_bind, Prog.call_bind]
      rw [Prog.evalAlone_call hfind]
      simp only
      rw [Prog.evalAlone_call hnext]
      simp only [Prog.pure_eq, Prog.ret_bind]
      rw [Prog.evalAlone_call hinsert]
      rcases r with ⟨⟩ | _
      · exact hadvance u
      · exact hadvance u

theorem capture_next {position : ℕ} {c : ShowChange}
    (hsource : t.source = s.changes.map ShowChange.change)
    (hc : s.changes[position]? = some c) :
    capture s (.next position) t = some (t, some (c.change, s.fullDocument c)) := by
  have hchange : t.source[position]? = some c.change := by
    rw [hsource, List.getElem?_map, hc]
    rfl
  simp only [capture, exec, hchange, hc, Link.deliver]
  rfl

/-- From a position on, a worker passes every change that there is, by induction on what is left. -/
theorem watchStream_passes (budget position : ℕ)
    (hsource : t.source = s.changes.map ShowChange.change)
    (hconvert : ∀ k c, position ≤ k → s.changes[k]? = some c → ∃ event, s.convert k c = .ok event)
    (hlength : position + budget = s.changes.length) :
    ∃ u, Prog.evalAlone (capture s) (watchStream position budget) t = some (u, ()) ∧
      u.checkpoint = if budget = 0 then t.checkpoint else some (s.changes.length - 1) := by
  induction budget generalizing position t with
  | zero => exact ⟨t, rfl, (if_pos rfl).symm⟩
  | succ budget ih =>
      obtain ⟨c, hc⟩ : ∃ c, s.changes[position]? = some c :=
        ⟨_, List.getElem?_eq_getElem (by omega)⟩
      obtain ⟨event, hevent⟩ := hconvert position c le_rfl hc
      have hconv : changeToOutboxEvent c.change.operationType c.change.showId position
          (s.fullDocument c) = .ok event := hevent
      obtain ⟨u, hu, husource, hcheckpoint⟩ := record_passes (s := s) (t := t) event
      have htoken := (changeToOutboxEvent_ok hconv).1
      have hrecord : Prog.evalAlone (capture s)
          (recordChange position c.change (s.fullDocument c)) t = some (u, .ok ()) := by
        simp only [recordChange, hconv]
        exact hu
      obtain ⟨v, hv, hlast⟩ := ih (position + 1) (t := u) (husource.trans hsource)
        (fun k c hk => hconvert k c (by omega)) (by omega)
      refine ⟨v, ?_, ?_⟩
      · refine (Prog.evalAlone_call (capture_next hsource hc)).trans ?_
        show Prog.evalAlone (capture s) (recordChange position c.change (s.fullDocument c) >>= _) t = _
        rw [Prog.evalAlone_bind, hrecord]
        exact hv
      · rw [hlast, hcheckpoint, htoken, if_neg (Nat.succ_ne_zero budget)]
        split_ifs with hzero
        · exact congrArg some (by omega)
        · rfl

end Capture

/-- A worker that resumes after the checkpoint, or later, passes every change that there is. -/
def Passes (s : ShowStore) : Prop :=
  ∀ position t, s.checkpoint ≤ position → position < s.changes.length →
    t.source = s.changes.map ShowChange.change →
    ∃ u, Prog.evalAlone (capture s) (watchStream position (s.changes.length - position)) t =
      some (u, ()) ∧ u.checkpoint = some (s.changes.length - 1)

theorem passes_of_noPoison {s : ShowStore} (h : NoPoison s) : Passes s := by
  intro position t hle hlt hsource
  obtain ⟨u, hu, hcheckpoint⟩ := watchStream_passes (s.changes.length - position) position hsource
    (fun k c hk => h k c (hle.trans hk)) (by omega)
  rw [if_neg (by omega)] at hcheckpoint
  exact ⟨u, hu, hcheckpoint⟩

/-- Where every replacement has a title and no document is removed before the updates of it have been
passed, every change is converted, and the change capture passes them all. -/
theorem captures_every_change (p : ShowPool) (h : showMachine.system.ReachableUnder SafeWrites p) :
    NoPoison p.store ∧ Passes p.store :=
  ⟨(inv_of_run h).noPoison, passes_of_noPoison (inv_of_run h).noPoison⟩

/-! ### Runs on fixed inputs -/

instance {n : Unit} {i : ℕ} {l : Link} {c : AdminCmd} {s : ShowStore} :
    Decidable (Titled n i l c s) := by
  unfold Titled
  split <;> infer_instance

instance {x : ShowEnviron} {s : ShowStore} : Decidable (Settled x s) := by
  unfold Settled
  split <;> infer_instance

instance {p : ShowPool} {a : Act Link ShowEnviron} : Decidable (SafeWrites p a) :=
  inferInstanceAs (Decidable (Machine.Guarded _ _ p a))

def showId : String := "65f000000000000000000001"

/-- A request with a title and nothing else. -/
def titled (title : String) : CreateShowRequest :=
  { showType := .concert, title := title, description := none, tags := none, posterUrl := none
    thumbnailUrl := none, categoryIds := none, venue := none, city := none }

def noShows : ShowPool :=
  ⟨{ now := 0, shows := [], changes := [], checkpoint := 0 }, []⟩

/-- A show is created, changed and deleted; it is removed when the capture has passed that. -/
def wholeLife : List (Act Link ShowEnviron) :=
  [.environ (.create showId (titled "Night Concert")), .run 0 .ok,
    .environ (.update showId (titled "Day Concert")), .run 1 .ok, .run 1 .ok,
    .environ (.delete showId), .run 2 .ok, .environ .pass, .environ .pass, .environ .pass,
    .environ (.hardDelete showId)]

theorem captures_every_change_removed :
    ∃ p : ShowPool, p.store.changes.map (·.operationType) =
        ["insert", "replace", "update", "delete"] ∧ NoPoison p.store ∧ Passes p.store := by
  obtain ⟨p, hp, h⟩ := System.exists_reachable_of_runUnder showMachine.system SafeWrites
    (fun p : ShowPool => decide (p.store.changes.map (·.operationType) =
      ["insert", "replace", "update", "delete"])) (s := noShows) ⟨rfl, rfl⟩ wholeLife
    (by decide +kernel)
  exact ⟨p, of_decide_eq_true h, captures_every_change p hp⟩

/-- A show loses its title. -/
def untitled : List (Act Link ShowEnviron) :=
  [.environ (.create showId (titled "Night Concert")), .run 0 .ok,
    .environ (.update showId (titled "")), .run 1 .ok, .run 1 .ok]

theorem untitled_replacement_poisons :
    ∃ p : ShowPool, showMachine.system.Reachable p ∧ ¬NoPoison p.store := by
  obtain ⟨p, hp, h⟩ := System.exists_reachable_of_run showMachine.system
    (fun p : ShowPool => decide (p.store.checkpoint = 0 ∧
      p.store.changes[1]? = some (⟨"replace", showId, some ((titled "").toShow 0)⟩ : ShowChange)))
    (s := noShows) ⟨rfl, rfl⟩ untitled (by decide +kernel)
  obtain ⟨hcheckpoint, hchange⟩ := of_decide_eq_true h
  refine ⟨p, hp, fun hno => ?_⟩
  obtain ⟨event, hevent⟩ := hno 1 _ (by omega) hchange
  rw [convert_untitled (d := (titled "").toShow 0) (by decide) rfl rfl rfl] at hevent
  cases hevent

end Search
end Bookit

import Bookit.Search.Shows

/-!
# Search.ShowUpdates — what an update of a show leaves of the stored one

The admin handlers write whole documents, each in one transaction with an event for the search index.
`update_show` builds the document anew from its request, and takes the creation time of the one that it
has read before; between the read and the transaction other handlers may write.
-/

namespace Bookit
namespace ShowUpdates

open Lib
open Payments (AppError)
open Search (ShowType parseObjectId)

abbrev ObjectId := String

/-! ## Documents -/

inductive ShowStatus where
  | comingSoon
  | nowShowing
  | ended
  | cancelled
  deriving DecidableEq

structure CastMember where
  name : String
  photoUrl : String
  role : Option String
  displayOrder : Option ℤ
  deriving DecidableEq

structure PerformerInfo where
  name : String
  photoUrl : Option String
  role : Option String
  bio : Option String
  deriving DecidableEq

structure TeamInfo where
  name : String
  logoUrl : Option String
  city : Option String
  captain : Option String
  deriving DecidableEq

/-- A document of `shows`; times are in milliseconds, and a score is given by its bits. -/
structure Show where
  id : Option ObjectId
  showType : ShowType
  title : String
  description : Option String
  tags : List String
  categoryIds : Option (List String)
  posterUrl : Option String
  backdropUrl : Option String
  thumbnailUrl : Option String
  trailerUrl : Option String
  teaserUrl : Option String
  language : Option String
  genre : List String
  score : Option (BitVec 32)
  weight : Option ℤ
  nextStartTime : Option ℕ
  status : ShowStatus
  durationMinutes : Option ℤ
  director : Option String
  directorPhotoUrl : Option String
  cast : Option (List CastMember)
  host : Option String
  hostPhotoUrl : Option String
  performers : Option (List PerformerInfo)
  sport : Option String
  teamA : Option TeamInfo
  teamB : Option TeamInfo
  venue : Option String
  matchRound : Option String
  city : Option String
  createdAt : Option ℕ
  deletedAt : Option ℕ
  deriving DecidableEq

structure CreateShowRequest where
  showType : ShowType
  title : String
  description : Option String
  tags : Option (List String)
  posterUrl : Option String
  backdropUrl : Option String
  thumbnailUrl : Option String
  trailerUrl : Option String
  teaserUrl : Option String
  language : Option String
  genre : Option (List String)
  categoryIds : Option (List String)
  score : Option (BitVec 32)
  weight : Option ℤ
  status : Option ShowStatus
  durationMinutes : Option ℤ
  director : Option String
  directorPhotoUrl : Option String
  cast : Option (List CastMember)
  host : Option String
  hostPhotoUrl : Option String
  performers : Option (List PerformerInfo)
  sport : Option String
  teamA : Option TeamInfo
  teamB : Option TeamInfo
  venue : Option String
  matchRound : Option String
  city : Option String
  deriving DecidableEq

/-- `From<CreateShowRequest> for Show`. -/
def CreateShowRequest.toShow (now : ℕ) (r : CreateShowRequest) : Show :=
  { id := none
    showType := r.showType
    title := r.title
    description := r.description
    tags := r.tags.getD []
    categoryIds := r.categoryIds
    posterUrl := r.posterUrl
    backdropUrl := r.backdropUrl
    thumbnailUrl := r.thumbnailUrl
    trailerUrl := r.trailerUrl
    teaserUrl := r.teaserUrl
    language := r.language
    genre := r.genre.getD []
    score := r.score
    weight := some (r.weight.getD 0)
    nextStartTime := none
    status := r.status.getD .comingSoon
    durationMinutes := r.durationMinutes
    director := r.director
    directorPhotoUrl := r.directorPhotoUrl
    cast := r.cast
    host := r.host
    hostPhotoUrl := r.hostPhotoUrl
    performers := r.performers
    sport := r.sport
    teamA := r.teamA
    teamB := r.teamB
    venue := r.venue
    matchRound := r.matchRound
    city := r.city
    createdAt := some now
    deletedAt := none }

/-! ## The database -/

/-- An event for the search index; `document` is null for a deletion. -/
structure OutboxEvent where
  sequence : ℤ
  showId : ObjectId
  operation : String
  document : Option Show
  createdAt : ℕ
  deriving DecidableEq

structure Store where
  now : ℕ
  shows : List (ObjectId × Show)
  /-- `search_outbox_lsn`. -/
  lsn : ℤ
  /-- `search_outbox_events`. -/
  events : List OutboxEvent

namespace Store

def find (s : Store) (id : ObjectId) : Option Show :=
  (Table.rowAt Prod.fst id s.shows).map Prod.snd

/-- The event that a transaction appends. -/
def append (id : ObjectId) (operation : String) (document : Option Show) (s : Store) : Store :=
  { s with
    lsn := s.lsn + 1
    events := s.events ++ [{ sequence := s.lsn + 1, showId := id, operation := operation
                             document := document, createdAt := s.now }] }

/-- Write the document of an identifier, where it is there. -/
def write (id : ObjectId) (f : Show → Show) (s : Store) : Store :=
  { s with
    shows := Table.updateWhere (fun x => decide (x.1 = id)) (fun x => (x.1, f x.2)) s.shows }

/-- The stored document has the identifier, that of the event has none. -/
def insertShow (id : ObjectId) (d : Show) (s : Store) : Store :=
  Store.append id "upsert" (some d) { s with shows := s.shows ++ [(id, { d with id := some id })] }

def replaceShow (id : ObjectId) (d : Show) (s : Store) : Store :=
  (s.write id fun _ => d).append id "upsert" (some d)

def softDelete (id : ObjectId) (s : Store) : Store :=
  (s.write id fun d => { d with deletedAt := some s.now }).append id "delete" none

end Store

/-! ## Handlers -/

inductive Cmd where
  | findShow (id : ObjectId)
  | insertShow (id : ObjectId) (d : Show)
  | replaceShow (id : ObjectId) (d : Show)
  | softDelete (id : ObjectId)

/-- Replies; a transaction that is not committed, or whose answer does not arrive, has none. -/
abbrev Rep : Cmd → Type
  | .findShow _ => Option (Option Show)
  | _ => Option Unit

def exec (l : Link) : (c : Cmd) → Store → Store × Rep c
  | .findShow id, s => l.deliver (fun s => (s, s.find id)) s
  | .insertShow id d, s =>
      -- identifiers are unique
      if (s.find id).isSome then (s, none)
      else l.deliver (fun s => (s.insertShow id d, ())) s
  | .replaceShow id d, s => l.deliver (fun s => (s.replaceShow id d, ())) s
  | .softDelete id, s => l.deliver (fun s => (s.softDelete id, ())) s

abbrev Handler := Prog Rep (Except AppError Json)

def createShow (now : ℕ) (newId : ObjectId) (body : CreateShowRequest) : Handler :=
  if Payments.isBlank body.title then pure (.error (.badRequest "title is required"))
  else do
    match ← Prog.perform (Cmd.insertShow newId (body.toShow now)) with
    | none => pure (.error (.internal "transaction failed"))
    | some () => pure (.ok (.obj [("id", .str newId)]))

def updateShow (now : ℕ) (id : String) (body : CreateShowRequest) : Handler :=
  match parseObjectId id with
  | none => pure (.error (.badRequest "Invalid show id"))
  | some oid => do
      match ← Prog.perform (Cmd.findShow oid) with
      | none => pure (.error (.internal "database error"))
      | some none => pure (.error (.notFound "Show not found"))
      | some (some existing) =>
          let replacement := { body.toShow now with
            id := some oid
            createdAt := existing.createdAt }
          match ← Prog.perform (Cmd.replaceShow oid replacement) with
          | none => pure (.error (.internal "transaction failed"))
          | some () => pure (.ok (.obj [("updated", .bool true)]))

def deleteShow (id : String) : Handler :=
  match parseObjectId id with
  | none => pure (.error (.badRequest "Invalid show id"))
  | some oid => do
      match ← Prog.perform (Cmd.softDelete oid) with
      | none => pure (.error (.internal "transaction failed"))
      | some () => pure (.ok (.obj [("deleted", .bool true)]))

/-! ## The system -/

inductive Request where
  | create (newId : ObjectId) (body : CreateShowRequest)
  | update (id : String) (body : CreateShowRequest)
  | delete (id : String)
  deriving DecidableEq

def handle (now : ℕ) : Request → Handler
  | .create newId body => createShow now newId body
  | .update id body => updateShow now id body
  | .delete id => deleteShow id

inductive Environ where
  | tick (d : ℕ)
  | request (r : Request)

def environ : Environ → Store → Store × List (Request × Handler)
  | .tick d, s => ({ s with now := s.now + d }, [])
  | .request r, s => (s, [(r, handle s.now r)])

/-- The identifiers of the documents are theirs alone, whatever else they hold. -/
structure Identified (s : Store) : Prop where
  ids : (s.shows.map Prod.fst).Nodup
  own : ∀ x ∈ s.shows, x.2.id = some x.1

/-- Any number of admins' requests over a collection of any shows. -/
def machine : Machine Store Rep Request (Except AppError Json) Link Environ where
  init := Identified
  exec _ _ l c s := some (exec l c s)
  environ x s := some (environ x s)
  close _ s := s

abbrev ShowPool := Pool Store Rep Request (Except AppError Json)

/-! ## The fields that a request cannot express -/

def Show.RestKept (old new : Show) : Prop :=
  new.id = old.id ∧ new.createdAt = old.createdAt ∧ new.deletedAt = old.deletedAt ∧
    new.nextStartTime = old.nextStartTime

/-- The event says that a show is to be found exactly where the show is not deleted. -/
def OutboxEvent.Fits (event : OutboxEvent) (old : Show) : Prop :=
  event.operation = "upsert" ↔ old.deletedAt = none

/-- The document that an update of a show created at a time writes. -/
def CreateShowRequest.updated (body : CreateShowRequest) (id : ObjectId) (createdAt : Option ℕ) :
    Show :=
  { body.toShow 0 with
    id := some id
    createdAt := createdAt }

theorem restKept_updated_iff {old : Show} {id : ObjectId} (body : CreateShowRequest)
    (hid : old.id = some id) :
    old.RestKept (body.updated id old.createdAt) ↔ old.deletedAt = none ∧ old.nextStartTime = none := by
  constructor
  · intro h
    exact ⟨h.2.2.1.symm, h.2.2.2.symm⟩
  · intro h
    exact ⟨hid.symm, rfl, h.1.symm, h.2.symm⟩

/-! ## Writes -/

section Writes

variable {s t : Store} {id : ObjectId} {d : Show}

theorem mem_of_find (h : s.find id = some d) : (id, d) ∈ s.shows := by
  obtain ⟨x, hx, rfl⟩ := Option.map_eq_some_iff.mp h
  have hkey : x.1 = id := Table.key_of_rowAt (Option.mem_def.mpr hx)
  have hmem : x ∈ s.shows := Table.mem_of_rowAt (Option.mem_def.mpr hx)
  exact hkey ▸ hmem

theorem find_of_mem (hs : Identified s) (h : (id, d) ∈ s.shows) : s.find id = some d := by
  have hrow := Table.rowAt_of_mem hs.ids h
  unfold Store.find
  rw [show Prod.fst (id, d) = id from rfl] at hrow
  rw [hrow]
  rfl

theorem write_ids (f : Show → Show) :
    (s.write id f).shows.map Prod.fst = s.shows.map Prod.fst :=
  Table.map_updateWhere fun _ => rfl

theorem mem_write {f : Show → Show} {x : ObjectId × Show} :
    x ∈ (s.write id f).shows → (x ∈ s.shows ∧ x.1 ≠ id) ∨ ∃ d, (id, d) ∈ s.shows ∧ x = (id, f d) := by
  intro hx
  rcases Table.mem_updateWhere_cases hx with ⟨hx, hne⟩ | ⟨y, hy, hid, rfl⟩
  · exact .inl ⟨hx, of_decide_eq_false hne⟩
  · have hid : y.1 = id := of_decide_eq_true hid
    exact .inr ⟨y.2, hid ▸ hy, by rw [hid]⟩

/-- A write keeps the identifiers, where the new document has its own. -/
theorem write_identified (id : ObjectId) {f : Show → Show} (hs : Identified s)
    (hf : ∀ d, (id, d) ∈ s.shows → (f d).id = some id) : Identified (s.write id f) := by
  refine ⟨?_, ?_⟩
  · rw [write_ids]
    exact hs.ids
  · intro x hx
    rcases mem_write hx with ⟨hx, -⟩ | ⟨d, hd, rfl⟩
    · exact hs.own x hx
    · exact hf d hd

theorem find_write (id : ObjectId) (f : Show → Show) (k : ObjectId) (s : Store) :
    (s.write id f).find k = if k = id then (s.find k).map f else s.find k := by
  have hrows : Table.rowAt Prod.fst k (s.write id f).shows =
      (Table.rowAt Prod.fst k s.shows).map fun x =>
        if decide (x.1 = id) then (x.1, f x.2) else x := by
    have hkeys : ∀ x : ObjectId × Show, Prod.fst (x.1, f x.2) = x.1 := fun _ => rfl
    exact Table.rowAt_updateWhere hkeys s.shows
  unfold Store.find
  rw [hrows]
  cases hrow : Table.rowAt Prod.fst k s.shows with
  | none => simp
  | some x =>
      have hkey : x.1 = k := Table.key_of_rowAt (Option.mem_def.mpr hrow)
      by_cases hk : k = id
      · simp [hk, hkey]
      · simp [hk, hkey]

theorem find_insertShow (h : s.find id = none) (k : ObjectId) :
    (s.insertShow id d).find k = if k = id then some { d with id := some id } else s.find k := by
  have hrow : Table.rowAt Prod.fst id s.shows = none := Option.map_eq_none_iff.mp h
  have happend : Table.rowAt Prod.fst k (s.insertShow id d).shows =
      (Table.rowAt Prod.fst k s.shows).or
        (Table.rowAt Prod.fst k [(id, ({ d with id := some id } : Show))]) := List.find?_append
  unfold Store.find
  rw [happend]
  by_cases hk : k = id
  · rw [hk, hrow, if_pos rfl]
    simp [Table.rowAt]
  · rw [if_neg hk]
    simp [Table.rowAt, Ne.symm hk]

/-- Creation times stay, and so do the documents. -/
def CreatedKept (_ : ℕ) (s t : Store) : Prop :=
  ∀ k d, s.find k = some d → ∃ d', t.find k = some d' ∧ d'.createdAt = d.createdAt

theorem write_created {f : Show → Show}
    (hf : ∀ d, s.find id = some d → (f d).createdAt = d.createdAt) (i : ℕ) :
    CreatedKept i s (s.write id f) := by
  intro k d hd
  rw [find_write]
  by_cases hk : k = id
  · subst hk
    rw [if_pos rfl, hd]
    exact ⟨f d, rfl, hf d hd⟩
  · rw [if_neg hk]
    exact ⟨d, hd, rfl⟩

end Writes

/-! ## What the handlers do -/

/-- A step of an update leaves documents and events, or it writes the document of the request in place
of the stored one, with the event. -/
def Updates : Request → Store → Store → Prop
  | .update id body, s, t =>
      (t.shows = s.shows ∧ t.events = s.events) ∨
      ∃ oid old, parseObjectId id = some oid ∧ s.find oid = some old ∧
        t = s.replaceShow oid (body.updated oid old.createdAt)
  | _, _, _ => True

def created : Contract Store Rep Request Link where
  inv := Identified
  rely := CreatedKept
  guar := Updates
  allowed _ _ _ _ _ := True
  rely_refl _ _ := fun _ d hd => ⟨d, hd, rfl⟩
  rely_trans _ _ _ _ h h' := by
    intro k d hd
    obtain ⟨d', hd', hcreated⟩ := h k d hd
    obtain ⟨d'', hd'', hcreated'⟩ := h' k d' hd'
    exact ⟨d'', hd'', hcreated'.trans hcreated⟩

section Handlers

variable {n : Request} {i : ℕ} {s : Store} {id : String} {body : CreateShowRequest} {now : ℕ}

theorem honours_refl (hs : Identified s) (hn : Updates n s s) : created.Honours n i s s :=
  ⟨hs, hn, fun j _ => created.rely_refl j s⟩

theorem updates_refl : Updates n s s := by
  cases n with
  | update id body => exact .inl ⟨rfl, rfl⟩
  | create newId body => trivial
  | delete id => trivial

/-- A read, and an answer for every reply. -/
theorem ensures_ret {b : Except AppError Json} :
    created.Ensures (machine.exec n) n i (fun _ _ => True) (.ret b) s :=
  .ret fun _ _ _ => trivial

theorem ensures_createShow (newId : ObjectId) :
    created.Ensures (machine.exec (.create newId body)) (.create newId body) i (fun _ _ => True)
      (createShow now newId body) s := by
  unfold createShow
  split
  · exact ensures_ret
  · apply Contract.Ensures.call
    intro t _ ht l _ u r hex
    have hex : exec l (.insertShow newId (body.toShow now)) t = (u, r) := Option.some.inj hex
    refine ⟨?_, ?_⟩
    swap
    · match r with
      | none => exact ensures_ret
      | some () => exact ensures_ret
    simp only [exec] at hex
    split_ifs at hex with hthere
    · obtain ⟨rfl, -⟩ := Prod.mk.inj hex
      exact honours_refl ht updates_refl
    · rcases Link.deliver_cases hex with ⟨rfl, -⟩ | ⟨rfl, -⟩
      · exact honours_refl ht updates_refl
      · have hnone : t.find newId = none := by simpa using hthere
        refine ⟨⟨?_, ?_⟩, trivial, ?_⟩
        · have hrow : newId ∉ t.shows.map Prod.fst :=
            Table.rowAt_eq_none.mp (Option.map_eq_none_iff.mp hnone)
          show ((t.shows ++ [_]).map Prod.fst).Nodup
          rw [List.map_append]
          refine List.nodup_append.mpr ⟨ht.ids, List.nodup_singleton _, ?_⟩
          rintro a ha b hb rfl
          obtain rfl : a = newId := List.mem_singleton.mp hb
          exact hrow ha
        · intro x hx
          rcases List.mem_append.mp hx with hx | hx
          · exact ht.own x hx
          · rw [List.mem_singleton.mp hx]
        · intro j _ k d hd
          show ∃ d', (t.insertShow newId (body.toShow now)).find k = some d' ∧ _
          rw [find_insertShow hnone]
          by_cases hk : k = newId
          · rw [hk, hnone] at hd
            cases hd
          · rw [if_neg hk]
            exact ⟨d, hd, rfl⟩

theorem ensures_deleteShow :
    created.Ensures (machine.exec (.delete id)) (.delete id) i (fun _ _ => True) (deleteShow id) s := by
  unfold deleteShow
  split
  · exact ensures_ret
  · next oid _ =>
    apply Contract.Ensures.call
    intro t _ ht l _ u r hex
    have hex : l.deliver (fun s => (s.softDelete oid, ())) t = (u, r) := Option.some.inj hex
    refine ⟨?_, ?_⟩
    · rcases Link.deliver_cases hex with ⟨rfl, -⟩ | ⟨rfl, -⟩
      · exact honours_refl ht updates_refl
      · refine ⟨?_, trivial, fun j _ => ?_⟩
        · have hwrite := write_identified oid
            (f := fun d => { d with deletedAt := some t.now }) ht fun d hd => ht.own _ hd
          exact ⟨hwrite.ids, hwrite.own⟩
        · have hwrite : CreatedKept j t (t.write oid fun d => { d with deletedAt := some t.now }) :=
            write_created (f := fun d => { d with deletedAt := some t.now }) (fun _ _ => rfl) j
          exact hwrite
    · cases r with
      | none => exact ensures_ret
      | some _ => exact ensures_ret

/-- The document of the request has the creation time of the stored one, which no one changes. -/
theorem ensures_updateShow :
    created.Ensures (machine.exec (.update id body)) (.update id body) i (fun _ _ => True)
      (updateShow now id body) s := by
  unfold updateShow
  split
  · exact ensures_ret
  · next oid hoid =>
    simp only [Prog.perform_bind, Prog.pure_eq]
    apply Contract.Ensures.call
    intro t _ ht l _ u r hex
    have hex : l.deliver (fun s => (s, s.find oid)) t = (u, r) := Option.some.inj hex
    have hu : u = t := by
      rcases Link.deliver_cases hex with ⟨rfl, -⟩ | ⟨rfl, -⟩
      · rfl
      · rfl
    subst hu
    refine ⟨honours_refl ht updates_refl, ?_⟩
    rcases r with - | - | existing
    · exact ensures_ret
    · exact ensures_ret
    · have hfound : u.find oid = some existing := by
        rcases Link.deliver_cases hex with ⟨-, hr⟩ | ⟨-, hr | hr⟩
        · cases hr
        · cases hr
        · exact (Option.some.inj hr).symm
      apply Contract.Ensures.call
      intro v huv hv l' _ w r' hex'
      have hex' : l'.deliver (fun s => (s.replaceShow oid (body.updated oid existing.createdAt), ()))
        v = (w, r') := Option.some.inj hex'
      obtain ⟨old, hold, hcreated⟩ := huv oid existing hfound
      refine ⟨?_, ?_⟩
      · rcases Link.deliver_cases hex' with ⟨rfl, -⟩ | ⟨rfl, -⟩
        · exact honours_refl hv updates_refl
        · rw [← hcreated]
          refine ⟨?_, .inr ⟨oid, old, hoid, hold, rfl⟩, fun j _ => ?_⟩
          · have hwrite := write_identified oid
              (f := fun _ => body.updated oid old.createdAt) hv fun _ _ => rfl
            exact ⟨hwrite.ids, hwrite.own⟩
          · have hwrite : CreatedKept j v (v.write oid fun _ => body.updated oid old.createdAt) := by
              apply write_created
              intro d hd
              rw [Option.some.inj (hold.symm.trans hd)]
              rfl
            exact hwrite
      · cases r' with
        | none => exact ensures_ret
        | some _ => exact ensures_ret

theorem ensures_handle (n : Request) :
    created.Ensures (machine.exec n) n i (fun _ _ => True) (handle now n) s := by
  cases n with
  | create newId body => exact ensures_createShow newId
  | update id body => exact ensures_updateShow
  | delete id => exact ensures_deleteShow

end Handlers

/-! ## Runs -/

theorem fulfils_of_run {p : ShowPool} :
    machine.system.Reachable p → machine.Fulfils created (fun _ _ _ _ => True) p := by
  intro h
  have h : machine.system.ReachableUnder (Machine.Guarded created.allowed fun _ _ => True) p :=
    Machine.reachable_guarded (fun _ _ _ _ _ => trivial) h
  refine Machine.ensures_of_reachable (fun s hs => hs) ?_ ?_ h
  · intro x s t new hs _ hx
    have hx : environ x s = (t, new) := Option.some.inj hx
    cases x with
    | tick d =>
        obtain ⟨rfl, rfl⟩ := Prod.mk.inj hx
        refine ⟨⟨hs.ids, hs.own⟩, fun j => created.rely_refl j s, ?_⟩
        exact fun _ _ _ hq => absurd hq List.not_mem_nil
    | request r =>
        obtain ⟨rfl, rfl⟩ := Prod.mk.inj hx
        refine ⟨hs, fun j => created.rely_refl j s, ?_⟩
        intro i n q hq _
        obtain ⟨rfl, rfl⟩ := Prod.mk.inj (List.mem_singleton.mp hq)
        exact ensures_handle n
  · exact fun i s hs => ⟨hs, fun j _ => created.rely_refl j s⟩

/-- A step of an update that writes leaves the fields that its request cannot express, and says of the
show that it is to be found exactly where it is not deleted, if and only if the stored show is neither
deleted nor has a next start. -/
theorem update_keeps_rest_iff (p q : ShowPool) (i : ℕ) (l : Link) (id : String)
    (body : CreateShowRequest) :
    machine.system.Reachable p → p.threads[i]?.map Thread.info = some (.update id body) →
      machine.step p (.run i l) = some q →
        (q.store.shows = p.store.shows ∧ q.store.events = p.store.events) ∨
        ∃ oid old new event, parseObjectId id = some oid ∧
          p.store.find oid = some old ∧ q.store.find oid = some new ∧
          (∀ k, k ≠ oid → q.store.find k = p.store.find k) ∧
          q.store.events = p.store.events ++ [event] ∧ event.showId = oid ∧
          ((old.RestKept new ∧ event.Fits old) ↔
            old.deletedAt = none ∧ old.nextStartTime = none) := by
  intro hp hinfo hst
  have hfulfils := fulfils_of_run hp
  obtain ⟨n, c, k, hruns, hguar⟩ :=
    hfulfils.guar (Machine.Guarded.of_forall (X := Environ) fun _ _ _ _ _ => trivial) hst
  obtain rfl : n = .update id body := by
    rw [hruns] at hinfo
    exact Option.some.inj hinfo
  rcases hguar with hnone | ⟨oid, old, hoid, hold, hq⟩
  · exact .inl hnone
  · have hshow := hfulfils.inv.own _ (mem_of_find hold)
    have hfind : ∀ k, q.store.find k =
        if k = oid then (p.store.find k).map fun _ => body.updated oid old.createdAt
        else p.store.find k := by
      intro k
      rw [hq]
      exact find_write oid (fun _ => body.updated oid old.createdAt) k p.store
    have hevents : q.store.events = p.store.events ++
        [{ sequence := p.store.lsn + 1, showId := oid, operation := "upsert"
           document := some (body.updated oid old.createdAt), createdAt := p.store.now }] := by
      rw [hq]
      rfl
    refine .inr ⟨oid, old, body.updated oid old.createdAt, _, hoid, hold, ?_, ?_, hevents, rfl, ?_⟩
    · rw [hfind, if_pos rfl, hold]
      rfl
    · intro k hk
      rw [hfind, if_neg hk]
    · rw [restKept_updated_iff body hshow]
      constructor
      · exact fun h => h.1
      · exact fun h => ⟨h, ⟨fun _ => h.1, fun _ => rfl⟩⟩

/-! ### Runs on fixed inputs -/

instance (old new : Show) : Decidable (old.RestKept new) := by
  unfold Show.RestKept
  infer_instance

def showId : ObjectId := "65f000000000000000000001"

/-- A request with a title and nothing else. -/
def titled (title : String) : CreateShowRequest :=
  { showType := .concert, title := title, description := none, tags := none, posterUrl := none
    backdropUrl := none, thumbnailUrl := none, trailerUrl := none, teaserUrl := none
    language := none, genre := none, categoryIds := none, score := none, weight := none
    status := none, durationMinutes := none, director := none, directorPhotoUrl := none
    cast := none, host := none, hostPhotoUrl := none, performers := none, sport := none
    teamA := none, teamB := none, venue := none, matchRound := none, city := none }

def noShows : ShowPool :=
  ⟨{ now := 0, shows := [], lsn := 0, events := [] }, []⟩

theorem noShows_init : machine.system.init noShows :=
  ⟨⟨List.nodup_nil, fun _ hx => absurd hx List.not_mem_nil⟩, rfl⟩

/-- What an update at its transaction finds, and what it leaves. -/
def replaces (P : Show → Show → Bool) (p : ShowPool) : Bool :=
  decide (p.threads[2]?.map Thread.info = some (.update showId (titled "Day Concert"))) &&
    match machine.step p (.run 2 .ok) with
    | none => false
    | some q =>
        decide (q.store.events.length = p.store.events.length + 1) &&
          match p.store.find showId, q.store.find showId with
          | some old, some new => P old new
          | _, _ => false

theorem of_replaces {P : Show → Show → Bool} {p : ShowPool} (h : replaces P p = true) :
    p.threads[2]?.map Thread.info = some (.update showId (titled "Day Concert")) ∧
      ∃ q old new, machine.step p (.run 2 .ok) = some q ∧
        q.store.events.length = p.store.events.length + 1 ∧
        p.store.find showId = some old ∧ q.store.find showId = some new ∧ P old new = true := by
  unfold replaces at h
  rw [Bool.and_eq_true, decide_eq_true_eq] at h
  refine ⟨h.1, ?_⟩
  split at h
  · exact absurd h.2 (by decide)
  · next q hq =>
    rw [Bool.and_eq_true, decide_eq_true_eq] at h
    split at h
    · next old new hold hnew => exact ⟨q, old, new, hq, h.2.1, hold, hnew, h.2.2⟩
    · exact absurd h.2.2 (by decide)

/-- A show is created, a handler reads another, and an update gets to its transaction. -/
def untilUpdate (second : Request) : List (Act Link Environ) :=
  [.environ (.request (.create showId (titled "Night Concert"))), .run 0 .ok,
    .environ (.request second), .run 1 .ok,
    .environ (.request (.update showId (titled "Day Concert"))), .run 2 .ok]

theorem update_keeps_rest_iff_active :
    ∃ p q : ShowPool, q.store.events.length = p.store.events.length + 1 ∧
      ((q.store.shows = p.store.shows ∧ q.store.events = p.store.events) ∨
      ∃ oid old new event, parseObjectId showId = some oid ∧
        p.store.find oid = some old ∧ q.store.find oid = some new ∧
        (∀ k, k ≠ oid → q.store.find k = p.store.find k) ∧
        q.store.events = p.store.events ++ [event] ∧ event.showId = oid ∧
        ((old.RestKept new ∧ event.Fits old) ↔
          old.deletedAt = none ∧ old.nextStartTime = none)) := by
  obtain ⟨p, hp, h⟩ := System.exists_reachable_of_run machine.system
    (replaces fun old new => decide (old.RestKept new)) noShows_init
    (untilUpdate (.update showId (titled "Morning Concert"))) (by decide +kernel)
  obtain ⟨hinfo, q, old, new, hst, hlength, -, -, -⟩ := of_replaces h
  exact ⟨p, q, hlength, update_keeps_rest_iff p q 2 .ok showId (titled "Day Concert") hp hinfo hst⟩

/-- The update of a deleted show brings it back. -/
theorem update_revives_deleted :
    ∃ p q : ShowPool, machine.system.Reachable p ∧
      p.threads[2]?.map Thread.info = some (.update showId (titled "Day Concert")) ∧
      machine.step p (.run 2 .ok) = some q ∧
      ∃ old new, p.store.find showId = some old ∧ q.store.find showId = some new ∧
        ¬old.RestKept new := by
  obtain ⟨p, hp, h⟩ := System.exists_reachable_of_run machine.system
    (replaces fun old new => decide ¬old.RestKept new) noShows_init
    (untilUpdate (.delete showId)) (by decide +kernel)
  obtain ⟨hinfo, q, old, new, hst, -, hold, hnew, hP⟩ := of_replaces h
  exact ⟨p, q, hp, hinfo, hst, old, new, hold, hnew, of_decide_eq_true hP⟩

end ShowUpdates
end Bookit

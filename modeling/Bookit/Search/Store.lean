import Bookit.Data.Json
import Bookit.Lib.Threads
import Mathlib.Data.List.MinMax

/-!
# Search.Store — change capture and the search outbox

The show changes of MongoDB, the workers that copy them into the search outbox, and the workers that
apply the outbox to the search index.  A resume token is the position of its change in the stream; a
command is answered, or its request or its answer is lost.
-/

namespace Bookit
namespace Search

open Lib

/-! ## Events -/

/-- A change of the `shows` collection, as the change stream reports it. -/
structure Change where
  operationType : String
  showId : String
  deriving DecidableEq

structure SearchOutboxEvent where
  sourceResumeToken : ℕ
  showId : String
  operation : String
  title : Option String
  city : Option String
  thumbnailUrl : Option String
  venue : Option String
  document : Option Json

def stringField (document : Json) (field : String) : Option String :=
  (document.get field).bind Json.asStr

def stringArrayField (document : Json) (field : String) : Json :=
  .arr ((((document.get field).bind Json.asArray).getD []).filterMap fun v =>
    v.asStr.map Json.str)

def ofOption (s : Option String) : Json :=
  match s with
  | some s => .str s
  | none => .null

def deleteEvent (showId : String) (sourceResumeToken : ℕ) : SearchOutboxEvent :=
  { sourceResumeToken := sourceResumeToken, showId := showId, operation := "delete", title := none,
    city := none, thumbnailUrl := none, venue := none, document := none }

/-- `document.get("deleted_at")` is there and not null. -/
def softDeleted (document : Json) : Bool :=
  match document.get "deleted_at" with
  | none => false
  | some .null => false
  | some _ => true

def changeToOutboxEvent (operation showId : String) (sourceResumeToken : ℕ)
    (fullDocument : Option Json) : Except String SearchOutboxEvent :=
  if operation = "delete" then
    .ok (deleteEvent showId sourceResumeToken)
  else
    match fullDocument with
    | none => .error "change event did not include full_document"
    | some document =>
        if softDeleted document then
          .ok (deleteEvent showId sourceResumeToken)
        else
          let title := stringField document "title"
          let city := stringField document "city"
          let thumbnailUrl := stringField document "thumbnail_url"
          let venue := stringField document "venue"
          if title = none ∨ title = some "" then
            .error "show change does not contain a title"
          else
            .ok
              { sourceResumeToken := sourceResumeToken
                showId := showId
                operation := "upsert"
                title := title
                city := city
                thumbnailUrl := thumbnailUrl
                venue := venue
                document := some (.obj
                  [("id", .str showId),
                   ("title", ofOption title),
                   ("description", ofOption (stringField document "description")),
                   ("tags", stringArrayField document "tags"),
                   ("category_ids", stringArrayField document "category_ids"),
                   ("show_type", ofOption (stringField document "show_type")),
                   ("city", ofOption city),
                   ("venue", ofOption venue),
                   ("thumbnail_url", ofOption thumbnailUrl),
                   ("poster_url", ofOption (stringField document "poster_url"))]) }

/-! ## Collections -/

/-- A document of `search_outbox_events`. -/
structure OutboxDocument where
  id : ℕ
  sequence : ℕ
  showId : String
  operation : String
  title : Option String
  city : Option String
  thumbnailUrl : Option String
  venue : Option String
  document : Option Json

structure Store where
  /-- The changes since the common start position, in stream order. -/
  source : List Change
  /-- `search_outbox_events`, in order of insertion. -/
  outbox : List OutboxDocument
  /-- The counter in `search_outbox_sequence`. -/
  counter : ℕ
  /-- The resume token in `cdc_checkpoints`. -/
  checkpoint : Option ℕ
  /-- The sequence in `search_outbox_checkpoints`. -/
  lastSequence : Option ℕ
  /-- The search index: the stored document of each show. -/
  index : List (String × Json)
  /-- Every sequence a consumer has claimed. -/
  claims : List ℕ

inductive InsertError where
  | duplicateKey
  deriving DecidableEq

inductive Cmd where
  | ensureCollections
  | loadCheckpoint
  | openStream (resumeAfter : Option ℕ)
  | next (position : ℕ)
  | findOne (id : ℕ)
  | nextSequence
  | insertOne (document : OutboxDocument)
  | upsertCheckpoint (token : ℕ)
  | findLastSequence
  | findCandidate (lastSequence : ℕ)
  | putDocument (showId : String) (document : Json)
  | deleteDocument (showId : String)
  | upsertLastSequence (sequence : ℕ)

/-- Replies; a command whose answer does not arrive has none. -/
abbrev Rep : Cmd → Type
  | .loadCheckpoint => Option (Option ℕ)
  | .next _ => Option (Change × Option Json)
  | .findOne _ => Option Bool
  | .nextSequence => Option ℕ
  | .insertOne _ => Option (Except InsertError Unit)
  | .findLastSequence => Option (Option ℕ)
  | .findCandidate _ => Option (Option OutboxDocument)
  | _ => Option Unit

/-- Insertion under the unique indexes on `_id` and on `sequence`. -/
def execInsert (d : OutboxDocument) (s : Store) : Store × Except InsertError Unit :=
  if s.outbox.any fun e => decide (e.id = d.id ∨ e.sequence = d.sequence) then
    (s, .error .duplicateKey)
  else
    ({ s with outbox := s.outbox ++ [d] }, .ok ())

/-- The document with the least sequence above `lastSequence`. -/
def execFindCandidate (lastSequence : ℕ) (s : Store) : Store × Option OutboxDocument :=
  let found := (s.outbox.filter fun d => decide (lastSequence < d.sequence)).argmin (·.sequence)
  ({ s with claims := s.claims ++ (found.map (·.sequence)).toList }, found)

/-- What the run decides about one command: its fate, and the document that the change stream looks
up for a change. -/
structure Outcome where
  link : Link
  lookup : Option Json

def exec (_ : ℕ) (e : Outcome) : (c : Cmd) → Store → Option (Store × Rep c)
  | .ensureCollections, s => some (e.link.deliver (fun s => (s, ())) s)
  | .loadCheckpoint, s => some (e.link.deliver (fun s => (s, s.checkpoint)) s)
  | .openStream _, s => some (e.link.deliver (fun s => (s, ())) s)
  | .next position, s =>
      match s.source[position]? with
      | some change => some (e.link.deliver (fun s => (s, (change, e.lookup))) s)
      | none => none
  | .findOne id, s =>
      some (e.link.deliver (fun s => (s, s.outbox.any fun d => decide (d.id = id))) s)
  | .nextSequence, s =>
      some (e.link.deliver (fun s => ({ s with counter := s.counter + 1 }, s.counter + 1)) s)
  | .insertOne d, s => some (e.link.deliver (execInsert d) s)
  | .upsertCheckpoint token, s =>
      some (e.link.deliver (fun s => ({ s with checkpoint := some token }, ())) s)
  | .findLastSequence, s => some (e.link.deliver (fun s => (s, s.lastSequence)) s)
  | .findCandidate last, s => some (e.link.deliver (execFindCandidate last) s)
  | .putDocument showId document, s =>
      some (e.link.deliver (fun s => ({ s with
        index := s.index.filter (fun d => !decide (d.1 = showId)) ++ [(showId, document)] }, ())) s)
  | .deleteDocument showId, s =>
      some (e.link.deliver (fun s => ({ s with
        index := s.index.filter fun d => !decide (d.1 = showId) }, ())) s)
  | .upsertLastSequence sequence, s =>
      some (e.link.deliver (fun s => ({ s with lastSequence := some sequence }, ())) s)

/-! ## The change-capture worker -/

abbrev Worker := Prog Rep

/-- An event filed under a sequence number. -/
def outboxDocument (event : SearchOutboxEvent) (sequence : ℕ) : OutboxDocument :=
  { id := event.sourceResumeToken, sequence := sequence, showId := event.showId,
    operation := event.operation, title := event.title, city := event.city,
    thumbnailUrl := event.thumbnailUrl, venue := event.venue, document := event.document }

def nextSequence : Worker (Except String ℕ) := do
  match ← Prog.perform Cmd.nextSequence with
  | some sequence => pure (.ok sequence)
  | none => pure (.error "failed to allocate MongoDB search outbox sequence")

/-- The last statement of the hand-off. -/
def advanceCheckpoint (event : SearchOutboxEvent) : Worker (Except String Unit) := do
  match ← Prog.perform (Cmd.upsertCheckpoint event.sourceResumeToken) with
  | some () => pure (.ok ())
  | none => pure (.error "failed to advance MongoDB CDC checkpoint")

def recordMongoOutboxEvent (event : SearchOutboxEvent) : Worker (Except String Unit) := do
  match ← Prog.perform (Cmd.findOne event.sourceResumeToken) with
  | none => pure (.error "failed to check MongoDB search outbox duplicate")
  | some true => advanceCheckpoint event
  | some false =>
      match ← nextSequence with
      | .error e => pure (.error e)
      | .ok sequence =>
          match ← Prog.perform (Cmd.insertOne (outboxDocument event sequence)) with
          | some (.ok ()) => advanceCheckpoint event
          -- another replica has filed the event, or the sequence, first
          | some (.error .duplicateKey) => advanceCheckpoint event
          | none => pure (.error "failed to write MongoDB search outbox event")

/-- One change of the stream, from its report to the moved checkpoint. -/
def recordChange (position : ℕ) (change : Change) (fullDocument : Option Json) :
    Worker (Except String Unit) :=
  match changeToOutboxEvent change.operationType change.showId position fullDocument with
  | .error e => pure (.error e)
  | .ok event => recordMongoOutboxEvent event

/-- The changes from `position` on, up to `budget` of them, until an error breaks the stream. -/
def watchStream (position : ℕ) : ℕ → Worker Unit
  | 0 => pure ()
  | budget + 1 => do
      match ← Prog.perform (Cmd.next position) with
      | none => pure ()
      | some (change, fullDocument) =>
          match ← recordChange position change fullDocument with
          | .error _ => pure ()
          | .ok () => watchStream (position + 1) budget

/-- The worker's loop, one connection for each budget; without a checkpoint it starts where every
replica starts. -/
def watchSearchOutbox : List ℕ → Worker Unit
  | [] => pure ()
  | budget :: budgets => do
      match ← Prog.perform Cmd.ensureCollections with
      | none => watchSearchOutbox budgets
      | some () =>
          match ← Prog.perform Cmd.loadCheckpoint with
          | none => watchSearchOutbox budgets
          | some resumeToken =>
              match ← Prog.perform (Cmd.openStream resumeToken) with
              | none => watchSearchOutbox budgets
              | some () =>
                  let position := match resumeToken with
                    | some token => token + 1
                    | none => 0
                  watchStream position budget
                  watchSearchOutbox budgets

/-! ## The indexing worker -/

def claimNext : Worker (Except String (Option OutboxDocument)) := do
  match ← Prog.perform Cmd.findLastSequence with
  | none => pure (.error "failed to read MongoDB search outbox checkpoint")
  | some checkpoint =>
      match ← Prog.perform (Cmd.findCandidate (checkpoint.getD 0)) with
      | none => pure (.error "failed to read MongoDB search outbox")
      | some candidate => pure (.ok candidate)

def applyEvent (event : OutboxDocument) : Worker (Except String Unit) :=
  if event.operation = "upsert" then
    match event.document with
    | none => pure (.error "upsert search outbox event has no document")
    | some document => do
        match ← Prog.perform (Cmd.putDocument event.showId document) with
        | some () => pure (.ok ())
        | none => pure (.error "index request failed")
  else if event.operation = "delete" then do
    match ← Prog.perform (Cmd.deleteDocument event.showId) with
    | some () => pure (.ok ())
    | none => pure (.error "index request failed")
  else
    pure (.error ("unsupported search outbox operation " ++ event.operation))

def markIndexed (event : OutboxDocument) : Worker (Except String Unit) := do
  match ← Prog.perform (Cmd.upsertLastSequence event.sequence) with
  | some () => pure (.ok ())
  | none => pure (.error "failed to acknowledge MongoDB search outbox event")

/-- The indexing loop, up to `rounds` passes; errors are logged and the loop goes on. -/
def indexSearchOutbox : ℕ → Worker Unit
  | 0 => pure ()
  | rounds + 1 => do
      match ← claimNext with
      | .error _ => indexSearchOutbox rounds
      | .ok none => indexSearchOutbox rounds
      | .ok (some event) =>
          match ← applyEvent event with
          | .error _ => indexSearchOutbox rounds
          | .ok () => do
              let _ ← markIndexed event
              indexSearchOutbox rounds

/-! ## The system -/

/-- What happens around the workers: a show changes, a worker of either kind starts. -/
inductive Environ where
  | change (c : Change)
  | startReplica (budgets : List ℕ)
  | startIndexer (rounds : ℕ)

def environ : Environ → Store → Option (Store × List (Unit × Worker Unit))
  | .change c, s => some ({ s with source := s.source ++ [c] }, [])
  | .startReplica budgets, s => some (s, [((), watchSearchOutbox budgets)])
  | .startIndexer rounds, s => some (s, [((), indexSearchOutbox rounds)])

def emptyStore : Store :=
  { source := [], outbox := [], counter := 0, checkpoint := none, lastSequence := none, index := [],
    claims := [] }

/-- Any number of replicas and of indexing workers over one database. -/
def machine : Machine Store Rep Unit Unit Outcome Environ where
  init s := s = emptyStore
  exec _ := exec
  environ := environ
  close _ s := s

end Search
end Bookit

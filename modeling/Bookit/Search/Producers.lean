import Bookit.Search.Shows

/-!
# Search.Producers — two producers of one search outbox

The admin handlers append a row to the search outbox in the transaction that writes the show,
under a number of `search_outbox_lsn`; the change capture appends a row for the change that the
write leaves in the stream, under a number of `search_outbox_sequence`.  The numbers of the rows
are unique.  The TTL index removes old rows, at any time here.  There is one change capture at a
time, and one worker that applies the rows to the search index.
-/

namespace Bookit
namespace Search
namespace Producers

open Lib
open Payments (AppError)

/-! ## The databases -/

inductive Producer where
  | adminApi
  | changeCapture
  deriving DecidableEq

/-- A document of `search_outbox_events`.  The `_id` of the change capture's is the resume token; that
of the admin API's is an object identifier, which nothing reads. -/
structure Row where
  producer : Producer
  event : OutboxDocument

/-- What a handler writes to the show collection. -/
inductive ShowWrite where
  | insert (id : String) (d : Show)
  | replace (id : String) (d : Show)
  | softDelete (id : String) (deletedAt : ℕ)

namespace ShowWrite

def showId : ShowWrite → String
  | insert id _ => id
  | replace id _ => id
  | softDelete id _ => id

def apply (s : ShowStore) : ShowWrite → ShowStore
  | insert id d => (s.insertShow id d).1
  | replace id d => (s.replaceShow id d).1
  | softDelete id deletedAt =>
      (s.write id (fun d => { d with deletedAt := some deletedAt }) ⟨"update", id, none⟩).1

end ShowWrite

/-- A transaction from its first statement on. -/
structure Transaction where
  session : ℕ
  write : ShowWrite
  /-- `search_outbox_lsn` as the transaction sees it. -/
  snapshot : ℕ
  /-- The number that it has drawn. -/
  sequence : Option ℕ
  /-- The row that it has inserted. -/
  event : Option OutboxDocument

structure State where
  now : ℕ
  shows : List (String × Show)
  changes : List ShowChange
  /-- `search_outbox_events`. -/
  rows : List Row
  /-- `search_outbox_lsn`. -/
  lsn : ℕ
  /-- `search_outbox_sequence`. -/
  counter : ℕ
  /-- The resume token in `cdc_checkpoints`. -/
  checkpoint : Option ℕ
  /-- The sequence in `search_outbox_checkpoints`. -/
  lastSequence : Option ℕ
  /-- The search index. -/
  index : List (String × Json)
  /-- The transactions that are under way. -/
  transactions : List Transaction
  /-- The session of the change capture that is running. -/
  capturing : Option ℕ
  /-- The session of the indexing worker that is running. -/
  indexing : Option ℕ
  /-- Every number under which a row has been filed. -/
  filed : List ℕ
  /-- Every number that has been acknowledged. -/
  acknowledged : List ℕ

namespace State

/-- How many changes the checkpoint of the change capture has passed. -/
def passed (s : State) : ℕ :=
  match s.checkpoint with
  | some token => token + 1
  | none => 0

/-- The last acknowledged sequence, `0` where there is none. -/
def last (s : State) : ℕ :=
  s.lastSequence.getD 0

def catalogue (s : State) : ShowStore :=
  { now := s.now, shows := s.shows, changes := s.changes, checkpoint := s.passed }

end State

inductive MongoError where
  | unanswered
  | noTransaction
  | writeConflict (collection : String)
  | duplicateKey (collection : String)
  deriving DecidableEq

def MongoError.text : MongoError → String
  | unanswered => "Server selection timeout"
  | noTransaction => "NoSuchTransaction"
  | writeConflict collection => "WriteConflict: " ++ collection
  | duplicateKey collection => "E11000 duplicate key error collection: " ++ collection

/-! ## Commands -/

inductive Command where
  /-- A command of the change capture or of the indexing worker. -/
  | search (c : Cmd)
  | findShow (id : String)
  | insertShow (id : String) (d : Show)
  | replaceShow (id : String) (d : Show)
  | softDelete (id : String)
  | nextLsn
  | insertEvent (d : OutboxDocument)
  | commitTransaction

abbrev Reply : Command → Type
  | .search c => Rep c
  | .findShow _ => Except MongoError (Option Show)
  | .nextLsn => Except MongoError ℕ
  | _ => Except MongoError Unit

/-- A row comes to be there. -/
def State.file (r : Row) (s : State) : State :=
  { s with rows := s.rows ++ [r], filed := s.filed ++ [r.event.sequence] }

/-- Insertion of the change capture under the unique indexes on `_id` and on `sequence`. -/
def insertCaptured (d : OutboxDocument) (s : State) : State × Except InsertError Unit :=
  if s.rows.any fun r => decide ((r.producer = .changeCapture ∧ r.event.id = d.id) ∨
      r.event.sequence = d.sequence) then
    (s, .error .duplicateKey)
  else
    (s.file ⟨.changeCapture, d⟩, .ok ())

/-- The row with the least sequence above `lastSequence`. -/
def findCandidate (lastSequence : ℕ) (s : State) : Option OutboxDocument :=
  ((s.rows.map Row.event).filter fun d => decide (lastSequence < d.sequence)).argmin (·.sequence)

/-- Commands of the two workers.  A request that the index refuses is one that is lost. -/
def searchExec (l : Link) : (c : Cmd) → State → Option (State × Rep c)
  | .ensureCollections, s => some (l.deliver (fun s => (s, ())) s)
  | .loadCheckpoint, s => some (l.deliver (fun s => (s, s.checkpoint)) s)
  | .openStream _, s => some (l.deliver (fun s => (s, ())) s)
  | .next position, s =>
      match s.changes[position]? with
      | some c => some (l.deliver (fun s =>
          (s, (⟨c.operationType, c.showId⟩, s.catalogue.fullDocument c))) s)
      | none => none
  | .findOne id, s =>
      some (l.deliver (fun s => (s, s.rows.any fun r =>
        decide (r.producer = .changeCapture ∧ r.event.id = id))) s)
  | .nextSequence, s =>
      some (l.deliver (fun s => ({ s with counter := s.counter + 1 }, s.counter + 1)) s)
  | .insertOne d, s =>
      -- the insertion waits for a transaction that has inserted the number
      if s.transactions.any fun t => t.event.any fun e => decide (e.sequence = d.sequence) then none
      else some (l.deliver (insertCaptured d) s)
  | .upsertCheckpoint token, s =>
      some (l.deliver (fun s => ({ s with checkpoint := some token }, ())) s)
  | .findLastSequence, s => some (l.deliver (fun s => (s, s.lastSequence)) s)
  | .findCandidate last, s => some (l.deliver (fun s => (s, findCandidate last s)) s)
  | .putDocument showId document, s =>
      some (l.deliver (fun s => ({ s with
        index := s.index.filter (fun x => !decide (x.1 = showId)) ++ [(showId, document)] }, ())) s)
  | .deleteDocument showId, s =>
      some (l.deliver (fun s => ({ s with
        index := s.index.filter fun x => !decide (x.1 = showId) }, ())) s)
  | .upsertLastSequence sequence, s =>
      some (l.deliver (fun s => ({ s with
        lastSequence := some sequence, acknowledged := s.acknowledged ++ [sequence] }, ())) s)

namespace State

/-- The transaction of a session. -/
def transaction (i : ℕ) (s : State) : Option Transaction :=
  s.transactions.find? fun t => decide (t.session = i)

def abort (i : ℕ) (s : State) : State :=
  { s with transactions := s.transactions.filter fun t => !decide (t.session = i) }

/-- Change the transaction of a session. -/
def setTransaction (i : ℕ) (f : Transaction → Transaction) (s : State) : State :=
  { s with transactions := Table.updateWhere (fun t => decide (t.session = i)) f s.transactions }

/-- The first statement of a transaction, which another transaction may be in the way of. -/
def begin (i : ℕ) (w : ShowWrite) (s : State) : State × Except MongoError Unit :=
  if s.transactions.any fun t => decide (t.write.showId = w.showId) then
    (s, .error (.writeConflict "shows"))
  else
    ({ s with transactions := s.transactions ++
      [{ session := i, write := w, snapshot := s.lsn, sequence := none, event := none }] }, .ok ())

/-- `$inc` of the one document of `search_outbox_lsn`: a conflict where another transaction has written
it, or has since the transaction began. -/
def nextLsn (i : ℕ) (s : State) : State × Except MongoError ℕ :=
  match s.transaction i with
  | none => (s, .error .noTransaction)
  | some t =>
      if t.snapshot ≠ s.lsn ∨ s.transactions.any (fun u => u.sequence.isSome) then
        (s.abort i, .error (.writeConflict "search_outbox_lsn"))
      else
        (s.setTransaction i fun t => { t with sequence := some (s.lsn + 1) }, .ok (s.lsn + 1))

def insertEvent (i : ℕ) (d : OutboxDocument) (s : State) : State × Except MongoError Unit :=
  match s.transaction i with
  | none => (s, .error .noTransaction)
  | some _ =>
      if s.rows.any fun r => decide (r.event.sequence = d.sequence) then
        (s.abort i, .error (.duplicateKey "search_outbox_events"))
      else
        (s.setTransaction i fun t => { t with event := some d }, .ok ())

/-- The effect of a transaction. -/
def commit (t : Transaction) (s : State) : State :=
  let c := t.write.apply s.catalogue
  { s with
    shows := c.shows
    changes := c.changes
    lsn := t.sequence.getD s.lsn
    rows := s.rows ++ (t.event.map (Row.mk .adminApi)).toList
    filed := s.filed ++ (t.event.map OutboxDocument.sequence).toList }

def commitTransaction (i : ℕ) (s : State) : State × Except MongoError Unit :=
  match s.transaction i with
  | none => (s, .error .noTransaction)
  | some t => ((s.commit t).abort i, .ok ())

end State

/-- A statement over a link. -/
def answer {α : Type} (l : Link) (run : State → State × Except MongoError α) (s : State) :
    State × Except MongoError α :=
  ((l.deliver run s).1, (l.deliver run s).2.getD (.error .unanswered))

def adminExec (i : ℕ) (l : Link) : (c : Command) → State → Option (State × Reply c)
  | .search _, _ => none
  | .findShow id, s => some (answer l (fun s => (s, .ok (s.catalogue.find id))) s)
  | .insertShow id d, s =>
      some (answer l (fun s =>
        if (s.catalogue.find id).isSome then (s, .error (.duplicateKey "shows"))
        else s.begin i (.insert id d)) s)
  | .replaceShow id d, s => some (answer l (State.begin i (.replace id d)) s)
  | .softDelete id, s => some (answer l (fun s => s.begin i (.softDelete id s.now)) s)
  | .nextLsn, s => some (answer l (State.nextLsn i) s)
  | .insertEvent d, s => some (answer l (State.insertEvent i d) s)
  | .commitTransaction, s => some (answer l (State.commitTransaction i) s)

/-! ## Admin handlers -/

abbrev Handler := Prog Reply

/-- The row of a handler. -/
def outboxEvent (showId operation : String) (document : Option Json) (sequence : ℕ) : OutboxDocument :=
  { id := 0, sequence := sequence, showId := showId, operation := operation, title := none
    city := none, thumbnailUrl := none, venue := none, document := document }

/-- The statements of a transaction after the write of the show. -/
def appendOutboxEvent (showId operation : String) (document : Option Json) :
    Handler (Except AppError Unit) := do
  match ← Prog.perform Command.nextLsn with
  | .error e => pure (.error (.internal e.text))
  | .ok sequence =>
      match ← Prog.perform (Command.insertEvent (outboxEvent showId operation document sequence)) with
      | .error e => pure (.error (.internal e.text))
      | .ok () =>
          match ← Prog.perform Command.commitTransaction with
          | .error e => pure (.error (.internal e.text))
          | .ok () => pure (.ok ())

def createShow (now : ℕ) (newId : String) (body : CreateShowRequest) :
    Handler (Except AppError Json) :=
  if Payments.isBlank body.title then
    pure (.error (.badRequest "title is required"))
  else do
    let d := body.toShow now
    match ← Prog.perform (Command.insertShow newId d) with
    | .error e => pure (.error (.internal e.text))
    | .ok () =>
        match ← appendOutboxEvent newId "upsert" (some d.toDocument) with
        | .error e => pure (.error e)
        | .ok () => pure (.ok (.obj [("id", .str newId)]))

/-- The document of a show with its identifier. -/
def identified (id : String) : Json → Json
  | .obj fields => .obj (("_id", .str id) :: fields)
  | j => j

def updateShow (now : ℕ) (id : String) (body : CreateShowRequest) :
    Handler (Except AppError Json) :=
  match parseObjectId id with
  | none => pure (.error (.badRequest "Invalid show id"))
  | some oid => do
      match ← Prog.perform (Command.findShow oid) with
      | .error e => pure (.error (.internal e.text))
      | .ok none => pure (.error (.notFound "Show not found"))
      | .ok (some existing) =>
          let d := { body.toShow now with createdAt := existing.createdAt }
          match ← Prog.perform (Command.replaceShow oid d) with
          | .error e => pure (.error (.internal e.text))
          | .ok () =>
              match ← appendOutboxEvent oid "upsert" (some (identified oid d.toDocument)) with
              | .error e => pure (.error e)
              | .ok () => pure (.ok (.obj [("updated", .bool true)]))

def deleteShow (id : String) : Handler (Except AppError Json) :=
  match parseObjectId id with
  | none => pure (.error (.badRequest "Invalid show id"))
  | some oid => do
      match ← Prog.perform (Command.softDelete oid) with
      | .error e => pure (.error (.internal e.text))
      | .ok () =>
          match ← appendOutboxEvent oid "delete" none with
          | .error e => pure (.error e)
          | .ok () => pure (.ok (.obj [("deleted", .bool true)]))

/-! ## The system -/

inductive Role where
  | admin
  | capture
  | indexer
  deriving DecidableEq

namespace State

/-- A worker runs while no other of its kind does. -/
def free (n : Role) (i : ℕ) (s : State) : Bool :=
  match n with
  | .admin => false
  | .capture => decide (s.capturing = none ∨ s.capturing = some i)
  | .indexer => decide (s.indexing = none ∨ s.indexing = some i)

def hold (n : Role) (i : ℕ) (s : State) : State :=
  match n with
  | .admin => s
  | .capture => { s with capturing := some i }
  | .indexer => { s with indexing := some i }

end State

def exec (n : Role) (i : ℕ) (l : Link) : (c : Command) → State → Option (State × Reply c)
  | .search c, s => if s.free n i then searchExec l c (s.hold n i) else none
  | c, s => adminExec i l c s

/-- A session that is lost: its transaction is aborted, and a worker may take its place. -/
def close (i : ℕ) (s : State) : State :=
  { s.abort i with
    capturing := if s.capturing = some i then none else s.capturing
    indexing := if s.indexing = some i then none else s.indexing }

/-- What a session returns: a handler its response, a worker nothing. -/
abbrev Response := Option (Except AppError Json)

inductive Environ where
  | tick (d : ℕ)
  | create (newId : String) (body : CreateShowRequest)
  | update (id : String) (body : CreateShowRequest)
  | delete (id : String)
  | startCapture (budgets : List ℕ)
  | startIndexer (rounds : ℕ)
  /-- The server aborts the transaction of a session. -/
  | abort (i : ℕ)
  /-- The TTL index removes a row. -/
  | expire (sequence : ℕ)

def respond (p : Handler (Except AppError Json)) : Handler Response := do
  let r ← p
  pure (some r)

/-- A worker as a session of the system. -/
def work (p : Worker Unit) : Handler Response :=
  (p.hoist fun c => Prog.perform (Command.search c)) >>= fun _ => pure none

def environ : Environ → State → Option (State × List (Role × Handler Response))
  | .tick d, s => some ({ s with now := s.now + d }, [])
  | .create newId body, s => some (s, [(.admin, respond (createShow s.now newId body))])
  | .update id body, s => some (s, [(.admin, respond (updateShow s.now id body))])
  | .delete id, s => some (s, [(.admin, respond (deleteShow id))])
  | .startCapture budgets, s => some (s, [(.capture, work (watchSearchOutbox budgets))])
  | .startIndexer rounds, s => some (s, [(.indexer, work (indexSearchOutbox rounds))])
  | .abort i, s => some (s.abort i, [])
  | .expire sequence, s =>
      some ({ s with rows := s.rows.filter fun r => !decide (r.event.sequence = sequence) }, [])

def emptyState : State :=
  { now := 0, shows := [], changes := [], rows := [], lsn := 0, counter := 0, checkpoint := none
    lastSequence := none, index := [], transactions := [], capturing := none, indexing := none
    filed := [], acknowledged := [] }

def machine : Machine State Reply Role Response Link Environ where
  init s := s = emptyState
  exec := exec
  environ := environ
  close := close

abbrev ProducerPool := Pool State Reply Role Response

/-! ## What the index has to say -/

/-- What the index keeps of a document: the fields of its mapping. -/
def indexedFields (document : Json) : List Json :=
  (["title", "description", "city", "venue", "thumbnail_url", "poster_url", "show_type"].map
      fun field => ofOption (stringField document field)) ++
    ["category_ids", "tags"].map fun field => stringArrayField document field

/-- A show that is there and not deleted. -/
def State.live (s : State) (id : String) : Option Show :=
  (s.catalogue.find id).filter fun d => d.deletedAt.isNone

/-- The document of a show in the index. -/
def State.indexed (s : State) (id : String) : Option Json :=
  (s.index.find? fun x => decide (x.1 = id)).map Prod.snd

/-- The document says what the show says; there is none where there is no show. -/
def Tells (live : Option Show) (document : Option Json) : Prop :=
  document.map indexedFields = live.map fun d => indexedFields d.toDocument

/-- Every change is passed and every row acknowledged. -/
structure Drained (s : State) : Prop where
  changes : s.passed = s.changes.length
  rows : ∀ r ∈ s.rows, r.event.sequence ≤ s.last

/-- Every row that has been filed is acknowledged, or there and still to be claimed. -/
def NothingSkipped (s : State) : Prop :=
  ∀ n ∈ s.filed, n ∈ s.acknowledged ∨ ∃ r ∈ s.rows, r.event.sequence = n ∧ s.last < n

/-- An error of the outbox and its counter. -/
def OutboxError (e : AppError) : Prop :=
  e = .internal (MongoError.writeConflict "search_outbox_lsn").text ∨
    e = .internal (MongoError.duplicateKey "search_outbox_events").text

/-- The error that a session has answered with. -/
def refusal (p : ProducerPool) (i : ℕ) : Option AppError :=
  match p.result i with
  | some (_, some (.error e)) => some e
  | _ => none

/-- No admin handler has answered with an error of the outbox. -/
def NoWriteFails (p : ProducerPool) : Prop :=
  ∀ i e, refusal p i = some e → ¬OutboxError e

/-- The index agrees with the show collection. -/
def Converged (s : State) : Prop :=
  ∀ id, Tells (s.live id) (s.indexed id)

end Producers
end Search
end Bookit

import Bookit.Search.Store
import Bookit.Payments.Request

/-!
# Search.Shows — the show collection and its change stream

The admin handlers write a show in one transaction each, and an operator may remove a document.  A write
that changes a document is reported in the change stream: an insert or a replacement with the document
that was written, an update with the document as it is when the change is processed.
-/

namespace Bookit
namespace Search

open Lib
open Payments (AppError)

/-! ## Documents -/

inductive ShowType where
  | movie
  | concert
  | event
  | gameEvent
  deriving DecidableEq

def ShowType.name : ShowType → String
  | .movie => "Movie"
  | .concert => "Concert"
  | .event => "Event"
  | .gameEvent => "GameEvent"

/-- The fields of a show that the change capture reads, and its timestamps. -/
structure Show where
  showType : ShowType
  title : String
  description : Option String
  tags : List String
  categoryIds : Option (List String)
  posterUrl : Option String
  thumbnailUrl : Option String
  venue : Option String
  city : Option String
  createdAt : Option ℕ
  deletedAt : Option ℕ
  deriving DecidableEq

structure CreateShowRequest where
  showType : ShowType
  title : String
  description : Option String
  tags : Option (List String)
  posterUrl : Option String
  thumbnailUrl : Option String
  categoryIds : Option (List String)
  venue : Option String
  city : Option String

def CreateShowRequest.toShow (now : ℕ) (r : CreateShowRequest) : Show :=
  { showType := r.showType, title := r.title, description := r.description
    tags := r.tags.getD [], categoryIds := r.categoryIds, posterUrl := r.posterUrl
    thumbnailUrl := r.thumbnailUrl, venue := r.venue, city := r.city
    createdAt := some now, deletedAt := none }

def strings (xs : List String) : Json :=
  .arr (xs.map Json.str)

/-- A date, or null. -/
def dateTime : Option ℕ → Json
  | some t => .num t
  | none => .null

/-- The document of a show; `category_ids` is left out where there are none. -/
def Show.toDocument (d : Show) : Json :=
  .obj ([("show_type", .str d.showType.name), ("title", .str d.title),
    ("description", ofOption d.description), ("tags", strings d.tags)] ++
    (d.categoryIds.map fun ids => ("category_ids", strings ids)).toList ++
    [("poster_url", ofOption d.posterUrl), ("thumbnail_url", ofOption d.thumbnailUrl),
      ("venue", ofOption d.venue), ("city", ofOption d.city),
      ("created_at", dateTime d.createdAt), ("deleted_at", dateTime d.deletedAt)])

/-! ## The collection -/

/-- A change of the collection; an insert and a replacement carry the document. -/
structure ShowChange where
  operationType : String
  showId : String
  document : Option Show
  deriving DecidableEq

structure ShowStore where
  now : ℕ
  shows : List (String × Show)
  changes : List ShowChange
  /-- How many changes the checkpoint of the change capture has passed. -/
  checkpoint : ℕ

namespace ShowStore

def find (s : ShowStore) (id : String) : Option Show :=
  (s.shows.find? fun x => decide (x.1 = id)).map Prod.snd

def insertShow (id : String) (d : Show) (s : ShowStore) : ShowStore × Unit :=
  ({ s with
      shows := s.shows ++ [(id, d)]
      changes := s.changes ++ [⟨"insert", id, some d⟩] }, ())

/-- Write a document that is there; a write that changes nothing is not reported. -/
def write (id : String) (f : Show → Show) (change : ShowChange) (s : ShowStore) :
    ShowStore × Unit :=
  match s.find id with
  | none => (s, ())
  | some d =>
      if f d = d then (s, ())
      else
        ({ s with
          shows := Table.updateWhere (fun x => decide (x.1 = id)) (fun x => (x.1, f x.2)) s.shows
          changes := s.changes ++ [change] }, ())

def replaceShow (id : String) (d : Show) : ShowStore → ShowStore × Unit :=
  write id (fun _ => d) ⟨"replace", id, some d⟩

def softDelete (id : String) (s : ShowStore) : ShowStore × Unit :=
  s.write id (fun d => { d with deletedAt := some s.now }) ⟨"update", id, none⟩

/-- Remove a document that is there. -/
def hardDelete (id : String) (s : ShowStore) : ShowStore :=
  { s with
    shows := s.shows.filter fun x => !decide (x.1 = id)
    changes := s.changes ++ [⟨"delete", id, none⟩] }

/-- The document that comes with a change: that of an update is looked up. -/
def fullDocument (s : ShowStore) (c : ShowChange) : Option Json :=
  if c.operationType = "update" then (s.find c.showId).map Show.toDocument
  else c.document.map Show.toDocument

/-- What the change capture makes of a change. -/
def convert (s : ShowStore) (position : ℕ) (c : ShowChange) : Except String SearchOutboxEvent :=
  changeToOutboxEvent c.operationType c.showId position (s.fullDocument c)

end ShowStore

/-! ## Admin handlers -/

inductive AdminCmd where
  | findShow (id : String)
  | insertShow (id : String) (d : Show)
  | replaceShow (id : String) (d : Show)
  | softDelete (id : String)

/-- Replies; a transaction that is not committed, or whose answer does not arrive, has none. -/
abbrev AdminRep : AdminCmd → Type
  | .findShow _ => Option (Option Show)
  | _ => Option Unit

def adminExec (l : Link) : (c : AdminCmd) → ShowStore → Option (ShowStore × AdminRep c)
  | .findShow id, s => some (l.deliver (fun s => (s, s.find id)) s)
  | .insertShow id d, s =>
      -- identifiers are unique
      if s.shows.any fun x => decide (x.1 = id) then some (s, none)
      else some (l.deliver (ShowStore.insertShow id d) s)
  | .replaceShow id d, s => some (l.deliver (ShowStore.replaceShow id d) s)
  | .softDelete id, s => some (l.deliver (ShowStore.softDelete id) s)

abbrev Admin := Prog AdminRep

def isHexDigit (c : Char) : Bool :=
  c.isDigit || decide ('a' ≤ c ∧ c ≤ 'f') || decide ('A' ≤ c ∧ c ≤ 'F')

/-- `ObjectId::parse_str`, and back to its hex form. -/
def parseObjectId (id : String) : Option String :=
  if id.toList.length = 24 ∧ id.toList.all isHexDigit then some (id.map Char.toLower) else none

def createShow (now : ℕ) (newId : String) (body : CreateShowRequest) :
    Admin (Except AppError Json) :=
  if Payments.isBlank body.title then
    pure (.error (.badRequest "title is required"))
  else do
    match ← Prog.perform (AdminCmd.insertShow newId (body.toShow now)) with
    | none => pure (.error (.internal "transaction failed"))
    | some () => pure (.ok (.obj [("id", .str newId)]))

/-- The title is not checked here. -/
def updateShow (now : ℕ) (id : String) (body : CreateShowRequest) :
    Admin (Except AppError Json) :=
  match parseObjectId id with
  | none => pure (.error (.badRequest "Invalid show id"))
  | some oid => do
      match ← Prog.perform (AdminCmd.findShow oid) with
      | none => pure (.error (.internal "database error"))
      | some none => pure (.error (.notFound "Show not found"))
      | some (some existing) =>
          match ← Prog.perform
              (AdminCmd.replaceShow oid { body.toShow now with createdAt := existing.createdAt }) with
          | none => pure (.error (.internal "transaction failed"))
          | some () => pure (.ok (.obj [("updated", .bool true)]))

def deleteShow (id : String) : Admin (Except AppError Json) :=
  match parseObjectId id with
  | none => pure (.error (.badRequest "Invalid show id"))
  | some oid => do
      match ← Prog.perform (AdminCmd.softDelete oid) with
      | none => pure (.error (.internal "transaction failed"))
      | some () => pure (.ok (.obj [("deleted", .bool true)]))

/-! ## The system -/

inductive ShowEnviron where
  | tick (d : ℕ)
  | create (newId : String) (body : CreateShowRequest)
  | update (id : String) (body : CreateShowRequest)
  | delete (id : String)
  | hardDelete (id : String)
  | pass

/-- The change capture passes a change that it can convert; it stays at one that it cannot. -/
def ShowStore.pass (s : ShowStore) : Option ShowStore :=
  match s.changes[s.checkpoint]? with
  | none => none
  | some c =>
      match s.convert s.checkpoint c with
      | .error _ => none
      | .ok _ => some { s with checkpoint := s.checkpoint + 1 }

def showEnviron : ShowEnviron → ShowStore →
    Option (ShowStore × List (Unit × Admin (Except AppError Json)))
  | .tick d, s => some ({ s with now := s.now + d }, [])
  | .create newId body, s => some (s, [((), createShow s.now newId body)])
  | .update id body, s => some (s, [((), updateShow s.now id body)])
  | .delete id, s => some (s, [((), deleteShow id)])
  | .hardDelete id, s =>
      if s.shows.any fun x => decide (x.1 = id) then some (s.hardDelete id, []) else none
  | .pass, s => s.pass.map fun t => (t, [])

/-- Any number of admin handlers over one collection, and the change capture. -/
def showMachine : Machine ShowStore AdminRep Unit (Except AppError Json) Link ShowEnviron where
  init s := s = { now := 0, shows := [], changes := [], checkpoint := 0 }
  exec _ _ := adminExec
  environ := showEnviron
  close _ s := s

end Search
end Bookit

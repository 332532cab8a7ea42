import Bookit.Accounts.Endpoints
import Bookit.Lib.StableSort
import Bookit.Schedules.Store
import Bookit.Search.Shows
import Mathlib.Data.List.DropRight

/-!
# Web.ListCaches — the cached lists of shows and schedules

The user API keeps five families of lists in Redis: the active schedules, those of a show in a city, the
shows with upcoming schedules by type and city, the first page of the dashboard's grid by city, and all
shows.  The admin handlers write one show or one schedule, and then delete the keys they name.

A handler that fails after its write, with the write's answer lost, its seats not copied or its event
not published, leaves before it deletes any key.
-/

namespace Bookit
namespace ListCaches

open Lib
open Accounts (trim)
open Payments (AppError isWhiteSpace)
open Schedules (LifecycleState)
open Search (ShowType parseObjectId)

/-! ## Keys -/

def eqIgnoreAsciiCase (a b : String) : Bool :=
  decide (a.toList.map Char.toLower = b.toList.map Char.toLower)

/-- The city of a query: trimmed, and none for an empty one or `All`. -/
def selectedCity (city : Option String) : Option String :=
  (city.map trim).filter fun c => decide (c ≠ "") && !eqIgnoreAsciiCase c "All"

def cacheShowKey (mongoShowId : String) : String :=
  "cache:show:" ++ mongoShowId

def cacheScheduleKey (scheduleId : ℤ) : String :=
  "cache:schedule:" ++ toString scheduleId

def cacheShowSchedulesKey (mongoShowId : String) (city : Option String) : String :=
  "cache:show:" ++ (mongoShowId ++ (":schedules:city:" ++ (selectedCity city).getD "all"))

def cacheSchedulesActiveKey : String :=
  "cache:schedules:active"

def cacheShows : String :=
  "cache:shows:all:v2"

def cacheDashboardGrid : String :=
  "cache:dashboard:grid:v2"

def moviesAll : String :=
  "cache:movies:all:v2"

/-- The part of a movies key that names the type. -/
def typePart (showType : Option String) : String :=
  match showType.filter fun t => !eqIgnoreAsciiCase t "All" with
  | some t => ":" ++ t
  | none => ""

/-- The part of a movies key that names the city. -/
def cityPart (city : Option String) : String :=
  match selectedCity city with
  | some c => ":city:" ++ c
  | none => ""

def cacheMoviesKey (showType city : Option String) : String :=
  moviesAll ++ (typePart showType ++ cityPart city)

/-- The city of a query of the grid, where only `All` itself stands for every city. -/
def gridCity : Option String → Option String
  | some c => if c ≠ "All" ∧ trim c ≠ "" then some (trim c) else none
  | none => none

def gridKey (city : Option String) : String :=
  match gridCity city with
  | some c => cacheDashboardGrid ++ (":city:" ++ c)
  | none => cacheDashboardGrid

/-! ### What the keys tell apart -/

/-- White space at the end of a string is not white space at its beginning. -/
theorem dropWhile_rdropWhile (p : Char → Bool) (cs : List Char) :
    ((cs.dropWhile p).rdropWhile p).dropWhile p = (cs.dropWhile p).rdropWhile p := by
  have hlast := List.rdropWhile_prefix p (cs.dropWhile p)
  have hfirst : (cs.dropWhile p).dropWhile p = cs.dropWhile p := List.dropWhile_idempotent p cs
  generalize cs.dropWhile p = m at hlast hfirst ⊢
  cases hm : m.rdropWhile p with
  | nil => rfl
  | cons a l =>
      obtain ⟨t, ht⟩ := hlast
      rw [hm] at ht
      have ha : p a = false := by
        by_contra hpa
        rw [← ht] at hfirst
        have hlen := congrArg List.length hfirst
        have hle := (List.dropWhile_sublist p (l := l ++ t)).length_le
        simp only [List.cons_append, List.dropWhile_cons, hpa] at hlen
        simp at hlen hle
        omega
      simp [ha]

theorem trim_trim (s : String) : trim (trim s) = trim s := by
  have htrim : ∀ s, trim s = String.ofList ((s.toList.dropWhile isWhiteSpace).rdropWhile
      isWhiteSpace) := fun _ => rfl
  rw [htrim (trim s), htrim s, String.toList_ofList, dropWhile_rdropWhile,
    List.rdropWhile_idempotent]

theorem selectedCity_of_eq_some {city : Option String} {c : String}
    (h : selectedCity city = some c) : selectedCity (some c) = some c := by
  obtain ⟨hmem, hsel⟩ := Option.filter_eq_some_iff.mp h
  obtain ⟨c₀, -, rfl⟩ := Option.map_eq_some_iff.mp hmem
  simp only [selectedCity, Option.map_some, trim_trim, Option.filter_eq_some_iff]
  exact ⟨trivial, hsel⟩

theorem selectedCity_selectedCity (city : Option String) :
    selectedCity (selectedCity city) = selectedCity city := by
  cases h : selectedCity city with
  | none => rfl
  | some c => exact selectedCity_of_eq_some h

/-- The cities that a query of the grid can name. -/
theorem exists_gridCity_iff (c : String) :
    (∃ city, gridCity city = some c) ↔ c ≠ "" ∧ trim c = c := by
  constructor
  · rintro ⟨city, h⟩
    cases city with
    | none => cases h
    | some c₀ =>
        simp only [gridCity] at h
        split_ifs at h with hc
        cases h
        exact ⟨hc.2, trim_trim c₀⟩
  · rintro ⟨hne, htrim⟩
    by_cases hall : c = "All"
    · -- behind a space, the name of every city is that of one
      subst hall
      exact ⟨some " All", by decide⟩
    · exact ⟨some c, by simp [gridCity, hall, htrim, hne]⟩

theorem cacheShowSchedulesKey_inj {id : String} {a b : Option String}
    (h : cacheShowSchedulesKey id a = cacheShowSchedulesKey id b) :
    selectedCity a = selectedCity b := by
  have hnames : (selectedCity a).getD "all" = (selectedCity b).getD "all" := by
    simpa [cacheShowSchedulesKey] using h
  -- no city that is selected is named `all`
  have hall : ∀ {city : Option String}, selectedCity city ≠ some "all" := by
    intro city heq
    have hall := selectedCity_of_eq_some heq
    exact absurd hall (by decide)
  cases ha : selectedCity a with
  | none =>
      cases hb : selectedCity b with
      | none => rfl
      | some c =>
          rw [ha, hb] at hnames
          have hc : "all" = c := hnames
          exact absurd (hc ▸ hb) hall
  | some c =>
      cases hb : selectedCity b with
      | none =>
          rw [ha, hb] at hnames
          have hc : c = "all" := hnames
          exact absurd (hc ▸ ha) hall
      | some c' =>
          rw [ha, hb] at hnames
          exact congrArg some hnames

theorem cityPart_inj {a b : Option String} (h : cityPart a = cityPart b) :
    selectedCity a = selectedCity b := by
  unfold cityPart at h
  cases ha : selectedCity a with
  | none =>
      cases hb : selectedCity b with
      | none => rfl
      | some c => simp [ha, hb] at h
  | some c =>
      cases hb : selectedCity b with
      | none => simp [ha, hb] at h
      | some c' => simpa [ha, hb] using h

theorem typePart_name (t : ShowType) : typePart (some t.name) = ":" ++ t.name := by
  cases t <;> decide

/-- A key without a type is no key with one. -/
theorem cityPart_ne_typed (a b : Option String) (t : ShowType) :
    cityPart a ≠ ":" ++ t.name ++ cityPart b := by
  intro h
  unfold cityPart at h
  cases ha : selectedCity a with
  | none => simp [ha] at h
  | some c =>
      rw [ha] at h
      have hstart := congrArg (fun s => s.toList.take 2) h
      cases t <;> simp [ShowType.name] at hstart

theorem name_inj {t t' : ShowType} {a b : String} (h : t.name ++ a = t'.name ++ b) : t = t' := by
  have hstart := congrArg (fun s => s.toList.head?) h
  cases t <;> cases t' <;> simp [ShowType.name] at hstart ⊢

theorem cacheMoviesKey_inj {t : Option ShowType} (t' : Option ShowType) {a b : Option String}
    (h : cacheMoviesKey (t.map ShowType.name) a = cacheMoviesKey (t'.map ShowType.name) b) :
    t = t' ∧ selectedCity a = selectedCity b := by
  have hparts : typePart (t.map ShowType.name) ++ cityPart a =
      typePart (t'.map ShowType.name) ++ cityPart b := by
    simpa [cacheMoviesKey] using h
  cases t with
  | none =>
      cases t' with
      | none => exact ⟨rfl, cityPart_inj (by simpa [typePart] using hparts)⟩
      | some t' =>
          rw [Option.map_some, typePart_name] at hparts
          exact absurd (by simpa [typePart] using hparts) (cityPart_ne_typed a b t')
  | some t =>
      cases t' with
      | none =>
          rw [Option.map_some, typePart_name] at hparts
          exact absurd (by simpa [typePart] using hparts.symm) (cityPart_ne_typed b a t)
      | some t' =>
          rw [Option.map_some, Option.map_some, typePart_name, typePart_name, String.append_assoc,
            String.append_assoc] at hparts
          have hrest : t.name ++ cityPart a = t'.name ++ cityPart b := by simpa using hparts
          obtain rfl := name_inj hrest
          exact ⟨rfl, cityPart_inj (by simpa using hrest)⟩

/-! ## Rows and documents -/

inductive TimeSlot where
  | morning
  | afternoon
  | evening
  | night
  deriving DecidableEq

def TimeSlot.hour : TimeSlot → ℕ
  | .morning => 10
  | .afternoon => 14
  | .evening => 18
  | .night => 22

/-- A row of `schedules`; times are in seconds, and dates in days. -/
structure Schedule where
  id : ℤ
  mongoShowId : String
  showType : ShowType
  layoutId : Option ℤ
  startTime : ℕ
  bookingOpenAt : ℕ
  lifecycleState : LifecycleState
  createdAt : ℕ
  deletedAt : Option ℕ
  venueName : Option String
  venueAddress : Option String
  venueCity : Option String
  venueState : Option String
  date : ℕ
  slot : TimeSlot
  endTime : ℕ
  deriving DecidableEq

abbrev ObjectId := String

/-- A document of `shows`; `details` are the fields that are stored and listed as they are. -/
structure Show (δ : Type) where
  showType : ShowType
  title : String
  weight : Option ℤ
  nextStartTime : Option ℕ
  city : Option String
  createdAt : Option ℕ
  deletedAt : Option ℕ
  details : δ
  deriving DecidableEq

structure Store (δ : Type) where
  now : ℕ
  shows : List (ObjectId × Show δ)
  schedules : List Schedule

/-! ## Reads -/

namespace Schedule

/-- Not deleted, and still to start. -/
def upcoming (now : ℕ) (r : Schedule) : Bool :=
  decide (r.deletedAt = none ∧ now < r.startTime)

/-- Upcoming and not closed. -/
def active (now : ℕ) (r : Schedule) : Bool :=
  decide (r.lifecycleState ≠ .closed) && r.upcoming now

/-- The filter on the venue's city, where there is one. -/
def inCity (city : Option String) (r : Schedule) : Bool :=
  city.all fun c => decide (r.venueCity = some c)

end Schedule

/-- Compare optional values, those that are absent first. -/
def absentFirst {α : Type} (le : α → α → Bool) : Option α → Option α → Bool
  | none, _ => true
  | some _, none => false
  | some a, some b => le a b

/-- `order(schedules::start_time.asc())`. -/
def byStart : List Schedule → List Schedule :=
  StableSort.sorted fun a b => decide (a.startTime ≤ b.startTime)

variable {δ : Type}

/-- The latest first. -/
def byCreated : List (ObjectId × Show δ) → List (ObjectId × Show δ) :=
  StableSort.sorted fun a b => absentFirst (fun x y => decide (x ≤ y)) b.2.createdAt a.2.createdAt

/-- Greater weights first, then earlier starts. -/
def gridOrder (a b : ObjectId × Show δ) : Bool :=
  if a.2.weight = b.2.weight then
    absentFirst (fun x y => decide (x ≤ y)) a.2.nextStartTime b.2.nextStartTime
  else absentFirst (fun x y => decide (x ≤ y)) b.2.weight a.2.weight

/-- The filter on a show's type: none for `All`. -/
def typeMatches (showType : Option String) (d : Show δ) : Bool :=
  showType.all fun t => decide (t = "All" ∨ d.showType.name = t)

/-- The filter on a show's city. -/
def cityMatches (city : Option String) (d : Show δ) : Bool :=
  city.all fun c => decide (d.city = some c)

def Show.live (d : Show δ) : Bool :=
  d.deletedAt.isNone

namespace Store

variable (s : Store δ)

def listActiveSchedules : List Schedule :=
  byStart (s.schedules.filter fun r => r.active s.now)

def getSchedulesForShow (showId : String) (city : Option String) : List Schedule :=
  byStart (s.schedules.filter fun r =>
    decide (r.mongoShowId = showId) && (r.active s.now && r.inCity (selectedCity city)))

/-- The shows of the upcoming schedules of a city. -/
def activeShowIds (city : Option String) : List ObjectId :=
  (s.schedules.filter fun r => r.upcoming s.now && r.inCity (selectedCity city)).filterMap
    fun r => parseObjectId r.mongoShowId

def getMovies (showType city : Option String) : List (ObjectId × Show δ) :=
  let ids := s.activeShowIds city
  if ids = [] then []
  else
    byCreated (s.shows.filter fun x =>
      x.2.live && (typeMatches showType x.2 && decide (x.1 ∈ ids)))

/-- The first page of the grid. -/
def listShowsGrid (city : Option String) : List (ObjectId × Show δ) :=
  (StableSort.sorted gridOrder (s.shows.filter fun x =>
    x.2.live && cityMatches (gridCity city) x.2)).take 30

def listShows : List (ObjectId × Show δ) :=
  byCreated (s.shows.filter fun x => x.2.live)

end Store

/-- A list that the user API caches, with the query that it answers. -/
inductive CachedList where
  | activeSchedules
  | showSchedules (showId : String) (city : Option String)
  | movies (showType city : Option String)
  | dashboardGrid (city : Option String)
  | allShows

def CachedList.key : CachedList → String
  | .activeSchedules => cacheSchedulesActiveKey
  | .showSchedules showId city => cacheShowSchedulesKey showId (selectedCity city)
  | .movies showType city => cacheMoviesKey showType city
  | .dashboardGrid city => gridKey city
  | .allShows => cacheShows

/-- The rows of a list. -/
inductive Listing (δ : Type) where
  | schedules (rows : List Schedule)
  | shows (documents : List (ObjectId × Show δ))
  deriving DecidableEq

/-- What a list is loaded with when it is not cached. -/
def Store.uncached (s : Store δ) : CachedList → Listing δ
  | .activeSchedules => .schedules s.listActiveSchedules
  | .showSchedules showId city => .schedules (s.getSchedulesForShow showId city)
  | .movies showType city => .shows (s.getMovies showType city)
  | .dashboardGrid city => .shows (s.listShowsGrid city)
  | .allShows => .shows s.listShows

/-! ## Requests -/

structure CreateShowRequest (δ : Type) where
  showType : ShowType
  title : String
  weight : Option ℤ
  city : Option String
  details : δ

def CreateShowRequest.toShow (now : ℕ) (body : CreateShowRequest δ) : Show δ :=
  { showType := body.showType, title := body.title, weight := some (body.weight.getD 0)
    nextStartTime := none, city := body.city, createdAt := some now, deletedAt := none
    details := body.details }

/-- A request for a schedule whose dates parse. -/
structure CreateScheduleRequest where
  mongoShowId : String
  showType : ShowType
  layoutId : ℤ
  date : ℕ
  slot : TimeSlot
  startTime : Option ℕ
  endTime : ℕ
  bookingOpenAt : ℕ
  venueName : Option String
  venueAddress : Option String
  venueCity : String
  venueState : Option String

/-- A request for changes of a schedule whose dates parse. -/
structure UpdateScheduleRequest where
  date : Option ℕ
  slot : Option TimeSlot
  startTime : Option ℕ
  endTime : Option ℕ
  bookingOpenAt : Option ℕ
  venueName : Option String
  venueAddress : Option String
  venueCity : Option String
  venueState : Option String
  deriving DecidableEq

/-- A changeset without a value, for which there is no statement. -/
def UpdateScheduleRequest.unchanged : UpdateScheduleRequest :=
  { date := none, slot := none, startTime := none, endTime := none, bookingOpenAt := none
    venueName := none, venueAddress := none, venueCity := none, venueState := none }

def UpdateScheduleRequest.apply (body : UpdateScheduleRequest) (r : Schedule) : Schedule :=
  { r with
    date := body.date.getD r.date
    slot := body.slot.getD r.slot
    startTime := body.startTime.getD r.startTime
    endTime := body.endTime.getD r.endTime
    bookingOpenAt := body.bookingOpenAt.getD r.bookingOpenAt
    venueName := body.venueName.orElse fun _ => r.venueName
    venueAddress := body.venueAddress.orElse fun _ => r.venueAddress
    venueCity := (body.venueCity.map trim).orElse fun _ => r.venueCity
    venueState := body.venueState.orElse fun _ => r.venueState }

/-- A request of an admin.  An inserted row has the identifier it is given; `layoutHasSeats` and
`readsBack` are what the database answers for the layout, and for the row after its update. -/
inductive Request (δ : Type) where
  | createShow (newId : ObjectId) (body : CreateShowRequest δ)
  | updateShow (id : String) (body : CreateShowRequest δ)
  | deleteShow (id : String)
  | createSchedule (newId : ℤ) (body : CreateScheduleRequest) (layoutHasSeats : Bool)
  | updateSchedule (scheduleId : ℤ) (body : UpdateScheduleRequest) (readsBack : Bool)
  | startSchedule (scheduleId : ℤ)
  | closeSchedule (scheduleId : ℤ)
  | deleteSchedule (scheduleId : ℤ)

/-! ## Handlers -/

/-- The one document or row that a handler writes. -/
inductive Write (δ : Type) where
  | nothing
  | document (id : ObjectId) (d : Show δ)
  | schedule (r : Schedule)

/-- The write of an accepted request, and the keys that are deleted after it. -/
structure Change (δ : Type) where
  write : Write δ
  keys : List String

/-- `invalidate_show_schedule_caches`. -/
def showScheduleCaches (schedule : Schedule) : List String :=
  [cacheSchedulesActiveKey,
    cacheShowSchedulesKey schedule.mongoShowId schedule.venueCity,
    cacheShowSchedulesKey schedule.mongoShowId none,
    cacheMoviesKey none none,
    cacheMoviesKey (some schedule.showType.name) none,
    cacheMoviesKey none schedule.venueCity,
    cacheMoviesKey (some schedule.showType.name) schedule.venueCity]

/-- `invalidate_schedule_lifecycle_caches`. -/
def scheduleLifecycleCaches (schedule : Schedule) : List String :=
  cacheScheduleKey schedule.id :: showScheduleCaches schedule

namespace Store

variable (s : Store δ)

def findShow (id : ObjectId) : Option (Show δ) :=
  (Table.rowAt Prod.fst id s.shows).map Prod.snd

/-- The row of a schedule that is not deleted. -/
def findSchedule (scheduleId : ℤ) : Option Schedule :=
  (Table.rowAt Schedule.id scheduleId s.schedules).filter fun r => r.deletedAt.isNone

def createShow (newId : ObjectId) (body : CreateShowRequest δ) : Except AppError (Change δ) :=
  if Payments.isBlank body.title then .error (.badRequest "title is required")
  else if (s.findShow newId).isSome then .error (.internal "duplicate key")
  else .ok { write := .document newId (body.toShow s.now), keys := [cacheShows, cacheDashboardGrid] }

/-- The keys of `update_show` and `delete_show`. -/
def showCaches (id : String) : List String :=
  [cacheShowKey id, cacheSchedulesActiveKey, cacheShows, cacheDashboardGrid]

def updateShow (id : String) (body : CreateShowRequest δ) : Except AppError (Change δ) :=
  match parseObjectId id with
  | none => .error (.badRequest "Invalid show id")
  | some oid =>
      match s.findShow oid with
      | none => .error (.notFound "Show not found")
      | some existing =>
          .ok
            { write := .document oid { body.toShow s.now with createdAt := existing.createdAt }
              keys := showCaches id }

/-- The update of no document is no error. -/
def deleteShow (id : String) : Except AppError (Change δ) :=
  match parseObjectId id with
  | none => .error (.badRequest "Invalid show id")
  | some oid =>
      match s.findShow oid with
      | none => .ok { write := .nothing, keys := showCaches id }
      | some d =>
          .ok { write := .document oid { d with deletedAt := some s.now }, keys := showCaches id }

/-- The row of a request; a start that is not given follows from the date and the slot. -/
def newSchedule (newId : ℤ) (body : CreateScheduleRequest) : Schedule :=
  { id := newId, mongoShowId := trim body.mongoShowId, showType := body.showType
    layoutId := some body.layoutId
    startTime := body.startTime.getD (body.date * 86400 + body.slot.hour * 3600)
    bookingOpenAt := body.bookingOpenAt, lifecycleState := .scheduled, createdAt := s.now
    deletedAt := none, venueName := body.venueName, venueAddress := body.venueAddress
    venueCity := some (trim body.venueCity), venueState := body.venueState, date := body.date
    slot := body.slot, endTime := body.endTime }

def createSchedule (newId : ℤ) (body : CreateScheduleRequest) (layoutHasSeats : Bool) :
    Except AppError (Change δ) :=
  if trim body.venueCity = "" then .error (.badRequest "venue_city is required")
  else
    match parseObjectId (trim body.mongoShowId) with
    | none => .error (.badRequest "mongo_show_id must be a valid MongoDB ObjectId")
    | some showOid =>
        match (s.findShow showOid).filter Show.live with
        | none => .error (.notFound "Show not found or has been deleted")
        | some mongoShow =>
            let schedule := s.newSchedule newId body
            if schedule.showType ≠ mongoShow.showType then
              .error (.badRequest "show_type does not match the referenced MongoDB show")
            else if schedule.startTime ≤ schedule.bookingOpenAt then
              .error (.badRequest "booking_open_at must be before start_time")
            else if layoutHasSeats = false then
              .error (.badRequest "Seat layout has no seats — add seats to the layout first")
            else if (Table.rowAt Schedule.id newId s.schedules).isSome then
              .error (.internal "duplicate key")
            else .ok { write := .schedule schedule, keys := showScheduleCaches schedule }

/-- Where the row is not read again, it counts as it was. -/
def updateSchedule (scheduleId : ℤ) (body : UpdateScheduleRequest) (readsBack : Bool) :
    Except AppError (Change δ) :=
  if body.venueCity.map trim = some "" then
    .error (.badRequest "venue_city must not be empty")
  else
    match s.findSchedule scheduleId with
    | none => .error (.notFound "Schedule not found")
    | some existing =>
        if body = .unchanged then .error (.internal "There are no changes to save")
        else
          let updated := if readsBack then body.apply existing else existing
          .ok
            { write := .schedule (body.apply existing)
              keys := cacheScheduleKey scheduleId :: (showScheduleCaches existing ++
                if existing.venueCity ≠ updated.venueCity then showScheduleCaches updated else []) }

def startSchedule (scheduleId : ℤ) : Except AppError (Change δ) :=
  match s.findSchedule scheduleId with
  | none => .error (.notFound "Schedule not found")
  | some current =>
      match current.lifecycleState with
      | .closed => .error (.badRequest "A closed schedule cannot be restarted")
      | .open_ => .ok { write := .schedule current, keys := scheduleLifecycleCaches current }
      | .scheduled =>
          let schedule := { current with lifecycleState := .open_ }
          .ok { write := .schedule schedule, keys := scheduleLifecycleCaches schedule }

def closeSchedule (scheduleId : ℤ) : Except AppError (Change δ) :=
  match s.findSchedule scheduleId with
  | none => .error (.notFound "Schedule not found")
  | some current =>
      match current.lifecycleState with
      | .closed => .ok { write := .schedule current, keys := scheduleLifecycleCaches current }
      | _ =>
          let schedule := { current with lifecycleState := .closed }
          .ok { write := .schedule schedule, keys := scheduleLifecycleCaches schedule }

/-- The keys are those of the row before its deletion. -/
def deleteSchedule (scheduleId : ℤ) : Except AppError (Change δ) :=
  match s.findSchedule scheduleId with
  | none => .error (.notFound "Schedule not found")
  | some schedule =>
      .ok
        { write := .schedule
            { schedule with
              deletedAt := some s.now
              lifecycleState := .closed }
          keys := scheduleLifecycleCaches schedule }

def handle : Request δ → Except AppError (Change δ)
  | .createShow newId body => s.createShow newId body
  | .updateShow id body => s.updateShow id body
  | .deleteShow id => s.deleteShow id
  | .createSchedule newId body layoutHasSeats => s.createSchedule newId body layoutHasSeats
  | .updateSchedule scheduleId body readsBack => s.updateSchedule scheduleId body readsBack
  | .startSchedule scheduleId => s.startSchedule scheduleId
  | .closeSchedule scheduleId => s.closeSchedule scheduleId
  | .deleteSchedule scheduleId => s.deleteSchedule scheduleId

def putShow (id : ObjectId) (d : Show δ) : Store δ :=
  { s with shows := Table.put Prod.fst (id, d) s.shows }

def putSchedule (r : Schedule) : Store δ :=
  { s with schedules := Table.put Schedule.id r s.schedules }

def apply : Write δ → Store δ
  | .nothing => s
  | .document id d => s.putShow id d
  | .schedule r => s.putSchedule r

/-- The store after a request. -/
def after (request : Request δ) : Store δ :=
  match s.handle request with
  | .error _ => s
  | .ok change => s.apply change.write

/-- The keys that a request deletes: none where a statement after its write fails. -/
def invalidated (request : Request δ) (completes : Bool) : List String :=
  match s.handle request with
  | .error _ => []
  | .ok change => if completes then change.keys else []

end Store

/-! ## Catalogues -/

/-- Identifiers are unique, and a schedule refers to a show. -/
structure Store.WellFormed (s : Store δ) : Prop where
  showIds : (s.shows.map Prod.fst).Nodup
  scheduleIds : (s.schedules.map Schedule.id).Nodup
  refers : ∀ r ∈ s.schedules, ∃ oid, parseObjectId r.mongoShowId = some oid ∧
    oid ∈ s.shows.map Prod.fst

/-- The shows and schedules as the handlers keep them. -/
def Catalogue (δ : Type) : Type :=
  { s : Store δ // s.WellFormed }

/-! ### What a write of a schedule comes with -/

/-- The update of a schedule whose row does not arrive when it is read again. -/
def Request.unread : Request δ → Bool
  | .updateSchedule _ _ readsBack => !readsBack
  | _ => false

namespace Store

/-- The row of a schedule, deleted or not. -/
def scheduleRow (s : Store δ) (scheduleId : ℤ) : Option Schedule :=
  Table.rowAt Schedule.id scheduleId s.schedules

/-- A write of row `new` after which the caches of `families` are deleted. -/
structure Rewrites (s : Store δ) (new : Schedule) (families : List Schedule) (unread : Bool)
    (keys : List String) : Prop where
  keys_eq : keys = families.flatMap showScheduleCaches ∨
    ∃ id, keys = cacheScheduleKey id :: families.flatMap showScheduleCaches
  nonempty : families ≠ []
  families_show : ∀ r ∈ families, r.mongoShowId = new.mongoShowId ∧ r.showType = new.showType
  old_show : ∀ old ∈ s.scheduleRow new.id, old.mongoShowId = new.mongoShowId
  refers : (∃ old, old ∈ s.scheduleRow new.id) ∨
    ∃ oid, parseObjectId new.mongoShowId = some oid ∧ oid ∈ s.shows.map Prod.fst
  cities : unread = false →
    ∀ r, r = new ∨ r ∈ s.scheduleRow new.id → ∃ f ∈ families, f.venueCity = r.venueCity
  old_only : unread = true → ∃ old, s.scheduleRow new.id = some old ∧ families = [old]

variable {s : Store δ}

theorem scheduleRow_of_findSchedule {scheduleId : ℤ} {r : Schedule}
    (h : s.findSchedule scheduleId = some r) :
    s.scheduleRow scheduleId = some r ∧ r.id = scheduleId := by
  have hrow := (Option.filter_eq_some_iff.mp h).1
  exact ⟨hrow, Table.key_of_rowAt (Option.mem_def.mpr hrow)⟩

theorem mem_ids_of_findShow {id : ObjectId} {d : Show δ} (h : s.findShow id = some d) :
    id ∈ s.shows.map Prod.fst := by
  obtain ⟨x, hx, -⟩ := Option.map_eq_some_iff.mp h
  have hkey : x.1 = id := Table.key_of_rowAt (Option.mem_def.mpr hx)
  exact List.mem_map.mpr ⟨x, Table.mem_of_rowAt (Option.mem_def.mpr hx), hkey⟩

/-- A row whose show, type and city stay is written, and its caches are deleted. -/
theorem rewrites_of_sameCity {old new family : Schedule} (hold : s.scheduleRow new.id = some old)
    (hshow : old.mongoShowId = new.mongoShowId) (hcity : old.venueCity = new.venueCity)
    (hfamily : family.mongoShowId = new.mongoShowId ∧ family.showType = new.showType ∧
      family.venueCity = new.venueCity) :
    s.Rewrites new [family] false (scheduleLifecycleCaches family) where
  keys_eq := .inr ⟨family.id, by simp [scheduleLifecycleCaches]⟩
  nonempty := by simp
  families_show := by
    intro r hr
    obtain rfl := List.mem_singleton.mp hr
    exact ⟨hfamily.1, hfamily.2.1⟩
  old_show := by
    intro r hr
    obtain rfl := Option.some.inj (hold.symm.trans (Option.mem_def.mp hr))
    exact hshow
  refers := .inl ⟨old, Option.mem_def.mpr hold⟩
  cities := by
    intro _ r hr
    refine ⟨family, List.mem_singleton_self family, ?_⟩
    rcases hr with rfl | hr
    · exact hfamily.2.2
    · obtain rfl := Option.some.inj (hold.symm.trans (Option.mem_def.mp hr))
      exact hfamily.2.2.trans hcity.symm
  old_only := nofun

theorem createSchedule_rewrites {newId : ℤ} {body : CreateScheduleRequest} {seats : Bool}
    {change : Change δ} (h : s.createSchedule newId body seats = .ok change) :
    ∃ new, change.write = .schedule new ∧ s.Rewrites new [new] false change.keys := by
  unfold createSchedule at h
  split at h
  · cases h
  · split at h
    · cases h
    · rename_i oid hoid
      split at h
      · cases h
      · rename_i d hd
        dsimp only at h
        split_ifs at h with htype htime hseats hfresh
        obtain rfl := Except.ok.inj h
        have hnone : s.scheduleRow (s.newSchedule newId body).id = none := by
          simpa [scheduleRow, newSchedule] using hfresh
        refine ⟨_, rfl, ?_⟩
        exact
          { keys_eq := .inl (by simp)
            nonempty := by simp
            families_show := by
              intro r hr
              obtain rfl := List.mem_singleton.mp hr
              exact ⟨rfl, rfl⟩
            old_show := by
              intro old hold
              rw [hnone] at hold
              cases hold
            refers := .inr ⟨oid, hoid, mem_ids_of_findShow (Option.filter_eq_some_iff.mp hd).1⟩
            cities := by
              intro _ r hr
              rcases hr with rfl | hr
              · exact ⟨_, List.mem_singleton_self _, rfl⟩
              · rw [hnone] at hr
                cases hr
            old_only := nofun }

theorem updateSchedule_rewrites {scheduleId : ℤ} {body : UpdateScheduleRequest} {readsBack : Bool}
    {change : Change δ} (h : s.updateSchedule scheduleId body readsBack = .ok change) :
    ∃ new families, change.write = .schedule new ∧
      s.Rewrites new families (!readsBack) change.keys := by
  unfold updateSchedule at h
  split at h
  · cases h
  split at h
  · cases h
  · rename_i old hold
    split at h
    · cases h
    obtain rfl := Except.ok.inj h
    obtain ⟨hrow, hid⟩ := scheduleRow_of_findSchedule hold
    have hnew : s.scheduleRow (body.apply old).id = some old := by
      rw [show (body.apply old).id = old.id from rfl, hid]
      exact hrow
    have hold_eq : ∀ {r}, r ∈ s.scheduleRow (body.apply old).id → r = old := fun hr =>
      Option.some.inj ((Option.mem_def.mp hr).symm.trans hnew)
    cases readsBack with
    | false =>
        -- the row that counts as updated is the old one
        refine ⟨_, [old], rfl, ?_⟩
        exact
          { keys_eq := .inr ⟨scheduleId, by simp⟩
            nonempty := by simp
            families_show := by
              intro r hr
              obtain rfl := List.mem_singleton.mp hr
              exact ⟨rfl, rfl⟩
            old_show := by
              intro r hr
              rw [hold_eq hr]
              rfl
            refers := .inl ⟨old, Option.mem_def.mpr hnew⟩
            cities := nofun
            old_only := fun _ => ⟨old, hnew, rfl⟩ }
    | true =>
        refine ⟨_, old :: (if old.venueCity ≠ (body.apply old).venueCity then [body.apply old]
          else []), rfl, ?_⟩
        exact
          { keys_eq := .inr ⟨scheduleId, by split_ifs <;> simp_all⟩
            nonempty := by simp
            families_show := by
              intro r hr
              split_ifs at hr
              · simp only [List.mem_cons, List.not_mem_nil, or_false] at hr
                rcases hr with rfl | rfl <;> exact ⟨rfl, rfl⟩
              · obtain rfl := List.mem_singleton.mp hr
                exact ⟨rfl, rfl⟩
            old_show := by
              intro r hr
              rw [hold_eq hr]
              rfl
            refers := .inl ⟨old, Option.mem_def.mpr hnew⟩
            cities := by
              intro _ r hr
              rcases hr with rfl | hr
              · by_cases hcity : old.venueCity = (body.apply old).venueCity
                · exact ⟨old, List.mem_cons_self, hcity⟩
                · exact ⟨_, by simp [hcity], rfl⟩
              · exact ⟨old, List.mem_cons_self, by rw [hold_eq hr]⟩
            old_only := nofun }

theorem startSchedule_rewrites {scheduleId : ℤ} {change : Change δ}
    (h : s.startSchedule scheduleId = .ok change) :
    ∃ new families, change.write = .schedule new ∧ s.Rewrites new families false change.keys := by
  unfold startSchedule at h
  split at h
  · cases h
  · rename_i old hold
    obtain ⟨hrow, rfl⟩ := scheduleRow_of_findSchedule hold
    split at h
    · cases h
    all_goals
      obtain rfl := Except.ok.inj h
      exact ⟨_, _, rfl, rewrites_of_sameCity hrow rfl rfl ⟨rfl, rfl, rfl⟩⟩

theorem closeSchedule_rewrites {scheduleId : ℤ} {change : Change δ}
    (h : s.closeSchedule scheduleId = .ok change) :
    ∃ new families, change.write = .schedule new ∧ s.Rewrites new families false change.keys := by
  unfold closeSchedule at h
  split at h
  · cases h
  · rename_i old hold
    obtain ⟨hrow, rfl⟩ := scheduleRow_of_findSchedule hold
    split at h
    all_goals
      obtain rfl := Except.ok.inj h
      exact ⟨_, _, rfl, rewrites_of_sameCity hrow rfl rfl ⟨rfl, rfl, rfl⟩⟩

theorem deleteSchedule_rewrites {scheduleId : ℤ} {change : Change δ}
    (h : s.deleteSchedule scheduleId = .ok change) :
    ∃ new families, change.write = .schedule new ∧ s.Rewrites new families false change.keys := by
  unfold deleteSchedule at h
  split at h
  · cases h
  · rename_i old hold
    obtain ⟨hrow, rfl⟩ := scheduleRow_of_findSchedule hold
    obtain rfl := Except.ok.inj h
    exact ⟨_, _, rfl, rewrites_of_sameCity hrow rfl rfl ⟨rfl, rfl, rfl⟩⟩

/-- The keys that a write of a document comes with. -/
def ShowKeys (keys : List String) : Prop :=
  keys = [cacheShows, cacheDashboardGrid] ∨ ∃ id, keys = showCaches id

/-- What an accepted request writes: nothing, a document, or a row. -/
theorem handle_cases {request : Request δ} {change : Change δ}
    (h : s.handle request = .ok change) :
    change.write = .nothing ∨
    (∃ id d, change.write = .document id d ∧ ShowKeys change.keys) ∨
    ∃ new families, change.write = .schedule new ∧
      s.Rewrites new families request.unread change.keys := by
  cases request with
  | createShow newId body =>
      simp only [handle, createShow] at h
      split_ifs at h
      obtain rfl := Except.ok.inj h
      exact .inr (.inl ⟨_, _, rfl, .inl rfl⟩)
  | updateShow id body =>
      simp only [handle, updateShow] at h
      split at h
      · cases h
      · split at h
        · cases h
        · obtain rfl := Except.ok.inj h
          exact .inr (.inl ⟨_, _, rfl, .inr ⟨id, rfl⟩⟩)
  | deleteShow id =>
      simp only [handle, deleteShow] at h
      split at h
      · cases h
      · split at h
        · obtain rfl := Except.ok.inj h
          exact .inl rfl
        · obtain rfl := Except.ok.inj h
          exact .inr (.inl ⟨_, _, rfl, .inr ⟨id, rfl⟩⟩)
  | createSchedule newId body seats =>
      simp only [handle] at h
      obtain ⟨new, hwrite, hnew⟩ := createSchedule_rewrites h
      exact .inr (.inr ⟨new, _, hwrite, hnew⟩)
  | updateSchedule scheduleId body readsBack =>
      simp only [handle] at h
      exact .inr (.inr (updateSchedule_rewrites h))
  | startSchedule scheduleId =>
      simp only [handle] at h
      exact .inr (.inr (startSchedule_rewrites h))
  | closeSchedule scheduleId =>
      simp only [handle] at h
      exact .inr (.inr (closeSchedule_rewrites h))
  | deleteSchedule scheduleId =>
      simp only [handle] at h
      exact .inr (.inr (deleteSchedule_rewrites h))

/-! ### Every request keeps the catalogue well formed -/

theorem Rewrites.show_exists {new : Schedule} {families : List Schedule} {unread : Bool}
    {keys : List String} (h : s.Rewrites new families unread keys) (hwf : s.WellFormed) :
    ∃ oid, parseObjectId new.mongoShowId = some oid ∧ oid ∈ s.shows.map Prod.fst := by
  rcases h.refers with ⟨old, hold⟩ | hrefers
  · rw [← h.old_show old hold]
    exact hwf.refers old (Table.mem_of_rowAt hold)
  · exact hrefers

theorem putShow_wellFormed (hwf : s.WellFormed) (id : ObjectId) (d : Show δ) :
    (s.putShow id d).WellFormed where
  showIds := Table.nodup_put hwf.showIds
  scheduleIds := hwf.scheduleIds
  refers := by
    intro r hr
    obtain ⟨oid, hoid, hmem⟩ := hwf.refers r hr
    refine ⟨oid, hoid, ?_⟩
    obtain ⟨x, hx, rfl⟩ := List.mem_map.mp hmem
    by_cases hid : x.1 = id
    · exact List.mem_map.mpr ⟨(id, d), (Table.mem_put hwf.showIds).mpr (.inl rfl), hid.symm⟩
    · exact List.mem_map.mpr ⟨x, Table.mem_put_of_ne hx hid, rfl⟩

theorem putSchedule_wellFormed (hwf : s.WellFormed) {r : Schedule}
    (hr : ∃ oid, parseObjectId r.mongoShowId = some oid ∧ oid ∈ s.shows.map Prod.fst) :
    (s.putSchedule r).WellFormed where
  showIds := hwf.showIds
  scheduleIds := Table.nodup_put hwf.scheduleIds
  refers := by
    intro r' hr'
    rcases (Table.mem_put hwf.scheduleIds).mp hr' with rfl | ⟨hr', -⟩
    · exact hr
    · exact hwf.refers r' hr'

theorem after_wellFormed (hwf : s.WellFormed) (request : Request δ) :
    (s.after request).WellFormed := by
  unfold after
  cases hhandle : s.handle request with
  | error e => exact hwf
  | ok change =>
      rcases handle_cases hhandle with hw | ⟨id, d, hw, -⟩ | ⟨new, families, hw, hnew⟩
      · simp only [hw, apply]
        exact hwf
      · simp only [hw, apply]
        exact putShow_wellFormed hwf id d
      · simp only [hw, apply]
        exact putSchedule_wellFormed hwf (hnew.show_exists hwf)

end Store

/-- The catalogue after a request. -/
def Catalogue.after (s : Catalogue δ) (request : Request δ) : Catalogue δ :=
  ⟨s.1.after request, Store.after_wellFormed s.2 request⟩

end ListCaches
end Bookit

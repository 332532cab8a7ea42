import Bookit.Lib.CacheAside
import Bookit.Web.CachesInvalidated

/-!
# Web.ListServer — the handlers of what is cached, and the admins' beside them

The handlers of the user API look a list or a schedule up in Redis, load it from PostgreSQL and
MongoDB where they do not find it, and put what they load for a day.  An admin's request reads and
writes its row or document in one step here, goes on with what can still fail, and then deletes its
keys.

* `answer_is_fresh` — what is answered has every change of its key that was answered before;
* `ended_schedule_not_listed` — a schedule whose end was answered is not listed as active again;
* `ended_schedule_shown_closed` — and its details are not shown as those of another state.
-/

namespace Bookit
namespace ListServer

open Lib
open ListCaches (CachedList Listing Request Schedule Show Store ObjectId byCreated byStart
  typeMatches)

variable {δ : Type}

deriving instance DecidableEq for CachedList

/-- What is cached: the lists, and the rows of schedules. -/
inductive Cached where
  | list (list : CachedList)
  | schedule (id : ℤ)
  deriving DecidableEq

def Cached.key : Cached → String
  | .list l => l.key
  | .schedule id => ListCaches.cacheScheduleKey id

/-- A row is cached where there is one, deleted or not. -/
def uncached (s : Store δ) : Cached → Listing δ
  | .list l => s.uncached l
  | .schedule id => .schedules (s.scheduleRow id).toList

/-! ## Statements -/

/-- The finds in `shows`. -/
inductive ShowQuery where
  | live
  | grid (city : Option String)
  | ofIds (showType : Option String) (ids : List ObjectId)

/-- The statements that load.  Those on `schedules` name the time they compare with; `ofShow` is the
show and the city of the query, where it has them. -/
inductive Query where
  | schedules (now : ℕ) (ofShow : Option (String × Option String))
  | schedule (id : ℤ)
  | activeShowIds (now : ℕ) (city : Option String)
  | shows (q : ShowQuery)

abbrev Rows (δ : Type) : Query → Type
  | .schedules _ _ => List Schedule
  | .schedule _ => Option Schedule
  | .activeShowIds _ _ => List ObjectId
  | .shows _ => List (ObjectId × Show δ)

def asOf (t : ℕ) (s : Store δ) : Store δ :=
  { s with now := t }

def find (s : Store δ) : ShowQuery → List (ObjectId × Show δ)
  | .live => s.shows.filter fun x => x.2.live
  | .grid city => s.listShowsGrid city
  | .ofIds showType ids =>
      s.shows.filter fun x => x.2.live && (typeMatches showType x.2 && decide (x.1 ∈ ids))

def answer : (q : Query) → ℕ → Store δ → Rows δ q
  | .schedules now none, _, s => (asOf now s).listActiveSchedules
  | .schedules now (some (showId, city)), _, s => (asOf now s).getSchedulesForShow showId city
  | .schedule id, _, s => s.scheduleRow id
  | .activeShowIds now city, _, s => (asOf now s).activeShowIds city
  | .shows q, _, s => find s q

/-- What is cached, and what the admins' requests do to it. -/
def schema (δ : Type) :
    CacheAside.Schema Cached String (Listing δ) Query (Request δ) (Store δ) (Rows δ) where
  key := Cached.key
  rows list t s := uncached (asOf t s) list
  answer := answer
  change request t s :=
    match (asOf t s).handle request with
    | .ok change => some ((asOf t s).apply change.write, change.keys)
    | .error _ => none

/-! ## Handlers -/

abbrev Command (δ : Type) : Type :=
  CacheAside.Cmd Cached String (Listing δ) Query (Request δ)

abbrev Reply (δ : Type) : Command δ → Type :=
  CacheAside.Rep (Rows δ)

inductive Response (δ : Type) where
  | failed
  | notFound
  | listed (rows : Listing δ)
  | changed
  deriving DecidableEq

/-- `TTL_24_HOURS`. -/
def ttl24Hours : ℕ := 24 * 60 * 60

/-- The rows that are still active are shown; counting their seats can fail. -/
def showSchedules (now : ℕ) (rows : List Schedule) : Prog (Reply δ) (Response δ) := do
  if ← Prog.perform (.finish : Command δ) then
    pure (.listed (.schedules (rows.filter (Schedule.active now))))
  else
    pure .failed

def loadSchedules (list : CachedList) (ofShow : Option (String × Option String)) (now : ℕ) :
    Prog (Reply δ) (Response δ) := do
  match ← Prog.perform (.query (.schedules now ofShow) : Command δ) with
  | none => pure .failed
  | some loaded =>
      CacheAside.put (.list list) (.schedules loaded) ttl24Hours 3
      showSchedules now loaded

/-- The handlers of lists of schedules. -/
def schedules (list : CachedList) (ofShow : Option (String × Option String)) :
    Prog (Reply δ) (Response δ) := do
  let now ← Prog.perform (.now : Command δ)
  match ← CacheAside.fetch list.key 3 with
  | some (.schedules cached) => showSchedules now cached
  | _ => loadSchedules list ofShow now

def listActiveSchedules : Prog (Reply δ) (Response δ) :=
  schedules .activeSchedules none

def getSchedulesForShow (showId : String) (city : Option String) : Prog (Reply δ) (Response δ) :=
  schedules (.showSchedules showId city) (some (showId, city))

/-- A row that is deleted is not found. -/
def showDetails (schedule : Schedule) : Response δ :=
  if schedule.deletedAt.isSome then .notFound else .listed (.schedules [schedule])

def loadSchedule (id : ℤ) : Prog (Reply δ) (Response δ) := do
  match ← Prog.perform (.query (.schedule id) : Command δ) with
  | none => pure .failed
  | some none => pure .notFound
  | some (some loaded) =>
      CacheAside.put (.schedule id) (.schedules [loaded]) ttl24Hours 3
      pure (showDetails loaded)

def getScheduleDetails (id : ℤ) : Prog (Reply δ) (Response δ) := do
  match ← CacheAside.fetch (Cached.schedule id).key 3 with
  | some (.schedules [cached]) => pure (showDetails cached)
  | _ => loadSchedule id

/-- Load shows, arrange them, and put them into the cache. -/
def loadShows (list : CachedList) (q : ShowQuery)
    (arrange : List (ObjectId × Show δ) → List (ObjectId × Show δ)) (retries : ℕ) :
    Prog (Reply δ) (Response δ) := do
  match ← Prog.perform (.query (.shows q) : Command δ) with
  | none => pure .failed
  | some found =>
      CacheAside.put (.list list) (.shows (arrange found)) ttl24Hours retries
      pure (.listed (.shows (arrange found)))

/-- The handlers of lists of shows. -/
def shows (list : CachedList) (retries : ℕ) (load : Prog (Reply δ) (Response δ)) :
    Prog (Reply δ) (Response δ) := do
  match ← CacheAside.fetch list.key retries with
  | some (.shows cached) => pure (.listed (.shows cached))
  | _ => load

/-- An empty list of a city is answered, and not put. -/
def loadMovies (showType city : Option String) : Prog (Reply δ) (Response δ) := do
  let now ← Prog.perform (.now : Command δ)
  match ← Prog.perform (.query (.activeShowIds now city) : Command δ) with
  | none => pure .failed
  | some [] => pure (.listed (.shows []))
  | some (id :: ids) =>
      loadShows (.movies showType city) (.ofIds showType (id :: ids)) byCreated 0

def getMovies (showType city : Option String) : Prog (Reply δ) (Response δ) :=
  shows (.movies showType city) 0 (loadMovies showType city)

/-- The first page, which alone is cached. -/
def listShowsGrid (city : Option String) : Prog (Reply δ) (Response δ) :=
  shows (.dashboardGrid city) 3 (loadShows (.dashboardGrid city) (.grid city) id 3)

def listShows : Prog (Reply δ) (Response δ) :=
  shows .allShows 3 (loadShows .allShows .live byCreated 3)

/-- Requests of users and of admins. -/
inductive Incoming (δ : Type) where
  | read (cached : Cached)
  | admin (request : Request δ)

def handler : Incoming δ → Prog (Reply δ) (Response δ)
  | .read (.list .activeSchedules) => listActiveSchedules
  | .read (.list (.showSchedules showId city)) => getSchedulesForShow showId city
  | .read (.list (.movies showType city)) => getMovies showType city
  | .read (.list (.dashboardGrid city)) => listShowsGrid city
  | .read (.list .allShows) => listShows
  | .read (.schedule id) => getScheduleDetails id
  | .admin request => do
      if ← CacheAside.update 3 request then pure .changed else pure .failed

/-- The state of the server with its log. -/
abbrev State (δ : Type) : Type :=
  CacheAside.World Cached String (Listing δ) (Store δ) × CacheAside.Log String (Store δ)

/-- Requests against a store that is `first` at the start. -/
def server (first : Store δ) :
    Machine (State δ) (Reply δ) (Incoming δ) (Response δ) Link
      (CacheAside.Environ (Incoming δ)) :=
  CacheAside.logged (schema δ) handler first

/-! ## What the handlers answer -/

/-- What a request that began at `start` is shown of what was cached or loaded. -/
def since (start : ℕ) : Cached → Listing δ → Listing δ
  | .list _, .schedules rows => .schedules (rows.filter (Schedule.active start))
  | .list _, .shows documents => .shows documents
  | .schedule _, v => v

/-- Where the key is that of what is read, what is answered is fresh. -/
def Reads (k : String) (cached : Cached) (i : ℕ) (r : Response δ) (p : State δ) : Prop :=
  ∀ v, r = .listed v → cached.key = k →
    ∃ start v', CacheAside.Fresh (schema δ) k p i start v' ∧ v = since start cached v'

variable {k : String} {list : CachedList} {i now t : ℕ} {p : State δ} {n : Incoming δ}

theorem ensures_showSchedules {rows : List Schedule}
    (h : list.key = k → CacheAside.Fresh (schema δ) k p i now (.schedules rows)) :
    CacheAside.Ensures (schema δ) k n i (Reads k (.list list) i) (showSchedules now rows) p := by
  refine CacheAside.ensures_finish h fun r q hq => ?_
  cases r with
  | false => exact .ret fun _ _ _ v hv => by cases hv
  | true =>
      refine .ret fun u hrely _ v hv hk => ?_
      cases hv
      exact ⟨now, .schedules rows, (hq hk).later hrely.toLater hrely.asked, rfl⟩

theorem ensures_loadSchedules {ofShow : Option (String × Option String)}
    (hstarted : CacheAside.Started i now p)
    (hload : ∀ t (s : Store δ),
      (asOf now s).uncached list = .schedules (answer (.schedules now ofShow) t s)) :
    CacheAside.Ensures (schema δ) k n i (Reads k (.list list) i)
      (loadSchedules list ofShow now) p := by
  rw [loadSchedules, Prog.perform_bind]
  refine CacheAside.ensures_query (fun _ => .ret fun _ _ _ v hv => by cases hv) ?_
  intro q t m s t' _ hsame _ hloads ht _
  obtain rfl := hsame now hstarted
  have hloaded : CacheAside.Loaded (schema δ) i t (.list list)
      (.schedules (answer (.schedules t ofShow) t' s)) q :=
    ⟨m, s, t, hloads, ht, hload t' s⟩
  exact .bind ((CacheAside.ensures_put 3 hloaded).weaken fun _ _ hput =>
    ensures_showSchedules fun hk => hput.fresh hk)

theorem ensures_schedules {ofShow : Option (String × Option String)}
    (hasked : p.2.asked i = none)
    (hload : ∀ now t (s : Store δ),
      (asOf now s).uncached list = .schedules (answer (.schedules now ofShow) t s)) :
    CacheAside.Ensures (schema δ) k n i (Reads k (.list list) i) (schedules list ofShow) p := by
  rw [schedules, Prog.perform_bind]
  refine CacheAside.ensures_now fun now q _ _ hstarted _ => ?_
  refine .bind ((CacheAside.ensures_fetch list.key 3).weaken fun found u hu => ?_)
  obtain ⟨t, hu⟩ := hu
  obtain rfl := hu.same now (hstarted hasked)
  have hmissed := ensures_loadSchedules (k := k) (n := n) hu.started (hload t)
  match found with
  | none => exact hmissed
  | some (.shows _) => exact hmissed
  | some (.schedules cached) => exact ensures_showSchedules fun hk => hu.fresh hk _ rfl

theorem ensures_loadShows {q : ShowQuery} {retries : ℕ}
    {arrange : List (ObjectId × Show δ) → List (ObjectId × Show δ)}
    (hload : ∀ z t m s t', CacheAside.Later p z → (∀ m' ∈ p.2.loadedAt i, m = m') →
      CacheAside.Loads z i t m s → t' ≤ z.1.now →
      CacheAside.Loaded (schema δ) i t (.list list) (.shows (arrange (find s q))) z) :
    CacheAside.Ensures (schema δ) k n i (Reads k (.list list) i)
      (loadShows list q arrange retries) p := by
  rw [loadShows, Prog.perform_bind]
  refine CacheAside.ensures_query (fun _ => .ret fun _ _ _ v hv => by cases hv) ?_
  intro z t m s t' hlater _ hsame hloads _ ht'
  refine .bind ((CacheAside.ensures_put retries (hload z t m s t' hlater hsame hloads ht')).weaken
    fun _ _ hput => .ret fun u hrely _ v hv hk => ?_)
  cases hv
  exact ⟨t, _, (hput.rely hrely).fresh hk, rfl⟩

theorem ensures_shows {retries : ℕ} {load : Prog (Reply δ) (Response δ)}
    (hload : ∀ q, q.2.loadedAt i = p.2.loadedAt i →
      CacheAside.Ensures (schema δ) k n i (Reads k (.list list) i) load q) :
    CacheAside.Ensures (schema δ) k n i (Reads k (.list list) i) (shows list retries load) p := by
  refine .bind ((CacheAside.ensures_fetch list.key retries).weaken fun found u hu => ?_)
  obtain ⟨t, hu⟩ := hu
  have hmissed := hload u hu.loadedAt
  match found with
  | none => exact hmissed
  | some (.schedules _) => exact hmissed
  | some (.shows cached) =>
      refine .ret fun z hrely _ v hv hk => ?_
      cases hv
      exact ⟨t, .shows cached, (hu.rely hrely).fresh hk _ rfl, rfl⟩

/-- Shows that one find has loaded. -/
theorem ensures_loadShows_once {q : ShowQuery} {retries : ℕ}
    {arrange : List (ObjectId × Show δ) → List (ObjectId × Show δ)}
    (hload : ∀ t (s : Store δ), (asOf t s).uncached list = .shows (arrange (find s q))) :
    CacheAside.Ensures (schema δ) k n i (Reads k (.list list) i)
      (loadShows list q arrange retries) p :=
  ensures_loadShows fun _ _ m s t' _ _ hloads ht' => ⟨m, s, t', hloads, ht', hload t' s⟩

theorem ensures_loadMovies {showType city : Option String} :
    CacheAside.Ensures (schema δ) k n i (Reads k (.list (.movies showType city)) i)
      (loadMovies showType city) p := by
  rw [loadMovies, Prog.perform_bind]
  refine CacheAside.ensures_now fun now q hnow _ _ _ => ?_
  rw [Prog.perform_bind]
  refine CacheAside.ensures_query (fun _ => .ret fun _ _ _ v hv => by cases hv) ?_
  intro z t m s t' hlater _ _ hloads _ _
  have hnow := Nat.le_trans hnow hlater.now
  -- the list as of the time of the first statement, in the version that both load from
  have hrows : ∀ ids, (asOf now s).activeShowIds city = ids →
      (asOf now s).uncached (.movies showType city) =
        .shows (if ids = [] then [] else byCreated (find s (.ofIds showType ids))) := by
    rintro _ rfl
    rfl
  generalize hids : (schema δ).answer (.activeShowIds now city) t' s = ids
  cases ids with
  | nil =>
      refine .ret fun u hrely _ v hv hk => ?_
      cases hv
      have hloaded : CacheAside.Loaded (schema δ) i t (.list (.movies showType city))
          (.shows []) z :=
        ⟨m, s, now, hloads, hnow, hrows [] hids⟩
      exact ⟨t, _, (hloaded.rely hrely).fresh hk, rfl⟩
  | cons id ids =>
      refine ensures_loadShows fun u t₁ m₁ s₁ _ hlater₁ hsame hloads₁ _ => ?_
      obtain rfl := hsame m hloads.1
      obtain rfl : s = s₁ := Option.some.inj ((hlater₁.version hloads.2.1).symm.trans hloads₁.2.1)
      exact ⟨_, s, now, hloads₁, Nat.le_trans hnow hlater₁.now, hrows (id :: ids) hids⟩

theorem ensures_showDetails {id : ℤ} {schedule : Schedule}
    (h : (Cached.schedule id).key = k →
      CacheAside.Fresh (schema δ) k p i t (.schedules [schedule])) :
    CacheAside.Ensures (schema δ) k n i (Reads k (.schedule id) i) (pure (showDetails schedule))
      p := by
  refine .ret fun u hrely _ v hv hk => ?_
  unfold showDetails at hv
  split_ifs at hv
  cases hv
  exact ⟨t, _, (h hk).later hrely.toLater hrely.asked, rfl⟩

theorem ensures_loadSchedule {id : ℤ} :
    CacheAside.Ensures (schema δ) k n i (Reads k (.schedule id) i) (loadSchedule id) p := by
  rw [loadSchedule, Prog.perform_bind]
  refine CacheAside.ensures_query (fun _ => .ret fun _ _ _ v hv => by cases hv) ?_
  intro q t m s t' _ _ _ hloads _ ht'
  generalize hrow : (schema δ).answer (.schedule id) t' s = row
  cases row with
  | none => exact .ret fun _ _ _ v hv => by cases hv
  | some loaded =>
      have hrow : s.scheduleRow id = some loaded := hrow
      have hrows : uncached (asOf t' s) (.schedule id) = .schedules [loaded] :=
        congrArg (fun row : Option Schedule => Listing.schedules row.toList) hrow
      have hloaded : CacheAside.Loaded (schema δ) i t (.schedule id) (.schedules [loaded]) q :=
        ⟨m, s, t', hloads, ht', hrows⟩
      exact .bind ((CacheAside.ensures_put 3 hloaded).weaken fun _ _ hput =>
        ensures_showDetails fun hk => hput.fresh hk)

theorem ensures_getScheduleDetails {id : ℤ} :
    CacheAside.Ensures (schema δ) k n i (Reads k (.schedule id) i) (getScheduleDetails id) p := by
  refine .bind ((CacheAside.ensures_fetch _ 3).weaken fun found u hu => ?_)
  obtain ⟨t, hu⟩ := hu
  have hmissed : CacheAside.Ensures (schema δ) k n i (Reads k (.schedule id) i)
    (loadSchedule id) u := ensures_loadSchedule
  match found with
  | none => exact hmissed
  | some (.shows _) => exact hmissed
  | some (.schedules []) => exact hmissed
  | some (.schedules (_ :: _ :: _)) => exact hmissed
  | some (.schedules [cached]) => exact ensures_showDetails fun hk => hu.fresh hk _ rfl

theorem ensures_admin {request : Request δ} (hmade : p.2.made i = []) :
    CacheAside.Ensures (schema δ) k n i
      (fun r q => r = .changed → CacheAside.Acknowledged (schema δ) request q)
      (handler (.admin request)) p := by
  refine .bind ((CacheAside.ensures_update 3 request hmade).weaken fun b q hb => ?_)
  cases b with
  | true => exact .ret fun u hrely _ _ => (hb rfl).later hrely.toLater
  | false => exact .ret fun _ _ _ h => by cases h

/-- What a request is answered with. -/
def Answered (k : String) : Incoming δ → ℕ → Response δ → State δ → Prop
  | .read cached, i, r, p => Reads k cached i r p
  | .admin request, _, r, p => r = .changed → CacheAside.Acknowledged (schema δ) request p

/-- Every handler keeps to the contract of the key. -/
theorem ensures_handler (n : Incoming δ) (i : ℕ) (p : State δ) (hmade : p.2.made i = [])
    (hasked : p.2.asked i = none) :
    CacheAside.Ensures (schema δ) k n i (Answered k n i) (handler n) p := by
  cases n with
  | admin request => exact ensures_admin hmade
  | read cached =>
      cases cached with
      | schedule id => exact ensures_getScheduleDetails
      | list list =>
          cases list with
          | activeSchedules => exact ensures_schedules hasked fun _ _ _ => rfl
          | showSchedules showId city => exact ensures_schedules hasked fun _ _ _ => rfl
          | movies showType city => exact ensures_shows fun _ _ => ensures_loadMovies
          | dashboardGrid city =>
              exact ensures_shows fun _ _ => ensures_loadShows_once fun _ _ => rfl
          | allShows => exact ensures_shows fun _ _ => ensures_loadShows_once fun _ _ => rfl

abbrev ServerPool (δ : Type) : Type :=
  Pool (State δ) (Reply δ) (Incoming δ) (Response δ)

/-- Each step of the run is careful with the key. -/
abbrev CarefulWith (k : String) (P : ServerPool δ)
    (a : Act Link (CacheAside.Environ (Incoming δ))) : Prop :=
  Machine.Guarded (fun _ => CacheAside.Careful (schema δ) k) (fun _ _ => True) P a

variable {first : Store δ} {P : ServerPool δ}

theorem answered_of_reachable (h : (server first).system.ReachableUnder (CarefulWith k) P) :
    (server first).Fulfils (CacheAside.ruled (schema δ) k (Incoming δ)) (Answered k) P :=
  CacheAside.fulfils (fun n i p hmade hasked _ => ensures_handler n i p hmade hasked) h

/-! ## Keys -/

theorem toDigits_inj {a b : ℕ} (h : Nat.toDigits 10 a = Nat.toDigits 10 b) : a = b := by
  have hvalue := congrArg (fun digits => Nat.ofDigitChars 10 digits 0) h
  simpa only [Nat.ofDigitChars_ten_toDigits] using hvalue

theorem toString_inj {a b : ℤ} (h : toString a = toString b) : a = b := by
  have hdigits := congrArg String.toList h
  -- no number begins with the sign
  have hsign : ∀ m n : ℕ, m.repr.toList ≠ '-' :: n.repr.toList := by
    intro m n heq
    have hmem : '-' ∈ Nat.toDigits 10 m := by
      rw [← Nat.toList_repr, heq]
      exact List.mem_cons_self
    exact absurd (Nat.isDigit_of_mem_toDigits (by decide) (by decide) hmem) (by decide)
  have hneg : ∀ m : ℕ, (toString (Int.negSucc m)).toList = '-' :: (m + 1).repr.toList := by
    intro m
    change ("-" ++ (m + 1).repr).toList = _
    rw [String.toList_append]
    rfl
  cases a with
  | ofNat m =>
      cases b with
      | ofNat n =>
          have hrepr : m.repr.toList = n.repr.toList := hdigits
          rw [Nat.toList_repr, Nat.toList_repr] at hrepr
          rw [toDigits_inj hrepr]
      | negSucc n =>
          rw [hneg] at hdigits
          exact absurd hdigits (hsign m (n + 1))
  | negSucc m =>
      cases b with
      | ofNat n =>
          rw [hneg] at hdigits
          exact absurd hdigits.symm (hsign n (m + 1))
      | negSucc n =>
          rw [hneg, hneg, Nat.toList_repr, Nat.toList_repr] at hdigits
          rw [Nat.succ.inj (toDigits_inj (List.tail_eq_of_cons_eq hdigits))]

/-- No list has the key of a schedule. -/
theorem key_ne (l : CachedList) (id : ℤ) : l.key ≠ ListCaches.cacheScheduleKey id := by
  intro h
  -- the first fifteen characters tell them apart
  have hstart := congrArg (fun key : String => key.toList.take 15) h
  cases l with
  | dashboardGrid city =>
      simp only [CachedList.key, ListCaches.gridKey, ListCaches.cacheDashboardGrid,
        ListCaches.cacheScheduleKey] at hstart
      split at hstart <;> simp at hstart
  | _ =>
      simp [CachedList.key, ListCaches.cacheScheduleKey, ListCaches.cacheSchedulesActiveKey,
        ListCaches.cacheShowSchedulesKey, ListCaches.cacheMoviesKey, ListCaches.moviesAll,
        ListCaches.cacheShows] at hstart

theorem cached_of_key {cached : Cached} {id : ℤ}
    (h : cached.key = ListCaches.cacheScheduleKey id) : cached = .schedule id := by
  cases cached with
  | list l => exact absurd h (key_ne l id)
  | schedule id' =>
      have hids : toString id' = toString id := by
        simpa [Cached.key, ListCaches.cacheScheduleKey] using h
      rw [toString_inj hids]

/-- What is shown of a list depends on the key alone. -/
theorem since_of_key {cached cached' : Cached} (h : cached'.key = cached.key) (start : ℕ)
    (v : Listing δ) : since start cached' v = since start cached v := by
  cases cached with
  | schedule id => rw [cached_of_key h]
  | list l =>
      cases cached' with
      | schedule id => exact absurd h.symm (key_ne l id)
      | list l' => cases v <;> rfl

/-! ## Lists -/

theorem byStart_preorders :
    StableSort.Preorders fun a b : Schedule => decide (a.startTime ≤ b.startTime) where
  total x y := by
    simpa only [decide_eq_true_eq] using Nat.le_total x.startTime y.startTime
  trans x y z := by
    simpa only [decide_eq_true_eq] using Nat.le_trans

/-- A schedule that is active at two times is so at the later one. -/
theorem active_and_active (a b : ℕ) (r : Schedule) :
    (r.active a && r.active b) = r.active (max a b) := by
  have hmax : max a b < r.startTime ↔ a < r.startTime ∧ b < r.startTime := Nat.max_lt
  rw [Bool.eq_iff_iff]
  simp only [Schedule.active, Schedule.upcoming, Bool.and_eq_true, decide_eq_true_eq, hmax]
  constructor
  · rintro ⟨⟨hopen, hlive, ha⟩, -, -, hb⟩
    exact ⟨hopen, hlive, ha, hb⟩
  · rintro ⟨hopen, hlive, ha, hb⟩
    exact ⟨⟨hopen, hlive, ha⟩, hopen, hlive, hb⟩

theorem filter_byStart (start t : ℕ) (c : Schedule → Bool) (rows : List Schedule) :
    (byStart (rows.filter fun r => r.active t && c r)).filter (Schedule.active start) =
      byStart (rows.filter fun r => r.active (max start t) && c r) := by
  have hrow : ∀ r : Schedule, (r.active start && (r.active t && c r)) =
      (r.active (max start t) && c r) := by
    intro r
    rw [← Bool.and_assoc, active_and_active]
  rw [byStart, StableSort.filter_sorted byStart_preorders, List.filter_filter]
  simp only [hrow]

/-- What a request is shown is what was cached as of some time, which for schedules is not before
the start of the request. -/
theorem since_uncached (start t : ℕ) (s : Store δ) (cached : Cached) :
    ∃ t', t' ≤ max start t ∧
      since start cached (uncached (asOf t s) cached) = uncached (asOf t' s) cached ∧
      ∀ rows, uncached (asOf t' s) cached = .schedules rows → start ≤ t' := by
  have hle : start ≤ max start t := Nat.le_max_left ..
  cases cached with
  | schedule id => exact ⟨max start t, Nat.le_refl _, rfl, fun _ _ => hle⟩
  | list list =>
      cases list with
      | activeSchedules =>
          refine ⟨max start t, Nat.le_refl _, congrArg Listing.schedules ?_, fun _ _ => hle⟩
          have h := filter_byStart start t (fun _ => true) s.schedules
          simp only [Bool.and_true] at h
          exact h
      | showSchedules showId city =>
          refine ⟨max start t, Nat.le_refl _, congrArg Listing.schedules ?_, fun _ _ => hle⟩
          have h := filter_byStart start t (fun r => decide (r.mongoShowId = showId) &&
            r.inCity (ListCaches.selectedCity city)) s.schedules
          simp only [Bool.and_left_comm] at h
          exact h
      | movies _ _ => exact ⟨t, Nat.le_max_right .., rfl, fun _ h => by cases h⟩
      | dashboardGrid _ => exact ⟨t, Nat.le_max_right .., rfl, fun _ h => by cases h⟩
      | allShows => exact ⟨t, Nat.le_max_right .., rfl, fun _ h => by cases h⟩

/-! ## What is answered -/

/-- Version `m` has a change of the request, where that names the key. -/
def Includes (p : State δ) (k : String) (request : Request δ) (m : ℕ) : Prop :=
  ∃ (c : ℕ) (x : CacheAside.Change String (Store δ)) (t : ℕ) (s : Store δ),
    p.2.versions[c]? = some s ∧ p.2.changes[c]? = some x ∧
    (schema δ).change request t s = some (x.after, x.keys) ∧ (k ∈ x.keys → c < m)

variable {P₁ P₂ : ServerPool δ} {j : ℕ}

/-- What a request is shown has the changes that were answered when it arrived. -/
theorem listed_since (cached : Cached) {v : Listing δ}
    (h₁ : (server first).system.ReachableUnder (CarefulWith cached.key) P₁)
    (hj : P₁.threads.length ≤ j)
    (h₂ : ((server first).system.startingAt P₁).ReachableUnder (CarefulWith cached.key) P₂)
    (hr : P₂.result j = some (.read cached, .listed v)) :
    ∃ (cached' : Cached) (m : ℕ) (s : Store δ) (t : ℕ), cached'.key = cached.key ∧
      P₂.store.2.versions[m]? = some s ∧ t ≤ P₂.store.1.now ∧
      v = uncached (asOf t s) cached' ∧ (∀ rows, v = .schedules rows → P₁.store.1.now ≤ t) ∧
      ∀ i request, P₁.result i = some (.admin request, .changed) →
        Includes P₂.store cached.key request m := by
  have hF₁ := answered_of_reachable h₁
  have hF₂ := answered_of_reachable (h₁.of_startingAt h₂)
  have hreads : Reads cached.key cached j (.listed v) P₂.store :=
    hF₂.returned (Pool.result_eq_some.1 hr)
  obtain ⟨start, v', ⟨cached', cs, m, hkey, hasked, ⟨s, t, hm, ht, rfl⟩, hall⟩, rfl⟩ :=
    hreads v rfl rfl
  obtain ⟨t', ht', heq, hsince⟩ := since_uncached start t s cached'
  have hrows : since start cached ((schema δ).rows cached' t s) = uncached (asOf t' s) cached' :=
    (since_of_key hkey start _).symm.trans heq
  have hstart := (hF₂.inv.asked j start cs hasked).1
  -- the request has asked when all that was answered was acknowledged
  obtain ⟨hlater, hcs⟩ := CacheAside.asked_since (CacheAside.unasked hF₁ hj) h₂
  obtain ⟨hnow, hcs⟩ := hcs start cs hasked
  refine ⟨cached', m, s, t', hkey, hm, Nat.le_trans ht' (Nat.max_le.2 ⟨hstart, ht⟩), hrows,
    fun rows h => Nat.le_trans hnow (hsince rows (hrows.symm.trans h)), fun i request hi => ?_⟩
  have hacknowledged : CacheAside.Acknowledged (schema δ) request P₁.store :=
    hF₁.returned (Pool.result_eq_some.1 hi) rfl
  obtain ⟨c, hc, hof⟩ := hacknowledged
  obtain ⟨x, t₀, s₀, hx, hs₀, hchange⟩ := hof.later hlater
  obtain ⟨x', hx', hlt⟩ := hall c (hcs hc)
  obtain rfl := Option.some.inj (hx.symm.trans hx')
  exact ⟨c, x, t₀, s₀, hs₀, hx, hchange, hlt⟩

/-! ## Ended schedules -/

/-- The schedule with this id is closed. -/
structure Ended (id : ℤ) (s : Store δ) : Prop where
  wellFormed : s.WellFormed
  closed : ∃ r ∈ s.schedules, r.id = id ∧ r.lifecycleState = .closed

/-- The requests that end a schedule. -/
def Ends (id : ℤ) : Request δ → Prop
  | .closeSchedule scheduleId => scheduleId = id
  | .deleteSchedule scheduleId => scheduleId = id
  | _ => False

variable {s : Store δ} {request : Request δ} {change : ListCaches.Change δ} {id : ℤ}

theorem eq_of_mem {r r' : Schedule} (hwf : s.WellFormed) (hr : r ∈ s.schedules)
    (hr' : r' ∈ s.schedules) (hid : r.id = r'.id) : r = r' := by
  have hrow := Table.rowAt_of_mem hwf.scheduleIds hr
  rw [hid, Table.rowAt_of_mem hwf.scheduleIds hr'] at hrow
  exact (Option.some.inj hrow).symm

theorem schema_change {t : ℕ} {s' : Store δ} {keys : List String}
    (h : (schema δ).change request t s = some (s', keys)) :
    ∃ change, (asOf t s).handle request = .ok change ∧ s' = (asOf t s).apply change.write ∧
      keys = change.keys := by
  simp only [schema] at h
  split at h
  · rename_i change hhandle
    obtain ⟨rfl, rfl⟩ := Prod.mk.inj (Option.some.inj h)
    exact ⟨change, hhandle, rfl, rfl⟩
  · cases h

theorem wellFormed_asOf (t : ℕ) (h : s.WellFormed) : (asOf t s).WellFormed :=
  ⟨h.showIds, h.scheduleIds, h.refers⟩

theorem wellFormed_change {t : ℕ} {s' : Store δ} {keys : List String} (h : s.WellFormed)
    (hchange : (schema δ).change request t s = some (s', keys)) : s'.WellFormed := by
  obtain ⟨change, hhandle, rfl, -⟩ := schema_change hchange
  have hafter := Store.after_wellFormed (wellFormed_asOf t h) request
  rw [Store.after, hhandle] at hafter
  exact hafter

theorem mem_of_findSchedule {r : Schedule} (h : s.findSchedule id = some r) :
    r ∈ s.schedules ∧ r.id = id := by
  obtain ⟨hrow, hid⟩ := Store.scheduleRow_of_findSchedule h
  exact ⟨Table.mem_of_rowAt (Option.mem_def.mpr hrow), hid⟩

/-- The keys of the active schedules and of this one. -/
def NamesSchedule (id : ℤ) (keys : List String) : Prop :=
  ListCaches.cacheSchedulesActiveKey ∈ keys ∧ ListCaches.cacheScheduleKey id ∈ keys

/-- A request that ends a schedule writes it closed, and names its keys. -/
theorem write_of_ends (h : s.handle request = .ok change) (hends : Ends id request) :
    ∃ new, change.write = .schedule new ∧ new.id = id ∧ new.lifecycleState = .closed ∧
      NamesSchedule id change.keys := by
  have hkey : ∀ r : Schedule, r.id = id →
      NamesSchedule id (ListCaches.scheduleLifecycleCaches r) := by
    rintro r rfl
    exact ⟨List.mem_cons_of_mem _ List.mem_cons_self, List.mem_cons_self⟩
  cases request with
  | closeSchedule scheduleId =>
      obtain rfl : scheduleId = id := hends
      simp only [Store.handle, Store.closeSchedule] at h
      split at h
      · cases h
      · rename_i current hcurrent
        have hid := (mem_of_findSchedule hcurrent).2
        split at h
        · rename_i hclosed
          obtain rfl := Except.ok.inj h
          exact ⟨current, rfl, hid, hclosed, hkey _ hid⟩
        · obtain rfl := Except.ok.inj h
          exact ⟨_, rfl, hid, rfl, hkey _ hid⟩
  | deleteSchedule scheduleId =>
      obtain rfl : scheduleId = id := hends
      simp only [Store.handle, Store.deleteSchedule] at h
      split at h
      · cases h
      · rename_i current hcurrent
        have hid := (mem_of_findSchedule hcurrent).2
        obtain rfl := Except.ok.inj h
        exact ⟨_, rfl, hid, rfl, hkey _ hid⟩
  | _ => cases hends

/-- A row that is written is new, or takes the place of one that was not closed unless it is. -/
theorem writes_schedule (h : s.handle request = .ok change) {new : Schedule}
    (hwrite : change.write = .schedule new) :
    (∀ r ∈ s.schedules, r.id ≠ new.id) ∨ ∃ old ∈ s.schedules, old.id = new.id ∧
      (old.lifecycleState = .closed → new.lifecycleState = .closed) := by
  have hends : ∀ id, Ends id request →
      (∀ r ∈ s.schedules, r.id ≠ new.id) ∨ ∃ old ∈ s.schedules, old.id = new.id ∧
        (old.lifecycleState = .closed → new.lifecycleState = .closed) := by
    intro id hends
    obtain ⟨new', hnew, -, hclosed, -⟩ := write_of_ends h hends
    obtain rfl := ListCaches.Write.schedule.inj (hwrite.symm.trans hnew)
    by_cases hold : ∃ old ∈ s.schedules, old.id = new.id
    · obtain ⟨old, hmem, hid⟩ := hold
      exact .inr ⟨old, hmem, hid, fun _ => hclosed⟩
    · exact .inl fun r hr hid => hold ⟨r, hr, hid⟩
  cases request with
  | createShow newId body =>
      simp only [Store.handle, Store.createShow] at h
      split_ifs at h
      obtain rfl := Except.ok.inj h
      cases hwrite
  | updateShow showId body =>
      simp only [Store.handle, Store.updateShow] at h
      split at h
      · cases h
      · split at h
        · cases h
        · obtain rfl := Except.ok.inj h
          cases hwrite
  | deleteShow showId =>
      simp only [Store.handle, Store.deleteShow] at h
      split at h
      · cases h
      · split at h <;> obtain rfl := Except.ok.inj h <;> cases hwrite
  | createSchedule newId body seats =>
      simp only [Store.handle, Store.createSchedule] at h
      split at h
      · cases h
      split at h
      · cases h
      split at h
      · cases h
      split_ifs at h with htype htime hseats hfresh
      obtain rfl := Except.ok.inj h
      obtain rfl := ListCaches.Write.schedule.inj hwrite
      refine .inl fun r hr hid => ?_
      have hnone : Table.rowAt Schedule.id newId s.schedules = none := by
        simpa using hfresh
      exact Table.rowAt_eq_none.1 hnone (List.mem_map.2 ⟨r, hr, hid⟩)
  | updateSchedule scheduleId body readsBack =>
      simp only [Store.handle, Store.updateSchedule] at h
      split at h
      · cases h
      split at h
      · cases h
      · rename_i existing hexisting
        split at h
        · cases h
        obtain rfl := Except.ok.inj h
        obtain rfl := ListCaches.Write.schedule.inj hwrite
        exact .inr ⟨existing, (mem_of_findSchedule hexisting).1, rfl, id⟩
  | startSchedule scheduleId =>
      simp only [Store.handle, Store.startSchedule] at h
      split at h
      · cases h
      · rename_i current hcurrent
        have hmem := (mem_of_findSchedule hcurrent).1
        split at h
        · cases h
        · obtain rfl := Except.ok.inj h
          obtain rfl := ListCaches.Write.schedule.inj hwrite
          exact .inr ⟨current, hmem, rfl, id⟩
        · rename_i hscheduled
          obtain rfl := Except.ok.inj h
          obtain rfl := ListCaches.Write.schedule.inj hwrite
          refine .inr ⟨current, hmem, rfl, fun hclosed => ?_⟩
          rw [hscheduled] at hclosed
          cases hclosed
  | closeSchedule scheduleId =>
      exact hends scheduleId rfl
  | deleteSchedule scheduleId =>
      exact hends scheduleId rfl

theorem ended_of_ends {t : ℕ} {s' : Store δ} {keys : List String} (h : s.WellFormed)
    (hends : Ends id request) (hchange : (schema δ).change request t s = some (s', keys)) :
    Ended id s' ∧ NamesSchedule id keys := by
  have hwf := wellFormed_change h hchange
  obtain ⟨change, hhandle, rfl, rfl⟩ := schema_change hchange
  obtain ⟨new, hwrite, hid, hclosed, hkey⟩ := write_of_ends hhandle hends
  rw [hwrite] at hwf ⊢
  exact ⟨⟨hwf, new, (Table.mem_put h.scheduleIds).2 (.inl rfl), hid, hclosed⟩, hkey⟩

/-- No request opens a closed schedule again. -/
theorem ended_change {t : ℕ} {s' : Store δ} {keys : List String} (h : Ended id s)
    (hchange : (schema δ).change request t s = some (s', keys)) : Ended id s' := by
  have hwf := wellFormed_change h.wellFormed hchange
  obtain ⟨r, hr, hid, hclosed⟩ := h.closed
  obtain ⟨change, hhandle, rfl, -⟩ := schema_change hchange
  refine ⟨hwf, ?_⟩
  cases hwrite : change.write with
  | nothing => exact ⟨r, hr, hid, hclosed⟩
  | document _ _ => exact ⟨r, hr, hid, hclosed⟩
  | schedule new =>
      by_cases hnew : r.id = new.id
      · refine ⟨new, (Table.mem_put h.wellFormed.scheduleIds).2 (.inl rfl), hnew ▸ hid, ?_⟩
        cases writes_schedule hhandle hwrite with
        | inl hfresh => exact absurd hnew (hfresh r hr)
        | inr hold =>
            obtain ⟨old, hmem, hidold, hkeeps⟩ := hold
            obtain rfl := eq_of_mem h.wellFormed hr hmem (hnew.trans hidold.symm)
            exact hkeeps hclosed
      · exact ⟨r, (Table.mem_put h.wellFormed.scheduleIds).2 (.inr ⟨hr, hnew⟩), hid, hclosed⟩

/-- No list of schedules shows a closed one. -/
theorem ne_of_ended {list : CachedList} {rows : List Schedule} (h : Ended id s)
    (hrows : (asOf t s).uncached list = .schedules rows) : ∀ r ∈ rows, r.id ≠ id := by
  intro r hr hid
  have hactive : r ∈ s.schedules ∧ r.active t = true := by
    cases list with
    | activeSchedules =>
        obtain rfl := Listing.schedules.inj hrows
        exact List.mem_filter.1 ((List.mem_insertionSort _).1 hr)
    | showSchedules showId city =>
        obtain rfl := Listing.schedules.inj hrows
        obtain ⟨hmem, hcond⟩ := List.mem_filter.1 ((List.mem_insertionSort _).1 hr)
        simp only [Bool.and_eq_true] at hcond
        exact ⟨hmem, hcond.2.1⟩
    | _ => cases hrows
  obtain ⟨r', hr', hid', hclosed⟩ := h.closed
  obtain rfl := eq_of_mem h.wellFormed hactive.1 hr' (hid.trans hid'.symm)
  simp [Schedule.active, hclosed] at hactive

theorem closed_of_ended {rows : List Schedule} (h : Ended id s)
    (hrows : rows = (s.scheduleRow id).toList) :
    ∀ r ∈ rows, r.id = id ∧ r.lifecycleState = .closed := by
  intro r hr
  rw [hrows, Option.mem_toList] at hr
  have hid : r.id = id := Table.key_of_rowAt hr
  obtain ⟨r', hr', hid', hclosed⟩ := h.closed
  obtain rfl := eq_of_mem h.wellFormed (Table.mem_of_rowAt hr) hr' (hid.trans hid'.symm)
  exact ⟨hid, hclosed⟩

/-- A version that has the end of a schedule has it closed. -/
theorem ended_version {first : ListCaches.Catalogue δ} {m : ℕ}
    (h : (server first.1).system.ReachableUnder (CarefulWith k) P) (hends : Ends id request)
    (hincludes : Includes P.store k request m)
    (hk : ∀ {keys}, NamesSchedule id keys → k ∈ keys) (hm : P.store.2.versions[m]? = some s) :
    Ended id s := by
  obtain ⟨c, x, t₀, s₀, hs₀, hx, hchange, hlt⟩ := hincludes
  have hgrown := CacheAside.grown h
  have hwf : s₀.WellFormed :=
    hgrown.always (I := Store.WellFormed) (fun _ _ _ _ _ hs => wellFormed_change hs) first.2 hs₀
  obtain ⟨hended, hkey⟩ := ended_of_ends hwf hends hchange
  -- the version after the change has the schedule closed, and so have all versions since
  exact hgrown.kept (fun _ _ _ _ _ hs => ended_change hs) (CacheAside.Log.version_of_change hx)
    hended (hlt (hk hkey)) hm

/-! ## What was cached -/

def reads (cached : Cached) (rows : List Schedule) : Incoming δ × Response δ → Bool
  | (.read cached', .listed (.schedules rows')) => decide (cached' = cached ∧ rows' = rows)
  | _ => false

theorem eq_of_reads {cached : Cached} {rows : List Schedule} {x : Incoming δ × Response δ}
    (h : reads cached rows x = true) : x = (.read cached, .listed (.schedules rows)) := by
  unfold reads at h
  split at h
  · obtain ⟨rfl, rfl⟩ := of_decide_eq_true h
    rfl
  · cases h

def closes (id : ℤ) : Incoming δ × Response δ → Bool
  | (.admin (.closeSchedule scheduleId), .changed) => decide (scheduleId = id)
  | _ => false

theorem eq_of_closes {x : Incoming δ × Response δ} (h : closes id x = true) :
    x = (.admin (.closeSchedule id), .changed) := by
  unfold closes at h
  split at h
  · rw [of_decide_eq_true h]
  · cases h

def lateShow : Schedule :=
  { id := 2, mongoShowId := ListCaches.movieId, showType := .movie, layoutId := some 1
    startTime := 900, bookingOpenAt := 200, lifecycleState := .scheduled, createdAt := 2
    deletedAt := none, venueName := none, venueAddress := none, venueCity := some "Pune"
    venueState := none, date := 0, slot := .night, endTime := 1000 }

/-- A cinema with two schedules. -/
def cinema : ListCaches.Catalogue Unit :=
  ⟨ListCaches.cinema.1.putSchedule lateShow,
    Store.putSchedule_wellFormed ListCaches.cinema.2 ⟨ListCaches.movieId, by decide +kernel⟩⟩

/-- Something is put into the cache, and the first schedule is closed. -/
def readAndClose (cached : Cached) (commands : ℕ) :
    List (Act Link (CacheAside.Environ (Incoming Unit))) :=
  .environ (.request (.read cached)) :: List.replicate commands (.run 0 .ok) ++
    .environ (.request (.admin (.closeSchedule 1))) :: List.replicate 11 (.run 1 .ok)

def readAgain (cached : Cached) (commands : ℕ) :
    List (Act Link (CacheAside.Environ (Incoming Unit))) :=
  .environ (.request (.read cached)) :: List.replicate commands (.run 2 .ok)

/-- What is read in the cinema before and after its first schedule is closed. -/
def ReadsAround (cached : Cached) (before after : List Schedule) : Prop :=
  ∃ P₁ P₂ : ServerPool Unit, (server cinema.1).system.ReachableUnder (CarefulWith cached.key) P₁ ∧
    ((server cinema.1).system.startingAt P₁).ReachableUnder (CarefulWith cached.key) P₂ ∧
    P₁.result 0 = some (.read cached, .listed (.schedules before)) ∧
    P₁.result 1 = some (.admin (.closeSchedule 1), .changed) ∧ P₁.threads.length = 2 ∧
    P₂.result 2 = some (.read cached, .listed (.schedules after))

theorem readsAround_of_run {cached : Cached} (commands : ℕ) {before after : List Schedule}
    (h : ((server cinema.1).system.runUnder (CarefulWith cached.key)
        ⟨(⟨cinema.1, 100, Expiring.empty⟩, CacheAside.Log.empty cinema.1), []⟩
        (readAndClose cached commands)).any (fun P₁ =>
      ((server cinema.1).system.runUnder (CarefulWith cached.key) P₁
        (readAgain cached commands)).any fun P₂ =>
      (P₁.result 0).any (reads cached before) && ((P₁.result 1).any (closes 1) &&
        (decide (P₁.threads.length = 2) && (P₂.result 2).any (reads cached after)))) = true) :
    ReadsAround cached before after := by
  have hinit : (server cinema.1).system.init
      ⟨(⟨cinema.1, 100, Expiring.empty⟩, CacheAside.Log.empty cinema.1), []⟩ :=
    ⟨⟨⟨rfl, rfl⟩, rfl⟩, rfl⟩
  obtain ⟨P₁, P₂, h₁, h₂, hend⟩ :=
    System.exists_reachable_pair_of_runUnder _ _ _ hinit _ _ h
  simp only [Bool.and_eq_true, decide_eq_true_eq, Option.any_eq_true] at hend
  obtain ⟨⟨x, hx, hbefore⟩, ⟨y, hy, hclosed⟩, hlength, z, hz, hafter⟩ := hend
  exact ⟨P₁, P₂, h₁, h₂, eq_of_reads hbefore ▸ hx, eq_of_closes hclosed ▸ hy, hlength,
    eq_of_reads hafter ▸ hz⟩

def earlyShow : Schedule :=
  { lateShow with
    id := 1
    startTime := 500
    slot := .evening
    endTime := 600 }

def closedShow : Schedule :=
  { earlyShow with lifecycleState := .closed }

theorem details_around : ReadsAround (.schedule 1) [earlyShow] [closedShow] :=
  readsAround_of_run 3 (by decide +kernel)

theorem lists_around : ReadsAround (.list .activeSchedules) cinema.1.schedules [lateShow] :=
  readsAround_of_run 5 (by decide +kernel)

/-! ## Results -/

/-- Once the close or the deletion of a schedule is answered, no list of active schedules that is
requested from then on shows it. -/
theorem ended_schedule_not_listed {first : ListCaches.Catalogue δ}
    (h₁ : (server first.1).system.ReachableUnder
      (CarefulWith ListCaches.cacheSchedulesActiveKey) P₁)
    (hends : Ends id request) (hi : P₁.result i = some (.admin request, .changed))
    (hj : P₁.threads.length ≤ j)
    (h₂ : ((server first.1).system.startingAt P₁).ReachableUnder
      (CarefulWith ListCaches.cacheSchedulesActiveKey) P₂) {rows : List Schedule}
    (hlisted : P₂.result j = some (.read (.list .activeSchedules), .listed (.schedules rows))) :
    ∀ r ∈ rows, r.id ≠ id := by
  obtain ⟨cached, m, s, t, hkey, hm, -, hrows, -, hall⟩ :=
    listed_since (.list .activeSchedules) h₁ hj h₂ hlisted
  have hended := ended_version (h₁.of_startingAt h₂) hends (hall i request hi)
    (fun hnames => hnames.1) hm
  cases cached with
  | schedule id' => exact absurd hkey.symm (key_ne .activeSchedules id')
  | list l => exact ne_of_ended hended hrows.symm

theorem ended_schedule_not_listed_again : ∃ P : ServerPool Unit,
    P.result 2 = some (.read (.list .activeSchedules), .listed (.schedules [lateShow])) ∧
      ∀ r ∈ [lateShow], r.id ≠ 1 := by
  obtain ⟨P₁, P₂, h₁, h₂, -, hclosed, hlength, hlisted⟩ := lists_around
  have hends : Ends 1 (.closeSchedule 1 : Request Unit) := rfl
  exact ⟨P₂, hlisted, ended_schedule_not_listed h₁ hends hclosed (Nat.le_of_eq hlength) h₂ hlisted⟩

/-- Once the close or the deletion of a schedule is answered, its details that are requested from
then on are those of a closed schedule. -/
theorem ended_schedule_shown_closed {first : ListCaches.Catalogue δ}
    (h₁ : (server first.1).system.ReachableUnder (CarefulWith (ListCaches.cacheScheduleKey id)) P₁)
    (hends : Ends id request) (hi : P₁.result i = some (.admin request, .changed))
    (hj : P₁.threads.length ≤ j)
    (h₂ : ((server first.1).system.startingAt P₁).ReachableUnder
      (CarefulWith (ListCaches.cacheScheduleKey id)) P₂) {rows : List Schedule}
    (hshown : P₂.result j = some (.read (.schedule id), .listed (.schedules rows))) :
    ∀ r ∈ rows, r.id = id ∧ r.lifecycleState = .closed := by
  obtain ⟨cached, m, s, t, hkey, hm, -, hrows, -, hall⟩ :=
    listed_since (.schedule id) h₁ hj h₂ hshown
  have hended := ended_version (h₁.of_startingAt h₂) hends (hall i request hi)
    (fun hnames => hnames.2) hm
  rw [cached_of_key hkey] at hrows
  exact closed_of_ended hended (Listing.schedules.inj hrows)

theorem ended_schedule_shown_closed_again : ∃ P : ServerPool Unit,
    P.result 2 = some (.read (.schedule 1), .listed (.schedules [closedShow])) ∧
      ∀ r ∈ [closedShow], r.id = 1 ∧ r.lifecycleState = .closed := by
  obtain ⟨P₁, P₂, h₁, h₂, -, hclosed, hlength, hshown⟩ := details_around
  have hends : Ends 1 (.closeSchedule 1 : Request Unit) := rfl
  exact ⟨P₂, hshown, ended_schedule_shown_closed h₁ hends hclosed (Nat.le_of_eq hlength) h₂ hshown⟩

end ListServer
end Bookit

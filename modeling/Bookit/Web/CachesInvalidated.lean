import Bookit.Web.ListCaches

/-!
# Web.CachesInvalidated — which stale lists the admin handlers leave

A request that runs to its end deletes the keys of every list that it changes, with three exceptions.
The movies lists are deleted for writes of schedules only, and under the type of the schedule; the grids
of the cities are never deleted; and an update that cannot read its row again leaves out the new city.
-/

namespace Bookit
namespace ListCaches

open Lib
open Accounts (trim)
open Search (ShowType parseObjectId)

variable {δ : Type}

/-! ## What a list depends on -/

/-- An upcoming schedule of a city. -/
def Schedule.plays (now : ℕ) (city : Option String) (r : Schedule) : Bool :=
  r.upcoming now && r.inCity city

/-- A live document of the grid of a city. -/
def inGrid (city : Option String) (x : ObjectId × Show δ) : Bool :=
  x.2.live && cityMatches city x.2

namespace Store

variable (s : Store δ)

def liveShow (id : ObjectId) : Option (Show δ) :=
  (s.findShow id).filter Show.live

/-- The live document of a schedule's show. -/
def liveShowOf (r : Schedule) : Option (Show δ) :=
  (parseObjectId r.mongoShowId).bind s.liveShow

/-- A show has an upcoming schedule in a city. -/
def Playing (city : Option String) (id : ObjectId) : Prop :=
  ∃ r ∈ s.schedules, r.plays s.now city = true ∧ parseObjectId r.mongoShowId = some id

/-- The show of a schedule has another one that is upcoming in a city. -/
def OtherPlays (new : Schedule) (city : Option String) : Prop :=
  ∃ r ∈ s.schedules, r.id ≠ new.id ∧ r.plays s.now city = true ∧
    parseObjectId r.mongoShowId = parseObjectId new.mongoShowId

/-- The write of a schedule does not matter to whether its show plays in a city. -/
def PlaysAlike (new : Schedule) (city : Option String) : Prop :=
  ((∃ old ∈ s.scheduleRow new.id, old.plays s.now city = true) ↔ new.plays s.now city = true) ∨
    s.OtherPlays new city

/-- A condition selects the same row before and after a write of a schedule. -/
def ListedAlike (new : Schedule) (q : Schedule → Bool) : Prop :=
  (s.scheduleRow new.id).filter q = (some new).filter q

/-- How many shows the grid of its city puts before a show, in its place in the collection. -/
def gridRank (id : ObjectId) (d : Show δ) : ℕ :=
  StableSort.inFront gridOrder ((Table.ahead Prod.fst id s.shows).filter (inGrid d.city)) (id, d)
    ((Table.behind Prod.fst id s.shows).filter (inGrid d.city))

/-- A show on the first page of the grid of a city. -/
def OnCityPage (id : ObjectId) (d : Show δ) : Prop :=
  ∃ c, d.city = some c ∧ c ≠ "" ∧ trim c = c ∧ s.gridRank id d < 30

/-! ## When the keys of every changed list are deleted -/

/-- For the write of a document: the show is listed as before, or the request runs to its end, and the
show has no upcoming schedule and is on no city's first page, before or after. -/
def ShowCovered (id : ObjectId) (d : Show δ) (completes : Bool) : Prop :=
  s.liveShow id = (some d).filter Show.live ∨
    (completes = true ∧ ¬ s.Playing none id ∧ (∀ old ∈ s.liveShow id, ¬ s.OnCityPage id old) ∧
      ∀ new ∈ (some d).filter Show.live, ¬ s.OnCityPage id new)

/-- For the write of a schedule whose request runs to its end: where the type of the show is another
one, it plays in the same cities as before; and where the row is not read again, a new city shows none
of it. -/
def ScheduleCovered (new : Schedule) (unread completes : Bool) : Prop :=
  if completes then
    (∀ d ∈ s.liveShowOf new, d.showType ≠ new.showType →
      ∀ city, s.PlaysAlike new (selectedCity city)) ∧
    (unread = true → ∀ c, new.venueCity = some c → selectedCity (some c) = some c →
      (∀ old ∈ s.scheduleRow new.id, selectedCity old.venueCity ≠ some c) →
      new.active s.now = false ∧ ∀ d ∈ s.liveShowOf new, s.PlaysAlike new (some c))
  else
    s.ListedAlike new (fun r => r.active s.now) ∧
      ∀ d ∈ s.liveShowOf new, ∀ city, s.PlaysAlike new (selectedCity city)

def WriteCovered (unread completes : Bool) : Write δ → Prop
  | .nothing => True
  | .document id d => s.ShowCovered id d completes
  | .schedule new => s.ScheduleCovered new unread completes

/-- The write of a request, where it is accepted, is covered. -/
def Covered (request : Request δ) (completes : Bool) : Prop :=
  ∀ change, s.handle request = .ok change → s.WriteCovered request.unread completes change.write

end Store

/-- The keys of the lists that a request changes are deleted. -/
def Catalogue.Invalidates (s : Catalogue δ) (request : Request δ) (completes : Bool) : Prop :=
  ∀ list : CachedList, s.1.uncached list ≠ (s.after request).1.uncached list →
    list.key ∈ s.1.invalidated request completes

/-! ## Sorted lists -/

theorem mem_byStart (l : List Schedule) (r : Schedule) : r ∈ byStart l ↔ r ∈ l :=
  List.mem_insertionSort _

theorem mem_byCreated (l : List (ObjectId × Show δ)) (x : ObjectId × Show δ) :
    x ∈ byCreated l ↔ x ∈ l :=
  List.mem_insertionSort _

theorem absentFirst_total {α : Type} (le : α → α → Bool)
    (h : ∀ a b, le a b = true ∨ le b a = true) (a b : Option α) : absentFirst le a b = true ∨ absentFirst le b a = true := by
  cases a with
  | none => exact .inl rfl
  | some a =>
      cases b with
      | none => exact .inr rfl
      | some b => exact h a b

theorem absentFirst_trans {α : Type} (le : α → α → Bool)
    (h : ∀ a b c, le a b = true → le b c = true → le a c = true) (a b c : Option α)
    (hab : absentFirst le a b = true) (hbc : absentFirst le b c = true) :
    absentFirst le a c = true := by
  cases a with
  | none => rfl
  | some a =>
      cases b with
      | none => cases hab
      | some b =>
          cases c with
          | none => cases hbc
          | some c => exact h a b c hab hbc

theorem absentFirst_antisymm {a b : Option ℤ}
    (hab : absentFirst (fun x y => decide (x ≤ y)) a b = true)
    (hba : absentFirst (fun x y => decide (x ≤ y)) b a = true) : a = b := by
  cases a with
  | none =>
      cases b with
      | none => rfl
      | some b => cases hba
  | some a =>
      cases b with
      | none => cases hab
      | some b =>
          simp only [absentFirst, decide_eq_true_eq] at hab hba
          exact congrArg some (by omega)

theorem gridOrder_preorders : StableSort.Preorders (gridOrder (δ := δ)) where
  total := by
    intro x y
    have hstart := absentFirst_total (fun a b : ℕ => decide (a ≤ b))
      (fun a b => by simpa using Nat.le_total a b) x.2.nextStartTime y.2.nextStartTime
    have hweight := absentFirst_total (fun a b : ℤ => decide (a ≤ b))
      (fun a b => by simpa using Int.le_total a b) y.2.weight x.2.weight
    by_cases h : x.2.weight = y.2.weight
    · simpa [gridOrder, h] using hstart
    · simpa [gridOrder, h, Ne.symm h] using hweight
  trans := by
    intro x y z hxy hyz
    have hstart := absentFirst_trans (fun a b : ℕ => decide (a ≤ b))
      (fun a b c hab hbc => by simp at *; omega) x.2.nextStartTime y.2.nextStartTime
      z.2.nextStartTime
    have hweight := absentFirst_trans (fun a b : ℤ => decide (a ≤ b))
      (fun a b c hab hbc => by simp at *; omega) z.2.weight y.2.weight x.2.weight
    unfold gridOrder at hxy hyz ⊢
    by_cases h₁ : x.2.weight = y.2.weight
    · by_cases h₂ : y.2.weight = z.2.weight
      · simp only [h₁, h₂, if_true] at hxy hyz ⊢
        exact hstart hxy hyz
      · simpa [h₁, h₂] using hyz
    · by_cases h₂ : y.2.weight = z.2.weight
      · rw [if_neg h₁] at hxy
        rw [← h₂, if_neg h₁]
        exact hxy
      · rw [if_neg h₁] at hxy
        rw [if_neg h₂] at hyz
        have hzx := hweight hyz hxy
        by_cases h₃ : x.2.weight = z.2.weight
        · -- between equal weights there is no other
          rw [← h₃] at hyz
          exact absurd (absentFirst_antisymm hyz hxy) h₁
        · rw [if_neg h₃]
          exact hzx

/-! ## What a write of a document changes -/

namespace Store

variable {s : Store δ}

theorem mem_activeShowIds {city : Option String} {id : ObjectId} :
    id ∈ s.activeShowIds city ↔ s.Playing (selectedCity city) id := by
  unfold activeShowIds Playing Schedule.plays
  simp only [List.mem_filterMap, List.mem_filter, and_assoc]

/-- No upcoming schedule is the case where nothing is selected. -/
theorem getMovies_eq (showType city : Option String) :
    s.getMovies showType city = byCreated (s.shows.filter fun x =>
      x.2.live && (typeMatches showType x.2 && decide (x.1 ∈ s.activeShowIds city))) := by
  unfold getMovies
  dsimp only
  split_ifs with h
  · simp [h, byCreated]
  · rfl

theorem playing_none {city : Option String} {id : ObjectId} (h : s.Playing city id) :
    s.Playing none id := by
  obtain ⟨r, hr, hplays, hid⟩ := h
  refine ⟨r, hr, ?_, hid⟩
  simp only [Schedule.plays, Bool.and_eq_true] at hplays ⊢
  exact ⟨hplays.1, rfl⟩

/-- The document of a show with its identifier, where it is live. -/
def liveEntry (s : Store δ) (id : ObjectId) : Option (ObjectId × Show δ) :=
  (Table.rowAt Prod.fst id s.shows).filter fun x => x.2.live

theorem fst_of_liveEntry {id : ObjectId} {x : ObjectId × Show δ} (h : x ∈ s.liveEntry id) :
    x.1 = id :=
  Table.key_of_rowAt (Option.mem_filter_iff.mp h).1

theorem liveShow_eq (id : ObjectId) : s.liveShow id = (s.liveEntry id).map Prod.snd := by
  unfold liveShow liveEntry findShow
  cases Table.rowAt Prod.fst id s.shows with
  | none => rfl
  | some x => by_cases h : x.2.live = true <;> simp [Option.filter, h]

theorem liveEntry_eq (id : ObjectId) : s.liveEntry id = (s.liveShow id).map fun d => (id, d) := by
  rw [liveShow_eq]
  cases h : s.liveEntry id with
  | none => rfl
  | some x =>
      have hid : x.1 = id := fst_of_liveEntry (Option.mem_def.mpr h)
      simp [← hid]

/-- The entry that a write leaves, where it is live. -/
def newEntry (id : ObjectId) (d : Show δ) : Option (ObjectId × Show δ) :=
  (some (id, d)).filter fun x => x.2.live

theorem newEntry_eq (id : ObjectId) (d : Show δ) :
    newEntry id d = ((some d).filter Show.live).map fun d => (id, d) := by
  by_cases h : d.live = true <;> simp [newEntry, Option.filter, h]

theorem entries_eq_iff (id : ObjectId) (d : Show δ) :
    s.liveEntry id = newEntry id d ↔ s.liveShow id = (some d).filter Show.live := by
  rw [liveEntry_eq, newEntry_eq]
  constructor
  · intro h
    have hsnd := congrArg (Option.map Prod.snd) h
    simpa [Option.map_map, Function.comp_def] using hsnd
  · intro h
    rw [h]

/-- A list of live documents changes with what it selects of the one that is written. -/
theorem arranged_putShow_iff (hwf : s.WellFormed)
    {f : List (ObjectId × Show δ) → List (ObjectId × Show δ)} (hf : ∀ l y, y ∈ f l ↔ y ∈ l)
    (g : ObjectId × Show δ → Bool) (id : ObjectId) (d : Show δ) :
    f (s.shows.filter fun x => x.2.live && g x) =
        f ((s.putShow id d).shows.filter fun x => x.2.live && g x) ↔
      (s.liveEntry id).filter g = (newEntry id d).filter g := by
  rw [liveEntry, newEntry, Option.filter_filter, Option.filter_filter]
  exact Table.arranged_put_iff hwf.showIds hf _ (id, d)

theorem listShows_putShow_iff (hwf : s.WellFormed) (id : ObjectId) (d : Show δ) :
    s.listShows = (s.putShow id d).listShows ↔ s.liveEntry id = newEntry id d :=
  Table.arranged_put_iff hwf.showIds mem_byCreated _ (id, d)

theorem getMovies_putShow_iff (hwf : s.WellFormed) (showType city : Option String) (id : ObjectId)
    (d : Show δ) :
    s.getMovies showType city = (s.putShow id d).getMovies showType city ↔
      (s.liveEntry id).filter (fun x =>
          typeMatches showType x.2 && decide (x.1 ∈ s.activeShowIds city)) =
        (newEntry id d).filter fun x =>
          typeMatches showType x.2 && decide (x.1 ∈ s.activeShowIds city) := by
  rw [getMovies_eq, getMovies_eq]
  exact arranged_putShow_iff hwf mem_byCreated _ id d

theorem listShowsGrid_putShow_iff (hwf : s.WellFormed) (city : Option String) (id : ObjectId)
    (d : Show δ) :
    s.listShowsGrid city = (s.putShow id d).listShowsGrid city ↔
      (s.liveEntry id).filter (fun x => cityMatches (gridCity city) x.2) =
          (newEntry id d).filter (fun x => cityMatches (gridCity city) x.2) ∨
        ((∀ x ∈ (s.liveEntry id).filter fun x => cityMatches (gridCity city) x.2,
            30 ≤ StableSort.inFront gridOrder
              ((Table.ahead Prod.fst id s.shows).filter (inGrid (gridCity city))) x
              ((Table.behind Prod.fst id s.shows).filter (inGrid (gridCity city)))) ∧
          ∀ x ∈ (newEntry id d).filter fun x => cityMatches (gridCity city) x.2,
            30 ≤ StableSort.inFront gridOrder
              ((Table.ahead Prod.fst id s.shows).filter (inGrid (gridCity city))) x
              ((Table.behind Prod.fst id s.shows).filter (inGrid (gridCity city)))) := by
  unfold listShowsGrid liveEntry newEntry
  rw [Option.filter_filter, Option.filter_filter,
    Table.filter_split Prod.fst id _ s.shows]
  have hput := Table.filter_put Prod.fst
    (fun x => x.2.live && cityMatches (gridCity city) x.2) (id, d) s.shows
  rw [show (s.putShow id d).shows = Table.put Prod.fst (id, d) s.shows from rfl, hput]
  apply StableSort.take_sorted_eq_iff gridOrder_preorders
  · intro x hx
    exact Table.notMem_sides hwf.showIds _ (Table.key_of_rowAt (Option.mem_filter_iff.mp hx).1)
  · intro x hx
    obtain rfl := Option.some.inj (Option.mem_filter_iff.mp hx).1
    exact Table.notMem_sides hwf.showIds _ rfl

/-- An entry of a city's grid has fewer than thirty others in front if and only if it is on the first
page. -/
theorem onCityPage_iff {c : String} {id : ObjectId} {d : Show δ} (hcity : d.city = some c)
    (hc : c ≠ "" ∧ trim c = c) :
    s.OnCityPage id d ↔ StableSort.inFront gridOrder
      ((Table.ahead Prod.fst id s.shows).filter (inGrid (some c))) (id, d)
      ((Table.behind Prod.fst id s.shows).filter (inGrid (some c))) < 30 := by
  unfold OnCityPage gridRank
  rw [hcity]
  constructor
  · rintro ⟨_, _, _, _, hlt⟩
    exact hlt
  · intro hlt
    exact ⟨c, rfl, hc.1, hc.2, hlt⟩

/-! ### The keys of a write of a document -/

theorem moviesKey_notMem {keys : List String} (hkeys : ShowKeys keys)
    (showType city : Option String) : cacheMoviesKey showType city ∉ keys := by
  have hstart : (cacheMoviesKey showType city).toList.take 8 = "cache:mo".toList := by
    simp [cacheMoviesKey, moviesAll]
  intro hmem
  rcases hkeys with rfl | ⟨id, rfl⟩
  · simp only [List.mem_cons, List.not_mem_nil, or_false] at hmem
    rcases hmem with h | h <;> simp [h, cacheShows, cacheDashboardGrid] at hstart
  · simp only [showCaches, List.mem_cons, List.not_mem_nil, or_false] at hmem
    rcases hmem with h | h | h | h <;>
      simp [h, cacheShowKey, cacheSchedulesActiveKey, cacheShows, cacheDashboardGrid] at hstart

theorem cityGridKey_notMem {keys : List String} (hkeys : ShowKeys keys) {city : Option String}
    {c : String} (hcity : gridCity city = some c) : gridKey city ∉ keys := by
  have hkey : gridKey city = cacheDashboardGrid ++ (":city:" ++ c) := by
    simp only [gridKey, hcity]
  have hstart : (gridKey city).toList.take 8 = "cache:da".toList := by
    simp [hkey, cacheDashboardGrid]
  have hgrid : gridKey city ≠ cacheDashboardGrid := by
    intro h
    simp [hkey] at h
  intro hmem
  rcases hkeys with rfl | ⟨id, rfl⟩
  · simp only [List.mem_cons, List.not_mem_nil, or_false] at hmem
    rcases hmem with h | h
    · simp [h, cacheShows] at hstart
    · exact hgrid h
  · simp only [showCaches, List.mem_cons, List.not_mem_nil, or_false] at hmem
    rcases hmem with h | h | h | h
    · simp [h, cacheShowKey] at hstart
    · simp [h, cacheSchedulesActiveKey] at hstart
    · simp [h, cacheShows] at hstart
    · exact hgrid h

theorem cacheShows_mem {keys : List String} (hkeys : ShowKeys keys) : cacheShows ∈ keys := by
  rcases hkeys with rfl | ⟨id, rfl⟩ <;> simp [showCaches]

theorem cacheDashboardGrid_mem {keys : List String} (hkeys : ShowKeys keys) :
    cacheDashboardGrid ∈ keys := by
  rcases hkeys with rfl | ⟨id, rfl⟩ <;> simp [showCaches]

/-! ### The lists that stay stale -/

/-- The movies of every type and city hold an entry whose show has an upcoming schedule. -/
theorem filter_playing {o : Option (ObjectId × Show δ)} {id : ObjectId} (ho : ∀ x ∈ o, x.1 = id)
    (hplays : s.Playing none id) :
    o.filter (fun x => typeMatches none x.2 && decide (x.1 ∈ s.activeShowIds none)) = o := by
  cases o with
  | none => rfl
  | some x =>
      have hx : x.1 ∈ s.activeShowIds none := by
        rw [ho x rfl]
        exact mem_activeShowIds.mpr hplays
      simp [Option.filter, typeMatches, hx]

theorem filter_notPlaying {o : Option (ObjectId × Show δ)} {id : ObjectId}
    (ho : ∀ x ∈ o, x.1 = id) (hplays : ¬ s.Playing none id) (showType city : Option String) :
    o.filter (fun x => typeMatches showType x.2 && decide (x.1 ∈ s.activeShowIds city)) = none := by
  cases o with
  | none => rfl
  | some x =>
      have hx : x.1 ∉ s.activeShowIds city := by
        rw [ho x rfl]
        exact fun h => hplays (playing_none (mem_activeShowIds.mp h))
      simp [Option.filter, hx]

theorem fst_of_newEntry {id : ObjectId} {d : Show δ} {x : ObjectId × Show δ}
    (h : x ∈ newEntry id d) : x.1 = id := by
  obtain rfl := Option.some.inj (Option.mem_filter_iff.mp h).1
  rfl

/-- Two entries of one show, the first in a city's grid: if the grid selects them alike, they are the
same. -/
theorem entries_eq_of_selected {o o' : Option (ObjectId × Show δ)} {x : ObjectId × Show δ}
    {g : ObjectId × Show δ → Bool} (hx : x ∈ o) (hgx : g x = true)
    (heq : o.filter g = o'.filter g) : o = o' := by
  have hmem : x ∈ o'.filter g := by
    rw [← heq]
    exact Option.mem_filter_iff.mpr ⟨hx, hgx⟩
  exact (Option.mem_def.mp hx).trans (Option.mem_def.mp (Option.mem_filter_iff.mp hmem).1).symm

theorem document_covered_iff (hwf : s.WellFormed) {keys : List String} (hkeys : ShowKeys keys)
    (id : ObjectId) (d : Show δ) (completes : Bool) :
    (∀ list : CachedList, s.uncached list ≠ (s.putShow id d).uncached list →
      list.key ∈ if completes then keys else []) ↔ s.ShowCovered id d completes := by
  constructor
  · intro h
    by_cases hsame : s.liveShow id = (some d).filter Show.live
    · exact .inl hsame
    have hentries : s.liveEntry id ≠ newEntry id d := fun heq => hsame ((entries_eq_iff id d).mp heq)
    have hall := h .allShows fun heq =>
      hentries ((listShows_putShow_iff hwf id d).mp (Listing.shows.inj heq))
    cases completes with
    | false => cases hall
    | true =>
        -- an entry on a city's first page makes the grid of that city change
        have hpage : ∀ x, x ∈ s.liveEntry id ∨ x ∈ newEntry id d → ¬ s.OnCityPage id x.2 := by
          intro x hx hpage
          have hid : x.1 = id := hx.elim fst_of_liveEntry fst_of_newEntry
          have hpage' := hpage
          obtain ⟨c, hcity, hne, htrim, -⟩ := hpage'
          obtain ⟨city, hc⟩ := (exists_gridCity_iff c).mpr ⟨hne, htrim⟩
          have hmatch : cityMatches (gridCity city) x.2 = true := by simp [hc, cityMatches, hcity]
          apply cityGridKey_notMem hkeys hc
          apply h (.dashboardGrid city)
          intro heq
          rcases (listShowsGrid_putShow_iff hwf city id d).mp (Listing.shows.inj heq) with
            hfilter | ⟨hold, hnew⟩
          · rcases hx with hx | hx
            · exact hentries (entries_eq_of_selected hx hmatch hfilter)
            · exact hentries (entries_eq_of_selected hx hmatch hfilter.symm).symm
          · rw [onCityPage_iff hcity ⟨hne, htrim⟩, ← hid, ← hc] at hpage
            rcases hx with hx | hx
            · have hle := hold x (Option.mem_filter_iff.mpr ⟨hx, hmatch⟩)
              rw [← hid] at hle
              exact absurd hle (Nat.not_le_of_lt hpage)
            · have hle := hnew x (Option.mem_filter_iff.mpr ⟨hx, hmatch⟩)
              rw [← hid] at hle
              exact absurd hle (Nat.not_le_of_lt hpage)
        refine .inr ⟨rfl, ?_, ?_, ?_⟩
        · intro hplays
          apply moviesKey_notMem hkeys none none
          apply h (.movies none none)
          intro heq
          have hfilter := (getMovies_putShow_iff hwf none none id d).mp (Listing.shows.inj heq)
          rw [filter_playing (fun _ => fst_of_liveEntry) hplays,
            filter_playing (fun _ => fst_of_newEntry) hplays] at hfilter
          exact hentries hfilter
        · intro old hold
          apply hpage (id, old)
          left
          rw [liveEntry_eq]
          exact Option.mem_map_of_mem (fun d => (id, d)) hold
        · intro new hnew
          apply hpage (id, new)
          right
          rw [newEntry_eq]
          exact Option.mem_map_of_mem (fun d => (id, d)) hnew
  · intro hcov list hchanged
    rcases hcov with hsame | ⟨rfl, hplays, hold, hnew⟩
    · -- every list selects the show as it did
      have hentries := (entries_eq_iff id d).mpr hsame
      refine absurd ?_ hchanged
      cases list with
      | activeSchedules => rfl
      | showSchedules showId city => rfl
      | movies showType city =>
          exact congrArg Listing.shows
            ((getMovies_putShow_iff hwf showType city id d).mpr (by rw [hentries]))
      | dashboardGrid city =>
          exact congrArg Listing.shows
            ((listShowsGrid_putShow_iff hwf city id d).mpr (.inl (by rw [hentries])))
      | allShows =>
          exact congrArg Listing.shows ((listShows_putShow_iff hwf id d).mpr hentries)
    · rw [if_pos rfl]
      cases list with
      | activeSchedules => exact absurd rfl hchanged
      | showSchedules showId city => exact absurd rfl hchanged
      | movies showType city =>
          refine absurd (congrArg Listing.shows
            ((getMovies_putShow_iff hwf showType city id d).mpr ?_)) hchanged
          rw [filter_notPlaying (fun _ => fst_of_liveEntry) hplays,
            filter_notPlaying (fun _ => fst_of_newEntry) hplays]
      | dashboardGrid city =>
          cases hc : gridCity city with
          | none =>
              have hkey : gridKey city = cacheDashboardGrid := by simp only [gridKey, hc]
              have hmem := cacheDashboardGrid_mem hkeys
              rw [← hkey] at hmem
              exact hmem
          | some c =>
              have hcity := (exists_gridCity_iff c).mp ⟨city, hc⟩
              refine absurd (congrArg Listing.shows
                ((listShowsGrid_putShow_iff hwf city id d).mpr (.inr ?_))) hchanged
              rw [hc]
              -- no entry of the city is on its first page
              have hbehind : ∀ x : ObjectId × Show δ, x.1 = id →
                  cityMatches (some c) x.2 = true → ¬ s.OnCityPage id x.2 →
                  30 ≤ StableSort.inFront gridOrder
                    ((Table.ahead Prod.fst id s.shows).filter (inGrid (some c))) x
                    ((Table.behind Prod.fst id s.shows).filter (inGrid (some c))) := by
                rintro ⟨_, e⟩ rfl hmatch hpage
                have hin : e.city = some c := by simpa [cityMatches] using hmatch
                rw [onCityPage_iff hin hcity] at hpage
                exact Nat.le_of_not_lt hpage
              constructor
              · intro x hx
                obtain ⟨hmem, hmatch⟩ := Option.mem_filter_iff.mp hx
                apply hbehind x (fst_of_liveEntry hmem) hmatch
                apply hold
                rw [liveShow_eq]
                exact Option.mem_map_of_mem Prod.snd hmem
              · intro x hx
                obtain ⟨hmem, hmatch⟩ := Option.mem_filter_iff.mp hx
                apply hbehind x (fst_of_newEntry hmem) hmatch
                apply hnew
                have hsnd := Option.mem_map_of_mem Prod.snd hmem
                rw [newEntry_eq, Option.map_map] at hsnd
                simpa [Function.comp_def] using hsnd
      | allShows => exact cacheShows_mem hkeys

/-! ## What a write of a schedule changes -/

theorem byStart_putSchedule_iff (hwf : s.WellFormed) (new : Schedule) (q : Schedule → Bool) :
    byStart (s.schedules.filter q) = byStart ((s.putSchedule new).schedules.filter q) ↔
      s.ListedAlike new q :=
  Table.arranged_put_iff hwf.scheduleIds mem_byStart q new

/-- A condition that selects fewer rows. -/
theorem ListedAlike.and {new : Schedule} {q : Schedule → Bool} (h : s.ListedAlike new q)
    (g : Schedule → Bool) : s.ListedAlike new fun r => g r && q r := by
  have hfilter := congrArg (Option.filter g) h
  rw [Option.filter_filter, Option.filter_filter] at hfilter
  simpa only [ListedAlike, Bool.and_comm] using hfilter

/-- A condition that selects neither the old row nor the new one. -/
theorem listedAlike_of_neither {new : Schedule} {q : Schedule → Bool}
    (h : ∀ r, r = new ∨ r ∈ s.scheduleRow new.id → q r = false) : s.ListedAlike new q := by
  have hold : (s.scheduleRow new.id).filter q = none := by
    rw [Option.filter_eq_none_iff]
    intro r hr
    simp [h r (.inr hr)]
  have hnew : (some new).filter q = none := by simp [Option.filter, h new (.inl rfl)]
  exact hold.trans hnew.symm

/-- The schedules of a show: the one that is written, and the others. -/
theorem playing_iff (hwf : s.WellFormed) (new : Schedule) (city : Option String) (id : ObjectId) :
    s.Playing city id ↔
      (∃ old ∈ s.scheduleRow new.id, old.plays s.now city = true ∧
        parseObjectId old.mongoShowId = some id) ∨
      ∃ r ∈ s.schedules, r.id ≠ new.id ∧ r.plays s.now city = true ∧
        parseObjectId r.mongoShowId = some id := by
  constructor
  · rintro ⟨r, hr, hplays, hid⟩
    by_cases hrow : r.id = new.id
    · have hat := Table.rowAt_of_mem hwf.scheduleIds hr
      rw [hrow] at hat
      exact .inl ⟨r, Option.mem_def.mpr hat, hplays, hid⟩
    · exact .inr ⟨r, hr, hrow, hplays, hid⟩
  · rintro (⟨old, hold, hplays, hid⟩ | ⟨r, hr, -, hplays, hid⟩)
    · exact ⟨old, Table.mem_of_rowAt hold, hplays, hid⟩
    · exact ⟨r, hr, hplays, hid⟩

theorem playing_putSchedule_iff (hwf : s.WellFormed) (new : Schedule) (city : Option String)
    (id : ObjectId) :
    (s.putSchedule new).Playing city id ↔
      (new.plays s.now city = true ∧ parseObjectId new.mongoShowId = some id) ∨
      ∃ r ∈ s.schedules, r.id ≠ new.id ∧ r.plays s.now city = true ∧
        parseObjectId r.mongoShowId = some id := by
  constructor
  · rintro ⟨r, hr, hplays, hid⟩
    rcases (Table.mem_put hwf.scheduleIds).mp hr with rfl | ⟨hr, hrow⟩
    · exact .inl ⟨hplays, hid⟩
    · exact .inr ⟨r, hr, hrow, hplays, hid⟩
  · rintro (⟨hplays, hid⟩ | ⟨r, hr, hrow, hplays, hid⟩)
    · exact ⟨new, (Table.mem_put hwf.scheduleIds).mpr (.inl rfl), hplays, hid⟩
    · exact ⟨r, (Table.mem_put hwf.scheduleIds).mpr (.inr ⟨hr, hrow⟩), hplays, hid⟩

variable {new : Schedule} {families : List Schedule} {unread : Bool} {keys : List String}

/-- The show of a written schedule. -/
theorem playing_same_iff (hwf : s.WellFormed) (h : s.Rewrites new families unread keys)
    {oid : ObjectId} (hoid : parseObjectId new.mongoShowId = some oid) (city : Option String) :
    (s.Playing city oid ↔ (s.putSchedule new).Playing city oid) ↔ s.PlaysAlike new city := by
  have hold : (∃ old ∈ s.scheduleRow new.id, old.plays s.now city = true ∧
      parseObjectId old.mongoShowId = some oid) ↔
      ∃ old ∈ s.scheduleRow new.id, old.plays s.now city = true := by
    constructor
    · rintro ⟨old, hmem, hplays, -⟩
      exact ⟨old, hmem, hplays⟩
    · rintro ⟨old, hmem, hplays⟩
      exact ⟨old, hmem, hplays, by rw [h.old_show old hmem, hoid]⟩
  have hnew : (new.plays s.now city = true ∧ parseObjectId new.mongoShowId = some oid) ↔
      new.plays s.now city = true := and_iff_left hoid
  have hcases : ∀ a b c : Prop, ((a ∨ c) ↔ (b ∨ c)) ↔ ((a ↔ b) ∨ c) := by
    intro a b c
    by_cases hc : c <;> simp [hc]
  rw [playing_iff hwf new, playing_putSchedule_iff hwf, hold, hnew, hcases]
  unfold PlaysAlike OtherPlays
  rw [hoid]

/-- The shows of other schedules. -/
theorem playing_other_iff (hwf : s.WellFormed) (h : s.Rewrites new families unread keys)
    {oid id : ObjectId} (hoid : parseObjectId new.mongoShowId = some oid) (hid : id ≠ oid)
    (city : Option String) : s.Playing city id ↔ (s.putSchedule new).Playing city id := by
  have hne : parseObjectId new.mongoShowId ≠ some id := by
    rw [hoid]
    exact fun heq => hid (Option.some.inj heq).symm
  rw [playing_iff hwf new, playing_putSchedule_iff hwf]
  constructor
  · rintro (⟨old, hmem, -, hold⟩ | hothers)
    · rw [h.old_show old hmem] at hold
      exact absurd hold hne
    · exact .inr hothers
  · rintro (⟨-, hnew⟩ | hothers)
    · exact absurd hnew hne
    · exact .inr hothers

theorem getMovies_putSchedule_iff (hwf : s.WellFormed) (h : s.Rewrites new families unread keys)
    (showType city : Option String) :
    s.getMovies showType city = (s.putSchedule new).getMovies showType city ↔
      ∀ d ∈ s.liveShowOf new, typeMatches showType d = true →
        s.PlaysAlike new (selectedCity city) := by
  obtain ⟨oid, hoid, hmem⟩ := h.show_exists hwf
  have hids : ∀ id, (id ∈ s.activeShowIds city ↔ id ∈ (s.putSchedule new).activeShowIds city) ↔
      (s.Playing (selectedCity city) id ↔ (s.putSchedule new).Playing (selectedCity city) id) := by
    intro id
    rw [mem_activeShowIds, mem_activeShowIds]
  rw [getMovies_eq, getMovies_eq]
  have hat := Table.arranged_filter_iff hwf.showIds mem_byCreated oid
    (fun x => x.2.live && (typeMatches showType x.2 && decide (x.1 ∈ s.activeShowIds city)))
    (fun x => x.2.live && (typeMatches showType x.2 &&
      decide (x.1 ∈ (s.putSchedule new).activeShowIds city)))
    (by
      intro x _ hx
      have hother := (hids x.1).mpr (playing_other_iff hwf h hoid hx (selectedCity city))
      simp only [hother])
  refine hat.trans ?_
  rw [← playing_same_iff hwf h hoid, ← hids]
  -- the entry of the show decides
  unfold liveShowOf liveShow findShow
  rw [hoid, Option.bind_some]
  cases hrow : Table.rowAt Prod.fst oid s.shows with
  | none => exact iff_of_true rfl (by simp)
  | some x =>
      obtain rfl : x.1 = oid := Table.key_of_rowAt (Option.mem_def.mpr hrow)
      by_cases hlive : x.2.live = true
      · by_cases htype : typeMatches showType x.2 = true
        · by_cases hin : x.1 ∈ s.activeShowIds city <;>
            by_cases hin' : x.1 ∈ (s.putSchedule new).activeShowIds city <;>
            simp [Option.filter, hlive, htype, hin, hin']
        · simp [Option.filter, hlive, htype]
      · simp [Option.filter, hlive]

/-! ### The keys of a write of a schedule -/

/-- The city of a query is none, or that of a row whose caches are deleted. -/
def Names (families : List Schedule) (city : Option String) : Prop :=
  ∃ f ∈ families, selectedCity city = none ∨ selectedCity city = selectedCity f.venueCity

theorem Rewrites.mem_keys_iff (h : s.Rewrites new families unread keys) {key : String}
    (hkey : ∀ id, key ≠ cacheScheduleKey id) :
    key ∈ keys ↔ ∃ f ∈ families, key ∈ showScheduleCaches f := by
  rcases h.keys_eq with heq | ⟨id, heq⟩
  · rw [heq, List.mem_flatMap]
  · rw [heq, List.mem_cons, List.mem_flatMap]
    exact or_iff_right (hkey id)

theorem take_scheduleKey (id : ℤ) : (cacheScheduleKey id).toList.take 8 = "cache:sc".toList := by
  unfold cacheScheduleKey
  simp

theorem take_showSchedulesKey (id : String) (city : Option String) :
    (cacheShowSchedulesKey id city).toList.take 8 = "cache:sh".toList := by
  simp [cacheShowSchedulesKey]

theorem take_moviesKey (showType city : Option String) :
    (cacheMoviesKey showType city).toList.take 8 = "cache:mo".toList := by
  simp [cacheMoviesKey, moviesAll]

theorem active_mem (h : s.Rewrites new families unread keys) : cacheSchedulesActiveKey ∈ keys := by
  obtain ⟨f, hf⟩ := List.exists_mem_of_ne_nil families h.nonempty
  have hmem : cacheSchedulesActiveKey ∈ families.flatMap showScheduleCaches :=
    List.mem_flatMap.mpr ⟨f, hf, List.mem_cons_self⟩
  rcases h.keys_eq with heq | ⟨id, heq⟩
  · rw [heq]
    exact hmem
  · rw [heq]
    exact List.mem_cons_of_mem _ hmem

theorem showSchedules_mem_caches_iff (f : Schedule) (city : Option String) :
    cacheShowSchedulesKey f.mongoShowId (selectedCity city) ∈ showScheduleCaches f ↔
      selectedCity city = none ∨ selectedCity city = selectedCity f.venueCity := by
  have hstart := take_showSchedulesKey f.mongoShowId (selectedCity city)
  constructor
  · intro hmem
    simp only [showScheduleCaches, List.mem_cons, List.not_mem_nil, or_false] at hmem
    rcases hmem with h | h | h | h | h | h | h
    · simp [h, cacheSchedulesActiveKey] at hstart
    · have hcity := cacheShowSchedulesKey_inj h
      rw [selectedCity_selectedCity] at hcity
      exact .inr hcity
    · have hcity := cacheShowSchedulesKey_inj h
      rw [selectedCity_selectedCity] at hcity
      exact .inl hcity
    all_goals
      rw [h, take_moviesKey] at hstart
      exact absurd hstart (by decide)
  · rintro (h | h)
    · rw [h]
      simp [showScheduleCaches]
    · have hkey : cacheShowSchedulesKey f.mongoShowId (selectedCity city) =
          cacheShowSchedulesKey f.mongoShowId f.venueCity := by
        unfold cacheShowSchedulesKey
        rw [selectedCity_selectedCity, h]
      rw [hkey]
      simp [showScheduleCaches]

theorem movies_mem_caches_iff (f : Schedule) (t : Option ShowType) (city : Option String) :
    cacheMoviesKey (t.map ShowType.name) city ∈ showScheduleCaches f ↔
      (t = none ∨ t = some f.showType) ∧
        (selectedCity city = none ∨ selectedCity city = selectedCity f.venueCity) := by
  have hstart := take_moviesKey (t.map ShowType.name) city
  constructor
  · intro hmem
    simp only [showScheduleCaches, List.mem_cons, List.not_mem_nil, or_false] at hmem
    rcases hmem with h | h | h | h | h | h | h
    · simp [h, cacheSchedulesActiveKey] at hstart
    · rw [h, take_showSchedulesKey] at hstart
      exact absurd hstart (by decide)
    · rw [h, take_showSchedulesKey] at hstart
      exact absurd hstart (by decide)
    · obtain ⟨ht, hcity⟩ := cacheMoviesKey_inj none h
      exact ⟨.inl ht, .inl hcity⟩
    · obtain ⟨ht, hcity⟩ := cacheMoviesKey_inj (some f.showType) h
      exact ⟨.inr ht, .inl hcity⟩
    · obtain ⟨ht, hcity⟩ := cacheMoviesKey_inj none h
      exact ⟨.inl ht, .inr hcity⟩
    · obtain ⟨ht, hcity⟩ := cacheMoviesKey_inj (some f.showType) h
      exact ⟨.inr ht, .inr hcity⟩
  · -- the four keys are those of either type and either city
    have hpart : ∀ {a b : Option String}, selectedCity a = selectedCity b →
        ∀ t, cacheMoviesKey t a = cacheMoviesKey t b := by
      intro a b hab t
      unfold cacheMoviesKey cityPart
      rw [hab]
    rintro ⟨ht, hcity⟩
    have hkey : cacheMoviesKey (t.map ShowType.name) city =
          cacheMoviesKey (t.map ShowType.name) none ∨
        cacheMoviesKey (t.map ShowType.name) city =
          cacheMoviesKey (t.map ShowType.name) f.venueCity :=
      hcity.imp (fun h => hpart h _) fun h => hpart h _
    rcases ht with rfl | rfl <;> rcases hkey with hkey | hkey <;> rw [hkey] <;>
      simp [showScheduleCaches]

theorem showSchedules_mem_iff (h : s.Rewrites new families unread keys) (city : Option String) :
    cacheShowSchedulesKey new.mongoShowId (selectedCity city) ∈ keys ↔ Names families city := by
  rw [h.mem_keys_iff]
  · apply exists_congr
    intro f
    apply and_congr_right
    intro hf
    rw [← (h.families_show f hf).1]
    exact showSchedules_mem_caches_iff f city
  · intro id heq
    have hstart := take_showSchedulesKey new.mongoShowId (selectedCity city)
    rw [heq, take_scheduleKey] at hstart
    exact absurd hstart (by decide)

theorem movies_mem_iff (h : s.Rewrites new families unread keys) (t : Option ShowType)
    (city : Option String) :
    cacheMoviesKey (t.map ShowType.name) city ∈ keys ↔
      (t = none ∨ t = some new.showType) ∧ Names families city := by
  rw [h.mem_keys_iff]
  · constructor
    · rintro ⟨f, hf, hmem⟩
      obtain ⟨ht, hcity⟩ := (movies_mem_caches_iff f t city).mp hmem
      rw [(h.families_show f hf).2] at ht
      exact ⟨ht, f, hf, hcity⟩
    · rintro ⟨ht, f, hf, hcity⟩
      rw [← (h.families_show f hf).2] at ht
      exact ⟨f, hf, (movies_mem_caches_iff f t city).mpr ⟨ht, hcity⟩⟩
  · intro id heq
    have hstart := take_moviesKey (t.map ShowType.name) city
    rw [heq, take_scheduleKey] at hstart
    exact absurd hstart (by decide)

/-- A city that selects the old row or the new one is named, but for the new city of a row that is not
read again. -/
theorem names_or (h : s.Rewrites new families unread keys) {r : Schedule} {city : Option String}
    (hr : r = new ∨ r ∈ s.scheduleRow new.id) (hin : r.inCity (selectedCity city) = true) :
    Names families city ∨
      (unread = true ∧ r = new ∧ ∃ c, selectedCity city = some c ∧ new.venueCity = some c ∧
        ∀ old ∈ s.scheduleRow new.id, selectedCity old.venueCity ≠ some c) := by
  cases hc : selectedCity city with
  | none =>
      obtain ⟨f, hf⟩ := List.exists_mem_of_ne_nil families h.nonempty
      exact .inl ⟨f, hf, .inl hc⟩
  | some c =>
      rw [hc] at hin
      have hcity : r.venueCity = some c := by simpa [Schedule.inCity] using hin
      have hsel : selectedCity city = selectedCity r.venueCity := by
        rw [hcity, selectedCity_of_eq_some hc, hc]
      cases unread with
      | false =>
          obtain ⟨f, hf, hfcity⟩ := h.cities rfl r hr
          exact .inl ⟨f, hf, .inr (by rw [hsel, hfcity])⟩
      | true =>
          obtain ⟨old, hold, rfl⟩ := h.old_only rfl
          by_cases hsame : selectedCity old.venueCity = some c
          · exact .inl ⟨old, List.mem_singleton_self old, .inr (by rw [hsame, hc])⟩
          · rcases hr with rfl | hr
            · refine .inr ⟨rfl, rfl, c, rfl, hcity, ?_⟩
              intro old' hold'
              obtain rfl := Option.some.inj (hold.symm.trans (Option.mem_def.mp hold'))
              exact hsame
            · obtain rfl := Option.some.inj (hold.symm.trans (Option.mem_def.mp hr))
              rw [hcity] at hsame
              exact absurd (selectedCity_of_eq_some hc) hsame

/-! ### Which lists a write of a schedule changes -/

theorem uncached_active_iff (hwf : s.WellFormed) :
    s.uncached .activeSchedules = (s.putSchedule new).uncached .activeSchedules ↔
      s.ListedAlike new fun r => r.active s.now := by
  rw [← byStart_putSchedule_iff hwf]
  exact Listing.schedules.injEq _ _ ▸ Iff.rfl

theorem uncached_showSchedules_iff (hwf : s.WellFormed) (showId : String) (city : Option String) :
    s.uncached (.showSchedules showId city) =
        (s.putSchedule new).uncached (.showSchedules showId city) ↔
      s.ListedAlike new fun r =>
        decide (r.mongoShowId = showId) && (r.active s.now && r.inCity (selectedCity city)) := by
  rw [← byStart_putSchedule_iff hwf]
  exact Listing.schedules.injEq _ _ ▸ Iff.rfl

theorem uncached_movies_iff (hwf : s.WellFormed) (h : s.Rewrites new families unread keys)
    (showType city : Option String) :
    s.uncached (.movies showType city) = (s.putSchedule new).uncached (.movies showType city) ↔
      ∀ d ∈ s.liveShowOf new, typeMatches showType d = true →
        s.PlaysAlike new (selectedCity city) := by
  rw [← getMovies_putSchedule_iff hwf h]
  exact Listing.shows.injEq _ _ ▸ Iff.rfl

/-- Where a schedule does not play alike in a city, its old row or its new one is of that city. -/
theorem inCity_of_not_playsAlike {city : Option String} (h : ¬ s.PlaysAlike new city) :
    ∃ r, (r = new ∨ r ∈ s.scheduleRow new.id) ∧ r.inCity city = true := by
  by_contra hnone
  apply h
  have hplays : ∀ r, r = new ∨ r ∈ s.scheduleRow new.id → r.plays s.now city = false := by
    intro r hr
    by_contra hr'
    simp only [Schedule.plays, Bool.not_eq_false, Bool.and_eq_true] at hr'
    exact hnone ⟨r, hr, hr'.2⟩
  left
  constructor
  · rintro ⟨old, hold, hp⟩
    rw [hplays old (.inr hold)] at hp
    cases hp
  · intro hp
    rw [hplays new (.inl rfl)] at hp
    cases hp

/-- An interrupted request deletes no key. -/
theorem schedule_interrupted_iff (hwf : s.WellFormed)
    (h : s.Rewrites new families unread keys) :
    (∀ list : CachedList, s.uncached list = (s.putSchedule new).uncached list) ↔
      s.ListedAlike new (fun r => r.active s.now) ∧
        ∀ d ∈ s.liveShowOf new, ∀ city, s.PlaysAlike new (selectedCity city) := by
  constructor
  · intro hsame
    refine ⟨(uncached_active_iff hwf).mp (hsame .activeSchedules), ?_⟩
    intro d hd city
    exact (uncached_movies_iff hwf h none city).mp (hsame (.movies none city)) d hd rfl
  · rintro ⟨hactive, hplays⟩ list
    cases list with
    | activeSchedules => exact (uncached_active_iff hwf).mpr hactive
    | showSchedules showId city =>
        rw [uncached_showSchedules_iff hwf]
        have hlisted := hactive.and fun r =>
          decide (r.mongoShowId = showId) && r.inCity (selectedCity city)
        have hswap : ∀ r : Schedule, (decide (r.mongoShowId = showId) &&
            r.inCity (selectedCity city) && r.active s.now) =
            (decide (r.mongoShowId = showId) &&
              (r.active s.now && r.inCity (selectedCity city))) := by
          intro r
          rw [Bool.and_assoc, Bool.and_comm (r.inCity (selectedCity city))]
        simpa only [hswap] using hlisted
    | movies showType city =>
        exact (uncached_movies_iff hwf h showType city).mpr fun d hd _ => hplays d hd city
    | dashboardGrid city => rfl
    | allShows => rfl

/-- The type that a movies query names, where it selects a show. -/
theorem typePart_of_typeMatches {showType : Option String} {d : Show δ}
    (h : typeMatches showType d = true) :
    ∃ t : Option ShowType, (t = none ∨ t = some d.showType) ∧
      ∀ city, cacheMoviesKey showType city = cacheMoviesKey (t.map ShowType.name) city := by
  cases showType with
  | none => exact ⟨none, .inl rfl, fun _ => rfl⟩
  | some t =>
      have hcases : t = "All" ∨ d.showType.name = t := by simpa [typeMatches] using h
      rcases hcases with rfl | rfl
      · have hpart : typePart (some "All") = typePart none := by decide
        refine ⟨none, .inl rfl, fun city => ?_⟩
        unfold cacheMoviesKey
        rw [hpart]
        rfl
      · exact ⟨some d.showType, .inr rfl, fun _ => rfl⟩

theorem schedule_completes_iff (hwf : s.WellFormed) (h : s.Rewrites new families unread keys) :
    (∀ list : CachedList, s.uncached list ≠ (s.putSchedule new).uncached list → list.key ∈ keys) ↔
      s.ScheduleCovered new unread true := by
  constructor
  · intro hkeys
    have hmovies : ∀ d ∈ s.liveShowOf new, d.showType ≠ new.showType →
        ∀ city, s.PlaysAlike new (selectedCity city) := by
      intro d hd htype city
      by_contra halike
      have hmem := hkeys (.movies (some d.showType.name) city) fun heq =>
        halike ((uncached_movies_iff hwf h _ city).mp heq d hd (by simp [typeMatches]))
      have hname := ((movies_mem_iff h (some d.showType) city).mp hmem).1
      simp [htype] at hname
    refine ⟨hmovies, ?_⟩
    intro hunread c hcity hsel hold
    -- the new city is named by no row whose caches are deleted
    obtain ⟨old, hrow, rfl⟩ := h.old_only hunread
    have hnames : ¬ Names [old] (some c) := by
      rintro ⟨f, hf, hf'⟩
      obtain rfl := List.mem_singleton.mp hf
      rw [hsel] at hf'
      rcases hf' with hf' | hf'
      · cases hf'
      · exact hold f (Option.mem_def.mpr hrow) hf'.symm
    have hin : new.inCity (selectedCity (some c)) = true := by
      rw [hsel]
      simp [Schedule.inCity, hcity]
    constructor
    · by_contra hactive
      have hmem := hkeys (.showSchedules new.mongoShowId (some c)) ?_
      · exact hnames ((showSchedules_mem_iff h (some c)).mp hmem)
      intro heq
      have halike := (uncached_showSchedules_iff hwf _ _).mp heq
      unfold ListedAlike at halike
      have hnew : (some new).filter (fun r => decide (r.mongoShowId = new.mongoShowId) &&
          (r.active s.now && r.inCity (selectedCity (some c)))) = some new := by
        have hactive' : new.active s.now = true := by simpa using hactive
        simp [Option.filter, hactive', hin]
      rw [hnew, Option.filter_eq_some_iff] at halike
      -- the old row would be the new one, and of its city
      have hsame := Option.mem_def.mpr halike.1
      apply hold new hsame
      rw [hcity, hsel]
    · intro d hd
      by_contra halike
      have hmem := hkeys (.movies none (some c)) fun heq => by
        have hall := (uncached_movies_iff hwf h none (some c)).mp heq d hd rfl
        rw [hsel] at hall
        exact halike hall
      exact hnames ((movies_mem_iff h none (some c)).mp hmem).2
  · rintro ⟨hmovies, hunread⟩ list hchanged
    cases list with
    | activeSchedules => exact active_mem h
    | showSchedules showId city =>
        have halike : ¬ s.ListedAlike new fun r =>
            decide (r.mongoShowId = showId) && (r.active s.now && r.inCity (selectedCity city)) :=
          fun halike => hchanged ((uncached_showSchedules_iff hwf showId city).mpr halike)
        obtain ⟨r, hr, hq⟩ : ∃ r, (r = new ∨ r ∈ s.scheduleRow new.id) ∧
            (decide (r.mongoShowId = showId) &&
              (r.active s.now && r.inCity (selectedCity city))) = true := by
          by_contra hnone
          apply halike
          apply listedAlike_of_neither
          intro r hr
          by_contra hq
          exact hnone ⟨r, hr, by simpa using hq⟩
        simp only [Bool.and_eq_true, decide_eq_true_eq] at hq
        obtain ⟨hid, hactive, hin⟩ := hq
        have hshow : new.mongoShowId = showId := by
          rcases hr with rfl | hr
          · exact hid
          · rw [← h.old_show r hr, hid]
        rw [← hshow]
        rcases names_or h hr hin with hnames | ⟨hu, rfl, c, hc, hcity, hold⟩
        · exact (showSchedules_mem_iff h city).mpr hnames
        · have hinactive := (hunread hu c hcity (selectedCity_of_eq_some hc) hold).1
          rw [hinactive] at hactive
          cases hactive
    | movies showType city =>
        by_contra hmem
        apply hchanged
        rw [uncached_movies_iff hwf h]
        intro d hd htype
        by_contra halike
        have hsame : d.showType = new.showType := by
          by_contra hne
          exact halike (hmovies d hd hne city)
        obtain ⟨r, hr, hin⟩ := inCity_of_not_playsAlike halike
        rcases names_or h hr hin with hnames | ⟨hu, rfl, c, hc, hcity, hold⟩
        · obtain ⟨t, ht, hkey⟩ := typePart_of_typeMatches htype
          rw [hsame] at ht
          apply hmem
          rw [CachedList.key, hkey]
          exact (movies_mem_iff h t city).mpr ⟨ht, hnames⟩
        · apply halike
          rw [hc]
          exact (hunread hu c hcity (selectedCity_of_eq_some hc) hold).2 d hd
    | dashboardGrid city => exact absurd rfl hchanged
    | allShows => exact absurd rfl hchanged

theorem schedule_covered_iff (hwf : s.WellFormed) (h : s.Rewrites new families unread keys)
    (completes : Bool) :
    (∀ list : CachedList, s.uncached list ≠ (s.putSchedule new).uncached list →
      list.key ∈ if completes then keys else []) ↔ s.ScheduleCovered new unread completes := by
  cases completes with
  | true => exact schedule_completes_iff hwf h
  | false =>
      have hnone : (∀ list : CachedList, s.uncached list ≠ (s.putSchedule new).uncached list →
          list.key ∈ ([] : List String)) ↔
          ∀ list : CachedList, s.uncached list = (s.putSchedule new).uncached list :=
        forall_congr' fun list =>
          ⟨fun h => by_contra fun hne => List.not_mem_nil (h hne), fun h hne => absurd h hne⟩
      exact hnone.trans (schedule_interrupted_iff hwf h)

end Store

/-! ## Every request -/

/-- A request deletes the keys of all lists that it changes if and only if its write is covered. -/
theorem invalidates_iff_covered (s : Catalogue δ) (request : Request δ) (completes : Bool) :
    s.Invalidates request completes ↔ s.1.Covered request completes := by
  change (∀ list : CachedList, s.1.uncached list ≠ (s.1.after request).uncached list →
    list.key ∈ s.1.invalidated request completes) ↔ s.1.Covered request completes
  unfold Store.Covered Store.after Store.invalidated
  cases hhandle : s.1.handle request with
  | error e =>
      refine iff_of_true (fun list hchanged => absurd rfl hchanged) ?_
      intro change h
      cases h
  | ok change =>
      have hcov : (∀ change', (Except.ok change : Except Payments.AppError (Change δ)) = .ok change' →
          s.1.WriteCovered request.unread completes change'.write) ↔
          s.1.WriteCovered request.unread completes change.write :=
        ⟨fun h => h change rfl, fun h change' heq => Except.ok.inj heq ▸ h⟩
      dsimp only
      rw [hcov]
      rcases Store.handle_cases hhandle with hw | ⟨id, d, hw, hkeys⟩ | ⟨new, families, hw, hnew⟩
      · rw [hw]
        exact iff_of_true (fun list hchanged => absurd rfl hchanged) trivial
      · rw [hw]
        exact Store.document_covered_iff s.2 hkeys id d completes
      · rw [hw]
        exact Store.schedule_covered_iff s.2 hnew completes

/-! ## A renamed movie -/

def movieId : ObjectId := "0123456789abcdef01234567"

/-- A movie with one upcoming schedule. -/
def cinema : Catalogue Unit :=
  ⟨{ now := 100
     shows := [(movieId,
      { showType := .movie, title := "Sholay", weight := some 0, nextStartTime := none, city := none
        createdAt := some 1, deletedAt := none, details := () })]
     schedules := [
      { id := 1, mongoShowId := movieId, showType := .movie, layoutId := some 1, startTime := 500
        bookingOpenAt := 200, lifecycleState := .scheduled, createdAt := 2, deletedAt := none
        venueName := none, venueAddress := none, venueCity := some "Pune", venueState := none
        date := 0, slot := .evening, endTime := 600 }] },
   { showIds := by decide
     scheduleIds := by decide
     refers := by
      intro r hr
      obtain rfl := List.mem_singleton.mp hr
      exact ⟨movieId, by decide +kernel, by decide⟩ }⟩

def renamedMovie : CreateShowRequest Unit :=
  { showType := .movie, title := "Sholay 3D", weight := some 0, city := none, details := () }

/-- The update of the movie with another title. -/
def rename : Request Unit :=
  .updateShow movieId renamedMovie

theorem handle_rename : cinema.1.handle rename =
    .ok
      { write := .document movieId { renamedMovie.toShow 100 with createdAt := some 1 }
        keys := Store.showCaches movieId } := by
  have hparse : parseObjectId movieId = some movieId := by decide +kernel
  simp only [rename, Store.handle, Store.updateShow, hparse]
  rfl

/-- The cached movies of a city keep the old title, although the update runs to its end. -/
theorem renamed_show_stays_in_movies : ¬ cinema.Invalidates rename true := by
  intro h
  have hafter : (cinema.after rename).1 = cinema.1.putShow movieId
      { renamedMovie.toShow 100 with createdAt := some 1 } := by
    change cinema.1.after rename = _
    rw [Store.after, handle_rename]
    rfl
  have hkeys : cinema.1.invalidated rename true = Store.showCaches movieId := by
    rw [Store.invalidated, handle_rename]
    rfl
  have hmem := h (.movies none (some "Pune")) (by rw [hafter]; decide +kernel)
  rw [hkeys] at hmem
  exact absurd hmem (by decide +kernel)

end ListCaches
end Bookit

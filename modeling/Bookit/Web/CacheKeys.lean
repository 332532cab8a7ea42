import Bookit.Web.ListCaches

/-!
# Web.CacheKeys — which queries share a key of the cache

The key of a query is text: the type and the city of a list of movies, the show and the city of a list
of schedules.  Two queries with the same key read what either has stored.

* `MistakenMovies`, `MistakenSchedules` — the pairs of queries that share a key and ask for different
  things;
* `cache_keys_sound_iff` — the other pairs are answered alike, whatever is stored.
-/

namespace Bookit
namespace ListCaches

open Lib
open Accounts (trim)
open Search (ShowType parseObjectId)

variable {δ : Type}

/-- Queries with the same key are answered alike, whatever is stored. -/
def KeySound (δ : Type) (a b : CachedList) : Prop :=
  a.key = b.key → ∀ s : Store δ, s.uncached a = s.uncached b

/-! ## Types that shows have -/

/-- A query for every type. -/
def AnyType (showType : Option String) : Prop :=
  showType = none ∨ showType = some "All"

/-- A query that some show can answer. -/
def Answerable (showType : Option String) : Prop :=
  AnyType showType ∨ ∃ τ : ShowType, showType = some τ.name

/-- The type that an answerable query asks for, written as it is in a key. -/
theorem exists_type {showType : Option String} (h : Answerable showType) :
    ∃ τ : Option ShowType, typePart showType = typePart (τ.map ShowType.name) ∧
      ∀ d : Show δ, typeMatches showType d = typeMatches (τ.map ShowType.name) d := by
  rcases h with (rfl | rfl) | ⟨τ, rfl⟩
  · exact ⟨none, rfl, fun _ => rfl⟩
  · refine ⟨none, by decide, fun d => ?_⟩
    simp [typeMatches]
  · exact ⟨some τ, rfl, fun _ => rfl⟩

/-- Two answerable queries with the same key are the same. -/
theorem getMovies_of_answerable (s : Store δ) {t t' c c' : Option String} (ht : Answerable t)
    (ht' : Answerable t') :
    cacheMoviesKey t c = cacheMoviesKey t' c' → s.getMovies t c = s.getMovies t' c' := by
  intro hkey
  obtain ⟨τ, hpart, hmatch⟩ := exists_type (δ := δ) ht
  obtain ⟨τ', hpart', hmatch'⟩ := exists_type (δ := δ) ht'
  have hkeys : cacheMoviesKey (τ.map ShowType.name) c =
      cacheMoviesKey (τ'.map ShowType.name) c' := by
    calc cacheMoviesKey (τ.map ShowType.name) c
        = cacheMoviesKey t c := by simp only [cacheMoviesKey, hpart]
      _ = cacheMoviesKey t' c' := hkey
      _ = cacheMoviesKey (τ'.map ShowType.name) c' := by simp only [cacheMoviesKey, hpart']
  obtain ⟨rfl, hcity⟩ := cacheMoviesKey_inj τ' hkeys
  have hids : s.activeShowIds c = s.activeShowIds c' := by
    simp only [Store.activeShowIds, hcity]
  simp only [Store.getMovies, hids, hmatch, hmatch']

/-- No show answers any other query. -/
theorem getMovies_of_not_answerable (s : Store δ) {t : Option String} (c : Option String)
    (ht : ¬ Answerable t) : s.getMovies t c = [] := by
  have hnone : ∀ d : Show δ, typeMatches t d = false := by
    intro d
    cases t with
    | none => exact absurd (.inl (.inl rfl)) ht
    | some a =>
        simp only [typeMatches, Option.all_some, decide_eq_false_iff_not]
        rintro (rfl | hname)
        · exact ht (.inl (.inr rfl))
        · exact ht (.inr ⟨d.showType, congrArg some hname.symm⟩)
  by_cases hids : s.activeShowIds c = []
  · simp only [Store.getMovies, if_pos hids]
  · simp [Store.getMovies, hids, hnone, byCreated, StableSort.sorted]

/-- A schedule to come. -/
def screening (showId : String) (τ : ShowType) (city : Option String) : Schedule where
  id := 1
  mongoShowId := showId
  showType := τ
  layoutId := none
  startTime := 1
  bookingOpenAt := 0
  lifecycleState := .open_
  createdAt := 0
  deletedAt := none
  venueName := none
  venueAddress := none
  venueCity := city
  venueState := none
  date := 0
  slot := .evening
  endTime := 2

theorem inCity_screening (showId : String) (τ : ShowType) (city : Option String) :
    (screening showId τ city).inCity city = true := by
  cases city <;> simp [Schedule.inCity, screening]

/-- A show with a schedule to come. -/
def playing [Inhabited δ] (τ : ShowType) (city : Option String) : Store δ where
  now := 0
  shows :=
    [("507f1f77bcf86cd799439011",
      { showType := τ, title := "Parasite", weight := none, nextStartTime := none, city := none
        createdAt := none, deletedAt := none, details := default })]
  schedules := [screening "507f1f77bcf86cd799439011" τ city]

/-- Every answerable query is answered in some state. -/
theorem exists_getMovies_ne_nil [Inhabited δ] {t : Option String} (c : Option String)
    (ht : Answerable t) : ∃ s : Store δ, s.getMovies t c ≠ [] := by
  have hplaying : ∀ τ : ShowType, (∀ d : Show δ, d.showType = τ → typeMatches t d = true) →
      ∃ s : Store δ, s.getMovies t c ≠ [] := by
    intro τ hτ
    refine ⟨playing τ (selectedCity c), ?_⟩
    have hupcoming : ∀ city, (screening "507f1f77bcf86cd799439011" τ city).upcoming 0 = true :=
      fun _ => rfl
    have hparse : ∀ city,
        parseObjectId (screening "507f1f77bcf86cd799439011" τ city).mongoShowId =
          some "507f1f77bcf86cd799439011" := by
      have hid : parseObjectId "507f1f77bcf86cd799439011" = some "507f1f77bcf86cd799439011" := by
        decide +kernel
      exact fun _ => hid
    have hids : (playing τ (selectedCity c) : Store δ).activeShowIds c =
        ["507f1f77bcf86cd799439011"] := by
      simp only [Store.activeShowIds, playing, List.filter_cons, hupcoming, inCity_screening,
        Bool.and_self, if_true, List.filter_nil, List.filterMap_cons, List.filterMap_nil, hparse]
    simp only [Store.getMovies, hids]
    simp [playing, Show.live, hτ, byCreated, StableSort.sorted]
  rcases ht with (rfl | rfl) | ⟨τ, rfl⟩
  · exact hplaying .movie fun _ _ => rfl
  · exact hplaying .movie fun _ _ => by simp [typeMatches]
  · exact hplaying τ fun _ hd => by simp [typeMatches, hd]

/-! ## Lists of movies -/

/-- The second query asks for a type that no show has, and its key is spelled as that of the first. -/
inductive MistakenMovies : Option String → Option String → Option String → Option String → Prop where
  /-- A type other than `All` that differs from it in case only. -/
  | all (t : Option String) (a : String) {c c' : Option String} :
      AnyType t → eqIgnoreAsciiCase a "All" = true → a ≠ "All" →
      selectedCity c = selectedCity c' → MistakenMovies t c (some a) c'
  /-- A type that begins like the city of a query for every type. -/
  | city (t : Option String) (a x : String) {c c' : Option String} :
      AnyType t → selectedCity c = some x → a ++ cityPart c' = "city:" ++ x →
      MistakenMovies t c (some a) c'
  /-- A type that begins like another with its city. -/
  | typed (τ : ShowType) (a x : String) {c c' : Option String} :
      a ≠ τ.name → selectedCity c = some x → a ++ cityPart c' = τ.name ++ (":city:" ++ x) →
      MistakenMovies (some τ.name) c (some a) c'

theorem typePart_of_not_all {a : String} (h : eqIgnoreAsciiCase a "All" = false) :
    typePart (some a) = ":" ++ a := by
  simp [typePart, Option.filter, h]

theorem typePart_of_all {a : String} (h : eqIgnoreAsciiCase a "All" = true) :
    typePart (some a) = "" := by
  simp [typePart, Option.filter, h]

theorem AnyType.typePart {t : Option String} (h : AnyType t) : typePart t = "" := by
  rcases h with rfl | rfl <;> decide

/-- The part of a city is empty or begins with a colon. -/
theorem head_cityPart (c : Option String) :
    cityPart c = "" ∨ (cityPart c).toList.head? = some ':' := by
  unfold cityPart
  cases selectedCity c with
  | none => exact .inl rfl
  | some x => exact .inr (by simp)

/-- The beginning of a type whose key is spelled as that of an answerable query. -/
theorem head_of_append {a r : String} {c : Option String} {x : Char}
    (hr : r.toList.head? = some x) (hx : x ≠ ':') (h : a ++ cityPart c = r) :
    a.toList.head? = some x := by
  have hlist : a.toList ++ (cityPart c).toList = r.toList := by
    rw [← String.toList_append, h]
  cases ha : a.toList with
  | nil =>
      rw [ha, List.nil_append] at hlist
      rw [← hlist] at hr
      rcases head_cityPart c with hempty | hcolon
      · rw [hempty] at hr
        cases hr
      · exact absurd (Option.some.inj (hr.symm.trans hcolon)) hx
  | cons y l =>
      rw [ha] at hlist
      rw [← hlist] at hr
      exact hr

/-- Types begin with none of the letters of `:city:` and `all`. -/
theorem head_name_append (τ : ShowType) (b : String) :
    ∃ x, (x ≠ ':' ∧ x.toLower ≠ 'a') ∧ (τ.name ++ b).toList.head? = some x := by
  have hname : ∃ x, (x ≠ ':' ∧ x.toLower ≠ 'a') ∧ (τ.name).toList.head? = some x := by
    cases τ with
    | movie => exact ⟨'M', by decide⟩
    | concert => exact ⟨'C', by decide⟩
    | event => exact ⟨'E', by decide⟩
    | gameEvent => exact ⟨'G', by decide⟩
  obtain ⟨x, hletter, hx⟩ := hname
  refine ⟨x, hletter, ?_⟩
  rw [String.toList_append, List.head?_append, hx]
  rfl

/-- A type with another beginning is not `All`, in any case. -/
theorem not_all_of_head {a : String} {x : Char} (hx : x.toLower ≠ 'a')
    (h : a.toList.head? = some x) : eqIgnoreAsciiCase a "All" = false := by
  have hne : a.toList.map Char.toLower ≠ "All".toList.map Char.toLower := by
    intro heq
    have hhead := congrArg List.head? heq
    rw [List.head?_map, h] at hhead
    exact hx (Option.some.inj hhead)
  exact decide_eq_false hne

theorem not_answerable {a : String} (hall : a ≠ "All") (hname : ∀ τ : ShowType, a ≠ τ.name) :
    ¬ Answerable (some a) := by
  rintro ((heq | heq) | ⟨τ, heq⟩)
  · cases heq
  · exact hall (Option.some.inj heq)
  · exact hname τ (Option.some.inj heq)

/-- The type of `MistakenMovies.city` begins like no other. -/
theorem spells_city {a x : String} {c : Option String} (h : a ++ cityPart c = "city:" ++ x) :
    eqIgnoreAsciiCase a "All" = false ∧ ∀ τ : ShowType, a ≠ τ.name := by
  have hhead : a.toList.head? = some 'c' := by
    apply head_of_append (r := "city:" ++ x) ?_ (by decide) h
    rw [String.toList_append]
    rfl
  refine ⟨not_all_of_head (by decide) hhead, ?_⟩
  rintro τ rfl
  cases τ <;> exact absurd hhead (by decide)

/-- The type of `MistakenMovies.typed` begins like the one whose key it shares. -/
theorem spells_type {a b : String} {c : Option String} {τ : ShowType}
    (h : a ++ cityPart c = τ.name ++ b) : eqIgnoreAsciiCase a "All" = false := by
  obtain ⟨x, ⟨hcolon, hletter⟩, hx⟩ := head_name_append τ b
  exact not_all_of_head hletter (head_of_append hx hcolon h)

theorem ne_all_of_eq_false {a : String} (h : eqIgnoreAsciiCase a "All" = false) : a ≠ "All" := by
  rintro rfl
  exact absurd h (by decide)

theorem MistakenMovies.answerable {t c t' c' : Option String} (h : MistakenMovies t c t' c') :
    Answerable t ∧ ¬ Answerable t' := by
  cases h with
  | all t a hany hall hne hcity =>
      refine ⟨.inl hany, not_answerable hne ?_⟩
      rintro τ rfl
      cases τ <;> exact absurd hall (by decide)
  | city t a x hany hx hspell =>
      obtain ⟨hall, hname⟩ := spells_city hspell
      exact ⟨.inl hany, not_answerable (ne_all_of_eq_false hall) hname⟩
  | typed τ a x hne hx hspell =>
      refine ⟨.inr ⟨τ, rfl⟩, not_answerable (ne_all_of_eq_false (spells_type hspell)) ?_⟩
      rintro τ' rfl
      exact hne (congrArg ShowType.name (name_inj hspell))

theorem MistakenMovies.key {t c t' c' : Option String} (h : MistakenMovies t c t' c') :
    cacheMoviesKey t c = cacheMoviesKey t' c' := by
  unfold cacheMoviesKey
  congr 1
  cases h with
  | all t a hany hall hne hcity =>
      rw [hany.typePart, typePart_of_all hall]
      simp only [cityPart, hcity]
  | city t a x hany hx hspell =>
      rw [hany.typePart, typePart_of_not_all (spells_city hspell).1, String.append_assoc, hspell]
      simp only [cityPart, hx, String.empty_append, ← String.append_assoc]
      rfl
  | typed τ a x hne hx hspell =>
      have hcity : cityPart c = ":city:" ++ x := by
        simp only [cityPart, hx]
      rw [typePart_name, typePart_of_not_all (spells_type hspell)]
      calc ":" ++ τ.name ++ cityPart c
          = ":" ++ (τ.name ++ (":city:" ++ x)) := by rw [hcity, String.append_assoc]
        _ = ":" ++ (a ++ cityPart c') := by rw [hspell]
        _ = ":" ++ a ++ cityPart c' := by rw [String.append_assoc]

/-- A name with no colon is spelled by itself only. -/
theorem spells_name {a : String} {c : Option String} {τ : ShowType}
    (h : a ++ cityPart c = τ.name) : a = τ.name := by
  cases hc : selectedCity c with
  | none =>
      simp only [cityPart, hc, String.append_empty] at h
      exact h
  | some x =>
      have hcolon : ':' ∈ (τ.name).toList := by
        simp only [cityPart, hc] at h
        rw [← h]
        simp
      exact absurd hcolon (by cases τ <;> decide)

/-- An answerable query that shares its key with one that is not. -/
theorem mistaken_of_key {t c t' c' : Option String} (ht : Answerable t) (ht' : ¬ Answerable t') :
    cacheMoviesKey t c = cacheMoviesKey t' c' → MistakenMovies t c t' c' := by
  intro hkey
  have hparts : typePart t ++ cityPart c = typePart t' ++ cityPart c' := by
    simpa [cacheMoviesKey] using hkey
  cases t' with
  | none => exact absurd (.inl (.inl rfl)) ht'
  | some a =>
      have hne : a ≠ "All" := by
        rintro rfl
        exact ht' (.inl (.inr rfl))
      by_cases hall : eqIgnoreAsciiCase a "All" = true
      · rw [typePart_of_all hall, String.empty_append] at hparts
        rcases ht with hany | ⟨τ, rfl⟩
        · rw [hany.typePart, String.empty_append] at hparts
          exact .all t a hany hall hne (cityPart_inj hparts)
        · rw [typePart_name] at hparts
          exact absurd hparts.symm (cityPart_ne_typed c' c τ)
      · rw [typePart_of_not_all (eq_false_of_ne_true hall), String.append_assoc] at hparts
        rcases ht with hany | ⟨τ, rfl⟩
        · rw [hany.typePart, String.empty_append] at hparts
          cases hc : selectedCity c with
          | none =>
              simp only [cityPart, hc] at hparts
              exact absurd (congrArg (fun s => s.toList.head?) hparts) (by simp)
          | some x =>
              have hspell : a ++ cityPart c' = "city:" ++ x := by
                have hcity : ":" ++ ("city:" ++ x) = ":" ++ (a ++ cityPart c') := by
                  rw [← hparts, ← String.append_assoc]
                  simp only [cityPart, hc]
                  rfl
                exact ((String.append_right_inj _).1 hcity).symm
              exact .city t a x hany hc hspell
        · rw [typePart_name, String.append_assoc] at hparts
          have hspell : a ++ cityPart c' = τ.name ++ cityPart c :=
            ((String.append_right_inj _).1 hparts).symm
          have hname : a ≠ τ.name := by
            rintro rfl
            exact ht' (.inr ⟨τ, rfl⟩)
          cases hc : selectedCity c with
          | none =>
              simp only [cityPart, hc, String.append_empty] at hspell
              exact absurd (spells_name hspell) hname
          | some x =>
              refine .typed τ a x hname hc ?_
              rw [hspell]
              simp only [cityPart, hc]

/-- Queries for movies with the same key are answered alike, unless one of them asks for a type that no
show has. -/
theorem movies_sound_iff [Inhabited δ] (t c t' c' : Option String) :
    KeySound δ (.movies t c) (.movies t' c') ↔
      ¬ MistakenMovies t c t' c' ∧ ¬ MistakenMovies t' c' t c := by
  have hunsound : ∀ {t c t' c'}, MistakenMovies t c t' c' →
      ∃ s : Store δ, s.getMovies t c ≠ s.getMovies t' c' := by
    intro t c t' c' h
    obtain ⟨s, hs⟩ := exists_getMovies_ne_nil (δ := δ) c h.answerable.1
    exact ⟨s, by rwa [getMovies_of_not_answerable s c' h.answerable.2]⟩
  constructor
  · intro hsound
    refine ⟨fun h => ?_, fun h => ?_⟩
    · obtain ⟨s, hs⟩ := hunsound h
      exact hs (Listing.shows.inj (hsound h.key s))
    · obtain ⟨s, hs⟩ := hunsound h
      exact hs (Listing.shows.inj (hsound h.key.symm s)).symm
  · rintro ⟨hnot, hnot'⟩ hkey s
    apply congrArg Listing.shows
    by_cases ht : Answerable t
    · by_cases ht' : Answerable t'
      · exact getMovies_of_answerable s ht ht' hkey
      · exact absurd (mistaken_of_key ht ht' hkey) hnot
    · by_cases ht' : Answerable t'
      · exact absurd (mistaken_of_key ht' ht hkey.symm) hnot'
      · rw [getMovies_of_not_answerable s c ht, getMovies_of_not_answerable s c' ht']

/-! ## Lists of schedules -/

/-- The city in the key of a show's schedules. -/
def cityName (city : Option String) : String :=
  (selectedCity city).getD "all"

/-- The second show is named by the first, `:schedules:city:` and the beginning of a city, which the
first query names in full. -/
def MistakenSchedules (showId : String) (city : Option String) (showId' : String)
    (city' : Option String) : Prop :=
  ∃ w, showId' ++ ":" = showId ++ (":schedules:city:" ++ w) ∧
    cityName city = w ++ ("schedules:city:" ++ cityName city')

theorem key_showSchedules (showId : String) (city : Option String) :
    (CachedList.showSchedules showId city).key =
      "cache:show:" ++ (showId ++ (":schedules:city:" ++ cityName city)) := by
  simp only [CachedList.key, cacheShowSchedulesKey, selectedCity_selectedCity, cityName]

theorem MistakenSchedules.key {showId showId' : String} {city city' : Option String}
    (h : MistakenSchedules showId city showId' city') :
    (CachedList.showSchedules showId city).key = (CachedList.showSchedules showId' city').key := by
  obtain ⟨w, hshow, hcity⟩ := h
  rw [key_showSchedules, key_showSchedules]
  congr 1
  calc showId ++ (":schedules:city:" ++ cityName city)
      = showId ++ (":schedules:city:" ++ w) ++ ("schedules:city:" ++ cityName city') := by
        rw [hcity]
        simp only [String.append_assoc]
    _ = showId' ++ ":" ++ ("schedules:city:" ++ cityName city') := by rw [hshow]
    _ = showId' ++ (":" ++ "schedules:city:" ++ cityName city') := by
        simp only [String.append_assoc]
    _ = showId' ++ (":schedules:city:" ++ cityName city') := rfl

theorem MistakenSchedules.ne {showId showId' : String} {city city' : Option String}
    (h : MistakenSchedules showId city showId' city') : showId ≠ showId' := by
  rintro rfl
  obtain ⟨w, hshow, -⟩ := h
  have hlength := congrArg (fun s => s.toList.length) hshow
  simp at hlength

/-- Where the separator of a key begins within another. -/
theorem separator_overlap {a n r : List Char} (ha : a ≠ [])
    (h : ":schedules:city:".toList ++ n = a ++ ':' :: ("schedules:city:".toList ++ r)) :
    ∃ w, a ++ [':'] = ":schedules:city:".toList ++ w ∧ n = w ++ ("schedules:city:".toList ++ r) := by
  have hsplit : ":schedules:city:".toList ++ n =
      (a ++ [':']) ++ ("schedules:city:".toList ++ r) := by
    rw [h, List.append_assoc]
    rfl
  rcases List.append_eq_append_iff.1 hsplit with ⟨w, hw, hn⟩ | ⟨w, hw, hr⟩
  · exact ⟨w, hw, hn⟩
  · -- a colon of the separator is its first, its last, or the one before `city`
    have hcolons : ∀ k < 16, (":schedules:city:".toList)[k]? = some ':' →
        k = 0 ∨ k = 10 ∨ k = 15 := by
      decide
    have hlength : a.length < 16 := by
      have := congrArg List.length hw
      simp at this
      omega
    have hat : (":schedules:city:".toList)[a.length]? = some ':' := by
      rw [hw]
      simp
    have hrest : w = ":schedules:city:".toList.drop (a.length + 1) := by
      rw [hw]
      simp
    rcases hcolons a.length hlength hat with hfirst | hsecond | hlast
    · exact absurd (List.length_eq_zero_iff.1 hfirst) ha
    · -- what follows that one is not what follows the first
      rw [hsecond] at hrest
      subst hrest
      have hhead := congrArg List.head? hr
      exact absurd hhead (by simp)
    · rw [hlast] at hrest
      obtain rfl : w = [] := hrest
      exact ⟨[], by simpa using hw.symm, hr.symm⟩

/-- Different shows with the same key. -/
theorem mistaken_of_key_schedules {showId showId' : String} {city city' : Option String}
    (hne : showId ≠ showId')
    (hkey : (CachedList.showSchedules showId city).key =
      (CachedList.showSchedules showId' city').key) :
    MistakenSchedules showId city showId' city' ∨ MistakenSchedules showId' city' showId city := by
  -- one of the names is the beginning of the other
  have hextends : ∀ {x x' : String} {c c' : Option String} {l : List Char}, l ≠ [] →
      x'.toList = x.toList ++ l →
      ":schedules:city:".toList ++ (cityName c).toList =
        l ++ (":schedules:city:".toList ++ (cityName c').toList) → MistakenSchedules x c x' c' := by
    intro x x' c c' l hl hx h
    obtain ⟨w, hw, hc⟩ := separator_overlap hl h
    refine ⟨String.ofList w, String.toList_inj.1 ?_, String.toList_inj.1 ?_⟩
    · simp only [String.toList_append, String.toList_ofList, hx, List.append_assoc]
      exact congrArg (x.toList ++ ·) hw
    · simpa only [String.toList_append, String.toList_ofList] using hc
  rw [key_showSchedules, key_showSchedules, String.append_right_inj] at hkey
  have hlist := congrArg String.toList hkey
  simp only [String.toList_append] at hlist
  rcases List.append_eq_append_iff.1 hlist with ⟨l, hx, h⟩ | ⟨l, hx, h⟩
  · refine .inl (hextends ?_ hx h)
    rintro rfl
    exact hne (String.toList_inj.1 (by simpa using hx.symm))
  · refine .inr (hextends ?_ hx h)
    rintro rfl
    exact hne (String.toList_inj.1 (by simpa using hx))

/-- Schedules of different shows are not the same. -/
theorem exists_getSchedulesForShow_ne {showId showId' : String} (city city' : Option String)
    (hne : showId ≠ showId') : ∃ s : Store δ,
      s.getSchedulesForShow showId city ≠ s.getSchedulesForShow showId' city' := by
  let row := screening showId .movie (selectedCity city)
  refine ⟨⟨0, [], [row]⟩, ?_⟩
  have hactive : row.active 0 = true := rfl
  have hcity : row.inCity (selectedCity city) = true := inCity_screening ..
  have hfound : (⟨0, [], [row]⟩ : Store δ).getSchedulesForShow showId city = [row] := by
    have hshow : row.mongoShowId = showId := rfl
    simp [Store.getSchedulesForShow, hactive, hcity, hshow, byStart, StableSort.sorted]
  have hother : (⟨0, [], [row]⟩ : Store δ).getSchedulesForShow showId' city' = [] := by
    have hshow : ¬ row.mongoShowId = showId' := hne
    simp [Store.getSchedulesForShow, hshow, byStart, StableSort.sorted]
  rw [hfound, hother]
  exact List.cons_ne_nil _ _

/-- Queries for the schedules of a show with the same key are answered alike, unless one show is named
by the other and a part of a city. -/
theorem schedules_sound_iff (showId : String) (city : Option String) (showId' : String)
    (city' : Option String) :
    KeySound δ (.showSchedules showId city) (.showSchedules showId' city') ↔
      ¬ MistakenSchedules showId city showId' city' ∧
        ¬ MistakenSchedules showId' city' showId city := by
  constructor
  · intro hsound
    refine ⟨fun h => ?_, fun h => ?_⟩
    · obtain ⟨s, hs⟩ := exists_getSchedulesForShow_ne (δ := δ) city city' h.ne
      exact hs (Listing.schedules.inj (hsound h.key s))
    · obtain ⟨s, hs⟩ := exists_getSchedulesForShow_ne (δ := δ) city' city h.ne
      exact hs (Listing.schedules.inj (hsound h.key.symm s)).symm
  · rintro ⟨hnot, hnot'⟩ hkey s
    by_cases hshow : showId = showId'
    · subst hshow
      have hcity := cacheShowSchedulesKey_inj hkey
      rw [selectedCity_selectedCity, selectedCity_selectedCity] at hcity
      simp only [Store.uncached, Store.getSchedulesForShow, hcity]
    · rcases mistaken_of_key_schedules hshow hkey with h | h
      · exact absurd h hnot
      · exact absurd h hnot'

/-! ## Both families of keys -/

/-- Two queries that share a key are answered alike, whatever is stored, unless one is mistaken for the
other. -/
theorem cache_keys_sound_iff (δ : Type) [Inhabited δ] :
    (∀ t c t' c', KeySound δ (.movies t c) (.movies t' c') ↔
      ¬ MistakenMovies t c t' c' ∧ ¬ MistakenMovies t' c' t c) ∧
    ∀ showId city showId' city',
      KeySound δ (.showSchedules showId city) (.showSchedules showId' city') ↔
        ¬ MistakenSchedules showId city showId' city' ∧
          ¬ MistakenSchedules showId' city' showId city :=
  ⟨movies_sound_iff, schedules_sound_iff⟩

/-- `all` in lower case shares the key of every movie, and is the name of no type; a type can spell
out the city of another query; and the name of a show can. -/
theorem cache_keys_confuse :
    ¬ KeySound Unit (.movies none none) (.movies (some "all") none) ∧
    ¬ KeySound Unit (.movies (some "Movie") (some "Pune")) (.movies (some "Movie:city:Pune") none) ∧
    ¬ KeySound Unit (.showSchedules "a" (some "b:schedules:city:Pune"))
        (.showSchedules "a:schedules:city:b" (some "Pune")) := by
  refine ⟨fun h => ?_, fun h => ?_, fun h => ?_⟩
  · exact absurd (h (by decide) (playing .movie none)) (by decide +kernel)
  · exact absurd (h (by decide) (playing .movie (some "Pune"))) (by decide +kernel)
  · exact absurd (h (by decide) ⟨0, [], [screening "a" .movie (some "b:schedules:city:Pune")]⟩)
      (by decide +kernel)

end ListCaches
end Bookit

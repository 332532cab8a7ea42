import Bookit.Lib.Pages
import Bookit.Web.CachesInvalidated

/-!
# Web.ShowsGrid — the pages of the dashboard's grid

A query names a page and how many shows a page has; Mongo sorts, skips and limits.  Between shows with
the same weight and start Mongo may choose anew for every query.  The first page of thirty is cached,
without its `has_more`.

`grid_sound_iff` says for which pages, limits and numbers of shows the grid is what its pages promise.
-/

namespace Bookit
namespace ListCaches

open Lib Pages

variable {δ : Type}

/-! ## The query -/

structure GridQuery where
  page : Option UInt64
  limit : Option UInt64
  city : Option String

def GridQuery.pageNumber (q : GridQuery) : ℕ :=
  (q.page.getD 1).toNat

def GridQuery.pageLimit (q : GridQuery) : ℕ :=
  (q.limit.getD 30).toNat

structure GridResponse (δ : Type) where
  shows : List (ObjectId × Show δ)
  hasMore : Bool
  deriving DecidableEq

/-- Documents of a collection: their identifiers differ, and their number fits an `i64`. -/
structure Collection (δ : Type) where
  documents : List (ObjectId × Show δ)
  distinct : (documents.map Prod.fst).Nodup
  small : documents.length < 2 ^ 63

/-- The documents that the filter of a query lets through. -/
def Collection.matching (s : Collection δ) (city : Option String) : List (ObjectId × Show δ) :=
  s.documents.filter fun x => x.2.live && cityMatches (gridCity city) x.2

/-- `as i64`. -/
def asI64 (n : ℕ) : ℤ :=
  if n < 2 ^ 63 then n else n - 2 ^ 64

/-- A limit in a query of Mongo: none for `0`, and that of the absolute value for a negative number. -/
def limited (limit : ℤ) (documents : List (ObjectId × Show δ)) : List (ObjectId × Show δ) :=
  if limit = 0 then documents else documents.take limit.natAbs

/-- `(page - 1) * limit`, where that is a `u64`. -/
def skipOf (page limit : ℕ) : Option ℕ :=
  if page = 0 ∨ 2 ^ 64 ≤ (page - 1) * limit then none else some ((page - 1) * limit)

/-- `order` is the order in which Mongo goes through the matching documents, `cached` what the key of
the city holds.  There is no page where the arithmetic fails, or the driver, which sends what is skipped
as an `i64`. -/
def listShowsGrid (order : List (ObjectId × Show δ)) (cached : Option (List (ObjectId × Show δ)))
    (q : GridQuery) : Option (GridResponse δ) :=
  match if q.pageNumber = 1 ∧ q.pageLimit = 30 then cached else none with
  | some shows => some ⟨shows, true⟩
  | none =>
      match skipOf q.pageNumber q.pageLimit with
      | none => none
      | some skip =>
          if 2 ^ 63 ≤ skip then none
          else
            let shows := limited (asI64 q.pageLimit) (order.drop skip)
            some ⟨shows, decide (shows.length = q.pageLimit)⟩

/-- The query for another page. -/
def GridQuery.at (q : GridQuery) (page : ℕ) : GridQuery :=
  { q with page := some (UInt64.ofNat page) }

/-- The shows of a page; a page that fails has none. -/
def gridPage (order : List (ObjectId × Show δ)) (q : GridQuery) (page : ℕ) :
    List (ObjectId × Show δ) :=
  ((listShowsGrid order none (q.at page)).map GridResponse.shows).getD []

/-! ## What the grid promises -/

/-- Whatever order Mongo takes for each query: there is a page, it says whether there is another with
a show, the pages together are the matching shows, each once and in the order of the grid, and the page
is the same when it comes from the cache. -/
structure GridSound (s : Collection δ) (q : GridQuery) : Prop where
  answered : ∀ o, Orders gridOrder (s.matching q.city) o → ∃ r, listShowsGrid o none q = some r
  hasMore : ∀ o r, Orders gridOrder (s.matching q.city) o → listShowsGrid o none q = some r →
    (r.hasMore = true ↔ ∃ page < 2 ^ 64, q.pageNumber < page ∧
      ∃ o', Orders gridOrder (s.matching q.city) o' ∧ gridPage o' q page ≠ [])
  complete : ∀ orders : ℕ → List (ObjectId × Show δ),
    (∀ k, Orders gridOrder (s.matching q.city) (orders k)) →
    ∀ n < 2 ^ 64, (s.matching q.city).length ≤ n →
      Orders gridOrder (s.matching q.city)
        ((List.range n).flatMap fun k => gridPage (orders k) q (k + 1))
  cached : ∀ o o' r, Orders gridOrder (s.matching q.city) o →
    Orders gridOrder (s.matching q.city) o' → listShowsGrid o none q = some r →
      listShowsGrid o' (some r.shows) q = listShowsGrid o' none q

/-- The matching shows, sorted. -/
def Collection.sorted (s : Collection δ) (city : Option String) : List (ObjectId × Show δ) :=
  StableSort.sorted gridOrder (s.matching city)

/-- Two shows of the same weight and start stand at the end of one page and the beginning of the
next. -/
def SplitTie (s : Collection δ) (city : Option String) (place : ℕ) : Prop :=
  Tied gridOrder (s.sorted city) place

/-- When it keeps to that. -/
structure GridFits (s : Collection δ) (q : GridQuery) : Prop where
  page : 1 ≤ q.pageNumber
  limit : 1 ≤ q.pageLimit
  skip : (q.pageNumber - 1) * q.pageLimit < 2 ^ 63
  /-- From `2 ^ 63` on, the limit is read as a negative number. -/
  fetched : q.pageLimit < 2 ^ 63 ∨ (s.matching q.city).length ≤ 2 ^ 64 - q.pageLimit
  unfilled : q.pageNumber * q.pageLimit ≠ (s.matching q.city).length
  ends : ∀ k, ¬ SplitTie s q.city (k * q.pageLimit)
  first : q.pageNumber = 1 → q.pageLimit = 30 →
    30 < (s.matching q.city).length ∧ ∀ i ≤ 30, ¬ SplitTie s q.city i

/-! ## One page -/

section Page

variable {s : Collection δ} {q : GridQuery} {o : List (ObjectId × Show δ)}

theorem pageLimit_lt (q : GridQuery) : q.pageLimit < 2 ^ 64 :=
  UInt64.toNat_lt _

theorem pageLimit_at (q : GridQuery) (page : ℕ) : (q.at page).pageLimit = q.pageLimit := rfl

theorem pageNumber_at {page : ℕ} (hpage : page < 2 ^ 64) : (q.at page).pageNumber = page := by
  show (UInt64.ofNat page).toNat = page
  rw [UInt64.toNat_ofNat', Nat.mod_eq_of_lt hpage]

/-- The shows that are asked for. -/
def fetchOf (limit : ℕ) : ℕ :=
  if limit < 2 ^ 63 then limit else 2 ^ 64 - limit

theorem limited_asI64 {limit : ℕ} (hlimit : 1 ≤ limit) (hlt : limit < 2 ^ 64)
    (l : List (ObjectId × Show δ)) : limited (asI64 limit) l = l.take (fetchOf limit) := by
  unfold limited asI64 fetchOf
  split_ifs with hsmall hzero hzero
  · omega
  · rfl
  · omega
  · congr 1
    omega

/-- A page without the cache. -/
theorem listShowsGrid_none (o : List (ObjectId × Show δ)) (q : GridQuery) :
    listShowsGrid o none q =
      if q.pageNumber = 0 ∨ 2 ^ 63 ≤ (q.pageNumber - 1) * q.pageLimit then none
      else
        some ⟨limited (asI64 q.pageLimit) (o.drop ((q.pageNumber - 1) * q.pageLimit)),
          decide ((limited (asI64 q.pageLimit)
            (o.drop ((q.pageNumber - 1) * q.pageLimit))).length = q.pageLimit)⟩ := by
  have hcache : (if q.pageNumber = 1 ∧ q.pageLimit = 30 then
      (none : Option (List (ObjectId × Show δ))) else none) = none := ite_self _
  unfold listShowsGrid skipOf
  rw [hcache]
  dsimp only
  by_cases hzero : q.pageNumber = 0
  · rw [if_pos (.inl hzero), if_pos (.inl hzero)]
  · by_cases hlarge : 2 ^ 63 ≤ (q.pageNumber - 1) * q.pageLimit
    · rw [if_pos (.inr hlarge : q.pageNumber = 0 ∨ _)]
      split_ifs
      · rfl
      · exact if_pos hlarge
    · have hfits : ¬ 2 ^ 64 ≤ (q.pageNumber - 1) * q.pageLimit := by omega
      rw [if_neg (not_or_intro hzero hfits), if_neg (not_or_intro hzero hlarge)]
      exact if_neg hlarge

theorem isSome_listShowsGrid_iff (o : List (ObjectId × Show δ)) :
    (∃ r, listShowsGrid o none q = some r) ↔
      1 ≤ q.pageNumber ∧ (q.pageNumber - 1) * q.pageLimit < 2 ^ 63 := by
  rw [listShowsGrid_none]
  split_ifs with hfails
  · simp
    omega
  · simp
    omega

theorem listShowsGrid_eq (hpage : 1 ≤ q.pageNumber) (hlimit : 1 ≤ q.pageLimit)
    (hskip : (q.pageNumber - 1) * q.pageLimit < 2 ^ 63) (o : List (ObjectId × Show δ)) :
    listShowsGrid o none q =
      some ⟨(o.drop ((q.pageNumber - 1) * q.pageLimit)).take (fetchOf q.pageLimit),
        decide (((o.drop ((q.pageNumber - 1) * q.pageLimit)).take
          (fetchOf q.pageLimit)).length = q.pageLimit)⟩ := by
  rw [listShowsGrid_none, if_neg (by omega), limited_asI64 hlimit (pageLimit_lt q)]

/-- The shows of a page of the sequence. -/
theorem gridPage_eq {page : ℕ} (hpage : page + 1 < 2 ^ 64) (o : List (ObjectId × Show δ)) :
    gridPage o q (page + 1) =
      if 2 ^ 63 ≤ page * q.pageLimit then []
      else limited (asI64 q.pageLimit) (o.drop (page * q.pageLimit)) := by
  unfold gridPage
  rw [listShowsGrid_none, pageNumber_at hpage, pageLimit_at, Nat.add_sub_cancel]
  by_cases hlarge : 2 ^ 63 ≤ page * q.pageLimit
  · rw [if_pos (.inr hlarge), if_pos hlarge]
    rfl
  · rw [if_neg (not_or_intro page.succ_ne_zero hlarge), if_neg hlarge]
    rfl

end Page

/-! ## The pages -/

section All

variable {s : Collection δ} {q : GridQuery} {o : List (ObjectId × Show δ)}
variable {orders : ℕ → List (ObjectId × Show δ)}

theorem matching_small (s : Collection δ) (city : Option String) :
    (s.matching city).length < 2 ^ 63 :=
  Nat.lt_of_le_of_lt (List.length_filter_le _ _) s.small

theorem matching_nodup (s : Collection δ) (city : Option String) : (s.matching city).Nodup :=
  (List.Nodup.of_map _ s.distinct).filter _

theorem sorted_orders (s : Collection δ) (city : Option String) :
    Orders gridOrder (s.matching city) (s.sorted city) :=
  orders_sorted gridOrder_preorders _

theorem fetchOf_pos (hlimit : 1 ≤ q.pageLimit) : 1 ≤ fetchOf q.pageLimit := by
  have := pageLimit_lt q
  unfold fetchOf
  split_ifs <;> omega

/-- A page has a show as long as fewer are skipped than there are. -/
theorem gridPage_ne_nil_iff (hlimit : 1 ≤ q.pageLimit) {page : ℕ} (hpage : page + 1 < 2 ^ 64)
    (ho : Orders gridOrder (s.matching q.city) o) :
    gridPage o q (page + 1) ≠ [] ↔ page * q.pageLimit < (s.matching q.city).length := by
  have hsmall := matching_small s q.city
  have hfetch := fetchOf_pos hlimit
  rw [gridPage_eq hpage, limited_asI64 hlimit (pageLimit_lt q), ← ho.length_eq]
  rw [← ho.length_eq] at hsmall
  by_cases hlarge : 2 ^ 63 ≤ page * q.pageLimit
  · rw [if_pos hlarge]
    simp
    omega
  · rw [if_neg hlarge, ← List.length_pos_iff, List.length_take, List.length_drop]
    omega

/-- There is another page with a show where not all are on the pages so far. -/
theorem exists_further_iff (hlimit : 1 ≤ q.pageLimit) :
    (∃ page < 2 ^ 64, q.pageNumber < page ∧
      ∃ o', Orders gridOrder (s.matching q.city) o' ∧ gridPage o' q page ≠ []) ↔
      q.pageNumber * q.pageLimit < (s.matching q.city).length := by
  constructor
  · rintro ⟨page, hlt, hfurther, o', ho', hne⟩
    obtain ⟨page, rfl⟩ := Nat.exists_eq_succ_of_ne_zero (Nat.ne_of_gt (Nat.zero_lt_of_lt hfurther))
    have hmore := (gridPage_ne_nil_iff hlimit hlt ho').1 hne
    exact Nat.lt_of_le_of_lt (Nat.mul_le_mul_right _ (Nat.le_of_lt_succ hfurther)) hmore
  · intro hmore
    have hsmall := matching_small s q.city
    have hle : q.pageNumber * 1 ≤ q.pageNumber * q.pageLimit := Nat.mul_le_mul_left _ hlimit
    have hlt : q.pageNumber + 1 < 2 ^ 64 := by omega
    have horder := sorted_orders s q.city
    exact ⟨q.pageNumber + 1, hlt, Nat.lt_succ_self _, _, horder,
      (gridPage_ne_nil_iff hlimit hlt horder).2 hmore⟩

/-- With a limit that is not read as negative, the pages are cut one after the other. -/
theorem gridPages_eq (hlimit : 1 ≤ q.pageLimit) (hsmall : q.pageLimit < 2 ^ 63)
    (horders : ∀ k, Orders gridOrder (s.matching q.city) (orders k)) {n : ℕ} (hn : n < 2 ^ 64) :
    (List.range n).flatMap (fun k => gridPage (orders k) q (k + 1)) = pages orders q.pageLimit n := by
  unfold pages
  refine List.flatMap_congr fun k hk => ?_
  have hk := List.mem_range.1 hk
  have hfetch : fetchOf q.pageLimit = q.pageLimit := if_pos hsmall
  rw [gridPage_eq (by omega), limited_asI64 hlimit (pageLimit_lt q), hfetch]
  by_cases hlarge : 2 ^ 63 ≤ k * q.pageLimit
  · have hlength := matching_small s q.city
    rw [← (horders k).length_eq] at hlength
    rw [if_pos hlarge, List.drop_eq_nil_of_le (by omega), List.take_nil]
  · rw [if_neg hlarge]

/-- With one that is, there is but one page. -/
theorem gridPages_of_large (hlarge : 2 ^ 63 ≤ q.pageLimit) {n : ℕ} (hn : n + 1 < 2 ^ 64) :
    (List.range (n + 1)).flatMap (fun k => gridPage (orders k) q (k + 1)) =
      (orders 0).take (2 ^ 64 - q.pageLimit) := by
  have hlimit : 1 ≤ q.pageLimit := by omega
  have hrest : (List.range n).flatMap (fun k => gridPage (orders (k + 1)) q (k + 1 + 1)) = [] := by
    refine List.flatMap_eq_nil_iff.2 fun k hk => ?_
    have hk := List.mem_range.1 hk
    have hskip : q.pageLimit ≤ (k + 1) * q.pageLimit := Nat.le_mul_of_pos_left _ k.succ_pos
    rw [gridPage_eq (by omega), if_pos (by omega)]
  have hfetch : fetchOf q.pageLimit = 2 ^ 64 - q.pageLimit := if_neg (by omega)
  rw [List.range_succ_eq_map, List.flatMap_cons, List.flatMap_map]
  have hfirst : gridPage (orders 0) q (0 + 1) = (orders 0).take (2 ^ 64 - q.pageLimit) := by
    rw [gridPage_eq (by omega), limited_asI64 hlimit (pageLimit_lt q), hfetch, Nat.zero_mul,
      if_neg (by omega), List.drop_zero]
  rw [hfirst]
  simpa using hrest

end All

/-! ## When the pages keep their promise -/

section Sound

variable {s : Collection δ} {q : GridQuery}

/-- Whether a page is full, where it is not filled by the last show. -/
theorem full_iff (hpage : 1 ≤ q.pageNumber) (hlimit : 1 ≤ q.pageLimit)
    {o : List (ObjectId × Show δ)} (ho : o.length < 2 ^ 63)
    (hunfilled : q.pageNumber * q.pageLimit ≠ o.length) :
    ((o.drop ((q.pageNumber - 1) * q.pageLimit)).take (fetchOf q.pageLimit)).length = q.pageLimit ↔
      q.pageNumber * q.pageLimit < o.length := by
  have hsplit : q.pageNumber * q.pageLimit = (q.pageNumber - 1) * q.pageLimit + q.pageLimit := by
    calc q.pageNumber * q.pageLimit
        = (q.pageNumber - 1 + 1) * q.pageLimit := by rw [Nat.sub_add_cancel hpage]
      _ = (q.pageNumber - 1) * q.pageLimit + q.pageLimit := Nat.succ_mul _ _
  rw [List.length_take, List.length_drop]
  unfold fetchOf
  split_ifs <;> omega

/-- The first page of thirty, without the cache and with it. -/
theorem listShowsGrid_first (hpage : q.pageNumber = 1) (hlimit : q.pageLimit = 30)
    (o : List (ObjectId × Show δ)) :
    listShowsGrid o none q = some ⟨o.take 30, decide ((o.take 30).length = 30)⟩ ∧
      ∀ shows, listShowsGrid o (some shows) q = some ⟨shows, true⟩ := by
  refine ⟨?_, fun shows => ?_⟩
  · rw [listShowsGrid_eq (by omega) (by omega) (by rw [hpage]; simp), hpage, hlimit]
    rfl
  · simp only [listShowsGrid, if_pos (And.intro hpage hlimit)]

theorem fits_sound (h : GridFits s q) : GridSound s q where
  answered o _ := (isSome_listShowsGrid_iff o).2 ⟨h.page, h.skip⟩
  hasMore := by
    intro o r ho hr
    rw [listShowsGrid_eq h.page h.limit h.skip] at hr
    obtain rfl := Option.some.inj hr
    have hsmall := matching_small s q.city
    rw [exists_further_iff h.limit, ← ho.length_eq, decide_eq_true_eq]
    rw [← ho.length_eq] at hsmall
    exact full_iff h.page h.limit hsmall (by rw [ho.length_eq]; exact h.unfilled)
  complete := by
    intro orders horders n hn hall
    have horder := sorted_orders s q.city
    by_cases hsmall : q.pageLimit < 2 ^ 63
    · rw [gridPages_eq h.limit hsmall horders hn]
      have hties : ∀ j, 0 < j → ¬ Tied gridOrder (s.sorted q.city) (j * q.pageLimit) :=
        fun j _ => h.ends j
      have hpages : (s.matching q.city).length ≤ n * q.pageLimit :=
        Nat.le_trans hall (Nat.le_mul_of_pos_right _ h.limit)
      exact ⟨pages_perm gridOrder_preorders horder horders hties hpages,
        pages_pairwise gridOrder_preorders horder horders hties⟩
    · have hfew := h.fetched.resolve_left hsmall
      cases n with
      | zero =>
          have hnone : s.matching q.city = [] := List.length_eq_zero_iff.1 (Nat.le_zero.1 hall)
          rw [hnone]
          exact ⟨.refl [], .nil⟩
      | succ n =>
          rw [gridPages_of_large (Nat.not_lt.1 hsmall) hn,
            List.take_of_length_le (by rwa [(horders 0).length_eq])]
          exact horders 0
  cached := by
    intro o o' r ho ho' hr
    by_cases hfirst : q.pageNumber = 1 ∧ q.pageLimit = 30
    · obtain ⟨hmore, hties⟩ := h.first hfirst.1 hfirst.2
      rw [(listShowsGrid_first hfirst.1 hfirst.2 o).1] at hr
      obtain rfl := Option.some.inj hr
      obtain ⟨huncached, hcached⟩ := listShowsGrid_first hfirst.1 hfirst.2 o'
      have horder := sorted_orders s q.city
      have htake : ∀ {o}, Orders gridOrder (s.matching q.city) o →
          (s.sorted q.city).take 30 = o.take 30 :=
        fun ho => take_eq gridOrder_preorders horder ho fun i _ hi => hties i hi
      have hfull : (o'.take 30).length = 30 := by
        rw [List.length_take, ho'.length_eq]
        omega
      rw [hcached, huncached, ← htake ho, htake ho', decide_eq_true hfull]
    · simp only [listShowsGrid, if_neg hfirst]

theorem GridSound.limit (h : GridSound s q) : 1 ≤ q.pageLimit := by
  have horder := sorted_orders s q.city
  have hsmall := matching_small s q.city
  by_contra hzero
  have hzero : q.pageLimit = 0 := by omega
  -- every page is the whole list
  have hpages : ∀ {k}, k + 1 < 2 ^ 64 →
      gridPage (s.sorted q.city) q (k + 1) = s.sorted q.city := by
    intro k hk
    rw [gridPage_eq hk, hzero, if_neg (by omega)]
    simp [asI64, limited]
  have hcomplete := h.complete (fun _ => s.sorted q.city) (fun _ => horder)
    ((s.matching q.city).length + 1) (by omega) (Nat.le_succ _)
  have hall : (List.range ((s.matching q.city).length + 1)).flatMap (fun k =>
      gridPage (s.sorted q.city) q (k + 1)) =
      (List.range ((s.matching q.city).length + 1)).flatMap fun _ => s.sorted q.city := by
    refine List.flatMap_congr fun k hk => hpages ?_
    have := List.mem_range.1 hk
    omega
  have hlength := hcomplete.length_eq
  rw [hall, List.length_flatMap] at hlength
  rw [List.map_const', List.length_range, List.sum_replicate_nat] at hlength
  rw [horder.length_eq] at hlength
  have hempty : (s.matching q.city).length = 0 := by
    by_contra hne
    have : 1 * (s.matching q.city).length < ((s.matching q.city).length + 1) *
        (s.matching q.city).length := Nat.mul_lt_mul_of_pos_right (by omega) (by omega)
    omega
  -- with no show at all, there is said to be another page
  have hnone := List.length_eq_zero_iff.1 hempty
  obtain ⟨r, hr⟩ := h.answered _ horder
  have hmore : r.hasMore = true := by
    have hshown := hr
    have hsorted : s.sorted q.city = [] := List.length_eq_zero_iff.1 (horder.length_eq.trans hempty)
    rw [listShowsGrid_none, hzero, hsorted, List.drop_nil] at hshown
    split_ifs at hshown
    obtain rfl := Option.some.inj hshown
    rfl
  obtain ⟨page, hlt, hfurther, o', ho', hne⟩ := (h.hasMore _ r horder hr).1 hmore
  obtain ⟨page, rfl⟩ := Nat.exists_eq_succ_of_ne_zero (Nat.ne_of_gt (Nat.zero_lt_of_lt hfurther))
  have ho' : o' = [] := List.perm_nil.1 (hnone ▸ ho'.perm)
  subst ho'
  rw [gridPage_eq hlt, hzero] at hne
  exact hne rfl

theorem sound_fits (h : GridSound s q) : GridFits s q := by
  have horder := sorted_orders s q.city
  have hsmall := matching_small s q.city
  obtain ⟨hpage, hskip⟩ := (isSome_listShowsGrid_iff _).1 (h.answered _ horder)
  have hlimit := h.limit
  have hunfilled : q.pageNumber * q.pageLimit ≠ (s.matching q.city).length := by
    intro heq
    have hle : 1 * q.pageLimit ≤ q.pageNumber * q.pageLimit := Nat.mul_le_mul_right _ hpage
    have hfetch : fetchOf q.pageLimit = q.pageLimit := if_pos (by omega)
    have hsplit : (q.pageNumber - 1) * q.pageLimit + q.pageLimit =
        (s.sorted q.city).length := by
      rw [← Nat.succ_mul, Nat.succ_eq_add_one, Nat.sub_add_cancel hpage, heq]
      exact horder.length_eq.symm
    have hfull : (((s.sorted q.city).drop ((q.pageNumber - 1) * q.pageLimit)).take
        (fetchOf q.pageLimit)).length = q.pageLimit := by
      rw [hfetch, List.length_take, List.length_drop]
      omega
    have hmore := (h.hasMore _ _ horder (listShowsGrid_eq hpage hlimit hskip _)).1
      (decide_eq_true hfull)
    exact absurd ((exists_further_iff hlimit).1 hmore) (by omega)
  refine ⟨hpage, hlimit, hskip, ?_, hunfilled, fun k htied => ?_, fun hfirst hthirty => ?_⟩
  · by_contra hnot
    obtain ⟨hlarge, hmany⟩ := not_or.1 hnot
    have hcomplete := h.complete (fun _ => s.sorted q.city) (fun _ => horder)
      ((s.matching q.city).length + 1) (by omega) (Nat.le_succ _)
    rw [gridPages_of_large (Nat.not_lt.1 hlarge) (by omega)] at hcomplete
    have hlength := hcomplete.length_eq
    rw [List.length_take] at hlength
    omega
  · have hlt : k * q.pageLimit < (s.matching q.city).length := by
      rw [← horder.length_eq]
      exact Tied.lt htied
    have hk : k * 1 ≤ k * q.pageLimit := Nat.mul_le_mul_left _ hlimit
    have hpos : 1 * q.pageLimit ≤ k * q.pageLimit :=
      Nat.mul_le_mul_right _ (Nat.pos_of_mul_pos_right (Tied.pos htied))
    obtain ⟨orders, horders, hbad⟩ := exists_pages_not_perm (matching_nodup s q.city) horder hlimit
      htied
    have hcomplete := h.complete orders horders (s.matching q.city).length (by omega) (Nat.le_refl _)
    rw [gridPages_eq hlimit (by omega) horders (by omega)] at hcomplete
    exact hbad _ (by omega) hcomplete.perm
  · obtain ⟨huncached, hcached⟩ := listShowsGrid_first hfirst hthirty (s.sorted q.city)
    have hsame := h.cached _ _ _ horder horder huncached
    rw [hcached] at hsame
    have hsame := hsame.trans huncached
    have hfull : ((s.sorted q.city).take 30).length = 30 := by
      have hmore := congrArg GridResponse.hasMore (Option.some.inj hsame)
      exact of_decide_eq_true hmore.symm
    rw [List.length_take, horder.length_eq] at hfull
    rw [hfirst, hthirty] at hunfilled
    refine ⟨by omega, fun i hi htied => ?_⟩
    obtain ⟨o', ho', hne⟩ := exists_take_ne (matching_nodup s q.city) horder hi htied
    obtain ⟨huncached', hcached'⟩ := listShowsGrid_first hfirst hthirty o'
    have hother := h.cached _ _ _ horder ho' huncached
    rw [hcached', huncached'] at hother
    have hshows : (s.sorted q.city).take 30 = o'.take 30 :=
      congrArg GridResponse.shows (Option.some.inj hother)
    exact hne hshows.symm

/-- The grid keeps its promise for exactly these queries and collections. -/
theorem grid_sound_iff (s : Collection δ) (q : GridQuery) : GridSound s q ↔ GridFits s q :=
  ⟨sound_fits, fits_sound⟩

/-- The list that is cached is the first page, in one of Mongo's orders. -/
theorem listShowsGrid_uncached {t : Store δ} (hdocuments : s.documents = t.shows)
    (hpage : q.pageNumber = 1) (hlimit : q.pageLimit = 30) :
    (listShowsGrid (s.sorted q.city) none q).map (fun r => Listing.shows r.shows) =
      some (t.uncached (.dashboardGrid q.city)) := by
  rw [(listShowsGrid_first hpage hlimit _).1]
  simp only [Collection.sorted, Collection.matching, hdocuments]
  rfl

end Sound

def oneShow : Collection Unit where
  documents :=
    [("507f1f77bcf86cd799439011",
      { showType := .movie, title := "Parasite", weight := some 0, nextStartTime := none
        city := none, createdAt := none, deletedAt := none, details := () })]
  distinct := by decide
  small := by decide

/-- One show: page zero; limit zero; a page of one show, and then no other; and the first page of
thirty, which the cache says is not the last. -/
theorem grid_breaks :
    ¬ GridSound oneShow ⟨some 0, none, none⟩ ∧ ¬ GridSound oneShow ⟨none, some 0, none⟩ ∧
      ¬ GridSound oneShow ⟨none, some 1, none⟩ ∧ ¬ GridSound oneShow ⟨none, none, none⟩ := by
  refine ⟨fun h => ?_, fun h => ?_, fun h => ?_, fun h => ?_⟩
  · exact absurd (sound_fits h).page (by decide)
  · exact absurd (sound_fits h).limit (by decide)
  · exact absurd (sound_fits h).unfilled (by decide)
  · exact absurd ((sound_fits h).first rfl rfl).1 (by decide)

end ListCaches
end Bookit

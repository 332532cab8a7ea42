import Bookit.Lib.Expiring
import Bookit.Lib.Threads
import Mathlib.Data.Int.Notation
import Mathlib.Data.List.Basic

/-!
# CacheAside — a store with a cache beside it, read through and invalidated

Readers look a list up in the cache, load it from the store where they do not find it, and put what
they have loaded into the cache.  Writers change the store, and then delete keys.  Nothing orders
the two: a reader may put a list into the cache that was changed since it was loaded.

The log keeps every version of the store, and with each change the keys that its writer is to
delete.  What is said here is about one key: a cached value fits a set of changes if, for each that
names the key, it is what the store held of its list in a version since.

* `ruled` — the contract: what is cached under the key fits all acknowledged changes;
* `honours_of_run` — which commands keep to it;
* `ensures_fetch`, `ensures_query`, `ensures_put` — the rules of readers;
* `ensures_update` — a writer deletes all keys of its change before it is acknowledged;
* `fulfils` — handlers that keep to the contract keep to it in every careful run.
-/

namespace Bookit
namespace Lib
namespace CacheAside

/-- A store of lists: the key of a list in the cache, what the list holds at a time, the queries
that lists are loaded with, and the changes, each with the keys to delete. -/
structure Schema (L K V Q W σ : Type) (A : Q → Type) where
  key : L → K
  rows : L → ℕ → σ → V
  answer : (q : Q) → ℕ → σ → A q
  change : W → ℕ → σ → Option (σ × List K)

/-- The store, the clock and the cache.  An entry also names the list that it was put for, which no
command reads. -/
structure World (L K V σ : Type) where
  store : σ
  now : ℕ
  cache : Expiring K (L × V)

/-! ## Commands -/

/-- The commands of readers and writers.  `finish` is what else a session does, and can fail in, and
`respond` the answer of a writer. -/
inductive Cmd (L K V Q W : Type) where
  | now
  | get (key : K)
  | set (list : L) (value : V) (ttl : ℕ)
  | del (key : K) (retries : ℕ)
  | query (q : Q)
  | change (w : W)
  | finish
  | respond (success : Bool)

variable {L K V Q W σ : Type} {A : Q → Type}

/-- A command that fails has no reply. -/
abbrev Rep (A : Q → Type) : Cmd L K V Q W → Type
  | .now => ℕ
  | .get _ => Option (Option V)
  | .set _ _ _ => Option Unit
  | .del _ _ => Option Unit
  | .query q => Option (A q)
  | .change _ => Option (Option (List K))
  | .finish => Bool
  | .respond _ => Unit

variable (S : Schema L K V Q W σ A)

def Schema.apply (w : W) (s : World L K V σ) : World L K V σ × Option (List K) :=
  match S.change w s.now s.store with
  | some (store, keys) => ({ s with store := store }, some keys)
  | none => (s, none)

def exec [DecidableEq K] (_ : ℕ) (l : Link) : (c : Cmd L K V Q W) → World L K V σ →
    Option (World L K V σ × Rep A c)
  | .now, s => some (s, s.now)
  | .get k, s => some (l.deliver (fun s => (s, (s.cache.lookup s.now k).map Prod.snd)) s)
  | .set ℓ v ttl, s =>
      some (l.deliver
        (fun s => ({ s with cache := s.cache.put (S.key ℓ) (ℓ, v) (s.now + ttl) }, ())) s)
  | .del k _, s => some (l.deliver (fun s => ({ s with cache := s.cache.del k }, ())) s)
  | .query q, s => some (l.deliver (fun s => (s, S.answer q s.now s.store)) s)
  | .change w, s => some (l.deliver (S.apply w) s)
  | .finish, s => some (s, decide (l = .ok))
  | .respond _, s => some (s, ())

/-! ## Programs -/

/-- Get a key, and again where the command fails. -/
def fetch (k : K) : ℕ → Prog (Rep A : Cmd L K V Q W → Type) (Option V)
  | 0 => do
      let found ← Prog.perform (.get k : Cmd L K V Q W)
      pure (found.getD none)
  | retries + 1 => do
      match ← Prog.perform (.get k : Cmd L K V Q W) with
      | some found => pure found
      | none => fetch k retries

def put (ℓ : L) (v : V) (ttl : ℕ) : ℕ → Prog (Rep A : Cmd L K V Q W → Type) Unit
  | 0 => do
      let _ ← Prog.perform (.set ℓ v ttl : Cmd L K V Q W)
      pure ()
  | retries + 1 => do
      match ← Prog.perform (.set ℓ v ttl : Cmd L K V Q W) with
      | some _ => pure ()
      | none => put ℓ v ttl retries

def invalidate (k : K) : ℕ → Prog (Rep A : Cmd L K V Q W → Type) Unit
  | 0 => do
      let _ ← Prog.perform (.del k 0 : Cmd L K V Q W)
      pure ()
  | retries + 1 => do
      match ← Prog.perform (.del k (retries + 1) : Cmd L K V Q W) with
      | some _ => pure ()
      | none => invalidate k retries

/-- Delete keys one after another. -/
def invalidateAll (retries : ℕ) : List K → Prog (Rep A : Cmd L K V Q W → Type) Unit
  | [] => pure ()
  | k :: ks => do
      invalidate k retries
      invalidateAll retries ks

/-- A writer: whether it is answered with success. -/
def update (retries : ℕ) (w : W) : Prog (Rep A : Cmd L K V Q W → Type) Bool := do
  match ← Prog.perform (.change w : Cmd L K V Q W) with
  | none | some none =>
      Prog.perform (.respond false : Cmd L K V Q W)
      pure false
  | some (some keys) =>
      if ← Prog.perform (.finish : Cmd L K V Q W) then
        invalidateAll retries keys
        Prog.perform (.respond true : Cmd L K V Q W)
        pure true
      else
        Prog.perform (.respond false : Cmd L K V Q W)
        pure false

/-! ## The log -/

/-- A change of the store, and the keys that its writer is to delete. -/
structure Change (K σ : Type) where
  keys : List K
  after : σ

/-- The changes of the store, in order; which of them each session made, and which are acknowledged;
for each session, when it asked, what was acknowledged by then, and the version that it loads
from. -/
structure Log (K σ : Type) where
  first : σ
  changes : List (Change K σ)
  made : ℕ → List ℕ
  acknowledged : List ℕ
  asked : ℕ → Option (ℕ × List ℕ)
  loadedAt : ℕ → Option ℕ

def Log.empty (first : σ) : Log K σ where
  first := first
  changes := []
  made _ := []
  acknowledged := []
  asked _ := none
  loadedAt _ := none

/-- The store after each number of changes. -/
def Log.versions (g : Log K σ) : List σ :=
  g.first :: g.changes.map Change.after

/-- A session asks with its first command. -/
def Log.begin (g : Log K σ) (i now : ℕ) : Log K σ :=
  { g with asked := Function.update g.asked i (some ((g.asked i).getD (now, g.acknowledged))) }

theorem Log.begin_asked_self (g : Log K σ) (i now : ℕ) :
    (g.begin i now).asked i = some ((g.asked i).getD (now, g.acknowledged)) :=
  Function.update_self ..

theorem Log.begin_asked_ne {g : Log K σ} {i j now : ℕ} (h : j ≠ i) :
    (g.begin i now).asked j = g.asked j :=
  Function.update_of_ne h ..

def Log.load (g : Log K σ) (i : ℕ) : Log K σ :=
  { g with
    loadedAt := Function.update g.loadedAt i (some ((g.loadedAt i).getD g.changes.length)) }

def Log.write (g : Log K σ) (i : ℕ) (x : Change K σ) : Log K σ :=
  { g with
    changes := g.changes ++ [x]
    made := Function.update g.made i (g.made i ++ [g.changes.length]) }

def Log.acknowledge (g : Log K σ) (i : ℕ) : Log K σ :=
  { g with acknowledged := g.acknowledged ++ g.made i }

def record (i : ℕ) (l : Link) (c : Cmd L K V Q W) (s : World L K V σ) (g : Log K σ) : Log K σ :=
  match c with
  | .query _ => if l = .ok then (g.begin i s.now).load i else g.begin i s.now
  | .change w =>
      match S.change w s.now s.store with
      | some (store, keys) =>
          if l = .lost then g.begin i s.now else (g.begin i s.now).write i ⟨keys, store⟩
      | none => g.begin i s.now
  | .respond true => (g.begin i s.now).acknowledge i
  | _ => g.begin i s.now

/-! ## Machines -/

/-- Time passes, or a request arrives. -/
inductive Environ (ι : Type) where
  | tick (d : ℕ)
  | request (n : ι)

variable {ι β : Type}

def environ (handler : ι → Prog (Rep A : Cmd L K V Q W → Type) β) :
    Environ ι → World L K V σ →
      Option (World L K V σ × List (ι × Prog (Rep A : Cmd L K V Q W → Type) β))
  | .tick d, s => some ({ s with now := s.now + d }, [])
  | .request n, s => some (s, [(n, handler n)])

/-- Requests against a store that is `first` at the start, and an empty cache. -/
def machine [DecidableEq K] (handler : ι → Prog (Rep A : Cmd L K V Q W → Type) β) (first : σ) :
    Machine (World L K V σ) (Rep A : Cmd L K V Q W → Type) ι β Link (Environ ι) where
  init s := s.store = first ∧ s.cache = Expiring.empty
  exec _ := exec S
  environ := environ handler
  close _ s := s

def logged [DecidableEq K] (handler : ι → Prog (Rep A : Cmd L K V Q W → Type) β) (first : σ) :
    Machine (World L K V σ × Log K σ) (Rep A : Cmd L K V Q W → Type) ι β Link (Environ ι) :=
  (machine S handler first).logged (Log.empty first) fun _ i l c s g => record S i l c s g

/-! ## What fits -/

section Fits

variable (k : K) (p : World L K V σ × Log K σ)

/-- The value is what the list held in a version, at a time that has passed. -/
def Seen (ℓ : L) (v : V) (m : ℕ) : Prop :=
  ∃ s t, p.2.versions[m]? = some s ∧ t ≤ p.1.now ∧ S.rows ℓ t s = v

/-- The value is one of the list after each of these changes, where it names the key. -/
def Fits (cs : List ℕ) (ℓ : L) (v : V) : Prop :=
  ∀ c ∈ cs, ∀ x, p.2.changes[c]? = some x → k ∈ x.keys → ∃ m, c < m ∧ Seen S p ℓ v m

def Live (ℓ : L) (v : V) : Prop :=
  p.1.cache.lookup p.1.now k = some (ℓ, v)

/-- What is cached under the key fits the changes of the session. -/
def Cleared (i : ℕ) : Prop :=
  ∀ ℓ v, Live k p ℓ v → Fits S k p (p.2.made i) ℓ v

/-- For a session that asked at this time: the value is one of a list with this key, and has every
change naming the key that was acknowledged by then. -/
def Fresh (i t : ℕ) (v : V) : Prop :=
  ∃ ℓ cs m, S.key ℓ = k ∧ p.2.asked i = some (t, cs) ∧ Seen S p ℓ v m ∧
    ∀ c ∈ cs, ∃ x, p.2.changes[c]? = some x ∧ (k ∈ x.keys → c < m)

/-- The session loads from this version of the store, which has all that was acknowledged when it
asked. -/
def Loads (i t m : ℕ) (s : σ) : Prop :=
  p.2.loadedAt i = some m ∧ p.2.versions[m]? = some s ∧
    ∃ cs, p.2.asked i = some (t, cs) ∧ ∀ c ∈ cs, c < m

end Fits

/-! ## The contract of a key -/

/-- Nothing changes the store between the loads of a session; no list is put under the key when a
change since its load names the key; and the last attempt to delete the key takes effect. -/
def Careful (k : K) (i : ℕ) (l : Link) (c : Cmd L K V Q W) (p : World L K V σ × Log K σ) : Prop :=
  match c with
  | .query _ => l = .ok → ∀ m ∈ p.2.loadedAt i, m = p.2.changes.length
  | .set ℓ _ _ => S.key ℓ = k → l ≠ .lost → ∀ m ∈ p.2.loadedAt i,
      ∀ x ∈ p.2.changes.drop m, k ∉ x.keys
  | .del k' retries => k' = k → retries = 0 → l ≠ .lost
  | _ => True

instance decidableCareful [DecidableEq K] {k : K} {i : ℕ} {l : Link} {c : Cmd L K V Q W}
    {p : World L K V σ × Log K σ} : Decidable (Careful S k i l c p) := by
  rcases c with _ | k' | ⟨ℓ, v, ttl⟩ | ⟨k', retries⟩ | q | w | _ | _
  · exact isTrue trivial
  · exact isTrue trivial
  · exact inferInstanceAs (Decidable (S.key ℓ = k → l ≠ .lost → ∀ m ∈ p.2.loadedAt i,
      ∀ x ∈ p.2.changes.drop m, k ∉ x.keys))
  · exact inferInstanceAs (Decidable (k' = k → retries = 0 → l ≠ .lost))
  · exact inferInstanceAs (Decidable (l = .ok → ∀ m ∈ p.2.loadedAt i, m = p.2.changes.length))
  · exact isTrue trivial
  · exact isTrue trivial
  · exact isTrue trivial

/-- What is cached under the key is one of its lists' values, and has every acknowledged change. -/
structure Inv (k : K) (p : World L K V σ × Log K σ) : Prop where
  last : p.2.versions[p.2.changes.length]? = some p.1.store
  made : ∀ i, ∀ c ∈ p.2.made i, c < p.2.changes.length
  acknowledged : ∀ c ∈ p.2.acknowledged, c < p.2.changes.length
  entries : ∀ ℓ v, Live k p ℓ v → S.key ℓ = k ∧ (∃ m, Seen S p ℓ v m) ∧
    Fits S k p p.2.acknowledged ℓ v
  asked : ∀ i t cs, p.2.asked i = some (t, cs) → t ≤ p.1.now ∧ cs ⊆ p.2.acknowledged

/-- Versions are added, and nothing is taken back. -/
structure Later (p q : World L K V σ × Log K σ) : Prop where
  now : p.1.now ≤ q.1.now
  first : q.2.first = p.2.first
  changes : p.2.changes <+: q.2.changes
  acknowledged : p.2.acknowledged ⊆ q.2.acknowledged

/-- What a session can rely on. -/
structure Rely (k : K) (i : ℕ) (p q : World L K V σ × Log K σ) : Prop extends Later p q where
  made : q.2.made i = p.2.made i
  asked : q.2.asked i = p.2.asked i
  loadedAt : q.2.loadedAt i = p.2.loadedAt i
  cleared : Cleared S k p i → Cleared S k q i

variable {S} {p q u : World L K V σ × Log K σ} {i j m : ℕ} {k k' : K} {ℓ : L} {v : V} {l : Link}
variable {cs : List ℕ}

theorem Later.refl (p : World L K V σ × Log K σ) : Later p p :=
  ⟨Nat.le_refl _, rfl, List.prefix_rfl, fun _ h => h⟩

theorem Later.trans (h : Later p q) (h' : Later q u) : Later p u where
  now := Nat.le_trans h.now h'.now
  first := h'.first.trans h.first
  changes := h.changes.trans h'.changes
  acknowledged := fun _ hc => h'.acknowledged (h.acknowledged hc)

theorem Later.change (h : Later p q) {c : ℕ} (hc : c < p.2.changes.length) :
    q.2.changes[c]? = p.2.changes[c]? := by
  obtain ⟨rest, hrest⟩ := h.changes
  rw [← hrest, List.getElem?_append_left hc]

theorem Later.version (h : Later p q) {s : σ} (hm : p.2.versions[m]? = some s) :
    q.2.versions[m]? = some s := by
  obtain ⟨rest, hrest⟩ := h.changes
  have hversions : q.2.versions = p.2.versions ++ rest.map Change.after := by
    simp [Log.versions, h.first, ← hrest]
  rw [hversions, List.getElem?_append_left (List.getElem?_eq_some_iff.1 hm).1]
  exact hm

theorem Seen.later (h : Later p q) (hseen : Seen S p ℓ v m) : Seen S q ℓ v m := by
  obtain ⟨s, t, hm, ht, hrows⟩ := hseen
  exact ⟨s, t, h.version hm, Nat.le_trans ht h.now, hrows⟩

theorem Fits.later (h : Later p q) (hcs : ∀ c ∈ cs, c < p.2.changes.length)
    (hfits : Fits S k p cs ℓ v) : Fits S k q cs ℓ v := by
  intro c hc x hx hnames
  rw [h.change (hcs c hc)] at hx
  obtain ⟨m, hlt, hseen⟩ := hfits c hc x hx hnames
  exact ⟨m, hlt, hseen.later h⟩

/-- A value that fits some changes has them all in one version. -/
theorem Fits.version (hfits : Fits S k p cs ℓ v) (hseen : ∃ m, Seen S p ℓ v m) :
    ∃ m, Seen S p ℓ v m ∧ ∀ c ∈ cs, ∀ x, p.2.changes[c]? = some x → k ∈ x.keys → c < m := by
  induction cs with
  | nil =>
      obtain ⟨m, hm⟩ := hseen
      exact ⟨m, hm, fun c hc => absurd hc List.not_mem_nil⟩
  | cons a cs ih =>
      obtain ⟨m, hm, hall⟩ := ih fun c hc => hfits c (List.mem_cons_of_mem a hc)
      by_cases ha : ∃ x, p.2.changes[a]? = some x ∧ k ∈ x.keys
      · obtain ⟨x, hx, hnames⟩ := ha
        obtain ⟨m', hlt, hm'⟩ := hfits a List.mem_cons_self x hx hnames
        -- the later one of the two versions has them all
        by_cases hle : m ≤ m'
        · refine ⟨m', hm', fun c hc y hy hky => ?_⟩
          cases List.mem_cons.1 hc with
          | inl heq => exact heq ▸ hlt
          | inr hc => exact Nat.lt_of_lt_of_le (hall c hc y hy hky) hle
        · refine ⟨m, hm, fun c hc y hy hky => ?_⟩
          cases List.mem_cons.1 hc with
          | inl heq => exact heq ▸ Nat.lt_trans hlt (Nat.lt_of_not_le hle)
          | inr hc => exact hall c hc y hy hky
      · refine ⟨m, hm, fun c hc y hy hky => ?_⟩
        cases List.mem_cons.1 hc with
        | inl heq => exact absurd ⟨y, heq ▸ hy, hky⟩ ha
        | inr hc => exact hall c hc y hy hky

variable {t : ℕ}

theorem Loads.rely (hrely : Rely S k i p q) {s : σ} (h : Loads p i t m s) : Loads q i t m s := by
  obtain ⟨hloaded, hm, cs, hasked, hcs⟩ := h
  exact ⟨hrely.loadedAt.trans hloaded, hrely.version hm, cs, hrely.asked.trans hasked, hcs⟩

theorem Fresh.later (hlater : Later p q) (hasked : q.2.asked i = p.2.asked i)
    (h : Fresh S k p i t v) : Fresh S k q i t v := by
  obtain ⟨ℓ, cs, m, hkey, hcs, hseen, hall⟩ := h
  refine ⟨ℓ, cs, m, hkey, hasked.trans hcs, hseen.later hlater, fun c hc => ?_⟩
  obtain ⟨x, hx, hnames⟩ := hall c hc
  exact ⟨x, (hlater.change (List.getElem?_eq_some_iff.1 hx).1).trans hx, hnames⟩

/-- What is cached is fresh. -/
theorem fresh_of_live (hI : Inv S k p) (hlive : Live k p ℓ v)
    (hasked : p.2.asked i = some (t, cs)) : Fresh S k p i t v := by
  obtain ⟨hkey, hseen, hfits⟩ := hI.entries ℓ v hlive
  have hcs := (hI.asked i t cs hasked).2
  obtain ⟨m, hm, hall⟩ := Fits.version (fun c hc => hfits c (hcs hc)) hseen
  refine ⟨ℓ, cs, m, hkey, hasked, hm, fun c hc => ?_⟩
  have hx := List.getElem?_eq_getElem (hI.acknowledged c (hcs hc))
  exact ⟨_, hx, hall c hc _ hx⟩

/-- The session asked at this time. -/
def Started (i t : ℕ) (p : World L K V σ × Log K σ) : Prop :=
  ∃ cs, p.2.asked i = some (t, cs)

variable (S) in
/-- A value of the list, as the session loaded it. -/
def Loaded (i t : ℕ) (ℓ : L) (v : V) (p : World L K V σ × Log K σ) : Prop :=
  ∃ m s t', Loads p i t m s ∧ t' ≤ p.1.now ∧ S.rows ℓ t' s = v

/-- What was loaded is fresh. -/
theorem Loaded.fresh (h : Loaded S i t ℓ v p) (hkey : S.key ℓ = k) : Fresh S k p i t v := by
  obtain ⟨m, s, t', ⟨-, hm, cs, hasked, hcs⟩, ht, hv⟩ := h
  refine ⟨ℓ, cs, m, hkey, hasked, ⟨s, t', hm, ht, hv⟩, fun c hc => ?_⟩
  have hlt : c < p.2.changes.length := by
    have hm' := (List.getElem?_eq_some_iff.1 hm).1
    rw [Log.versions, List.length_cons, List.length_map] at hm'
    exact Nat.lt_of_lt_of_le (hcs c hc) (Nat.le_of_lt_succ hm')
  exact ⟨_, List.getElem?_eq_getElem hlt, fun _ => hcs c hc⟩

theorem Started.rely (h : Started i t p) (hrely : Rely S k i p q) : Started i t q := by
  obtain ⟨cs, hcs⟩ := h
  exact ⟨cs, hrely.asked.trans hcs⟩

theorem Loaded.rely (h : Loaded S i t ℓ v p) (hrely : Rely S k i p q) : Loaded S i t ℓ v q := by
  obtain ⟨m, s, t', hloads, ht, hv⟩ := h
  exact ⟨m, s, t', hloads.rely hrely, Nat.le_trans ht hrely.now, hv⟩

/-- What a session knows after it has looked a key up. -/
structure LookedUp (S : Schema L K V Q W σ A) (k : K) (i : ℕ) (k' : K)
    (p : World L K V σ × Log K σ) (found : Option V) (q : World L K V σ × Log K σ) (t : ℕ) :
    Prop where
  started : Started i t q
  same : ∀ t', Started i t' p → t = t'
  loadedAt : q.2.loadedAt i = p.2.loadedAt i
  fresh : k' = k → ∀ v, found = some v → Fresh S k q i t v

theorem LookedUp.rely {found : Option V} (h : LookedUp S k i k' p found q t)
    (hrely : Rely S k i q u) : LookedUp S k i k' p found u t :=
  ⟨h.started.rely hrely, h.same, hrely.loadedAt.trans h.loadedAt,
    fun hk v hv => (h.fresh hk v hv).later hrely.toLater hrely.asked⟩

variable (S) in
/-- The change with this number is one of the request. -/
def ChangeOf (w : W) (p : World L K V σ × Log K σ) (c : ℕ) : Prop :=
  ∃ x t s, p.2.changes[c]? = some x ∧ p.2.versions[c]? = some s ∧
    S.change w t s = some (x.after, x.keys)

theorem ChangeOf.later {w : W} {c : ℕ} (hlater : Later p q) (h : ChangeOf S w p c) :
    ChangeOf S w q c := by
  obtain ⟨x, t, s, hx, hs, hchange⟩ := h
  exact ⟨x, t, s, (hlater.change (List.getElem?_eq_some_iff.1 hx).1).trans hx, hlater.version hs,
    hchange⟩

/-- The session has made its change; what is cached has it, or the key is still to delete. -/
structure Owing (S : Schema L K V Q W σ A) (k : K) (w : W) (i : ℕ) (keys : List K)
    (p : World L K V σ × Log K σ) : Prop where
  made : ∃ c ∈ p.2.made i, ChangeOf S w p c
  owed : k ∈ keys ∨ Cleared S k p i

theorem Owing.rely {w : W} {keys : List K} (hrely : Rely S k i p q) (h : Owing S k w i keys p) :
    Owing S k w i keys q := by
  obtain ⟨⟨c, hc, hof⟩, howed⟩ := h
  exact ⟨⟨c, hrely.made.symm ▸ hc, hof.later hrely.toLater⟩, howed.imp_right hrely.cleared⟩

variable (S) in
/-- A change of the request is acknowledged. -/
def Acknowledged (w : W) (p : World L K V σ × Log K σ) : Prop :=
  ∃ c ∈ p.2.acknowledged, ChangeOf S w p c

theorem Acknowledged.later {w : W} (hlater : Later p q) (h : Acknowledged S w p) :
    Acknowledged S w q := by
  obtain ⟨c, hc, hof⟩ := h
  exact ⟨c, hlater.acknowledged hc, hof.later hlater⟩

variable (S k) in
/-- What is cached under the key was cached before, or has all changes that name it. -/
def Puts (p q : World L K V σ × Log K σ) : Prop :=
  ∀ ℓ v, Live k q ℓ v → Live k p ℓ v ∨ (S.key ℓ = k ∧ ∃ m, Seen S q ℓ v m ∧
    ∀ c x, q.2.changes[c]? = some x → k ∈ x.keys → c < m)

theorem Puts.fits (hputs : Puts S k p q) (hlater : Later p q)
    (hcs : ∀ c ∈ cs, c < p.2.changes.length) (hfits : Live k p ℓ v → Fits S k p cs ℓ v)
    (hlive : Live k q ℓ v) : Fits S k q cs ℓ v := by
  cases hputs ℓ v hlive with
  | inl hold => exact (hfits hold).later hlater hcs
  | inr hnew =>
      obtain ⟨-, m, hseen, hall⟩ := hnew
      exact fun c _ x hx hnames => ⟨m, hall c x hx hnames, hseen⟩

theorem Puts.cleared (hI : Inv S k p) (hputs : Puts S k p q) (hlater : Later p q)
    (hmade : q.2.made i = p.2.made i) (h : Cleared S k p i) : Cleared S k q i := by
  intro ℓ v hlive
  rw [hmade]
  exact hputs.fits hlater (hI.made i) (h ℓ v) hlive

theorem Puts.seen (hI : Inv S k p) (hputs : Puts S k p q) (hlater : Later p q)
    (hlive : Live k q ℓ v) : S.key ℓ = k ∧ ∃ m, Seen S q ℓ v m := by
  cases hputs ℓ v hlive with
  | inl hold =>
      obtain ⟨hkey, ⟨m, hm⟩, -⟩ := hI.entries ℓ v hold
      exact ⟨hkey, m, hm.later hlater⟩
  | inr hnew =>
      obtain ⟨hkey, m, hseen, -⟩ := hnew
      exact ⟨hkey, m, hseen⟩

theorem Puts.acknowledged (hI : Inv S k p) (hputs : Puts S k p q) (hlater : Later p q)
    (hack : q.2.acknowledged = p.2.acknowledged) (hlive : Live k q ℓ v) :
    Fits S k q q.2.acknowledged ℓ v := by
  rw [hack]
  exact hputs.fits hlater hI.acknowledged (fun hold => (hI.entries ℓ v hold).2.2) hlive

/-! ### Versions -/

/-- Each version follows from the one before by a change. -/
structure Grown (S : Schema L K V Q W σ A) (first : σ) (p : World L K V σ × Log K σ) : Prop where
  first : p.2.first = first
  last : p.2.versions[p.2.changes.length]? = some p.1.store
  changes : ∀ (c : ℕ) (x : Change K σ), p.2.changes[c]? = some x →
    ∃ w t s, p.2.versions[c]? = some s ∧ S.change w t s = some (x.after, x.keys)

/-- What every change keeps of the store holds of every version from the first that it holds of. -/
theorem Grown.kept {I : σ → Prop} {first : σ} (h : Grown S first p)
    (hI : ∀ w t s s' keys, I s → S.change w t s = some (s', keys) → I s') {s : σ}
    (hm : p.2.versions[m]? = some s) (hs : I s) {m' : ℕ} (hle : m ≤ m') {s' : σ}
    (hm' : p.2.versions[m']? = some s') : I s' := by
  induction hle generalizing s' with
  | refl => exact Option.some.inj (hm.symm.trans hm') ▸ hs
  | step hle ih =>
      rename_i c
      have hx : (p.2.changes.map Change.after)[c]? = some s' := hm'
      rw [List.getElem?_map, Option.map_eq_some_iff] at hx
      obtain ⟨x, hx, rfl⟩ := hx
      obtain ⟨w, t, s₀, hs₀, hchange⟩ := h.changes c x hx
      exact hI w t s₀ x.after x.keys (ih hs₀) hchange

/-- What holds of the store at the start, and is kept by every change, holds of every version. -/
theorem Grown.always {I : σ → Prop} {first : σ} (h : Grown S first p)
    (hI : ∀ w t s s' keys, I s → S.change w t s = some (s', keys) → I s') (hfirst : I first) {s : σ}
    (hm : p.2.versions[m]? = some s) : I s :=
  h.kept hI (m := 0) (congrArg some h.first) hfirst (Nat.zero_le m) hm

theorem Log.version_of_change {g : Log K σ} {c : ℕ} {x : Change K σ}
    (h : g.changes[c]? = some x) : g.versions[c + 1]? = some x.after := by
  rw [Log.versions, List.getElem?_cons_succ, List.getElem?_map, h]
  rfl

/-! ### Time -/

def pass (p : World L K V σ × Log K σ) (d : ℕ) : World L K V σ × Log K σ :=
  ({ p.1 with now := p.1.now + d }, p.2)

theorem later_pass (p : World L K V σ × Log K σ) (d : ℕ) : Later p (pass p d) :=
  ⟨Nat.le_add_right _ _, rfl, List.prefix_rfl, fun _ h => h⟩

/-- Time that passes takes values out of the cache at most. -/
theorem puts_pass (p : World L K V σ × Log K σ) (d : ℕ) : Puts S k p (pass p d) :=
  fun _ _ hlive => .inl (Expiring.lookup_of_later (Nat.le_add_right _ _) hlive)

theorem Inv.pass (hI : Inv S k p) (d : ℕ) : Inv S k (pass p d) where
  last := hI.last
  made := hI.made
  acknowledged := hI.acknowledged
  entries := fun _ _ hlive =>
    have hseen := (puts_pass p d).seen hI (later_pass p d) hlive
    ⟨hseen.1, hseen.2, (puts_pass p d).acknowledged hI (later_pass p d) rfl hlive⟩
  asked := fun i t cs h =>
    ⟨Nat.le_trans (hI.asked i t cs h).1 (Nat.le_add_right _ _), (hI.asked i t cs h).2⟩

theorem rely_pass (hI : Inv S k p) (d j : ℕ) : Rely S k j p (CacheAside.pass p d) where
  toLater := later_pass p d
  made := rfl
  asked := rfl
  loadedAt := rfl
  cleared := fun h => (puts_pass p d).cleared hI (later_pass p d) rfl h

/-! ## The steps of a session -/

variable (S) in
/-- A command with its record. -/
def run [DecidableEq K] : Exec (World L K V σ × Log K σ) (Rep A : Cmd L K V Q W → Type) Link :=
  fun i l c p => (exec S i l c p.1).map fun x => ((x.1, record S i l c p.1 p.2), x.2)

variable (S k) in
/-- The contract of readers and writers. -/
def ruled (ι : Type) :
    Contract (World L K V σ × Log K σ) (Rep A : Cmd L K V Q W → Type) ι Link where
  inv := Inv S k
  rely := Rely S k
  guar _ _ _ := True
  allowed _ := Careful S k
  rely_refl _ p := ⟨Later.refl p, rfl, rfl, rfl, id⟩
  rely_trans _ _ _ _ h h' :=
    ⟨h.toLater.trans h'.toLater, h'.made.trans h.made, h'.asked.trans h.asked,
      h'.loadedAt.trans h.loadedAt, fun hk => h'.cleared (h.cleared hk)⟩

/-- What a session's own command leaves of the log. -/
structure OwnStep (i : ℕ) (p q : World L K V σ × Log K σ) : Prop extends Later p q where
  asked : q.2.asked i = some ((p.2.asked i).getD (p.1.now, p.2.acknowledged))
  others : ∀ j, j ≠ i → q.2.made j = p.2.made j ∧ q.2.asked j = p.2.asked j ∧
    q.2.loadedAt j = p.2.loadedAt j

variable {c : Cmd L K V Q W} {r : Rep A c} {n : ι}

theorem record_induction {P : Log K σ → Prop} {s : World L K V σ} {g : Log K σ}
    (hbegin : P (g.begin i s.now)) (hload : P ((g.begin i s.now).load i))
    (hwrite : ∀ x, P ((g.begin i s.now).write i x))
    (hacknowledge : P ((g.begin i s.now).acknowledge i)) : P (record S i l c s g) := by
  cases c with
  | query q =>
      simp only [record]
      split_ifs
      · exact hload
      · exact hbegin
  | change w =>
      simp only [record]
      split
      · split_ifs
        · exact hbegin
        · exact hwrite _
      · exact hbegin
  | respond success =>
      cases success with
      | true => exact hacknowledge
      | false => exact hbegin
  | _ => exact hbegin

/-- A command that changes nothing but the cache, and acknowledges nothing. -/
structure Still (p q : World L K V σ × Log K σ) : Prop where
  store : q.1.store = p.1.store
  changes : q.2.changes = p.2.changes
  first : q.2.first = p.2.first
  acknowledged : q.2.acknowledged = p.2.acknowledged
  made : q.2.made = p.2.made

theorem still_of_begin (hstore : q.1.store = p.1.store) (hlog : q.2 = p.2.begin i p.1.now) :
    Still p q := by
  refine ⟨hstore, ?_, ?_, ?_, ?_⟩ <;> rw [hlog] <;> rfl

theorem puts_of_eq (h : q.1 = p.1) : Puts S k p q := by
  intro ℓ v hlive
  unfold Live at hlive ⊢
  rw [h] at hlive
  exact .inl hlive

/-- A request that is not lost takes effect. -/
theorem eq_of_deliver {σ ρ : Type} {l : Link} {f : σ → σ × ρ} {s t : σ} {r : Option ρ}
    (h : some (l.deliver f s) = some (t, r)) : t = if l = .lost then s else (f s).1 := by
  cases l <;> exact (congrArg Prod.fst (Option.some.inj h)).symm

variable [DecidableEq K]

theorem run_eq_some : run S i l c p = some (q, r) ↔
    exec S i l c p.1 = some (q.1, r) ∧ q.2 = record S i l c p.1 p.2 := by
  obtain ⟨s, g⟩ := q
  simp only [run, Option.map_eq_some_iff, Prod.mk.injEq]
  constructor
  · rintro ⟨⟨s', r'⟩, h, ⟨rfl, rfl⟩, rfl⟩
    exact ⟨h, rfl⟩
  · rintro ⟨h, rfl⟩
    exact ⟨(s, r), h, ⟨rfl, rfl⟩, rfl⟩

theorem now_of_exec {s t : World L K V σ} (h : exec S i l c s = some (t, r)) : t.now = s.now := by
  cases c <;> cases l <;> simp only [exec, Link.deliver, Schema.apply] at h <;>
    obtain ⟨rfl, -⟩ := Prod.mk.inj (Option.some.inj h) <;> first | rfl | (split <;> rfl)

theorem ownStep_of_run (h : run S i l c p = some (q, r)) : OwnStep i p q := by
  obtain ⟨hexec, hlog⟩ := run_eq_some.1 h
  have hnow := now_of_exec hexec
  have hstep : ∀ g : Log K σ, g.first = p.2.first → p.2.changes <+: g.changes →
      p.2.acknowledged ⊆ g.acknowledged → g.asked = (p.2.begin i p.1.now).asked →
      (∀ j, j ≠ i → g.made j = p.2.made j ∧ g.loadedAt j = p.2.loadedAt j) →
      q.2 = g → OwnStep i p q := by
    rintro _ hfirst hchanges hack hasked hothers rfl
    refine ⟨⟨Nat.le_of_eq hnow.symm, hfirst, hchanges, hack⟩, ?_, fun j hj => ?_⟩
    · rw [hasked, Log.begin_asked_self]
    · exact ⟨(hothers j hj).1, by rw [hasked, Log.begin_asked_ne hj], (hothers j hj).2⟩
  revert hlog
  refine record_induction (S := S) (c := c) (P := fun g => q.2 = g → OwnStep i p q) ?_ ?_ ?_ ?_
  · exact hstep _ rfl List.prefix_rfl (fun _ h => h) rfl fun _ _ => ⟨rfl, rfl⟩
  · refine hstep _ rfl List.prefix_rfl (fun _ h => h) rfl fun j hj => ⟨rfl, ?_⟩
    simp only [Log.load, Function.update_of_ne hj, Log.begin]
  · intro x
    refine hstep _ rfl (List.prefix_append _ _) (fun _ h => h) rfl fun j hj => ⟨?_, rfl⟩
    simp only [Log.write, Function.update_of_ne hj, Log.begin]
  · exact hstep _ rfl List.prefix_rfl (fun _ h => List.mem_append_left _ h) rfl
      fun _ _ => ⟨rfl, rfl⟩

/-- A step that keeps the versions, and puts nothing else into the cache than what has all changes,
is within the contract. -/
theorem honours_of (hI : Inv S k p) (hrun : run S i l c p = some (q, r))
    (hlast : q.2.versions[q.2.changes.length]? = some q.1.store) (hputs : Puts S k p q)
    (hmade : ∀ c ∈ q.2.made i, c < q.2.changes.length)
    (hack : ∀ c ∈ q.2.acknowledged, c < q.2.changes.length)
    (hfits : ∀ ℓ v, Live k q ℓ v → Fits S k q q.2.acknowledged ℓ v) :
    (ruled S k ι : Contract _ (Rep A : Cmd L K V Q W → Type) ι Link).Honours n i p q := by
  have hown := ownStep_of_run hrun
  have hlater := hown.toLater
  refine ⟨⟨hlast, fun j => ?_, hack, fun ℓ v hlive => ?_, fun j t cs hj => ?_⟩, trivial,
    fun j hj => ?_⟩
  · by_cases hji : j = i
    · rw [hji]
      exact hmade
    · rw [(hown.others j hji).1]
      exact fun c hc => Nat.lt_of_lt_of_le (hI.made j c hc) hlater.changes.length_le
  · have hseen := hputs.seen hI hlater hlive
    exact ⟨hseen.1, hseen.2, hfits ℓ v hlive⟩
  · by_cases hji : j = i
    · subst hji
      rw [hown.asked] at hj
      cases hold : p.2.asked j with
      | none =>
          rw [hold] at hj
          obtain ⟨rfl, rfl⟩ := Prod.mk.inj (Option.some.inj hj)
          exact ⟨hlater.now, hlater.acknowledged⟩
      | some x =>
          rw [hold] at hj
          obtain rfl := Option.some.inj hj
          exact ⟨Nat.le_trans (hI.asked j _ _ hold).1 hlater.now,
            fun _ hc => hlater.acknowledged ((hI.asked j _ _ hold).2 hc)⟩
    · rw [(hown.others j hji).2.1] at hj
      exact ⟨Nat.le_trans (hI.asked j t cs hj).1 hlater.now,
        fun _ hc => hlater.acknowledged ((hI.asked j t cs hj).2 hc)⟩
  · obtain ⟨hmadej, haskedj, hloadedj⟩ := hown.others j hj
    exact ⟨hlater, hmadej, haskedj, hloadedj, hputs.cleared hI hlater hmadej⟩

theorem Still.honours (h : Still p q) (hI : Inv S k p) (hrun : run S i l c p = some (q, r))
    (hputs : Puts S k p q) :
    (ruled S k ι : Contract _ (Rep A : Cmd L K V Q W → Type) ι Link).Honours n i p q := by
  have hlater := (ownStep_of_run hrun).toLater
  have hversions : q.2.versions = p.2.versions := by
    rw [Log.versions, Log.versions, h.changes, h.first]
  refine honours_of hI hrun ?_ hputs ?_ ?_ fun ℓ v hlive =>
    hputs.acknowledged hI hlater h.acknowledged hlive
  · rw [hversions, h.changes, h.store]
    exact hI.last
  · rw [h.made, h.changes]
    exact hI.made i
  · rw [h.acknowledged, h.changes]
    exact hI.acknowledged

variable (S k) in
/-- What a session has to know before it puts a value, and before it answers. -/
def Owes (i : ℕ) (c : Cmd L K V Q W) (p : World L K V σ × Log K σ) : Prop :=
  match c with
  | .set ℓ v _ => S.key ℓ = k → ∃ m, p.2.loadedAt i = some m ∧ Seen S p ℓ v m
  | .respond true => Cleared S k p i
  | _ => True

/-- A change that takes effect adds a version. -/
theorem honours_change {s : σ} {keys : List K} (hI : Inv S k p)
    (hrun : run S i l c p = some (q, r))
    (hworld : q.1 = { p.1 with store := s })
    (hlog : q.2 = (p.2.begin i p.1.now).write i ⟨keys, s⟩) :
    (ruled S k ι : Contract _ (Rep A : Cmd L K V Q W → Type) ι Link).Honours n i p q := by
  have hlater := (ownStep_of_run hrun).toLater
  have hchanges : q.2.changes = p.2.changes ++ [⟨keys, s⟩] := by
    rw [hlog]
    rfl
  have hlength : q.2.changes.length = p.2.changes.length + 1 := by
    rw [hchanges, List.length_append, List.length_singleton]
  have hputs : Puts S k p q := by
    intro ℓ v hlive
    unfold Live at hlive ⊢
    rw [hworld] at hlive
    exact .inl hlive
  have hack : q.2.acknowledged = p.2.acknowledged := by
    rw [hlog]
    rfl
  refine honours_of hI hrun ?_ hputs ?_ ?_ fun ℓ v hlive =>
    hputs.acknowledged hI hlater hack hlive
  · rw [hlength, Log.versions, hchanges, hworld, List.map_append, List.getElem?_cons_succ,
      List.getElem?_append_right (Nat.le_of_eq (List.length_map _)), List.length_map, Nat.sub_self]
    rfl
  · intro c hc
    rw [hlog] at hc
    simp only [Log.write, Log.begin, Function.update_self, List.mem_append,
      List.mem_singleton] at hc
    rw [hlength]
    cases hc with
    | inl hc => exact Nat.lt_succ_of_lt (hI.made i c hc)
    | inr hc => exact hc ▸ Nat.lt_succ_self _
  · intro c hc
    rw [hack] at hc
    rw [hlength]
    exact Nat.lt_succ_of_lt (hI.acknowledged c hc)

/-- An answer acknowledges the changes of the session, which what is cached has by then. -/
theorem honours_respond {r : Unit} (hI : Inv S k p)
    (hrun : run S i l (.respond true : Cmd L K V Q W) p = some (q, r))
    (howes : Cleared S k p i) (hworld : q.1 = p.1)
    (hlog : q.2 = (p.2.begin i p.1.now).acknowledge i) :
    (ruled S k ι : Contract _ (Rep A : Cmd L K V Q W → Type) ι Link).Honours n i p q := by
  have hlater := (ownStep_of_run hrun).toLater
  have hchanges : q.2.changes = p.2.changes := by
    rw [hlog]
    rfl
  have hversions : q.2.versions = p.2.versions := by
    rw [hlog]
    rfl
  have hack : q.2.acknowledged = p.2.acknowledged ++ p.2.made i := by
    rw [hlog]
    rfl
  have hlive : ∀ ℓ v, Live k q ℓ v → Live k p ℓ v := by
    intro ℓ v hlive
    unfold Live at hlive ⊢
    rw [hworld] at hlive
    exact hlive
  have hbound : ∀ c ∈ p.2.acknowledged ++ p.2.made i, c < p.2.changes.length := by
    intro c hc
    cases List.mem_append.1 hc with
    | inl hc => exact hI.acknowledged c hc
    | inr hc => exact hI.made i c hc
  refine honours_of hI hrun ?_ (puts_of_eq hworld) ?_ ?_ fun ℓ v h => ?_
  · rw [hversions, hchanges, hworld]
    exact hI.last
  · rw [hlog]
    exact hI.made i
  · rw [hack, hchanges]
    exact hbound
  · rw [hack]
    refine Fits.later hlater hbound fun c hc => ?_
    cases List.mem_append.1 hc with
    | inl hc => exact (hI.entries ℓ v (hlive ℓ v h)).2.2 c hc
    | inr hc => exact howes ℓ v (hlive ℓ v h) c hc

/-- What a session puts under the key has all changes that name it. -/
theorem puts_set {ttl : ℕ} {r : Option Unit}
    (hrun : run S i l (.set ℓ v ttl : Cmd L K V Q W) p = some (q, r))
    (hcareful : Careful S k i l (.set ℓ v ttl : Cmd L K V Q W) p)
    (howes : S.key ℓ = k → ∃ m, p.2.loadedAt i = some m ∧ Seen S p ℓ v m) : Puts S k p q := by
  obtain ⟨hexec, hlog⟩ := run_eq_some.1 hrun
  have hlater := (ownStep_of_run hrun).toLater
  have hworld := eq_of_deliver hexec
  split_ifs at hworld with hlost
  · exact puts_of_eq hworld
  · intro ℓ' v' hlive
    unfold Live at hlive ⊢
    rw [hworld] at hlive
    by_cases hk : k = S.key ℓ
    · subst hk
      obtain ⟨m, hm, hseen⟩ := howes rfl
      rw [Expiring.lookup_put_self (Nat.le_add_right _ _)] at hlive
      obtain ⟨rfl, rfl⟩ := Prod.mk.inj (Option.some.inj hlive)
      refine .inr ⟨rfl, m, hseen.later hlater, fun c x hx hnames => ?_⟩
      have hx : p.2.changes[c]? = some x := by
        rw [hlog] at hx
        exact hx
      by_contra hle
      have hmem : x ∈ p.2.changes.drop m := by
        refine List.mem_of_getElem? (i := c - m) ?_
        rw [List.getElem?_drop, Nat.add_sub_cancel' (Nat.le_of_not_lt hle), hx]
      exact hcareful rfl hlost m hm x hmem hnames
    · rw [Expiring.lookup_put_ne hk] at hlive
      exact .inl hlive

theorem puts_del {retries : ℕ} {r : Option Unit}
    (hrun : run S i l (.del k' retries : Cmd L K V Q W) p = some (q, r)) : Puts S k p q := by
  obtain ⟨hexec, -⟩ := run_eq_some.1 hrun
  have hworld := eq_of_deliver hexec
  split_ifs at hworld
  · exact puts_of_eq hworld
  · intro ℓ v hlive
    unfold Live at hlive ⊢
    rw [hworld] at hlive
    by_cases hk : k = k'
    · subst hk
      rw [Expiring.lookup_del_self] at hlive
      cases hlive
    · rw [Expiring.lookup_del_ne hk] at hlive
      exact .inl hlive

/-- Whatever a careful command leaves under the key was there, or has all changes that name it. -/
theorem puts_of_run (hcareful : Careful S k i l c p) (howes : Owes S k i c p)
    (hrun : run S i l c p = some (q, r)) : Puts S k p q := by
  have hexec := (run_eq_some.1 hrun).1
  cases c with
  | set ℓ v ttl => exact puts_set hrun hcareful howes
  | del k' retries => exact puts_del hrun
  | change w =>
      have hworld := eq_of_deliver hexec
      have hcache : (S.apply w p.1).1.cache = p.1.cache := by
        unfold Schema.apply
        split <;> rfl
      have hnow := now_of_exec hexec
      intro ℓ v hlive
      refine .inl ?_
      unfold Live at hlive ⊢
      rw [hnow, hworld] at hlive
      split_ifs at hlive
      · exact hlive
      · rw [hcache] at hlive
        exact hlive
  | get k' =>
      have hworld := eq_of_deliver hexec
      rw [ite_self] at hworld
      exact puts_of_eq hworld
  | query q' =>
      have hworld := eq_of_deliver hexec
      rw [ite_self] at hworld
      exact puts_of_eq hworld
  | _ => exact puts_of_eq (congrArg Prod.fst (Option.some.inj hexec)).symm

/-- A command makes a change, acknowledges, or does neither. -/
theorem effect_of_run (hrun : run S i l c p = some (q, r)) (hc : c ≠ .respond true) :
    Still p q ∨ ∃ w s keys, S.change w p.1.now p.1.store = some (s, keys) ∧
      q.1 = { p.1 with store := s } ∧ q.2 = (p.2.begin i p.1.now).write i ⟨keys, s⟩ := by
  obtain ⟨hexec, hlog⟩ := run_eq_some.1 hrun
  cases c with
  | change w =>
      have hworld := eq_of_deliver hexec
      simp only [record] at hlog
      cases hchange : S.change w p.1.now p.1.store with
      | none =>
          have happly : S.apply w p.1 = (p.1, none) := by
            simp only [Schema.apply, hchange]
          rw [happly, ite_self] at hworld
          rw [hchange] at hlog
          exact .inl (still_of_begin (congrArg World.store hworld) hlog)
      | some x =>
          obtain ⟨s, keys⟩ := x
          have happly : S.apply w p.1 = ({ p.1 with store := s }, some keys) := by
            simp only [Schema.apply, hchange]
          rw [happly] at hworld
          rw [hchange] at hlog
          dsimp only at hlog
          split_ifs at hworld hlog
          · exact .inl (still_of_begin (congrArg World.store hworld) hlog)
          · exact .inr ⟨w, s, keys, hchange, hworld, hlog⟩
  | query q' =>
      have hworld := eq_of_deliver hexec
      rw [ite_self] at hworld
      have hstore := congrArg World.store hworld
      simp only [record] at hlog
      split_ifs at hlog
      · refine .inl ⟨hstore, ?_, ?_, ?_, ?_⟩ <;> rw [hlog] <;> rfl
      · exact .inl (still_of_begin hstore hlog)
  | set ℓ v ttl =>
      refine .inl (still_of_begin ?_ hlog)
      rw [eq_of_deliver hexec]
      split_ifs <;> rfl
  | del k' retries =>
      refine .inl (still_of_begin ?_ hlog)
      rw [eq_of_deliver hexec]
      split_ifs <;> rfl
  | get k' =>
      have hworld := eq_of_deliver hexec
      rw [ite_self] at hworld
      exact .inl (still_of_begin (congrArg World.store hworld) hlog)
  | respond success =>
      cases success with
      | true => exact absurd rfl hc
      | false =>
          have hworld := (congrArg Prod.fst (Option.some.inj hexec)).symm
          exact .inl (still_of_begin (congrArg World.store hworld) hlog)
  | _ =>
      have hworld := (congrArg Prod.fst (Option.some.inj hexec)).symm
      exact .inl (still_of_begin (congrArg World.store hworld) hlog)

/-- A careful command of a session that knows what it has to is within the contract. -/
theorem honours_of_run (hI : Inv S k p) (hcareful : Careful S k i l c p) (howes : Owes S k i c p)
    (hrun : run S i l c p = some (q, r)) :
    (ruled S k ι : Contract _ (Rep A : Cmd L K V Q W → Type) ι Link).Honours n i p q := by
  have hputs := puts_of_run hcareful howes hrun
  by_cases hc : c = .respond true
  · subst hc
    obtain ⟨hexec, hlog⟩ := run_eq_some.1 hrun
    have hworld := (congrArg Prod.fst (Option.some.inj hexec)).symm
    exact honours_respond hI hrun howes hworld hlog
  · rcases effect_of_run hrun hc with hstill | ⟨w, s, keys, -, hworld, hlog⟩
    · exact hstill.honours hI hrun hputs
    · exact honours_change hI hrun hworld hlog

/-! ## Readers -/

/-- The contract of a session, with its record. -/
abbrev Ensures {β : Type} (S : Schema L K V Q W σ A) (k : K) (n : ι) (i : ℕ)
    (P : β → World L K V σ × Log K σ → Prop) (prog : Prog (Rep A : Cmd L K V Q W → Type) β)
    (p : World L K V σ × Log K σ) : Prop :=
  (ruled S k ι).Ensures (run S) n i P prog p

variable {β : Type} {P : β → World L K V σ × Log K σ → Prop}

/-- The rule of a command. -/
theorem ensures_call {c : Cmd L K V Q W} {f : Rep A c → Prog (Rep A : Cmd L K V Q W → Type) β}
    (howes : ∀ p', Rely S k i p p' → Inv S k p' → Owes S k i c p')
    (hf : ∀ p' l q r, Rely S k i p p' → Inv S k p' → Careful S k i l c p' →
      run S i l c p' = some (q, r) → Inv S k q → Ensures S k n i P (f r) q) :
    Ensures S k n i P (.call c f) p := by
  refine .call fun p' hrely hI l hcareful q r hrun => ?_
  have hhonours := honours_of_run (n := n) hI hcareful (howes p' hrely hI) hrun
  exact ⟨hhonours, hf p' l q r hrely hI hcareful hrun hhonours.inv⟩

theorem loadedAt_of_run (hc : ∀ q, c ≠ .query q) (hrun : run S i l c p = some (q, r)) :
    q.2.loadedAt = p.2.loadedAt := by
  rw [(run_eq_some.1 hrun).2]
  cases c with
  | query q => exact absurd rfl (hc q)
  | change w =>
      simp only [record]
      split
      · split_ifs <;> rfl
      · rfl
  | respond success => cases success <;> rfl
  | _ => rfl

theorem made_of_run (hc : ∀ w, c ≠ .change w) (hrun : run S i l c p = some (q, r)) :
    q.2.made = p.2.made := by
  rw [(run_eq_some.1 hrun).2]
  cases c with
  | change w => exact absurd rfl (hc w)
  | query q =>
      simp only [record]
      split_ifs <;> rfl
  | respond success => cases success <;> rfl
  | _ => rfl

/-- What a session has asked, it goes on with; and it has asked with its first command. -/
theorem started_of_run (hrun : run S i l c p = some (q, r)) :
    ∃ t, Started i t q ∧ ∀ t', Started i t' p → t = t' := by
  have hasked := (ownStep_of_run hrun).asked
  cases h : p.2.asked i with
  | none =>
      rw [h] at hasked
      exact ⟨_, ⟨_, hasked⟩, fun t' ⟨cs, ht'⟩ => by rw [h] at ht'; cases ht'⟩
  | some x =>
      obtain ⟨t, cs⟩ := x
      rw [h] at hasked
      refine ⟨t, ⟨cs, hasked⟩, fun t' ⟨cs', ht'⟩ => ?_⟩
      rw [h] at ht'
      exact congrArg Prod.fst (Option.some.inj ht')

/-- A session whose first command reads the clock asks at that time. -/
theorem ensures_now {f : ℕ → Prog (Rep A : Cmd L K V Q W → Type) β}
    (h : ∀ t q, t ≤ q.1.now → (∀ t₀, Started i t₀ p → Started i t₀ q) →
      (p.2.asked i = none → Started i t q) → q.2.loadedAt i = p.2.loadedAt i →
      Ensures S k n i P (f t) q) :
    Ensures S k n i P (.call (.now : Cmd L K V Q W) f) p := by
  refine ensures_call (fun _ _ _ => trivial) fun p' l q r hrely _ _ hrun _ => ?_
  have hexec := (run_eq_some.1 hrun).1
  have hasked := (ownStep_of_run hrun).asked
  have hnow : p'.1.now = r := congrArg Prod.snd (Option.some.inj hexec)
  have hloaded := congrFun (loadedAt_of_run (fun _ heq => by cases heq) hrun) i
  refine h r q ?_ ?_ ?_ (hloaded.trans hrely.loadedAt)
  · rw [now_of_exec hexec]
    exact Nat.le_of_eq hnow.symm
  · rintro t₀ ⟨cs, ht₀⟩
    refine ⟨cs, ?_⟩
    rw [hasked, hrely.asked, ht₀]
    rfl
  · intro hnone
    refine ⟨p'.2.acknowledged, ?_⟩
    rw [hasked, hrely.asked, hnone, hnow]
    rfl

theorem ensures_get {f : Option (Option V) → Prog (Rep A : Cmd L K V Q W → Type) β}
    (h : ∀ found q t, LookedUp S k i k' p (found.getD none) q t →
      Ensures S k n i P (f found) q) :
    Ensures S k n i P (.call (.get k' : Cmd L K V Q W) f) p := by
  refine ensures_call (fun _ _ _ => trivial) fun p' l q r hrely _ _ hrun hI => ?_
  obtain ⟨t, hstarted, hsame⟩ := started_of_run hrun
  have hloaded := loadedAt_of_run (fun _ heq => by cases heq) hrun
  refine h r q t ⟨hstarted, fun t' ht' => hsame t' (ht'.rely hrely),
    (congrFun hloaded i).trans hrely.loadedAt, fun hk v hv => ?_⟩
  subst hk
  have hexec := (run_eq_some.1 hrun).1
  have hworld := eq_of_deliver hexec
  rw [ite_self] at hworld
  have hreply := congrArg Prod.snd (Option.some.inj hexec)
  cases l with
  | ok =>
      have hreply : some ((p'.1.cache.lookup p'.1.now k').map Prod.snd) = r := hreply
      rw [← hreply] at hv
      obtain ⟨⟨ℓ, v'⟩, hlookup, rfl⟩ := Option.map_eq_some_iff.1 hv
      obtain ⟨cs, hcs⟩ := hstarted
      rw [← hworld] at hlookup
      exact fresh_of_live hI hlookup hcs
  | lost =>
      have hreply : none = r := hreply
      rw [← hreply] at hv
      cases hv
  | unacked =>
      have hreply : none = r := hreply
      rw [← hreply] at hv
      cases hv

/-- A value that is found under the key is fresh. -/
theorem ensures_fetch (k' : K) (retries : ℕ) :
    Ensures S k n i (fun found q => ∃ t, LookedUp S k i k' p found q t) (fetch k' retries) p := by
  have hret : ∀ (p : World L K V σ × Log K σ) found q t, LookedUp S k i k' p found q t →
      Ensures S k n i (fun found q => ∃ t, LookedUp S k i k' p found q t) (.ret found) q :=
    fun p found q t h => .ret fun u hrely _ => ⟨t, h.rely hrely⟩
  induction retries generalizing p with
  | zero => exact ensures_get fun found q t h => hret p _ q t h
  | succ retries ih =>
      refine ensures_get fun found q t h => ?_
      cases found with
      | some found => exact hret p found q t h
      | none =>
          -- the next attempts start where this one has left
          refine (ih (p := q)).weaken fun found u hu => ?_
          obtain ⟨t', hu⟩ := hu
          obtain rfl := hu.same t h.started
          exact ⟨t', hu.started, fun t'' ht'' => h.same t'' ht'',
            hu.loadedAt.trans h.loadedAt, hu.fresh⟩

/-- A query is answered from the version that the session loads from. -/
theorem ensures_query {q₀ : Q} {f : Option (A q₀) → Prog (Rep A : Cmd L K V Q W → Type) β}
    (hnone : ∀ q, Ensures S k n i P (f none) q)
    (h : ∀ q t m s t', Later p q → (∀ t₀, Started i t₀ p → t = t₀) →
      (∀ m' ∈ p.2.loadedAt i, m = m') → Loads q i t m s → t ≤ q.1.now → t' ≤ q.1.now →
      Ensures S k n i P (f (some (S.answer q₀ t' s))) q) :
    Ensures S k n i P (.call (.query q₀ : Cmd L K V Q W) f) p := by
  refine ensures_call (fun _ _ _ => trivial) fun p' l q r hrely hI' hcareful hrun hI => ?_
  obtain ⟨hexec, hlog⟩ := run_eq_some.1 hrun
  have hworld := eq_of_deliver hexec
  rw [ite_self] at hworld
  have hreply := congrArg Prod.snd (Option.some.inj hexec)
  cases l with
  | ok =>
      have hreply : some (S.answer q₀ p'.1.now p'.1.store) = r := hreply
      have hlog : q.2 = (p'.2.begin i p'.1.now).load i := hlog
      obtain ⟨t, hstarted, hsame⟩ := started_of_run hrun
      obtain ⟨cs, hcs⟩ := hstarted
      -- where the session has loaded before, nothing was changed since
      have hloaded : q.2.loadedAt i = some p'.2.changes.length := by
        rw [hlog]
        simp only [Log.load, Log.begin, Function.update_self]
        cases hold : p'.2.loadedAt i with
        | none => rfl
        | some m =>
            obtain rfl := hcareful rfl m hold
            rfl
      have hchanges : q.2.changes = p'.2.changes := by
        rw [hlog]
        rfl
      rw [← hreply]
      refine h q t p'.2.changes.length p'.1.store p'.1.now
        (hrely.toLater.trans (ownStep_of_run hrun).toLater)
        (fun t₀ ht₀ => hsame t₀ (ht₀.rely hrely)) (fun m' hm' => ?_) ⟨hloaded, ?_, cs, hcs, ?_⟩
        (hI.asked i t cs hcs).1 ?_
      · exact (hcareful rfl m' (by rw [hrely.loadedAt]; exact hm')).symm
      · exact (ownStep_of_run hrun).toLater.version hI'.last
      · intro c hc
        rw [← hchanges]
        exact hI.acknowledged c ((hI.asked i t cs hcs).2 hc)
      · exact Nat.le_of_eq (congrArg World.now hworld).symm
  | lost =>
      have hreply : none = r := hreply
      rw [← hreply]
      exact hnone q
  | unacked =>
      have hreply : none = r := hreply
      rw [← hreply]
      exact hnone q

theorem loaded_of_run (hc : ∀ q, c ≠ .query q) (hrun : run S i l c p = some (q, r))
    (h : Loaded S i t ℓ v p) : Loaded S i t ℓ v q := by
  obtain ⟨m, s, t', ⟨hloaded, hm, cs, hasked, hcs⟩, ht, hv⟩ := h
  have hlater := (ownStep_of_run hrun).toLater
  have hasked' : q.2.asked i = some (t, cs) := by
    rw [(ownStep_of_run hrun).asked, hasked]
    rfl
  exact ⟨m, s, t', ⟨(congrFun (loadedAt_of_run hc hrun) i).trans hloaded, hlater.version hm, cs,
    hasked', hcs⟩, Nat.le_trans ht hlater.now, hv⟩

/-- A value is put as it was loaded. -/
theorem ensures_put {ttl : ℕ} (retries : ℕ) (h : Loaded S i t ℓ v p) :
    Ensures S k n i (fun _ q => Loaded S i t ℓ v q) (put ℓ v ttl retries) p := by
  have hset : ∀ (p : World L K V σ × Log K σ) (f : Option Unit →
      Prog (Rep A : Cmd L K V Q W → Type) Unit), Loaded S i t ℓ v p →
      (∀ r q, Loaded S i t ℓ v q → Ensures S k n i (fun _ q => Loaded S i t ℓ v q) (f r) q) →
      Ensures S k n i (fun _ q => Loaded S i t ℓ v q)
        (.call (.set ℓ v ttl : Cmd L K V Q W) f) p := by
    intro p f h hf
    refine ensures_call (fun p' hrely _ _ => ?_) fun p' l q r hrely _ _ hrun _ => ?_
    · obtain ⟨m, s, t', hloads, ht, hv⟩ := h.rely hrely
      exact ⟨m, hloads.1, s, t', hloads.2.1, ht, hv⟩
    · exact hf r q (loaded_of_run (fun _ heq => by cases heq) hrun (h.rely hrely))
  induction retries generalizing p with
  | zero => exact hset p _ h fun _ q hq => .ret fun u hrely _ => hq.rely hrely
  | succ retries ih =>
      refine hset p _ h fun r q hq => ?_
      cases r with
      | some _ => exact .ret fun u hrely _ => hq.rely hrely
      | none => exact ih hq

/-- What is fresh is fresh after the rest of the reader. -/
theorem ensures_finish {b : Prop} {f : Bool → Prog (Rep A : Cmd L K V Q W → Type) β}
    (h : b → Fresh S k p i t v)
    (hf : ∀ r q, (b → Fresh S k q i t v) → Ensures S k n i P (f r) q) :
    Ensures S k n i P (.call (.finish : Cmd L K V Q W) f) p := by
  refine ensures_call (fun _ _ _ => trivial) fun p' l q r hrely _ _ hrun _ => hf r q fun hb => ?_
  have hfresh := (h hb).later hrely.toLater hrely.asked
  have hown := ownStep_of_run hrun
  refine hfresh.later hown.toLater ?_
  obtain ⟨-, cs, -, -, hasked, -⟩ := hfresh
  rw [hown.asked, hasked]
  rfl

/-! ## Writers -/

variable {w : W}

/-- What is owed stays so while its session goes on. -/
theorem owing_of_run {keys : List K} (hI : Inv S k p) (hc : ∀ w, c ≠ .change w)
    (hcareful : Careful S k i l c p) (howes : Owes S k i c p) (hrun : run S i l c p = some (q, r))
    (h : Owing S k w i keys p) : Owing S k w i keys q := by
  have hlater := (ownStep_of_run hrun).toLater
  have hmade := congrFun (made_of_run hc hrun) i
  obtain ⟨⟨c, hc, hof⟩, howed⟩ := h
  refine ⟨⟨c, hmade.symm ▸ hc, hof.later hlater⟩, howed.imp_right ?_⟩
  exact (puts_of_run hcareful howes hrun).cleared hI hlater hmade

/-- Nothing is cached under a key that was just deleted. -/
theorem cleared_of_del {retries : ℕ} {r : Option Unit} (hl : l ≠ .lost)
    (hrun : run S i l (.del k retries : Cmd L K V Q W) p = some (q, r)) : Cleared S k q i := by
  have hworld := eq_of_deliver (run_eq_some.1 hrun).1
  rw [if_neg hl] at hworld
  intro ℓ v hlive
  unfold Live at hlive
  rw [hworld, Expiring.lookup_del_self] at hlive
  cases hlive

/-- Deleting a key clears it. -/
theorem ensures_del {retries : ℕ} {keys : List K} {f : Option Unit →
    Prog (Rep A : Cmd L K V Q W → Type) β} (h : Owing S k w i (k' :: keys) p)
    (hf : ∀ r q, Owing S k w i (k' :: keys) q →
      (retries = 0 ∨ r = some () → Owing S k w i keys q) → Ensures S k n i P (f r) q) :
    Ensures S k n i P (.call (.del k' retries : Cmd L K V Q W) f) p := by
  refine ensures_call (fun _ _ _ => trivial) fun p' l q r hrely hI hcareful hrun _ => ?_
  have howing := owing_of_run hI (fun _ heq => by cases heq) hcareful trivial hrun
    (h.rely hrely)
  refine hf r q howing fun hdone => ⟨howing.made, ?_⟩
  cases howing.owed with
  | inr hcleared => exact .inr hcleared
  | inl hmem =>
      cases List.mem_cons.1 hmem with
      | inr hmem => exact .inl hmem
      | inl hkey =>
          subst hkey
          -- the deletion has taken effect: it is the last one, or it was answered
          have hl : l ≠ .lost := by
            rcases hdone with hlast | rfl
            · exact hcareful rfl hlast
            · rintro rfl
              cases congrArg Prod.snd (Option.some.inj (run_eq_some.1 hrun).1)
          exact .inr (cleared_of_del hl hrun)

theorem ensures_invalidate {keys : List K} (retries : ℕ) (h : Owing S k w i (k' :: keys) p) :
    Ensures S k n i (fun _ q => Owing S k w i keys q) (invalidate k' retries) p := by
  have hret : ∀ q, Owing S k w i keys q →
      Ensures S k n i (fun _ q => Owing S k w i keys q) (.ret ()) q :=
    fun q h => .ret fun u hrely _ => h.rely hrely
  induction retries generalizing p with
  | zero => exact ensures_del h fun _ q _ hdone => hret q (hdone (.inl rfl))
  | succ retries ih =>
      refine ensures_del h fun r q howing hdone => ?_
      cases r with
      | some _ => exact hret q (hdone (.inr rfl))
      | none => exact ih howing

/-- Deleting all keys of a change leaves nothing owed. -/
theorem ensures_invalidateAll (retries : ℕ) (keys : List K) (h : Owing S k w i keys p) :
    Ensures S k n i (fun _ q => Owing S k w i [] q) (invalidateAll retries keys) p := by
  induction keys generalizing p with
  | nil => exact .ret fun u hrely _ => h.rely hrely
  | cons k' keys ih => exact .bind ((ensures_invalidate retries h).weaken fun _ q hq => ih hq)

/-- An answer of success acknowledges the change. -/
theorem ensures_success (h : Owing S k w i [] p) :
    Ensures S k n i (fun b q => b = true → Acknowledged S w q)
      (do Prog.perform (.respond true : Cmd L K V Q W); pure true) p := by
  refine ensures_call (fun p' hrely _ => ?_) fun p' l q r hrely _ _ hrun _ => ?_
  · exact (h.rely hrely).owed.resolve_left List.not_mem_nil
  · obtain ⟨c, hc, hof⟩ := (h.rely hrely).made
    have hack : c ∈ q.2.acknowledged := by
      rw [(run_eq_some.1 hrun).2]
      exact List.mem_append_right _ hc
    have hacknowledged : Acknowledged S w q :=
      ⟨c, hack, hof.later (ownStep_of_run hrun).toLater⟩
    exact .ret fun u hrely' _ _ => hacknowledged.later hrely'.toLater

theorem ensures_failure (p : World L K V σ × Log K σ) :
    Ensures S k n i (fun b q => b = true → Acknowledged S w q)
      (do Prog.perform (.respond false : Cmd L K V Q W); pure false) p :=
  ensures_call (fun _ _ _ => trivial) fun _ _ _ _ _ _ _ _ _ => .ret fun _ _ _ h => by cases h

/-- After its change, a session has to delete the key, or its changes do not name it. -/
theorem owing_of_change {keys : List K} {r : Option (Option (List K))}
    (hI : Inv S k p) (hmade : p.2.made i = [])
    (hrun : run S i l (.change w : Cmd L K V Q W) p = some (q, r))
    (hr : r = some (some keys)) : Owing S k w i keys q := by
  obtain ⟨hexec, hlog⟩ := run_eq_some.1 hrun
  have hreply := congrArg Prod.snd (Option.some.inj hexec)
  rw [hr] at hreply
  cases l with
  | ok =>
      have hreply : (S.apply w p.1).2 = some keys := Option.some.inj hreply
      cases hchange : S.change w p.1.now p.1.store with
      | none =>
          simp only [Schema.apply, hchange] at hreply
          cases hreply
      | some x =>
          obtain ⟨s, keys'⟩ := x
          simp only [Schema.apply, hchange] at hreply
          obtain rfl := Option.some.inj hreply
          simp only [record, hchange, reduceCtorEq, if_false] at hlog
          -- the one change of the session is the last
          have hmade' : q.2.made i = [p.2.changes.length] := by
            rw [hlog]
            simp only [Log.write, Log.begin, Function.update_self, hmade, List.nil_append]
          have hlast : q.2.changes[p.2.changes.length]? = some ⟨keys', s⟩ := by
            rw [hlog]
            simp only [Log.write, Log.begin]
            rw [List.getElem?_append_right (Nat.le_refl _), Nat.sub_self]
            rfl
          have hversion := (ownStep_of_run hrun).toLater.version hI.last
          refine ⟨⟨p.2.changes.length, ?_, ⟨keys', s⟩, _, _, hlast, hversion, hchange⟩, ?_⟩
          · rw [hmade']
            exact List.mem_singleton_self _
          · by_cases hk : k ∈ keys'
            · exact .inl hk
            · refine .inr fun ℓ v _ c hc x hx hnames => ?_
              rw [hmade', List.mem_singleton] at hc
              rw [hc, hlast] at hx
              obtain rfl := Option.some.inj hx
              exact absurd hnames hk
  | lost => cases hreply
  | unacked => cases hreply

/-- A writer deletes all keys of its change before it answers with success. -/
theorem ensures_update (retries : ℕ) (w : W) (hmade : p.2.made i = []) :
    Ensures S k n i (fun b q => b = true → Acknowledged S w q) (update retries w) p := by
  refine ensures_call (fun _ _ _ => trivial) fun p' l q r hrely hI _ hrun _ => ?_
  match r, hrun with
  | none, _ => exact ensures_failure q
  | some none, _ => exact ensures_failure q
  | some (some keys), hrun =>
      have howing := owing_of_change hI (hrely.made.trans hmade) hrun rfl
      refine ensures_call (fun _ _ _ => trivial) fun q' l' u r' hrely' hI hcareful hrun' _ => ?_
      have howing' := owing_of_run hI (fun _ heq => by cases heq) hcareful trivial hrun'
        (howing.rely hrely')
      cases r' with
      | false => exact ensures_failure u
      | true =>
          change Ensures S k n i _ (invalidateAll retries keys >>= fun _ => do
            Prog.perform (.respond true : Cmd L K V Q W)
            pure true) u
          exact .bind ((ensures_invalidateAll retries keys howing').weaken fun _ _ =>
            ensures_success)

/-! ## Runs -/

/-- Requests that keep to the contract from when they arrive keep to it in every careful run. -/
theorem fulfils {handler : ι → Prog (Rep A : Cmd L K V Q W → Type) β} {first : σ}
    {Q' : ι → ℕ → β → World L K V σ × Log K σ → Prop}
    (hhandler : ∀ n i p, p.2.made i = [] → p.2.asked i = none → p.2.loadedAt i = none →
      Ensures S k n i (Q' n i) (handler n) p)
    {P : Pool (World L K V σ × Log K σ) (Rep A : Cmd L K V Q W → Type) ι β}
    (h : (logged S handler first).system.ReachableUnder
      (Machine.Guarded (fun _ => Careful S k) fun _ _ => True) P) :
    (logged S handler first).Fulfils (ruled S k ι) Q' P := by
  have hempty : ∀ p : World L K V σ × Log K σ, (logged S handler first).init p →
      p.1.store = first ∧ p.1.cache = Expiring.empty ∧ p.2 = Log.empty first :=
    fun p hp => ⟨hp.1.1, hp.1.2, hp.2⟩
  refine Machine.ensures_of_reachable ?_ ?_ ?_ h
  · intro p hp
    obtain ⟨hstore, hcache, hlog⟩ := hempty p hp
    refine ⟨?_, ?_, ?_, fun ℓ v hlive => ?_, ?_⟩
    · rw [hlog, hstore]
      rfl
    · intro i c hc
      rw [hlog] at hc
      cases hc
    · intro c hc
      rw [hlog] at hc
      cases hc
    · unfold Live at hlive
      rw [hcache, Expiring.lookup_empty] at hlive
      cases hlive
    · intro i t cs hasked
      rw [hlog] at hasked
      cases hasked
  · intro x p q ts hI _ hx
    have hlog : q.2 = p.2 := (Machine.logged_environ.1 hx).2
    have hworld := (Machine.logged_environ.1 hx).1
    cases x with
    | tick d =>
        obtain ⟨hq, rfl⟩ := Prod.mk.inj (Option.some.inj hworld)
        obtain rfl : q = pass p d := Prod.ext hq.symm hlog
        exact ⟨hI.pass d, rely_pass hI d, fun _ _ _ hmem => absurd hmem List.not_mem_nil⟩
    | request n =>
        obtain ⟨hq, rfl⟩ := Prod.mk.inj (Option.some.inj hworld)
        obtain rfl : p = q := Prod.ext hq hlog.symm
        refine ⟨hI, fun j => (ruled S k ι).rely_refl j p, fun i m prog hmem hunstarted => ?_⟩
        obtain ⟨rfl, rfl⟩ := Prod.mk.inj (List.mem_singleton.1 hmem)
        obtain ⟨p₀, h0, hrely⟩ := hunstarted
        have hlog₀ := (hempty p₀ h0).2.2
        refine hhandler m i p (hrely.made.trans ?_) (hrely.asked.trans ?_)
          (hrely.loadedAt.trans ?_) <;> rw [hlog₀] <;> rfl
  · exact fun i p hI => ⟨hI, fun j _ => (ruled S k ι).rely_refl j p⟩

/-- A command changes the store by a change that it logs, or not at all. -/
theorem changes_cases_of_run (hrun : run S i l c p = some (q, r)) :
    (q.1.store = p.1.store ∧ q.2.changes = p.2.changes) ∨
    ∃ w s keys, S.change w p.1.now p.1.store = some (s, keys) ∧ q.1.store = s ∧
      q.2.changes = p.2.changes ++ [⟨keys, s⟩] := by
  by_cases hc : c = .respond true
  · subst hc
    obtain ⟨hexec, hlog⟩ := run_eq_some.1 hrun
    have hworld := (congrArg Prod.fst (Option.some.inj hexec)).symm
    exact .inl ⟨congrArg World.store hworld, hlog ▸ rfl⟩
  · rcases effect_of_run hrun hc with hstill | ⟨w, s, keys, hchange, hworld, hlog⟩
    · exact .inl ⟨hstill.store, hstill.changes⟩
    · exact .inr ⟨w, s, keys, hchange, congrArg World.store hworld, hlog ▸ rfl⟩

theorem grown_of_run {first : σ} (h : Grown S first p) (hrun : run S i l c p = some (q, r)) :
    Grown S first q := by
  have hlater := (ownStep_of_run hrun).toLater
  rcases changes_cases_of_run hrun with ⟨hstore, hchanges⟩ | ⟨w, s, keys, hchange, hstore, hchanges⟩
  · have hversions : q.2.versions = p.2.versions := by
      rw [Log.versions, Log.versions, hchanges, hlater.first]
    refine ⟨hlater.first.trans h.first, ?_, fun c x hx => ?_⟩
    · rw [hversions, hchanges, hstore]
      exact h.last
    · rw [hversions]
      exact h.changes c x (hchanges ▸ hx)
  · have hversions : q.2.versions = p.2.versions ++ [s] := by
      simp only [Log.versions, hchanges, hlater.first, List.map_append, List.map_cons,
        List.map_nil, List.cons_append]
    have hlength : p.2.versions.length = p.2.changes.length + 1 := by
      rw [Log.versions, List.length_cons, List.length_map]
    refine ⟨hlater.first.trans h.first, ?_, fun c x hx => ?_⟩
    · rw [hchanges, List.length_append, List.length_singleton, hversions,
        List.getElem?_append_right (Nat.le_of_eq hlength), hlength, Nat.sub_self, hstore]
      rfl
    · rw [hchanges] at hx
      by_cases hc : c < p.2.changes.length
      · rw [List.getElem?_append_left hc] at hx
        obtain ⟨w', t, s', hs', hchange'⟩ := h.changes c x hx
        exact ⟨w', t, s', hlater.version hs', hchange'⟩
      · -- the change that was just made is one of the store
        obtain ⟨hlt, hx⟩ := List.getElem?_eq_some_iff.1 hx
        rw [List.length_append, List.length_singleton] at hlt
        obtain rfl : c = p.2.changes.length :=
          Nat.le_antisymm (Nat.le_of_lt_succ hlt) (Nat.le_of_not_lt hc)
        rw [List.getElem_append_right (Nat.le_refl _)] at hx
        simp only [Nat.sub_self, List.getElem_cons_zero] at hx
        subst hx
        exact ⟨w, p.1.now, p.1.store, hlater.version h.last, hchange⟩

section Runs

variable {handler : ι → Prog (Rep A : Cmd L K V Q W → Type) β} {first : σ}
variable {P₁ P₂ : Pool (World L K V σ × Log K σ) (Rep A : Cmd L K V Q W → Type) ι β}

theorem grown {G : Pool _ (Rep A : Cmd L K V Q W → Type) ι β → Act Link (Environ ι) → Prop}
    (h : (logged S handler first).system.ReachableUnder G P₁) : Grown S first P₁.store := by
  have hguarded : (logged S handler first).system.ReachableUnder
      (Machine.Guarded (fun _ _ _ _ _ => True) fun _ _ => True) P₁ :=
    h.mono fun _ _ _ => Machine.Guarded.of_forall fun _ _ _ _ _ => trivial
  refine Machine.store_invariant ?_ ?_ ?_ ?_ hguarded
  · intro p hp
    obtain ⟨⟨hstore, -⟩, hlog⟩ := hp
    refine ⟨?_, ?_, fun c x hx => ?_⟩
    · rw [hlog]
      rfl
    · rw [hlog, hstore]
      rfl
    · rw [hlog] at hx
      cases hx
  · exact fun _ _ _ _ _ _ _ hp _ hrun => grown_of_run hp hrun
  · intro x p q ts hp _ hx
    obtain ⟨hworld, hlog⟩ := Machine.logged_environ.1 hx
    have hstore : q.1.store = p.1.store := by
      cases x <;> obtain ⟨hq, -⟩ := Prod.mk.inj (Option.some.inj hworld) <;> rw [← hq]
    refine ⟨?_, ?_, ?_⟩
    · rw [hlog]
      exact hp.first
    · rw [hlog, hstore]
      exact hp.last
    · rw [hlog]
      exact hp.changes
  · exact fun _ _ hp => hp

/-- A session that arrives later asks when everything acknowledged by now is so. -/
theorem asked_since {G : Pool _ (Rep A : Cmd L K V Q W → Type) ι β → Act Link (Environ ι) → Prop}
    (hasked : P₁.store.2.asked j = none)
    (h : ((logged S handler first).system.startingAt P₁).ReachableUnder G P₂) :
    Later P₁.store P₂.store ∧
      ∀ t cs, P₂.store.2.asked j = some (t, cs) →
        P₁.store.1.now ≤ t ∧ P₁.store.2.acknowledged ⊆ cs := by
  refine Machine.store_kept (M := logged S handler first)
    (I := fun p => Later P₁.store p ∧ ∀ t cs, p.2.asked j = some (t, cs) →
      P₁.store.1.now ≤ t ∧ P₁.store.2.acknowledged ⊆ cs) ?_ ?_ ?_ ?_ h.reachable
  · rintro n i l c p q r ⟨hlater, hcs⟩ hrun
    have hown := ownStep_of_run hrun
    refine ⟨hlater.trans hown.toLater, fun t cs hq => ?_⟩
    by_cases hji : j = i
    · subst hji
      rw [hown.asked] at hq
      cases hold : p.2.asked j with
      | none =>
          rw [hold] at hq
          obtain ⟨rfl, rfl⟩ := Prod.mk.inj (Option.some.inj hq)
          exact ⟨hlater.now, hlater.acknowledged⟩
      | some x =>
          rw [hold] at hq
          obtain rfl := Option.some.inj hq
          exact hcs t cs hold
    · rw [(hown.others j hji).2.1] at hq
      exact hcs t cs hq
  · rintro x p q ts ⟨hlater, hcs⟩ hx
    obtain ⟨hworld, hlog⟩ := Machine.logged_environ.1 hx
    have hpq : Later p q := by
      cases x with
      | tick d =>
          obtain ⟨hq, -⟩ := Prod.mk.inj (Option.some.inj hworld)
          obtain rfl : q = pass p d := Prod.ext hq.symm hlog
          exact later_pass p d
      | request n =>
          obtain ⟨hq, -⟩ := Prod.mk.inj (Option.some.inj hworld)
          obtain rfl : p = q := Prod.ext hq hlog.symm
          exact Later.refl p
    refine ⟨hlater.trans hpq, ?_⟩
    rw [hlog]
    exact hcs
  · exact fun _ _ hp => hp
  · refine ⟨Later.refl _, fun t cs h => ?_⟩
    rw [hasked] at h
    cases h

/-- A session that has not arrived has not asked. -/
theorem unasked {Q' : ι → ℕ → β → World L K V σ × Log K σ → Prop}
    (h : (logged S handler first).Fulfils (ruled S k ι) Q' P₁) (hj : P₁.threads.length ≤ j) :
    P₁.store.2.asked j = none := by
  obtain ⟨p₀, ⟨-, hlog⟩, hrely⟩ := h.unstarted j hj
  rw [hrely.asked, hlog]
  rfl

end Runs

end CacheAside
end Lib
end Bookit

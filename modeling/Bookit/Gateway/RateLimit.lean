import Bookit.Lib.SortedSet
import Bookit.Lib.System
import Bookit.Lib.Threads

/-!
# Gateway.RateLimit — the sliding-window limiter

A call is counted in a sorted set, under the time at which it was made.  The script removes what is
older than the window, counts the rest and adds the call where there is room; the set expires two
windows after the last call that was added.  A call that gets no answer counts as denied, whether the
script was executed or not.
-/

namespace Bookit
namespace RateLimit

open Lib

variable {α : Type} [DecidableEq α]

/-! ## The limiter -/

/-- The sorted set under a key, and when the key expires. -/
structure Stored (α : Type) where
  set : SortedSet α
  deadline : ℤ

/-- The set that a command at time `now` finds. -/
def live (now : ℤ) : Option (Stored α) → SortedSet α
  | none => .empty
  | some key => if now ≤ key.deadline then key.set else .empty

/-- `PEXPIRE`; a key that is to expire at once is deleted. -/
def pexpire (now ttlMs : ℤ) (set : SortedSet α) : Option (Stored α) :=
  if ttlMs ≤ 0 then none else some ⟨set, now + ttlMs⟩

/-- The script: `ZREMRANGEBYSCORE`, `ZCARD`, and `ZADD` with `PEXPIRE` where there is room. -/
def script (limit now windowStart ttlMs : ℤ) (member : α) (key : Option (Stored α)) :
    Option (Stored α) × (ℤ × ℤ) :=
  let kept := (live now key).remWhere fun score => decide (score ≤ windowStart)
  let count := (kept.entries.length : ℤ)
  if count < limit then
    (pexpire now ttlMs (kept.add member now), (1, count + 1))
  else
    -- the deadline of the key stays as it is
    (key.map fun k => { k with set := kept }, (0, count))

structure Call (α : Type) where
  now : ℤ
  member : α
  link : Link
  deriving DecidableEq

def Call.script (limit windowMs : ℤ) (call : Call α) :
    Option (Stored α) → Option (Stored α) × (ℤ × ℤ) :=
  RateLimit.script limit call.now (call.now - windowMs) (windowMs * 2) call.member

/-- Whether the call is allowed, the count, and when the window ends; no answer reads as `[0, 0]`. -/
def checkSlidingWindow (limit windowMs : ℤ) (call : Call α) (key : Option (Stored α)) :
    Option (Stored α) × (Bool × ℤ × ℤ) :=
  let result := call.link.deliver (call.script limit windowMs) key
  let answer := result.2.getD (0, 0)
  (result.1, (decide (answer.1 = 1), answer.2, call.now + windowMs))

/-! ## Sequences of calls -/

/-- The key, and the calls so far, each with whether the script counted it. -/
structure State (α : Type) where
  key : Option (Stored α)
  history : List (Call α × Bool)

/-- The script is executed and counts the call. -/
def counts (limit windowMs : ℤ) (call : Call α) (key : Option (Stored α)) : Bool :=
  decide (call.link ≠ .lost) && decide ((call.script limit windowMs key).2.1 = 1)

def limiter (limit windowMs : ℤ) : System (State α) (Call α) where
  init s := s.key = none ∧ s.history = []
  step s call := some
    { key := (checkSlidingWindow limit windowMs call s.key).1
      history := s.history ++ [(call, counts limit windowMs call s.key)] }

/-- A call is not earlier than those before it, and has a member of its own. -/
def Orderly (s : State α) (call : Call α) : Prop :=
  ∀ x ∈ s.history, x.1.now ≤ call.now ∧ x.1.member ≠ call.member

instance (s : State α) (call : Call α) : Decidable (Orderly s call) := List.decidableBAll ..

/-- The calls that were counted, in order. -/
def State.counted (s : State α) : List (α × ℤ) :=
  (s.history.filter fun x => x.2).map fun x => (x.1.member, x.1.now)

/-- How many calls were counted after `start`, up to `stop`. -/
def State.countedIn (s : State α) (start stop : ℤ) : ℕ :=
  s.counted.countP fun e => decide (start < e.2) && decide (e.2 ≤ stop)

/-! ## What a call does -/

section Step

variable {limit windowMs now stop : ℤ} {s : State α} {call : Call α} {key : Option (Stored α)}

omit [DecidableEq α] in
theorem State.mem_counted {e : α × ℤ} :
    e ∈ s.counted → ∃ x ∈ s.history, x.1.member = e.1 ∧ x.1.now = e.2 := by
  intro he
  obtain ⟨x, hx, rfl⟩ := List.mem_map.1 he
  exact ⟨x, (List.mem_filter.1 hx).1, rfl, rfl⟩

/-- The calls within a window of `now`, of a set and of the history. -/
def within (windowMs now : ℤ) (entries : List (α × ℤ)) : List (α × ℤ) :=
  entries.filter fun e => decide (now - windowMs < e.2)

omit [DecidableEq α] in
/-- A later window is within an earlier one, as far as the entries of both go. -/
theorem within_within {now' : ℤ} {entries : List (α × ℤ)} :
    now ≤ now' → within windowMs now' (within windowMs now entries) = within windowMs now' entries := by
  intro hle
  unfold within
  rw [List.filter_filter]
  apply List.filter_congr
  intro e _
  by_cases he : now' - windowMs < e.2
  · have hearlier : now - windowMs < e.2 := by omega
    simp [he, hearlier]
  · simp [he]

omit [DecidableEq α] in
theorem live_of_le {k : Stored α} : now ≤ k.deadline → live now (some k) = k.set := by
  intro hle
  exact if_pos hle

omit [DecidableEq α] in
theorem live_of_lt {k : Stored α} : k.deadline < now → live now (some k) = .empty := by
  intro hlt
  exact if_neg (Int.not_le.2 hlt)

omit [DecidableEq α] in
theorem entries_kept : ((live now key).remWhere fun score => decide (score ≤ now - windowMs)).entries =
    within windowMs now (live now key).entries := by
  unfold SortedSet.remWhere within
  apply List.filter_congr
  intro e _
  rw [← decide_not]
  simp only [Int.not_le]

/-- What the set and the history have to do with each other. -/
structure Inv (limit windowMs : ℤ) (s : State α) : Prop where
  /-- From the last call on, the set has the calls of the window that were counted. -/
  stored : ∀ now, (∀ x ∈ s.history, x.1.now ≤ now) →
    within windowMs now (live now s.key).entries = within windowMs now s.counted
  bound : ∀ start, s.countedIn start (start + windowMs) ≤ limit.toNat

theorem inv_init : (limiter limit windowMs).init s → Inv limit windowMs s := by
  rintro ⟨hkey, hhistory⟩
  have hcounted : s.counted = [] := by
    unfold State.counted
    rw [hhistory]
    rfl
  constructor
  · intro now _
    rw [hkey, hcounted]
    rfl
  · intro start
    unfold State.countedIn
    rw [hcounted]
    exact Nat.zero_le _

/-- The set that the script goes on with. -/
def Call.kept (windowMs : ℤ) (call : Call α) (key : Option (Stored α)) : SortedSet α :=
  (live call.now key).remWhere fun score => decide (score ≤ call.now - windowMs)

/-- There is room in the window of the call. -/
def Call.Room (limit windowMs : ℤ) (call : Call α) (key : Option (Stored α)) : Prop :=
  ((call.kept windowMs key).entries.length : ℤ) < limit

theorem script_of_room : call.Room limit windowMs key →
    call.script limit windowMs key =
      (pexpire call.now (windowMs * 2) ((call.kept windowMs key).add call.member call.now),
        (1, ((call.kept windowMs key).entries.length : ℤ) + 1)) := by
  intro hroom
  exact if_pos hroom

theorem script_of_full : ¬call.Room limit windowMs key →
    call.script limit windowMs key =
      (key.map fun k => { k with set := call.kept windowMs key },
        (0, ((call.kept windowMs key).entries.length : ℤ))) := by
  intro hfull
  exact if_neg hfull

/-- A call is counted where the script is executed and finds room. -/
theorem counts_iff :
    counts limit windowMs call key = true ↔ call.link ≠ .lost ∧ call.Room limit windowMs key := by
  unfold counts
  rw [Bool.and_eq_true, decide_eq_true_iff, decide_eq_true_iff]
  apply and_congr_right
  intro _
  by_cases hroom : call.Room limit windowMs key
  · rw [script_of_room hroom]
    exact iff_of_true rfl hroom
  · rw [script_of_full hroom]
    exact iff_of_false Int.zero_ne_one hroom

omit [DecidableEq α] in
/-- What is kept are the calls of the window that were counted. -/
theorem Inv.kept (h : Inv limit windowMs s) (hG : Orderly s call) :
    (call.kept windowMs s.key).entries = within windowMs call.now s.counted := by
  calc
    (call.kept windowMs s.key).entries
        = within windowMs call.now (live call.now s.key).entries := entries_kept
    _ = within windowMs call.now s.counted := h.stored call.now fun x hx => (hG x hx).1

omit [DecidableEq α] in
theorem State.counted_concat (b : Bool) :
    State.counted ⟨key, s.history ++ [(call, b)]⟩ =
      s.counted ++ if b then [(call.member, call.now)] else [] := by
  unfold State.counted
  rw [List.filter_append, List.map_append]
  cases b <;> rfl

/-! ### The three outcomes -/

omit [DecidableEq α] in
theorem Inv.lost (h : Inv limit windowMs s) :
    Inv limit windowMs ⟨s.key, s.history ++ [(call, false)]⟩ := by
  have hcounted : State.counted ⟨s.key, s.history ++ [(call, false)]⟩ = s.counted := by
    rw [State.counted_concat]
    exact List.append_nil _
  constructor
  · intro now hnow
    rw [hcounted]
    exact h.stored now fun x hx => hnow x (List.mem_append_left _ hx)
  · intro start
    unfold State.countedIn
    rw [hcounted]
    exact h.bound start

omit [DecidableEq α] in
/-- The set without what is older than the window of the call; the deadline is as it was. -/
theorem Inv.denied (h : Inv limit windowMs s) :
    Inv limit windowMs
      ⟨s.key.map fun k => { k with set := call.kept windowMs s.key }, s.history ++ [(call, false)]⟩ := by
  have hlost : Inv limit windowMs ⟨s.key, s.history ++ [(call, false)]⟩ := h.lost
  constructor
  · intro now hnow
    have hle : call.now ≤ now :=
      hnow (call, false) (List.mem_append_right _ (List.mem_singleton_self _))
    refine Eq.trans ?_ (hlost.stored now hnow)
    cases hkey : s.key with
    | none => rfl
    | some k =>
        show within windowMs now (live now (some ⟨call.kept windowMs (some k), k.deadline⟩)).entries =
          within windowMs now (live now (some k)).entries
        by_cases hlive : now ≤ k.deadline
        · -- the key was live at the call too
          have hset : live call.now (some k) = k.set := live_of_le (Int.le_trans hle hlive)
          have hkept : (call.kept windowMs (some k)).entries = within windowMs call.now k.set.entries := by
            rw [← hset]
            exact entries_kept
          have hnew : live now (some ⟨call.kept windowMs (some k), k.deadline⟩) =
              call.kept windowMs (some k) := if_pos hlive
          rw [hnew, live_of_le hlive, hkept, within_within hle]
        · have hnew : live now (some ⟨call.kept windowMs (some k), k.deadline⟩) = .empty :=
            if_neg hlive
          rw [hnew, live_of_lt (Int.not_le.1 hlive)]
  · exact hlost.bound

/-- The set with the call; by the time it expires, every call in it is out of the window. -/
theorem Inv.allowed (h : Inv limit windowMs s) (hG : Orderly s call)
    (hroom : call.Room limit windowMs s.key) :
    Inv limit windowMs
      ⟨pexpire call.now (windowMs * 2) ((call.kept windowMs s.key).add call.member call.now),
        s.history ++ [(call, true)]⟩ := by
  have hkept := h.kept hG
  have hcounted : State.counted ⟨pexpire call.now (windowMs * 2)
      ((call.kept windowMs s.key).add call.member call.now), s.history ++ [(call, true)]⟩ =
        s.counted ++ [(call.member, call.now)] := State.counted_concat true
  have hearlier : ∀ e ∈ s.counted, e.2 ≤ call.now ∧ e.1 ≠ call.member := by
    intro e he
    obtain ⟨x, hx, hmember, hnow⟩ := State.mem_counted he
    rw [← hmember, ← hnow]
    exact hG x hx
  constructor
  · intro now hnow
    have hle : call.now ≤ now :=
      hnow (call, true) (List.mem_append_right _ (List.mem_singleton_self _))
    rw [hcounted]
    by_cases hlive : 0 < windowMs * 2 ∧ now ≤ call.now + windowMs * 2
    · have hentries : ((call.kept windowMs s.key).add call.member call.now).entries =
          within windowMs call.now s.counted ++ [(call.member, call.now)] := by
        rw [SortedSet.entries_add_of_new, hkept]
        intro e he
        rw [hkept] at he
        exact (hearlier e (List.mem_filter.1 he).1).2
      unfold pexpire
      rw [if_neg (Int.not_le.2 hlive.1), live_of_le hlive.2, hentries]
      unfold within
      rw [List.filter_append, List.filter_append]
      congr 1
      exact within_within hle
    · -- nothing is left, and nothing is within the window any more
      have hempty : (live now (pexpire call.now (windowMs * 2)
          ((call.kept windowMs s.key).add call.member call.now))).entries = [] := by
        unfold pexpire
        split_ifs with httl
        · rfl
        · rw [live_of_lt (Int.not_le.1 fun hle' => hlive ⟨Int.not_le.1 httl, hle'⟩)]
          rfl
      have hnone : within windowMs now (s.counted ++ [(call.member, call.now)]) = [] := by
        apply List.filter_eq_nil_iff.2
        intro e he
        have hbefore : e.2 ≤ call.now := by
          rcases List.mem_append.1 he with hold | hnew
          · exact (hearlier e hold).1
          · rw [List.mem_singleton.1 hnew]
        rw [decide_eq_true_iff]
        omega
      show within windowMs now (live now _).entries = _
      rw [hempty, hnone]
      rfl
  · intro start
    unfold State.countedIn
    rw [hcounted, List.countP_append, List.countP_singleton]
    have hbound := h.bound start
    unfold State.countedIn at hbound
    split_ifs with hin
    · -- an interval that holds the call has nothing from before its window
      have hstart : call.now - windowMs ≤ start := by
        simp only [Bool.and_eq_true, decide_eq_true_iff] at hin
        omega
      have hcount : s.counted.countP (fun e => decide (start < e.2) && decide (e.2 ≤ start + windowMs)) ≤
          (within windowMs call.now s.counted).length := by
        unfold within
        rw [← List.countP_eq_length_filter]
        apply List.countP_mono_left
        intro e _ he
        simp only [Bool.and_eq_true, decide_eq_true_iff] at he ⊢
        omega
      have hlimit : ((within windowMs call.now s.counted).length : ℤ) < limit := by
        rw [← hkept]
        exact hroom
      omega
    · exact hbound

theorem inv_step {t : State α} (h : Inv limit windowMs s) (hG : Orderly s call) :
    (limiter limit windowMs).step s call = some t → Inv limit windowMs t := by
  intro hst
  obtain rfl := Option.some.inj hst
  unfold checkSlidingWindow
  by_cases hroom : call.Room limit windowMs s.key
  · cases hlink : call.link with
    | lost =>
        have hcounts : counts limit windowMs call s.key = false := by
          rw [← Bool.not_eq_true, counts_iff]
          exact fun h => h.1 hlink
        rw [hcounts]
        exact h.lost
    | ok | unacked =>
        have hcounts : counts limit windowMs call s.key = true :=
          counts_iff.2 ⟨by rw [hlink]; decide, hroom⟩
        rw [hcounts]
        simp only [Link.deliver]
        rw [script_of_room hroom]
        exact h.allowed hG hroom
  · have hcounts : counts limit windowMs call s.key = false := by
      rw [← Bool.not_eq_true, counts_iff]
      exact fun h => hroom h.2
    rw [hcounts]
    cases hlink : call.link with
    | lost => exact h.lost
    | ok | unacked =>
        simp only [Link.deliver]
        rw [script_of_full hroom]
        exact h.denied

/-- A call whose answer arrives is allowed if and only if it is counted. -/
theorem allowed_of_ok (hlink : call.link = .ok) :
    (checkSlidingWindow limit windowMs call key).2.1 = counts limit windowMs call key := by
  unfold checkSlidingWindow counts
  rw [hlink]
  rfl

/-- Of the calls on a key, at most `limit` are counted in any window; a call is denied by the script
only where as many were counted in the window that ends with it. -/
theorem sliding_window_exact (h : (limiter limit windowMs).ReachableUnder Orderly s) :
    (∀ start, s.countedIn start (start + windowMs) ≤ limit.toNat) ∧
      ∀ call, Orderly s call → call.link = .ok →
        (checkSlidingWindow limit windowMs call s.key).2.1 = false →
          limit ≤ s.countedIn (call.now - windowMs) call.now := by
  have hinv : Inv limit windowMs s :=
    System.invariant (I := Inv limit windowMs) (fun _ => inv_init)
      (fun _ _ _ hI hG => inv_step hI hG) h
  refine ⟨hinv.bound, ?_⟩
  intro call hG hlink hdenied
  have hfull : ¬call.Room limit windowMs s.key := by
    intro hroom
    have hcounts := counts_iff.2 ⟨by rw [hlink]; decide, hroom⟩
    rw [← allowed_of_ok hlink, hdenied] at hcounts
    cases hcounts
  -- the calls of the window are those that were counted up to now
  have hall : s.countedIn (call.now - windowMs) call.now =
      (within windowMs call.now s.counted).length := by
    unfold State.countedIn within
    rw [← List.countP_eq_length_filter]
    apply List.countP_congr
    intro e he
    obtain ⟨x, hx, -, hnow⟩ := State.mem_counted he
    have hle := (hG x hx).1
    simp only [Bool.and_eq_true, decide_eq_true_iff]
    omega
  rw [hall, ← hinv.kept hG]
  exact Int.not_lt.1 hfull

end Step

/-! ## Two calls a second -/

def twoCalls : List (Call ℕ) := [⟨0, 1, .ok⟩, ⟨400, 2, .ok⟩]

/-- The third call is denied, and two were counted in its window. -/
theorem sliding_window_exact_full : ∃ s, (limiter 2 1000).ReachableUnder Orderly s ∧
    (checkSlidingWindow 2 1000 (⟨900, 3, .ok⟩ : Call ℕ) s.key).2.1 = false ∧
    (∀ start, s.countedIn start (start + 1000) ≤ 2) ∧ (2 : ℤ) ≤ s.countedIn (900 - 1000) 900 := by
  obtain ⟨s, hs, hp⟩ := (limiter 2 1000).exists_reachable_of_runUnder Orderly
    (fun s => decide (Orderly s ⟨900, 3, .ok⟩) &&
      !(checkSlidingWindow 2 1000 (⟨900, 3, .ok⟩ : Call ℕ) s.key).2.1)
    (s := ⟨none, []⟩) ⟨rfl, rfl⟩ twoCalls (by decide +kernel)
  rw [Bool.and_eq_true, decide_eq_true_iff, Bool.not_eq_true'] at hp
  have hexact := sliding_window_exact hs
  have hfull := hexact.2 ⟨900, 3, .ok⟩ hp.1 rfl hp.2
  exact ⟨s, hs, hp.2, hexact.1, hfull⟩

end RateLimit
end Bookit

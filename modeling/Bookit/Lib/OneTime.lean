import Mathlib.Data.List.Nodup
import Mathlib.Logic.Function.Basic

/-!
# OneTime — tokens that are drawn for a key, stored under it and used

Any number of sessions draw tokens and store them in the slot of their key, or take the token of a
slot, use it and clear the slot.  Taking, using and clearing are steps of their own.

* `Ledger.Step` — the steps under which no token is used twice: a session takes a token only while no
  other holds it, no newer token is stored while one is held, and who has used a token clears the slot;
* `Ledger.Sound` — the invariant: no token is used twice, and no session clears away a token that was
  drawn after the one it used;
* `Ledger.Step.sound` — each step keeps it.
-/

namespace Bookit
namespace Lib

/-- What a session is at: it has drawn a token, holds one that it found in a slot, or has used one. -/
inductive Role (K T : Type) where
  | idle
  | drawn (k : K) (t : T)
  | holding (k : K) (t : T)
  | used (k : K) (t : T)
  deriving DecidableEq

namespace Role

variable {K T : Type} {k k' : K} {t t' : T} {r : Role K T}

/-- The session found the token and has not cleared the slot since. -/
def Holds (r : Role K T) (k : K) (t : T) : Prop :=
  r = holding k t ∨ r = used k t

instance [DecidableEq K] [DecidableEq T] (r : Role K T) (k : K) (t : T) : Decidable (r.Holds k t) :=
  inferInstanceAs (Decidable (_ ∨ _))

@[simp] theorem holds_idle : ¬ (idle : Role K T).Holds k t := by
  simp [Holds]

@[simp] theorem holds_drawn : ¬ (drawn k t).Holds k' t' := by
  simp [Holds]

@[simp] theorem holds_holding : (holding k t).Holds k' t' ↔ k = k' ∧ t = t' := by
  simp [Holds]

@[simp] theorem holds_used : (used k t).Holds k' t' ↔ k = k' ∧ t = t' := by
  simp [Holds]

end Role

/-- The slots, and what has happened: the tokens in the order in which they were drawn, each with its
key, the tokens used, and for each slot cleared the token that was used and the one that was there. -/
structure Ledger (K T : Type) where
  slot : K → Option T
  known : List (K × T)
  uses : List (K × T)
  removed : List (K × T × T)
  role : ℕ → Role K T

namespace Ledger

variable {K T : Type}

/-- `v` was drawn after `t`, for the same key. -/
def After (known : List (K × T)) (k : K) (t v : T) : Prop :=
  [(k, t), (k, v)].Sublist known

instance [DecidableEq K] [DecidableEq T] (known : List (K × T)) (k : K) (t v : T) :
    Decidable (After known k t v) :=
  inferInstanceAs (Decidable (List.Sublist _ _))

section After

variable {known : List (K × T)} {k k' : K} {t t' v : T}

/-- A token drawn later comes after no others than before. -/
theorem After.of_append (h : After (known ++ [(k', t')]) k t v) (hne : (k, v) ≠ (k', t')) :
    After known k t v := by
  unfold After at h ⊢
  obtain ⟨l, m, heq, hl, hm⟩ := List.sublist_append_iff.1 h
  rcases List.sublist_singleton.1 hm with rfl | rfl
  · simpa only [heq, List.append_nil] using hl
  · have hlast : (k, v) = (k', t') := by
      simpa using congrArg List.getLast? heq
    exact absurd hlast hne

theorem After.ne (hknown : known.Nodup) (h : After known k t v) : t ≠ v := by
  intro heq
  have hpair : [(k, t), (k, v)].Nodup := h.nodup hknown
  simp [heq] at hpair

end After

variable [DecidableEq K]

/-! ## Steps -/

inductive Step (L : Ledger K T) : Ledger K T → Prop where
  /-- Some slots come to be empty. -/
  | expire (slot : K → Option T) :
      (∀ k, slot k = L.slot k ∨ slot k = none) → Step L { L with slot := slot }
  | draw (i : ℕ) (k : K) (t : T) :
      L.role i = .idle → (∀ k', (k', t) ∉ L.known) →
      Step L
        { L with
          known := L.known ++ [(k, t)]
          role := Function.update L.role i (.drawn k t) }
  | store (i : ℕ) (k : K) (t : T) :
      L.role i = .drawn k t → (∀ j u, (L.role j).Holds k u → ¬ After L.known k u t) →
      Step L
        { L with
          slot := Function.update L.slot k (some t)
          role := Function.update L.role i .idle }
  /-- A session gives up. -/
  | drop (i : ℕ) :
      (∀ k t, L.role i ≠ .used k t) →
      Step L { L with role := Function.update L.role i .idle }
  | take (i : ℕ) (k : K) (t : T) :
      L.role i = .idle → L.slot k = some t → (∀ j, ¬ (L.role j).Holds k t) →
      Step L { L with role := Function.update L.role i (.holding k t) }
  | use (i : ℕ) (k : K) (t : T) :
      L.role i = .holding k t →
      Step L
        { L with
          uses := L.uses ++ [(k, t)]
          role := Function.update L.role i (.used k t) }
  | remove (i : ℕ) (k : K) (t : T) :
      L.role i = .used k t →
      Step L
        { L with
          slot := Function.update L.slot k none
          removed := L.removed ++ ((L.slot k).map fun v => (k, t, v)).toList
          role := Function.update L.role i .idle }

/-! ## The invariant -/

structure Sound (L : Ledger K T) : Prop where
  nodup : L.known.Nodup
  /-- Every token that is stored, drawn, held, used or removed was drawn for its key. -/
  slot_known : ∀ k t, L.slot k = some t → (k, t) ∈ L.known
  drawn_known : ∀ i k t, L.role i = .drawn k t → (k, t) ∈ L.known
  holds_known : ∀ i k t, (L.role i).Holds k t → (k, t) ∈ L.known
  uses_known : ∀ x ∈ L.uses, x ∈ L.known
  removed_known : ∀ x ∈ L.removed, (x.1, x.2.2) ∈ L.known
  /-- A token is stored once, by the session that has drawn it. -/
  drawn_sole : ∀ i j k t, L.role i = .drawn k t → L.role j = .drawn k t → i = j
  drawn_new : ∀ i k t, L.role i = .drawn k t → L.slot k ≠ some t ∧ (k, t) ∉ L.uses
  drawn_free : ∀ i j k t, L.role i = .drawn k t → ¬ (L.role j).Holds k t
  /-- One session at a time holds a token, and its slot has no newer one. -/
  holds_sole : ∀ i j k t, (L.role i).Holds k t → (L.role j).Holds k t → i = j
  holds_newest : ∀ i k t v, (L.role i).Holds k t → L.slot k = some v → ¬ After L.known k t v
  /-- A token that is still to be used has not been, and one that was is no longer to be found. -/
  fresh : ∀ i k t, L.role i = .holding k t → (k, t) ∉ L.uses
  spent : ∀ k t, (k, t) ∈ L.uses → L.slot k = some t → ∃ i, L.role i = .used k t
  once : L.uses.Nodup
  removed_old : ∀ x ∈ L.removed, ¬ After L.known x.1 x.2.1 x.2.2

namespace Sound

variable {L : Ledger K T} {i : ℕ} {k : K} {t : T}

omit [DecidableEq K] in
/-- Before any session. -/
theorem initial {slot : K → Option T} {known : List (K × T)} (hknown : known.Nodup)
    (hslot : ∀ k t, slot k = some t → (k, t) ∈ known) :
    Sound ⟨slot, known, [], [], fun _ => .idle⟩ where
  nodup := hknown
  slot_known := hslot
  drawn_known := nofun
  holds_known _ _ _ h := absurd h Role.holds_idle
  uses_known := nofun
  removed_known := nofun
  drawn_sole := nofun
  drawn_new := nofun
  drawn_free := nofun
  holds_sole _ _ _ _ h := absurd h Role.holds_idle
  holds_newest _ _ _ _ h := absurd h Role.holds_idle
  fresh := nofun
  spent := nofun
  once := .nil
  removed_old := nofun

omit [DecidableEq K] in
/-- Slots that come to be empty. -/
theorem expire (hL : L.Sound) {slot : K → Option T} (hslot : ∀ k, slot k = L.slot k ∨ slot k = none) :
    Sound { L with slot := slot } := by
  have hlive : ∀ {k t}, slot k = some t → L.slot k = some t := by
    intro k t h
    rcases hslot k with heq | hnone
    · exact heq ▸ h
    · exact absurd (hnone.symm.trans h) nofun
  exact
    { hL with
      slot_known := fun k t h => hL.slot_known k t (hlive h)
      drawn_new := fun i k t h =>
        ⟨fun hk => (hL.drawn_new i k t h).1 (hlive hk), (hL.drawn_new i k t h).2⟩
      holds_newest := fun i k t v h hv => hL.holds_newest i k t v h (hlive hv)
      spent := fun k t h hk => hL.spent k t h (hlive hk) }

omit [DecidableEq K] in
/-- A session that gives up; one that has used a token does so once the token is gone. -/
theorem idle (hL : L.Sound) (hused : ∀ k t, L.role i = .used k t → L.slot k ≠ some t) :
    Sound { L with role := Function.update L.role i .idle } := by
  have hrole : ∀ {j r}, r ≠ .idle → Function.update L.role i .idle j = r → L.role j = r := by
    intro j r hr h
    by_cases hj : j = i
    · subst hj
      exact absurd (Function.update_self j Role.idle L.role ▸ h).symm hr
    · rwa [Function.update_of_ne hj] at h
  have hholds : ∀ {j k t}, (Function.update L.role i .idle j).Holds k t → (L.role j).Holds k t :=
    fun h => h.imp (hrole nofun) (hrole nofun)
  refine
    { hL with
      drawn_known := fun j k t h => hL.drawn_known j k t (hrole nofun h)
      holds_known := fun j k t h => hL.holds_known j k t (hholds h)
      drawn_sole := fun j j' k t h h' => hL.drawn_sole j j' k t (hrole nofun h) (hrole nofun h')
      drawn_new := fun j k t h => hL.drawn_new j k t (hrole nofun h)
      drawn_free := fun j j' k t h h' => hL.drawn_free j j' k t (hrole nofun h) (hholds h')
      holds_sole := fun j j' k t h h' => hL.holds_sole j j' k t (hholds h) (hholds h')
      holds_newest := fun j k t v h => hL.holds_newest j k t v (hholds h)
      fresh := fun j k t h => hL.fresh j k t (hrole nofun h)
      spent := ?_ }
  intro k t hk hslot
  obtain ⟨j, hj⟩ := hL.spent k t hk hslot
  have hne : j ≠ i := by
    intro heq
    exact hused k t (heq ▸ hj) hslot
  exact ⟨j, (Function.update_of_ne hne _ _).trans hj⟩

omit [DecidableEq K] in
/-- What session `i` and the others are at after a step of session `i`. -/
theorem role_update {P : Role K T → Prop} {r : Role K T} {j : ℕ}
    (h : P (Function.update L.role i r j)) : (j = i ∧ P r) ∨ (j ≠ i ∧ P (L.role j)) := by
  by_cases hj : j = i
  · subst hj
    rw [Function.update_self] at h
    exact .inl ⟨rfl, h⟩
  · rw [Function.update_of_ne hj] at h
    exact .inr ⟨hj, h⟩

omit [DecidableEq K] in
theorem draw (hL : L.Sound) (hidle : L.role i = .idle) (hnew : ∀ k', (k', t) ∉ L.known) :
    Sound
      { L with
        known := L.known ++ [(k, t)]
        role := Function.update L.role i (.drawn k t) } := by
  have hafter : ∀ {k' t' v}, (k', v) ∈ L.known → ¬ After L.known k' t' v →
      ¬ After (L.known ++ [(k, t)]) k' t' v := by
    intro k' t' v hv hold h
    refine hold (h.of_append fun heq => hnew k ?_)
    exact heq ▸ hv
  have hholds : ∀ {j k' t'}, (Function.update L.role i (.drawn k t) j).Holds k' t' →
      (L.role j).Holds k' t' := by
    intro j k' t' h
    rcases role_update (P := (·.Holds k' t')) h with ⟨-, h⟩ | ⟨-, h⟩
    · exact absurd h Role.holds_drawn
    · exact h
  exact
    { nodup := by
        refine List.nodup_append.2 ⟨hL.nodup, List.nodup_singleton _, fun x hx y hy heq => ?_⟩
        obtain rfl : x = (k, t) := heq.trans (List.mem_singleton.1 hy)
        exact hnew k hx
      slot_known := fun k' t' h => List.mem_append_left _ (hL.slot_known k' t' h)
      drawn_known := by
        intro j k' t' h
        rcases role_update (P := (· = .drawn k' t')) h with ⟨-, h⟩ | ⟨-, h⟩
        · obtain ⟨rfl, rfl⟩ := Role.drawn.inj h
          exact List.mem_append_right _ (List.mem_singleton_self _)
        · exact List.mem_append_left _ (hL.drawn_known j k' t' h)
      holds_known := fun j k' t' h => List.mem_append_left _ (hL.holds_known j k' t' (hholds h))
      uses_known := fun x hx => List.mem_append_left _ (hL.uses_known x hx)
      removed_known := fun x hx => List.mem_append_left _ (hL.removed_known x hx)
      drawn_sole := by
        intro j j' k' t' h h'
        rcases role_update (P := (· = .drawn k' t')) h with ⟨hj, hr⟩ | ⟨-, hr⟩ <;>
          rcases role_update (P := (· = .drawn k' t')) h' with ⟨hj', hr'⟩ | ⟨-, hr'⟩
        · exact hj.trans hj'.symm
        · obtain ⟨rfl, rfl⟩ := Role.drawn.inj hr
          exact absurd (hL.drawn_known j' k t hr') (hnew k)
        · obtain ⟨rfl, rfl⟩ := Role.drawn.inj hr'
          exact absurd (hL.drawn_known j k t hr) (hnew k)
        · exact hL.drawn_sole j j' k' t' hr hr'
      drawn_new := by
        intro j k' t' h
        rcases role_update (P := (· = .drawn k' t')) h with ⟨-, h⟩ | ⟨-, h⟩
        · obtain ⟨rfl, rfl⟩ := Role.drawn.inj h
          exact ⟨fun hk => hnew k (hL.slot_known k t hk), fun hu => hnew k (hL.uses_known _ hu)⟩
        · exact hL.drawn_new j k' t' h
      drawn_free := by
        intro j j' k' t' h h'
        rcases role_update (P := (· = .drawn k' t')) h with ⟨-, hr⟩ | ⟨-, hr⟩
        · obtain ⟨rfl, rfl⟩ := Role.drawn.inj hr
          exact hnew k (hL.holds_known j' k t (hholds h'))
        · exact hL.drawn_free j j' k' t' hr (hholds h')
      holds_sole := fun j j' k' t' h h' => hL.holds_sole j j' k' t' (hholds h) (hholds h')
      holds_newest := fun j k' t' v h hv =>
        hafter (hL.slot_known k' v hv) (hL.holds_newest j k' t' v (hholds h) hv)
      fresh := by
        intro j k' t' h
        rcases role_update (P := (· = .holding k' t')) h with ⟨-, h⟩ | ⟨-, h⟩
        · cases h
        · exact hL.fresh j k' t' h
      spent := by
        intro k' t' hu hk
        obtain ⟨j, hj⟩ := hL.spent k' t' hu hk
        have hne : j ≠ i := by
          intro heq
          subst heq
          exact absurd (hidle.symm.trans hj) nofun
        exact ⟨j, (Function.update_of_ne hne _ _).trans hj⟩
      once := hL.once
      removed_old := fun x hx => hafter (hL.removed_known x hx) (hL.removed_old x hx) }

/-- A token that has neither been used nor is to be stored once more, and that is newer than none that
is held. -/
theorem put (hL : L.Sound) (hknown : (k, t) ∈ L.known) (huses : (k, t) ∉ L.uses)
    (hdrawn : ∀ j, L.role j ≠ .drawn k t)
    (hnewer : ∀ j u, (L.role j).Holds k u → ¬ After L.known k u t) :
    Sound { L with slot := Function.update L.slot k (some t) } := by
  have hslot : ∀ {k' t'}, Function.update L.slot k (some t) k' = some t' →
      (k' = k ∧ t' = t) ∨ L.slot k' = some t' := by
    intro k' t' h
    by_cases hk : k' = k
    · subst hk
      rw [Function.update_self] at h
      exact .inl ⟨rfl, (Option.some.inj h).symm⟩
    · rw [Function.update_of_ne hk] at h
      exact .inr h
  exact
    { hL with
      slot_known := by
        intro k' t' h
        rcases hslot h with ⟨rfl, rfl⟩ | hold
        · exact hknown
        · exact hL.slot_known k' t' hold
      drawn_new := by
        intro j k' t' h
        refine ⟨fun hk => ?_, (hL.drawn_new j k' t' h).2⟩
        rcases hslot hk with ⟨rfl, rfl⟩ | hold
        · exact hdrawn j h
        · exact (hL.drawn_new j k' t' h).1 hold
      holds_newest := by
        intro j k' t' v h hv
        rcases hslot hv with ⟨rfl, rfl⟩ | hold
        · exact hnewer j t' h
        · exact hL.holds_newest j k' t' v h hold
      spent := by
        intro k' t' hu hk
        rcases hslot hk with ⟨rfl, rfl⟩ | hold
        · exact absurd hu huses
        · exact hL.spent k' t' hu hold }

theorem store (hL : L.Sound) (hrole : L.role i = .drawn k t)
    (hnewer : ∀ j u, (L.role j).Holds k u → ¬ After L.known k u t) :
    Sound
      { L with
        slot := Function.update L.slot k (some t)
        role := Function.update L.role i .idle } := by
  have hidle := hL.idle (i := i) fun k' t' h => absurd (hrole.symm.trans h) nofun
  refine hidle.put (k := k) (t := t) (hL.drawn_known i k t hrole) (hL.drawn_new i k t hrole).2
    (fun j h => ?_) fun j u h => ?_
  · rcases role_update (P := (· = .drawn k t)) h with ⟨-, h⟩ | ⟨hne, h⟩
    · cases h
    · exact hne (hL.drawn_sole j i k t h hrole)
  · rcases role_update (P := (·.Holds k u)) h with ⟨-, h⟩ | ⟨-, h⟩
    · exact absurd h Role.holds_idle
    · exact hnewer j u h

omit [DecidableEq K] in
theorem take (hL : L.Sound) (hidle : L.role i = .idle) (hslot : L.slot k = some t)
    (hsole : ∀ j, ¬ (L.role j).Holds k t) :
    Sound { L with role := Function.update L.role i (.holding k t) } := by
  have hholds : ∀ {j k' t'}, (Function.update L.role i (.holding k t) j).Holds k' t' →
      (j = i ∧ k' = k ∧ t' = t) ∨ (L.role j).Holds k' t' := by
    intro j k' t' h
    rcases role_update (P := (·.Holds k' t')) h with ⟨hj, h⟩ | ⟨-, h⟩
    · obtain ⟨rfl, rfl⟩ := Role.holds_holding.1 h
      exact .inl ⟨hj, rfl, rfl⟩
    · exact .inr h
  have hdrawn : ∀ {j k' t'}, Function.update L.role i (.holding k t) j = .drawn k' t' →
      L.role j = .drawn k' t' := by
    intro j k' t' h
    rcases role_update (P := (· = .drawn k' t')) h with ⟨-, h⟩ | ⟨-, h⟩
    · cases h
    · exact h
  exact
    { hL with
      drawn_known := fun j k' t' h => hL.drawn_known j k' t' (hdrawn h)
      holds_known := by
        intro j k' t' h
        rcases hholds h with ⟨-, rfl, rfl⟩ | hold
        · exact hL.slot_known _ _ hslot
        · exact hL.holds_known j k' t' hold
      drawn_sole := fun j j' k' t' h h' => hL.drawn_sole j j' k' t' (hdrawn h) (hdrawn h')
      drawn_new := fun j k' t' h => hL.drawn_new j k' t' (hdrawn h)
      drawn_free := by
        intro j j' k' t' h h'
        rcases hholds h' with ⟨-, rfl, rfl⟩ | hold
        · exact (hL.drawn_new j _ _ (hdrawn h)).1 hslot
        · exact hL.drawn_free j j' k' t' (hdrawn h) hold
      holds_sole := by
        intro j j' k' t' h h'
        rcases hholds h with ⟨hj, hk, ht⟩ | hold <;> rcases hholds h' with ⟨hj', hk', ht'⟩ | hold'
        · exact hj.trans hj'.symm
        · subst hk ht
          exact absurd hold' (hsole j')
        · subst hk' ht'
          exact absurd hold (hsole j)
        · exact hL.holds_sole j j' k' t' hold hold'
      holds_newest := by
        intro j k' t' v h hv
        rcases hholds h with ⟨-, rfl, rfl⟩ | hold
        · intro hafter
          exact hafter.ne hL.nodup (Option.some.inj (hslot.symm.trans hv))
        · exact hL.holds_newest j k' t' v hold hv
      fresh := by
        intro j k' t' h hu
        rcases role_update (P := (· = .holding k' t')) h with ⟨-, h⟩ | ⟨-, h⟩
        · obtain ⟨rfl, rfl⟩ := Role.holding.inj h
          obtain ⟨j', hj'⟩ := hL.spent _ _ hu hslot
          exact hsole j' (.inr hj')
        · exact hL.fresh j k' t' h hu
      spent := by
        intro k' t' hu hk
        obtain ⟨j, hj⟩ := hL.spent k' t' hu hk
        have hne : j ≠ i := by
          intro heq
          subst heq
          exact absurd (hidle.symm.trans hj) nofun
        exact ⟨j, (Function.update_of_ne hne _ _).trans hj⟩ }

omit [DecidableEq K] in
theorem use (hL : L.Sound) (hrole : L.role i = .holding k t) :
    Sound
      { L with
        uses := L.uses ++ [(k, t)]
        role := Function.update L.role i (.used k t) } := by
  have hi : (L.role i).Holds k t := .inl hrole
  have hholds : ∀ {j k' t'}, (Function.update L.role i (.used k t) j).Holds k' t' →
      (L.role j).Holds k' t' := by
    intro j k' t' h
    rcases role_update (P := (·.Holds k' t')) h with ⟨hj, hr⟩ | ⟨-, hr⟩
    · obtain ⟨rfl, rfl⟩ := Role.holds_used.1 hr
      exact hj ▸ hi
    · exact hr
  have hdrawn : ∀ {j k' t'}, Function.update L.role i (.used k t) j = .drawn k' t' →
      L.role j = .drawn k' t' := by
    intro j k' t' h
    rcases role_update (P := (· = .drawn k' t')) h with ⟨-, h⟩ | ⟨-, h⟩
    · cases h
    · exact h
  exact
    { hL with
      drawn_known := fun j k' t' h => hL.drawn_known j k' t' (hdrawn h)
      holds_known := fun j k' t' h => hL.holds_known j k' t' (hholds h)
      uses_known := by
        intro x hx
        rcases List.mem_append.1 hx with hold | hlast
        · exact hL.uses_known x hold
        · obtain rfl := List.mem_singleton.1 hlast
          exact hL.holds_known i k t hi
      drawn_sole := fun j j' k' t' h h' => hL.drawn_sole j j' k' t' (hdrawn h) (hdrawn h')
      drawn_new := by
        intro j k' t' h
        refine ⟨(hL.drawn_new j k' t' (hdrawn h)).1, fun hu => ?_⟩
        rcases List.mem_append.1 hu with hold | hlast
        · exact (hL.drawn_new j k' t' (hdrawn h)).2 hold
        · obtain ⟨rfl, rfl⟩ := Prod.mk.inj (List.mem_singleton.1 hlast)
          exact hL.drawn_free j i _ _ (hdrawn h) hi
      drawn_free := fun j j' k' t' h h' => hL.drawn_free j j' k' t' (hdrawn h) (hholds h')
      holds_sole := fun j j' k' t' h h' => hL.holds_sole j j' k' t' (hholds h) (hholds h')
      holds_newest := fun j k' t' v h hv => hL.holds_newest j k' t' v (hholds h) hv
      fresh := by
        intro j k' t' h hu
        rcases role_update (P := (· = .holding k' t')) h with ⟨-, hr⟩ | ⟨hne, hr⟩
        · cases hr
        · rcases List.mem_append.1 hu with hold | hlast
          · exact hL.fresh j k' t' hr hold
          · obtain ⟨rfl, rfl⟩ := Prod.mk.inj (List.mem_singleton.1 hlast)
            exact hne (hL.holds_sole j i _ _ (.inl hr) hi)
      spent := by
        intro k' t' hu hk
        rcases List.mem_append.1 hu with hold | hlast
        · obtain ⟨j, hj⟩ := hL.spent k' t' hold hk
          have hne : j ≠ i := by
            intro heq
            subst heq
            exact absurd (hrole.symm.trans hj) nofun
          exact ⟨j, (Function.update_of_ne hne _ _).trans hj⟩
        · obtain ⟨rfl, rfl⟩ := Prod.mk.inj (List.mem_singleton.1 hlast)
          exact ⟨i, Function.update_self i _ _⟩
      once := by
        refine List.nodup_append.2 ⟨hL.once, List.nodup_singleton _, fun x hx y hy heq => ?_⟩
        obtain rfl : x = (k, t) := heq.trans (List.mem_singleton.1 hy)
        exact hL.fresh i k t hrole hx }

theorem remove (hL : L.Sound) (hrole : L.role i = .used k t) :
    Sound
      { L with
        slot := Function.update L.slot k none
        removed := L.removed ++ ((L.slot k).map fun v => (k, t, v)).toList
        role := Function.update L.role i .idle } := by
  have hcleared : Sound { L with slot := Function.update L.slot k none } := by
    refine hL.expire fun k' => ?_
    by_cases hk : k' = k
    · subst hk
      exact .inr (Function.update_self _ _ _)
    · exact .inl (Function.update_of_ne hk _ _)
  have hidle := hcleared.idle (i := i) fun k' t' h hslot => by
    obtain ⟨rfl, rfl⟩ := Role.used.inj (hrole.symm.trans h)
    exact absurd ((Function.update_self _ _ _).symm.trans hslot) nofun
  have hnew : ∀ {x}, x ∈ ((L.slot k).map fun v => (k, t, v)).toList →
      ∃ v, L.slot k = some v ∧ x = (k, t, v) := by
    intro x hx
    obtain ⟨v, hv, rfl⟩ := Option.map_eq_some_iff.1 (Option.mem_toList.1 hx)
    exact ⟨v, hv, rfl⟩
  exact
    { hidle with
      removed_known := by
        intro x hx
        rcases List.mem_append.1 hx with hold | hlast
        · exact hL.removed_known x hold
        · obtain ⟨v, hv, rfl⟩ := hnew hlast
          exact hL.slot_known k v hv
      removed_old := by
        intro x hx
        rcases List.mem_append.1 hx with hold | hlast
        · exact hL.removed_old x hold
        · obtain ⟨v, hv, rfl⟩ := hnew hlast
          exact hL.holds_newest i k t v (.inr hrole) hv }

end Sound

theorem Step.sound {L L' : Ledger K T} (h : Step L L') : L.Sound → L'.Sound := by
  intro hL
  cases h with
  | expire slot hslot => exact hL.expire hslot
  | draw i k t hidle hnew => exact hL.draw hidle hnew
  | store i k t hrole hnewer => exact hL.store hrole hnewer
  | drop i hused => exact hL.idle fun k t h => absurd h (hused k t)
  | take i k t hidle hslot hsole => exact hL.take hidle hslot hsole
  | use i k t hrole => exact hL.use hrole
  | remove i k t hrole => exact hL.remove hrole

end Ledger

end Lib
end Bookit

import Mathlib.Data.List.DropRight
import Mathlib.Data.List.Infix

/-!
# Pieces — splitting at a separator, trimming, and cutting a word out

A text is a list of characters.  It is split at a separator from the left, each search starting
behind the last separator found.

* `split` — the pieces of a text;
* `Clean` — pieces in front of a separator: the separator occurs behind them and not before;
* `closed_inj` — clean pieces, each with its separator, are read back in one way only;
* `split_cases` — every text is a list of clean pieces, each with its separator, and a rest.
-/

namespace Bookit
namespace Lib

variable {α : Type} [DecidableEq α]

/-! ## Splitting -/

/-- The pieces of what comes behind the next `n` characters. -/
def splitFrom (sep : List α) : ℕ → List α → List (List α)
  | _, [] => [[]]
  | n + 1, _ :: cs => splitFrom sep n cs
  | 0, c :: cs =>
      if sep.isPrefixOf (c :: cs) then
        [] :: splitFrom sep (sep.length - 1) cs
      else
        (splitFrom sep 0 cs).modifyHead (c :: ·)

def split (sep s : List α) : List (List α) :=
  splitFrom sep 0 s

omit [DecidableEq α] in
/-- The separator occurs behind the piece and not before. -/
def Clean (sep p : List α) : Prop :=
  ∀ a b, a ++ sep ++ b = p ++ sep → b = []

/-- The pieces, each with the separator behind it. -/
def closed (sep : List α) (ps : List (List α)) : List α :=
  ps.flatMap (· ++ sep)

section Clean

omit [DecidableEq α]

variable {sep p q s : List α} {c : α}

theorem clean_nil : Clean sep [] := by
  intro a b h
  have hlen := congrArg List.length h
  simp only [List.length_append, List.nil_append] at hlen
  exact List.length_eq_zero_iff.1 (by omega)

theorem Clean.tail (h : Clean sep (c :: p)) : Clean sep p := by
  intro a b heq
  apply h (c :: a) b
  rw [List.cons_append, List.cons_append, heq, List.cons_append]

/-- Nothing in front of a clean piece makes the separator occur earlier in what is behind. -/
theorem Clean.suffix (h : Clean sep (q ++ p)) : Clean sep p := by
  induction q with
  | nil => exact h
  | cons c q ih => exact ih h.tail

theorem Clean.not_inside (h : Clean sep p) (hsep : sep ≠ []) : ¬ sep <:+: p := by
  rintro ⟨a, b, rfl⟩
  have hnil : b ++ sep = [] := by
    apply h a (b ++ sep)
    simp only [List.append_assoc]
  exact hsep (List.append_eq_nil_iff.1 hnil).2

/-- Of two clean pieces in front of the same text, neither is the shorter. -/
theorem Clean.eq_of_append {r r' : List α} (hq : Clean sep q) (hp : Clean sep p)
    (h : q ++ sep ++ r = p ++ sep ++ r') : q = p := by
  have hshorter : ∀ {q p r r' : List α}, Clean sep p → q ++ sep ++ r = p ++ sep ++ r' →
      q.length ≤ p.length → q = p := by
    intro q p r r' hp h hle
    have hlong : q ++ sep <+: p ++ sep ++ r' := ⟨r, h⟩
    have hstarts : q ++ sep <+: p ++ sep := by
      apply List.prefix_of_prefix_length_le hlong (List.prefix_append _ _)
      simp only [List.length_append]
      omega
    obtain ⟨b, hb⟩ := hstarts
    rw [hp q b hb, List.append_nil] at hb
    exact List.append_cancel_right hb
  rcases Nat.le_total q.length p.length with hle | hle
  · exact hshorter hp h hle
  · exact (hshorter hq h.symm hle).symm

/-- Clean pieces, each with its separator, are read back in one way only. -/
theorem closed_inj {ps qs : List (List α)} (hsep : sep ≠ []) (hps : ∀ p ∈ ps, Clean sep p)
    (hqs : ∀ q ∈ qs, Clean sep q) (h : closed sep ps = closed sep qs) : ps = qs := by
  have hne : ∀ (p : List α) ps, closed sep (p :: ps) ≠ [] := by
    intro p ps hnil
    rw [closed, List.flatMap_cons] at hnil
    exact hsep (List.append_eq_nil_iff.1 (List.append_eq_nil_iff.1 hnil).1).2
  induction ps generalizing qs with
  | nil =>
      cases qs with
      | nil => rfl
      | cons q qs => exact absurd h.symm (hne q qs)
  | cons p ps ih =>
      cases qs with
      | nil => exact absurd h (hne p ps)
      | cons q qs =>
          have h : p ++ sep ++ closed sep ps = q ++ sep ++ closed sep qs := h
          have hhead : p = q :=
            (hps p List.mem_cons_self).eq_of_append (hqs q List.mem_cons_self) h
          subst hhead
          rw [ih (fun p hp => hps p (List.mem_cons_of_mem _ hp))
            (fun q hq => hqs q (List.mem_cons_of_mem _ hq)) (List.append_cancel_left h)]

/-- Where the separator occurs, it occurs for the first time behind a clean piece. -/
theorem exists_clean (h : sep <:+: s) : ∃ p r, s = p ++ sep ++ r ∧ Clean sep p := by
  induction s with
  | nil =>
      obtain rfl : sep = [] := List.infix_nil.1 h
      exact ⟨[], [], rfl, clean_nil⟩
  | cons c s ih =>
      by_cases hstarts : sep <+: c :: s
      · obtain ⟨r, hr⟩ := hstarts
        exact ⟨[], r, hr.symm, clean_nil⟩
      · obtain ⟨p, r, rfl, hp⟩ := ih ((List.infix_cons_iff.1 h).resolve_left hstarts)
        refine ⟨c :: p, r, rfl, fun a b heq => ?_⟩
        cases a with
        | nil =>
            refine absurd ⟨b ++ r, ?_⟩ hstarts
            calc sep ++ (b ++ r) = [] ++ sep ++ b ++ r := by simp only [List.append_assoc,
                  List.nil_append]
              _ = c :: (p ++ sep ++ r) := by rw [heq]; simp only [List.cons_append]
        | cons d a =>
            rw [List.cons_append, List.cons_append, List.cons_append] at heq
            exact hp a b (List.cons.inj heq).2

theorem intercalate_concat {ps : List (List α)} :
    sep.intercalate (ps ++ [p]) = closed sep ps ++ p := by
  induction ps with
  | nil => exact List.intercalate_singleton
  | cons q ps ih =>
      have hne : ps ++ [p] ≠ [] := List.append_ne_nil_of_right_ne_nil _ (List.cons_ne_nil _ _)
      rw [List.cons_append, List.intercalate_cons_of_ne_nil hne, ih, closed, closed,
        List.flatMap_cons]
      simp only [List.append_assoc]

theorem intercalate_append_sep {ps : List (List α)} (hne : ps ≠ []) :
    sep.intercalate ps ++ sep = closed sep ps := by
  obtain ⟨init, last, rfl⟩ := (List.eq_nil_or_concat' ps).resolve_left hne
  rw [intercalate_concat, closed, closed, List.flatMap_append, List.flatMap_singleton,
    List.append_assoc]

end Clean

section Split

variable {sep p s : List α}

theorem splitFrom_drop (n : ℕ) : splitFrom sep n s = split sep (s.drop n) := by
  induction s generalizing n with
  | nil =>
      rw [List.drop_nil]
      cases n <;> rfl
  | cons c s ih =>
      cases n with
      | zero => rfl
      | succ n => exact ih n

theorem split_cons (c : α) :
    split sep (c :: s) = if sep.isPrefixOf (c :: s) then
      [] :: splitFrom sep (sep.length - 1) s
    else
      (split sep s).modifyHead (c :: ·) := rfl

/-- A clean piece in front of a separator is the first piece. -/
theorem split_clean (hsep : sep ≠ []) (hp : Clean sep p) :
    split sep (p ++ sep ++ s) = p :: split sep s := by
  induction p with
  | nil =>
      obtain ⟨c, cs, rfl⟩ := List.exists_cons_of_ne_nil hsep
      have hstarts : (c :: cs).isPrefixOf (c :: (cs ++ s)) = true :=
        List.isPrefixOf_iff_prefix.2 ⟨s, rfl⟩
      rw [List.nil_append, List.cons_append, split_cons, if_pos hstarts, splitFrom_drop,
        List.length_cons, Nat.add_sub_cancel, List.drop_left]
  | cons c p ih =>
      have hnot : ¬ sep <+: c :: (p ++ sep ++ s) := by
        intro hstarts
        have hshort : sep <+: c :: p ++ sep := by
          apply List.prefix_of_prefix_length_le hstarts ⟨s, by simp only [List.cons_append]⟩
          simp only [List.length_append, List.length_cons]
          omega
        obtain ⟨b, hb⟩ := hshort
        have hlen := congrArg List.length hb
        rw [hp [] b hb] at hlen
        simp only [List.length_append, List.length_cons, List.length_nil] at hlen
        omega
      rw [List.cons_append, List.cons_append, split_cons,
        if_neg fun h => hnot (List.isPrefixOf_iff_prefix.1 h), ih hp.tail]
      rfl

theorem split_of_absent (h : ¬ sep <:+: s) : split sep s = [s] := by
  induction s with
  | nil => rfl
  | cons c s ih =>
      obtain ⟨hstarts, hrest⟩ := not_or.1 (mt List.infix_cons_iff.2 h)
      rw [split_cons, if_neg fun hc => hstarts (List.isPrefixOf_iff_prefix.1 hc), ih hrest]
      rfl

/-- Clean pieces and a rest without a separator are what the text is split into. -/
theorem split_closed {ps : List (List α)} (hsep : sep ≠ []) (hps : ∀ q ∈ ps, Clean sep q)
    (hp : ¬ sep <:+: p) : split sep (closed sep ps ++ p) = ps ++ [p] := by
  induction ps with
  | nil => exact split_of_absent hp
  | cons q ps ih =>
      have htail : ∀ q ∈ ps, Clean sep q := fun q hq => hps q (List.mem_cons_of_mem _ hq)
      calc split sep (closed sep (q :: ps) ++ p)
          = split sep (q ++ sep ++ (closed sep ps ++ p)) := by
            rw [closed, List.flatMap_cons]
            simp only [closed, List.append_assoc]
        _ = q :: split sep (closed sep ps ++ p) := split_clean hsep (hps q List.mem_cons_self)
        _ = q :: (ps ++ [p]) := by rw [ih htail]

/-- Every text is a list of clean pieces, each with its separator, and a rest without one. -/
theorem split_cases (hsep : sep ≠ []) (s : List α) :
    ∃ ps p, split sep s = ps ++ [p] ∧ s = closed sep ps ++ p ∧ (∀ q ∈ ps, Clean sep q) ∧
      ¬ sep <:+: p := by
  have hall : ∀ n, ∀ s : List α, s.length ≤ n → ∃ ps p, s = closed sep ps ++ p ∧
      (∀ q ∈ ps, Clean sep q) ∧ ¬ sep <:+: p := by
    intro n
    induction n with
    | zero =>
        intro s hs
        obtain rfl : s = [] := List.length_eq_zero_iff.1 (Nat.le_zero.1 hs)
        exact ⟨[], [], rfl, fun _ h => absurd h List.not_mem_nil, fun h => hsep (List.infix_nil.1 h)⟩
    | succ n ih =>
        intro s hs
        by_cases hinfix : sep <:+: s
        · obtain ⟨q, r, rfl, hq⟩ := exists_clean hinfix
          have hpos : 0 < sep.length := List.length_pos_of_ne_nil hsep
          have hr : r.length ≤ n := by
            simp only [List.length_append] at hs
            omega
          obtain ⟨ps, p, rfl, hps, hp⟩ := ih r hr
          refine ⟨q :: ps, p, ?_, List.forall_mem_cons.2 ⟨hq, hps⟩, hp⟩
          simp only [closed, List.flatMap_cons, List.append_assoc]
        · exact ⟨[], s, rfl, fun _ h => absurd h List.not_mem_nil, hinfix⟩
  obtain ⟨ps, p, heq, hps, hp⟩ := hall s.length s (Nat.le_refl _)
  exact ⟨ps, p, heq ▸ split_closed hsep hps hp, heq, hps, hp⟩

end Split

/-! ## Trimming -/

section Strip

omit [DecidableEq α]

variable {blank : α → Bool} {s t : List α}

/-- What is left without the blanks at both ends, as `trim` of a string. -/
def strip (blank : α → Bool) (s : List α) : List α :=
  (s.dropWhile blank).rdropWhile blank

theorem strip_within : strip blank s <:+: s :=
  (List.rdropWhile_prefix blank _).isInfix.trans (List.dropWhile_suffix _).isInfix

theorem length_strip_le : (strip blank s).length ≤ s.length :=
  strip_within.length_le

theorem strip_eq_self (h : s.length ≤ (strip blank s).length) : strip blank s = s :=
  strip_within.sublist.eq_of_length_le h

/-- A trimmed text does not end with a blank. -/
theorem not_blank_getLast (hne : strip blank s ≠ []) :
    blank ((strip blank s).getLast hne) = false :=
  eq_false_of_ne_true (List.rdropWhile_last_not blank (s.dropWhile blank) hne)

/-- A text without a blank at its end loses what is in front only. -/
theorem strip_suffix (hlast : ∀ hne : s ≠ [], blank (s.getLast hne) = false) :
    strip blank s = s.dropWhile blank := by
  unfold strip
  apply List.rdropWhile_eq_self_iff.2
  intro hne
  obtain ⟨a, ha⟩ := List.dropWhile_suffix (l := s) blank
  have hs : s ≠ [] := fun hnil => hne (by rw [hnil]; rfl)
  have hsame : (s.dropWhile blank).getLast hne = s.getLast hs :=
    calc (s.dropWhile blank).getLast hne
        = (a ++ s.dropWhile blank).getLast (List.append_ne_nil_of_right_ne_nil a hne) :=
          (List.getLast_append_of_ne_nil _ hne).symm
      _ = s.getLast hs := List.getLast_congr _ _ ha
  rw [hsame, hlast hs]
  exact Bool.false_ne_true

theorem strip_strip : strip blank (strip blank s) = strip blank s := by
  have hhead : (strip blank s).dropWhile blank = strip blank s := by
    cases hstrip : strip blank s with
    | nil => rfl
    | cons c cs =>
        have hstarts : c :: cs <+: s.dropWhile blank := hstrip ▸ List.rdropWhile_prefix blank _
        obtain ⟨r, hr⟩ := hstarts
        have hc : blank c = false := by
          have hne : s.dropWhile blank ≠ [] := by
            rw [← hr]
            exact List.cons_ne_nil _ _
          have hnot := List.head_dropWhile_not blank hne
          simpa only [← hr, List.cons_append, List.head_cons] using hnot
        rw [List.dropWhile_cons_of_neg (by simp [hc])]
  unfold strip at hhead ⊢
  rw [hhead, List.rdropWhile_idempotent]

end Strip

/-! ## Cutting a word out -/

/-- The text without the first occurrence of the word. -/
def removeFirst (word : List α) : List α → List α
  | [] => []
  | c :: cs =>
      if word.isPrefixOf (c :: cs) then
        (c :: cs).drop word.length
      else
        c :: removeFirst word cs

section RemoveFirst

variable {word s : List α}

theorem removeFirst_append (hword : word ≠ []) : removeFirst word (word ++ s) = s := by
  obtain ⟨c, cs, rfl⟩ := List.exists_cons_of_ne_nil hword
  have hstarts : (c :: cs).isPrefixOf (c :: (cs ++ s)) = true :=
    List.isPrefixOf_iff_prefix.2 ⟨s, rfl⟩
  rw [List.cons_append, removeFirst, if_pos hstarts]
  exact List.drop_left

/-- The text is as it was, or a word has been cut out of it. -/
theorem removeFirst_cases (s : List α) :
    removeFirst word s = s ∨ ∃ u v, s = u ++ word ++ v ∧ removeFirst word s = u ++ v := by
  induction s with
  | nil => exact .inl rfl
  | cons c s ih =>
      rw [removeFirst]
      split_ifs with hstarts
      · obtain ⟨v, hv⟩ := List.isPrefixOf_iff_prefix.1 hstarts
        refine .inr ⟨[], v, hv.symm, ?_⟩
        rw [← hv, List.drop_left]
        rfl
      · rcases ih with ih | ⟨u, v, rfl, ih⟩
        · rw [ih]
          exact .inl rfl
        · rw [ih]
          exact .inr ⟨c :: u, v, rfl, rfl⟩

end RemoveFirst

end Lib
end Bookit

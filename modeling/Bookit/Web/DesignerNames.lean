import Bookit.Web.SeatDesigner
import Mathlib.Data.List.Perm.Subperm

/-!
# Web.DesignerNames — the block names that are read back

The labels of a block are joined into one name, and found in it again by splitting, trimming and
searching for words.  `Readable` says of a name that the labels found in it make up the name; and
`renamed_iff` that no other name is reproduced.
-/

namespace Bookit
namespace SeatDesigner

open Lib

/-- The labels found in the pieces in front of the last, in the order of their saving. -/
def found (parts : List Text) : List Text :=
  [directionOf parts, gateOf parts, standOf parts].filter fun label => decide (label ≠ [])

/-- A name that is read back.  In a rectangle it is any name but an empty one and one that starts
with the prefix.  In the other shapes its pieces are trimmed: a direction, a gate and a stand as they
are found among them, at least one, and last the prefix with the name of the block. -/
def Readable (shape : LayoutShape) (name : Text) : Prop :=
  if shape = .rectangular then
    name ≠ [] ∧ ¬ blockPrefix <+: name
  else
    ∃ parts label, split separator name = parts ++ [blockPrefix ++ label] ∧ label ≠ [] ∧
      parts ≠ [] ∧ (∀ p ∈ parts ++ [blockPrefix ++ label], strip isSpace p = p) ∧
      found parts = parts

/-! ## Pieces between separators -/

theorem separator_ne_nil : separator ≠ [] := by decide

theorem not_clean_of_suffix {p : Text} (h : [32, 45] <:+ p) : ¬ Clean separator p := by
  rintro hp
  obtain ⟨a, rfl⟩ := h
  have hnil : ([45, 32] : Text) = [] := by
    apply hp a
    show a ++ [32, 45, 32] ++ [45, 32] = a ++ [32, 45] ++ [32, 45, 32]
    simp only [List.append_assoc, List.cons_append, List.nil_append]
  cases hnil

/-- The separator overlaps itself at its ends only. -/
theorem clean_of_not {p : Text} (hin : ¬ separator <:+: p) (hend : ¬ [32, 45] <:+ p) :
    Clean separator p := by
  intro a b h
  have h : a ++ [32, 45, 32] ++ b = p ++ [32, 45, 32] := h
  rcases List.eq_nil_or_concat' b with rfl | ⟨b, z, rfl⟩
  · rfl
  have h1 : a ++ [32, 45, 32] ++ b = p ++ [32, 45] := by
    rw [← List.append_assoc, show ([32, 45, 32] : Text) = [32, 45] ++ [32] from rfl,
      ← List.append_assoc p] at h
    exact (List.append_inj' h rfl).1
  rcases List.eq_nil_or_concat' b with rfl | ⟨b, z, rfl⟩
  · rw [List.append_nil, show ([32, 45, 32] : Text) = [32, 45] ++ [32] from rfl,
      show ([32, 45] : Text) = [32] ++ [45] from rfl, ← List.append_assoc p,
      ← List.append_assoc] at h1
    exact absurd (List.append_inj' h1 rfl).2 (by decide)
  have h2 : a ++ [32, 45, 32] ++ b = p ++ [32] := by
    rw [← List.append_assoc, show ([32, 45] : Text) = [32] ++ [45] from rfl,
      ← List.append_assoc p] at h1
    exact (List.append_inj' h1 rfl).1
  rcases List.eq_nil_or_concat' b with rfl | ⟨b, z, rfl⟩
  · -- the separator would start with the last two units of the piece
    rw [List.append_nil, show ([32, 45, 32] : Text) = [32, 45] ++ [32] from rfl,
      ← List.append_assoc] at h2
    exact absurd ⟨a, (List.append_inj' h2 rfl).1⟩ hend
  · rw [← List.append_assoc] at h2
    exact absurd ⟨a, b, (List.append_inj' h2 rfl).1⟩ hin

/-- What stands between a separator and blanks before a unit that is none. -/
theorem blanks_eq_nil {a b w : Text} {z : ℕ} (hz : isSpace z = false)
    (hw : ∀ u ∈ w, isSpace u = true) (h : a ++ [z, 32] = b ++ separator ++ w) :
    w = [] ∧ z = 45 := by
  have hz' : a ++ [z, 32] = a ++ [z] ++ [32] := by
    simp only [List.append_assoc, List.cons_append, List.nil_append]
  rcases List.eq_nil_or_concat' w with rfl | ⟨w, c, rfl⟩
  · have h : a ++ [z, 32] = b ++ [32] ++ [45, 32] := by
      rw [h]
      show b ++ [32, 45, 32] ++ [] = _
      simp only [List.append_assoc, List.cons_append, List.nil_append, List.append_nil]
    exact ⟨rfl, (List.cons.inj (List.append_inj' h rfl).2).1⟩
  · rw [hz', ← List.append_assoc] at h
    have hcut : a ++ [z] = b ++ separator ++ w := (List.append_inj' h rfl).1
    have hblank : isSpace z = true := by
      rcases List.eq_nil_or_concat' w with rfl | ⟨w, d, rfl⟩
      · have hcut : a ++ [z] = b ++ [32, 45] ++ [32] := by
          rw [hcut]
          show b ++ [32, 45, 32] ++ [] = _
          simp only [List.append_assoc, List.cons_append, List.nil_append, List.append_nil]
        rw [(List.cons.inj (List.append_inj' hcut rfl).2).1]
        decide
      · rw [← List.append_assoc] at hcut
        rw [(List.cons.inj (List.append_inj' hcut rfl).2).1]
        exact hw d (List.mem_append_left _ (List.mem_append_right _ (List.mem_singleton_self d)))
    rw [hz] at hblank
    cases hblank

/-! ## Labels found in pieces -/

section Found

variable {parts : List Text} {label : Text}

theorem find_label {p : Text → Bool} (h : (parts.find? p).getD [] ≠ []) :
    (parts.find? p).getD [] ∈ parts ∧ p ((parts.find? p).getD []) = true := by
  cases hfind : parts.find? p with
  | none =>
      rw [hfind] at h
      exact absurd rfl h
  | some label => exact ⟨List.mem_of_find?_eq_some hfind, List.find?_some hfind⟩

theorem mem_found : label ∈ found parts ↔
    (label = directionOf parts ∨ label = gateOf parts ∨ label = standOf parts) ∧ label ≠ [] := by
  simp [found]

theorem mem_of_found (h : label ∈ found parts) : label ∈ parts ∧ label ≠ [] := by
  obtain ⟨rfl | rfl | rfl, hne⟩ := mem_found.1 h
  · exact ⟨(find_label hne).1, hne⟩
  · exact ⟨(find_label hne).1, hne⟩
  · exact ⟨(find_label hne).1, hne⟩

theorem length_of_isGate (h : isGate label = true) : 4 ≤ label.length := by
  have hinfix : text "gate" <:+: toLowerCase label := of_decide_eq_true h
  calc 4 = (text "gate").length := rfl
    _ ≤ (toLowerCase label).length := hinfix.length_le
    _ = label.length := List.length_map _

/-- The labels are different pieces, or one piece is both the gate and the stand. -/
theorem found_cases (parts : List Text) :
    (found parts).Nodup ∨ ∃ t, isGate t = true ∧ t ∈ parts ∧
      (found parts = [t, t] ∨ found parts = [directionOf parts, t, t]) := by
  have hdirection : directionOf parts ≠ [] →
      directionOf parts ≠ standOf parts ∧ directionOf parts ≠ gateOf parts :=
    fun hne => of_decide_eq_true (find_label hne).2
  by_cases hgate : gateOf parts = []
  · left
    unfold found
    by_cases hd : directionOf parts = [] <;> by_cases hs : standOf parts = []
    · simp [hd, hgate, hs]
    · simp [hd, hgate, hs]
    · simp [hd, hgate, hs]
    · simp [hd, hgate, hs, (hdirection hd).1]
  by_cases hsame : gateOf parts = standOf parts
  · right
    obtain ⟨hmem, hisGate⟩ := find_label hgate
    refine ⟨gateOf parts, hisGate, hmem, ?_⟩
    unfold found
    by_cases hd : directionOf parts = []
    · left
      simp [hd, ← hsame, hgate]
    · right
      simp [hd, ← hsame, hgate]
  · left
    unfold found
    by_cases hd : directionOf parts = [] <;> by_cases hs : standOf parts = []
    · simp [hd, hgate, hs]
    · simp [hd, hgate, hs, hsame]
    · simp [hd, hgate, hs, (hdirection hd).2]
    · simp [hd, hgate, hs, hsame, (hdirection hd).1, (hdirection hd).2]

end Found

/-! ## Labels that make up the text they are found in -/

/-- The length of pieces with their separators. -/
theorem length_closed (ps : List Text) :
    (closed separator ps).length = (ps.map fun p => p.length + 3).sum := by
  induction ps with
  | nil => rfl
  | cons p ps ih =>
      rw [closed, List.flatMap_cons, List.length_append, List.map_cons, List.sum_cons, ← ih,
        List.length_append]
      rfl

/-- Each piece that is left out makes them shorter. -/
theorem length_closed_sublist {ps qs : List Text} (h : ps.Sublist qs) :
    (closed separator ps).length + (qs.length - ps.length) ≤ (closed separator qs).length := by
  rw [length_closed, length_closed]
  induction h with
  | slnil => exact Nat.le_refl 0
  | cons q h ih =>
      have hle := h.length_le
      simp only [List.map_cons, List.sum_cons, List.length_cons]
      omega
  | cons_cons q h ih =>
      simp only [List.map_cons, List.sum_cons, List.length_cons]
      omega

/-- A part of the pieces that is as long as all of them. -/
theorem eq_of_sublist {ps qs : List Text} (h : ps.Sublist qs)
    (hlen : (closed separator qs).length ≤ (closed separator ps).length) : ps = qs := by
  have hshorter := length_closed_sublist h
  exact h.eq_of_length_le (by omega)

section MadeUp

variable {ps : List Text}

/-- A trimmed piece holds no separator, and is clean unless it ends like the start of one. -/
theorem clean_of_strip (hps : ∀ p ∈ ps, Clean separator p) {t : Text}
    (ht : t ∈ ps.map (strip isSpace)) (hend : ¬ [32, 45] <:+ t) : Clean separator t := by
  obtain ⟨p, hp, rfl⟩ := List.mem_map.1 ht
  exact clean_of_not (fun h => (hps p hp).not_inside separator_ne_nil (h.trans strip_within)) hend

/-- Different labels that are as long as the pieces are the pieces. -/
theorem found_eq_of_nodup (hps : ∀ p ∈ ps, Clean separator p)
    (hnodup : (found (ps.map (strip isSpace))).Nodup)
    (h : closed separator (found (ps.map (strip isSpace))) = closed separator ps) :
    found (ps.map (strip isSpace)) = ps := by
  have hsub : found (ps.map (strip isSpace)) ⊆ ps.map (strip isSpace) :=
    fun t ht => (mem_of_found ht).1
  obtain ⟨l, hperm, hl⟩ := hnodup.subperm hsub
  have hstrip : (closed separator (ps.map (strip isSpace))).length ≤ (closed separator ps).length := by
    rw [length_closed, length_closed, List.map_map]
    apply List.sum_le_sum
    intro p _
    exact Nat.add_le_add_right length_strip_le 3
  have hlong : (closed separator l).length = (closed separator ps).length := by
    rw [← h, length_closed, length_closed]
    exact (hperm.map _).sum_eq
  have hall : l = ps.map (strip isSpace) := eq_of_sublist hl (hlong ▸ hstrip)
  have hsame : ∀ p ∈ ps, strip isSpace p = p := by
    intro p hp
    have hlength : (strip isSpace p).length + 3 = p.length + 3 := by
      refine eq_of_sum_le (f := fun p : Text => (strip isSpace p).length + 3)
        (g := fun p : Text => p.length + 3) (fun p _ => ?_) ?_ hp
      · exact Nat.add_le_add_right length_strip_le 3
      · apply Nat.le_of_eq
        rw [← length_closed, ← hlong, hall, length_closed, List.map_map]
        rfl
    exact strip_eq_self (by omega)
  have hmap : ps.map (strip isSpace) = ps :=
    calc ps.map (strip isSpace) = ps.map id := List.map_congr_left hsame
      _ = ps := List.map_id ps
  apply closed_inj separator_ne_nil _ hps h
  intro t ht
  have hmem : t ∈ ps.map (strip isSpace) := (mem_of_found ht).1
  rw [hmap] at hmem
  exact hps t hmem

theorem closed_concat {init : List Text} {p : Text} :
    closed separator (init ++ [p]) = closed separator init ++ p ++ separator := by
  rw [closed, closed, List.flatMap_append, List.flatMap_singleton, List.append_assoc]

/-- A label at the end of the text does not end like the start of a separator. -/
theorem not_suffix_of_last {a t : Text} (hps : ∀ p ∈ ps, Clean separator p)
    (hin : ¬ separator <:+: t) (hlen : 4 ≤ t.length)
    (h : a ++ t ++ separator = closed separator ps) : ¬ [32, 45] <:+ t := by
  intro hend
  rcases List.eq_nil_or_concat' ps with rfl | ⟨init, p, rfl⟩
  · exact separator_ne_nil (List.append_eq_nil_iff.1 h).2
  rw [closed_concat] at h
  have h : a ++ t = closed separator init ++ p := List.append_cancel_right h
  have ht : t <:+ closed separator init ++ p := ⟨a, h⟩
  have hshort : p.length < 2 := by
    by_contra hlong
    have hp : [32, 45] <:+ p := List.suffix_of_suffix_length_le (hend.trans ht)
      (List.suffix_append _ p) (Nat.le_of_not_lt hlong)
    exact not_clean_of_suffix hp
      (hps p (List.mem_append_right _ (List.mem_singleton_self p)))
  rcases List.eq_nil_or_concat' init with rfl | ⟨init, q, rfl⟩
  · have hle := ht.length_le
    rw [closed, List.flatMap_nil, List.nil_append] at hle
    omega
  · -- the label would reach over the separator in front of the last piece
    have hsep : separator ++ p <:+ closed separator (init ++ [q]) ++ p :=
      ⟨closed separator init ++ q, by simp only [closed_concat, List.append_assoc]⟩
    have hle : (separator ++ p).length ≤ t.length := by
      rw [List.length_append]
      have hthree : separator.length = 3 := rfl
      omega
    have hinside : separator ++ p <:+ t := List.suffix_of_suffix_length_le hsep ht hle
    exact hin ((List.prefix_append separator p).isInfix.trans hinside.isInfix)

/-- A text without a blank at its end that is trimmed to a label which ends like the start of a
separator is not clean. -/
theorem strip_ne {x d : Text} (hx : Clean separator x)
    (hlast : ∀ hne : x ≠ [], isSpace (x.getLast hne) = false) (hd : [32, 45] <:+ d) :
    strip isSpace x ≠ d := by
  intro heq
  have hsuffix : d <:+ x := by
    rw [← heq, strip_suffix hlast]
    exact List.dropWhile_suffix isSpace
  exact not_clean_of_suffix (hd.trans hsuffix) hx

/-- No piece of such a text ends with a blank: its pieces end as the label does, or are a dash. -/
theorem last_of_rest {t : Text} (ht : Clean separator t) (hlen : 4 ≤ t.length)
    (hlast : ∀ hne : t ≠ [], isSpace (t.getLast hne) = false) (hps : ∀ p ∈ ps, Clean separator p)
    (h : closed separator ps = [45, 32] ++ (t ++ separator ++ (t ++ separator))) :
    ∀ q ∈ ps, ∀ hne : q ≠ [], isSpace (q.getLast hne) = false := by
  have hne : t ≠ [] := List.ne_nil_of_length_pos (Nat.lt_of_lt_of_le (by decide) hlen)
  by_cases hc : Clean separator ([45, 32] ++ t)
  · have hpieces : ps = [[45, 32] ++ t, t] := by
      apply closed_inj separator_ne_nil hps
      · intro q hq
        rcases List.mem_pair.1 hq with rfl | rfl
        · exact hc
        · exact ht
      · rw [h]
        simp only [closed, List.flatMap_cons, List.flatMap_nil, List.append_assoc, List.append_nil]
    intro q hq
    rw [hpieces] at hq
    rcases List.mem_pair.1 hq with rfl | rfl
    · intro _
      rw [List.getLast_append_of_ne_nil _ hne]
      exact hlast hne
    · exact hlast
  · have hstart : [45, 32] <+: t := by
      by_contra hno
      apply hc
      apply clean_of_not
      · intro hin
        rcases List.infix_cons_iff.1 hin with hstarts | hin
        · obtain ⟨r, hr⟩ := hstarts
          exact absurd (List.cons.inj hr).1 (by decide)
        · rcases List.infix_cons_iff.1 hin with hstarts | hin
          · obtain ⟨r, hr⟩ := hstarts
            exact hno ⟨r, (List.cons.inj hr).2⟩
          · exact ht.not_inside separator_ne_nil hin
      · intro hend
        have hle : ([32, 45] : Text).length ≤ t.length := Nat.le_trans (by decide) hlen
        exact not_clean_of_suffix
          (List.suffix_of_suffix_length_le hend (List.suffix_append _ t) hle) ht
    obtain ⟨rest, rfl⟩ := hstart
    have hpieces : ps = [[45], rest, [45, 32] ++ rest] := by
      apply closed_inj separator_ne_nil hps
      · intro q hq
        simp only [List.mem_cons, List.not_mem_nil, or_false] at hq
        rcases hq with rfl | rfl | rfl
        · exact clean_of_not (by decide) (by decide)
        · exact ht.suffix
        · exact ht
      · rw [h]
        simp [closed, separator, text]
    intro q hq
    rw [hpieces] at hq
    simp only [List.mem_cons, List.not_mem_nil, or_false] at hq
    rcases hq with rfl | rfl | rfl
    · intro _
      rfl
    · intro hrest
      have hsame := hlast hne
      rwa [List.getLast_append_of_ne_nil _ hrest] at hsame
    · exact hlast

/-- Where one piece is the gate and the stand, the direction does not end like the start of a
separator either. -/
theorem not_suffix_of_direction {d t : Text} (hps : ∀ p ∈ ps, Clean separator p)
    (ht : Clean separator t) (hlen : 4 ≤ t.length)
    (hlast : ∀ hne : t ≠ [], isSpace (t.getLast hne) = false)
    (hd : d ∈ ps.map (strip isSpace)) (h : closed separator [d, t, t] = closed separator ps) :
    ¬ [32, 45] <:+ d := by
  intro hend
  obtain ⟨d₀, rfl⟩ := hend
  have hin : ¬ separator <:+: d₀ ++ [32, 45] := by
    obtain ⟨p, hp, heq⟩ := List.mem_map.1 hd
    exact fun hin => (hps p hp).not_inside separator_ne_nil ((heq ▸ hin).trans strip_within)
  have hd₀ : Clean separator d₀ := by
    apply clean_of_not
    · exact fun h => hin (h.trans (List.prefix_append _ _).isInfix)
    · rintro ⟨e, rfl⟩
      exact hin ⟨e, [45], by
        show e ++ [32, 45, 32] ++ [45] = e ++ [32, 45] ++ [32, 45]
        simp only [List.append_assoc, List.cons_append, List.nil_append]⟩
  -- the first piece is the label without its end, and the rest starts with this end
  cases ps with
  | nil => exact List.not_mem_nil hd
  | cons p ps =>
  have h : d₀ ++ separator ++ ([45, 32] ++ (t ++ separator ++ (t ++ separator))) =
      p ++ separator ++ closed separator ps := by
    calc d₀ ++ separator ++ ([45, 32] ++ (t ++ separator ++ (t ++ separator)))
        = closed separator [d₀ ++ [32, 45], t, t] := by
          show d₀ ++ [32, 45, 32] ++ _ = _
          simp [closed, separator, text]
      _ = closed separator (p :: ps) := h
      _ = p ++ separator ++ closed separator ps := rfl
  obtain rfl : d₀ = p := hd₀.eq_of_append (hps p List.mem_cons_self) h
  have hrest : [45, 32] ++ (t ++ separator ++ (t ++ separator)) = closed separator ps :=
    List.append_cancel_left h
  have htail : ∀ q ∈ ps, Clean separator q := fun q hq => hps q (List.mem_cons_of_mem _ hq)
  have hpieces : ∀ q ∈ ps, ∀ hne : q ≠ [], isSpace (q.getLast hne) = false :=
    last_of_rest ht hlen hlast htail hrest.symm
  rcases List.mem_cons.1 (List.map_cons ▸ hd) with heq | hd
  · have hle : (strip isSpace d₀).length ≤ d₀.length := length_strip_le
    rw [← heq, List.length_append] at hle
    simp only [List.length_cons, List.length_nil] at hle
    omega
  · obtain ⟨q, hq, heq⟩ := List.mem_map.1 hd
    exact strip_ne (htail q hq) (hpieces q hq) (List.suffix_append _ _) heq

/-- Labels that make up the text in whose pieces they are found are its pieces. -/
theorem found_eq (hps : ∀ p ∈ ps, Clean separator p)
    (h : closed separator (found (ps.map (strip isSpace))) = closed separator ps) :
    found (ps.map (strip isSpace)) = ps := by
  rcases found_cases (ps.map (strip isSpace)) with hnodup | ⟨t, hgate, ht, hfound⟩
  · exact found_eq_of_nodup hps hnodup h
  have hlen : 4 ≤ t.length := length_of_isGate hgate
  have hin : ¬ separator <:+: t := by
    obtain ⟨p, hp, rfl⟩ := List.mem_map.1 ht
    exact fun hin => (hps p hp).not_inside separator_ne_nil (hin.trans strip_within)
  have hlast : ∀ hne : t ≠ [], isSpace (t.getLast hne) = false := by
    obtain ⟨p, -, rfl⟩ := List.mem_map.1 ht
    exact not_blank_getLast
  have hend : ¬ [32, 45] <:+ t := by
    rcases hfound with hfound | hfound
    · apply not_suffix_of_last (a := t ++ separator) hps hin hlen
      rw [← h, hfound]
      simp only [closed, List.flatMap_cons, List.flatMap_nil, List.append_assoc, List.append_nil]
    · apply not_suffix_of_last
        (a := directionOf (ps.map (strip isSpace)) ++ separator ++ t ++ separator) hps hin hlen
      rw [← h, hfound]
      simp only [closed, List.flatMap_cons, List.flatMap_nil, List.append_assoc, List.append_nil]
  have hclean : Clean separator t := clean_of_strip hps ht hend
  apply closed_inj separator_ne_nil _ hps h
  rcases hfound with hfound | hfound
  · intro q hq
    rw [hfound] at hq
    rcases List.mem_pair.1 hq with rfl | rfl
    · exact hclean
    · exact hclean
  · have hd : directionOf (ps.map (strip isSpace)) ∈ ps.map (strip isSpace) := by
      apply (mem_of_found _).1
      rw [hfound]
      exact List.mem_cons_self
    have hdirection : Clean separator (directionOf (ps.map (strip isSpace))) := by
      apply clean_of_strip hps hd
      exact not_suffix_of_direction hps hclean hlen hlast hd (hfound ▸ h)
    intro q hq
    rw [hfound] at hq
    simp only [List.mem_cons, List.not_mem_nil, or_false] at hq
    rcases hq with rfl | rfl | rfl
    · exact hdirection
    · exact hclean
    · exact hclean

end MadeUp

/-! ## The name of the block -/

section Name

variable {ps : List Text} {p : Text}

/-- What the labels that are found in a name are joined to. -/
def joined (parts : List Text) (name : Text) : Text :=
  separator.intercalate (found parts ++ if name ≠ [] then [blockPrefix ++ name] else [])

theorem last_of_closed (hne : ps ≠ []) : ∃ b, closed separator ps = b ++ separator := by
  obtain ⟨init, q, rfl⟩ := (List.eq_nil_or_concat' ps).resolve_left hne
  exact ⟨closed separator init ++ q, closed_concat⟩

theorem blank_of_strip_eq_nil (h : strip isSpace p = []) : ∀ u ∈ p, isSpace u = true := by
  have hall : ∀ u ∈ p.dropWhile isSpace, isSpace u = true := List.rdropWhile_eq_nil_iff.1 h
  have hdrop : p.dropWhile isSpace = [] := by
    by_contra hne
    have hhead := List.head_dropWhile_not isSpace hne
    rw [hall _ (List.head_mem hne)] at hhead
    cases hhead
  exact List.dropWhile_eq_nil_iff.1 hdrop

/-- A name that ends with a blank is not reproduced. -/
theorem joined_ne_of_blank {parts : List Text} {a : Text} (hparts : ∀ t ∈ parts, ∀ hne : t ≠ [],
    isSpace (t.getLast hne) = false) {u : ℕ} (hu : isSpace u = true) :
    separator.intercalate (found parts) ≠ a ++ [u] := by
  intro h
  rcases List.eq_nil_or_concat' (found parts) with hnil | ⟨init, t, hconcat⟩
  · rw [hnil, List.intercalate_nil] at h
    simp at h
  · have ht : t ∈ found parts := hconcat ▸ List.mem_append_right _ (List.mem_singleton_self t)
    obtain ⟨hmem, hne⟩ := mem_of_found ht
    rw [hconcat, intercalate_concat] at h
    have hlast : t.getLast hne = u :=
      calc t.getLast hne
          = (closed separator init ++ t).getLast (List.append_ne_nil_of_right_ne_nil _ hne) :=
            (List.getLast_append_of_ne_nil _ hne).symm
        _ = (a ++ [u]).getLast (List.append_ne_nil_of_right_ne_nil _ (List.cons_ne_nil u [])) :=
            List.getLast_congr _ _ h
        _ = u := List.getLast_append_singleton _
    have hblank := hparts t hmem hne
    rw [hlast, hu] at hblank
    cases hblank

/-- Cutting the prefix out leaves something of a trimmed piece, and the end of it. -/
theorem last_of_removeFirst : ∀ hne : removeFirst blockPrefix (strip isSpace p) ≠ [],
    isSpace ((removeFirst blockPrefix (strip isSpace p)).getLast hne) = false := by
  rcases removeFirst_cases (strip isSpace p) with hcut | ⟨u, v, hq, hcut⟩
  · rw [hcut]
    exact not_blank_getLast
  · have hlast : ∀ hne : u ++ blockPrefix ++ v ≠ [],
        isSpace ((u ++ blockPrefix ++ v).getLast hne) = false := by
      rw [← hq]
      exact not_blank_getLast
    have hv : v ≠ [] := by
      rintro rfl
      have hstarts : blockPrefix ≠ [] := by decide
      have hspace := hlast (by simp [hstarts])
      simp only [List.append_nil, List.getLast_append_of_ne_nil _ hstarts] at hspace
      cases hspace
    rw [hcut]
    intro hne
    rw [List.getLast_append_of_ne_nil _ hv]
    have hend := hlast (List.append_ne_nil_of_right_ne_nil _ hv)
    rwa [List.getLast_append_of_ne_nil _ hv] at hend

theorem strip_ne_nil_of_removeFirst (h : removeFirst blockPrefix (strip isSpace p) = []) :
    strip isSpace p = [] := by
  rcases removeFirst_cases (strip isSpace p) with hcut | ⟨u, v, hq, hcut⟩
  · exact hcut.symm.trans h
  · obtain ⟨rfl, rfl⟩ := List.append_eq_nil_iff.1 (hcut.symm.trans h)
    have hne : strip isSpace p ≠ [] := by
      rw [hq]
      decide
    have hspace := not_blank_getLast hne
    simp only [hq] at hspace
    cases hspace

/-- A name that is reproduced ends with the prefix and a label. -/
theorem last_piece (hne : ps ≠ [])
    (h : joined (ps.map (strip isSpace)) (removeFirst blockPrefix (strip isSpace p)) =
      closed separator ps ++ p) :
    ∃ label, label ≠ [] ∧ p = blockPrefix ++ label ∧ strip isSpace p = p ∧
      closed separator (found (ps.map (strip isSpace))) = closed separator ps := by
  obtain ⟨b, hb⟩ := last_of_closed hne
  have hparts : ∀ t ∈ ps.map (strip isSpace), ∀ hne : t ≠ [], isSpace (t.getLast hne) = false := by
    intro t ht
    obtain ⟨q, -, rfl⟩ := List.mem_map.1 ht
    exact not_blank_getLast
  by_cases hname : removeFirst blockPrefix (strip isSpace p) = []
  · -- only blanks follow the last separator
    rw [joined, if_neg (not_not.2 hname), List.append_nil] at h
    have hblank := blank_of_strip_eq_nil (strip_ne_nil_of_removeFirst hname)
    rcases List.eq_nil_or_concat' p with rfl | ⟨p, u, rfl⟩
    · refine absurd h ?_
      rw [List.append_nil, hb, show separator = [32, 45] ++ [32] from rfl, ← List.append_assoc]
      exact joined_ne_of_blank hparts (by decide)
    · refine absurd h ?_
      rw [← List.append_assoc]
      exact joined_ne_of_blank hparts
        (hblank u (List.mem_append_right _ (List.mem_singleton_self u)))
  rw [joined, if_pos hname, intercalate_concat] at h
  have hlast : ∀ hne : p ≠ [], isSpace (p.getLast hne) = false := by
    intro hp
    have hsame : p.getLast hp = (removeFirst blockPrefix (strip isSpace p)).getLast hname :=
      calc p.getLast hp
          = (closed separator ps ++ p).getLast (List.append_ne_nil_of_right_ne_nil _ hp) :=
            (List.getLast_append_of_ne_nil _ hp).symm
        _ = (closed separator (found (ps.map (strip isSpace))) ++ blockPrefix ++
              removeFirst blockPrefix (strip isSpace p)).getLast
              (List.append_ne_nil_of_right_ne_nil _ hname) :=
            List.getLast_congr _ _ (by rw [← h, List.append_assoc])
        _ = _ := List.getLast_append_of_ne_nil _ hname
    rw [hsame]
    exact last_of_removeFirst hname
  have hsplit : p = p.takeWhile isSpace ++ strip isSpace p := by
    rw [strip_suffix hlast, List.takeWhile_append_dropWhile]
  have hw : ∀ u ∈ p.takeWhile isSpace, isSpace u = true := fun u hu => List.mem_takeWhile_imp hu
  rcases removeFirst_cases (strip isSpace p) with hcut | ⟨u, v, hq, hcut⟩
  · -- the prefix would stand in front of a piece that does not start with it
    have hends : closed separator (found (ps.map (strip isSpace))) ++ blockPrefix =
        closed separator ps ++ p.takeWhile isSpace := by
      have hboth : closed separator (found (ps.map (strip isSpace))) ++ blockPrefix ++
          strip isSpace p = closed separator ps ++ p.takeWhile isSpace ++ strip isSpace p := by
        rw [List.append_assoc, List.append_assoc, ← hsplit, ← h, hcut]
      exact List.append_cancel_right hboth
    have hz : (107 : ℕ) = 45 := by
      apply (blanks_eq_nil (z := 107) (by decide) hw _).2
      · exact closed separator (found (ps.map (strip isSpace))) ++ [66, 108, 111, 99]
      · exact b
      · rw [← hb, ← hends, List.append_assoc]
        rfl
    cases hz
  · have hlen : (blockPrefix ++ removeFirst blockPrefix (strip isSpace p)).length =
        (strip isSpace p).length := by
      rw [hcut, hq]
      simp only [List.length_append]
      omega
    rw [show closed separator ps ++ p = closed separator ps ++ p.takeWhile isSpace ++
      strip isSpace p by rw [List.append_assoc, ← hsplit]] at h
    obtain ⟨hclosed, hpiece⟩ := List.append_inj' h hlen
    have hfound : found (ps.map (strip isSpace)) ≠ [] := by
      intro hnil
      rw [hnil, hb] at hclosed
      simp [closed, separator, text] at hclosed
    obtain ⟨b', hb'⟩ := last_of_closed hfound
    have hnone : p.takeWhile isSpace = [] := by
      apply (blanks_eq_nil (z := 45) (by decide) hw _).1
      · exact b' ++ [32]
      · exact b
      · rw [← hb, ← hclosed, hb', List.append_assoc]
        rfl
    rw [hnone, List.append_nil] at hclosed
    rw [hnone, List.nil_append] at hsplit
    exact ⟨_, hname, hsplit.trans hpiece.symm, hsplit.symm, hclosed⟩

end Name

/-! ## Names that are reproduced -/

/-- The name of the group that a seat with a name is in. -/
def groupOf (name : Text) : Text :=
  if name = [] then text "Block" else name

/-- A name with a separator, outside a rectangle. -/
theorem renamed_of_separator {shape : LayoutShape} {name : Text} (hshape : shape ≠ .rectangular)
    (hin : separator <:+: name) :
    fullBlockName shape (readLabels shape name) = name ↔ Readable shape name := by
  obtain ⟨ps, p, hsplit, hname, hps, hp⟩ := split_cases separator_ne_nil name
  have hne : ps ≠ [] := by
    rintro rfl
    rw [hname] at hin
    exact hp hin
  have hfull : fullBlockName shape (readLabels shape name) =
      joined (ps.map (strip isSpace)) (removeFirst blockPrefix (strip isSpace p)) := by
    rw [fullBlockName, if_neg hshape, readLabels, if_pos ⟨hshape, decide_eq_true hin⟩, hsplit]
    simp only [List.map_append, List.map_singleton, List.getLast?_concat, List.dropLast_concat,
      Option.getD_some]
    rfl
  rw [hfull, Readable, if_neg hshape]
  constructor
  · intro h
    obtain ⟨label, hlabel, hpiece, hstrip, hclosed⟩ := last_piece hne (h.trans hname)
    have hfound := found_eq hps hclosed
    have hstripped : ∀ q ∈ ps, strip isSpace q = q := by
      intro q hq
      rw [← hfound] at hq
      obtain ⟨x, -, rfl⟩ := List.mem_map.1 (mem_of_found hq).1
      exact strip_strip
    have hmap : ps.map (strip isSpace) = ps :=
      calc ps.map (strip isSpace) = ps.map id := List.map_congr_left hstripped
        _ = ps := List.map_id ps
    refine ⟨ps, label, hpiece ▸ hsplit, hlabel, hne, ?_, ?_⟩
    · intro q hq
      rcases List.mem_append.1 hq with hq | hq
      · exact hstripped q hq
      · rw [List.mem_singleton.1 hq, ← hpiece]
        exact hstrip
    · rwa [hmap] at hfound
  · rintro ⟨parts, label, hsplit', hlabel, -, hstrip, hfound⟩
    obtain ⟨rfl, hlast⟩ := List.append_inj' (hsplit.symm.trans hsplit') rfl
    obtain rfl : p = blockPrefix ++ label := (List.cons.inj hlast).1
    have hmap : ps.map (strip isSpace) = ps :=
      calc ps.map (strip isSpace)
          = ps.map id := List.map_congr_left fun q hq => hstrip q (List.mem_append_left _ hq)
        _ = ps := List.map_id ps
    have hstarts : strip isSpace (blockPrefix ++ label) = blockPrefix ++ label :=
      hstrip _ (List.mem_append_right _ (List.mem_singleton_self _))
    rw [hmap, hstarts, removeFirst_append (by decide), joined, if_pos hlabel, hfound,
      intercalate_concat, hname]

/-- A block keeps its name through its seats exactly if the name is readable. -/
theorem renamed_iff {shape : LayoutShape} {name : Text} :
    fullBlockName shape (readLabels shape (groupOf name)) = name ↔ Readable shape name := by
  by_cases hshape : shape = .rectangular
  · subst hshape
    unfold Readable fullBlockName groupOf
    rw [if_pos rfl, if_pos rfl]
    by_cases hnil : name = []
    · subst hnil
      exact iff_of_false (by decide) fun h => h.1 rfl
    rw [if_neg hnil, readLabels, if_neg fun h => h.1 rfl]
    by_cases hstarts : blockPrefix <+: name
    · rw [if_pos ⟨rfl, hstarts⟩]
      refine iff_of_false (fun h => ?_) fun h => h.2 hstarts
      obtain ⟨rest, rfl⟩ := hstarts
      have hrest : rest = blockPrefix ++ rest :=
        calc rest = removeFirst blockPrefix (blockPrefix ++ rest) :=
              (removeFirst_append (by decide)).symm
          _ = blockPrefix ++ rest := h
      exact absurd (List.self_eq_append_left.1 hrest) (by decide)
    · rw [if_neg fun h => hstarts h.2]
      exact iff_of_true rfl ⟨hnil, hstarts⟩
  · by_cases hnil : name = []
    · subst hnil
      refine iff_of_false ?_ fun h => ?_
      · cases shape with
        | rectangular => exact absurd rfl hshape
        | circular => decide
        | square => decide
      · rw [Readable, if_neg hshape] at h
        obtain ⟨parts, label, hsplit, -, hparts, -⟩ := h
        have hone : (1 : ℕ) = parts.length + 1 :=
          calc 1 = (split separator []).length := rfl
            _ = parts.length + 1 := by rw [hsplit, List.length_append]; rfl
        exact hparts (List.length_eq_zero_iff.1 (by omega))
    rw [groupOf, if_neg hnil]
    by_cases hin : separator <:+: name
    · exact renamed_of_separator hshape hin
    · have hlabels : readLabels shape name = ⟨name, [], [], []⟩ := by
        rw [readLabels, if_neg fun h => hin (of_decide_eq_true h.2), if_neg fun h => hshape h.1]
      refine iff_of_false (fun h => ?_) fun h => ?_
      · have hname : blockPrefix ++ name = name := by
          rw [hlabels, fullBlockName, if_neg hshape] at h
          simpa [hnil] using h
        exact absurd (List.self_eq_append_left.1 hname.symm) (by decide)
      · rw [Readable, if_neg hshape] at h
        obtain ⟨parts, label, hsplit, -, hparts, -⟩ := h
        have hone : (1 : ℕ) = parts.length + 1 :=
          calc 1 = (split separator name).length := by rw [split_of_absent hin]; rfl
            _ = parts.length + 1 := by rw [hsplit, List.length_append]; rfl
        exact hparts (List.length_eq_zero_iff.1 (by omega))

end SeatDesigner
end Bookit

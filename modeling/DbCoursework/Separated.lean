import Mathlib.Data.List.Basic
import Mathlib.Tactic.Lemma

/-!
Fields joined by separators.

A text is a first field and then each further field behind its separator. Separators may
also occur inside the fields, so that one text can come from several lists of fields. If no
field is empty, this is so exactly when a single separator can be moved: to an occurrence
of it in one of the two fields beside it, where it leaves something of that field on
either side.
-/

namespace DbCoursework.Separated

variable {α : Type*}

def join (f : List α) : List (α × List α) → List α
  | [] => f
  | (s, g) :: xs => f ++ s :: join g xs

/-- No field is empty. -/
def Filled (f : List α) (xs : List (α × List α)) : Prop := f ≠ [] ∧ ∀ x ∈ xs, x.2 ≠ []

/-- No separator can be moved: in the fields beside it, it occurs at the far ends only. -/
def Fixed (f : List α) : List (α × List α) → Prop
  | [] => True
  | (s, g) :: xs => s ∉ f.tail ∧ s ∉ g.dropLast ∧ Fixed g xs

/-- The same separators in the same order. -/
def SameSeparators (xs ys : List (α × List α)) : Prop := xs.map Prod.fst = ys.map Prod.fst

lemma filled_cons {f g : List α} {s : α} {xs : List (α × List α)} :
    Filled f ((s, g) :: xs) ↔ f ≠ [] ∧ Filled g xs := by
  simp [Filled]

lemma sameSeparators_cons {x : α × List α} {xs ys : List (α × List α)}
    (h : SameSeparators (x :: xs) ys) :
    ∃ g ys', ys = (x.1, g) :: ys' ∧ SameSeparators xs ys' := by
  obtain ⟨⟨s, g⟩, ys', rfl, hs, hys⟩ := List.map_eq_cons_iff.mp h.symm
  dsimp only at hs
  exact ⟨g, ys', by rw [hs], hys.symm⟩

lemma join_eq_append (f : List α) (xs : List (α × List α)) : ∃ t, join f xs = f ++ t := by
  cases xs with
  | nil => exact ⟨[], (List.append_nil f).symm⟩
  | cons x xs => exact ⟨x.1 :: join x.2 xs, rfl⟩

lemma mem_tail_iff {s : α} {f : List α} :
    s ∈ f.tail ↔ ∃ l r, l ≠ [] ∧ f = l ++ s :: r := by
  constructor
  · intro h
    cases f with
    | nil => cases h
    | cons c f =>
      obtain ⟨l, r, rfl⟩ := List.append_of_mem h
      exact ⟨c :: l, r, List.cons_ne_nil c l, rfl⟩
  · rintro ⟨l, r, hl, rfl⟩
    obtain ⟨c, l, rfl⟩ := List.exists_cons_of_ne_nil hl
    exact List.mem_append_right l List.mem_cons_self

lemma mem_dropLast_iff {s : α} {f : List α} :
    s ∈ f.dropLast ↔ ∃ l r, r ≠ [] ∧ f = l ++ s :: r := by
  have hrev : s ∈ f.dropLast ↔ s ∈ f.reverse.tail := by
    rw [List.tail_reverse, List.mem_reverse]
  rw [hrev, mem_tail_iff]
  constructor
  · rintro ⟨l, r, hl, hf⟩
    refine ⟨r.reverse, l.reverse, by simpa using hl, ?_⟩
    rw [← List.reverse_reverse f, hf]
    simp
  · rintro ⟨l, r, hr, rfl⟩
    exact ⟨r.reverse, l.reverse, by simpa using hr, by simp⟩

/-! ### No separator to move, no other fields -/

/-- A character of the text that falls inside the first field, before its last one. -/
lemma mem_dropLast_of_join {f l r : List α} {s : α} {xs : List (α × List α)}
    (h : join f xs = l ++ s :: r) (hlen : l.length + 1 < f.length) : s ∈ f.dropLast := by
  obtain ⟨t, ht⟩ := join_eq_append f xs
  rw [ht] at h
  rcases List.append_eq_append_iff.mp h with ⟨m, rfl, -⟩ | ⟨m, rfl, hm⟩
  · simp only [List.length_append] at hlen
    omega
  rcases m with _ | ⟨c, m⟩
  · simp only [List.append_nil] at hlen
    omega
  obtain ⟨rfl, -⟩ := List.cons.inj hm
  refine mem_dropLast_iff.mpr ⟨l, m, ?_, rfl⟩
  rintro rfl
  simp only [List.length_append, List.length_singleton] at hlen
  omega

/-- If other fields cannot begin behind the first field, they cannot begin behind a separator
either that this field has at its end at most. -/
lemma no_late_separator {f f' n : List α} {s : α} {xs xs' : List (α × List α)}
    (hs : s ∉ f.dropLast) (hlate : ∀ m, f.length ≤ m.length → join f xs ≠ m ++ join f' xs') :
    join f xs ≠ n ++ s :: join f' xs' := by
  intro h
  rcases Nat.lt_or_ge (n.length + 1) f.length with hlt | hge
  · exact hs (mem_dropLast_of_join h hlt)
  · refine hlate (n ++ [s]) ?_ ?_
    · rw [List.length_append, List.length_singleton]
      exact hge
    · rw [h, List.append_assoc]
      rfl

/-- Other fields cannot begin behind the first field. -/
lemma no_late_fields {f f' m : List α} {xs xs' : List (α × List α)} (hfix : Fixed f xs)
    (hfill : Filled f' xs') (hsep : SameSeparators xs xs') (hlen : f.length ≤ m.length) :
    join f xs ≠ m ++ join f' xs' := by
  induction xs generalizing f f' m xs' with
  | nil =>
    obtain rfl : xs' = [] := List.map_eq_nil_iff.mp hsep.symm
    intro h
    have hf' : 0 < f'.length := List.length_pos_iff.mpr hfill.1
    have := congrArg List.length h
    simp only [join, List.length_append] at this
    omega
  | cons x xs ih =>
    obtain ⟨s, g⟩ := x
    obtain ⟨g', ys, rfl, hys⟩ := sameSeparators_cons hsep
    obtain ⟨-, hg, hgfix⟩ := hfix
    obtain ⟨hf', hgfill⟩ := filled_cons.mp hfill
    have hf' : 0 < f'.length := List.length_pos_iff.mpr hf'
    have hlt : f.length < (m ++ f').length := by
      rw [List.length_append]
      omega
    intro h
    rw [join, join, ← List.append_assoc] at h
    rcases List.append_eq_append_iff.mp h with ⟨n, hn, hrest⟩ | ⟨n, hn, -⟩
    · rcases n with _ | ⟨c, n⟩
      · rw [hn, List.append_nil] at hlt
        exact absurd hlt (Nat.lt_irrefl _)
      -- the next separator is found behind its place as well
      obtain ⟨rfl, hjoin⟩ := List.cons.inj hrest
      exact no_late_separator hg (fun m hm => ih hgfix hgfill hys hm) hjoin
    · rw [hn, List.length_append] at hlt
      omega

lemma join_inj {f f' : List α} {xs xs' : List (α × List α)} (hfix : Fixed f xs)
    (hfill : Filled f' xs') (hsep : SameSeparators xs xs') (h : join f xs = join f' xs') :
    f' = f ∧ xs' = xs := by
  induction xs generalizing f f' xs' with
  | nil =>
    obtain rfl : xs' = [] := List.map_eq_nil_iff.mp hsep.symm
    exact ⟨h.symm, rfl⟩
  | cons x xs ih =>
    obtain ⟨s, g⟩ := x
    obtain ⟨g', ys, rfl, hys⟩ := sameSeparators_cons hsep
    obtain ⟨hf, hg, hgfix⟩ := hfix
    obtain ⟨hf', hgfill⟩ := filled_cons.mp hfill
    rw [join, join] at h
    rcases List.append_eq_append_iff.mp h with ⟨n, hn, hrest⟩ | ⟨n, hn, hrest⟩
    · rcases n with _ | ⟨c, n⟩
      · rw [List.append_nil] at hn
        obtain ⟨rfl, rfl⟩ := ih hgfix hgfill hys (List.cons.inj hrest).2
        exact ⟨hn, rfl⟩
      -- the separator has moved to the right
      obtain ⟨rfl, hjoin⟩ := List.cons.inj hrest
      have hlate : ∀ m, g.length ≤ m.length → join g xs ≠ m ++ join g' ys :=
        fun m hm => no_late_fields hgfix hgfill hys hm
      exact absurd hjoin (no_late_separator hg hlate)
    · rcases n with _ | ⟨c, n⟩
      · rw [List.append_nil] at hn
        obtain ⟨rfl, rfl⟩ := ih hgfix hgfill hys (List.cons.inj hrest).2.symm
        exact ⟨hn.symm, rfl⟩
      -- the separator has moved to the left
      obtain ⟨rfl, -⟩ := List.cons.inj hrest
      exact absurd (mem_tail_iff.mpr ⟨f', n, hf', hn⟩) hf

/-! ### A separator to move -/

lemma join_append (l f : List α) (xs : List (α × List α)) :
    join (l ++ f) xs = l ++ join f xs := by
  cases xs with
  | nil => rfl
  | cons x xs => exact List.append_assoc l f (x.1 :: join x.2 xs)

lemma filled_append {l f : List α} {xs : List (α × List α)} (h : Filled f xs) :
    Filled (l ++ f) xs :=
  ⟨List.append_ne_nil_of_right_ne_nil l h.1, h.2⟩

lemma exists_other_fields {f : List α} {xs : List (α × List α)} (hfill : Filled f xs)
    (hfix : ¬ Fixed f xs) :
    ∃ f' xs', Filled f' xs' ∧ SameSeparators xs xs' ∧ join f xs = join f' xs' ∧
      ¬ (f' = f ∧ xs' = xs) := by
  induction xs generalizing f with
  | nil => exact absurd trivial hfix
  | cons x xs ih =>
    obtain ⟨s, g⟩ := x
    obtain ⟨hf, hg⟩ := filled_cons.mp hfill
    by_cases htail : s ∈ f.tail
    · obtain ⟨l, r, hl, rfl⟩ := mem_tail_iff.mp htail
      refine ⟨l, (s, r ++ s :: g) :: xs, filled_cons.mpr ⟨hl, ?_⟩, rfl, ?_, ?_⟩
      · exact filled_append (l := r) ⟨List.cons_ne_nil s g, hg.2⟩
      · rw [join, join, join_append, List.append_assoc]
        exact congrArg (fun t => l ++ s :: (r ++ t)) (join_append [s] g xs).symm
      · rintro ⟨hlen, -⟩
        have := congrArg List.length hlen
        simp at this
    by_cases hlast : s ∈ g.dropLast
    · obtain ⟨l, r, hr, rfl⟩ := mem_dropLast_iff.mp hlast
      refine ⟨f ++ s :: l, (s, r) :: xs, filled_cons.mpr ⟨?_, hr, hg.2⟩, rfl, ?_, ?_⟩
      · exact List.append_ne_nil_of_left_ne_nil hf (s :: l)
      · rw [join, join, join_append, List.append_assoc]
        exact congrArg (fun t => f ++ s :: (l ++ t)) (join_append [s] r xs)
      · rintro ⟨hlen, -⟩
        have := congrArg List.length hlen
        simp at this
    · have hgfix : ¬ Fixed g xs := fun h => hfix ⟨htail, hlast, h⟩
      obtain ⟨g', ys, hfill', hsep, hjoin, hne⟩ := ih hg hgfix
      refine ⟨f, (s, g') :: ys, filled_cons.mpr ⟨hf, hfill'⟩, ?_, ?_, ?_⟩
      · exact congrArg (s :: ·) hsep
      · rw [join, join, hjoin]
      · rintro ⟨-, heq⟩
        obtain ⟨hpair, hys⟩ := List.cons.inj heq
        exact hne ⟨(Prod.mk.inj hpair).2, hys⟩

/-- **A text has one reading exactly when no separator can be moved.** -/
theorem join_unique_iff {f : List α} {xs : List (α × List α)} (hfill : Filled f xs) :
    (∀ f' xs', Filled f' xs' → SameSeparators xs xs' → join f xs = join f' xs' →
        f' = f ∧ xs' = xs) ↔ Fixed f xs := by
  constructor
  · intro huniq
    by_contra hfix
    obtain ⟨f', xs', hfill', hsep, hjoin, hne⟩ := exists_other_fields hfill hfix
    exact hne (huniq f' xs' hfill' hsep hjoin)
  · intro hfix f' xs' hfill' hsep hjoin
    exact join_inj hfix hfill' hsep hjoin

end DbCoursework.Separated

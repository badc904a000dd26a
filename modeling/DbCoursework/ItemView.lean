import Mathlib.Data.Nat.Notation
import Mathlib.Data.Option.Basic
import Mathlib.Tactic.Lemma

/-!
A one-column item model with the view that shows it.

The view has a current row or none, and a current row is always a row of the model: Qt
drops or moves the current index whenever the model loses rows. When the current row is
removed the view makes a neighbouring remaining row current; which of the two depends on
the view's settings, so it is left open.
-/

namespace DbCoursework.ItemView

/-- The rows of the model and the view's current row, `none` standing for row `-1`. -/
@[ext] structure View (α : Type*) where
  rows : List α
  currentRow : Option ℕ
  current_lt : ∀ k ∈ currentRow, k < rows.length

inductive Neighbour
  | above | below
  deriving DecidableEq

/-- The row that becomes current when row `k` goes and `n` rows remain. -/
def Neighbour.row (k n : ℕ) : Neighbour → Option ℕ
  | .above => if n = 0 then none else some (k - 1)
  | .below => if n = 0 then none else some (min k (n - 1))

lemma Neighbour.row_lt {k n r : ℕ} {p : Neighbour} (hk : k ≤ n) (h : r ∈ p.row k n) :
    r < n := by
  cases p <;> simp only [row, Option.mem_def, Option.ite_none_left_eq_some,
    Option.some.injEq] at h <;> omega

variable {α : Type*}

namespace View

/-- A model without rows; the current index is invalid. -/
def empty : View α where
  rows := []
  currentRow := none
  current_lt := fun _ h => nomatch h

/-- `QStandardItemModel::clear`: the view's current index becomes invalid. -/
def clear (_ : View α) : View α := empty

/-- `QStandardItemModel::appendRow`; no row becomes current by it. -/
def appendRow (v : View α) (a : α) : View α where
  rows := v.rows ++ [a]
  currentRow := v.currentRow
  current_lt := fun k hk => by
    have := v.current_lt k hk
    simp only [List.length_append, List.length_singleton]; omega

/-- `QAbstractItemView::setCurrentIndex`; an index outside the model is not taken. -/
def setCurrent (v : View α) (r : Option ℕ) : View α :=
  if h : ∀ k ∈ r, k < v.rows.length then ⟨v.rows, r, h⟩ else v

/-- The current row follows its item, and is replaced by a neighbour when it is the one
removed. -/
def currentAfter (p : Neighbour) (v : View α) (k : ℕ) : Option ℕ :=
  v.currentRow.bind fun c =>
    if c = k then p.row k (v.rows.length - 1) else some (if c < k then c else c - 1)

lemma currentAfter_lt (p : Neighbour) (v : View α) {k r : ℕ} (hk : k < v.rows.length)
    (h : r ∈ v.currentAfter p k) : r < (v.rows.eraseIdx k).length := by
  rw [List.length_eraseIdx_of_lt hk]
  obtain ⟨c, hc, h⟩ := Option.bind_eq_some_iff.mp h
  have hlt := v.current_lt c hc
  by_cases hck : c = k
  · rw [if_pos hck] at h
    exact Neighbour.row_lt (by omega) h
  · rw [if_neg hck, Option.some.injEq] at h
    split at h <;> omega

/-- `QStandardItemModel::removeRow`, which does nothing for a row the model does not
have. -/
def removeRow (p : Neighbour) (v : View α) (k : ℕ) : View α :=
  if hk : k < v.rows.length then
    ⟨v.rows.eraseIdx k, v.currentAfter p k, fun _ hr => currentAfter_lt p v hk hr⟩
  else v

/-- `removeRow` of the view's current row; row `-1` is no row of the model. -/
def removeCurrent (p : Neighbour) (v : View α) : View α :=
  match v.currentRow with
  | none => v
  | some k => v.removeRow p k

def current? (v : View α) : Option α := v.currentRow.bind fun k => v.rows[k]?

@[simp] lemma clear_rows (v : View α) : v.clear.rows = [] := rfl
@[simp] lemma clear_currentRow (v : View α) : v.clear.currentRow = none := rfl
@[simp] lemma appendRow_rows (v : View α) (a : α) :
    (v.appendRow a).rows = v.rows ++ [a] := rfl
@[simp] lemma appendRow_currentRow (v : View α) (a : α) :
    (v.appendRow a).currentRow = v.currentRow := rfl

@[simp] lemma setCurrent_rows (v : View α) (r : Option ℕ) :
    (v.setCurrent r).rows = v.rows := by
  unfold setCurrent; split <;> rfl

lemma setCurrent_currentRow {v : View α} {k : ℕ} (hk : k < v.rows.length) :
    (v.setCurrent (some k)).currentRow = some k := by
  have : ∀ j ∈ some k, j < v.rows.length := by
    intro j hj; cases hj; exact hk
  simp [setCurrent, this]

lemma setCurrent_isSome {v : View α} {k : ℕ} (h : v.currentRow.isSome) :
    (v.setCurrent (some k)).currentRow.isSome := by
  unfold setCurrent
  split
  · rfl
  · exact h

lemma removeCurrent_rows {v : View α} {k : ℕ} (p : Neighbour) (h : v.currentRow = some k) :
    (v.removeCurrent p).rows = v.rows.eraseIdx k := by
  have hk : k < v.rows.length := v.current_lt k h
  simp [removeCurrent, h, removeRow, hk]

lemma current?_eq {v : View α} {k : ℕ} (h : v.currentRow = some k) :
    v.current? = v.rows[k]? := by
  simp [current?, h]

lemma current?_of_none {v : View α} (h : v.currentRow = none) : v.current? = none := by
  simp [current?, h]

/-- Appending a list of rows to the cleared model: the rows are that list and no row is
current. -/
lemma foldl_appendRow (l : List α) (v : View α) :
    (l.foldl appendRow v).rows = v.rows ++ l ∧
      (l.foldl appendRow v).currentRow = v.currentRow := by
  induction l generalizing v with
  | nil => simp
  | cons a l ih =>
    obtain ⟨h1, h2⟩ := ih (v.appendRow a)
    exact ⟨by simpa using h1, by simpa using h2⟩

end View

end DbCoursework.ItemView

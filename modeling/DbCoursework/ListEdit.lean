import Mathlib.Data.Nat.Notation
import Mathlib.Data.List.Basic
import Mathlib.Tactic.Lemma

/-!
Single changes of a list, and tags that stay with the entries.

Entries of a list have no identity of their own once values repeat or change; a list of
tags kept beside it gives them one. `retag` moves the tags as `apply` moves the entries.
-/

namespace DbCoursework.ListEdit

/-- A change of a list: nothing, an entry at the end, an entry gone, an entry replaced. -/
inductive Edit (α : Type*)
  | keep
  | push (a : α)
  | erase (i : ℕ)
  | set (i : ℕ) (a : α)
  deriving DecidableEq

namespace Edit

variable {α ι : Type*}

def apply : Edit α → List α → List α
  | keep, l => l
  | push a, l => l ++ [a]
  | erase i, l => l.eraseIdx i
  | set i a, l => l.set i a

/-- The tags after the change; a new entry gets the tag `new`. -/
def retag (new : ι) : Edit α → List ι → List ι
  | keep, ts => ts
  | push _, ts => ts ++ [new]
  | erase i, ts => ts.eraseIdx i
  | set _ _, ts => ts

/-- The position the change acts on. -/
def target : Edit α → Option ℕ
  | keep => none
  | push _ => none
  | erase i => some i
  | set i _ => some i

/-- The tag of the entry the change acts on. -/
def hit (e : Edit α) (ts : List ι) : List ι := (e.target.bind fun i => ts[i]?).toList

lemma length_retag {new : ι} {e : Edit α} {ts : List ι} {l : List α}
    (h : ts.length = l.length) : (e.retag new ts).length = (e.apply l).length := by
  cases e <;> simp [retag, apply, List.length_eraseIdx, h]

lemma mem_retag {new x : ι} {e : Edit α} {ts : List ι} (h : x ∈ e.retag new ts) :
    x ∈ ts ∨ x = new := by
  cases e with
  | keep => exact Or.inl h
  | push a => simpa [retag] using h
  | erase i => exact Or.inl (List.mem_of_mem_eraseIdx h)
  | set i a => exact Or.inl h

lemma mem_of_mem_hit {x : ι} {e : Edit α} {ts : List ι} (h : x ∈ e.hit ts) : x ∈ ts := by
  rw [hit, Option.mem_toList] at h
  obtain ⟨i, -, hi⟩ := Option.bind_eq_some_iff.mp h
  exact List.mem_of_getElem? hi

end Edit

end DbCoursework.ListEdit

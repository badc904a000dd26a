import Mathlib.Data.Nat.Notation
import Mathlib.Tactic.Lemma

/-!
Programs over a state that may end in an exception, which keeps what was done to the state.

`Ends` is the program logic: what holds of a value and the state at the end, and what holds of
an exception and the state there. The rules take a program apart; `ends_loop` is the rule of
`while (body());`, with a measure that every round makes smaller.
-/

namespace DbCoursework.Programs

/-- A value or an exception, and the state at the end. -/
def Prog (σ ε α : Type) : Type := σ → Except ε α × σ

namespace Prog

variable {σ ε α β : Type}

instance : Monad (Prog σ ε) where
  pure a := fun s => (.ok a, s)
  bind x f := fun s =>
    match x s with
    | (.ok a, t) => f a t
    | (.error e, t) => (.error e, t)

instance : MonadStateOf σ (Prog σ ε) where
  get := fun s => (.ok s, s)
  set t := fun _ => (.ok (), t)
  modifyGet f := fun s => (.ok (f s).1, (f s).2)

instance : MonadExceptOf ε (Prog σ ε) where
  throw e := fun s => (.error e, s)
  tryCatch x h := fun s =>
    match x s with
    | (.ok a, t) => (.ok a, t)
    | (.error e, t) => h e t

/-- `if (c) x;` -/
def when (c : Prop) [Decidable c] (x : Prog σ ε Unit) : Prog σ ε Unit :=
  if c then x else return ()

/-- `while (body());`, for at most so many rounds. -/
def loop (body : Prog σ ε Bool) (stuck : ε) : ℕ → Prog σ ε Unit
  | 0 => throw stuck
  | n + 1 => do
    if ← body then loop body stuck n else return ()

@[simp] lemma get_bind (f : σ → Prog σ ε α) (s : σ) : (get >>= f : Prog σ ε α) s = f s s := rfl

lemma bind_of_ok {x : Prog σ ε α} {s t : σ} {a : α} (h : x s = (.ok a, t))
    (f : α → Prog σ ε β) : (x >>= f) s = f a t := by
  show (match x s with | (.ok a, t) => f a t | (.error e, t) => (.error e, t)) = f a t
  rw [h]

lemma bind_of_error {x : Prog σ ε α} {s t : σ} {e : ε} (h : x s = (.error e, t))
    (f : α → Prog σ ε β) : (x >>= f) s = (.error e, t) := by
  show (match x s with | (.ok a, t) => f a t | (.error e, t) => (.error e, t)) = _
  rw [h]

/-- Run from `s` the program ends with `Q`, or in an exception with `E`. -/
def Ends (x : Prog σ ε α) (s : σ) (Q : α → σ → Prop) (E : ε → σ → Prop) : Prop :=
  match x s with
  | (.ok a, t) => Q a t
  | (.error e, t) => E e t

section Rules

variable {x : Prog σ ε α} {f : α → Prog σ ε β} {s t : σ} {Q R : α → σ → Prop}
  {Q' : β → σ → Prop} {E E' : ε → σ → Prop}

lemma ends_of_ok {a : α} (h : x s = (.ok a, t)) (hq : Q a t) : x.Ends s Q E := by
  rw [Ends, h]
  exact hq

lemma ends_of_error {e : ε} (h : x s = (.error e, t)) (he : E e t) : x.Ends s Q E := by
  rw [Ends, h]
  exact he

lemma ends_of_eq {y : Prog σ ε α} (h : x s = y t) (hy : y.Ends t Q E) : x.Ends s Q E := by
  rw [Ends, h]
  exact hy

lemma Ends.mono (h : x.Ends s Q E) (hq : ∀ a t, Q a t → R a t) (he : ∀ e t, E e t → E' e t) :
    x.Ends s R E' := by
  rw [Ends] at h ⊢
  split at h
  · exact hq _ _ h
  · exact he _ _ h

lemma Ends.and (h : x.Ends s Q E) (h' : x.Ends s R E') :
    x.Ends s (fun a t => Q a t ∧ R a t) fun e t => E e t ∧ E' e t := by
  rw [Ends] at h h' ⊢
  split at h
  · rename_i hx
    rw [hx] at h'
    exact ⟨h, h'⟩
  · rename_i hx
    rw [hx] at h'
    exact ⟨h, h'⟩

/-- The rule of sequence. -/
lemma Ends.bind (h : x.Ends s R E) (hf : ∀ a t, R a t → (f a).Ends t Q' E) :
    (x >>= f).Ends s Q' E := by
  rcases hx : x s with ⟨e | a, t⟩
  · rw [Ends, hx] at h
    exact ends_of_error (bind_of_error hx f) h
  · rw [Ends, hx] at h
    have := hf a t h
    rw [Ends] at this ⊢
    rwa [bind_of_ok hx]

lemma Ends.ite {c : Prop} [Decidable c] {y : Prog σ ε α} (hx : c → x.Ends s Q E)
    (hy : ¬ c → y.Ends s Q E) : (if c then x else y).Ends s Q E := by
  by_cases hc : c
  · rw [if_pos hc]
    exact hx hc
  · rw [if_neg hc]
    exact hy hc

lemma ends_pure {a : α} (h : Q a s) : (pure a : Prog σ ε α).Ends s Q E := h

lemma ends_throw {e : ε} (h : E e s) : (throw e : Prog σ ε α).Ends s Q E := h

/-- The rule of `get`. -/
lemma ends_get {g : σ → Prog σ ε β} (h : (g s).Ends s Q' E) :
    (get >>= g : Prog σ ε β).Ends s Q' E := h

/-- The rule of assignment. -/
lemma ends_modify {g : σ → σ} {k : PUnit → Prog σ ε β} (h : (k ⟨⟩).Ends (g s) Q' E) :
    ((modify g : Prog σ ε PUnit) >>= k).Ends s Q' E := h

lemma ends_set {k : PUnit → Prog σ ε β} (h : (k ⟨⟩).Ends t Q' E) :
    ((set t : Prog σ ε PUnit) >>= k).Ends s Q' E := h

lemma ends_tryCatch {h : ε → Prog σ ε α} (hx : x.Ends s Q E')
    (hh : ∀ e t, E' e t → (h e).Ends t Q E) : (tryCatch x h : Prog σ ε α).Ends s Q E := by
  rw [Ends] at hx
  rcases hxs : x s with ⟨e | a, t⟩
  · rw [hxs] at hx
    have hcatch : (tryCatch x h : Prog σ ε α) s = h e t := by
      show (match x s with | (.ok a, t) => (.ok a, t) | (.error e, t) => h e t) = h e t
      rw [hxs]
    rw [Ends, hcatch]
    exact hh e t hx
  · rw [hxs] at hx
    refine ends_of_ok (a := a) (t := t) ?_ hx
    show (match x s with | (.ok a, t) => (.ok a, t) | (.error e, t) => h e t) = (.ok a, t)
    rw [hxs]

/-- The rule of loops: `I` holds before every round, and every round but the last makes `m`
smaller. There are rounds enough. -/
lemma ends_loop {body : Prog σ ε Bool} {stuck : ε} {I : σ → Prop} {m : σ → ℕ} {Q : PUnit → σ → Prop}
    (hbody : ∀ s, I s →
      body.Ends s (fun again t => if again then I t ∧ m t < m s else Q ⟨⟩ t) E)
    {n : ℕ} (hs : I s) (hn : m s < n) : (loop body stuck n).Ends s Q E := by
  induction n generalizing s with
  | zero => exact absurd hn (Nat.not_lt_zero _)
  | succ n ih =>
    refine (hbody s hs).bind fun again t h => ?_
    cases again with
    | true => exact ih h.1 (Nat.lt_of_lt_of_le h.2 (Nat.le_of_lt_succ hn))
    | false => exact h

end Rules

end Prog

end DbCoursework.Programs

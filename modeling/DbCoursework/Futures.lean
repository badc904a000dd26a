import Mathlib.Data.Nat.Notation
import Mathlib.Tactic.Lemma
import Mathlib.Tactic.TypeStar

/-!
One-shot futures of tasks that run on their own.

A pool is the tasks started so far, each with its value once it has returned, and a list of
futures. A future hands its task's value out once; a second `get` finds it without state.
-/

namespace DbCoursework.Futures

structure Task (α β : Type*) where
  arg : α
  result : Option β := none
  deriving DecidableEq

/-- A future: the task it belongs to, and whether it still refers to that task's state. -/
structure Future where
  task : ℕ
  valid : Bool := true
  deriving DecidableEq

structure Pool (α β : Type*) where
  tasks : List (Task α β) := []
  futures : List Future := []
  /-- How often a future without state was asked for its value. -/
  futureErrors : ℕ := 0
  deriving DecidableEq

/-- What can be seen through a future. -/
inductive Status (β : Type*)
  | noState
  | running
  | ready (value : β)

inductive Got (β : Type*)
  | futureError
  | value (value : β)

namespace Pool

variable {α β : Type*}

/-- A new task, and its future at the end of the list. -/
def async (p : Pool α β) (arg : α) : Pool α β :=
  { p with
    tasks := p.tasks ++ [{ arg := arg }]
    futures := p.futures ++ [{ task := p.tasks.length }] }

/-- A task that has not returned yet returns. -/
def finish (p : Pool α β) (t : ℕ) (value : β) : Option (Pool α β) :=
  match p.tasks[t]? with
  | some ⟨arg, none⟩ => some { p with tasks := p.tasks.set t ⟨arg, some value⟩ }
  | _ => none

def status (p : Pool α β) (i : ℕ) : Status β :=
  match p.futures[i]? with
  | some ⟨t, true⟩ => (p.tasks[t]?.bind Task.result).elim .running .ready
  | _ => .noState

def take (p : Pool α β) (i : ℕ) : Pool α β :=
  { p with futures := p.futures.modify i fun f => { f with valid := false } }

/-- `get` of the future at position `i`: nothing while the task runs. -/
def get (p : Pool α β) (i : ℕ) : Option (Got β × Pool α β) :=
  match p.status i with
  | .noState => some (.futureError, { p with futureErrors := p.futureErrors + 1 })
  | .running => none
  | .ready v => some (.value v, p.take i)

/-- Destroying all futures: nothing while one of them still waits for its task. -/
def clear (p : Pool α β) : Option (Pool α β) :=
  if (List.range p.futures.length).any fun i => p.status i matches .running then none
  else some { p with futures := [] }

/-! ### What the operations keep -/

/-- No future from position `n` on has been asked for its value. -/
def FreshFrom (p : Pool α β) (n : ℕ) : Prop := ∀ f ∈ p.futures.drop n, f.valid = true

/-- Every future belongs to a task. -/
def Wf (p : Pool α β) : Prop := ∀ f ∈ p.futures, f.task < p.tasks.length

/-- Some task has returned a value in `P`. -/
def Returned (p : Pool α β) (P : β → Prop) : Prop := ∃ t ∈ p.tasks, ∃ v, t.result = some v ∧ P v

variable {p q : Pool α β} {n i t : ℕ} {v : β} {P : β → Prop}

lemma FreshFrom.succ (h : p.FreshFrom n) : p.FreshFrom (n + 1) := by
  intro f hf
  refine h f (List.mem_of_mem_drop (i := 1) ?_)
  rwa [List.drop_drop]

lemma async_freshFrom (h : p.FreshFrom n) (arg : α) : (p.async arg).FreshFrom n := by
  intro f hf
  rcases List.mem_append.mp (List.drop_append ▸ hf) with hf | hf
  · exact h f hf
  · obtain rfl := List.mem_singleton.mp (List.mem_of_mem_drop hf)
    rfl

lemma async_wf (h : p.Wf) (arg : α) : (p.async arg).Wf := by
  intro f hf
  have hlen : (p.async arg).tasks.length = p.tasks.length + 1 := by simp [async]
  rcases List.mem_append.mp hf with hf | hf
  · have := h f hf
    omega
  · obtain rfl := List.mem_singleton.mp hf
    exact hlen ▸ Nat.lt_succ_self _

lemma async_returned_iff (p : Pool α β) (arg : α) : (p.async arg).Returned P ↔ p.Returned P := by
  constructor
  · rintro ⟨task, ht, v, hv, hP⟩
    rcases List.mem_append.mp ht with ht | ht
    · exact ⟨task, ht, v, hv, hP⟩
    · obtain rfl := List.mem_singleton.mp ht
      cases hv
  · rintro ⟨task, ht, hv⟩
    exact ⟨task, List.mem_append_left _ ht, hv⟩

lemma finish_eq_some (h : p.finish t v = some q) : ∃ arg, p.tasks[t]? = some ⟨arg, none⟩ ∧
    q = { p with tasks := p.tasks.set t ⟨arg, some v⟩ } := by
  unfold finish at h
  split at h
  case h_1 arg ht => exact ⟨arg, ht, (Option.some.inj h).symm⟩
  case h_2 => cases h

lemma finish_returned_iff (h : p.finish t v = some q) :
    q.Returned P ↔ p.Returned P ∨ P v := by
  obtain ⟨arg, ht, rfl⟩ := finish_eq_some h
  have hlt : t < p.tasks.length := (List.getElem?_eq_some_iff.mp ht).1
  constructor
  · rintro ⟨task, hmem, w, hw, hP⟩
    rcases List.mem_or_eq_of_mem_set hmem with hmem | rfl
    · exact Or.inl ⟨task, hmem, w, hw, hP⟩
    · exact Or.inr (Option.some.inj hw ▸ hP)
  · rintro (⟨task, hmem, w, hw, hP⟩ | hP)
    · obtain ⟨j, hj⟩ := List.mem_iff_getElem?.mp hmem
      have hne : t ≠ j := by
        rintro rfl
        rw [hj, Option.some.injEq] at ht
        rw [ht] at hw
        cases hw
      exact ⟨task, List.mem_of_getElem? ((List.getElem?_set_ne hne).trans hj), w, hw, hP⟩
    · exact ⟨⟨arg, some v⟩, List.mem_set hlt _, v, rfl, hP⟩

lemma finish_args (h : p.finish t v = some q) : q.tasks.map Task.arg = p.tasks.map Task.arg := by
  obtain ⟨arg, ht, rfl⟩ := finish_eq_some h
  refine List.ext_getElem? fun j => ?_
  rw [List.getElem?_map, List.getElem?_map]
  rcases Decidable.em (t = j) with rfl | hne
  · rw [List.getElem?_set_self (List.getElem?_eq_some_iff.mp ht).1, ht]
    rfl
  · rw [List.getElem?_set_ne hne]

/-- A task returns once, and only the task named returns. -/
lemma finish_result (h : p.finish t v = some q) (i : ℕ) :
    p.tasks[t]?.bind Task.result = none ∧
      q.tasks[i]?.bind Task.result = if i = t then some v else p.tasks[i]?.bind Task.result := by
  obtain ⟨arg, ht, rfl⟩ := finish_eq_some h
  refine ⟨by rw [ht]; rfl, ?_⟩
  rcases Decidable.em (t = i) with rfl | hne
  · rw [List.getElem?_set_self (List.getElem?_eq_some_iff.mp ht).1, if_pos rfl]
    rfl
  · rw [List.getElem?_set_ne hne, if_neg (Ne.symm hne)]

lemma finish_wf (h : p.finish t v = some q) (hp : p.Wf) : q.Wf := by
  obtain ⟨arg, -, rfl⟩ := finish_eq_some h
  intro f hf
  rw [List.length_set]
  exact hp f hf

lemma finish_status (h : p.finish t v = some q) (hi : p.status i = .noState) :
    q.status i = .noState := by
  obtain ⟨arg, -, rfl⟩ := finish_eq_some h
  unfold status at hi ⊢
  split
  case h_1 task hf =>
    -- a future with a state shows it
    simp only [hf] at hi
    cases hp : p.tasks[task]?.bind Task.result <;> simp [hp] at hi
  case h_2 => rfl

lemma status_of_fresh (h : p.FreshFrom n) (hn : n < p.futures.length) :
    p.status n = (p.tasks[p.futures[n].task]?.bind Task.result).elim .running .ready := by
  have hvalid : p.futures[n].valid = true := h _ (by
    rw [List.drop_eq_getElem_cons hn]
    exact List.mem_cons_self)
  have hf : p.futures[n]? = some ⟨p.futures[n].task, true⟩ := by
    rw [List.getElem?_eq_getElem hn, ← hvalid]
  rw [status, hf]

@[simp] lemma length_take (p : Pool α β) (n : ℕ) : (p.take n).futures.length = p.futures.length :=
  List.length_modify ..

lemma take_freshFrom (h : p.FreshFrom n) : (p.take n).FreshFrom (n + 1) := by
  intro f hf
  refine h.succ f ?_
  rwa [take, List.drop_modify_of_lt _ _ _ _ (Nat.lt_succ_self n)] at hf

lemma take_wf (h : p.Wf) (n : ℕ) : (p.take n).Wf := by
  intro f hf
  obtain ⟨j, hj⟩ := List.mem_iff_getElem?.mp hf
  rw [take, List.getElem?_modify] at hj
  obtain ⟨g, hg, rfl⟩ := Option.map_eq_some_iff.mp hj
  have := h g (List.mem_of_getElem? hg)
  split <;> exact this

lemma status_take (p : Pool α β) (n : ℕ) : (p.take n).status n = .noState := by
  unfold status take
  rw [List.getElem?_modify_eq]
  cases p.futures[n]? <;> rfl

/-- The first `get` of a fresh future, once its task has returned. -/
lemma get_of_fresh (h : p.FreshFrom n) (hn : n < p.futures.length) {r : Got β × Pool α β}
    (hget : p.get n = some r) : ∃ v, r = (.value v, p.take n) ∧ p.Returned (· = v) := by
  unfold get at hget
  rw [status_of_fresh h hn] at hget
  rcases htask : p.tasks[p.futures[n].task]?.bind Task.result with _ | v
  · simp [htask] at hget
  · rw [htask] at hget
    obtain ⟨task, ht, hv⟩ := Option.bind_eq_some_iff.mp htask
    exact ⟨v, (Option.some.inj hget).symm, task, List.mem_of_getElem? ht, v, hv, rfl⟩

lemma get_of_noState (h : p.status n = .noState) :
    p.get n = some (.futureError, { p with futureErrors := p.futureErrors + 1 }) := by
  rw [get, h]

/-- Once all tasks have returned nothing waits any more. -/
lemma status_ne_running (hp : p.Wf) (hall : ∀ task ∈ p.tasks, task.result.isSome = true) (i : ℕ) :
    p.status i ≠ .running := by
  unfold status
  split
  case h_1 t hf =>
    have ht : t < p.tasks.length := hp _ (List.mem_of_getElem? hf)
    obtain ⟨v, hv⟩ := Option.isSome_iff_exists.mp (hall _ (List.getElem_mem ht))
    rw [List.getElem?_eq_getElem ht, Option.bind_some, hv]
    simp
  case h_2 => simp

lemma get_isSome (h : p.status i ≠ .running) : ∃ r, p.get i = some r := by
  unfold get
  cases hs : p.status i with
  | noState => exact ⟨_, rfl⟩
  | running => exact absurd hs h
  | ready v => exact ⟨_, rfl⟩

lemma clear_of_not_running (h : ∀ i, p.status i ≠ .running) :
    p.clear = some { p with futures := [] } := by
  unfold clear
  rw [if_neg]
  rw [List.any_eq_true]
  rintro ⟨i, -, hi⟩
  have := h i
  cases hs : p.status i <;> simp_all

lemma clear_eq_some (h : p.clear = some q) : q = { p with futures := [] } := by
  unfold clear at h
  split at h
  · cases h
  · exact (Option.some.inj h).symm

end Pool

end DbCoursework.Futures

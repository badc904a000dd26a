import DbCoursework.ServerStore

/-!
The cached loader of the server list.

An object keeps the list of its first successful load and returns it from then on. What a
call returns is therefore told by what its calls so far found in the store: the first list
among those that is not empty.
-/

namespace DbCoursework.ServerCache

open DbCoursework.SettingsArray DbCoursework.ServerManager DbCoursework.ServerStore

/-- The list inside a `ServerManager` object, and the settings on disk. -/
structure State where
  servers : List Server := []
  store : Store

/-- `ServerManager::getServers`: the list it returns, and the state after it. -/
def State.getServers (s : State) : List Server × State :=
  if !s.servers.isEmpty then (s.servers, s)
  else
    let servers := loadServers s.store s.servers
    (servers, { s with servers })

inductive Event
  | getServers
  | saveServerList (servers : List Server)

def step (s : State) : Event → State
  | .getServers => s.getServers.2
  | .saveServerList servers => { s with store := saveServerList servers s.store }

def run (s : State) (es : List Event) : State := es.foldl step s

/-- What `loadServers` would read at each call of `getServers`. -/
def found (σ : Store) : List Event → List (List Server)
  | [] => []
  | .getServers :: es => loadServers σ [] :: found σ es
  | .saveServerList servers :: es => found (saveServerList servers σ) es

@[simp] lemma run_nil (s : State) : run s [] = s := rfl
@[simp] lemma run_cons (s : State) (e : Event) (es : List Event) :
    run s (e :: es) = run (step s e) es := rfl

/-! ### The first list that is not empty -/

section FirstNonempty

variable {α : Type*}

def firstNonempty : List (List α) → List α
  | [] => []
  | l :: ls => if l.isEmpty then firstNonempty ls else l

@[simp] lemma firstNonempty_nil_cons (ls : List (List α)) :
    firstNonempty ([] :: ls) = firstNonempty ls := rfl

lemma firstNonempty_cons_of_ne {l : List α} (h : l ≠ []) (ls : List (List α)) :
    firstNonempty (l :: ls) = l := by
  simp [firstNonempty, h]

@[simp] lemma firstNonempty_singleton (l : List α) : firstNonempty [l] = l := by
  rcases l with _ | ⟨a, l⟩ <;> rfl

/-- The lists read first may be replaced by the one they give. -/
lemma firstNonempty_append (ls ms : List (List α)) :
    firstNonempty (ls ++ ms) = firstNonempty (firstNonempty ls :: ms) := by
  induction ls with
  | nil => rfl
  | cons l ls ih =>
    rcases l with _ | ⟨a, l⟩
    · exact ih
    · rfl

end FirstNonempty

/-! ### What a call returns -/

lemma getServers_fst (s : State) :
    s.getServers.1 = firstNonempty [s.servers, loadServers s.store []] := by
  obtain ⟨servers, store⟩ := s
  rcases servers with _ | ⟨srv, servers⟩
  · exact (firstNonempty_singleton _).symm
  · rfl

/-- What a call returns is what the object keeps. -/
lemma getServers_snd (s : State) :
    s.getServers.2 = { s with servers := s.getServers.1 } := by
  obtain ⟨servers, store⟩ := s
  rcases servers with _ | ⟨srv, servers⟩ <;> rfl

lemma found_concat (s : State) (es : List Event) :
    found s.store (es ++ [.getServers]) = found s.store es ++ [loadServers (run s es).store []] := by
  induction es generalizing s with
  | nil => rfl
  | cons e es ih =>
    cases e with
    | getServers =>
      have hstore : (step s .getServers).store = s.store := by rw [step, getServers_snd]
      rw [List.cons_append, found, found, List.cons_append, run_cons, ← hstore, ih]
    | saveServerList servers => exact ih (step s (.saveServerList servers))

/-- After any run the object holds the first non-empty list it had or found. -/
lemma run_servers (s : State) (es : List Event) :
    (run s es).servers = firstNonempty (s.servers :: found s.store es) := by
  induction es generalizing s with
  | nil => exact (firstNonempty_singleton s.servers).symm
  | cons e es ih =>
    rw [run_cons, ih]
    cases e with
    | getServers =>
      rw [step, getServers_snd, getServers_fst, found]
      exact (firstNonempty_append [s.servers, loadServers s.store []] (found s.store es)).symm
    | saveServerList servers => rfl

lemma getServers_run (s : State) (es : List Event) :
    (run s es).getServers.1 = firstNonempty (s.servers :: found s.store (es ++ [.getServers])) := by
  rw [getServers_fst, run_servers, found_concat, ← List.cons_append, firstNonempty_append]

/-- **What the cached loader returns**, after any calls and saves: the first non-empty list
that the calls of this object have found in the store, this call included. It is what the
store holds exactly if no earlier call found a non-empty list, or the first one found is
still there. -/
theorem getServers_returns (σ : Store) (es : List Event) :
    (run { store := σ } es).getServers.1 = firstNonempty (found σ (es ++ [.getServers])) ∧
      ((run { store := σ } es).getServers.1 = loadServers (run { store := σ } es).store [] ↔
        firstNonempty (found σ es) = [] ∨
          firstNonempty (found σ es) = loadServers (run { store := σ } es).store []) := by
  have hret := getServers_run { store := σ } es
  rw [firstNonempty_nil_cons] at hret
  refine ⟨hret, ?_⟩
  have hfound := found_concat { store := σ } es
  rw [hret, hfound, firstNonempty_append]
  rcases Decidable.em (firstNonempty (found σ es) = []) with hnil | hne
  · simp [hnil]
  · rw [firstNonempty_cons_of_ne hne]
    simp [hne]

/-- A list saved after the first call is not seen. -/
theorem getServers_stale : ¬ ∀ (σ : Store) (es : List Event),
    (run { store := σ } es).getServers.1 = loadServers (run { store := σ } es).store [] := by
  intro h
  have hlast := h emptyStore [.saveServerList [⟨"h", "1", "d", "u", "p"⟩], .getServers,
    .saveServerList [⟨"h", "1", "d", "u", "q"⟩]]
  revert hlast
  decide

/-! ### Over the saved lists alone -/

/-- What the calls would read if saving replaced the list `l` and nothing else were stored. -/
def foundIn (l : List Server) : List Event → List (List Server)
  | [] => []
  | .getServers :: es => l :: foundIn l es
  | .saveServerList servers :: es => foundIn servers es

lemma found_eq (σ : Store) (es : List Event) : found σ es = foundIn (loadServers σ []) es := by
  induction es generalizing σ with
  | nil => rfl
  | cons e es ih =>
    cases e with
    | getServers => rw [found, foundIn, ih]
    | saveServerList servers => rw [found, foundIn, ih, load_save]

/-- **Calls find the list saved last**, or what was stored before the run. -/
theorem getServers_saved (σ : Store) (es : List Event) :
    (run { store := σ } es).getServers.1 =
      firstNonempty (foundIn (loadServers σ []) (es ++ [.getServers])) := by
  rw [getServers_run, firstNonempty_nil_cons, found_eq]

end DbCoursework.ServerCache

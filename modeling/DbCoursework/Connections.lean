import DbCoursework.ConnectionString
import DbCoursework.Futures
import DbCoursework.Runs

/-!
Opening and closing the database connections.

`setupConnections` starts an attempt for each server and keeps its future;
`terminateConnections` goes through the futures, with a task for each that it waits for
before the next. The attempts run on their own and return at any point in between.
-/

namespace DbCoursework.Connections

open DbCoursework.Runs DbCoursework.Futures DbCoursework.ServerManager
open DbCoursework.ConnectionString

/-- What an attempt returns: an open connection, by the attempt's number, or `nullptr`. -/
abbrev Connection := Option ℕ

/-- Where `terminateConnection` stands. -/
inductive Place
  | check
  | wait
  | firstGet
  | secondGet
  deriving DecidableEq

/-- Where the main thread stands. In `terminating i tmp` it is about to look at the future at
position `i`, or waits for the task `tmp` that closes it. -/
inductive Pc
  | idle
  | settingUp (servers : List Server)
  | terminating (i : ℕ) (tmp : Option Place)
  | terminated
  deriving DecidableEq

/-- Past the task at position `i`, or at another place in it. -/
def Pc.after (i : ℕ) : Option Place → Pc
  | some place => .terminating i (some place)
  | none => .terminating (i + 1) none

structure State where
  /-- The attempts, and `active_connections` as its futures. -/
  pool : Pool String Connection := {}
  /-- The connections `close()` was called on, in order. -/
  closed : List ℕ := []
  pc : Pc := .idle
  deriving DecidableEq

namespace State

/-- One step of `MainWindow::terminateConnection` on the future at position `i`, and where it
stands afterwards, if it has not ended. -/
def terminateConnection (s : State) (i : ℕ) : Place → Option (State × Option Place)
  | .check =>
    match s.pool.status i with
    | .noState => some (s, none)
    | .running => some (s, some .wait)
    | .ready _ => some (s, some .firstGet)
  | .wait =>
    match s.pool.status i with
    | .noState => some (s, none)
    | .running => none
    | .ready _ => some (s, some .firstGet)
  | .firstGet =>
    (s.pool.get i).map fun (got, pool) =>
      match got with
      | .value (some _) => ({ s with pool }, some .secondGet)
      | _ => ({ s with pool }, none)
  | .secondGet =>
    (s.pool.get i).bind fun (got, pool) =>
      match got with
      | .futureError => some ({ s with pool }, none)
      | .value (some c) => some ({ s with pool, closed := s.closed ++ [c] }, none)
      | .value none => none

/-- The main thread is in neither of the two loops. -/
def free (s : State) : Bool :=
  match s.pc with
  | .idle | .terminated => true
  | _ => false

/-- The main thread's next step. -/
def main (s : State) : Option State :=
  match s.pc with
  | .idle | .terminated => none
  | .settingUp [] => some { s with pc := .idle }
  | .settingUp (srv :: servers) =>
    some { s with pool := s.pool.async (constructConnectionString srv), pc := .settingUp servers }
  | .terminating i none =>
    if i < s.pool.futures.length then some { s with pc := .terminating i (some .check) }
    else s.pool.clear.map fun pool => { s with pool, pc := .terminated }
  | .terminating i (some place) =>
    -- what the task throws stays in `tmp` and goes with it
    (s.terminateConnection i place).map fun (s, next) => { s with pc := .after i next }

end State

/-- A call from `openSettings`, the constructor or `main`, the return of an attempt, or the
main thread's next step. -/
inductive Event
  | setupConnections (servers : List Server)
  | terminateConnections
  | finish (attempt : ℕ) (connected : Bool)
  | main
  deriving DecidableEq

/-- Nothing if the event is not possible: the main thread is busy, it waits for a task, or the
attempt is not running. -/
def step (s : State) : Event → Option State
  | .setupConnections servers => if s.free then some { s with pc := .settingUp servers } else none
  | .terminateConnections => if s.free then some { s with pc := .terminating 0 none } else none
  | .finish attempt connected =>
    (s.pool.finish attempt (if connected then some attempt else none)).map fun pool =>
      { s with pool }
  | .main => s.main

def run (s : State) (es : List Event) : Option State := Runs.run step s es

def init : State := {}

/-- No future is left, each connection an attempt has returned was closed once, and no future
was read twice. -/
def EachClosedOnce (s : State) : Prop :=
  s.pool.futures = [] ∧ (∀ task ∈ s.pool.tasks, ∀ c, task.result = some (some c) →
    s.closed.count c = 1) ∧ s.pool.futureErrors = 0

/-! ### What a step keeps -/

/-- Some attempt has returned an open connection. -/
def State.Connected (s : State) : Prop := s.pool.Returned fun c => c.isSome = true

/-- What is left to be read where the main thread stands; at the second `get` the future has
just been read. -/
def AtPc (p : Pool String Connection) : Pc → Prop
  | .idle | .settingUp _ => p.FreshFrom 0
  | .terminating i none => p.FreshFrom i
  | .terminating i (some .secondGet) =>
    p.FreshFrom (i + 1) ∧ i < p.futures.length ∧ p.status i = .noState ∧
      p.Returned fun c => c.isSome = true
  | .terminating i (some _) => p.FreshFrom i ∧ i < p.futures.length
  | .terminated => p.futures = []

structure Inv (s : State) : Prop where
  wf : s.pool.Wf
  closed : s.closed = []
  errors : s.pool.futureErrors ≠ 0 → s.Connected
  at_pc : AtPc s.pool s.pc

/-- The second `get` never finds a value, so nothing is closed. -/
lemma terminateConnection_inv {s s' : State} {i : ℕ} {place : Place} {next : Option Place}
    (h : Inv s) (hpc : s.pc = .terminating i (some place))
    (hstep : s.terminateConnection i place = some (s', next)) :
    Inv { s' with pc := .after i next } ∧ s'.pool.tasks = s.pool.tasks := by
  have hat := h.at_pc
  rw [hpc] at hat
  cases place with
  | check =>
    obtain ⟨hfresh, hi⟩ := hat
    simp only [State.terminateConnection] at hstep
    split at hstep <;> cases hstep
    · exact ⟨⟨h.wf, h.closed, h.errors, hfresh.succ⟩, rfl⟩
    · exact ⟨⟨h.wf, h.closed, h.errors, hfresh, hi⟩, rfl⟩
    · exact ⟨⟨h.wf, h.closed, h.errors, hfresh, hi⟩, rfl⟩
  | wait =>
    obtain ⟨hfresh, hi⟩ := hat
    simp only [State.terminateConnection] at hstep
    split at hstep <;> cases hstep
    · exact ⟨⟨h.wf, h.closed, h.errors, hfresh.succ⟩, rfl⟩
    · exact ⟨⟨h.wf, h.closed, h.errors, hfresh, hi⟩, rfl⟩
  | firstGet =>
    obtain ⟨hfresh, hi⟩ := hat
    obtain ⟨r, hget, hr⟩ := Option.map_eq_some_iff.mp hstep
    obtain ⟨v, rfl, hv⟩ := Pool.get_of_fresh hfresh hi hget
    rcases v with _ | c
    · cases hr
      exact ⟨⟨Pool.take_wf h.wf i, h.closed, h.errors, Pool.take_freshFrom hfresh⟩, rfl⟩
    · cases hr
      have hconn : (s.pool.take i).Returned fun c => c.isSome = true := by
        obtain ⟨task, ht, w, hw, rfl⟩ := hv
        exact ⟨task, ht, some c, hw, rfl⟩
      exact ⟨⟨Pool.take_wf h.wf i, h.closed, h.errors, Pool.take_freshFrom hfresh,
        (Pool.length_take s.pool i).symm ▸ hi, Pool.status_take s.pool i, hconn⟩, rfl⟩
  | secondGet =>
    obtain ⟨hfresh, hi, hstatus, hconn⟩ := hat
    rw [State.terminateConnection, Pool.get_of_noState hstatus, Option.bind_some] at hstep
    cases hstep
    exact ⟨⟨h.wf, h.closed, fun _ => hconn, hfresh⟩, rfl⟩

lemma main_inv {s s' : State} (h : Inv s) (hstep : s.main = some s') :
    Inv s' ∧ (s'.Connected ↔ s.Connected) := by
  have hat := h.at_pc
  unfold State.main at hstep
  split at hstep
  case h_1 | h_2 => cases hstep
  case h_3 hpc =>
    rw [hpc] at hat
    cases hstep
    exact ⟨⟨h.wf, h.closed, h.errors, hat⟩, Iff.rfl⟩
  case h_4 srv servers hpc =>
    rw [hpc] at hat
    cases hstep
    have hconn := Pool.async_returned_iff (P := fun c => c.isSome = true) s.pool
      (constructConnectionString srv)
    exact ⟨⟨Pool.async_wf h.wf _, h.closed, fun he => hconn.mpr (h.errors he),
      Pool.async_freshFrom hat _⟩, hconn⟩
  case h_5 i hpc =>
    rw [hpc] at hat
    split at hstep
    case isTrue hi =>
      cases hstep
      exact ⟨⟨h.wf, h.closed, h.errors, hat, hi⟩, Iff.rfl⟩
    case isFalse =>
      obtain ⟨p, hclear, rfl⟩ := Option.map_eq_some_iff.mp hstep
      obtain rfl := Pool.clear_eq_some hclear
      exact ⟨⟨List.forall_mem_nil _, h.closed, h.errors, rfl⟩, Iff.rfl⟩
  case h_6 i place hpc =>
    obtain ⟨⟨t, next⟩, ht, rfl⟩ := Option.map_eq_some_iff.mp hstep
    obtain ⟨hinv, htasks⟩ := terminateConnection_inv h hpc ht
    refine ⟨hinv, ?_⟩
    simp only [State.Connected, Pool.Returned, htasks]

lemma Inv.fresh_of_free {s : State} (h : Inv s) (hfree : s.free = true) : s.pool.FreshFrom 0 := by
  have hat := h.at_pc
  unfold State.free at hfree
  split at hfree
  case h_1 hpc => rwa [hpc] at hat
  case h_2 hpc =>
    rw [hpc] at hat
    intro f hf
    rw [hat] at hf
    cases hf
  case h_3 => cases hfree

lemma AtPc.finish {p q : Pool String Connection} {pc : Pc} {t : ℕ} {c : Connection}
    (h : AtPc p pc) (hq : p.finish t c = some q) : AtPc q pc := by
  have hfutures : q.futures = p.futures := by
    obtain ⟨arg, -, rfl⟩ := Pool.finish_eq_some hq
    rfl
  have hfresh : ∀ {n}, p.FreshFrom n → q.FreshFrom n := fun hn => by
    rwa [Pool.FreshFrom, hfutures]
  match pc, h with
  | .idle, h | .settingUp _, h | .terminating _ none, h => exact hfresh h
  | .terminating _ (some .secondGet), ⟨hn, hi, hstatus, hconn⟩ =>
    exact ⟨hfresh hn, hfutures ▸ hi, Pool.finish_status hq hstatus,
      (Pool.finish_returned_iff hq).mpr (.inl hconn)⟩
  | .terminating _ (some .check), ⟨hn, hi⟩ | .terminating _ (some .wait), ⟨hn, hi⟩
  | .terminating _ (some .firstGet), ⟨hn, hi⟩ => exact ⟨hfresh hn, hfutures ▸ hi⟩
  | .terminated, h => exact hfutures.trans h

/-- Some attempt of the run returned an open connection. -/
def Opened (es : List Event) : Prop := ∃ attempt, .finish attempt true ∈ es

lemma opened_cons (e : Event) (es : List Event) :
    Opened (e :: es) ↔ Opened [e] ∨ Opened es := by
  simp only [Opened, List.mem_cons, List.not_mem_nil, or_false, exists_or]

lemma step_inv {s s' : State} {e : Event} (h : Inv s) (hstep : step s e = some s') :
    Inv s' ∧ (s'.Connected ↔ s.Connected ∨ Opened [e]) := by
  cases e with
  | setupConnections servers =>
    simp only [step, Option.ite_none_right_eq_some] at hstep
    obtain ⟨hfree, hs⟩ := hstep
    cases hs
    exact ⟨⟨h.wf, h.closed, h.errors, h.fresh_of_free hfree⟩, by simp [State.Connected, Opened]⟩
  | terminateConnections =>
    simp only [step, Option.ite_none_right_eq_some] at hstep
    obtain ⟨hfree, hs⟩ := hstep
    cases hs
    exact ⟨⟨h.wf, h.closed, h.errors, h.fresh_of_free hfree⟩, by simp [State.Connected, Opened]⟩
  | finish attempt connected =>
    obtain ⟨p, hp, rfl⟩ := Option.map_eq_some_iff.mp hstep
    have hconn := Pool.finish_returned_iff (P := fun c => c.isSome = true) hp
    have herrors : p.futureErrors = s.pool.futureErrors := by
      obtain ⟨arg, -, rfl⟩ := Pool.finish_eq_some hp
      rfl
    refine ⟨⟨Pool.finish_wf hp h.wf, h.closed, fun he => hconn.mpr (.inl (h.errors (herrors ▸ he))),
      h.at_pc.finish hp⟩, ?_⟩
    refine hconn.trans (or_congr Iff.rfl ?_)
    cases connected <;> simp [Opened]
  | main =>
    obtain ⟨hinv, hconn⟩ := main_inv h hstep
    exact ⟨hinv, by simp [hconn, Opened]⟩

lemma run_inv {s t : State} {es : List Event} (h : Inv s) (hrun : run s es = some t) :
    Inv t ∧ (t.Connected ↔ s.Connected ∨ Opened es) := by
  induction es generalizing s with
  | nil => cases hrun; exact ⟨h, by simp [Opened]⟩
  | cons e es ih =>
    obtain ⟨s', hs, hr⟩ := (run_cons_eq_some step).mp hrun
    obtain ⟨hinv, hconn⟩ := step_inv h hs
    obtain ⟨hinv', hconn'⟩ := ih hinv hr
    exact ⟨hinv', by rw [hconn', hconn, opened_cons e es, or_assoc]⟩

lemma init_inv : Inv init :=
  ⟨List.forall_mem_nil _, rfl, fun h => absurd rfl h, List.forall_mem_nil _⟩

/-- **Each connection is closed exactly once** by the time `terminateConnections` has returned,
exactly if no attempt has opened one: the value of its future is taken by the comparison
with `nullptr`, and the `get` before `close()` fails. -/
theorem eachClosedOnce_iff (es : List Event) (s : State) (hrun : run init es = some s)
    (hpc : s.pc = .terminated) : EachClosedOnce s ↔ ∀ attempt, .finish attempt true ∉ es := by
  obtain ⟨hinv, hconn⟩ := run_inv init_inv hrun
  have hnone : ¬ init.Connected := by
    rintro ⟨task, ht, -⟩
    cases ht
  have hopened : s.Connected ↔ Opened es := by simpa [hnone] using hconn
  have hfutures : s.pool.futures = [] := by
    have := hinv.at_pc
    rwa [hpc] at this
  constructor
  · rintro ⟨-, hclosed, -⟩ attempt hmem
    obtain ⟨task, ht, c, hc, hsome⟩ := hopened.mpr ⟨attempt, hmem⟩
    obtain ⟨c, rfl⟩ := Option.isSome_iff_exists.mp hsome
    have := hclosed task ht c hc
    simp [hinv.closed] at this
  · intro hes
    have hconn : ¬ s.Connected := fun hc => by
      obtain ⟨attempt, hmem⟩ := hopened.mp hc
      exact hes attempt hmem
    refine ⟨hfutures, fun task ht c hc => ?_, ?_⟩
    · exact absurd ⟨task, ht, some c, hc, rfl⟩ hconn
    · by_contra herrors
      exact hconn (hinv.errors herrors)

theorem eachClosedOnce_of_nullptr : ∃ s,
    run init [.setupConnections [⟨"h", "1", "d", "u", "p"⟩], .main, .main, .terminateConnections,
        .main, .main, .finish 0 false, .main, .main, .main] = some s ∧
      s.pc = .terminated ∧ EachClosedOnce s :=
  ⟨_, (Option.some_get (by decide)).symm, by decide,
    (eachClosedOnce_iff _ _ (Option.some_get (by decide)).symm (by decide)).mpr (by simp)⟩

/-- One server is connected to, and its connection is never closed. -/
theorem connection_left_open : ¬ ∀ es s, run init es = some s → s.pc = .terminated →
    EachClosedOnce s := by
  intro h
  have honce := h [.setupConnections [⟨"h", "1", "d", "u", "p"⟩], .main, .main, .finish 0 true,
    .terminateConnections, .main, .main, .main, .main, .main] _ (Option.some_get (by decide)).symm
    (by decide)
  have herrors := honce.2.2
  revert herrors
  decide

/-! ### `terminateConnections` returns -/

/-- How many steps at most are left, if nothing has to be waited for. -/
def State.rank (s : State) : ℕ :=
  match s.pc with
  | .terminating i none => 5 * (s.pool.futures.length - i) + 1
  | .terminating i (some .check) => 5 * (s.pool.futures.length - i)
  | .terminating i (some .wait) => 5 * (s.pool.futures.length - i) - 1
  | .terminating i (some .firstGet) => 5 * (s.pool.futures.length - i) - 2
  | .terminating i (some .secondGet) => 5 * (s.pool.futures.length - i) - 3
  | _ => 0

def AllReturned (s : State) : Prop := ∀ task ∈ s.pool.tasks, task.result.isSome = true

lemma terminateConnection_progress {s : State} {i : ℕ} {place : Place} (h : Inv s)
    (hpc : s.pc = .terminating i (some place)) (hall : AllReturned s) :
    ∃ s' next, s.terminateConnection i place = some (s', next) ∧
      State.rank { s' with pc := .after i next } < s.rank := by
  have hrun := Pool.status_ne_running h.wf hall i
  have hat := h.at_pc
  rw [hpc] at hat
  cases place with
  | check =>
    obtain ⟨hfresh, hi⟩ := hat
    simp only [State.terminateConnection, State.rank, hpc]
    split
    · exact ⟨s, none, rfl, by simp only [Pc.after]; omega⟩
    · exact ⟨s, some .wait, rfl, by simp only [Pc.after]; omega⟩
    · exact ⟨s, some .firstGet, rfl, by simp only [Pc.after]; omega⟩
  | wait =>
    obtain ⟨hfresh, hi⟩ := hat
    simp only [State.terminateConnection, State.rank, hpc]
    split
    · exact ⟨s, none, rfl, by simp only [Pc.after]; omega⟩
    case h_2 hs => exact absurd hs hrun
    · exact ⟨s, some .firstGet, rfl, by simp only [Pc.after]; omega⟩
  | firstGet =>
    obtain ⟨hfresh, hi⟩ := hat
    obtain ⟨r, hget⟩ := Pool.get_isSome hrun
    obtain ⟨v, rfl, -⟩ := Pool.get_of_fresh hfresh hi hget
    rw [State.terminateConnection, hget]
    simp only [State.rank, hpc]
    rcases v with _ | c
    · exact ⟨_, _, rfl, by simp only [Pc.after, Pool.length_take]; omega⟩
    · exact ⟨_, _, rfl, by simp only [Pc.after, Pool.length_take]; omega⟩
  | secondGet =>
    obtain ⟨hfresh, hi, hstatus, -⟩ := hat
    rw [State.terminateConnection, Pool.get_of_noState hstatus, Option.bind_some]
    simp only [State.rank, hpc]
    exact ⟨_, _, rfl, by simp only [Pc.after]; omega⟩

lemma main_progress {s : State} {i : ℕ} {tmp : Option Place} (h : Inv s)
    (hpc : s.pc = .terminating i tmp) (hall : AllReturned s) :
    ∃ s', s.main = some s' ∧ AllReturned s' ∧
      (s'.pc = .terminated ∨ (∃ j tmp, s'.pc = .terminating j tmp) ∧ s'.rank < s.rank) := by
  unfold State.main
  rw [hpc]
  cases tmp with
  | none =>
    dsimp only
    split
    case isTrue hi =>
      refine ⟨_, rfl, hall, Or.inr ⟨⟨i, some .check, rfl⟩, ?_⟩⟩
      simp only [State.rank, hpc]
      omega
    case isFalse =>
      rw [Pool.clear_of_not_running (Pool.status_ne_running h.wf hall)]
      exact ⟨_, rfl, hall, Or.inl rfl⟩
  | some place =>
    obtain ⟨s', next, hs, hrank⟩ := terminateConnection_progress h hpc hall
    have htasks := (terminateConnection_inv h hpc hs).2
    dsimp only
    rw [hs]
    refine ⟨_, rfl, ?_, Or.inr ⟨?_, hrank⟩⟩
    · intro task ht
      exact hall task (htasks ▸ ht)
    · cases next with
      | none => exact ⟨i + 1, none, rfl⟩
      | some place => exact ⟨i, some place, rfl⟩

/-- **`terminateConnections` returns** once every attempt has. -/
theorem terminateConnections_returns {s : State} {i : ℕ} {tmp : Option Place} (h : Inv s)
    (hpc : s.pc = .terminating i tmp) (hall : AllReturned s) :
    ∃ n t, run s (List.replicate n .main) = some t ∧ t.pc = .terminated := by
  induction hr : s.rank using Nat.strong_induction_on generalizing s i tmp with
  | _ r ih =>
    obtain ⟨s', hs, hall', hdone | ⟨⟨j, tmp', hpc'⟩, hlt⟩⟩ := main_progress h hpc hall
    · exact ⟨1, s', by simp [run, step, hs], hdone⟩
    · obtain ⟨n, t, ht, hdone⟩ := ih s'.rank (hr ▸ hlt) (main_inv h hs).1 hpc' hall' rfl
      refine ⟨n + 1, t, ?_, hdone⟩
      rw [List.replicate_succ]
      exact (run_cons_eq_some step).mpr ⟨s', hs, ht⟩

end DbCoursework.Connections

import DbCoursework.Connections

/-!
The attempts of a run: whom they are for, what becomes of their connections, and what the
main thread can wait for.

`active_connections` always holds the last attempts, in the order they were started, and
`terminateConnections` goes through them in this order. So the attempts before the one it
stands at are accounted for: each connection among them has cost one failed `get`.
-/

namespace DbCoursework.Attempts

open DbCoursework.Runs DbCoursework.Futures DbCoursework.ServerManager
open DbCoursework.ConnectionString DbCoursework.Connections

/-- The servers handed to `setupConnections`, call after call. -/
def asked : List Event → List Server
  | [] => []
  | .setupConnections servers :: es => servers ++ asked es
  | _ :: es => asked es

/-- The servers the loop of `setupConnections` has still before it. -/
def left (s : State) : List Server :=
  match s.pc with
  | .settingUp servers => servers
  | _ => []

/-- What attempt `i` has returned. -/
def result (p : Pool String Connection) (i : ℕ) : Option Connection :=
  p.tasks[i]?.bind Task.result

/-- What attempt `i` returns if it connects, and if it does not. -/
def outcome (i : ℕ) (connected : Bool) : Connection := if connected then some i else none

/-- The attempt has returned an open connection. -/
def opened (task : Task String Connection) : Bool := task.result.any Option.isSome

/-! ### Whom the attempts are for -/

lemma left_of_free {s : State} (h : s.free = true) : left s = [] := by
  unfold State.free at h
  unfold left
  split at h
  case h_1 hpc => rw [hpc]
  case h_2 hpc => rw [hpc]
  case h_3 => cases h

/-- The main thread starts the attempt for the next server, or no attempt. -/
lemma main_tasks {s s' : State} (h : Inv s) (hmain : s.main = some s') :
    (s'.pool.tasks = s.pool.tasks ∧ left s' = left s) ∨
      ∃ srv, s'.pool.tasks = s.pool.tasks ++ [⟨constructConnectionString srv, none⟩] ∧
        left s = srv :: left s' := by
  unfold State.main at hmain
  split at hmain
  case h_1 | h_2 => cases hmain
  case h_3 hpc =>
    cases hmain
    exact Or.inl ⟨rfl, by simp [left, hpc]⟩
  case h_4 srv servers hpc =>
    cases hmain
    exact Or.inr ⟨srv, rfl, by simp [left, hpc]⟩
  case h_5 i hpc =>
    split at hmain
    case isTrue =>
      cases hmain
      exact Or.inl ⟨rfl, by simp [left, hpc]⟩
    case isFalse =>
      obtain ⟨p, hclear, rfl⟩ := Option.map_eq_some_iff.mp hmain
      obtain rfl := Pool.clear_eq_some hclear
      exact Or.inl ⟨rfl, by simp [left, hpc]⟩
  case h_6 i place hpc =>
    obtain ⟨⟨t, next⟩, ht, rfl⟩ := Option.map_eq_some_iff.mp hmain
    refine Or.inl ⟨(terminateConnection_inv h hpc ht).2, ?_⟩
    cases next <;> simp [left, hpc, Pc.after]

lemma step_asked {s s' : State} {e : Event} (h : Inv s) (hstep : step s e = some s') :
    s'.pool.tasks.map Task.arg ++ (left s').map constructConnectionString =
      s.pool.tasks.map Task.arg ++ (left s ++ asked [e]).map constructConnectionString := by
  cases e with
  | setupConnections servers =>
    simp only [step, Option.ite_none_right_eq_some] at hstep
    obtain ⟨hfree, hs⟩ := hstep
    cases hs
    rw [left_of_free hfree]
    simp [asked, left]
  | terminateConnections =>
    simp only [step, Option.ite_none_right_eq_some] at hstep
    obtain ⟨hfree, hs⟩ := hstep
    cases hs
    rw [left_of_free hfree]
    simp [asked, left]
  | finish attempt connected =>
    obtain ⟨p, hp, rfl⟩ := Option.map_eq_some_iff.mp hstep
    simp [Pool.finish_args hp, asked, left]
  | main =>
    rcases main_tasks h hstep with ⟨htasks, hleft⟩ | ⟨srv, htasks, hleft⟩
    · simp [htasks, hleft, asked]
    · simp [htasks, hleft, asked]

lemma step_result {s s' : State} {e : Event} (h : Inv s) (hstep : step s e = some s') (i : ℕ)
    (c : Connection) : result s'.pool i = some c ↔
      result s.pool i = some c ∨
        ∃ connected, e = .finish i connected ∧ c = outcome i connected := by
  cases e with
  | setupConnections servers =>
    simp only [step, Option.ite_none_right_eq_some] at hstep
    obtain ⟨-, hs⟩ := hstep
    cases hs
    simp [result]
  | terminateConnections =>
    simp only [step, Option.ite_none_right_eq_some] at hstep
    obtain ⟨-, hs⟩ := hstep
    cases hs
    simp [result]
  | finish attempt connected =>
    obtain ⟨p, hp, rfl⟩ := Option.map_eq_some_iff.mp hstep
    obtain ⟨hnone, hres⟩ := Pool.finish_result hp i
    rw [result, hres]
    rcases Decidable.em (i = attempt) with rfl | hne
    · simp [result, hnone, outcome, eq_comm]
    · simp [result, hne, Ne.symm hne]
  | main =>
    rcases main_tasks h hstep with ⟨htasks, -⟩ | ⟨srv, htasks, -⟩
    · simp [result, htasks]
    · rw [result, htasks]
      rcases Nat.lt_trichotomy i s.pool.tasks.length with hi | rfl | hi
      · simp [result, List.getElem?_append_left hi]
      · simp [result]
      · have hnew : (s.pool.tasks ++ [{ arg := constructConnectionString srv }])[i]? = none :=
          List.getElem?_eq_none (by rw [List.length_append, List.length_singleton]; exact hi)
        rw [hnew]
        simp [result, Nat.le_of_lt hi]

lemma asked_cons (e : Event) (es : List Event) : asked (e :: es) = asked [e] ++ asked es := by
  cases e <;> simp [asked]

lemma run_asked {s t : State} {es : List Event} (h : Inv s) (hrun : run s es = some t) :
    t.pool.tasks.map Task.arg ++ (left t).map constructConnectionString =
        s.pool.tasks.map Task.arg ++ (left s ++ asked es).map constructConnectionString ∧
      ∀ i c, result t.pool i = some c ↔
        result s.pool i = some c ∨
          ∃ connected, .finish i connected ∈ es ∧ c = outcome i connected := by
  induction es generalizing s with
  | nil =>
    cases hrun
    simp [asked]
  | cons e es ih =>
    obtain ⟨s', hs, hr⟩ := (run_cons_eq_some step).mp hrun
    obtain ⟨hargs, hres⟩ := ih (step_inv h hs).1 hr
    refine ⟨?_, fun i c => ?_⟩
    · rw [hargs, List.map_append, ← List.append_assoc, step_asked h hs, asked_cons e es]
      simp
    · rw [hres, step_result h hs, or_assoc]
      refine or_congr Iff.rfl ?_
      simp only [List.mem_cons, or_and_right, exists_or, eq_comm]

/-! ### The loop gets to its end -/

/-- With servers before it the loop can go on. -/
lemma main_of_left {s : State} (h : left s ≠ []) : s.main.isSome = true := by
  unfold left at h
  split at h
  case h_1 servers hpc =>
    obtain ⟨srv, servers, rfl⟩ := List.exists_cons_of_ne_nil h
    rw [State.main, hpc]
    rfl
  case h_2 => exact absurd rfl h

/-- Each step of the main thread takes a server off. -/
lemma main_left {s s' : State} (h : Inv s) (hmain : s.main = some s') : left s' = (left s).tail := by
  rcases main_tasks h hmain with ⟨htasks, hleft⟩ | ⟨srv, -, hleft⟩
  · by_cases hnil : left s = []
    · rw [hleft, hnil, List.tail_nil]
    · -- a step with a server before it starts an attempt
      unfold left at hnil
      split at hnil
      case h_1 servers hpc =>
        obtain ⟨srv, servers, rfl⟩ := List.exists_cons_of_ne_nil hnil
        rw [State.main, hpc] at hmain
        cases hmain
        simp [Pool.async] at htasks
      case h_2 => exact absurd rfl hnil
  · rw [hleft, List.tail_cons]

lemma step_left {s s' : State} {e : Event} (h : Inv s) (hasked : asked [e] = [])
    (hstep : step s e = some s') :
    left s' = if e = .main then (left s).tail else left s := by
  cases e with
  | setupConnections servers =>
    simp only [step, Option.ite_none_right_eq_some] at hstep
    obtain ⟨hfree, hs⟩ := hstep
    cases hs
    obtain rfl : servers = [] := by simpa [asked] using hasked
    rw [left_of_free hfree]
    rfl
  | terminateConnections =>
    simp only [step, Option.ite_none_right_eq_some] at hstep
    obtain ⟨hfree, hs⟩ := hstep
    cases hs
    rw [left_of_free hfree]
    rfl
  | finish attempt connected =>
    obtain ⟨p, -, rfl⟩ := Option.map_eq_some_iff.mp hstep
    rfl
  | main => exact main_left h hstep

/-- So the loop has come as far as the main thread has taken steps. -/
lemma run_left {s t : State} {es : List Event} (h : Inv s) (hasked : asked es = [])
    (hrun : run s es = some t) : left t = (left s).drop (es.count .main) := by
  induction es generalizing s with
  | nil =>
    cases hrun
    rfl
  | cons e es ih =>
    obtain ⟨s', hs, hr⟩ := (run_cons_eq_some step).mp hrun
    obtain ⟨he, hes⟩ := List.append_eq_nil_iff.mp (asked_cons e es ▸ hasked)
    rw [ih (step_inv h hs).1 hes hr, step_left h he hs, List.count_cons]
    by_cases hmain : e = .main
    · simp [hmain, List.drop_tail]
    · simp [hmain]

/-- The main thread alone gets through the loop. -/
lemma exists_run_left {s : State} (h : Inv s) :
    ∃ t, run s (List.replicate (left s).length .main) = some t := by
  generalize hn : (left s).length = n
  induction n generalizing s with
  | zero => exact ⟨s, rfl⟩
  | succ n ih =>
    have hne : left s ≠ [] := by
      intro hnil
      rw [hnil] at hn
      cases hn
    obtain ⟨s', hs⟩ := Option.isSome_iff_exists.mp (main_of_left hne)
    have hlen : (left s').length = n := by rw [main_left h hs, List.length_tail, hn]; rfl
    obtain ⟨t, ht⟩ := ih (main_inv h hs).1 hlen
    exact ⟨t, (run_cons_eq_some step).mpr ⟨s', hs, ht⟩⟩

/-- **Each server has its attempt.** Whatever returns in between, the attempts of a run are
those for the servers asked for, each once and in order, as far as the loop has come; the main
thread gets through the loop, and when it has taken as many steps as servers were left, with
whatever else in between, there is one for each. An attempt has returned exactly what its own
return said. -/
theorem attempts_match (es : List Event) (s : State) (hrun : run init es = some s) :
    s.pool.tasks.map Task.arg ++ (left s).map constructConnectionString =
        (asked es).map constructConnectionString ∧
      (∃ t, run s (List.replicate (left s).length .main) = some t) ∧
      (∀ es' t, asked es' = [] → run s es' = some t → (left s).length ≤ es'.count .main →
        t.pool.tasks.map Task.arg = (asked es).map constructConnectionString) ∧
      ∀ i c, result s.pool i = some c ↔
        ∃ connected, .finish i connected ∈ es ∧ c = outcome i connected := by
  have hinv := (run_inv init_inv hrun).1
  obtain ⟨hargs, hres⟩ := run_asked init_inv hrun
  refine ⟨hargs, exists_run_left hinv, ?_, fun i c => (hres i c).trans (or_iff_right ?_)⟩
  · intro es' t hasked hrun' hcount
    have hall := (run_asked hinv hrun').1
    rw [run_left hinv hasked hrun', List.drop_of_length_le hcount, hasked, List.append_nil,
      List.map_nil, List.append_nil] at hall
    exact hall.trans hargs
  · intro h
    cases h

/-- One of two servers has been tried, and then the other. -/
theorem attempts_match_half_way : ∃ s t,
    run init [.setupConnections [⟨"h", "1", "d", "u", "p"⟩, ⟨"g", "1", "d", "u", "p"⟩], .main,
        .finish 0 true] = some s ∧
      run s [.main, .finish 1 false] = some t ∧
      t.pool.tasks.map Task.arg =
        [⟨"h", "1", "d", "u", "p"⟩, ⟨"g", "1", "d", "u", "p"⟩].map constructConnectionString ∧
      result s.pool 0 = some (some 0) :=
  have hrun := (Option.some_get (show (run init [.setupConnections [⟨"h", "1", "d", "u", "p"⟩,
    ⟨"g", "1", "d", "u", "p"⟩], .main, .finish 0 true]).isSome = true by decide)).symm
  have hmatch := attempts_match _ _ hrun
  ⟨_, _, hrun, (Option.some_get (by decide)).symm,
    hmatch.2.2.1 [.main, .finish 1 false] _ rfl (Option.some_get (by decide)).symm (by decide),
    (hmatch.2.2.2 0 (some 0)).mpr ⟨true, by decide, rfl⟩⟩

/-! ### What becomes of the connections -/

/-- The attempt the first future of the list belongs to. -/
def base (p : Pool String Connection) : ℕ := p.tasks.length - p.futures.length

/-- How many futures `terminateConnections` is done with. -/
def gone : Pc → ℕ
  | .terminating i _ => i
  | _ => 0

/-- What is known of the attempt whose future is being closed. -/
def AtPlace (p : Pool String Connection) : Pc → Prop
  | .terminating i (some .firstGet) => (result p (base p + i)).isSome = true
  | .terminating i (some .secondGet) => ∃ c, result p (base p + i) = some (some c)
  | _ => True

/-- The futures are those of the last attempts, and those gone through are accounted for. -/
structure Counts (s : State) : Prop where
  le : s.pool.futures.length ≤ s.pool.tasks.length
  futures : s.pool.futures.map Future.task = List.range' (base s.pool) s.pool.futures.length
  returned : ∀ task ∈ s.pool.tasks.take (base s.pool + gone s.pc), task.result.isSome = true
  errors : s.pool.futureErrors = (s.pool.tasks.take (base s.pool + gone s.pc)).countP opened
  at_place : AtPlace s.pool s.pc

lemma status_eq {s : State} {i : ℕ} (hc : Counts s) (hfresh : s.pool.FreshFrom i)
    (hi : i < s.pool.futures.length) :
    s.pool.status i = (result s.pool (base s.pool + i)).elim .running .ready := by
  have htask : s.pool.futures[i].task = base s.pool + i := by
    have h := congrArg (fun l => l[i]?) hc.futures
    simp only [List.getElem?_map, List.getElem?_eq_getElem hi, Option.map_some,
      List.getElem?_range' hi, Nat.one_mul] at h
    exact Option.some.inj h
  rw [Pool.status_of_fresh hfresh hi, htask]
  rfl

lemma init_counts : Counts init :=
  ⟨Nat.le_refl _, rfl, fun _ ht => (List.not_mem_nil ht).elim, rfl, trivial⟩

/-- The pool changes in what has been read off the futures only. -/
structure SameAttempts (p q : Pool String Connection) : Prop where
  tasks : q.tasks = p.tasks
  futures : q.futures.map Future.task = p.futures.map Future.task

namespace SameAttempts

variable {p q : Pool String Connection}

lemma length (h : SameAttempts p q) : q.futures.length = p.futures.length := by
  simpa using congrArg List.length h.futures

lemma base_eq (h : SameAttempts p q) : base q = base p := by
  rw [base, base, h.tasks, h.length]

lemma refl (p : Pool String Connection) : SameAttempts p p := ⟨rfl, rfl⟩

lemma take (p : Pool String Connection) (i : ℕ) : SameAttempts p (p.take i) := by
  refine ⟨rfl, List.ext_getElem? fun j => ?_⟩
  simp only [Pool.take, List.getElem?_map, List.getElem?_modify]
  cases p.futures[j]? with
  | none => rfl
  | some f => simp only [Option.map_some]; split <;> rfl

end SameAttempts

/-- The main thread stays with the future. -/
lemma Counts.stay {s : State} {p : Pool String Connection} {pc : Pc} (hc : Counts s)
    (hp : SameAttempts s.pool p) (herr : p.futureErrors = s.pool.futureErrors)
    (hgone : gone pc = gone s.pc) (hat : AtPlace p pc) :
    Counts { s with pool := p, pc } := by
  refine ⟨?_, ?_, ?_, ?_, hat⟩
  · rw [hp.tasks, hp.length]
    exact hc.le
  · rw [hp.futures, hp.base_eq, hp.length]
    exact hc.futures
  · rw [hp.tasks, hp.base_eq, hgone]
    exact hc.returned
  · rw [hp.tasks, hp.base_eq, hgone, herr]
    exact hc.errors

/-- The main thread goes on to the next future. -/
lemma Counts.next {s : State} {p : Pool String Connection} {i : ℕ} {v : Connection}
    (hc : Counts s) (hgone : gone s.pc = i) (hp : SameAttempts s.pool p)
    (hres : result s.pool (base s.pool + i) = some v)
    (herr : p.futureErrors = s.pool.futureErrors + if v.isSome then 1 else 0) :
    Counts { s with pool := p, pc := .terminating (i + 1) none } := by
  obtain ⟨task, ht, hv⟩ := Option.bind_eq_some_iff.mp hres
  have htake : s.pool.tasks.take (base s.pool + (i + 1)) =
      s.pool.tasks.take (base s.pool + i) ++ [task] := by
    rw [← Nat.add_assoc, List.take_add_one, ht]
    rfl
  refine ⟨?_, ?_, ?_, ?_, trivial⟩
  · rw [hp.tasks, hp.length]
    exact hc.le
  · rw [hp.futures, hp.base_eq, hp.length]
    exact hc.futures
  · rw [hp.tasks, hp.base_eq, gone, htake]
    intro t hmem
    rcases List.mem_append.mp hmem with h | h
    · exact hc.returned t (by rwa [hgone])
    · obtain rfl := List.mem_singleton.mp h
      rw [hv]
      rfl
  · have hopened : opened task = v.isSome := by rw [opened, hv, Option.any_some]
    have hbefore := hc.errors
    rw [hgone] at hbefore
    rw [hp.tasks, hp.base_eq, gone, htake, List.countP_append, ← hbefore, herr,
      List.countP_singleton, hopened]

lemma terminateConnection_counts {s s' : State} {i : ℕ} {place : Place} {next : Option Place}
    (h : Inv s) (hc : Counts s) (hpc : s.pc = .terminating i (some place))
    (hstep : s.terminateConnection i place = some (s', next)) :
    Counts { s' with pc := .after i next } := by
  have hat := h.at_pc
  have hplace := hc.at_place
  have hgone : gone s.pc = i := by rw [hpc, gone]
  rw [hpc] at hat hplace
  cases place with
  | check =>
    obtain ⟨hfresh, hi⟩ := hat
    simp only [State.terminateConnection, status_eq hc hfresh hi] at hstep
    rcases hres : result s.pool (base s.pool + i) with _ | v
    · rw [hres] at hstep
      cases hstep
      exact hc.stay (.refl _) rfl hgone.symm trivial
    · rw [hres] at hstep
      cases hstep
      refine hc.stay (.refl _) rfl hgone.symm ?_
      exact Option.isSome_of_eq_some hres
  | wait =>
    obtain ⟨hfresh, hi⟩ := hat
    simp only [State.terminateConnection, status_eq hc hfresh hi] at hstep
    rcases hres : result s.pool (base s.pool + i) with _ | v
    · rw [hres] at hstep
      cases hstep
    · rw [hres] at hstep
      cases hstep
      refine hc.stay (.refl _) rfl hgone.symm ?_
      exact Option.isSome_of_eq_some hres
  | firstGet =>
    obtain ⟨hfresh, hi⟩ := hat
    obtain ⟨v, hres⟩ := Option.isSome_iff_exists.mp hplace
    have hget : s.pool.get i = some (.value v, s.pool.take i) := by
      rw [Pool.get, status_eq hc hfresh hi, hres]
      rfl
    rw [State.terminateConnection, hget] at hstep
    rcases v with _ | c
    · cases hstep
      exact hc.next hgone (.take _ i) hres rfl
    · cases hstep
      refine hc.stay (.take _ i) rfl hgone.symm ⟨c, ?_⟩
      rw [(SameAttempts.take s.pool i).base_eq]
      exact hres
  | secondGet =>
    obtain ⟨-, -, hstatus, -⟩ := hat
    obtain ⟨c, hres⟩ := hplace
    rw [State.terminateConnection, Pool.get_of_noState hstatus, Option.bind_some] at hstep
    cases hstep
    exact hc.next hgone ⟨rfl, rfl⟩ hres rfl

lemma base_async {p : Pool String Connection} (hle : p.futures.length ≤ p.tasks.length)
    (arg : String) : base (p.async arg) = base p := by
  simp only [base, Pool.async, List.length_append, List.length_singleton]
  omega

lemma main_counts {s s' : State} (h : Inv s) (hc : Counts s) (hmain : s.main = some s') :
    Counts s' := by
  unfold State.main at hmain
  split at hmain
  case h_1 | h_2 => cases hmain
  case h_3 hpc =>
    cases hmain
    exact hc.stay (.refl _) rfl (by simp [hpc, gone]) trivial
  case h_4 srv servers hpc =>
    cases hmain
    have hbase := base_async hc.le (constructConnectionString srv)
    have hle : base s.pool ≤ s.pool.tasks.length := Nat.sub_le _ _
    have hzero : gone (.settingUp servers) = 0 := rfl
    have hreturned := hc.returned
    have herrors := hc.errors
    rw [hpc] at hreturned herrors
    refine ⟨?_, ?_, ?_, ?_, trivial⟩
    · simpa [Pool.async] using hc.le
    · have hend : base s.pool + s.pool.futures.length = s.pool.tasks.length :=
        Nat.sub_add_cancel hc.le
      rw [hbase]
      simp [Pool.async, hc.futures, List.range'_1_concat, hend]
    · rw [hbase, hzero, Pool.async, Nat.add_zero, List.take_append_of_le_length hle]
      exact hreturned
    · rw [hbase, hzero, Pool.async, Nat.add_zero, List.take_append_of_le_length hle]
      exact herrors
  case h_5 i hpc =>
    split at hmain
    case isTrue hi =>
      cases hmain
      exact hc.stay (.refl _) rfl (by simp [hpc, gone]) trivial
    case isFalse hi =>
      obtain ⟨p, hclear, rfl⟩ := Option.map_eq_some_iff.mp hmain
      obtain rfl := Pool.clear_eq_some hclear
      -- the futures gone through are all there are
      have hall : s.pool.tasks.take (base s.pool + gone s.pc) = s.pool.tasks := by
        refine List.take_of_length_le ?_
        rw [hpc, gone, base]
        omega
      have hreturned := hc.returned
      have herrors := hc.errors
      rw [hall] at hreturned herrors
      refine ⟨Nat.zero_le _, rfl, ?_, ?_, trivial⟩
      · simpa [base, gone] using hreturned
      · simpa [base, gone] using herrors
  case h_6 i place hpc =>
    obtain ⟨⟨t, next⟩, ht, rfl⟩ := Option.map_eq_some_iff.mp hmain
    exact terminateConnection_counts h hc hpc ht

/-- An attempt that returns is not among those gone through. -/
lemma finish_counts {s : State} {p : Pool String Connection} {attempt : ℕ} {v : Connection}
    (hc : Counts s) (hp : s.pool.finish attempt v = some p) : Counts { s with pool := p } := by
  have hrunning : result s.pool attempt = none := (Pool.finish_result hp attempt).1
  have hother : ∀ {j}, result s.pool j ≠ none → result p j = result s.pool j := by
    intro j hj
    have hne : j ≠ attempt := fun he => hj (he ▸ hrunning)
    rw [result, (Pool.finish_result hp j).2, if_neg hne]
    rfl
  obtain ⟨arg, ht, rfl⟩ := Pool.finish_eq_some hp
  have hbase : base { s.pool with tasks := s.pool.tasks.set attempt ⟨arg, some v⟩ } =
      base s.pool := by simp [base]
  have hge : base s.pool + gone s.pc ≤ attempt := by
    by_contra hlt
    have hmem : ⟨arg, none⟩ ∈ s.pool.tasks.take (base s.pool + gone s.pc) := by
      refine List.mem_of_getElem? (i := attempt) ?_
      rw [List.getElem?_take_of_lt (by omega), ht]
    cases hc.returned _ hmem
  have hat := hc.at_place
  refine ⟨?_, ?_, ?_, ?_, ?_⟩
  · simpa using hc.le
  · rw [hbase]
    exact hc.futures
  · rw [hbase, List.take_set_of_le hge]
    exact hc.returned
  · rw [hbase, List.take_set_of_le hge]
    exact hc.errors
  · match hpc : s.pc, hat with
    | .idle, _ | .settingUp _, _ | .terminating _ none, _ | .terminating _ (some .check), _
    | .terminating _ (some .wait), _ | .terminated, _ => trivial
    | .terminating i (some .firstGet), hsome =>
      simp only [AtPlace, hbase]
      rwa [hother (Option.isSome_iff_ne_none.mp hsome)]
    | .terminating i (some .secondGet), ⟨c, hres⟩ =>
      refine ⟨c, ?_⟩
      rw [hbase, hother (by simp [hres]), hres]

lemma step_counts {s s' : State} {e : Event} (h : Inv s) (hc : Counts s)
    (hstep : step s e = some s') : Counts s' := by
  have hgone : s.free = true → gone s.pc = 0 := by
    unfold State.free gone
    split <;> simp_all
  cases e with
  | setupConnections servers =>
    simp only [step, Option.ite_none_right_eq_some] at hstep
    obtain ⟨hfree, hs⟩ := hstep
    cases hs
    exact hc.stay (.refl _) rfl (hgone hfree).symm trivial
  | terminateConnections =>
    simp only [step, Option.ite_none_right_eq_some] at hstep
    obtain ⟨hfree, hs⟩ := hstep
    cases hs
    exact hc.stay (.refl _) rfl (hgone hfree).symm trivial
  | finish attempt connected =>
    obtain ⟨p, hp, rfl⟩ := Option.map_eq_some_iff.mp hstep
    exact finish_counts hc hp
  | main => exact main_counts h hc hstep

lemma run_counts {s t : State} {es : List Event} (h : Inv s) (hc : Counts s)
    (hrun : run s es = some t) : Inv t ∧ Counts t :=
  Runs.run_inv (I := fun s => Inv s ∧ Counts s)
    (fun _ _ _ hi hs => ⟨(step_inv hi.1 hs).1, step_counts hi.1 hi.2 hs⟩) ⟨h, hc⟩ hrun

/-- An attempt returns an open connection. -/
def opening : Event → Bool
  | .finish _ connected => connected
  | _ => false

lemma step_opened {s s' : State} {e : Event} (h : Inv s) (hstep : step s e = some s') :
    s'.pool.tasks.countP opened = s.pool.tasks.countP opened + [e].countP opening := by
  cases e with
  | setupConnections servers =>
    simp only [step, Option.ite_none_right_eq_some] at hstep
    obtain ⟨-, hs⟩ := hstep
    cases hs
    rfl
  | terminateConnections =>
    simp only [step, Option.ite_none_right_eq_some] at hstep
    obtain ⟨-, hs⟩ := hstep
    cases hs
    rfl
  | finish attempt connected =>
    obtain ⟨p, hp, rfl⟩ := Option.map_eq_some_iff.mp hstep
    obtain ⟨arg, ht, rfl⟩ := Pool.finish_eq_some hp
    obtain ⟨hlt, hget⟩ := List.getElem?_eq_some_iff.mp ht
    dsimp only
    rw [List.countP_set hlt, hget]
    cases connected <;> simp [opened, opening]
  | main =>
    rcases main_tasks h hstep with ⟨htasks, -⟩ | ⟨srv, htasks, -⟩
    · rw [htasks]
      rfl
    · rw [htasks, List.countP_append]
      rfl

lemma run_opened {s t : State} {es : List Event} (h : Inv s) (hrun : run s es = some t) :
    t.pool.tasks.countP opened = s.pool.tasks.countP opened + es.countP opening := by
  induction es generalizing s with
  | nil => cases hrun; rfl
  | cons e es ih =>
    obtain ⟨s', hs, hr⟩ := (run_cons_eq_some step).mp hrun
    have hcons : (e :: es).countP opening = [e].countP opening + es.countP opening := by
      rw [← List.countP_append]
      rfl
    rw [ih (step_inv h hs).1 hr, step_opened h hs, hcons, Nat.add_assoc]

/-- **Every connection is left open**, and each has cost one failed `get`: when
`terminateConnections` has returned, all attempts have, none of their connections was closed,
and there were as many failures as connections. -/
theorem connections_left_open (es : List Event) (s : State) (hrun : run init es = some s)
    (hpc : s.pc = .terminated) :
    AllReturned s ∧ s.closed = [] ∧ s.pool.futureErrors = es.countP opening := by
  obtain ⟨hinv, hc⟩ := run_counts init_inv init_counts hrun
  have hfutures : s.pool.futures = [] := by
    have hat := hinv.at_pc
    rwa [hpc] at hat
  have hall : s.pool.tasks.take (base s.pool + gone s.pc) = s.pool.tasks := by
    refine List.take_of_length_le ?_
    rw [base, hfutures]
    exact Nat.le_add_right _ _
  have hreturned := hc.returned
  have herrors := hc.errors
  rw [hall] at hreturned herrors
  refine ⟨hreturned, hinv.closed, ?_⟩
  rw [herrors, run_opened init_inv hrun]
  exact Nat.zero_add _

theorem connections_left_open_two : ∃ s,
    run init [.setupConnections [⟨"h", "1", "d", "u", "p"⟩, ⟨"g", "1", "d", "u", "p"⟩], .main,
        .main, .main, .finish 1 true, .terminateConnections, .main, .main, .finish 0 true, .main,
        .main, .main, .main, .main, .main, .main, .main] = some s ∧
      AllReturned s ∧ s.closed = [] ∧ s.pool.futureErrors = 2 :=
  ⟨_, (Option.some_get (by decide)).symm,
    connections_left_open _ _ (Option.some_get (by decide)).symm (by decide)⟩

/-! ### What the main thread waits for -/

lemma main_waits {s : State} (h : Inv s) (hc : Counts s) (hnone : s.main = none) :
    s.free = true ∨ ∃ i, s.pc = .terminating i (some .wait) ∧ s.pool.status i = .running := by
  have hat := h.at_pc
  have hplace := hc.at_place
  unfold State.main at hnone
  split at hnone
  case h_1 hpc | h_2 hpc =>
    left
    rw [State.free, hpc]
  case h_3 | h_4 => cases hnone
  case h_5 i hpc =>
    split at hnone
    case isTrue => cases hnone
    case isFalse hi =>
      have hreturned := hc.returned
      rw [List.take_of_length_le (by rw [hpc, gone, base]; omega)] at hreturned
      rw [Pool.clear_of_not_running (Pool.status_ne_running h.wf hreturned)] at hnone
      cases hnone
  case h_6 i place hpc =>
    rw [hpc] at hat hplace
    rw [Option.map_eq_none_iff] at hnone
    cases place with
    | check =>
      simp only [State.terminateConnection] at hnone
      split at hnone <;> cases hnone
    | wait =>
      refine Or.inr ⟨i, hpc, ?_⟩
      simp only [State.terminateConnection] at hnone
      split at hnone
      case h_1 => cases hnone
      case h_2 hs => exact hs
      case h_3 => cases hnone
    | firstGet =>
      obtain ⟨hfresh, hi⟩ := hat
      obtain ⟨v, hres⟩ := Option.isSome_iff_exists.mp hplace
      rw [State.terminateConnection, Pool.get, status_eq hc hfresh hi, hres] at hnone
      cases hnone
    | secondGet =>
      obtain ⟨-, -, hstatus, -⟩ := hat
      rw [State.terminateConnection, Pool.get_of_noState hstatus] at hnone
      cases hnone

/-- **The main thread waits for nothing but a running attempt**, and once all attempts have
returned it gets through `terminateConnections`. -/
theorem terminateConnections_waits (es : List Event) (s : State) (hrun : run init es = some s) :
    (s.main = none → s.free = true ∨
        ∃ i, s.pc = .terminating i (some .wait) ∧ s.pool.status i = .running) ∧
      ∀ i tmp, s.pc = .terminating i tmp → AllReturned s →
        ∃ n t, run s (List.replicate n .main) = some t ∧ t.pc = .terminated := by
  obtain ⟨hinv, hc⟩ := run_counts init_inv init_counts hrun
  exact ⟨main_waits hinv hc, fun i tmp => terminateConnections_returns hinv⟩

theorem terminateConnections_waits_here : ∃ s,
    run init [.setupConnections [⟨"h", "1", "d", "u", "p"⟩], .main, .main, .terminateConnections,
        .main, .main] = some s ∧
      (s.main = none → s.free = true ∨
        ∃ i, s.pc = .terminating i (some .wait) ∧ s.pool.status i = .running) :=
  ⟨_, (Option.some_get (by decide)).symm,
    (terminateConnections_waits _ _ (Option.some_get (by decide)).symm).1⟩

end DbCoursework.Attempts

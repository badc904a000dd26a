import DbCoursework.Pipelines

/-!
The numbers of a pipeline's queries, and where it stops.

`Goes` says what any piece of the code may do to a pipeline: numbers are given out once,
`m_error` only falls, and once it has been set nothing is sent.
-/

namespace DbCoursework.Pipelines

open DbCoursework.Programs DbCoursework.Runs

/-- The queries, by their numbers and texts. -/
def Pipeline.keys (s : Pipeline) : List (ℕ × String) := s.queries.map fun e => (e.1, e.2.query)

def Pipeline.ids (s : Pipeline) : List ℕ := s.queries.map Prod.fst

lemma ids_eq (s : Pipeline) : s.ids = s.keys.map Prod.fst := by
  rw [Pipeline.ids, Pipeline.keys, List.map_map]
  rfl

lemma mem_ids {s : Pipeline} {i : ℕ} : i ∈ s.ids ↔ ∃ q, (i, q) ∈ s.keys := by
  simp [Pipeline.ids, Pipeline.keys]

/-- The numbers in the map, and where the issued range begins and ends. -/
def Names (s : Pipeline) (i : ℕ) : Prop :=
  i ∈ s.ids ∨ s.issuedFirst = some i ∨ s.issuedSecond = some i

/-- Only numbers that were given out are in use, and the error is at most at the next one. -/
structure Numbered (s : Pipeline) : Prop where
  names_le : ∀ i, Names s i → i ≤ s.qId
  error_le : s.error = qidLimit ∨ s.error ≤ s.qId + 1

/-- `t` comes after `s`: queries that are known in `t` alone have new numbers. -/
structure Later (s t : Pipeline) : Prop where
  error_le : t.error ≤ s.error
  qId_le : s.qId ≤ t.qId
  known : ∀ k ∈ t.keys, k ∈ s.keys ∨ s.qId < k.1
  sent_eq : s.error < qidLimit → t.conn.sent = s.conn.sent

lemma Later.refl (s : Pipeline) : Later s s :=
  ⟨Nat.le_refl _, Nat.le_refl _, fun _ => Or.inl, fun _ => rfl⟩

lemma Later.trans {s t u : Pipeline} (h : Later s t) (h' : Later t u) : Later s u where
  error_le := Nat.le_trans h'.error_le h.error_le
  qId_le := Nat.le_trans h.qId_le h'.qId_le
  known := fun i hi => by
    rcases h'.known i hi with hi | hi
    · exact h.known i hi
    · exact .inr (Nat.lt_of_le_of_lt h.qId_le hi)
  sent_eq := fun he =>
    (h'.sent_eq (Nat.lt_of_le_of_lt h.error_le he)).trans (h.sent_eq he)

/-- What a piece of the code may do. -/
def Goes (s t : Pipeline) : Prop := Numbered s → Numbered t ∧ Later s t

variable {s t u : Pipeline}

lemma Goes.refl (s : Pipeline) : Goes s s := fun h => ⟨h, Later.refl s⟩

lemma Goes.trans (h : Goes s t) (h' : Goes t u) : Goes s u := fun hs =>
  ⟨(h' (h hs).1).1, (h hs).2.trans (h' (h hs).1).2⟩

/-- A change that brings in no number and sends nothing. -/
lemma Goes.of (hid : t.qId = s.qId) (hsent : t.conn.sent = s.conn.sent)
    (hkeys : ∀ k ∈ t.keys, k ∈ s.keys) (hfirst : ∀ i, t.issuedFirst = some i → Names s i)
    (hsecond : ∀ i, t.issuedSecond = some i → Names s i)
    (herror : t.error = s.error ∨
      ∃ i, t.error = min s.error i ∧ (i = 0 ∨ ∃ j, Names s j ∧ i ≤ j + 1)) : Goes s t := by
  intro hs
  have hnames : ∀ i, Names t i → Names s i := by
    rintro i (hi | hi | hi)
    · obtain ⟨text, htext⟩ := mem_ids.mp hi
      exact .inl (mem_ids.mpr ⟨text, hkeys _ htext⟩)
    · exact hfirst i hi
    · exact hsecond i hi
  refine ⟨⟨fun i hi => hid ▸ hs.names_le i (hnames i hi), ?_⟩, ?_, Nat.le_of_eq hid.symm,
    fun k hk => .inl (hkeys k hk), fun _ => hsent⟩
  · rcases herror with he | ⟨i, he, hi⟩
    · rw [he, hid]
      exact hs.error_le
    · right
      have hle : i ≤ s.qId + 1 := by
        rcases hi with rfl | ⟨j, hj, hij⟩
        · exact Nat.zero_le _
        · have := hs.names_le j hj
          omega
      rw [he, hid]
      exact Nat.le_trans (Nat.min_le_right ..) hle
  · rcases herror with he | ⟨i, he, -⟩
    · exact Nat.le_of_eq he
    · exact he ▸ Nat.min_le_left ..

/-- A change of other data than the numbers. -/
lemma Goes.data (hq : t.keys = s.keys) (hfirst : t.issuedFirst = s.issuedFirst)
    (hsecond : t.issuedSecond = s.issuedSecond) (hid : t.qId = s.qId) (herror : t.error = s.error)
    (hsent : t.conn.sent = s.conn.sent) : Goes s t :=
  .of hid hsent (fun _ hk => hq ▸ hk) (fun _ hi => .inr (.inl (hfirst.symm.trans hi)))
    (fun _ hi => .inr (.inr (hsecond.symm.trans hi))) (.inl herror)

lemma setErrorAt_goes {i : ℕ} (hi : i = 0 ∨ ∃ j, Names s j ∧ i ≤ j + 1) :
    Goes s (s.setErrorAt i) :=
  .of rfl rfl (fun _ => id) (fun _ hj => .inr (.inl hj)) (fun _ hj => .inr (.inr hj))
    (.inr ⟨i, rfl, hi⟩)

lemma setRes_keys (s : Pipeline) (i : ℕ) (res : Result) : (s.setRes i res).keys = s.keys := by
  rw [Pipeline.keys, Pipeline.setRes, List.map_map]
  refine List.map_congr_left fun e _ => ?_
  rw [Function.comp_apply]
  split <;> rfl

lemma setRes_ids (s : Pipeline) (i : ℕ) (res : Result) : (s.setRes i res).ids = s.ids := by
  rw [ids_eq, setRes_keys, ids_eq]

lemma setRes_goes (s : Pipeline) (i : ℕ) (res : Result) : Goes s (s.setRes i res) :=
  .data (setRes_keys s i res) rfl rfl rfl rfl rfl

lemma next_mem {i j : ℕ} (h : s.next i = some j) : j ∈ s.ids := by
  rw [Pipeline.next, Option.map_eq_some_iff] at h
  obtain ⟨e, he, rfl⟩ := h
  exact List.mem_map_of_mem (List.mem_of_find?_eq_some he)

lemma lookup_unknown {q : ℕ} (h : q ∉ s.ids) : s.queries.lookup q = none := by
  rw [List.lookup_eq_none_iff]
  intro e he
  rw [bne_iff_ne]
  rintro rfl
  exact h (List.mem_map_of_mem he)

lemma erase_keys {q : ℕ} {k : ℕ × String}
    (h : k ∈ ({ s with queries := s.queries.filter (·.1 ≠ q) } : Pipeline).keys) : k ∈ s.keys := by
  obtain ⟨e, he, rfl⟩ := List.mem_map.mp h
  exact List.mem_map_of_mem (f := fun e : ℕ × Query => (e.1, e.2.query)) (List.mem_of_mem_filter he)

/-! ### The rules -/

/-- What `x` does from `s` is `Goes`, and every loop of it ends. -/
def Keeps {α : Type} (x : Op α) (s : Pipeline) : Prop :=
  x.Ends s (fun _ t => Goes s t) fun e t => Goes s t ∧ e ≠ .stuck

section Rules

variable {α β : Type} {x : Op α} {f : α → Op β}

lemma Keeps.after (hx : Keeps x t) (h : Goes s t) :
    x.Ends t (fun _ u => Goes s u) fun e u => Goes s u ∧ e ≠ .stuck :=
  Prog.Ends.mono hx (fun _ _ ht => h.trans ht) fun _ _ ht => ⟨h.trans ht.1, ht.2⟩

lemma keeps_bind (hx : Keeps x s) (hf : ∀ a t, Keeps (f a) t) : Keeps (x >>= f) s :=
  Prog.Ends.bind hx fun a t h => (hf a t).after h

lemma keeps_pure (a : α) : Keeps (pure a) s := Prog.ends_pure (Goes.refl s)

lemma keeps_throw {e : Err} (he : e ≠ .stuck) : Keeps (throw e : Op α) s :=
  Prog.ends_throw ⟨Goes.refl s, he⟩

lemma keeps_get {f : Pipeline → Op β} (h : Keeps (f s) s) : Keeps (get >>= f) s := h

lemma keeps_set {f : PUnit → Op β} (h : Goes s t) (hf : Keeps (f ⟨⟩) t) :
    Keeps (set t >>= f) s :=
  Prog.ends_set (hf.after h)

lemma keeps_modify {g : Pipeline → Pipeline} {f : PUnit → Op β} (h : Goes s (g s))
    (hf : Keeps (f ⟨⟩) (g s)) : Keeps (modify g >>= f) s :=
  Prog.ends_modify (hf.after h)

lemma keeps_modify_last {g : Pipeline → Pipeline} (h : Goes s (g s)) :
    Keeps (modify g : Op PUnit) s := h

lemma keeps_ite {c : Prop} [Decidable c] {y : Op α} (hx : c → Keeps x s)
    (hy : ¬ c → Keeps y s) : Keeps (if c then x else y) s :=
  Prog.Ends.ite hx hy

lemma keeps_when {c : Prop} [Decidable c] {y : Op Unit} (hy : c → Keeps y s) :
    Keeps (Prog.when c y) s :=
  Prog.Ends.ite hy fun _ => Prog.ends_pure (Goes.refl s)

end Rules

/-! ### The connection -/

section Operations

variable (env : Env)

lemma tick_goes (s : Pipeline) : Goes s s.tick := .data rfl rfl rfl rfl rfl rfl

lemma getResult_null (hr : s.conn.results = []) :
    getResult s = (.ok none, { s with conn := { s.conn with inProgress := false } }) := by
  rw [getResult, hr]

lemma getResult_some {r : PgResult} {rs : List PgResult} (hr : s.conn.results = r :: rs) :
    getResult s = (.ok (some r), { s with conn := { s.conn with results := rs } }) := by
  rw [getResult, hr]

lemma getResult_ends (s : Pipeline) :
    getResult.Ends s
      (fun r t => Goes s t ∧ (r ≠ none → t.conn.results.length < s.conn.results.length))
      (fun _ _ => False) := by
  cases hr : s.conn.results with
  | nil =>
    exact Prog.ends_of_ok (getResult_null hr)
      ⟨.data rfl rfl rfl rfl rfl rfl, fun h => absurd rfl h⟩
  | cons r rs =>
    exact Prog.ends_of_ok (getResult_some hr)
      ⟨.data rfl rfl rfl rfl rfl rfl, fun _ => Nat.lt_succ_self _⟩

lemma isBusy_ends (s : Pipeline) : (isBusy env).Ends s
    (fun _ t => Goes s t ∧ t.conn.results = s.conn.results) (fun _ _ => False) :=
  ⟨tick_goes s, rfl⟩

lemma consumeInput_ends (s : Pipeline) : (consumeInput env).Ends s
    (fun _ t => Goes s t ∧ t.conn.results = s.conn.results) (fun _ _ => False) :=
  ⟨tick_goes s, rfl⟩

lemma getResult_keeps : Keeps getResult s :=
  (getResult_ends s).mono (fun _ _ h => h.1) fun _ _ h => h.elim

lemma isBusy_keeps : Keeps (isBusy env) s := tick_goes s

lemma consumeInput_keeps : Keeps (consumeInput env) s := tick_goes s

lemma cancelQuery_keeps : Keeps (cancelQuery env) s := by
  rw [Keeps, Prog.Ends, cancelQuery]
  rcases env.cancels s.conn.clock with _ | what
  · exact tick_goes s
  · exact ⟨tick_goes s, by simp⟩

lemma startExec_sent (query : String) (s : Pipeline) :
    (startExec env query).Ends s
      (fun _ t => s.conn.inProgress = false ∧ t = { s with
        conn :=
          { clock := s.conn.clock + 1 + (env.answers (s.conn.clock + 1) query).length
            results := env.answers (s.conn.clock + 1) query
            inProgress := true
            sent := s.conn.sent ++ [query] } })
      fun e t => t = s.tick ∧ e ≠ .stuck := by
  rw [Prog.Ends, startExec]
  by_cases hp : s.conn.inProgress = true
  · rw [if_pos hp]
    exact ⟨rfl, by simp⟩
  · rw [if_neg hp]
    rcases env.refuses s.conn.clock with _ | what
    · exact ⟨by simpa using hp, rfl⟩
    · exact ⟨rfl, by simp⟩

lemma startExec_ends (query : String) (he : qidLimit ≤ s.error) :
    (startExec env query).Ends s
      (fun _ t => Goes s t ∧ t.issuedSecond = s.issuedSecond)
      fun e t => Goes s t ∧ e ≠ .stuck := by
  refine (startExec_sent env query s).mono (fun _ t ht => ?_)
    fun _ _ ht => ⟨ht.1 ▸ tick_goes s, ht.2⟩
  obtain ⟨-, rfl⟩ := ht
  refine ⟨fun hs => ⟨⟨hs.1, hs.2⟩, ?_⟩, rfl⟩
  exact ⟨Nat.le_refl _, Nat.le_refl _, fun _ => Or.inl, fun h => absurd he (Nat.not_le_of_lt h)⟩

lemma checkStatus_ends (r : Option Result) (s : Pipeline) : (checkStatus r).Ends s
    (fun a t => t = s ∧ r = some a ∧ a.data.failed = false) fun e t => t = s ∧ e ≠ .stuck := by
  cases r with
  | none => exact Prog.ends_throw ⟨rfl, by simp⟩
  | some r =>
    rw [checkStatus]
    cases hout : r.data.outcome with
    | error what => exact Prog.ends_throw ⟨rfl, by simp⟩
    | ok rows => exact Prog.ends_pure ⟨rfl, rfl, by rw [PgResult.failed, hout]⟩

lemma checkStatus_keeps (r : Option Result) : Keeps (checkStatus r) s :=
  (checkStatus_ends r s).mono (fun _ _ h => h.1 ▸ Goes.refl s)
    fun _ _ h => ⟨h.1 ▸ Goes.refl s, h.2⟩

lemma exec_keeps (query : String) : Keeps (exec env query) s := by
  refine keeps_get (keeps_set (.data rfl rfl rfl rfl rfl rfl) ?_)
  cases (env.answers s.conn.clock query).getLast? with
  | none => exact keeps_throw (by simp)
  | some r => exact checkStatus_keeps _

/-! ### One result -/

lemma internalError_keeps {α : Type} (what : String) : Keeps (internalError what : Op α) s :=
  keeps_modify (setErrorAt_goes (.inl rfl)) (keeps_throw (by simp))

lemma noResult_ends (b : Bool) (s : Pipeline) :
    (noResult b).Ends s (fun a t => Goes s t ∧ a = false) fun e t => Goes s t ∧ e ≠ .stuck := by
  refine Prog.ends_get (Prog.Ends.ite (fun _ => ?_) fun _ => Prog.ends_pure ⟨Goes.refl s, rfl⟩)
  cases hf : s.issuedFirst with
  | none => exact Prog.ends_throw ⟨Goes.refl s, by simp⟩
  | some i =>
    refine Prog.ends_set (Prog.ends_pure ⟨.of rfl rfl (fun _ => id)
      (fun _ hj => .inr (.inl hj)) (fun _ hj => .inr (.inl (hf.trans hj))) ?_, rfl⟩)
    exact .inr ⟨i, rfl, .inr ⟨i, .inr (.inl hf), Nat.le_succ i⟩⟩

lemma storeResult_ends (r : PgResult) (s : Pipeline) : (storeResult r).Ends s
    (fun _ t => Goes s t ∧ t.conn.results = s.conn.results) fun e t => Goes s t ∧ e ≠ .stuck := by
  refine Prog.ends_get ?_
  cases hh : s.queries.head? with
  | none => exact Prog.ends_throw ⟨Goes.refl s, by simp⟩
  | some e =>
    have he : Names s e.1 := .inl (List.mem_map_of_mem (List.mem_of_head? hh))
    refine Prog.Ends.ite (fun _ => ?_) fun _ => ?_
    · exact Prog.ends_set
        (Prog.ends_throw ⟨setErrorAt_goes (.inr ⟨e.1, he, Nat.le_succ _⟩), by simp⟩)
    · cases hf : s.issuedFirst with
      | none => exact Prog.ends_throw ⟨Goes.refl s, by simp⟩
      | some i =>
        dsimp only
        cases hl : s.queries.lookup i with
        | none => exact Prog.ends_throw ⟨Goes.refl s, by simp⟩
        | some pending =>
          refine Prog.Ends.ite (fun _ => ?_) fun _ => ?_
          · exact Prog.ends_modify (Prog.ends_throw ⟨setErrorAt_goes (.inl rfl), by simp⟩)
          refine Prog.ends_set (Prog.ends_pure ⟨.of rfl rfl (fun k hk => ?_)
            (fun _ hj => .inl (next_mem hj)) (fun _ hj => .inr (.inr hj)) (.inl rfl), rfl⟩)
          exact setRes_keys s i _ ▸ hk

/-- A result that is obtained is one fewer to come. -/
lemma obtainResult_ends (b : Bool) (s : Pipeline) : (obtainResult b).Ends s
    (fun a t => Goes s t ∧ (a = true → t.conn.results.length < s.conn.results.length))
    fun e t => Goes s t ∧ e ≠ .stuck := by
  refine ((getResult_ends s).mono (fun _ _ => id) fun _ _ h => h.elim).bind fun r t ht => ?_
  cases r with
  | none =>
    refine (noResult_ends b t).mono (fun a u hu => ⟨ht.1.trans hu.1, fun ha => ?_⟩)
      fun e u hu => ⟨ht.1.trans hu.1, hu.2⟩
    exact absurd (hu.2.symm.trans ha) (by simp)
  | some r =>
    refine (storeResult_ends r t).mono (fun a u hu => ⟨ht.1.trans hu.1, fun _ => ?_⟩)
      fun e u hu => ⟨ht.1.trans hu.1, hu.2⟩
    rw [hu.2]
    exact ht.2 (by simp)

lemma obtainResult_keeps (b : Bool) : Keeps (obtainResult b) s :=
  (obtainResult_ends b s).mono (fun _ _ h => h.1) fun _ _ h => h

/-! ### Loops -/

/-- A round that goes on has taken a result. -/
def Takes (round : Op Bool) : Prop := ∀ s, round.Ends s
  (fun a t => Goes s t ∧ (a = true → t.conn.results.length < s.conn.results.length))
  fun e t => Goes s t ∧ e ≠ .stuck

lemma loop_keeps {round : Op Bool} (h : Takes round) :
    Keeps (Prog.loop round .stuck (s.conn.results.length + 1)) s := by
  refine Prog.ends_loop (I := Goes s) (m := fun t => t.conn.results.length) (fun t ht => ?_)
    (Goes.refl s) (Nat.lt_succ_self _)
  refine (h t).mono (fun a u hu => ?_) fun e u hu => ⟨ht.trans hu.1, hu.2⟩
  cases a with
  | true => exact ⟨ht.trans hu.1, hu.2 rfl⟩
  | false => exact ht.trans hu.1

lemma furtherRound_takes : Takes (furtherRound env) := by
  intro s
  refine ((isBusy_ends env s).mono (fun _ _ => id) fun _ _ h => h.elim).bind fun busy t ht => ?_
  refine Prog.Ends.ite (fun _ => Prog.ends_pure ⟨ht.1, by simp⟩) fun _ => ?_
  refine ((obtainResult_ends false t).mono (R := fun a u => Goes s u ∧
      (a = true → u.conn.results.length < s.conn.results.length)) (fun a u hu => ?_)
      fun e u hu => ⟨ht.1.trans hu.1, hu.2⟩).bind fun a u hu => ?_
  · exact ⟨ht.1.trans hu.1, fun ha => ht.2 ▸ hu.2 ha⟩
  refine Prog.Ends.ite (fun ha => ?_) fun _ => Prog.ends_pure ⟨hu.1, by simp⟩
  refine ((consumeInput_ends env u).mono (fun _ _ => id) fun _ _ h => h.elim).bind fun c v hv => ?_
  refine Prog.Ends.ite (fun _ => Prog.ends_pure ⟨hu.1.trans hv.1, fun _ => ?_⟩)
    fun _ => Prog.ends_throw ⟨hu.1.trans hv.1, by simp⟩
  rw [hv.2]
  exact hu.2 ha

lemma receiveRound_takes (stop : Option ℕ) : Takes (receiveRound stop) := by
  intro s
  refine (obtainResult_ends false s).bind fun a t ht => ?_
  refine Prog.Ends.ite (fun ha => ?_) fun _ => Prog.ends_pure ⟨ht.1, by simp⟩
  exact Prog.ends_get (Prog.ends_pure ⟨ht.1, fun _ => ht.2 ha⟩)

lemma getFurtherAvailableResults_keeps : Keeps (getFurtherAvailableResults env) s :=
  keeps_get (loop_keeps (furtherRound_takes env))

/-! ### The dummy -/

lemma next_goes (s : Pipeline) (i : ℕ) : Goes s { s with issuedFirst := s.next i } :=
  .of rfl rfl (fun _ => id) (fun _ hj => .inl (next_mem hj)) (fun _ hj => .inr (.inr hj))
    (.inl rfl)

lemma replay_keeps (stop : Option ℕ) (batch : List (ℕ × Query)) :
    Keeps (replay env stop batch) s := by
  induction batch generalizing s with
  | nil => exact keeps_throw (by simp)
  | cons e batch ih =>
    refine keeps_modify (.data rfl rfl rfl rfl rfl rfl)
      (keeps_bind (exec_keeps env _) fun res t => ?_)
    refine keeps_modify (setRes_goes t e.1 res) (keeps_bind (checkStatus_keeps _) fun _ u => ?_)
    exact keeps_get (keeps_set (next_goes u e.1) (keeps_ite (fun _ => keeps_pure ()) fun _ => ih))

lemma replayFailed_keeps : Keeps replayFailed s := by
  refine keeps_get ?_
  cases hf : s.issuedFirst with
  | none => exact keeps_throw (by simp)
  | some thud =>
    refine Goes.of rfl rfl (fun _ => id) (fun _ hj => .inl (next_mem hj))
      (fun _ hj => .inl (next_mem hj)) (.inr ⟨_, rfl, .inr ?_⟩)
    cases hn : s.next thud with
    | none => exact ⟨thud, .inr (.inl hf), Nat.le_refl _⟩
    | some q => exact ⟨q, .inl (next_mem hn), Nat.le_succ q⟩

lemma foldl_setRes_goes (res : Result) (batch : List (ℕ × Query)) (s : Pipeline) :
    Goes s (batch.foldl (fun s e => s.setRes e.1 res) s) := by
  induction batch generalizing s with
  | nil => exact Goes.refl s
  | cons e batch ih => exact (setRes_goes s e.1 res).trans (ih _)

lemma replayBatch_keeps (res : Result) : Keeps (replayBatch env res) s := by
  refine keeps_get (keeps_set (foldl_setRes_goes res _ s)
    (keeps_bind (obtainResult_keeps true) fun _ t => keeps_get (keeps_set ?_ ?_)))
  · exact .of rfl rfl (fun _ => id) (fun _ hj => .inr (.inl hj)) (fun _ hj => .inr (.inl hj))
      (.inl rfl)
  · refine Prog.ends_tryCatch (replay_keeps env _ _) fun e u hu => ?_
    exact Prog.Ends.ite (fun _ => Prog.ends_throw hu) fun _ => replayFailed_keeps.after hu.1

lemma obtainDummy_keeps : Keeps (obtainDummy env) s := by
  refine keeps_bind getResult_keeps fun r t => keeps_modify (.data rfl rfl rfl rfl rfl rfl) ?_
  cases r with
  | none => exact internalError_keeps _
  | some r =>
    dsimp only
    cases r.outcome with
    | error _ => exact replayBatch_keeps env _
    | ok rows =>
      refine keeps_ite (fun _ => internalError_keeps _) fun _ => ?_
      cases hfield : firstField rows with
      | ok value =>
        exact keeps_ite (fun _ => internalError_keeps _) fun _ => keeps_pure ()
      | error e =>
        refine keeps_throw ?_
        rintro rfl
        rcases rows with _ | ⟨_ | _, _⟩ <;> cases hfield

/-! ### Issuing and receiving -/

lemma issue_keeps : Keeps (issue env) s := by
  refine keeps_bind (obtainResult_keeps false) fun _ t => keeps_get ?_
  refine keeps_ite (fun _ => keeps_pure ()) fun he => ?_
  refine (startExec_ends env _ (Nat.le_of_not_lt he)).bind fun _ u hu => ?_
  refine Prog.Ends.mono (keeps_modify_last (.of rfl rfl (fun _ => id)
    (fun _ hj => .inr (.inr (hu.2.trans hj))) (fun _ hj => absurd hj (by simp)) (.inl rfl)))
    (fun _ _ h => hu.1.trans h) fun _ _ h => ⟨hu.1.trans h.1, h.2⟩

lemma receiveIfAvailable_keeps : Keeps (receiveIfAvailable env) s := by
  refine keeps_bind (consumeInput_keeps env) fun _ t =>
    keeps_ite (fun _ => ?_) fun _ => keeps_throw (by simp)
  refine keeps_bind (isBusy_keeps env) fun _ u =>
    keeps_ite (fun _ => keeps_pure ()) fun _ => keeps_get ?_
  exact keeps_bind (keeps_when fun _ => obtainDummy_keeps env) fun _ v =>
    keeps_get (keeps_when fun _ => getFurtherAvailableResults_keeps env)

lemma receive_keeps (stop : Option ℕ) : Keeps (receive env stop) s :=
  keeps_get (keeps_bind (keeps_when fun _ => obtainDummy_keeps env) fun _ _ =>
    keeps_get (keeps_bind (loop_keeps (receiveRound_takes stop)) fun _ _ =>
      keeps_get (keeps_when fun _ => getFurtherAvailableResults_keeps env)))

/-! ### The calls -/

lemma detach_keeps : Keeps detach s := keeps_modify_last (.data rfl rfl rfl rfl rfl rfl)

lemma proceed_keeps : Keeps (proceed env) s :=
  keeps_get (keeps_bind (keeps_when fun _ => receiveIfAvailable_keeps env) fun _ _ =>
    keeps_get (keeps_when fun _ => issue_keeps env))

lemma complete_keeps : Keeps (complete env) s :=
  keeps_get (keeps_bind (keeps_when fun _ => receive_keeps env _) fun _ _ =>
    keeps_get (keeps_bind
      (keeps_when fun _ => keeps_bind (issue_keeps env) fun _ _ => receive_keeps env none)
      fun _ _ => detach_keeps))

lemma flush_keeps : Keeps (flush env) s := by
  refine keeps_get (keeps_bind (keeps_when fun _ => ?_) fun _ _ => detach_keeps)
  exact keeps_bind (keeps_when fun _ => receive_keeps env _) fun _ t =>
    keeps_modify_last (.of rfl rfl (fun _ hk => absurd hk (by simp [Pipeline.keys]))
      (fun _ hj => absurd hj (by simp)) (fun _ hj => absurd hj (by simp)) (.inl rfl))

lemma cancelAll_keeps (pend : List (ℕ × Query)) : Keeps (cancelAll env pend) s := by
  induction pend generalizing s with
  | nil => exact keeps_get (keeps_when fun _ => keeps_throw (by simp))
  | cons e pend ih =>
    exact keeps_bind (cancelQuery_keeps env) fun _ t =>
      keeps_modify (.of rfl rfl (fun _ hk => erase_keys hk) (fun _ hj => .inl (next_mem hj))
        (fun _ hj => .inr (.inr hj)) (.inl rfl)) ih

lemma cancel_keeps : Keeps (cancel env) s :=
  keeps_get (keeps_when fun _ => cancelAll_keeps env _)

lemma isFinished_keeps (q : ℕ) : Keeps (isFinished q) s := by
  refine keeps_get (keeps_ite (fun _ => keeps_throw (by simp)) fun _ => ?_)
  cases s.issuedFirst with
  | none => exact keeps_pure true
  | some first => exact keeps_pure _

lemma resume_keeps : Keeps (resume env) s :=
  keeps_get (keeps_bind (keeps_when fun _ => receiveIfAvailable_keeps env) fun _ _ =>
    keeps_get (keeps_when fun _ =>
      keeps_bind (issue_keeps env) fun _ _ => receiveIfAvailable_keeps env))

lemma setRetain_keeps (retainMax : ℤ) : Keeps (setRetain env retainMax) s :=
  keeps_ite (fun _ => keeps_throw (by simp)) fun _ =>
    keeps_get (keeps_set (.data rfl rfl rfl rfl rfl rfl)
      (keeps_bind (keeps_when fun _ => resume_keeps env) fun _ _ => keeps_pure _))

lemma issueFor_keeps (q : ℕ) : Keeps (issueFor env q) s :=
  keeps_get (keeps_when fun _ =>
    keeps_bind (keeps_when fun _ => receive_keeps env _) fun _ _ =>
      keeps_get (keeps_when fun _ => issue_keeps env))

lemma receiveFor_keeps (q : ℕ) : Keeps (receiveFor env q) s := by
  refine keeps_get (keeps_when fun _ => ?_)
  cases s.issuedFirst with
  | none => exact keeps_throw (by simp)
  | some first =>
    exact keeps_ite (fun _ => receive_keeps env _) fun _ => receiveIfAvailable_keeps env

/-- The query whose result is handed over is in the map before, and not after. -/
lemma takeResult_ends (q : ℕ) (s : Pipeline) : (takeResult q).Ends s
    (fun r t => Goes s t ∧ r.1 = q ∧ q ∈ s.ids ∧ q ∉ t.ids)
    fun e t => Goes s t ∧ e ≠ .stuck := by
  refine Prog.ends_get ?_
  cases hl : s.queries.lookup q with
  | none => exact Prog.ends_throw ⟨Goes.refl s, by simp⟩
  | some query =>
    have herase : Goes s { s with queries := s.queries.filter (·.1 ≠ q) } :=
      .of rfl rfl (fun _ hk => erase_keys hk) (fun _ hj => .inr (.inl hj))
        (fun _ hj => .inr (.inr hj)) (.inl rfl)
    refine Prog.ends_set (((checkStatus_ends query.res _).mono (fun _ _ h => h.1)
      fun e t ht => ⟨ht.1 ▸ herase, ht.2⟩).bind fun r t ht => Prog.ends_pure ?_)
    refine ⟨ht ▸ herase, rfl, ?_, ?_⟩
    · by_contra hq
      rw [lookup_unknown hq] at hl
      cases hl
    · rw [ht]
      intro hq
      obtain ⟨e, he, rfl⟩ := List.mem_map.mp hq
      simpa using (List.mem_filter.mp he).2

/-- What a call hands over was in the map. It is not there any more, and its number was below
`m_error`. -/
def Handed (s : Pipeline) (r : ℕ × Result) (t : Pipeline) : Prop :=
  r.1 ∉ t.ids ∧ r.1 < s.error ∧ (Numbered s → r.1 ≤ t.qId)

lemma retrieveAt_ends (q : ℕ) (s : Pipeline) : (retrieveAt env (some q)).Ends s
    (fun r t => Goes s t ∧ r.1 = q ∧ Handed s r t) fun e t => Goes s t ∧ e ≠ .stuck := by
  refine Prog.ends_get (Prog.Ends.ite (fun _ => Prog.ends_throw ⟨Goes.refl s, by simp⟩)
    fun he => ?_)
  have hkeep : ∀ {α : Type} {x : Op α} {t : Pipeline}, Goes s t → Keeps x t →
      x.Ends t (fun _ u => Goes s u) fun e u => Goes s u ∧ e ≠ .stuck := fun h hx => hx.after h
  refine Prog.Ends.bind (hkeep (Goes.refl s) (issueFor_keeps env q)) fun _ t ht => ?_
  refine Prog.Ends.bind (hkeep ht (receiveFor_keeps env q)) fun _ u hu => ?_
  refine Prog.ends_get (Prog.Ends.ite (fun _ => Prog.ends_throw ⟨hu, by simp⟩) fun _ => ?_)
  refine Prog.Ends.bind (hkeep hu (keeps_when fun _ => issue_keeps env)) fun _ v hv => ?_
  refine (takeResult_ends q v).mono (fun r w hw => ?_) fun e w hw => ⟨hv.trans hw.1, hw.2⟩
  obtain ⟨hvw, hr, hmem, hnot⟩ := hw
  refine ⟨hv.trans hvw, hr, hr ▸ hnot, hr ▸ Nat.lt_of_not_le he, fun hs => ?_⟩
  have hv' := (hv hs).1
  exact Nat.le_trans (hr ▸ hv'.names_le q (.inl hmem)) (hvw hv').2.qId_le

lemma retrieve_ends (q : ℕ) (s : Pipeline) : (retrieve env q).Ends s
    (fun r t => Goes s t ∧ r.1 ∈ s.ids ∧ r.1 = q ∧ Handed s r t)
    fun e t => Goes s t ∧ e ≠ .stuck := by
  refine Prog.ends_get ?_
  by_cases hq : q ∈ s.ids
  · cases hl : s.queries.lookup q with
    | none => exact Prog.ends_throw ⟨Goes.refl s, by simp⟩
    | some _ =>
      exact (retrieveAt_ends env q s).mono (fun r t h => ⟨h.1, h.2.1 ▸ hq, h.2⟩) fun _ _ => id
  · rw [lookup_unknown hq]
    exact Prog.ends_throw ⟨Goes.refl s, by simp⟩

lemma retrieveOldest_ends (s : Pipeline) : (retrieveOldest env).Ends s
    (fun r t => Goes s t ∧ r.1 ∈ s.ids ∧ Handed s r t) fun e t => Goes s t ∧ e ≠ .stuck := by
  refine Prog.ends_get ?_
  cases hh : s.queries.head? with
  | none => exact Prog.ends_throw ⟨Goes.refl s, by simp⟩
  | some e =>
    refine (retrieveAt_ends env e.1 s).mono (fun r t h => ⟨h.1, ?_, h.2.2⟩) fun _ _ => id
    rw [h.2.1]
    exact List.mem_map_of_mem (List.mem_of_head? hh)

/-! ### Insertion -/

/-- The pipeline with a query more. -/
def entered (s : Pipeline) (q : String) : Pipeline :=
  { s with
    registered := true
    qId := s.qId + 1
    queries := s.queries ++ [(s.qId + 1, { query := q })]
    issuedSecond := s.issuedSecond.getD (s.qId + 1)
    issuedFirst :=
      if s.issuedSecond = none then some (s.issuedFirst.getD (s.qId + 1)) else s.issuedFirst
    numWaiting := s.numWaiting + 1 }

lemma getD_cases {o : Option ℕ} {n i : ℕ} (h : some (o.getD n) = some i) : o = some i ∨ i = n := by
  cases o with
  | none => exact .inr (Option.some.inj h).symm
  | some j => exact .inl h

lemma entered_first {q : String} {i : ℕ} (h : (entered s q).issuedFirst = some i) :
    s.issuedFirst = some i ∨ i = s.qId + 1 := by
  change (if s.issuedSecond = none then some (s.issuedFirst.getD (s.qId + 1))
    else s.issuedFirst) = some i at h
  split at h
  · exact getD_cases h
  · exact .inl h

lemma entered_keys (s : Pipeline) (q : String) :
    (entered s q).keys = s.keys ++ [(s.qId + 1, q)] := List.map_append

lemma entered_goes (s : Pipeline) (q : String) : Goes s (entered s q) := by
  have hids : (entered s q).ids = s.ids ++ [s.qId + 1] := List.map_append
  intro hs
  refine ⟨⟨fun i hi => ?_, ?_⟩, Nat.le_refl _, Nat.le_succ _, fun k hk => ?_, fun _ => rfl⟩
  · rcases hi with hi | hi | hi
    · rw [hids, List.mem_append, List.mem_singleton] at hi
      rcases hi with hi | rfl
      · exact Nat.le_succ_of_le (hs.names_le i (.inl hi))
      · exact Nat.le_refl _
    · rcases entered_first hi with hi | rfl
      · exact Nat.le_succ_of_le (hs.names_le i (.inr (.inl hi)))
      · exact Nat.le_refl _
    · rcases getD_cases hi with hi | rfl
      · exact Nat.le_succ_of_le (hs.names_le i (.inr (.inr hi)))
      · exact Nat.le_refl _
  · rcases hs.error_le with he | he
    · exact .inl he
    · exact .inr (Nat.le_succ_of_le he)
  · rw [entered_keys, List.mem_append, List.mem_singleton] at hk
    rcases hk with hk | rfl
    · exact .inl hk
    · exact .inr (Nat.lt_succ_self _)

lemma insert_of_full (hid : s.qId = qidLimit) (q : String) : insert env q s =
    (.error (.overflowError "Too many queries went through pipeline."),
      { s with registered := true }) := by
  refine Prog.bind_of_error (x := generateId) (s := { s with registered := true }) ?_ _
  rw [generateId, Prog.get_bind, if_pos hid]
  rfl

/-- What is left of `insert` when the query is in. -/
def afterEntry (env : Env) (qid : ℕ) : Op ℕ := do
  let s ← get
  Prog.when (s.numWaiting > s.retain) (proceed env)
  return qid

lemma insert_of_room (hid : s.qId ≠ qidLimit) (q : String) :
    insert env q s = afterEntry env (s.qId + 1) (entered s q) := by
  have hgen : generateId { s with registered := true } =
      (.ok (s.qId + 1), { s with registered := true, qId := s.qId + 1 }) := by
    rw [generateId, Prog.get_bind, if_neg hid]
    rfl
  exact Prog.bind_of_ok hgen _

/-- The number given out is one more than the last. -/
lemma insert_ends (q : String) (s : Pipeline) : (insert env q).Ends s
    (fun id t => Goes s t ∧ id = s.qId + 1 ∧ Goes (entered s q) t)
    fun e t => Goes s t ∧ e ≠ .stuck := by
  by_cases hid : s.qId = qidLimit
  · exact Prog.ends_of_error (insert_of_full env hid q) ⟨.data rfl rfl rfl rfl rfl rfl, by simp⟩
  · have hproceed : Keeps (Prog.when ((entered s q).numWaiting > (entered s q).retain)
        (proceed env)) (entered s q) := keeps_when fun _ => proceed_keeps env
    have hs := entered_goes s q
    refine Prog.ends_of_eq (insert_of_room env hid q) (Prog.ends_get ?_)
    exact (hproceed.mono (fun _ _ => id) fun _ _ h => ⟨hs.trans h.1, h.2⟩).bind
      fun _ t ht => Prog.ends_pure ⟨hs.trans ht, rfl, ht⟩

/-! ### Runs -/

lemma call_keeps (c : Call) : Keeps (call env c) s := by
  cases c with
  | insert q =>
    exact keeps_bind ((insert_ends env q s).mono (fun _ _ h => h.1) fun _ _ => id)
      fun _ _ => keeps_pure ()
  | complete => exact complete_keeps env
  | flush => exact flush_keeps env
  | cancel => exact cancel_keeps env
  | isFinished qid => exact keeps_bind (isFinished_keeps qid) fun _ _ => keeps_pure ()
  | retain retainMax => exact keeps_bind (setRetain_keeps env retainMax) fun _ _ => keeps_pure ()
  | resume => exact resume_keeps env
  | retrieve qid =>
    exact keeps_bind ((retrieve_ends env qid s).mono (fun _ _ h => h.1) fun _ _ => id)
      fun _ _ => keeps_pure ()
  | retrieveOldest =>
    exact keeps_bind ((retrieveOldest_ends env s).mono (fun _ _ h => h.1) fun _ _ => id)
      fun _ _ => keeps_pure ()

/-- Every call ends: the loops have rounds enough. -/
lemma call_ends (c : Call) (s : Pipeline) : (call env c s).1 ≠ .error .stuck := by
  have hc := call_keeps env (s := s) c
  intro he
  rw [Keeps, Prog.Ends] at hc
  rcases hr : call env c s with ⟨r, t⟩
  rw [hr] at hc he
  obtain rfl : r = .error .stuck := he
  exact hc.2 rfl

lemma step_goes {c : Call} (h : step env s c = some t) : Goes s t := by
  have hc := call_keeps env (s := s) c
  rw [Keeps, Prog.Ends] at hc
  rw [step] at h
  rcases hr : call env c s with ⟨e | a, u⟩
  · rw [hr] at hc h
    cases e <;> cases h <;> exact hc.1
  · rw [hr] at hc h
    cases h
    exact hc

lemma run_goes {cs : List Call} (h : run (step env) s cs = some t) : Goes s t :=
  run_inv (I := Goes s) (fun _ _ _ hs hstep => hs.trans (step_goes env hstep)) (Goes.refl s) h

lemma numbered_init : Numbered {} where
  names_le := by
    rintro i (hi | hi | hi)
    · cases hi
    · cases hi
    · cases hi
  error_le := .inl rfl

lemma numbered_run {cs : List Call} (h : run (step env) {} cs = some s) : Numbered s :=
  (run_goes env h numbered_init).1

variable {env}

/-- A call of `retrieve` hands over the result `r` of the query `id`. -/
def Hands (env : Env) (id : ℕ) (r : Result) (s t : Pipeline) : Prop :=
  retrieve env id s = (.ok (id, r), t) ∨ retrieveOldest env s = (.ok (id, r), t)

lemma Hands.handed {id : ℕ} {r : Result} (h : Hands env id r s t) :
    Goes s t ∧ id ∈ s.ids ∧ Handed s (id, r) t := by
  rcases h with h | h
  · have := retrieve_ends env id s
    rw [Prog.Ends, h] at this
    exact ⟨this.1, this.2.1, this.2.2.2⟩
  · have := retrieveOldest_ends env s
    rw [Prog.Ends, h] at this
    exact this

/-- A result is handed over at most once. -/
lemma hands_once {ds : List Call} {id : ℕ} {r : Result} (hs : Numbered s)
    (h : Hands env id r s t) (hu : run (step env) t ds = some u) :
    ∀ r' v, ¬ Hands env id r' u v := by
  intro r' v h'
  obtain ⟨hst, -, hnot, -, hle⟩ := h.handed
  obtain ⟨-, hlater⟩ := run_goes env hu (hst hs).1
  obtain ⟨q, hq⟩ := mem_ids.mp h'.handed.2.1
  rcases hlater.known _ hq with hmem | hlt
  · exact hnot (mem_ids.mpr ⟨q, hmem⟩)
  · exact absurd (hle hs) (Nat.not_le_of_lt hlt)

/-- What a text holds: the statements between its semicolons. -/
def statements (text : String) : List String :=
  ((text.toList.splitOn ';').map fun cs => String.ofList (cs.dropWhile (· = ' '))).filter (· ≠ "")

/-- The results of the statements of a text: one after another, up to the first that fails. -/
def serve (outcome : ℕ → Except String (List (List String))) : ℕ → List String → List PgResult
  | _, [] => []
  | moment, q :: qs =>
    let r : PgResult := ⟨q, moment, outcome moment⟩
    r :: if r.failed then [] else serve outcome (moment + 1) qs

/-- An environment in which everything goes well at once, up to the statement at one moment. -/
def failingAt (moment : ℕ) : Env where
  answers m text :=
    serve (fun m => if m = moment then .error "ERROR" else .ok [[theDummyValue]]) m
      (statements text)
  refuses _ := none
  busy _ := false
  input _ := true
  cancels _ := none

end Operations

end DbCoursework.Pipelines

import DbCoursework.PipelineNumbers

/-!
Whose result a result is.

The pipeline tells the results by their places alone, so that it depends on what it is given:
texts of one statement each, and a backend that answers the statements in their order. While
queries are pending, the results to come are then those of the queries from
`m_issuedrange.first` on. `Reach q` says that the query `q` is behind that point, or is not to
be answered at all.
-/

namespace DbCoursework.Pipelines

open DbCoursework.Programs DbCoursework.Runs

variable {P : String → Prop} {s t : Pipeline}

/-- What is documented, for texts with `P`: each of them is one statement, as `insert` asks, and
the backend answers the statements of a batch in their order, up to the first that fails. A
batch that it cannot read fails as its first statement. -/
structure Documented (env : Env) (P : String → Prop) : Prop where
  dummy : P theDummyStatement
  batch : ∀ m qs, qs ≠ [] → (∀ q ∈ qs, P q) →
    (env.answers m (theSeparator.intercalate qs)).map PgResult.statement <+: qs
  last : ∀ m text, (env.answers m text).Pairwise fun r _ => r.failed = false

/-- The statements from the point where results go in. -/
def coming (s : Pipeline) : List String :=
  (if s.dummyPending then [theDummyStatement] else []) ++
    (s.fromIt s.issuedFirst).map fun e => e.2.query

/-- What holds in every state. Once `m_error` is zero nothing is handed over any more. -/
structure Base (P : String → Prop) (s : Pipeline) : Prop where
  sorted : s.queries.Pairwise fun e f => e.1 < f.1
  fits : ∀ k ∈ s.keys, P k.2
  own : 0 < s.error → ∀ e ∈ s.queries, ∀ r, e.2.res = some r → r.data.failed = false →
    r.data.statement = e.2.query
  first_mem : ∀ i, s.issuedFirst = some i → i ∈ s.ids
  blocked : s.error ≠ qidLimit → ∀ i, s.issuedFirst = some i → s.error ≤ i
  busy : s.conn.results ≠ [] → s.conn.inProgress = true
  last : s.conn.results.Pairwise fun r _ => r.failed = false

/-- What holds between the pieces of the code: the results fit the queries they go to. -/
structure Sound (P : String → Prop) (s : Pipeline) : Prop extends Base P s where
  aligned : 0 < s.error → s.havePending = true → s.conn.results.map PgResult.statement <+: coming s

/-- The query `q` has been passed. -/
def Past (q : ℕ) (s : Pipeline) : Prop := ∀ i, s.issuedFirst = some i → q < i

/-- The query `q` has been passed, or is never to be answered. -/
def Reach (q : ℕ) (s : Pipeline) : Prop := Past q s ∨ s.error ≤ q

/-- The query `q` has been issued: it is passed, or pending, or no result is to come. -/
def Issued (q : ℕ) (s : Pipeline) : Prop :=
  Reach q s ∨ s.havePending = true ∧
    ((∀ j, s.issuedSecond = some j → q < j) ∨ s.conn.results = [])

/-- After what is undefined nothing is promised. -/
def Fails (P : String → Prop) (e : Err) (t : Pipeline) : Prop := e ≠ .undefined → Sound P t

lemma reach_of_blocked (h : ∀ i, s.issuedFirst = some i → s.error ≤ i) (q : ℕ) : Reach q s := by
  by_cases he : s.error ≤ q
  · exact .inr he
  · refine .inl fun i hi => ?_
    have := h i hi
    omega

lemma not_pending (h : s.havePending = false) : s.issuedSecond = s.issuedFirst := by
  simpa [Pipeline.havePending] using h

lemma Base.sound (h : Base P s) (hr : s.conn.results = []) : Sound P s :=
  { h with aligned := fun _ _ => by rw [hr]; exact List.nil_prefix }

lemma Base.sound_of_not_pending (h : Base P s) (hp : s.havePending = false) : Sound P s :=
  { h with aligned := fun _ h' => absurd (hp.symm.trans h') (by simp) }

/-- Other data than queries, error and results. -/
lemma Base.data (h : Base P s) (hq : t.queries = s.queries) (hfirst : t.issuedFirst = s.issuedFirst)
    (herror : t.error = s.error) (hres : t.conn.results = s.conn.results)
    (hprog : t.conn.inProgress = s.conn.inProgress) : Base P t where
  sorted := hq ▸ h.sorted
  fits := by
    rw [Pipeline.keys, hq]
    exact h.fits
  own := by
    rw [herror, hq]
    exact h.own
  first_mem := by
    rw [hfirst, Pipeline.ids, hq]
    exact h.first_mem
  blocked := by
    rw [herror, hfirst]
    exact h.blocked
  busy := by
    rw [hres, hprog]
    exact h.busy
  last := hres ▸ h.last

lemma Sound.data (h : Sound P s) (hq : t.queries = s.queries)
    (hfirst : t.issuedFirst = s.issuedFirst) (hsecond : t.issuedSecond = s.issuedSecond)
    (herror : t.error = s.error) (hdummy : t.dummyPending = s.dummyPending)
    (hres : t.conn.results = s.conn.results)
    (hprog : t.conn.inProgress = s.conn.inProgress) : Sound P t where
  toBase := h.toBase.data hq hfirst herror hres hprog
  aligned := by
    have hpending : t.havePending = s.havePending := by
      rw [Pipeline.havePending, hfirst, hsecond, Pipeline.havePending]
    have hcoming : coming t = coming s := by
      cases hf : s.issuedFirst <;> simp [coming, hdummy, hfirst, hf, Pipeline.fromIt, hq]
    rw [herror, hpending, hres, hcoming]
    exact h.aligned

lemma Sound.tick (h : Sound P s) : Sound P s.tick := h.data rfl rfl rfl rfl rfl rfl rfl

lemma Base.setErrorAt (h : Base P s) {i : ℕ} (hi : ∀ j, s.issuedFirst = some j → i ≤ j) :
    Base P (s.setErrorAt i) where
  sorted := h.sorted
  fits := h.fits
  own := fun h0 => h.own (Nat.lt_of_lt_of_le h0 (Nat.min_le_left ..))
  first_mem := h.first_mem
  blocked := fun _ j hj => Nat.le_trans (Nat.min_le_right ..) (hi j hj)
  busy := h.busy
  last := h.last

lemma sound_of_zero (h : Base P s) (h0 : s.error = 0) : Sound P s :=
  { h with aligned := fun hpos => absurd h0 (Nat.ne_of_gt hpos) }

/-! ### The map -/

lemma next_lt {i j : ℕ} (h : s.next i = some j) : i < j := by
  rw [Pipeline.next, Option.map_eq_some_iff] at h
  obtain ⟨e, he, rfl⟩ := h
  simpa using List.find?_some he

section Split

variable {l r : List (ℕ × Query)} {e : ℕ × Query}

lemma exists_split {i : ℕ} (h : i ∈ s.ids) : ∃ l e r, s.queries = l ++ e :: r ∧ e.1 = i := by
  obtain ⟨e, he, rfl⟩ := List.mem_map.mp h
  obtain ⟨l, r, hlr⟩ := List.append_of_mem he
  exact ⟨l, e, r, hlr, rfl⟩

def headId (l : List (ℕ × Query)) : Option ℕ := l.head?.map Prod.fst

variable (hs : (l ++ e :: r).Pairwise fun e f => e.1 < f.1)

include hs

lemma lt_of_sorted : (∀ f ∈ l, f.1 < e.1) ∧ ∀ f ∈ r, e.1 < f.1 := by
  obtain ⟨-, hr, hlr⟩ := List.pairwise_append.mp hs
  exact ⟨fun f hf => hlr f hf e (by simp), fun f hf => (List.pairwise_cons.mp hr).1 f hf⟩

lemma next_eq (hq : s.queries = l ++ e :: r) : s.next e.1 = headId r := by
  obtain ⟨hl, hr⟩ := lt_of_sorted hs
  have hskip : l.find? (fun f => e.1 < f.1) = none := by
    rw [List.find?_eq_none]
    intro f hf
    simpa using Nat.le_of_lt (hl f hf)
  rw [Pipeline.next, hq, List.find?_append, hskip, Option.none_or, List.find?_cons_of_neg (by simp)]
  cases r with
  | nil => rfl
  | cons f r => rw [List.find?_cons_of_pos (by simpa using hr f (by simp))]; rfl

lemma lookup_eq (hq : s.queries = l ++ e :: r) : s.queries.lookup e.1 = some e.2 :=
  List.lookup_eq_some_iff.mpr ⟨l, r, hq, fun f hf => by
    simpa using (Nat.ne_of_lt ((lt_of_sorted hs).1 f hf)).symm⟩

lemma fromIt_eq (hq : s.queries = l ++ e :: r) : s.fromIt (some e.1) = e :: r := by
  obtain ⟨hl, hr⟩ := lt_of_sorted hs
  rw [Pipeline.fromIt, hq, List.filter_append, List.filter_cons_of_pos (by simp),
    List.filter_eq_nil_iff.mpr fun f hf => by simpa using hl f hf,
    List.filter_eq_self.mpr fun f hf => by simpa using Nat.le_of_lt (hr f hf), List.nil_append]

lemma setRes_eq (hq : s.queries = l ++ e :: r) (res : Result) :
    (s.setRes e.1 res).queries = l ++ (e.1, { e.2 with res := some res }) :: r := by
  obtain ⟨hl, hr⟩ := lt_of_sorted hs
  have hkeep : ∀ m : List (ℕ × Query), (∀ f ∈ m, f.1 ≠ e.1) →
      m.map (fun f => if f.1 = e.1 then (f.1, { f.2 with res := some res }) else f) = m :=
    fun m hm => (List.map_congr_left fun f hf => if_neg (hm f hf)).trans (List.map_id m)
  rw [Pipeline.setRes, hq]
  simp only [List.map_append, List.map_cons, if_true]
  rw [hkeep l fun f hf => Nat.ne_of_lt (hl f hf), hkeep r fun f hf => (Nat.ne_of_lt (hr f hf)).symm]

end Split

lemma fromIt_headId {l r : List (ℕ × Query)} (hs : (l ++ r).Pairwise fun e f => e.1 < f.1)
    (hq : s.queries = l ++ r) : s.fromIt (headId r) = r := by
  cases r with
  | nil => rfl
  | cons e r => exact fromIt_eq hs hq

lemma head_le {e : ℕ × Query} (hs : s.queries.Pairwise fun e f => e.1 < f.1)
    (he : s.queries.head? = some e) {i : ℕ} (hi : i ∈ s.ids) : e.1 ≤ i := by
  obtain ⟨f, hf, rfl⟩ := List.mem_map.mp hi
  obtain ⟨l, hl⟩ := List.head?_eq_some_iff.mp he
  rw [hl] at hs hf
  rcases List.mem_cons.mp hf with rfl | hf
  · exact Nat.le_refl _
  · exact Nat.le_of_lt ((List.pairwise_cons.mp hs).1 f hf)

/-! ### One result -/

/-- After `obtain_result`. -/
structure Obtained (P : String → Prop) (s : Pipeline) (a : Bool) (t : Pipeline) : Prop where
  sound : Sound P t
  dummy : t.dummyPending = s.dummyPending
  reach : ∀ q, Reach q s → Reach q t
  issued : ∀ q, Issued q s → Issued q t
  stops : a = false → t.havePending = false ∧ ∀ q, Issued q s → Reach q t
  goes : a = true → t.conn.inProgress = true ∧ s.havePending = true
  still : s.havePending = false → t.issuedFirst = s.issuedFirst ∧ t.error = s.error

lemma noResult_sound (h : Sound P s) (hr : s.conn.results = []) :
    (noResult false).Ends s (Obtained P s) (Fails P) := by
  refine Prog.ends_get (Prog.Ends.ite (fun hp => ?_) fun hp => Prog.ends_pure ?_)
  · cases hf : s.issuedFirst with
    | none => exact Prog.ends_throw fun hu => absurd rfl hu
    | some i =>
      -- The error is put at the first of them: what is not passed is not answered.
      have hbase : Base P (s.setErrorAt i) := h.toBase.setErrorAt fun j hj => by
        rw [hf] at hj
        exact Nat.le_of_eq (Option.some.inj hj)
      have hreach : ∀ q, Reach q { s.setErrorAt i with issuedSecond := some i } :=
        reach_of_blocked fun j hj => by
          obtain rfl : i = j := Option.some.inj (hf.symm.trans hj)
          exact Nat.min_le_right ..
      refine Prog.ends_set (Prog.ends_pure ⟨?_, rfl, fun q _ => hreach q,
        fun q _ => .inl (hreach q), fun _ => ⟨?_, fun q _ => hreach q⟩,
        fun ha => absurd ha (by simp), fun hp' => absurd (hp'.symm.trans hp.1) (by simp)⟩)
      · exact (hbase.data (t := { s.setErrorAt i with issuedSecond := some i }) rfl rfl rfl rfl
          rfl).sound hr
      · simp [Pipeline.havePending, Pipeline.setErrorAt, hf]
  · have hp : s.havePending = false := by simpa using hp
    refine ⟨h, rfl, fun _ => id, fun _ => id, fun _ => ⟨hp, fun q hq => ?_⟩,
      fun ha => absurd ha (by simp), fun _ => ⟨rfl, rfl⟩⟩
    rcases hq with hq | ⟨hp', -⟩
    · exact hq
    · exact absurd (hp.symm.trans hp') (by simp)

section Store

variable {r : PgResult} {rs : List PgResult}

lemma Base.pop (h : Base P s) (hr : s.conn.results = r :: rs) :
    Base P { s with conn := { s.conn with results := rs } } where
  sorted := h.sorted
  fits := h.fits
  own := h.own
  first_mem := h.first_mem
  blocked := h.blocked
  busy := fun _ => h.busy (by simp [hr])
  last := by
    have := h.last
    rw [hr] at this
    exact (List.pairwise_cons.mp this).2

/-- The first pending query gets the result of its own statement, and the next one is first. -/
lemma sound_stored (h : Base P s) {l rest : List (ℕ × Query)} {e : ℕ × Query}
    (hq : s.queries = l ++ e :: rest) (hf : s.issuedFirst = some e.1)
    (hd : s.dummyPending = false) (hprog : s.conn.inProgress = true)
    (hal : 0 < s.error → r.statement :: s.conn.results.map PgResult.statement <+: coming s)
    (o : String) : Sound P { s.setRes e.1 ⟨r, o⟩ with issuedFirst := s.next e.1 } := by
  have hs : (l ++ e :: rest).Pairwise fun e f => e.1 < f.1 := hq ▸ h.sorted
  have hqueries := setRes_eq hs hq ⟨r, o⟩
  have hcoming : coming s = e.2.query :: rest.map fun e => e.2.query := by
    rw [coming, hd, hf, fromIt_eq hs hq]
    rfl
  have hown : 0 < s.error → r.statement = e.2.query ∧
      s.conn.results.map PgResult.statement <+: rest.map fun e => e.2.query := fun h0 =>
    List.cons_prefix_cons.mp (hcoming ▸ hal h0)
  have hrest : ({ s.setRes e.1 ⟨r, o⟩ with issuedFirst := s.next e.1 } : Pipeline).fromIt
      (s.next e.1) = rest := by
    have happend := hqueries.trans (List.append_assoc l [_] rest).symm
    rw [next_eq hs hq]
    refine fromIt_headId ?_ happend
    simpa [List.pairwise_append, List.pairwise_cons] using hs
  have hkeys := setRes_keys s e.1 ⟨r, o⟩
  refine ⟨⟨?_, fun k hk => h.fits k (hkeys ▸ hk), ?_, ?_, ?_, fun _ => hprog, h.last⟩, ?_⟩
  · show (s.setRes e.1 _).queries.Pairwise _
    rw [hqueries]
    simpa [List.pairwise_append, List.pairwise_cons] using hs
  · intro h0 f hmem res hres hok
    change f ∈ (s.setRes e.1 ⟨r, o⟩).queries at hmem
    rw [hqueries, List.mem_append, List.mem_cons] at hmem
    rcases hmem with hmem | rfl | hmem
    · exact h.own h0 f (by simp [hq, hmem]) res hres hok
    · obtain rfl := Option.some.inj hres
      exact (hown h0).1
    · exact h.own h0 f (by simp [hq, hmem]) res hres hok
  · intro i hi
    exact setRes_ids s e.1 _ ▸ next_mem hi
  · intro he i hi
    exact Nat.le_trans (h.blocked he e.1 hf) (Nat.le_of_lt (next_lt hi))
  · intro h0 _
    rw [coming, hrest]
    show _ <+: (if s.dummyPending = true then _ else _) ++ _
    rw [hd]
    exact (hown h0).2

lemma storeResult_sound (h : Base P s) (hd : s.havePending = true → s.dummyPending = false)
    (hprog : s.conn.inProgress = true)
    (hal : 0 < s.error → s.havePending = true →
      r.statement :: s.conn.results.map PgResult.statement <+: coming s) :
    (storeResult r).Ends s (fun a t => a = true ∧ Sound P t ∧ t.dummyPending = s.dummyPending ∧
      (∀ q, Reach q s → Reach q t) ∧ t.issuedSecond = s.issuedSecond ∧ s.havePending = true ∧
      t.conn.inProgress = true) (Fails P) := by
  refine Prog.ends_get ?_
  cases hh : s.queries.head? with
  | none => exact Prog.ends_throw fun hu => absurd rfl hu
  | some oldest =>
    refine Prog.Ends.ite (fun hp => ?_) fun hp => ?_
    · -- A result without a query: the result is lost.
      refine Prog.ends_set (Prog.ends_throw fun _ => ?_)
      have hle := h.setErrorAt (i := oldest.1) fun j hj => head_le h.sorted hh (h.first_mem j hj)
      have hp : s.havePending = false := by simpa using hp
      exact hle.sound_of_not_pending hp
    · have hp : s.havePending = true := by simpa using hp
      cases hf : s.issuedFirst with
      | none => exact Prog.ends_throw fun hu => absurd rfl hu
      | some i =>
        obtain ⟨l, e, rest, hq, rfl⟩ := exists_split (h.first_mem i hf)
        dsimp only
        rw [lookup_eq (hq ▸ h.sorted) hq]
        refine Prog.Ends.ite (fun _ => Prog.ends_modify (Prog.ends_throw fun _ => ?_)) fun _ => ?_
        · exact sound_of_zero (h.setErrorAt fun _ _ => Nat.zero_le _) (Nat.min_zero _)
        · have hstored := sound_stored h hq hf (hd hp) hprog (fun h0 => hal h0 hp) oldest.2.query
          refine Prog.ends_set (Prog.ends_pure ⟨rfl, hstored, rfl, ?_, rfl, hp, hprog⟩)
          rintro q (hpast | he)
          · exact .inl fun i hi => Nat.lt_trans (hpast e.1 hf) (next_lt hi)
          · exact .inr he

end Store

lemma Issued.cases {q : ℕ} (h : Issued q s) (hr : s.conn.results ≠ []) :
    Reach q s ∨ s.havePending = true ∧ ∀ j, s.issuedSecond = some j → q < j := by
  rcases h with h | ⟨hp, h | h⟩
  · exact .inl h
  · exact .inr ⟨hp, h⟩
  · exact absurd h hr

/-- Before the end of what is pending, a query is pending or has been passed. -/
lemma issued_of_lt {q : ℕ} (h : ∀ j, s.issuedSecond = some j → q < j) : Issued q s := by
  by_cases hp : s.havePending = true
  · exact .inr ⟨hp, .inl h⟩
  · have hp : s.havePending = false := by simpa using hp
    exact .inl (.inl fun i hi => h i ((not_pending hp).trans hi))

lemma Sound.null (h : Sound P s) (hr : s.conn.results = []) :
    Sound P { s with conn := { s.conn with inProgress := false } } where
  sorted := h.sorted
  fits := h.fits
  own := h.own
  first_mem := h.first_mem
  blocked := h.blocked
  busy := fun hne => absurd hr hne
  last := h.last
  aligned := h.aligned

lemma obtainResult_sound (h : Sound P s) (hd : s.havePending = true → s.dummyPending = false) :
    (obtainResult false).Ends s (Obtained P s) (Fails P) := by
  cases hr : s.conn.results with
  | nil =>
    refine Prog.ends_of_eq (Prog.bind_of_ok (getResult_null hr) _) ?_
    exact (noResult_sound (h.null hr) hr).mono
      (fun a t ho => ⟨ho.sound, ho.dummy, ho.reach, ho.issued, ho.stops, ho.goes, ho.still⟩)
      fun _ _ => id
  | cons r rs =>
    refine Prog.ends_of_eq (Prog.bind_of_ok (getResult_some hr) _) ?_
    refine (storeResult_sound (h.toBase.pop hr) hd (h.busy (by simp [hr])) fun h0 hp => ?_).mono
      (fun a t ht => ?_) fun _ _ => id
    · have := h.aligned h0 hp
      rw [hr] at this
      exact this
    · obtain ⟨rfl, hsound, hdummy, hreach, hsecond, hp, hprog⟩ := ht
      refine ⟨hsound, hdummy, hreach, fun q hq => ?_, fun ha => absurd ha (by simp),
        fun _ => ⟨hprog, hp⟩, fun hp' => absurd (hp'.symm.trans hp) (by simp)⟩
      rcases hq.cases (by simp [hr]) with hq | ⟨-, hq⟩
      · exact .inl (hreach q hq)
      · exact issued_of_lt fun j hj => hq j (hsecond.symm.trans hj)

/-! ### Loops -/

/-- What is true between the rounds of a loop that takes results. -/
structure Onward (P : String → Prop) (s t : Pipeline) : Prop where
  sound : Sound P t
  dummy : t.dummyPending = false
  reach : ∀ q, Reach q s → Reach q t
  issued : ∀ q, Issued q s → Issued q t

lemma Onward.refl (h : Sound P s) (hd : s.dummyPending = false) : Onward P s s :=
  ⟨h, hd, fun _ => id, fun _ => id⟩

lemma Onward.trans {u : Pipeline} (h : Onward P s t) (h' : Onward P t u) : Onward P s u :=
  ⟨h'.sound, h'.dummy, fun q hq => h'.reach q (h.reach q hq),
    fun q hq => h'.issued q (h.issued q hq)⟩

lemma Obtained.onward {a : Bool} (h : Obtained P s a t) (hd : s.dummyPending = false) :
    Onward P s t :=
  ⟨h.sound, h.dummy.trans hd, h.reach, h.issued⟩

section Operations

variable (env : Env)

lemma tick_onward (h : Sound P s) (hd : s.dummyPending = false) : Onward P s s.tick :=
  ⟨h.tick, hd, fun _ => id, fun _ => id⟩

/-- The rule of the loops that take results. The last round ends with `L`. -/
lemma loop_onward {round : Op Bool} {L : Pipeline → Prop}
    (hround : ∀ t, Onward P s t → round.Ends t (fun a u => Onward P t u ∧
      (a = true → u.conn.results.length < t.conn.results.length) ∧ (a = false → L u)) (Fails P))
    (h : Sound P s) (hd : s.dummyPending = false) :
    (Prog.loop round .stuck (s.conn.results.length + 1)).Ends s
      (fun _ t => Onward P s t ∧ L t) (Fails P) := by
  refine Prog.ends_loop (I := Onward P s) (m := fun t => t.conn.results.length) (fun t ht => ?_)
    (Onward.refl h hd) (Nat.lt_succ_self _)
  refine (hround t ht).mono (fun a u hu => ?_) fun _ _ => id
  cases a with
  | true => exact ⟨ht.trans hu.1, hu.2.1 rfl⟩
  | false => exact ⟨ht.trans hu.1, hu.2.2 rfl⟩

lemma furtherRound_onward (h : Sound P s) (hd : s.dummyPending = false) :
    (furtherRound env).Ends s (fun _ t => Onward P s t) (Fails P) := by
  refine Prog.Ends.bind (R := fun _ t => Onward P s t) (tick_onward h hd) fun busy t ht => ?_
  refine Prog.Ends.ite (fun _ => Prog.ends_pure ht) fun _ => ?_
  refine Prog.Ends.bind (R := fun _ u => Onward P s u) ?_ fun a u hu => ?_
  · exact (obtainResult_sound ht.sound fun _ => ht.dummy).mono
      (fun _ _ ho => ht.trans (ho.onward ht.dummy)) fun _ _ => id
  refine Prog.Ends.ite (fun _ => ?_) fun _ => Prog.ends_pure hu
  refine Prog.Ends.bind (R := fun _ v => Onward P s v) (hu.trans (tick_onward hu.sound hu.dummy))
    fun c v hv => ?_
  exact Prog.Ends.ite (fun _ => Prog.ends_pure hv) fun _ => Prog.ends_throw fun _ => hv.sound

lemma getFurther_onward (h : Sound P s) (hd : s.dummyPending = false) :
    (getFurtherAvailableResults env).Ends s (fun _ t => Onward P s t) (Fails P) := by
  refine Prog.ends_get ((loop_onward (L := fun _ => True) (fun t ht => ?_) h hd).mono
    (fun _ _ h => h.1) fun _ _ => id)
  exact ((furtherRound_onward env ht.sound ht.dummy).and (furtherRound_takes env t)).mono
    (fun a u hu => ⟨hu.1, hu.2.2, fun _ => trivial⟩) fun _ _ h => h.1

/-- The loop of `receive` ends at `stop`, or when nothing more comes. -/
lemma receiveLoop_onward (stop : Option ℕ) (h : Sound P s) (hd : s.dummyPending = false) :
    (Prog.loop (receiveRound stop) .stuck (s.conn.results.length + 1)).Ends s
      (fun _ t => Onward P s t ∧ (t.issuedFirst = stop ∨ ∀ q, Issued q s → Reach q t))
      (Fails P) := by
  refine loop_onward (fun t ht => ?_) h hd
  have hround : (receiveRound stop).Ends t (fun a u => Onward P t u ∧
      (a = false → u.issuedFirst = stop ∨ ∀ q, Issued q s → Reach q u)) (Fails P) := by
    refine Prog.Ends.bind (obtainResult_sound ht.sound fun _ => ht.dummy) fun a u hu => ?_
    have hu' := hu.onward ht.dummy
    refine Prog.Ends.ite (fun _ => Prog.ends_get (Prog.ends_pure ⟨hu', fun hstop => ?_⟩))
      fun ha => Prog.ends_pure ⟨hu', fun _ => ?_⟩
    · exact .inl (by simpa using hstop)
    · exact .inr fun q hq => (hu.stops (by simpa using ha)).2 q (ht.issued q hq)
  exact (hround.and (receiveRound_takes stop t)).mono
    (fun a u hu => ⟨hu.1.1, hu.2.2, hu.1.2⟩) fun _ _ h => h.1

/-! ### The dummy -/

variable {env}

lemma Base.setRes (h : Base P s) {i : ℕ} {res : Result}
    (hres : res.data.failed = false → ∀ e ∈ s.queries, e.1 = i →
      res.data.statement = e.2.query) : Base P (s.setRes i res) where
  sorted := by
    have hfst : ∀ e : ℕ × Query,
        (if e.1 = i then (e.1, { e.2 with res := some res }) else e).1 = e.1 := by
      intro e
      split <;> rfl
    rw [Pipeline.setRes, List.pairwise_map]
    simpa only [hfst] using h.sorted
  fits := by
    rw [setRes_keys]
    exact h.fits
  own := by
    intro h0 f hf r hr hok
    obtain ⟨e, he, rfl⟩ := List.mem_map.mp hf
    by_cases hi : e.1 = i
    · rw [if_pos hi] at hr ⊢
      obtain rfl := Option.some.inj hr
      exact hres hok e he hi
    · rw [if_neg hi] at hr ⊢
      exact h.own h0 e he r hr hok
  first_mem := fun j hj => setRes_ids s i res ▸ h.first_mem j hj
  blocked := h.blocked
  busy := h.busy
  last := h.last

/-- No results are to come. -/
structure Quiet (P : String → Prop) (s : Pipeline) : Prop extends Base P s where
  empty : s.conn.results = []
  dummy : s.dummyPending = false

lemma Quiet.sound (h : Quiet P s) : Sound P s := h.toBase.sound h.empty

lemma Quiet.drained (h : Quiet P s) : Quiet P s.drained where
  sorted := h.sorted
  fits := h.fits
  own := h.own
  first_mem := h.first_mem
  blocked := h.blocked
  busy := fun hne => absurd rfl hne
  last := List.Pairwise.nil
  empty := rfl
  dummy := h.dummy

lemma exec_ends (hdoc : Documented env P) {query : String} (hq : P query) (s : Pipeline) :
    (exec env query).Ends s
      (fun res t => t = s.drained ∧ res.data.statement = query) fun _ t => t = s.drained := by
  refine Prog.ends_get (Prog.ends_set ?_)
  cases hlast : (env.answers s.conn.clock query).getLast? with
  | none => exact Prog.ends_throw rfl
  | some r =>
    refine (checkStatus_ends _ _).mono (fun res t h => ⟨h.1, ?_⟩) fun _ _ h => h.1
    obtain rfl := Option.some.inj h.2.1
    have hbatch := hdoc.batch s.conn.clock [query] (by simp) (by simpa using hq)
    rw [String.intercalate_singleton] at hbatch
    have hmem : r.statement ∈ (env.answers s.conn.clock query).map PgResult.statement :=
      List.mem_map_of_mem (List.mem_of_getLast? hlast)
    exact List.mem_singleton.mp (hbatch.subset hmem)

lemma eq_of_key (h : Base P s) {e f : ℕ × Query} (he : e ∈ s.queries) (hf : f ∈ s.queries)
    (hef : e.1 = f.1) : e = f := by
  obtain ⟨l, r, hq⟩ := List.append_of_mem he
  have hs : (l ++ e :: r).Pairwise fun e f => e.1 < f.1 := hq ▸ h.sorted
  obtain ⟨hl, hr⟩ := lt_of_sorted hs
  rw [hq, List.mem_append, List.mem_cons] at hf
  rcases hf with hf | rfl | hf
  · have := hl f hf
    omega
  · rfl
  · have := hr f hf
    omega

lemma Quiet.setRes (h : Quiet P s) {e : ℕ × Query} {res : Result}
    (hkey : (e.1, e.2.query) ∈ s.keys) (hres : res.data.statement = e.2.query) :
    Quiet P (s.setRes e.1 res) := by
  obtain ⟨g, hg, hge⟩ := List.mem_map.mp hkey
  obtain ⟨hg1, hg2⟩ := Prod.mk.inj hge
  refine ⟨h.toBase.setRes fun _ f hf hfe => ?_, h.empty, h.dummy⟩
  rw [eq_of_key h.toBase hf hg (hfe.trans hg1.symm), hres, hg2]

lemma Quiet.next (h : Quiet P s) {i : ℕ} (hi : s.error ≠ qidLimit → s.error ≤ i) :
    Quiet P { s with issuedFirst := s.next i } where
  sorted := h.sorted
  fits := h.fits
  own := h.own
  first_mem := fun _ hj => next_mem hj
  blocked := fun he _ hj => Nat.le_trans (hi he) (Nat.le_of_lt (next_lt hj))
  busy := h.busy
  last := h.last
  empty := h.empty
  dummy := h.dummy

/-- What the replay of a batch leaves, finished or not. -/
def Replayed (P : String → Prop) (s : Pipeline) (batch : List (ℕ × Query)) (t : Pipeline) : Prop :=
  Quiet P t ∧ t.error = s.error ∧ ∀ q, Past q s → (∀ e ∈ batch, q < e.1) → Past q t

lemma Replayed.refl (h : Quiet P s) (batch : List (ℕ × Query)) : Replayed P s batch s :=
  ⟨h, rfl, fun _ hq _ => hq⟩

lemma Replayed.cons {u : Pipeline} {e : ℕ × Query} {batch : List (ℕ × Query)}
    (h : Replayed P { u with issuedFirst := u.next e.1 } batch t) (herror : u.error = s.error) :
    Replayed P s (e :: batch) t :=
  ⟨h.1, h.2.1.trans herror, fun q _ hq =>
    h.2.2 q (fun _ hi => Nat.lt_trans (hq e (by simp)) (next_lt hi))
      fun f hf => hq f (by simp [hf])⟩

/-- What had been passed is before the batch. -/
lemma Replayed.reach {u : Pipeline} {batch : List (ℕ × Query)} (h : Replayed P u batch t)
    (hfirst : u.issuedFirst = s.issuedFirst) (herror : u.error = s.error)
    (hbatch : ∀ e ∈ batch, ∃ i, s.issuedFirst = some i ∧ i ≤ e.1) {q : ℕ} (hq : Reach q s) :
    Reach q t := by
  rcases hq with hpast | he
  · refine .inl (h.2.2 q (fun i hi => hpast i (hfirst ▸ hi)) fun e hmem => ?_)
    obtain ⟨i, hi, hle⟩ := hbatch e hmem
    exact Nat.lt_of_lt_of_le (hpast i hi) hle
  · exact .inr (Nat.le_trans (Nat.le_of_eq (h.2.1.trans herror)) he)

lemma replay_quiet (hdoc : Documented env P) (stop : Option ℕ) (batch : List (ℕ × Query))
    (h : Quiet P s)
    (hkeys : ∀ e ∈ batch, (e.1, e.2.query) ∈ s.keys)
    (hle : ∀ e ∈ batch, s.error ≠ qidLimit → s.error ≤ e.1) :
    (replay env stop batch).Ends s (fun _ t => Replayed P s batch t ∧ t.issuedFirst = stop)
      fun _ t => Replayed P s batch t := by
  induction batch generalizing s with
  | nil => exact Prog.ends_throw (.refl h [])
  | cons e batch ih =>
    have hwait : Quiet P { s with numWaiting := s.numWaiting - 1 } :=
      ⟨h.toBase.data rfl rfl rfl rfl rfl, h.empty, h.dummy⟩
    have hbase := hwait.drained
    have hq : P e.2.query := h.fits _ (hkeys e (by simp))
    refine Prog.ends_modify (Prog.Ends.bind ((exec_ends hdoc hq _).mono (fun _ _ => id)
      fun _ t ht => ?_) fun res t ht => ?_)
    · subst ht
      exact ⟨hbase, rfl, fun _ hq _ => hq⟩
    obtain ⟨rfl, hres⟩ := ht
    have hset := hbase.setRes (e := e) (hkeys e (by simp)) hres
    refine Prog.ends_modify (Prog.Ends.bind ((checkStatus_ends (some res) _).mono (fun _ _ => id)
      fun _ t ht => ?_) fun _ t ht => ?_)
    · rw [ht.1]
      exact ⟨hset, rfl, fun _ hq _ => hq⟩
    obtain ⟨rfl, -⟩ := ht
    have hnext := hset.next (i := e.1) (hle e (by simp))
    refine Prog.ends_get (Prog.ends_set (Prog.Ends.ite (fun hstop => ?_) fun _ => ?_))
    · exact Prog.ends_pure ⟨(Replayed.refl hnext batch).cons rfl, hstop⟩
    · refine (ih hnext (fun f hf => ?_) fun f hf => hle f (by simp [hf])).mono
        (fun _ t ht => ⟨ht.1.cons rfl, ht.2⟩) fun _ t ht => ht.cons rfl
      have := hkeys f (by simp [hf])
      exact (setRes_keys _ e.1 res).symm ▸ this

lemma replayFailed_quiet (h : Quiet P s) :
    replayFailed.Ends s (fun _ t => Quiet P t ∧ ∀ q, Reach q t) (Fails P) := by
  refine Prog.ends_get ?_
  cases hf : s.issuedFirst with
  | none => exact Prog.ends_throw fun hu => absurd rfl hu
  | some thud =>
    have hle : ∀ j, s.next thud = some j → min s.error ((s.next thud).getD (thud + 1)) ≤ j := by
      intro j hj
      rw [hj]
      exact Nat.min_le_right ..
    refine ⟨⟨⟨h.sorted, h.fits, fun h0 => h.own (Nat.lt_of_lt_of_le h0 (Nat.min_le_left ..)),
      fun _ hj => next_mem hj, fun _ => hle, h.busy, h.last⟩, h.empty, h.dummy⟩,
      reach_of_blocked hle⟩

lemma foldl_setRes_quiet {res : Result} (hres : res.data.failed = true)
    (batch : List (ℕ × Query)) (h : Quiet P s) :
    Quiet P (batch.foldl (fun s e => s.setRes e.1 res) s) ∧
      (batch.foldl (fun s e => s.setRes e.1 res) s).issuedFirst = s.issuedFirst ∧
      (batch.foldl (fun s e => s.setRes e.1 res) s).issuedSecond = s.issuedSecond ∧
      (batch.foldl (fun s e => s.setRes e.1 res) s).error = s.error := by
  induction batch generalizing s with
  | nil => exact ⟨h, rfl, rfl, rfl⟩
  | cons e batch ih =>
    exact ih ⟨h.toBase.setRes fun hok => absurd (hres.symm.trans hok) (by simp), h.empty, h.dummy⟩

lemma noResult_expected : noResult true s = (.ok false, s) := by
  rw [noResult, Prog.get_bind, if_neg (by simp)]
  rfl

lemma mem_fromIt {o : Option ℕ} {e : ℕ × Query} (h : e ∈ s.fromIt o) :
    e ∈ s.queries ∧ ∃ i, o = some i ∧ i ≤ e.1 := by
  cases o with
  | none => cases h
  | some i =>
    obtain ⟨hmem, hle⟩ := List.mem_filter.mp h
    exact ⟨hmem, i, rfl, of_decide_eq_true hle⟩

lemma replayBatch_quiet (hdoc : Documented env P) (res : Result)
    (hres : res.data.failed = true) (h : Quiet P s) :
    (replayBatch env res).Ends s (fun _ t => Quiet P t ∧ (∀ q, Reach q s → Reach q t) ∧
      ∀ q, (∀ j, s.issuedSecond = some j → q < j) → Reach q t) (Fails P) := by
  refine Prog.ends_get (Prog.ends_set ?_)
  obtain ⟨hq, hfirst, hsecond, herror⟩ := foldl_setRes_quiet hres (s.range s.issuedSecond) h
  generalize (s.range s.issuedSecond).foldl (fun s e => s.setRes e.1 res) s = t at *
  have hobtain : obtainResult true t =
      (.ok false, { t with conn := { t.conn with inProgress := false } }) := by
    rw [obtainResult, Prog.bind_of_ok (getResult_null hq.empty)]
    exact noResult_expected
  refine Prog.ends_of_eq (Prog.bind_of_ok hobtain _) (Prog.ends_get (Prog.ends_set ?_))
  have hstart : Quiet P { t with
      conn := { t.conn with inProgress := false }
      numWaiting := t.numWaiting + (t.range t.issuedSecond).length
      issuedSecond := t.issuedFirst
      registered := false } :=
    ⟨⟨hq.sorted, hq.fits, hq.own, hq.first_mem, hq.blocked, fun hne => absurd hq.empty hne,
      hq.last⟩, hq.empty, hq.dummy⟩
  have hreplay := replay_quiet hdoc t.issuedSecond (t.fromIt t.issuedFirst) hstart
    (fun e he => List.mem_map_of_mem (f := fun e : ℕ × Query => (e.1, e.2.query)) (mem_fromIt he).1)
    (fun e he herr => by
      obtain ⟨-, i, hi, hle⟩ := mem_fromIt he
      exact Nat.le_trans (hq.blocked herr i hi) hle)
  have hbatch : ∀ e ∈ t.fromIt t.issuedFirst, ∃ i, s.issuedFirst = some i ∧ i ≤ e.1 :=
    fun e he => hfirst ▸ (mem_fromIt he).2
  refine Prog.ends_tryCatch (hreplay.mono (fun _ u hu => ?_) fun _ _ => id) fun e u hu => ?_
  · refine ⟨hu.1.1, fun q hq => hu.1.reach hfirst herror hbatch hq,
      fun q hlt => .inl fun i hi => hlt i ?_⟩
    rw [← hsecond, ← hu.2, hi]
  · refine Prog.Ends.ite (fun he => Prog.ends_throw fun hne => absurd he hne) fun _ => ?_
    exact (replayFailed_quiet hu.1).mono
      (fun _ v hv => ⟨hv.1, fun q _ => hv.2 q, fun q _ => hv.2 q⟩) fun _ _ => id

lemma Base.dummyOver (h : Base P s) : Base P { s with dummyPending := false } :=
  h.data rfl rfl rfl rfl rfl

lemma obtainDummy_onward (hdoc : Documented env P) (h : Sound P s) (hd : s.dummyPending = true) :
    (obtainDummy env).Ends s (fun _ t => Onward P s t) (Fails P) := by
  cases hr : s.conn.results with
  | nil =>
    refine Prog.ends_of_eq (Prog.bind_of_ok (getResult_null hr) _) (Prog.ends_modify ?_)
    refine Prog.ends_modify (Prog.ends_throw fun _ => sound_of_zero ?_ (Nat.min_zero _))
    exact (h.null hr).toBase.dummyOver.setErrorAt fun _ _ => Nat.zero_le _
  | cons r rs =>
    have hbase := (h.toBase.pop hr).dummyOver
    refine Prog.ends_of_eq (Prog.bind_of_ok (getResult_some hr) _) (Prog.ends_modify ?_)
    have hinternal : ∀ what : String, (internalError what : Op Unit).Ends
        { s with conn := { s.conn with results := rs }, dummyPending := false }
        (fun _ t => Onward P s t) (Fails P) := fun what =>
      Prog.ends_modify (Prog.ends_throw fun _ =>
        sound_of_zero (hbase.setErrorAt fun _ _ => Nat.zero_le _) (Nat.min_zero _))
    dsimp only
    cases hout : r.outcome with
    | error what =>
      have hfailed : r.failed = true := by rw [PgResult.failed, hout]
      -- The failed result is the last one.
      have hrs : rs = [] := by
        have hlast := h.last
        rw [hr] at hlast
        refine List.eq_nil_iff_forall_not_mem.mpr fun x hx => ?_
        exact absurd (hfailed.symm.trans ((List.pairwise_cons.mp hlast).1 x hx)) (by simp)
      refine (replayBatch_quiet hdoc ⟨r, _⟩ hfailed ⟨hbase, hrs, rfl⟩).mono
        (fun _ t ht => ⟨ht.1.sound, ht.1.dummy, ht.2.1, fun q hq => .inl ?_⟩) fun _ _ => id
      rcases hq.cases (by simp [hr]) with hq | ⟨-, hq⟩
      · exact ht.2.1 q hq
      · exact ht.2.2 q hq
    | ok rows =>
      have hsound : Sound P
          { s with conn := { s.conn with results := rs }, dummyPending := false } := by
        refine { hbase with aligned := fun h0 hp => ?_ }
        have := h.aligned h0 hp
        rw [hr, coming, hd] at this
        exact (List.cons_prefix_cons.mp this).2
      refine Prog.Ends.ite (fun _ => hinternal _) fun _ => ?_
      cases firstField rows with
      | error e => exact Prog.ends_throw fun _ => hsound
      | ok value =>
        refine Prog.Ends.ite (fun _ => hinternal _) fun _ => Prog.ends_pure ?_
        refine ⟨hsound, rfl, fun _ => id, fun q hq => ?_⟩
        rcases hq.cases (by simp [hr]) with hq | hq
        · exact .inl hq
        · exact .inr ⟨hq.1, .inl hq.2⟩

/-! ### Issuing and receiving -/

/-- The results of the text that is sent are those of its queries, behind the dummy's. -/
lemma answers_text (hdoc : Documented env P) {batch : List String} (hne : batch ≠ [])
    (hq : ∀ q ∈ batch, P q) (m : ℕ) (dummy : Bool) :
    (env.answers m (if dummy then theDummyQuery ++ theSeparator.intercalate batch
      else theSeparator.intercalate batch)).map PgResult.statement <+:
        (if dummy then [theDummyStatement] else []) ++ batch := by
  cases dummy with
  | false => exact hdoc.batch m batch hne hq
  | true =>
    have htext : theDummyQuery ++ theSeparator.intercalate batch =
        theSeparator.intercalate (theDummyStatement :: batch) := by
      rw [String.intercalate_cons_of_ne_nil hne]
      rfl
    rw [if_pos rfl, if_pos rfl, htext]
    exact hdoc.batch m (theDummyStatement :: batch) (by simp)
      (List.forall_mem_cons.mpr ⟨hdoc.dummy, hq⟩)

lemma fromIt_first (h : Base P s) {i : ℕ} (hi : s.issuedFirst = some i) :
    s.fromIt (some i) ≠ [] := by
  obtain ⟨l, e, r, hq, rfl⟩ := exists_split (h.first_mem i hi)
  rw [fromIt_eq (hq ▸ h.sorted) hq]
  simp

/-- Everything in the map has been issued then. -/
lemma issue_sound (hdoc : Documented env P) (h : Sound P s)
    (hd : s.havePending = true → s.dummyPending = false) :
    (issue env).Ends s (fun _ t => Sound P t ∧ (∀ q, Issued q t) ∧
      (s.havePending = false → t.issuedFirst = s.issuedFirst ∧ t.error = s.error)) (Fails P) := by
  refine Prog.Ends.bind (obtainResult_sound h hd) fun a t ht => Prog.ends_get ?_
  refine Prog.Ends.ite (fun he => Prog.ends_pure ⟨ht.sound, fun q => ?_, ht.still⟩) fun he => ?_
  · exact .inl (reach_of_blocked (ht.sound.blocked (Nat.ne_of_lt he)) q)
  refine Prog.Ends.bind ((startExec_sent env _ t).mono (fun _ _ => id)
    fun e u hu _ => hu.1 ▸ ht.sound.tick) fun _ u hu => ?_
  obtain ⟨hprog, rfl⟩ := hu
  have hp : t.havePending = false := by
    cases a with
    | true => exact absurd (hprog.symm.trans (ht.goes rfl).1) (by simp)
    | false => exact (ht.stops rfl).1
  have hsecond := not_pending hp
  refine ⟨⟨⟨ht.sound.sorted, ht.sound.fits, ht.sound.own, ?_, ?_, fun _ => rfl,
    hdoc.last _ _⟩, fun _ hpending => ?_⟩, ?_, fun hps => ?_⟩
  · exact fun i hi => ht.sound.first_mem i (hsecond.symm.trans hi)
  · exact fun hne i hi => ht.sound.blocked hne i (hsecond.symm.trans hi)
  · cases hs : t.issuedSecond with
    | none => simp [Pipeline.havePending, hs] at hpending
    | some i =>
      have hne := fromIt_first ht.sound.toBase (hsecond.symm.trans hs)
      simp only [coming]
      refine answers_text hdoc (by simpa using hne) (fun q hq => ?_) _ _
      obtain ⟨e, he, rfl⟩ := List.mem_map.mp hq
      exact ht.sound.fits _ (List.mem_map_of_mem (mem_fromIt he).1)
  · exact fun q => issued_of_lt fun j hj => by cases hj
  · exact ⟨hsecond.trans (ht.still hps).1, (ht.still hps).2⟩

/-- The pipeline is sound, and what had been reached still is. -/
def Kept (P : String → Prop) (s t : Pipeline) : Prop := Sound P t ∧ ∀ q, Reach q s → Reach q t

lemma dummy_onward (hdoc : Documented env P) (h : Sound P s) :
    (Prog.when (s.dummyPending = true) (obtainDummy env)).Ends s (fun _ t => Onward P s t)
      (Fails P) :=
  Prog.Ends.ite (obtainDummy_onward hdoc h) fun hd =>
    Prog.ends_pure (Onward.refl h (by simpa using hd))

lemma receiveIfAvailable_kept (hdoc : Documented env P) (h : Sound P s) :
    (receiveIfAvailable env).Ends s (fun _ t => Kept P s t) (Fails P) := by
  refine Prog.Ends.bind (R := fun _ t => Kept P s t) ⟨h.tick, fun _ => id⟩ fun _ t ht => ?_
  refine Prog.Ends.ite (fun _ => ?_) fun _ => Prog.ends_throw fun _ => ht.1
  refine Prog.Ends.bind (R := fun _ t => Kept P s t) ⟨ht.1.tick, ht.2⟩ fun _ u hu => ?_
  refine Prog.Ends.ite (fun _ => Prog.ends_pure hu) fun _ => Prog.ends_get ?_
  refine Prog.Ends.bind (dummy_onward hdoc hu.1) fun _ v hv => Prog.ends_get ?_
  have hkept : Kept P s v := ⟨hv.sound, fun q hq => hv.reach q (hu.2 q hq)⟩
  refine Prog.Ends.ite (fun _ => ?_) fun _ => Prog.ends_pure hkept
  exact (getFurther_onward env hv.sound hv.dummy).mono
    (fun _ w hw => ⟨hw.sound, fun q hq => hw.reach q (hkept.2 q hq)⟩) fun _ _ => id

lemma receive_onward (hdoc : Documented env P) (stop : Option ℕ) (h : Sound P s) :
    (receive env stop).Ends s (fun _ t => Onward P s t ∧
      ∀ q, (∀ i, stop = some i → q < i) → Issued q s → Reach q t) (Fails P) := by
  refine Prog.ends_get (Prog.Ends.bind (dummy_onward hdoc h) fun _ t ht => Prog.ends_get ?_)
  refine Prog.Ends.bind (receiveLoop_onward stop ht.sound ht.dummy) fun _ u hu => Prog.ends_get ?_
  have hreach : ∀ q, (∀ i, stop = some i → q < i) → Issued q s → Reach q u := by
    intro q hq hissued
    rcases hu.2 with hstop | hall
    · exact .inl fun i hi => hq i (hstop ▸ hi)
    · exact hall q (ht.issued q hissued)
  refine Prog.Ends.ite (fun _ => ?_) fun _ => Prog.ends_pure ⟨ht.trans hu.1, hreach⟩
  exact (getFurther_onward env hu.1.sound hu.1.dummy).mono
    (fun _ v hv => ⟨(ht.trans hu.1).trans hv, fun q hq hi => hv.reach q (hreach q hq hi)⟩)
    fun _ _ => id

/-- What is pending is received before more is issued. -/
lemma receiveAll_sound (hdoc : Documented env P) (stop : Option ℕ) (h : Sound P s) :
    (Prog.when (s.havePending = true) (receive env stop)).Ends s
      (fun _ t => Sound P t ∧ (t.havePending = true → t.dummyPending = false)) (Fails P) := by
  refine Prog.Ends.ite (fun _ => ?_) fun hp => Prog.ends_pure ⟨h, fun hp' => absurd hp' hp⟩
  exact (receive_onward hdoc stop h).mono (fun _ t ht => ⟨ht.1.sound, fun _ => ht.1.dummy⟩)
    fun _ _ => id

/-! ### The calls -/

lemma fromIt_entered (s : Pipeline) (q : String) (o : Option ℕ) :
    (s.fromIt o).map (·.2.query) <+: ((entered s q).fromIt o).map (·.2.query) := by
  cases o with
  | none => exact List.nil_prefix
  | some i =>
    rw [Pipeline.fromIt, Pipeline.fromIt, entered, List.filter_append, List.map_append]
    exact List.prefix_append _ _

lemma entered_sound (h : Sound P s) (hn : Numbered s) {q : String} (hq : P q) :
    Sound P (entered s q) where
  sorted := by
    refine List.pairwise_append.mpr ⟨h.sorted, List.pairwise_singleton _ _, fun e he f hf => ?_⟩
    obtain rfl := List.mem_singleton.mp hf
    exact Nat.lt_succ_of_le (hn.names_le e.1 (.inl (List.mem_map_of_mem he)))
  fits := by
    rw [entered_keys]
    exact List.forall_mem_append.mpr ⟨h.fits, by simpa using hq⟩
  own := by
    intro h0 e he r hr
    rcases List.mem_append.mp he with he | he
    · exact h.own h0 e he r hr
    · obtain rfl := List.mem_singleton.mp he
      cases hr
  first_mem := by
    intro i hi
    have hids : (entered s q).ids = s.ids ++ [s.qId + 1] := List.map_append
    rw [hids, List.mem_append, List.mem_singleton]
    rcases entered_first hi with hi | hi
    · exact .inl (h.first_mem i hi)
    · exact .inr hi
  blocked := by
    intro he i hi
    rcases entered_first hi with hi | rfl
    · exact h.blocked he i hi
    · exact hn.error_le.resolve_left he
  busy := h.busy
  last := h.last
  aligned := by
    intro h0 hp
    have hfirst : s.havePending = true ∧ (entered s q).issuedFirst = s.issuedFirst := by
      cases hsecond : s.issuedSecond with
      | none =>
        cases hf : s.issuedFirst with
        | none => simp [Pipeline.havePending, entered, hsecond, hf] at hp
        | some i => simp [Pipeline.havePending, entered, hsecond, hf]
      | some j => simpa [Pipeline.havePending, entered, hsecond] using hp
    refine (h.aligned h0 hfirst.1).trans ?_
    rw [coming, coming, hfirst.2]
    exact List.prefix_append_right_inj _ |>.mpr (fromIt_entered s q _)

lemma proceed_sound (hdoc : Documented env P) (h : Sound P s) :
    (proceed env).Ends s (fun _ t => Sound P t) (Fails P) := by
  refine Prog.ends_get (Prog.Ends.bind (R := fun _ t => Sound P t)
    (Prog.Ends.ite (fun _ => ?_) fun _ => Prog.ends_pure h) fun _ t ht => Prog.ends_get ?_)
  · exact (receiveIfAvailable_kept hdoc h).mono (fun _ _ h => h.1) fun _ _ => id
  · refine Prog.Ends.ite (fun hp => ?_) fun _ => Prog.ends_pure ht
    exact (issue_sound hdoc ht fun hp' => absurd hp' hp).mono (fun _ _ h => h.1) fun _ _ => id

lemma insert_sound (hdoc : Documented env P) (h : Sound P s) (hn : Numbered s)
    {q : String} (hq : P q) : (insert env q).Ends s (fun _ t => Sound P t) (Fails P) := by
  by_cases hid : s.qId = qidLimit
  · exact Prog.ends_of_error (insert_of_full env hid q) fun _ => h.data rfl rfl rfl rfl rfl rfl rfl
  · have hs := entered_sound h hn hq
    refine Prog.ends_of_eq (insert_of_room env hid q) (Prog.ends_get ?_)
    exact Prog.Ends.bind (R := fun _ t => Sound P t)
      (Prog.Ends.ite (fun _ => proceed_sound hdoc hs) fun _ => Prog.ends_pure hs)
      fun _ t ht => Prog.ends_pure ht

lemma detach_sound (h : Sound P s) : detach.Ends s (fun _ t => Sound P t) (Fails P) :=
  h.data (t := { s with registered := false }) rfl rfl rfl rfl rfl rfl rfl

lemma complete_sound (hdoc : Documented env P) (h : Sound P s) :
    (complete env).Ends s (fun _ t => Sound P t) (Fails P) := by
  refine Prog.ends_get (Prog.Ends.bind (receiveAll_sound hdoc _ h) fun _ t ht => Prog.ends_get ?_)
  refine Prog.Ends.bind (R := fun _ t => Sound P t)
    (Prog.Ends.ite (fun _ => ?_) fun _ => Prog.ends_pure ht.1) fun _ u hu => detach_sound hu
  refine Prog.Ends.bind (issue_sound hdoc ht.1 ht.2) fun _ u hu => ?_
  exact (receive_onward hdoc none hu.1).mono (fun _ _ h => h.1.sound) fun _ _ => id

/-- An empty map, and nothing pending. -/
lemma Sound.cleared (h : Sound P s) : Sound P { s with
    issuedFirst := none
    issuedSecond := none
    numWaiting := 0
    dummyPending := false
    queries := [] } where
  sorted := List.Pairwise.nil
  fits := fun _ hk => absurd hk List.not_mem_nil
  own := fun _ _ he => absurd he (List.not_mem_nil)
  first_mem := fun _ hi => absurd hi (by simp)
  blocked := fun _ _ hi => absurd hi (by simp)
  busy := h.busy
  last := h.last
  aligned := fun _ hp => absurd hp (by simp [Pipeline.havePending])

lemma flush_sound (hdoc : Documented env P) (h : Sound P s) :
    (flush env).Ends s (fun _ t => Sound P t) (Fails P) := by
  refine Prog.ends_get (Prog.Ends.bind (R := fun _ t => Sound P t)
    (Prog.Ends.ite (fun _ => ?_) fun _ => Prog.ends_pure h) fun _ u hu => detach_sound hu)
  exact Prog.Ends.bind (receiveAll_sound hdoc _ h) fun _ t ht => ht.1.cleared

lemma cancelAll_base (hc : ∀ m, env.cancels m = none) (pend : List (ℕ × Query)) (h : Base P s)
    (hle : ∀ e ∈ pend, s.error ≠ qidLimit → s.error ≤ e.1) :
    (cancelAll env pend).Ends s (fun _ t => Base P t ∧ t.havePending = false)
      fun e _ => e = .undefined := by
  induction pend generalizing s with
  | nil =>
    refine Prog.ends_get (Prog.Ends.ite (fun _ => Prog.ends_throw rfl) fun hp => ?_)
    exact Prog.ends_pure ⟨h, by simpa using hp⟩
  | cons e pend ih =>
    have hcancel : cancelQuery env s = (.ok (), s.tick) := by rw [cancelQuery, hc]
    refine Prog.ends_of_eq (Prog.bind_of_ok hcancel _) (Prog.ends_modify (ih ?_ ?_))
    · refine ⟨h.sorted.filter _, fun k hk => h.fits k (erase_keys hk),
        fun h0 f hf => h.own h0 f (List.mem_of_mem_filter hf), ?_, ?_, h.busy, h.last⟩
      · intro j hj
        obtain ⟨f, hf, rfl⟩ := List.mem_map.mp (next_mem hj)
        have hlt : e.1 < f.1 := next_lt hj
        exact List.mem_map_of_mem (List.mem_filter.mpr ⟨hf, by simpa using (Nat.ne_of_lt hlt).symm⟩)
      · exact fun he j hj => Nat.le_trans (hle e (by simp) he) (Nat.le_of_lt (next_lt hj))
    · exact fun f hf => hle f (by simp [hf])

lemma cancel_sound (hc : ∀ m, env.cancels m = none) (h : Sound P s) :
    (cancel env).Ends s (fun _ t => Sound P t) (Fails P) := by
  refine Prog.ends_get (Prog.Ends.ite (fun _ => ?_) fun _ => Prog.ends_pure h)
  refine (cancelAll_base hc _ h.toBase fun e he hne => ?_).mono
    (fun _ t ht => ht.1.sound_of_not_pending ht.2) fun e t he hne => absurd he hne
  obtain ⟨-, i, hi, hle⟩ := mem_fromIt ((List.takeWhile_sublist _).subset he)
  exact Nat.le_trans (h.blocked hne i hi) hle

lemma isFinished_sound (h : Sound P s) (q : ℕ) :
    (isFinished q).Ends s (fun _ t => Sound P t) (Fails P) := by
  refine Prog.ends_get (Prog.Ends.ite (fun _ => Prog.ends_throw fun _ => h) fun _ => ?_)
  cases s.issuedFirst with
  | none => exact Prog.ends_pure h
  | some first => exact Prog.ends_pure h

lemma resume_sound (hdoc : Documented env P) (h : Sound P s) :
    (resume env).Ends s (fun _ t => Sound P t) (Fails P) := by
  refine Prog.ends_get (Prog.Ends.bind (R := fun _ t => Sound P t)
    (Prog.Ends.ite (fun _ => ?_) fun _ => Prog.ends_pure h) fun _ t ht => Prog.ends_get ?_)
  · exact (receiveIfAvailable_kept hdoc h).mono (fun _ _ h => h.1) fun _ _ => id
  · refine Prog.Ends.ite (fun hp => ?_) fun _ => Prog.ends_pure ht
    refine Prog.Ends.bind (issue_sound hdoc ht fun hp' => absurd hp' hp.1) fun _ u hu => ?_
    exact (receiveIfAvailable_kept hdoc hu.1).mono (fun _ _ h => h.1) fun _ _ => id

lemma setRetain_sound (hdoc : Documented env P) (h : Sound P s) (retainMax : ℤ) :
    (setRetain env retainMax).Ends s (fun _ t => Sound P t) (Fails P) := by
  refine Prog.Ends.ite (fun _ => Prog.ends_throw fun _ => h) fun _ => Prog.ends_get ?_
  have hset : Sound P { s with retain := retainMax } := h.data rfl rfl rfl rfl rfl rfl rfl
  exact Prog.ends_set (Prog.Ends.bind (R := fun _ t => Sound P t)
    (Prog.Ends.ite (fun _ => resume_sound hdoc hset) fun _ => Prog.ends_pure hset)
    fun _ t ht => Prog.ends_pure ht)

/-! ### Retrieving -/

lemma issueFor_issued (hdoc : Documented env P) (q : ℕ) (h : Sound P s) :
    (issueFor env q).Ends s (fun _ t => Sound P t ∧ Issued q t) (Fails P) := by
  refine Prog.ends_get (Prog.Ends.ite (fun _ => ?_) fun hq => Prog.ends_pure ⟨h, ?_⟩)
  · refine Prog.Ends.bind (receiveAll_sound hdoc _ h) fun _ t ht => Prog.ends_get ?_
    refine Prog.Ends.ite (fun _ => ?_) fun he => Prog.ends_pure ⟨ht.1, ?_⟩
    · exact (issue_sound hdoc ht.1 ht.2).mono (fun _ _ h => ⟨h.1, h.2.1 q⟩) fun _ _ => id
    · exact .inl (reach_of_blocked (ht.1.blocked he) q)
  · refine issued_of_lt fun j hj => ?_
    rw [hj] at hq
    simpa using hq

lemma receiveFor_reach (hdoc : Documented env P) (q : ℕ) (h : Sound P s) (hq : Issued q s) :
    (receiveFor env q).Ends s (fun _ t => Sound P t ∧ Reach q t) (Fails P) := by
  refine Prog.ends_get (Prog.Ends.ite (fun _ => ?_) fun hp => Prog.ends_pure ⟨h, ?_⟩)
  · cases hf : s.issuedFirst with
    | none => exact Prog.ends_throw fun hu => absurd rfl hu
    | some first =>
      refine Prog.Ends.ite (fun _ => ?_) fun hlt => ?_
      · exact (receive_onward hdoc _ h).mono
          (fun _ t ht => ⟨ht.1.sound, ht.2 q (fun i hi => next_lt hi) hq⟩) fun _ _ => id
      · have hpast : Past q s := fun i hi => by
          obtain rfl : first = i := Option.some.inj (hf.symm.trans hi)
          exact Nat.lt_of_not_le hlt
        exact (receiveIfAvailable_kept hdoc h).mono (fun _ t ht => ⟨ht.1, ht.2 q (.inl hpast)⟩)
          fun _ _ => id
  · rcases hq with hq | hq
    · exact hq
    · exact absurd hq.1 hp

lemma Sound.erase (h : Sound P s) {q : ℕ} (hq : Past q s) :
    Sound P { s with queries := s.queries.filter (·.1 ≠ q) } where
  sorted := h.sorted.filter _
  fits := fun k hk => h.fits k (erase_keys hk)
  own := fun h0 e he => h.own h0 e (List.mem_of_mem_filter he)
  first_mem := fun i hi => by
    obtain ⟨e, he, rfl⟩ := List.mem_map.mp (h.first_mem i hi)
    have := (Nat.ne_of_lt (hq e.1 hi)).symm
    exact List.mem_map_of_mem (List.mem_filter.mpr ⟨he, by simpa using this⟩)
  blocked := h.blocked
  busy := h.busy
  last := h.last
  aligned := by
    intro h0 hp
    have hcoming : coming { s with queries := s.queries.filter (·.1 ≠ q) } = coming s := by
      cases hf : s.issuedFirst with
      | none => simp [coming, hf, Pipeline.fromIt]
      | some i =>
        have hlt := hq i hf
        have hfilter : (s.queries.filter (·.1 ≠ q)).filter (i ≤ ·.1) =
            s.queries.filter (i ≤ ·.1) := by
          rw [List.filter_filter]
          refine List.filter_congr fun e _ => ?_
          rw [Bool.eq_iff_iff]
          simp only [ne_eq, decide_not, Bool.and_eq_true, decide_eq_true_eq, Bool.not_eq_true',
            decide_eq_false_iff_not]
          omega
        simp only [coming, hf, Pipeline.fromIt, hfilter]
    rw [hcoming]
    exact h.aligned h0 hp

lemma takeResult_own (q : ℕ) (h : Sound P s) (hq : Past q s) (he : q < s.error) :
    (takeResult q).Ends s (fun r t => Sound P t ∧ (q, r.2.data.statement) ∈ s.keys) (Fails P) := by
  refine Prog.ends_get ?_
  cases hl : s.queries.lookup q with
  | none => exact Prog.ends_throw fun hu => absurd rfl hu
  | some query =>
    have herase := h.erase hq
    refine Prog.ends_set (Prog.Ends.bind ((checkStatus_ends query.res _).mono (fun _ _ => id)
      fun e t ht _ => ht.1 ▸ herase) fun r t ht => Prog.ends_pure ?_)
    obtain ⟨rfl, hres, hok⟩ := ht
    refine ⟨herase, ?_⟩
    have hmem : (q, query) ∈ s.queries := by
      obtain ⟨l, r, hlr, -⟩ := List.lookup_eq_some_iff.mp hl
      simp [hlr]
    have hown := h.own (Nat.lt_of_le_of_lt (Nat.zero_le _) he) _ hmem r hres hok
    rw [hown]
    exact List.mem_map_of_mem (f := fun e : ℕ × Query => (e.1, e.2.query)) hmem

/-- The result handed over is that of a query that was in the map under the number. -/
def Answered (P : String → Prop) (s : Pipeline) (r : ℕ × Result) (t : Pipeline) : Prop :=
  Sound P t ∧ ∃ u, Goes s u ∧ (r.1, r.2.data.statement) ∈ u.keys

lemma retrieveAt_own (hdoc : Documented env P) (q : ℕ) (h : Sound P s) :
    (retrieveAt env (some q)).Ends s (Answered P s) (Fails P) := by
  refine Prog.ends_get (Prog.Ends.ite (fun _ => Prog.ends_throw fun _ => h) fun _ => ?_)
  refine Prog.Ends.bind (((issueFor_issued hdoc q h).and (issueFor_keeps env q)).mono
    (fun _ _ => id) fun _ _ h => h.1) fun _ t ht => ?_
  refine Prog.Ends.bind (((receiveFor_reach hdoc q ht.1.1 ht.1.2).and
    (receiveFor_keeps env q)).mono (fun _ _ => id) fun _ _ h => h.1) fun _ u hu => ?_
  refine Prog.ends_get (Prog.Ends.ite (fun _ => Prog.ends_throw fun _ => hu.1.1) fun he => ?_)
  have hpast : Past q u := hu.1.2.resolve_right he
  -- What is issued now comes after `q`.
  refine Prog.Ends.bind (R := fun _ v => (Sound P v ∧ Past q v ∧ q < v.error) ∧ Goes u v)
    (Prog.Ends.ite (fun hc => ?_) fun _ =>
      Prog.ends_pure ⟨⟨hu.1.1, hpast, Nat.lt_of_not_le he⟩, Goes.refl u⟩) fun _ v hv => ?_
  · have hp : u.havePending = false := by simpa using hc.2.1
    refine ((issue_sound hdoc hu.1.1 fun hp' => absurd hp' hc.2.1).and (issue_keeps env)).mono
      (fun _ v hv => ⟨⟨hv.1.1, ?_, ?_⟩, hv.2⟩) fun _ _ h => h.1
    · exact fun i hi => hpast i ((hv.1.2.2 hp).1.symm.trans hi)
    · rw [(hv.1.2.2 hp).2]
      exact Nat.lt_of_not_le he
  · obtain ⟨⟨hsound, hpast, he⟩, hgoes⟩ := hv
    refine ((takeResult_own q hsound hpast he).and (takeResult_ends q v)).mono
      (fun r w hw => ⟨hw.1.1, v, ?_, ?_⟩) fun _ _ h => h.1
    · exact ht.2.trans (hu.2.trans hgoes)
    · exact hw.2.2.1 ▸ hw.1.2

lemma retrieve_own (hdoc : Documented env P) (q : ℕ) (h : Sound P s) :
    (retrieve env q).Ends s (Answered P s) (Fails P) := by
  refine Prog.ends_get ?_
  cases s.queries.lookup q with
  | none => exact Prog.ends_throw fun _ => h
  | some _ => exact retrieveAt_own hdoc q h

lemma retrieveOldest_own (hdoc : Documented env P) (h : Sound P s) :
    (retrieveOldest env).Ends s (Answered P s) (Fails P) := by
  refine Prog.ends_get ?_
  cases s.queries.head? with
  | none => exact Prog.ends_throw fun _ => h
  | some e => exact retrieveAt_own hdoc e.1 h

/-! ### Texts of one statement -/

/-- A text of one statement, for the backend of `failingAt`. -/
def Plain (q : String) : Prop := q.toList.head?.all (· ≠ ' ') ∧ q ≠ "" ∧ ';' ∉ q.toList

instance : DecidablePred Plain := fun _ => inferInstanceAs (Decidable (_ ∧ _))

/-- `statements`, of the text's characters. -/
def pieces (cs : List Char) : List (List Char) :=
  (cs.splitOn ';').map (List.dropWhile (· = ' '))

lemma dropWhile_plain {q : String} (hq : Plain q) : q.toList.dropWhile (· = ' ') = q.toList := by
  cases hcs : q.toList with
  | nil => rfl
  | cons c cs =>
    have hc : c ≠ ' ' := by simpa [Plain, hcs] using hq.1
    rw [List.dropWhile_cons_of_neg (by simpa using hc)]

lemma pieces_blank (cs : List Char) : pieces (' ' :: cs) = pieces cs := by
  obtain ⟨d, ds, hd⟩ := List.exists_cons_of_ne_nil (List.splitOn_ne_nil ';' cs)
  rw [pieces, pieces, List.splitOn_cons_eq_if_modifyHead, if_neg (by decide), hd]
  simp

lemma pieces_intercalate {qs : List String} (hne : qs ≠ []) (hq : ∀ q ∈ qs, Plain q) :
    pieces (theSeparator.intercalate qs).toList = qs.map String.toList := by
  induction qs with
  | nil => exact absurd rfl hne
  | cons q qs ih =>
    obtain ⟨hplain, hqs⟩ := List.forall_mem_cons.mp hq
    cases qs with
    | nil =>
      rw [String.intercalate_singleton, pieces, List.splitOn_eq_singleton hplain.2.2]
      simp [dropWhile_plain hplain]
    | cons r qs =>
      have htext : (theSeparator.intercalate (q :: r :: qs)).toList =
          q.toList ++ ';' :: ' ' :: (theSeparator.intercalate (r :: qs)).toList := by
        simp [theSeparator]
      have hrest := pieces_blank (theSeparator.intercalate (r :: qs)).toList
      rw [ih (by simp) hqs, pieces] at hrest
      rw [htext, pieces, List.splitOn_append_cons_self_of_not_mem hplain.2.2, List.map_cons, hrest,
        dropWhile_plain hplain]
      rfl

lemma statements_intercalate {qs : List String} (hne : qs ≠ []) (hq : ∀ q ∈ qs, Plain q) :
    statements (theSeparator.intercalate qs) = qs := by
  have hpieces := congrArg (List.map String.ofList) (pieces_intercalate hne hq)
  rw [pieces, List.map_map, List.map_map] at hpieces
  have hqs : qs.map (String.ofList ∘ String.toList) = qs := by simp
  rw [statements]
  refine (congrArg (List.filter _) (hpieces.trans hqs)).trans ?_
  exact List.filter_eq_self.mpr fun q hmem => by simpa using (hq q hmem).2.1

section Serve

variable (outcome : ℕ → Except String (List (List String)))

lemma serve_statements (m : ℕ) (qs : List String) :
    (serve outcome m qs).map PgResult.statement <+: qs := by
  induction qs generalizing m with
  | nil => exact List.nil_prefix
  | cons q qs ih =>
    rw [serve, List.map_cons]
    refine List.cons_prefix_cons.mpr ⟨rfl, ?_⟩
    split
    · exact List.nil_prefix
    · exact ih (m + 1)

lemma serve_last (m : ℕ) (qs : List String) :
    (serve outcome m qs).Pairwise fun r _ => r.failed = false := by
  induction qs generalizing m with
  | nil => exact List.Pairwise.nil
  | cons q qs ih =>
    rw [serve]
    refine List.pairwise_cons.mpr ⟨fun r hr => ?_, ?_⟩
    · by_contra hf
      rw [if_pos (by simpa using hf)] at hr
      cases hr
    · split
      · exact List.Pairwise.nil
      · exact ih (m + 1)

end Serve

lemma failingAt_documented (moment : ℕ) : Documented (failingAt moment) Plain where
  dummy := by decide
  batch m qs hne hq := by
    show (serve _ m (statements (theSeparator.intercalate qs))).map _ <+: qs
    rw [statements_intercalate hne hq]
    exact serve_statements _ m qs
  last _ _ := serve_last _ _ _

/-! ### Runs -/

lemma sound_init : Sound P {} where
  sorted := List.Pairwise.nil
  fits := fun _ hk => absurd hk List.not_mem_nil
  own := fun _ _ he => absurd he List.not_mem_nil
  first_mem := fun _ hi => absurd hi (by simp)
  blocked := fun _ _ hi => absurd hi (by simp)
  busy := fun h => absurd rfl h
  last := List.Pairwise.nil
  aligned := fun _ _ => List.nil_prefix

lemma call_sound (hdoc : Documented env P) (hc : ∀ m, env.cancels m = none) (h : Sound P s)
    (hn : Numbered s) {c : Call} (hq : ∀ q, c = .insert q → P q) :
    (call env c).Ends s (fun _ t => Sound P t) (Fails P) := by
  cases c with
  | insert q =>
    exact Prog.Ends.bind (insert_sound hdoc h hn (hq q rfl)) fun _ _ ht => Prog.ends_pure ht
  | complete => exact complete_sound hdoc h
  | flush => exact flush_sound hdoc h
  | cancel => exact cancel_sound hc h
  | isFinished qid =>
    exact Prog.Ends.bind (isFinished_sound h qid) fun _ _ ht => Prog.ends_pure ht
  | retain retainMax =>
    exact Prog.Ends.bind (setRetain_sound hdoc h retainMax) fun _ _ ht => Prog.ends_pure ht
  | resume => exact resume_sound hdoc h
  | retrieve qid =>
    exact Prog.Ends.bind (retrieve_own hdoc qid h) fun _ _ ht => Prog.ends_pure ht.1
  | retrieveOldest =>
    exact Prog.Ends.bind (retrieveOldest_own hdoc h) fun _ _ ht => Prog.ends_pure ht.1

lemma step_sound (hdoc : Documented env P) (hc : ∀ m, env.cancels m = none) {c : Call}
    (h : Sound P s) (hn : Numbered s) (hq : ∀ q, c = .insert q → P q)
    (hstep : step env s c = some t) : Sound P t := by
  have hcall := call_sound hdoc hc h hn hq
  rw [Prog.Ends] at hcall
  rw [step] at hstep
  rcases hr : call env c s with ⟨e | a, u⟩
  · rw [hr] at hcall hstep
    cases e <;> cases hstep <;> exact hcall (by simp)
  · rw [hr] at hcall hstep
    cases hstep
    exact hcall

lemma run_sound (hdoc : Documented env P) (hc : ∀ m, env.cancels m = none) {cs : List Call}
    (h : Sound P s) (hn : Numbered s) (hcs : ∀ q, Call.insert q ∈ cs → P q)
    (hrun : run (step env) s cs = some t) : Sound P t := by
  have hfit : Along (step env) (fun _ c => ∀ q, c = Call.insert q → P q) s cs := by
    refine along_of_forall (fun c hmem _ q hq => ?_) s
    subst hq
    exact hcs q hmem
  exact (run_inv_along (I := fun t => Sound P t ∧ Numbered t) (fun _ _ _ ht hq hstep =>
    ⟨step_sound hdoc hc ht.1 ht.2 hq hstep, (step_goes env hstep ht.2).1⟩) ⟨h, hn⟩ hfit hrun).1

/-- The second text holds no statement: `B` is then answered with the result of `C`. -/
example :
    ((run (step (failingAt 0)) {} [.retain 3, .insert "A", .insert "", .insert "B", .insert "C",
      .resume]).bind fun s =>
        (retrieve (failingAt 0) 3 s).1.toOption.map fun r => r.2.data.statement) = some "C" := by
  decide +kernel

/-- The second of two cancellations fails: `B` is then answered with the result of `A`. -/
example :
    let env : Env := { failingAt 0 with
      busy := fun _ => true
      cancels := fun m => if m = 7 then some "ERROR" else none }
    ((run (step env) {} [.retain 2, .insert "A", .insert "B", .resume, .cancel]).bind fun s =>
      (retrieve env 2 s).1.toOption.map fun r => r.2.data.statement) = some "A" := by
  decide +kernel

end Operations

end DbCoursework.Pipelines

import DbCoursework.TransactionSteps

/-!
What became of a `COMMIT`.

The status of an object against the commands that went out, and, for a robust transaction,
when `commit` returns although the answer to its `COMMIT` was lost.
-/

namespace DbCoursework.Transactions

open DbCoursework.Runs

/-- How often object `i` sent `c`. -/
def times (c : Command) (i : ℕ) (log : List Entry) : ℕ :=
  log.countP fun e => e.sender = i ∧ e.command = c

/-- The endings in the log: at most one `COMMIT` and one `ROLLBACK` of each object and none
of an active one; who committed has sent a `COMMIT`, and whose `COMMIT` was acknowledged has
committed. -/
structure Endings (w : World) : Prop where
  known : ∀ e ∈ w.conn.log, e.sender < w.txs.length
  once : ∀ i, times .commit i w.conn.log ≤ 1 ∧ times .rollback i w.conn.log ≤ 1
  active : ∀ i tx, w.Live i tx → tx.status = .active →
    times .commit i w.conn.log = 0 ∧ times .rollback i w.conn.log = 0
  acknowledged : ∀ i tx, w.Live i tx → ⟨i, .commit, true⟩ ∈ w.conn.log → tx.status = .committed
  committed : ∀ i tx, w.Live i tx → tx.status = .committed →
    ∃ ok, ⟨i, .commit, ok⟩ ∈ w.conn.log ∧ (tx.kind = .plain → ok = true)

lemma times_append (c : Command) (i : ℕ) (l l' : List Entry) :
    times c i (l ++ l') = times c i l + times c i l' := List.countP_append

/-- The commands of a call, of one sender. -/
def entries (i : ℕ) (es : List (Command × Bool)) : List Entry := es.map fun c => ⟨i, c.1, c.2⟩

lemma times_entries_ne {c : Command} {i j : ℕ} (h : i ≠ j) (es : List (Command × Bool)) :
    times c i (entries j es) = 0 := by
  simp [times, entries, List.countP_eq_zero, Ne.symm h]

lemma mem_entries {c : Command} {i j : ℕ} {ok : Bool} {es : List (Command × Bool)} :
    ⟨i, c, ok⟩ ∈ entries j es ↔ i = j ∧ (c, ok) ∈ es := by
  simp only [entries, List.mem_map, Entry.mk.injEq, Prod.exists]
  constructor
  · rintro ⟨c', ok', h, rfl, rfl, rfl⟩
    exact ⟨rfl, h⟩
  · rintro ⟨rfl, h⟩
    exact ⟨c, ok, h, rfl, rfl, rfl⟩

/-- What one call can say about its own ending. -/
lemma moves_ending {kind : Kind} {t o : Bool} {st st' : Status} {es : List (Command × Bool)}
    (h : Moves kind t st es o st') (i : ℕ) :
    times .commit i (entries i es) ≤ 1 ∧ times .rollback i (entries i es) ≤ 1 ∧
    (st ≠ .active ∨ st' = .active → times .commit i (entries i es) = 0 ∧
      times .rollback i (entries i es) = 0) ∧
    ((.commit, true) ∈ es → st' = .committed) ∧ (st = .committed → st' = .committed) ∧
    (st' = .committed → st = .committed ∨
      ∃ ok, (.commit, ok) ∈ es ∧ (kind = .plain → ok = true)) := by
  cases h with
  | checkFailed h h1 h2 hes =>
    rcases hes with ⟨rfl, -⟩ | ⟨ok, rfl⟩ <;> simp [times, entries, checkConstraintsQuery, h1, h2]
  | robustRefused h h1 hes =>
    rcases hes with rfl | ⟨ok, rfl⟩ <;> simp [times, entries, checkConstraintsQuery, h, h1]
  | refused h h1 h2 => simp [times, entries, h1, h2]
  | _ => simp_all [times, entries, checkConstraintsQuery]

lemma Endings.effect {w w' : World} {k : Work} {tx : Tx} {t : Bool}
    {es : List (Command × Bool)} (hw : Endings w) (hl : w.Live k.id tx)
    (he : Effect t ⟨k.id, w.conn, tx⟩ k es) (hconn : w'.conn = k.conn)
    (hlen : w'.txs.length = w.txs.length)
    (hlive : ∀ i x, w'.Live i x → i = k.id ∧ x = k.tx ∨ i ≠ k.id ∧ w.Live i x) : Endings w' := by
  have hlog : w'.conn.log = w.conn.log ++ entries k.id es := by rw [hconn]; exact he.log
  obtain ⟨hc, hr, hnone, hack, hkeep, hcom⟩ := moves_ending he.moves k.id
  have hother : ∀ {c : Command} {i : ℕ}, i ≠ k.id →
      times c i w'.conn.log = times c i w.conn.log := by
    intro c i hi
    rw [hlog, times_append, times_entries_ne hi, Nat.add_zero]
  refine ⟨?_, fun i => ?_, fun i x hx ha => ?_, fun i x hx hmem => ?_, fun i x hx hs => ?_⟩
  · intro e he'
    rw [hlen]
    rw [hlog] at he'
    rcases List.mem_append.mp he' with h | h
    · exact hw.known e h
    · obtain ⟨c, -, rfl⟩ := List.mem_map.mp h
      exact (List.getElem?_eq_some_iff.mp hl).1
  · rcases Decidable.em (i = k.id) with rfl | hi
    · rw [hlog, times_append, times_append]
      rcases Decidable.em (tx.status = .active) with ha | ha
      · obtain ⟨h1, h2⟩ := hw.active k.id tx hl ha
        omega
      · have h1 := hnone (.inl ha)
        have h2 := hw.once k.id
        omega
    · rw [hother hi, hother hi]
      exact hw.once i
  · rcases hlive i x hx with ⟨rfl, rfl⟩ | ⟨hi, hx⟩
    · have h1 := hnone (.inr ha)
      have h2 := hw.active k.id tx hl (he.moves.active ha)
      rw [hlog, times_append, times_append]
      omega
    · rw [hother hi, hother hi]
      exact hw.active i x hx ha
  · rw [hlog] at hmem
    rcases hlive i x hx with ⟨rfl, rfl⟩ | ⟨hi, hx⟩ <;> rcases List.mem_append.mp hmem with h | h
    · exact hkeep (hw.acknowledged k.id tx hl h)
    · exact hack (mem_entries.mp h).2
    · exact hw.acknowledged i x hx h
    · exact absurd (mem_entries.mp h).1 hi
  · rw [hlog]
    rcases hlive i x hx with ⟨rfl, rfl⟩ | ⟨hi, hx⟩
    · rcases hcom hs with h | ⟨ok, hmem, hok⟩
      · obtain ⟨ok, hmem, hok⟩ := hw.committed k.id tx hl h
        exact ⟨ok, List.mem_append_left _ hmem, by rw [he.kind]; exact hok⟩
      · exact ⟨ok, List.mem_append_right _ (mem_entries.mpr ⟨rfl, hmem⟩),
          by rw [he.kind]; exact hok⟩
    · obtain ⟨ok, hmem, hok⟩ := hw.committed i x hx hs
      exact ⟨ok, List.mem_append_left _ hmem, hok⟩

lemma Endings.append {c c' : Conn} {txs : List (Option Tx)} {t : Option Tx}
    (es : List (Command × Bool)) (hw : Endings ⟨c, txs⟩)
    (hlog : c'.log = c.log ++ entries txs.length es)
    (hes : ∀ p ∈ es, p.1 ≠ .commit ∧ p.1 ≠ .rollback)
    (ht : ∀ tx, t = some tx → tx.status = .active) : Endings ⟨c', txs ++ [t]⟩ := by
  have hnew : ∀ i, times .commit i (entries txs.length es) = 0 ∧
      times .rollback i (entries txs.length es) = 0 := by
    intro i
    constructor <;> refine List.countP_eq_zero.mpr fun e he => ?_ <;>
      obtain ⟨p, hp, rfl⟩ := List.mem_map.mp he <;> simp [hes p hp]
  have hold : ∀ i, txs.length ≤ i → times .commit i c.log = 0 ∧ times .rollback i c.log = 0 := by
    intro i hi
    have hne : ∀ e ∈ c.log, e.sender ≠ i := fun e he => by
      have : e.sender < txs.length := hw.known e he
      omega
    constructor <;> refine List.countP_eq_zero.mpr fun e he => ?_ <;> simp [hne e he]
  have hsame : ∀ i, times .commit i c'.log = times .commit i c.log ∧
      times .rollback i c'.log = times .rollback i c.log := by
    intro i
    have := hnew i
    rw [hlog, times_append, times_append]
    omega
  refine ⟨fun e he => ?_, fun i => ?_, fun i x hx ha => ?_, fun i x hx hmem => ?_,
    fun i x hx hs => ?_⟩
  · rw [List.length_append]
    rcases List.mem_append.mp (hlog ▸ he : e ∈ c.log ++ entries txs.length es) with h | h
    · exact Nat.lt_add_right _ (hw.known e h)
    · obtain ⟨p, -, rfl⟩ := List.mem_map.mp h
      simp
  · obtain ⟨h1, h2⟩ := hsame i
    exact h1 ▸ h2 ▸ hw.once i
  · obtain ⟨h1, h2⟩ := hsame i
    rcases live_append.mp hx with hx | ⟨rfl, -⟩
    · exact h1 ▸ h2 ▸ hw.active i x hx ha
    · exact h1 ▸ h2 ▸ hold _ (Nat.le_refl _)
  · have hmem : ⟨i, .commit, true⟩ ∈ c.log := by
      rcases List.mem_append.mp (hlog ▸ hmem : _ ∈ c.log ++ entries txs.length es) with h | h
      · exact h
      · exact absurd rfl (hes _ (mem_entries.mp h).2).1
    rcases live_append.mp hx with hx | ⟨rfl, -⟩
    · exact hw.acknowledged i x hx hmem
    · exact absurd (hw.known _ hmem) (Nat.lt_irrefl _)
  · rcases live_append.mp hx with hx | ⟨-, h⟩
    · obtain ⟨ok, hmem, hok⟩ := hw.committed i x hx hs
      exact ⟨ok, hlog ▸ List.mem_append_left _ hmem, hok⟩
    · cases (ht x h).symm.trans hs

lemma endings_init : Endings {} where
  known e h := by cases h
  once i := ⟨Nat.zero_le 1, Nat.zero_le 1⟩
  active i tx h := by simp [World.Live] at h
  acknowledged i tx h := by simp [World.Live] at h
  committed i tx h := by simp [World.Live] at h

lemma endings_step {w w' : World} {e : Event} (hw : Endings w) (h : step w e = some w') :
    Endings w' := by
  rcases step_cases (t := false) h (by simp) with
    ⟨kind, name, xid, pid, b, rfl, hc⟩ | ⟨tx, k, es, hl, he, rfl⟩ |
    ⟨tx, k, es, hl, he, rfl, hs, hr⟩ | rfl
  · obtain ⟨c, txs⟩ := w
    cases hc with
    | nothing => exact hw.append [] (by simp [entries]) (by simp) (by simp)
    | refused ho hk => exact hw.append [(.beginCmd, false)] rfl (by simp) (by simp)
    | begun ho ht h1 h2 h3 =>
      exact hw.append [(.beginCmd, true)] rfl (by simp) (fun _ h => by cases h; exact h2)
    | begunRobust ho hk h1 h2 h3 =>
      exact hw.append [(.beginCmd, true), (txidQuery, true)] rfl (by simp [txidQuery])
        (fun _ h => by cases h; exact h2)
    | unnumbered ho hk ht =>
      exact hw.append [(.beginCmd, true), (txidQuery, false)] rfl (by simp [txidQuery])
        (by simp)
  · exact hw.effect hl he rfl (by simp [World.set]) fun i x hx => (live_set hl).mp hx
  · exact hw.effect hl he rfl (by simp [World.gone]) fun i x hx => .inr (live_gone.mp hx)
  · exact ⟨hw.known, hw.once, hw.active, hw.acknowledged, hw.committed⟩

/-- **A committed transaction is one whose `COMMIT` came back.** After any calls on any number
of objects, a `transaction` has status committed exactly when its `COMMIT` was acknowledged; a
`robusttransaction` has sent one; and no object sends `COMMIT` or `ROLLBACK` twice. -/
theorem committed_iff_acknowledged {w : World} {es : List Event} (hrun : run step {} es = some w) :
    (∀ i tx, w.Live i tx → tx.kind = .plain →
      (tx.status = .committed ↔ ⟨i, .commit, true⟩ ∈ w.conn.log)) ∧
    (∀ i tx, w.Live i tx → tx.status = .committed → ∃ ok, ⟨i, .commit, ok⟩ ∈ w.conn.log) ∧
    ∀ i, times .commit i w.conn.log ≤ 1 ∧ times .rollback i w.conn.log ≤ 1 := by
  have hw : Endings w := run_inv (fun _ _ _ hw h => endings_step hw h) endings_init hrun
  refine ⟨fun i tx hl hk => ⟨fun hs => ?_, hw.acknowledged i tx hl⟩, fun i tx hl hs => ?_, hw.once⟩
  · obtain ⟨ok, hmem, hok⟩ := hw.committed i tx hl hs
    exact hok hk ▸ hmem
  · obtain ⟨ok, hmem, -⟩ := hw.committed i tx hl hs
    exact ⟨ok, hmem⟩

theorem committed_iff_acknowledged_twice : ∃ w, run step {}
      [.construct .plain "a" "" 0 accepting, .commit 0 accepting, .commit 0 accepting] = some w ∧
    (∀ i tx, w.Live i tx → tx.kind = .plain →
      (tx.status = .committed ↔ ⟨i, .commit, true⟩ ∈ w.conn.log)) ∧
    (∀ i tx, w.Live i tx → tx.status = .committed → ∃ ok, ⟨i, .commit, ok⟩ ∈ w.conn.log) ∧
    ∀ i, times .commit i w.conn.log ≤ 1 ∧ times .rollback i w.conn.log ≤ 1 :=
  ⟨_, (Option.some_get (by decide +kernel)).symm,
    committed_iff_acknowledged (Option.some_get (by decide +kernel)).symm⟩

/-! ### A robust transaction whose `COMMIT` is lost -/

/-- The check numbered `n` ends the loop without an error: it cannot connect, or finds the
transaction committed, or finds it aborted and the connection still takes a `ROLLBACK`. -/
def Lets (b : Backend) (isOpen : Bool) (n : ℕ) : Prop :=
  (∃ what, b.probe n = .error (.brokenConnection what)) ∨ b.probe n = .ok "committed" ∨
    b.probe n = .ok "aborted" ∧ isOpen = true ∧ b.reply .rollback = .ok

lemma doAbort_none {k : Work} {b : Backend} (hp : k.tx.pendingError.isEmpty = true) :
    (k.doAbort b).1 = none ↔ k.conn.isOpen = true ∧ b.reply .rollback = .ok := by
  unfold Work.doAbort
  cases ho : k.conn.isOpen
  · rw [Work.directExec_closed hp ho]
    simp
  · rw [Work.directExec_open hp ho]
    cases b.reply .rollback <;> simp [Reply.error]

/-- The answers that end the loop with an error of their own. -/
lemma queryStatus_other {text : String} (h1 : text ≠ "aborted") (h2 : text ≠ "committed")
    (h3 : text ≠ "in progress") :
    ∃ what, queryStatus (.ok text) = .error (.internalError what) := by
  simp only [queryStatus, parseStatus, h1, h2, h3, if_false, bind, Except.bind, throw, throwThe,
    MonadExceptOf.throw]
  split
  · exact ⟨_, rfl⟩
  · exact ⟨_, rfl⟩

/-- The first check either ends the loop or finds the transaction in progress. -/
lemma settle_succ {k : Work} {b : Backend} (hp : k.tx.pendingError.isEmpty = true) (n left : ℕ) :
    (k.settle b n (left + 1)).1 = none ↔ Lets b k.conn.isOpen n ∨
      b.probe n = .ok "in progress" ∧ (k.settle b (n + 1) left).1 = none := by
  conv_lhs => rw [Work.settle]
  unfold Lets
  rcases h : b.probe n with e | text
  · cases e <;> simp [queryStatus, bind, Except.bind]
  · rcases Decidable.em (text = "aborted") with rfl | h1
    · simp [show queryStatus (.ok "aborted") = .ok .aborted from rfl, doAbort_none hp]
    rcases Decidable.em (text = "committed") with rfl | h2
    · simp [show queryStatus (.ok "committed") = .ok .committed from rfl]
    rcases Decidable.em (text = "in progress") with rfl | h3
    · simp [show queryStatus (.ok "in progress") = .ok .inProgress from rfl]
    · obtain ⟨what, hq⟩ := queryStatus_other h1 h2 h3
      simp [hq, h1, h2, h3]

lemma settle_none {k : Work} {b : Backend} (hp : k.tx.pendingError.isEmpty = true) (n left : ℕ) :
    (k.settle b n left).1 = none ↔ ∃ m < left, (∀ j < m, b.probe (n + j) = .ok "in progress") ∧
      Lets b k.conn.isOpen (n + m) := by
  induction left generalizing n with
  | zero => simp [Work.settle]
  | succ left ih =>
    rw [settle_succ hp, ih]
    constructor
    · rintro (h | ⟨h, m, hm, hpast, hl⟩)
      · exact ⟨0, by omega, by simp, h⟩
      · refine ⟨m + 1, by omega, fun j hj => ?_, by rwa [Nat.add_assoc, Nat.add_comm 1 m] at hl⟩
        rcases j with _ | j
        · exact h
        · have := hpast j (by omega)
          rwa [Nat.add_assoc, Nat.add_comm 1 j] at this
    · rintro ⟨m, hm, hpast, hl⟩
      rcases m with _ | m
      · exact .inl hl
      · refine .inr ⟨hpast 0 (by omega), m, by omega, fun j hj => ?_, ?_⟩
        · have := hpast (j + 1) (by omega)
          rwa [Nat.add_assoc, Nat.add_comm 1 j]
        · rwa [Nat.add_assoc, Nat.add_comm 1 m]

/-- **When `commit` of a robust transaction returns.** It does so after an acknowledged
`COMMIT`; and after one whose connection broke exactly when the checks, within the attempts
there are, find it in progress up to one that cannot connect, that finds it committed, or that
finds it aborted while the connection still takes a `ROLLBACK`. -/
theorem robust_commit_returns {k : Work} {b : Backend} (hk : k.tx.kind = .robust)
    (hs : k.tx.status = .active) (hp : k.tx.pendingError.isEmpty = true) (hf : k.tx.focus = none)
    (ho : k.conn.isOpen = true) :
    (k.commit b).1 = none ↔ b.reply checkConstraintsQuery = .ok ∧ (b.reply .commit = .ok ∨
      ∃ e o, b.reply .commit = .failed e o ∧ (o = false ∨ ∃ what, e = .brokenConnection what) ∧
        ∃ n < maxAttempts, (∀ m < n, b.probe m = .ok "in progress") ∧ Lets b o n) := by
  have hcommit : (k.commit b).1 = none ↔ (k.doCommitRobust b).1 = none := by
    simp only [Work.commit, Work.checkPendingError, hp, if_true, hs, Work.commitActive, hf, ho,
      Work.doCommit, hk]
    rcases k.doCommitRobust b with ⟨_ | e, k'⟩
    · simp
    · cases e <;> simp
  rw [hcommit, Work.doCommitRobust, Work.directExec_open hp ho]
  rcases b.reply checkConstraintsQuery with _ | ⟨e, o⟩
  · simp only [Reply.error, Reply.stillOpen]
    rw [Work.directExec_open (w := k.sent _ true) hp rfl, Work.sent_sent]
    rcases b.reply .commit with _ | ⟨e, o⟩
    · simp [Reply.error]
    · have hsettle := settle_none (b := b) (k := k.sent
        [(checkConstraintsQuery, true), (.commit, false)] o) hp 0 maxAttempts
      simp only [Nat.zero_add] at hsettle
      cases e <;> cases o <;> simp_all [Reply.error, Reply.stillOpen, Work.sent]
  · simp [Reply.error]

/-- A backend that loses the connection at `COMMIT` and cannot be reached after the first
check. -/
def losing : Backend where
  reply
    | .commit => .failed (.brokenConnection "Connection lost.") false
    | _ => .ok
  probe
    | 0 => .ok "in progress"
    | _ => .error (.brokenConnection "")

theorem robust_commit_returns_unsettled :
    (Work.commit losing ⟨0, {}, { kind := .robust, name := "a" }⟩).1 = none :=
  (robust_commit_returns rfl rfl rfl rfl rfl).mpr ⟨rfl, .inr ⟨_, _, rfl, .inl rfl, 1, by decide,
    fun m hm => by obtain rfl : m = 0 := (by omega); rfl, .inl ⟨_, rfl⟩⟩⟩

end DbCoursework.Transactions

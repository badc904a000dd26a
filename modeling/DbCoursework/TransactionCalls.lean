import DbCoursework.Transactions

/-!
What one call on a transaction object does.

`Moves` lists the commands a call can send and the status it ends in; `Effect` adds what it
does to the connection. Each function of the model gets one lemma that says so, and later
modules never look inside it.
-/

namespace DbCoursework.Transactions

namespace Work

/-- The object after commands went out, with the connection open or lost. -/
def sent (w : Work) (es : List (Command × Bool)) (isOpen : Bool) : Work :=
  { w with conn := { w.conn with
      log := w.conn.log ++ es.map fun c => ⟨w.id, c.1, c.2⟩
      isOpen } }

lemma sent_sent (w : Work) (es es' : List (Command × Bool)) (o o' : Bool) :
    (w.sent es o).sent es' o' = w.sent (es ++ es') o' := by
  simp [sent]

lemma checkPendingError_cases (w : Work) :
    (w.tx.pendingError.isEmpty = true ∧ w.checkPendingError = (none, w)) ∨
    (w.tx.pendingError.isEmpty = false ∧ w.checkPendingError =
      (some (.failure w.tx.pendingError), { w with tx := { w.tx with pendingError := "" } })) := by
  unfold checkPendingError
  cases h : w.tx.pendingError.isEmpty
  · right; simp
  · left; simp

lemma directExec_open {w : Work} {c : Command} {r : Reply} (hp : w.tx.pendingError.isEmpty = true)
    (ho : w.conn.isOpen = true) :
    w.directExec c r = (r.error, w.sent [(c, r.error.isNone)] r.stillOpen) := by
  simp [directExec, checkPendingError, hp, Conn.exec, ho, sent]

lemma directExec_closed {w : Work} {c : Command} {r : Reply}
    (hp : w.tx.pendingError.isEmpty = true) (ho : w.conn.isOpen = false) :
    w.directExec c r =
      (some (.brokenConnection "Lost connection to the database server."), w) := by
  simp [directExec, checkPendingError, hp, Conn.exec, ho]

lemma directExec_pending {w : Work} {c : Command} {r : Reply}
    (hp : w.tx.pendingError.isEmpty = false) : w.directExec c r =
      (some (.failure w.tx.pendingError), { w with tx := { w.tx with pendingError := "" } }) := by
  simp [directExec, checkPendingError, hp]

end Work

/-- The commands one call can send and how they move the status; the second boolean is
whether the connection is open after them. A `stray` query and a `forgotten` transaction are
what a call does only when the first boolean is false. -/
inductive Moves (kind : Kind) : Bool → Status → List (Command × Bool) → Bool → Status → Prop
  | stay {t o s} : Moves kind t s [] o s
  | ask {t o q ok} : Moves kind t .active [(.query q, ok)] o .active
  | stray {o s q ok} : Moves kind false s [(.query q, ok)] o s
  | forgotten {o} : Moves kind false .active [] o .aborted
  | dropped {t} : Moves kind t .active [] false .aborted
  | rolledBack {t o ok} : Moves kind t .active [(.rollback, ok)] o .aborted
  | committed {t o} (h : kind = .plain) : Moves kind t .active [(.commit, true)] o .committed
  | refused {t o s} (h : kind = .plain) (h1 : s ≠ .active) (h2 : s ≠ .committed) :
      Moves kind t .active [(.commit, false)] o s
  | checkFailed {t o s es} (h : kind = .robust) (h1 : s ≠ .active) (h2 : s ≠ .committed)
      (hes : es = [] ∧ o = false ∨ ∃ ok, es = [(.rollback, ok)]) :
      Moves kind t .active ((checkConstraintsQuery, false) :: es) o s
  | robustCommitted {t o} (h : kind = .robust) :
      Moves kind t .active [(checkConstraintsQuery, true), (.commit, true)] o .committed
  | robustRefused {t o s es} (h : kind = .robust) (h1 : s ≠ .active)
      (hes : es = [] ∨ ∃ ok, es = [(.rollback, ok)]) :
      Moves kind t .active ((checkConstraintsQuery, true) :: (.commit, false) :: es) o s

/-- What a call on an object does to it and to the connection. -/
structure Effect (t : Bool) (k k' : Work) (es : List (Command × Bool)) : Prop where
  id : k'.id = k.id
  kind : k'.tx.kind = k.tx.kind
  log : k'.conn.log = k.conn.log ++ es.map fun c => ⟨k.id, c.1, c.2⟩
  moves : Moves k.tx.kind t k.tx.status es k'.conn.isOpen k'.tx.status
  opened : k'.conn.isOpen = true → k.conn.isOpen = true
  leaves : k'.conn.trans = k.conn.trans ∧ k'.tx.registered = k.tx.registered ∨
    k.tx.registered = true ∧ k'.conn.trans = none ∧ k'.tx.registered = false ∧
      k'.tx.status ≠ .active

lemma Moves.any {kind : Kind} {s s' : Status} {es : List (Command × Bool)} {t o : Bool}
    (h : Moves kind true s es o s') : Moves kind t s es o s' := by
  cases h with
  | stay => exact .stay
  | ask => exact .ask
  | dropped => exact .dropped
  | rolledBack => exact .rolledBack
  | committed h => exact .committed h
  | refused h h1 h2 => exact .refused h h1 h2
  | checkFailed h h1 h2 hes => exact .checkFailed h h1 h2 hes
  | robustCommitted h => exact .robustCommitted h
  | robustRefused h h1 hes => exact .robustRefused h h1 hes

lemma Effect.any {k k' : Work} {es : List (Command × Bool)} {t : Bool}
    (h : Effect true k k' es) : Effect t k k' es := { h with moves := h.moves.any }

namespace Work

lemma stay_effect {t : Bool} (k : Work) {tx : Tx} (h1 : tx.kind = k.tx.kind)
    (h2 : tx.status = k.tx.status) (h3 : tx.registered = k.tx.registered) :
    Effect t k { k with tx } [] :=
  ⟨rfl, h1, by simp, h2 ▸ .stay, fun h => h, .inl ⟨rfl, h3⟩⟩

lemma unregister_eq (k : Work) : k.unregister = ⟨k.id,
    { k.conn with trans := if k.tx.registered then none else k.conn.trans },
    { k.tx with pendingError := "", registered := false }⟩ := by
  obtain ⟨id, conn, tx⟩ := k
  obtain ⟨kind, name, xid, pid, status, registered, focus, pe⟩ := tx
  have hpe : pe.isEmpty = true → pe = "" := by simp
  cases registered <;> cases h : pe.isEmpty <;>
    simp_all [unregister, checkPendingError]

lemma unregister_effect {t : Bool} {k k' : Work} {es : List (Command × Bool)}
    (h : Effect t k k' es) (hs : k'.tx.status ≠ .active) : Effect t k k'.unregister es := by
  rw [unregister_eq]
  refine ⟨h.id, h.kind, h.log, h.moves, h.opened, ?_⟩
  rcases h.leaves with ⟨h1, h2⟩ | ⟨h1, h2, h3, -⟩
  · cases hr : k.tx.registered
    · exact .inl ⟨by simp [h2, hr, h1], by simp⟩
    · exact .inr ⟨by simp, by simp [h2, hr], rfl, hs⟩
  · exact .inr ⟨h1, by simp [h2], rfl, hs⟩

/-- The `ROLLBACK` of an active transaction, and its status after it. -/
lemma rollback_effect {k : Work} {b : Backend} (hs : k.tx.status = .active)
    (hp : k.tx.pendingError.isEmpty = true) : ∃ es,
    Effect true k { (k.doAbort b).2 with
      tx := { (k.doAbort b).2.tx with status := .aborted } } es := by
  cases ho : k.conn.isOpen
  · refine ⟨[], ?_⟩
    rw [doAbort, directExec_closed hp ho]
    exact ⟨rfl, rfl, by simp, by rw [hs, ho]; exact .dropped, fun h => h, .inl ⟨rfl, rfl⟩⟩
  · refine ⟨[(.rollback, (b.reply .rollback).error.isNone)], ?_⟩
    rw [doAbort, directExec_open hp ho]
    exact ⟨rfl, rfl, by simp [sent], by rw [hs]; exact .rolledBack, fun _ => ho, .inl ⟨rfl, rfl⟩⟩

lemma abort_effect {k : Work} {b : Backend}
    (hp : k.tx.status = .active → k.tx.pendingError.isEmpty = true) :
    ∃ es, Effect true k (k.abort b).2 es := by
  unfold abort
  cases hs : k.tx.status
  case active =>
    obtain ⟨es, h⟩ := rollback_effect (b := b) hs (hp hs)
    exact ⟨es, unregister_effect h (by simp)⟩
  all_goals exact ⟨[], stay_effect k rfl rfl rfl⟩

/-- With a pending error `ROLLBACK` is not sent. -/
lemma abort_pending {k : Work} {b : Backend} (hs : k.tx.status = .active)
    (hp : k.tx.pendingError.isEmpty = false) : k.abort b =
      (none, unregister { k with tx := { k.tx with pendingError := "", status := .aborted } }) := by
  simp only [abort, hs, doAbort, directExec_pending hp]

lemma abort_effect_any {k : Work} {b : Backend} : ∃ es, Effect false k (k.abort b).2 es := by
  by_cases hp : k.tx.status = .active → k.tx.pendingError.isEmpty = true
  · obtain ⟨es, h⟩ := abort_effect (b := b) hp
    exact ⟨es, h.any⟩
  · obtain ⟨hs, hp⟩ := Classical.not_imp.mp hp
    rw [abort_pending hs (by simpa using hp)]
    have h : Effect false k { k with tx := { k.tx with pendingError := "", status := .aborted } }
        [] := ⟨rfl, rfl, by simp, by rw [hs]; exact .forgotten, fun h => h, .inl ⟨rfl, rfl⟩⟩
    exact ⟨[], unregister_effect h (by simp)⟩

lemma effect_of_unregister {t : Bool} {k k' : Work} {es : List (Command × Bool)}
    (h : Effect t k.unregister k' es) (hs : k'.tx.status ≠ .active) :
    Effect t k k'.unregister es := by
  have hreg : k'.tx.registered = false ∧
      k'.conn.trans = if k.tx.registered then none else k.conn.trans := by
    rcases h.leaves with ⟨h1, h2⟩ | ⟨h1, -⟩
    · exact ⟨by rw [h2, unregister_eq], by rw [h1, unregister_eq]⟩
    · simp [unregister_eq] at h1
  rw [unregister_eq k] at h
  rw [unregister_eq k']
  refine ⟨h.id, h.kind, h.log, h.moves, h.opened, ?_⟩
  cases hr : k.tx.registered
  · exact .inl ⟨by simp [hreg, hr], rfl⟩
  · exact .inr ⟨rfl, by simp [hreg, hr], rfl, hs⟩

lemma close_of_ne {k : Work} (b : Backend) (hs : k.tx.status ≠ .active) :
    k.close b = k.unregister := by
  have hu : k.unregister.tx.status ≠ .active := by rw [unregister_eq]; exact hs
  simp only [close, hu, if_false]

/-- After `close` the object is not active and not registered. -/
lemma close_effect {k : Work} {b : Backend} : ∃ es, Effect true k (k.close b) es ∧
    (k.close b).tx.status ≠ .active ∧ (k.close b).tx.registered = false := by
  have hu : k.unregister.tx.status = k.tx.status := by rw [unregister_eq]
  by_cases hs : k.tx.status = .active
  · obtain ⟨es, h⟩ := rollback_effect (k := k.unregister) (b := b) (hu.trans hs)
      (by rw [unregister_eq]; rfl)
    have hc : k.close b = unregister { (k.unregister.doAbort b).2 with
        tx := { (k.unregister.doAbort b).2.tx with status := .aborted } } := by
      simp only [close, abort, hu.trans hs, if_true]
    have h' := effect_of_unregister h (by simp)
    rw [hc]
    exact ⟨es, h', by rw [unregister_eq]; simp, by rw [unregister_eq]⟩
  · rw [close_of_ne b hs]
    have h : Effect true k k [] := stay_effect k rfl rfl rfl
    exact ⟨[], unregister_effect h hs, hu ▸ hs, by rw [unregister_eq]⟩

lemma exec_effect {k : Work} {q d : String} {b : Backend} :
    ∃ es, Effect true k (k.exec q d b).2 es := by
  unfold exec
  rcases checkPendingError_cases k with ⟨hp, hc⟩ | ⟨hp, hc⟩
  · simp only [hc]
    cases k.tx.focus
    case some => exact ⟨[], stay_effect k rfl rfl rfl⟩
    by_cases hs : k.tx.status = .active
    · simp only [hs, if_true]
      cases ho : k.conn.isOpen
      · rw [directExec_closed hp ho]
        exact ⟨[], stay_effect k rfl rfl rfl⟩
      · rw [directExec_open hp ho]
        refine ⟨[(.query q, (b.reply (.query q)).error.isNone)], rfl, rfl, rfl, ?_, fun _ => ho,
          .inl ⟨rfl, rfl⟩⟩
        simp only [sent, hs]
        exact .ask
    · simp only [hs, if_false]
      exact ⟨[], stay_effect k rfl rfl rfl⟩
  · simp only [hc]
    exact ⟨[], stay_effect k rfl rfl rfl⟩

lemma execParams_effect {k : Work} {q : String} {b : Backend} {t : Bool}
    (ht : t = true → k.tx.status = .active) : ∃ es, Effect t k (k.execParams q b).2 es := by
  unfold execParams
  cases k.tx.focus
  case some => exact ⟨[], stay_effect k rfl rfl rfl⟩
  cases ho : k.conn.isOpen
  · simp only [Conn.exec, ho]
    exact ⟨[], stay_effect k rfl rfl rfl⟩
  · simp only [Conn.exec, ho, if_true]
    refine ⟨[(.query q, (b.reply (.query q)).error.isNone)], rfl, rfl, by simp, ?_, fun _ => ho,
      .inl ⟨rfl, rfl⟩⟩
    cases t
    · exact .stray
    · simp only [ht rfl]
      exact .ask

lemma settle_cases {k : Work} {b : Backend} (hp : k.tx.pendingError.isEmpty = true) (n left : ℕ) :
    (k.settle b n left).2 = k ∨
    ∃ ok o, k.conn.isOpen = true ∧ (k.settle b n left).2 = k.sent [(.rollback, ok)] o := by
  induction left generalizing n with
  | zero => exact .inl rfl
  | succ left ih =>
    unfold settle
    split
    · exact .inl rfl
    · exact .inl rfl
    · exact .inl rfl
    · exact .inl rfl
    · unfold doAbort
      cases ho : k.conn.isOpen
      · rw [directExec_closed hp ho]
        exact .inl rfl
      · rw [directExec_open hp ho]
        exact .inr ⟨_, _, rfl, rfl⟩
    · exact ih (n + 1)

/-- The status `commit` leaves for what `do_commit` threw. -/
def statusAfter : Option Error → Status
  | none => .committed
  | some (.inDoubtError _) => .inDoubt
  | some _ => .aborted

lemma statusAfter_ne_active (e : Option Error) : statusAfter e ≠ .active := by
  unfold statusAfter
  split <;> simp

lemma statusAfter_some (e : Error) : statusAfter (some e) ≠ .committed := by
  cases e <;> simp [statusAfter]

lemma doCommitPlain_cases {k : Work} {b : Backend} (hp : k.tx.pendingError.isEmpty = true)
    (ho : k.conn.isOpen = true) : ∃ es o, (k.doCommitPlain b).2 = k.sent es o ∧
      Moves .plain true .active es o (statusAfter (k.doCommitPlain b).1) := by
  unfold doCommitPlain
  rw [directExec_open hp ho]
  rcases b.reply .commit with _ | ⟨e, o⟩
  · exact ⟨_, _, rfl, .committed rfl⟩
  · refine ⟨[(.commit, false)], o, ?_⟩
    cases e <;> cases o <;>
      exact ⟨rfl, .refused rfl (statusAfter_ne_active _) (statusAfter_some _)⟩

/-- The `ROLLBACK` after a refused command, on a connection that may be lost by then. -/
lemma doAbort_sent {k : Work} (b : Backend) (es : List (Command × Bool)) (o : Bool)
    (hp : k.tx.pendingError.isEmpty = true) : ∃ es' o', ((k.sent es o).doAbort b).2 =
      k.sent (es ++ es') o' ∧ (es' = [] ∧ o' = false ∨ ∃ ok, es' = [(.rollback, ok)]) := by
  unfold doAbort
  cases o
  · rw [directExec_closed (w := k.sent es false) hp rfl]
    exact ⟨[], false, by simp, .inl ⟨rfl, rfl⟩⟩
  · rw [directExec_open (w := k.sent es true) hp rfl]
    exact ⟨_, _, sent_sent .., .inr ⟨_, rfl⟩⟩

lemma settle_sent {k : Work} (b : Backend) (es : List (Command × Bool)) (o : Bool)
    (hp : k.tx.pendingError.isEmpty = true) (n left : ℕ) : ∃ es' o',
    ((k.sent es o).settle b n left).2 = k.sent (es ++ es') o' ∧
      (es' = [] ∨ ∃ ok, es' = [(.rollback, ok)]) := by
  rcases settle_cases (k := k.sent es o) (b := b) hp n left with h | ⟨ok, o', -, h⟩
  · exact ⟨[], o, by rw [h, List.append_nil], .inl rfl⟩
  · exact ⟨_, o', by rw [h, sent_sent], .inr ⟨ok, rfl⟩⟩

lemma doCommitRobust_cases {k : Work} {b : Backend} (hp : k.tx.pendingError.isEmpty = true)
    (ho : k.conn.isOpen = true) : ∃ es o, (k.doCommitRobust b).2 = k.sent es o ∧
      Moves .robust true .active es o (statusAfter (k.doCommitRobust b).1) := by
  unfold doCommitRobust
  rw [directExec_open hp ho]
  rcases b.reply checkConstraintsQuery with _ | ⟨e, o⟩
  · simp only [Reply.error, Reply.stillOpen]
    rw [directExec_open (w := k.sent _ true) hp rfl, sent_sent]
    rcases b.reply .commit with _ | ⟨e, o⟩
    · exact ⟨_, _, rfl, .robustCommitted rfl⟩
    · have hsettle :=
        settle_sent b [(checkConstraintsQuery, true), (.commit, false)] o hp 0 maxAttempts
      have habort := doAbort_sent b [(checkConstraintsQuery, true), (.commit, false)] o hp
      simp only [Reply.error, Reply.stillOpen]
      split
      case h_1 h => cases h
      case h_2 h =>
        cases h
        obtain ⟨es, o', h, hes⟩ := hsettle
        exact ⟨_, o', h, .robustRefused rfl (statusAfter_ne_active _) hes⟩
      case h_3 h =>
        cases h
        split
        · obtain ⟨es, o', h, hes⟩ := habort
          exact ⟨_, o', h, .robustRefused rfl (statusAfter_ne_active _)
            (hes.imp And.left fun h => h)⟩
        · obtain ⟨es, o', h, hes⟩ := hsettle
          exact ⟨_, o', h, .robustRefused rfl (statusAfter_ne_active _) hes⟩
  · obtain ⟨es, o', h, hes⟩ := doAbort_sent b [(checkConstraintsQuery, false)] o hp
    exact ⟨_, o', h, .checkFailed rfl (statusAfter_ne_active _) (statusAfter_some _) hes⟩

lemma doCommit_cases {k : Work} {b : Backend} (hp : k.tx.pendingError.isEmpty = true)
    (ho : k.conn.isOpen = true) : ∃ es o, (k.doCommit b).2 = k.sent es o ∧
      Moves k.tx.kind true .active es o (statusAfter (k.doCommit b).1) := by
  unfold doCommit
  cases k.tx.kind
  · exact doCommitPlain_cases hp ho
  · exact doCommitRobust_cases hp ho

lemma commit_effect {k : Work} {b : Backend} : ∃ es, Effect true k (k.commit b).2 es := by
  unfold commit
  rcases checkPendingError_cases k with ⟨hp, hc⟩ | ⟨hp, hc⟩
  case inr =>
    simp only [hc]
    exact ⟨[], stay_effect k rfl rfl rfl⟩
  simp only [hc]
  cases hs : k.tx.status
  case active =>
    unfold commitActive
    cases hf : k.tx.focus
    case some => exact ⟨[], stay_effect k rfl rfl rfl⟩
    cases ho : k.conn.isOpen
    case false => exact ⟨[], stay_effect k rfl rfl rfl⟩
    obtain ⟨es, o, h2, hm⟩ := doCommit_cases (b := b) hp ho
    have hsent : ∀ s, statusAfter (k.doCommit b).1 = s →
        Effect true k { k.sent es o with tx := { (k.sent es o).tx with status := s } } es := by
      intro s h
      exact ⟨rfl, rfl, rfl, by rw [hs]; exact h ▸ hm, fun _ => ho, .inl ⟨rfl, rfl⟩⟩
    refine ⟨es, ?_⟩
    rcases hd : k.doCommit b with ⟨_ | e, k'⟩
    · obtain rfl : k' = k.sent es o := by simpa [hd] using h2
      have h := hsent .committed (by rw [hd]; rfl)
      simp only [if_true]
      rw [close_of_ne _ (by simp)]
      exact unregister_effect h (by simp)
    · obtain rfl : k' = k.sent es o := by simpa [hd] using h2
      rw [hd] at hsent
      cases e <;> exact hsent _ rfl
  all_goals exact ⟨[], stay_effect k rfl rfl rfl⟩

end Work

end DbCoursework.Transactions

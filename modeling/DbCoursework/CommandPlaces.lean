import DbCoursework.TransactionSteps

/-!
Commands at their places.

The backend reads the commands of all the objects as one sequence. It is in at most one
transaction at a time, and what an object sends is meant for that object's own.
-/

namespace DbCoursework.Transactions

open DbCoursework.Runs

/-- The transaction the backend is in, and a bound on the numbers it has seen. -/
structure Server where
  next : ℕ := 0
  inside : Option ℕ := none
  deriving DecidableEq

/-- A command at its place: `BEGIN` outside any transaction, queries and `COMMIT` inside the
sender's own, and `ROLLBACK` in no other one's. The text of a query is not looked at: a `COMMIT`
that is sent as a query counts as a query. -/
def serve (s : Server) (e : Entry) : Option Server :=
  match e.command with
  | .beginCmd =>
    if s.inside = none ∧ s.next ≤ e.sender then
      some ⟨e.sender + 1, if e.ok then some e.sender else none⟩
    else none
  | .query _ => if s.inside = some e.sender then some s else none
  | .commit => if s.inside = some e.sender then some { s with inside := none } else none
  | .rollback =>
    if s.inside = none ∨ s.inside = some e.sender then some { s with inside := none } else none

/-- The backend after the log, and how the objects agree with it: an active one is the one it
is in, and while the connection is open it is in no other. -/
structure Served (w : World) (s : Server) : Prop where
  log : run serve {} w.conn.log = some s
  next : s.next ≤ w.txs.length
  active : ∀ i tx, w.Live i tx → tx.status = .active → s.inside = some i
  inside : w.conn.isOpen = true → ∀ i, s.inside = some i →
    ∃ tx, w.Live i tx ∧ tx.status = .active

/-- The commands of one call, served. -/
lemma moves_serve {kind : Kind} {o : Bool} {st st' : Status} {es : List (Command × Bool)}
    {s : Server} {i : ℕ} (h : Moves kind true st es o st') (hs : st = .active → s.inside = some i) :
    ∃ s', run serve s (es.map fun c => ⟨i, c.1, c.2⟩) = some s' ∧
      (st' = st ∧ s' = s ∨ st = .active ∧ st' ≠ .active ∧ s'.next = s.next ∧
        (s'.inside = none ∨ s'.inside = some i ∧ o = false)) := by
  cases h with
  | stay => exact ⟨s, rfl, .inl ⟨rfl, rfl⟩⟩
  | ask =>
    have hs := hs rfl
    exact ⟨s, by simp [serve, hs], .inl ⟨rfl, rfl⟩⟩
  | dropped => exact ⟨s, rfl, .inr ⟨rfl, by simp, rfl, .inr ⟨hs rfl, rfl⟩⟩⟩
  | rolledBack =>
    have hs := hs rfl
    exact ⟨{ s with inside := none }, by simp [serve, hs], .inr ⟨rfl, by simp, rfl, .inl rfl⟩⟩
  | committed h =>
    have hs := hs rfl
    exact ⟨{ s with inside := none }, by simp [serve, hs], .inr ⟨rfl, by simp, rfl, .inl rfl⟩⟩
  | refused h h1 h2 =>
    have hs := hs rfl
    exact ⟨{ s with inside := none }, by simp [serve, hs], .inr ⟨rfl, h1, rfl, .inl rfl⟩⟩
  | checkFailed h h1 h2 hes =>
    have hs := hs rfl
    rcases hes with ⟨rfl, rfl⟩ | ⟨ok, rfl⟩
    · exact ⟨s, by simp [serve, checkConstraintsQuery, hs],
        .inr ⟨rfl, h1, rfl, .inr ⟨hs, rfl⟩⟩⟩
    · exact ⟨{ s with inside := none }, by simp [serve, checkConstraintsQuery, hs],
        .inr ⟨rfl, h1, rfl, .inl rfl⟩⟩
  | robustCommitted h =>
    have hs := hs rfl
    exact ⟨{ s with inside := none }, by simp [serve, checkConstraintsQuery, hs],
      .inr ⟨rfl, by simp, rfl, .inl rfl⟩⟩
  | robustRefused h h1 hes =>
    have hs := hs rfl
    rcases hes with rfl | ⟨ok, rfl⟩ <;>
      exact ⟨{ s with inside := none }, by simp [serve, checkConstraintsQuery, hs],
        .inr ⟨rfl, h1, rfl, .inl rfl⟩⟩

lemma served_init : Served {} {} where
  log := rfl
  next := Nat.le_refl 0
  active i tx h := by simp [World.Live] at h
  inside _ i h := by cases h

lemma Served.effect {w w' : World} {s : Server} {k : Work} {tx : Tx}
    {es : List (Command × Bool)} (hw : Served w s) (hl : w.Live k.id tx)
    (he : Effect true ⟨k.id, w.conn, tx⟩ k es) (hconn : w'.conn = k.conn)
    (hlen : w'.txs.length = w.txs.length)
    (hlive : ∀ i x, x.status = .active →
      (w'.Live i x ↔ i = k.id ∧ x = k.tx ∨ i ≠ k.id ∧ w.Live i x)) : ∃ s', Served w' s' := by
  obtain ⟨s', hrun, hs'⟩ := moves_serve (i := k.id) he.moves (hw.active k.id tx hl)
  refine ⟨s', ?_, ?_, ?_, ?_⟩
  · rw [hconn, he.log, run_append, hw.log]
    exact hrun
  · rw [hlen]
    rcases hs' with ⟨-, rfl⟩ | ⟨-, -, hn, -⟩
    · exact hw.next
    · exact hn ▸ hw.next
  · intro i x hx ha
    rcases (hlive i x ha).mp hx with ⟨rfl, rfl⟩ | ⟨hi, hx⟩
    · rcases hs' with ⟨hst, rfl⟩ | ⟨-, hst, -⟩
      · exact hw.active k.id tx hl (hst ▸ ha)
      · exact absurd ha hst
    · have hin := hw.active i x hx ha
      rcases hs' with ⟨-, rfl⟩ | ⟨hst, -⟩
      · exact hin
      · exact absurd (Option.some.inj (hin.symm.trans (hw.active k.id tx hl hst))) hi
  · intro ho i hi
    rw [hconn] at ho
    rcases hs' with ⟨hst, rfl⟩ | ⟨-, -, -, hn | ⟨-, hc⟩⟩
    · obtain ⟨x, hx, ha⟩ := hw.inside (he.opened ho) i hi
      rcases Decidable.em (i = k.id) with rfl | hne
      · cases hl.symm.trans hx
        exact ⟨k.tx, (hlive _ _ (hst ▸ ha)).mpr (.inl ⟨rfl, rfl⟩), hst ▸ ha⟩
      · exact ⟨x, (hlive i x ha).mpr (.inr ⟨hne, hx⟩), ha⟩
    · cases hn.symm.trans hi
    · cases hc.symm.trans ho

/-- When a `BEGIN` goes out, no object is active. -/
lemma no_active {w : World} {kind : Kind} (hreg : Registration w)
    (hk : kind = .plain → w.conn.trans = none)
    (hsafe : ∀ i tx, w.Live i tx → tx.status = .active → kind = .plain ∧ tx.kind = .plain) :
    ∀ i tx, w.Live i tx → tx.status ≠ .active := by
  intro i tx hl ha
  obtain ⟨h1, h2⟩ := hsafe i tx hl ha
  have hr : tx.registered = true := (hreg.active i tx hl ha).mpr h2
  cases (hk h1).symm.trans ((hreg.trans i).mpr ⟨tx, hl, hr⟩)

/-- A constructor that sends `BEGIN` while no object is active. -/
lemma served_construct {c : Conn} {txs : List (Option Tx)} {t : Option Tx} {es : List Entry}
    {s s' : Server} {o : Bool} {trans : Option ℕ} (hlog : run serve {} c.log = some s)
    (hno : ∀ i tx, (World.mk c txs).Live i tx → tx.status ≠ .active)
    (hrun : run serve s es = some s') (hnext : s'.next = txs.length + 1)
    (ht : ∀ tx, t = some tx → tx.status = .active → s'.inside = some txs.length)
    (hin : o = true → ∀ i, s'.inside = some i →
      i = txs.length ∧ ∃ tx, t = some tx ∧ tx.status = .active) :
    Served ⟨⟨o, trans, c.log ++ es⟩, txs ++ [t]⟩ s' where
  log := by rw [run_append, hlog]; exact hrun
  next := by simp [hnext]
  active i tx hl ha := by
    rcases live_append.mp hl with hl | ⟨rfl, h⟩
    · exact absurd ha (hno i tx hl)
    · exact ht tx h ha
  inside ho i hi := by
    obtain ⟨rfl, tx, h, ha⟩ := hin ho i hi
    exact ⟨tx, live_append.mpr (.inr ⟨rfl, h⟩), ha⟩

lemma served_step {w w' : World} {e : Event} {s : Server} (hreg : Registration w)
    (hw : Served w s) (hsafe : Safe w e) (h : step w e = some w') : ∃ s', Served w' s' := by
  rcases step_cases (t := true) h (fun _ => hsafe) with
    ⟨kind, name, xid, pid, b, rfl, hc⟩ | ⟨tx, k, es, hl, he, rfl⟩ |
    ⟨tx, k, es, hl, he, rfl, hs, hr⟩ | rfl
  · -- the objects of before are as they were
    have hnone : w.conn.isOpen = true → (kind = .plain → w.conn.trans = none) →
        s.inside = none ∧ ∀ i tx, w.Live i tx → tx.status ≠ .active := by
      intro ho hk
      have hno := no_active hreg hk hsafe.1
      refine ⟨?_, hno⟩
      cases hi : s.inside with
      | none => rfl
      | some i =>
        obtain ⟨tx, hl, ha⟩ := hw.inside ho i hi
        exact absurd ha (hno i tx hl)
    have hnext := hw.next
    obtain ⟨c, txs⟩ := w
    obtain ⟨next, inside⟩ := s
    cases hc with
    | nothing =>
      refine ⟨_, hw.log, Nat.le_trans hnext (by simp), fun i tx hl ha => ?_, fun ho i hi => ?_⟩
      · rcases live_append.mp hl with hl | ⟨-, h⟩
        · exact hw.active i tx hl ha
        · cases h
      · obtain ⟨tx, hl, ha⟩ := hw.inside ho i hi
        exact ⟨tx, live_append.mpr (.inl hl), ha⟩
    | refused ho hk =>
      obtain ⟨rfl, hno⟩ := hnone ho hk
      exact ⟨⟨txs.length + 1, none⟩, served_construct hw.log hno
        (by simp only [run, serve]; simp [hnext]) rfl (by simp) (by simp)⟩
    | begun ho htr h1 h2 h3 =>
      obtain ⟨rfl, hno⟩ := hnone ho fun _ => htr
      refine ⟨⟨txs.length + 1, some txs.length⟩, served_construct hw.log hno
        (by simp only [run, serve]; simp [hnext]) rfl (fun _ _ _ => rfl) fun _ i hi => ?_⟩
      cases hi
      exact ⟨rfl, _, rfl, h2⟩
    | begunRobust ho hk h1 h2 h3 =>
      obtain ⟨rfl, hno⟩ := hnone ho (by simp [hk])
      refine ⟨⟨txs.length + 1, some txs.length⟩, served_construct hw.log hno
        (by simp only [run, serve]; simp [hnext, txidQuery]) rfl (fun _ _ _ => rfl)
        fun _ i hi => ?_⟩
      cases hi
      exact ⟨rfl, _, rfl, h2⟩
    | unnumbered ho hk htr =>
      obtain ⟨rfl, hno⟩ := hnone ho (by simp [hk])
      exact ⟨⟨txs.length + 1, some txs.length⟩, served_construct hw.log hno
        (by simp only [run, serve]; simp [hnext, txidQuery]) rfl (by simp) (by simp [htr rfl])⟩
  · exact hw.effect hl he rfl (by simp [World.set]) fun i x _ => live_set hl
  · refine hw.effect hl he rfl (by simp [World.gone]) fun i x ha => live_gone.trans ?_
    constructor
    · exact .inr
    · rintro (⟨-, rfl⟩ | h)
      · exact absurd ha hs
      · exact h
  · exact ⟨s, hw.log, hw.next, hw.active, by simp⟩

lemma run_served {w : World} {es : List Event} (hsafe : Along step Safe {} es)
    (hrun : run step {} es = some w) : Registration w ∧ ∃ s, Served w s := by
  refine run_inv_along (I := fun w => Registration w ∧ ∃ s, Served w s) ?_
    ⟨registration_init, _, served_init⟩ hsafe hrun
  rintro w e w' ⟨hreg, s, hw⟩ hs h
  exact ⟨registration_step hreg h, served_step hreg hw hs h⟩

/-- **Every command goes out at its place.** In a run of safe calls over one connection, the
commands of all the objects put together serve as one transaction after another, and an
active object is the one whose transaction is open. -/
theorem commands_at_their_places {w : World} {es : List Event}
    (hsafe : Along step Safe {} es) (hrun : run step {} es = some w) :
    ∃ s, run serve {} w.conn.log = some s ∧
      (∀ i tx, w.Live i tx → tx.status = .active → s.inside = some i) ∧
      (w.conn.isOpen = true → ∀ i, s.inside = some i →
        ∃ tx, w.Live i tx ∧ tx.status = .active) := by
  obtain ⟨-, s, hw⟩ := run_served hsafe hrun
  exact ⟨s, hw.log, hw.active, hw.inside⟩

theorem commands_at_their_places_twice : ∃ w, run step {}
    [.construct .plain "a" "" 0 accepting, .exec 0 "q" "" accepting, .commit 0 accepting,
      .construct .robust "b" "7" 12 accepting, .registerPendingError 1 "bad",
      .destroy 1 accepting] = some w ∧
    ∃ s, run serve {} w.conn.log = some s ∧
      (∀ i tx, w.Live i tx → tx.status = .active → s.inside = some i) ∧
      (w.conn.isOpen = true → ∀ i, s.inside = some i →
        ∃ tx, w.Live i tx ∧ tx.status = .active) :=
  ⟨_, (Option.some_get (by decide +kernel)).symm,
    commands_at_their_places (by decide +kernel) (Option.some_get (by decide +kernel)).symm⟩

lemma construct_sends (name xid : String) (pid : Int) (b : Backend) {w : World}
    (ho : w.conn.isOpen = true) (ht : w.conn.trans = none) : ∃ ok,
    (construct .plain name xid pid b w).2.conn.log =
      w.conn.log ++ [⟨w.txs.length, .beginCmd, ok⟩] := by
  obtain ⟨⟨o, trans, log⟩, txs⟩ := w
  obtain rfl : o = true := ho
  obtain rfl : trans = none := ht
  simp only [construct, Work.registerTransaction]
  rw [Work.directExec_open rfl rfl]
  cases b.reply .beginCmd
  · exact ⟨true, rfl⟩
  · exact ⟨false, rfl⟩

/-- **An abort that meets a pending error leaves the backend inside.** After a safe run, over
an open connection, such an `abort` sends no `ROLLBACK`: the object counts as aborted while
its transaction is open, and the next constructor's `BEGIN` lands inside it. -/
theorem abort_leaves_open {w w' w'' : World} {es : List Event} {i : ℕ} {tx : Tx}
    {b b' : Backend} {name xid : String} {pid : Int}
    (hsafe : Along step Safe {} es) (hrun : run step {} es = some w)
    (hopen : w.conn.isOpen = true) (hl : w.Live i tx) (ha : tx.status = .active)
    (hk : tx.kind = .plain) (hp : tx.pendingError.isEmpty = false)
    (habort : step w (.abort i b) = some w')
    (hnext : step w' (.construct .plain name xid pid b') = some w'') :
    (∃ tx', w'.Live i tx' ∧ tx'.status = .aborted) ∧
      (∃ s, run serve {} w'.conn.log = some s ∧ s.inside = some i) ∧
      run serve {} w''.conn.log = none := by
  obtain ⟨hreg, s, hw⟩ := run_served hsafe hrun
  have hin := hw.active i tx hl ha
  have hr : tx.registered = true := (hreg.active i tx hl ha).mpr hk
  have hw' : w' = w.set ⟨i, { w.conn with trans := none },
      { tx with pendingError := "", status := .aborted, registered := false }⟩ := by
    have hk' : w.work i = some ⟨i, w.conn, tx⟩ := work_eq_some.mpr ⟨tx, hl, rfl⟩
    have hab := Work.abort_pending (k := ⟨i, w.conn, tx⟩) (b := b) ha hp
    simp only [step, call, hk', Option.map_some, Prod.map_snd, hab, Work.unregister_eq,
      Option.some.injEq] at habort
    rw [← habort]
    simp [World.set, hr]
  have hlog : w'.conn.log = w.conn.log := by rw [hw']; rfl
  have hlive : w'.Live i
      { tx with pendingError := "", status := .aborted, registered := false } := by
    rw [hw']
    exact (live_set (k := ⟨i, _, _⟩) hl).mpr (.inl ⟨rfl, rfl⟩)
  refine ⟨⟨_, hlive, rfl⟩, ⟨s, by rw [hlog]; exact hw.log, hin⟩, ?_⟩
  cases hnext
  have hopen' : w'.conn.isOpen = true := by rw [hw']; exact hopen
  have hnone : w'.conn.trans = none := by rw [hw']; rfl
  obtain ⟨ok, hsent⟩ := construct_sends name xid pid b' hopen' hnone
  rw [hsent, run_append, hlog, hw.log]
  simp [serve, hin]

theorem abort_leaves_open_here : ∃ w w' w'', run step {}
      [.construct .plain "a" "" 0 accepting, .exec 0 "q" "" accepting,
        .registerPendingError 0 "stream failed"] = some w ∧
    step w (.abort 0 accepting) = some w' ∧
    step w' (.construct .plain "b" "" 0 accepting) = some w'' ∧
    (∃ tx', w'.Live 0 tx' ∧ tx'.status = .aborted) ∧
      (∃ s, run serve {} w'.conn.log = some s ∧ s.inside = some 0) ∧
      run serve {} w''.conn.log = none :=
  ⟨_, _, _, (Option.some_get (by decide +kernel)).symm, (Option.some_get (by decide +kernel)).symm,
    (Option.some_get (by decide +kernel)).symm,
    abort_leaves_open (by decide +kernel) (Option.some_get (by decide +kernel)).symm
      (by decide +kernel)
      (show World.Live _ 0 ⟨.plain, "a", "", 0, .active, true, none, "stream failed"⟩ by
        decide +kernel)
      rfl rfl (by decide +kernel) (Option.some_get (by decide +kernel)).symm
      (Option.some_get (by decide +kernel)).symm⟩

end DbCoursework.Transactions

import DbCoursework.TransactionCalls

/-!
What one step does to all the objects on a connection, and which of them is registered.
-/

namespace DbCoursework.Transactions

open DbCoursework.Runs

lemma live_set {w : World} {k : Work} {tx : Tx} (h : w.Live k.id tx) {i : ℕ} {x : Tx} :
    (w.set k).Live i x ↔ i = k.id ∧ x = k.tx ∨ i ≠ k.id ∧ w.Live i x := by
  have hlt : k.id < w.txs.length := (List.getElem?_eq_some_iff.mp h).1
  unfold World.Live World.set
  rcases Decidable.em (i = k.id) with rfl | hi
  · simp [hlt, eq_comm]
  · simp [hi, List.getElem?_set_ne (Ne.symm hi)]

lemma live_gone {w : World} {k : Work} {i : ℕ} {x : Tx} :
    (w.gone k).Live i x ↔ i ≠ k.id ∧ w.Live i x := by
  unfold World.Live World.gone
  rcases Decidable.em (i = k.id) with rfl | hi
  · simp only [ne_eq, not_true_eq_false, false_and, iff_false]
    by_cases h : k.id < w.txs.length <;> simp [h]
  · simp [hi, List.getElem?_set_ne (Ne.symm hi)]

lemma live_append {txs : List (Option Tx)} {c : Conn} {t : Option Tx} {i : ℕ} {x : Tx} :
    (World.mk c (txs ++ [t])).Live i x ↔
      (World.mk c txs).Live i x ∨ i = txs.length ∧ t = some x := by
  unfold World.Live
  rcases Nat.lt_trichotomy i txs.length with h | rfl | h
  · rw [List.getElem?_append_left h]
    simp [Nat.ne_of_lt h]
  · simp
  · have h1 : (txs ++ [t])[i]? = none := List.getElem?_eq_none (by simp; omega)
    have h2 : txs[i]? = none := List.getElem?_eq_none (Nat.le_of_lt h)
    simp only [h1, h2]
    simp; omega

lemma work_eq_some {w : World} {i : ℕ} {k : Work} :
    w.work i = some k ↔ ∃ tx, w.Live i tx ∧ k = ⟨i, w.conn, tx⟩ := by
  unfold World.work World.Live
  split
  case h_1 tx h => simp [h, eq_comm]
  case h_2 h =>
    constructor
    · intro h'
      cases h'
    · rintro ⟨tx, h1, -⟩
      exact absurd h1 (h tx)

/-- What keeps the commands of different transactions apart: an `abort` does not meet a
pending error, no parameterised query is put to a transaction that has ended, and a robust
transaction, which does not register, neither begins nor is begun into while another one is
active, nor loses its `BEGIN` to a failed query for its number. -/
def Safe (w : World) : Event → Prop
  | .construct kind _ _ _ b =>
    (∀ i tx, w.Live i tx → tx.status = .active → kind = .plain ∧ tx.kind = .plain) ∧
    (kind = .robust → b.reply .beginCmd = .ok → (b.reply txidQuery).stillOpen = true →
      b.reply txidQuery = .ok)
  | .execParams i _ _ => ∀ tx, w.Live i tx → tx.status = .active
  | .abort i _ => ∀ tx, w.Live i tx → tx.status = .active → tx.pendingError.isEmpty = true
  | _ => True

instance {w : World} {i : ℕ} {P : Tx → Prop} [DecidablePred P] :
    Decidable (∀ tx, w.Live i tx → P tx) :=
  match h : w.txs[i]? with
  | some (some tx) => decidable_of_iff (P tx) (by simp [World.Live, h])
  | some none => isTrue (by simp [World.Live, h])
  | none => isTrue (by simp [World.Live, h])

instance {w : World} {P : Tx → Prop} [DecidablePred P] : Decidable (∀ i tx, w.Live i tx → P tx) :=
  decidable_of_iff (∀ i < w.txs.length, ∀ tx, w.Live i tx → P tx)
    ⟨fun h i tx hl => h i (List.getElem?_eq_some_iff.mp hl).1 tx hl, fun h i _ tx hl => h i tx hl⟩

instance (w : World) : ∀ e, Decidable (Safe w e)
  | .construct _ _ _ _ _ => inferInstanceAs (Decidable (_ ∧ _))
  | .execParams i _ _ => inferInstanceAs (Decidable (∀ tx, w.Live i tx → _))
  | .abort i _ => inferInstanceAs (Decidable (∀ tx, w.Live i tx → _))
  | .exec .. | .commit .. | .destroy .. | .registerFocus .. | .unregisterFocus ..
  | .registerPendingError .. | .disconnect => isTrue trivial

/-- What a constructor does. -/
inductive Constructed (t : Bool) (kind : Kind) (w : World) : World → Prop
  | nothing : Constructed t kind w ⟨w.conn, w.txs ++ [none]⟩
  | refused {o} (ho : w.conn.isOpen = true) (hk : kind = .plain → w.conn.trans = none) :
      Constructed t kind w
      ⟨{ w.conn with log := w.conn.log ++ [⟨w.txs.length, .beginCmd, false⟩], isOpen := o },
        w.txs ++ [none]⟩
  | begun {tx} (ho : w.conn.isOpen = true) (ht : w.conn.trans = none) (h1 : tx.kind = .plain)
      (h2 : tx.status = .active) (h3 : tx.registered = true) : Constructed t kind w
      ⟨{ w.conn with
          log := w.conn.log ++ [⟨w.txs.length, .beginCmd, true⟩]
          trans := some w.txs.length }, w.txs ++ [some tx]⟩
  | begunRobust {tx} (ho : w.conn.isOpen = true) (hk : kind = .robust) (h1 : tx.kind = .robust)
      (h2 : tx.status = .active) (h3 : tx.registered = false) : Constructed t kind w
      ⟨{ w.conn with log := w.conn.log ++
          [⟨w.txs.length, .beginCmd, true⟩, ⟨w.txs.length, txidQuery, true⟩] },
        w.txs ++ [some tx]⟩
  | unnumbered {o} (ho : w.conn.isOpen = true) (hk : kind = .robust)
      (ht : t = true → o = false) : Constructed t kind w
      ⟨{ w.conn with
          log := w.conn.log ++
            [⟨w.txs.length, .beginCmd, true⟩, ⟨w.txs.length, txidQuery, false⟩]
          isOpen := o }, w.txs ++ [none]⟩

lemma constructed {t : Bool} {kind : Kind} {name xid : String} {pid : Int} {b : Backend}
    {w : World} (ht : t = true → kind = .robust → b.reply .beginCmd = .ok →
      (b.reply txidQuery).stillOpen = true → b.reply txidQuery = .ok) :
    Constructed t kind w (construct kind name xid pid b w).2 := by
  obtain ⟨⟨o, trans, log⟩, txs⟩ := w
  cases kind
  case plain =>
    cases trans with
    | some j => exact .nothing
    | none =>
      cases o
      case false => exact .nothing
      cases hb : b.reply .beginCmd with
      | ok =>
        simp only [construct, Work.registerTransaction]
        rw [Work.directExec_open rfl rfl, hb]
        exact .begun rfl rfl rfl rfl rfl
      | failed e o' =>
        simp only [construct, Work.registerTransaction]
        rw [Work.directExec_open rfl rfl, hb]
        exact .refused rfl (by simp)
  case robust =>
    cases o
    case false => exact .nothing
    cases hb : b.reply .beginCmd with
    | failed e o' =>
      simp only [construct]
      rw [Work.directExec_open rfl rfl, hb]
      exact .refused rfl (by simp)
    | ok =>
      simp only [construct]
      rw [Work.directExec_open rfl rfl, hb]
      simp only [Reply.error, Reply.stillOpen]
      rw [Work.directExec_open rfl rfl, Work.sent_sent]
      cases hx : b.reply txidQuery with
      | ok => exact .begunRobust rfl rfl rfl rfl rfl
      | failed e o' =>
        refine .unnumbered rfl rfl fun h => ?_
        cases o'
        · rfl
        · have := ht h rfl hb (by rw [hx]; rfl)
          simp [hx] at this

/-- **What a step does.** It makes an object, acts on one that is there, ends one, or loses
the connection. -/
theorem step_cases {t : Bool} {w w' : World} {e : Event} (h : step w e = some w')
    (ht : t = true → Safe w e) :
    (∃ kind name xid pid b, e = .construct kind name xid pid b ∧ Constructed t kind w w') ∨
    (∃ tx k es, w.Live k.id tx ∧ Effect t ⟨k.id, w.conn, tx⟩ k es ∧ w' = w.set k) ∨
    (∃ tx k es, w.Live k.id tx ∧ Effect t ⟨k.id, w.conn, tx⟩ k es ∧ w' = w.gone k ∧
      k.tx.status ≠ .active ∧ k.tx.registered = false) ∨
    w' = { w with conn := { w.conn with isOpen := false } } := by
  -- a call on an object, by what it returns
  have hcall : ∀ {i : ℕ} {f : Work → Option Error × Work},
      ((w.work i).map fun k => (f k).map id w.set).map Prod.snd = some w' →
      (∀ tx, w.Live i tx → ∃ es, Effect t ⟨i, w.conn, tx⟩ (f ⟨i, w.conn, tx⟩).2 es) →
      ∃ tx k es, w.Live k.id tx ∧ Effect t ⟨k.id, w.conn, tx⟩ k es ∧ w' = w.set k := by
    intro i f h hf
    simp only [Option.map_map, Option.map_eq_some_iff, work_eq_some] at h
    obtain ⟨_, ⟨tx, hl, rfl⟩, rfl⟩ := h
    obtain ⟨es, he⟩ := hf tx hl
    have hid : (f ⟨i, w.conn, tx⟩).2.id = i := he.id
    exact ⟨tx, _, es, by rw [hid]; exact hl, by rw [hid]; exact he, rfl⟩
  cases e with
  | construct kind name xid pid b =>
    cases h
    exact .inl ⟨kind, name, xid, pid, b, rfl, constructed fun h => (ht h).2⟩
  | exec i q d b =>
    exact .inr (.inl (hcall h fun tx hl => Work.exec_effect.imp fun _ he => he.any))
  | execParams i q b =>
    exact .inr (.inl (hcall h fun tx hl => Work.execParams_effect fun h => ht h tx hl))
  | commit i b =>
    exact .inr (.inl (hcall h fun tx hl => Work.commit_effect.imp fun _ he => he.any))
  | abort i b =>
    refine .inr (.inl (hcall h fun tx hl => ?_))
    cases t
    · exact Work.abort_effect_any
    · exact Work.abort_effect (ht rfl tx hl)
  | destroy i b =>
    simp only [step, call, Option.map_map, Option.map_eq_some_iff, work_eq_some] at h
    obtain ⟨_, ⟨tx, hl, rfl⟩, rfl⟩ := h
    obtain ⟨es, he, hs, hr⟩ := Work.close_effect (k := ⟨i, w.conn, tx⟩) (b := b)
    have hid : (Work.close b ⟨i, w.conn, tx⟩).id = i := he.id
    exact .inr (.inr (.inl ⟨tx, _, es, by rw [hid]; exact hl, by rw [hid]; exact he.any, rfl,
      hs, hr⟩))
  | registerFocus i f =>
    refine .inr (.inl (hcall h fun tx hl => ⟨[], ?_⟩))
    unfold Work.registerFocus
    split <;> exact Work.stay_effect _ rfl rfl rfl
  | unregisterFocus i f =>
    refine .inr (.inl (hcall (i := i) (f := fun k => (none, k.unregisterFocus f)) ?_
      fun tx hl => ⟨[], ?_⟩))
    · simpa [step, call, Option.map_map] using h
    · simp only [Work.unregisterFocus]
      split <;> exact Work.stay_effect _ rfl rfl rfl
  | registerPendingError i err =>
    refine .inr (.inl (hcall (i := i) (f := fun k => (none, k.registerPendingError err)) ?_
      fun tx hl => ⟨[], ?_⟩))
    · simpa [step, call, Option.map_map] using h
    · simp only [Work.registerPendingError]
      split <;> exact Work.stay_effect _ rfl rfl rfl
  | disconnect => cases h; exact .inr (.inr (.inr rfl))

/-! ### Registration -/

/-- The registered object is the one the connection names, and among the active ones the
plain ones are registered. -/
structure Registration (w : World) : Prop where
  trans : ∀ i, w.conn.trans = some i ↔ ∃ tx, w.Live i tx ∧ tx.registered = true
  active : ∀ i tx, w.Live i tx → tx.status = .active →
    (tx.registered = true ↔ tx.kind = .plain)

/-- No step makes an object active again. -/
lemma Moves.active {kind : Kind} {t o : Bool} {s s' : Status} {es : List (Command × Bool)}
    (h : Moves kind t s es o s') (hs : s' = .active) : s = .active := by
  cases h <;> first | rfl | exact hs

lemma Effect.registered {t : Bool} {k k' : Work} {es : List (Command × Bool)}
    (h : Effect t k k' es) (hs : k'.tx.status = .active) :
    k.tx.status = .active ∧ k'.tx.registered = k.tx.registered := by
  refine ⟨h.moves.active hs, ?_⟩
  rcases h.leaves with ⟨-, h⟩ | ⟨-, -, -, h⟩
  · exact h
  · exact absurd hs h

lemma registration_init : Registration {} where
  trans i := by simp [World.Live]
  active i tx h := by simp [World.Live] at h

lemma Registration.append {c c' : Conn} {txs : List (Option Tx)} {t : Option Tx}
    (hw : Registration ⟨c, txs⟩) (ht : ∀ tx, t = some tx → tx.status = .active →
      (tx.registered = true ↔ tx.kind = .plain))
    (hc : ∀ i, c'.trans = some i ↔
      c.trans = some i ∨ i = txs.length ∧ ∃ tx, t = some tx ∧ tx.registered = true) :
    Registration ⟨c', txs ++ [t]⟩ where
  trans i := by
    have htrans : c.trans = some i ↔ ∃ tx, (World.mk c txs).Live i tx ∧ tx.registered = true :=
      hw.trans i
    simp only [hc, live_append, htrans]
    constructor
    · rintro (⟨tx, hl, hr⟩ | ⟨rfl, tx, rfl, hr⟩)
      · exact ⟨tx, .inl hl, hr⟩
      · exact ⟨tx, .inr ⟨rfl, rfl⟩, hr⟩
    · rintro ⟨tx, hl | ⟨rfl, rfl⟩, hr⟩
      · exact .inl ⟨tx, hl, hr⟩
      · exact .inr ⟨rfl, tx, rfl, hr⟩
  active i tx hl hs := by
    rcases live_append.mp hl with hl | ⟨-, h⟩
    · exact hw.active i tx hl hs
    · exact ht tx h hs

lemma Registration.effect {w : World} {k : Work} {tx : Tx} {t : Bool}
    {es : List (Command × Bool)} (hw : Registration w) (hl : w.Live k.id tx)
    (he : Effect t ⟨k.id, w.conn, tx⟩ k es) (i : ℕ) :
    k.conn.trans = some i ↔ i = k.id ∧ k.tx.registered = true ∨
      i ≠ k.id ∧ ∃ x, w.Live i x ∧ x.registered = true := by
  have hmine : w.conn.trans = some k.id ↔ tx.registered = true := by
    rw [hw.trans]
    constructor
    · rintro ⟨x, hx, hr⟩
      cases hl.symm.trans hx
      exact hr
    · exact fun hr => ⟨tx, hl, hr⟩
  rcases he.leaves with ⟨h1, h2⟩ | ⟨h1, h2, h3, -⟩
  · rw [h1, h2, ← hw.trans]
    rcases Decidable.em (i = k.id) with rfl | hi
    · simp [hmine]
    · simp [hi]
  · simp only [h2, h3]
    constructor
    · intro h
      cases h
    · rintro (⟨-, h⟩ | ⟨hi, h⟩)
      · cases h
      · rw [← hw.trans, hmine.mpr h1] at h
        exact absurd (Option.some.inj h).symm hi

lemma registration_step {w w' : World} {e : Event} (hw : Registration w)
    (h : step w e = some w') : Registration w' := by
  rcases step_cases (t := false) h (by simp) with
    ⟨kind, _, _, _, _, rfl, hc⟩ | ⟨tx, k, es, hl, he, rfl⟩ | ⟨tx, k, es, hl, he, rfl, hs, hr⟩ | rfl
  · obtain ⟨c, txs⟩ := w
    cases hc with
    | nothing => exact hw.append (by simp) (by simp)
    | refused ho hk => exact hw.append (by simp) (by simp)
    | begun ho ht h1 h2 h3 =>
      refine hw.append (fun _ h _ => by cases h; simp [h1, h3]) fun i => ?_
      constructor
      · intro h
        cases h
        exact .inr ⟨rfl, _, rfl, h3⟩
      · rintro (h | ⟨rfl, -⟩)
        · cases ht.symm.trans h
        · rfl
    | begunRobust ho hk h1 h2 h3 =>
      exact hw.append (fun _ h _ => by cases h; simp [h1, h3]) (by simp [h3])
    | unnumbered ho hk ht => exact hw.append (by simp) (by simp)
  · refine ⟨fun i => ?_, fun i x hx hs => ?_⟩
    · refine (hw.effect hl he i).trans ?_
      simp only [live_set hl]
      constructor
      · rintro (⟨rfl, hr⟩ | ⟨hi, x, hx, hr⟩)
        · exact ⟨k.tx, .inl ⟨rfl, rfl⟩, hr⟩
        · exact ⟨x, .inr ⟨hi, hx⟩, hr⟩
      · rintro ⟨x, ⟨rfl, rfl⟩ | ⟨hi, hx⟩, hr⟩
        · exact .inl ⟨rfl, hr⟩
        · exact .inr ⟨hi, x, hx, hr⟩
    · rcases (live_set hl).mp hx with ⟨rfl, rfl⟩ | ⟨-, hx⟩
      · obtain ⟨h1, h2⟩ := he.registered hs
        rw [h2, he.kind]
        exact hw.active k.id tx hl h1
      · exact hw.active i x hx hs
  · refine ⟨fun i => ?_, fun i x hx hs => hw.active i x (live_gone.mp hx).2 hs⟩
    refine (hw.effect hl he i).trans ?_
    simp [live_gone, hr, and_assoc, exists_and_left]
  · exact ⟨hw.trans, hw.active⟩

end DbCoursework.Transactions

import DbCoursework.RowIdentity

/-!
The server a `Save` writes to.

The entry that `Edit` loaded is kept nowhere: `Save` looks its target up again, from the
row that is current then. A row click ends the edit, since it hides `Save`. `Remove` and a
change of the current row without a click do not, and then `Save` may hit another entry.
-/

namespace DbCoursework.EditSession

open DbCoursework.ItemView DbCoursework.ListEdit DbCoursework.Runs DbCoursework.ServerManager
open DbCoursework.SettingsDialog DbCoursework.ServerEdits DbCoursework.RowLookup
open DbCoursework.RowIdentity DbCoursework.FormButtons

/-- What may come between a click on `Edit` and the next click on `Save`. -/
def interim : Event → Bool
  | .clickAdd | .clickSave | .clickEdit => false
  | _ => true

/-- The interim events other than `Remove` and a change of row without a click. -/
def quiet : Event → Bool
  | .typing _ _ | .clickClear | .clickRow _ => true
  | _ => false

/-- In a reachable state `s` a click on `Edit` loads entry `i`, and the interim events `es`
lead from there to a state `t` in which `Save` can be clicked. -/
structure Session (servers : List Server) (es₀ es : List Event) (s t : State)
    (i : Fin s.servers.length) : Prop where
  reach : run (construct servers) es₀ = some s
  edit : s.editServerBtn.clickable = true
  loads : lookup s = some i
  interim : ∀ e ∈ es, interim e = true
  run : run s.fillInputFields es = some t
  save : t.form.saveServerBtn.clickable = true

/-- Entry `j` is the first one that shows the text of the current row. -/
def ShownFirst (s : State) (j : Fin s.servers.length) : Prop :=
  constructServerListString (s.servers.get j) = s.currentText ∧
    ∀ k : Fin s.servers.length, k < j → constructServerListString (s.servers.get k) ≠ s.currentText

/-- The tags of the server list that mark entry `i`. -/
def mark (s : State) (i : ℕ) : List Bool := (List.range s.servers.length).map fun j => j == i

/-- The marks after the interim events: the loaded entry is the marked one, if it is left. -/
def marksAt (s : State) (i : ℕ) (es : List Event) : List Bool :=
  tagsAfter false s.fillInputFields es (mark s i)

/-- A list changes only in marked entries. -/
def OnlyMarked (marks : List Bool) (old new : List Server) : Prop :=
  new.length = old.length ∧ ∀ j : ℕ, marks[j]? = some false → new[j]? = old[j]?

lemma onlyMarked_set {marks : List Bool} {l : List Server} (hlen : marks.length = l.length)
    {j : ℕ} (hj : j < l.length) (srv : Server) :
    OnlyMarked marks l (l.set j srv) ↔ marks[j]? = some true ∨ l[j]? = some srv := by
  have hmark : j < marks.length := by omega
  constructor
  · rintro ⟨-, h⟩
    rcases hm : marks[j] with _ | _
    · have hkeep := h j (by rw [List.getElem?_eq_getElem hmark, hm])
      rw [List.getElem?_set_self hj] at hkeep
      exact Or.inr hkeep.symm
    · exact Or.inl (by rw [List.getElem?_eq_getElem hmark, hm])
  · intro h
    refine ⟨List.length_set, fun m hm => ?_⟩
    by_cases hmj : m = j
    · subst hmj
      rcases h with htrue | hsame
      · rw [htrue] at hm
        cases hm
      · rw [List.getElem?_set_self hj, hsame]
    · exact List.getElem?_set_ne (Ne.symm hmj)

lemma onlyMarked_refl (marks : List Bool) (l : List Server) : OnlyMarked marks l l :=
  ⟨rfl, fun _ _ => rfl⟩

variable {servers : List Server} {es₀ es : List Event} {s t : State} {i : Fin s.servers.length}

lemma Session.length_marks (h : Session servers es₀ es s t i) :
    (marksAt s i es).length = t.servers.length := by
  refine length_tagsAfter ?_ h.run
  rw [mark, List.length_map, List.length_range, fillInputFields_servers]

/-! ### Sessions that stay with their entry -/

/-- The quiet events, and a change to no row at all. -/
def harmless : Event → Bool
  | .currentChanged none => true
  | e => quiet e

lemma harmless_of_quiet {e : Event} (h : quiet e = true) : harmless e = true := by
  cases e with
  | currentChanged r => cases h
  | _ => exact h

/-- A harmless event leaves the list alone; unless it hides `Save`, the view moves to no row
at most. -/
lemma step_harmless {u u' : State} {e : Event} (he : harmless e = true)
    (hs : step u e = some u') :
    SettingsDialog.State.servers u' = u.servers ∧ ServerEdits.edit u e = .keep ∧
      (u'.form.saveServerBtn.visible = true → u.form.saveServerBtn.visible = true ∧
        (u'.itemModel.currentRow = none ∨ u'.itemModel = u.itemModel)) := by
  cases taken_of_step hs with
  | ignored e hi => exact ⟨rfl, edit_of_not_reaches hi, fun hv => ⟨hv, .inr rfl⟩⟩
  | typing x txt => exact ⟨rfl, rfl, fun hv => ⟨by simpa using hv, .inr rfl⟩⟩
  | clear hc => exact ⟨rfl, rfl, fun hv => ⟨by simpa [Form.clearInputFields] using hv, .inr rfl⟩⟩
  | row k hk =>
    refine ⟨rfl, rfl, fun hv => ?_⟩
    simp [State.enableEditAndRemoveButtons, State.showAdd, Button.setVisible] at hv
  | current r =>
    cases r with
    | none => exact ⟨rfl, rfl, fun hv => ⟨hv, .inl (by simp [View.setCurrent])⟩⟩
    | some k => cases he
  | _ => cases he

lemma run_harmless {u t : State} {es : List Event} (hes : ∀ e ∈ es, harmless e = true)
    (hrun : run u es = some t) (ts : List Bool) :
    t.servers = u.servers ∧ tagsAfter false u es ts = ts ∧
      (t.form.saveServerBtn.visible = true → u.form.saveServerBtn.visible = true ∧
        (t.itemModel.currentRow = none ∨ t.itemModel = u.itemModel)) := by
  induction es generalizing u with
  | nil => cases hrun; exact ⟨rfl, rfl, fun hv => ⟨hv, .inr rfl⟩⟩
  | cons e es ih =>
    obtain ⟨u', hs, hr⟩ := (run_cons_eq_some step).mp hrun
    obtain ⟨h1, h2, h3⟩ := step_harmless (hes e (by simp)) hs
    obtain ⟨h4, h5, h6⟩ := ih (fun f hf => hes f (by simp [hf])) hr
    refine ⟨h4.trans h1, ?_, fun hv => ?_⟩
    · rw [tagsAfter, hs, Option.elim_some, h2]
      exact h5
    · obtain ⟨hv', hm⟩ := h6 hv
      obtain ⟨hv'', hm'⟩ := h3 hv'
      refine ⟨hv'', ?_⟩
      rcases hm with hm | hm
      · exact .inl hm
      · rwa [hm]

/-- If `Save` can still be clicked after harmless events, it finds the loaded entry or none. -/
lemma Session.lookup_of_harmless (h : Session servers es₀ es s t i)
    (hes : ∀ e ∈ es, harmless e = true) :
    (∀ j, lookup t = some j → (j : ℕ) = i) ∧ marksAt s i es = mark s i := by
  obtain ⟨hsrv, hmarks, hview⟩ := run_harmless hes h.run (mark s i)
  have hvis : t.form.saveServerBtn.visible = true := by
    have := h.save
    simp only [Button.clickable, Bool.and_eq_true] at this
    exact this.2
  refine ⟨fun j hj => ?_, hmarks⟩
  rcases (hview hvis).2 with hnone | hm
  · rw [lookup_of_none hnone] at hj
    cases hj
  · have hfound := lookup_congr (hsrv.trans (fillInputFields_servers s))
      (hm.trans (fillInputFields_itemModel s))
    rw [hj, h.loads] at hfound
    exact Option.some.inj hfound

/-! ### What `Save` may change -/

lemma Session.onlyMarked_iff (h : Session servers es₀ es s t i) :
    OnlyMarked (marksAt s i es) t.servers t.saveServerEdit.servers ↔
      ∀ j, lookup t = some j →
        (marksAt s i es)[(j : ℕ)]? = some true ∨ t.servers.get j = t.form.server := by
  rw [saveServerEdit_servers]
  rcases hl : lookup t with _ | j
  · simp [Edit.apply, onlyMarked_refl]
  · rw [Option.elim_some, Edit.apply, onlyMarked_set h.length_marks j.isLt]
    simp

lemma Session.onlyMarked_of_harmless (h : Session servers es₀ es s t i)
    (hes : ∀ e ∈ es, harmless e = true) :
    OnlyMarked (marksAt s i es) t.servers t.saveServerEdit.servers := by
  obtain ⟨hfound, hmarks⟩ := h.lookup_of_harmless hes
  refine h.onlyMarked_iff.mpr fun j hj => .inl ?_
  rw [hmarks, hfound j hj, mark]
  simp

/-- **`Save` changes the loaded entry only**, exactly when the first entry that shows the
text of the current row is the loaded one, or already is what `Save` writes, or does not
exist. In a session without `Remove` and without a change of row other than by a click
this is so. -/
theorem save_changes_loaded_iff (servers : List Server) (es₀ es : List Event) (s t : State)
    (i : Fin s.servers.length) (h : Session servers es₀ es s t i) :
    (OnlyMarked (marksAt s i es) t.servers t.saveServerEdit.servers ↔
      ∀ j, ShownFirst t j →
        (marksAt s i es)[(j : ℕ)]? = some true ∨ t.servers.get j = t.form.server) ∧
      ((∀ e ∈ es, quiet e = true) →
        OnlyMarked (marksAt s i es) t.servers t.saveServerEdit.servers) := by
  have hshown : ∀ j, lookup t = some j ↔ ShownFirst t j := fun j => getServerFromString_eq_some
  refine ⟨?_, fun hq => h.onlyMarked_of_harmless fun e he => harmless_of_quiet (hq e he)⟩
  simp only [← hshown]
  exact h.onlyMarked_iff

/-- Two servers, the first of them current. -/
def firstCurrent : State :=
  (run (construct [⟨"a", "1", "d", "u", "p"⟩, ⟨"b", "1", "d", "u", "p"⟩]) [.clickRow 0]).get
    (by decide)

theorem save_after_new_port :
    OnlyMarked (marksAt firstCurrent 0 [.typing .port "2"])
      ((run firstCurrent.fillInputFields [.typing .port "2"]).get (by decide)).servers
      ((run firstCurrent.fillInputFields [.typing .port "2"]).get
        (by decide)).saveServerEdit.servers :=
  (save_changes_loaded_iff _ [.clickRow 0] _ firstCurrent _ ⟨0, by decide⟩
    ⟨(Option.some_get _).symm, by decide, by decide, by decide, (Option.some_get _).symm,
      by decide⟩).2 (by decide)

/-- The first server is loaded, the keyboard moves to the second row, and the second server
is overwritten. -/
theorem save_overwrites_other : ¬ ∀ servers es₀ es s t i, Session servers es₀ es s t i →
    OnlyMarked (marksAt s i es) t.servers t.saveServerEdit.servers := by
  intro h
  have hsession : Session [⟨"a", "1", "d", "u", "p"⟩, ⟨"b", "1", "d", "u", "p"⟩] [.clickRow 0]
      [.currentChanged (some 1)] firstCurrent
      ((run firstCurrent.fillInputFields [.currentChanged (some 1)]).get (by decide))
      ⟨0, by decide⟩ :=
    ⟨(Option.some_get _).symm, by decide, by decide, by decide, (Option.some_get _).symm,
      by decide⟩
  have hkept := (h _ _ _ _ _ _ hsession).2 1 (by decide)
  revert hkept
  decide

/-! ### The events that leave the entry -/

lemma remove_leaves (p : Neighbour) : ∃ servers es₀ s t i,
    Session servers es₀ [.clickRemove p] s t i ∧
      ¬ OnlyMarked (marksAt s i [.clickRemove p]) t.servers t.saveServerEdit.servers := by
  refine ⟨[⟨"a", "1", "d", "u", "p"⟩, ⟨"b", "1", "d", "u", "p"⟩], [.clickRow 0], firstCurrent,
    (run firstCurrent.fillInputFields [.clickRemove p]).get (by cases p <;> decide), ⟨0, by decide⟩,
    ⟨(Option.some_get _).symm, by decide, by decide, by simp [interim], (Option.some_get _).symm,
      by cases p <;> decide⟩, fun h => ?_⟩
  -- The row below is current now, and its server gets the texts of the one removed.
  have hkept := h.2 0 (by cases p <;> decide)
  revert hkept
  cases p <;> decide

section Leaving

def hostServer (h : String) : Server := ⟨h, "1", "d", "u", "p"⟩

/-- Servers whose rows `k` and `k + 1` are the first with their texts. -/
def twoApart (k : ℕ) : List Server :=
  List.replicate k (hostServer "a") ++ [hostServer "b", hostServer "c"]

variable (k : ℕ)

lemma twoApart_lt {j : ℕ} (hj : j < k) : (twoApart k)[j]? = some (hostServer "a") := by
  rw [twoApart, List.getElem?_append_left (by simpa using hj)]
  simp [hj]

lemma twoApart_at : (twoApart k)[k]? = some (hostServer "b") := by
  rw [twoApart, List.getElem?_append_right (by simp)]
  simp

lemma twoApart_succ : (twoApart k)[k + 1]? = some (hostServer "c") := by
  rw [twoApart, List.getElem?_append_right (by simp)]
  simp

lemma twoApart_complete : ∀ srv ∈ twoApart k, srv.Complete := by
  intro srv hsrv
  rw [twoApart, List.mem_append, List.mem_replicate] at hsrv
  simp only [List.mem_cons, List.not_mem_nil, or_false] at hsrv
  rcases hsrv with ⟨-, rfl⟩ | rfl | rfl <;> decide

lemma firstShown_at {s : State} (ha : Aligned s) (hs : s.servers = twoApart k) :
    FirstShown s k := by
  intro j hj
  rw [ha, hs, List.getElem?_map, List.getElem?_map, twoApart_lt k hj, twoApart_at]
  decide

lemma firstShown_succ {s : State} (ha : Aligned s) (hs : s.servers = twoApart k) :
    FirstShown s (k + 1) := by
  intro j hj
  rw [ha, hs, List.getElem?_map, List.getElem?_map, twoApart_succ]
  rcases Nat.lt_succ_iff_lt_or_eq.mp hj with hj | rfl
  · rw [twoApart_lt k hj]
    decide
  · rw [twoApart_at]
    decide

/-- The dialog with row `k + 1` clicked. -/
def clicked : State :=
  State.enableEditAndRemoveButtons
    { construct (twoApart k) with
      itemModel := (construct (twoApart k)).itemModel.setCurrent (some (k + 1)) }

/-- `Edit` has been clicked there, and row `k` made current. -/
def movedOn : State :=
  { (clicked k).fillInputFields with
    itemModel := (clicked k).fillInputFields.itemModel.setCurrent (some k) }

lemma construct_rows : (construct (twoApart k)).itemModel.rows.length = k + 2 := by
  have hrows : Aligned (construct (twoApart k)) := fillServerList_aligned _
  rw [hrows, List.length_map]
  show (twoApart k).length = k + 2
  simp [twoApart]

lemma run_clicked : run (construct (twoApart k)) [.clickRow (k + 1)] = some (clicked k) := by
  have hlt : k + 1 < (construct (twoApart k)).itemModel.rows.length := by
    rw [construct_rows]
    omega
  have hstep : step (construct (twoApart k)) (.clickRow (k + 1)) = some (clicked k) :=
    congrArg some (if_pos hlt)
  exact (run_cons_eq_some step).mpr ⟨_, hstep, rfl⟩

lemma clicked_current : (clicked k).itemModel.currentRow = some (k + 1) :=
  View.setCurrent_currentRow (by rw [construct_rows]; omega)

lemma clicked_aligned : Aligned (clicked k) :=
  (View.setCurrent_rows _ _).trans (fillServerList_aligned _)

lemma movedOn_servers : (movedOn k).servers = twoApart k := fillInputFields_servers (clicked k)

lemma movedOn_aligned : Aligned (movedOn k) := by
  refine (View.setCurrent_rows _ _).trans ?_
  rw [fillInputFields_itemModel, movedOn_servers]
  exact clicked_aligned k

lemma movedOn_current : (movedOn k).itemModel.currentRow = some k := by
  refine View.setCurrent_currentRow ?_
  rw [fillInputFields_itemModel, clicked_aligned k, List.length_map]
  show k < (twoApart k).length
  simp [twoApart]

lemma currentChanged_leaves : ∃ servers es₀ s t i,
    Session servers es₀ [.currentChanged (some k)] s t i ∧
      ¬ OnlyMarked (marksAt s i [.currentChanged (some k)]) t.servers
        t.saveServerEdit.servers := by
  obtain ⟨i, hi, hik⟩ := lookup_of_aligned (clicked_aligned k) (clicked_current k)
  have hik : (i : ℕ) = k + 1 := hik.mpr (firstShown_succ k (clicked_aligned k) rfl)
  obtain ⟨j, hj, hjk⟩ := lookup_of_aligned (movedOn_aligned k) (movedOn_current k)
  have hjk : (j : ℕ) = k := hjk.mpr (firstShown_at k (movedOn_aligned k) (movedOn_servers k))
  have hform : (movedOn k).form.server = (clicked k).servers.get i := edit_loads hi
  have hvisible : (movedOn k).form.saveServerBtn.visible = true := by
    show (clicked k).fillInputFields.form.saveServerBtn.visible = true
    rw [fillInputFields_form, hi]
    simp [Form.load, State.startEdit, Button.setVisible]
  have henabled : (movedOn k).form.saveServerBtn.enabled = true := by
    refine (fillInputFields_agrees (run_agrees (run_clicked k))).save.mpr ?_
    rw [full_iff_complete]
    exact hform ▸ twoApart_complete k _ (List.get_mem _ _)
  have hsession : Session (twoApart k) [.clickRow (k + 1)] [.currentChanged (some k)] (clicked k)
      (movedOn k) i :=
    ⟨run_clicked k, rfl, hi, by simp [EditSession.interim], rfl, by
      rw [Button.clickable, henabled, hvisible]
      rfl⟩
  refine ⟨_, _, _, _, i, hsession, fun h => ?_⟩
  have hb : (movedOn k).servers[(j : ℕ)]? = some (hostServer "b") := by
    rw [hjk, movedOn_servers, twoApart_at]
  have hc : (clicked k).servers[(i : ℕ)]? = some (hostServer "c") := by
    rw [hik]
    exact twoApart_succ k
  rw [List.getElem?_eq_getElem j.isLt] at hb
  rw [List.getElem?_eq_getElem i.isLt] at hc
  rcases hsession.onlyMarked_iff.mp h j hj with hmark | hsame
  · -- row `k` is not the loaded one
    change (mark (clicked k) i)[(j : ℕ)]? = some true at hmark
    rw [mark, List.getElem?_map, Option.map_eq_some_iff] at hmark
    obtain ⟨m, hm, hmi⟩ := hmark
    obtain ⟨hlt, hjm⟩ := List.getElem?_eq_some_iff.mp hm
    rw [List.getElem_range] at hjm
    have hmi : m = i := beq_iff_eq.mp hmi
    omega
  · have hbc := (Option.some.inj hb).symm.trans (hsame.trans (hform.trans (Option.some.inj hc)))
    revert hbc
    decide

end Leaving

/-- **What may come between `Edit` and `Save`**: if nothing but events of `A` does, `Save` always
changes the loaded entry only, exactly when those of them that can come are harmless. -/
theorem events_keep_loaded_iff (A : Event → Prop) :
    (∀ servers es₀ es s t i, Session servers es₀ es s t i → (∀ e ∈ es, A e) →
      OnlyMarked (marksAt s i es) t.servers t.saveServerEdit.servers) ↔
        ∀ e, A e → EditSession.interim e = true → harmless e = true := by
  constructor
  · intro h e he hi
    have hleaves : ∀ servers es₀ s t i, Session servers es₀ [e] s t i →
        OnlyMarked (marksAt s i [e]) t.servers t.saveServerEdit.servers :=
      fun servers es₀ s t i hsession => h servers es₀ [e] s t i hsession (by simpa using he)
    cases e with
    | clickRemove p =>
      obtain ⟨servers, es₀, s, t, i, hsession, hnot⟩ := remove_leaves p
      exact absurd (hleaves servers es₀ s t i hsession) hnot
    | currentChanged r =>
      cases r with
      | none => rfl
      | some k =>
        obtain ⟨servers, es₀, s, t, i, hsession, hnot⟩ := currentChanged_leaves k
        exact absurd (hleaves servers es₀ s t i hsession) hnot
    | clickAdd => cases hi
    | clickSave => cases hi
    | clickEdit => cases hi
    | _ => rfl
  · intro h servers es₀ es s t i hsession hes
    exact hsession.onlyMarked_of_harmless fun e he => h e (hes e he) (hsession.interim e he)

end DbCoursework.EditSession

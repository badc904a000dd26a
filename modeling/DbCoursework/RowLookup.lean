import DbCoursework.ServerEdits
import Mathlib.Data.List.Perm.Basic

/-!
Whether the list buttons have a server to act on.

The rows of the view and the strings of the servers agree up to order in every reachable
state; position by position they need not, since `Remove` may take the entry and the row
at different places. So a lookup from a current row always finds a server. What can fail
is the current row itself: `Save` rebuilds the model, which leaves no current row, and does
not disable the list buttons.
-/

namespace DbCoursework.RowLookup

open DbCoursework.ItemView DbCoursework.ListEdit DbCoursework.Runs DbCoursework.ServerManager
open DbCoursework.SettingsDialog DbCoursework.ServerEdits

/-- The rows are the strings of the servers, up to order. -/
def RowsPerm (s : State) : Prop :=
  s.itemModel.rows.Perm (s.servers.map constructServerListString)

lemma currentText_mem {s : State} {k : ℕ} (h : s.itemModel.currentRow = some k) :
    s.itemModel.rows[k]? = some s.currentText := by
  have hk := s.itemModel.current_lt k h
  rw [State.currentText, View.current?_eq h, List.getElem?_eq_getElem hk]
  rfl

/-- What is found is shown in the current row. -/
lemma lookup_eq_some {s : State} {i : Fin s.servers.length} (h : lookup s = some i) :
    ∃ k, s.itemModel.currentRow = some k ∧
      s.itemModel.rows[k]? = some (constructServerListString (s.servers.get i)) := by
  rcases hc : s.itemModel.currentRow with _ | k
  · rw [lookup_of_none hc] at h
    cases h
  · have htext := (getServerFromString_eq_some.mp h).1
    exact ⟨k, rfl, by rw [htext]; exact currentText_mem hc⟩

lemma lookup_isSome_iff {s : State} (hp : RowsPerm s) :
    (lookup s).isSome = true ↔ s.itemModel.currentRow.isSome = true := by
  constructor
  · intro h
    obtain ⟨i, hi⟩ := Option.isSome_iff_exists.mp h
    obtain ⟨k, hk, -⟩ := lookup_eq_some hi
    simp [hk]
  · intro h
    obtain ⟨k, hk⟩ := Option.isSome_iff_exists.mp h
    have hrow : s.currentText ∈ s.itemModel.rows := List.mem_of_getElem? (currentText_mem hk)
    obtain ⟨srv, hsrv, htext⟩ := List.mem_map.mp (hp.mem_iff.mp hrow)
    rw [Option.isSome_iff_ne_none]
    intro hnone
    exact getServerFromString_eq_none.mp hnone srv hsrv htext

lemma fillServerList_rowsPerm (s : State) : RowsPerm s.fillServerList := by
  unfold RowsPerm
  rw [(fillServerList_itemModel s).1]
  exact List.Perm.refl _

lemma addServer_rowsPerm {s : State} (h : RowsPerm s) : RowsPerm s.addServer := by
  unfold RowsPerm State.addServer
  rw [List.map_append]
  exact h.append_right _

lemma saveServerEdit_rowsPerm {s : State} (h : RowsPerm s) : RowsPerm s.saveServerEdit := by
  unfold State.saveServerEdit
  split
  · exact h
  · exact fillServerList_rowsPerm _

lemma removed_rowsPerm {s : State} {p : Neighbour} {i : Fin s.servers.length} (h : RowsPerm s)
    (hi : lookup s = some i) : RowsPerm (removed p s i) := by
  obtain ⟨k, hk, hrow⟩ := lookup_eq_some hi
  unfold RowsPerm removed
  rw [View.removeCurrent_rows p hk, ← List.eraseIdx_map]
  exact h.eraseIdx_of_getElem?_eq (by rw [hrow]; simp)

lemma fillInputFields_itemModel (s : State) : s.fillInputFields.itemModel = s.itemModel := by
  unfold State.fillInputFields
  split <;> rfl

lemma step_rowsPerm {s s' : State} {e : Event} (h : RowsPerm s) (hs : step s e = some s') :
    RowsPerm s' := by
  cases taken_of_step hs with
  | ignored e he => exact h
  | typing x t => exact h
  | add hc => exact addServer_rowsPerm h
  | save hc => exact saveServerEdit_rowsPerm h
  | edit hc =>
    rw [RowsPerm, fillInputFields_itemModel, fillInputFields_servers]
    exact h
  | remove p i hc hi => exact removed_rowsPerm h hi
  | clear hc => exact h
  | row k hk => exact (List.Perm.of_eq (View.setCurrent_rows s.itemModel (some k))).trans h
  | current r => exact (List.Perm.of_eq (View.setCurrent_rows s.itemModel r)).trans h

lemma construct_rowsPerm (servers : List Server) : RowsPerm (construct servers) :=
  fillServerList_rowsPerm _

lemma run_rowsPerm {servers : List Server} {es : List Event} {s : State}
    (h : run (construct servers) es = some s) : RowsPerm s :=
  run_inv (I := RowsPerm) (fun _ _ _ hp hs => step_rowsPerm hp hs) (construct_rowsPerm servers) h

/-! ### The current row finds its server -/

/-- Row `k` shows a text for which a server is found, `Edit` and `Save` go on with that
server, and the loop of `Remove` stops inside the list, so that an entry and a row go. -/
structure Finds (s : State) (k : ℕ) : Prop where
  found : ∃ t, s.itemModel.rows[k]? = some t ∧ getServerFromString s.servers t ≠ none
  edit : ∃ i, s.fillInputFields =
    { s with form := (State.startEdit s.form).load (s.servers.get i) }
  save : ∃ i : Fin s.servers.length, s.saveServerEdit =
    State.fillServerList
      { s with
        servers := s.servers.set i s.form.server
        form := (State.endEdit s.form).clearInputFields }
  index : s.removeIndex < s.servers.length
  remove : ∀ p, ∃ s', s.removeServerFromList p = some s' ∧
    s'.servers.length + 1 = s.servers.length ∧
    s'.itemModel.rows.length + 1 = s.itemModel.rows.length

lemma finds_of_lookup {s : State} {k : ℕ} {i : Fin s.servers.length} (hi : lookup s = some i)
    (hk : s.itemModel.currentRow = some k) : Finds s k := by
  have hpos : 0 < s.servers.length := i.pos
  have hrow : k < s.itemModel.rows.length := s.itemModel.current_lt k hk
  refine ⟨⟨s.currentText, currentText_mem hk, ?_⟩, ⟨i, ?_⟩, ⟨i, ?_⟩, ?_, fun p => ?_⟩
  · exact Option.isSome_iff_ne_none.mp (Option.isSome_of_eq_some hi)
  · unfold lookup at hi
    unfold State.fillInputFields
    rw [hi]
  · unfold lookup at hi
    unfold State.saveServerEdit
    rw [hi]
  · have hidx : s.removeIndex = i := findIdx_of_getServerFromString hi
    rw [hidx]
    exact i.isLt
  · refine ⟨_, removeServerFromList_of_some hi, ?_, ?_⟩
    · rw [removed, List.length_eraseIdx_of_lt i.isLt]
      omega
    · rw [removed, View.removeCurrent_rows p hk, List.length_eraseIdx_of_lt hrow]
      omega

/-- **The lookup of a displayed row never fails**, in any state of any run. -/
theorem current_row_finds (servers : List Server) (es : List Event) (s : State)
    (h : run (construct servers) es = some s) : ∀ k ∈ s.itemModel.currentRow, Finds s k := by
  intro k hk
  obtain ⟨i, hi⟩ := Option.isSome_iff_exists.mp
    ((lookup_isSome_iff (run_rowsPerm h)).mpr (Option.isSome_of_mem hk))
  exact finds_of_lookup hi hk

theorem current_row_finds_after_remove : ∃ s,
    run (construct [⟨"a", "1", "d", "u", "p"⟩, ⟨"b", "1", "d", "u", "p"⟩,
        ⟨"a", "1", "d", "u", "q"⟩]) [.clickRow 2, .clickRemove .above] = some s ∧ Finds s 1 :=
  ⟨_, (Option.some_get (by decide)).symm,
    current_row_finds _ _ _ (Option.some_get (by decide)).symm 1 (by decide)⟩

/-! ### The list buttons -/

def ListButtonEnabled (s : State) : Prop :=
  s.removeServerBtn.enabled = true ∨ s.editServerBtn.enabled = true

/-- An enabled list button comes with a current row, so that a click on `Remove` deletes an
entry the list has and a click on `Edit` finds a server. -/
structure Serves (s : State) : Prop where
  row : ListButtonEnabled s → s.itemModel.currentRow.isSome = true
  remove : s.removeServerBtn.clickable = true → s.removeIndex < s.servers.length
  edit : s.editServerBtn.clickable = true →
    getServerFromString s.servers s.currentText ≠ none

/-- A click on a clickable `Save` while a list button is enabled. -/
def SaveUnderListButton (s : State) (e : Event) : Prop :=
  e = .clickSave ∧ s.form.saveServerBtn.clickable = true ∧ ListButtonEnabled s

lemma serves_iff {s : State} (hp : RowsPerm s) :
    Serves s ↔ (ListButtonEnabled s → s.itemModel.currentRow.isSome = true) := by
  refine ⟨Serves.row, fun hrow => ⟨hrow, fun hc => ?_, fun hc => ?_⟩⟩
  · have hen : ListButtonEnabled s := Or.inl (by simp_all [Button.clickable])
    obtain ⟨i, hi⟩ := Option.isSome_iff_exists.mp ((lookup_isSome_iff hp).mpr (hrow hen))
    have hidx : s.removeIndex = i := findIdx_of_getServerFromString hi
    rw [hidx]
    exact i.isLt
  · have hen : ListButtonEnabled s := Or.inr (by simp_all [Button.clickable])
    exact Option.isSome_iff_ne_none.mp ((lookup_isSome_iff hp).mpr (hrow hen))

lemma fillInputFields_enabled (s : State) :
    ListButtonEnabled s.fillInputFields ↔ ListButtonEnabled s := by
  unfold State.fillInputFields
  split <;> exact Iff.rfl

/-- A save that finds its server leaves no current row, one that does not changes neither
the view nor the list buttons. -/
lemma saveServerEdit_view (s : State) :
    s.saveServerEdit.removeServerBtn = s.removeServerBtn ∧
      s.saveServerEdit.editServerBtn = s.editServerBtn ∧
      s.saveServerEdit.itemModel.currentRow =
        if (lookup s).isSome then none else s.itemModel.currentRow := by
  unfold State.saveServerEdit lookup
  rcases getServerFromString s.servers s.currentText with _ | i
  · simp
  · exact ⟨rfl, rfl, (fillServerList_itemModel _).2⟩

/-- **What one step does to the current row under an enabled list button.** -/
lemma step_row {s s' : State} {e : Event} (hp : RowsPerm s)
    (hrow : ListButtonEnabled s → s.itemModel.currentRow.isSome = true)
    (he : e ≠ .currentChanged none) (hs : step s e = some s') :
    (ListButtonEnabled s' → s'.itemModel.currentRow.isSome = true) ↔
      ¬ SaveUnderListButton s e := by
  have hother : e ≠ .clickSave → ¬ SaveUnderListButton s e := fun hne h => hne h.1
  cases taken_of_step hs with
  | ignored e hi =>
    have hno : ¬ SaveUnderListButton s e := by
      rintro ⟨rfl, hc, -⟩
      exact absurd hc (Bool.eq_false_iff.mp hi)
    exact iff_of_true hrow hno
  | typing x t => exact iff_of_true hrow (hother (by simp))
  | add hc => exact iff_of_true hrow (hother (by simp))
  | save hc =>
    obtain ⟨h1, h2, h3⟩ := saveServerEdit_view s
    simp only [SaveUnderListButton, ListButtonEnabled, h1, h2, h3, hc, true_and]
    by_cases hen : ListButtonEnabled s
    · have hsome := (lookup_isSome_iff hp).mpr (hrow hen)
      simp [hsome]
    · unfold ListButtonEnabled at hen
      simp [hen]
  | edit hc =>
    rw [fillInputFields_enabled, fillInputFields_itemModel]
    exact iff_of_true hrow (hother (by simp))
  | remove p i hc hi =>
    refine iff_of_true (fun hen => ?_) (hother (by simp))
    simp [ListButtonEnabled, removed, Button.setEnabled] at hen
  | clear hc => exact iff_of_true hrow (hother (by simp))
  | row k hk =>
    refine iff_of_true (fun _ => ?_) (hother (by simp))
    simp [State.enableEditAndRemoveButtons, View.setCurrent_currentRow hk]
  | current r =>
    refine iff_of_true (fun hen => ?_) (hother (by simp))
    rcases r with _ | k
    · exact absurd rfl he
    · exact View.setCurrent_isSome (hrow hen)

/-- Only `Remove` has no defined result. -/
lemma step_eq_none {s : State} {e : Event} (h : step s e = none) : ∃ p, e = .clickRemove p := by
  cases e with
  | clickRemove p => exact ⟨p, rfl⟩
  | _ => cases h

/-- **The list buttons serve exactly as long as nothing is saved under them**: a run keeps a
current row under its enabled list buttons if and only if no step of it is a `Save` clicked
while one of them is enabled. -/
theorem listButtons_serve_iff (servers : List Server) (es : List Event)
    (hes : ∀ e ∈ es, e ≠ .currentChanged none) :
    Throughout step Serves (construct servers) es ↔
      Along step (fun s e => ¬ SaveUnderListButton s e) (construct servers) es := by
  refine throughout_iff_along (I := RowsPerm) (A := fun e => e ≠ .currentChanged none)
    (fun s e s' h hs => step_rowsPerm h hs) (fun s e s' hp hq he hs => ?_)
    (fun s e _ _ _ hs => ?_) (construct_rowsPerm servers) ?_ hes
  · rw [serves_iff (step_rowsPerm hp hs)]
    exact step_row hp hq.row he hs
  · obtain ⟨p, rfl⟩ := step_eq_none hs
    rintro ⟨h, -⟩
    cases h
  · rw [serves_iff (construct_rowsPerm servers)]
    intro hen
    simp [ListButtonEnabled, construct, State.fillServerList] at hen

theorem listButtons_serve_remove :
    Throughout step Serves (construct [⟨"a", "1", "d", "u", "p"⟩])
      [.clickRow 0, .clickEdit, .clickRemove .below] :=
  (listButtons_serve_iff _ _ (by decide)).mpr
    (along_of_forall (by simp [SaveUnderListButton]) _)

/-- After a `Save` no row is current while `Remove` stays enabled, and a click on it has no
defined result. -/
theorem remove_after_save_undefined : ¬ ∀ servers es, (∀ e ∈ es, e ≠ .currentChanged none) →
    Throughout step Serves (construct servers) es := by
  intro h
  have hserves := (h [⟨"a", "1", "d", "u", "p"⟩] [.clickRow 0, .clickEdit, .clickSave]
    (by decide)).last (Option.some_get (by decide)).symm
  have hlt := hserves.remove (by decide)
  revert hlt
  decide

end DbCoursework.RowLookup

import DbCoursework.FormButtons
import DbCoursework.RowLookup

/-!
When row `k` of the list is server `k`.

The view acts by position and the slots find their server by the first match of the row's
text. The two agree as long as no earlier row shows the same text; with such a row above
the current one, `Remove`, `Edit` and `Save` all act on another server than the one shown,
and `Remove` may leave rows and servers out of step.
-/

namespace DbCoursework.RowIdentity

open DbCoursework.ItemView DbCoursework.ListEdit DbCoursework.Runs DbCoursework.ServerManager
open DbCoursework.SettingsDialog DbCoursework.ServerEdits DbCoursework.RowLookup
open DbCoursework.FormButtons

/-- The rows are the strings of the servers, position by position. -/
def Aligned (s : State) : Prop := s.itemModel.rows = s.servers.map constructServerListString

/-- No row above row `k` shows the text of row `k`. -/
def FirstShown (s : State) (k : ℕ) : Prop :=
  ∀ j < k, s.itemModel.rows[j]? ≠ s.itemModel.rows[k]?

/-- The operations on current row `k` are operations on server `k`: `Remove` deletes it and
its row, `Edit` loads its fields, and a `Save` after nothing but typing overwrites it. -/
structure ActsOnRow (s : State) (k : ℕ) : Prop where
  remove : ∀ p, ∃ s', s.removeServerFromList p = some s' ∧
    s'.servers = s.servers.eraseIdx k ∧ s'.itemModel.rows = s.itemModel.rows.eraseIdx k
  edit : s.servers[k]? = some s.fillInputFields.form.server
  save : ∀ (texts : List (Field × String)) (s' : State),
    run s.fillInputFields (texts.map fun x => .typing x.1 x.2) = some s' →
      s'.saveServerEdit.servers = s.servers.set k s'.form.server

lemma Aligned.rowsPerm {s : State} (h : Aligned s) : RowsPerm s := by
  rw [RowsPerm, h]

/-- **The first match is the current row exactly when no earlier row shows its text.** -/
lemma lookup_of_aligned {s : State} {k : ℕ} (ha : Aligned s)
    (hk : s.itemModel.currentRow = some k) :
    ∃ i, lookup s = some i ∧ ((i : ℕ) = k ↔ FirstShown s k) := by
  have hp := ha.rowsPerm
  obtain ⟨i, hi⟩ := Option.isSome_iff_exists.mp
    ((lookup_isSome_iff hp).mpr (by rw [hk]; rfl))
  refine ⟨i, hi, ?_⟩
  obtain ⟨htext, hfirst⟩ := getServerFromString_eq_some.mp hi
  have hlen : k < s.servers.length := by
    have := s.itemModel.current_lt k hk
    rwa [ha, List.length_map] at this
  have hrow : ∀ j (hj : j < s.servers.length),
      s.itemModel.rows[j]? = some (constructServerListString s.servers[j]) := by
    intro j hj
    rw [ha]
    simp [hj]
  have hcur : constructServerListString s.servers[k] = s.currentText :=
    Option.some.inj ((hrow k hlen).symm.trans (currentText_mem hk))
  constructor
  · intro hik j hj heq
    have hjl : j < s.servers.length := by omega
    rw [hrow j hjl, hrow k hlen, hcur] at heq
    have hlt : (⟨j, hjl⟩ : Fin _) < i := Fin.lt_def.mpr (by simpa [hik] using hj)
    exact hfirst ⟨j, hjl⟩ hlt (Option.some.inj heq)
  · intro hshown
    by_contra hne
    rcases Nat.lt_or_gt_of_ne hne with hlt | hgt
    · refine hshown i hlt ?_
      rw [hrow i i.isLt, hrow k hlen, hcur, ← htext]
      rfl
    · exact hfirst ⟨k, hlen⟩ (Fin.lt_def.mpr hgt) hcur

/-! ### The operations on the current row -/

/-- Typing changes the form only. -/
lemma run_typing {s s' : State} {texts : List (Field × String)}
    (h : run s (texts.map fun x => .typing x.1 x.2) = some s') :
    s'.servers = s.servers ∧ s'.itemModel = s.itemModel := by
  induction texts generalizing s with
  | nil => cases h; exact ⟨rfl, rfl⟩
  | cons x texts ih => exact ih (s := { s with form := s.form.setText x.1 x.2 }) h

lemma lookup_congr {s s' : State} (hs : s'.servers = s.servers)
    (hm : s'.itemModel = s.itemModel) : (lookup s').map Fin.val = (lookup s).map Fin.val := by
  unfold lookup State.currentText
  rw [hm]
  have hcast : ∀ l : List Server, l = s.servers → ∀ t : String,
      (getServerFromString l t).map Fin.val = (getServerFromString s.servers t).map Fin.val := by
    rintro l rfl t
    rfl
  exact hcast _ hs _

/-- What `Save` writes, by the position it finds. -/
lemma saveServerEdit_of_lookup {s : State} {i : ℕ} (h : (lookup s).map Fin.val = some i) :
    s.saveServerEdit.servers = s.servers.set i s.form.server := by
  obtain ⟨j, hj, rfl⟩ := Option.map_eq_some_iff.mp h
  rw [saveServerEdit_servers, hj]
  rfl

/-- A `Save` after typing writes to the server that `Edit` found. -/
lemma save_after_typing {s s' : State} {i : Fin s.servers.length}
    {texts : List (Field × String)} (hi : lookup s = some i)
    (h : run s.fillInputFields (texts.map fun x => .typing x.1 x.2) = some s') :
    s'.saveServerEdit.servers = s.servers.set i s'.form.server := by
  obtain ⟨hs, hm⟩ := run_typing h
  have hfound : (lookup s').map Fin.val = some (i : ℕ) := by
    rw [lookup_congr (hs.trans (fillInputFields_servers s))
      (hm.trans (fillInputFields_itemModel s)), hi]
    rfl
  rw [saveServerEdit_of_lookup hfound, hs, fillInputFields_servers]

@[simp] lemma load_server (srv : Server) (f : Form) : (f.load srv).server = srv := by
  simp [Form.load, Form.server]

lemma edit_loads {s : State} {i : Fin s.servers.length} (hi : lookup s = some i) :
    s.fillInputFields.form.server = s.servers.get i := by
  rw [fillInputFields_form, hi, Option.elim_some, load_server]

lemma actsOnRow_of_lookup {s : State} {k : ℕ} {i : Fin s.servers.length} (hi : lookup s = some i)
    (hk : s.itemModel.currentRow = some k) (hik : (i : ℕ) = k) : ActsOnRow s k := by
  subst hik
  refine ⟨fun p => ⟨_, removeServerFromList_of_some hi, rfl, ?_⟩, ?_, fun texts s' h => ?_⟩
  · exact View.removeCurrent_rows p hk
  · rw [edit_loads hi]
    exact List.getElem?_eq_getElem i.isLt
  · exact save_after_typing hi h

/-- A new host tells the entries apart: only one position can be the one written. -/
lemma lookup_of_actsOnRow {s : State} {k : ℕ} {i : Fin s.servers.length} (hi : lookup s = some i)
    (h : ActsOnRow s k) : (i : ℕ) = k := by
  by_contra hne
  let texts := [(Field.host, s.servers[i].host ++ "x")]
  have htyped : run s.fillInputFields (texts.map fun x => .typing x.1 x.2) =
      some { s.fillInputFields with
        form := s.fillInputFields.form.setText .host (s.servers[i].host ++ "x") } := rfl
  have hsave := h.save texts _ htyped
  rw [save_after_typing hi htyped] at hsave
  have hat := congrArg (fun l => l[(i : ℕ)]?) hsave
  simp only [List.getElem?_set_self i.isLt, List.getElem?_set_ne (Ne.symm hne),
    List.getElem?_eq_getElem i.isLt, Option.some.injEq] at hat
  have hhost := congrArg (fun srv => srv.host.length) hat
  simp [Form.server] at hhost

lemma actsOnRow_iff {s : State} {k : ℕ} (ha : Aligned s) (hk : s.itemModel.currentRow = some k) :
    ActsOnRow s k ↔ FirstShown s k := by
  obtain ⟨i, hi, hik⟩ := lookup_of_aligned ha hk
  rw [← hik]
  exact ⟨lookup_of_actsOnRow hi, actsOnRow_of_lookup hi hk⟩

/-! ### Runs -/

/-- The step is no `Remove` with an earlier row that shows the text of the current one. -/
def RemovesFirstShown (s : State) (e : Event) : Prop :=
  ∀ p, e = .clickRemove p → s.removeServerBtn.clickable = true →
    ∀ k ∈ s.itemModel.currentRow, FirstShown s k

lemma fillServerList_aligned (s : State) : Aligned s.fillServerList :=
  (fillServerList_itemModel s).1

lemma removed_aligned {s : State} {p : Neighbour} {i : Fin s.servers.length} (ha : Aligned s)
    (hi : lookup s = some i) (hfirst : ∀ k ∈ s.itemModel.currentRow, FirstShown s k) :
    Aligned (removed p s i) := by
  obtain ⟨k, hk, -⟩ := lookup_eq_some hi
  obtain ⟨j, hj, hjk⟩ := lookup_of_aligned ha hk
  obtain rfl : j = i := Option.some.inj (hj.symm.trans hi)
  have hik : (j : ℕ) = k := hjk.mpr (hfirst k hk)
  unfold Aligned removed
  rw [View.removeCurrent_rows p hk, ha, ← hik, List.eraseIdx_map]

lemma step_aligned {s s' : State} {e : Event} (h : Aligned s) (hP : RemovesFirstShown s e)
    (hs : step s e = some s') : Aligned s' := by
  cases taken_of_step hs with
  | ignored e he => exact h
  | typing x t => exact h
  | add hc =>
    unfold Aligned State.addServer
    rw [View.appendRow_rows, h, List.map_append]
    rfl
  | save hc =>
    unfold State.saveServerEdit
    split
    · exact h
    · exact fillServerList_aligned _
  | edit hc =>
    rw [Aligned, fillInputFields_itemModel, fillInputFields_servers]
    exact h
  | remove p i hc hi => exact removed_aligned h hi (hP p rfl hc)
  | clear hc => exact h
  | row k hk => exact (View.setCurrent_rows s.itemModel (some k)).trans h
  | current r => exact (View.setCurrent_rows s.itemModel r).trans h

/-- **Row `k` is server `k`** in every state of a run that removes only rows whose text no
earlier row shows, and the operations on current row `k` act on server `k` exactly when
no earlier row shows its text. -/
theorem row_is_server (servers : List Server) (es : List Event) (s : State)
    (h : run (construct servers) es = some s)
    (hP : Along step RemovesFirstShown (construct servers) es) :
    Aligned s ∧ ∀ k ∈ s.itemModel.currentRow, (ActsOnRow s k ↔ FirstShown s k) := by
  have ha : Aligned s :=
    run_inv_along (I := Aligned) (fun _ _ _ hi hp hs => step_aligned hi hp hs)
      (fillServerList_aligned _) hP h
  exact ⟨ha, fun k hk => actsOnRow_iff ha hk⟩

theorem row_is_server_after_remove : ∃ s,
    run (construct [⟨"a", "1", "d", "u", "p"⟩, ⟨"b", "1", "d", "u", "p"⟩])
        [.clickRow 1, .clickRemove .above] = some s ∧
      Aligned s ∧ ∀ k ∈ s.itemModel.currentRow, (ActsOnRow s k ↔ FirstShown s k) := by
  refine ⟨_, (Option.some_get (by decide)).symm,
    row_is_server _ _ _ (Option.some_get (by decide)).symm ⟨?_, ?_⟩⟩
  · rintro p ⟨⟩
  · rintro s hs
    cases hs
    refine ⟨fun p _ _ k hk => ?_, fun _ _ => trivial⟩
    obtain rfl : 1 = k := Option.some.inj hk
    unfold FirstShown
    decide

/-- Two servers that differ in the password alone: `Remove` on the second row deletes the
first of them. -/
theorem remove_deletes_other : ¬ ∀ servers es s, run (construct servers) es = some s →
    Aligned s ∧ ∀ k ∈ s.itemModel.currentRow, ActsOnRow s k := by
  intro h
  have hacts := (h [⟨"a", "1", "d", "u", "p"⟩, ⟨"a", "1", "d", "u", "q"⟩] [.clickRow 1] _
    (Option.some_get (by decide)).symm).2 1 (by decide)
  obtain ⟨s', hs', hservers, -⟩ := hacts.remove .above
  cases hs'
  revert hservers
  decide

/-! ### Runs in which every row means its server -/

/-- What the rows are taken for: row `k` is server `k`, to `Remove`, `Edit` and `Save` too. -/
def RowsMeanServers (s : State) : Prop :=
  Aligned s ∧ ∀ k ∈ s.itemModel.currentRow, ActsOnRow s k

def CurrentFirstShown (s : State) : Prop := ∀ k ∈ s.itemModel.currentRow, FirstShown s k

lemma rowsMeanServers_iff {s : State} (ha : Aligned s) :
    RowsMeanServers s ↔ CurrentFirstShown s :=
  ⟨fun h k hk => (actsOnRow_iff ha hk).mp (h.2 k hk),
    fun h => ⟨ha, fun k hk => (actsOnRow_iff ha hk).mpr (h k hk)⟩⟩

lemma throughout_iff_of_aligned {s : State} {es : List Event} (ha : Aligned s) :
    Throughout step RowsMeanServers s es ↔ Throughout step CurrentFirstShown s es := by
  induction es generalizing s with
  | nil => exact rowsMeanServers_iff ha
  | cons e es ih =>
    -- a `Remove` is in step as well, if the current row is the first with its text
    have hnext : CurrentFirstShown s → ∀ s', step s e = some s' → Aligned s' :=
      fun hfirst s' hs => step_aligned ha (fun _ _ _ => hfirst) hs
    constructor
    · rintro ⟨hq, h⟩
      have hfirst := (rowsMeanServers_iff ha).mp hq
      exact ⟨hfirst, fun s' hs => (ih (hnext hfirst s' hs)).mp (h s' hs)⟩
    · rintro ⟨hfirst, h⟩
      exact ⟨(rowsMeanServers_iff ha).mpr hfirst,
        fun s' hs => (ih (hnext hfirst s' hs)).mpr (h s' hs)⟩

/-- **The rows mean their servers throughout a run** exactly when every row that is current in
it is the first with its text. -/
theorem rows_mean_servers_iff (servers : List Server) (es : List Event) :
    Throughout step RowsMeanServers (construct servers) es ↔
      Throughout step CurrentFirstShown (construct servers) es :=
  throughout_iff_of_aligned (fillServerList_aligned _)

end DbCoursework.RowIdentity

import DbCoursework.ListEdit
import DbCoursework.SettingsDialog

/-!
What each event does to the server list, and which entry it does it to.

`Remove`, `Edit` and `Save` look their server up in the same way, by the first entry that
shows the text of the current row; `lookup` is that entry. The events then change the list
by one edit each, and tags follow the entries through a run.
-/

namespace DbCoursework.ServerEdits

open DbCoursework.ItemView DbCoursework.ListEdit DbCoursework.Runs DbCoursework.ServerManager
open DbCoursework.SettingsDialog

/-- The entry that `Remove`, `Edit` and `Save` find in a state. -/
def lookup (s : State) : Option (Fin s.servers.length) :=
  getServerFromString s.servers s.currentText

section Search

variable {servers : List Server} {t : String}

lemma getServerFromString_eq_some {i : Fin servers.length} :
    getServerFromString servers t = some i ↔
      constructServerListString (servers.get i) = t ∧
        ∀ j : Fin servers.length, j < i → constructServerListString (servers.get j) ≠ t := by
  unfold getServerFromString
  rw [List.findFinIdx?_eq_some_iff]
  simp

lemma getServerFromString_eq_none :
    getServerFromString servers t = none ↔
      ∀ srv ∈ servers, constructServerListString srv ≠ t := by
  unfold getServerFromString
  rw [List.findFinIdx?_eq_none_iff]
  simp

lemma findIdx_of_getServerFromString {i : Fin servers.length}
    (h : getServerFromString servers t = some i) :
    servers.findIdx (fun srv => constructServerListString srv == t) = i := by
  obtain ⟨h1, h2⟩ := getServerFromString_eq_some.mp h
  rw [List.findIdx_eq i.isLt]
  refine ⟨by simpa using h1, fun j hj => ?_⟩
  have := h2 ⟨j, by omega⟩ hj
  simpa using this

lemma findIdx_of_getServerFromString_none (h : getServerFromString servers t = none) :
    servers.findIdx (fun srv => constructServerListString srv == t) = servers.length := by
  rw [List.findIdx_eq_length]
  intro srv hsrv
  simpa using getServerFromString_eq_none.mp h srv hsrv

end Search

/-- Without a current row nothing is found: the empty text is no server's string. -/
lemma lookup_of_none {s : State} (h : s.itemModel.currentRow = none) : lookup s = none := by
  rw [lookup, getServerFromString_eq_none]
  intro srv _
  simpa [State.currentText, View.current?_of_none h] using constructServerListString_ne_empty srv

/-- The state after `Remove` deletes entry `i`. -/
def removed (p : Neighbour) (s : State) (i : ℕ) : State :=
  { s with
    servers := s.servers.eraseIdx i
    itemModel := s.itemModel.removeCurrent p
    removeServerBtn := s.removeServerBtn.setEnabled false
    editServerBtn := s.editServerBtn.setEnabled false }

lemma removeServerFromList_of_some {s : State} {p : Neighbour} {i : Fin s.servers.length}
    (h : lookup s = some i) : s.removeServerFromList p = some (removed p s i) := by
  have hi : s.removeIndex = i := findIdx_of_getServerFromString h
  simp [State.removeServerFromList, removeAt, hi, removed]

lemma removeServerFromList_of_none {s : State} {p : Neighbour} (h : lookup s = none) :
    s.removeServerFromList p = none := by
  have hi : s.removeIndex = s.servers.length := findIdx_of_getServerFromString_none h
  simp [State.removeServerFromList, removeAt, hi]

lemma removeServerFromList_eq_some {s s' : State} {p : Neighbour}
    (h : s.removeServerFromList p = some s') : ∃ i, lookup s = some i ∧ s' = removed p s i := by
  rcases hl : lookup s with _ | i
  · rw [removeServerFromList_of_none hl] at h; cases h
  · rw [removeServerFromList_of_some hl] at h
    exact ⟨i, rfl, (Option.some.inj h).symm⟩

/-! ### What a step can be -/

/-- The event reaches its slot. -/
def reaches (s : State) : Event → Bool
  | .typing _ _ | .currentChanged _ => true
  | .clickAdd => s.form.addServerBtn.clickable
  | .clickSave => s.form.saveServerBtn.clickable
  | .clickEdit => s.editServerBtn.clickable
  | .clickRemove _ => s.removeServerBtn.clickable
  | .clickClear => s.form.clearDataBtn.clickable
  | .clickRow k => decide (k < s.itemModel.rows.length)

/-- The steps with a result: an event that does not reach its slot, or what the slot does. -/
inductive Taken (s : State) : Event → State → Prop
  | ignored (e : Event) (h : reaches s e = false) : Taken s e s
  | typing (x : Field) (t : String) :
    Taken s (.typing x t) { s with form := s.form.setText x t }
  | add (h : s.form.addServerBtn.clickable = true) : Taken s .clickAdd s.addServer
  | save (h : s.form.saveServerBtn.clickable = true) : Taken s .clickSave s.saveServerEdit
  | edit (h : s.editServerBtn.clickable = true) : Taken s .clickEdit s.fillInputFields
  | remove (p : Neighbour) (i : Fin s.servers.length) (h : s.removeServerBtn.clickable = true)
    (hi : lookup s = some i) : Taken s (.clickRemove p) (removed p s i)
  | clear (h : s.form.clearDataBtn.clickable = true) :
    Taken s .clickClear { s with form := s.form.clearInputFields }
  | row (k : ℕ) (h : k < s.itemModel.rows.length) :
    Taken s (.clickRow k)
      (State.enableEditAndRemoveButtons { s with itemModel := s.itemModel.setCurrent (some k) })
  | current (r : Option ℕ) :
    Taken s (.currentChanged r) { s with itemModel := s.itemModel.setCurrent r }

lemma step_of_not_reaches {s : State} {e : Event} (h : reaches s e = false) :
    step s e = some s := by
  cases e with
  | typing x t => cases h
  | currentChanged r => cases h
  | clickRow k => exact congrArg some (if_neg (of_decide_eq_false h))
  | _ => simp only [reaches] at h; simp [step, h]

/-- **What a step can do.** -/
theorem taken_of_step {s s' : State} {e : Event} (h : step s e = some s') : Taken s e s' := by
  rcases he : reaches s e with _ | _
  · obtain rfl : s = s' := Option.some.inj ((step_of_not_reaches he).symm.trans h)
    exact .ignored e he
  cases e with
  | typing x t => cases h; exact .typing x t
  | clickAdd =>
    simp only [reaches] at he
    rw [step, if_pos he] at h
    cases h
    exact .add he
  | clickSave =>
    simp only [reaches] at he
    rw [step, if_pos he] at h
    cases h
    exact .save he
  | clickEdit =>
    simp only [reaches] at he
    rw [step, if_pos he] at h
    cases h
    exact .edit he
  | clickRemove p =>
    simp only [reaches] at he
    rw [step, if_pos he] at h
    obtain ⟨i, hi, rfl⟩ := removeServerFromList_eq_some h
    exact .remove p i he hi
  | clickClear =>
    simp only [reaches] at he
    rw [step, if_pos he] at h
    cases h
    exact .clear he
  | clickRow k =>
    have hk : k < s.itemModel.rows.length := of_decide_eq_true he
    rw [step, if_pos hk] at h
    cases h
    exact .row k hk
  | currentChanged r => cases h; exact .current r

/-! ### What the slots do -/

lemma fillServerList_itemModel (s : State) :
    s.fillServerList.itemModel.rows = s.servers.map constructServerListString ∧
      s.fillServerList.itemModel.currentRow = none := by
  have h := View.foldl_appendRow (s.servers.map constructServerListString) s.itemModel.clear
  rw [List.foldl_map] at h
  simpa [State.fillServerList] using h

section FormOfSlots

variable (s : State)

lemma saveServerEdit_form :
    s.saveServerEdit.form = (State.endEdit s.form).clearInputFields := by
  unfold State.saveServerEdit
  split <;> rfl

lemma fillInputFields_form :
    s.fillInputFields.form =
      (lookup s).elim (State.startEdit s.form).clearInputFields
        fun i => (State.startEdit s.form).load (s.servers.get i) := by
  unfold State.fillInputFields lookup
  rcases getServerFromString s.servers s.currentText with _ | i <;> rfl

end FormOfSlots

/-! ### The edit of an event -/

/-- The change an event makes to the server list. -/
def edit (s : State) : Event → Edit Server
  | .clickAdd => if s.form.addServerBtn.clickable then .push s.form.server else .keep
  | .clickSave =>
    if s.form.saveServerBtn.clickable then
      (lookup s).elim .keep fun i => .set i s.form.server
    else .keep
  | .clickRemove _ =>
    if s.removeServerBtn.clickable then (lookup s).elim .keep fun i => .erase i else .keep
  | _ => .keep

lemma saveServerEdit_servers (s : State) :
    s.saveServerEdit.servers = ((lookup s).elim .keep fun i => .set i s.form.server : Edit _).apply
      s.servers := by
  unfold State.saveServerEdit lookup
  rcases getServerFromString s.servers s.currentText with _ | i <;> rfl

lemma fillInputFields_servers (s : State) : s.fillInputFields.servers = s.servers := by
  unfold State.fillInputFields
  split <;> rfl

lemma edit_of_not_reaches {s : State} {e : Event} (h : reaches s e = false) :
    edit s e = .keep := by
  cases e <;> first | rfl | (simp only [reaches] at h; simp [edit, h])

/-- **What a step does to the server list.** -/
theorem step_servers {s s' : State} {e : Event} (h : step s e = some s') :
    s'.servers = (edit s e).apply s.servers := by
  cases taken_of_step h with
  | ignored e he => rw [edit_of_not_reaches he]; rfl
  | typing x t => rfl
  | add hc => rw [edit, if_pos hc]; rfl
  | save hc => rw [edit, if_pos hc, saveServerEdit_servers]
  | edit hc => exact fillInputFields_servers s
  | remove p i hc hi => rw [edit, if_pos hc, hi]; rfl
  | clear hc => rfl
  | row k hk => rfl
  | current r => rfl

/-- The four edits there are: an entry comes from a clickable `Add` or `Save` and is the
form's server, and an entry goes by a clickable `Remove`. -/
lemma edit_cases (s : State) (e : Event) :
    edit s e = .keep ∨
      (s.form.addServerBtn.clickable = true ∧ edit s e = .push s.form.server) ∨
      (s.form.saveServerBtn.clickable = true ∧
        ∃ i, lookup s = some i ∧ edit s e = .set i s.form.server) ∨
      (s.removeServerBtn.clickable = true ∧ ∃ i, lookup s = some i ∧ edit s e = .erase i) := by
  cases e with
  | clickAdd =>
    by_cases hc : s.form.addServerBtn.clickable <;> simp [edit, hc]
  | clickSave =>
    by_cases hc : s.form.saveServerBtn.clickable
    · rcases hl : lookup s with _ | i <;> simp [edit, hc, hl]
    · simp [edit, hc]
  | clickRemove p =>
    by_cases hc : s.removeServerBtn.clickable
    · rcases hl : lookup s with _ | i <;> simp [edit, hc, hl]
    · simp [edit, hc]
  | _ => exact Or.inl rfl

/-- The list the dialog compares with on close never changes. -/
lemma step_serversInitialValues {s s' : State} {e : Event} (h : step s e = some s') :
    s'.serversInitialValues = s.serversInitialValues := by
  cases taken_of_step h with
  | save hc => unfold State.saveServerEdit; split <;> rfl
  | edit hc => unfold State.fillInputFields; split <;> rfl
  | _ => rfl

/-! ### Tags through a run -/

variable {ι : Type*}

/-- The tags after a run; entries added in it get the tag `new`. -/
def tagsAfter (new : ι) : State → List Event → List ι → List ι
  | _, [], ts => ts
  | s, e :: es, ts =>
    (step s e).elim ts fun s' => tagsAfter new s' es ((edit s e).retag new ts)

/-- The tags of the entries that a `Remove` or a `Save` of the run acted on. -/
def tagsHit (new : ι) : State → List Event → List ι → List ι
  | _, [], _ => []
  | s, e :: es, ts =>
    (edit s e).hit ts ++
      (step s e).elim [] fun s' => tagsHit new s' es ((edit s e).retag new ts)

lemma length_tagsAfter {new : ι} {s t : State} {es : List Event} {ts : List ι}
    (hlen : ts.length = s.servers.length) (h : run s es = some t) :
    (tagsAfter new s es ts).length = t.servers.length := by
  induction es generalizing s ts with
  | nil => cases h; exact hlen
  | cons e es ih =>
    obtain ⟨s', hs, hr⟩ := (run_cons_eq_some step).mp h
    simp only [tagsAfter, hs, Option.elim_some]
    exact ih (by rw [step_servers hs]; exact Edit.length_retag hlen) hr

lemma mem_tagsAfter {new x : ι} {s : State} {es : List Event} {ts : List ι}
    (h : x ∈ tagsAfter new s es ts) : x ∈ ts ∨ x = new := by
  induction es generalizing s ts with
  | nil => exact Or.inl h
  | cons e es ih =>
    rcases hs : step s e with _ | s'
    · simp only [tagsAfter, hs, Option.elim_none] at h
      exact Or.inl h
    · simp only [tagsAfter, hs, Option.elim_some] at h
      rcases ih h with h' | rfl
      · exact Edit.mem_retag h'
      · exact Or.inr rfl

lemma mem_tagsHit {new x : ι} {s : State} {es : List Event} {ts : List ι}
    (h : x ∈ tagsHit new s es ts) : x ∈ ts ∨ x = new := by
  induction es generalizing s ts with
  | nil => simp [tagsHit] at h
  | cons e es ih =>
    rw [tagsHit, List.mem_append] at h
    rcases h with h | h
    · exact Or.inl (Edit.mem_of_mem_hit h)
    · rcases hs : step s e with _ | s'
      · simp [hs] at h
      · simp only [hs, Option.elim_some] at h
        rcases ih h with h' | rfl
        · exact Edit.mem_retag h'
        · exact Or.inr rfl

end DbCoursework.ServerEdits

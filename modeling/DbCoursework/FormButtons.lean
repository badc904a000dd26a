import DbCoursework.ServerEdits

/-!
The buttons of the form agree with its texts.

The flags are recomputed only when a text really changes. So a slot that sets flags itself
has to be followed by a change; in `saveServerEdit` the change is the clearing of a form
that was full, since `Save` was enabled.
-/

namespace DbCoursework.FormButtons

open DbCoursework.ListEdit DbCoursework.Runs DbCoursework.ServerManager DbCoursework.SettingsDialog
open DbCoursework.ServerEdits

def Full (f : Form) : Prop := ∀ x, f.inp x ≠ ""

/-- The enabled flags say what the texts are. -/
structure Fits (f : Form) : Prop where
  add : f.addServerBtn.enabled = true ↔ Full f
  save : f.saveServerBtn.enabled = true ↔ Full f
  clear : f.clearDataBtn.enabled = true ↔ ∃ x, f.inp x ≠ ""

/-- The flags fit, and exactly one of `Add` and `Save` is shown. -/
structure Agrees (f : Form) : Prop extends Fits f where
  one : f.addServerBtn.visible = !f.saveServerBtn.visible

lemma forall_field {P : Field → Prop} :
    (∀ x, P x) ↔ P .host ∧ P .port ∧ P .login ∧ P .pass ∧ P .db := by
  constructor
  · intro h
    exact ⟨h _, h _, h _, h _, h _⟩
  · rintro ⟨h1, h2, h3, h4, h5⟩ x
    cases x <;> assumption

lemma exists_field {P : Field → Prop} :
    (∃ x, P x) ↔ P .host ∨ P .port ∨ P .login ∨ P .pass ∨ P .db := by
  constructor
  · rintro ⟨x, hx⟩
    cases x <;> simp [hx]
  · rintro (h | h | h | h | h)
    all_goals exact ⟨_, h⟩

lemma full_iff_complete (f : Form) : Full f ↔ f.server.Complete := by
  rw [Full, forall_field]
  exact Iff.rfl

/-- `checkFormFill` makes the flags fit, whatever they were. -/
lemma checkFormFill_fits (f : Form) : Fits f.checkFormFill := by
  have hinp : f.checkFormFill.inp = f.inp := rfl
  refine ⟨?_, ?_, ?_⟩
  · rw [Full, hinp, forall_field]
    simp [Form.checkFormFill, Button.setEnabled, and_assoc]
  · rw [Full, hinp, forall_field]
    simp [Form.checkFormFill, Button.setEnabled, and_assoc]
  · rw [hinp, exists_field]
    simp [Form.checkFormFill, Button.setEnabled, or_assoc]

section SetText

variable (x : Field) (t : String) (f : Form)

@[simp] lemma setText_inp : (f.setText x t).inp = Function.update f.inp x t := by
  unfold Form.setText
  split
  · next h => rw [← h, Function.update_eq_self]
  · rfl

@[simp] lemma setText_addVisible :
    (f.setText x t).addServerBtn.visible = f.addServerBtn.visible := by
  unfold Form.setText; split <;> rfl

@[simp] lemma setText_saveVisible :
    (f.setText x t).saveServerBtn.visible = f.saveServerBtn.visible := by
  unfold Form.setText; split <;> rfl

variable {x t f}

lemma setText_fits_of_ne (h : f.inp x ≠ t) : Fits (f.setText x t) := by
  rw [Form.setText, if_neg h]
  exact checkFormFill_fits _

lemma setText_fits (h : Fits f) : Fits (f.setText x t) := by
  by_cases hx : f.inp x = t
  · rwa [Form.setText, if_pos hx]
  · exact setText_fits_of_ne hx

lemma setText_agrees (h : Agrees f) : Agrees (f.setText x t) :=
  ⟨setText_fits h.toFits, by simpa using h.one⟩

end SetText

/-! ### The slots -/

lemma clearInputFields_fits {f : Form} (h : Fits f ∨ f.inp .host ≠ "") :
    Fits f.clearInputFields := by
  have h1 : Fits (f.setText .host "") := h.elim setText_fits setText_fits_of_ne
  unfold Form.clearInputFields
  exact setText_fits (setText_fits (setText_fits (setText_fits h1)))

lemma clearInputFields_agrees {f : Form} (h : Fits f ∨ f.inp .host ≠ "")
    (hone : f.addServerBtn.visible = !f.saveServerBtn.visible) : Agrees f.clearInputFields :=
  ⟨clearInputFields_fits h, by simpa [Form.clearInputFields] using hone⟩

lemma load_agrees {f : Form} {srv : Server} (h : Agrees f) : Agrees (f.load srv) := by
  unfold Form.load
  exact setText_agrees (setText_agrees (setText_agrees (setText_agrees (setText_agrees h))))

/-- Showing `Save` instead of `Add` touches no flag that the texts decide. -/
lemma startEdit_agrees {f : Form} (h : Agrees f) : Agrees (State.startEdit f) :=
  ⟨⟨h.add, h.save, h.clear⟩, rfl⟩

lemma showAdd_agrees {f : Form} (h : Fits f) : Agrees (State.showAdd f) :=
  ⟨⟨h.add, h.save, h.clear⟩, rfl⟩

lemma fillInputFields_agrees {s : State} (h : Agrees s.form) : Agrees s.fillInputFields.form := by
  have hstart := startEdit_agrees h
  rw [fillInputFields_form]
  rcases lookup s with _ | i
  · rw [Option.elim_none]
    exact clearInputFields_agrees (Or.inl hstart.toFits) hstart.one
  · rw [Option.elim_some]
    exact load_agrees hstart

/-- The flags `saveServerEdit` sets by hand are wrong until the host is cleared. -/
lemma saveServerEdit_agrees {s : State} (hfull : Full s.form) : Agrees s.saveServerEdit.form := by
  rw [saveServerEdit_form]
  exact clearInputFields_agrees (Or.inr (hfull .host)) rfl

lemma enableEditAndRemoveButtons_agrees {s : State} (h : Agrees s.form) :
    Agrees s.enableEditAndRemoveButtons.form :=
  showAdd_agrees (clearInputFields_fits (Or.inl h.toFits))

lemma full_of_clickable {f : Form} (h : Agrees f) :
    (f.addServerBtn.clickable = true → Full f) ∧ (f.saveServerBtn.clickable = true → Full f) := by
  simp only [Button.clickable, Bool.and_eq_true]
  exact ⟨fun hc => h.add.mp hc.1, fun hc => h.save.mp hc.1⟩

lemma step_agrees {s s' : State} {e : Event} (h : Agrees s.form) (hs : step s e = some s') :
    Agrees s'.form := by
  have hclear : Agrees s.form.clearInputFields := clearInputFields_agrees (Or.inl h.toFits) h.one
  cases taken_of_step hs with
  | ignored e he => exact h
  | typing x t => exact setText_agrees h
  | add hc => exact hclear
  | save hc => exact saveServerEdit_agrees ((full_of_clickable h).2 hc)
  | edit hc => exact fillInputFields_agrees h
  | remove p i hc hi => exact h
  | clear hc => exact hclear
  | row k hk => exact enableEditAndRemoveButtons_agrees h
  | current r => exact h

lemma construct_agrees (servers : List Server) : Agrees (construct servers).form := by
  have hempty : ¬ Full (construct servers).form := fun h => h .host rfl
  refine ⟨⟨?_, ?_, ?_⟩, rfl⟩
  · simpa [construct, State.fillServerList] using hempty
  · simpa [construct, State.fillServerList] using hempty
  · simp [construct, State.fillServerList]

lemma run_agrees {servers : List Server} {es : List Event} {s : State}
    (h : run (construct servers) es = some s) : Agrees s.form :=
  run_inv (I := fun s => Agrees s.form) (fun _ _ _ h hs => step_agrees h hs)
    (construct_agrees servers) h

/-! ### Only complete servers are committed -/

lemma step_complete {s s' : State} {e : Event} (hform : Agrees s.form)
    (h : ∀ srv ∈ s.servers, srv.Complete) (hs : step s e = some s') :
    ∀ srv ∈ s'.servers, srv.Complete := by
  obtain ⟨hadd, hsave⟩ := full_of_clickable hform
  rw [step_servers hs]
  intro srv hsrv
  rcases edit_cases s e with he | ⟨hc, he⟩ | ⟨hc, i, -, he⟩ | ⟨-, i, -, he⟩
  · rw [he] at hsrv
    exact h srv hsrv
  · rw [he, Edit.apply, List.mem_append, List.mem_singleton] at hsrv
    rcases hsrv with hold | rfl
    · exact h srv hold
    · exact (full_iff_complete _).mp (hadd hc)
  · rw [he] at hsrv
    rcases List.mem_or_eq_of_mem_set hsrv with hold | rfl
    · exact h srv hold
    · exact (full_iff_complete _).mp (hsave hc)
  · rw [he] at hsrv
    exact h srv (List.mem_of_mem_eraseIdx hsrv)

/-- **The form agrees with its buttons in every reachable state, and only complete servers
get into the list.** -/
theorem form_agrees (servers : List Server) (es : List Event) (s : State)
    (h : run (construct servers) es = some s) :
    Agrees s.form ∧ ((∀ srv ∈ servers, srv.Complete) → ∀ srv ∈ s.servers, srv.Complete) := by
  refine ⟨run_agrees h, fun hall => ?_⟩
  have hinv : Agrees s.form ∧ ∀ srv ∈ s.servers, srv.Complete :=
    run_inv (I := fun s => Agrees s.form ∧ ∀ srv ∈ s.servers, srv.Complete)
      (fun _ _ _ hi hs => ⟨step_agrees hi.1 hs, step_complete hi.1 hi.2 hs⟩)
      ⟨construct_agrees servers, hall⟩ h
  exact hinv.2

theorem form_agrees_add_one :
    Agrees ((run (construct [⟨"h", "1", "d", "u", "p"⟩])
        [.clickRow 0, .clickEdit, .typing .port "2", .clickSave]).get (by decide)).form ∧
      ((∀ srv ∈ [(⟨"h", "1", "d", "u", "p"⟩ : Server)], srv.Complete) →
        ∀ srv ∈ ((run (construct [⟨"h", "1", "d", "u", "p"⟩])
          [.clickRow 0, .clickEdit, .typing .port "2", .clickSave]).get (by decide)).servers,
          srv.Complete) :=
  form_agrees _ _ _ (Option.some_get _).symm

end DbCoursework.FormButtons

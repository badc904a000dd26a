import DbCoursework.ItemView
import DbCoursework.Runs
import DbCoursework.ServerManager
import Mathlib.Data.List.Basic

/-!
The settings dialog: its state, its slots and the events that reach them.

A slot runs to its end before the next event, and `textChanged` runs `checkFormFill` at
once, in the middle of a slot that changes several fields. A click reaches its slot only on
a visible and enabled button. The one step without a defined result is `removeAt` outside
the list.
-/

namespace DbCoursework.SettingsDialog

open DbCoursework.ItemView DbCoursework.ServerManager

inductive Field
  | host | port | login | pass | db
  deriving DecidableEq

structure Button where
  enabled : Bool
  visible : Bool
  deriving DecidableEq

def Button.clickable (b : Button) : Bool := b.enabled && b.visible

def Button.setEnabled (on : Bool) (b : Button) : Button := { b with enabled := on }
def Button.setVisible (on : Bool) (b : Button) : Button := { b with visible := on }

/-- The line edits and the buttons under them. -/
structure Form where
  inp : Field → String
  addServerBtn : Button
  saveServerBtn : Button
  clearDataBtn : Button

namespace Form

def checkFormFill (f : Form) : Form :=
  let missing := (f.inp .host).isEmpty || (f.inp .port).isEmpty || (f.inp .login).isEmpty ||
    (f.inp .pass).isEmpty || (f.inp .db).isEmpty
  let started := !(f.inp .host).isEmpty || !(f.inp .port).isEmpty || !(f.inp .login).isEmpty ||
    !(f.inp .pass).isEmpty || !(f.inp .db).isEmpty
  { f with
    addServerBtn := f.addServerBtn.setEnabled !missing
    saveServerBtn := f.saveServerBtn.setEnabled !missing
    clearDataBtn := f.clearDataBtn.setEnabled started }

/-- `QLineEdit::setText`, and the user typing: `textChanged` comes exactly when the text
changes. -/
def setText (x : Field) (t : String) (f : Form) : Form :=
  if f.inp x = t then f else checkFormFill { f with inp := Function.update f.inp x t }

def clearInputFields (f : Form) : Form :=
  f |>.setText .host "" |>.setText .port "" |>.setText .login "" |>.setText .pass ""
    |>.setText .db ""

/-- The texts of the form as a server. -/
def server (f : Form) : Server where
  host := f.inp .host
  port := f.inp .port
  user := f.inp .login
  password := f.inp .pass
  db := f.inp .db

/-- The texts of a server put into the form. -/
def load (srv : Server) (f : Form) : Form :=
  f |>.setText .host srv.host |>.setText .port srv.port |>.setText .login srv.user
    |>.setText .pass srv.password |>.setText .db srv.db

end Form

/-- The dialog: `itemModel` is the model together with `servers_list`, the view on it. -/
structure State where
  servers : List Server
  serversInitialValues : List Server
  itemModel : View String
  form : Form
  editServerBtn : Button
  removeServerBtn : Button

/-- `QList::removeAt`, undefined outside the list. -/
def removeAt {α : Type*} (l : List α) (i : ℕ) : Option (List α) :=
  if i < l.length then some (l.eraseIdx i) else none

/-- The server a pointer returned by the source points at is its position in the list. -/
def getServerFromString (servers : List Server) (serverString : String) :
    Option (Fin servers.length) :=
  servers.findFinIdx? fun srv => constructServerListString srv == serverString

namespace State

/-- The text of the current row; row `-1` has none. -/
def currentText (s : State) : String := s.itemModel.current?.getD ""

def fillServerList (s : State) : State :=
  { s with
    itemModel := s.servers.foldl (fun m srv => m.appendRow (constructServerListString srv))
      s.itemModel.clear }

/-- The index at which the loop of `removeServerFromList` stops. -/
def removeIndex (s : State) : ℕ :=
  s.servers.findIdx fun srv => constructServerListString srv == s.currentText

def removeServerFromList (p : Neighbour) (s : State) : Option State :=
  (removeAt s.servers s.removeIndex).map fun servers =>
    { s with
      servers := servers
      itemModel := s.itemModel.removeCurrent p
      removeServerBtn := s.removeServerBtn.setEnabled false
      editServerBtn := s.editServerBtn.setEnabled false }

def addServer (s : State) : State :=
  { s with
    servers := s.servers ++ [s.form.server]
    itemModel := s.itemModel.appendRow (constructServerListString s.form.server)
    form := s.form.clearInputFields }

/-- The buttons as `saveServerEdit` sets them before it looks at the server. -/
def endEdit (f : Form) : Form :=
  { f with
    addServerBtn := (f.addServerBtn.setVisible true).setEnabled false
    saveServerBtn := (f.saveServerBtn.setVisible false).setEnabled false }

def saveServerEdit (s : State) : State :=
  match getServerFromString s.servers s.currentText with
  | none => { s with form := (endEdit s.form).clearInputFields }
  | some i =>
    fillServerList
      { s with
        servers := s.servers.set i s.form.server
        form := (endEdit s.form).clearInputFields }

def startEdit (f : Form) : Form :=
  { f with
    addServerBtn := f.addServerBtn.setVisible false
    saveServerBtn := f.saveServerBtn.setVisible true }

def fillInputFields (s : State) : State :=
  match getServerFromString s.servers s.currentText with
  | none => { s with form := (startEdit s.form).clearInputFields }
  | some i => { s with form := (startEdit s.form).load (s.servers.get i) }

def showAdd (f : Form) : Form :=
  { f with
    saveServerBtn := f.saveServerBtn.setVisible false
    addServerBtn := f.addServerBtn.setVisible true }

def enableEditAndRemoveButtons (s : State) : State :=
  { s with
    form := showAdd s.form.clearInputFields
    removeServerBtn := s.removeServerBtn.setEnabled true
    editServerBtn := s.editServerBtn.setEnabled true }

end State

/-- The dialog as its constructor leaves it when it puts `servers` in the list. The source
has a `TODO` where the stored servers would be loaded, so it always starts with none. -/
def construct (servers : List Server) : State :=
  State.fillServerList
    { servers := servers
      serversInitialValues := servers
      itemModel := View.empty
      form := ⟨fun _ => "", ⟨false, true⟩, ⟨false, false⟩, ⟨false, true⟩⟩
      editServerBtn := ⟨false, true⟩
      removeServerBtn := ⟨false, true⟩ }

/-- What can happen to the open dialog. `currentChanged` is a change of the view's current
row without a click, as the keyboard makes it. -/
inductive Event
  | typing (x : Field) (t : String)
  | clickAdd
  | clickSave
  | clickEdit
  | clickRemove (p : Neighbour)
  | clickClear
  | clickRow (k : ℕ)
  | currentChanged (r : Option ℕ)
  deriving DecidableEq

open State

def step (s : State) : Event → Option State
  | .typing x t => some { s with form := s.form.setText x t }
  | .clickAdd => some (if s.form.addServerBtn.clickable then s.addServer else s)
  | .clickSave => some (if s.form.saveServerBtn.clickable then s.saveServerEdit else s)
  | .clickEdit => some (if s.editServerBtn.clickable then s.fillInputFields else s)
  | .clickRemove p =>
    if s.removeServerBtn.clickable then s.removeServerFromList p else some s
  | .clickClear =>
    some (if s.form.clearDataBtn.clickable then { s with form := s.form.clearInputFields } else s)
  | .clickRow k =>
    some (if k < s.itemModel.rows.length then
      enableEditAndRemoveButtons { s with itemModel := s.itemModel.setCurrent (some k) } else s)
  | .currentChanged r => some { s with itemModel := s.itemModel.setCurrent r }

/-- The dialog after a sequence of events. -/
abbrev run : State → List Event → Option State := Runs.run step

end DbCoursework.SettingsDialog

import DbCoursework.Attempts
import DbCoursework.Closing

/-!
Settings sessions one after the other, and the start of the program after them.

Each session opens a new dialog with an empty list and ends with its close. The main window
reads the stored list at the next start and tries to connect to it.
-/

namespace DbCoursework.Sessions

open DbCoursework.Runs DbCoursework.SettingsArray DbCoursework.ServerManager
open DbCoursework.ServerStore DbCoursework.SettingsDialog DbCoursework.Closing
open DbCoursework.ConnectionString DbCoursework.Attempts

/-- What the user does in the dialog, and the answer if the close asks. -/
structure Session where
  events : List Event
  reply : Reply
  deriving DecidableEq

/-- The store after a session. -/
def session (σ : Store) (x : Session) : Option Store :=
  (SettingsDialog.run (construct []) x.events).map fun s => (closeEvent s x.reply σ).2

/-- The list a session stores. -/
def confirmed (x : Session) : Option (List Server) :=
  (SettingsDialog.run (construct []) x.events).bind fun s =>
    if x.reply = .yes ∧ s.servers ≠ [] then some s.servers else none

/-- The list confirmed last, or `l` if no session confirmed any. -/
def lastConfirmed (l : List Server) (xs : List Session) : List Server :=
  xs.foldl (fun l x => (confirmed x).getD l) l

/-- The constructor of `MainWindow`: the servers it reads, and the call it makes if there are
any. It reads them by a `SettingsDialog::loadServers` that no file declares: `load` stands for
it. -/
def mainWindow (load : Store → List Server → List Server) (σ : Store) :
    List Server × List Connections.Event :=
  let servers := load σ []
  (servers, if servers.isEmpty then [] else [.setupConnections servers])

/-- `load` reads the stored list, as `ServerManager::loadServers` does. -/
def ReadsStored (load : Store → List Server → List Server) : Prop :=
  ∀ σ l, load σ l = loadServers σ l

/-- Keys outside the stored list keep their values. -/
def Elsewhere (σ τ : Store) : Prop := ∀ k : Key, k.array ≠ serversKey → τ k = σ k

lemma saveServerList_elsewhere (l : List Server) (σ : Store) :
    Elsewhere σ (saveServerList l σ) := by
  intro k hk
  have hsize : k ≠ sizeKey serversKey := fun he => hk (by rw [he]; rfl)
  rw [saveServerList_eq, writeArray_store, if_neg hsize, if_neg hk]

/-! ### One session -/

lemma closeEvent_store {es : List Event} {s : State}
    (h : SettingsDialog.run (construct []) es = some s) (reply : Reply) (σ : Store) :
    (closeEvent s reply σ).2 =
      if reply = .yes ∧ s.servers ≠ [] then saveServerList s.servers σ else σ := by
  cases reply with
  | no => rw [closeEvent_keeps (Or.inr rfl), if_neg (by simp)]
  | yes =>
    rw [closeEvent_fresh h σ]
    by_cases hs : s.servers = [] <;> simp [hs]

lemma session_step {σ σ' : Store} {x : Session} (h : session σ x = some σ') :
    loadServers σ' [] = (confirmed x).getD (loadServers σ []) ∧ Elsewhere σ σ' := by
  obtain ⟨s, hs, rfl⟩ := Option.map_eq_some_iff.mp h
  rw [confirmed, hs, Option.bind_some, closeEvent_store hs]
  by_cases hc : x.reply = .yes ∧ s.servers ≠ []
  · rw [if_pos hc, if_pos hc]
    exact ⟨load_save s.servers σ [], saveServerList_elsewhere s.servers σ⟩
  · rw [if_neg hc, if_neg hc]
    exact ⟨rfl, fun k _ => rfl⟩

/-! ### Any number of sessions -/

lemma load_after_sessions (σ σ' : Store) (xs : List Session)
    (h : Runs.run session σ xs = some σ') :
    loadServers σ' [] = lastConfirmed (loadServers σ []) xs ∧ Elsewhere σ σ' := by
  induction xs generalizing σ with
  | nil =>
    cases h
    exact ⟨rfl, fun k _ => rfl⟩
  | cons x xs ih =>
    obtain ⟨τ, hx, hxs⟩ := (run_cons_eq_some session).mp h
    obtain ⟨hload, helse⟩ := session_step hx
    obtain ⟨hload', helse'⟩ := ih τ hxs
    refine ⟨?_, fun k hk => (helse' k hk).trans (helse k hk)⟩
    rw [hload', hload, lastConfirmed, lastConfirmed, List.foldl_cons]

/-- **The list confirmed last is stored**, after any sessions, and nothing else has changed. -/
theorem stored_after_sessions (σ σ' : Store) (xs : List Session)
    (h : Runs.run session σ xs = some σ') :
    loadServers σ' [] = lastConfirmed (loadServers σ []) xs ∧ Elsewhere σ σ' :=
  load_after_sessions σ σ' xs h

theorem stored_after_two : ∃ σ',
    Runs.run session emptyStore [⟨[.typing .host "h", .typing .port "1", .typing .login "u",
        .typing .pass "p", .typing .db "d", .clickAdd], .yes⟩, ⟨[.typing .host "g"], .yes⟩] =
        some σ' ∧
      loadServers σ' [] = [⟨"h", "1", "d", "u", "p"⟩] :=
  ⟨_, (Option.some_get (by decide)).symm,
    (stored_after_sessions _ _ _ (Option.some_get (by decide)).symm).1.trans (by decide)⟩

section Start

variable {load : Store → List Server → List Server} (hload : ReadsStored load)

include hload

/-- The constructor leaves the loop all servers it has read. -/
lemma run_mainWindow (σ : Store) : ∃ s, Connections.run Connections.init (mainWindow load σ).2 =
    some s ∧ s.pool.tasks = [] ∧ left s = loadServers σ [] := by
  unfold mainWindow
  rw [hload]
  rcases loadServers σ [] with _ | ⟨srv, l⟩
  · exact ⟨_, rfl, rfl, rfl⟩
  · exact ⟨_, rfl, rfl, rfl⟩

/-- **The next start connects to the list confirmed last**, if its loader reads the stored list.
Until the settings are opened the attempts are those for its servers, in order and as far as the
loop has come; the main thread gets through the loop, and when it has taken as many steps as
there are servers, with whatever else in between, there is one for each. -/
theorem start_after_sessions (σ σ' : Store) (xs : List Session)
    (h : Runs.run session σ xs = some σ') :
    ∃ s, Connections.run Connections.init (mainWindow load σ').2 = some s ∧
      (∃ t, Connections.run s
        (List.replicate (lastConfirmed (loadServers σ []) xs).length .main) = some t) ∧
      ∀ es t, asked es = [] → Connections.run s es = some t →
        t.pool.tasks.map Futures.Task.arg ++ (left t).map constructConnectionString =
            (lastConfirmed (loadServers σ []) xs).map constructConnectionString ∧
          ((lastConfirmed (loadServers σ []) xs).length ≤ es.count .main →
            t.pool.tasks.map Futures.Task.arg =
              (lastConfirmed (loadServers σ []) xs).map constructConnectionString) := by
  obtain ⟨s, hs, htasks, hleft⟩ := run_mainWindow hload σ'
  have hinv := (Connections.run_inv Connections.init_inv hs).1
  rw [(load_after_sessions σ σ' xs h).1] at hleft
  have hsteps := exists_run_left hinv
  rw [hleft] at hsteps
  refine ⟨s, hs, hsteps, fun es t hes hrun => ?_⟩
  have hargs := (run_asked hinv hrun).1
  rw [htasks, hleft, hes, List.append_nil, List.map_nil, List.nil_append] at hargs
  refine ⟨hargs, fun hcount => ?_⟩
  rwa [run_left hinv hes hrun, hleft, List.drop_of_length_le hcount, List.map_nil,
    List.append_nil] at hargs

end Start

theorem start_after_one : ∃ σ' s t,
    Runs.run session emptyStore [⟨[.typing .host "h", .typing .port "1", .typing .login "u",
        .typing .pass "p", .typing .db "d", .clickAdd], .yes⟩] = some σ' ∧
      Connections.run Connections.init (mainWindow loadServers σ').2 = some s ∧
      Connections.run s [.main, .finish 0 true] = some t ∧
      t.pool.tasks.map Futures.Task.arg =
        [⟨"h", "1", "d", "u", "p"⟩].map constructConnectionString := by
  have hload : ReadsStored loadServers := fun _ _ => rfl
  obtain ⟨s, hs, -, hall⟩ := start_after_sessions hload emptyStore _ [⟨[.typing .host "h",
    .typing .port "1", .typing .login "u", .typing .pass "p", .typing .db "d", .clickAdd], .yes⟩]
    (Option.some_get (by decide)).symm
  obtain ⟨t, ht⟩ := Option.isSome_iff_exists.mp
    (show (Connections.run s [.main, .finish 0 true]).isSome = true by
      obtain rfl := Option.some.inj (hs.symm.trans (Option.some_get (by decide)).symm)
      decide)
  exact ⟨_, s, t, (Option.some_get (by decide)).symm, hs, ht,
    ((hall [.main, .finish 0 true] t rfl ht).2 (by decide)).trans (by decide)⟩

end DbCoursework.Sessions

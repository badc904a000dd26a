import DbCoursework.ServerEdits
import DbCoursework.ServerStore
import Mathlib.Data.List.Perm.Subperm
import Mathlib.Data.List.Zip

/-!
Closing the dialog: when it asks, and what is stored afterwards.
-/

namespace DbCoursework.Closing

open DbCoursework.ListEdit DbCoursework.Runs DbCoursework.SettingsArray
open DbCoursework.ServerManager DbCoursework.ServerStore DbCoursework.SettingsDialog
open DbCoursework.ServerEdits

/-- The answers to the question the dialog asks on close. -/
inductive Reply
  | yes | no
  deriving DecidableEq

/-- `closeEvent`: whether the user is asked, and the store afterwards. The reply counts only
if the user is asked. -/
def closeEvent (s : State) (reply : Reply) (σ : Store) : Bool × Store :=
  if qlistEq s.serversInitialValues s.servers then (false, σ)
  else if reply = .yes then (true, saveServerList s.servers σ)
  else (true, σ)

lemma run_serversInitialValues {servers : List Server} {es : List Event} {s : State}
    (h : run (construct servers) es = some s) : s.serversInitialValues = servers :=
  run_inv (I := fun s => s.serversInitialValues = servers)
    (fun _ _ _ hi hs => (step_serversInitialValues hs).trans hi) rfl h

lemma closeEvent_asked {servers : List Server} {es : List Event} {s : State}
    (h : run (construct servers) es = some s) (reply : Reply) (σ : Store) :
    (closeEvent s reply σ).1 = true ↔
      servers.map Server.address ≠ s.servers.map Server.address := by
  have hq := qlistEq_iff s.serversInitialValues s.servers
  rw [run_serversInitialValues h] at hq
  unfold closeEvent
  rw [run_serversInitialValues h]
  by_cases ha : qlistEq servers s.servers = true
  · simp [ha, hq.mp ha]
  · have hne : servers.map Server.address ≠ s.servers.map Server.address := mt hq.mpr ha
    by_cases hr : reply = .yes <;> simpa [ha, hr] using hne

/-! ### No change is lost silently -/

/-- The user is asked about any change, a yes stores the list, and otherwise the store is
left as it was. -/
structure AsksAndSaves (servers : List Server) (s : State) : Prop where
  asks : ∀ reply σ, (closeEvent s reply σ).1 = true ↔ s.servers ≠ servers
  saves : ∀ σ dest, (closeEvent s .yes σ).1 = true →
    loadServers (closeEvent s .yes σ).2 dest = s.servers
  keeps : ∀ reply σ, (closeEvent s reply σ).1 = false ∨ reply = .no →
    (closeEvent s reply σ).2 = σ

lemma closeEvent_yes {s : State} {σ : Store} (h : (closeEvent s .yes σ).1 = true) :
    (closeEvent s .yes σ).2 = saveServerList s.servers σ := by
  unfold closeEvent at h ⊢
  split at h
  · cases h
  · next hq => simp [hq]

lemma closeEvent_keeps {s : State} {reply : Reply} {σ : Store}
    (h : (closeEvent s reply σ).1 = false ∨ reply = .no) : (closeEvent s reply σ).2 = σ := by
  unfold closeEvent at h ⊢
  by_cases hq : qlistEq s.serversInitialValues s.servers = true
  · simp [hq]
  · by_cases hr : reply = .yes
    · simp [hq, hr] at h
    · simp [hq, hr]

/-- **The dialog asks and saves as it should** exactly when the list is unchanged or differs
from the initial one in its length or in a field other than a password. -/
theorem asksAndSaves_iff (servers : List Server) (es : List Event) (s : State)
    (h : run (construct servers) es = some s) :
    AsksAndSaves servers s ↔
      s.servers = servers ∨ s.servers.map Server.address ≠ servers.map Server.address := by
  constructor
  · intro hclose
    by_contra hcond
    obtain ⟨hne, haddr⟩ := not_or.mp hcond
    have hask := (hclose.asks .yes (fun _ => none)).mpr hne
    exact (closeEvent_asked h _ _).mp hask (not_not.mp haddr).symm
  · intro hcond
    refine ⟨fun reply σ => ?_, fun σ dest hask => ?_, fun reply σ => closeEvent_keeps⟩
    · rw [closeEvent_asked h]
      constructor
      · rintro hne heq
        exact hne (by rw [heq])
      · intro hne heq
        rcases hcond with hsame | haddr
        · exact hne hsame
        · exact haddr heq.symm
    · rw [closeEvent_yes hask]
      exact load_save s.servers σ dest

theorem asksAndSaves_after_edit : ∃ s,
    run (construct [⟨"h", "1", "d", "u", "p"⟩])
        [.clickRow 0, .clickEdit, .typing .port "2", .clickSave] = some s ∧
      AsksAndSaves [⟨"h", "1", "d", "u", "p"⟩] s :=
  ⟨_, (Option.some_get (by decide)).symm,
    (asksAndSaves_iff _ _ _ (Option.some_get (by decide)).symm).mpr (by decide)⟩

/-- A new password alone counts as no change. -/
theorem password_change_lost : ¬ ∀ servers es s,
    run (construct servers) es = some s → AsksAndSaves servers s := by
  intro h
  have hclose := h [⟨"h", "1", "d", "u", "p"⟩]
    [.clickRow 0, .clickEdit, .typing .pass "q", .clickSave] _
    (Option.some_get (by decide)).symm
  have hasked := (hclose.asks .yes fun _ => none).mpr (by decide)
  revert hasked
  decide

/-! ### Stored servers that the user did not touch -/

/-- The entries of a list whose tag satisfies a test. -/
def tagged {ι : Type*} (p : ι → Bool) (tags : List ι) (l : List Server) : List Server :=
  ((tags.zip l).filter fun x => p x.1).map Prod.snd

/-- Entries of the dialog's list carry `some n` when they were loaded from position `n` of
the stored list, and `none` when they were added. The constructor loads nothing. -/
def loadedTags : List (Option ℕ) := []

/-- The stored servers that no `Remove` and no `Save` of the run acted on. -/
def untouched (stored : List Server) (es : List Event) : List Server :=
  tagged (fun n => some n ∉ tagsHit none (construct []) es loadedTags)
    (List.range stored.length) stored

/-- The servers added in the run and not removed in it, as they are at its end. -/
def added (es : List Event) (s : State) : List Server :=
  tagged Option.isNone (tagsAfter none (construct []) es loadedTags) s.servers

/-- The list loaded afterwards has the untouched servers in their order, and room for
the added ones besides. -/
def KeepsUntouched (stored : List Server) (es : List Event) (s : State)
    (loaded : List Server) : Prop :=
  (untouched stored es).Sublist loaded ∧ (untouched stored es ++ added es s).Subperm loaded

lemma tagged_of_forall {ι : Type*} {p : ι → Bool} {tags : List ι} {l : List Server}
    (hlen : tags.length = l.length) (h : ∀ x ∈ tags, p x = true) : tagged p tags l = l := by
  unfold tagged
  rw [List.filter_eq_self.mpr, List.map_snd_zip (by omega)]
  rintro ⟨x, srv⟩ hx
  exact h x (List.of_mem_zip hx).1

/-- Nothing in the dialog was loaded, so nothing the run does touches a stored server. -/
lemma untouched_eq (stored : List Server) (es : List Event) : untouched stored es = stored := by
  refine tagged_of_forall (by simp) fun n _ => ?_
  rw [decide_eq_true_eq]
  intro hn
  rcases mem_tagsHit hn with h | h
  · cases h
  · cases h

lemma added_eq {es : List Event} {s : State} (h : run (construct []) es = some s) :
    added es s = s.servers := by
  refine tagged_of_forall (length_tagsAfter rfl h) fun x hx => ?_
  rcases mem_tagsAfter hx with h' | rfl
  · cases h'
  · rfl

/-- The dialog opens with no servers, so it asks on close exactly when its list is not
empty. -/
lemma closeEvent_fresh {es : List Event} {s : State} (h : run (construct []) es = some s)
    (σ : Store) : closeEvent s .yes σ =
      if s.servers = [] then (false, σ) else (true, saveServerList s.servers σ) := by
  have hask := closeEvent_asked h .yes σ
  by_cases hs : s.servers = []
  · have hno : (closeEvent s .yes σ).1 = false := by
      rw [← Bool.not_eq_true, hask]
      simp [hs]
    rw [if_pos hs]
    exact Prod.ext hno (closeEvent_keeps (Or.inl hno))
  · have hyes : (closeEvent s .yes σ).1 = true := by
      rw [hask]
      simpa using fun he => hs he
    rw [if_neg hs]
    exact Prod.ext hyes (closeEvent_yes hyes)

end DbCoursework.Closing

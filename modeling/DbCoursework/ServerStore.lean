import DbCoursework.ServerManager
import Mathlib.Data.List.Induction

/-!
The stored server list: what saving a list writes, that loading reads it back, and what
remains in the store of lists saved before.
-/

namespace DbCoursework.ServerStore

open DbCoursework.SettingsArray DbCoursework.ServerManager

def saveServer (srv : Server) (settings : Settings) : Settings :=
  settings
    |>.setValue "host" (.string srv.host)
    |>.setValue "port" (.string srv.port)
    |>.setValue "user" (.string srv.user)
    |>.setValue "password" (.string srv.password)
    |>.setValue "db" (.string srv.db)

/-- The loop of `saveServerList`, from index `i` on. -/
def saveServers : ℕ → List Server → Settings → Settings
  | _, [], settings => settings
  | i, srv :: rest, settings => saveServers (i + 1) rest (saveServer srv (settings.setArrayIndex i))

/-- `SettingsDialog::saveServerList`: the store after it. -/
def saveServerList (servers : List Server) (σ : Store) : Store :=
  (saveServers 0 servers ((Settings.on σ).beginWriteArray serversKey)).endArray.store

/-- The store after saving the lists one after the other. -/
def saveAll (h : List (List Server)) (σ : Store) : Store := h.foldl (fun σ l => saveServerList l σ) σ

/-! ### Servers as records of an array -/

def entryNames : List String := ["host", "port", "user", "password", "db"]

def entry (srv : Server) (n : String) : Variant :=
  .string <|
    if n = "host" then srv.host else if n = "port" then srv.port else
      if n = "user" then srv.user else if n = "password" then srv.password else srv.db

lemma saveServers_eq (l : List Server) (i : ℕ) (s : Settings) :
    saveServers i l s = writeElems entryNames entry i l s := by
  induction l generalizing i s with
  | nil => rfl
  | cons srv l ih => rw [saveServers, ih]; rfl

lemma saveServerList_eq (l : List Server) (σ : Store) :
    saveServerList l σ = writeArray entryNames entry serversKey l σ := by
  rw [saveServerList, saveServers_eq]; rfl

def ofEntries (g : String → Option Variant) : Server where
  host := toString (g "host")
  port := toString (g "port")
  user := toString (g "user")
  password := toString (g "password")
  db := toString (g "db")

lemma ofEntries_entry (srv : Server) (g : String → Option Variant)
    (h : ∀ n ∈ entryNames, g n = some (entry srv n)) : ofEntries g = srv := by
  simp only [entryNames, List.mem_cons, List.not_mem_nil, or_false, forall_eq_or_imp,
    forall_eq] at h
  obtain ⟨h1, h2, h3, h4, h5⟩ := h
  simp [ofEntries, h1, h2, h3, h4, h5, entry, SettingsArray.toString]

lemma loadServers_eq (σ : Store) (dest : List Server) :
    loadServers σ dest =
      (List.range (toInt (σ (sizeKey serversKey)))).map
        fun i => ofEntries (entries σ serversKey i) := by
  have hrd : ∀ s, readServer s = ofEntries fun n => s.value n := fun _ => rfl
  have h := (readElems_eq hrd (toInt (σ (sizeKey serversKey))) ⟨σ, serversKey, 0, none⟩ []).1
  simpa [loadServers, Settings.beginReadArray, Settings.on] using h

lemma load_save (l : List Server) (σ : Store) (dest : List Server) :
    loadServers (saveServerList l σ) dest = l := by
  rw [loadServers_eq, saveServerList_eq]
  exact map_entries_writeArray entryNames entry ofEntries_entry l σ

/-- **Loading undoes saving**, over any earlier content of the store and any list the
destination held. -/
theorem loadServers_saveServerList (σ : Store) (h : List (List Server)) (l dest : List Server) :
    loadServers (saveServerList l (saveAll h σ)) dest = l :=
  load_save l (saveAll h σ) dest

/-! ### What earlier saves leave behind -/

def emptyStore : Store := fun _ => none

/-- The server that the lists saved one after the other leave at position `i`: that of the
last list long enough to have one there. -/
def leftAt (h : List (List Server)) (i : ℕ) : Option Server :=
  h.foldl (fun srv l => (l[i]?).or srv) none

/-- All keys and values of the stored list are the same. -/
def SameServers (σ τ : Store) : Prop :=
  ∀ e n, σ ⟨serversKey, e, n⟩ = τ ⟨serversKey, e, n⟩

/-- The keys of some element hold the data of the server. -/
def Held (srv : Server) (σ : Store) : Prop :=
  ∃ e, ∀ n ∈ entryNames, σ ⟨serversKey, e, n⟩ = some (entry srv n)

/-- No server of an earlier list that is not in the last one is held any more. -/
def NothingLeft (h : List (List Server)) (l : List Server) : Prop :=
  ∀ srv, (∃ l' ∈ h, srv ∈ l') → srv ∉ l → ¬ Held srv (saveAll (h ++ [l]) emptyStore)

lemma saveServerList_elem (l : List Server) (σ : Store) (i : ℕ) {n : String}
    (hn : n ∈ entryNames) : saveServerList l σ ⟨serversKey, some (i + 1), n⟩ =
      ((l[i]?).map fun srv => entry srv n).or (σ ⟨serversKey, some (i + 1), n⟩) := by
  have hne : (⟨serversKey, some (i + 1), n⟩ : Key) ≠ sizeKey serversKey := by simp [sizeKey]
  rw [saveServerList_eq, writeArray_store, if_neg hne, if_pos rfl]
  simp [written, hn, elemAt]

/-- Keys that no server is stored under: saving writes nothing there but the size. -/
lemma saveServerList_other (l : List Server) (σ : Store) {k : Key}
    (hk : k.name ∉ entryNames ∨ k.elem = none ∨ k.elem = some 0) :
    saveServerList l σ k = if k = sizeKey serversKey then some (.int l.length) else σ k := by
  have hw : written entryNames entry 0 l k = none := by
    rcases hk with hk | hk | hk <;> simp [written, hk, elemAt]
  rw [saveServerList_eq, writeArray_store, hw]
  simp

lemma saveAll_concat (h : List (List Server)) (l : List Server) (σ : Store) :
    saveAll (h ++ [l]) σ = saveServerList l (saveAll h σ) := by
  simp [saveAll]

lemma leftAt_concat (h : List (List Server)) (l : List Server) (i : ℕ) :
    leftAt (h ++ [l]) i = (l[i]?).or (leftAt h i) := by
  simp [leftAt]

lemma saveAll_elem (h : List (List Server)) (i : ℕ) {n : String} (hn : n ∈ entryNames) :
    saveAll h emptyStore ⟨serversKey, some (i + 1), n⟩ =
      (leftAt h i).map fun srv => entry srv n := by
  induction h using List.reverseRecOn with
  | nil => rfl
  | append_singleton h l ih =>
    rw [saveAll_concat, saveServerList_elem l _ i hn, ih, leftAt_concat]
    rcases l[i]? with _ | srv <;> rfl

lemma saveAll_other (h : List (List Server)) {k : Key}
    (hk : k.name ∉ entryNames ∨ k.elem = none ∨ k.elem = some 0) (hsize : k ≠ sizeKey serversKey) :
    saveAll h emptyStore k = none := by
  induction h using List.reverseRecOn with
  | nil => rfl
  | append_singleton h l ih => rw [saveAll_concat, saveServerList_other l _ hk, if_neg hsize, ih]

/-- The entries of a server determine it. -/
lemma map_entry_inj {o o' : Option Server}
    (h : ∀ n ∈ entryNames, (o.map fun srv => entry srv n) = o'.map fun srv => entry srv n) :
    o = o' := by
  have hhost := h "host" (by simp [entryNames])
  rcases o with _ | a <;> rcases o' with _ | b
  · rfl
  · simp at hhost
  · simp at hhost
  · have ha := ofEntries_entry a (fun n => some (entry b n)) fun n hn => (h n hn).symm
    have hb := ofEntries_entry b (fun n => some (entry b n)) fun n _ => rfl
    rw [← ha, hb]

lemma leftAt_mem {h : List (List Server)} {i : ℕ} {srv : Server} (hl : leftAt h i = some srv) :
    ∃ l ∈ h, srv ∈ l := by
  induction h using List.reverseRecOn with
  | nil => cases hl
  | append_singleton h l ih =>
    rw [leftAt_concat] at hl
    rcases hli : l[i]? with _ | srv'
    · rw [hli, Option.none_or] at hl
      obtain ⟨l', hl', hmem⟩ := ih hl
      exact ⟨l', by simp [hl'], hmem⟩
    · rw [hli, Option.some_or] at hl
      obtain rfl : srv' = srv := Option.some.inj hl
      exact ⟨l, by simp, List.mem_of_getElem? hli⟩

lemma leftAt_of_length_le {h : List (List Server)} {l : List Server} {i : ℕ}
    (hi : l.length ≤ i) : leftAt (h ++ [l]) i = leftAt h i := by
  rw [leftAt_concat, List.getElem?_eq_none hi, Option.none_or]

lemma leftAt_of_lt {h : List (List Server)} {l : List Server} {i : ℕ} (hi : i < l.length) :
    leftAt (h ++ [l]) i = some l[i] := by
  rw [leftAt_concat, List.getElem?_eq_getElem hi, Option.some_or]

/-- What is held is what the lists left at some position. -/
lemma held_iff (h : List (List Server)) (srv : Server) :
    Held srv (saveAll h emptyStore) ↔ ∃ i, leftAt h i = some srv := by
  constructor
  · rintro ⟨e, he⟩
    rcases e with _ | _ | i
    · have hhost := he "host" (by simp [entryNames])
      rw [saveAll_other h (Or.inr (Or.inl rfl)) (by simp [sizeKey])] at hhost
      cases hhost
    · have hhost := he "host" (by simp [entryNames])
      rw [saveAll_other h (Or.inr (Or.inr rfl)) (by simp [sizeKey])] at hhost
      cases hhost
    · refine ⟨i, map_entry_inj fun n hn => ?_⟩
      rw [← saveAll_elem h i hn, he n hn]
      rfl
  · rintro ⟨i, hi⟩
    refine ⟨some (i + 1), fun n hn => ?_⟩
    rw [saveAll_elem h i hn, hi]
    rfl

lemma sameServers_iff (h₁ h₂ : List (List Server)) (l : List Server) :
    SameServers (saveAll (h₁ ++ [l]) emptyStore) (saveAll (h₂ ++ [l]) emptyStore) ↔
      ∀ i ≥ l.length, leftAt h₁ i = leftAt h₂ i := by
  constructor
  · intro hsame i hi
    refine map_entry_inj fun n hn => ?_
    have hkey := hsame (some (i + 1)) n
    rwa [saveAll_elem _ i hn, saveAll_elem _ i hn, leftAt_of_length_le hi,
      leftAt_of_length_le hi] at hkey
  · intro hleft e n
    by_cases hother : n ∉ entryNames ∨ e = none ∨ e = some 0
    · rw [saveAll_concat, saveAll_concat, saveServerList_other l _ hother,
        saveServerList_other l _ hother]
      by_cases hsize : (⟨serversKey, e, n⟩ : Key) = sizeKey serversKey
      · rw [if_pos hsize, if_pos hsize]
      · rw [if_neg hsize, if_neg hsize, saveAll_other h₁ hother hsize,
          saveAll_other h₂ hother hsize]
    · obtain ⟨hn, he⟩ := not_or.mp hother
      obtain ⟨hnone, hzero⟩ := not_or.mp he
      rcases e with _ | _ | i
      · exact absurd rfl hnone
      · exact absurd rfl hzero
      · rw [saveAll_elem _ i (not_not.mp hn), saveAll_elem _ i (not_not.mp hn)]
        rcases Nat.lt_or_ge i l.length with hi | hi
        · rw [leftAt_of_lt hi, leftAt_of_lt hi]
        · rw [leftAt_of_length_le hi, leftAt_of_length_le hi, hleft i hi]

lemma nothingLeft_iff (h : List (List Server)) (l : List Server) :
    NothingLeft h l ↔ ∀ i ≥ l.length, ∀ srv, leftAt h i = some srv → srv ∈ l := by
  constructor
  · intro hnone i hi srv hleft
    by_contra hsrv
    refine hnone srv (leftAt_mem hleft) hsrv ((held_iff _ srv).mpr ⟨i, ?_⟩)
    rw [leftAt_of_length_le hi, hleft]
  · intro hleft srv _ hsrv hheld
    obtain ⟨i, hi⟩ := (held_iff _ srv).mp hheld
    rcases Nat.lt_or_ge i l.length with hlt | hge
    · rw [leftAt_of_lt hlt] at hi
      exact hsrv (Option.some.inj hi ▸ List.getElem_mem hlt)
    · rw [leftAt_of_length_le hge] at hi
      exact hsrv (hleft i hge srv hi)

/-- **What is stored depends on more than the last list**: two histories that end with the
same list leave the same keys exactly when their earlier lists leave the same servers past
its end, and nothing of a removed server is left exactly when every server left there is
in the last list. -/
theorem stored_after_save_iff (h₁ h₂ : List (List Server)) (l : List Server) :
    (SameServers (saveAll (h₁ ++ [l]) emptyStore) (saveAll (h₂ ++ [l]) emptyStore) ↔
        ∀ i ≥ l.length, leftAt h₁ i = leftAt h₂ i) ∧
      (NothingLeft h₁ l ↔ ∀ i ≥ l.length, ∀ srv, leftAt h₁ i = some srv → srv ∈ l) :=
  ⟨sameServers_iff h₁ h₂ l, nothingLeft_iff h₁ l⟩

/-- One server saved and then removed: its password is still stored. -/
theorem removed_server_left : ¬ ∀ h₁ h₂ l,
    SameServers (saveAll (h₁ ++ [l]) emptyStore) (saveAll (h₂ ++ [l]) emptyStore) ∧
      NothingLeft h₁ l := by
  intro h
  have hsame := (h [[⟨"h", "1", "d", "u", "p"⟩]] [] []).1 (some 1) "password"
  revert hsame
  decide

end DbCoursework.ServerStore

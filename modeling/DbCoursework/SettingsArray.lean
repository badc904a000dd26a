import Mathlib.Data.Nat.Notation
import Mathlib.Data.Option.Basic
import Mathlib.Logic.Function.Basic
import Mathlib.Tactic.Lemma
import Mathlib.Tactic.Set

/-!
Arrays in a key/value settings store, as `QSettings` keeps them.

Element `i` of an array lives under the key prefix `i + 1`, beside a `size` entry. Opening
an array for writing without a size drops the old `size` entry and nothing else; closing it
writes as size the largest number that was set, or `0`. So an array is written in place
over what an earlier, longer one left behind, and the results of this file say exactly
which keys a write decides.
-/

namespace DbCoursework.SettingsArray

/-- A key: the array, the number of the element, `none` for the array's own entries, and
the name. -/
structure Key where
  array : String
  elem : Option ℕ
  name : String
  deriving DecidableEq

inductive Variant
  | int (n : ℕ)
  | string (s : String)
  deriving DecidableEq

abbrev Store := Key → Option Variant

/-- `QVariant::toInt`; a missing entry reads as `0`. -/
def toInt : Option Variant → ℕ
  | some (.int n) => n
  | some (.string s) => s.toNat?.getD 0
  | none => 0

/-- `QVariant::toString`; a missing entry reads as the empty string. -/
def toString : Option Variant → String
  | some (.int n) => n.repr
  | some (.string s) => s
  | none => ""

/-- A settings object: the store, the open array, the number of the current element (`0`
before the first `setArrayIndex`) and, for an array written without a size, the largest
number so far. -/
structure Settings where
  store : Store
  array : String
  num : ℕ
  maxNum : Option ℕ

def Settings.on (σ : Store) : Settings := ⟨σ, "", 0, none⟩

def sizeKey (p : String) : Key := ⟨p, none, "size"⟩

namespace Settings

def beginWriteArray (p : String) (s : Settings) : Settings :=
  ⟨Function.update s.store (sizeKey p) none, p, 0, some 0⟩

def beginReadArray (p : String) (s : Settings) : ℕ × Settings :=
  (toInt (s.store (sizeKey p)), ⟨s.store, p, 0, none⟩)

def setArrayIndex (i : ℕ) (s : Settings) : Settings :=
  { s with num := i + 1, maxNum := s.maxNum.map fun m => max m (i + 1) }

def key (s : Settings) (n : String) : Key := ⟨s.array, if s.num = 0 then none else some s.num, n⟩

def setValue (n : String) (v : Variant) (s : Settings) : Settings :=
  { s with store := Function.update s.store (s.key n) (some v) }

def value (n : String) (s : Settings) : Option Variant := s.store (s.key n)

def endArray (s : Settings) : Settings :=
  match s.maxNum with
  | some m => .on (Function.update s.store (sizeKey s.array) (some (.int m)))
  | none => .on s.store

end Settings

open Settings

/-! ### Writing an array of records -/

variable {α : Type*} (names : List String) (val : α → String → Variant)

def writeRecord (a : α) (s : Settings) : Settings :=
  names.foldl (fun s n => s.setValue n (val a n)) s

def writeElems : ℕ → List α → Settings → Settings
  | _, [], s => s
  | i, a :: l, s => writeElems (i + 1) l (writeRecord names val a (s.setArrayIndex i))

/-- A whole array, written without a size. -/
def writeArray (p : String) (l : List α) (σ : Store) : Store :=
  (writeElems names val 0 l ((Settings.on σ).beginWriteArray p)).endArray.store

/-- The record that an element number stands for in a list kept from index `i` on. -/
def elemAt (i : ℕ) (l : List α) : Option ℕ → Option α
  | some (m + 1) => if i ≤ m then l[m - i]? else none
  | _ => none

lemma elemAt_cons (i : ℕ) (a : α) (l : List α) (e : Option ℕ) :
    elemAt i (a :: l) e = if e = some (i + 1) then some a else elemAt (i + 1) l e := by
  rcases e with _ | _ | m
  · rfl
  · simp [elemAt]
  · rcases Nat.lt_trichotomy m i with h | rfl | h
    · have h1 : ¬ i ≤ m := by omega
      have h2 : ¬ i + 1 ≤ m := by omega
      simp [elemAt, h1, h2, show m ≠ i by omega]
    · simp [elemAt]
    · have h1 : m - i = (m - (i + 1)) + 1 := by omega
      simp [elemAt, h1, show i ≤ m by omega, show i + 1 ≤ m by omega, show m ≠ i by omega]

lemma elemAt_nil (i : ℕ) (e : Option ℕ) : elemAt i ([] : List α) e = none := by
  rcases e with _ | _ | m <;> simp [elemAt]

/-- What a write of `l` puts under a key, if it puts anything there. -/
def written (i : ℕ) (l : List α) (k : Key) : Option Variant :=
  if k.name ∈ names then (elemAt i l k.elem).map fun a => val a k.name else none

lemma writeRecord_frame (a : α) (s : Settings) :
    (writeRecord names val a s).array = s.array ∧ (writeRecord names val a s).num = s.num ∧
      (writeRecord names val a s).maxNum = s.maxNum := by
  unfold writeRecord
  induction names generalizing s with
  | nil => simp
  | cons n ns ih => exact ih (s.setValue n (val a n))

lemma writeRecord_store (a : α) (s : Settings) (k : Key) :
    (writeRecord names val a s).store k =
      if k.name ∈ names ∧ k = s.key k.name then some (val a k.name) else s.store k := by
  unfold writeRecord
  induction names generalizing s with
  | nil => simp
  | cons n ns ih =>
    rw [List.foldl_cons, ih]
    have hkey : (s.setValue n (val a n)).key k.name = s.key k.name := rfl
    rw [hkey]
    by_cases hk : k = s.key k.name
    · by_cases hn : k.name = n
      · subst hn
        simp [← hk, setValue]
      · have hne : k ≠ s.key n := fun h => hn (by rw [h]; rfl)
        simp [hk.symm, hn, setValue, Function.update_of_ne hne]
    · have hne : k ≠ s.key n := fun h => hk (by rw [h]; rfl)
      simp [hk, setValue, Function.update_of_ne hne]

lemma writeElems_frame (l : List α) (i : ℕ) (s : Settings) (hm : s.maxNum = some i) :
    (writeElems names val i l s).array = s.array ∧
      (writeElems names val i l s).maxNum = some (i + l.length) := by
  induction l generalizing i s with
  | nil => simp [writeElems, hm]
  | cons a l ih =>
    obtain ⟨h1, -, h3⟩ := writeRecord_frame names val a (s.setArrayIndex i)
    obtain ⟨h4, h5⟩ := ih (i + 1) (writeRecord names val a (s.setArrayIndex i))
      (by rw [h3]; simp [setArrayIndex, hm])
    refine ⟨by rw [writeElems, h4, h1]; rfl, ?_⟩
    rw [writeElems, h5, List.length_cons]
    congr 1; omega

lemma writeRecord_setArrayIndex (a : α) (i : ℕ) (s : Settings) (k : Key) :
    (writeRecord names val a (s.setArrayIndex i)).store k =
      if k.name ∈ names ∧ k.array = s.array ∧ k.elem = some (i + 1) then some (val a k.name)
      else s.store k := by
  have hkey : k = (s.setArrayIndex i).key k.name ↔ k.array = s.array ∧ k.elem = some (i + 1) := by
    obtain ⟨arr, e, n⟩ := k
    simp [key, setArrayIndex]
  rw [writeRecord_store]
  exact if_congr (and_congr_right fun _ => hkey) rfl rfl

lemma writeElems_store (l : List α) (i : ℕ) (s : Settings) (k : Key) :
    (writeElems names val i l s).store k =
      if k.array = s.array then (written names val i l k).or (s.store k) else s.store k := by
  induction l generalizing i s with
  | nil => simp [writeElems, written, elemAt_nil]
  | cons a l ih =>
    have harr : (writeRecord names val a (s.setArrayIndex i)).array = s.array :=
      (writeRecord_frame names val a (s.setArrayIndex i)).1
    rw [writeElems, ih, harr, writeRecord_setArrayIndex]
    by_cases ha : k.array = s.array
    · by_cases hn : k.name ∈ names
      · by_cases he : k.elem = some (i + 1)
        · have hnone : elemAt (i + 1) l (some (i + 1)) = none := by simp [elemAt]
          simp [written, elemAt_cons, ha, hn, he, hnone]
        · simp [written, elemAt_cons, ha, hn, he]
      · simp [written, hn]
    · simp [ha]

lemma endArray_store {s : Settings} {m : ℕ} (h : s.maxNum = some m) :
    s.endArray.store = Function.update s.store (sizeKey s.array) (some (.int m)) := by
  simp [endArray, h, Settings.on]

/-- **What a write of an array decides**: the `size` entry, and the named entries of the
elements it has. Every other key keeps its value. -/
theorem writeArray_store (p : String) (l : List α) (σ : Store) (k : Key) :
    writeArray names val p l σ k =
      if k = sizeKey p then some (.int l.length)
      else if k.array = p then (written names val 0 l k).or (σ k) else σ k := by
  set s := (Settings.on σ).beginWriteArray p
  obtain ⟨harr, hmax⟩ := writeElems_frame names val l 0 s rfl
  have hstore := writeElems_store names val l 0 s k
  rw [writeArray, endArray_store hmax, harr]
  have hp : s.array = p := rfl
  rw [hp] at hstore ⊢
  by_cases hk : k = sizeKey p
  · subst hk
    simp
  · have hd : s.store k = σ k := Function.update_of_ne hk _ _
    rw [Function.update_of_ne hk, hstore, hd, if_neg hk]

/-! ### Reading it back -/

def readElems (rd : Settings → α) (n : ℕ) (s : Settings) (dest : List α) : Settings × List α :=
  (List.range n).foldl
    (fun acc i => (acc.1.setArrayIndex i, acc.2 ++ [rd (acc.1.setArrayIndex i)])) (s, dest)

def entries (σ : Store) (p : String) (i : ℕ) (n : String) : Option Variant :=
  σ ⟨p, some (i + 1), n⟩

lemma value_setArrayIndex (i : ℕ) (s : Settings) (n : String) :
    (s.setArrayIndex i).value n = entries s.store s.array i n := by
  simp [value, key, setArrayIndex, entries]

lemma readElems_eq {rd : Settings → α} {rec : (String → Option Variant) → α}
    (hrd : ∀ s, rd s = rec fun n => s.value n) (n : ℕ) (s : Settings) (dest : List α) :
    (readElems rd n s dest).2 =
        dest ++ (List.range n).map (fun i => rec (entries s.store s.array i)) ∧
      (readElems rd n s dest).1.store = s.store ∧ (readElems rd n s dest).1.array = s.array := by
  unfold readElems
  induction n with
  | zero => simp
  | succ n ih =>
    obtain ⟨h1, h2, h3⟩ := ih
    rw [List.range_succ, List.foldl_append, List.foldl_cons, List.foldl_nil]
    refine ⟨?_, h2, h3⟩
    rw [List.map_append, ← List.append_assoc, ← h1, hrd]
    simp only [value_setArrayIndex, h2, h3]
    rfl

/-- **Reading undoes writing**, whatever the store held before. -/
theorem map_entries_writeArray {rec : (String → Option Variant) → α} {p : String}
    (hrec : ∀ a g, (∀ n ∈ names, g n = some (val a n)) → rec g = a) (l : List α) (σ : Store) :
    (List.range (toInt (writeArray names val p l σ (sizeKey p)))).map
      (fun i => rec (entries (writeArray names val p l σ) p i)) = l := by
  rw [writeArray_store, if_pos rfl]
  refine List.ext_getElem (by simp [toInt]) fun i hi hl => ?_
  rw [List.getElem_map, List.getElem_range]
  refine hrec _ _ fun n hn => ?_
  have hne : (⟨p, some (i + 1), n⟩ : Key) ≠ sizeKey p := by simp [sizeKey]
  have hat : elemAt 0 l (some (i + 1)) = some l[i] := by simp [elemAt, hl]
  rw [entries, writeArray_store, if_neg hne, if_pos rfl]
  simp [written, hn, hat]

end DbCoursework.SettingsArray

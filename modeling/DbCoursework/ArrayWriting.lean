import DbCoursework.ArrayText
import Mathlib.Algebra.Ring.Nat

/-!
Writing arrays into a buffer.

The size of the buffer is an estimate made before: two bytes for each character of a text, but
none for a separator. The end of the buffer also holds the copy of the text that is being
escaped. Whether the estimate is enough depends on how many characters need no escape.
-/

namespace DbCoursework.ArrayWriting

open DbCoursework.GlyphText DbCoursework.QuotedText DbCoursework.ArrayText

/-- A write outside the buffer, or over what is still to be read, has no defined result. The
text of an overrun of an element names its type and these sizes. -/
inductive WriteError
  | conversionOverrun (what : String)
  | elementOverrun (space need : ℕ)
  | outside
  deriving DecidableEq

mutual

/-- `size_buffer`. -/
def sizeBuffer : Value → ℕ
  | .null => nullText.length
  | .text t => t.length + 1
  | .bare _ budget => budget
  | .array safe elts => 3 + eltsBudget safe elts

def eltsBudget (safe : Bool) : List Value → ℕ
  | [] => 0
  | .null :: vs =>
    (if safe then nullText.length - 1 else 2 * nullText.length + 2) + eltsBudget safe vs
  | v :: vs =>
    (if safe then sizeBuffer v - 1 else 2 * (sizeBuffer v - 1) + 2) + eltsBudget safe vs

end

/-- Bytes put at the writing position of a buffer of size `cap`. -/
def put (cap : ℕ) (out bytes : List UInt8) : Except WriteError (List UInt8) :=
  if out.length + bytes.length ≤ cap then .ok (out ++ bytes) else .error .outside

/-- The buffer is a string's: a zero may also take the place of the string's own one. -/
def putZero (cap : ℕ) (out : List UInt8) : Except WriteError (List UInt8) :=
  if out.length ≤ cap then .ok (out ++ [0]) else .error .outside

/-- The loop that escapes the copy of a string, which lies from `src` on up to the end of the
buffer. -/
def escapeLoop : ℕ → List UInt8 → List UInt8 → Except WriteError (List UInt8)
  | _, [], out => .ok out
  | src, c :: cs, out =>
    if (out ++ escapeByte c).length ≤ src + 1 then escapeLoop (src + 1) cs (out ++ escapeByte c)
    else .error .outside

def writeText (cap : ℕ) (t out : List UInt8) : Except WriteError (List UInt8) := do
  let out ← put cap out [quote]
  if out.length + (t.length + 1) ≤ cap then
    let out ← escapeLoop (cap - (t.length + 1)) t out
    put cap out [quote]
  else throw .outside

/-- `into_buf` of a type that needs no quotes, without the terminating zero, in a build that has
`charconv`; one without it asks for all of the type's `size_buffer` first. -/
def writeBare (cap : ℕ) (t out : List UInt8) : Except WriteError (List UInt8) :=
  if cap - out.length < t.length + 1 then
    .error (.elementOverrun (cap - out.length) (t.length + 1))
  else put cap out t

mutual

/-- `into_buf` behind what is in the buffer already. -/
def intoBuf (cap : ℕ) : Value → List UInt8 → Except WriteError (List UInt8)
  | .array safe elts, out =>
    if cap - out.length < 3 + eltsBudget safe elts then
      .error (.conversionOverrun "Not enough buffer space to convert array to string.")
    else do
      let out ← put cap out [openBrace]
      let out ← writeElts cap elts out
      -- the last separator goes
      let out ← put cap (if elts.isEmpty then out else out.dropLast) [closeBrace]
      putZero cap out
  | .null, out => put cap out nullText
  | .text t, out => writeText cap t out
  | .bare t _, out => writeBare cap t out

/-- The loop over the elements; a nested array loses its terminating zero. -/
def writeElts (cap : ℕ) : List Value → List UInt8 → Except WriteError (List UInt8)
  | [], out => .ok out
  | .array safe elts :: vs, out => do
    let out ← intoBuf cap (.array safe elts) out
    let out ← put cap out.dropLast [comma]
    writeElts cap vs out
  | v :: vs, out => do
    let out ← intoBuf cap v out
    let out ← put cap out [comma]
    writeElts cap vs out

end

/-- `to_string`. -/
def toText (v : Value) : Except WriteError (List UInt8) :=
  (intoBuf (sizeBuffer v) v []).map List.dropLast

/-! ### Sizes -/

mutual

/-- What the types make sure of: `size_buffer` of an element that needs no quotes covers its
text, and the elements of an array are of one type, which needs no quotes if it says so. -/
def Sized : Value → Prop
  | .null | .text _ => True
  | .bare t budget => t ≠ [] ∧ t.length + 1 ≤ budget
  | .array true elts => EltsSized elts ∧ ∀ v ∈ elts, v.isBare = true
  | .array false elts =>
    EltsSized elts ∧ ((∀ v ∈ elts, v.isArray = false) ∨ ∀ v ∈ elts, v.isArray = true)

def EltsSized : List Value → Prop
  | [] => True
  | v :: vs => Sized v ∧ EltsSized vs

end

/-- The elements with a separator behind each. -/
def written : List Value → List UInt8
  | [] => []
  | v :: vs => render v ++ ([comma] ++ written vs)

lemma written_ne_nil (v : Value) (vs : List Value) : written (v :: vs) ≠ [] := by
  simp [written]

lemma dropLast_written (vs : List Value) : (written vs).dropLast = renderElts vs := by
  induction vs with
  | nil => rfl
  | cons v vs ih =>
    cases vs with
    | nil => simp [written, renderElts]
    | cons w vs =>
      rw [written, renderElts, ← ih, ← List.append_assoc, List.dropLast_append_of_ne_nil
        (written_ne_nil w vs), List.append_assoc]

lemma length_render_array (safe : Bool) (vs : List Value) :
    (render (.array safe vs)).length + (if vs = [] then 0 else 1) = (written vs).length + 2 := by
  rw [render, ← dropLast_written]
  cases vs with
  | nil => rfl
  | cons v vs =>
    have := List.length_pos_iff.mpr (written_ne_nil v vs)
    simp
    omega

lemma length_escapeByte (c : UInt8) :
    1 ≤ (escapeByte c).length ∧ (escapeByte c).length ≤ 2 := by
  rw [escapeByte]
  split <;> simp

lemma length_escape (t : List UInt8) :
    t.length ≤ (t.flatMap escapeByte).length ∧ (t.flatMap escapeByte).length ≤ 2 * t.length := by
  induction t with
  | nil => simp
  | cons c t ih =>
    have := length_escapeByte c
    simp only [List.flatMap_cons, List.length_append, List.length_cons]
    omega

/-- What `size_buffer` of an array has for an element. -/
def eltBudget (safe : Bool) : Value → ℕ
  | .null => if safe then nullText.length - 1 else 2 * nullText.length + 2
  | v => if safe then sizeBuffer v - 1 else 2 * (sizeBuffer v - 1) + 2

lemma eltsBudget_cons (safe : Bool) (v : Value) (vs : List Value) :
    eltsBudget safe (v :: vs) = eltBudget safe v + eltsBudget safe vs := by
  cases v <;> simp [eltsBudget, eltBudget]

/-- Twice what an element is given is enough, with a separator. -/
lemma length_elt_le {v : Value} (hv : Sized v) {safe : Bool}
    (hflat : if safe then v.isBare = true else v.isArray = false) :
    (render v).length + 1 ≤ 2 * eltBudget safe v := by
  match v, hv with
  | .null, _ => cases safe <;> decide
  | .text t, _ =>
    have := length_escape t
    cases safe with
    | true => cases hflat
    | false =>
      simp only [render, eltBudget, sizeBuffer, List.length_append, List.length_singleton,
        Bool.false_eq_true, if_false]
      omega
  | .bare t budget, ⟨hne, hbudget⟩ =>
    have := List.length_pos_iff.mpr hne
    simp only [render, eltBudget, sizeBuffer]
    split <;> omega
  | .array _ _, _ => cases safe <;> cases hflat

lemma length_flat_le {vs : List Value} (hvs : EltsSized vs) {safe : Bool}
    (hflat : ∀ v ∈ vs, if safe then v.isBare = true else v.isArray = false) :
    (written vs).length ≤ 2 * eltsBudget safe vs := by
  induction vs with
  | nil => exact Nat.zero_le _
  | cons v vs ih =>
    have hv := length_elt_le hvs.1 (hflat v (by simp))
    have ih := ih hvs.2 fun w hw => hflat w (by simp [hw])
    simp only [written, eltsBudget_cons, List.length_append, List.length_singleton]
    omega

mutual

/-- Twice its own estimate is room enough for an array. -/
lemma length_array_le {safe : Bool} {vs : List Value} (hv : Sized (.array safe vs)) :
    (render (.array safe vs)).length + 1 ≤ 2 * (3 + eltsBudget safe vs) := by
  have hwritten : (written vs).length ≤ 2 * eltsBudget safe vs := by
    match safe, hv with
    | true, ⟨hvs, hbare⟩ => exact length_flat_le hvs hbare
    | false, ⟨hvs, .inl hflat⟩ => exact length_flat_le hvs hflat
    | false, ⟨hvs, .inr harrays⟩ =>
      have := length_arrays_le hvs harrays
      omega
  have hlen := length_render_array safe vs
  split at hlen <;> omega

/-- And in an array of arrays they all fit. -/
lemma length_arrays_le {vs : List Value} (hvs : EltsSized vs)
    (harrays : ∀ v ∈ vs, v.isArray = true) : (written vs).length ≤ eltsBudget false vs := by
  match vs, hvs, harrays with
  | [], _, _ => exact Nat.le_refl _
  | .array safe elts :: vs, ⟨hv, hvs⟩, harrays =>
    have hone := length_array_le hv
    have hrest := length_arrays_le hvs fun w hw => harrays w (by simp [hw])
    rw [eltsBudget_cons]
    simp only [written, eltBudget, sizeBuffer, List.length_append, List.length_singleton,
      Bool.false_eq_true, if_false]
    omega
  | .null :: _, _, harrays | .text _ :: _, _, harrays | .bare _ _ :: _, _, harrays =>
    cases harrays _ (.head _)

end

/-! ### What the writer returns -/

section Writes

variable {cap : ℕ} {out o : List UInt8}

lemma bind_ok {α β : Type} {x : Except WriteError α} {f : α → Except WriteError β} {b : β} :
    (x >>= f) = .ok b ↔ ∃ a, x = .ok a ∧ f a = .ok b := by
  cases x with
  | error e =>
    constructor
    · intro h
      cases h
    · rintro ⟨a, h, -⟩
      cases h
  | ok a =>
    constructor
    · exact fun h => ⟨a, rfl, h⟩
    · rintro ⟨a', h, hf⟩
      cases h
      exact hf

lemma put_ok {bytes : List UInt8} :
    put cap out bytes = .ok o ↔ o = out ++ bytes ∧ out.length + bytes.length ≤ cap := by
  rw [put]
  split
  · next h => simp [h, eq_comm]
  · next h => simp [h]

lemma putZero_ok : putZero cap out = .ok o ↔ o = out ++ [0] ∧ out.length ≤ cap := by
  rw [putZero]
  split
  · next h => simp [h, eq_comm]
  · next h => simp [h]

/-- The escaped text never catches up with its copy, exactly if at the end it has not. -/
lemma escapeLoop_ok {cs : List UInt8} {src : ℕ} (h : out.length ≤ src) :
    escapeLoop src cs out = .ok o ↔ o = out ++ cs.flatMap escapeByte ∧
      out.length + (cs.flatMap escapeByte).length ≤ src + cs.length := by
  induction cs generalizing src out with
  | nil => simp [escapeLoop, eq_comm, h]
  | cons c cs ih =>
    have hesc := length_escape cs
    have hlen : (out ++ escapeByte c).length = out.length + (escapeByte c).length := by simp
    simp only [List.flatMap_cons, List.length_append, List.length_cons]
    rw [escapeLoop]
    split
    · next hle =>
      rw [ih hle, List.append_assoc, hlen]
      refine and_congr_right fun _ => ?_
      omega
    · next hgt =>
      rw [hlen] at hgt
      constructor
      · intro h
        cases h
      · rintro ⟨-, h⟩
        omega

lemma length_render_text (t : List UInt8) :
    (render (.text t)).length = (t.flatMap escapeByte).length + 2 := by
  simp only [render, List.length_append, List.length_singleton]
  omega

lemma writeText_ok {t : List UInt8} :
    writeText cap t out = .ok o ↔ o = out ++ render (.text t) ∧
      out.length + (render (.text t)).length ≤ cap := by
  have hesc := length_escape t
  have hopen : (out ++ [quote]).length = out.length + 1 := by simp
  have hbody : (out ++ [quote] ++ t.flatMap escapeByte).length =
      out.length + 1 + (t.flatMap escapeByte).length := by
    rw [List.length_append, hopen]
  have htext : out ++ [quote] ++ t.flatMap escapeByte ++ [quote] = out ++ render (.text t) := by
    simp [render]
  rw [writeText, bind_ok, length_render_text]
  constructor
  · rintro ⟨o1, h1, h⟩
    obtain ⟨rfl, -⟩ := put_ok.mp h1
    split at h
    · next hcopy =>
      rw [hopen] at hcopy
      obtain ⟨o2, h2, h⟩ := bind_ok.mp h
      obtain ⟨rfl, -⟩ := (escapeLoop_ok (by omega)).mp h2
      obtain ⟨rfl, hend⟩ := put_ok.mp h
      rw [hbody, List.length_singleton] at hend
      exact ⟨htext, by omega⟩
    · cases h
  · rintro ⟨rfl, h⟩
    refine ⟨_, put_ok.mpr ⟨rfl, by rw [List.length_singleton]; omega⟩, ?_⟩
    rw [if_pos (by omega), bind_ok]
    refine ⟨_, (escapeLoop_ok (by omega)).mpr ⟨rfl, by omega⟩, ?_⟩
    rw [put_ok, hbody, List.length_singleton]
    exact ⟨htext.symm, by omega⟩

lemma writeBare_ok {t : List UInt8} :
    writeBare cap t out = .ok o ↔ o = out ++ t ∧ out.length + t.length + 1 ≤ cap := by
  rw [writeBare]
  split
  · next h =>
    constructor
    · intro h
      cases h
    · rintro ⟨-, h⟩
      omega
  · next h =>
    rw [put_ok]
    refine and_congr_right fun _ => ?_
    omega

/-- An element that is no array is written, with its separator, when there is room for both. -/
lemma writeElts_flat {v : Value} (hflat : v.isArray = false) {vs : List Value} :
    writeElts cap (v :: vs) out = .ok o ↔
      out.length + (render v).length + 1 ≤ cap ∧
        writeElts cap vs (out ++ (render v ++ [comma])) = .ok o := by
  have hput : ∀ o', put cap (out ++ render v) [comma] = .ok o' ↔
      o' = out ++ (render v ++ [comma]) ∧ out.length + (render v).length + 1 ≤ cap := by
    intro o'
    rw [put_ok, List.append_assoc, List.length_append, List.length_singleton]
  have hone : ∃ room, room ≤ out.length + (render v).length + 1 ∧
      ∀ o', intoBuf cap v out = .ok o' ↔ o' = out ++ render v ∧ room ≤ cap := by
    cases v with
    | null => exact ⟨_, Nat.le_succ _, fun o' => put_ok⟩
    | text t => exact ⟨_, Nat.le_succ _, fun o' => writeText_ok⟩
    | bare t budget => exact ⟨_, Nat.le_refl _, fun o' => writeBare_ok⟩
    | array safe elts => cases hflat
  obtain ⟨room, hroom, hone⟩ := hone
  have hcons : writeElts cap (v :: vs) out = (do
      let out ← intoBuf cap v out
      let out ← put cap out [comma]
      writeElts cap vs out) := by
    cases v with
    | array safe elts => cases hflat
    | _ =>
      rw [writeElts]
      rintro _ _ ⟨⟩
  rw [hcons, bind_ok]
  constructor
  · rintro ⟨o1, h1, h⟩
    obtain ⟨rfl, -⟩ := (hone o1).mp h1
    obtain ⟨o2, h2, h⟩ := bind_ok.mp h
    obtain ⟨rfl, hlen⟩ := (hput o2).mp h2
    exact ⟨hlen, h⟩
  · rintro ⟨hlen, h⟩
    exact ⟨_, (hone _).mpr ⟨rfl, by omega⟩, bind_ok.mpr ⟨_, (hput _).mpr ⟨rfl, hlen⟩, h⟩⟩

lemma writeElts_flats {vs : List Value} (hflat : ∀ v ∈ vs, v.isArray = false)
    (h : out.length ≤ cap) :
    writeElts cap vs out = .ok o ↔ o = out ++ written vs ∧
      out.length + (written vs).length ≤ cap := by
  induction vs generalizing out with
  | nil => simp [writeElts, written, eq_comm, h]
  | cons v vs ih =>
    have hlen : (out ++ (render v ++ [comma])).length = out.length + (render v).length + 1 := by
      simp [Nat.add_assoc]
    rw [writeElts_flat (hflat v (by simp))]
    simp only [written, List.length_append, List.length_singleton]
    constructor
    · rintro ⟨hv, h⟩
      obtain ⟨rfl, h⟩ := (ih (fun w hw => hflat w (by simp [hw])) (by omega)).mp h
      exact ⟨by simp, by omega⟩
    · rintro ⟨rfl, h⟩
      refine ⟨by omega, (ih (fun w hw => hflat w (by simp [hw])) (by omega)).mpr ⟨by simp, ?_⟩⟩
      omega

mutual

/-- **What is written of an array.** It is written when the estimate is free and the text fits. -/
lemma intoBuf_array {safe : Bool} {vs : List Value} (hv : Sized (.array safe vs))
    (out o : List UInt8) :
    intoBuf cap (.array safe vs) out = .ok o ↔ o = out ++ (render (.array safe vs) ++ [0]) ∧
      out.length + (3 + eltsBudget safe vs) ≤ cap ∧
      out.length + (render (.array safe vs)).length ≤ cap := by
  have hlen := length_render_array safe vs
  have hopen : (out ++ [openBrace]).length = out.length + 1 := by simp
  have helts : out.length + (3 + eltsBudget safe vs) ≤ cap → ∀ o', writeElts cap vs
      (out ++ [openBrace]) = .ok o' ↔ o' = out ++ [openBrace] ++ written vs ∧
        out.length + 1 + (written vs).length ≤ cap := by
    intro hroom o'
    rw [← hopen]
    match safe, hv with
    | true, ⟨_, hbare⟩ =>
      refine writeElts_flats (fun v hv => ?_) (by omega)
      have := hbare v hv
      cases v <;> trivial
    | false, ⟨_, .inl hflat⟩ => exact writeElts_flats hflat (by omega)
    | false, ⟨hvs, .inr harrays⟩ =>
      have hfit := length_arrays_le hvs harrays
      rw [writeElts_arrays hvs harrays _ (by omega), Except.ok.injEq, eq_comm]
      exact ⟨fun h => ⟨h, by omega⟩, fun h => h.1⟩
  have hdrop : (if vs.isEmpty then out ++ [openBrace] ++ written vs
      else (out ++ [openBrace] ++ written vs).dropLast) = out ++ [openBrace] ++ renderElts vs := by
    cases vs with
    | nil => rfl
    | cons v vs =>
      rw [List.isEmpty_cons, if_neg Bool.false_ne_true,
        List.dropLast_append_of_ne_nil (written_ne_nil v vs), dropLast_written]
  have hrender : (render (.array safe vs)).length = 1 + (renderElts vs).length + 1 := by
    simp only [render, List.length_append, List.length_singleton]
    omega
  rw [intoBuf]
  constructor
  · intro h
    split at h
    · cases h
    next hroom =>
    have hroom : out.length + (3 + eltsBudget safe vs) ≤ cap := by omega
    obtain ⟨o1, h1, h⟩ := bind_ok.mp h
    obtain ⟨rfl, -⟩ := put_ok.mp h1
    obtain ⟨o2, h2, h⟩ := bind_ok.mp h
    obtain ⟨rfl, -⟩ := (helts hroom o2).mp h2
    obtain ⟨o3, h3, h⟩ := bind_ok.mp h
    rw [hdrop] at h3
    obtain ⟨rfl, -⟩ := put_ok.mp h3
    obtain ⟨rfl, hend⟩ := putZero_ok.mp h
    simp only [List.length_append, List.length_singleton] at hend
    exact ⟨by simp [render], hroom, by omega⟩
  · rintro ⟨rfl, hroom, hend⟩
    rw [if_neg (by omega), bind_ok]
    refine ⟨_, put_ok.mpr ⟨rfl, by simp; omega⟩, bind_ok.mpr ⟨_, (helts hroom _).mpr ⟨rfl, ?_⟩, ?_⟩⟩
    · split at hlen <;> omega
    rw [hdrop, bind_ok]
    refine ⟨_, put_ok.mpr ⟨rfl, by simp; omega⟩, ?_⟩
    rw [putZero_ok]
    exact ⟨by simp [render], by simp; omega⟩

/-- Arrays inside an array always fit: the estimate for each of them was doubled. -/
lemma writeElts_arrays {vs : List Value} (hvs : EltsSized vs)
    (harrays : ∀ v ∈ vs, v.isArray = true) (out : List UInt8)
    (hroom : out.length + eltsBudget false vs + 2 ≤ cap) :
    writeElts cap vs out = .ok (out ++ written vs) := by
  match vs, hvs, harrays with
  | [], _, _ => simp [writeElts, written]
  | .array safe elts :: vs, ⟨hv, hvs⟩, harrays =>
    have hone := length_array_le hv
    have hlen : (out ++ (render (.array safe elts) ++ [comma])).length =
        out.length + (render (.array safe elts)).length + 1 := by
      simp [Nat.add_assoc]
    simp only [eltsBudget_cons, eltBudget, sizeBuffer, Bool.false_eq_true, if_false] at hroom
    have hput : put cap (out ++ (render (.array safe elts) ++ [0])).dropLast [comma] =
        .ok (out ++ (render (.array safe elts) ++ [comma])) := by
      rw [← List.append_assoc, List.dropLast_concat, put_ok]
      exact ⟨by simp, by simp; omega⟩
    rw [writeElts, (intoBuf_array hv _ _).mpr ⟨rfl, by omega, by omega⟩]
    show (do let out ← put cap _ [comma]; _) = _
    rw [hput]
    show writeElts cap vs _ = _
    rw [writeElts_arrays hvs (fun w hw => harrays w (by simp [hw])) _ (by omega)]
    simp [written]
  | .null :: _, _, harrays | .text _ :: _, _, harrays | .bare _ _ :: _, _, harrays =>
    cases harrays _ (.head _)

end

end Writes

/-! ### Whole arrays -/

variable {safe : Bool} {vs : List Value}

lemma toText_eq_ok (safe : Bool) (hv : Sized (.array safe vs)) {s : List UInt8} :
    toText (.array safe vs) = .ok s ↔ s = render (.array safe vs) ∧
      (render (.array safe vs)).length ≤ sizeBuffer (.array safe vs) := by
  have hwrite : ∀ o, intoBuf (sizeBuffer (.array safe vs)) (.array safe vs) [] = .ok o ↔ _ :=
    intoBuf_array hv []
  simp only [List.length_nil, Nat.zero_add, List.nil_append, sizeBuffer, Nat.le_refl,
    true_and] at hwrite ⊢
  rw [toText, sizeBuffer]
  constructor
  · intro h
    rcases ho : intoBuf (3 + eltsBudget safe vs) (.array safe vs) [] with e | o
    · rw [ho] at h
      cases h
    · obtain ⟨rfl, hfit⟩ := (hwrite o).mp ho
      rw [ho] at h
      refine ⟨?_, hfit⟩
      simpa [Except.map, eq_comm] using h
  · rintro ⟨rfl, hfit⟩
    rw [(hwrite _).mpr ⟨rfl, hfit⟩]
    simp [Except.map]

/-- **An array is converted exactly when its text fits in the estimate**, and then to its text. -/
theorem toText_ok (hv : Sized (.array safe vs)) {s : List UInt8} :
    toText (.array safe vs) = .ok s ↔ s = render (.array safe vs) ∧
      (render (.array safe vs)).length ≤ sizeBuffer (.array safe vs) :=
  toText_eq_ok safe hv

/-- Twice `false` just fits, three times it does not. -/
theorem toText_ok_bools :
    toText (.array true [.bare (utf8 "false") 6, .bare (utf8 "false") 6]) =
        .ok (utf8 "\x7bfalse,false\x7d") ∧
      ¬ ∃ s, toText (.array true
        [.bare (utf8 "false") 6, .bare (utf8 "false") 6, .bare (utf8 "false") 6]) = .ok s := by
  have hfalse : Sized (.bare (utf8 "false") 6) := ⟨by decide, by decide⟩
  have htwo : Sized (.array true [.bare (utf8 "false") 6, .bare (utf8 "false") 6]) :=
    ⟨⟨hfalse, hfalse, trivial⟩, by simp [Value.isBare]⟩
  have hthree : Sized (.array true
      [.bare (utf8 "false") 6, .bare (utf8 "false") 6, .bare (utf8 "false") 6]) :=
    ⟨⟨hfalse, hfalse, hfalse, trivial⟩, by simp [Value.isBare]⟩
  refine ⟨(toText_ok htwo).mpr (by decide +kernel), ?_⟩
  rintro ⟨s, h⟩
  exact absurd ((toText_ok hthree).mp h).2 (by decide +kernel)

/-- **An array of arrays is always converted.** -/
theorem toText_arrays (hvs : EltsSized vs) (harrays : ∀ v ∈ vs, v.isArray = true) :
    toText (.array false vs) = .ok (render (.array false vs)) := by
  have hfit := length_arrays_le hvs harrays
  have hlen := length_render_array false vs
  refine (toText_eq_ok false ⟨hvs, .inr harrays⟩).mpr ⟨rfl, ?_⟩
  rw [sizeBuffer]
  split at hlen <;> omega

/-- An array of two empty strings and an empty array. -/
theorem toText_arrays_empty :
    toText (.array false [.array false [.text [], .text []], .array false []]) =
      .ok (render (.array false [.array false [.text [], .text []], .array false []])) :=
  have hvs : EltsSized [.array false [.text [], .text []], .array false []] :=
    ⟨⟨⟨trivial, trivial, trivial⟩, .inl (by simp [Value.isArray])⟩,
      ⟨trivial, .inl (by simp)⟩, trivial⟩
  toText_arrays hvs (by simp [Value.isArray])

def ofText : Option (List UInt8) → Value
  | none => .null
  | some t => .text t

/-- How many bytes of its estimate an element leaves over: those for characters that need no
escape, and six at a null. -/
def spare : Option (List UInt8) → ℕ
  | none => 6
  | some t => t.countP fun c => ¬ (c = backslash ∨ c = quote)

lemma length_escape_spare (t : List UInt8) :
    (t.flatMap escapeByte).length + spare (some t) = 2 * t.length := by
  induction t with
  | nil => rfl
  | cons c t ih =>
    rw [spare] at ih ⊢
    simp only [List.flatMap_cons, List.length_append, List.length_cons, List.countP_cons]
    by_cases hc : c = backslash ∨ c = quote
    · simp [escapeByte, hc] at ih ⊢
      omega
    · simp [escapeByte, hc] at ih ⊢
      omega

lemma length_written_spare (ts : List (Option (List UInt8))) :
    (written (ts.map ofText)).length + (ts.map spare).sum =
      eltsBudget false (ts.map ofText) + ts.length := by
  induction ts with
  | nil => rfl
  | cons t ts ih =>
    simp only [List.map_cons, written, eltsBudget_cons, List.length_append, List.sum_cons,
      List.length_cons, List.length_nil]
    cases t with
    | none =>
      have : (render (ofText none)).length + spare none = eltBudget false (ofText none) := by
        decide
      omega
    | some t =>
      have hesc := length_escape_spare t
      simp only [ofText, length_render_text, eltBudget, sizeBuffer, Bool.false_eq_true, if_false]
      omega

/-- **The estimate forgets the separators.** An array of texts and nulls is converted exactly
when the elements leave over a byte for each separator but one. -/
theorem toText_texts (ts : List (Option (List UInt8))) :
    (∃ s, toText (.array false (ts.map ofText)) = .ok s) ↔
      ts.length ≤ (ts.map spare).sum + 2 := by
  have hsized : EltsSized (ts.map ofText) := by
    induction ts with
    | nil => trivial
    | cons t ts ih =>
      refine ⟨?_, ih⟩
      cases t <;> trivial
  have hflat : ∀ v ∈ ts.map ofText, v.isArray = false := by
    intro v hv
    obtain ⟨t, -, rfl⟩ := List.mem_map.mp hv
    cases t <;> rfl
  have hlen := length_render_array false (ts.map ofText)
  have hspare := length_written_spare ts
  simp only [toText_eq_ok false ⟨hsized, .inl hflat⟩, exists_eq_left, sizeBuffer]
  cases ts with
  | nil => decide
  | cons t ts =>
    rw [if_neg (by simp)] at hlen
    omega

end DbCoursework.ArrayWriting

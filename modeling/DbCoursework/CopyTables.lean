import DbCoursework.CopyRows
import DbCoursework.GlyphTables
import Mathlib.Data.List.Basic

/-!
Rows on their way through a table.

Between `stream_to` and `stream_from` is the server, which takes the lines of the one in
`COPY FROM` and writes the lines of the other in `COPY TO`. The text format of `COPY` is given
as it is documented; a server is anything that keeps to it.
-/

namespace DbCoursework.CopyTables

open DbCoursework.Encodings DbCoursework.Glyphs DbCoursework.GlyphText DbCoursework.GlyphTables
open DbCoursework.QuotedText DbCoursework.CopyRows

/-! ### The text format of `COPY` -/

/-- `u` is put in front of the first field. -/
def prepend (u : List UInt8) : List (List UInt8) → List (List UInt8) :=
  List.modifyHead (u ++ ·)

/-- The fields of a line, not unescaped: it is cut at the tabs that no backslash precedes. -/
def rawFields : List UInt8 → List (List UInt8)
  | [] => [[]]
  | [c] => if c = tab then [[], []] else [[c]]
  | c :: d :: s =>
    if c = tab then [] :: rawFields (d :: s)
    else if c = backslash then prepend [c, d] (rawFields s)
    else prepend [c] (rawFields (d :: s))

def isOctal (b : UInt8) : Prop := betweenInc b 0x30 0x37

instance : DecidablePred isOctal := fun b => inferInstanceAs (Decidable (betweenInc b 0x30 0x37))

def isHex (b : UInt8) : Prop :=
  betweenInc b 0x30 0x39 ∨ betweenInc b 0x41 0x46 ∨ betweenInc b 0x61 0x66

instance : DecidablePred isHex := fun b => inferInstanceAs
  (Decidable (betweenInc b 0x30 0x39 ∨ betweenInc b 0x41 0x46 ∨ betweenInc b 0x61 0x66))

def digitValue (b : UInt8) : ℕ :=
  if b ≤ 0x39 then b.toNat - 0x30 else if b ≤ 0x46 then b.toNat - 0x37 else b.toNat - 0x57

/-- The byte with these digits. -/
def number (base : ℕ) (ds : List UInt8) : UInt8 :=
  UInt8.ofNat (ds.foldl (fun n d => base * n + digitValue d) 0)

/-- What stands behind a backslash: the byte it means, and how long it is. -/
def escapeSequence : List UInt8 → Option (UInt8 × ℕ)
  | [] => none
  | c :: s =>
    if isOctal c then
      let ds := ((c :: s).take 3).takeWhile (isOctal ·)
      some (number 8 ds, ds.length)
    else if c = 0x78 then        -- x
      match (s.take 2).takeWhile (isHex ·) with
      | [] => some (c, 1)
      | d :: ds => some (number 16 (d :: ds), 1 + (d :: ds).length)
    else some (meaning c, 1)

/-- The text of a field. -/
def copyText : List UInt8 → List UInt8
  | [] => []
  | c :: s =>
    if c = backslash then
      match escapeSequence s with
      | none => []
      | some (b, n) => b :: copyText (s.drop n)
    else c :: copyText s
termination_by s => s.length
decreasing_by all_goals simp only [List.length_drop, List.length_cons]; omega

/-- The row a line stands for. -/
def copyFields (line : List UInt8) : List (Option (List UInt8)) :=
  (rawFields line).map fun f => if f = [backslash, letterN] then none else some (copyText f)

/-- A character as it is sent: never as a number, and with nothing done inside longer ones. -/
def sentGlyph : List UInt8 → List UInt8
  | [b] =>
    if b = backslash then [backslash, backslash]
    else
      match escapes.find? (·.2 = b) with
      | some (c, _) => [backslash, c]
      | none => [b]
  | g => g

def sentField : Option (List (List UInt8)) → List UInt8
  | none => [backslash, letterN]
  | some gs => gs.flatMap sentGlyph

def sentLine (row : List (Option (List (List UInt8)))) : List UInt8 :=
  [tab].intercalate (row.map sentField)

/-- A table with columns of text, seen through `COPY`: the row a line is taken as, if it is taken,
and the line a row is sent as. -/
structure Server where
  copyFrom : List UInt8 → Option (List (Option (List UInt8)))
  copyTo : List (Option (List UInt8)) → List UInt8

def printable (b : UInt8) : Prop := betweenInc b 0x20 0x7e

instance : DecidablePred printable := fun b =>
  inferInstanceAs (Decidable (betweenInc b 0x20 0x7e))

/-- What the documentation of `COPY` says of a server whose encoding is the client's. A line that
it takes is stored as what it stands for (`takes`), and a row of characters is sent with
backslashes before the backslashes and letters for the control characters (`sends`). -/
structure Documented (enc : EncodingGroup) (srv : Server) : Prop where
  takes : ∀ line row, (∀ b ∈ line, printable b ∨ b = tab) → srv.copyFrom line = some row →
    row = copyFields line
  sends : ∀ row : List (Option (List (List UInt8))),
    (∀ gs, some gs ∈ row → ∀ g ∈ gs, InTable enc g) →
    srv.copyTo (row.map (Option.map List.flatten)) = sentLine row

/-! ### What is written -/

/-- What `append_to_buffer` adds for a field, without its tab. -/
def line : Field → List UInt8
  | .null => [backslash, letterN]
  | .number t => t
  | .text t => t.flatMap escapeChar

/-- The text of a number is put into the line as it is. -/
def Safe : Field → Prop
  | .number t => ∀ b ∈ t, printable b ∧ b ≠ backslash
  | _ => True

lemma appendToBuffer_eq (buffer : List UInt8) (f : Field) :
    appendToBuffer buffer f = buffer ++ (line f ++ [tab]) := by
  cases f <;> simp [appendToBuffer, escapeFieldToBuffer, line]

lemma foldl_appendToBuffer (buffer : List UInt8) (fs : List Field) :
    fs.foldl appendToBuffer buffer = buffer ++ fs.flatMap fun f => line f ++ [tab] := by
  induction fs generalizing buffer with
  | nil => simp
  | cons f fs ih =>
    rw [List.foldl_cons, ih, appendToBuffer_eq, List.flatMap_cons, List.append_assoc]

lemma writeRow_concat {fs : List Field} (hne : fs ≠ []) :
    writeRow fs ++ [tab] = fs.flatMap fun f => line f ++ [tab] := by
  have hlast : fs.flatMap (fun f => line f ++ [tab]) =
      (fs.dropLast.flatMap (fun f => line f ++ [tab]) ++ line (fs.getLast hne)) ++ [tab] := by
    conv_lhs => rw [← List.dropLast_append_getLast hne]
    simp
  rw [writeRow, foldl_appendToBuffer, List.nil_append, hlast]
  simp

lemma writeRow_singleton (f : Field) : writeRow [f] = line f := by
  have h := writeRow_concat (List.cons_ne_nil f [])
  simpa using h

lemma writeRow_cons (f g : Field) (fs : List Field) :
    writeRow (f :: g :: fs) = line f ++ tab :: writeRow (g :: fs) := by
  have h := writeRow_concat (List.cons_ne_nil f (g :: fs))
  rw [List.flatMap_cons, ← writeRow_concat (List.cons_ne_nil g fs)] at h
  have hcut : writeRow (f :: g :: fs) ++ [tab] =
      (line f ++ tab :: writeRow (g :: fs)) ++ [tab] := by
    simpa using h
  exact List.append_cancel_right hcut

lemma octalDigit_isOctal (b : UInt8) (i : ℕ) : isOctal (octalDigit b i) := by
  refine between_ofNat (Nat.le_add_left ..) ?_
  show b.toNat / 8 ^ i % 8 + 48 ≤ 55
  omega

lemma digitValue_octalDigit (b : UInt8) (i : ℕ) :
    digitValue (octalDigit b i) = b.toNat / 8 ^ i % 8 := by
  have h := octalDigit_isOctal b i
  have htop : octalDigit b i ≤ 0x39 := by
    simp only [isOctal, betweenInc] at h
    grind
  have hlt : b.toNat / 8 ^ i % 8 < 8 := Nat.mod_lt _ (by decide)
  rw [digitValue, if_pos htop, octalDigit, UInt8.toNat_ofNat']
  show (_ + 48) % 256 - 48 = _
  omega

/-- The three digits of a byte give the byte. -/
lemma number_octalDigits (b : UInt8) :
    number 8 [octalDigit b 2, octalDigit b 1, octalDigit b 0] = b := by
  have hb := b.toNat_lt
  have hsum : 8 * (8 * (b.toNat / 64 % 8) + b.toNat / 8 % 8) + b.toNat % 8 = b.toNat := by
    omega
  simp [number, digitValue_octalDigit, hsum]

/-- The characters written in octal, those with a letter of their own, and the others. -/
lemma escapeChar_cases (b : UInt8) :
    escapeChar b = [backslash, octalDigit b 2, octalDigit b 1, octalDigit b 0] ∨
    (∃ c, escapeChar b = [backslash, c] ∧ printable c ∧ ¬ isOctal c ∧ c ≠ 0x78 ∧ meaning c = b) ∨
    (escapeChar b = [b] ∧ printable b ∧ b ≠ backslash) := by
  by_cases hnamed : b ∈ [0x08, 0x0c, 0x0a, 0x0d, 0x09, 0x0b, backslash]
  · refine .inr (.inl ?_)
    simp only [List.mem_cons, List.not_mem_nil, or_false] at hnamed
    rcases hnamed with rfl | rfl | rfl | rfl | rfl | rfl | rfl <;>
      exact ⟨_, rfl, by decide, by decide, by decide, by decide⟩
  · simp only [List.mem_cons, List.not_mem_nil, or_false, not_or] at hnamed
    obtain ⟨h1, h2, h3, h4, h5, h6, h7⟩ := hnamed
    by_cases hrange : b < 0x20 ∨ 0x7e < b
    · exact .inl (by simp [escapeChar, h1, h2, h3, h4, h5, h6, h7, hrange])
    · refine .inr (.inr ⟨by simp [escapeChar, h1, h2, h3, h4, h5, h6, h7, hrange], ?_, h7⟩)
      simp only [printable, betweenInc]
      grind

/-! ### Lines cut into fields -/

/-- `u` stays together when a line is cut. -/
def Whole (u : List UInt8) : Prop := ∀ s, rawFields (u ++ s) = prepend u (rawFields s)

lemma rawFields_tab (s : List UInt8) : rawFields (tab :: s) = [] :: rawFields s := by
  cases s <;> simp [rawFields]

lemma prepend_prepend (u v : List UInt8) (fs : List (List UInt8)) :
    prepend u (prepend v fs) = prepend (u ++ v) fs := by
  cases fs <;> simp [prepend]

lemma whole_nil : Whole [] := by
  intro s
  cases h : rawFields s <;> simp [prepend, h]

lemma Whole.append {u v : List UInt8} (hu : Whole u) (hv : Whole v) : Whole (u ++ v) := by
  intro s
  rw [List.append_assoc, hu, hv, prepend_prepend]

lemma whole_flatMap {α : Type} {f : α → List UInt8} {xs : List α} (h : ∀ x ∈ xs, Whole (f x)) :
    Whole (xs.flatMap f) := by
  induction xs with
  | nil => exact whole_nil
  | cons x xs ih =>
    rw [List.flatMap_cons]
    exact (h x (by simp)).append (ih fun y hy => h y (by simp [hy]))

lemma whole_byte {b : UInt8} (htab : b ≠ tab) (hback : b ≠ backslash) : Whole [b] := by
  intro s
  cases s <;> simp [rawFields, prepend, htab, hback]

lemma whole_escape (c : UInt8) : Whole [backslash, c] := by
  intro s
  have hback : backslash ≠ tab := by decide
  simp [rawFields, hback]

lemma whole_printable {t : List UInt8} (h : ∀ b ∈ t, printable b ∧ b ≠ backslash) : Whole t := by
  have hone : ∀ b ∈ t, Whole [b] := by
    intro b hb
    refine whole_byte ?_ (h b hb).2
    rintro rfl
    exact absurd (h _ hb).1 (by decide)
  simpa using whole_flatMap hone

lemma rawFields_whole {u : List UInt8} (hu : Whole u) : rawFields u = [u] := by
  have h := hu []
  simpa [rawFields, prepend] using h

lemma rawFields_whole_tab {u : List UInt8} (hu : Whole u) (s : List UInt8) :
    rawFields (u ++ tab :: s) = u :: rawFields s := by
  rw [hu, rawFields_tab]
  simp [prepend]

lemma printable_octalDigit (b : UInt8) (i : ℕ) :
    printable (octalDigit b i) ∧ octalDigit b i ≠ backslash := by
  have h := octalDigit_isOctal b i
  simp only [isOctal, printable, betweenInc, backslash] at h ⊢
  grind

lemma whole_escapeChar (b : UInt8) : Whole (escapeChar b) := by
  obtain hb | ⟨c, hb, -⟩ | ⟨hb, hprint⟩ := escapeChar_cases b
  · rw [hb]
    have hdigits : ∀ d ∈ [octalDigit b 1, octalDigit b 0], printable d ∧ d ≠ backslash := by
      simp [printable_octalDigit]
    exact (whole_escape _).append (whole_printable hdigits)
  · rw [hb]
    exact whole_escape c
  · rw [hb]
    exact whole_printable (by simpa using hprint)

lemma whole_line {f : Field} (hf : Safe f) : Whole (line f) := by
  cases f with
  | null => exact whole_escape letterN
  | number t => exact whole_printable hf
  | text t => exact whole_flatMap fun b _ => whole_escapeChar b

/-! ### The meaning of what is written -/

lemma copyText_escapeChar (b : UInt8) (s : List UInt8) :
    copyText (escapeChar b ++ s) = b :: copyText s := by
  obtain hb | ⟨c, hb, -, hoctal, hx, hc⟩ | ⟨hb, -, hback⟩ := escapeChar_cases b
  · have hseq : escapeSequence (octalDigit b 2 :: octalDigit b 1 :: octalDigit b 0 :: s) =
        some (b, 3) := by
      simp [escapeSequence, octalDigit_isOctal, number_octalDigits]
    rw [hb]
    simp [copyText, hseq]
  · have hseq : escapeSequence (c :: s) = some (b, 1) := by
      simp [escapeSequence, hoctal, hx, hc]
    rw [hb]
    simp [copyText, hseq]
  · rw [hb]
    simp [copyText, hback]

lemma copyText_text (t : List UInt8) : copyText (t.flatMap escapeChar) = t := by
  induction t with
  | nil => simp [copyText]
  | cons b t ih => rw [List.flatMap_cons, copyText_escapeChar, ih]

lemma copyText_plain {t : List UInt8} (h : ∀ b ∈ t, b ≠ backslash) : copyText t = t := by
  induction t with
  | nil => simp [copyText]
  | cons b t ih =>
    have hb := h b (by simp)
    rw [copyText, if_neg hb, ih fun c hc => h c (by simp [hc])]

/-- Only a null is written as one. -/
lemma text_ne_null (t : List UInt8) : t.flatMap escapeChar ≠ [backslash, letterN] := by
  intro h
  have htext := copyText_text t
  rw [h] at htext
  have hN : copyText [backslash, letterN] = [letterN] := by decide +kernel
  rw [hN] at htext
  rw [← htext] at h
  exact absurd h (by decide)

/-- The field of a line as it is stored. -/
lemma field_meaning {f : Field} (hf : Safe f) :
    (if line f = [backslash, letterN] then none else some (copyText (line f))) = f.value := by
  cases f with
  | null => rfl
  | number t =>
    have hne : t ≠ [backslash, letterN] := by
      rintro rfl
      exact absurd rfl (hf backslash (by simp)).2
    have hplain : ∀ b ∈ t, b ≠ backslash := fun b hb => (hf b hb).2
    rw [line, if_neg hne, copyText_plain hplain]
    rfl
  | text t =>
    rw [line, if_neg (text_ne_null t), copyText_text]
    rfl

lemma copyFields_written {fs : List Field} (hfs : ∀ f ∈ fs, Safe f) (hne : fs ≠ []) :
    copyFields (writeRow fs) = fs.map Field.value := by
  match fs, hne with
  | [f], _ =>
    have hf := hfs f (by simp)
    rw [writeRow_singleton, copyFields, rawFields_whole (whole_line hf)]
    simp [field_meaning hf]
  | f :: g :: fs, _ =>
    have hf := hfs f (by simp)
    have ih := copyFields_written (fun h hh => hfs h (by simp [hh])) (List.cons_ne_nil g fs)
    rw [copyFields] at ih ⊢
    rw [writeRow_cons, rawFields_whole_tab (whole_line hf), List.map_cons, ih, field_meaning hf]
    rfl

/-- **A written line stands for its row**: to whoever reads the text format of `COPY` as it is
documented, the characters written in octal included. -/
theorem copyFields_writeRow {fs : List Field} (hfs : ∀ f ∈ fs, Safe f) (hne : fs ≠ []) :
    copyFields (writeRow fs) = fs.map Field.value :=
  copyFields_written hfs hne

/-- A text with a tab and an `é`, a null and a number. -/
theorem copyFields_writeRow_here :
    copyFields (writeRow [.text (utf8 "a\té"), .null, .number (utf8 "-1")]) =
      [some (utf8 "a\té"), none, some (utf8 "-1")] := by
  have hsafe : ∀ f ∈ [.text (utf8 "a\té"), .null, .number (utf8 "-1")], Safe f := by
    simp [Safe, utf8, String.utf8EncodeChar, printable, betweenInc, backslash]
  exact copyFields_writeRow hsafe (by simp)

/-- A line holds nothing but printable characters and tabs. -/
lemma writeRow_printable {fs : List Field} (hfs : ∀ f ∈ fs, Safe f) (hne : fs ≠ []) :
    ∀ b ∈ writeRow fs, printable b ∨ b = tab := by
  have hchar : ∀ c, ∀ b ∈ escapeChar c, printable b := by
    intro c b hb
    have hback : printable backslash := by decide
    obtain hc | ⟨d, hc, hd, -⟩ | ⟨hc, hprint, -⟩ := escapeChar_cases c <;> rw [hc] at hb
    · simp only [List.mem_cons, List.not_mem_nil, or_false] at hb
      rcases hb with rfl | rfl | rfl | rfl
      · exact hback
      all_goals exact (printable_octalDigit ..).1
    · simp only [List.mem_cons, List.not_mem_nil, or_false] at hb
      rcases hb with rfl | rfl
      · exact hback
      · exact hd
    · rw [List.mem_singleton.mp hb]
      exact hprint
  have hline : ∀ f ∈ fs, ∀ b ∈ line f, printable b := by
    intro f hf b hb
    cases f with
    | null =>
      simp only [line, List.mem_cons, List.not_mem_nil, or_false] at hb
      rcases hb with rfl | rfl <;> decide
    | number t => exact (hfs _ hf b hb).1
    | text t =>
      obtain ⟨c, -, hb⟩ := List.mem_flatMap.mp hb
      exact hchar c b hb
  intro b hb
  have hmem : b ∈ fs.flatMap fun f => line f ++ [tab] := by
    rw [← writeRow_concat hne]
    exact List.mem_append_left _ hb
  obtain ⟨f, hf, hb⟩ := List.mem_flatMap.mp hmem
  rcases List.mem_append.mp hb with hb | hb
  · exact .inl (hline f hf b hb)
  · exact .inr (List.mem_singleton.mp hb)

/-! ### Reading what was sent -/

def glyphToken : List UInt8 → Token
  | [b] =>
    if b = backslash then .escaped backslash
    else
      match escapes.find? (·.2 = b) with
      | some (c, _) => .escaped c
      | none => .glyph [b]
  | g => .glyph g

def fieldTokens : Option (List (List UInt8)) → List Token
  | none => [.escaped letterN]
  | some gs => gs.map glyphToken

def rowTokens : List (Option (List (List UInt8))) → List Token
  | [] => []
  | [f] => fieldTokens f
  | f :: g :: fs => fieldTokens f ++ .tab :: rowTokens (g :: fs)

/-- A character is sent as itself, or as an escape sequence that the reader undoes. -/
lemma glyphToken_cases (g : List UInt8) :
    (glyphToken g = .glyph g ∧ sentGlyph g = g ∧ g ≠ [tab] ∧ g ≠ [backslash]) ∨
    ∃ c, glyphToken g = .escaped c ∧ sentGlyph g = [backslash, c] ∧ c ≠ letterN ∧
      g = [meaning c] := by
  match g with
  | [] => exact .inl ⟨rfl, rfl, by simp, by simp⟩
  | a :: b :: g => exact .inl ⟨rfl, rfl, by simp, by simp⟩
  | [b] =>
    by_cases hback : b = backslash
    · subst hback
      exact .inr ⟨backslash, rfl, rfl, by decide, rfl⟩
    rcases hfind : escapes.find? (·.2 = b) with _ | ⟨c, d⟩
    · refine .inl ⟨by simp [glyphToken, hback, hfind], by simp [sentGlyph, hback, hfind], ?_,
        by simpa using hback⟩
      rintro ⟨⟩
      exact absurd hfind (by decide)
    · obtain rfl : d = b := by simpa using List.find?_some hfind
      have hmem := List.mem_of_find?_eq_some hfind
      have hletters : ∀ e ∈ escapes, e.1 ≠ letterN ∧ meaning e.1 = e.2 := by
        intro e he
        simp only [escapes, List.mem_cons, List.not_mem_nil, or_false] at he
        rcases he with rfl | rfl | rfl | rfl | rfl | rfl <;> decide
      refine .inr ⟨c, by simp [glyphToken, hback, hfind], by simp [sentGlyph, hback, hfind],
        (hletters _ hmem).1, ?_⟩
      rw [(hletters _ hmem).2]

lemma bytes_glyphToken (g : List UInt8) : (glyphToken g).bytes = sentGlyph g := by
  obtain ⟨htok, hsent, -⟩ | ⟨c, htok, hsent, -⟩ := glyphToken_cases g <;> rw [htok, hsent] <;> rfl

lemma bytes_fieldTokens (f : Option (List (List UInt8))) :
    tokenBytes (fieldTokens f) = sentField f := by
  cases f with
  | none => rfl
  | some gs => simp [fieldTokens, sentField, tokenBytes, List.flatMap_map, bytes_glyphToken]

lemma bytes_rowTokens (row : List (Option (List (List UInt8)))) :
    tokenBytes (rowTokens row) = sentLine row := by
  match row with
  | [] => rfl
  | [f] => simp [rowTokens, sentLine, bytes_fieldTokens]
  | f :: g :: fs =>
    have ih := bytes_rowTokens (g :: fs)
    have hline : sentLine (f :: g :: fs) = sentField f ++ tab :: sentLine (g :: fs) := by
      simp [sentLine, List.intercalate]
    have happ : tokenBytes (fieldTokens f ++ .tab :: rowTokens (g :: fs)) =
        tokenBytes (fieldTokens f) ++ tab :: tokenBytes (rowTokens (g :: fs)) := by
      simp [tokenBytes, Token.bytes]
    rw [rowTokens, happ, bytes_fieldTokens, ih, hline]

lemma rowOf_glyphs (v : List UInt8) (gs : List (List UInt8)) (ts : List Token) :
    rowOf (some v) (gs.map glyphToken ++ ts) = rowOf (some (v ++ gs.flatten)) ts := by
  induction gs generalizing v with
  | nil => simp
  | cons g gs ih =>
    rw [List.map_cons, List.cons_append]
    obtain ⟨htok, -⟩ | ⟨c, htok, -, hc, rfl⟩ := glyphToken_cases g
    · simp [htok, rowOf, ih]
    · simp [htok, rowOf, hc, ih]

lemma rowOf_fieldTokens (f : Option (List (List UInt8))) (ts : List Token) :
    rowOf (some []) (fieldTokens f ++ ts) = rowOf (f.map List.flatten) ts := by
  cases f with
  | none => simp [fieldTokens, rowOf]
  | some gs => exact rowOf_glyphs [] gs ts

lemma rowOf_rowTokens {row : List (Option (List (List UInt8)))} (hne : row ≠ []) :
    rowOf (some []) (rowTokens row) = some (row.map (Option.map List.flatten)) := by
  match row, hne with
  | [f], _ =>
    have h := rowOf_fieldTokens f []
    rw [List.append_nil] at h
    rw [rowTokens, h]
    rfl
  | f :: g :: fs, _ =>
    have ih := rowOf_rowTokens (List.cons_ne_nil g fs)
    rw [rowTokens, rowOf_fieldTokens, rowOf, ih]
    rfl

variable {enc : EncodingGroup}

/-- The ASCII characters are in every table. -/
lemma inTable_ascii {b : UInt8} (hb : b < 0x80) : InTable enc [b] := by
  have hle : b ≤ 0x7f := by grind
  cases enc <;> simp [InTable, forms, ascii, betweenInc, hle]
  grind

section Placing

variable (hgb : enc ≠ .GB18030) (hmule : enc ≠ .MULE_INTERNAL)

include hgb hmule

lemma placed_glyphToken {g : List UInt8} (hg : InTable enc g) (rest : List UInt8) :
    Placed enc (glyphToken g) rest := by
  obtain ⟨htok, -, htab, hback⟩ | ⟨c, htok, -⟩ := glyphToken_cases g <;> rw [htok]
  · exact ⟨isGlyph_of_inTable hgb hmule hg, htab, hback⟩
  · exact plain_ascii hgb (show backslash < 0x80 by decide) (c :: rest)

lemma placed_fieldTokens {f : Option (List (List UInt8))}
    (hf : ∀ gs, f = some gs → ∀ g ∈ gs, InTable enc g) :
    ∀ t ∈ fieldTokens f, ∀ rest, Placed enc t rest := by
  intro t ht rest
  cases f with
  | none =>
    rw [List.mem_singleton.mp ht]
    exact plain_ascii hgb (show backslash < 0x80 by decide) (letterN :: rest)
  | some gs =>
    obtain ⟨g, hg, rfl⟩ := List.mem_map.mp ht
    exact placed_glyphToken hgb hmule (hf gs rfl g hg) rest

lemma placed_rowTokens {row : List (Option (List (List UInt8)))}
    (hrow : ∀ gs, some gs ∈ row → ∀ g ∈ gs, InTable enc g) :
    ∀ t ∈ rowTokens row, ∀ rest, Placed enc t rest := by
  have hfield : ∀ f ∈ row, ∀ t ∈ fieldTokens f, ∀ rest, Placed enc t rest := by
    intro f hf
    refine placed_fieldTokens hgb hmule ?_
    rintro gs rfl
    exact hrow gs hf
  match row with
  | [] => simp [rowTokens]
  | [f] => exact hfield f (by simp)
  | f :: g :: fs =>
    have hrest : ∀ gs, some gs ∈ g :: fs → ∀ h ∈ gs, InTable enc h := fun gs hgs =>
      hrow gs (List.mem_cons_of_mem f hgs)
    have ih := placed_rowTokens hrest
    intro t ht rest
    rw [rowTokens, List.mem_append, List.mem_cons] at ht
    rcases ht with ht | rfl | ht
    · exact hfield f (by simp) t ht rest
    · exact plain_ascii hgb (show tab < 0x80 by decide) rest
    · exact ih t ht rest

end Placing

lemma arePlaced_of {ts : List Token} (h : ∀ t ∈ ts, ∀ rest, Placed enc t rest)
    (rest : List UInt8) : ArePlaced enc ts rest := by
  induction ts with
  | nil => trivial
  | cons t ts ih => exact ⟨h t (by simp) _, ih fun u hu => h u (by simp [hu])⟩

/-- What is sent is read as the row. -/
lemma parseLine_sentLine (hgb : enc ≠ .GB18030) (hmule : enc ≠ .MULE_INTERNAL)
    {row : List (Option (List (List UInt8)))} (hne : row ≠ [])
    (hrow : ∀ gs, some gs ∈ row → ∀ g ∈ gs, InTable enc g)
    (hlen : (sentLine row).length < lineLimit) :
    parseLine enc (sentLine row) = .ok (row.map (Option.map List.flatten)) := by
  rw [← bytes_rowTokens] at hlen ⊢
  have hplaced := arePlaced_of (placed_rowTokens hgb hmule hrow) []
  rw [parseLine_of_tokens hplaced hlen, rowOf_rowTokens hne]

/-- A text made of characters of the encoding. -/
def MadeOf (enc : EncodingGroup) (t : List UInt8) : Prop :=
  ∃ gs : List (List UInt8), t = gs.flatten ∧ ∀ g ∈ gs, InTable enc g

lemma madeOf_printable {t : List UInt8} (h : ∀ b ∈ t, printable b) : MadeOf enc t := by
  refine ⟨t.map fun b => [b], by rw [← List.flatMap_def, List.flatMap_singleton'], ?_⟩
  intro g hg
  obtain ⟨b, hb, rfl⟩ := List.mem_map.mp hg
  refine inTable_ascii ?_
  have := (h b hb).2
  grind

/-- The row as characters. -/
lemma exists_characters {fs : List Field} (hfs : ∀ f ∈ fs, Safe f)
    (htexts : ∀ f ∈ fs, ∀ t, f = .text t → MadeOf enc t) :
    ∃ row : List (Option (List (List UInt8))), row.map (Option.map List.flatten) =
      fs.map Field.value ∧ ∀ gs, some gs ∈ row → ∀ g ∈ gs, InTable enc g := by
  induction fs with
  | nil => exact ⟨[], rfl, by simp⟩
  | cons f fs ih =>
    obtain ⟨row, hrow, htable⟩ :=
      ih (fun g hg => hfs g (by simp [hg])) fun g hg => htexts g (by simp [hg])
    have hf : ∀ t, f.value = some t → MadeOf enc t := by
      intro t ht
      cases f with
      | null => cases ht
      | number u =>
        cases ht
        have hsafe : Safe (.number t) := hfs _ (by simp)
        exact madeOf_printable fun b hb => (hsafe b hb).1
      | text u =>
        cases ht
        exact htexts _ (by simp) t rfl
    rcases hv : f.value with _ | t
    · refine ⟨none :: row, by simp [hrow, hv], ?_⟩
      simpa using htable
    · obtain ⟨gs, rfl, hgs⟩ := hf t hv
      refine ⟨some gs :: row, by simp [hrow, hv], ?_⟩
      rintro gs' hmem
      rcases List.mem_cons.mp hmem with h | h
      · cases h
        exact hgs
      · exact htable gs' h

/-- **Through a table.** What `stream_to` writes and a server takes, `stream_from` reads from it
as it was, where the scanner misses nothing. -/
theorem parseLine_copyTo {srv : Server} (hsrv : Documented enc srv) (hgb : enc ≠ .GB18030)
    (hmule : enc ≠ .MULE_INTERNAL) {fs : List Field} (hfs : ∀ f ∈ fs, Safe f) (hne : fs ≠ [])
    (htexts : ∀ f ∈ fs, ∀ t, f = .text t → MadeOf enc t) {row : List (Option (List UInt8))}
    (htaken : srv.copyFrom (writeRow fs) = some row)
    (hlen : (srv.copyTo row).length < lineLimit) :
    parseLine enc (srv.copyTo row) = .ok (fs.map Field.value) := by
  have hstored : row = fs.map Field.value := by
    rw [hsrv.takes _ _ (writeRow_printable hfs hne) htaken, copyFields_written hfs hne]
  obtain ⟨chars, hchars, htable⟩ := exists_characters hfs htexts
  have hsent : srv.copyTo row = sentLine chars := by
    rw [hstored, ← hchars, hsrv.sends chars htable]
  have hchars_ne : chars ≠ [] := by
    rintro rfl
    exact hne (by simpa using hchars.symm)
  rw [hsent] at hlen ⊢
  rw [parseLine_sentLine hgb hmule hchars_ne htable hlen, hchars]

/-- A table that takes every line. -/
def table (enc : EncodingGroup) : Server where
  copyFrom line := some (copyFields line)
  copyTo row := sentLine (row.map (Option.map fun t => (forGlyphs enc t 0).1))

lemma table_documented (hgb : enc ≠ .GB18030) (hmule : enc ≠ .MULE_INTERNAL) :
    Documented enc (table enc) where
  takes line row _ h := (Option.some.inj h).symm
  sends row hrow := by
    have hsplit : ∀ gs, some gs ∈ row → (forGlyphs enc gs.flatten 0).1 = gs := by
      intro gs hgs
      have hglyphs : AreGlyphs enc gs [] := by
        have htable := hrow gs hgs
        clear hrow hgs
        induction gs with
        | nil => trivial
        | cons g gs ih =>
          exact ⟨isGlyph_of_inTable hgb hmule (htable g (by simp)),
            ih fun h hh => htable h (by simp [hh])⟩
      rw [forGlyphs_of_glyphs hglyphs]
    have hrow : ∀ f ∈ row, (f.map List.flatten).map (fun t => (forGlyphs enc t 0).1) = f := by
      intro f hf
      cases f with
      | none => rfl
      | some gs => simp [hsplit gs hf]
    show sentLine ((row.map (Option.map List.flatten)).map _) = sentLine row
    rw [List.map_map]
    exact congrArg sentLine ((List.map_congr_left hrow).trans (List.map_id row))

lemma madeOf_utf8 (s : String) : MadeOf .UTF8 (utf8 s) := by
  refine ⟨s.toList.map String.utf8EncodeChar, List.flatMap_def .., ?_⟩
  intro g hg
  obtain ⟨c, -, rfl⟩ := List.mem_map.mp hg
  exact inTable_utf8EncodeChar c

/-- A text with a tab and an `é`, a null and a number. -/
theorem parseLine_copyTo_here :
    parseLine .UTF8 ((table .UTF8).copyTo [some (utf8 "a\té"), none, some (utf8 "-1")]) =
      .ok [some (utf8 "a\té"), none, some (utf8 "-1")] := by
  have hgb : EncodingGroup.UTF8 ≠ .GB18030 := by decide
  have hmule : EncodingGroup.UTF8 ≠ .MULE_INTERNAL := by decide
  have hsafe : ∀ f ∈ [.text (utf8 "a\té"), .null, .number (utf8 "-1")], Safe f := by
    simp [Safe, utf8, String.utf8EncodeChar, printable, betweenInc, backslash]
  have htexts : ∀ f ∈ [Field.text (utf8 "a\té"), .null, .number (utf8 "-1")], ∀ t, f = .text t →
      MadeOf .UTF8 t := by
    simp [madeOf_utf8]
  have htaken : (table .UTF8).copyFrom
      (writeRow [.text (utf8 "a\té"), .null, .number (utf8 "-1")]) =
        some [some (utf8 "a\té"), none, some (utf8 "-1")] :=
    congrArg some (copyFields_written hsafe (by simp))
  exact parseLine_copyTo (table_documented hgb hmule) hgb hmule hsafe (by simp) htexts htaken
    (by decide +kernel)

end DbCoursework.CopyTables

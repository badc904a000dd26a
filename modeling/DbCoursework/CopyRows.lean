import DbCoursework.QuotedText
import Mathlib.Algebra.Ring.Nat

/-!
Rows of `COPY` text.

`stream_to` escapes the fields of a row into a line, which goes to the server's `COPY FROM`.
`stream_from` takes a line of its `COPY TO` apart, in place, into fields that each end in a zero.
The reader is given in its own terms: a line is a sequence of glyphs, escape sequences and tabs,
and means the fields between the tabs.
-/

namespace DbCoursework.CopyRows

open DbCoursework.Encodings DbCoursework.Glyphs DbCoursework.GlyphText DbCoursework.QuotedText

def tab : UInt8 := 0x09

/-- The letter of a null sequence. -/
def letterN : UInt8 := 0x4e

/-! ### The reader -/

inductive CopyError
  | scan (f : Fault)
  | failure (what : String)
  | rangeError (what : String)
  | outside
  deriving DecidableEq

/-- What is written of `m_row`, where the current field begins in it, nowhere if it is null, and
the fields before. -/
structure RowState where
  row : List UInt8
  fieldBegin : Option ℕ
  fields : List (Option (List UInt8))

def RowState.put (size : ℕ) (bytes : List UInt8) (s : RowState) : Except CopyError RowState :=
  if s.row.length + bytes.length ≤ size then .ok { s with row := s.row ++ bytes }
  else .error .outside

/-- The current field ends, with a zero unless it is null. -/
def RowState.endField (size : ℕ) (s : RowState) : Except CopyError RowState :=
  match s.fieldBegin with
  | none => .ok { s with fields := s.fields ++ [none] }
  | some b => { s with fields := s.fields ++ [some (s.row.drop b)] }.put size [0]

def RowState.beginField (s : RowState) : RowState := { s with fieldBegin := some s.row.length }

def unescape (c : UInt8) : UInt8 :=
  if c = 0x62 then 0x08        -- b
  else if c = 0x66 then 0x0c   -- f
  else if c = 0x6e then 0x0a   -- n
  else if c = 0x72 then 0x0d   -- r
  else if c = 0x74 then 0x09   -- t
  else if c = 0x76 then 0x0b   -- v
  else c

/-- The escape sequence of a backslash and `c`. -/
def RowState.escape (size : ℕ) (c : UInt8) (s : RowState) : Except CopyError RowState :=
  if c = letterN then
    if s.fieldBegin = some s.row.length then .ok { s with fieldBegin := none }
    else .error (.failure "Null sequence found in nonempty field")
  else s.put size [unescape c]

variable (enc : EncodingGroup)

/-- The loop of `parse_line`, with `size` bytes in `m_row`. -/
def parseLoop (size : ℕ) (lineBegin : List UInt8) (s : RowState) (read : ℕ) :
    Except CopyError RowState :=
  if read < lineBegin.length then
    match h : glyphScanner enc lineBegin read with
    | .error f => .error (.scan f)
    | .ok none => .ok s
    | .ok (some glyphEnd) =>
      have := glyphScanner_lt h
      if glyphEnd = read + 1 ∧ lineBegin[read]? = some tab then
        match s.endField size with
        | .error e => .error e
        | .ok s => parseLoop size lineBegin s.beginField glyphEnd
      else if glyphEnd = read + 1 ∧ lineBegin[read]? = some backslash then
        match lineBegin[glyphEnd]? with
        | none => .error (.failure "Row ends in backslash")
        | some c =>
          match s.escape size c with
          | .error e => .error e
          | .ok s => parseLoop size lineBegin s (glyphEnd + 1)
      else
        match s.put size (slice lineBegin read glyphEnd) with
        | .error e => .error e
        | .ok s => parseLoop size lineBegin s glyphEnd
  else .ok s
termination_by lineBegin.length - read

/-- Half of the greatest `std::size_t`. -/
def lineLimit : ℕ := 2 ^ 63 - 1

/-- `parse_line`, for a line that was read. -/
def parseLine (line : List UInt8) : Except CopyError (List (Option (List UInt8))) :=
  if lineLimit ≤ line.length then
    .error (.rangeError "Stream produced a ridiculously long line.")
  else do
    let s ← parseLoop enc (line.length + 1) line ⟨[], some 0, []⟩ 0
    let s ← s.endField (line.length + 1)
    return s.fields

/-! ### The writer -/

/-- A field of a row: null, of an arithmetic type, or anything else. -/
inductive Field
  | null
  | number (t : List UInt8)
  | text (t : List UInt8)

def Field.value : Field → Option (List UInt8)
  | .null => none
  | .number t | .text t => some t

/-- A digit of `b` in octal. -/
def octalDigit (b : UInt8) (i : ℕ) : UInt8 := UInt8.ofNat (b.toNat / 8 ^ i % 8 + 0x30)

/-- A character of `escape_field_to_buffer`. -/
def escapeChar (b : UInt8) : List UInt8 :=
  if b = 0x08 then [backslash, 0x62]
  else if b = 0x0c then [backslash, 0x66]
  else if b = 0x0a then [backslash, 0x6e]
  else if b = 0x0d then [backslash, 0x72]
  else if b = 0x09 then [backslash, 0x74]
  else if b = 0x0b then [backslash, 0x76]
  else if b = backslash then [backslash, backslash]
  else if b < 0x20 ∨ 0x7e < b then [backslash, octalDigit b 2, octalDigit b 1, octalDigit b 0]
  else [b]

def escapeFieldToBuffer (buffer t : List UInt8) : List UInt8 :=
  buffer ++ t.flatMap escapeChar ++ [tab]

/-- `append_to_buffer`; the text of a number is put there as it is, with the tab in the place of
its zero. -/
def appendToBuffer (buffer : List UInt8) : Field → List UInt8
  | .null => buffer ++ [backslash, letterN, tab]
  | .number t => buffer ++ t ++ [tab]
  | .text t => escapeFieldToBuffer buffer t

/-- `write_row`: the line of a row. The last tab goes. -/
def writeRow (fields : List Field) : List UInt8 :=
  let buffer := fields.foldl appendToBuffer []
  if buffer.isEmpty then buffer else buffer.dropLast

/-! ### What a line means -/

/-- The letters of the control characters in the text format of `COPY`. -/
def escapes : List (UInt8 × UInt8) :=
  [(0x62, 0x08), (0x66, 0x0c), (0x6e, 0x0a), (0x72, 0x0d), (0x74, 0x09), (0x76, 0x0b)]

/-- What a backslash and `c` stand for: any other character is taken as it is. -/
def meaning (c : UInt8) : UInt8 := (escapes.lookup c).getD c

inductive Token
  | glyph (g : List UInt8)
  | escaped (c : UInt8)
  | tab

def Token.bytes : Token → List UInt8
  | .glyph g => g
  | .escaped c => [backslash, c]
  | .tab => [CopyRows.tab]

def tokenBytes (ts : List Token) : List UInt8 := ts.flatMap Token.bytes

/-- The token is there when `rest` follows it. A backslash escapes one byte, of whatever glyph
that is. -/
def Placed : Token → List UInt8 → Prop
  | .glyph g, rest => IsGlyph enc g rest ∧ g ≠ [tab] ∧ g ≠ [backslash]
  | .escaped c, rest => IsGlyph enc [backslash] (c :: rest)
  | .tab, rest => IsGlyph enc [tab] rest

def ArePlaced : List Token → List UInt8 → Prop
  | [], _ => True
  | t :: ts, rest => Placed enc t (tokenBytes ts ++ rest) ∧ ArePlaced ts rest

/-- The fields of a row, `cur` being what is read of the first one. Once a field is null, what
else is written in it does not count. -/
def rowOf (cur : Option (List UInt8)) : List Token → Option (List (Option (List UInt8)))
  | [] => some [cur]
  | .tab :: ts => (rowOf (some []) ts).map (cur :: ·)
  | .escaped c :: ts =>
    if c = letterN then
      if cur = some [] then rowOf none ts else none
    else rowOf (cur.map (· ++ [meaning c])) ts
  | .glyph g :: ts => rowOf (cur.map (· ++ g)) ts

/-! ### One token -/

lemma unescape_eq (c : UInt8) : unescape c = meaning c := by
  simp only [unescape, meaning, escapes, List.lookup_cons, List.lookup_nil]
  grind

/-- What the loop does with a token. -/
def RowState.token (size : ℕ) (s : RowState) : Token → Except CopyError RowState
  | .glyph g => s.put size g
  | .escaped c => s.escape size c
  | .tab => (s.endField size).map RowState.beginField

def RowState.tokens (size : ℕ) : RowState → List Token → Except CopyError RowState
  | s, [] => .ok s
  | s, t :: ts =>
    match s.token size t with
    | .error e => .error e
    | .ok s => s.tokens size ts

variable {enc}

section Turns

variable {size read glyphEnd : ℕ} {lineBegin : List UInt8} {s : RowState}

lemma parseLoop_tab (h : glyphScanner enc lineBegin read = .ok (some glyphEnd))
    (ht : glyphEnd = read + 1 ∧ lineBegin[read]? = some tab) :
    parseLoop enc size lineBegin s read =
      match s.endField size with
      | .error e => .error e
      | .ok s => parseLoop enc size lineBegin s.beginField glyphEnd := by
  have hlt := (glyphScanner_lt h).2
  conv_lhs => rw [parseLoop, if_pos hlt]
  split
  · next h' => cases h.symm.trans h'
  · next h' => cases h.symm.trans h'
  · next glyphEnd' h' =>
    obtain rfl : glyphEnd = glyphEnd' := by simpa using h.symm.trans h'
    rw [if_pos ht]

lemma parseLoop_escape {c : UInt8} (h : glyphScanner enc lineBegin read = .ok (some glyphEnd))
    (hb : glyphEnd = read + 1 ∧ lineBegin[read]? = some backslash)
    (hc : lineBegin[glyphEnd]? = some c) :
    parseLoop enc size lineBegin s read =
      match s.escape size c with
      | .error e => .error e
      | .ok s => parseLoop enc size lineBegin s (glyphEnd + 1) := by
  have hlt := (glyphScanner_lt h).2
  have ht : ¬ (glyphEnd = read + 1 ∧ lineBegin[read]? = some tab) := by
    rintro ⟨-, ht⟩
    exact absurd (ht.symm.trans hb.2) (by decide)
  conv_lhs => rw [parseLoop, if_pos hlt]
  split
  · next h' => cases h.symm.trans h'
  · next h' => cases h.symm.trans h'
  · next glyphEnd' h' =>
    obtain rfl : glyphEnd = glyphEnd' := by simpa using h.symm.trans h'
    rw [if_neg ht, if_pos hb, hc]

lemma parseLoop_backslash (h : glyphScanner enc lineBegin read = .ok (some glyphEnd))
    (hb : glyphEnd = read + 1 ∧ lineBegin[read]? = some backslash)
    (hc : lineBegin[glyphEnd]? = none) :
    parseLoop enc size lineBegin s read = .error (.failure "Row ends in backslash") := by
  have hlt := (glyphScanner_lt h).2
  have ht : ¬ (glyphEnd = read + 1 ∧ lineBegin[read]? = some tab) := by
    rintro ⟨-, ht⟩
    exact absurd (ht.symm.trans hb.2) (by decide)
  conv_lhs => rw [parseLoop, if_pos hlt]
  split
  · next h' => cases h.symm.trans h'
  · next h' => cases h.symm.trans h'
  · next glyphEnd' h' =>
    obtain rfl : glyphEnd = glyphEnd' := by simpa using h.symm.trans h'
    rw [if_neg ht, if_pos hb, hc]

lemma parseLoop_glyph (h : glyphScanner enc lineBegin read = .ok (some glyphEnd))
    (ht : ¬ (glyphEnd = read + 1 ∧ lineBegin[read]? = some tab))
    (hb : ¬ (glyphEnd = read + 1 ∧ lineBegin[read]? = some backslash)) :
    parseLoop enc size lineBegin s read =
      match s.put size (slice lineBegin read glyphEnd) with
      | .error e => .error e
      | .ok s => parseLoop enc size lineBegin s glyphEnd := by
  have hlt := (glyphScanner_lt h).2
  conv_lhs => rw [parseLoop, if_pos hlt]
  split
  · next h' => cases h.symm.trans h'
  · next h' => cases h.symm.trans h'
  · next glyphEnd' h' =>
    obtain rfl : glyphEnd = glyphEnd' := by simpa using h.symm.trans h'
    rw [if_neg ht, if_neg hb]

lemma parseLoop_error {f : Fault} (h : glyphScanner enc lineBegin read = .error f) :
    parseLoop enc size lineBegin s read = .error (.scan f) := by
  have hlt : read < lineBegin.length := by
    by_contra hge
    cases (glyphScanner_none (Nat.le_of_not_lt hge)).symm.trans h
  rw [parseLoop, if_pos hlt]
  split
  · next h' =>
    cases h.symm.trans h'
    rfl
  · next h' => cases h.symm.trans h'
  · next h' => cases h.symm.trans h'

lemma parseLoop_end : parseLoop enc size lineBegin s lineBegin.length = .ok s := by
  rw [parseLoop, if_neg (Nat.lt_irrefl _)]

end Turns

/-- The byte at a place, against the first one of a glyph there. -/
lemma at_glyph (pre : List UInt8) {g rest : List UInt8} {b : UInt8} (hg : IsGlyph enc g rest) :
    (pre.length + g.length = pre.length + 1 ∧ (pre ++ (g ++ rest))[pre.length]? = some b) ↔
      g = [b] := by
  have hlen := (isGlyph_length hg).1
  obtain ⟨a, g, rfl⟩ := List.exists_cons_of_length_pos hlen
  simp [and_comm]

lemma parseLoop_token (size : ℕ) {t : Token} (pre : List UInt8) {rest : List UInt8}
    (s : RowState) (h : Placed enc t rest) :
    parseLoop enc size (pre ++ (t.bytes ++ rest)) s pre.length =
      match s.token size t with
      | .error e => .error e
      | .ok s => parseLoop enc size (pre ++ (t.bytes ++ rest)) s (pre.length + t.bytes.length) := by
  cases t with
  | glyph g =>
    rw [Token.bytes, parseLoop_glyph (scan_glyph pre h.1) ((at_glyph pre h.1).not.mpr h.2.1)
      ((at_glyph pre h.1).not.mpr h.2.2), slice_at, RowState.token]
  | escaped c =>
    have h : IsGlyph enc [backslash] (c :: rest) := h
    have hscan := scan_glyph pre h
    have hb := (at_glyph pre h).mpr rfl
    exact parseLoop_escape hscan hb (by simp [Token.bytes])
  | tab =>
    have h : IsGlyph enc [tab] rest := h
    have hscan := scan_glyph pre h
    have ht := (at_glyph pre h).mpr rfl
    rw [Token.bytes, parseLoop_tab hscan ht, RowState.token]
    cases s.endField size <;> rfl

lemma tokenBytes_cons (t : Token) (ts : List Token) :
    tokenBytes (t :: ts) = t.bytes ++ tokenBytes ts := List.flatMap_cons ..

lemma parseLoop_tokens (size : ℕ) {ts : List Token} (pre : List UInt8) {rest : List UInt8}
    (s : RowState) (h : ArePlaced enc ts rest) :
    parseLoop enc size (pre ++ (tokenBytes ts ++ rest)) s pre.length =
      match s.tokens size ts with
      | .error e => .error e
      | .ok s => parseLoop enc size (pre ++ (tokenBytes ts ++ rest)) s
          (pre ++ tokenBytes ts).length := by
  induction ts generalizing pre s with
  | nil => simp [tokenBytes, RowState.tokens]
  | cons t ts ih =>
    have htoken := parseLoop_token size pre s h.1
    have hbytes : pre ++ (tokenBytes (t :: ts) ++ rest) =
        pre ++ (t.bytes ++ (tokenBytes ts ++ rest)) := by
      simp [tokenBytes]
    rw [hbytes, htoken, RowState.tokens]
    cases s.token size t with
    | error e => rfl
    | ok s =>
      have ih := ih (pre ++ t.bytes) s h.2
      simp only [List.append_assoc, List.length_append] at ih
      simp only [ih, tokenBytes_cons, List.length_append]

/-- Every line is made of tokens up to its end, or to a backslash there, or to a place where no
glyph stands. -/
lemma exists_tokens (enc : EncodingGroup) (pre line : List UInt8) :
    ∃ ts rest, line = tokenBytes ts ++ rest ∧
    ArePlaced enc ts rest ∧ (rest = [] ∨ (rest = [backslash] ∧ IsGlyph enc [backslash] []) ∨
      ∃ f, glyphScanner enc (pre ++ tokenBytes ts ++ rest) (pre ++ tokenBytes ts).length =
        .error f) := by
  induction h : line.length using Nat.strong_induction_on generalizing pre line with
  | _ n ih =>
    subst h
    have hstep : ∀ t rest, line = t.bytes ++ rest → (∀ ts rest', rest = tokenBytes ts ++ rest' →
        Placed enc t (tokenBytes ts ++ rest')) → 1 ≤ t.bytes.length → ∃ ts rest,
        line = tokenBytes ts ++ rest ∧ ArePlaced enc ts rest ∧
          (rest = [] ∨ (rest = [backslash] ∧ IsGlyph enc [backslash] []) ∨
            ∃ f, glyphScanner enc (pre ++ tokenBytes ts ++ rest) (pre ++ tokenBytes ts).length =
              .error f) := by
      rintro t rest rfl hplaced hpos
      obtain ⟨ts, rest', rfl, hts, hend⟩ :=
        ih rest.length (by simp; omega) (pre ++ t.bytes) rest rfl
      refine ⟨t :: ts, rest', by simp [tokenBytes], ⟨hplaced ts rest' rfl, hts⟩, ?_⟩
      simpa [tokenBytes] using hend
    rcases hscan : glyphScanner enc (pre ++ line) pre.length with f | _ | next
    · exact ⟨[], line, rfl, trivial, .inr (.inr ⟨f, by simpa [tokenBytes] using hscan⟩)⟩
    · have hline : line = [] := by
        by_contra hne
        exact glyphScanner_ne_none hne hscan
      exact ⟨[], [], hline, trivial, .inl rfl⟩
    · obtain ⟨g, rest, rfl, hg, rfl⟩ := (glyphScanner_found enc).mp hscan
      by_cases htab : g = [tab]
      · subst htab
        exact hstep .tab rest rfl (fun ts rest' h => h ▸ hg) (by simp [Token.bytes])
      by_cases hback : g = [backslash]
      · subst hback
        cases rest with
        | nil => exact ⟨[], [backslash], rfl, trivial, .inr (.inl ⟨rfl, hg⟩)⟩
        | cons c rest =>
          exact hstep (.escaped c) rest rfl (fun ts rest' h => h ▸ hg) (by simp [Token.bytes])
      · exact hstep (.glyph g) rest rfl (fun ts rest' h => ⟨h ▸ hg, htab, hback⟩)
          (isGlyph_length hg).1

/-! ### What the loop has read -/

namespace RowState

/-- The current field as it stands. -/
def cur (s : RowState) : Option (List UInt8) := s.fieldBegin.map s.row.drop

/-- The current field begins in `m_row`. -/
def Begun (s : RowState) : Prop := ∀ b ∈ s.fieldBegin, b ≤ s.row.length

/-- The row the loop is about to read. -/
def rowOf (s : RowState) (ts : List Token) : Option (List (Option (List UInt8))) :=
  (CopyRows.rowOf s.cur ts).map (s.fields ++ ·)

variable {s : RowState} {size : ℕ}

lemma put_ok {bytes : List UInt8} (h : s.row.length + bytes.length ≤ size) :
    s.put size bytes = .ok { s with row := s.row ++ bytes } := if_pos h

lemma begun_start : Begun ⟨[], some 0, []⟩ := by simp [Begun]

lemma Begun.put (hs : s.Begun) (bytes : List UInt8) :
    Begun { s with row := s.row ++ bytes } := by
  intro b hb
  have := hs b hb
  simp only [List.length_append]
  omega

/-- What is put into the row is put at the end of the current field. -/
lemma cur_put (hs : s.Begun) (bytes : List UInt8) :
    cur { s with row := s.row ++ bytes } = s.cur.map (· ++ bytes) := by
  rcases hb : s.fieldBegin with _ | b
  · simp [cur, hb]
  · have := hs b hb
    simp [cur, hb, List.drop_append_of_le_length this]

lemma cur_eq_nil (hs : s.Begun) : s.cur = some [] ↔ s.fieldBegin = some s.row.length := by
  rcases hb : s.fieldBegin with _ | b
  · simp [cur, hb]
  · have := hs b hb
    simp only [cur, hb, Option.map_some, Option.some.injEq, List.drop_eq_nil_iff]
    omega

lemma endField_spec {size : ℕ} (hroom : s.row.length < size) :
    ∃ row, s.endField size = .ok ⟨row, s.fieldBegin, s.fields ++ [s.cur]⟩ ∧
      row.length ≤ s.row.length + 1 := by
  rcases hb : s.fieldBegin with _ | b
  · exact ⟨s.row, by simp [endField, cur, hb], by omega⟩
  · refine ⟨s.row ++ [0], ?_, by simp⟩
    rw [endField, hb]
    exact (put_ok hroom).trans (by simp [cur, hb])

/-- **One token.** The buffer is large enough, and the row is read as far as the token goes; or
a null sequence stands in a field that is not empty. -/
lemma token_spec (hs : s.Begun) (t : Token) (hroom : s.row.length + t.bytes.length < size) :
    (∃ s', s.token size t = .ok s' ∧ s'.Begun ∧
      s'.row.length ≤ s.row.length + t.bytes.length ∧ ∀ ts, s.rowOf (t :: ts) = s'.rowOf ts) ∨
    (s.token size t = .error (.failure "Null sequence found in nonempty field") ∧
      ∀ ts, s.rowOf (t :: ts) = none) := by
  cases t with
  | glyph g =>
    have hput : s.put size g = _ := put_ok (Nat.le_of_lt hroom)
    refine .inl ⟨_, hput, hs.put g, by simp [Token.bytes], fun ts => ?_⟩
    rw [rowOf, rowOf, cur_put hs, CopyRows.rowOf]
  | escaped c =>
    simp only [token, escape]
    by_cases hc : c = letterN
    · by_cases hnil : s.cur = some []
      · rw [if_pos hc, if_pos ((cur_eq_nil hs).mp hnil)]
        refine .inl ⟨_, rfl, by simp [Begun], by simp, fun ts => ?_⟩
        rw [rowOf, CopyRows.rowOf, if_pos hc, if_pos hnil]
        rfl
      · rw [if_pos hc, if_neg fun h => hnil ((cur_eq_nil hs).mpr h)]
        refine .inr ⟨rfl, fun ts => ?_⟩
        rw [rowOf, CopyRows.rowOf, if_pos hc, if_neg hnil]
        rfl
    · rw [if_neg hc]
      simp only [Token.bytes, List.length_cons, List.length_nil] at hroom ⊢
      refine .inl ⟨_, put_ok (by simp; omega), hs.put _, by simp, fun ts => ?_⟩
      rw [rowOf, rowOf, cur_put hs, CopyRows.rowOf, if_neg hc, unescape_eq]
  | tab =>
    simp only [Token.bytes, List.length_cons, List.length_nil] at hroom ⊢
    obtain ⟨row, hend, hrow⟩ := endField_spec (Nat.lt_of_le_of_lt (Nat.le_add_right ..) hroom)
    refine .inl ⟨_, by rw [token, hend]; rfl, by simp [Begun, beginField], hrow, fun ts => ?_⟩
    simp [rowOf, CopyRows.rowOf, cur, beginField, Function.comp_def]

lemma tokens_spec (size : ℕ) (hs : s.Begun) (ts : List Token)
    (hroom : s.row.length + (tokenBytes ts).length < size) :
    (∃ s', s.tokens size ts = .ok s' ∧ s'.Begun ∧
      s'.row.length ≤ s.row.length + (tokenBytes ts).length ∧ s.rowOf ts = s'.rowOf []) ∨
    (s.tokens size ts = .error (.failure "Null sequence found in nonempty field") ∧
      s.rowOf ts = none) := by
  induction ts generalizing s with
  | nil => exact .inl ⟨s, rfl, hs, by simp [tokenBytes], rfl⟩
  | cons t ts ih =>
    rw [tokenBytes_cons, List.length_append] at hroom ⊢
    rw [tokens]
    obtain ⟨s1, h1, hs1, hlen, hrow⟩ | ⟨h1, hrow⟩ :=
      token_spec hs t (Nat.lt_of_le_of_lt (by omega) hroom)
    · rw [h1, hrow]
      obtain ⟨s2, h2, hs2, hlen2, hrow2⟩ | h2 := ih hs1 (by omega)
      · exact .inl ⟨s2, h2, hs2, by omega, hrow2⟩
      · exact .inr h2
    · rw [h1, hrow]
      exact .inr ⟨rfl, rfl⟩

end RowState

/-! ### Lines -/

lemma parseLine_of_tokens {ts : List Token} (hts : ArePlaced enc ts [])
    (hlen : (tokenBytes ts).length < lineLimit) :
    parseLine enc (tokenBytes ts) =
      match rowOf (some []) ts with
      | none => .error (.failure "Null sequence found in nonempty field")
      | some fields => .ok fields := by
  have hloop := parseLoop_tokens ((tokenBytes ts).length + 1) []
    ⟨[], some 0, []⟩ hts
  simp only [List.nil_append, List.append_nil, List.length_nil] at hloop
  have hrow : RowState.rowOf ⟨[], some 0, []⟩ ts = rowOf (some []) ts := by
    simp [RowState.rowOf, RowState.cur]
  rw [parseLine, if_neg (Nat.not_le_of_lt hlen), hloop]
  obtain ⟨s, hs, -, hsize, hfields⟩ | ⟨hs, hfields⟩ :=
    RowState.tokens_spec ((tokenBytes ts).length + 1) RowState.begun_start ts (by simp)
  · have hroom : s.row.length < (tokenBytes ts).length + 1 := by
      simp only [List.length_nil] at hsize
      omega
    obtain ⟨row, hend, -⟩ := RowState.endField_spec hroom
    rw [hrow] at hfields
    rw [hs, hfields]
    simp only [parseLoop_end]
    show (do let s ← s.endField _; _) = _
    rw [hend]
    rfl
  · rw [hrow] at hfields
    rw [hs, hfields]
    rfl

/-- A line that is not made of tokens is not accepted, and nothing is written outside `m_row`. -/
lemma parseLine_rest {ts : List Token} {rest : List UInt8} (hts : ArePlaced enc ts rest)
    (hlen : (tokenBytes ts ++ rest).length < lineLimit) {e : CopyError}
    (hrest : ∀ size s, parseLoop enc size (tokenBytes ts ++ rest) s (tokenBytes ts).length =
      .error e) :
    parseLine enc (tokenBytes ts ++ rest) = .error e ∨
      parseLine enc (tokenBytes ts ++ rest) =
        .error (.failure "Null sequence found in nonempty field") := by
  have hloop := parseLoop_tokens ((tokenBytes ts ++ rest).length + 1) []
    ⟨[], some 0, []⟩ hts
  simp only [List.nil_append, List.length_nil] at hloop
  rw [parseLine, if_neg (Nat.not_le_of_lt hlen), hloop]
  obtain ⟨s, hs, -⟩ | ⟨hs, -⟩ :=
    RowState.tokens_spec ((tokenBytes ts ++ rest).length + 1) RowState.begun_start ts
      (by rw [List.length_append, List.length_nil]; omega)
  · rw [hs]
    simp only [hrest]
    exact .inl rfl
  · rw [hs]
    exact .inr rfl

/-- The line is made of tokens, or its end is refused. -/
lemma tokens_or_rest (enc : EncodingGroup) (line : List UInt8) :
    (∃ ts, line = tokenBytes ts ∧ ArePlaced enc ts []) ∨
      ∃ ts rest e, line = tokenBytes ts ++ rest ∧ ArePlaced enc ts rest ∧ e ≠ .outside ∧
        ∀ size s, parseLoop enc size (tokenBytes ts ++ rest) s (tokenBytes ts).length =
          .error e := by
  obtain ⟨ts, rest, rfl, hts, rfl | ⟨rfl, hback⟩ | ⟨f, hf⟩⟩ := exists_tokens enc [] line
  · exact .inl ⟨ts, by simp, hts⟩
  · refine .inr ⟨ts, [backslash], .failure "Row ends in backslash", rfl, hts, by decide, ?_⟩
    intro size s
    have hscan := scan_glyph (tokenBytes ts) hback
    rw [List.append_nil] at hscan
    exact parseLoop_backslash hscan (by simp) (by simp)
  · exact .inr ⟨ts, rest, .scan f, rfl, hts, by simp, fun size s => parseLoop_error hf⟩

/-- **What a line means.** `parse_line` accepts exactly the lines made of glyphs, escape sequences
and tabs, with a null sequence only at the beginning of a field, and returns the fields between
the tabs. -/
theorem parseLine_ok {line : List UInt8} {fields : List (Option (List UInt8))} :
    parseLine enc line = .ok fields ↔ line.length < lineLimit ∧
      ∃ ts, line = tokenBytes ts ∧ ArePlaced enc ts [] ∧ rowOf (some []) ts = some fields := by
  constructor
  · intro h
    have hlen : line.length < lineLimit := by
      by_contra hge
      rw [parseLine, if_pos (Nat.le_of_not_lt hge)] at h
      cases h
    refine ⟨hlen, ?_⟩
    obtain ⟨ts, rfl, hts⟩ | ⟨ts, rest, e, rfl, hts, -, hrest⟩ := tokens_or_rest enc line
    · rw [parseLine_of_tokens hts hlen] at h
      refine ⟨ts, rfl, hts, ?_⟩
      rcases hrow : rowOf (some []) ts with _ | fields'
      · rw [hrow] at h
        cases h
      · rw [hrow] at h
        cases h
        rfl
    · rcases parseLine_rest hts hlen hrest with h' | h' <;> cases h'.symm.trans h
  · rintro ⟨hlen, ts, rfl, hts, hrow⟩
    rw [parseLine_of_tokens hts hlen, hrow]

/-- **`m_row` is always large enough**, with its terminating zeroes, whatever the line. -/
theorem parseLine_inside (line : List UInt8) : parseLine enc line ≠ .error .outside := by
  by_cases hlen : line.length < lineLimit
  · obtain ⟨ts, rfl, hts⟩ | ⟨ts, rest, e, rfl, hts, he, hrest⟩ := tokens_or_rest enc line
    · rw [parseLine_of_tokens hts hlen]
      cases rowOf (some []) ts <;> simp
    · rcases parseLine_rest hts hlen hrest with h | h
      · rw [h]
        simpa using he
      · rw [h]
        simp
  · rw [parseLine, if_pos (Nat.le_of_not_lt hlen)]
    simp

end DbCoursework.CopyRows

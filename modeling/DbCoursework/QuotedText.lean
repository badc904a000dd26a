import DbCoursework.GlyphText

/-!
Quoted and unquoted strings inside arrays and composite values.

The readers walk over glyphs: a quote, a backslash or a separator counts only where it is a
glyph of its own. A read past the end of the text never happens here, so positions are
offsets and `none` is the source's `npos`.
-/

namespace DbCoursework.QuotedText

open DbCoursework.Encodings DbCoursework.Glyphs DbCoursework.GlyphText

inductive ParseError
  | scan (f : Fault)
  | argumentError (what : String) (input : List UInt8)
  | failure (what : String)
  deriving DecidableEq

def quote : UInt8 := 0x22

def backslash : UInt8 := 0x5c

variable (enc : EncodingGroup)

/-- The text of the error ends at the first zero byte. -/
def missingQuote (input : List UInt8) : ParseError :=
  .argumentError "Missing closing double-quote: " (input.takeWhile (· ≠ 0))

/-- The loop of `scan_double_quoted_string`. -/
def scanDoubleQuotedLoop (input : List UInt8) (atQuote : Bool) (pos : ℕ) : Except ParseError ℕ :=
  if pos < input.length then
    match h : glyphScanner enc input pos with
    | .error f => .error (.scan f)
    | .ok none => .ok pos
    | .ok (some next) =>
      have := glyphScanner_lt h
      if atQuote then
        if next = pos + 1 ∧ input[pos]? = some quote then
          -- a pair of double quotes
          scanDoubleQuotedLoop input false next
        else .ok pos
      else if next = pos + 1 ∧ input[pos]? = some backslash then
        match h' : glyphScanner enc input next with
        | .error f => .error (.scan f)
        | .ok none => .error (missingQuote input)
        | .ok (some next') =>
          have := glyphScanner_lt h'
          scanDoubleQuotedLoop input false next'
      else scanDoubleQuotedLoop input (next = pos + 1 ∧ input[pos]? = some quote) next
  else if atQuote then .ok pos
  else .error (missingQuote input)
termination_by input.length - pos

def scanDoubleQuotedString (input : List UInt8) (pos : ℕ) : Except ParseError ℕ :=
  match glyphScanner enc input pos with
  | .error f => .error (.scan f)
  | .ok none => .error (missingQuote input)
  | .ok (some next) => scanDoubleQuotedLoop enc input false next

def slice (input : List UInt8) (first last : ℕ) : List UInt8 :=
  (input.drop first).take (last - first)

/-- The loop of `parse_double_quoted_string`; the scanner sees the text up to `stop` only, and
`mark` is the quote. -/
def parseQuotedLoop (mark : UInt8) (input : List UInt8) (stop here : ℕ) (output : List UInt8) :
    Except ParseError (List UInt8) :=
  match h : glyphScanner enc (input.take stop) here with
  | .error f => .error (.scan f)
  | .ok none => .ok output
  | .ok (some next) =>
    have := glyphScanner_lt h
    if here < stop - 1 then
      if next = here + 1 ∧ (input[here]? = some backslash ∨ input[here]? = some mark) then
        match h' : glyphScanner enc (input.take stop) next with
        | .error f => .error (.scan f)
        | .ok none => .ok output
        | .ok (some next') =>
          have := glyphScanner_lt h'
          parseQuotedLoop mark input stop next' (output ++ slice input next next')
      else parseQuotedLoop mark input stop next (output ++ slice input here next)
    else .ok output
termination_by (input.take stop).length - here
decreasing_by all_goals (simp only [List.length_take] at *; omega)

def parseDoubleQuotedString (input : List UInt8) (stop pos : ℕ) : Except ParseError (List UInt8) :=
  match glyphScanner enc (input.take stop) pos with
  | .error f => .error (.scan f)
  | .ok none => .ok []
  | .ok (some here) => parseQuotedLoop enc quote input stop here []

def apostrophe : UInt8 := 0x27

/-- The loop of `scan_single_quoted_string`. -/
def scanSingleQuotedLoop (input : List UInt8) (here : ℕ) : Except ParseError ℕ :=
  if here < input.length then
    match h : glyphScanner enc input here with
    | .error f => .error (.scan f)
    | .ok none => .ok here
    | .ok (some next) =>
      have := glyphScanner_lt h
      if next = here + 1 ∧ (input[here]? = some apostrophe ∨ input[here]? = some backslash) then
        match h' : glyphScanner enc input next with
        | .error f => .error (.scan f)
        | .ok none =>
          if input[here]? = some apostrophe then .ok next
          else .error (.argumentError "Null byte in SQL string: " input)
        | .ok (some next') =>
          have := glyphScanner_lt h'
          if input[here]? = some apostrophe ∧
              (next + 1 < next' ∨ input[next]? ≠ some apostrophe) then .ok next
          else scanSingleQuotedLoop input next'
      else scanSingleQuotedLoop input next
  else .error (.argumentError "Null byte in SQL string: " input)
termination_by input.length - here

def scanSingleQuotedString (input : List UInt8) (pos : ℕ) : Except ParseError ℕ :=
  match glyphScanner enc input pos with
  | .error f => .error (.scan f)
  | .ok none => .error (.argumentError "Null byte in SQL string: " input)
  | .ok (some next) => scanSingleQuotedLoop enc input next

/-- `parse_single_quoted_string`; it steps over the opening quote without scanning it. -/
def parseSingleQuotedString (input : List UInt8) (stop pos : ℕ) : Except ParseError (List UInt8) :=
  parseQuotedLoop enc apostrophe input stop (pos + 1) []

/-- The loop of `scan_unquoted_string`; the flag is about the glyph at `pos`. -/
def scanUnquotedLoop (stops : List UInt8) (input : List UInt8) (atBackslash : Bool) (pos : ℕ) :
    Except ParseError ℕ :=
  match h : glyphScanner enc input pos with
  | .error f => .error (.scan f)
  | .ok none => .ok pos
  | .ok (some next) =>
    have := glyphScanner_lt h
    if next ≠ pos + 1 ∨ atBackslash ∨ input[pos]?.all (· ∉ stops) then
      match glyphScanner enc input next with
      | .error f => .error (.scan f)
      | .ok after =>
        scanUnquotedLoop stops input
          (¬ atBackslash ∧ after = some (next + 1) ∧ input[next]? = some backslash) next
    else .ok pos
termination_by input.length - pos

def scanUnquotedString (stops : List UInt8) (input : List UInt8) (pos : ℕ) : Except ParseError ℕ :=
  scanUnquotedLoop enc stops input false pos

/-- The loop of `parse_unquoted_string`; the flag is about the glyph before `pos`. -/
def parseUnquotedLoop (input : List UInt8) (stop : ℕ) (atBackslash : Bool) (pos : ℕ)
    (output : List UInt8) : Except ParseError (List UInt8) :=
  match h : glyphScanner enc (input.take stop) pos with
  | .error f => .error (.scan f)
  | .ok none => .ok output
  | .ok (some next) =>
    have := glyphScanner_lt h
    if ¬ atBackslash ∧ next = pos + 1 ∧ input[pos]? = some backslash then
      parseUnquotedLoop input stop true next output
    else parseUnquotedLoop input stop false next (output ++ slice input pos next)
termination_by (input.take stop).length - pos
decreasing_by all_goals (simp only [List.length_take] at *; omega)

def parseUnquotedString (input : List UInt8) (stop pos : ℕ) : Except ParseError (List UInt8) :=
  parseUnquotedLoop enc input stop false pos []

/-! ### Reading back what was escaped -/

variable {enc}

/-- A glyph on its own: what follows does not matter to the scanner. -/
def Plain (enc : EncodingGroup) (g : List UInt8) : Prop := ∀ rest, IsGlyph enc g rest

/-- Outside `GB18030` every ASCII character is a glyph. -/
lemma plain_ascii (h : enc ≠ .GB18030) {b : UInt8} (hb : b < 0x80) : Plain enc [b] := by
  intro rest
  cases enc <;> first | exact absurd rfl h | exact hb | exact .inl hb | trivial

lemma scan_plain (pre rest : List UInt8) {g : List UInt8} (hg : Plain enc g) :
    glyphScanner enc (pre ++ (g ++ rest)) pre.length = .ok (some (pre.length + g.length)) :=
  scan_glyph pre (hg rest)

/-- The glyphs a writer puts for one glyph inside double quotes. -/
def escapeGlyph (g : List UInt8) : List (List UInt8) :=
  if g = [quote] ∨ g = [backslash] then [[backslash], g] else [g]

/-- What a text is followed by after its closing quote: nothing, or a glyph that is no quote. -/
def Closes (enc : EncodingGroup) (rest : List UInt8) : Prop :=
  rest = [] ∨ ∃ g r, rest = g ++ r ∧ IsGlyph enc g r ∧ g ≠ [quote]

lemma getElem?_at (pre g rest : List UInt8) (hg : g ≠ []) :
    (pre ++ (g ++ rest))[pre.length]? = g.head? := by
  obtain ⟨a, g, rfl⟩ := List.exists_cons_of_ne_nil hg
  simp

lemma plain_ne_nil {g : List UInt8} (hg : Plain enc g) : g ≠ [] := by
  have := (isGlyph_length (hg [])).1
  rintro rfl
  simp at this

/-- A glyph is the one-byte glyph `b` when it has one byte and the byte there is `b`. -/
lemma glyph_eq_iff (pre rest : List UInt8) {g : List UInt8} (hg : Plain enc g) (b : UInt8) :
    g = [b] ↔ pre.length + g.length = pre.length + 1 ∧
      (pre ++ (g ++ rest))[pre.length]? = some b := by
  rw [getElem?_at _ _ _ (plain_ne_nil hg)]
  obtain ⟨a, g, rfl⟩ := List.exists_cons_of_ne_nil (plain_ne_nil hg)
  simp [and_comm]

/-! ### One turn of each loop -/

section Turns

variable {input : List UInt8} {pos next : ℕ}

lemma scanDoubleQuotedLoop_quote (h : glyphScanner enc input pos = .ok (some next)) :
    scanDoubleQuotedLoop enc input true pos =
      if next = pos + 1 ∧ input[pos]? = some quote then scanDoubleQuotedLoop enc input false next
      else .ok pos := by
  have hlt := (glyphScanner_lt h).2
  rw [scanDoubleQuotedLoop, if_pos hlt]
  split <;> simp_all

lemma scanDoubleQuotedLoop_next (h : glyphScanner enc input pos = .ok (some next))
    (hb : ¬ (next = pos + 1 ∧ input[pos]? = some backslash)) :
    scanDoubleQuotedLoop enc input false pos =
      scanDoubleQuotedLoop enc input (next = pos + 1 ∧ input[pos]? = some quote) next := by
  have hlt := (glyphScanner_lt h).2
  conv_lhs => rw [scanDoubleQuotedLoop, if_pos hlt]
  split
  · simp_all
  · simp_all
  · next next' h' =>
    obtain rfl : next = next' := by simpa using h.symm.trans h'
    simp [hb]

lemma scanDoubleQuotedLoop_escape {next' : ℕ} (h : glyphScanner enc input pos = .ok (some next))
    (hb : next = pos + 1 ∧ input[pos]? = some backslash)
    (h' : glyphScanner enc input next = .ok (some next')) :
    scanDoubleQuotedLoop enc input false pos = scanDoubleQuotedLoop enc input false next' := by
  have hlt := (glyphScanner_lt h).2
  conv_lhs => rw [scanDoubleQuotedLoop, if_pos hlt]
  split
  · simp_all
  · simp_all
  · next next'' h'' =>
    obtain rfl : next = next'' := by simpa using h.symm.trans h''
    simp only [Bool.false_eq_true, if_false, hb, and_self, if_true]
    split
    · simp_all
    · simp_all
    · simp_all

variable {stop : ℕ} {output : List UInt8}

lemma parseQuotedLoop_next (h : glyphScanner enc (input.take stop) pos = .ok (some next))
    (hstop : pos < stop - 1)
    (hb : ¬ (next = pos + 1 ∧ (input[pos]? = some backslash ∨ input[pos]? = some quote))) :
    parseQuotedLoop enc quote input stop pos output =
      parseQuotedLoop enc quote input stop next (output ++ slice input pos next) := by
  conv_lhs => rw [parseQuotedLoop]
  split
  · simp_all
  · simp_all
  · next next' h' =>
    obtain rfl : next = next' := by simpa using h.symm.trans h'
    rw [if_pos hstop, if_neg hb]

lemma parseQuotedLoop_escape {next' : ℕ}
    (h : glyphScanner enc (input.take stop) pos = .ok (some next)) (hstop : pos < stop - 1)
    (hb : next = pos + 1 ∧ (input[pos]? = some backslash ∨ input[pos]? = some quote))
    (h' : glyphScanner enc (input.take stop) next = .ok (some next')) :
    parseQuotedLoop enc quote input stop pos output =
      parseQuotedLoop enc quote input stop next' (output ++ slice input next next') := by
  conv_lhs => rw [parseQuotedLoop]
  split
  · simp_all
  · simp_all
  · next next'' h'' =>
    obtain rfl : next = next'' := by simpa using h.symm.trans h''
    rw [if_pos hstop, if_pos hb]
    split
    · simp_all
    · simp_all
    · next next'' h'' =>
      obtain rfl : next' = next'' := by simpa using h'.symm.trans h''
      rfl

lemma parseQuotedLoop_end (h : glyphScanner enc (input.take stop) pos = .ok (some next))
    (hstop : ¬ pos < stop - 1) : parseQuotedLoop enc quote input stop pos output = .ok output := by
  rw [parseQuotedLoop]
  split
  · simp_all
  · rfl
  · rw [if_neg hstop]

variable {stops : List UInt8} {flag : Bool}

lemma scanUnquotedLoop_next {after : Option ℕ} (h : glyphScanner enc input pos = .ok (some next))
    (hc : next ≠ pos + 1 ∨ flag = true ∨ input[pos]?.all (· ∉ stops) = true)
    (h' : glyphScanner enc input next = .ok after) :
    scanUnquotedLoop enc stops input flag pos = scanUnquotedLoop enc stops input
      (¬ flag ∧ after = some (next + 1) ∧ input[next]? = some backslash) next := by
  conv_lhs => rw [scanUnquotedLoop]
  split
  · simp_all
  · simp_all
  · next next' h'' =>
    obtain rfl : next = next' := by simpa using h.symm.trans h''
    rw [if_pos hc]
    split
    · simp_all
    · next after' h2 =>
      obtain rfl : after = after' := by simpa using h'.symm.trans h2
      rfl

lemma scanUnquotedLoop_stop (h : glyphScanner enc input pos = .ok (some next))
    (hc : ¬ (next ≠ pos + 1 ∨ flag = true ∨ input[pos]?.all (· ∉ stops) = true)) :
    scanUnquotedLoop enc stops input flag pos = .ok pos := by
  rw [scanUnquotedLoop]
  split
  · simp_all
  · rfl
  · next next' h'' =>
    obtain rfl : next = next' := by simpa using h.symm.trans h''
    rw [if_neg hc]

lemma scanUnquotedLoop_end (h : glyphScanner enc input pos = .ok none) :
    scanUnquotedLoop enc stops input flag pos = .ok pos := by
  rw [scanUnquotedLoop]
  split <;> simp_all

lemma parseUnquotedLoop_next (h : glyphScanner enc (input.take stop) pos = .ok (some next))
    (hc : ¬ (next = pos + 1 ∧ input[pos]? = some backslash)) :
    parseUnquotedLoop enc input stop flag pos output =
      parseUnquotedLoop enc input stop false next (output ++ slice input pos next) := by
  conv_lhs => rw [parseUnquotedLoop]
  split
  · simp_all
  · simp_all
  · next next' h'' =>
    obtain rfl : next = next' := by simpa using h.symm.trans h''
    rw [if_neg fun hc' => hc hc'.2]

lemma parseUnquotedLoop_end (h : glyphScanner enc (input.take stop) pos = .ok none) :
    parseUnquotedLoop enc input stop flag pos output = .ok output := by
  rw [parseUnquotedLoop]
  split <;> simp_all

end Turns

lemma slice_at (pre g rest : List UInt8) :
    slice (pre ++ (g ++ rest)) pre.length (pre.length + g.length) = g := by
  simp [slice]

/-! ### Whole strings -/

section Strings

variable {gs : List (List UInt8)} (henc : enc ≠ .GB18030) (hgs : ∀ g ∈ gs, Plain enc g)

lemma plain_quote (henc : enc ≠ .GB18030) : Plain enc [quote] := plain_ascii henc (by decide)

lemma plain_backslash (henc : enc ≠ .GB18030) : Plain enc [backslash] :=
  plain_ascii henc (by decide)

/-- The text between the quotes. -/
def escaped (gs : List (List UInt8)) : List UInt8 := (gs.flatMap escapeGlyph).flatten

lemma escaped_cons (g : List UInt8) (gs : List (List UInt8)) :
    escaped (g :: gs) = (escapeGlyph g).flatten ++ escaped gs := by
  simp [escaped]

lemma escaped_special {g : List UInt8} (h : g = [quote] ∨ g = [backslash])
    (gs : List (List UInt8)) : escaped (g :: gs) = [backslash] ++ (g ++ escaped gs) := by
  simp [escaped_cons, escapeGlyph, h]

lemma escaped_other {g : List UInt8} (h : ¬ (g = [quote] ∨ g = [backslash]))
    (gs : List (List UInt8)) : escaped (g :: gs) = g ++ escaped gs := by
  simp [escaped_cons, escapeGlyph, h]

include henc hgs

/-- The reader gets past what was escaped. -/
lemma scanDoubleQuotedLoop_escaped (pre rest : List UInt8) :
    scanDoubleQuotedLoop enc (pre ++ (escaped gs ++ rest)) false pre.length =
      scanDoubleQuotedLoop enc (pre ++ (escaped gs ++ rest)) false
        (pre.length + (escaped gs).length) := by
  induction gs generalizing pre with
  | nil => simp [escaped]
  | cons g gs ih =>
    have hg : Plain enc g := hgs g (by simp)
    have ih := fun pre => ih (fun g hg => hgs g (by simp [hg])) pre
    by_cases hesc : g = [quote] ∨ g = [backslash]
    · have h1 := scan_plain pre (g ++ (escaped gs ++ rest)) (plain_backslash henc)
      have h2 := scan_plain (pre ++ [backslash]) (escaped gs ++ rest) hg
      have hb := (glyph_eq_iff pre (g ++ (escaped gs ++ rest))
        (plain_backslash henc) backslash).mp rfl
      have ih := ih (pre ++ [backslash] ++ g)
      simp only [List.append_assoc, List.length_append, Nat.add_assoc] at h1 h2 hb ih
      rw [escaped_special hesc, List.append_assoc, List.append_assoc,
        scanDoubleQuotedLoop_escape h1 hb h2, ih]
      simp only [List.length_append]
    · rw [escaped_other hesc, List.append_assoc]
      rw [not_or] at hesc
      have hb := (glyph_eq_iff pre (escaped gs ++ rest) hg backslash).not.mp hesc.2
      have hq := (glyph_eq_iff pre (escaped gs ++ rest) hg quote).not.mp hesc.1
      have ih := ih (pre ++ g)
      simp only [List.append_assoc, List.length_append] at ih ⊢
      rw [scanDoubleQuotedLoop_next (scan_plain _ _ hg) hb, decide_eq_false hq, ih, Nat.add_assoc]

omit hgs in
lemma scanDoubleQuotedLoop_close (pre : List UInt8) {rest : List UInt8} (hrest : Closes enc rest) :
    scanDoubleQuotedLoop enc (pre ++ ([quote] ++ rest)) false pre.length =
      .ok (pre.length + 1) := by
  have hq := (glyph_eq_iff pre rest (plain_quote henc) quote).mp rfl
  have hb := (glyph_eq_iff pre rest (plain_quote henc) backslash).not.mp
    (by decide)
  rw [scanDoubleQuotedLoop_next (scan_plain _ _ (plain_quote henc)) hb, decide_eq_true hq]
  rcases hrest with rfl | ⟨g, r, rfl, hg, hne⟩
  · rw [scanDoubleQuotedLoop, if_neg (by simp)]
    simp
  · have hscan : glyphScanner enc (pre ++ ([quote] ++ (g ++ r))) (pre.length + [quote].length) =
        .ok (some (pre.length + [quote].length + g.length)) := by
      have h := scan_glyph (pre ++ [quote]) hg
      simpa only [List.append_assoc, List.length_append] using h
    rw [scanDoubleQuotedLoop_quote hscan, if_neg]
    · rfl
    · rintro ⟨hlen, hbyte⟩
      have hne' : g ≠ [] := by
        have := (isGlyph_length hg).1
        rintro rfl
        simp at this
      have hat := getElem?_at (pre ++ [quote]) g r hne'
      simp only [List.append_assoc, List.length_append] at hat
      rw [hat] at hbyte
      obtain ⟨a, g, rfl⟩ := List.exists_cons_of_ne_nil hne'
      simp at hlen hbyte
      simp [hlen, hbyte] at hne

/-- **A string that was escaped is scanned to its closing quote.** -/
lemma scanDoubleQuotedString_escaped (pre : List UInt8) {rest : List UInt8}
    (hrest : Closes enc rest) :
    scanDoubleQuotedString enc (pre ++ ([quote] ++ (escaped gs ++ ([quote] ++ rest)))) pre.length =
      .ok (pre.length + (escaped gs).length + 2) := by
  have h1 := scanDoubleQuotedLoop_escaped henc hgs (pre ++ [quote]) ([quote] ++ rest)
  have h2 := scanDoubleQuotedLoop_close henc (pre ++ [quote] ++ escaped gs) hrest
  simp only [List.append_assoc, List.length_append, Nat.add_assoc] at h1 h2
  rw [scanDoubleQuotedString, scan_plain _ _ (plain_quote henc)]
  simp only [h1, h2]
  simp
  omega

omit henc hgs in
lemma take_to_quote (pre body rest : List UInt8) :
    (pre ++ (body ++ ([quote] ++ rest))).take (pre.length + body.length + 1) =
      pre ++ (body ++ [quote]) := by
  rw [← List.append_assoc, ← List.append_assoc, ← List.append_assoc, List.take_left']
  simp [Nat.add_assoc]

/-- The reader of what was escaped. -/
lemma parseQuotedLoop_escaped (pre rest output : List UInt8) :
    parseQuotedLoop enc quote (pre ++ (escaped gs ++ ([quote] ++ rest)))
      (pre.length + (escaped gs).length + 1) pre.length output = .ok (output ++ gs.flatten) := by
  induction gs generalizing pre output with
  | nil =>
    have hscan : glyphScanner enc ((pre ++ (escaped [] ++ ([quote] ++ rest))).take
        (pre.length + (escaped []).length + 1)) pre.length = .ok (some (pre.length + 1)) := by
      rw [take_to_quote]
      exact scan_plain _ [] (plain_quote henc)
    rw [parseQuotedLoop_end hscan (by simp [escaped])]
    simp
  | cons g gs ih =>
    have hg : Plain enc g := hgs g (by simp)
    have ih := fun pre output => ih (fun g hg => hgs g (by simp [hg])) pre output
    have htake := take_to_quote pre (escaped (g :: gs)) rest
    have hpos := List.length_pos_iff.mpr (plain_ne_nil hg)
    by_cases hesc : g = [quote] ∨ g = [backslash]
    · have h1 := scan_plain pre (g ++ (escaped gs ++ [quote]))
        (plain_backslash henc)
      have h2 := scan_plain (pre ++ [backslash]) (escaped gs ++ [quote]) hg
      have hb := (glyph_eq_iff pre (g ++ (escaped gs ++ ([quote] ++ rest)))
        (plain_backslash henc) backslash).mp rfl
      have hslice := slice_at (pre ++ [backslash]) g (escaped gs ++ ([quote] ++ rest))
      have ih := ih (pre ++ [backslash] ++ g) (output ++ g)
      simp only [escaped_special hesc, List.append_assoc, List.length_append,
        Nat.add_assoc] at htake h1 h2 hb hslice ih ⊢
      rw [parseQuotedLoop_escape (by rw [htake]; exact h1) (by omega) ⟨hb.1, .inl hb.2⟩
        (by rw [htake]; exact h2), hslice, ih]
      simp
    · have h1 := scan_plain pre (escaped gs ++ [quote]) hg
      have hslice := slice_at pre g (escaped gs ++ ([quote] ++ rest))
      have ih := ih (pre ++ g) (output ++ g)
      have hb := fun b => glyph_eq_iff pre (escaped gs ++ ([quote] ++ rest)) hg b
      simp only [escaped_other hesc, List.append_assoc, List.length_append,
        Nat.add_assoc] at htake h1 hb hslice ih ⊢
      rw [parseQuotedLoop_next (by rw [htake]; exact h1) (by omega), hslice, ih]
      · simp
      · rintro ⟨hlen, h | h⟩
        · exact hesc (.inr ((hb backslash).mpr ⟨hlen, h⟩))
        · exact hesc (.inl ((hb quote).mpr ⟨hlen, h⟩))

/-- **And read back as it was.** -/
lemma parseDoubleQuotedString_escaped (pre rest : List UInt8) :
    parseDoubleQuotedString enc (pre ++ ([quote] ++ (escaped gs ++ ([quote] ++ rest))))
      (pre.length + (escaped gs).length + 2) pre.length = .ok gs.flatten := by
  have htake := take_to_quote (pre ++ [quote]) (escaped gs) rest
  have hloop := parseQuotedLoop_escaped henc hgs (pre ++ [quote]) rest []
  have hscan := scan_plain pre (escaped gs ++ [quote]) (plain_quote henc)
  have hstop : (pre ++ [quote]).length + (escaped gs).length + 1 =
      pre.length + (escaped gs).length + 2 := by
    simp
    omega
  rw [hstop] at htake hloop
  simp only [List.append_assoc] at htake hloop
  rw [parseDoubleQuotedString, htake, hscan]
  simpa using hloop

omit henc hgs

/-- What an unquoted string is followed by: nothing, or one of the separators. -/
def Separates (stops rest : List UInt8) : Prop := rest = [] ∨ ∃ b r, rest = [b] ++ r ∧ b ∈ stops

variable {stops : List UInt8}

lemma scan_separates (hstops : ∀ b ∈ stops, Plain enc [b]) {rest : List UInt8}
    (hrest : Separates stops rest) (pre : List UInt8) :
    ∃ after, glyphScanner enc (pre ++ rest) pre.length = .ok after := by
  rcases hrest with rfl | ⟨b, r, rfl, hb⟩
  · exact ⟨none, glyphScanner_none (by simp)⟩
  · exact ⟨_, scan_plain _ _ (hstops b hb)⟩

/-- **An unquoted string is scanned to its first separator**, one with a backslash before it
included: a backslash that is a separator apart, the flag says nothing. -/
lemma scanUnquotedLoop_stops (hgs : ∀ g ∈ gs, Plain enc g) (hstops : ∀ b ∈ stops, Plain enc [b])
    (hback : backslash ∉ stops) (hno : ∀ g ∈ gs, ∀ b ∈ stops, g ≠ [b]) {rest : List UInt8}
    (hrest : Separates stops rest) (pre : List UInt8) (flag : Bool)
    (hflag : flag = true → (pre ++ (gs.flatten ++ rest))[pre.length]? = some backslash) :
    scanUnquotedLoop enc stops (pre ++ (gs.flatten ++ rest)) flag pre.length =
      .ok (pre.length + gs.flatten.length) := by
  induction gs generalizing pre flag with
  | nil =>
    rcases hrest with rfl | ⟨b, r, rfl, hb⟩
    · exact scanUnquotedLoop_end (glyphScanner_none (by simp))
    · rw [List.flatten_nil, List.nil_append] at hflag ⊢
      refine scanUnquotedLoop_stop (scan_plain _ _ (hstops b hb)) ?_
      rintro (h | h | h)
      · exact h rfl
      · have h := hflag h
        rw [getElem?_at _ _ _ (by simp)] at h
        obtain rfl : b = backslash := by simpa using h
        exact hback hb
      · simp [hb] at h
  | cons g gs ih =>
    have hg : Plain enc g := hgs g (by simp)
    have hscan := scan_plain pre (gs.flatten ++ rest) hg
    obtain ⟨after, hafter⟩ : ∃ after, glyphScanner enc (pre ++ (g ++ (gs.flatten ++ rest)))
        (pre.length + g.length) = .ok after := by
      have h : ∃ after, glyphScanner enc (pre ++ g ++ (gs.flatten ++ rest)) (pre ++ g).length =
          .ok after := by
        cases gs with
        | nil => exact scan_separates hstops hrest _
        | cons g' gs =>
          rw [List.flatten_cons, List.append_assoc g']
          exact ⟨_, scan_plain _ _ (hgs g' (by simp))⟩
      simpa only [List.append_assoc, List.length_append] using h
    have hother : pre.length + g.length ≠ pre.length + 1 ∨ flag = true ∨
        (pre ++ (g ++ (gs.flatten ++ rest)))[pre.length]?.all (· ∉ stops) = true := by
      by_cases hlen : pre.length + g.length = pre.length + 1
      · refine .inr (.inr ((Option.all_eq_true ..).mpr fun b hb => decide_eq_true fun hmem => ?_))
        exact hno g (by simp) b hmem ((glyph_eq_iff _ _ hg b).mpr ⟨hlen, hb⟩)
      · exact .inl hlen
    have ih := ih (fun g hg => hgs g (by simp [hg])) (fun g hg => hno g (by simp [hg])) (pre ++ g)
      (¬ flag ∧ after = some (pre.length + g.length + 1) ∧
        (pre ++ (g ++ (gs.flatten ++ rest)))[pre.length + g.length]? = some backslash)
    simp only [List.append_assoc, List.length_append, decide_eq_true_eq] at ih
    rw [List.flatten_cons, List.append_assoc, scanUnquotedLoop_next hscan hother hafter,
      ih fun h => h.2.2, List.length_append, Nat.add_assoc]

/-- A text without backslashes is read back as it was. -/
lemma parseUnquotedLoop_plain (hgs : ∀ g ∈ gs, Plain enc g) (hno : [backslash] ∉ gs)
    (pre rest output : List UInt8) :
    parseUnquotedLoop enc (pre ++ (gs.flatten ++ rest)) (pre.length + gs.flatten.length) false
      pre.length output = .ok (output ++ gs.flatten) := by
  induction gs generalizing pre output with
  | nil =>
    rw [parseUnquotedLoop_end (glyphScanner_none (by simp))]
    simp
  | cons g gs ih =>
    have hg : Plain enc g := hgs g (by simp)
    have htake : (pre ++ (g ++ (gs.flatten ++ rest))).take (pre.length + (g.length +
        gs.flatten.length)) = pre ++ (g ++ gs.flatten) := by
      rw [← List.append_assoc, ← List.append_assoc, ← List.append_assoc, List.take_left']
      simp
    have hb := (glyph_eq_iff pre (gs.flatten ++ rest) hg backslash).not.mp
      (by rintro rfl; simp at hno)
    have ih := ih (fun g hg => hgs g (by simp [hg])) (fun h => hno (by simp [h])) (pre ++ g)
      (output ++ g)
    simp only [List.flatten_cons, List.append_assoc, List.length_append, Nat.add_assoc] at ih hb ⊢
    rw [parseUnquotedLoop_next (by rw [htake]; exact scan_plain _ _ hg) hb, slice_at, ih]

end Strings

end DbCoursework.QuotedText

import DbCoursework.QuotedText

/-!
Arrays as text.

`array_parser` reads the text of an SQL array one juncture at a time. What a container is
written as, nested containers in place, it reads back as the junctures of the container.
-/

namespace DbCoursework.ArrayText

open DbCoursework.Encodings DbCoursework.Glyphs DbCoursework.GlyphText DbCoursework.QuotedText

/-! ### The parser -/

inductive Juncture
  | rowStart | rowEnd | nullValue | stringValue | done
  deriving DecidableEq

def openBrace : UInt8 := 0x7b

def closeBrace : UInt8 := 0x7d

def comma : UInt8 := 0x2c

def semicolon : UInt8 := 0x3b

/-- The text `NULL`. -/
def nullText : List UInt8 := [0x4e, 0x55, 0x4c, 0x4c]

def unquotedStops : List UInt8 := [comma, semicolon, closeBrace]

variable (enc : EncodingGroup)

/-- An unquoted string: where it ends, and its value. -/
def unquoted (input : List UInt8) (pos : ℕ) : Except ParseError (List UInt8 × ℕ) := do
  let stop ← scanUnquotedString enc unquotedStops input pos
  let value ← parseUnquotedString enc input stop pos
  return (value, stop)

/-- The juncture at `pos`, by its first byte. -/
def juncture (input : List UInt8) (pos next : ℕ) :
    Except ParseError (Juncture × List UInt8 × ℕ) := do
  let byte := (input[pos]?).getD 0
  if byte = 0 then throw (.failure "Unexpected zero byte in array.")
  else if byte = openBrace then return (.rowStart, [], next)
  else if byte = closeBrace then return (.rowEnd, [], next)
  else if byte = apostrophe then
    let stop ← scanSingleQuotedString enc input pos
    let value ← parseSingleQuotedString enc input stop pos
    return (.stringValue, value, stop)
  else if byte = quote then
    let stop ← scanDoubleQuotedString enc input pos
    let value ← parseDoubleQuotedString enc input stop pos
    return (.stringValue, value, stop)
  else
    let (value, stop) ← unquoted enc input pos
    if value = nullText then return (.nullValue, [], stop)
    else return (.stringValue, value, stop)

/-- A trailing field separator is skipped. -/
def skipSeparator (input : List UInt8) (stop : ℕ) : Except ParseError ℕ :=
  if stop < input.length then
    match glyphScanner enc input stop with
    | .error f => .error (.scan f)
    | .ok next =>
      if next = some (stop + 1) ∧ (input[stop]? = some comma ∨ input[stop]? = some semicolon) then
        .ok (stop + 1)
      else .ok stop
  else .ok stop

/-- `get_next`, with the position it leaves. -/
def getNext (input : List UInt8) (pos : ℕ) : Except ParseError (Juncture × List UInt8 × ℕ) :=
  match glyphScanner enc input pos with
  | .error f => .error (.scan f)
  | .ok none => .ok (.done, [], pos)
  | .ok (some next) => do
    let (found, value, stop) ←
      if next - pos > 1 then do
        let (value, stop) ← unquoted enc input pos
        pure (.stringValue, value, stop)
      else juncture enc input pos next
    let stop ← skipSeparator enc input stop
    return (found, value, stop)

/-- All junctures of a text, with a bound on their number. -/
def readAll (input : List UInt8) : ℕ → ℕ → Except ParseError (List (Juncture × List UInt8))
  | 0, _ => .ok []
  | fuel + 1, pos => do
    let (found, value, stop) ← getNext enc input pos
    if found = .done then return []
    else
      let js ← readAll input fuel stop
      return (found, value) :: js

/-! ### The text of a value -/

/-- An element: null, one that is quoted, one of a type that needs no quotes, with what
`size_buffer` says of it, or an array, with whether its elements need no quotes. -/
inductive Value
  | null
  | text (t : List UInt8)
  | bare (t : List UInt8) (budget : ℕ)
  | array (safe : Bool) (elts : List Value)

def Value.isArray : Value → Bool
  | .array _ _ => true
  | _ => false

/-- Null, or of a type that needs no quotes. -/
def Value.isBare : Value → Bool
  | .null | .bare _ _ => true
  | _ => false

def escapeByte (c : UInt8) : List UInt8 :=
  if c = backslash ∨ c = quote then [backslash, c] else [c]

mutual

def render : Value → List UInt8
  | .null => nullText
  | .text t => [quote] ++ (t.flatMap escapeByte ++ [quote])
  | .bare t _ => t
  | .array _ elts => [openBrace] ++ (renderElts elts ++ [closeBrace])

def renderElts : List Value → List UInt8
  | [] => []
  | [v] => render v
  | v :: w :: vs => render v ++ ([comma] ++ renderElts (w :: vs))

end

mutual

/-- The junctures of a value. -/
def events : Value → List (Juncture × List UInt8)
  | .null => [(.nullValue, [])]
  | .text t => [(.stringValue, t)]
  | .bare t _ => [(.stringValue, t)]
  | .array _ elts => (.rowStart, []) :: (eltsEvents elts ++ [(.rowEnd, [])])

def eltsEvents : List Value → List (Juncture × List UInt8)
  | [] => []
  | v :: vs => events v ++ eltsEvents vs

end

/-- Text the writer escapes as the reader sees it: no quote and no backslash inside a glyph of
several bytes. -/
def Spelled (t : List UInt8) : Prop :=
  ∃ gs : List (List UInt8), t = gs.flatten ∧
    ∀ g ∈ gs, Plain enc g ∧ (g.length = 1 ∨ quote ∉ g ∧ backslash ∉ g)

def BareByte (b : UInt8) : Prop :=
  b < 0x80 ∧
    b ∉ [0, openBrace, closeBrace, comma, semicolon, quote, apostrophe, backslash]

instance : DecidablePred BareByte := fun b =>
  inferInstanceAs (Decidable (b < 0x80 ∧
    b ∉ [0, openBrace, closeBrace, comma, semicolon, quote, apostrophe, backslash]))

/-- Text that needs no quotes. -/
def IsBare (t : List UInt8) : Prop := t ≠ [] ∧ t ≠ nullText ∧ ∀ b ∈ t, BareByte b

mutual

def WellFormed : Value → Prop
  | .null => True
  | .text t => Spelled enc t
  | .bare t _ => IsBare t
  | .array _ elts => EltsWellFormed elts

def EltsWellFormed : List Value → Prop
  | [] => True
  | v :: vs => WellFormed v ∧ EltsWellFormed vs

end

variable {enc}

/-- Byte by byte or glyph by glyph, the escapes are the same. -/
lemma escaped_eq {gs : List (List UInt8)}
    (h : ∀ g ∈ gs, g.length = 1 ∨ quote ∉ g ∧ backslash ∉ g) :
    gs.flatten.flatMap escapeByte = escaped gs := by
  induction gs with
  | nil => rfl
  | cons g gs ih =>
    rw [List.flatten_cons, List.flatMap_append, ih fun g hg => h g (by simp [hg]), escaped_cons]
    congr 1
    rcases h g (by simp) with hlen | ⟨hq, hb⟩
    · obtain ⟨a, rfl⟩ := List.length_eq_one_iff.mp hlen
      by_cases ha : a = backslash ∨ a = quote
      · simp [escapeByte, escapeGlyph, ha, ha.symm]
      · rw [not_or] at ha
        simp [escapeByte, escapeGlyph, ha.1, ha.2]
    · have hplain : ∀ c ∈ g, escapeByte c = [c] := by
        intro c hc
        rw [escapeByte, if_neg]
        rintro (rfl | rfl)
        · exact hb hc
        · exact hq hc
      have hglyph : ¬ (g = [quote] ∨ g = [backslash]) := by
        rintro (rfl | rfl)
        · exact hq (by simp)
        · exact hb (by simp)
      rw [escapeGlyph, if_neg hglyph, List.flatMap_congr hplain]
      simp

/-! ### One juncture -/

/-- How far the reader steps over a separator. -/
def skipped (rest : List UInt8) : ℕ :=
  if rest.head? = some comma ∨ rest.head? = some semicolon then 1 else 0

section OneJuncture

variable (henc : enc ≠ .GB18030)

include henc

omit henc in
lemma ascii_stops : ∀ b ∈ unquotedStops, b < 0x80 := by
  simp [unquotedStops, comma, semicolon, closeBrace]

lemma plain_stops : ∀ b ∈ unquotedStops, Plain enc [b] := fun b hb =>
  plain_ascii henc (ascii_stops b hb)

lemma skipSeparator_at (pre : List UInt8) {rest : List UInt8}
    (hrest : rest = [] ∨ ∃ b r, rest = [b] ++ r ∧ b < 0x80) :
    skipSeparator enc (pre ++ rest) pre.length = .ok (pre.length + skipped rest) := by
  rcases hrest with rfl | ⟨b, r, rfl, hb⟩
  · simp [skipSeparator, skipped]
  · have hscan := scan_plain pre r (plain_ascii henc hb)
    rw [skipSeparator, if_pos (by simp), hscan]
    by_cases hsep : b = comma ∨ b = semicolon <;> simp [skipped, hsep]

omit henc in
lemma separates_ascii {rest : List UInt8} (hrest : Separates unquotedStops rest) :
    rest = [] ∨ ∃ b r, rest = [b] ++ r ∧ b < 0x80 := by
  refine hrest.imp_right ?_
  rintro ⟨b, r, rfl, hb⟩
  exact ⟨b, r, rfl, ascii_stops b hb⟩

lemma skipSeparator_separates (pre : List UInt8) {rest : List UInt8}
    (hrest : Separates unquotedStops rest) :
    skipSeparator enc (pre ++ rest) pre.length = .ok (pre.length + skipped rest) :=
  skipSeparator_at henc pre (separates_ascii hrest)

lemma closes_separates {rest : List UInt8} (hrest : Separates unquotedStops rest) :
    Closes enc rest := by
  refine hrest.imp_right ?_
  rintro ⟨b, r, rfl, hb⟩
  refine ⟨[b], r, rfl, plain_stops henc b hb r, ?_⟩
  rintro h
  obtain rfl : b = quote := by simpa using h
  exact absurd hb (by decide)

lemma unquoted_at (pre : List UInt8) {t rest : List UInt8} (ht : ∀ b ∈ t, BareByte b)
    (hrest : Separates unquotedStops rest) :
    unquoted enc (pre ++ (t ++ rest)) pre.length = .ok (t, pre.length + t.length) := by
  have hflat : (t.map fun b => [b]).flatten = t := by
    induction t with
    | nil => rfl
    | cons b t ih => simpa using ih fun b hb => ht b (by simp [hb])
  have hgs : ∀ g ∈ t.map fun b => [b], Plain enc g := by
    intro g hg
    obtain ⟨b, hb, rfl⟩ := List.mem_map.mp hg
    exact plain_ascii henc (ht b hb).1
  have hno : ∀ g ∈ t.map fun b => [b], ∀ b ∈ unquotedStops, g ≠ [b] := by
    intro g hg c hc
    obtain ⟨b, hb, rfl⟩ := List.mem_map.mp hg
    rintro h
    obtain rfl : b = c := by simpa using h
    have hbare := (ht b hb).2
    simp only [unquotedStops, List.mem_cons, List.not_mem_nil, or_false] at hc hbare
    tauto
  have hback : [backslash] ∉ t.map fun b => [b] := by
    intro h
    obtain ⟨b, hb, h⟩ := List.mem_map.mp h
    obtain rfl : b = backslash := by simpa using h
    exact (ht _ hb).2 (by decide)
  have hscan := scanUnquotedLoop_stops hgs (plain_stops henc) (by decide) hno hrest pre false
    (by simp)
  have hparse := parseUnquotedLoop_plain hgs hback pre rest []
  rw [hflat] at hscan hparse
  rw [unquoted, scanUnquotedString, hscan]
  show (do let value ← parseUnquotedString enc _ _ _; _) = _
  rw [parseUnquotedString, hparse]
  rfl

/-- At a one-byte glyph the juncture is told by that byte. -/
lemma getNext_ascii (pre : List UInt8) {b : UInt8} (hb : b < 0x80) {r value : List UInt8}
    {found : Juncture} {stop stop' : ℕ}
    (hj : juncture enc (pre ++ ([b] ++ r)) pre.length (pre.length + 1) = .ok (found, value, stop))
    (hskip : skipSeparator enc (pre ++ ([b] ++ r)) stop = .ok stop') :
    getNext enc (pre ++ ([b] ++ r)) pre.length = .ok (found, value, stop') := by
  have hscan := scan_plain pre r (plain_ascii henc hb)
  rw [getNext, hscan]
  simp only [List.length_singleton, Nat.add_sub_cancel_left, Nat.lt_irrefl, if_false, hj]
  show (do let stop ← skipSeparator enc _ stop; _) = _
  rw [hskip]
  rfl

lemma getNext_brace (pre : List UInt8) {b : UInt8} {j : Juncture}
    (hb : b = openBrace ∧ j = .rowStart ∨ b = closeBrace ∧ j = .rowEnd) {r : List UInt8}
    (hr : r = [] ∨ ∃ c t, r = [c] ++ t ∧ c < 0x80) :
    getNext enc (pre ++ ([b] ++ r)) pre.length = .ok (j, [], pre.length + 1 + skipped r) := by
  have hskip := skipSeparator_at henc (pre ++ [b]) hr
  rw [List.append_assoc, List.length_append, List.length_singleton] at hskip
  rcases hb with ⟨rfl, rfl⟩ | ⟨rfl, rfl⟩
  · refine getNext_ascii henc pre (by decide) ?_ hskip
    simp [juncture, openBrace, pure, Except.pure]
  · refine getNext_ascii henc pre (by decide) ?_ hskip
    simp [juncture, openBrace, closeBrace, pure, Except.pure]

/-- A quoted text is one juncture. -/
lemma getNext_text (pre : List UInt8) {t rest : List UInt8} (ht : Spelled enc t)
    (hrest : Separates unquotedStops rest) :
    getNext enc (pre ++ (render (.text t) ++ rest)) pre.length =
      .ok (.stringValue, t, pre.length + (render (.text t)).length + skipped rest) := by
  obtain ⟨gs, rfl, hgs⟩ := ht
  have hplain : ∀ g ∈ gs, Plain enc g := fun g hg => (hgs g hg).1
  have hrender : render (.text gs.flatten) = [quote] ++ (escaped gs ++ [quote]) := by
    rw [render, escaped_eq fun g hg => (hgs g hg).2]
  have hscan := scanDoubleQuotedString_escaped henc hplain pre (closes_separates henc hrest)
  have hparse := parseDoubleQuotedString_escaped henc hplain pre rest
  have hskip := skipSeparator_separates henc (pre ++ [quote] ++ escaped gs ++ [quote]) hrest
  have hlen : (pre ++ [quote] ++ escaped gs ++ [quote]).length =
      pre.length + (escaped gs).length + 2 := by
    simp
    omega
  rw [hlen] at hskip
  have hend : pre.length + ([quote] ++ (escaped gs ++ [quote])).length + skipped rest =
      pre.length + (escaped gs).length + 2 + skipped rest := by
    simp
    omega
  rw [hrender, hend]
  simp only [List.append_assoc] at hskip ⊢
  refine getNext_ascii henc pre (by decide) ?_ hskip
  have hbyte : (pre ++ ([quote] ++ (escaped gs ++ ([quote] ++ rest))))[pre.length]? =
      some quote := by
    simp
  rw [juncture, hbyte]
  show (do let stop ← scanDoubleQuotedString enc _ pre.length; _) = _
  rw [hscan]
  show (do let value ← parseDoubleQuotedString enc _ _ pre.length; _) = _
  rw [hparse]
  rfl

omit henc in
lemma bare_nullText : ∀ b ∈ nullText, BareByte b := by
  simp [nullText, BareByte, openBrace, closeBrace, comma, semicolon, quote, apostrophe, backslash]

/-- So is a text without quotes. -/
lemma getNext_bare (pre : List UInt8) {t rest : List UInt8} (ht : ∀ b ∈ t, BareByte b)
    (hne : t ≠ []) (hrest : Separates unquotedStops rest) :
    getNext enc (pre ++ (t ++ rest)) pre.length =
      .ok (if t = nullText then .nullValue else .stringValue, if t = nullText then [] else t,
        pre.length + t.length + skipped rest) := by
  have hun := unquoted_at henc pre ht hrest
  have hskip := skipSeparator_separates henc (pre ++ t) hrest
  obtain ⟨b, t, rfl⟩ := List.exists_cons_of_ne_nil hne
  have hb := ht b (by simp)
  rw [List.append_assoc, List.length_append] at hskip
  refine getNext_ascii henc pre hb.1 (r := t ++ rest) ?_ hskip
  have hbyte : (pre ++ ([b] ++ (t ++ rest)))[pre.length]? = some b := by simp
  have h0 := hb.2
  simp only [List.mem_cons, List.not_mem_nil, not_or, or_false] at h0
  rw [juncture, hbyte]
  simp only [Option.getD_some, h0, if_false]
  show (do let (value, stop) ← unquoted enc (pre ++ (b :: t ++ rest)) pre.length; _) = _
  rw [hun]
  show (if b :: t = nullText then _ else _) = _
  split <;> rfl

end OneJuncture

/-! ### Texts in UTF-8 -/

lemma utf8_glyph {g rest : List UInt8} (h : IsGlyph .UTF8 g rest) :
    g.length = 1 ∨ ∀ b ∈ g, 0x80 ≤ b := by
  have hhigh : ∀ {b bottom top : UInt8}, betweenInc b bottom top → 0x80 ≤ bottom → 0x80 ≤ b :=
    fun hb hbottom => UInt8.le_trans hbottom hb.1
  match g, h with
  | [a], _ => exact .inl rfl
  | [a, b], ⟨ha, hb⟩ =>
    refine .inr fun x hx => ?_
    rcases List.mem_pair.mp hx with rfl | rfl
    · exact hhigh ha (by decide)
    · exact hhigh hb (by decide)
  | [a, b, c], ⟨ha, hb, hc⟩ =>
    refine .inr fun x hx => ?_
    rcases List.mem_cons.mp hx with rfl | hx
    · exact hhigh ha (by decide)
    rcases List.mem_pair.mp hx with rfl | rfl
    · exact hhigh hb (by decide)
    · exact hhigh hc (by decide)
  | [a, b, c, d], ⟨ha, hb, hc, hd⟩ =>
    refine .inr fun x hx => ?_
    rcases List.mem_cons.mp hx with rfl | hx
    · exact hhigh ha (by decide)
    rcases List.mem_cons.mp hx with rfl | hx
    · exact hhigh hb (by decide)
    rcases List.mem_pair.mp hx with rfl | rfl
    · exact hhigh hc (by decide)
    · exact hhigh hd (by decide)

/-- Every text in UTF-8 is escaped as it is read. -/
lemma spelled_utf8 (s : String) : Spelled .UTF8 (utf8 s) := by
  refine ⟨s.toList.map String.utf8EncodeChar, List.flatMap_def .., fun g hg => ?_⟩
  obtain ⟨c, -, rfl⟩ := List.mem_map.mp hg
  have hhigh := utf8_glyph (isGlyph_utf8EncodeChar c [])
  refine ⟨isGlyph_utf8EncodeChar c, hhigh.imp_right fun h => ?_⟩
  exact ⟨fun hq => absurd (h _ hq) (by decide), fun hb => absurd (h _ hb) (by decide)⟩

/-! ### All junctures -/

lemma readAll_step {input value : List UInt8} {pos stop fuel : ℕ} {found : Juncture}
    (h : getNext enc input pos = .ok (found, value, stop)) (hfound : found ≠ .done) :
    readAll enc input (fuel + 1) pos =
      (readAll enc input fuel stop).map ((found, value) :: ·) := by
  rw [readAll, h]
  show (if found = .done then _ else _) = _
  rw [if_neg hfound]
  cases readAll enc input fuel stop <;> rfl

/-- What a value and what follows it begins with: an ASCII character that is no separator. -/
def Begins (t : List UInt8) : Prop := ∃ b r, t = [b] ++ r ∧ b < 0x80 ∧ b ≠ comma ∧ b ≠ semicolon

lemma Begins.append {t : List UInt8} (h : Begins t) (rest : List UInt8) : Begins (t ++ rest) := by
  obtain ⟨b, r, rfl, hb⟩ := h
  exact ⟨b, r ++ rest, by simp, hb⟩

lemma Begins.skipped {t : List UInt8} (h : Begins t) : skipped t = 0 := by
  obtain ⟨b, r, rfl, -, hc, hs⟩ := h
  simp [ArrayText.skipped, hc, hs]

lemma begins_render {v : Value} (hv : WellFormed enc v) : Begins (render v) := by
  cases v with
  | null => exact ⟨_, _, rfl, by decide, by decide, by decide⟩
  | text t => exact ⟨_, _, rfl, by decide, by decide, by decide⟩
  | bare t budget =>
    obtain ⟨hne, -, hbytes⟩ := hv
    obtain ⟨b, t, rfl⟩ := List.exists_cons_of_ne_nil hne
    have hb := hbytes b (by simp)
    have hb' := hb.2
    simp only [List.mem_cons, not_or] at hb'
    exact ⟨b, t, rfl, hb.1, hb'.2.2.2.1, hb'.2.2.2.2.1⟩
  | array safe elts => exact ⟨_, _, rfl, by decide, by decide, by decide⟩

lemma begins_renderElts {vs : List Value} (hvs : EltsWellFormed enc vs) (rest : List UInt8) :
    Begins (renderElts vs ++ ([closeBrace] ++ rest)) := by
  match vs, hvs with
  | [], _ => exact ⟨_, _, rfl, by decide, by decide, by decide⟩
  | [v], hvs => exact (begins_render hvs.1).append _
  | v :: w :: vs, hvs =>
    rw [renderElts, List.append_assoc]
    exact (begins_render hvs.1).append _

mutual

/-- The junctures of a value are read off its text. -/
lemma readAll_render (henc : enc ≠ .GB18030) {v : Value} (hv : WellFormed enc v)
    (pre : List UInt8) {rest : List UInt8} (hrest : Separates unquotedStops rest) (fuel : ℕ) :
    readAll enc (pre ++ (render v ++ rest)) ((events v).length + fuel) pre.length =
      (readAll enc (pre ++ (render v ++ rest)) fuel
        (pre.length + (render v).length + skipped rest)).map (events v ++ ·) := by
  match v, hv with
  | .null, _ =>
    rw [events, List.length_singleton, Nat.add_comm 1, render]
    exact readAll_step (getNext_bare henc pre bare_nullText (by simp [nullText]) hrest) (by decide)
  | .text t, hv =>
    rw [events, List.length_singleton, Nat.add_comm 1]
    exact readAll_step (getNext_text henc pre hv hrest) (by decide)
  | .bare t _, ⟨hne, hnull, hbytes⟩ =>
    have hnext := getNext_bare henc pre hbytes hne hrest
    rw [if_neg hnull, if_neg hnull] at hnext
    rw [events, List.length_singleton, Nat.add_comm 1]
    exact readAll_step hnext (by decide)
  | .array safe elts, hv =>
    have hbegins := begins_renderElts hv rest
    have hopen : getNext enc (pre ++ ([openBrace] ++ (renderElts elts ++ ([closeBrace] ++ rest))))
        pre.length = .ok (.rowStart, [], pre.length + 1) := by
      rw [getNext_brace henc pre (.inl ⟨rfl, rfl⟩), hbegins.skipped]
      obtain ⟨b, r, h, hb, -⟩ := hbegins
      exact .inr ⟨b, r, h, hb⟩
    have helts := readAll_renderElts henc hv (pre ++ [openBrace]) rest (fuel + 1)
    have hclose := getNext_brace henc (pre ++ [openBrace] ++ renderElts elts)
      (.inr ⟨rfl, rfl⟩) (separates_ascii hrest)
    have hlen : (events (.array safe elts)).length + fuel =
        (eltsEvents elts).length + fuel + 1 + 1 := by
      simp only [events, List.length_cons, List.length_append, List.length_nil]
      omega
    have hpos : pre.length + (render (.array safe elts)).length + skipped rest =
        pre.length + 1 + (renderElts elts).length + 1 + skipped rest := by
      simp only [render, List.length_append, List.length_singleton]
      omega
    have htext : pre ++ (render (.array safe elts) ++ rest) =
        pre ++ ([openBrace] ++ (renderElts elts ++ ([closeBrace] ++ rest))) := by
      simp [render]
    simp only [List.append_assoc, List.length_append, List.length_singleton,
      ← Nat.add_assoc] at helts hclose
    rw [hlen, hpos, htext, readAll_step hopen (by decide), helts, readAll_step hclose (by decide)]
    cases readAll enc (pre ++ ([openBrace] ++ (renderElts elts ++ ([closeBrace] ++ rest)))) fuel
      (pre.length + 1 + (renderElts elts).length + 1 + skipped rest) <;>
      simp [Except.map, events]

lemma readAll_renderElts (henc : enc ≠ .GB18030) {vs : List Value} (hvs : EltsWellFormed enc vs)
    (pre rest : List UInt8) (fuel : ℕ) :
    readAll enc (pre ++ (renderElts vs ++ ([closeBrace] ++ rest))) ((eltsEvents vs).length + fuel)
        pre.length =
      (readAll enc (pre ++ (renderElts vs ++ ([closeBrace] ++ rest))) fuel
        (pre.length + (renderElts vs).length)).map (eltsEvents vs ++ ·) := by
  match vs, hvs with
  | [], _ =>
    rw [eltsEvents, renderElts, List.length_nil, Nat.zero_add, List.length_nil, Nat.add_zero]
    cases readAll enc (pre ++ ([] ++ ([closeBrace] ++ rest))) fuel pre.length <;> rfl
  | [v], hvs =>
    have hsep : Separates unquotedStops ([closeBrace] ++ rest) := .inr ⟨_, _, rfl, by decide⟩
    have h := readAll_render henc hvs.1 pre hsep fuel
    have hskip : skipped ([closeBrace] ++ rest) = 0 := by
      simp [skipped, closeBrace, comma, semicolon]
    rw [hskip] at h
    simpa [eltsEvents, renderElts] using h
  | v :: w :: vs, hvs =>
    have hsep : Separates unquotedStops ([comma] ++ (renderElts (w :: vs) ++
        ([closeBrace] ++ rest))) := .inr ⟨_, _, rfl, by decide⟩
    have h := readAll_render henc hvs.1 pre hsep ((eltsEvents (w :: vs)).length + fuel)
    have hskip : skipped ([comma] ++ (renderElts (w :: vs) ++ ([closeBrace] ++ rest))) = 1 := by
      simp [skipped]
    have hrec := readAll_renderElts henc hvs.2 (pre ++ render v ++ [comma]) rest fuel
    rw [hskip] at h
    have hlen : (eltsEvents (v :: w :: vs)).length + fuel =
        (events v).length + ((eltsEvents (w :: vs)).length + fuel) := by
      rw [eltsEvents, List.length_append, Nat.add_assoc]
    have htext : pre ++ (renderElts (v :: w :: vs) ++ ([closeBrace] ++ rest)) =
        pre ++ (render v ++ ([comma] ++ (renderElts (w :: vs) ++ ([closeBrace] ++ rest)))) := by
      simp [renderElts]
    have hpos : pre.length + (renderElts (v :: w :: vs)).length =
        pre.length + (render v).length + 1 + (renderElts (w :: vs)).length := by
      simp only [renderElts, List.length_append, List.length_singleton]
      omega
    simp only [List.append_assoc, List.length_append, List.length_singleton,
      ← Nat.add_assoc] at hrec
    rw [hlen, htext, hpos, h, hrec]
    cases readAll enc (pre ++ (render v ++ ([comma] ++ (renderElts (w :: vs) ++
      ([closeBrace] ++ rest))))) fuel (pre.length + (render v).length + 1 +
        (renderElts (w :: vs)).length) <;> simp [Except.map, eltsEvents]

end

/-- **An array is read back as it was written.** In every encoding but `GB18030`, and for arrays
of any depth whose texts have no quote and no backslash inside a glyph of several bytes, the
reader returns the junctures of the value and then `done`. -/
theorem readAll_written (henc : enc ≠ .GB18030) {v : Value} (hv : WellFormed enc v) {fuel : ℕ}
    (hfuel : (events v).length < fuel) :
    readAll enc (render v) fuel 0 = .ok (events v) := by
  obtain ⟨more, rfl⟩ := Nat.exists_eq_add_of_lt hfuel
  have h := readAll_render henc hv [] (.inl rfl) (more + 1)
  have hdone : readAll enc (render v) (more + 1) (render v).length = .ok [] := by
    rw [readAll, getNext, glyphScanner_none (Nat.le_refl _)]
    rfl
  simp only [List.append_nil, List.nil_append, List.length_nil, Nat.zero_add, skipped,
    List.head?_nil, reduceCtorEq, or_self, if_false, Nat.add_zero, hdone] at h
  rw [Nat.add_assoc, h]
  simp [Except.map]

/-- An array of two rows, the second one empty. -/
theorem readAll_written_rows :
    readAll .UTF8 (render (.array false [.array false [.text (utf8 "say \"hé\""), .null],
      .array false []])) 9 0 =
      .ok [(.rowStart, []), (.rowStart, []), (.stringValue, utf8 "say \"hé\""), (.nullValue, []),
        (.rowEnd, []), (.rowStart, []), (.rowEnd, []), (.rowEnd, [])] :=
  readAll_written (v := .array false [.array false [.text (utf8 "say \"hé\""), .null],
    .array false []]) (by decide) ⟨⟨spelled_utf8 _, trivial, trivial⟩, trivial, trivial⟩ (by decide)

/-! ### Glyphs that hold a backslash -/

/-- The first byte of two is no ASCII character. -/
lemma two_bytes_high (henc : enc ≠ .GB18030) {a b : UInt8} (h : Plain enc [a, b]) : 0x80 ≤ a := by
  have h := h []
  cases enc <;> first | exact absurd rfl henc | exact h.elim | skip
  all_goals simp only [IsGlyph, TwoBytes] at h; grind

/-- The text of a glyph that ends in a backslash: the writer doubles the byte, the reader takes the
second one for an escape of what follows. -/
lemma escapeByte_split (henc : enc ≠ .GB18030) {gs : List (List UInt8)}
    (hgs : ∀ g ∈ gs, g.length = 1 ∨ quote ∉ g ∧ backslash ∉ g) {a : UInt8}
    (ha : Plain enc [a, backslash]) :
    (gs.flatten ++ [a, backslash]).flatMap escapeByte ++ [quote] =
      escaped (gs ++ [[a, backslash], [quote]]) := by
  have hhigh := two_bytes_high henc ha
  have hplain : escapeByte a = [a] := by
    rw [escapeByte, if_neg]
    rintro (rfl | rfl) <;> exact absurd hhigh (by decide)
  have hback : escapeByte backslash = [backslash, backslash] := by simp [escapeByte]
  have hmark : escapeGlyph [a, backslash] = [[a, backslash]] := by simp [escapeGlyph]
  have hquote : escapeGlyph [quote] = [[backslash], [quote]] := by simp [escapeGlyph]
  rw [List.flatMap_append, escaped_eq hgs]
  simp [escaped, hplain, hback, hmark, hquote]

lemma scanDoubleQuotedString_open (henc : enc ≠ .GB18030) {gs : List (List UInt8)}
    (hgs : ∀ g ∈ gs, Plain enc g) (pre : List UInt8) :
    scanDoubleQuotedString enc (pre ++ ([quote] ++ (escaped gs ++ [closeBrace]))) pre.length =
      .error (missingQuote (pre ++ ([quote] ++ (escaped gs ++ [closeBrace])))) := by
  have hbrace : Plain enc [closeBrace] := plain_ascii henc (by decide)
  have hloop := scanDoubleQuotedLoop_escaped henc hgs (pre ++ [quote]) [closeBrace]
  have hscan := scan_plain (pre ++ [quote] ++ escaped gs) [] hbrace
  have hb := (glyph_eq_iff (pre ++ [quote] ++ escaped gs) [] hbrace backslash).not.mp (by decide)
  have hq := (glyph_eq_iff (pre ++ [quote] ++ escaped gs) [] hbrace quote).not.mp (by decide)
  simp only [List.append_assoc, List.append_nil, List.length_append, ← Nat.add_assoc]
    at hloop hscan hb hq
  rw [scanDoubleQuotedString, scan_plain _ _ (plain_quote henc)]
  simp only
  rw [hloop, scanDoubleQuotedLoop_next hscan hb, decide_eq_false hq, scanDoubleQuotedLoop,
    if_neg (by simp; omega)]
  rfl

/-- **Why the glyphs of several bytes must not hold a quote or a backslash.** A text that ends in
one whose second byte is a backslash is written so that its closing quote is escaped: the
reader comes to the end of the array inside the text. -/
theorem readAll_split (henc : enc ≠ .GB18030) {gs : List (List UInt8)}
    (hgs : ∀ g ∈ gs, Plain enc g ∧ (g.length = 1 ∨ quote ∉ g ∧ backslash ∉ g)) {a : UInt8}
    (ha : Plain enc [a, backslash]) (safe : Bool) (fuel : ℕ) :
    readAll enc (render (.array safe [.text (gs.flatten ++ [a, backslash])])) (fuel + 2) 0 =
      .error (missingQuote (render (.array safe [.text (gs.flatten ++ [a, backslash])]))) := by
  have hplain : ∀ g ∈ gs ++ [[a, backslash], [quote]], Plain enc g := by
    intro g hg
    simp only [List.mem_append, List.mem_cons, List.not_mem_nil, or_false] at hg
    rcases hg with hg | rfl | rfl
    · exact (hgs g hg).1
    · exact ha
    · exact plain_quote henc
  have htext := escapeByte_split henc (fun g hg => (hgs g hg).2) ha
  have hrender : render (.array safe [.text (gs.flatten ++ [a, backslash])]) =
      [openBrace] ++ ([quote] ++ (escaped (gs ++ [[a, backslash], [quote]]) ++ [closeBrace])) := by
    rw [render, renderElts, render, htext]
    simp
  generalize htail : escaped (gs ++ [[a, backslash], [quote]]) ++ [closeBrace] = tail at hrender
  have hopen : getNext enc ([openBrace] ++ ([quote] ++ tail)) 0 = .ok (.rowStart, [], 1) :=
    getNext_brace henc [] (.inl ⟨rfl, rfl⟩) (.inr ⟨quote, _, rfl, by decide⟩)
  have hstring : scanDoubleQuotedString enc ([openBrace] ++ ([quote] ++ tail)) 1 =
      .error (missingQuote ([openBrace] ++ ([quote] ++ tail))) :=
    htail ▸ scanDoubleQuotedString_open henc hplain [openBrace]
  have hscan : glyphScanner enc ([openBrace] ++ ([quote] ++ tail)) 1 = .ok (some 2) :=
    scan_plain [openBrace] tail (plain_quote henc)
  have hnext : getNext enc ([openBrace] ++ ([quote] ++ tail)) 1 =
      .error (missingQuote ([openBrace] ++ ([quote] ++ tail))) := by
    rw [getNext, hscan]
    show (do let stop ← scanDoubleQuotedString enc _ 1; _) >>= _ = _
    rw [hstring]
    rfl
  rw [hrender, readAll_step hopen (by decide), readAll, hnext]
  rfl

/-- A character of Shift JIS whose second byte is a backslash. -/
example (fuel : ℕ) : readAll .SJIS (render (.array false [.text [0x95, 0x5c]])) (fuel + 2) 0 =
    .error (missingQuote [openBrace, quote, 0x95, 0x5c, 0x5c, quote, closeBrace]) := by
  have hnone : ∀ g ∈ ([] : List (List UInt8)),
      Plain .SJIS g ∧ (g.length = 1 ∨ quote ∉ g ∧ backslash ∉ g) := by
    simp
  have hsplit : Plain .SJIS [0x95, backslash] := fun _ => ⟨.inl (by decide), by decide, by decide⟩
  exact readAll_split (by decide) hnone hsplit false fuel

end DbCoursework.ArrayText

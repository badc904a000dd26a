import DbCoursework.Glyphs
import Mathlib.Data.List.Forall2

/-!
The tables of the encodings, and where the scanners depart from them.

A table lists the forms of the glyphs of an encoding: for each byte the ranges it may lie in. The
scanners of eight groups find exactly the glyphs of their tables. Those of `EUC_JP`,
`EUC_JIS_2004`, `UHC`, `JOHAB` and `UTF8` take more, that of `MULE_INTERNAL` takes more and misses
some, and that of `GB18030` takes none of its table's glyphs for what it is.
-/

namespace DbCoursework.GlyphTables

open DbCoursework.Encodings DbCoursework.Glyphs

/-- For each byte of a glyph, the ranges it may lie in. -/
abbrev Form := List (List (UInt8 × UInt8))

def ascii : Form := [[(0x00, 0x7f)]]

def high : List (UInt8 × UInt8) := [(0xa1, 0xfe)]

/-- A byte of a character of several bytes in `MULE_INTERNAL`. -/
def muleByte : List (UInt8 × UInt8) := [(0xa0, 0xff)]

/-- A byte of a character of several bytes in UTF-8, the first one apart. -/
def following : List (UInt8 × UInt8) := [(0x80, 0xbf)]

/-- The bytes 0x40 and up to `top`, without 0x7f. -/
def without7f (top : UInt8) : List (UInt8 × UInt8) := [(0x40, 0x7e), (0x80, top)]

def forms : EncodingGroup → List Form
  | .MONOBYTE => [[[(0x00, 0xff)]]]
  | .BIG5 => [ascii, [[(0x81, 0xfe)], [(0x40, 0x7e), (0xa1, 0xfe)]]]
  | .EUC_CN => [ascii, [[(0xa1, 0xf7)], high]]
  | .EUC_JP | .EUC_JIS_2004 =>
    -- half-width katakana are the one-byte characters of JIS X 0201, behind 0x8e
    [ascii, [[(0x8e, 0x8e)], [(0xa1, 0xdf)]], [high, high], [[(0x8f, 0x8f)], high, high]]
  | .EUC_KR => [ascii, [high, high]]
  | .EUC_TW => [ascii, [high, high], [[(0x8e, 0x8e)], [(0xa1, 0xb0)], high, high]]
  | .GB18030 =>
    [ascii, [[(0x81, 0xfe)], without7f 0xfe],
      [[(0x81, 0xfe)], [(0x30, 0x39)], [(0x81, 0xfe)], [(0x30, 0x39)]]]
  | .GBK =>
    [ascii, [[(0xa1, 0xa9)], high], [[(0xb0, 0xf7)], high], [[(0x81, 0xa0)], without7f 0xfe],
      [[(0xaa, 0xfe)], without7f 0xa0], [[(0xa8, 0xa9)], without7f 0xa0], [[(0xaa, 0xaf)], high],
      [[(0xf8, 0xfe)], high], [[(0xa1, 0xa7)], without7f 0xa0]]
  | .JOHAB =>
    [ascii, [[(0x84, 0xd3)], [(0x41, 0x7e), (0x81, 0xfe)]],
      [[(0xd8, 0xde), (0xe0, 0xf9)], [(0x31, 0x7e), (0x91, 0xfe)]]]
  | .MULE_INTERNAL =>
    [ascii, [[(0x81, 0x8d)], muleByte], [[(0x9a, 0x9a)], [(0xa0, 0xdf)], muleByte],
      [[(0x9b, 0x9b)], [(0xe0, 0xef)], muleByte], [[(0x90, 0x99)], muleByte, muleByte],
      [[(0x9c, 0x9c)], [(0xf0, 0xf4)], muleByte, muleByte],
      [[(0x9d, 0x9d)], [(0xf5, 0xfe)], muleByte, muleByte]]
  | .SJIS | .SHIFT_JIS_2004 =>
    [[[(0x00, 0x7f), (0xa1, 0xdf)]], [[(0x81, 0x9f), (0xe0, 0xfc)], without7f 0xfc]]
  | .UHC =>
    [ascii, [[(0x81, 0xc6)], [(0x41, 0x5a), (0x61, 0x7a), (0x81, 0xfe)]], [high, high]]
  | .UTF8 =>
    -- the shortest forms of the code points up to 0x10ffff, surrogates apart
    [ascii, [[(0xc2, 0xdf)], following], [[(0xe0, 0xe0)], [(0xa0, 0xbf)], following],
      [[(0xe1, 0xec), (0xee, 0xef)], following, following],
      [[(0xed, 0xed)], [(0x80, 0x9f)], following],
      [[(0xf0, 0xf0)], [(0x90, 0xbf)], following, following],
      [[(0xf1, 0xf3)], following, following, following],
      [[(0xf4, 0xf4)], [(0x80, 0x8f)], following, following]]

def InRanges (ranges : List (UInt8 × UInt8)) (b : UInt8) : Prop :=
  ∃ r ∈ ranges, betweenInc b r.1 r.2

def Fits (f : Form) (g : List UInt8) : Prop := List.Forall₂ InRanges f g

/-- A glyph of the table. -/
def InTable (enc : EncodingGroup) (g : List UInt8) : Prop := ∃ f ∈ forms enc, Fits f g

/-- What a scanner takes for a glyph when `rest` follows, though it is not in the table. -/
def Takes : EncodingGroup → (g rest : List UInt8) → Prop
  | .EUC_JP, [a, b], _ | .EUC_JIS_2004, [a, b], _ => a = 0x8e ∧ betweenInc b 0xe0 0xfe
  | .GB18030, [a], _ => 0x80 ≤ a
  | .GB18030, [a, b], _ => a < 0x80 ∧ betweenInc b 0x40 0xfe ∧ b ≠ 0x7f
  | .GB18030, [a, b, c, d], _ =>
    a < 0x80 ∧ betweenInc b 0x30 0x39 ∧ betweenInc c 0x81 0xfe ∧ betweenInc d 0x30 0x39
  | .JOHAB, [a, b], _ =>
    betweenInc a 0x84 0xd3 ∧ ¬ (betweenInc b 0x41 0x7e ∨ betweenInc b 0x81 0xfe) ∨
      (betweenInc a 0xd8 0xde ∨ betweenInc a 0xe0 0xf9) ∧
        ¬ (betweenInc b 0x31 0x7e ∨ betweenInc b 0x91 0xfe)
  | .MULE_INTERNAL, [a, b, c], _ =>
    ((a = 0x9a ∧ betweenInc b 0xa0 0xdf) ∨ (a = 0x9b ∧ betweenInc b 0xe0 0xef) ∨
      (betweenInc a 0x90 0x99 ∧ 0xa0 ≤ b)) ∧ c < 0xa0
  | .MULE_INTERNAL, [a, b, c, d], rest => MuleLong a b c ∧ d < 0xa0 ∧ ∃ e ∈ rest.head?, 0xa0 ≤ e
  | .UHC, [a, b], _ =>
    a = 0x80 ∧ (betweenInc b 0x41 0x5a ∨ betweenInc b 0x61 0x7a ∨ betweenInc b 0x80 0xfe) ∨
      betweenInc a 0x81 0xc6 ∧ b = 0x80
  | .UTF8, [a, b], _ => betweenInc a 0xc0 0xc1 ∧ betweenInc b 0x80 0xbf
  | .UTF8, [a, b, c], _ =>
    (a = 0xe0 ∧ betweenInc b 0x80 0x9f ∨ a = 0xed ∧ betweenInc b 0xa0 0xbf) ∧
      betweenInc c 0x80 0xbf
  | .UTF8, [a, b, c, d], _ =>
    (a = 0xf0 ∧ betweenInc b 0x80 0x8f ∨ a = 0xf4 ∧ betweenInc b 0x90 0xbf ∨
      betweenInc a 0xf5 0xf7 ∧ betweenInc b 0x80 0xbf) ∧
        betweenInc c 0x80 0xbf ∧ betweenInc d 0x80 0xbf
  | _, _, _ => False

/-- Which glyphs of the table a scanner does not take when `rest` follows. -/
def Misses : EncodingGroup → (g rest : List UInt8) → Prop
  | .GB18030, _, _ => True
  | .MULE_INTERNAL, [_, _, _, _], rest => ¬ ∃ e ∈ rest.head?, 0xa0 ≤ e
  | _, _, _ => False

@[simp] lemma inRanges_nil {b : UInt8} : ¬ InRanges [] b := by simp [InRanges]

@[simp] lemma inRanges_cons {r : UInt8 × UInt8} {ranges : List (UInt8 × UInt8)} {b : UInt8} :
    InRanges (r :: ranges) b ↔ betweenInc b r.1 r.2 ∨ InRanges ranges b := by
  simp [InRanges]

@[simp] lemma fits_nil : Fits [] [] := .nil

@[simp] lemma not_fits_nil_cons {b : UInt8} {g : List UInt8} : ¬ Fits [] (b :: g) := nofun

@[simp] lemma not_fits_cons_nil {ranges : List (UInt8 × UInt8)} {f : Form} :
    ¬ Fits (ranges :: f) [] := nofun

@[simp] lemma fits_cons {ranges : List (UInt8 × UInt8)} {f : Form} {b : UInt8} {g : List UInt8} :
    Fits (ranges :: f) (b :: g) ↔ InRanges ranges b ∧ Fits f g := List.forall₂_cons

lemma in_without7f {top b : UInt8} (h : 0x80 ≤ top) :
    InRanges (without7f top) b ↔ betweenInc b 0x40 top ∧ b ≠ 0x7f := by
  simp only [without7f, inRanges_cons, inRanges_nil, or_false, betweenInc, ne_eq,
    UInt8.le_iff_toNat_le, ← UInt8.toNat_inj, UInt8.reduceToNat] at h ⊢
  omega

section Departures

variable (enc : EncodingGroup) (a b c d : UInt8) (rest : List UInt8)

lemma oneByte_iff : IsGlyph enc [a] rest ↔
    InTable enc [a] ∧ ¬ Misses enc [a] rest ∨ Takes enc [a] rest := by
  cases enc <;> simp [IsGlyph, OneByte, InTable, forms, ascii, high, muleByte, following, Misses,
    Takes] <;> grind

lemma twoBytes_iff : IsGlyph enc [a, b] rest ↔
    InTable enc [a, b] ∧ ¬ Misses enc [a, b] rest ∨ Takes enc [a, b] rest := by
  have ha := a.toNat_lt
  have hb := b.toNat_lt
  cases enc
  -- where two ranges meet the bytes are numbers
  case EUC_JP | EUC_JIS_2004 | UHC | MULE_INTERNAL =>
    simp [IsGlyph, TwoBytes, InTable, forms, ascii, high, muleByte, Misses, Takes, betweenInc,
      UInt8.le_iff_toNat_le, ← UInt8.toNat_inj]
    omega
  all_goals
    simp [IsGlyph, TwoBytes, InTable, forms, ascii, high, following, in_without7f, Misses,
      Takes] <;> grind

lemma threeBytes_iff : IsGlyph enc [a, b, c] rest ↔
    InTable enc [a, b, c] ∧ ¬ Misses enc [a, b, c] rest ∨ Takes enc [a, b, c] rest := by
  cases enc <;> simp [IsGlyph, ThreeBytes, InTable, forms, ascii, high, muleByte, following,
    Misses, Takes] <;> grind

lemma fourBytes_iff : IsGlyph enc [a, b, c, d] rest ↔
    InTable enc [a, b, c, d] ∧ ¬ Misses enc [a, b, c, d] rest ∨ Takes enc [a, b, c, d] rest := by
  cases enc <;> simp [IsGlyph, FourBytes, InTable, forms, ascii, high, muleByte, following,
    Misses, Takes, MuleLong] <;> grind

end Departures

variable {enc : EncodingGroup} {g rest : List UInt8}

/-- No form has fewer than one byte or more than four. -/
lemma inTable_length (h : InTable enc g) : 1 ≤ g.length ∧ g.length ≤ 4 := by
  obtain ⟨f, hf, hg⟩ := h
  have hforms : ∀ f ∈ forms enc, 1 ≤ f.length ∧ f.length ≤ 4 := by
    cases enc <;> decide
  rw [← List.Forall₂.length_eq hg]
  exact hforms f hf

lemma takes_length (h : Takes enc g rest) : 1 ≤ g.length ∧ g.length ≤ 4 := by
  unfold Takes at h
  split at h
  case h_13 => exact h.elim
  all_goals simp

lemma isGlyph_iff : IsGlyph enc g rest ↔
    InTable enc g ∧ ¬ Misses enc g rest ∨ Takes enc g rest := by
  match g with
  | [a] => exact oneByte_iff ..
  | [a, b] => exact twoBytes_iff ..
  | [a, b, c] => exact threeBytes_iff ..
  | [a, b, c, d] => exact fourBytes_iff ..
  | [] =>
    refine ⟨False.elim, ?_⟩
    rintro (⟨h, -⟩ | h)
    · exact absurd (inTable_length h).1 (by simp)
    · exact absurd (takes_length h).1 (by simp)
  | a :: b :: c :: d :: e :: g =>
    refine ⟨False.elim, ?_⟩
    rintro (⟨h, -⟩ | h)
    · exact absurd (inTable_length h).2 (by simp)
    · exact absurd (takes_length h).2 (by simp)

/-- What a scanner takes besides is not in the table. -/
lemma not_inTable_of_takes (h : Takes enc g rest) : ¬ InTable enc g := by
  unfold Takes at h
  split at h
  case h_13 => exact h.elim
  all_goals
    simp [InTable, forms, ascii, high, muleByte, in_without7f]
    grind

/-- **The scanners and the tables.** At any position, whatever stands before it, a scanner returns
the end of a glyph exactly when a glyph of the table stands there that it does not miss, or when
something stands there that it takes besides; and that is in no table. -/
theorem glyphScanner_table (enc : EncodingGroup) (pre s : List UInt8) (n : ℕ) :
    (glyphScanner enc (pre ++ s) pre.length = .ok (some n) ↔
        ∃ g rest, s = g ++ rest ∧ n = pre.length + g.length ∧
          (InTable enc g ∧ ¬ Misses enc g rest ∨ Takes enc g rest)) ∧
      ∀ g rest, Takes enc g rest → ¬ InTable enc g := by
  refine ⟨(glyphScanner_found enc).trans ?_, fun g rest => not_inTable_of_takes⟩
  simp only [Found, isGlyph_iff]
  refine exists_congr fun g => exists_congr fun rest => ?_
  tauto

/-- Where nothing is missed, the glyphs of the table are glyphs to the scanner, whatever follows. -/
lemma isGlyph_of_inTable (hgb : enc ≠ .GB18030) (hmule : enc ≠ .MULE_INTERNAL)
    (h : InTable enc g) : IsGlyph enc g rest := by
  refine isGlyph_iff.mpr (.inl ⟨h, ?_⟩)
  cases enc <;> first | exact absurd rfl hgb | exact absurd rfl hmule | exact id

/-- The characters of a text are in the table of UTF-8. -/
lemma inTable_utf8EncodeChar (c : Char) : InTable .UTF8 (String.utf8EncodeChar c) := by
  have hc : c.val.toNat < 0xd800 ∨ 0xdfff < c.val.toNat ∧ c.val.toNat < 0x110000 := c.valid
  simp only [String.utf8EncodeChar]
  generalize c.val.toNat = v at *
  split
  · simp [InTable, forms, ascii, betweenInc, UInt8.le_iff_toNat_le]
    omega
  split
  · simp [InTable, forms, ascii, following, betweenInc, UInt8.le_iff_toNat_le]
    omega
  split
  · simp [InTable, forms, ascii, following, betweenInc, UInt8.le_iff_toNat_le]
    omega
  · simp [InTable, forms, ascii, following, betweenInc, UInt8.le_iff_toNat_le]
    omega

end DbCoursework.GlyphTables

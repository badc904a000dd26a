import DbCoursework.Glyphs

/-!
Texts as sequences of glyphs.

`for_glyphs` walks over a buffer glyph by glyph. It ends, and what it hands to its callback are
the glyphs the buffer is made of, up to the first place where none stands.
-/

namespace DbCoursework.GlyphText

open DbCoursework.Encodings DbCoursework.Glyphs

lemma exists_split {buffer : List UInt8} {here : ℕ} (h : here ≤ buffer.length) :
    ∃ pre s, buffer = pre ++ s ∧ here = pre.length :=
  ⟨buffer.take here, buffer.drop here, (List.take_append_drop ..).symm,
    (List.length_take_of_le h).symm⟩

/-- A scan that returns a position returns a later one. -/
lemma glyphScanner_lt {enc : EncodingGroup} {buffer : List UInt8} {here next : ℕ}
    (h : glyphScanner enc buffer here = .ok (some next)) : here < next ∧ here < buffer.length := by
  rcases Nat.lt_or_ge here buffer.length with hlt | hge
  · obtain ⟨pre, s, rfl, rfl⟩ := exists_split (Nat.le_of_lt hlt)
    obtain ⟨g, rest, -, hg, rfl⟩ := (glyphScanner_found enc).mp h
    have := isGlyph_length hg
    omega
  · rw [glyphScanner_none hge] at h
    cases h

/-- `for_glyphs`: the glyphs handed to the callback, and the error that ended it, if any. -/
def forGlyphs (enc : EncodingGroup) (buffer : List UInt8) (here : ℕ) :
    List (List UInt8) × Option Fault :=
  if here < buffer.length then
    match h : glyphScanner enc buffer here with
    | .ok (some next) =>
      have := glyphScanner_lt h
      let (gs, e) := forGlyphs enc buffer next
      ((buffer.drop here).take (next - here) :: gs, e)
    | .ok none => ([], none)
    | .error e => ([], some e)
  else ([], none)
termination_by buffer.length - here

/-- `gs` are glyphs, one after another, when `rest` follows them. -/
def AreGlyphs (enc : EncodingGroup) : List (List UInt8) → List UInt8 → Prop
  | [], _ => True
  | g :: gs, rest => IsGlyph enc g (gs.flatten ++ rest) ∧ AreGlyphs enc gs rest

variable {enc : EncodingGroup}

lemma forGlyphs_cons (pre : List UInt8) {g rest : List UInt8} (hg : IsGlyph enc g rest) :
    forGlyphs enc (pre ++ (g ++ rest)) pre.length =
      (g :: (forGlyphs enc (pre ++ (g ++ rest)) (pre.length + g.length)).1,
        (forGlyphs enc (pre ++ (g ++ rest)) (pre.length + g.length)).2) := by
  have hscan := scan_glyph pre hg
  have hlt := (glyphScanner_lt hscan).2
  conv_lhs => rw [forGlyphs, if_pos hlt]
  split
  · next next h =>
    obtain rfl : pre.length + g.length = next := by simpa using hscan.symm.trans h
    simp
  · next h => cases hscan.symm.trans h
  · next h => cases hscan.symm.trans h

lemma forGlyphs_error {pre s : List UInt8} {e : Fault}
    (h : glyphScanner enc (pre ++ s) pre.length = .error e) :
    forGlyphs enc (pre ++ s) pre.length = ([], some e) := by
  have hlt : pre.length < (pre ++ s).length := by
    rcases Nat.lt_or_ge pre.length (pre ++ s).length with hlt | hge
    · exact hlt
    · cases (glyphScanner_none hge).symm.trans h
  rw [forGlyphs, if_pos hlt]
  split
  · next h' => cases h.symm.trans h'
  · next h' => cases h.symm.trans h'
  · next h' =>
    cases h.symm.trans h'
    rfl

lemma forGlyphs_end {pre : List UInt8} : forGlyphs enc pre pre.length = ([], none) := by
  rw [forGlyphs, if_neg (Nat.lt_irrefl _)]

lemma forGlyphs_append (pre : List UInt8) {gs : List (List UInt8)} {rest : List UInt8}
    (h : AreGlyphs enc gs rest) :
    forGlyphs enc (pre ++ (gs.flatten ++ rest)) pre.length =
      (gs ++ (forGlyphs enc (pre ++ gs.flatten ++ rest) (pre ++ gs.flatten).length).1,
        (forGlyphs enc (pre ++ gs.flatten ++ rest) (pre ++ gs.flatten).length).2) := by
  induction gs generalizing pre with
  | nil => simp
  | cons g gs ih =>
    have hcons := forGlyphs_cons pre h.1
    have hrec := ih (pre ++ g) h.2
    simp only [List.flatten_cons, List.append_assoc, List.length_append] at hcons hrec ⊢
    rw [hcons, hrec]
    simp

/-- Every buffer is made of glyphs up to its end or to a place where none stands. -/
lemma exists_glyphs (enc : EncodingGroup) (pre s : List UInt8) : ∃ gs rest, s = gs.flatten ++ rest ∧
    AreGlyphs enc gs rest ∧ (rest = [] ∨
      ∃ e, glyphScanner enc (pre ++ gs.flatten ++ rest) (pre ++ gs.flatten).length = .error e) := by
  induction h : s.length using Nat.strong_induction_on generalizing pre s with
  | _ n ih =>
    subst h
    rcases hscan : glyphScanner enc (pre ++ s) pre.length with e | _ | next
    · exact ⟨[], s, rfl, trivial, .inr ⟨e, by simpa using hscan⟩⟩
    · have hs : s = [] := by
        by_contra hne
        exact glyphScanner_ne_none hne hscan
      exact ⟨[], [], hs, trivial, .inl rfl⟩
    · obtain ⟨g, rest, rfl, hg, rfl⟩ := (glyphScanner_found enc).mp hscan
      have hlen := isGlyph_length hg
      obtain ⟨gs, rest', rfl, hgs, hend⟩ := ih rest.length (by simp; omega) (pre ++ g) rest rfl
      refine ⟨g :: gs, rest', by simp, ⟨hg, hgs⟩, ?_⟩
      simpa using hend

lemma forGlyphs_of_glyphs {gs : List (List UInt8)} (h : AreGlyphs enc gs []) :
    forGlyphs enc gs.flatten 0 = (gs, none) := by
  have happ := forGlyphs_append [] h
  simp only [List.nil_append, List.append_nil, List.length_nil] at happ
  rw [happ, forGlyphs_end]
  simp

lemma forGlyphs_of_error {gs : List (List UInt8)} {rest : List UInt8} {e : Fault}
    (h : AreGlyphs enc gs rest)
    (he : glyphScanner enc (gs.flatten ++ rest) gs.flatten.length = .error e) :
    forGlyphs enc (gs.flatten ++ rest) 0 = (gs, some e) := by
  have happ := forGlyphs_append [] h
  simp only [List.nil_append, List.length_nil] at happ
  rw [happ, forGlyphs_error he]
  simp

/-- **`for_glyphs` takes a buffer apart.** It ends on every buffer; it reaches the end exactly
when the buffer is made of glyphs, and then hands over these. -/
theorem forGlyphs_none {s : List UInt8} {gs : List (List UInt8)} :
    forGlyphs enc s 0 = (gs, none) ↔ s = gs.flatten ∧ AreGlyphs enc gs [] := by
  constructor
  · intro h
    obtain ⟨gs', rest, rfl, hgs, rfl | ⟨e, he⟩⟩ := exists_glyphs enc [] s
    · rw [List.append_nil, forGlyphs_of_glyphs hgs] at h
      cases h
      exact ⟨by simp, hgs⟩
    · rw [forGlyphs_of_error hgs he] at h
      cases h
  · rintro ⟨rfl, hgs⟩
    exact forGlyphs_of_glyphs hgs

/-- **Where `for_glyphs` stops.** It ends with an error exactly at the end of the longest
sequence of glyphs, with what the scanner says there. -/
theorem forGlyphs_some {s : List UInt8} {gs : List (List UInt8)} {e : Fault} :
    forGlyphs enc s 0 = (gs, some e) ↔ ∃ rest, s = gs.flatten ++ rest ∧ AreGlyphs enc gs rest ∧
      glyphScanner enc s gs.flatten.length = .error e := by
  constructor
  · intro h
    obtain ⟨gs', rest, rfl, hgs, rfl | ⟨e', he⟩⟩ := exists_glyphs enc [] s
    · rw [List.append_nil, forGlyphs_of_glyphs hgs] at h
      cases h
    · rw [forGlyphs_of_error hgs he] at h
      cases h
      exact ⟨rest, rfl, hgs, he⟩
  · rintro ⟨rest, rfl, hgs, he⟩
    exact forGlyphs_of_error hgs he

/-! ### Text in UTF-8 -/

lemma between_ofNat {n : ℕ} {bottom top : UInt8} (h1 : bottom.toNat ≤ n) (h2 : n ≤ top.toNat) :
    betweenInc (UInt8.ofNat n) bottom top := by
  have htop : top.toNat < 256 := top.toNat_lt
  have hn : (UInt8.ofNat n).toNat = n := by
    rw [UInt8.toNat_ofNat']
    exact Nat.mod_eq_of_lt (by omega)
  simp only [betweenInc, UInt8.le_iff_toNat_le, hn]
  exact ⟨h1, h2⟩

lemma isGlyph_utf8EncodeChar (c : Char) (rest : List UInt8) :
    IsGlyph .UTF8 (String.utf8EncodeChar c) rest := by
  simp only [String.utf8EncodeChar]
  have ht : ∀ n : ℕ, betweenInc (UInt8.ofNat (n % 64 + 128)) 0x80 0xbf := fun n =>
    between_ofNat (Nat.le_add_left ..) (by show n % 64 + 128 ≤ 191; omega)
  split
  · next h =>
    show UInt8.ofNat _ < 0x80
    rw [UInt8.lt_iff_toNat_lt, UInt8.toNat_ofNat']
    show _ < 128
    omega
  split
  · exact ⟨between_ofNat (Nat.le_add_left ..) (by show _ % 32 + 192 ≤ 223; omega), ht _⟩
  split
  · exact ⟨between_ofNat (Nat.le_add_left ..) (by show _ % 16 + 224 ≤ 239; omega), ht _, ht _⟩
  · exact ⟨between_ofNat (Nat.le_add_left ..) (by show _ % 8 + 240 ≤ 247; omega), ht _, ht _, ht _⟩

def utf8 (s : String) : List UInt8 := s.toList.flatMap String.utf8EncodeChar

lemma areGlyphs_utf8 (cs : List Char) (rest : List UInt8) :
    AreGlyphs .UTF8 (cs.map String.utf8EncodeChar) rest := by
  induction cs with
  | nil => trivial
  | cons c cs ih => exact ⟨isGlyph_utf8EncodeChar c _, ih⟩

/-- **A text in UTF-8 is taken apart into its characters.** -/
theorem forGlyphs_utf8 (s : String) :
    forGlyphs .UTF8 (utf8 s) 0 = (s.toList.map String.utf8EncodeChar, none) := by
  have h := forGlyphs_of_glyphs (areGlyphs_utf8 s.toList [])
  rwa [← List.flatMap_def] at h

end DbCoursework.GlyphText

import DbCoursework.Encodings

/-!
What the glyph scanners accept.

`IsGlyph` says what the scanner of each encoding takes for a glyph, which is not always one of the
encoding. In `MULE_INTERNAL` a glyph of four bytes is told by the byte after it, so `IsGlyph`
takes what follows along.
-/

namespace DbCoursework.Glyphs

open DbCoursework.Encodings

/-- Glyphs of one byte. -/
def OneByte : EncodingGroup → (a : UInt8) → Prop
  | .MONOBYTE, _ => True
  | .GB18030, a => 0x80 ≤ a
  | .SJIS, a | .SHIFT_JIS_2004, a => a < 0x80 ∨ betweenInc a 0xa1 0xdf
  | _, a => a < 0x80

/-- Glyphs of two bytes. -/
def TwoBytes : EncodingGroup → (a b : UInt8) → Prop
  | .MONOBYTE, _, _ => False
  | .BIG5, a, b => betweenInc a 0x81 0xfe ∧ (betweenInc b 0x40 0x7e ∨ betweenInc b 0xa1 0xfe)
  | .EUC_CN, a, b => betweenInc a 0xa1 0xf7 ∧ betweenInc b 0xa1 0xfe
  | .EUC_JP, a, b | .EUC_JIS_2004, a, b =>
    (a = 0x8e ∨ betweenInc a 0xa1 0xfe) ∧ betweenInc b 0xa1 0xfe
  | .EUC_KR, a, b | .EUC_TW, a, b => betweenInc a 0xa1 0xfe ∧ betweenInc b 0xa1 0xfe
  | .GB18030, a, b => a < 0x80 ∧ betweenInc b 0x40 0xfe ∧ b ≠ 0x7f
  | .GBK, a, b => gbkPair a b
  | .JOHAB, a, _ => betweenInc a 0x84 0xd3 ∨ betweenInc a 0xd8 0xde ∨ betweenInc a 0xe0 0xf9
  | .MULE_INTERNAL, a, b => betweenInc a 0x81 0x8d ∧ 0xa0 ≤ b
  | .SJIS, a, b | .SHIFT_JIS_2004, a, b =>
    (betweenInc a 0x81 0x9f ∨ betweenInc a 0xe0 0xfc) ∧ betweenInc b 0x40 0xfc ∧ b ≠ 0x7f
  | .UHC, a, b =>
    (betweenInc a 0x80 0xc6 ∧
      (betweenInc b 0x41 0x5a ∨ betweenInc b 0x61 0x7a ∨ betweenInc b 0x80 0xfe)) ∨
    (betweenInc a 0xc7 0xfe ∧ betweenInc b 0xa1 0xfe)
  | .UTF8, a, b => betweenInc a 0xc0 0xdf ∧ betweenInc b 0x80 0xbf

/-- Glyphs of three bytes. -/
def ThreeBytes : EncodingGroup → (a b c : UInt8) → Prop
  | .EUC_JP, a, b, c | .EUC_JIS_2004, a, b, c =>
    a = 0x8f ∧ betweenInc b 0xa1 0xfe ∧ betweenInc c 0xa1 0xfe
  | .MULE_INTERNAL, a, b, _ =>
    (a = 0x9a ∧ betweenInc b 0xa0 0xdf) ∨ (a = 0x9b ∧ betweenInc b 0xe0 0xef) ∨
      (betweenInc a 0x90 0x99 ∧ 0xa0 ≤ b)
  | .UTF8, a, b, c => betweenInc a 0xe0 0xef ∧ betweenInc b 0x80 0xbf ∧ betweenInc c 0x80 0xbf
  | _, _, _, _ => False

/-- Glyphs of four bytes. -/
def FourBytes : EncodingGroup → (a b c d : UInt8) → (rest : List UInt8) → Prop
  | .EUC_TW, a, b, c, d, _ =>
    a = 0x8e ∧ betweenInc b 0xa1 0xb0 ∧ betweenInc c 0xa1 0xfe ∧ betweenInc d 0xa1 0xfe
  | .GB18030, a, b, c, d, _ =>
    a < 0x80 ∧ betweenInc b 0x30 0x39 ∧ betweenInc c 0x81 0xfe ∧ betweenInc d 0x30 0x39
  | .MULE_INTERNAL, a, b, c, _, rest =>
    ((a = 0x9c ∧ betweenInc b 0xf0 0xf4) ∨ (a = 0x9d ∧ betweenInc b 0xf5 0xfe)) ∧
      0xa0 ≤ c ∧ ∃ e ∈ rest.head?, 0xa0 ≤ e
  | .UTF8, a, b, c, d, _ =>
    betweenInc a 0xf0 0xf7 ∧ betweenInc b 0x80 0xbf ∧ betweenInc c 0x80 0xbf ∧
      betweenInc d 0x80 0xbf
  | _, _, _, _, _, _ => False

/-- `g` is a glyph when `rest` follows it. -/
def IsGlyph (enc : EncodingGroup) : (g rest : List UInt8) → Prop
  | [a], _ => OneByte enc a
  | [a, b], _ => TwoBytes enc a b
  | [a, b, c], _ => ThreeBytes enc a b c
  | [a, b, c, d], rest => FourBytes enc a b c d rest
  | _, _ => False

/-- A glyph at the front of `s`, which starts at `k` and ends at `n`. -/
def Found (enc : EncodingGroup) (s : List UInt8) (k n : ℕ) : Prop :=
  ∃ g rest, s = g ++ rest ∧ IsGlyph enc g rest ∧ n = k + g.length

lemma isGlyph_length {enc : EncodingGroup} {g rest : List UInt8} (h : IsGlyph enc g rest) :
    1 ≤ g.length ∧ g.length ≤ 4 := by
  unfold IsGlyph at h
  split at h
  case h_5 => exact h.elim
  all_goals simp

lemma found_nil {enc : EncodingGroup} {k n : ℕ} : Found enc [] k n ↔ False := by
  refine ⟨?_, False.elim⟩
  rintro ⟨g, rest, h, hg, -⟩
  obtain ⟨rfl, rfl⟩ := List.append_eq_nil_iff.mp h.symm
  exact hg

/-- The glyph has one byte, or two, three or four. -/
lemma found_cons {enc : EncodingGroup} {a : UInt8} {s : List UInt8} {k n : ℕ} :
    Found enc (a :: s) k n ↔ OneByte enc a ∧ n = k + 1 ∨
      ∃ b r, s = b :: r ∧ (TwoBytes enc a b ∧ n = k + 2 ∨
        ∃ c t, r = c :: t ∧ (ThreeBytes enc a b c ∧ n = k + 3 ∨
          ∃ d u, t = d :: u ∧ FourBytes enc a b c d u ∧ n = k + 4)) := by
  constructor
  · rintro ⟨g, rest, h, hg, rfl⟩
    match g, h, hg with
    | [], _, hg => exact hg.elim
    | [a'], h, hg =>
      cases h
      exact .inl ⟨hg, rfl⟩
    | [a', b], h, hg =>
      cases h
      exact .inr ⟨b, rest, rfl, .inl ⟨hg, rfl⟩⟩
    | [a', b, c], h, hg =>
      cases h
      exact .inr ⟨b, c :: rest, rfl, .inr ⟨c, rest, rfl, .inl ⟨hg, rfl⟩⟩⟩
    | [a', b, c, d], h, hg =>
      cases h
      exact .inr ⟨b, c :: d :: rest, rfl, .inr ⟨c, d :: rest, rfl, .inr ⟨d, rest, rfl, hg, rfl⟩⟩⟩
    | _ :: _ :: _ :: _ :: _ :: _, _, hg => exact hg.elim
  · rintro (⟨hg, rfl⟩ | ⟨b, r, rfl, ⟨hg, rfl⟩ | ⟨c, t, rfl, ⟨hg, rfl⟩ | ⟨d, u, rfl, hg, rfl⟩⟩⟩)
    · exact ⟨[a], s, rfl, hg, rfl⟩
    · exact ⟨[a, b], r, rfl, hg, rfl⟩
    · exact ⟨[a, b, c], t, rfl, hg, rfl⟩
    · exact ⟨[a, b, c, d], u, rfl, hg, rfl⟩

section Reads

variable (pre r : List UInt8) (a b c d e : UInt8)

@[simp] lemma getByte_zero : getByte (pre ++ a :: r) pre.length = .ok a := by simp [getByte]

@[simp] lemma getByte_one : getByte (pre ++ a :: b :: r) (pre.length + 1) = .ok b := by
  simp [getByte]

@[simp] lemma getByte_two : getByte (pre ++ a :: b :: c :: r) (pre.length + 2) = .ok c := by
  simp [getByte]

@[simp] lemma getByte_three :
    getByte (pre ++ a :: b :: c :: d :: r) (pre.length + 3) = .ok d := by
  simp [getByte]

@[simp] lemma getByte_four :
    getByte (pre ++ a :: b :: c :: d :: e :: r) (pre.length + 4) = .ok e := by
  simp [getByte]

@[simp] lemma getByte_past :
    getByte (pre ++ [a, b, c, d]) (pre.length + 4) = .error (.outOfBounds (pre.length + 4)) := by
  simp [getByte]

end Reads

/-- What `throwForEncodingError` throws. -/
def encodingFault (name : String) (buffer : List UInt8) (start count : ℕ) : Fault :=
  match getBytes buffer start count with
  | .ok bytes => .encoding name start bytes
  | .error f => f

@[simp] lemma throw_eq (name : String) (buffer : List UInt8) (start count : ℕ) :
    throwForEncodingError name buffer start count =
      .error (encodingFault name buffer start count) := by
  unfold throwForEncodingError encodingFault
  cases getBytes buffer start count <;> rfl

lemma getBytes_eq (buffer : List UInt8) (start count : ℕ) (h : start + count ≤ buffer.length) :
    getBytes buffer start count = .ok ((buffer.drop start).take count) := by
  induction count generalizing start with
  | zero => simp [getBytes]
  | succ count ih =>
    have hlt : start < buffer.length := by omega
    rw [getBytes, ih (start + 1) (by omega), getByte, List.getElem?_eq_getElem hlt,
      List.drop_eq_getElem_cons hlt, List.take_succ_cons]
    rfl

lemma encodingFault_eq {name : String} {buffer : List UInt8} {start count : ℕ}
    (h : start + count ≤ buffer.length) : encodingFault name buffer start count =
      .encoding name start ((buffer.drop start).take count) := by
  rw [encodingFault, getBytes_eq buffer start count h]

@[simp] lemma ok_bind {α β : Type} (a : α) (f : α → Except Fault β) :
    (Except.ok a >>= f) = f a := rfl

@[simp] lemma error_bind {α β : Type} (e : Fault) (f : α → Except Fault β) :
    (Except.error e >>= f) = .error e := rfl

@[simp] lemma pure_eq_ok {α : Type} (a : α) : (pure a : Except Fault α) = .ok a := rfl

lemma ite_iff {c p : Prop} [Decidable c] {r t v : Scan} (hr : c → (r = v ↔ p))
    (ht : ¬ c → (t = v ↔ p)) : (if c then r else t) = v ↔ p := by
  by_cases hc : c
  · rw [if_pos hc]
    exact hr hc
  · rw [if_neg hc]
    exact ht hc

section Scanners

variable {pre s : List UInt8} {n : ℕ}

/-- Scanners whose glyphs have one byte or two. -/
lemma short_found (enc : EncodingGroup) (h : enc ∈ [.MONOBYTE, .BIG5, .EUC_CN, .EUC_KR, .GBK,
    .JOHAB, .SJIS, .SHIFT_JIS_2004, .UHC]) :
    glyphScanner enc (pre ++ s) pre.length = .ok (some n) ↔ Found enc s pre.length n := by
  simp only [List.mem_cons, List.not_mem_nil, or_false] at h
  rcases h with rfl | rfl | rfl | rfl | rfl | rfl | rfl | rfl | rfl <;>
    rcases s with _ | ⟨a, _ | ⟨b, s⟩⟩ <;>
    simp [glyphScanner, scanMonobyte, scanBig5, scanEucCn, scanEucKr, scanGbk, scanJohab,
      nextSeqForSjislike, scanUhc, found_nil, found_cons, OneByte, TwoBytes, ThreeBytes,
      FourBytes] <;> grind

/-- Scanners whose glyphs have up to three bytes or four. -/
lemma long_found (enc : EncodingGroup) (h : enc ∈ [.EUC_JP, .EUC_JIS_2004, .EUC_TW, .GB18030,
    .UTF8]) :
    glyphScanner enc (pre ++ s) pre.length = .ok (some n) ↔ Found enc s pre.length n := by
  simp only [List.mem_cons, List.not_mem_nil, or_false] at h
  rcases h with rfl | rfl | rfl | rfl | rfl <;>
    rcases s with _ | ⟨a, _ | ⟨b, _ | ⟨c, _ | ⟨d, s⟩⟩⟩⟩ <;>
    simp [glyphScanner, nextSeqForEucJplike, scanEucTw, scanGb18030, scanUtf8, found_nil,
      found_cons, OneByte, TwoBytes, ThreeBytes, FourBytes] <;> grind

lemma scanMuleInternal_found : scanMuleInternal (pre ++ s) pre.length = .ok (some n) ↔
    Found .MULE_INTERNAL s pre.length n := by
  rcases s with _ | ⟨a, _ | ⟨b, _ | ⟨c, _ | ⟨d, _ | ⟨e, s⟩⟩⟩⟩⟩ <;>
    simp [scanMuleInternal, found_nil, found_cons, OneByte, TwoBytes, ThreeBytes, FourBytes]
  · grind
  · grind
  · grind
  · grind
  · refine ite_iff (fun _ => by grind) fun _ => ?_
    refine ite_iff (fun _ => by grind) fun _ => ?_
    refine ite_iff (fun _ => by grind) fun _ => ?_
    exact ite_iff (fun _ => by grind) fun _ => by grind

/-- At any position, whatever stands before it, a scanner returns the end of a glyph exactly when
one stands there, and it is that glyph's. -/
lemma glyphScanner_found (enc : EncodingGroup) :
    glyphScanner enc (pre ++ s) pre.length = .ok (some n) ↔ Found enc s pre.length n := by
  cases enc
  case MULE_INTERNAL => exact scanMuleInternal_found
  case EUC_JP | EUC_JIS_2004 | EUC_TW | GB18030 | UTF8 => exact long_found _ (by simp)
  all_goals exact short_found _ (by simp)

lemma scan_glyph {enc : EncodingGroup} (pre : List UInt8) {g rest : List UInt8}
    (h : IsGlyph enc g rest) :
    glyphScanner enc (pre ++ (g ++ rest)) pre.length = .ok (some (pre.length + g.length)) :=
  (glyphScanner_found enc).mpr ⟨g, rest, rfl, h, rfl⟩

end Scanners

/-! ### Reads stay inside the buffer -/

/-- A result with a defined meaning: the end of a glyph or an encoding error. -/
def Settled (r : Scan) : Prop :=
  (∃ n, r = .ok (some n)) ∨ ∃ name start bytes, r = .error (.encoding name start bytes)

section Settled

variable {buffer : List UInt8} {start : ℕ}

lemma settled_some {n : ℕ} : Settled (pure (some n)) := .inl ⟨n, rfl⟩

lemma settled_throw {name : String} {count : ℕ} (h : start + count ≤ buffer.length) :
    Settled (throwForEncodingError name buffer start count) := by
  rw [throw_eq, encodingFault_eq h]
  exact .inr ⟨_, _, _, rfl⟩

lemma settled_bind {o : ℕ} {f : UInt8 → Scan} (h : o < buffer.length)
    (hf : ∀ b, Settled (f b)) : Settled (getByte buffer o >>= f) := by
  rw [getByte, List.getElem?_eq_getElem h]
  exact hf _

lemma settled_ite {c : Prop} [Decidable c] {r t : Scan} (hr : c → Settled r)
    (ht : ¬ c → Settled t) : Settled (if c then r else t) := by
  split
  · exact hr ‹c›
  · exact ht ‹¬ c›

/-- Every branch of a scanner tests the length before it reads, but for the last one of
`scanMuleInternal`. -/
lemma glyphScanner_settled (enc : EncodingGroup) (h : start < buffer.length)
    (hmule : enc = .MULE_INTERNAL → buffer.length ≠ start + 4) :
    Settled (glyphScanner enc buffer start) := by
  have hne : ¬ start ≥ buffer.length := Nat.not_le_of_lt h
  cases enc
  case MULE_INTERNAL =>
    have h4 := hmule rfl
    simp only [glyphScanner, scanMuleInternal, if_neg hne]
    repeat' first
      | exact settled_some
      | exact settled_throw (by omega)
      | refine settled_bind (by omega) fun _ => ?_
      | refine settled_ite (fun _ => ?_) fun _ => ?_
  all_goals
    simp only [glyphScanner, scanMonobyte, scanBig5, scanEucCn, nextSeqForEucJplike, scanEucKr,
      scanEucTw, scanGb18030, scanGbk, scanJohab, nextSeqForSjislike, scanUhc, scanUtf8, if_neg hne]
    repeat' first
      | exact settled_some
      | exact settled_throw (by omega)
      | refine settled_bind (by omega) fun _ => ?_
      | refine settled_ite (fun _ => ?_) fun _ => ?_

lemma glyphScanner_none {enc : EncodingGroup} (h : buffer.length ≤ start) :
    glyphScanner enc buffer start = .ok none := by
  cases enc <;> exact if_pos h

end Settled

/-- The first bytes of a four-byte glyph in `MULE_INTERNAL`. -/
def MuleLong (a b c : UInt8) : Prop :=
  ((a = 0x9c ∧ betweenInc b 0xf0 0xf4) ∨ (a = 0x9d ∧ betweenInc b 0xf5 0xfe)) ∧ 0xa0 ≤ c

lemma scanMuleInternal_last {pre : List UInt8} {a b c d : UInt8} {o : ℕ} :
    scanMuleInternal (pre ++ [a, b, c, d]) pre.length = .error (.outOfBounds o) ↔
      MuleLong a b c ∧ o = pre.length + 4 := by
  simp [scanMuleInternal, MuleLong, bind, Except.bind, pure, Except.pure, encodingFault_eq]
  grind

lemma scanMuleInternal_last_ne {pre : List UInt8} {a b c d : UInt8} :
    scanMuleInternal (pre ++ [a, b, c, d]) pre.length ≠ .ok none := by
  simp [scanMuleInternal, bind, Except.bind, pure, Except.pure]
  grind

lemma length_of_mule {pre s : List UInt8} (h : (pre ++ s).length = pre.length + 4) :
    ∃ a b c d, s = [a, b, c, d] :=
  List.length_eq_four.mp (by simpa using h)

/-- Inside the buffer a scanner always says something. -/
lemma glyphScanner_ne_none {enc : EncodingGroup} {pre s : List UInt8} (hs : s ≠ []) :
    glyphScanner enc (pre ++ s) pre.length ≠ .ok none := by
  have hlt : pre.length < (pre ++ s).length := by
    have := List.length_pos_iff.mpr hs
    rw [List.length_append]
    omega
  by_cases hmule : enc = .MULE_INTERNAL ∧ (pre ++ s).length = pre.length + 4
  · obtain ⟨rfl, hlen⟩ := hmule
    obtain ⟨a, b, c, d, rfl⟩ := length_of_mule hlen
    exact scanMuleInternal_last_ne
  · intro h
    rcases glyphScanner_settled enc hlt (fun h1 h2 => hmule ⟨h1, h2⟩) with
      ⟨n, h'⟩ | ⟨name, start, bytes, h'⟩ <;> cases h'.symm.trans h

/-- **One read goes past the end.** Started inside the buffer a scanner reads outside it in one
case only: a four-byte glyph of `MULE_INTERNAL` that ends the buffer. -/
theorem glyphScanner_outOfBounds {enc : EncodingGroup} {pre s : List UInt8} {o : ℕ} :
    glyphScanner enc (pre ++ s) pre.length = .error (.outOfBounds o) ↔
      enc = .MULE_INTERNAL ∧ ∃ a b c d, s = [a, b, c, d] ∧ MuleLong a b c ∧ o = pre.length + 4 := by
  constructor
  · intro h
    have hs : s ≠ [] := by
      rintro rfl
      cases (glyphScanner_none (by simp)).symm.trans h
    have hlt : pre.length < (pre ++ s).length := by
      have := List.length_pos_iff.mpr hs
      rw [List.length_append]
      omega
    have hmule : enc = .MULE_INTERNAL ∧ (pre ++ s).length = pre.length + 4 := by
      by_contra hne
      rcases glyphScanner_settled enc hlt (fun h1 h2 => hne ⟨h1, h2⟩) with
        ⟨n, h'⟩ | ⟨name, start, bytes, h'⟩ <;> cases h'.symm.trans h
    obtain ⟨rfl, hlen⟩ := hmule
    obtain ⟨a, b, c, d, rfl⟩ := length_of_mule hlen
    exact ⟨rfl, a, b, c, d, rfl, scanMuleInternal_last.mp h⟩
  · rintro ⟨rfl, a, b, c, d, rfl, h⟩
    exact scanMuleInternal_last.mpr h

end DbCoursework.Glyphs

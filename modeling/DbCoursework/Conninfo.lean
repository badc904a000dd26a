import Mathlib.Data.List.Nodup
import Mathlib.Data.List.Perm.Subperm
import Mathlib.Data.List.TakeWhile

/-!
The keyword/value grammar of connection strings.

Blanks separate settings and are ignored around `=`; an unquoted value ends at the first
blank, a value that starts with a single quote runs to the matching one, and a backslash
takes the next character literally. Of a keyword given twice the last value counts.

The main result is about strings put together from keywords and raw values without any
quoting. Reading a setting never yields more characters than it consumes, and such a string
has too few characters to give a keyword twice, so it means what it was put together from
exactly when each value is one that reads as itself.
-/

namespace DbCoursework.Conninfo

/-- `isspace` in the C locale. -/
def isBlank (c : Char) : Bool :=
  c == ' ' || c == '\t' || c == '\n' || c == '\r' || c == Char.ofNat 11 || c == Char.ofNat 12

def skipBlanks (cs : List Char) : List Char := cs.dropWhile isBlank

def Blank (cs : List Char) : Prop := ∀ c ∈ cs, isBlank c = true

instance (cs : List Char) : Decidable (Blank cs) := List.decidableBAll _ cs

def nameChar (c : Char) : Bool := c != '=' && !isBlank c

/-- An unquoted value and what follows the blank that ends it. -/
def bare : List Char → List Char × List Char
  | [] => ([], [])
  | c :: cs =>
    if isBlank c then ([], cs)
    else if c = '\\' then
      match cs with
      | [] => ([], [])
      | d :: ds => (d :: (bare ds).1, (bare ds).2)
    else (c :: (bare cs).1, (bare cs).2)

/-- A quoted value after its opening quote, and what follows the closing one. -/
def quoted : List Char → Option (List Char × List Char)
  | [] => none
  | c :: cs =>
    if c = '\'' then some ([], cs)
    else if c = '\\' then
      match cs with
      | [] => none
      | d :: ds => (quoted ds).map fun r => (d :: r.1, r.2)
    else (quoted cs).map fun r => (c :: r.1, r.2)

/-- The value after `=`. -/
def value (cs : List Char) : Option (List Char × List Char) :=
  match skipBlanks cs with
  | [] => some ([], [])
  | c :: rest => if c = '\'' then quoted rest else some (bare (c :: rest))

abbrev Setting := List Char × List Char

/-- One setting, from the first character of its keyword on. -/
def setting (cs : List Char) : Option (Setting × List Char) :=
  match skipBlanks (cs.dropWhile nameChar) with
  | [] => none
  | c :: rest =>
    if c = '=' then (value rest).map fun r => ((cs.takeWhile nameChar, r.1), r.2) else none

def parseFrom : ℕ → List Char → Option (List Setting)
  | 0, _ => none
  | fuel + 1, cs =>
    match skipBlanks cs with
    | [] => some []
    | c :: rest =>
      (setting (c :: rest)).bind fun r => (parseFrom fuel r.2).map fun ss => r.1 :: ss

/-- The settings of a connection string, in order; every setting takes a character, so the
length is fuel enough. -/
def parse (cs : List Char) : Option (List Setting) := parseFrom (cs.length + 1) cs

/-- The value of a keyword: the last one given. -/
def lastValue (k : List Char) : List Setting → Option (List Char)
  | [] => none
  | s :: ss => (lastValue k ss).or (if s.1 = k then some s.2 else none)

/-- The settings give each keyword the value that `expected` gives it, and no other. -/
def Means (ss expected : List Setting) : Prop := ∀ k, lastValue k ss = lastValue k expected

/-! ### What reading a value consumes -/

lemma bare_blank {c : Char} (hc : isBlank c = true) (cs : List Char) :
    bare (c :: cs) = ([], cs) := by
  rw [bare.eq_def]
  simp only [hc, if_true]

lemma bare_escape (d : Char) (ds : List Char) :
    bare ('\\' :: d :: ds) = (d :: (bare ds).1, (bare ds).2) := by
  rw [bare.eq_def]
  simp [isBlank]

lemma bare_cons {c : Char} (hc : isBlank c = false) (hb : c ≠ '\\') (cs : List Char) :
    bare (c :: cs) = (c :: (bare cs).1, (bare cs).2) := by
  rw [bare.eq_def]
  simp [hc, hb]

lemma quoted_escape (d : Char) (ds : List Char) :
    quoted ('\\' :: d :: ds) = (quoted ds).map fun r => (d :: r.1, r.2) := by
  rw [quoted.eq_def]
  simp

lemma quoted_cons {c : Char} (hq : c ≠ '\'') (hb : c ≠ '\\') (cs : List Char) :
    quoted (c :: cs) = (quoted cs).map fun r => (c :: r.1, r.2) := by
  rw [quoted.eq_def]
  simp [hq, hb]

/-- `p` reads as `v`: only backslashes are dropped. -/
structure Reads (p v : List Char) : Prop where
  length : v.length ≤ p.length
  count : ∀ c, c ≠ '\\' → v.count c = p.count c

lemma Reads.nil : Reads [] [] := ⟨le_rfl, fun _ _ => rfl⟩

lemma Reads.cons {p v : List Char} (h : Reads p v) (c : Char) : Reads (c :: p) (c :: v) := by
  refine ⟨?_, fun d hd => ?_⟩
  · have := h.length
    simp only [List.length_cons]; omega
  · rw [List.count_cons, List.count_cons, h.count d hd]

lemma Reads.escape {p v : List Char} (h : Reads p v) (c : Char) :
    Reads ('\\' :: c :: p) (c :: v) := by
  refine ⟨?_, fun d hd => ?_⟩
  · have := h.length
    simp only [List.length_cons]; omega
  · rw [List.count_cons_of_ne (Ne.symm hd), List.count_cons, List.count_cons, h.count d hd]

/-- What an unquoted value consumes: it reads as the value, exactly so only if the value has
no blank and no backslash, and ends at a blank or at the end of the string. -/
lemma bare_spec (cs : List Char) : ∃ p q, cs = p ++ q ∧ Reads p (bare cs).1 ∧
    (p.length = (bare cs).1.length → ∀ c ∈ (bare cs).1, isBlank c = false ∧ c ≠ '\\') ∧
    ((∃ b, isBlank b = true ∧ q = b :: (bare cs).2) ∨
      (bare cs).2 = [] ∧ (q = [] ∨ q = ['\\'])) := by
  induction cs using bare.induct with
  | case1 => exact ⟨[], [], rfl, .nil, by simp [bare], Or.inr ⟨rfl, Or.inl rfl⟩⟩
  | case2 c cs hb =>
    rw [bare_blank hb]
    exact ⟨[], c :: cs, rfl, .nil, by simp, Or.inl ⟨c, hb, rfl⟩⟩
  | case3 hb =>
    exact ⟨[], ['\\'], rfl, .nil, by simp [bare, isBlank], Or.inr ⟨rfl, Or.inr rfl⟩⟩
  | case4 d ds hb ih =>
    obtain ⟨p, q, hpq, hr, -, hend⟩ := ih
    rw [bare_escape]
    refine ⟨'\\' :: d :: p, q, by rw [hpq]; rfl, hr.escape d, fun hlen => ?_, hend⟩
    have := hr.length
    simp only [List.length_cons] at hlen
    omega
  | case5 c cs hb hc ih =>
    obtain ⟨p, q, hpq, hr, hplain, hend⟩ := ih
    have hb : isBlank c = false := by simpa using hb
    rw [bare_cons hb hc]
    refine ⟨c :: p, q, by rw [hpq]; rfl, hr.cons c, fun hlen => ?_, hend⟩
    simp only [List.length_cons, Nat.add_right_cancel_iff] at hlen
    intro x hx
    rcases List.mem_cons.mp hx with rfl | hx
    · exact ⟨hb, hc⟩
    · exact hplain hlen x hx

lemma quoted_spec {cs v rest : List Char} (h : quoted cs = some (v, rest)) :
    ∃ p, cs = p ++ '\'' :: rest ∧ Reads p v := by
  induction cs using quoted.induct generalizing v rest with
  | case1 => cases h
  | case2 cs =>
    obtain ⟨rfl, rfl⟩ : [] = v ∧ cs = rest := by simpa [quoted.eq_def] using h
    exact ⟨[], rfl, .nil⟩
  | case3 hc => simp [quoted] at h
  | case4 d ds hc ih =>
    rw [quoted_escape] at h
    obtain ⟨⟨v', rest'⟩, hv, heq⟩ := Option.map_eq_some_iff.mp h
    obtain ⟨rfl, rfl⟩ := Prod.mk.inj heq
    obtain ⟨p, hp, hr⟩ := ih hv
    exact ⟨'\\' :: d :: p, by rw [hp]; rfl, hr.escape d⟩
  | case5 c cs hq hc ih =>
    rw [quoted_cons hq hc] at h
    obtain ⟨⟨v', rest'⟩, hv, heq⟩ := Option.map_eq_some_iff.mp h
    obtain ⟨rfl, rfl⟩ := Prod.mk.inj heq
    obtain ⟨p, hp, hr⟩ := ih hv
    exact ⟨c :: p, by rw [hp]; rfl, hr.cons c⟩

/-! ### What a parse can yield -/

/-- The fewest characters that can give these settings, one past the end counted in. -/
def cost : List Setting → ℕ
  | [] => 0
  | s :: ss => s.1.length + s.2.length + 2 + cost ss

@[simp] lemma cost_nil : cost [] = 0 := rfl

@[simp] lemma cost_cons (s : Setting) (ss : List Setting) :
    cost (s :: ss) = s.1.length + s.2.length + 2 + cost ss := rfl

lemma length_skipBlanks_le (cs : List Char) : (skipBlanks cs).length ≤ cs.length :=
  (List.dropWhile_suffix isBlank).length_le

lemma value_cost {cs v rest : List Char} (h : value cs = some (v, rest)) :
    v.length + 1 + rest.length ≤ cs.length ∨ v.length ≤ cs.length ∧ rest = [] := by
  have hskip := length_skipBlanks_le cs
  unfold value at h
  rcases hcs : skipBlanks cs with _ | ⟨c, more⟩
  · obtain ⟨rfl, rfl⟩ : [] = v ∧ [] = rest := by simpa [hcs] using h
    exact Or.inr ⟨Nat.zero_le _, rfl⟩
  · rw [hcs] at h hskip
    by_cases hq : c = '\''
    · simp only [hq, if_true] at h
      obtain ⟨p, rfl, hr⟩ := quoted_spec h
      have := hr.length
      simp only [List.length_cons, List.length_append] at hskip
      left; omega
    · simp only [hq, if_false, Option.some.injEq] at h
      obtain ⟨p, q, hpq, hr, -, hend⟩ := bare_spec (c :: more)
      rw [h] at hr hend
      have hlen := hr.length
      rw [hpq, List.length_append] at hskip
      rcases hend with ⟨b, -, rfl⟩ | ⟨hrest, -⟩
      · simp only [List.length_cons] at hskip hlen
        left; omega
      · simp only at hlen
        exact Or.inr ⟨by omega, hrest⟩

lemma setting_cost {cs rest : List Char} {s : Setting} (h : setting cs = some (s, rest)) :
    s.1.length + s.2.length + 2 + rest.length ≤ cs.length ∨
      s.1.length + s.2.length + 1 ≤ cs.length ∧ rest = [] := by
  unfold setting at h
  have hsplit : (cs.takeWhile nameChar).length + (cs.dropWhile nameChar).length = cs.length := by
    rw [← List.length_append, List.takeWhile_append_dropWhile]
  have hskip := length_skipBlanks_le (cs.dropWhile nameChar)
  rcases hcs : skipBlanks (cs.dropWhile nameChar) with _ | ⟨c, more⟩
  · simp [hcs] at h
  · rw [hcs] at h hskip
    by_cases hc : c = '='
    · simp only [hc, if_true] at h
      obtain ⟨⟨v, r⟩, hv, heq⟩ := Option.map_eq_some_iff.mp h
      obtain ⟨rfl, rfl⟩ := Prod.mk.inj heq
      have := value_cost hv
      simp only [List.length_cons] at hskip ⊢
      rcases this with hlt | ⟨hle, hr⟩
      · left; omega
      · exact Or.inr ⟨by omega, hr⟩
    · simp [hc] at h

lemma parseFrom_cons {fuel : ℕ} {c : Char} (hc : isBlank c = false) (cs : List Char) :
    parseFrom (fuel + 1) (c :: cs) =
      (setting (c :: cs)).bind fun r => (parseFrom fuel r.2).map fun ss => r.1 :: ss := by
  simp [parseFrom, skipBlanks, hc]

lemma parseFrom_nil {fuel : ℕ} {ss : List Setting} (h : parseFrom fuel [] = some ss) :
    ss = [] := by
  cases fuel with
  | zero => cases h
  | succ fuel => simpa [parseFrom, skipBlanks] using h.symm

lemma parseFrom_cost {fuel : ℕ} {cs : List Char} {ss : List Setting}
    (h : parseFrom fuel cs = some ss) : cost ss ≤ cs.length + 1 := by
  induction fuel generalizing cs ss with
  | zero => cases h
  | succ fuel ih =>
    have hskip := length_skipBlanks_le cs
    unfold parseFrom at h
    rcases hcs : skipBlanks cs with _ | ⟨c, more⟩
    · obtain rfl : [] = ss := by simpa [hcs] using h
      exact Nat.zero_le _
    · rw [hcs] at h hskip
      obtain ⟨⟨s, rest⟩, hs, hmap⟩ := Option.bind_eq_some_iff.mp h
      obtain ⟨ss', hss, rfl⟩ := Option.map_eq_some_iff.mp hmap
      rw [cost_cons]
      dsimp only at hss ⊢
      rcases setting_cost hs with hlt | ⟨hle, hrest⟩
      · have := ih hss
        omega
      · obtain rfl := parseFrom_nil (hrest ▸ hss)
        rw [cost_nil]
        omega

/-! ### Reading one raw value -/

/-- A value that stands for itself without quoting. -/
def Plain (v : List Char) : Prop :=
  (∀ c ∈ v, isBlank c = false ∧ c ≠ '\\') ∧ v.head? ≠ some '\''

instance (v : List Char) : Decidable (Plain v) :=
  @instDecidableAnd _ _ (List.decidableBAll _ v) inferInstance

/-- An unquoted value that reaches `tail` ends there and leaves `rest`. -/
inductive Ends : List Char → List Char → Prop
  | stop : Ends [] []
  | next {c : Char} (cs : List Char) (hblank : isBlank c = false) (hesc : c ≠ '\\')
      (hquote : c ≠ '\'') : Ends (' ' :: c :: cs) (c :: cs)

/-- What is consumed of `v` and what follows, when it is no shorter than `v` and has no more
of any ordinary character. -/
lemma Ends.consumed {v p q tail rest : List Char} (ht : Ends tail rest) (h : v ++ tail = p ++ q)
    (hlen : v.length ≤ p.length)
    (hcount : ∀ c, isBlank c = false → c ≠ '\\' → c ≠ '\'' → p.count c ≤ v.count c) :
    p = v ∧ q = tail ∨
      ∃ c cs, q = c :: cs ∧ isBlank c = false ∧ c ≠ '\\' ∧ c ≠ '\'' ∧ p = v ++ [' '] := by
  obtain ⟨m, rfl, htail⟩ : ∃ m, p = v ++ m ∧ tail = m ++ q := by
    rcases List.append_eq_append_iff.mp h with ⟨m, hp, htail⟩ | ⟨m, hv, hq⟩
    · exact ⟨m, hp, htail⟩
    · have : m = [] := by
        rw [hv, List.length_append] at hlen
        exact List.length_eq_zero_iff.mp (by omega)
      subst this
      exact ⟨[], by simpa using hv.symm, by simpa using hq.symm⟩
  rcases m with _ | ⟨b, m⟩
  · exact Or.inl ⟨List.append_nil v, htail.symm⟩
  right
  cases ht with
  | stop => cases htail
  | @next c cs hblank hesc hquote =>
    simp only [List.cons_append, List.cons.injEq] at htail
    obtain ⟨rfl, htail⟩ := htail
    rcases m with _ | ⟨d, m⟩
    · exact ⟨c, cs, htail.symm, hblank, hesc, hquote, rfl⟩
    · -- the character that follows the blank would be counted once more
      obtain rfl : c = d := (List.cons.inj htail).1
      have hle := hcount c hblank hesc hquote
      have hpos : 0 < (' ' :: c :: m).count c := List.count_pos_iff.mpr (by simp)
      rw [List.count_append] at hle
      omega

/-- Blanks in front of a value add nothing ordinary to it. -/
lemma count_skipBlanks {c : Char} (hc : isBlank c = false) (v : List Char) :
    v.count c = (skipBlanks v).count c := by
  have hsplit : v.takeWhile isBlank ++ skipBlanks v = v := List.takeWhile_append_dropWhile
  have hblanks : (v.takeWhile isBlank).count c = 0 := by
    refine List.count_eq_zero.mpr fun hmem => ?_
    rw [List.mem_takeWhile_imp hmem] at hc
    cases hc
  rw [← congrArg (List.count c) hsplit, List.count_append, hblanks, Nat.zero_add]

lemma skipBlanks_append {pad : List Char} (hpad : Blank pad)
    (cs : List Char) : skipBlanks (pad ++ cs) = skipBlanks cs :=
  List.dropWhile_append_of_pos hpad

lemma value_append {pad : List Char} (hpad : Blank pad) (cs : List Char) :
    value (pad ++ cs) = value cs := by
  unfold value
  rw [skipBlanks_append hpad]

lemma skipBlanks_cons {c : Char} (hc : isBlank c = false) (cs : List Char) :
    skipBlanks (c :: cs) = c :: cs := by
  simp [skipBlanks, hc]

lemma skipBlanks_append_of_eq {v v' : List Char} {c : Char} (h : skipBlanks v = c :: v')
    (cs : List Char) : skipBlanks (v ++ cs) = c :: (v' ++ cs) := by
  unfold skipBlanks at h ⊢
  rw [List.dropWhile_append, h]
  rfl

/-- A blank value is skipped over. -/
lemma value_blank_ne {v tail rest : List Char} (hv : v ≠ []) (ht : Ends tail rest)
    (hblank : Blank v) (r : List Char) :
    value (v ++ tail) ≠ some (v, r) := by
  intro h
  unfold value at h
  rw [skipBlanks_append hblank] at h
  cases ht with
  | stop =>
    obtain ⟨rfl, -⟩ : [] = v ∧ [] = r := by simpa [skipBlanks] using h
    exact hv rfl
  | @next c cs hc hesc hquote =>
    rw [show skipBlanks (' ' :: c :: cs) = c :: cs from skipBlanks_cons hc cs] at h
    simp only [hquote, if_false, bare_cons hc hesc, Option.some.injEq, Prod.mk.injEq] at h
    have := hblank c (h.1 ▸ List.mem_cons_self)
    rw [hc] at this
    cases this

/-- A value longer than what is inside the quote would have to go on past `tail`'s blank. -/
lemma quoted_ne {v v' tail rest : List Char} (ht : Ends tail rest) (hlen : v'.length < v.length)
    (hcount : ∀ c, isBlank c = false → c ≠ '\'' → v.count c = v'.count c) (r : List Char) :
    quoted (v' ++ tail) ≠ some (v, r) := by
  intro h
  obtain ⟨p, hp, hr⟩ := quoted_spec h
  have hrlen := hr.length
  have hle : ∀ c, isBlank c = false → c ≠ '\\' → c ≠ '\'' → p.count c ≤ v'.count c := by
    intro c hblank hesc hquote
    rw [← hr.count c hesc, hcount c hblank hquote]
  rcases ht.consumed hp (by omega) hle with ⟨rfl, -⟩ | ⟨d, cs, heq, -, -, hquote, -⟩
  · omega
  · exact hquote (List.cons.inj heq).1.symm

/-- An unquoted value that is no shorter than the raw one is the raw one. -/
lemma bare_eq {v v' tail rest r : List Char} (ht : Ends tail rest) (hlen : v'.length ≤ v.length)
    (hcount : ∀ c, isBlank c = false → v.count c = v'.count c)
    (h : bare (v' ++ tail) = (v, r)) :
    v.length = v'.length ∧ (∀ c ∈ v, isBlank c = false ∧ c ≠ '\\') ∧ r = rest := by
  obtain ⟨p, q, hp, hr, hplain, hend⟩ := bare_spec (v' ++ tail)
  rw [h] at hr hplain hend
  have hrlen := hr.length
  dsimp only at hrlen hplain hend
  have hle : ∀ c, isBlank c = false → c ≠ '\\' → c ≠ '\'' → p.count c ≤ v'.count c := by
    intro c hblank hesc hquote
    rw [← hr.count c hesc, hcount c hblank]
  rcases ht.consumed hp (by omega) hle with ⟨rfl, rfl⟩ | ⟨d, cs, rfl, hd, hesc, -, -⟩
  · refine ⟨by omega, hplain (by omega), ?_⟩
    rcases hend with ⟨b, -, rfl⟩ | ⟨rfl, rfl | rfl⟩ <;> cases ht <;> rfl
  · exfalso
    rcases hend with ⟨b, hb, heq⟩ | ⟨-, heq | heq⟩
    · rw [← (List.cons.inj heq).1, hd] at hb
      cases hb
    · cases heq
    · exact hesc (List.cons.inj heq).1

/-- A raw value that reads as itself is plain, and the reading ends where it ends. -/
lemma plain_of_value {pad v tail rest r : List Char} (hpad : Blank pad)
    (hv : v ≠ []) (ht : Ends tail rest) (h : value (pad ++ (v ++ tail)) = some (v, r)) :
    Plain v ∧ r = rest := by
  rw [value_append hpad] at h
  rcases hskip : skipBlanks v with _ | ⟨c, v'⟩
  · exact absurd h (value_blank_ne hv ht (List.dropWhile_eq_nil_iff.mp hskip) r)
  have hsuffix : c :: v' <:+ v := hskip ▸ List.dropWhile_suffix isBlank
  have hlen := hsuffix.length_le
  have hcount : ∀ d, isBlank d = false → v.count d = (c :: v').count d := fun d hd =>
    hskip ▸ count_skipBlanks hd v
  unfold value at h
  rw [skipBlanks_append_of_eq hskip] at h
  dsimp only at h
  split at h
  case isTrue hq =>
    refine absurd h (quoted_ne ht hlen (fun d hd hquote => ?_) r)
    rw [hcount d hd, hq, List.count_cons_of_ne (Ne.symm hquote)]
  case isFalse hq =>
    have hbare : bare (c :: v' ++ tail) = (v, r) := Option.some.inj h
    obtain ⟨heq, hall, hr⟩ := bare_eq ht hlen hcount hbare
    have hself : c :: v' = v := hsuffix.eq_of_length heq.symm
    exact ⟨⟨hall, by rw [← hself]; simpa using hq⟩, hr⟩

lemma bare_plain {v tail rest : List Char} (hall : ∀ c ∈ v, isBlank c = false ∧ c ≠ '\\')
    (ht : Ends tail rest) : bare (v ++ tail) = (v, rest) := by
  induction v with
  | nil =>
    cases ht with
    | stop => rfl
    | next cs => exact bare_blank rfl _
  | cons c v ih =>
    obtain ⟨hblank, hesc⟩ := hall c List.mem_cons_self
    rw [List.cons_append, bare_cons hblank hesc, ih fun d hd => hall d (List.mem_cons_of_mem c hd)]

/-- A plain value reads as itself. -/
lemma value_plain {pad v tail rest : List Char} (hpad : Blank pad)
    (hv : v ≠ []) (ht : Ends tail rest) (h : Plain v) :
    value (pad ++ (v ++ tail)) = some (v, rest) := by
  rw [value_append hpad]
  obtain ⟨hall, hhead⟩ := h
  obtain ⟨c, v, rfl⟩ := List.exists_cons_of_ne_nil hv
  have hq : c ≠ '\'' := by simpa using hhead
  have hskip : skipBlanks (c :: v ++ tail) = c :: v ++ tail :=
    skipBlanks_cons (hall c List.mem_cons_self).1 (v ++ tail)
  unfold value
  rw [hskip]
  simp only [List.cons_append, hq, if_false]
  exact congrArg some (bare_plain hall ht)

/-! ### Strings put together from raw values -/

/-- A keyword that cannot be taken for a quoted or escaped value. -/
def Keyword (k : List Char) : Prop :=
  k ≠ [] ∧ (∀ c ∈ k, nameChar c = true) ∧ k.head? ≠ some '\\' ∧ k.head? ≠ some '\''

instance (k : List Char) : Decidable (Keyword k) :=
  @instDecidableAnd _ _ inferInstance
    (@instDecidableAnd _ _ (List.decidableBAll _ k) inferInstance)

/-- A keyword, the blanks after its `=` and a raw value. -/
structure Item where
  key : List Char
  pad : List Char
  val : List Char
  keyword : Keyword key := by decide
  blank : Blank pad := by decide

namespace Item

def setting (x : Item) : Setting := (x.key, x.val)

def text (x : Item) : List Char := x.key ++ '=' :: (x.pad ++ x.val)

end Item

/-- The items, a blank before each. -/
def following : List Item → List Char
  | [] => []
  | x :: xs => ' ' :: (x.text ++ following xs)

/-- The items, a blank between any two. -/
def render (xs : List Item) : List Char := (following xs).drop 1

lemma render_cons (x : Item) (xs : List Item) : render (x :: xs) = x.text ++ following xs := rfl

/-- How many blanks follow the `=` signs. -/
def pads : List Item → ℕ
  | [] => 0
  | x :: xs => x.pad.length + pads xs

lemma length_following (xs : List Item) :
    (following xs).length = cost (xs.map Item.setting) + pads xs := by
  induction xs with
  | nil => rfl
  | cons x xs ih =>
    simp only [following, Item.text, Item.setting, pads, List.length_cons, List.length_append,
      List.map_cons, cost_cons] at ih ⊢
    omega

lemma Item.key_eq (x : Item) : ∃ c k, x.key = c :: k ∧ isBlank c = false ∧ c ≠ '\\' ∧
    c ≠ '\'' := by
  obtain ⟨hne, hname, hesc, hquote⟩ := x.keyword
  obtain ⟨c, k, hk⟩ := List.exists_cons_of_ne_nil hne
  rw [hk] at hesc hquote
  have hc := hname c (hk ▸ List.mem_cons_self)
  simp only [nameChar, Bool.and_eq_true, Bool.not_eq_true'] at hc
  exact ⟨c, k, hk, hc.2, by simpa using hesc, by simpa using hquote⟩

lemma ends_following (xs : List Item) : Ends (following xs) (render xs) := by
  cases xs with
  | nil => exact .stop
  | cons x xs =>
    obtain ⟨c, k, hk, hblank, hesc, hquote⟩ := x.key_eq
    rw [render_cons, following, Item.text, hk]
    exact .next _ hblank hesc hquote

lemma setting_text (x : Item) (tail : List Char) :
    setting (x.text ++ tail) =
      (value (x.pad ++ (x.val ++ tail))).map fun r => ((x.key, r.1), r.2) := by
  have heq : nameChar '=' = false := rfl
  have hname := x.keyword.2.1
  have htake : (x.text ++ tail).takeWhile nameChar = x.key := by
    simp [Item.text, List.takeWhile_append_of_pos hname, heq]
  have hdrop : (x.text ++ tail).dropWhile nameChar = '=' :: (x.pad ++ (x.val ++ tail)) := by
    simp [Item.text, List.dropWhile_append_of_pos hname, heq]
  unfold setting
  rw [htake, hdrop, skipBlanks_cons rfl]
  simp

/-! ### What the settings mean -/

lemma lastValue_cons (k : List Char) (s : Setting) (ss : List Setting) :
    lastValue k (s :: ss) = (lastValue k ss).or (if s.1 = k then some s.2 else none) := rfl

lemma lastValue_cons_of_ne {k : List Char} {s : Setting} (h : s.1 ≠ k) (ss : List Setting) :
    lastValue k (s :: ss) = lastValue k ss := by
  rw [lastValue_cons, if_neg h, Option.or_none]

lemma lastValue_eq_none_iff {k : List Char} {ss : List Setting} :
    lastValue k ss = none ↔ k ∉ ss.map Prod.fst := by
  induction ss with
  | nil => simp [lastValue]
  | cons s ss ih =>
    rw [lastValue_cons, Option.or_eq_none_iff, ih, List.map_cons, List.mem_cons]
    by_cases h : s.1 = k
    · simp [h]
    · simp [h, Ne.symm h]

lemma lastValue_cons_self {k : List Char} {ss : List Setting} (h : k ∉ ss.map Prod.fst)
    (v : List Char) : lastValue k ((k, v) :: ss) = some v := by
  rw [lastValue_cons, lastValue_eq_none_iff.mpr h, if_pos rfl]
  rfl

lemma lastValue_mem {k v : List Char} {ss : List Setting} (h : lastValue k ss = some v) :
    (k, v) ∈ ss := by
  induction ss with
  | nil => cases h
  | cons s ss ih =>
    rcases hss : lastValue k ss with _ | w
    · rw [lastValue_cons, hss, Option.none_or] at h
      by_cases hk : s.1 = k
      · rw [if_pos hk] at h
        obtain rfl : s = (k, v) := Prod.ext hk (Option.some.inj h)
        exact List.mem_cons_self
      · simp [hk] at h
    · rw [lastValue_cons, hss, Option.some_or] at h
      exact List.mem_cons_of_mem s (ih (hss.trans h))

lemma lastValue_of_mem {t : Setting} {ss : List Setting} (hnodup : (ss.map Prod.fst).Nodup)
    (h : t ∈ ss) : lastValue t.1 ss = some t.2 := by
  induction ss with
  | nil => cases h
  | cons s ss ih =>
    obtain ⟨hs, hnodup⟩ := List.nodup_cons.mp hnodup
    rcases List.mem_cons.mp h with rfl | h
    · exact lastValue_cons_self hs t.2
    · have hne : s.1 ≠ t.1 := fun heq => hs (heq ▸ List.mem_map_of_mem h)
      rw [lastValue_cons_of_ne hne]
      exact ih hnodup h

lemma Means.cons {ss expected : List Setting} (h : Means ss expected) (s : Setting) :
    Means (s :: ss) (s :: expected) := by
  intro k
  rw [lastValue_cons, lastValue_cons, h k]

/-- If the first keyword is given again, everything is. -/
lemma Means.subset {s : Setting} {ss expected : List Setting} (h : Means (s :: ss) expected)
    (hnodup : (expected.map Prod.fst).Nodup) (hs : s.1 ∈ ss.map Prod.fst) : expected ⊆ ss := by
  intro t ht
  have hlast : lastValue t.1 (s :: ss) = some t.2 := (h t.1).trans (lastValue_of_mem hnodup ht)
  by_cases heq : s.1 = t.1
  · obtain ⟨v, hv⟩ := Option.ne_none_iff_exists'.mp fun hnone =>
      lastValue_eq_none_iff.mp hnone (heq ▸ hs)
    rw [lastValue_cons, hv, Option.some_or] at hlast
    exact lastValue_mem (hv.trans hlast)
  · rw [lastValue_cons_of_ne heq] at hlast
    exact lastValue_mem hlast

/-- If it is not, its value is the first one expected, and the rest means the rest. -/
lemma Means.tail {k v w : List Char} {ss expected : List Setting}
    (h : Means ((k, v) :: ss) ((k, w) :: expected)) (hk : k ∉ ss.map Prod.fst)
    (hexp : k ∉ expected.map Prod.fst) : v = w ∧ Means ss expected := by
  constructor
  · have := h k
    rw [lastValue_cons_self hk, lastValue_cons_self hexp] at this
    exact Option.some.inj this
  · intro j
    by_cases hj : k = j
    · rw [← hj, lastValue_eq_none_iff.mpr hk, lastValue_eq_none_iff.mpr hexp]
    · have := h j
      rwa [lastValue_cons_of_ne hj, lastValue_cons_of_ne hj] at this

lemma cost_perm {l m : List Setting} (h : l.Perm m) : cost l = cost m := by
  induction h with
  | nil => rfl
  | cons s _ ih => rw [cost_cons, cost_cons, ih]
  | swap s t l => simp only [cost_cons]; omega
  | trans _ _ ih₁ ih₂ => exact ih₁.trans ih₂

lemma cost_sublist {l m : List Setting} (h : l.Sublist m) : cost l ≤ cost m := by
  induction h with
  | slnil => exact le_rfl
  | cons s _ ih => rw [cost_cons]; omega
  | cons_cons s _ ih => simp only [cost_cons]; omega

lemma cost_le_of_subset {ss expected : List Setting} (hnodup : expected.Nodup)
    (h : expected ⊆ ss) : cost expected ≤ cost ss := by
  obtain ⟨l, hperm, hsub⟩ := hnodup.subperm h
  calc cost expected = cost l := (cost_perm hperm).symm
    _ ≤ cost ss := cost_sublist hsub

/-! ### When such a string means what it was put together from -/

lemma parseFrom_text (x : Item) (fuel : ℕ) (tail : List Char) :
    parseFrom (fuel + 1) (x.text ++ tail) =
      (value (x.pad ++ (x.val ++ tail))).bind fun r =>
        (parseFrom fuel r.2).map fun ss => (x.key, r.1) :: ss := by
  obtain ⟨c, k, hk, hblank, -, -⟩ := x.key_eq
  have htext : x.text ++ tail = c :: (k ++ '=' :: (x.pad ++ x.val) ++ tail) := by
    rw [Item.text, hk]
    rfl
  rw [htext, parseFrom_cons hblank, ← htext, setting_text, Option.bind_map]
  rfl

lemma length_render_lt (x : Item) (xs : List Item) :
    (render xs).length < (render (x :: xs)).length := by
  have hle : (render xs).length ≤ (following xs).length := by
    rw [render, List.length_drop]
    omega
  rw [render_cons, List.length_append, Item.text, List.length_append, List.length_cons]
  omega

/-- A first keyword that is given again takes more characters than there are. -/
lemma not_given_again {x : Item} {xs : List Item} {fuel : ℕ} {v : List Char}
    {ss : List Setting} (hnodup : ((x :: xs).map Item.key).Nodup)
    (hpads : pads (x :: xs) < x.key.length + 2)
    (hparse : parseFrom fuel (render (x :: xs)) = some ((x.key, v) :: ss))
    (hmeans : Means ((x.key, v) :: ss) ((x :: xs).map Item.setting)) :
    x.key ∉ ss.map Prod.fst := by
  intro hagain
  have hkeys : (((x :: xs).map Item.setting).map Prod.fst).Nodup := by
    rw [List.map_map]
    exact hnodup
  have hcost : cost ((x :: xs).map Item.setting) ≤ cost ss :=
    cost_le_of_subset (List.Nodup.of_map _ hkeys) (hmeans.subset hkeys hagain)
  have hlen := length_following (x :: xs)
  have hcons : (following (x :: xs)).length = (render (x :: xs)).length + 1 := rfl
  have hbound := parseFrom_cost hparse
  rw [cost_cons] at hbound
  dsimp only at hbound
  omega

/-- Reading back a string of items, each keyword given once and hardly any padding. -/
lemma parseFrom_render {xs : List Item} (hval : ∀ x ∈ xs, x.val ≠ [])
    (hnodup : (xs.map Item.key).Nodup) (hpads : ∀ x ∈ xs, pads xs < x.key.length + 2)
    {fuel : ℕ} (hfuel : (render xs).length < fuel) :
    (∃ ss, parseFrom fuel (render xs) = some ss ∧ Means ss (xs.map Item.setting)) ↔
      ∀ x ∈ xs, Plain x.val := by
  induction xs generalizing fuel with
  | nil =>
    obtain ⟨fuel, rfl⟩ := Nat.exists_eq_succ_of_ne_zero (Nat.ne_zero_of_lt hfuel)
    simp [render, following, parseFrom, skipBlanks, Means]
  | cons x xs ih =>
    obtain ⟨fuel, rfl⟩ := Nat.exists_eq_succ_of_ne_zero (Nat.ne_zero_of_lt hfuel)
    obtain ⟨hx, hval'⟩ := List.forall_mem_cons.mp hval
    have hends := ends_following xs
    obtain ⟨hkey, hnodup'⟩ := List.nodup_cons.mp hnodup
    have hkey' : x.key ∉ (xs.map Item.setting).map Prod.fst := by
      rw [List.map_map]
      exact hkey
    have hpads' : ∀ y ∈ xs, pads xs < y.key.length + 2 := by
      intro y hy
      have hle : pads xs ≤ pads (x :: xs) := Nat.le_add_left _ _
      exact lt_of_le_of_lt hle (hpads y (List.mem_cons_of_mem x hy))
    have hfuel' : (render xs).length < fuel := by
      have := length_render_lt x xs
      omega
    have ih := ih hval' hnodup' hpads' hfuel'
    constructor
    · rintro ⟨ss, hss, hmeans⟩
      have hbind := (parseFrom_text x fuel (following xs)).symm.trans hss
      obtain ⟨⟨v, r⟩, hv, hmap⟩ := Option.bind_eq_some_iff.mp hbind
      obtain ⟨ss, hss', rfl⟩ := Option.map_eq_some_iff.mp hmap
      have honce := not_given_again hnodup (hpads x List.mem_cons_self) hss hmeans
      obtain ⟨rfl, hmeans'⟩ := hmeans.tail honce hkey'
      obtain ⟨hplain, rfl⟩ := plain_of_value x.blank hx hends hv
      exact List.forall_mem_cons.mpr ⟨hplain, ih.mp ⟨ss, hss', hmeans'⟩⟩
    · intro hplain
      have hv := value_plain x.blank hx hends (hplain x List.mem_cons_self)
      obtain ⟨ss, hss, hmeans⟩ := ih.mpr fun y hy => hplain y (List.mem_cons_of_mem x hy)
      refine ⟨(x.key, x.val) :: ss, ?_, hmeans.cons _⟩
      rw [render_cons, parseFrom_text, hv, Option.bind_some, hss]
      rfl

/-- **A string of raw values means what it was put together from exactly when every value is
one that needs no quoting.** -/
theorem parse_render_iff {xs : List Item} (hval : ∀ x ∈ xs, x.val ≠ [])
    (hnodup : (xs.map Item.key).Nodup) (hpads : ∀ x ∈ xs, pads xs < x.key.length + 2) :
    (∃ ss, parse (render xs) = some ss ∧ Means ss (xs.map Item.setting)) ↔
      ∀ x ∈ xs, Plain x.val :=
  parseFrom_render hval hnodup hpads (Nat.lt_succ_self _)

example : parse "a = 'b c' d=e\\ f a=g".toList =
    some [("a".toList, "b c".toList), ("d".toList, "e f".toList), ("a".toList, "g".toList)] := by
  decide +kernel

end DbCoursework.Conninfo

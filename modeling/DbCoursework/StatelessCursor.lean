import DbCoursework.Cursor
import Mathlib.Data.List.Forall2

/-!
Stateless cursors.

A `stateless_cursor` is asked for rows by their numbers, from 0 on, in either direction. What it
returns does not depend on what it was asked before.
-/

namespace DbCoursework.StatelessCursor

open DbCoursework.Cursor

variable {σ α : Type*} (exec : Backend σ α)

/-- `obtain_stateless_cursor_size`. -/
def obtainSize (s : CursorState σ) : Except CursorError ℤ × CursorState σ :=
  if s.place.endpos = -1 then
    match move exec s all with
    | (.error e, s) => (.error e, s)
    | (.ok _, s) => (.ok (s.place.endpos - 1), s)
  else (.ok (s.place.endpos - 1), s)

/-- The last two calls of `stateless_cursor_retrieve`. -/
def moveAndFetch (s : CursorState σ) (skip rows : ℤ) :
    Except CursorError (List α) × CursorState σ :=
  match move exec s skip with
  | (.error e, s) => (.error e, s)
  | (.ok _, s) =>
    match fetch exec s rows with
    | (.error e, s) => (.error e, s)
    | (.ok (r, _), s) => (.ok r, s)

/-- `retrieve`, with the `stateless_cursor_retrieve` it calls. -/
def retrieve (s : CursorState σ) (beginPos endPos : ℤ) :
    Except CursorError (List α) × CursorState σ :=
  match obtainSize exec s with
  | (.error e, s) => (.error e, s)
  | (.ok size, s) =>
    if beginPos < 0 ∨ beginPos > size then
      (.error (.rangeError "Starting position out of range"), s)
    else
      let endPos := if endPos < -1 then -1 else if endPos > size then size else endPos
      if beginPos = endPos then (.ok [], s)
      else
        let direction : ℤ := if beginPos < endPos then 1 else -1
        moveAndFetch exec s ((beginPos - direction) - (s.place.pos - 1)) (endPos - beginPos)

/-- The constructor that adopts a cursor puts it in a known position. -/
def adopt (server : σ) : Except CursorError Unit × CursorState σ :=
  ((move exec (adopted server) backwardAll).1.map fun _ => (),
    (move exec (adopted server) backwardAll).2)

/-! ### What is asked for -/

/-- The rows from `b` on up to `e`, which is not included: in ascending order if `b ≤ e`, else
in descending order. -/
def rowsBetween (rows : List α) (b e : ℤ) : List α :=
  if b ≤ e then (rows.take e.toNat).drop b.toNat
  else ((rows.take (b + 1).toNat).drop (e + 1).toNat).reverse

/-- The end a call really has: one from behind the last row backward goes one row too far. -/
def lastOf (n b e : ℤ) : ℤ := if b = n ∧ 0 ≤ e ∧ e < n then e - 1 else e

/-- What a call returns, whenever it is made. -/
def answer (rows : List α) (b e : ℤ) : Except CursorError (List α) :=
  if b < 0 ∨ b > rows.length then .error (.rangeError "Starting position out of range")
  else .ok (rowsBetween rows b (lastOf rows.length b e))

section Calls

variable {exec : Backend σ α} {cursor : σ → Option (SqlCursor α)} {able : Prop}

/-- The same rows, and scrolled as before. -/
def Alike (c' c : SqlCursor α) : Prop := c'.rows = c.rows ∧ c'.scroll = c.scroll

lemma alike_shift (c : SqlCursor α) (k : ℤ) : Alike (c.shift k).2 c :=
  ⟨c.shift_rows k, c.shift_scroll k⟩

lemma Alike.trans {c c' c'' : SqlCursor α} (h : Alike c'' c') (h' : Alike c' c) : Alike c'' c :=
  ⟨h.1.trans h'.1, h.2.trans h'.2⟩

lemma obtainSize_spec (hexec : Documented exec cursor) (hable : able → Willing exec cursor)
    {s : CursorState σ} {c : SqlCursor α} (hs : Known cursor able s c) :
    (∃ s' c', obtainSize exec s = (.ok (c.rows.length : ℤ), s') ∧ Known cursor able s' c' ∧
      Alike c' c) ∨
    ∃ e s', obtainSize exec s = (.error (.execError e), s') ∧ ¬ able ∧ Known cursor able s' c := by
  by_cases hend : s.place.endpos = -1
  · have hforward : able → all < 0 → c.scroll = true := fun _ h => absurd h (by decide)
    obtain ⟨s', hmove, hs'⟩ | ⟨e, s', hmove, hnot, hs'⟩ := move_spec hexec hable hs hforward
    · have hfits : (c.rows.length : ℤ) < 2 ^ 31 - 2 := hs.fits
      have hle := c.position_le
      obtain ⟨hp, -, hrows⟩ := c.shift_forward (show (0 : ℤ) < all by decide)
      have hall : all.natAbs = 2 ^ 31 - 2 := by decide
      have hat : (c.shift all).2.position = (c.shift all).2.rows.length + 1 := by
        rw [hrows]
        omega
      have hknown := hs'.tracks.endpos.resolve_left (hs'.tracks.seen hat)
      rw [hrows] at hknown
      refine .inl ⟨s', _, ?_, hs', alike_shift c all⟩
      rw [obtainSize, if_pos hend, hmove]
      simp only [hknown]
      congr 2
      omega
    · refine .inr ⟨e, s', ?_, hnot, hs'⟩
      rw [obtainSize, if_pos hend, hmove]
  · refine .inl ⟨s, c, ?_, hs, rfl, rfl⟩
    rw [obtainSize, if_neg hend, hs.tracks.endpos.resolve_left hend]
    congr 2
    omega

/-- Two movements one after the other. -/
lemma moveAndFetch_spec (hexec : Documented exec cursor) (hable : able → Willing exec cursor)
    {s : CursorState σ} {c : SqlCursor α} (hs : Known cursor able s c)
    (hscroll : able → c.scroll = true) (skip rows : ℤ) :
    ∃ r s' c', moveAndFetch exec s skip rows = (r, s') ∧ Known cursor able s' c' ∧ Alike c' c ∧
      (r = .ok ((c.shift skip).2.shift rows).1 ∨ (∃ e, r = .error (.execError e)) ∧ ¬ able) := by
  obtain ⟨s1, hmove, hs1⟩ | ⟨e, s1, hmove, hnot, hs1⟩ :=
    move_spec hexec hable hs (k := skip) fun ha _ => hscroll ha
  · have hscroll1 : able → rows < 0 → (c.shift skip).2.scroll = true := by
      intro ha _
      rw [c.shift_scroll]
      exact hscroll ha
    obtain ⟨s2, hfetch, hs2⟩ | ⟨e, s2, hfetch, hnot, hs2⟩ := fetch_spec hexec hable hs1 hscroll1
    · refine ⟨_, s2, _, ?_, hs2, (alike_shift _ rows).trans (alike_shift c skip), .inl rfl⟩
      rw [moveAndFetch, hmove]
      simp only [hfetch]
    · refine ⟨_, s2, _, ?_, hs2, alike_shift c skip, .inr ⟨⟨e, rfl⟩, hnot⟩⟩
      rw [moveAndFetch, hmove]
      simp only [hfetch]
  · refine ⟨_, s1, c, ?_, hs1, ⟨rfl, rfl⟩, .inr ⟨⟨e, rfl⟩, hnot⟩⟩
    rw [moveAndFetch, hmove]

end Calls

/-- A movement from where the cursor is to `p`, or to the end if `p` is beyond it. -/
lemma shift_to {c : SqlCursor α} {p : ℤ} (hp : 0 ≤ p) :
    ((c.shift (p - c.position)).2.position : ℤ) = min p (c.rows.length + 1) := by
  have hle := c.position_le
  rcases Int.lt_or_le (p - c.position) 0 with hneg | hge
  · have h := (c.shift_backward hneg).1
    omega
  · rcases hge.lt_or_eq with hpos | hzero
    · have h := (c.shift_forward hpos).1
      omega
    · rw [← hzero, SqlCursor.shift_zero]
      simp only
      omega

/-- Rows ahead of position `b`. -/
lemma rows_ahead {c : SqlCursor α} {b e : ℤ} (hb : (c.position : ℤ) = b) (h : b < e) :
    (c.shift (e - b)).1 = rowsBetween c.rows b e := by
  have hat : c.position = b.toNat := by omega
  have hcount : (e - b).natAbs = e.toNat - b.toNat := by omega
  calc (c.shift (e - b)).1
      = (c.rows.drop c.position).take (e - b).natAbs := by
        rw [SqlCursor.shift, if_neg (by omega)]
        rfl
    _ = (c.rows.drop b.toNat).take (e.toNat - b.toNat) := by rw [hat, hcount]
    _ = rowsBetween c.rows b e := by rw [rowsBetween, if_pos (by omega), List.drop_take]

/-- Rows behind a position, which are those from the one before it on. -/
lemma rows_behind {c : SqlCursor α} {b e : ℤ} (hb : (c.position : ℤ) = b + 2) (he : -1 ≤ e)
    (h : e < b) : (c.shift (e - b)).1 = rowsBetween c.rows b e := by
  have hle := c.position_le
  have hlen : (c.rows.take (c.position - 1)).length = c.position - 1 := by
    rw [List.length_take]
    omega
  have hat : c.position - 1 = (b + 1).toNat := by omega
  have hcount : (b + 1).toNat - (e - b).natAbs = (e + 1).toNat := by omega
  calc (c.shift (e - b)).1
      = (c.rows.take (c.position - 1)).reverse.take (e - b).natAbs := by
        rw [SqlCursor.shift, if_pos (by omega)]
        rfl
    _ = ((c.rows.take (c.position - 1)).drop (c.position - 1 - (e - b).natAbs)).reverse := by
        rw [List.take_reverse, hlen]
    _ = rowsBetween c.rows b e := by rw [rowsBetween, if_neg (by omega), hat, hcount]

/-- And rows behind the end, the last one first. -/
lemma rows_behind_end {c : SqlCursor α} {e : ℤ} (hb : c.position = c.rows.length + 1)
    (he : -1 ≤ e) (h : e < c.rows.length) :
    (c.shift (e - c.rows.length)).1 = (c.rows.drop e.toNat).reverse := by
  have hcount : c.rows.length - (e - c.rows.length).natAbs = e.toNat := by omega
  calc (c.shift (e - c.rows.length)).1
      = (c.rows.take (c.position - 1)).reverse.take (e - c.rows.length).natAbs := by
        rw [SqlCursor.shift, if_pos (by omega)]
        rfl
    _ = (c.rows.drop (c.rows.length - (e - c.rows.length).natAbs)).reverse := by
        rw [hb, Nat.add_sub_cancel, List.take_length, List.take_reverse]
    _ = (c.rows.drop e.toNat).reverse := by rw [hcount]

/-- What is returned then: one row more than was asked for, unless all of them were. -/
lemma rowsBetween_end {rows : List α} {e : ℤ} (h : e < rows.length) :
    rowsBetween rows rows.length (lastOf rows.length rows.length e) =
      (rows.drop (if e < -1 then -1 else e).toNat).reverse := by
  have hall : rows.take ((rows.length : ℤ) + 1).toNat = rows :=
    List.take_of_length_le (by omega)
  by_cases he : 0 ≤ e
  · rw [lastOf, if_pos ⟨rfl, he, h⟩, rowsBetween, if_neg (by omega), hall, if_neg (by omega)]
    congr 3
    omega
  · rw [lastOf, if_neg (by omega), rowsBetween, if_neg (by omega), hall]
    congr 2
    split <;> omega

lemma rowsBetween_clamp {rows : List α} {b e : ℤ} (hb : 0 ≤ b) (hb' : b ≤ rows.length) :
    rowsBetween rows b (if e < -1 then -1 else if e > rows.length then rows.length else e) =
      rowsBetween rows b e := by
  split
  · next he =>
    rw [rowsBetween, rowsBetween, if_neg (by omega), if_neg (by omega)]
    congr 2
    omega
  · split
    · next he =>
      rw [rowsBetween, rowsBetween, if_pos (by omega), if_pos (by omega)]
      congr 1
      rw [List.take_of_length_le, List.take_of_length_le] <;> omega
    · rfl

section Answers

variable {exec : Backend σ α} {cursor : σ → Option (SqlCursor α)} {able : Prop}

/-- **One call.** It returns the rows asked for, and leaves a cursor whose position is known; or
a command of it fails. -/
lemma retrieve_spec (hexec : Documented exec cursor) (hable : able → Willing exec cursor)
    {s : CursorState σ} {c : SqlCursor α} (hs : Known cursor able s c)
    (hscroll : able → c.scroll = true) (b e : ℤ) :
    ∃ r s' c', retrieve exec s b e = (r, s') ∧ Known cursor able s' c' ∧ Alike c' c ∧
      (r = answer c.rows b e ∨ (∃ what, r = .error (.execError what)) ∧ ¬ able) := by
  obtain ⟨s1, c1, hsize, hs1, halike⟩ | ⟨what, s1, hsize, hnot, hs1⟩ :=
    obtainSize_spec hexec hable hs
  swap
  · exact ⟨_, s1, c, by rw [retrieve, hsize], hs1, ⟨rfl, rfl⟩, .inr ⟨⟨what, rfl⟩, hnot⟩⟩
  rw [retrieve, hsize, answer, ← halike.1]
  simp only
  by_cases hrange : b < 0 ∨ b > c1.rows.length
  · rw [if_pos hrange, if_pos hrange]
    exact ⟨_, s1, c1, rfl, hs1, halike, .inl rfl⟩
  rw [if_neg hrange, if_neg hrange]
  rw [not_or, not_lt, not_lt] at hrange
  obtain ⟨hb, hb'⟩ := hrange
  have hclamp := rowsBetween_clamp (e := e) hb hb'
  have hclamp' : ∀ e', e' = (if e < -1 then -1 else if e > c1.rows.length then
      (c1.rows.length : ℤ) else e) → -1 ≤ e' ∧ e' ≤ c1.rows.length := by
    rintro e' rfl
    split_ifs <;> omega
  generalize he' : (if e < -1 then -1 else if e > c1.rows.length then
    (c1.rows.length : ℤ) else e) = e' at hclamp ⊢
  obtain ⟨hlow, hhigh⟩ := hclamp' e' he'.symm
  have hpos1 := hs1.tracks.pos
  have hscroll1 : able → c1.scroll = true := fun ha => halike.2.trans (hscroll ha)
  rcases lt_trichotomy b e' with hlt | rfl | hgt
  · rw [if_neg (by omega), if_pos hlt, show b - 1 - (s1.place.pos - 1) = b - c1.position by omega]
    obtain ⟨r, s2, c2, hmove, hs2, halike2, hr⟩ :=
      moveAndFetch_spec hexec hable hs1 hscroll1 (b - c1.position) (e' - b)
    have hat := shift_to (c := c1) hb
    have hresult := rows_ahead (c := (c1.shift (b - c1.position)).2) (by omega) hlt
    have hlast : lastOf c1.rows.length b e = e := if_neg (by omega)
    refine ⟨r, s2, c2, hmove, hs2, halike2.trans halike, hr.imp_left ?_⟩
    rintro rfl
    rw [hresult, c1.shift_rows, hlast, hclamp]
  · have hlast : lastOf c1.rows.length b e = e := by
      refine if_neg ?_
      rintro ⟨rfl, h0, h1⟩
      split_ifs at he' <;> omega
    refine ⟨.ok [], s1, c1, if_pos rfl, hs1, halike, .inl ?_⟩
    rw [hlast, ← hclamp]
    simp [rowsBetween]
  · rw [if_neg (by omega), if_neg (by omega), show b - -1 - (s1.place.pos - 1) =
      b + 2 - c1.position by omega]
    obtain ⟨r, s2, c2, hmove, hs2, halike2, hr⟩ :=
      moveAndFetch_spec hexec hable hs1 hscroll1 (b + 2 - c1.position) (e' - b)
    have hat := shift_to (c := c1) (show 0 ≤ b + 2 by omega)
    have hrows2 := c1.shift_rows (b + 2 - c1.position)
    have hresult : ((c1.shift (b + 2 - c1.position)).2.shift (e' - b)).1 =
        rowsBetween c1.rows b (lastOf c1.rows.length b e) := by
      rcases hb'.lt_or_eq with hinner | rfl
      · have hlast : lastOf c1.rows.length b e = e := if_neg (by omega)
        rw [rows_behind (by omega) hlow hgt, hrows2, hclamp, hlast]
      · have he : e < c1.rows.length := by
          split_ifs at he' <;> omega
        have hsmall : (if e < -1 then -1 else e) = e' := by
          rw [← he', if_neg (show ¬ e > (c1.rows.length : ℤ) by omega)]
        have hend := rows_behind_end (e := e')
          (c := (c1.shift (c1.rows.length + 2 - c1.position)).2)
          (by rw [hrows2]; omega) hlow (by rw [hrows2]; omega)
        rw [hrows2] at hend
        rw [hend, rowsBetween_end he, hsmall]
    refine ⟨r, s2, c2, hmove, hs2, halike2.trans halike, hr.imp_left ?_⟩
    rintro rfl
    rw [hresult]

/-! ### Calls one after another -/

inductive Call
  | size
  | retrieve (beginPos endPos : ℤ)

inductive Answer (α : Type*)
  | size (n : Except CursorError ℤ)
  | rows (r : Except CursorError (List α))

variable (exec) in
/-- What the calls return, one after another. -/
def answers (s : CursorState σ) : List Call → List (Answer α)
  | [] => []
  | .size :: calls => .size (obtainSize exec s).1 :: answers (obtainSize exec s).2 calls
  | .retrieve b e :: calls =>
    .rows (retrieve exec s b e).1 :: answers (retrieve exec s b e).2 calls

/-- What a call returns of the rows, whatever was called before. -/
def Call.answer (rows : List α) : Call → Answer α
  | .size => .size (.ok rows.length)
  | .retrieve b e => .rows (StatelessCursor.answer rows b e)

/-- The call threw what a command of it did. -/
def Answer.Failed : Answer α → Prop
  | .size n => ∃ what, n = .error (.execError what)
  | .rows r => ∃ what, r = .error (.execError what)

lemma answers_known (hexec : Documented exec cursor) (hable : able → Willing exec cursor)
    {s : CursorState σ} {c : SqlCursor α} (hs : Known cursor able s c)
    (hscroll : able → c.scroll = true) (calls : List Call) :
    List.Forall₂ (fun call a => a = call.answer c.rows ∨ a.Failed ∧ ¬ able) calls
      (answers exec s calls) := by
  induction calls generalizing s c with
  | nil => exact .nil
  | cons call calls ih =>
    cases call with
    | size =>
      obtain ⟨s', c', h, hs', hrows, hscroll'⟩ | ⟨what, s', h, hnot, hs'⟩ :=
        obtainSize_spec hexec hable hs
      · rw [answers, h, ← hrows]
        exact .cons (.inl rfl) (ih hs' fun ha => hscroll'.trans (hscroll ha))
      · rw [answers, h]
        exact .cons (.inr ⟨⟨what, rfl⟩, hnot⟩) (ih hs' hscroll)
    | retrieve b e =>
      obtain ⟨r, s', c', h, hs', ⟨hrows, hscroll'⟩, hr⟩ := retrieve_spec hexec hable hs hscroll b e
      rw [answers, h]
      rw [← hrows] at hr ⊢
      refine .cons ?_ (ih hs' fun ha => hscroll'.trans (hscroll ha))
      rcases hr with rfl | ⟨hfailed, hnot⟩
      · exact .inl rfl
      · exact .inr ⟨hfailed, hnot⟩

/-- The answers of a server that fails at nothing. -/
lemma answers_able (hexec : Documented exec cursor) (hwilling : Willing exec cursor)
    {s : CursorState σ} {c : SqlCursor α} (hs : Known cursor True s c) (hscroll : c.scroll = true)
    (calls : List Call) : answers exec s calls = calls.map (Call.answer c.rows) := by
  have h := answers_known hexec (fun _ => hwilling) hs (fun _ => hscroll) calls
  generalize answers exec s calls = as at h
  induction h with
  | nil => rfl
  | cons ha _ ih => rw [ha.resolve_right fun h => h.2 trivial, ih, List.map_cons]

lemma adopt_error {server server' : σ} {e : String}
    (h : exec .move (stridestring backwardAll) server = (.error e, server')) :
    adopt exec server = (.error (.execError e), ⟨(adopted server).place, server'⟩) := by
  have hmove : move exec (adopted server) backwardAll =
      (.error (.execError e), ⟨(adopted server).place, server'⟩) := by
    rw [move, if_neg (by decide), show (adopted server).server = server from rfl, h]
  rw [adopt, hmove]
  rfl

/-- An adopted cursor is put in front of the first row, wherever it was. -/
lemma adopt_spec (hexec : Documented exec cursor) (hable : able → Willing exec cursor)
    {server : σ} {c : SqlCursor α} (hs : Usable cursor able server c) (hfits : Fits c)
    (hscroll : able → c.scroll = true) :
    (∃ s c', adopt exec server = (.ok (), s) ∧ Known cursor able s c' ∧ Alike c' c) ∨
    ∃ e s, adopt exec server = (.error (.execError e), s) ∧ ¬ able := by
  have hlost : Lost (adopted server).place := ⟨rfl, show (0 : ℤ) ≠ -1 by decide, rfl⟩
  have hneg : backwardAll < 0 := by decide
  have hlen : (c.rows.length : ℤ) < 2 ^ 31 - 2 := hfits
  have hle := c.position_le
  have hat : (c.shift backwardAll).2.position = 0 := by
    have habs : backwardAll.natAbs = 2 ^ 31 - 1 := by decide
    have hp := (c.shift_backward hneg).1
    omega
  obtain ⟨r, server', h, hof, hcur⟩ | ⟨e, server', h, hnot, -⟩ :=
    exec_spec hexec hable hs hfits (k := backwardAll) (fun ha _ => hscroll ha) .move
  · have hcount : r.affectedRows = (c.shift backwardAll).1.length := hof
    obtain ⟨d, place, hadjust, ⟨hne, -⟩ | ⟨-, htracks⟩⟩ := adjust_lost hlost c (ne_of_lt hneg)
    · exact absurd hat hne
    · refine .inl ⟨⟨place, server'⟩, _, ?_, ⟨htracks, hfits.shift backwardAll, .inl hcur⟩,
        alike_shift c backwardAll⟩
      have hmove : move exec (adopted server) backwardAll =
          (.ok (r.affectedRows, d), ⟨place, server'⟩) := by
        rw [move, if_neg (ne_of_lt hneg), show (adopted server).server = server from rfl, h]
        simp only [hcount, hadjust]
      rw [adopt, hmove]
      rfl
  · exact .inr ⟨e, _, adopt_error h, hnot⟩

/-- Nothing is adopted where no cursor is. -/
lemma adopt_gone (hexec : Documented exec cursor) {server : σ} (hs : cursor server = none)
    {s : CursorState σ} : adopt exec server ≠ (.ok (), s) := by
  rcases h : exec .move (stridestring backwardAll) server with ⟨e | r, server'⟩
  · rw [adopt_error h]
    rintro ⟨⟩
  · obtain ⟨c, hc, -⟩ := hexec.carried _ _ _ _ _ h
    cases hs.symm.trans hc

end Answers

end DbCoursework.StatelessCursor

import DbCoursework.Runs
import Mathlib.Algebra.Order.Group.Unbundled.Int
import Mathlib.Algebra.Order.Ring.Int
import Mathlib.Tactic.Ring

/-!
Cursors.

`sql_cursor` keeps count of where the cursor of the server stands, from the number of rows that
each movement reports; a short count says that an end was hit, but not how far it was. The server
is a parameter: it does what is documented of `FETCH` and `MOVE`, or fails.
-/

namespace DbCoursework.Cursor

open DbCoursework.Runs

/-! ### Commands and what is documented of them -/

def all : ℤ := 2 ^ 31 - 2

def backwardAll : ℤ := -2 ^ 31 + 1

inductive Stride
  | all
  | backwardAll
  | rows (n : ℤ)
  deriving DecidableEq

def stridestring (n : ℤ) : Stride :=
  if all ≤ n then .all else if n ≤ backwardAll then .backwardAll else .rows n

inductive Command
  | fetch
  | move

/-- The rows of a result, and the number that the command reports. -/
structure Result (α : Type*) where
  rows : List α
  affectedRows : ℕ

/-- What `connection::exec` returns or throws for a command, and the server after it. -/
abbrev Backend (σ α : Type*) := Command → Stride → σ → Except String (Result α) × σ

/-- Rows are numbered from 1; position 0 is before the first row, and there is one behind the
last. Without `scroll` the cursor only goes forward. -/
structure SqlCursor (α : Type*) where
  rows : List α
  position : ℕ
  position_le : position ≤ rows.length + 1
  scroll : Bool

def Stride.Back : Stride → Prop
  | .all => False
  | .backwardAll => True
  | .rows n => n < 0

instance : DecidablePred Stride.Back
  | .all => isFalse id
  | .backwardAll => isTrue trivial
  | .rows n => inferInstanceAs (Decidable (n < 0))

namespace SqlCursor

variable {α : Type*} (c : SqlCursor α)

/-- The rows in front of the cursor, and those behind it, the nearest first. -/
def ahead : List α := c.rows.drop c.position

def behind : List α := (c.rows.take (c.position - 1)).reverse

def forward (k : ℕ) : List α × SqlCursor α :=
  (c.ahead.take k, { c with
    position := min (c.position + k) (c.rows.length + 1)
    position_le := Nat.min_le_right .. })

def backward (k : ℕ) : List α × SqlCursor α :=
  (c.behind.take k, { c with
    position := c.position - k
    position_le := Nat.le_trans (Nat.sub_le ..) c.position_le })

/-- The rows that a command passes, and where it ends. -/
def exec : Stride → List α × SqlCursor α
  | .all => c.forward (c.rows.length + 1)
  | .backwardAll => c.backward (c.rows.length + 1)
  | .rows n => if n < 0 then c.backward n.natAbs else c.forward n.natAbs

def Allows (st : Stride) : Prop := st.Back → c.scroll = true

instance : DecidablePred c.Allows := fun st =>
  inferInstanceAs (Decidable (st.Back → c.scroll = true))

end SqlCursor

/-- `FETCH` returns the rows it passes, and `MOVE` counts them. -/
def Result.Of {α : Type*} (r : Result α) (passed : List α) : Command → Prop
  | .fetch => r.rows = passed
  | .move => r.affectedRows = passed.length

section Server

variable {σ α : Type*} (exec : Backend σ α) (cursor : σ → Option (SqlCursor α))

/-- What the server's documentation says of `FETCH` and `MOVE`, `cursor` being the cursor as long
as it can be used: a command that is carried out, on a cursor that allows it, passes the rows up to
where it ends (`carried`), and one that fails leaves the cursor where it was, or unusable as in an
aborted transaction (`failed`). -/
structure Documented : Prop where
  carried : ∀ cmd st s r s', exec cmd st s = (.ok r, s') → ∃ c, cursor s = some c ∧ c.Allows st ∧
    r.Of (c.exec st).1 cmd ∧ cursor s' = some (c.exec st).2
  failed : ∀ cmd st s e s', exec cmd st s = (.error e, s') → cursor s' = none ∨ cursor s' = cursor s

/-- All that a cursor allows is carried out. -/
def Willing : Prop :=
  ∀ cmd st s c, cursor s = some c → c.Allows st → ∃ r s', exec cmd st s = (.ok r, s')

end Server

/-- A server that is nothing but the cursor. -/
def plain {α : Type*} : Backend (SqlCursor α) α := fun _ st c =>
  if c.Allows st then (.ok ⟨(c.exec st).1, (c.exec st).1.length⟩, (c.exec st).2)
  else (.error "cursor can only scan forward", c)

lemma plain_documented {α : Type*} : Documented (plain (α := α)) some where
  carried cmd st s r s' h := by
    unfold plain at h
    split at h
    · next hallow =>
      cases h
      exact ⟨s, rfl, hallow, by cases cmd <;> rfl, rfl⟩
    · cases h
  failed cmd st s e s' h := by
    unfold plain at h
    split at h <;> cases h
    exact .inr rfl

lemma plain_willing {α : Type*} : Willing (plain (α := α)) some := by
  rintro cmd st s c ⟨⟩ hallow
  exact ⟨_, _, if_pos hallow⟩

/-! ### The cursor object -/

/-- `execError` stands for whatever `connection::exec` throws. -/
inductive CursorError
  | execError (what : String)
  | internalError (what : String)
  | rangeError (what : String)
  deriving DecidableEq

/-- `m_at_end`, `m_pos` and `m_endpos`. -/
structure Place where
  atEnd : ℤ
  pos : ℤ
  endpos : ℤ
  deriving DecidableEq

/-- `adjust`: the displacement from the one asked for and the number of rows reported. -/
def adjust (c : Place) (hoped actual : ℤ) : Except CursorError ℤ × Place :=
  if actual < 0 then (.error (.internalError "Negative rows in cursor movement."), c)
  else if hoped = 0 then (.ok 0, c)
  else
    let direction : ℤ := if hoped < 0 then -1 else 1
    if actual ≠ |hoped| then
      if actual > |hoped| then
        (.error (.internalError "Cursor displacement larger than requested."), c)
      else
        -- one more step to the position past the end, unless it is there already
        let actual := if c.atEnd ≠ direction then actual + 1 else actual
        if direction > 0 then
          let pos := if c.pos ≥ 0 then c.pos + direction * actual else c.pos
          if c.endpos ≥ 0 ∧ pos ≠ c.endpos then
            (.error (.internalError "Inconsistent cursor end positions."),
              ⟨direction, pos, c.endpos⟩)
          else (.ok (direction * actual), ⟨direction, pos, pos⟩)
        else if c.pos = -1 then
          (.ok (direction * actual), ⟨direction, actual + direction * actual, c.endpos⟩)
        else if c.pos ≠ actual then
          (.error (.internalError ("Moved back to beginning, but wrong position: hoped=" ++
            toString hoped ++ ", actual=" ++ toString actual ++ ", m_pos=" ++ toString c.pos ++
            ", direction=" ++ toString direction ++ ".")), c)
        else
          (.ok (direction * actual),
            ⟨direction, if c.pos ≥ 0 then c.pos + direction * actual else c.pos, c.endpos⟩)
    else
      (.ok (direction * actual),
        ⟨0, if c.pos ≥ 0 then c.pos + direction * actual else c.pos, c.endpos⟩)

/-- A cursor object and the server behind it. -/
structure CursorState (σ : Type*) where
  place : Place
  server : σ

section Object

variable {σ α : Type*} (exec : Backend σ α)

/-- `fetch`: the rows, and the displacement. -/
def fetch (s : CursorState σ) (rows : ℤ) : Except CursorError (List α × ℤ) × CursorState σ :=
  if rows = 0 then (.ok ([], 0), s)
  else
    match exec .fetch (stridestring rows) s.server with
    | (.error e, server) => (.error (.execError e), ⟨s.place, server⟩)
    | (.ok r, server) =>
      match adjust s.place rows r.rows.length with
      | (.error e, place) => (.error e, ⟨place, server⟩)
      | (.ok displacement, place) => (.ok (r.rows, displacement), ⟨place, server⟩)

/-- `move`: the number of rows, and the displacement. -/
def move (s : CursorState σ) (rows : ℤ) : Except CursorError (ℤ × ℤ) × CursorState σ :=
  if rows = 0 then (.ok (0, 0), s)
  else
    match exec .move (stridestring rows) s.server with
    | (.error e, server) => (.error (.execError e), ⟨s.place, server⟩)
    | (.ok r, server) =>
      match adjust s.place rows r.affectedRows with
      | (.error e, place) => (.error e, ⟨place, server⟩)
      | (.ok displacement, place) => (.ok (r.affectedRows, displacement), ⟨place, server⟩)

end Object

/-- An object that has declared a cursor, and one that has adopted one. -/
def created {σ : Type*} (server : σ) : CursorState σ := ⟨⟨-1, 0, -1⟩, server⟩

def adopted {σ : Type*} (server : σ) : CursorState σ := ⟨⟨0, -1, -1⟩, server⟩

/-! ### What one movement does -/

variable {σ α : Type*}

/-- The object knows where the cursor is, and the end if it knows one. -/
structure Tracks (p : Place) (c : SqlCursor α) : Prop where
  pos : p.pos = c.position
  atEnd : p.atEnd = if c.position = 0 then -1
    else if c.position = c.rows.length + 1 then 1 else 0
  endpos : p.endpos = -1 ∨ p.endpos = c.rows.length + 1
  seen : c.position = c.rows.length + 1 → p.endpos ≠ -1

/-- There are fewer rows than `all()`. -/
def Fits (c : SqlCursor α) : Prop := (c.rows.length : ℤ) < all

lemma tracks_created {server : σ} {c : SqlCursor α} (hstart : c.position = 0) :
    Tracks (created server).place c :=
  ⟨by simp [created, hstart], by simp [created, hstart], .inl rfl, by simp [hstart]⟩

/-- Moving by `k`, in either direction. -/
def SqlCursor.shift (c : SqlCursor α) (k : ℤ) : List α × SqlCursor α :=
  if k < 0 then c.backward k.natAbs else c.forward k.natAbs

lemma SqlCursor.length_ahead (c : SqlCursor α) : c.ahead.length = c.rows.length - c.position := by
  simp [ahead]

lemma SqlCursor.length_behind (c : SqlCursor α) : c.behind.length = c.position - 1 := by
  have := c.position_le
  simp [behind]
  omega

lemma SqlCursor.forward_all {c : SqlCursor α} {k : ℕ} (hk : c.rows.length < k) :
    c.forward (c.rows.length + 1) = c.forward k := by
  have hmin : min (c.position + (c.rows.length + 1)) (c.rows.length + 1) =
      min (c.position + k) (c.rows.length + 1) := by omega
  have htake : c.ahead.take (c.rows.length + 1) = c.ahead.take k := by
    rw [List.take_of_length_le, List.take_of_length_le] <;> rw [length_ahead] <;> omega
  simp only [forward, htake, hmin]

lemma SqlCursor.backward_all {c : SqlCursor α} {k : ℕ} (hk : c.rows.length < k) :
    c.backward (c.rows.length + 1) = c.backward k := by
  have hle := c.position_le
  have hsub : c.position - (c.rows.length + 1) = c.position - k := by omega
  have htake : c.behind.take (c.rows.length + 1) = c.behind.take k := by
    rw [List.take_of_length_le, List.take_of_length_le] <;> rw [length_behind] <;> omega
  simp only [backward, htake, hsub]

/-- `ALL` is as good as any number that is large enough. -/
lemma exec_stridestring {c : SqlCursor α} (hfits : Fits c) (k : ℤ) :
    c.exec (stridestring k) = c.shift k := by
  have hall : (c.rows.length : ℤ) < 2 ^ 31 - 2 := hfits
  by_cases hk : all ≤ k
  · have hk' : (2 ^ 31 - 2 : ℤ) ≤ k := hk
    rw [stridestring, if_pos hk, SqlCursor.shift, if_neg (by omega), SqlCursor.exec,
      SqlCursor.forward_all (k := k.natAbs) (by omega)]
  by_cases hb : k ≤ backwardAll
  · have hb' : k ≤ -2 ^ 31 + 1 := hb
    rw [stridestring, if_neg hk, if_pos hb, SqlCursor.shift, if_pos (by omega), SqlCursor.exec,
      SqlCursor.backward_all (k := k.natAbs) (by omega)]
  · rw [stridestring, if_neg hk, if_neg hb]
    rfl

/-- A movement forward is allowed to every cursor. -/
lemma allows_stridestring {c : SqlCursor α} {k : ℤ} (h : k < 0 → c.scroll = true) :
    c.Allows (stridestring k) := by
  intro hback
  refine h ?_
  unfold stridestring at hback
  split_ifs at hback with hall hbackall
  · exact hback.elim
  · exact lt_of_le_of_lt hbackall (by decide)
  · exact hback

section Adjust

variable {p : Place} {k actual : ℤ}

/-- As many rows as asked for. -/
lemma adjust_exact (hk : k ≠ 0) (h : actual = |k|) :
    adjust p k actual = (.ok k, ⟨0, if p.pos ≥ 0 then p.pos + k else p.pos, p.endpos⟩) := by
  have hactual : ¬ actual < 0 := by
    rw [h]
    exact not_lt.mpr (abs_nonneg k)
  have hdir : (if k < 0 then -1 else 1) * actual = k := by
    rw [h]
    split
    · next hneg => rw [abs_of_neg hneg]; ring
    · next hpos => rw [abs_of_nonneg (by omega)]; ring
  rw [adjust, if_neg hactual, if_neg hk]
  rw [h] at hdir ⊢
  simp only [ne_eq, not_true_eq_false, if_false, hdir]

/-- Fewer rows, forward: the cursor is past the last row. -/
lemma adjust_ahead {d : ℤ} (h0 : 0 ≤ actual) (hk : actual < k)
    (hd : d = if p.atEnd ≠ 1 then actual + 1 else actual)
    (hend : ¬ (p.endpos ≥ 0 ∧ (if p.pos ≥ 0 then p.pos + d else p.pos) ≠ p.endpos)) :
    adjust p k actual = (.ok d, ⟨1, if p.pos ≥ 0 then p.pos + d else p.pos,
      if p.pos ≥ 0 then p.pos + d else p.pos⟩) := by
  have habs : |k| = k := abs_of_nonneg (by omega)
  rw [adjust, if_neg (by omega), if_neg (by omega)]
  simp only [habs, if_neg (show ¬ k < 0 by omega), if_pos (show actual ≠ k by omega),
    if_neg (show ¬ actual > k by omega), if_pos (show (1 : ℤ) > 0 by decide), ← hd, one_mul,
    if_neg hend]

/-- Fewer rows, backward: the cursor is before the first row. -/
lemma adjust_back {d : ℤ} (h0 : 0 ≤ actual) (hk : actual < -k)
    (hd : d = if p.atEnd ≠ -1 then actual + 1 else actual) (hpos : p.pos = -1 ∨ p.pos = d) :
    adjust p k actual = (.ok (-d), ⟨-1, 0, p.endpos⟩) := by
  have habs : |k| = -k := abs_of_neg (by omega)
  rw [adjust, if_neg (by omega), if_neg (by omega)]
  simp only [habs, if_pos (show k < 0 by omega), if_pos (show actual ≠ -k by omega),
    if_neg (show ¬ actual > -k by omega), if_neg (show ¬ (-1 : ℤ) > 0 by decide), ← hd]
  have hd0 : 0 ≤ d := by
    rw [hd]
    split <;> omega
  by_cases hunknown : p.pos = -1
  · rw [if_pos hunknown]
    congr 2 <;> ring
  · have hd' := hpos.resolve_left hunknown
    rw [if_neg hunknown, if_neg (not_not.mpr hd'), if_pos (by omega), hd']
    congr 2 <;> ring

end Adjust

/-- Where a movement ends, and how many rows it passes. -/
lemma SqlCursor.shift_forward (c : SqlCursor α) {k : ℤ} (hk : 0 < k) :
    (c.shift k).2.position = min (c.position + k.natAbs) (c.rows.length + 1) ∧
      (c.shift k).1.length = min k.natAbs (c.rows.length - c.position) ∧
      (c.shift k).2.rows = c.rows := by
  rw [shift, if_neg (by omega)]
  exact ⟨rfl, by rw [forward, List.length_take, length_ahead], rfl⟩

lemma SqlCursor.shift_backward (c : SqlCursor α) {k : ℤ} (hk : k < 0) :
    (c.shift k).2.position = c.position - k.natAbs ∧
      (c.shift k).1.length = min k.natAbs (c.position - 1) ∧
      (c.shift k).2.rows = c.rows := by
  rw [shift, if_pos hk]
  exact ⟨rfl, by rw [backward, List.length_take, length_behind], rfl⟩

/-- **What `adjust` makes of a movement** by `k` other than zero: the object still knows where
the cursor is, and how far it has moved. -/
lemma adjust_shift {p : Place} {c : SqlCursor α} (hs : Tracks p c) {k : ℤ} (hk : k ≠ 0) :
    ∃ place, adjust p k (c.shift k).1.length =
        (.ok (((c.shift k).2.position : ℤ) - c.position), place) ∧ Tracks place (c.shift k).2 := by
  have hle := c.position_le
  obtain ⟨hpos, hatEnd, hendpos, hseen⟩ := hs
  rcases Int.lt_or_gt_of_ne hk with hneg | hfwd
  · obtain ⟨hp, hlen, hrows⟩ := c.shift_backward hneg
    by_cases hexact : k.natAbs ≤ c.position - 1
    · refine ⟨⟨0, c.position + k, p.endpos⟩, ?_, ⟨?_, ?_, ?_, ?_⟩⟩
      · rw [adjust_exact hk (by rw [hlen, Nat.min_eq_left hexact, Int.natCast_natAbs]), hpos,
          if_pos (by omega)]
        congr 2
        omega
      · simp only
        omega
      · rw [if_neg (by omega), if_neg (by simp only [hrows]; omega)]
      · simpa only [hrows] using hendpos
      · simp only [hrows]
        omega
    · refine ⟨⟨-1, 0, p.endpos⟩, ?_, ⟨?_, ?_, ?_, ?_⟩⟩
      · rw [adjust_back (d := c.position) (by omega) (by omega) ?_ (.inr hpos)]
        · congr 2
          omega
        · rw [hatEnd]
          split_ifs <;> omega
      · simp only
        omega
      · rw [if_pos (by omega)]
      · simpa only [hrows] using hendpos
      · simp only [hrows]
        omega
  · obtain ⟨hp, hlen, hrows⟩ := c.shift_forward hfwd
    by_cases hexact : k.natAbs ≤ c.rows.length - c.position
    · refine ⟨⟨0, c.position + k, p.endpos⟩, ?_, ⟨?_, ?_, ?_, ?_⟩⟩
      · rw [adjust_exact hk (by rw [hlen, Nat.min_eq_left hexact, Int.natCast_natAbs]), hpos,
          if_pos (by omega)]
        congr 2
        omega
      · simp only
        omega
      · rw [if_neg (by omega), if_neg (by simp only [hrows]; omega)]
      · simpa only [hrows] using hendpos
      · simp only [hrows]
        omega
    · have hend : (if p.pos ≥ 0 then p.pos + (c.rows.length + 1 - c.position : ℤ) else p.pos) =
          c.rows.length + 1 := by
        rw [if_pos (by omega)]
        omega
      refine ⟨⟨1, c.rows.length + 1, c.rows.length + 1⟩, ?_, ⟨?_, ?_, ?_, ?_⟩⟩
      · rw [adjust_ahead (d := c.rows.length + 1 - c.position) (by omega) (by omega), hend]
        · congr 2
          omega
        · rw [hatEnd]
          split_ifs <;> omega
        · rw [hend]
          rintro ⟨h0, hne⟩
          omega
      · simp only
        omega
      · rw [if_neg (by omega), if_pos (by simp only [hrows]; omega)]
      · exact .inr (by simp only [hrows])
      · simp only
        omega

lemma SqlCursor.shift_zero (c : SqlCursor α) : c.shift 0 = ([], c) := by
  obtain ⟨rows, position, hle, scroll⟩ := c
  simp [shift, forward, Nat.min_eq_left hle]

lemma SqlCursor.shift_rows (c : SqlCursor α) (k : ℤ) : (c.shift k).2.rows = c.rows := by
  rw [shift]
  split <;> rfl

lemma SqlCursor.shift_scroll (c : SqlCursor α) (k : ℤ) : (c.shift k).2.scroll = c.scroll := by
  rw [shift]
  split <;> rfl

lemma Fits.shift {c : SqlCursor α} (hfits : Fits c) (k : ℤ) : Fits (c.shift k).2 := by
  rwa [Fits, c.shift_rows k]

/-! ### What the server makes of it -/

section Server

variable {exec : Backend σ α} {cursor : σ → Option (SqlCursor α)} {able : Prop}

/-- The cursor can still be used; or it cannot, which never happens to a server that is `able`. -/
def Usable (cursor : σ → Option (SqlCursor α)) (able : Prop) (server : σ) (c : SqlCursor α) :
    Prop :=
  cursor server = some c ∨ cursor server = none ∧ ¬ able

/-- A command is carried out, or fails and leaves the cursor. -/
lemma exec_spec (hexec : Documented exec cursor) (hable : able → Willing exec cursor) {server : σ}
    {c : SqlCursor α} (hs : Usable cursor able server c) (hfits : Fits c) {k : ℤ}
    (hallow : able → k < 0 → c.scroll = true) (cmd : Command) :
    (∃ r server', exec cmd (stridestring k) server = (.ok r, server') ∧
      r.Of (c.shift k).1 cmd ∧ cursor server' = some (c.shift k).2) ∨
    ∃ e server', exec cmd (stridestring k) server = (.error e, server') ∧ ¬ able ∧
      Usable cursor able server' c := by
  rcases h : exec cmd (stridestring k) server with ⟨e | r, server'⟩
  · refine .inr ⟨e, server', rfl, ?_⟩
    have hnot : ¬ able := by
      intro ha
      obtain hc | ⟨-, hna⟩ := hs
      · obtain ⟨r, s', hr⟩ := hable ha cmd _ _ _ hc (allows_stridestring (hallow ha))
        cases hr.symm.trans h
      · exact hna ha
    refine ⟨hnot, ?_⟩
    rcases hexec.failed _ _ _ _ _ h with h' | h'
    · exact .inr ⟨h', hnot⟩
    · rwa [Usable, h']
  · refine .inl ⟨r, server', rfl, ?_⟩
    obtain ⟨c', hc', -, hof, hcur⟩ := hexec.carried _ _ _ _ _ h
    obtain hc | ⟨hc, -⟩ := hs
    · obtain rfl : c = c' := Option.some.inj (hc.symm.trans hc')
      rw [exec_stridestring hfits] at hof hcur
      exact ⟨hof, hcur⟩
    · cases hc.symm.trans hc'

/-- The object knows where the cursor is, as long as it can be used. -/
structure Known (cursor : σ → Option (SqlCursor α)) (able : Prop) (s : CursorState σ)
    (c : SqlCursor α) : Prop where
  tracks : Tracks s.place c
  fits : Fits c
  usable : Usable cursor able s.server c

/-- **A movement of an object that knows where the cursor is** goes where it should, and is
reported as far as it went; or it fails as the command does. -/
lemma fetch_spec (hexec : Documented exec cursor) (hable : able → Willing exec cursor)
    {s : CursorState σ} {c : SqlCursor α} (hs : Known cursor able s c) {k : ℤ}
    (hallow : able → k < 0 → c.scroll = true) :
    (∃ s', fetch exec s k =
        (.ok ((c.shift k).1, ((c.shift k).2.position : ℤ) - c.position), s') ∧
      Known cursor able s' (c.shift k).2) ∨
    ∃ e s', fetch exec s k = (.error (.execError e), s') ∧ ¬ able ∧ Known cursor able s' c := by
  by_cases hk : k = 0
  · subst hk
    rw [SqlCursor.shift_zero]
    exact .inl ⟨s, by simp [fetch], hs⟩
  obtain ⟨r, server, h, hof, hcur⟩ | ⟨e, server, h, hnot, husable⟩ :=
    exec_spec hexec hable hs.usable hs.fits hallow .fetch
  · obtain ⟨place, hadjust, htracks⟩ := adjust_shift hs.tracks hk
    have hrows : r.rows = (c.shift k).1 := hof
    refine .inl ⟨⟨place, server⟩, ?_, htracks, hs.fits.shift k, .inl hcur⟩
    rw [fetch, if_neg hk, h]
    simp only [hrows, hadjust]
  · refine .inr ⟨e, ⟨s.place, server⟩, ?_, hnot, hs.tracks, hs.fits, husable⟩
    rw [fetch, if_neg hk, h]

lemma move_spec (hexec : Documented exec cursor) (hable : able → Willing exec cursor)
    {s : CursorState σ} {c : SqlCursor α} (hs : Known cursor able s c) {k : ℤ}
    (hallow : able → k < 0 → c.scroll = true) :
    (∃ s', move exec s k =
        (.ok ((c.shift k).1.length, ((c.shift k).2.position : ℤ) - c.position), s') ∧
      Known cursor able s' (c.shift k).2) ∨
    ∃ e s', move exec s k = (.error (.execError e), s') ∧ ¬ able ∧ Known cursor able s' c := by
  by_cases hk : k = 0
  · subst hk
    rw [SqlCursor.shift_zero]
    exact .inl ⟨s, by simp [move], hs⟩
  obtain ⟨r, server, h, hof, hcur⟩ | ⟨e, server, h, hnot, husable⟩ :=
    exec_spec hexec hable hs.usable hs.fits hallow .move
  · obtain ⟨place, hadjust, htracks⟩ := adjust_shift hs.tracks hk
    have hcount : r.affectedRows = (c.shift k).1.length := hof
    refine .inl ⟨⟨place, server⟩, ?_, htracks, hs.fits.shift k, .inl hcur⟩
    rw [move, if_neg hk, h]
    simp only [hcount, hadjust]
  · refine .inr ⟨e, ⟨s.place, server⟩, ?_, hnot, hs.tracks, hs.fits, husable⟩
    rw [move, if_neg hk, h]

/-! ### Runs -/

inductive Movement
  | fetch (rows : ℤ)
  | move (rows : ℤ)

def Movement.rows : Movement → ℤ
  | .fetch k | .move k => k

def Movement.command : Movement → Command
  | .fetch _ => .fetch
  | .move _ => .move

variable (exec) in
/-- Whether the movement returns or throws, and the object after it. -/
def perform (s : CursorState σ) : Movement → Except CursorError Unit × CursorState σ
  | .fetch k => ((fetch exec s k).1.map fun _ => (), (fetch exec s k).2)
  | .move k => ((move exec s k).1.map fun _ => (), (move exec s k).2)

variable (exec) in
/-- A movement in a run, which goes on when the command fails; an internal error ends it. -/
def step (s : CursorState σ) (e : Movement) : Option (CursorState σ) :=
  match perform exec s e with
  | (.error (.internalError _), _) => none
  | (_, s) => some s

lemma perform_of_error {s : CursorState σ} {e : Movement} {what : String} {server : σ}
    (hk : e.rows ≠ 0)
    (h : exec e.command (stridestring e.rows) s.server = (.error what, server)) :
    perform exec s e = (.error (.execError what), ⟨s.place, server⟩) := by
  cases e with
  | fetch k =>
    have hk : k ≠ 0 := hk
    rw [perform, fetch, if_neg hk, show exec .fetch (stridestring k) s.server = _ from h]
    rfl
  | move k =>
    have hk : k ≠ 0 := hk
    rw [perform, move, if_neg hk, show exec .move (stridestring k) s.server = _ from h]
    rfl

lemma perform_of_ok {s : CursorState σ} {e : Movement} {r : Result α} {server : σ}
    {passed : List α} {d : ℤ} {place : Place} (hk : e.rows ≠ 0)
    (h : exec e.command (stridestring e.rows) s.server = (.ok r, server))
    (hof : r.Of passed e.command)
    (hadjust : adjust s.place e.rows passed.length = (.ok d, place)) :
    perform exec s e = (.ok (), ⟨place, server⟩) := by
  cases e with
  | fetch k =>
    have hk : k ≠ 0 := hk
    have hrows : r.rows = passed := hof
    rw [perform, fetch, if_neg hk, show exec .fetch (stridestring k) s.server = _ from h]
    simp only [hrows, show adjust s.place k passed.length = _ from hadjust]
    rfl
  | move k =>
    have hk : k ≠ 0 := hk
    have hcount : r.affectedRows = passed.length := hof
    rw [perform, move, if_neg hk, show exec .move (stridestring k) s.server = _ from h]
    simp only [hcount, show adjust s.place k passed.length = _ from hadjust]
    rfl

lemma perform_spec (hexec : Documented exec cursor) {s : CursorState σ} {c : SqlCursor α}
    (hs : Known cursor False s c) (e : Movement) :
    (∃ s', perform exec s e = (.ok (), s') ∧ Known cursor False s' (c.shift e.rows).2) ∨
    ∃ what s', perform exec s e = (.error (.execError what), s') ∧ Known cursor False s' c := by
  cases e with
  | fetch k =>
    obtain ⟨s', h, hs'⟩ | ⟨what, s', h, -, hs'⟩ := fetch_spec hexec False.elim hs (k := k) nofun
    · exact .inl ⟨s', by rw [perform, h]; rfl, hs'⟩
    · exact .inr ⟨what, s', by rw [perform, h]; rfl, hs'⟩
  | move k =>
    obtain ⟨s', h, hs'⟩ | ⟨what, s', h, -, hs'⟩ := move_spec hexec False.elim hs (k := k) nofun
    · exact .inl ⟨s', by rw [perform, h]; rfl, hs'⟩
    · exact .inr ⟨what, s', by rw [perform, h]; rfl, hs'⟩

lemma step_known (hexec : Documented exec cursor) {s : CursorState σ} {c : SqlCursor α}
    (hs : Known cursor False s c) (e : Movement) :
    ∃ s' c', step exec s e = some s' ∧ Known cursor False s' c' ∧ c'.rows = c.rows := by
  obtain ⟨s', h, hs'⟩ | ⟨what, s', h, hs'⟩ := perform_spec hexec hs e
  · exact ⟨s', _, by rw [step, h], hs', c.shift_rows e.rows⟩
  · exact ⟨s', c, by rw [step, h], hs', rfl⟩

lemma run_known (hexec : Documented exec cursor) {s : CursorState σ} {c : SqlCursor α}
    (hs : Known cursor False s c) (es : List Movement) :
    ∃ t c', run (step exec) s es = some t ∧ Known cursor False t c' ∧ c'.rows = c.rows := by
  induction es generalizing s c with
  | nil => exact ⟨s, c, rfl, hs, rfl⟩
  | cons e es ih =>
    obtain ⟨s', c', h, hs', hrows⟩ := step_known hexec hs e
    obtain ⟨t, c'', ht, hknown, hrows'⟩ := ih hs'
    exact ⟨t, c'', by rw [run_cons, h]; exact ht, hknown, hrows'.trans hrows⟩

lemma Known.tracks_cursor {s : CursorState σ} {c c' : SqlCursor α} (hs : Known cursor able s c)
    (hc : cursor s.server = some c') : c = c' := by
  obtain h | ⟨h, -⟩ := hs.usable
  · exact Option.some.inj (h.symm.trans hc)
  · cases h.symm.trans hc

/-- **The position of a cursor is known throughout.** A cursor that was declared by its object
is moved in any way, forward and back and beyond both ends, and any of the commands may fail: no
movement throws an error of its own, and as long as the cursor can be used the object knows its
position, and the end if it knows one. -/
theorem run_created (hexec : Documented exec cursor) {server : σ} {c : SqlCursor α}
    (hopen : cursor server = some c) (hstart : c.position = 0) (hfits : Fits c)
    (es : List Movement) :
    ∃ t, run (step exec) (created server) es = some t ∧
      ∀ c', cursor t.server = some c' → Tracks t.place c' ∧ c'.rows = c.rows := by
  have hknown : Known cursor False (created server) c := ⟨tracks_created hstart, hfits, .inl hopen⟩
  obtain ⟨t, c', ht, hs, hrows⟩ := run_known hexec hknown es
  refine ⟨t, ht, fun c'' hc'' => ?_⟩
  obtain rfl := hs.tracks_cursor hc''
  exact ⟨hs.tracks, hrows⟩

/-- Past the end of two rows and there again, and back, which this cursor refuses. -/
theorem run_created_two :
    ∃ t, run (step plain) (created (⟨[1, 2], 0, by decide, false⟩ : SqlCursor ℕ))
        [.fetch all, .move 1, .fetch (-2), .move 7] = some t ∧
      ∀ c', some t.server = some c' → Tracks t.place c' ∧ c'.rows = [1, 2] :=
  run_created plain_documented rfl rfl (show Fits (⟨[1, 2], 0, by decide, false⟩ : SqlCursor ℕ) by
    unfold Fits; decide) _

/-! ### Adopted cursors -/

/-- The object does not know where the cursor is, but it has not missed the beginning. -/
structure Lost (p : Place) : Prop where
  pos : p.pos = -1
  atEnd : p.atEnd ≠ -1
  endpos : p.endpos = -1

variable (exec cursor) in
/-- The movement does not end before the first row, if it is made. -/
def Away (s : CursorState σ) (e : Movement) : Prop :=
  e.rows ≠ 0 → (perform exec s e).1.isOk →
    ∀ c, cursor (perform exec s e).2.server = some c → c.position ≠ 0

lemma adjust_lost {p : Place} (hs : Lost p) (c : SqlCursor α) {k : ℤ} (hk : k ≠ 0) :
    ∃ d place, adjust p k (c.shift k).1.length = (.ok d, place) ∧
      ((c.shift k).2.position ≠ 0 ∧ Lost place ∨
        (c.shift k).2.position = 0 ∧ Tracks place (c.shift k).2) := by
  have hle := c.position_le
  obtain ⟨hpos, hatEnd, hendpos⟩ := hs
  have hstay : ∀ d : ℤ, (if p.pos ≥ 0 then p.pos + d else p.pos) = -1 := by
    intro d
    rw [if_neg (by omega), hpos]
  rcases Int.lt_or_gt_of_ne hk with hneg | hfwd
  · obtain ⟨hp, hlen, hrows⟩ := c.shift_backward hneg
    by_cases hexact : k.natAbs ≤ c.position - 1
    · refine ⟨_, _, adjust_exact hk (by rw [hlen, Nat.min_eq_left hexact, Int.natCast_natAbs]),
        .inl ⟨by omega, hstay k, ?_, hendpos⟩⟩
      show (0 : ℤ) ≠ -1
      decide
    · refine ⟨_, _, adjust_back (by omega) (by omega) rfl (.inl hpos),
        .inr ⟨by omega, ⟨?_, ?_, .inl hendpos, ?_⟩⟩⟩
      · simp only
        omega
      · rw [if_pos (by omega)]
      · omega
  · obtain ⟨hp, hlen, hrows⟩ := c.shift_forward hfwd
    by_cases hexact : k.natAbs ≤ c.rows.length - c.position
    · refine ⟨_, _, adjust_exact hk (by rw [hlen, Nat.min_eq_left hexact, Int.natCast_natAbs]),
        .inl ⟨by omega, hstay k, ?_, hendpos⟩⟩
      show (0 : ℤ) ≠ -1
      decide
    · refine ⟨_, _, adjust_ahead (by omega) (by omega) rfl (by omega),
        .inl ⟨by omega, hstay _, ?_, hstay _⟩⟩
      show (1 : ℤ) ≠ -1
      decide

/-- An object that does not know where its cursor is, if there is one. -/
structure Astray (cursor : σ → Option (SqlCursor α)) (s : CursorState σ) : Prop where
  lost : Lost s.place
  fits : ∀ c, cursor s.server = some c → Fits c

/-- A movement ends before the first row, and the object knows where the cursor is; or it does
not, or fails. -/
lemma perform_astray (hexec : Documented exec cursor) {s : CursorState σ} (hs : Astray cursor s)
    {e : Movement} (hk : e.rows ≠ 0) :
    (∃ s' c, perform exec s e = (.ok (), s') ∧ cursor s'.server = some c ∧ Fits c ∧
      (c.position ≠ 0 ∧ Lost s'.place ∨ c.position = 0 ∧ Tracks s'.place c)) ∨
    ∃ what s', perform exec s e = (.error (.execError what), s') ∧ Astray cursor s' := by
  rcases h : exec e.command (stridestring e.rows) s.server with ⟨what | r, server⟩
  · refine .inr ⟨what, ⟨s.place, server⟩, perform_of_error hk h, hs.lost, fun c hc => ?_⟩
    rcases hexec.failed _ _ _ _ _ h with h' | h'
    · cases h'.symm.trans hc
    · exact hs.fits c (h'.symm.trans hc)
  · obtain ⟨c, hc, -, hof, hcur⟩ := hexec.carried _ _ _ _ _ h
    have hfits := hs.fits c hc
    rw [exec_stridestring hfits] at hof hcur
    obtain ⟨d, place, hadjust, hcase⟩ := adjust_lost hs.lost c hk
    exact .inl ⟨⟨place, server⟩, _, perform_of_ok hk h hof hadjust, hcur, hfits.shift e.rows, hcase⟩

lemma step_astray (hexec : Documented exec cursor) {s : CursorState σ} (hs : Astray cursor s)
    (e : Movement) :
    ∃ s', step exec s e = some s' ∧ (Away exec cursor s e ∧ Astray cursor s' ∨
      ¬ Away exec cursor s e ∧ ∃ c, Known cursor False s' c) := by
  by_cases hk : e.rows = 0
  · have hperform : perform exec s e = (.ok (), s) := by
      cases e with
      | fetch k =>
        obtain rfl : k = 0 := hk
        simp [perform, fetch, Except.map]
      | move k =>
        obtain rfl : k = 0 := hk
        simp [perform, move, Except.map]
    exact ⟨s, by rw [step, hperform], .inl ⟨fun h => absurd hk h, hs⟩⟩
  · obtain ⟨s', c, h, hc, hfits, hcase⟩ | ⟨what, s', h, hs'⟩ := perform_astray hexec hs hk
    · refine ⟨s', by rw [step, h], ?_⟩
      rcases hcase with ⟨hne, hlost⟩ | ⟨hzero, htracks⟩
      · refine .inl ⟨fun _ _ c' hc' => ?_, hlost, fun c' hc' => ?_⟩
        · rw [h] at hc'
          obtain rfl := Option.some.inj (hc.symm.trans hc')
          exact hne
        · obtain rfl := Option.some.inj (hc.symm.trans hc')
          exact hfits
      · refine .inr ⟨fun haway => ?_, c, htracks, hfits, .inl hc⟩
        refine haway hk ?_ c (by rw [h]; exact hc) hzero
        rw [h]
        rfl
    · refine ⟨s', by rw [step, h], .inl ⟨fun _ hok => ?_, hs'⟩⟩
      rw [h] at hok
      cases hok

lemma run_astray (hexec : Documented exec cursor) {s : CursorState σ} (hs : Astray cursor s)
    (es : List Movement) :
    ∃ t, run (step exec) s es = some t ∧
      (Along (step exec) (Away exec cursor) s es ∧ Astray cursor t ∨
        ¬ Along (step exec) (Away exec cursor) s es ∧ ∃ c, Known cursor False t c) := by
  induction es generalizing s with
  | nil => exact ⟨s, rfl, .inl ⟨trivial, hs⟩⟩
  | cons e es ih =>
    obtain ⟨s', h, hcase⟩ := step_astray hexec hs e
    have halong : Along (step exec) (Away exec cursor) s (e :: es) ↔
        Away exec cursor s e ∧ Along (step exec) (Away exec cursor) s' es := by
      simp [Along, h]
    rw [run_cons, h, halong]
    rcases hcase with ⟨haway, hastray⟩ | ⟨haway, c, hknown⟩
    · obtain ⟨t, ht, hcase⟩ := ih hastray
      exact ⟨t, ht, by simpa only [haway, true_and] using hcase⟩
    · obtain ⟨t, c', ht, hknown', -⟩ := run_known hexec hknown es
      exact ⟨t, ht, .inr ⟨fun h => haway h.1, c', hknown'⟩⟩

/-- **When the position of an adopted cursor is known.** It may stand anywhere at first, or not be
there, and commands may fail. No movement throws an error of its own; the position is unknown if
and only if no movement has ended before the first row, and when it is known it is right. -/
theorem run_adopted (hexec : Documented exec cursor) {server : σ}
    (hfits : ∀ c, cursor server = some c → Fits c) (es : List Movement) :
    ∃ t, run (step exec) (adopted server) es = some t ∧
      (t.place.pos = -1 ↔ Along (step exec) (Away exec cursor) (adopted server) es) ∧
      (t.place.pos ≠ -1 → ∀ c, cursor t.server = some c → Tracks t.place c) := by
  have hlost : Lost (adopted server).place := ⟨rfl, show (0 : ℤ) ≠ -1 by decide, rfl⟩
  obtain ⟨t, ht, ⟨halong, hastray⟩ | ⟨halong, c, hknown⟩⟩ := run_astray hexec ⟨hlost, hfits⟩ es
  · exact ⟨t, ht, ⟨fun _ => halong, fun _ => hastray.lost.pos⟩, fun h => absurd hastray.lost.pos h⟩
  · refine ⟨t, ht, ⟨fun h => ?_, fun h => absurd h halong⟩, fun _ c' hc' => ?_⟩
    · have := hknown.tracks.pos
      omega
    · obtain rfl := hknown.tracks_cursor hc'
      exact hknown.tracks

/-- A cursor past the end, moved there again and then back. -/
theorem run_adopted_end :
    ∃ t, run (step plain) (adopted (⟨[1, 2], 3, by decide, true⟩ : SqlCursor ℕ))
        [.move 1, .fetch (-2), .fetch (-1)] = some t ∧
      (t.place.pos = -1 ↔ Along (step plain) (Away plain some)
        (adopted ⟨[1, 2], 3, by decide, true⟩) [.move 1, .fetch (-2), .fetch (-1)]) ∧
      (t.place.pos ≠ -1 → ∀ c, some t.server = some c → Tracks t.place c) := by
  refine run_adopted plain_documented ?_ _
  rintro c ⟨⟩
  unfold Fits
  decide

end Server

end DbCoursework.Cursor

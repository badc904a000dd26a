import DbCoursework.Cursor
import Mathlib.Data.List.Dedup
import Mathlib.Data.List.Sort
import Mathlib.Data.Int.Order.Basic

/-!
Streams of results and the iterators on them.

An `icursorstream` reads a cursor forward, a stride of rows at a time. Any number of
`icursor_iterator`s may stand on it; the first one that is read makes the stream read for all
those in between, so that each keeps the block of its own position.
-/

namespace DbCoursework.CursorStream

open DbCoursework.Runs DbCoursework.Cursor

/-- An iterator that is registered with the stream, with the result it holds. -/
structure Iter (α : Type*) where
  id : ℕ
  pos : ℤ
  here : List α
  deriving DecidableEq

/-- The iterators are listed from the newest on. -/
structure Stream (σ α : Type*) where
  cursor : CursorState σ
  stride : ℤ
  realpos : ℤ
  reqpos : ℤ
  iterators : List (Iter α)
  done : Bool

variable {σ α : Type*}

/-- A new stream, on a cursor of its own; `set_stride` refuses a stride below 1. -/
def stream (server : σ) (stride : ℤ) : Stream σ α := ⟨created server, stride, 0, 0, [], false⟩

/-- An `int`. -/
def InInt (n : ℤ) : Prop := -2 ^ 31 ≤ n ∧ n ≤ 2 ^ 31 - 1

instance : DecidablePred InInt := fun n =>
  inferInstanceAs (Decidable (-2 ^ 31 ≤ n ∧ n ≤ 2 ^ 31 - 1))

/-! ### Reading -/

section Reading

variable (exec : Backend σ α)

def fetchblock (s : Stream σ α) : Except CursorError (List α) × Stream σ α :=
  match fetch exec s.cursor s.stride with
  | (.error e, cursor) => (.error e, { s with cursor := cursor })
  | (.ok (r, _), cursor) =>
    (.ok r, { s with
      cursor := cursor
      realpos := s.realpos + r.length
      done := if r.isEmpty then true else s.done })

def ignore (s : Stream σ α) (n : ℤ) : Except CursorError Unit × Stream σ α :=
  match move exec s.cursor n with
  | (.error e, cursor) => (.error e, { s with cursor := cursor })
  | (.ok (offset, _), cursor) =>
    (.ok (), { s with
      cursor := cursor
      realpos := s.realpos + offset
      done := if offset < n then true else s.done })

/-- The iterators at `readpos` are given a result. -/
def fill (readpos : ℤ) (r : List α) (is : List (Iter α)) : List (Iter α) :=
  is.map fun i => if i.pos = readpos then { i with here := r } else i

/-- One turn of the loop of `service_iterators`: one position, and all iterators there. -/
def serve (s : Stream σ α) (readpos : ℤ) : Except CursorError Unit × Stream σ α :=
  match if readpos > s.realpos then ignore exec s (readpos - s.realpos) else (.ok (), s) with
  | (.error e, s) => (.error e, s)
  | (.ok (), s) =>
    match fetchblock exec s with
    | (.error e, s) => (.error e, s)
    | (.ok r, s) => (.ok (), { s with iterators := fill readpos r s.iterators })

def serveAll (s : Stream σ α) : List ℤ → Except CursorError Unit × Stream σ α
  | [] => (.ok (), s)
  | p :: ps =>
    match serve exec s p with
    | (.error e, s) => (.error e, s)
    | (.ok (), s) => serveAll s ps

/-- The positions of the iterators to be served, in order. -/
def todo (s : Stream σ α) (topos : ℤ) : List ℤ :=
  (((s.iterators.map Iter.pos).filter fun p => s.realpos ≤ p ∧ p ≤ topos).dedup).insertionSort
    (· ≤ ·)

def serviceIterators (s : Stream σ α) (topos : ℤ) : Except CursorError Unit × Stream σ α :=
  if topos < s.realpos then (.ok (), s) else serveAll exec s (todo s topos)

/-! ### Iterators -/

def find (s : Stream σ α) (id : ℕ) : Option (Iter α) := s.iterators.find? fun i => i.id = id

/-- `forward`: the position asked for next. There is none where an `int` overflows. -/
def forward (s : Stream σ α) (n : ℤ) : Option (Stream σ α) :=
  if InInt (n * s.stride) ∧ InInt (s.reqpos + n * s.stride) then
    some { s with reqpos := s.reqpos + n * s.stride }
  else none

def insert (s : Stream σ α) (i : Iter α) : Stream σ α := { s with iterators := i :: s.iterators }

def setIter (s : Stream σ α) (i : Iter α) : Stream σ α :=
  { s with iterators := s.iterators.map fun j => if j.id = i.id then i else j }

/-- `*i`: the iterator is refreshed, and shows what it holds. -/
def deref (s : Stream σ α) (id : ℕ) : Except CursorError (Option (List α)) × Stream σ α :=
  match find s id with
  | none => (.ok none, s)
  | some i =>
    match serviceIterators exec s i.pos with
    | (.error e, s) => (.error e, s)
    | (.ok (), s) => (.ok ((find s id).map Iter.here), s)

inductive Op
  | create (id : ℕ)
  | copy (id source : ℕ)
  | assign (id source : ℕ)
  | destroy (id : ℕ)
  | advance (id : ℕ) (n : ℤ)
  | deref (id : ℕ)

/-- What is done with iterators of one stream. A step without a defined result is one that
names an iterator that is not there, or makes one that is, or overflows an `int`, or throws an
internal error. An iterator that is not advanced by a positive number stays as it is. -/
def step (s : Stream σ α) : Op → Option (Stream σ α)
  | .create id =>
    if (find s id).isSome then none
    else (forward s 0).map fun s => insert s ⟨id, s.reqpos, []⟩
  | .copy id source =>
    if (find s id).isSome then none
    else (find s source).map fun i => insert s { i with id := id }
  | .assign id source =>
    if (find s id).isSome then (find s source).map fun i => setIter s { i with id := id }
    else none
  | .destroy id =>
    if (find s id).isSome then
      some { s with iterators := s.iterators.filter fun i => i.id ≠ id }
    else none
  | .advance id n =>
    (find s id).bind fun i =>
      if n ≤ 0 then some s
      else (forward s n).map fun s => setIter s { i with pos := s.reqpos, here := [] }
  | .deref id =>
    if (find s id).isSome then
      match deref exec s id with
      | (.error (.internalError _), _) => none
      | (_, s) => some s
    else none

end Reading

/-! ### The stream and its cursor -/

/-- The rows from position `p` on. -/
def block (rows : List α) (stride p : ℤ) : List α := (rows.drop p.toNat).take stride.toNat

variable {exec : Backend σ α} {cursor : σ → Option (SqlCursor α)} {able : Prop}

variable (cursor able) in
/-- The stream knows how many rows it has passed. -/
structure Synced (rows : List α) (stride : ℤ) (s : Stream σ α) : Prop where
  known : ∃ c, Known cursor able s.cursor c ∧ c.rows = rows ∧
    s.realpos = min (c.position : ℤ) rows.length
  stride_eq : s.stride = stride
  done : s.done = true → s.realpos = rows.length

section Blocks

variable {rows : List α} {stride : ℤ} {s : Stream σ α}

/-- How far a movement forward goes, and what it passes. -/
lemma shift_block {c : SqlCursor α} {realpos k : ℤ}
    (hreal : realpos = min (c.position : ℤ) c.rows.length) (hk : 0 < k) :
    (c.shift k).1 = block c.rows k realpos ∧
      realpos + (c.shift k).1.length = min (realpos + k) c.rows.length ∧
      min ((c.shift k).2.position : ℤ) c.rows.length = min (realpos + k) c.rows.length := by
  have hle := c.position_le
  obtain ⟨hp, hlen, hrows⟩ := c.shift_forward hk
  refine ⟨?_, by omega, by omega⟩
  have hshift : (c.shift k).1 = (c.rows.drop c.position).take k.natAbs := by
    rw [SqlCursor.shift, if_neg (by omega)]
    rfl
  rw [hshift, block, show k.natAbs = k.toNat by omega]
  rcases Nat.lt_or_ge c.rows.length c.position with hend | hin
  · rw [List.drop_of_length_le (by omega), List.drop_of_length_le (by omega)]
  · congr 2
    omega

lemma realpos_nonneg (hs : Synced cursor able rows stride s) :
    0 ≤ s.realpos ∧ s.realpos ≤ rows.length := by
  obtain ⟨c, -, -, hreal⟩ := hs.known
  omega

/-- An iterator with the block of its position. -/
def Iter.filled (rows : List α) (stride : ℤ) (i : Iter α) : Iter α :=
  { i with here := block rows stride i.pos }

lemma dvd_lt {p q : ℤ} (hp : stride ∣ p) (hq : stride ∣ q) (h : p < q) :
    p + stride ≤ q := by
  have := Int.le_of_dvd (show 0 < q - p by omega) (Int.dvd_sub hq hp)
  omega

section Steps

variable (hexec : Documented exec cursor) (hable : able → Willing exec cursor)

include hexec hable

/-- **The next block** is the one at the position of the stream. -/
lemma fetchblock_spec (hs : Synced cursor able rows stride s) (hstride : 0 < stride) :
    (∃ s', fetchblock exec s = (.ok (block rows stride s.realpos), s') ∧
      Synced cursor able rows stride s' ∧ s'.realpos = min (s.realpos + stride) rows.length ∧
      s'.reqpos = s.reqpos ∧ s'.iterators = s.iterators ∧
      s'.done = if (block rows stride s.realpos).isEmpty then true else s.done) ∨
    ∃ e s', fetchblock exec s = (.error (.execError e), s') ∧ ¬ able ∧
      Synced cursor able rows stride s' ∧ s'.realpos = s.realpos ∧ s'.reqpos = s.reqpos ∧
      s'.iterators = s.iterators := by
  obtain ⟨⟨c, hknown, rfl, hreal⟩, rfl, hdone⟩ := hs
  have hforward : able → s.stride < 0 → c.scroll = true := fun _ h => absurd h (by omega)
  obtain ⟨cur, hfetch, hcur⟩ | ⟨e, cur, hfetch, hnot, hcur⟩ :=
    fetch_spec hexec hable hknown hforward
  · obtain ⟨hblock, hlen, hpos⟩ := shift_block hreal hstride
    rw [hblock] at hfetch hlen
    refine .inl ⟨{ s with
      cursor := cur
      realpos := s.realpos + (block c.rows s.stride s.realpos).length
      done := if (block c.rows s.stride s.realpos).isEmpty then true else s.done },
      by rw [fetchblock, hfetch],
      ⟨⟨_, hcur, c.shift_rows s.stride, hlen.trans hpos.symm⟩, rfl, fun hdone' => ?_⟩,
      hlen, rfl, rfl, rfl⟩
    simp only [hlen]
    split at hdone'
    · next hempty =>
      rw [List.isEmpty_iff] at hempty
      rw [hempty, List.length_nil] at hlen
      omega
    · have := hdone hdone'
      omega
  · exact .inr ⟨e, { s with cursor := cur }, by rw [fetchblock, hfetch], hnot,
      ⟨⟨c, hcur, rfl, hreal⟩, rfl, hdone⟩, rfl, rfl, rfl⟩

lemma ignore_spec (hs : Synced cursor able rows stride s) {n : ℤ} (hn : 0 < n) :
    (∃ s', ignore exec s n = (.ok (), s') ∧ Synced cursor able rows stride s' ∧
      s'.realpos = min (s.realpos + n) rows.length ∧ s'.reqpos = s.reqpos ∧
      s'.iterators = s.iterators) ∨
    ∃ e s', ignore exec s n = (.error (.execError e), s') ∧ ¬ able ∧
      Synced cursor able rows stride s' ∧ s'.realpos = s.realpos ∧ s'.reqpos = s.reqpos ∧
      s'.iterators = s.iterators := by
  obtain ⟨⟨c, hknown, rfl, hreal⟩, hstride, hdone⟩ := hs
  have hforward : able → n < 0 → c.scroll = true := fun _ h => absurd h (by omega)
  obtain ⟨cur, hmove, hcur⟩ | ⟨e, cur, hmove, hnot, hcur⟩ :=
    move_spec hexec hable hknown hforward
  · obtain ⟨-, hlen, hpos⟩ := shift_block hreal hn
    refine .inl ⟨{ s with
      cursor := cur
      realpos := s.realpos + (c.shift n).1.length
      done := if ((c.shift n).1.length : ℤ) < n then true else s.done },
      by rw [ignore, hmove],
      ⟨⟨_, hcur, c.shift_rows n, hlen.trans hpos.symm⟩, hstride, fun hdone' => ?_⟩, hlen, rfl, rfl⟩
    simp only [hlen]
    split at hdone'
    · omega
    · have := hdone hdone'
      omega
  · exact .inr ⟨e, { s with cursor := cur }, by rw [ignore, hmove], hnot,
      ⟨⟨c, hcur, rfl, hreal⟩, hstride, hdone⟩, rfl, rfl, rfl⟩

/-- **One position is served**: its iterators are given the block there. -/
lemma serve_spec (hs : Synced cursor able rows stride s) (hstride : 0 < stride) {p : ℤ}
    (hp : s.realpos ≤ p) :
    (∃ s', serve exec s p = (.ok (), s') ∧ Synced cursor able rows stride s' ∧
      s'.realpos = min (p + stride) rows.length ∧ s'.reqpos = s.reqpos ∧
      s'.iterators = fill p (block rows stride p) s.iterators) ∨
    ∃ e s', serve exec s p = (.error (.execError e), s') ∧ ¬ able ∧
      Synced cursor able rows stride s' ∧ s'.realpos ≤ p ∧ s'.reqpos = s.reqpos ∧
      s'.iterators = s.iterators := by
  have hreal := realpos_nonneg hs
  have hat : (∃ s', (if p > s.realpos then ignore exec s (p - s.realpos) else (.ok (), s)) =
      (.ok (), s') ∧ Synced cursor able rows stride s' ∧ s'.realpos = min p rows.length ∧
      s'.reqpos = s.reqpos ∧ s'.iterators = s.iterators) ∨
      ∃ e s', (if p > s.realpos then ignore exec s (p - s.realpos) else (.ok (), s)) =
        (.error (.execError e), s') ∧ ¬ able ∧ Synced cursor able rows stride s' ∧
        s'.realpos = s.realpos ∧ s'.reqpos = s.reqpos ∧ s'.iterators = s.iterators := by
    split
    · obtain ⟨s', h, hs', hreal', hrest⟩ | hfail :=
        ignore_spec hexec hable hs (show 0 < p - s.realpos by omega)
      · exact .inl ⟨s', h, hs', by rw [hreal']; congr 1; omega, hrest⟩
      · exact .inr hfail
    · exact .inl ⟨s, rfl, hs, by omega, rfl, rfl⟩
  obtain ⟨s1, h1, hs1, hreal1, hreq1, hits1⟩ | ⟨e, s1, h1, hnot, hs1, hreal1, hrest⟩ := hat
  swap
  · exact .inr ⟨e, s1, by rw [serve, h1], hnot, hs1, by omega, hrest⟩
  obtain ⟨s2, h2, hs2, hreal2, hreq2, hits2, -⟩ | ⟨e, s2, h2, hnot, hs2, hreal2, hreq2, hits2⟩ :=
    fetchblock_spec hexec hable hs1 hstride
  · have hblock : block rows stride s1.realpos = block rows stride p := by
      rw [hreal1, block, block]
      rcases le_total p rows.length with hle | hge
      · rw [min_eq_left hle]
      · rw [min_eq_right hge, List.drop_of_length_le (by omega), List.drop_of_length_le (by omega)]
    refine .inl ⟨{ s2 with iterators := fill p (block rows stride p) s2.iterators }, ?_,
      ⟨hs2.known, hs2.stride_eq, hs2.done⟩, ?_, hreq2.trans hreq1, ?_⟩
    · rw [serve, h1]
      simp only [h2, hblock]
    · simp only [hreal2, hreal1]
      omega
    · simp only [hits2, hits1]
  · refine .inr ⟨e, s2, ?_, hnot, hs2, by omega, hreq2.trans hreq1, hits2.trans hits1⟩
    rw [serve, h1]
    simp only [h2]

/-- The positions `qs` are served, and the stream has not passed the others. -/
lemma serveAll_spec (hs : Synced cursor able rows stride s) (hstride : 0 < stride) {ps : List ℤ}
    (hsorted : ps.Pairwise (· < ·)) (hdvd : ∀ p ∈ ps, stride ∣ p) (hge : ∀ p ∈ ps, s.realpos ≤ p) :
    ∃ r s' qs us, serveAll exec s ps = (r, s') ∧ ps = qs ++ us ∧
      Synced cursor able rows stride s' ∧ s'.reqpos = s.reqpos ∧
      s'.iterators = s.iterators.map (fun i => if i.pos ∈ qs then i.filled rows stride else i) ∧
      (∀ u ∈ us, s'.realpos ≤ u) ∧
      (s'.realpos ≤ s.realpos ∨ ∃ p ∈ ps, s'.realpos ≤ p + stride) ∧
      (r = .ok () ∧ us = [] ∨ (∃ e, r = .error (.execError e)) ∧ ¬ able) := by
  induction ps generalizing s with
  | nil =>
    exact ⟨_, s, [], [], rfl, rfl, hs, rfl, by simp, by simp, .inl (Int.le_refl _), .inl ⟨rfl, rfl⟩⟩
  | cons p ps ih =>
    obtain ⟨hlt, hsorted⟩ := List.pairwise_cons.mp hsorted
    have hhere := hge p (by simp)
    obtain ⟨s1, h1, hs1, hreal1, hreq1, hits1⟩ | ⟨e, s1, h1, hnot, hs1, hreal1, hreq1, hits1⟩ :=
      serve_spec hexec hable hs hstride hhere
    swap
    · refine ⟨_, s1, [], p :: ps, by rw [serveAll, h1], rfl, hs1, hreq1, by simp [hits1], ?_,
        .inr ⟨p, by simp, by omega⟩, .inr ⟨⟨e, rfl⟩, hnot⟩⟩
      intro u hu
      rcases List.mem_cons.mp hu with rfl | hu
      · exact hreal1
      · have := hlt u hu
        omega
    have hge1 : ∀ q ∈ ps, s1.realpos ≤ q := by
      intro q hq
      have := dvd_lt (hdvd p (by simp)) (hdvd q (by simp [hq])) (hlt q hq)
      omega
    obtain ⟨r, s2, qs, us, h2, rfl, hs2, hreq2, hits2, hus, hreal2, hr⟩ :=
      ih hs1 hsorted (fun q hq => hdvd q (by simp [hq])) hge1
    refine ⟨r, s2, p :: qs, us, by rw [serveAll, h1]; exact h2, rfl, hs2, hreq2.trans hreq1, ?_,
      hus, .inr ?_, hr⟩
    · rw [hits2, hits1, fill, List.map_map]
      refine List.map_congr_left fun i _ => ?_
      by_cases hi : i.pos = p
      · have hnot : p ∉ qs := fun h => lt_irrefl p (hlt p (by simp [h]))
        simp [hi, hnot, Iter.filled]
      · simp [hi, Iter.filled]
    · rcases hreal2 with hreal2 | ⟨q, hq, hreal2⟩
      · exact ⟨p, by simp, by omega⟩
      · exact ⟨q, by simp [hq], hreal2⟩

end Steps

end Blocks

/-! ### Iterators keep the blocks of their positions -/

variable (cursor able) in
/-- An iterator that the stream has passed holds its block; one that it has not passed may hold
it. -/
structure Good (rows : List α) (stride : ℤ) (s : Stream σ α) : Prop where
  synced : Synced cursor able rows stride s
  dvd_reqpos : stride ∣ s.reqpos
  realpos_le : s.realpos ≤ s.reqpos + stride
  dvd_pos : ∀ i ∈ s.iterators, stride ∣ i.pos
  pos_le : ∀ i ∈ s.iterators, i.pos ≤ s.reqpos
  here : ∀ i ∈ s.iterators, i.here = [] ∨ i.here = block rows stride i.pos
  passed : ∀ i ∈ s.iterators, i.pos < s.realpos → i.here = block rows stride i.pos

section Iterators

variable {rows : List α} {stride : ℤ} {s : Stream σ α}

/-- A registered iterator is found again after a change that keeps the names. -/
lemma find_map {f : Iter α → Iter α} (hf : ∀ i, (f i).id = i.id) {s' : Stream σ α}
    (hits : s'.iterators = s.iterators.map f) (id : ℕ) : find s' id = (find s id).map f := by
  rw [find, find, hits, List.find?_map]
  congr 2
  funext i
  simp [hf]

lemma mem_todo {topos p : ℤ} : p ∈ todo s topos ↔
    (∃ i ∈ s.iterators, i.pos = p) ∧ s.realpos ≤ p ∧ p ≤ topos := by
  simp [todo]

lemma todo_pairwise (s : Stream σ α) (topos : ℤ) : (todo s topos).Pairwise (· < ·) :=
  ((List.pairwise_insertionSort (· ≤ ·) _).sortedLE.sortedLT_of_nodup
    ((List.perm_insertionSort _ _).nodup_iff.mpr (List.nodup_dedup _))).pairwise

section Steps

variable (hexec : Documented exec cursor) (hable : able → Willing exec cursor)

include hexec hable

/-- **Refreshing an iterator** fills all iterators up to its position that the stream has not
passed. -/
lemma serviceIterators_spec (hs : Good cursor able rows stride s) (hstride : 0 < stride) {topos : ℤ}
    (htop : topos ≤ s.reqpos) :
    ∃ r s', serviceIterators exec s topos = (r, s') ∧ Good cursor able rows stride s' ∧
      s'.reqpos = s.reqpos ∧ (r = .ok () ∧ s'.iterators = s.iterators.map (fun i =>
        if s.realpos ≤ i.pos ∧ i.pos ≤ topos then i.filled rows stride else i) ∨
        (∃ e, r = .error (.execError e)) ∧ ¬ able) := by
  by_cases hearly : topos < s.realpos
  · refine ⟨_, s, by rw [serviceIterators, if_pos hearly], hs, rfl, .inl ⟨rfl, ?_⟩⟩
    rw [List.map_congr_left (g := id), List.map_id]
    intro i _
    rw [if_neg (by omega)]
    rfl
  obtain ⟨r, s', qs, us, h, hsplit, hs', hreq, hits, hus, hreal, hr⟩ :=
    serveAll_spec hexec hable hs.synced hstride (todo_pairwise s topos)
      (fun p hp => by
        obtain ⟨⟨i, hi, rfl⟩, -⟩ := mem_todo.mp hp
        exact hs.dvd_pos i hi)
      (fun p hp => (mem_todo.mp hp).2.1)
  have htodo : ∀ i ∈ s.iterators, i.pos ∈ qs ++ us ↔ s.realpos ≤ i.pos ∧ i.pos ≤ topos := by
    intro i hi
    rw [← hsplit, mem_todo]
    exact ⟨fun h => h.2, fun h => ⟨⟨i, hi, rfl⟩, h⟩⟩
  -- the stream is now at most a stride past a position it served
  have hreach : ∀ q, stride ∣ q → s.realpos ≤ q → q < s'.realpos → q ≤ topos := by
    intro q hq hlow hlt
    rcases hreal with hreal | ⟨p, hp, hreal⟩
    · omega
    · obtain ⟨⟨i, hi, rfl⟩, -, htop'⟩ := mem_todo.mp hp
      by_contra hgt
      have := dvd_lt (hs.dvd_pos i hi) hq (by omega)
      omega
  have hmap : ∀ j ∈ s'.iterators, ∃ i ∈ s.iterators, j.pos = i.pos ∧
      (i.pos ∈ qs ∧ j.here = block rows stride i.pos ∨ i.pos ∉ qs ∧ j.here = i.here) := by
    intro j hj
    rw [hits, List.mem_map] at hj
    obtain ⟨i, hi, rfl⟩ := hj
    refine ⟨i, hi, ?_⟩
    split
    · next hc => exact ⟨rfl, .inl ⟨hc, rfl⟩⟩
    · next hc => exact ⟨rfl, .inr ⟨hc, rfl⟩⟩
  refine ⟨r, s', by rw [serviceIterators, if_neg hearly]; exact h,
    ⟨hs', ?_, ?_, ?_, ?_, ?_, ?_⟩, hreq, ?_⟩
  · exact hreq ▸ hs.dvd_reqpos
  · have := hs.realpos_le
    rcases hreal with hreal | ⟨p, hp, hreal⟩
    · omega
    · have := (mem_todo.mp hp).2
      omega
  · intro j hj
    obtain ⟨i, hi, hpos, -⟩ := hmap j hj
    exact hpos ▸ hs.dvd_pos i hi
  · intro j hj
    obtain ⟨i, hi, hpos, -⟩ := hmap j hj
    have := hs.pos_le i hi
    omega
  · intro j hj
    obtain ⟨i, hi, hpos, ⟨-, hhere⟩ | ⟨-, hhere⟩⟩ := hmap j hj
    · exact .inr (by rw [hhere, hpos])
    · rw [hhere, hpos]
      exact hs.here i hi
  · intro j hj hlt
    obtain ⟨i, hi, hpos, ⟨-, hhere⟩ | ⟨hnot, hhere⟩⟩ := hmap j hj
    · rw [hhere, hpos]
    · rw [hhere, hpos]
      refine hs.passed i hi ?_
      by_contra hge
      have hin := (htodo i hi).mpr ⟨by omega, hreach i.pos (hs.dvd_pos i hi) (by omega) (by omega)⟩
      have := hus i.pos ((List.mem_append.mp hin).resolve_left hnot)
      omega
  · refine hr.imp_left ?_
    rintro ⟨rfl, rfl⟩
    refine ⟨rfl, hits.trans (List.map_congr_left fun i hi => ?_)⟩
    have hiff := htodo i hi
    rw [List.append_nil] at hiff
    simp only [hiff]

/-- **An iterator reads the block of its position**, or a command fails. -/
lemma deref_spec (hs : Good cursor able rows stride s) (hstride : 0 < stride) {id : ℕ} {i : Iter α}
    (hi : find s id = some i) :
    ∃ s', Good cursor able rows stride s' ∧ s'.reqpos = s.reqpos ∧
      (deref exec s id = (.ok (some (block rows stride i.pos)), s') ∧
          find s' id = some (i.filled rows stride) ∨
        (∃ e, deref exec s id = (.error (.execError e), s')) ∧ ¬ able) := by
  have hmem := List.mem_of_find?_eq_some hi
  obtain ⟨r, s', h, hs', hreq, ⟨rfl, hits⟩ | ⟨⟨e, rfl⟩, hnot⟩⟩ :=
    serviceIterators_spec hexec hable hs hstride (hs.pos_le i hmem)
  · have hfind : find s' id = some (i.filled rows stride) := by
      rw [find_map (fun j => by split <;> rfl) hits, hi]
      simp only [Option.map_some, Option.some.injEq, Int.le_refl, and_true]
      split
      · rfl
      · next hpassed =>
        have := hs.passed i hmem (by omega)
        rw [Iter.filled, ← this]
    refine ⟨s', hs', hreq, .inl ⟨?_, hfind⟩⟩
    rw [deref, hi]
    simp only [h, hfind]
    rfl
  · refine ⟨s', hs', hreq, .inr ⟨⟨e, ?_⟩, hnot⟩⟩
    rw [deref, hi]
    simp only [h]

end Steps

/-- An iterator is made before the block at its position is read. -/
def InTime (s : Stream σ α) : Op → Prop
  | .create _ => s.realpos ≤ s.reqpos
  | _ => True

instance (s : Stream σ α) : DecidablePred (InTime s)
  | .create _ => inferInstanceAs (Decidable (s.realpos ≤ s.reqpos))
  | .copy .. | .assign .. | .destroy _ | .advance .. | .deref _ => isTrue trivial

lemma good_stream {server : σ} {c : SqlCursor α} (hopen : cursor server = some c)
    (hstart : c.position = 0) (hfits : Fits c) (hstride : 0 < stride) :
    Good cursor able c.rows stride (stream server stride) where
  synced := ⟨⟨c, ⟨tracks_created hstart, hfits, .inl hopen⟩, rfl, by simp [stream, hstart]⟩, rfl,
    by simp [stream]⟩
  dvd_reqpos := dvd_zero _
  realpos_le := by
    simp only [stream]
    omega
  dvd_pos := by simp [stream]
  pos_le := by simp [stream]
  here := by simp [stream]
  passed := by simp [stream]

/-- What holds of every iterator of a stream. -/
def Holds (rows : List α) (stride : ℤ) (s : Stream σ α) (i : Iter α) : Prop :=
  stride ∣ i.pos ∧ i.pos ≤ s.reqpos ∧ (i.here = [] ∨ i.here = block rows stride i.pos) ∧
    (i.pos < s.realpos → i.here = block rows stride i.pos)

lemma Good.holds (hs : Good cursor able rows stride s) {i : Iter α} (hi : i ∈ s.iterators) :
    Holds rows stride s i :=
  ⟨hs.dvd_pos i hi, hs.pos_le i hi, hs.here i hi, hs.passed i hi⟩

/-- Changes of the list of iterators, and of the position asked for. -/
lemma Good.change (hs : Good cursor able rows stride s) (reqpos : ℤ) (hdvd : stride ∣ reqpos)
    (hle : s.reqpos ≤ reqpos) {is : List (Iter α)}
    (his : ∀ i ∈ is, Holds rows stride { s with reqpos := reqpos } i) :
    Good cursor able rows stride { s with reqpos := reqpos, iterators := is } where
  synced := ⟨hs.synced.known, hs.synced.stride_eq, hs.synced.done⟩
  dvd_reqpos := hdvd
  realpos_le := Int.le_trans hs.realpos_le (by simp only; omega)
  dvd_pos := fun i hi => (his i hi).1
  pos_le := fun i hi => (his i hi).2.1
  here := fun i hi => (his i hi).2.2.1
  passed := fun i hi => (his i hi).2.2.2

lemma Holds.later {i : Iter α} (hi : Holds rows stride s i) {reqpos : ℤ}
    (hle : s.reqpos ≤ reqpos) : Holds rows stride { s with reqpos := reqpos } i :=
  ⟨hi.1, Int.le_trans hi.2.1 hle, hi.2.2⟩

lemma forward_some {s' : Stream σ α} {n : ℤ} (h : forward s n = some s') :
    s' = { s with reqpos := s.reqpos + n * s.stride } := by
  rw [forward] at h
  split at h
  · exact (Option.some.inj h).symm
  · cases h

/-- Every operation keeps it so. -/
lemma step_good (hexec : Documented exec cursor) (hable : able → Willing exec cursor)
    (hstride : 0 < stride) (op : Op) {s' : Stream σ α} (hs : Good cursor able rows stride s)
    (hop : InTime s op) (h : step exec s op = some s') : Good cursor able rows stride s' := by
  obtain rfl := hs.synced.stride_eq
  cases op with
  | create id =>
    rw [step] at h
    split at h
    · cases h
    · obtain ⟨s1, h1, rfl⟩ := Option.map_eq_some_iff.mp h
      obtain rfl := forward_some h1
      have hreq : s.reqpos + 0 * s.stride = s.reqpos := by rw [zero_mul, add_zero]
      refine hs.change (s.reqpos + 0 * s.stride) (by rw [hreq]; exact hs.dvd_reqpos)
        (by rw [hreq]) ?_
      rintro i hi
      rcases List.mem_cons.mp hi with rfl | hi
      · refine ⟨by simpa only [hreq] using hs.dvd_reqpos, Int.le_refl _, .inl rfl, fun hlt => ?_⟩
        have hop : s.realpos ≤ s.reqpos := hop
        simp only [hreq] at hlt
        omega
      · exact (hs.holds hi).later (by rw [hreq])
  | copy id source =>
    rw [step] at h
    split at h
    · cases h
    · obtain ⟨j, hj, rfl⟩ := Option.map_eq_some_iff.mp h
      have hj := hs.holds (List.mem_of_find?_eq_some hj)
      refine hs.change _ hs.dvd_reqpos (Int.le_refl _) fun i hi => ?_
      rcases List.mem_cons.mp hi with rfl | hi
      · exact hj
      · exact hs.holds hi
  | assign id source =>
    rw [step] at h
    split at h
    · obtain ⟨j, hj, rfl⟩ := Option.map_eq_some_iff.mp h
      have hj := hs.holds (List.mem_of_find?_eq_some hj)
      refine hs.change _ hs.dvd_reqpos (Int.le_refl _) fun i hi => ?_
      obtain ⟨k, hk, rfl⟩ := List.mem_map.mp hi
      split
      · exact hj
      · exact hs.holds hk
    · cases h
  | destroy id =>
    rw [step] at h
    split at h
    · cases h
      exact hs.change _ hs.dvd_reqpos (Int.le_refl _) fun i hi => hs.holds (List.mem_filter.mp hi).1
    · cases h
  | advance id n =>
    obtain ⟨j, hj, h⟩ := Option.bind_eq_some_iff.mp h
    split at h
    · cases h
      exact hs
    next hn =>
    obtain ⟨s1, h1, rfl⟩ := Option.map_eq_some_iff.mp h
    obtain rfl := forward_some h1
    have hmul : s.stride ≤ n * s.stride := by
      have := Int.mul_le_mul_of_nonneg_right (show 1 ≤ n by omega) (Int.le_of_lt hstride)
      omega
    have hdvd : s.stride ∣ s.reqpos + n * s.stride :=
      Int.dvd_add hs.dvd_reqpos (Int.dvd_mul_left ..)
    refine hs.change (s.reqpos + n * s.stride) hdvd (by omega) fun i hi => ?_
    obtain ⟨k, hk, rfl⟩ := List.mem_map.mp hi
    split
    · refine ⟨hdvd, Int.le_refl _, .inl rfl, fun hlt => ?_⟩
      have := hs.realpos_le
      simp only at hlt
      omega
    · exact (hs.holds hk).later (by omega)
  | deref id =>
    rw [step] at h
    split at h
    · next hsome =>
      obtain ⟨i, hi⟩ := Option.isSome_iff_exists.mp hsome
      obtain ⟨t, hgood, -, ⟨ht, -⟩ | ⟨⟨e, ht⟩, -⟩⟩ := deref_spec hexec hable hs hstride hi <;>
        (rw [ht] at h; cases h; exact hgood)
    · cases h

end Iterators

/-! ### Reading it all -/

variable (exec) in
/-- `while (stream.get(r))`: the results, and what a command threw. -/
def readBlocks (s : Stream σ α) : ℕ → (List (List α) × Option CursorError) × Stream σ α
  | 0 => (([], none), s)
  | fuel + 1 =>
    match fetchblock exec s with
    | (.error e, s) => (([], some e), s)
    | (.ok r, s) =>
      if s.done then (([], none), s)
      else
        let ((rs, e), s) := readBlocks s fuel
        ((r :: rs, e), s)

variable (exec) in
/-- The loop over an iterator up to an end iterator, which it is equal to when it shows no rows:
what it showed before, and what a command threw. -/
def eachBlock (id : ℕ) (s : Stream σ α) : ℕ → Option (List (List α) × Option CursorError)
  | 0 => some ([], none)
  | fuel + 1 =>
    match deref exec s id with
    | (.error e, _) => some ([], some e)
    | (.ok none, _) => none
    | (.ok (some r), s) =>
      if r.isEmpty then some ([], none)
      else
        (step exec s (.advance id 1)).bind fun s =>
          (eachBlock id s fuel).map fun (rs, e) => (r :: rs, e)

/-- The rows, in blocks of a stride each, the last one shorter if need be. -/
structure Blocks (stride : ℤ) (rows : List α) (bs : List (List α)) : Prop where
  flatten : bs.flatten = rows
  ne_nil : [] ∉ bs
  full : ∀ b ∈ bs.dropLast, (b.length : ℤ) = stride

section Loops

variable {rows : List α} {stride : ℤ}

lemma block_eq_nil (hstride : 0 < stride) {p : ℤ} (h : block rows stride p = []) :
    rows.drop p.toNat = [] := by
  rw [block, List.take_eq_nil_iff] at h
  exact h.resolve_left (by omega)

lemma Blocks.nil (hstride : 0 < stride) {p : ℤ} (h : block rows stride p = []) :
    Blocks stride (rows.drop p.toNat) [] :=
  ⟨by rw [block_eq_nil hstride h, List.flatten_nil], by simp, by simp⟩

lemma Blocks.cons (hstride : 0 < stride) {p : ℤ} (hp : 0 ≤ p) {bs : List (List α)}
    (hne : block rows stride p ≠ []) (hbs : Blocks stride (rows.drop (p + stride).toNat) bs) :
    Blocks stride (rows.drop p.toNat) (block rows stride p :: bs) where
  flatten := by
    have hsplit : (p + stride).toNat = p.toNat + stride.toNat := by omega
    rw [List.flatten_cons, hbs.flatten, block, hsplit, ← List.drop_drop, List.take_append_drop]
  ne_nil := by
    simp only [List.mem_cons, not_or]
    exact ⟨fun h => hne h.symm, hbs.ne_nil⟩
  full := by
    cases bs with
    | nil => simp
    | cons b bs =>
      rw [List.dropLast_cons_cons]
      intro c hc
      rcases List.mem_cons.mp hc with rfl | hc
      · have hmore : rows.drop (p + stride).toNat ≠ [] := by
          intro h
          have hflat := hbs.flatten
          rw [h] at hflat
          exact hbs.ne_nil (List.mem_cons.mpr (.inl (by simp at hflat; exact hflat.1.symm)))
        have hlt : (p + stride).toNat < rows.length := by
          by_contra hge
          exact hmore (List.drop_of_length_le (by omega))
        rw [block, List.length_take, List.length_drop]
        omega
      · exact hbs.full c hc

lemma drop_min (p : ℤ) : rows.drop (min p rows.length).toNat = rows.drop p.toNat := by
  rcases le_total p rows.length with hle | hge
  · rw [min_eq_left hle]
  · rw [min_eq_right hge, List.drop_of_length_le (by omega), List.drop_of_length_le (by omega)]

lemma lt_of_block_ne_nil {p : ℤ} (h : block rows stride p ≠ []) : p < rows.length := by
  by_contra hge
  exact h (by rw [block, List.drop_of_length_le (by omega), List.take_nil])

/-- The rows from any position on come in blocks. -/
lemma exists_blocks (hstride : 0 < stride) (rows : List α) {p : ℤ} (hp : 0 ≤ p) :
    ∃ bs, Blocks stride (rows.drop p.toNat) bs := by
  induction h : (rows.length - p).toNat using Nat.strong_induction_on generalizing p with
  | _ n ih =>
    subst h
    by_cases hempty : block rows stride p = []
    · exact ⟨[], .nil hstride hempty⟩
    · have hlt := lt_of_block_ne_nil hempty
      obtain ⟨bs, hbs⟩ := ih (rows.length - (p + stride)).toNat (by omega)
        (show 0 ≤ p + stride by omega) rfl
      exact ⟨_, .cons hstride hp hempty hbs⟩

/-- The results are all the blocks, or a command failed after the first ones. -/
def Delivered (able : Prop) (stride : ℤ) (rows : List α) (bs : List (List α))
    (e : Option CursorError) : Prop :=
  e = none ∧ Blocks stride rows bs ∨
    (∃ what, e = some (.execError what)) ∧ ¬ able ∧ ∃ rest, Blocks stride rows (bs ++ rest)

lemma Delivered.failed (hstride : 0 < stride) {p : ℤ} (hp : 0 ≤ p) (hnot : ¬ able) (what : String) :
    Delivered able stride (rows.drop p.toNat) [] (some (.execError what)) :=
  .inr ⟨⟨what, rfl⟩, hnot, exists_blocks hstride rows hp⟩

lemma Delivered.cons (hstride : 0 < stride) {p : ℤ} (hp : 0 ≤ p) (hne : block rows stride p ≠ [])
    {bs : List (List α)} {e : Option CursorError}
    (h : Delivered able stride (rows.drop (p + stride).toNat) bs e) :
    Delivered able stride (rows.drop p.toNat) (block rows stride p :: bs) e := by
  refine h.imp (fun h => ⟨h.1, .cons hstride hp hne h.2⟩) fun ⟨hwhat, hnot, rest, hbs⟩ => ?_
  exact ⟨hwhat, hnot, rest, .cons hstride hp hne hbs⟩

lemma readBlocks_spec (hexec : Documented exec cursor) (hable : able → Willing exec cursor)
    (hstride : 0 < stride) {s : Stream σ α} (hs : Synced cursor able rows stride s)
    (hdone : s.done = false) {fuel : ℕ} (hfuel : rows.length < s.realpos + fuel) :
    ∃ bs e s', readBlocks exec s fuel = ((bs, e), s') ∧
      Delivered able stride (rows.drop s.realpos.toNat) bs e ∧ (e = none → s'.done = true) := by
  induction fuel generalizing s with
  | zero =>
    have hreal := realpos_nonneg hs
    omega
  | succ fuel ih =>
    have hreal := realpos_nonneg hs
    obtain ⟨s1, h1, hs1, hreal1, -, -, hdone1⟩ | ⟨what, s1, h1, hnot, -⟩ :=
      fetchblock_spec hexec hable hs hstride
    swap
    · exact ⟨[], _, s1, by rw [readBlocks, h1], .failed hstride hreal.1 hnot what, nofun⟩
    rw [readBlocks, h1]
    by_cases hempty : block rows stride s.realpos = []
    · rw [hempty, List.isEmpty_nil, if_pos rfl] at hdone1
      exact ⟨[], none, s1, by simp only [hdone1, if_true], .inl ⟨rfl, .nil hstride hempty⟩,
        fun _ => hdone1⟩
    · rw [if_neg (by simpa using hempty), hdone] at hdone1
      have hlt := lt_of_block_ne_nil hempty
      obtain ⟨bs, e, s2, h2, hbs, hdone2⟩ := ih hs1 hdone1 (by push_cast at hfuel; omega)
      rw [hreal1, drop_min] at hbs
      refine ⟨block rows stride s.realpos :: bs, e, s2, ?_, hbs.cons hstride hreal.1 hempty, hdone2⟩
      simp only [hdone1, Bool.false_eq_true, if_false, h2]

variable (exec) in
/-- An iterator that is advanced shows nothing yet, at the position asked for. -/
lemma step_advance {s : Stream σ α} {id : ℕ} {i : Iter α} (hi : find s id = some i) {n : ℤ}
    (hn : 0 < n) (hint : InInt (n * s.stride) ∧ InInt (s.reqpos + n * s.stride)) :
    ∃ s', step exec s (.advance id n) = some s' ∧ s'.reqpos = s.reqpos + n * s.stride ∧
      find s' id = some { i with pos := s.reqpos + n * s.stride, here := [] } := by
  have hid : i.id = id := by simpa using List.find?_some hi
  have hforward : forward s n = some { s with reqpos := s.reqpos + n * s.stride } := if_pos hint
  refine ⟨_, by rw [step, hi, Option.bind_some, if_neg (by omega), hforward, Option.map_some], rfl,
    ?_⟩
  have hfind : find { s with reqpos := s.reqpos + n * s.stride } id = some i := hi
  rw [find_map (s := { s with reqpos := s.reqpos + n * s.stride }) (fun j => ?_) rfl, hfind,
    Option.map_some, if_pos rfl]
  split
  · next h => exact h.symm
  · rfl

lemma eachBlock_spec (hexec : Documented exec cursor) (hable : able → Willing exec cursor)
    (hstride : 0 < stride) (hint : (rows.length : ℤ) + stride ≤ 2 ^ 31) {s : Stream σ α}
    (hs : Good cursor able rows stride s) {id : ℕ} {i : Iter α} (hi : find s id = some i)
    (hpos : 0 ≤ i.pos) (hreq : i.pos = s.reqpos) {fuel : ℕ} (hfuel : rows.length < i.pos + fuel) :
    ∃ bs e, eachBlock exec id s fuel = some (bs, e) ∧
      Delivered able stride (rows.drop i.pos.toNat) bs e := by
  induction fuel generalizing s i with
  | zero => exact ⟨[], none, rfl, .inl ⟨rfl, by simp; omega, by simp, by simp⟩⟩
  | succ fuel ih =>
    obtain ⟨s1, hs1, hreq1, ⟨h1, hfind1⟩ | ⟨⟨what, h1⟩, hnot⟩⟩ :=
      deref_spec hexec hable hs hstride hi
    swap
    · exact ⟨[], _, by rw [eachBlock, h1], .failed hstride hpos hnot what⟩
    rw [eachBlock, h1]
    by_cases hempty : block rows stride i.pos = []
    · exact ⟨[], none, by simp [hempty], .inl ⟨rfl, .nil hstride hempty⟩⟩
    · have hlt := lt_of_block_ne_nil hempty
      have hstride1 := hs1.synced.stride_eq
      have hpos2 : s1.reqpos + 1 * s1.stride = i.pos + stride := by
        rw [hreq1, ← hreq, hstride1, one_mul]
      have hint1 : InInt (1 * s1.stride) ∧ InInt (s1.reqpos + 1 * s1.stride) := by
        rw [hpos2, hstride1, one_mul]
        simp only [InInt]
        omega
      obtain ⟨s2, h2, hreq2, hfind2⟩ :=
        step_advance exec hfind1 (show (0 : ℤ) < 1 by decide) hint1
      obtain ⟨bs, e, h3, hbs⟩ := ih (step_good hexec hable hstride (.advance id 1) hs1 trivial h2)
        hfind2 (by simp only; omega) (by simp only; omega) (by push_cast at hfuel ⊢; omega)
      simp only [hpos2] at hbs
      refine ⟨block rows stride i.pos :: bs, e, ?_, hbs.cons hstride hpos hempty⟩
      simp only [List.isEmpty_iff, hempty, if_false, h2, Option.bind_some, h3]
      rfl

end Loops

end DbCoursework.CursorStream

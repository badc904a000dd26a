import DbCoursework.Separated
import DbCoursework.ServerEdits

/-!
The address behind a displayed string.

The string joins user, host, port and database by separators that the fields may contain
too, and the form forbids none. It shows one address only if none of the three separators
can be moved into a field beside it.
-/

namespace DbCoursework.ServerAddress

open DbCoursework.Separated DbCoursework.ServerEdits DbCoursework.ServerManager
open DbCoursework.SettingsDialog

/-- The fields behind a separator, in the order of the string. -/
def fields (srv : Server) : List (Char × List Char) :=
  [('@', srv.host.toList), (':', srv.port.toList), ('/', srv.db.toList)]

/-- No separator of the string occurs in a field beside it, unless at the far end. -/
def Unmovable (srv : Server) : Prop :=
  '@' ∉ srv.user.toList.tail ∧ '@' ∉ srv.host.toList.dropLast ∧
    ':' ∉ srv.host.toList.tail ∧ ':' ∉ srv.port.toList.dropLast ∧
    '/' ∉ srv.port.toList.tail ∧ '/' ∉ srv.db.toList.dropLast

instance (srv : Server) : Decidable (Unmovable srv) := inferInstanceAs (Decidable (_ ∧ _))

/-- Only servers of the same address are shown by the same string. -/
def ShowsAddress (a : Server) : Prop :=
  ∀ b, b.Complete → constructServerListString a = constructServerListString b →
    a.address = b.address

/-- The search by its string finds the server, whatever other addresses are in the list. -/
def FoundInAnyList (a : Server) : Prop :=
  ∀ l : List Server, (∀ b ∈ l, b.Complete) → (l.map Server.address).Nodup →
    ∀ i : Fin l.length, l.get i = a →
      getServerFromString l (constructServerListString a) = some i

/-! ### The string as joined fields -/

lemma toList_constructServerListString (srv : Server) :
    (constructServerListString srv).toList = join srv.user.toList (fields srv) := by
  simp [constructServerListString, fields, join]

lemma string_eq_iff {a b : Server} :
    constructServerListString a = constructServerListString b ↔
      join a.user.toList (fields a) = join b.user.toList (fields b) := by
  rw [← toList_constructServerListString, ← toList_constructServerListString, String.toList_inj]

lemma fixed_iff {srv : Server} : Fixed srv.user.toList (fields srv) ↔ Unmovable srv := by
  simp [Fixed, fields, Unmovable]

lemma filled_of_complete {srv : Server} (h : srv.Complete) :
    Filled srv.user.toList (fields srv) := by
  obtain ⟨hhost, hport, huser, -, hdb⟩ := h
  simp [Filled, fields, huser, hhost, hport, hdb]

lemma address_eq_iff {a b : Server} :
    a.address = b.address ↔ b.user.toList = a.user.toList ∧ fields b = fields a := by
  simp only [Server.address, fields, Prod.mk.injEq, List.cons.injEq, String.toList_inj]
  grind

/-- Other fields behind the same separators are those of a server. -/
lemma exists_server {a : Server} (ha : a.Complete) {f : List Char} {xs : List (Char × List Char)}
    (hfill : Filled f xs) (hsep : SameSeparators (fields a) xs) :
    ∃ b : Server, b.Complete ∧ b.user.toList = f ∧ fields b = xs := by
  obtain ⟨host, ys, rfl, hys⟩ := sameSeparators_cons hsep
  obtain ⟨port, zs, rfl, hzs⟩ := sameSeparators_cons hys
  obtain ⟨db, rest, rfl, hrest⟩ := sameSeparators_cons hzs
  obtain rfl : rest = [] := List.map_eq_nil_iff.mp hrest.symm
  have hpass : a.password ≠ "" := ha.2.2.2.1
  refine ⟨⟨.ofList host, .ofList port, .ofList db, .ofList f, a.password⟩, ?_, ?_, ?_⟩
  · simpa [Server.Complete, Filled, hpass, and_assoc, and_comm, and_left_comm] using hfill
  · simp
  · simp [fields]

/-! ### When the string shows the address -/

lemma showsAddress_iff {a : Server} (ha : a.Complete) : ShowsAddress a ↔ Unmovable a := by
  rw [← fixed_iff, ← join_unique_iff (filled_of_complete ha)]
  constructor
  · intro hshows f xs hfill hsep hjoin
    obtain ⟨b, hb, rfl, rfl⟩ := exists_server ha hfill hsep
    exact address_eq_iff.mp (hshows b hb (string_eq_iff.mpr hjoin))
  · intro huniq b hb hstr
    exact address_eq_iff.mpr (huniq _ _ (filled_of_complete hb) rfl (string_eq_iff.mp hstr))

lemma foundInAnyList_iff {a : Server} (ha : a.Complete) :
    FoundInAnyList a ↔ ShowsAddress a := by
  constructor
  · intro hfound b hb hstr
    by_contra hne
    -- the other server stands first in the list
    have hl : ∀ c ∈ [b, a], c.Complete := by simp [ha, hb]
    have hnodup : ([b, a].map Server.address).Nodup := by simpa using Ne.symm hne
    have hfind := hfound [b, a] hl hnodup ⟨1, Nat.one_lt_two⟩ rfl
    obtain ⟨-, hfirst⟩ := getServerFromString_eq_some.mp hfind
    exact hfirst ⟨0, Nat.two_pos⟩ Nat.one_pos hstr.symm
  · rintro hshows l hl hnodup i rfl
    refine getServerFromString_eq_some.mpr ⟨rfl, fun j hj hstr => ?_⟩
    have hne := List.pairwise_iff_getElem.mp (List.pairwise_map.mp hnodup) j i j.isLt i.isLt hj
    exact hne (hshows (l.get j) (hl _ (l.get_mem j)) hstr.symm).symm

/-- **A server is identified by its string exactly when no separator can be moved**: then
no other address shows the same string, and the search by it finds the server in every
list of different addresses. -/
theorem identifies_iff {a : Server} (ha : a.Complete) :
    (ShowsAddress a ↔ Unmovable a) ∧ (FoundInAnyList a ↔ Unmovable a) :=
  ⟨showsAddress_iff ha, (foundInAnyList_iff ha).trans (showsAddress_iff ha)⟩

/-- At the far end of its field a separator does no harm. -/
theorem identifies_at_far_end :
    ShowsAddress ⟨"db", "5432", "course", "@me", "pw"⟩ ∧
      FoundInAnyList ⟨"db", "5432", "course", "@me", "pw"⟩ := by
  have h := identifies_iff (a := ⟨"db", "5432", "course", "@me", "pw"⟩) (by decide)
  exact ⟨h.1.mpr (by decide +kernel), h.2.mpr (by decide +kernel)⟩

/-- `me@work` at `db` and `me` at `work@db`: one string, and the search finds the first only. -/
theorem string_shared :
    (¬ ∀ a b : Server, a.Complete → b.Complete →
        constructServerListString a = constructServerListString b → a.address = b.address) ∧
      ¬ ∀ l : List Server, (∀ b ∈ l, b.Complete) → (l.map Server.address).Nodup →
        ∀ i : Fin l.length,
          getServerFromString l (constructServerListString (l.get i)) = some i := by
  constructor
  · intro h
    have haddr := h ⟨"db", "5432", "course", "me@work", "pw"⟩
      ⟨"work@db", "5432", "course", "me", "pw"⟩ (by decide) (by decide) (by decide +kernel)
    revert haddr
    decide
  · intro h
    have hfind := h [⟨"db", "5432", "course", "me@work", "pw"⟩,
      ⟨"work@db", "5432", "course", "me", "pw"⟩] (by decide) (by decide) ⟨1, Nat.one_lt_two⟩
    revert hfind
    decide +kernel

end DbCoursework.ServerAddress

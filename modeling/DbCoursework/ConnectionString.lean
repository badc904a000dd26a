import DbCoursework.Conninfo
import DbCoursework.ServerManager

/-!
The connection string of a server, and what it means when it is read by the keyword/value
grammar. The fields go into it as they are.
-/

namespace DbCoursework.ConnectionString

open DbCoursework.Conninfo DbCoursework.ServerManager

/-- `MainWindow::constructConnectionString`. -/
def constructConnectionString (server : Server) : String :=
  "host= " ++ server.host ++ " user=" ++ server.user ++ " port= " ++ server.port ++
    " dbname= " ++ server.db ++ " password= " ++ server.password ++ " connect_timeout= 4"

/-- The settings a server's connection is to be made with. -/
def settingsOf (server : Server) : List Setting :=
  [("host".toList, server.host.toList), ("user".toList, server.user.toList),
    ("port".toList, server.port.toList), ("dbname".toList, server.db.toList),
    ("password".toList, server.password.toList), ("connect_timeout".toList, "4".toList)]

/-- The connection string is read without an error and as these settings and no others. -/
def MeansServer (server : Server) : Prop :=
  ∃ ss, parse (constructConnectionString server).toList = some ss ∧ Means ss (settingsOf server)

/-- No field holds a blank or a backslash or starts with a quote. -/
def PlainFields (server : Server) : Prop :=
  Plain server.host.toList ∧ Plain server.port.toList ∧ Plain server.user.toList ∧
    Plain server.password.toList ∧ Plain server.db.toList

instance (server : Server) : Decidable (PlainFields server) :=
  inferInstanceAs (Decidable (_ ∧ _))

/-- The connection string as keywords and raw values; only `user` has no blank after it. -/
def items (server : Server) : List Item :=
  [{ key := "host".toList, pad := [' '], val := server.host.toList },
    { key := "user".toList, pad := [], val := server.user.toList },
    { key := "port".toList, pad := [' '], val := server.port.toList },
    { key := "dbname".toList, pad := [' '], val := server.db.toList },
    { key := "password".toList, pad := [' '], val := server.password.toList },
    { key := "connect_timeout".toList, pad := [' '], val := "4".toList }]

lemma constructConnectionString_toList (server : Server) :
    (constructConnectionString server).toList = render (items server) := by
  unfold constructConnectionString
  simp only [String.toList_append]
  simp only [List.append_assoc]
  rfl

lemma items_setting (server : Server) : (items server).map Item.setting = settingsOf server := rfl

lemma items_key (server : Server) : (items server).map Item.key =
    ["host".toList, "user".toList, "port".toList, "dbname".toList, "password".toList,
      "connect_timeout".toList] := rfl

lemma items_nodup (server : Server) : ((items server).map Item.key).Nodup := by
  rw [items_key]
  decide

lemma items_pads (server : Server) :
    ∀ x ∈ items server, pads (items server) < x.key.length + 2 := by
  have hkeys : ∀ k ∈ (items server).map Item.key, 5 < k.length + 2 := by
    rw [items_key]
    decide
  exact fun x hx => hkeys x.key (List.mem_map_of_mem hx)

lemma items_val (server : Server) : (items server).map Item.val =
    [server.host.toList, server.user.toList, server.port.toList, server.db.toList,
      server.password.toList, "4".toList] := rfl

lemma items_val_ne {server : Server} (h : server.Complete) : ∀ x ∈ items server, x.val ≠ [] := by
  obtain ⟨hhost, hport, huser, hpassword, hdb⟩ := h
  intro x hx
  have hval : x.val ∈ (items server).map Item.val := List.mem_map_of_mem hx
  simp only [items_val, List.mem_cons, List.not_mem_nil, or_false] at hval
  rcases hval with h | h | h | h | h | h <;> simp [h, hhost, hport, huser, hpassword, hdb]

lemma items_plain_iff (server : Server) :
    (∀ x ∈ items server, Plain x.val) ↔ PlainFields server := by
  have hfour : Plain "4".toList := by decide
  have hmap : (∀ x ∈ items server, Plain x.val) ↔ ∀ v ∈ (items server).map Item.val, Plain v :=
    List.forall_mem_map.symm
  simp only [hmap, items_val, List.forall_mem_cons, PlainFields]
  tauto

/-- **The connection string means its server exactly when no field needs quoting.** -/
theorem meansServer_iff (server : Server) (h : server.Complete) :
    MeansServer server ↔ PlainFields server := by
  unfold MeansServer
  rw [constructConnectionString_toList, ← items_setting, ← items_plain_iff]
  exact parse_render_iff (items_val_ne h) (items_nodup server) (items_pads server)

theorem meansServer_ipv6 : MeansServer ⟨"::1", "5432", "db", "user", "p@ss='word"⟩ :=
  (meansServer_iff _ (by decide)).mpr (by decide +kernel)

/-- What follows the blank in a password is read as a keyword. -/
theorem blank_in_password : ¬ ∀ server : Server, server.Complete → MeansServer server := by
  intro h
  obtain ⟨ss, hss, -⟩ := h ⟨"h", "1", "d", "u", "a b"⟩ (by decide)
  have hnone : parse (constructConnectionString ⟨"h", "1", "d", "u", "a b"⟩).toList = none := by
    decide +kernel
  rw [hnone] at hss
  cases hss

end DbCoursework.ConnectionString

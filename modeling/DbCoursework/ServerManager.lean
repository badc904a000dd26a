import DbCoursework.SettingsArray

/-!
Servers, the string that shows one in the list, and the loader of the stored list.
-/

namespace DbCoursework.ServerManager

open DbCoursework.SettingsArray

structure Server where
  host : String := ""
  port : String := ""
  db : String := ""
  user : String := ""
  password : String := ""
  deriving DecidableEq

/-- `Server::operator==`; its last comparison is of a password with itself. -/
def Server.operatorEq (self rhs : Server) : Bool :=
  self.host == rhs.host && self.port == rhs.port && self.user == rhs.user &&
    self.db == rhs.db && self.password == self.password

/-- `QList::operator==`: the lengths, then the elements pairwise. -/
def qlistEq (l r : List Server) : Bool := l.isEqv r Server.operatorEq

def Server.Complete (srv : Server) : Prop :=
  srv.host ≠ "" ∧ srv.port ≠ "" ∧ srv.user ≠ "" ∧ srv.password ≠ "" ∧ srv.db ≠ ""

instance (srv : Server) : Decidable srv.Complete := inferInstanceAs (Decidable (_ ∧ _))

/-- `ServerManager::constructServerListString`: `[user]@[host]:[port]/[database_name]`. -/
def constructServerListString (serverData : Server) : String :=
  serverData.user ++ "@" ++ serverData.host ++ ":" ++ serverData.port ++ "/" ++ serverData.db

def Server.address (srv : Server) : String × String × String × String :=
  (srv.host, srv.port, srv.user, srv.db)

lemma operatorEq_iff (a b : Server) : a.operatorEq b = true ↔ a.address = b.address := by
  simp [Server.operatorEq, Server.address, and_assoc]

lemma qlistEq_iff (l r : List Server) :
    qlistEq l r = true ↔ l.map Server.address = r.map Server.address := by
  unfold qlistEq
  induction l generalizing r with
  | nil => cases r <;> simp [List.isEqv]
  | cons a l ih =>
    cases r with
    | nil => simp [List.isEqv]
    | cons b r => simp [List.isEqv, operatorEq_iff, ih]

lemma constructServerListString_ne_empty (srv : Server) : constructServerListString srv ≠ "" := by
  intro h
  have := congrArg String.toList h
  simp [constructServerListString] at this

def serversKey : String := "db/servers"

def readServer (settings_loc : Settings) : Server where
  host := toString (settings_loc.value "host")
  port := toString (settings_loc.value "port")
  user := toString (settings_loc.value "user")
  password := toString (settings_loc.value "password")
  db := toString (settings_loc.value "db")

/-- `ServerManager::loadServers`: the list it leaves in its argument, which it clears
first. -/
def loadServers (σ : Store) (_serverListToFill : List Server) : List Server :=
  let (size, settings_loc) := (Settings.on σ).beginReadArray serversKey
  (readElems readServer size settings_loc []).2

end DbCoursework.ServerManager

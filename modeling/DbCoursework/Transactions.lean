import DbCoursework.Runs
import Mathlib.Data.List.Basic

/-!
Transactions on one connection.

A transaction object sends `BEGIN` when it is made, and ends by `commit`, by `abort` or by
its destructor. The objects are numbered in the order of their constructors; any number of
them may be alive, in any state. What a command comes back with is the backend's choice, and
the connection can be lost at any point. The log is what went out.
-/

namespace DbCoursework.Transactions

open DbCoursework.Runs

inductive Error
  | failure (what : String)
  | brokenConnection (what : String)
  | usageError (what : String)
  | inDoubtError (what : String)
  | statementCompletionUnknown (what : String)
  | sqlError (what : String)
  | internalError (what : String)
  deriving DecidableEq

def describeObject (className objName : String) : String :=
  if objName.isEmpty then className else className ++ " '" ++ objName ++ "'"

inductive Command
  | beginCmd
  | query (q : String)
  | commit
  | rollback
  deriving DecidableEq

/-- What a command comes back with; after an error the connection may be lost. -/
inductive Reply
  | ok
  | failed (e : Error) (stillOpen : Bool)
  deriving DecidableEq

def Reply.error : Reply → Option Error
  | ok => none
  | failed e _ => some e

def Reply.stillOpen : Reply → Bool
  | ok => true
  | failed _ stillOpen => stillOpen

/-- A command that went out: the object that sent it, and whether it came back without an
error. -/
structure Entry where
  sender : ℕ
  command : Command
  ok : Bool
  deriving DecidableEq

/-- The connection: `trans` is the registered transaction. -/
structure Conn where
  isOpen : Bool := true
  trans : Option ℕ := none
  log : List Entry := []
  deriving DecidableEq

/-- `connection::exec`; over a lost connection nothing goes out. A command is acknowledged if all
of `exec` throws nothing, the `get_notifs` at its end included. -/
def Conn.exec (c : Conn) (sender : ℕ) (command : Command) (reply : Reply) : Option Error × Conn :=
  if c.isOpen then
    (reply.error, { c with
      log := c.log ++ [⟨sender, command, reply.error.isNone⟩]
      isOpen := reply.stillOpen })
  else (some (.brokenConnection "Lost connection to the database server."), c)

inductive Status
  | active | aborted | committed | inDoubt
  deriving DecidableEq

/-- The classes `transaction` and `robusttransaction`. -/
inductive Kind
  | plain | robust
  deriving DecidableEq

/-- A stream, a pipeline or a command that monopolises a transaction. -/
structure Focus where
  id : ℕ
  classname : String
  name : String
  deriving DecidableEq

def Focus.description (f : Focus) : String := describeObject f.classname f.name

/-- `xid` and `backendpid` are those of a robust transaction. -/
structure Tx where
  kind : Kind
  name : String
  xid : String := ""
  backendpid : Int := 0
  status : Status := .active
  registered : Bool := false
  focus : Option Focus := none
  pendingError : String := ""
  deriving DecidableEq

def Tx.description (tx : Tx) : String := describeObject "transaction" tx.name

/-- What the commands sent during one call come back with, and what the checks for the
outcome of a lost `COMMIT` are answered. -/
structure Backend where
  reply : Command → Reply
  probe : ℕ → Except Error String

/-- A transaction object with its number and its connection. -/
structure Work where
  id : ℕ
  conn : Conn
  tx : Tx
  deriving DecidableEq

inductive TxStat
  | unknown | committed | aborted | inProgress
  deriving DecidableEq

def parseStatus (text : String) : TxStat :=
  if text = "aborted" then .aborted
  else if text = "committed" then .committed
  else if text = "in progress" then .inProgress
  else .unknown

def queryStatus (answer : Except Error String) : Except Error TxStat := do
  let text ← answer
  if text.isEmpty then throw (.internalError "Transaction status string is empty.")
  match parseStatus text with
  | .unknown => throw (.internalError ("Unknown transaction status string: " ++ text))
  | stat => pure stat

/-- The text for a new guest while another one is there; both names in it are the new one's. -/
def startedNew (description : String) : Error :=
  .usageError ("Started new " ++ description ++ " while " ++ description ++ " was still active.")

def startedTwice (description : String) : Error :=
  .usageError ("Started twice: " ++ description ++ ".")

def txidQuery : Command := .query "SELECT txid_current()"

def checkConstraintsQuery : Command := .query "SET CONSTRAINTS ALL IMMEDIATE"

def maxAttempts : ℕ := 500

namespace Work

/-- `register_transaction` of the connection and of the object. -/
def registerTransaction (w : Work) : Option Error × Work :=
  match w.conn.trans with
  | some old =>
    (some (if old = w.id then startedTwice w.tx.description else startedNew w.tx.description), w)
  | none =>
    (none, { w with
      conn := { w.conn with trans := some w.id }
      tx := { w.tx with registered := true } })

def checkPendingError (w : Work) : Option Error × Work :=
  if w.tx.pendingError.isEmpty then (none, w)
  else (some (.failure w.tx.pendingError), { w with tx := { w.tx with pendingError := "" } })

def directExec (command : Command) (reply : Reply) (w : Work) : Option Error × Work :=
  match w.checkPendingError with
  | (some e, w) => (some e, w)
  | (none, w) =>
    let (e, conn) := w.conn.exec w.id command reply
    (e, { w with conn })

/-- `basic_transaction::do_commit`. -/
def doCommitPlain (b : Backend) (w : Work) : Option Error × Work :=
  match w.directExec .commit (b.reply .commit) with
  | (none, w) => (none, w)
  | (some (.statementCompletionUnknown _), w) =>
    (some (.inDoubtError ("WARNING: Commit of transaction '" ++ w.tx.name ++ "' is unknown. " ++
      "There is no way to tell whether the transaction succeeded " ++
      "or was aborted except to check manually.")), w)
  | (some e, w) =>
    if w.conn.isOpen then (some e, w)
    else
      (some (.inDoubtError ("WARNING: Connection lost while committing transaction '" ++
        w.tx.name ++ "'. There is no way to tell whether the transaction succeeded " ++
        "or was aborted except to check manually.")), w)

def doAbort (b : Backend) (w : Work) : Option Error × Work :=
  w.directExec .rollback (b.reply .rollback)

/-- The loop at the end of `basic_robusttransaction::do_commit`, with `left` attempts to go;
a check that cannot connect leaves the status unknown. -/
def settle (b : Backend) : ℕ → ℕ → Work → Option Error × Work
  | _, 0, w =>
    (some (.inDoubtError ("Transaction " ++ w.tx.name ++ " (with transaction ID " ++ w.tx.xid ++
      ") lost connection while committing.  It's impossible to tell whether " ++
      "it committed, or aborted, or is still running.  " ++
      "Attempts to find out its outcome have failed.  " ++
      "The backend process on the server had process ID " ++ toString w.tx.backendpid ++
      ".  You may be able to check what happened to that process.")), w)
  | n, left + 1, w =>
    match queryStatus (b.probe n) with
    | .error (.brokenConnection _) => (none, w)
    | .error e => (some e, w)
    | .ok .unknown => (none, w)
    | .ok .committed => (none, w)
    | .ok .aborted => w.doAbort b
    | .ok .inProgress => settle b (n + 1) left w

/-- `basic_robusttransaction::do_commit`; an error of `do_abort` takes the place of the one
being handled. -/
def doCommitRobust (b : Backend) (w : Work) : Option Error × Work :=
  match w.directExec checkConstraintsQuery (b.reply checkConstraintsQuery) with
  | (some e, w) =>
    let (e', w) := w.doAbort b
    (some (e'.getD e), w)
  | (none, w) =>
    match w.directExec .commit (b.reply .commit) with
    | (none, w) => (none, w)
    | (some (.brokenConnection _), w) => w.settle b 0 maxAttempts
    | (some e, w) =>
      if w.conn.isOpen then
        let (e', w) := w.doAbort b
        (some (e'.getD e), w)
      else w.settle b 0 maxAttempts

def doCommit (b : Backend) (w : Work) : Option Error × Work :=
  match w.tx.kind with
  | .plain => w.doCommitPlain b
  | .robust => w.doCommitRobust b

/-- What `close` does first, and all it does once the transaction is not active: the pending
error goes, and the object unregisters. -/
def unregister (w : Work) : Work :=
  let w := w.checkPendingError.2
  if w.tx.registered then
    { w with conn := { w.conn with trans := none }, tx := { w.tx with registered := false } }
  else w

/-- `abort`; the error of the `ROLLBACK` is dropped, and the `close` at its end finds the
status `aborted`. -/
def abort (b : Backend) (w : Work) : Option Error × Work :=
  match w.tx.status with
  | .active =>
    let w := (w.doAbort b).2
    (none, unregister { w with tx := { w.tx with status := .aborted } })
  | .aborted => (none, w)
  | .committed =>
    (some (.usageError ("Attempt to abort previously committed " ++ w.tx.description)), w)
  | .inDoubt => (none, w)

def close (b : Backend) (w : Work) : Work :=
  let w := w.unregister
  if w.tx.status = .active then (w.abort b).2 else w

/-- `commit`, on an active transaction without a pending error. -/
def commitActive (b : Backend) (w : Work) : Option Error × Work :=
  match w.tx.focus with
  | some f =>
    (some (.failure ("Attempt to commit " ++ w.tx.description ++ " with " ++ f.description ++
      " still open.")), w)
  | none =>
    if w.conn.isOpen then
      match w.doCommit b with
      | (none, w) => (none, close b { w with tx := { w.tx with status := .committed } })
      | (some (.inDoubtError what), w) =>
        (some (.inDoubtError what), { w with tx := { w.tx with status := .inDoubt } })
      | (some e, w) => (some e, { w with tx := { w.tx with status := .aborted } })
    else
      (some (.brokenConnection "Broken connection to backend; cannot complete transaction."), w)

def commit (b : Backend) (w : Work) : Option Error × Work :=
  match w.checkPendingError with
  | (some e, w) => (some e, w)
  | (none, w) =>
    match w.tx.status with
    | .active => w.commitActive b
    | .aborted =>
      (some (.usageError ("Attempt to commit previously aborted " ++ w.tx.description)), w)
    | .committed => (none, w)
    | .inDoubt =>
      (some (.inDoubtError (w.tx.description ++
        " committed again while in an indeterminate state.")), w)

def registerFocus (f : Focus) (w : Work) : Option Error × Work :=
  match w.tx.focus with
  | some old =>
    (some (if old.id = f.id then startedTwice old.description else startedNew f.description), w)
  | none => (none, { w with tx := { w.tx with focus := some f } })

/-- `unregister_focus`: anything but the present focus is only reported. -/
def unregisterFocus (f : Focus) (w : Work) : Work :=
  if w.tx.focus.map Focus.id = some f.id then { w with tx := { w.tx with focus := none } } else w

/-- `exec`; its `command` is the focus while it runs. -/
def exec (query desc : String) (b : Backend) (w : Work) : Option Error × Work :=
  match w.checkPendingError with
  | (some e, w) => (some e, w)
  | (none, w) =>
    match w.tx.focus with
    | some _ => (some (startedNew (describeObject "command" desc)), w)
    | none =>
      if w.tx.status = .active then w.directExec (.query query) (b.reply (.query query))
      else
        (some (.usageError ("Could not execute command " ++
          (if desc.isEmpty then "" else "'" ++ desc ++ "' ") ++
          ": transaction is already closed.")), w)

/-- `internal_exec_params`, and `internal_exec_prepared` with its statement: neither the
pending error nor the status is looked at. -/
def execParams (query : String) (b : Backend) (w : Work) : Option Error × Work :=
  match w.tx.focus with
  | some _ => (some (startedNew (describeObject "command" query)), w)
  | none =>
    let (e, conn) := w.conn.exec w.id (.query query) (b.reply (.query query))
    (e, { w with conn })

/-- `register_pending_error`: the first one stays. -/
def registerPendingError (err : String) (w : Work) : Work :=
  if w.tx.pendingError.isEmpty ∧ ¬ err.isEmpty then
    { w with tx := { w.tx with pendingError := err } }
  else w

end Work

/-! ### Any number of objects on one connection -/

/-- `txs` has an entry for each object made so far, empty once the object is gone. -/
structure World where
  conn : Conn := {}
  txs : List (Option Tx) := []
  deriving DecidableEq

inductive Event
  | construct (kind : Kind) (name xid : String) (backendpid : Int) (b : Backend)
  | exec (i : ℕ) (query desc : String) (b : Backend)
  | execParams (i : ℕ) (query : String) (b : Backend)
  | commit (i : ℕ) (b : Backend)
  | abort (i : ℕ) (b : Backend)
  | destroy (i : ℕ) (b : Backend)
  | registerFocus (i : ℕ) (f : Focus)
  | unregisterFocus (i : ℕ) (f : Focus)
  | registerPendingError (i : ℕ) (err : String)
  | disconnect

/-- The constructors. One that throws leaves no object, and the destructor of the base class
unregisters it; a robust transaction does not register. -/
def construct (kind : Kind) (name xid : String) (backendpid : Int) (b : Backend) (w : World) :
    Option Error × World :=
  let k : Work := ⟨w.txs.length, w.conn, { kind, name, xid, backendpid }⟩
  match kind with
  | .plain =>
    match k.registerTransaction with
    | (some e, k) => (some e, ⟨k.conn, w.txs ++ [none]⟩)
    | (none, k) =>
      match k.directExec .beginCmd (b.reply .beginCmd) with
      | (some e, k) => (some e, ⟨k.unregister.conn, w.txs ++ [none]⟩)
      | (none, k) => (none, ⟨k.conn, w.txs ++ [some k.tx]⟩)
  | .robust =>
    match k.directExec .beginCmd (b.reply .beginCmd) with
    | (some e, k) => (some e, ⟨k.conn, w.txs ++ [none]⟩)
    | (none, k) =>
      match k.directExec txidQuery (b.reply txidQuery) with
      | (some e, k) => (some e, ⟨k.conn, w.txs ++ [none]⟩)
      | (none, k) => (none, ⟨k.conn, w.txs ++ [some k.tx]⟩)

/-- Object `i` with the connection, if it is there. -/
def World.work (w : World) (i : ℕ) : Option Work :=
  match w.txs[i]? with
  | some (some tx) => some ⟨i, w.conn, tx⟩
  | _ => none

def World.set (w : World) (k : Work) : World := ⟨k.conn, w.txs.set k.id (some k.tx)⟩

def World.gone (w : World) (k : Work) : World := ⟨k.conn, w.txs.set k.id none⟩

/-- One call; to an object that is not there it is not defined. -/
def call (w : World) : Event → Option (Option Error × World)
  | .construct kind name xid backendpid b => some (construct kind name xid backendpid b w)
  | .exec i query desc b => (w.work i).map fun k => (k.exec query desc b).map id w.set
  | .execParams i query b => (w.work i).map fun k => (k.execParams query b).map id w.set
  | .commit i b => (w.work i).map fun k => (k.commit b).map id w.set
  | .abort i b => (w.work i).map fun k => (k.abort b).map id w.set
  | .destroy i b => (w.work i).map fun k => (none, w.gone (k.close b))
  | .registerFocus i f => (w.work i).map fun k => (k.registerFocus f).map id w.set
  | .unregisterFocus i f => (w.work i).map fun k => (none, w.set (k.unregisterFocus f))
  | .registerPendingError i err =>
    (w.work i).map fun k => (none, w.set (k.registerPendingError err))
  | .disconnect => some (none, { w with conn := { w.conn with isOpen := false } })

def step (w : World) (e : Event) : Option World := (call w e).map Prod.snd

def World.Live (w : World) (i : ℕ) (tx : Tx) : Prop := w.txs[i]? = some (some tx)

instance (w : World) (i : ℕ) (tx : Tx) : Decidable (w.Live i tx) :=
  inferInstanceAs (Decidable (_ = _))

/-- A backend that accepts every command. -/
def accepting : Backend := ⟨fun _ => .ok, fun _ => .ok "committed"⟩

end DbCoursework.Transactions

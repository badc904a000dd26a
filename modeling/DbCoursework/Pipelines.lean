import DbCoursework.Programs
import DbCoursework.Runs
import Mathlib.Algebra.Ring.Nat
import Mathlib.Data.Int.Notation
import Mathlib.Data.List.Basic

/-!
The pipeline.

Queries go in at the front and are sent in batches; results come out at the back. An iterator
into `m_queries` is the number of its query, or nothing at the end of the map; to follow one
that leads to no query is undefined. What the backend makes of a text, and when a result is
there, is the environment's choice, by the moment of the connection's clock.
-/

namespace DbCoursework.Pipelines

open DbCoursework.Programs DbCoursework.Runs

/-! ### The connection -/

/-- A `PGresult`, of a statement that was executed at a moment. The pipeline sees the outcome
alone: an error or rows. -/
structure PgResult where
  statement : String
  moment : ℕ
  outcome : Except String (List (List String))

structure Env where
  /-- What the backend makes of a text that is sent at a moment: the results, in their order. -/
  answers : ℕ → String → List PgResult
  /-- Why `PQsendQuery` fails, if it does. -/
  refuses : ℕ → Option String
  busy : ℕ → Bool
  input : ℕ → Bool
  /-- Why `PQcancel` fails, if it does. -/
  cancels : ℕ → Option String

variable (env : Env)

def PgResult.failed (r : PgResult) : Bool :=
  match r.outcome with
  | .error _ => true
  | .ok _ => false

structure Conn where
  clock : ℕ := 0
  /-- What `PQgetResult` has yet to return before it returns null. -/
  results : List PgResult := []
  /-- Null has not been returned yet. -/
  inProgress : Bool := false
  sent : List String := []

/-! ### The state of a pipeline -/

structure Result where
  data : PgResult
  query : String

/-- `result::empty`. -/
def isEmpty : Option Result → Bool
  | none => true
  | some r =>
    match r.data.outcome with
    | .error _ => true
    | .ok rows => rows.isEmpty

structure Query where
  query : String
  res : Option Result := none

inductive Err
  | logicError (what : String)
  | runtimeError (what : String)
  | rangeError (what : String)
  | overflowError (what : String)
  | internalError (what : String)
  | brokenConnection
  | failure (what : String)
  | sqlError (what query : String)
  /-- No exception: the end of the map, or a query that is not in it, was followed. -/
  | undefined
  /-- No exception: a loop has more rounds than there are results. -/
  | stuck
  deriving DecidableEq

def qidLimit : ℕ := 2 ^ 63 - 1

structure Pipeline where
  queries : List (ℕ × Query) := []
  issuedFirst : Option ℕ := none
  issuedSecond : Option ℕ := none
  retain : ℤ := 0
  numWaiting : ℤ := 0
  qId : ℕ := 0
  dummyPending : Bool := false
  error : ℕ := qidLimit
  registered : Bool := true
  conn : Conn := {}

namespace Pipeline

variable (s : Pipeline)

def havePending : Bool := s.issuedSecond ≠ s.issuedFirst

/-- `++it`, for the iterator of a query. -/
def next (id : ℕ) : Option ℕ := (s.queries.find? (id < ·.1)).map Prod.fst

/-- The queries from an iterator to the end of the map. -/
def fromIt : Option ℕ → List (ℕ × Query)
  | none => []
  | some id => s.queries.filter (id ≤ ·.1)

/-- The queries from `m_issuedrange.first` up to an iterator. -/
def range (stop : Option ℕ) : List (ℕ × Query) :=
  (s.fromIt s.issuedFirst).takeWhile (some ·.1 ≠ stop)

def setErrorAt (qid : ℕ) : Pipeline := { s with error := min s.error qid }

def setRes (id : ℕ) (res : Result) : Pipeline :=
  { s with
    queries := s.queries.map fun e => if e.1 = id then (e.1, { e.2 with res := some res }) else e }

def tick : Pipeline := { s with conn := { s.conn with clock := s.conn.clock + 1 } }

/-- What the connection had yet to return is dropped. -/
def drained : Pipeline :=
  { s with conn := { s.conn with clock := s.conn.clock + 1, results := [], inProgress := false } }

end Pipeline

abbrev Op (α : Type) := Prog Pipeline Err α

/-! ### The connection's functions -/

def getResult : Op (Option PgResult) := fun s =>
  match s.conn.results with
  | r :: rs => (.ok (some r), { s with conn := { s.conn with results := rs } })
  | [] => (.ok none, { s with conn := { s.conn with inProgress := false } })

def isBusy : Op Bool := fun s => (.ok (s.conn.inProgress && env.busy s.conn.clock), s.tick)

def consumeInput : Op Bool := fun s => (.ok (env.input s.conn.clock), s.tick)

def startExec (query : String) : Op Unit := fun s =>
  if s.conn.inProgress then (.error (.failure "another command is already in progress\n"), s.tick)
  else
    match env.refuses s.conn.clock with
    | some what => (.error (.failure what), s.tick)
    | none =>
      let results := env.answers (s.conn.clock + 1) query
      (.ok (), { s with
        conn :=
          { clock := s.conn.clock + 1 + results.length
            results := results
            inProgress := true
            sent := s.conn.sent ++ [query] } })

def cancelQuery : Op Unit := fun s =>
  match env.cancels s.conn.clock with
  | some what => (.error (.sqlError what "[cancel]"), s.tick)
  | none => (.ok (), s.tick)

/-- `check_status`. -/
def checkStatus : Option Result → Op Result
  | none => throw (.failure "No result set given.")
  | some r =>
    match r.data.outcome with
    | .error what => throw (.sqlError what r.query)
    | .ok _ => return r

/-- `transaction_base::exec`. `PQexec` drops the results of earlier commands, and of its own it
returns the last. -/
def exec (query : String) : Op Result := do
  let s ← get
  set s.drained
  match (env.answers s.conn.clock query).getLast? with
  -- `make_result` throws, whether the connection is still there or not
  | none => throw .brokenConnection
  | some r => checkStatus (some ⟨r, query⟩)

/-! ### The pipeline's functions -/

def theSeparator : String := "; "

def theDummyValue : String := "1"

def theDummyStatement : String := "SELECT " ++ theDummyValue

def theDummyQuery : String := theDummyStatement ++ theSeparator

def internalError {α : Type} (what : String) : Op α := do
  modify fun s => s.setErrorAt 0
  throw (.internalError what)

/-- `obtain_result` after a null. -/
def noResult (expectNone : Bool) : Op Bool := do
  let s ← get
  if s.havePending ∧ ¬ expectNone then
    match s.issuedFirst with
    | none => throw .undefined
    | some id =>
      set { s.setErrorAt id with issuedSecond := s.issuedFirst }
      return false
  else return false

/-- `obtain_result` with a result, which is made for the query at the front of the map. -/
def storeResult (r : PgResult) : Op Bool := do
  let s ← get
  match s.queries.head? with
  | none => throw .undefined
  | some (oldest, q) =>
    if ¬ s.havePending then
      set (s.setErrorAt oldest)
      throw (.logicError "Got more results from pipeline than there were queries.")
    else
      match s.issuedFirst with
      | none => throw .undefined
      | some id =>
        match s.queries.lookup id with
        | none => throw .undefined
        | some pending =>
          if ¬ isEmpty pending.res then internalError "Multiple results for one query."
          else
            set { s.setRes id ⟨r, q.query⟩ with issuedFirst := s.next id }
            return true

def obtainResult (expectNone : Bool) : Op Bool := do
  match ← getResult with
  | none => noResult expectNone
  | some r => storeResult r

/-- `R.at(0).at(0)`. -/
def firstField : List (List String) → Except Err String
  | [] => .error (.rangeError "Row number out of range.")
  | [] :: _ => .error (.rangeError "Invalid field number.")
  | (value :: _) :: _ => .ok value

/-- The queries of a failed batch, one at a time: a loop that runs at least once. -/
def replay (stop : Option ℕ) : List (ℕ × Query) → Op Unit
  | [] => throw .undefined
  | (id, q) :: rest => do
    modify fun s => { s with numWaiting := s.numWaiting - 1 }
    let res ← exec env q.query
    modify fun s => s.setRes id res
    let _ ← checkStatus (some res)
    let s ← get
    set { s with issuedFirst := s.next id }
    if s.next id = stop then return () else replay stop rest

/-- The handler: the query that failed is the last one with a result. -/
def replayFailed : Op Unit := do
  let s ← get
  match s.issuedFirst with
  | none => throw .undefined
  | some thud =>
    let q := s.next thud
    set { s.setErrorAt (q.getD (thud + 1)) with issuedFirst := q, issuedSecond := q }

def replayBatch (res : Result) : Op Unit := do
  let s ← get
  let batch := s.range s.issuedSecond
  set (batch.foldl (fun s e => s.setRes e.1 res) s)
  let _ ← obtainResult true
  let s ← get
  set { s with
    numWaiting := s.numWaiting + (s.range s.issuedSecond).length
    issuedSecond := s.issuedFirst
    registered := false }
  tryCatch (replay env s.issuedSecond (s.fromIt s.issuedFirst)) fun e =>
    if e = .undefined then throw e else replayFailed

def obtainDummy : Op Unit := do
  let r ← getResult
  modify fun s => { s with dummyPending := false }
  match r with
  | none => internalError "Pipeline got no result from backend when it expected one."
  | some r =>
    match r.outcome with
    | .ok rows =>
      if rows.length > 1 then internalError "Unexpected result for dummy query in pipeline."
      else
        match firstField rows with
        | .error e => throw e
        | .ok value =>
          if value ≠ theDummyValue then
            internalError "Dummy query in pipeline returned unexpected value."
          else return ()
    | .error _ => replayBatch env ⟨r, "[DUMMY PIPELINE QUERY]"⟩

def issue : Op Unit := do
  let _ ← obtainResult false
  let s ← get
  if s.error < qidLimit then return ()
  else
    let oldest := s.issuedSecond
    let batch := (s.fromIt oldest).map (·.2.query)
    let cum := theSeparator.intercalate batch
    let prependDummy : Bool := batch.length > 1
    startExec env (if prependDummy then theDummyQuery ++ cum else cum)
    modify fun s =>
      { s with
        dummyPending := prependDummy
        issuedFirst := oldest
        issuedSecond := none
        numWaiting := s.numWaiting - batch.length }

/-- `while (not gate.is_busy() and obtain_result())`, with its body. -/
def furtherRound : Op Bool := do
  if ← isBusy env then return false
  else if ← obtainResult false then
    if ← consumeInput env then return true else throw .brokenConnection
  else return false

def getFurtherAvailableResults : Op Unit := do
  let s ← get
  Prog.loop (furtherRound env) .stuck (s.conn.results.length + 1)

def receiveIfAvailable : Op Unit := do
  if ← consumeInput env then
    if ← isBusy env then return ()
    else
      let s ← get
      Prog.when s.dummyPending (obtainDummy env)
      let s ← get
      Prog.when s.havePending (getFurtherAvailableResults env)
  else throw .brokenConnection

/-- `while (obtain_result() and m_issuedrange.first != stop)`. -/
def receiveRound (stop : Option ℕ) : Op Bool := do
  if ← obtainResult false then
    let s ← get
    return s.issuedFirst ≠ stop
  else return false

def receive (stop : Option ℕ) : Op Unit := do
  let s ← get
  Prog.when s.dummyPending (obtainDummy env)
  let s ← get
  Prog.loop (receiveRound stop) .stuck (s.conn.results.length + 1)
  let s ← get
  Prog.when (s.issuedFirst = stop) (getFurtherAvailableResults env)

def attach : Op Unit := modify fun s => { s with registered := true }

def detach : Op Unit := modify fun s => { s with registered := false }

def generateId : Op ℕ := do
  let s ← get
  if s.qId = qidLimit then throw (.overflowError "Too many queries went through pipeline.")
  else
    set { s with qId := s.qId + 1 }
    return s.qId + 1

/-- The number is the greatest so far: the new query stands at the end of the map. -/
def enqueue (qid : ℕ) (q : String) : Op Unit :=
  modify fun s =>
    { s with
      queries := s.queries ++ [(qid, { query := q })]
      issuedSecond := s.issuedSecond.getD qid
      issuedFirst := if s.issuedSecond = none then some (s.issuedFirst.getD qid) else s.issuedFirst
      numWaiting := s.numWaiting + 1 }

/-- What `insert` does when more queries wait than are to be retained. -/
def proceed : Op Unit := do
  let s ← get
  Prog.when s.havePending (receiveIfAvailable env)
  let s ← get
  Prog.when (¬ s.havePending) (issue env)

def insert (q : String) : Op ℕ := do
  attach
  let qid ← generateId
  enqueue qid q
  let s ← get
  Prog.when (s.numWaiting > s.retain) (proceed env)
  return qid

def complete : Op Unit := do
  let s ← get
  Prog.when s.havePending (receive env s.issuedSecond)
  let s ← get
  Prog.when (s.numWaiting ≠ 0 ∧ s.error = qidLimit) do
    issue env
    receive env none
  detach

def flush : Op Unit := do
  let s ← get
  Prog.when (¬ s.queries.isEmpty) do
    Prog.when s.havePending (receive env s.issuedSecond)
    modify fun s =>
      { s with
        issuedFirst := none
        issuedSecond := none
        numWaiting := 0
        dummyPending := false
        queries := [] }
  detach

/-- The loop of `cancel`, over the queries from `m_issuedrange.first` on. -/
def cancelAll : List (ℕ × Query) → Op Unit
  | [] => do
    let s ← get
    -- The range has no end: `++m_issuedrange.first` passes the end of the map.
    Prog.when s.havePending (throw .undefined)
  | (id, _) :: rest => do
    cancelQuery env
    modify fun s =>
      { s with issuedFirst := s.next id, queries := s.queries.filter (·.1 ≠ id) }
    cancelAll rest

def cancel : Op Unit := do
  let s ← get
  Prog.when s.havePending (cancelAll env (s.range s.issuedSecond))

def isFinished (q : ℕ) : Op Bool := do
  let s ← get
  if (s.queries.lookup q).isNone then
    throw (.logicError ("Requested status for unknown query '" ++ toString q ++ "'."))
  else
    match s.issuedFirst with
    | none => return true
    | some first => return q < first ∧ q < s.error

def resume : Op Unit := do
  let s ← get
  Prog.when s.havePending (receiveIfAvailable env)
  let s ← get
  Prog.when (¬ s.havePending ∧ s.numWaiting ≠ 0) do
    issue env
    receiveIfAvailable env

def setRetain (retainMax : ℤ) : Op ℤ := do
  if retainMax < 0 then
    throw (.rangeError ("Attempt to make pipeline retain " ++ toString retainMax ++ " queries"))
  else
    let s ← get
    set { s with retain := retainMax }
    Prog.when (s.numWaiting ≥ retainMax) (resume env)
    return s.retain

def earlierError : String :=
  "Could not complete query in pipeline due to error in earlier query."

/-- If the query has not been issued yet. -/
def issueFor (q : ℕ) : Op Unit := do
  let s ← get
  Prog.when (s.issuedSecond.any (· ≤ q)) do
    Prog.when s.havePending (receive env s.issuedSecond)
    let s ← get
    Prog.when (s.error = qidLimit) (issue env)

/-- If its result is not in yet. -/
def receiveFor (q : ℕ) : Op Unit := do
  let s ← get
  Prog.when s.havePending <|
    match s.issuedFirst with
    | none => throw .undefined
    | some first =>
      if q ≥ first then receive env (s.next q) else receiveIfAvailable env

/-- The query is erased before the status of its result is checked. -/
def takeResult (q : ℕ) : Op (ℕ × Result) := do
  let s ← get
  match s.queries.lookup q with
  | none => throw .undefined
  | some query =>
    set { s with queries := s.queries.filter (·.1 ≠ q) }
    let r ← checkStatus query.res
    return (q, r)

/-- `retrieve(iterator)`. -/
def retrieveAt : Option ℕ → Op (ℕ × Result)
  | none => throw (.logicError "Attempt to retrieve result for unknown query.")
  | some q => do
    let s ← get
    if q ≥ s.error then throw (.runtimeError earlierError)
    else
      issueFor env q
      receiveFor env q
      let s ← get
      if q ≥ s.error then throw (.runtimeError earlierError)
      else
        Prog.when (s.numWaiting ≠ 0 ∧ ¬ s.havePending ∧ s.error = qidLimit) (issue env)
        takeResult q

/-- `retrieve(qid)`. -/
def retrieve (qid : ℕ) : Op (ℕ × Result) := do
  let s ← get
  retrieveAt env ((s.queries.lookup qid).map fun _ => qid)

/-- `retrieve()`. -/
def retrieveOldest : Op (ℕ × Result) := do
  let s ← get
  match s.queries.head? with
  | none => throw (.logicError "Attempt to retrieve result from empty pipeline.")
  | some (qid, _) => retrieveAt env (some qid)

/-! ### Runs -/

/-- A call from outside. -/
inductive Call
  | insert (q : String)
  | complete
  | flush
  | cancel
  | isFinished (qid : ℕ)
  | retain (retainMax : ℤ)
  | resume
  | retrieve (qid : ℕ)
  | retrieveOldest

def call : Call → Op Unit
  | .insert q => do let _ ← insert env q
  | .complete => complete env
  | .flush => flush env
  | .cancel => cancel env
  | .isFinished qid => do let _ ← isFinished qid
  | .retain retainMax => do let _ ← setRetain env retainMax
  | .resume => resume env
  | .retrieve qid => do let _ ← retrieve env qid
  | .retrieveOldest => do let _ ← retrieveOldest env

/-- A call may end in an exception; after what is undefined there is no state. -/
def step (s : Pipeline) (c : Call) : Option Pipeline :=
  match call env c s with
  | (.error .undefined, _) => none
  | (_, t) => some t

end DbCoursework.Pipelines

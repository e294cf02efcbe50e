import DocDrift.Digest
import DocDrift.Failure
import DocDrift.Keyed
import DocDrift.Store.Cost

/-!
The store: five tables, what can be asked of them, and what can be written to them. A write is a
value of its own, so that the writes of a pass can be listed and followed again. A table can be
missing; then whatever needs it fails, and nothing is changed.
-/

set_option autoImplicit false

namespace DocDrift

open Store

/-- The tables of the store; a missing table is nothing. -/
structure Store where
  ledger : Option (NameMap LedgerRow)
  markers : Option (NameMap MarkerRow)
  /-- The symbols of each file that has any. -/
  symbols : Option (NameMap (NameMap SymbolRow))
  usage : Option (List UsageRow)
  analyses : Option (Keyed Pair AnalysisRow)
  deriving Inhabited

namespace Store

def empty : Store :=
  ⟨some [], some [], some [], some [], some []⟩

/-- A store in which no table is missing; tables that were missing are empty. -/
def prepared (store : Store) : Store :=
  { ledger := some (store.ledger.getD [])
    markers := some (store.markers.getD [])
    symbols := some (store.symbols.getD [])
    usage := some (store.usage.getD [])
    analyses := some (store.analyses.getD []) }

inductive Table
  | ledger
  | markers
  | symbols
  | usage
  | analyses
  deriving DecidableEq, Repr

def drop (store : Store) : Table → Store
  | .ledger => { store with ledger := none }
  | .markers => { store with markers := none }
  | .symbols => { store with symbols := none }
  | .usage => { store with usage := none }
  | .analyses => { store with analyses := none }

/-- What is found in the store, or the failure of the store. -/
def found {α : Type} : Option α → Except Failure α
  | some value => .ok value
  | none => .error .store

/-! ### Questions -/

/-- What was documented of a file. -/
def row? (store : Store) (path : String) : Except Failure (Option LedgerRow) := do
  return (← found store.ledger).find? path

/-- What was documented of all files, in the order of their paths. -/
def entries (store : Store) : Except Failure (NameMap LedgerRow) :=
  found store.ledger

def marker? (store : Store) (repository : String) : Except Failure (Option MarkerRow) := do
  return (← found store.markers).find? repository

/-- The documented symbols of a file, in the order of their names. -/
def symbolsOf (store : Store) (path : String) : Except Failure (NameMap SymbolRow) := do
  return ((← found store.symbols).find? path).getD []

/-- The rows of the usage ledger in the order in which they were written. -/
def usageRows (store : Store) : Except Failure (List UsageRow) :=
  found store.usage

/-- What the usage ledger adds up to. -/
def costs (store : Store) : Except Failure CostReport := do
  found (CostReport.ofRows? (← found store.usage))

/-- The verdict that is kept for a change, if one is kept; a row that cannot be read is a failure
of the store. -/
def verdict? (store : Store) (pair : Pair) : Except Failure (Option Verdict) := do
  match (← found store.analyses).find? pair with
  | none => return none
  | some row => return some (← found (Verdict.ofRow? row))

/-- How much the store keeps. -/
structure Statistics where
  files : Nat
  symbols : Nat
  analyses : Nat
  usage : Nat
  lastUpdated : Option String
  deriving DecidableEq, Repr

/-- The last of some times. -/
def latest : List String → Option String
  | [] => none
  | time :: rest =>
      match latest rest with
      | some other => some (if time < other then other else time)
      | none => some time

def statistics (store : Store) : Except Failure Statistics := do
  let ledger ← found store.ledger
  let symbols ← found store.symbols
  let analyses ← found store.analyses
  let usage ← found store.usage
  return {
    files := ledger.length
    symbols := symbols.values.foldr (fun rows count => rows.length + count) 0
    analyses := analyses.length
    usage := usage.length
    lastUpdated := latest (ledger.values.map (·.updatedAt)) }

/-! ### Checks -/

/-- How a file compares with the ledger. -/
structure Check where
  needsUpdate : Bool
  /-- Whether nothing was documented of the file yet. -/
  isNew : Bool
  current : Option String
  last : Option String
  /-- Why the file could not be read. -/
  fault : Option FileFault
  deriving DecidableEq, Repr

def check (store : Store) (path : String) (contents : ByteArray) : Except Failure Check := do
  let last := (← store.row? path).map (·.digest)
  let current := Digest.ofBytes contents
  return {
    needsUpdate := last != some current
    isNew := last.isNone
    current := some current
    last := last
    fault := none }

/-- Compares a file with the ledger, whether or not it could be read. -/
def checkRead (store : Store) (path : String) (contents : Except FileFault ByteArray) :
    Except Failure Check := do
  match contents with
  | .ok contents => store.check path contents
  | .error fault =>
      let last := (← store.row? path).map (·.digest)
      return { needsUpdate := false, isNew := last.isNone, current := none, last, fault := some fault }

/-! ### Writes -/

inductive Write
  /-- A file was documented. -/
  | documented (path digest : String) (document : Option String)
  /-- A repository was processed up to a commit. -/
  | processed (repository commit : String)
  /-- The symbols of a file. -/
  | listed (path : String) (names : List String) (digest : String)
  /-- A document was generated at a cost. -/
  | spent (usage : Usage)
  /-- A change was scored. -/
  | scored (pair : Pair) (verdict : Verdict)

/-- Adds a symbol to those of a file; one that is there already keeps its time. -/
def addSymbol (now digest name : String) (rows : NameMap SymbolRow) : NameMap SymbolRow :=
  let since := ((rows.find? name).map (·.since)).getD now
  rows.insert name ⟨since, digest⟩

/-- The symbols of a file after names were listed: those that were not listed with the digest go. -/
def listSymbols (now digest : String) (names : List String) (rows : NameMap SymbolRow) :
    NameMap SymbolRow :=
  (names.foldl (fun rows name => addSymbol now digest name rows) rows).filter
    (fun row => row.2.digest == digest)

/-- A cost as it is kept: zero has no sign. -/
def keptCost (cost : Float) : Float :=
  cost + 0.0

def write (now : String) (store : Store) : Write → Except Failure Store
  | .documented path digest document => do
      let ledger ← found store.ledger
      return { store with ledger := some (ledger.insert path ⟨digest, document, now⟩) }
  | .processed repository commit => do
      let markers ← found store.markers
      return { store with markers := some (markers.insert repository ⟨commit, now⟩) }
  | .listed path names digest => do
      let symbols ← found store.symbols
      let rows := listSymbols now digest names ((symbols.find? path).getD [])
      return { store with
        symbols := some (if rows.isEmpty then symbols.erase path else symbols.insert path rows) }
  | .spent usage => do
      let rows ← found store.usage
      if usage.cost.isNaN then .error .store
      else
        let kept := { usage with cost := keptCost usage.cost }
        return { store with usage := some (rows ++ [⟨rows.length + 1, kept, now⟩]) }
  | .scored pair verdict => do
      let analyses ← found store.analyses
      return { store with analyses := some (Keyed.put pair verdict.toRow analyses) }

/-- Forgets the files that are gone, and their symbols; how many there were comes second. -/
def cleanup (store : Store) (isGone : String → Bool) : Except Failure (Store × Nat) := do
  let ledger ← found store.ledger
  let gone := ledger.names.filter isGone
  if gone.isEmpty then return (store, 0)
  else
    let symbols ← found store.symbols
    return (
      { store with
        ledger := some (ledger.filter (fun row => !isGone row.1))
        symbols := some (symbols.filter (fun row => !gone.contains row.1)) },
      gone.length)

def mapAnalyses (store : Store) (change : AnalysisRow → AnalysisRow) : Except Failure Store := do
  let analyses ← found store.analyses
  return { store with analyses := some (analyses.map fun row => (row.1, change row.2)) }

end Store

end DocDrift

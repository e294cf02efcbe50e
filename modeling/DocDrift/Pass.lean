import DocDrift.Config
import DocDrift.FileTree
import DocDrift.Generator
import DocDrift.History
import DocDrift.Pass.Report

/-!
A pass: the files that changed since the last processed commit are evaluated one after another, and
documented anew where it matters. A failure of the store ends the pass; any other failure concerns
one file. The marker of the repository is set last, so a pass that ends early is made again from
where it began.

What a pass does is kept as a list of effects, and what it asks the history as a list of questions.
-/

set_option autoImplicit false

namespace DocDrift

/-- What a pass works with. -/
structure Pass where
  /-- The directory of the repository. -/
  root : String
  /-- The name under which the repository has its marker. -/
  repository : String
  history : History
  generator : Generator
  config : Config
  /-- Whether every file is documented, changed or not. -/
  force : Bool
  /-- The time that is written. -/
  now : String

namespace Pass

inductive Effect
  /-- The directory that a path lies in was made. -/
  | madeParent (path : String)
  | wroteFile (path text : String)
  | wroteStore (write : Store.Write)

/-- Where a pass has got to. -/
structure World where
  files : FileTree
  store : Store
  /-- What was changed, in order. -/
  effects : List Effect
  /-- What the history was asked, in order. -/
  asked : List Question
  deriving Inhabited

namespace World

def start (files : FileTree) (store : Store) : World :=
  ⟨files, store, [], []⟩

/-- What an effect makes of files and store. -/
def follow (now : String) (world : World) : Effect → Except Failure World
  | .madeParent path =>
      match world.files.makeParent path with
      | .ok files => .ok { world with files, effects := world.effects ++ [.madeParent path] }
      | .error fault => .error (.file fault)
  | .wroteFile path text =>
      match world.files.write path text.toUTF8 with
      | .ok files => .ok { world with files, effects := world.effects ++ [.wroteFile path text] }
      | .error fault => .error (.file fault)
  | .wroteStore write => do
      let store ← world.store.write now write
      return { world with store, effects := world.effects ++ [.wroteStore write] }

end World

/-- A step of a pass: it may fail, and whatever was done before stays done. -/
abbrev Step := ExceptT Failure (StateM World)

def ask {α : Type} (question : Question) (answer : Except Failure α) : Step α := do
  modify fun world => { world with asked := world.asked ++ [question] }
  liftExcept answer
where
  liftExcept (answer : Except Failure α) : Step α :=
    match answer with
    | .ok value => pure value
    | .error failure => throw failure

/-- Looks something up in the store. -/
def look {α : Type} (question : Store → Except Failure α) : Step α := do
  match question (← get).store with
  | .ok value => pure value
  | .error failure => throw failure

/-- Changes files or store. -/
def perform (pass : Pass) (effect : Effect) : Step Unit := do
  match (← get).follow pass.now effect with
  | .ok world => set world
  | .error failure => throw failure

/-- The verdict on a change of a file: the one that is kept, or a new one, which is kept. -/
def judge (pass : Pass) (target old new digest : String) (summary : Option Summary) :
    Step Store.Verdict := do
  let pair : Store.Pair := ⟨target, Digest.ofBytes old.toUTF8, digest⟩
  match ← look (·.verdict? pair) with
  | some verdict => return verdict
  | none =>
      let change := TextChange.between old new
      let (delta, privates) :=
        match (Summary.ofSource old).toOption, summary with
        | some before, some after =>
            (Delta.between before after, before.privateMembers ++ after.privateMembers)
        | _, _ => (Delta.empty, [])
      let documented ← look (·.symbolsOf target)
      let result := Significance.ofValid pass.config.scoring change delta
        ⟨documented.names, privates⟩
      let verdict : Store.Verdict :=
        ⟨result.score, result.classification, result.recommendation, pass.now⟩
      pass.perform (.wroteStore (.scored pair verdict))
      return verdict

/-- Why a verdict advises against a new document. -/
def reasonAgainst (verdict : Store.Verdict) : String :=
  "score " ++ toString verdict.score ++ ": " ++
    verdict.recommendation.reasons.getLast?.getD ""

/-- Documents a file and notes what was documented. -/
def document (pass : Pass) (path target source digest : String) (summary : Option Summary)
    (score : Option Nat) : Step Outcome := do
  let generated ←
    match pass.generator path source with
    | .ok generated => pure generated
    | .error failure => throw failure
  let place := pass.config.documentPath path
  pass.perform (.madeParent (Path.join pass.root place))
  pass.perform (.wroteFile (Path.join pass.root place) generated.text)
  pass.perform (.wroteStore (.documented target digest (some place)))
  match summary with
  | some summary => pass.perform (.wroteStore (.listed target summary.symbolNames digest))
  | none => pure ()
  match generated.expense with
  | some expense =>
      pass.perform (.wroteStore (.spent
        ⟨expense.model, expense.input, expense.output, expense.cost, some target⟩))
  | none => pure ()
  return .processed path score place

def contents (target : String) : Step ByteArray := do
  match (← get).files.read target with
  | .ok bytes => pure bytes
  | .error fault => throw (.unreadable target fault)

/-- Evaluates a file; what it was before is its text at a commit, if there is one to start from. -/
def evaluate (pass : Pass) (path : String) (base : Option String) : Step Outcome := do
  let target := Path.join pass.root path
  if !(← get).files.exists? target then return .skipped path "deleted"
  else
    let bytes ← contents target
    let check ← look (·.check target bytes)
    if !check.needsUpdate && !pass.force then return .skipped path "unchanged"
    else
      let digest := Digest.ofBytes bytes
      let source := Text.decodeLossy bytes
      let summary := (Summary.ofSource source).toOption
      let old ←
        match base with
        | some commit =>
            if check.isNew then pure none
            else ask (.textAt path commit) (pass.history.textAt path commit)
        | none => pure none
      match old with
      | none => pass.document path target source digest summary none
      | some old =>
          let verdict ← pass.judge target old source digest summary
          if verdict.recommendation.regenerate then
            pass.document path target source digest summary (some verdict.score)
          else return .skipped path (reasonAgainst verdict)

/-- Evaluates a file; only a failure of the store is one of the pass. -/
def settle (pass : Pass) (path : String) (base : Option String) : Step Outcome :=
  tryCatch (pass.evaluate path base) fun failure =>
    if failure.isFatal then throw failure else return .failed path failure.message

/-- Evaluates files one after another. -/
def settleAll (pass : Pass) (base : Option String) : List String → Step (List Outcome)
  | [] => return []
  | path :: rest => do
      let outcome ← pass.settle path base
      return outcome :: (← settleAll pass base rest)

/-- The commit to start from: the last processed one, if it is still there. -/
def baseOf (pass : Pass) (previous : Option String) : Step (Option String) := do
  match previous with
  | some commit =>
      if pass.force then return none
      else if ← ask (.knows commit) (pass.history.knows commit) then return some commit
      else return none
  | none => return none

/-- The files that may have to be evaluated. -/
def candidates (pass : Pass) (base : Option String) (head : String) : Step (List String) := do
  match base with
  | some commit =>
      let _ ← ask (.between commit head) (pass.history.between commit head)
      ask (.changed commit head) (pass.history.changed commit head)
  | none => ask .files pass.history.files

def steps (pass : Pass) : Step Report := do
  match ← ask .head pass.history.head with
  | none => return .empty
  | some head =>
      let previous := (← look (·.marker? pass.repository)).map (·.commit)
      if previous == some head && !pass.force then return ⟨some head, previous, [], false⟩
      else
        let base ← pass.baseOf previous
        let paths := (← pass.candidates base head).filter pass.config.tracks
        let outcomes ← pass.settleAll base paths
        pass.perform (.wroteStore (.processed pass.repository head))
        return ⟨some head, previous, outcomes, true⟩

/-- Makes a pass: the report, or why it ended early, and what was done. -/
def run (pass : Pass) (files : FileTree) (store : Store) : Except Failure Report × World :=
  (pass.steps).run (World.start files store)

end Pass

end DocDrift

import DocDrift.Text.Line

/-!
The line comparison of two texts. `lineDiff` yields edits that keep, remove and add runs of lines;
the kept and removed lines are the old text, the kept and added lines the new one. The edits are
found by splitting both sides at the middle of a shortest path, and are then moved up and down so
that changes next to each other come together.
-/

set_option autoImplicit false

namespace DocDrift

/-- A line with its terminator. -/
abbrev Line := List Char

/-- A run of lines that both texts share, that only the old one has, or that only the new one
has. -/
inductive Edit
  | keep (lines : List Line)
  | remove (lines : List Line)
  | add (lines : List Line)
  deriving DecidableEq, Repr

namespace Edit

def lines : Edit → List Line
  | .keep lines => lines
  | .remove lines => lines
  | .add lines => lines

def oldLines : Edit → List Line
  | .add _ => []
  | edit => edit.lines

def newLines : Edit → List Line
  | .remove _ => []
  | edit => edit.lines

def isRemoval : Edit → Bool
  | .remove _ => true
  | _ => false

def isAddition : Edit → Bool
  | .add _ => true
  | _ => false

end Edit

namespace LineDiff

def commonStart : List Line → List Line → Nat
  | a :: as, b :: bs => if a = b then commonStart as bs + 1 else 0
  | _, _ => 0

def commonEnd (as bs : List Line) : Nat :=
  commonStart as.reverse bs.reverse

/-! ### The middle of a shortest path -/

/-- How far the paths of one direction reach on each diagonal. -/
structure Frontier where
  reach : Array Nat
  /-- Where diagonal zero is kept. -/
  center : Nat

namespace Frontier

/-- A frontier for paths with at most a number of edits. -/
def start (most : Nat) : Frontier :=
  ⟨Array.replicate (2 * most + 3) 0, most + 1⟩

def get (frontier : Frontier) (diagonal : Int) : Nat :=
  frontier.reach.getD (diagonal + frontier.center).toNat 0

def set (frontier : Frontier) (diagonal : Int) (value : Nat) : Frontier :=
  { frontier with
    reach := frontier.reach.setIfInBounds (diagonal + frontier.center).toNat value }

/-- Where a path with one more edit begins on a diagonal. -/
def step (frontier : Frontier) (edits : Nat) (diagonal : Int) : Nat :=
  let fromAbove := frontier.get (diagonal + 1)
  let fromBelow := frontier.get (diagonal - 1)
  if diagonal = -(edits : Int) ∨ (diagonal ≠ edits ∧ fromBelow < fromAbove) then fromAbove
  else fromBelow + 1

end Frontier

/-- The length of the run of equal lines from two positions on. -/
def runForward (old new : Array Line) : Nat → Nat → Nat → Nat
  | 0, _, _ => 0
  | count + 1, x, y =>
      match old[x]?, new[y]? with
      | some a, some b => if a = b then runForward old new count (x + 1) (y + 1) + 1 else 0
      | _, _ => 0

/-- The diagonals that paths with a number of edits can end on, from the highest down. -/
def diagonals (edits : Nat) : List Int :=
  (List.range (edits + 1)).map (fun (index : Nat) => (edits : Int) - 2 * (index : Int))

/-- One direction of the search with a given number of edits: the frontier it leaves, or the place
where it meets the frontier of the other direction. -/
def advance (old new : Array Line) (other : Frontier) (edits : Nat) (meets : Int → Nat → Bool) :
    List Int → Frontier → Frontier × Option (Nat × Nat × Nat × Nat)
  | [], frontier => (frontier, none)
  | diagonal :: rest, frontier =>
      let x := frontier.step edits diagonal
      let y : Int := x - diagonal
      let run := if 0 ≤ y then runForward old new old.size x y.toNat else 0
      let next := frontier.set diagonal (x + run)
      if meets diagonal (x + run) then (next, some (x, y.toNat, x + run, y.toNat + run))
      else advance old new other edits meets rest next

/-- The search from both ends with more and more edits. The result splits both sides: how many
lines of each belong to the first part. -/
def search (old new oldBack newBack : Array Line) :
    Nat → Nat → Frontier → Frontier → Option (Nat × Nat)
  | 0, _, _, _ => none
  | rounds + 1, edits, ahead, back =>
      let n := old.size
      let m := new.size
      let delta : Int := (n : Int) - m
      let odd := delta % 2 ≠ 0
      let meetsAhead (diagonal : Int) (x : Nat) : Bool :=
        odd && (diagonal - delta).natAbs + 1 ≤ edits && n ≤ x + back.get (delta - diagonal)
      match advance old new back edits meetsAhead (diagonals edits) ahead with
      | (_, some (x, y, _, _)) => some (x, y)
      | (ahead', none) =>
          let meetsBack (diagonal : Int) (x : Nat) : Bool :=
            !odd && (diagonal - delta).natAbs ≤ edits && n ≤ x + ahead'.get (delta - diagonal)
          match advance oldBack newBack ahead' edits meetsBack (diagonals edits) back with
          | (_, some (_, _, x, y)) => some (n - x, m - y)
          | (back', none) => search old new oldBack newBack rounds (edits + 1) ahead' back'

/-- Where two sides without a common start or end are best split, if a split is found. -/
def middle? (old new : List Line) : Option (Nat × Nat) :=
  let most := (old.length + new.length + 1) / 2 + 1
  let start := Frontier.start most
  search old.toArray new.toArray old.reverse.toArray new.reverse.toArray most 0 start start

/-! ### Edits -/

def keeping (lines : List Line) : List Edit :=
  if lines = [] then [] else [.keep lines]

/-- The edits that lead from one list of lines to another, found by splitting both; the bound is on
the depth of the splits. -/
def editsWithin : Nat → List Line → List Line → List Edit
  | 0, old, new => [.remove old, .add new]
  | depth + 1, old, new =>
      let start := commonStart old new
      let oldRest := old.drop start
      let newRest := new.drop start
      let stop := commonEnd oldRest newRest
      let oldPart := oldRest.take (oldRest.length - stop)
      let newPart := newRest.take (newRest.length - stop)
      let between :=
        if oldPart = [] ∧ newPart = [] then []
        else if newPart = [] then [.remove oldPart]
        else if oldPart = [] then [.add newPart]
        else
          match middle? oldPart newPart with
          | some (x, y) =>
              editsWithin depth (oldPart.take x) (newPart.take y) ++
                editsWithin depth (oldPart.drop x) (newPart.drop y)
          | none => [.remove oldPart, .add newPart]
      keeping (old.take start) ++ between ++ keeping (oldRest.drop (oldRest.length - stop))

/-! ### Bringing changes together -/

/-- An edit among others: those before it, last first, and those behind it. -/
structure Focus where
  before : List Edit
  edit : Edit
  behind : List Edit

def keepInFront (lines : List Line) : List Edit → List Edit
  | .keep more :: rest => .keep (lines ++ more) :: rest
  | edits => .keep lines :: edits

/-- Puts lines that both texts keep behind edits that are listed last first. -/
def keepBehind (lines : List Line) : List Edit → List Edit
  | .keep more :: rest => .keep (more ++ lines) :: rest
  | edits => .keep lines :: edits

/-- Moves an edit one step towards the start, if it can be moved. -/
def up? : Focus → Option Focus
  | ⟨.keep kept :: before, .add lines, behind⟩ =>
      let shared := commonEnd kept lines
      if shared = 0 then
        if kept = [] then some ⟨before, .add lines, behind⟩ else none
      else
        let rest := kept.take (kept.length - shared)
        let moved := kept.drop (kept.length - shared)
        some
          { before := if rest = [] then before else .keep rest :: before
            edit := .add (moved ++ lines.take (lines.length - shared))
            behind := keepInFront moved behind }
  | ⟨.keep [] :: before, .remove lines, behind⟩ => some ⟨before, .remove lines, behind⟩
  | ⟨.remove more :: before, .remove lines, behind⟩ => some ⟨before, .remove (more ++ lines), behind⟩
  | ⟨.add more :: before, .add lines, behind⟩ => some ⟨before, .add (more ++ lines), behind⟩
  | ⟨.remove more :: before, .add lines, behind⟩ => some ⟨before, .add lines, .remove more :: behind⟩
  | ⟨.add more :: before, .remove lines, behind⟩ => some ⟨before, .remove lines, .add more :: behind⟩
  | _ => none

/-- Moves an edit one step towards the end, if it can be moved. -/
def down? : Focus → Option Focus
  | ⟨before, .add lines, .keep kept :: behind⟩ =>
      let shared := commonStart kept lines
      if shared = 0 then
        if kept = [] then some ⟨before, .add lines, behind⟩ else none
      else
        let rest := kept.drop shared
        let moved := kept.take shared
        some
          { before := keepBehind moved before
            edit := .add (lines.drop shared ++ moved)
            behind := if rest = [] then behind else .keep rest :: behind }
  | ⟨before, .remove lines, .keep [] :: behind⟩ => some ⟨before, .remove lines, behind⟩
  | ⟨before, .remove lines, .remove more :: behind⟩ => some ⟨before, .remove (lines ++ more), behind⟩
  | ⟨before, .add lines, .add more :: behind⟩ => some ⟨before, .add (lines ++ more), behind⟩
  | ⟨before, .add lines, .remove more :: behind⟩ => some ⟨.remove more :: before, .add lines, behind⟩
  | ⟨before, .remove lines, .add more :: behind⟩ => some ⟨.add more :: before, .remove lines, behind⟩
  | _ => none

/-- Repeats a step until it does not apply, at most a number of times. -/
def repeated (step : Focus → Option Focus) : Nat → Focus → Focus
  | 0, focus => focus
  | count + 1, focus =>
      match step focus with
      | none => focus
      | some next => repeated step count next

/-- What an edit counts for in the bound on the steps: each step uses up some of it. -/
def weight (edits : List Edit) : Nat :=
  edits.foldr (fun edit total => edit.lines.length + 1 + total) 0

/-- Moves every edit of one kind up and then down as far as it can be moved. -/
def settle (chosen : Edit → Bool) : Nat → List Edit → List Edit → List Edit
  | 0, before, behind => before.reverse ++ behind
  | _, before, [] => before.reverse
  | count + 1, before, edit :: behind =>
      if chosen edit then
        let bound := weight (before ++ edit :: behind) + 1
        let raised := repeated up? bound ⟨before, edit, behind⟩
        let settled := repeated down? bound raised
        settle chosen count (settled.edit :: settled.before) settled.behind
      else settle chosen count (edit :: before) behind

/-- Brings changes together: first the removals, then the additions. -/
def compacted (edits : List Edit) : List Edit :=
  let settleAll (chosen : Edit → Bool) (edits : List Edit) : List Edit :=
    let bound := weight edits + 1
    settle chosen (bound * bound) [] edits
  settleAll Edit.isAddition (settleAll Edit.isRemoval edits)

end LineDiff

def lineDiff (old new : List Line) : List Edit :=
  LineDiff.compacted (LineDiff.editsWithin (old.length + new.length + 1) old new)

/-! ### Hunks -/

/-- The lines that change between two runs of kept lines. -/
structure Hunk where
  removed : List Line
  added : List Line
  deriving DecidableEq, Repr

/-- A hunk, unless nothing changes in it. -/
def Hunk.orNothing (hunk : Hunk) : List Hunk :=
  if hunk.removed = [] ∧ hunk.added = [] then [] else [hunk]

/-- The hunks of edits, the first one with changes that were collected before. -/
def hunksFrom : Hunk → List Edit → List Hunk
  | sofar, [] => sofar.orNothing
  | sofar, .keep _ :: rest => sofar.orNothing ++ hunksFrom ⟨[], []⟩ rest
  | sofar, .remove lines :: rest => hunksFrom ⟨sofar.removed ++ lines, sofar.added⟩ rest
  | sofar, .add lines :: rest => hunksFrom ⟨sofar.removed, sofar.added ++ lines⟩ rest

def hunks (edits : List Edit) : List Hunk :=
  hunksFrom ⟨[], []⟩ edits

end DocDrift

import DocDrift.Failure
import DocDrift.Pass.Report

/-!
Passes at intervals until a shutdown is asked for. Shutdown is asked for on a channel that holds a
flag; it is looked at between passes, never during one. Between two passes either the interval goes
by or a new value of the flag arrives.
-/

set_option autoImplicit false

namespace DocDrift.Poll

/-- What happens on the channel during a pass. -/
inductive Signal
  /-- A value is sent. -/
  | send (value : Bool)
  /-- The sender goes away. -/
  | drop
  | quiet
  deriving DecidableEq, Repr

/-- The channel as its receiver sees it. -/
structure Channel where
  value : Bool
  /-- Whether a value was sent that the receiver has not waited for yet. -/
  unseen : Bool
  /-- Whether the sender is gone. -/
  closed : Bool
  deriving DecidableEq, Repr

namespace Channel

/-- A channel that holds a value which the receiver knows. -/
def holding (value : Bool) : Channel :=
  ⟨value, false, false⟩

/-- The channel after a signal; nothing is sent once the sender is gone. -/
def after (channel : Channel) : Signal → Channel
  | .send value => if channel.closed then channel else ⟨value, true, false⟩
  | .drop => { channel with closed := true }
  | .quiet => channel

/-- The channel after waiting for the interval or a new value; nothing if the sender is gone and
has left no value to be seen. -/
def wait? (channel : Channel) : Option Channel :=
  if channel.unseen then some { channel with unseen := false }
  else if channel.closed then none
  else some channel

end Channel

/-- A pass: what happens on the channel meanwhile, and how the pass ends. -/
structure Turn where
  signal : Signal
  result : Except Failure Pass.Report

/-- What the loop has done. -/
structure Progress where
  /-- How many passes were counted. -/
  passes : Nat
  /-- The passes that were made. -/
  turns : List Turn

/-- Notes a pass; it counts however it ends. -/
def Progress.next (progress : Progress) (turn : Turn) : Progress :=
  ⟨progress.passes + 1, progress.turns ++ [turn]⟩

/-- The loop from some progress on. After the given passes comes one that asks for a shutdown. -/
def loop (channel : Channel) (progress : Progress) : List Turn → Progress
  | [] =>
      if channel.value then progress
      else progress.next ⟨.send true, .ok .empty⟩
  | turn :: rest =>
      if channel.value then progress
      else
        let progress := progress.next turn
        match (channel.after turn.signal).wait? with
        | some channel => loop channel progress rest
        | none => progress

/-- The loop from its beginning. -/
def run (initial : Bool) (turns : List Turn) : Progress :=
  loop (.holding initial) ⟨0, []⟩ turns

end DocDrift.Poll

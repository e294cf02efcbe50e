import DocDrift.Change.Severity
import DocDrift.Json.Error

/-!
Why the description of a change cannot be scored: it contradicts itself, or it is not a
description at all.
-/

set_option autoImplicit false

namespace DocDrift

inductive InputFault
  /-- A change of layout only cannot be a change of another kind as well. -/
  | layoutWithOtherChanges
  /-- A kind of change is reported where nothing changed. -/
  | changeWithoutHunks
  | wrongSeverity (given expected : Severity)
  /-- An interface came or went that is not among the types that did. -/
  | unlistedInterface (name : String)
  | malformed (error : Json.Error)

def InputFault.message : InputFault → String
  | .layoutWithOtherChanges => "whitespace_only diff must not carry other change flags"
  | .changeWithoutHunks => "change flags set but no changed hunks counted"
  | .wrongSeverity given expected =>
      "severity " ++ given.label ++ " does not match change sets (expected " ++
        expected.label ++ ")"
  | .unlistedInterface name => "interface '" ++ name ++ "' missing from type change set"
  | .malformed error => "malformed payload: " ++ error.message

def InputFault.report (fault : InputFault) : String :=
  "Invalid analysis input: " ++ fault.message

end DocDrift

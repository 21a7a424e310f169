import ChatFlow.Action.Profile
import ChatFlow.Fault
import ChatFlow.Graph.Lint

/-!
# Preconditions of business actions

Before an action takes place, its required variables must be present, its attempts must be under
their limit, and a reason must be given if one is demanded, in that order. A successful action is
counted afterwards.
-/

namespace ChatFlow

/-- Why an action does not take place although nothing is wrong with its node. -/
structure Blocked where
  port : String
  message : String
  reason : String
  deriving DecidableEq, Repr

/-- The outcome of checking an action before it takes place. -/
inductive Verdict
  | proceed
  | blocked (b : Blocked)
  /-- The counter of successes has reached its limit. -/
  | exhausted (attempts limit : Int)
  deriving DecidableEq, Repr

namespace ActionData

variable (profile : ActionProfile) (data : ActionData) (vars : Fields) (node : String)

/-- Whether a variable is absent, null or a text of blanks. -/
def isBlank (name : String) : Bool :=
  ((vars.get? name).getD .null).isAbsentOr Text.isBlankText

/-- The variable that counts the successes of a node; empty if they are not counted. -/
def counter : String :=
  if !profile.counterVariable.isEmpty then profile.counterVariable
  else if data.maxAttempts.isSome && !node.isEmpty then node ++ "_attempts"
  else ""

def limit : Option Int :=
  match data.maxAttempts with
  | some n => some n
  | none => profile.defaultMaxAttempts

/-- The count in a variable. Anything that is not a number or a numeral counts as zero; an infinite
number cannot be converted. -/
def countOf : Value → Except Fault Int
  | .int n => .ok n
  | .bool b => .ok (if b then 1 else 0)
  | .float (.infinite _) => .error .overflow
  | .float x => .ok (x.truncate?.getD 0)
  | .str s => .ok ((Text.integer? s).getD 0)
  | _ => .ok 0

def attempts (counter : String) : Except Fault Int :=
  if counter.isEmpty then .ok 0
  else countOf ((vars.get? counter).getD (.int 0))

/-- The variables that must be present: those of the node if it names any list, or else those of
its profile. -/
def required : List String :=
  data.requiredFields.getD profile.requiredFields

/-- The text, or another one if it is empty. -/
def textOr (s fallback : String) : String :=
  if s.isEmpty then fallback else s

def checkReason : Verdict :=
  if data.requireReason && isBlank vars (textOr profile.reasonVariable "reason") then
    .blocked ⟨needReasonPort, profile.needReasonMessage, "reason_required"⟩
  else .proceed

def check : Except Fault Verdict :=
  if (required profile data).any (isBlank vars) then
    .ok (.blocked ⟨failurePort, textOr data.failureMessage profile.missingFieldsMessage,
      "missing_fields"⟩)
  else
    let name := counter profile data node
    match limit profile data with
    | some most =>
      if name.isEmpty then .ok (checkReason profile data vars)
      else do
        let n ← attempts vars name
        if most ≤ n then return .exhausted n most else return checkReason profile data vars
    | none => .ok (checkReason profile data vars)

/-- The variables that a success sets: its counter, and the flag of its profile. -/
def successPatch : Except Fault Fields := do
  let name := counter profile data node
  let counted : Fields ←
    if name.isEmpty then pure []
    else pure [(name, .int ((← attempts vars name) + 1))]
  if profile.resultFlag.isEmpty then return counted
  else return Table.insert counted profile.resultFlag (.bool true)

end ActionData

end ChatFlow

import ChatFlow.Value.Basic

/-!
# Dotted paths

A name is looked up among the variables as it stands. Only if there is no such variable, its dots
lead into nested objects.
-/

namespace ChatFlow.Template

/-- The parts of a text between the separators; one part more than there are separators. -/
def splitAt (separator : Char) : List Char → List (List Char)
  | [] => [[]]
  | c :: r =>
    if c = separator then [] :: splitAt separator r
    else
      match splitAt separator r with
      | [] => [[c]]
      | part :: parts => (c :: part) :: parts

/-- The value at the end of a path of keys into nested objects. -/
def descend : Value → List String → Option Value
  | v, [] => some v
  | .object fields, key :: path => (Table.get? fields key).bind (descend · path)
  | _, _ :: _ => none

/-- The value of a name: a variable of that name, or else what its dots lead to. -/
def resolve (vars : Fields) (name : String) : Option Value :=
  match vars.get? name with
  | some v => some v
  | none => descend (.object vars) ((splitAt '.' name.toList).map String.ofList)

end ChatFlow.Template

/-!
# Scripts

A script gives its answers in order and repeats the last one.
-/

namespace ChatFlow

/-- Answers in order; the last one is repeated. -/
abbrev Script (α : Type) := List α

namespace Script

variable {α : Type}

/-- The next answer, and the script from then on. -/
def next? : Script α → Option (α × Script α)
  | [] => none
  | [a] => some (a, [a])
  | a :: rest => some (a, rest)

/-- The next answer, or another one where the script is empty. -/
def take (fallback : α) (s : Script α) : α × Script α :=
  (next? s).getD (fallback, s)

end Script

end ChatFlow

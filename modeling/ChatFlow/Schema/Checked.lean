/-!
# Checked values

Reading authored data either succeeds or reports every issue it finds, each with the place where it
was found. Combining two checked values keeps the issues of both, in order.
-/

namespace ChatFlow.Schema

/-- One step from a value into one of its parts. -/
inductive Step
  | field (name : String)
  | item (index : Nat)
  /-- What stands under a key that is an integer. -/
  | key (n : Int)
  deriving DecidableEq, Repr

/-- What is wrong with a value. -/
inductive Complaint
  | missing
  | notText
  | notInteger
  /-- A text that is not a numeral. -/
  | notNumeral
  /-- A number with a fractional part where an integer is due. -/
  | fractional
  /-- An integral number or a numeral that is too large to be converted. -/
  | tooLarge
  | notFinite
  | notBoolean
  /-- A text or a number that stands for neither truth value. -/
  | ambiguousBoolean
  | notList
  | notTuple
  | notSet
  | notDictionary
  | notRecord
  | notMember
  /-- A key that is no text, where all fields are kept under their names. -/
  | notName
  /-- A rule about the whole value is broken. -/
  | broken (rule : String)
  deriving DecidableEq, Repr

/-- A complaint and the place it is about. -/
structure Issue where
  place : List Step
  complaint : Complaint
  deriving DecidableEq, Repr

/-- The issue as seen from a value of which the place is a part. -/
def Issue.under (step : Step) (issue : Issue) : Issue :=
  { issue with place := step :: issue.place }

/-- A value, or the issues that stand against it. -/
inductive Checked (α : Type)
  | valid (value : α)
  | faulty (issues : List Issue)

namespace Checked

variable {α β : Type}

/-- A single complaint about the value as a whole. -/
def complain (c : Complaint) : Checked α := .faulty [⟨[], c⟩]

def issues : Checked α → List Issue
  | valid _ => []
  | faulty is => is

def value? : Checked α → Option α
  | valid a => some a
  | faulty _ => none

/-- Valid unless there are issues. -/
def ofIssues : List Issue → Checked Unit
  | [] => .valid ()
  | is => .faulty is

/-- The same with its issues moved into a part of a larger value. -/
def under (step : Step) : Checked α → Checked α
  | valid a => .valid a
  | faulty is => .faulty (is.map (·.under step))

def map (f : α → β) : Checked α → Checked β
  | valid a => .valid (f a)
  | faulty is => .faulty is

/-- A checked function of a checked value; the issues of both are kept. -/
def ap (f : Checked (α → β)) (x : Checked α) : Checked β :=
  match f, x with
  | valid f, valid a => .valid (f a)
  | valid _, faulty is => .faulty is
  | faulty is, valid _ => .faulty is
  | faulty is, faulty js => .faulty (is ++ js)

instance : Applicative Checked where
  pure := .valid
  map := map
  seq f x := ap f (x ())

/-- A check that looks at the value only when it is valid so far. -/
def andThen (x : Checked α) (f : α → Checked β) : Checked β :=
  match x with
  | valid a => f a
  | faulty is => .faulty is

/-- The values of a list, each checked on its own at its index. -/
def traverse (f : α → Checked β) (xs : List α) : Checked (List β) :=
  go 0 xs
where
  /-- The values from an index on. -/
  go (i : Nat) : List α → Checked (List β)
    | [] => .valid []
    | x :: rest => ap (map List.cons ((f x).under (.item i))) (go (i + 1) rest)

def toExcept : Checked α → Except (List Issue) α
  | valid a => .ok a
  | faulty is => .error is

@[simp] theorem ap_valid (f : α → β) (a : α) : ap (.valid f) (.valid a) = .valid (f a) := rfl

@[simp] theorem map_valid (f : α → β) (a : α) : map f (.valid a) = .valid (f a) := rfl

@[simp] theorem seq_eq_ap (f : Checked (α → β)) (x : Checked α) : f <*> x = ap f x := rfl

@[simp] theorem pure_eq_valid (a : α) : (pure a : Checked α) = .valid a := rfl

@[simp] theorem functor_map_eq_map (f : α → β) (x : Checked α) : f <$> x = map f x := rfl

end Checked

end ChatFlow.Schema

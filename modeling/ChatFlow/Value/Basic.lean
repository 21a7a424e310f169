import ChatFlow.Number.Basic
import ChatFlow.Table

/-!
# Dynamic values

Session variables, node configurations and adapter answers hold whatever their authors put there.
Integers and floating point numbers stay apart, and an object keeps its fields in order.
-/

namespace ChatFlow

/-- A value without a fixed type. -/
inductive Value
  | null
  | bool (b : Bool)
  | int (n : Int)
  | float (x : Double)
  | str (s : String)
  | list (items : List Value)
  | object (fields : List (String × Value))
  deriving Repr, Inhabited

namespace Value

mutual

def same : Value → Value → Bool
  | null, null => true
  | bool a, bool b => a == b
  | int a, int b => a == b
  | float a, float b => a == b
  | str a, str b => a == b
  | list a, list b => sameItems a b
  | object a, object b => sameFields a b
  | _, _ => false

def sameItems : List Value → List Value → Bool
  | [], [] => true
  | v :: r, w :: s => same v w && sameItems r s
  | _, _ => false

def sameFields : List (String × Value) → List (String × Value) → Bool
  | [], [] => true
  | (k, v) :: r, (l, w) :: s => k == l && same v w && sameFields r s
  | _, _ => false

end

mutual

theorem same_iff (a b : Value) : same a b = true ↔ a = b := by
  cases a <;> cases b <;> simp [same]
  · exact sameItems_iff _ _
  · exact sameFields_iff _ _

theorem sameItems_iff (a b : List Value) : sameItems a b = true ↔ a = b := by
  match a, b with
  | [], [] => simp [sameItems]
  | [], _ :: _ => simp [sameItems]
  | _ :: _, [] => simp [sameItems]
  | v :: r, w :: s => simp [sameItems, same_iff v w, sameItems_iff r s]

theorem sameFields_iff (a b : List (String × Value)) : sameFields a b = true ↔ a = b := by
  match a, b with
  | [], [] => simp [sameFields]
  | [], _ :: _ => simp [sameFields]
  | _ :: _, [] => simp [sameFields]
  | (k, v) :: r, (l, w) :: s => simp [sameFields, same_iff v w, sameFields_iff r s]

end

instance : DecidableEq Value := fun a b => decidable_of_iff _ (same_iff a b)

end Value

/-- The fields of an object, or the variables of a session. -/
abbrev Fields := Table String Value

namespace Value

/-- Null, false, zero and everything empty are not truthy; all else is. -/
def isTruthy : Value → Bool
  | null => false
  | bool b => b
  | int n => n != 0
  | float x => !x.isZero
  | str s => !s.isEmpty
  | list items => !items.isEmpty
  | object fields => !fields.isEmpty

/-- The value as a number; a truth value counts as one or zero. -/
def number? : Value → Option Number
  | bool b => some (.int (if b then 1 else 0))
  | int n => some (.int n)
  | float x => some (.float x)
  | _ => none

def fields? : Value → Option Fields
  | object fields => some fields
  | _ => none

/-- Whether a value is null or a text of blanks, given the class of blank texts. -/
def isAbsentOr (blank : String → Bool) : Value → Bool
  | null => true
  | str s => blank s
  | _ => false

end Value

end ChatFlow

import ChatFlow.Schema.Checked
import ChatFlow.Value.Integer

/-!
# Readers

A reader turns a value without a fixed type into one of a fixed type. Texts are never made from
other values; integers and truth values are also read from numbers and texts that stand for one.
A field may have several names: the first name that is present counts, even if its value is null,
and issues are reported under that name.
-/

namespace ChatFlow.Schema

abbrev Reader (α : Type) := Value → Checked α

namespace Reader

variable {α : Type}

def any : Reader Value := .valid

def text : Reader String
  | .str s => .valid s
  | _ => .complain .notText

/-- Null, or what the other reader accepts. -/
def optional (read : Reader α) : Reader (Option α)
  | .null => .valid none
  | v => (read v).map some

/-- The digits of a numeral with the sign in front and a point and zeros behind. -/
def integerText (s : String) : Checked Int :=
  let cs := Text.stripBy Text.isWhiteSpace s.toList
  if Text.maxDigits < cs.length then .complain .tooLarge
  else
    let (negative, body) := Text.splitSign cs
    let whole := body.takeWhile (· ≠ '.')
    let zeros := (body.drop whole.length).drop 1
    let tail := body.length == whole.length || (!zeros.isEmpty && zeros.all (· == '0'))
    match Text.numeral? Text.asciiDigit? whole with
    | some ds =>
      if tail then .valid (Double.signed negative (Text.ofDigits ds)) else .complain .notNumeral
    | none => .complain .notNumeral

/-- An integral number strictly between the bounds of 64-bit integers. -/
def integerOfDouble (x : Double) : Checked Int :=
  match x.truncate? with
  | none => .complain .notFinite
  | some n =>
    if !x.isIntegral then .complain .fractional
    else if n.natAbs < Double.twoTo 63 then .valid n
    else .complain .tooLarge

/-- An integer, or a truth value, an integral number or a numeral in its place. -/
def integer : Reader Int
  | .int n => .valid n
  | .bool b => .valid (if b then 1 else 0)
  | .float x => integerOfDouble x
  | .str s => integerText s
  | _ => .complain .notInteger

/-- The words for a truth value, in small letters. -/
def booleanWords : List (String × Bool) :=
  [("0", false), ("off", false), ("f", false), ("false", false), ("n", false), ("no", false),
    ("1", true), ("on", true), ("t", true), ("true", true), ("y", true), ("yes", true)]

/-- A truth value, or a word or a number that stands for one. -/
def boolean : Reader Bool
  | .bool b => .valid b
  | .int n =>
    if n = 0 then .valid false else if n = 1 then .valid true else .complain .ambiguousBoolean
  | .float x =>
    match (Number.float x).compare? (.int 0), (Number.float x).compare? (.int 1) with
    | some .eq, _ => .valid false
    | _, some .eq => .valid true
    | _, _ => .complain .notBoolean
  | .str s =>
    match Table.get? booleanWords (s.map Char.toLower) with
    | some b => .valid b
    | none => .complain .ambiguousBoolean
  | _ => .complain .notBoolean

def list (read : Reader α) : Reader (List α)
  | .list vs => Checked.traverse read vs
  | _ => .complain .notList

/-- A list with a fixed order that is not changed any more. -/
def tuple (read : Reader α) : Reader (List α)
  | .list vs => Checked.traverse read vs
  | _ => .complain .notTuple

/-- A set given as a list; of equal members the first stands for all. -/
def set : Reader (List String)
  | .list vs => (Checked.traverse text vs).map fun xs =>
      xs.foldl (fun seen x => if x ∈ seen then seen else seen ++ [x]) []
  | _ => .complain .notSet

/-- An object with values of any kind. -/
def dictionary : Reader Fields
  | .object fields => .valid fields
  | _ => .complain .notDictionary

def member (ofName? : String → Option α) : Reader α
  | .str s =>
    match ofName? s with
    | some a => .valid a
    | none => .complain .notMember
  | _ => .complain .notMember

def record (read : Fields → Checked α) : Reader α
  | .object fields => read fields
  | _ => .complain .notRecord

end Reader

variable {α : Type}

/-- The name under which a field is present. -/
def presentName (fields : Fields) (names : List String) : Option String :=
  names.find? (Table.has fields)

/-- A field that takes a default when none of its names is present. -/
def field (fields : Fields) (names : List String) (read : Reader α) (default : α) : Checked α :=
  match presentName fields names with
  | some name => ((read ((Table.get? fields name).getD .null)).under (.field name))
  | none => .valid default

/-- A field that must be present under one of its names. -/
def required (fields : Fields) (name : String) (others : List String) (read : Reader α) :
    Checked α :=
  match presentName fields (name :: others) with
  | some found => ((read ((Table.get? fields found).getD .null)).under (.field found))
  | none => .faulty [⟨[.field name], .missing⟩]

/-- The fields whose names no declared field has taken. -/
def remaining (fields : Fields) (declared : List (List String)) : Fields :=
  let taken := declared.filterMap (presentName fields)
  fields.filter fun e => e.1 ∉ taken

end ChatFlow.Schema

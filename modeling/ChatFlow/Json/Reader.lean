import ChatFlow.Text.Digit
import ChatFlow.Value.Integer

/-!
# Reading JSON

`parse` reads one JSON text. Fields keep their order, the last of two fields with one name gives the
value, a number without fraction and exponent is an integer of any size up to 4300 digits, and the
words `NaN`, `Infinity` and `-Infinity` are numbers too.
-/

namespace ChatFlow.Json

def skipSpace (s : List Char) : List Char :=
  s.dropWhile fun c => c == ' ' || c == '\t' || c == '\n' || c == '\r'

def word? (w : String) (s : List Char) : Option (List Char) :=
  if w.toList.isPrefixOf s then some (s.drop w.length) else none

def hexDigit? (c : Char) : Option Nat :=
  if '0' ≤ c ∧ c ≤ '9' then some (c.toNat - 0x30)
  else if 'a' ≤ c ∧ c ≤ 'f' then some (c.toNat - 0x57)
  else if 'A' ≤ c ∧ c ≤ 'F' then some (c.toNat - 0x37)
  else none

/-- A number of four hexadecimal digits, and what follows it. -/
def unit? : List Char → Option (Nat × List Char)
  | a :: b :: c :: d :: rest => do
    let n :=
      (((← hexDigit? a) * 16 + (← hexDigit? b)) * 16 + (← hexDigit? c)) * 16 + (← hexDigit? d)
    return (n, rest)
  | _ => none

/-- A character that a backslash and one letter stand for. -/
def escaped? : Char → Option Char
  | '"' => some '"'
  | '\\' => some '\\'
  | '/' => some '/'
  | 'b' => some '\x08'
  | 'f' => some '\x0c'
  | 'n' => some '\n'
  | 'r' => some '\r'
  | 't' => some '\t'
  | _ => none

/-- The character that one or two units of sixteen bits stand for; half a pair has none. -/
def ofUnits (high : Nat) (rest : List Char) : Char × List Char :=
  if 0xd800 ≤ high ∧ high < 0xdc00 then
    match rest with
    | '\\' :: 'u' :: more =>
      match unit? more with
      | some (low, after) =>
        if 0xdc00 ≤ low ∧ low < 0xe000 then
          (Char.ofNat (0x10000 + (high - 0xd800) * 0x400 + (low - 0xdc00)), after)
        else ('\ufffd', rest)
      | none => ('\ufffd', rest)
    | _ => ('\ufffd', rest)
  else if 0xdc00 ≤ high ∧ high < 0xe000 then ('\ufffd', rest)
  else (Char.ofNat high, rest)

/-- The characters of a text up to the closing quote, and what follows it; `fuel` bounds their
number. -/
def textBody : Nat → List Char → List Char → Option (String × List Char)
  | 0, _, _ => none
  | fuel + 1, acc, s =>
    match s with
    | [] => none
    | '"' :: rest => some (String.ofList acc.reverse, rest)
    | '\\' :: 'u' :: rest => do
      let (n, rest) ← unit? rest
      let (c, rest) := ofUnits n rest
      textBody fuel (c :: acc) rest
    | '\\' :: c :: rest => do textBody fuel ((← escaped? c) :: acc) rest
    | c :: rest => if c.toNat < 0x20 then none else textBody fuel (c :: acc) rest

def digits (s : List Char) : List Nat × List Char :=
  let ds := s.takeWhile fun c => (Text.asciiDigit? c).isSome
  (ds.filterMap Text.asciiDigit?, s.drop ds.length)

/-- A point and the digits after it. -/
def fraction? : List Char → Option (List Nat × List Char)
  | '.' :: rest =>
    match digits rest with
    | ([], _) => none
    | (ds, rest) => some (ds, rest)
  | _ => none

/-- An exponent with its letter and sign. -/
def exponent? : List Char → Option (Int × List Char)
  | c :: rest =>
    if c = 'e' ∨ c = 'E' then
      let (negative, rest) := Text.splitSign rest
      match digits rest with
      | ([], _) => none
      | (ds, rest) => some (Double.signed negative (Text.ofDigits ds), rest)
    else none
  | [] => none

/-- The whole part of a number: a zero, or digits that do not begin with one. -/
def whole? (s : List Char) : Option (List Nat × List Char) :=
  match s with
  | '0' :: rest => some ([0], rest)
  | _ =>
    match digits s with
    | ([], _) => none
    | (ds, rest) => some (ds, rest)

/-- A number in front of a text, after its sign. -/
def number? (negative : Bool) (s : List Char) : Option (Value × List Char) := do
  let (ds, rest) ← whole? s
  let point := fraction? rest
  let rest := (point.map Prod.snd).getD rest
  let power := exponent? rest
  let rest := (power.map Prod.snd).getD rest
  if point.isNone && power.isNone then
    if ds.length ≤ Text.maxDigits then
      return (.int (Double.signed negative (Text.ofDigits ds)), rest)
    else none
  else
    let decimals := (point.map Prod.fst).getD []
    let shift : Int := (power.map Prod.fst).getD 0
    return (.float (.ofDecimal negative (Text.ofDigits (ds ++ decimals)) (shift - decimals.length)),
      rest)

mutual

/-- A value in front of a text, and what follows it. -/
def value? : Nat → List Char → Option (Value × List Char)
  | 0, _ => none
  | fuel + 1, s =>
    match s with
    | '"' :: rest => (textBody (rest.length + 1) [] rest).map fun (t, rest) => (.str t, rest)
    | '\x7b' :: rest =>
      match skipSpace rest with
      | '\x7d' :: rest => some (.object [], rest)
      | rest => (fields? fuel [] rest).map fun (fs, rest) => (.object fs, rest)
    | '[' :: rest =>
      match skipSpace rest with
      | ']' :: rest => some (.list [], rest)
      | rest => (items? fuel [] rest).map fun (vs, rest) => (.list vs, rest)
    | 'n' :: _ => (word? "null" s).map ((.null, ·))
    | 't' :: _ => (word? "true" s).map ((.bool true, ·))
    | 'f' :: _ => (word? "false" s).map ((.bool false, ·))
    | 'N' :: _ => (word? "NaN" s).map ((.float .notANumber, ·))
    | 'I' :: _ => (word? "Infinity" s).map ((.float (.infinite false), ·))
    | '-' :: 'I' :: _ => (word? "-Infinity" s).map ((.float (.infinite true), ·))
    | '-' :: rest => number? true rest
    | _ => number? false s

/-- The items of a list up to its closing bracket, after those read already. -/
def items? : Nat → List Value → List Char → Option (List Value × List Char)
  | 0, _, _ => none
  | fuel + 1, acc, s => do
    let (v, rest) ← value? fuel s
    match skipSpace rest with
    | ',' :: rest => items? fuel (v :: acc) (skipSpace rest)
    | ']' :: rest => some ((v :: acc).reverse, rest)
    | _ => none

/-- The fields of an object up to its closing brace, after those read already. -/
def fields? : Nat → Fields → List Char → Option (Fields × List Char)
  | 0, _, _ => none
  | fuel + 1, acc, s =>
    match s with
    | '"' :: rest => do
      let (key, rest) ← textBody (rest.length + 1) [] rest
      match skipSpace rest with
      | ':' :: rest => do
        let (v, rest) ← value? fuel (skipSpace rest)
        match skipSpace rest with
        | ',' :: rest => fields? fuel (acc.insert key v) (skipSpace rest)
        | '\x7d' :: rest => some (acc.insert key v, rest)
        | _ => none
      | _ => none
    | _ => none

end

/-- The value of a JSON text. Every nested value takes at least one character, so the length of the
text bounds the depth and the number of values. -/
def parse (text : String) : Option Value := do
  let s := text.toList
  let (v, rest) ← value? (2 * s.length + 2) (skipSpace s)
  if (skipSpace rest).isEmpty then return v else none

end ChatFlow.Json

import ChatFlow.Fault

/-!
# Addresses

An endpoint is either an address of its own or a path below the base address. Characters that an
address cannot hold are written as percent signs with the bytes of the character.
-/

namespace ChatFlow.Address

/-- Characters that stand for themselves in a path. -/
def isPathChar (c : Char) : Bool :=
  0x20 < c.toNat && c.toNat < 0x7F && c ∉ ['"', '<', '>', '`', '\x7b', '\x7d']

/-- Characters that stand for themselves after the question mark. -/
def isQueryChar (c : Char) : Bool :=
  0x20 < c.toNat && c.toNat < 0x7F && c ∉ ['"', '<', '>']

/-- A byte as a percent sign and two digits. -/
def escapeByte (b : UInt8) : List Char :=
  let digit (n : Nat) : Char := ("0123456789ABCDEF".toList[n]?).getD '0'
  ['%', digit (b.toNat / 16), digit (b.toNat % 16)]

/-- A character, or its bytes where it cannot stand for itself. -/
def escapeChar (isSafe : Char → Bool) (c : Char) : List Char :=
  if isSafe c then [c] else (String.toUTF8 c.toString).toList.flatMap escapeByte

/-- A path with a query, escaped. -/
def escape (cs : List Char) : List Char :=
  let path := cs.takeWhile (· ≠ '?')
  path.flatMap (escapeChar isPathChar) ++
    (cs.drop path.length).flatMap (escapeChar isQueryChar)

/-- Whether a text begins with a scheme and a host. -/
def isAbsolute (cs : List Char) : Bool :=
  let scheme := cs.takeWhile (· ≠ ':')
  match scheme, cs.drop scheme.length with
  | c :: _, ':' :: '/' :: '/' :: h :: _ =>
    c.isAlpha && scheme.all (fun d => d.isAlphanum || d ∈ ['+', '-', '.']) && h ∉ ['/', '?', '#']
  | _, _ => false

/-- A text without the slashes at its end. -/
def dropEnd (cs : List Char) : List Char :=
  (cs.reverse.dropWhile (· == '/')).reverse

/-- An address, escaped after its host. -/
def escapeAll (cs : List Char) : List Char :=
  if isAbsolute cs then
    let scheme := cs.takeWhile (· ≠ ':')
    let rest := cs.drop (scheme.length + 3)
    let host := rest.takeWhile (fun c => c ≠ '/' && c ≠ '?')
    scheme ++ [':', '/', '/'] ++ host ++ escape (rest.drop host.length)
  else escape cs

def join (base endpoint : String) : String :=
  let e := endpoint.toList
  let whole := if isAbsolute e then e else dropEnd base.toList ++ '/' :: e.dropWhile (· == '/')
  String.ofList (escapeAll whole)

end ChatFlow.Address

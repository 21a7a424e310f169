/-!
# Blank characters

`isBlank` is the class that `trim` removes: the property White_Space of Unicode and the four
information separators U+001C to U+001F. A zero-width space and a byte order mark are not blank.
-/

namespace ChatFlow.Text

/-- The Unicode property White_Space. -/
def isWhiteSpace (c : Char) : Bool :=
  let n := c.toNat
  (0x9 ≤ n && n ≤ 0xd) || n == 0x20 || n == 0x85 || n == 0xa0 || n == 0x1680 ||
    (0x2000 ≤ n && n ≤ 0x200a) || n == 0x2028 || n == 0x2029 || n == 0x202f || n == 0x205f ||
    n == 0x3000

/-- White space and the four information separators. -/
def isBlank (c : Char) : Bool :=
  isWhiteSpace c || (0x1c ≤ c.toNat && c.toNat ≤ 0x1f)

/-- What remains when all leading and trailing characters of a class are removed. -/
def stripBy (drop : Char → Bool) (cs : List Char) : List Char :=
  ((cs.dropWhile drop).reverse.dropWhile drop).reverse

def trim (s : String) : String :=
  String.ofList (stripBy isBlank s.toList)

/-- A text of blanks alone; the empty text is one. -/
def isBlankText (s : String) : Bool :=
  s.toList.all isBlank

@[simp] theorem stripBy_nil (drop : Char → Bool) : stripBy drop [] = [] := rfl

@[simp] theorem trim_empty : trim "" = "" := rfl

end ChatFlow.Text

/-!
# White space

Two sets of blank characters: those that surround a setting, and the smaller set that may
surround a written integer. Both are taken off the ends of a text only.
-/

namespace InfraGraph.Text

/-- White space: the ASCII controls that move the cursor or separate records, the space, and
Unicode's separators. -/
def isBlank (c : Char) : Bool :=
  let n := c.toNat
  (9 ≤ n && n ≤ 13) || (0x1C ≤ n && n ≤ 0x20) || n == 0x85 || n == 0xA0 || n == 0x1680 ||
    (0x2000 ≤ n && n ≤ 0x200A) || n == 0x2028 || n == 0x2029 || n == 0x202F || n == 0x205F ||
    n == 0x3000

/-- White space that may surround a written integer: every blank but the four ASCII record
separators. -/
def isNumberBlank (c : Char) : Bool :=
  isBlank c && !(0x1C ≤ c.toNat && c.toNat ≤ 0x1F)

/-- Take the leading and the trailing characters of a class off. -/
def trim (outer : Char → Bool) (cs : List Char) : List Char :=
  ((cs.dropWhile outer).reverse.dropWhile outer).reverse

def strip (s : String) : String := String.ofList (trim isBlank s.toList)

end InfraGraph.Text

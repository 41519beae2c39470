/-
Blank characters: the characters with the Unicode property White_Space, and cutting them from
the ends of a text.
-/

namespace NeighbourGraph.Text

/-- The first and last code point of each range of blank characters. -/
def blankRanges : List (Nat × Nat) :=
  [(0x09, 0x0D), (0x20, 0x20), (0x85, 0x85), (0xA0, 0xA0), (0x1680, 0x1680), (0x2000, 0x200A),
   (0x2028, 0x2029), (0x202F, 0x202F), (0x205F, 0x205F), (0x3000, 0x3000)]

/-- `c` is blank. -/
def isBlank (c : Char) : Bool := blankRanges.any fun (low, high) => low ≤ c.toNat && c.toNat ≤ high

/-- A text without the blank characters at its ends. -/
def trim (cs : List Char) : List Char :=
  ((cs.dropWhile isBlank).reverse.dropWhile isBlank).reverse

/-- `trim` on strings. -/
def trimmed (s : String) : String := String.ofList (trim s.toList)

/-- ASCII capitals become small letters; every other character stays. -/
def lowered (s : String) : String := String.ofList (s.toList.map Char.toLower)

end NeighbourGraph.Text

/-!
# White space

The characters with the property of white space, the 25 of all scripts.
-/

namespace ServingCatalog

namespace Text

/-- Whether a character is white space. -/
def isBlank (c : Char) : Bool :=
  let n := c.toNat
  (9 ≤ n && n ≤ 13) || n = 32 || n = 0x85 || n = 0xa0 || n = 0x1680 ||
    (0x2000 ≤ n && n ≤ 0x200a) || n = 0x2028 || n = 0x2029 || n = 0x202f || n = 0x205f ||
    n = 0x3000

/-- A text without the white space at its start. -/
def trimStart (text : List Char) : List Char := text.dropWhile isBlank

/-- A text without the white space at its end. -/
def trimEnd (text : List Char) : List Char := (text.reverse.dropWhile isBlank).reverse

/-- A text without the white space at its start and at its end. -/
def trim (text : List Char) : List Char := trimEnd (trimStart text)

end Text

end ServingCatalog

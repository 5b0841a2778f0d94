/-!
# Blanks

Which characters are blank, and what is left of a text without them.

* `isBlank` : the characters with the Unicode property `White_Space`.
* `trim` : a text without the blanks at its two ends.
* `words` : the pieces of a text between blanks.
-/

set_option autoImplicit false

namespace CpuMonitor.Text

/-- The code points with the property `White_Space`, as closed ranges. -/
def blankRanges : List (Nat × Nat) :=
  [(0x9, 0xD), (0x20, 0x20), (0x85, 0x85), (0xA0, 0xA0), (0x1680, 0x1680), (0x2000, 0x200A),
    (0x2028, 0x2029), (0x202F, 0x202F), (0x205F, 0x205F), (0x3000, 0x3000)]

def isBlank (c : Char) : Bool := blankRanges.any fun r => r.1 ≤ c.toNat && c.toNat ≤ r.2

def trimStart (s : List Char) : List Char := s.dropWhile isBlank

def trimEnd (s : List Char) : List Char := (s.reverse.dropWhile isBlank).reverse

def trim (s : List Char) : List Char := trimEnd (trimStart s)

/-- The longest runs of characters that are not blank, in text order. -/
def words (s : List Char) : List (List Char) := (s.splitOnP isBlank).filter fun w => !w.isEmpty

/-- The text with the letters `A` to `Z` made small; other letters keep their case. -/
def lower (s : List Char) : List Char := s.map Char.toLower

/-- The trimmed text with small letters: two spellings of one entry have one normal form. -/
def normalize (s : String) : String := String.ofList (lower (trim s.toList))

end CpuMonitor.Text

import ShaderTemplate.Text.Basic
import ShaderTemplate.Text.CodePoints

/-!
# White space

White space is the Unicode property `White_Space`: the ASCII blanks, the next-line character, the
no-break space and the typographic spaces, but neither the zero-width space nor the byte order
mark. Lines are trimmed by it, an indentation consists of it, and it parts the words of a loop
header.
-/

namespace ShaderTemplate.Text

/-- The code points with the property `White_Space`. -/
def blankRanges : List (Nat × Nat) :=
  [(0x9, 0xD), (0x20, 0x20), (0x85, 0x85), (0xA0, 0xA0), (0x1680, 0x1680), (0x2000, 0x200A),
    (0x2028, 0x2029), (0x202F, 0x202F), (0x205F, 0x205F), (0x3000, 0x3000)]

/-- Whether a character is white space. -/
def isBlank (c : Char) : Bool :=
  inRanges blankRanges c.toNat

/-- The white space a text starts with. -/
def indentation (text : Text) : Text :=
  text.takeWhile isBlank

/-- A text without the white space it starts with. -/
def trimStart (text : Text) : Text :=
  text.dropWhile isBlank

/-- A text without the white space it ends with. -/
def trimEnd (text : Text) : Text :=
  (text.reverse.dropWhile isBlank).reverse

/-- A text without the white space at its two ends. -/
def trim (text : Text) : Text :=
  trimEnd (trimStart text)

end ShaderTemplate.Text

import ShaderTemplate.Text.CodePoints

/-!
# Ignorable characters

Some characters are drawn as nothing at all unless a font knows better: joiners, selectors, tags,
and the four Hangul fillers, which are letters by category and still leave no trace on a screen.
They have the Unicode property `Default_Ignorable_Code_Point`. Messages write them as escapes, so
that two names which differ in nothing else can be told apart.
-/

namespace ShaderTemplate.Text

/-- The code points with the property `Default_Ignorable_Code_Point`, as of Unicode 17.0. -/
def defaultIgnorableRanges : List (Nat × Nat) :=
  [(0xAD, 0xAD), (0x34F, 0x34F), (0x61C, 0x61C), (0x115F, 0x1160), (0x17B4, 0x17B5),
    (0x180B, 0x180F), (0x200B, 0x200F), (0x202A, 0x202E), (0x2060, 0x206F), (0x3164, 0x3164),
    (0xFE00, 0xFE0F), (0xFEFF, 0xFEFF), (0xFFA0, 0xFFA0), (0xFFF0, 0xFFF8), (0x1BCA0, 0x1BCA3),
    (0x1D173, 0x1D17A), (0xE0000, 0xE0FFF)]

/-- Whether a character is drawn as nothing unless a font supports it. -/
def isDefaultIgnorable (c : Char) : Bool :=
  inRanges defaultIgnorableRanges c.toNat

end ShaderTemplate.Text

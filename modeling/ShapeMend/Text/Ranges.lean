/-!
# Character properties as ranges of code points

A property of characters beyond ASCII is data: a list of closed ranges of code
points.  The modules beside this one hold the longer tables, one each.
-/

namespace ShapeMend.Text

structure CodeRange where
  first : Nat
  last : Nat

namespace CodeRange

def contains (range : CodeRange) (c : Char) : Bool :=
  range.first ≤ c.toNat && c.toNat ≤ range.last

def anyContains (table : List CodeRange) (c : Char) : Bool :=
  table.any (·.contains c)

end CodeRange

/-! ## White space

The characters with the property `White_Space`, line ends included. -/

def blankRanges : List CodeRange :=
  [⟨0x9, 0xD⟩, ⟨0x20, 0x20⟩, ⟨0x85, 0x85⟩, ⟨0xA0, 0xA0⟩, ⟨0x1680, 0x1680⟩,
    ⟨0x2000, 0x200A⟩,
    ⟨0x2028, 0x2029⟩, ⟨0x202F, 0x202F⟩, ⟨0x205F, 0x205F⟩, ⟨0x3000, 0x3000⟩]

def isBlank (c : Char) : Bool :=
  CodeRange.anyContains blankRanges c

/-! ## Recent characters

The letters and numbers that came with version 17 of Unicode.  The other tables
of this library know them; an identifier keeps to the versions before. -/

def recentRanges : List CodeRange := [
    ⟨0x88F, 0x88F⟩, ⟨0xC5C, 0xC5C⟩, ⟨0xCDC, 0xCDC⟩, ⟨0xA7CE, 0xA7CF⟩,
      ⟨0xA7D2, 0xA7D2⟩,
    ⟨0xA7D4, 0xA7D4⟩, ⟨0xA7F1, 0xA7F1⟩, ⟨0x10940, 0x10959⟩, ⟨0x10EC5, 0x10EC7⟩,
    ⟨0x11DB0, 0x11DDB⟩, ⟨0x11DE0, 0x11DE9⟩, ⟨0x16EA0, 0x16EB8⟩,
      ⟨0x16EBB, 0x16ED3⟩,
    ⟨0x16FF2, 0x16FF6⟩, ⟨0x187F8, 0x187FF⟩, ⟨0x18D09, 0x18D1E⟩,
      ⟨0x18D80, 0x18DF2⟩,
    ⟨0x1E6C0, 0x1E6DE⟩, ⟨0x1E6E0, 0x1E6E2⟩, ⟨0x1E6E4, 0x1E6E5⟩,
      ⟨0x1E6E7, 0x1E6ED⟩,
    ⟨0x1E6F0, 0x1E6F4⟩, ⟨0x1E6FE, 0x1E6FF⟩, ⟨0x2B73A, 0x2B73F⟩,
      ⟨0x2CEA2, 0x2CEAD⟩,
    ⟨0x323B0, 0x33479⟩]

def isRecent (c : Char) : Bool := CodeRange.anyContains recentRanges c

end ShapeMend.Text

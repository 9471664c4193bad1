import SchemaBound.Text.Category

/-! Which characters show as themselves. -/
namespace SchemaBound.Text

/-- Characters that join the one before although they are no nonspacing or enclosing marks: vowel signs that
stand behind their letter, and tags. -/
def otherJoining : Ranges := Ranges.ofLines
  ["9be 9d7 b3e b57 bbe bd7 cc0 cc2 cc7-cc8 cca-ccb cd5-cd6 d3e d57 dcf ddf 1715 1734 1b35 1b3b 1b3d",
   "1b43-1b44 1baa 1bf2-1bf3 200c 302e-302f a953 a9c0 111c0 11235 1133e 1134d 11357 113b8 113c2 113c5",
   "113c7-113c9 113cf 114b0 114bd 115af 116b6 11930 1193d 11f41 16ff0-16ff1 1d165-1d166 1d16d-1d172",
   "e0020-e007f"]

/-- Letters that take room for a syllable part that is absent. -/
def fillers : List Char := ['\u115f', '\u1160', '\u3164', '\uffa0']

/-- The character shows as itself: it is no control, format, separator other than the space, private or
unassigned character, no mark that joins the character before, and no filler. -/
def isShown (c : Char) : Bool :=
  (' ' ≤ c && c ≤ '~') ||
    (let category := Category.ofChar c
    category.group != 'C' && category.group != 'Z' && category != .nonspacingMark &&
      category != .enclosingMark && !otherJoining.contains c.toNat && !fillers.contains c)

end SchemaBound.Text

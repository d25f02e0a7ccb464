import Storyboard.Text

/-!
# Letters regardless of case

Two ways to disregard case. Look-ups compare lower-case forms; patterns compare simple case
foldings, under which the long s also stands for an s. Both are given for the letters of the
Latin-1 range and the signs that have one of them as lower-case form, which are all the letters
that the vocabulary is spelled with.
-/

namespace Storyboard

/-- The lower-case form of a letter; every other character is its own. -/
def lowerCase (c : Char) : Char :=
  if c.isUpper then c.toLower
  else if 'À' ≤ c ∧ c ≤ 'Þ' ∧ c ≠ '×' then Char.ofNat (c.toNat + 32)
  else if c = '\u212a' then 'k'
  else if c = '\u212b' then 'å'
  else c

/-- The simple case folding of a letter; every other character is its own. -/
def foldCase (c : Char) : Char :=
  if c = 'ſ' then 's' else lowerCase c

/-- Whether `actual` spells the letter `expected` in lower or upper case. -/
def sameLetter (expected actual : Char) : Bool :=
  actual == expected || lowerCase actual == lowerCase expected

/-- Whether `actual` spells the letter `expected` up to case folding. -/
def foldsTo (expected actual : Char) : Bool :=
  foldCase actual == foldCase expected

/-- The lower-case form of a text, letter by letter. -/
def Text.lowerCase (t : Text) : Text :=
  t.map Storyboard.lowerCase

end Storyboard

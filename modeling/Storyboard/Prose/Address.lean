import Storyboard.Pattern
import Storyboard.Text.Word

/-!
# Web addresses

The media of a scene are named by web addresses in the prose.
-/

namespace Storyboard.Prose

/-- The characters of the host part of an address. -/
def isHostChar (c : Char) : Bool :=
  c.isAlphanum || "-@:%._+~#=".toList.contains c

/-- The characters of the rest of an address. -/
def isPathChar (c : Char) : Bool :=
  isHostChar c || "?&/".toList.contains c

/-- The scheme of a web address. -/
def scheme : Matcher :=
  Matcher.oneOf
    [Matcher.spelled (· == ·) "https://".toList, Matcher.spelled (· == ·) "http://".toList]

/-- A dot and a top-level name of two to six lower-case letters that ends a word. -/
def topLevel : Matcher :=
  (Matcher.one (· == '.')).andThen
    ((Matcher.run Char.isLower 2 6).andThen (Matcher.notBefore isWord))

/-- A scheme, a host of at most 256 characters before its top-level name, and a path. -/
def addressPattern : Pattern where
  body :=
    scheme.andThen
      ((Matcher.run isHostChar 1 256).andThen (topLevel.andThen (Matcher.runs isPathChar 0)))

/-- All addresses in a window, from left to right. -/
def addresses (window : Text) : List Text :=
  addressPattern.findAll window

/-- The first address in a window. -/
def address? (window : Text) : Option Text :=
  (addressPattern.find? window).map Match.text

/-- The first address in a window that ends in `ending`. -/
def addressEndingIn? (ending : Text) (window : Text) : Option Text :=
  (addresses window).find? fun address => ending.isSuffixOf address

/-- What stands after the last dot of an address, or all of it if it has none. -/
def extensionOf (address : Text) : Text :=
  (address.reverse.takeWhile (· != '.')).reverse

end Storyboard.Prose

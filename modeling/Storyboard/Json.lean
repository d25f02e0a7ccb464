import Storyboard.Decimal.Layout

/-!
# JSON values and their text

The members of an object keep their order. A value is written compactly, without any white space,
or spread over lines with an indentation of two spaces a level. Strings escape the double quote,
the backslash and control characters only; a number that is not finite is written as `null`.
-/

namespace Storyboard

/-- A JSON value. -/
inductive Json
  | null
  | bool (b : Bool)
  | integer (n : Nat)
  | number (x : Float)
  | string (t : Text)
  | array (items : List Json)
  | object (members : List (Text × Json))

namespace Json

/-- How a character is written within a string. -/
def escape (c : Char) : Text :=
  if c = '"' then ['\\', '"']
  else if c = '\\' then ['\\', '\\']
  else if c = '\x08' then ['\\', 'b']
  else if c = '\x0c' then ['\\', 'f']
  else if c = '\n' then ['\\', 'n']
  else if c = '\r' then ['\\', 'r']
  else if c = '\t' then ['\\', 't']
  else if c.toNat < 0x20 then
    ['\\', 'u', '0', '0', Nat.digitChar (c.toNat / 16), Nat.digitChar (c.toNat % 16)]
  else [c]

/-- A string between double quotes. -/
def quote (t : Text) : Text :=
  '"' :: t.flatMap escape ++ ['"']

/-- The text of a number. -/
def numberText (x : Float) : Text :=
  (floatText? x).getD "null".toList

/-- The line feed and indentation before an entry at the given depth. -/
def newline (depth : Nat) : Text :=
  '\n' :: List.replicate (2 * depth) ' '

mutual

/-- The text of a value without white space. -/
def compact : Json → Text
  | null => "null".toList
  | bool true => "true".toList
  | bool false => "false".toList
  | integer n => decimal n
  | number x => numberText x
  | string t => quote t
  | array items => '[' :: compactItems items ++ [']']
  | object members => '{' :: compactMembers members ++ ['}']

/-- The items of an array, separated by commas. -/
def compactItems : List Json → Text
  | [] => []
  | [item] => compact item
  | item :: later => compact item ++ ',' :: compactItems later

/-- The members of an object, separated by commas. -/
def compactMembers : List (Text × Json) → Text
  | [] => []
  | [(key, value)] => quote key ++ ':' :: compact value
  | (key, value) :: later => quote key ++ ':' :: compact value ++ ',' :: compactMembers later

end

mutual

/-- The text of a value spread over lines, from the given depth on. -/
def prettyAt (depth : Nat) : Json → Text
  | null => "null".toList
  | bool true => "true".toList
  | bool false => "false".toList
  | integer n => decimal n
  | number x => numberText x
  | string t => quote t
  | array [] => "[]".toList
  | array (item :: later) =>
    '[' :: prettyItems (depth + 1) (item :: later) ++ newline depth ++ [']']
  | object [] => ['{', '}']
  | object (member :: later) =>
    '{' :: prettyMembers (depth + 1) (member :: later) ++ newline depth ++ ['}']

/-- The items of an array, each on lines of its own. -/
def prettyItems (depth : Nat) : List Json → Text
  | [] => []
  | [item] => newline depth ++ prettyAt depth item
  | item :: later => newline depth ++ prettyAt depth item ++ ',' :: prettyItems depth later

/-- The members of an object, each on lines of its own. -/
def prettyMembers (depth : Nat) : List (Text × Json) → Text
  | [] => []
  | [(key, value)] => newline depth ++ quote key ++ ": ".toList ++ prettyAt depth value
  | (key, value) :: later =>
    newline depth ++ quote key ++ ": ".toList ++ prettyAt depth value ++
      ',' :: prettyMembers depth later

end

/-- The text of a value spread over lines. -/
def pretty (value : Json) : Text :=
  prettyAt 0 value

/-- A string, or nothing written as `null`. -/
def stringOrNull (t : Option Text) : Json :=
  (t.map string).getD null

end Json

end Storyboard

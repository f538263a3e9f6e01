import Metering.Number.Decimal

/-!
# JSON values

The values of the interchange format.  A number is an integer if it is written without fraction
and exponent and fits a signed or an unsigned 64-bit word; every other number, the negative zero
included, is a double precision number.  A text holds nothing if an escape in it names only half
of a surrogate pair: such a text can be skipped but not read.
-/

namespace Metering.Wire

/-- A value of the interchange format. -/
inductive Json where
  | null
  | bool (value : Bool)
  | integer (value : Int)
  | real (value : Binary64)
  | text (value : Option String)
  | array (items : List Json)
  | object (members : List (Option String × Json))

namespace Json

/-- A text that can be read. -/
def ofString (s : String) : Json := .text (some s)

/-- An object from its members. -/
def ofMembers (members : List (String × Json)) : Json :=
  .object (members.map fun m => (some m.1, m.2))

def hexDigit (n : Nat) : Char :=
  if n < 10 then Char.ofNat ('0'.toNat + n) else Char.ofNat ('a'.toNat + (n - 10))

/-- One character of a text in quotes. -/
def escapedChar (c : Char) : List Char :=
  if c = '"' then ['\\', '"']
  else if c = '\\' then ['\\', '\\']
  else if c.toNat < 32 then
    ['\\', 'u', '0', '0', hexDigit (c.toNat / 16), hexDigit (c.toNat % 16)]
  else [c]

def quoted (s : String) : String :=
  String.ofList ('"' :: (s.toList.flatMap escapedChar ++ ['"']))

mutual

/-- The text of a value, without blanks. -/
def render : Json → String
  | .null => "null"
  | .bool value => if value then "true" else "false"
  | .integer value => toString value
  | .real value => Decimal.text value
  | .text value => quoted (value.getD "")
  | .array items => "[" ++ ",".intercalate (renderItems items) ++ "]"
  | .object members => "\x7b" ++ ",".intercalate (renderMembers members) ++ "\x7d"

def renderItems : List Json → List String
  | [] => []
  | item :: rest => render item :: renderItems rest

def renderMembers : List (Option String × Json) → List String
  | [] => []
  | (key, value) :: rest => (quoted (key.getD "") ++ ":" ++ render value) :: renderMembers rest

end

end Json
end Metering.Wire

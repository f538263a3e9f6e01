import Metering.Wire.Json

/-!
# Reading JSON

A strict reader: one value with nothing but blanks around it, no leading zeros, no trailing
commas, no raw control characters in texts.  Each part consumes characters from the front; values
nest, so the reader carries a bound on its depth of recursion, for which the length of the text is
always enough.
-/

namespace Metering.Wire.Reader

/-- Reading a part of a text: the value and what is left, or nothing. -/
abbrev Part (α : Type) := List Char → Option (α × List Char)

def isBlank (c : Char) : Bool := c = ' ' || c = '\t' || c = '\n' || c = '\r'

def skipBlanks (cs : List Char) : List Char := cs.dropWhile isBlank

/-- Takes a fixed word off the front. -/
def word (w : String) : Part Unit := fun cs =>
  let expected := w.toList
  if cs.take expected.length = expected then some ((), cs.drop expected.length) else none

def splitDigits (cs : List Char) : List Char × List Char :=
  (cs.takeWhile Char.isDigit, cs.dropWhile Char.isDigit)

def digitsValue (cs : List Char) : Nat :=
  cs.foldl (fun n c => 10 * n + (c.toNat - '0'.toNat)) 0

/-- The largest natural number that is read as an integer. -/
def greatestNatural : Nat := 18446744073709551615

/-- The number `digits * 10 ^ exponent`.  Far outside the range of double precision the result is
known without the power. -/
def scaled (negative : Bool) (digits : Nat) (exponent : Int) : Binary64 :=
  let leading := exponent + Decimal.digitCount digits
  if digits = 0 then .finite negative 0 0
  else if 400 < leading then .infinite negative
  else if leading < -400 then .finite negative 0 0
  else Binary64.ofDecimal negative (digits * tenTo exponent.toNat) (-exponent).toNat

/-- The number written with these digits: an integer if it has neither fraction nor exponent and
fits a 64-bit word. -/
def numberOf (negative : Bool) (whole : List Char) (fraction : Option (List Char))
    (exponent : Option Int) : Json :=
  let digits := digitsValue (whole ++ fraction.getD [])
  let value := scaled negative digits (exponent.getD 0 - ((fraction.getD []).length : Int))
  if fraction.isSome || exponent.isSome then .real value
  else if negative then
    if digits ≠ 0 && Count.least ≤ -(digits : Int) then .integer (-(digits : Int)) else .real value
  else if digits ≤ greatestNatural then .integer digits else .real value

/-- The digits after a decimal point, if there is one. -/
def fraction : Part (Option (List Char))
  | '.' :: rest =>
      let (digits, rest) := splitDigits rest
      if digits.isEmpty then none else some (some digits, rest)
  | cs => some (none, cs)

def exponentSign : List Char → Int × List Char
  | '+' :: rest => (1, rest)
  | '-' :: rest => (-1, rest)
  | cs => (1, cs)

/-- The power of ten after its letter, if there is one. -/
def exponent : Part (Option Int)
  | c :: rest =>
      if c = 'e' || c = 'E' then
        let (sign, rest) := exponentSign rest
        let (digits, rest) := splitDigits rest
        if digits.isEmpty then none else some (some (sign * (digitsValue digits : Int)), rest)
      else some (none, c :: rest)
  | [] => some (none, [])

/-- A number, without a leading zero before other digits. -/
def number : Part Json := fun cs => do
  let (negative, cs) := match cs with
    | '-' :: rest => (true, rest)
    | cs => (false, cs)
  let (whole, cs) := splitDigits cs
  if whole.isEmpty || (whole.head? = some '0' && 1 < whole.length) then none
  else
    let (fraction, cs) ← fraction cs
    let (exponent, cs) ← exponent cs
    some (numberOf negative whole fraction exponent, cs)

def hexValue? (c : Char) : Option Nat :=
  if c.isDigit then some (c.toNat - '0'.toNat)
  else if 'a' ≤ c ∧ c ≤ 'f' then some (c.toNat - 'a'.toNat + 10)
  else if 'A' ≤ c ∧ c ≤ 'F' then some (c.toNat - 'A'.toNat + 10)
  else none

/-- Four hexadecimal digits. -/
def hexUnit : Part Nat
  | a :: b :: c :: d :: rest => do
      let a ← hexValue? a
      let b ← hexValue? b
      let c ← hexValue? c
      let d ← hexValue? d
      some (4096 * a + 256 * b + 16 * c + d, rest)
  | _ => none

/-- An escape after its backslash: a character, or a number of sixteen bits. -/
def escape : Part (Char ⊕ Nat)
  | '"' :: rest => some (.inl '"', rest)
  | '\\' :: rest => some (.inl '\\', rest)
  | '/' :: rest => some (.inl '/', rest)
  | 'b' :: rest => some (.inl '\x08', rest)
  | 'f' :: rest => some (.inl '\x0c', rest)
  | 'n' :: rest => some (.inl '\n', rest)
  | 'r' :: rest => some (.inl '\r', rest)
  | 't' :: rest => some (.inl '\t', rest)
  | 'u' :: rest => (hexUnit rest).map fun (n, rest) => (.inr n, rest)
  | _ => none

/-- The pieces of a text up to its closing quote; the bound is the number of characters. -/
def pieces : Nat → Part (List (Char ⊕ Nat))
  | 0, _ => none
  | _ + 1, '"' :: rest => some ([], rest)
  | bound + 1, '\\' :: rest => do
      let (piece, rest) ← escape rest
      let (more, rest) ← pieces bound rest
      some (piece :: more, rest)
  | bound + 1, c :: rest =>
      if c.toNat < 32 then none
      else do
        let (more, rest) ← pieces bound rest
        some (.inl c :: more, rest)
  | _ + 1, [] => none

/-- Joins the pieces of a text: two numbers that form a surrogate pair are one character, and a
surrogate that stands alone spoils the text. -/
def assemble : List (Char ⊕ Nat) → Option (List Char)
  | [] => some []
  | .inl c :: rest => (assemble rest).map (c :: ·)
  | .inr high :: .inr low :: rest =>
      if 0xD800 ≤ high ∧ high ≤ 0xDBFF then
        if 0xDC00 ≤ low ∧ low ≤ 0xDFFF then
          (assemble rest).map
            (Char.ofNat (0x10000 + 1024 * (high - 0xD800) + (low - 0xDC00)) :: ·)
        else none
      else if 0xDC00 ≤ high ∧ high ≤ 0xDFFF then none
      else (assemble (.inr low :: rest)).map (Char.ofNat high :: ·)
  | .inr n :: rest =>
      if 0xD800 ≤ n ∧ n ≤ 0xDFFF then none else (assemble rest).map (Char.ofNat n :: ·)

/-- A text after its opening quote. -/
def textBody : Part (Option String) := fun cs => do
  let (pieces, rest) ← pieces (cs.length + 1) cs
  some ((assemble pieces).map String.ofList, rest)

mutual

/-- A value, after blanks. -/
def value : Nat → Part Json
  | 0, _ => none
  | bound + 1, cs =>
      match skipBlanks cs with
      | '"' :: rest => (textBody rest).map fun (s, rest) => (.text s, rest)
      | '[' :: rest =>
          match skipBlanks rest with
          | ']' :: rest => some (.array [], rest)
          | _ => (items bound rest).map fun (xs, rest) => (.array xs, rest)
      | '\x7b' :: rest =>
          match skipBlanks rest with
          | '\x7d' :: rest => some (.object [], rest)
          | _ => (members bound rest).map fun (xs, rest) => (.object xs, rest)
      | 'n' :: rest => (word "ull" rest).map fun (_, rest) => (.null, rest)
      | 't' :: rest => (word "rue" rest).map fun (_, rest) => (.bool true, rest)
      | 'f' :: rest => (word "alse" rest).map fun (_, rest) => (.bool false, rest)
      | cs => number cs

/-- The items of an array up to its closing bracket. -/
def items : Nat → Part (List Json)
  | 0, _ => none
  | bound + 1, cs => do
      let (item, rest) ← value bound cs
      match skipBlanks rest with
      | ',' :: rest =>
          let (more, rest) ← items bound rest
          some (item :: more, rest)
      | ']' :: rest => some ([item], rest)
      | _ => none

/-- The members of an object up to its closing brace. -/
def members : Nat → Part (List (Option String × Json))
  | 0, _ => none
  | bound + 1, cs => do
      match skipBlanks cs with
      | '"' :: rest =>
          let (key, rest) ← textBody rest
          match skipBlanks rest with
          | ':' :: rest =>
              let (item, rest) ← value bound rest
              match skipBlanks rest with
              | ',' :: rest =>
                  let (more, rest) ← members bound rest
                  some ((key, item) :: more, rest)
              | '\x7d' :: rest => some ([(key, item)], rest)
              | _ => none
          | _ => none
      | _ => none

end

/-- The value that the whole of a text writes. -/
def read? (text : String) : Option Json := do
  let cs := text.toList
  let (v, rest) ← value (cs.length + 1) cs
  if (skipBlanks rest).isEmpty then some v else none

end Metering.Wire.Reader

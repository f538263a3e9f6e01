import Metering.Time.Instant

/-!
# Reading time stamps

The interchange form of an instant: date, time of day and offset.  Reading is lenient about
blanks, about the width of numbers and about the letter between date and time, and strict about
ranges: a field out of range, a date that does not exist and an instant outside the calendar range
are all refused.  Every minute may have a second with the number sixty, its leap second.
-/

namespace Metering.Stamp

/-- Reading a part of a text: the value and what is left, or nothing. -/
abbrev Part (α : Type) := List Char → Option (α × List Char)

def isBlank (c : Char) : Bool :=
  let n := c.toNat
  (9 ≤ n && n ≤ 13) || n = 32 || n = 0x85 || n = 0xA0 || n = 0x1680 || (0x2000 ≤ n && n ≤ 0x200A) ||
    n = 0x2028 || n = 0x2029 || n = 0x202F || n = 0x205F || n = 0x3000

def skipBlanks (cs : List Char) : List Char := cs.dropWhile isBlank

def digitsValue (cs : List Char) : Nat :=
  cs.foldl (fun n c => 10 * n + (c.toNat - '0'.toNat)) 0

/-- Splits off digits, at most `width` of them if there is a width. -/
def splitDigits (width : Option Nat) (cs : List Char) : List Char × List Char :=
  let digits := cs.takeWhile Char.isDigit
  let taken := match width with
    | some w => digits.take w
    | none => digits
  (taken, cs.drop taken.length)

/-- A number of at least one digit, after blanks. -/
def number (width : Option Nat) : Part Nat := fun cs =>
  let (digits, rest) := splitDigits width (skipBlanks cs)
  if digits.isEmpty then none else some (digitsValue digits, rest)

/-- A number in a range. -/
def numberIn (low high : Nat) : Part Nat := fun cs => do
  let (n, rest) ← number (some 2) cs
  if low ≤ n ∧ n ≤ high then some (n, rest) else none

/-- A year: any number of digits after a sign, at most four without one. -/
def year : Part Int := fun cs =>
  let unsigned (width : Option Nat) (cs : List Char) : Option (Nat × List Char) :=
    let (digits, rest) := splitDigits width cs
    if digits.isEmpty then none else some (digitsValue digits, rest)
  match skipBlanks cs with
  | '-' :: rest => (unsigned none rest).map fun (n, rest) => (-(n : Int), rest)
  | '+' :: rest => (unsigned none rest).map fun (n, rest) => ((n : Int), rest)
  | cs => (unsigned (some 4) cs).map fun (n, rest) => ((n : Int), rest)

/-- A given character, after blanks. -/
def mark (c : Char) : Part Unit := fun cs =>
  match skipBlanks cs with
  | d :: rest => if d = c then some ((), rest) else none
  | [] => none

/-- The letter or the blank between date and time. -/
def separator : Part Unit
  | c :: rest => if c = 'T' || c = 't' || c = ' ' then some ((), rest) else none
  | [] => none

/-- Nanoseconds after a decimal point; digits beyond the ninth do not count. -/
def fraction : Part Nat
  | '.' :: rest =>
      let digits := rest.takeWhile Char.isDigit
      if digits.isEmpty then none
      else
        let kept := digits.take 9
        some (digitsValue kept * tenTo (9 - kept.length), rest.drop digits.length)
  | cs => some (0, cs)

def twoDigits (high : Nat) : Part Nat
  | a :: b :: rest =>
      if a.isDigit && b.isDigit && digitsValue [a, b] ≤ high then some (digitsValue [a, b], rest)
      else none
  | _ => none

/-- An offset from universal time in seconds: the letter of universal time, its name, or a signed
number of hours and minutes. -/
def offset : Part Int := fun cs =>
  let cs := skipBlanks cs
  let signedOffset (sign : Int) (cs : List Char) : Option (Int × List Char) := do
    let (hours, cs) ← twoDigits 99 cs
    let (minutes, cs) ← twoDigits 59 (cs.dropWhile fun c => c = ':' || isBlank c)
    some (sign * (3600 * hours + 60 * minutes : Nat), cs)
  match cs with
  | 'Z' :: rest | 'z' :: rest => some (0, rest)
  | '+' :: rest => signedOffset 1 rest
  | '-' :: rest => signedOffset (-1) rest
  | '−' :: rest => signedOffset (-1) rest
  | a :: b :: c :: rest =>
      if [a.toUpper, b.toUpper, c.toUpper] = ['U', 'T', 'C'] then some (0, rest) else none
  | _ => none

/-- An instant from the whole of a text. -/
def read? (text : String) : Option Instant := do
  let cs := text.toList
  let (year, cs) ← year cs
  let ((), cs) ← mark '-' cs
  let (month, cs) ← numberIn 1 12 cs
  let ((), cs) ← mark '-' cs
  let (day, cs) ← numberIn 1 31 cs
  let ((), cs) ← separator cs
  let (hour, cs) ← numberIn 0 23 cs
  let ((), cs) ← mark ':' cs
  let (minute, cs) ← numberIn 0 59 cs
  let ((), cs) ← mark ':' cs
  let (second, cs) ← numberIn 0 60 cs
  let (nanos, cs) ← fraction cs
  let (offset, cs) ← offset cs
  if !(skipBlanks cs).isEmpty || 86400 ≤ offset.natAbs then none
  else
    let date ← Date.of? year month day
    let seconds : Int := 3600 * hour + 60 * minute + min second 59 - offset
    let leap := if second = 60 then Duration.nanosPerSecond else 0
    Instant.of? ((Instant.ofDate date).second + seconds) (leap + nanos)

end Metering.Stamp

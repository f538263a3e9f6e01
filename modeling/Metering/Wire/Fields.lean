import Metering.Table
import Metering.Wire.Reader

/-!
# Fields of records

Reading typed values out of JSON values.  A record is written as an object, where unknown members
are skipped and a known one may stand only once, or as an array of its fields in their order.  A
table is written as an object whose last member of a key counts.
-/

namespace Metering.Wire

/-- Reading a typed value. -/
abbrev Decode (α : Type) := Json → Option α

namespace Decode

def integerIn (low high : Int) : Decode Int
  | .integer n => if low ≤ n ∧ n ≤ high then some n else none
  | _ => none

def count : Decode Int := integerIn Count.least Count.greatest

def naturalUpTo (high : Nat) : Decode Nat := fun j => (integerIn 0 high j).map Int.toNat

/-- A finite number; integers are read as the nearest one. -/
def real : Decode Binary64
  | .integer n => some (Binary64.ofInt n)
  | .real (.finite negative significand exponent) => some (.finite negative significand exponent)
  | _ => none

/-- A number that need not be finite: those that are not have names. -/
def float : Decode Binary64
  | .text (some "NaN") => some .nan
  | .text (some "inf") => some (.infinite false)
  | .text (some "-inf") => some (.infinite true)
  | j => real j

def bool : Decode Bool
  | .bool b => some b
  | _ => none

def string : Decode String
  | .text s => s
  | _ => none

def all {α : Type} (decode : Decode α) : List Json → Option (List α)
  | [] => some []
  | item :: rest => do
      let x ← decode item
      let xs ← all decode rest
      some (x :: xs)

def list {α : Type} (decode : Decode α) : Decode (List α)
  | .array items => all decode items
  | _ => none

def nullable {α : Type} (decode : Decode α) : Decode (Option α)
  | .null => some none
  | j => (decode j).map some

def members {α : Type} (decode : Decode α) :
    List (Option String × Json) → Option (List (String × α))
  | [] => some []
  | (key, item) :: rest => do
      let key ← key
      let x ← decode item
      let xs ← members decode rest
      some ((key, x) :: xs)

def table {α : Type} (decode : Decode α) : Decode (Table α)
  | .object entries => (members decode entries).map Table.ofList
  | _ => none

/-- One of several names: as a text, or as the key of an object with nothing in it. -/
def variant {α : Type} (ofName? : String → Option α) : Decode α
  | .text (some name) => ofName? name
  | .object [(some name, .null)] => ofName? name
  | _ => none

end Decode

/-- The fields of one record, by name. -/
structure Fields where
  values : List (String × Json)
  /-- The record was written as an array. -/
  listed : Bool

namespace Fields

def named (names : List String) (strict : Bool) :
    List (Option String × Json) → Option (List (String × Json))
  | [] => some []
  | (key, value) :: rest => do
      let key ← key
      let others ← named names strict rest
      if names.contains key then
        if others.any (·.1 = key) then none else some ((key, value) :: others)
      else if strict then none
      else some others

/-- The fields of a record with the given names; a strict record has no unknown members. -/
def of? (names : List String) (strict : Bool) : Json → Option Fields
  | .object members => (named names strict members).map fun values => ⟨values, false⟩
  | .array items =>
      if items.length ≤ names.length then some ⟨names.zip items, true⟩ else none
  | _ => none

def get? (f : Fields) (name : String) : Option Json := f.values.lookup name

/-- A field that has to be there. -/
def need {α : Type} (f : Fields) (name : String) (decode : Decode α) : Option α := do
  decode (← f.get? name)

/-- A field that may be null, or missing from an object. -/
def optional {α : Type} (f : Fields) (name : String) (decode : Decode α) : Option (Option α) :=
  match f.get? name with
  | some value => Decode.nullable decode value
  | none => if f.listed then none else some none

/-- A field that has a default value when it is missing. -/
def withDefault {α : Type} (f : Fields) (name : String) (default : α) (decode : Decode α) :
    Option α :=
  match f.get? name with
  | some value => decode value
  | none => some default

end Fields

/-!
Requests are read leniently: a member that is null counts as missing, and unknown ones are skipped.
-/

namespace Json

/-- A member that is there and not null. -/
def member? (j : Json) (name : String) : Option Json :=
  match j with
  | .object members =>
      match members.lookup (some name) with
      | some .null => none
      | found => found
  | _ => none

/-- A member that has to be there. -/
def need? {α : Type} (j : Json) (name : String) (decode : Decode α) : Option α := do
  decode (← j.member? name)

/-- A member that may be missing. -/
def may? {α : Type} (j : Json) (name : String) (decode : Decode α) : Option (Option α) :=
  match j.member? name with
  | some value => (decode value).map some
  | none => some none

/-- A member that has a default value when it is missing. -/
def orElse? {α : Type} (j : Json) (name : String) (default : α) (decode : Decode α) : Option α := do
  (← j.may? name decode).getD default

def text? (j : Json) (name : String) : Option String := j.need? name Decode.string

def count? (j : Json) (name : String) : Option Int := j.need? name Decode.count

end Json
end Metering.Wire

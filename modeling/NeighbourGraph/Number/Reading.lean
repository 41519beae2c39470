/-
Reading counts and numbers from text.

A count is an optional plus sign and ASCII digits; the first problem met from the left is the
one reported. A number is an optional sign followed by a name of an infinity or of NaN, or by
digits with an optional point and an optional exponent, and is rounded once to binary64.
-/

import NeighbourGraph.Number.Count

namespace NeighbourGraph.Number

/-! ### Counts -/

/-- Why a text is no count. -/
inductive CountError where
  | empty
  | invalidDigit
  | tooLarge
  deriving DecidableEq, Repr

def CountError.message : CountError → String
  | .empty => "cannot parse integer from empty string"
  | .invalidDigit => "invalid digit found in string"
  | .tooLarge => "number too large to fit in target type"

/-- The value of an ASCII digit. -/
def digit? (c : Char) : Option Nat := if c.isDigit then some (c.toNat - '0'.toNat) else none

/-- Reads digits after `value`. A character that is no digit is reported before the size of the
number it would extend. -/
def readDigits (value : Nat) : List Char → Except CountError Nat
  | [] => .ok value
  | c :: rest =>
    match digit? c with
    | none => .error .invalidDigit
    | some d =>
      if 10 * value + d < countLimit then readDigits (10 * value + d) rest else .error .tooLarge

/-- Reads a count below `countLimit`. A sign alone is an invalid digit, and so is any minus. -/
def readCount (text : String) : Except CountError Nat :=
  match text.toList with
  | [] => .error .empty
  | ['+'] => .error .invalidDigit
  | '+' :: rest => readDigits 0 rest
  | chars => readDigits 0 chars

/-! ### Numbers -/

/-- Why a text is no number. -/
inductive RealError where
  | empty
  | invalid
  deriving DecidableEq, Repr

def RealError.message : RealError → String
  | .empty => "cannot parse float from empty string"
  | .invalid => "invalid float literal"

/-- An unsigned number as text gives it: `digits * 10 ^ exponent`. -/
structure Literal where
  digits : Nat
  exponent : Int
  deriving DecidableEq, Repr

/-- The value of a run of digits. -/
def digitsValue (cs : List Char) : Nat := cs.foldl (fun n c => 10 * n + (digit? c).getD 0) 0

/-- Reads an exponent: nothing, or `e` with an optional sign and at least one digit. -/
def readExponent : List Char → Option Int
  | [] => some 0
  | e :: rest =>
    if e = 'e' ∨ e = 'E' then
      let (negative, digits) := match rest with
        | '-' :: more => (true, more)
        | '+' :: more => (false, more)
        | more => (false, more)
      if digits ≠ [] ∧ digits.all Char.isDigit then
        some (if negative then -(digitsValue digits : Int) else digitsValue digits)
      else none
    else none

/-- Reads digits with an optional point, at least one digit in all, and an optional exponent. -/
def readLiteral (cs : List Char) : Option Literal :=
  let whole := cs.takeWhile Char.isDigit
  let (fraction, rest) := match cs.dropWhile Char.isDigit with
    | '.' :: more => (more.takeWhile Char.isDigit, more.dropWhile Char.isDigit)
    | more => ([], more)
  if whole = [] ∧ fraction = [] then none
  else (readExponent rest).map fun e =>
    ⟨digitsValue (whole ++ fraction), e - fraction.length⟩

/-- The positive infinity. -/
def infinity : Float := Float.ofBits 0x7ff0000000000000

/-- NaN. -/
def nan : Float := Float.ofBits 0x7ff8000000000000

/-- The binary64 number nearest to a literal. Far outside the range of binary64 the answer is
known from the position of the leading digit, and no power of ten is taken. -/
def Literal.toFloat (l : Literal) : Float :=
  if l.digits = 0 then 0.0
  else
    let leading : Int := (toString l.digits).length + l.exponent
    if leading > 310 then infinity
    else if leading < -330 then 0.0
    else Float.ofScientific l.digits (l.exponent < 0) l.exponent.natAbs

/-- An unsigned number: a name in any case, or a literal. -/
def readMagnitude (cs : List Char) : Option Float :=
  match String.ofList (cs.map Char.toLower) with
  | "inf" | "infinity" => some infinity
  | "nan" => some nan
  | _ => (readLiteral cs).map Literal.toFloat

/-- Reads a number. -/
def readReal (text : String) : Except RealError Float :=
  let signed : Option Float := match text.toList with
    | '-' :: rest => (readMagnitude rest).map fun x => -x
    | '+' :: rest => readMagnitude rest
    | chars => readMagnitude chars
  if text.isEmpty then .error .empty
  else match signed with
    | some x => .ok x
    | none => .error .invalid

end NeighbourGraph.Number

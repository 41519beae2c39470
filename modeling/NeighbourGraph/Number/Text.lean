/-
Written numbers.

Three forms are used. Messages and tables write the shortest digits that read back, positionally
at any size (`plainText`). Reports fix the number of decimal places (`fixedText`). Documents
write the shortest digits, positionally near one and with an exponent elsewhere
(`documentText`). Each form says what it does with a tie and with numbers that are not finite.
-/

import NeighbourGraph.Number.Shortest

namespace NeighbourGraph.Number

/-- A count of zeros as text. -/
def zeros (n : Nat) : String := String.ofList (List.replicate n '0')

/-- The digits of `n`, padded on the left with zeros to at least `width`. -/
def padded (width n : Nat) : String :=
  let digits := toString n
  zeros (width - digits.length) ++ digits

/-- The sign in front of a magnitude. -/
def signText (negative : Bool) : String := if negative then "-" else ""

/-- The whole part and the fraction of `digits * 10 ^ exponent`, all zeros written out. There is
no fraction for a whole number. -/
def positional (d : Decimal) : String × Option String :=
  if 0 ≤ d.exponent then (toString d.digits ++ zeros d.exponent.toNat, none)
  else
    let places := (-d.exponent).toNat
    (toString (d.digits / tenTo places), some (padded places (d.digits % tenTo places)))

/-- The shortest digits, positional at any size. A whole number has no point, `-0.0` keeps its
sign, and a tie goes up. -/
def plainText (x : Float) : String :=
  match datum x with
  | .notANumber => "NaN"
  | .infinity negative => signText negative ++ "inf"
  | .finite v =>
    if v.significand = 0 then signText v.negative ++ "0"
    else
      match positional (shortest .up v.significand v.exponent) with
      | (whole, none) => signText v.negative ++ whole
      | (whole, some fraction) => signText v.negative ++ whole ++ "." ++ fraction

/-- `num / den` rounded to a whole number, a half going to the even neighbour. -/
def divRound (num den : Nat) : Nat :=
  let whole := num / den
  let rest := num % den
  if 2 * rest > den ∨ (2 * rest = den ∧ whole % 2 = 1) then whole + 1 else whole

/-- The exact value rounded to `places` decimal places, a half going to the even neighbour. -/
def fixedText (places : Nat) (x : Float) : String :=
  match datum x with
  | .notANumber => "NaN"
  | .infinity negative => signText negative ++ "inf"
  | .finite v =>
    let num := v.significand <<< v.exponent.toNat * tenTo places
    let scaled := divRound num (1 <<< (-v.exponent).toNat)
    let whole := signText v.negative ++ toString (scaled / tenTo places)
    if places = 0 then whole else whole ++ "." ++ padded places (scaled % tenTo places)

/-- Leading exponents for which a document writes a number positionally. -/
def documentPositional (leading : Int) : Bool := -5 ≤ leading && leading ≤ 15

/-- The shortest digits as documents write them: positional with a point always present where
the leading digit counts between `10 ^ -5` and `10 ^ 15`, with an exponent elsewhere. Ties go to
the even digit. Numbers that are not finite have no text of their own and are `null`. -/
def documentText (x : Float) : String :=
  match datum x with
  | .notANumber => "null"
  | .infinity _ => "null"
  | .finite v =>
    if v.significand = 0 then signText v.negative ++ "0.0"
    else
      let d := shortest .toEven v.significand v.exponent
      let digits := toString d.digits
      let leading := d.exponent + digits.length - 1
      if documentPositional leading then
        match positional d with
        | (whole, none) => signText v.negative ++ whole ++ ".0"
        | (whole, some fraction) => signText v.negative ++ whole ++ "." ++ fraction
      else
        let rest := String.ofList (digits.toList.drop 1)
        let mantissa :=
          String.ofList (digits.toList.take 1) ++ (if rest = "" then "" else "." ++ rest)
        signText v.negative ++ mantissa ++ "e" ++ toString leading

end NeighbourGraph.Number

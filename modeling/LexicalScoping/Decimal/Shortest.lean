import LexicalScoping.Decimal.Binary64

/-!
# The shortest decimal text of a number

A finite number is written with the fewest decimal digits that read back as it, and of those with
the ones nearest to it; an exact tie goes up. Every number between the midpoints to its two
neighbours reads back as it, and the midpoints do when its significand is even. The text is always
positional, without an exponent and without a point when there is no fraction.
-/
namespace LexicalScoping.Binary64

/-- The decimal number `digits * 10 ^ exponent`. -/
structure Decimal where
  digits : Nat
  exponent : Int
deriving DecidableEq, Repr

/-- The numbers that read back as a positive finite number lie between `low / unit` and
`high / unit`, with the number itself at `middle / unit`. -/
structure Interval where
  low : Nat
  middle : Nat
  high : Nat
  unit : Nat
  /-- Whether the ends belong to the interval. -/
  closed : Bool

/-- Below a power of two the neighbour is nearer by half, unless the exponent is already the
smallest. -/
def interval (x : Binary64) : Interval :=
  let m := x.significand
  let below := if x.fraction = 0 && 1 < x.biasedExponent then 1 else 2
  let scale := Nat.pow 2 x.exponent.toNat
  ⟨(4 * m - below) * scale, 4 * m * scale, (4 * m + 2) * scale,
    4 * Nat.pow 2 (-x.exponent).toNat, m % 2 = 0⟩

/-- The same interval in units that are smaller by a factor. -/
def Interval.scale (i : Interval) (factor : Nat) : Interval :=
  ⟨i.low * factor, i.middle * factor, i.high * factor, i.unit * factor, i.closed⟩

/-- Whether so many units read back as the number. -/
def Interval.holds (i : Interval) (units : Nat) : Bool :=
  if i.closed then i.low ≤ units && units ≤ i.high else i.low < units && units < i.high

/-- The point of the grid `10 ^ exponent` that reads back as the number, if there is one. The
number has at most two neighbours on the grid; if any point of it will do, one of them will. -/
def Interval.onGrid? (i : Interval) (exponent : Int) : Option Decimal :=
  let fine := i.scale (Nat.pow 10 (-exponent).toNat)
  let step := i.unit * Nat.pow 10 exponent.toNat
  let below := fine.middle / step
  let above := below + 1
  let nearer := if 2 * fine.middle < (below + above) * step then below else above
  match fine.holds (below * step), fine.holds (above * step) with
  | true, true => some ⟨nearer, exponent⟩
  | true, false => some ⟨below, exponent⟩
  | false, true => some ⟨above, exponent⟩
  | false, false => none

/-- Tries finer and finer grids, at most `tries` of them. -/
def Interval.firstOnGrid (i : Interval) : Nat → Int → Decimal
  | 0, exponent => ⟨0, exponent⟩
  | tries + 1, exponent =>
    match i.onGrid? exponent with
    | some d => d
    | none => i.firstOnGrid tries (exponent - 1)

/-- A power of ten that is larger than any finite number. -/
def coarsest : Int := 309

/-- The shortest decimal that reads back as a positive finite number. No number needs more than
seventeen digits, and the first digit stands on a grid from `10 ^ 308` to `10 ^ -324`. -/
def shortest (x : Binary64) : Decimal := x.interval.firstOnGrid 700 coarsest

/-- The digits of a fraction with the given number of places, without the zeros at its end. -/
def placesText (fraction places : Nat) : List Char :=
  let ds := Nat.toDigits 10 fraction
  ((List.replicate (places - ds.length) '0' ++ ds).reverse.dropWhile (· = '0')).reverse

/-- The positional text of a decimal. -/
def Decimal.text (d : Decimal) : String :=
  if 0 ≤ d.exponent then toString (d.digits * Nat.pow 10 d.exponent.toNat)
  else
    let places := (-d.exponent).toNat
    let whole := toString (d.digits / Nat.pow 10 places)
    match d.digits % Nat.pow 10 places with
    | 0 => whole
    | fraction => whole ++ "." ++ String.ofList (placesText fraction places)

/-- The text of a number. Infinity and what is not a number are written in letters, zero keeps its
sign. -/
def text (x : Binary64) : String :=
  let sign := if x.isNegative then "-" else ""
  if x.biasedExponent = 2047 then
    if x.fraction = 0 then sign ++ "inf" else "NaN"
  else if x.significand = 0 then sign ++ "0"
  else sign ++ x.shortest.text

end LexicalScoping.Binary64

/-!
# Binary64 numbers

A number literal stands for the binary64 number nearest to its decimal text, and of two equally near
ones for the one with the even fraction. Numbers are kept as their sixty-four bits, so two of them
are the same exactly when nothing can tell them apart. All rounding is exact arithmetic on natural
numbers. `readDecimal?_digits` and `readDecimal?_point` say that every text of digits, and every
text of digits, a point and digits, is read, and as which quotient.
-/
namespace LexicalScoping

/-- A binary64 number, by its bits: sign, eleven of exponent, fifty-two of fraction. -/
structure Binary64 where
  bits : UInt64
deriving DecidableEq, Repr, Inhabited

namespace Binary64

def isNegative (x : Binary64) : Bool := Nat.pow 2 63 ≤ x.bits.toNat

/-- The eleven bits of the exponent, as a number. -/
def biasedExponent (x : Binary64) : Nat := x.bits.toNat / Nat.pow 2 52 % Nat.pow 2 11

/-- The fifty-two bits of the fraction, as a number. -/
def fraction (x : Binary64) : Nat := x.bits.toNat % Nat.pow 2 52

/-- The magnitude of a finite number is `significand * 2 ^ exponent`. -/
def significand (x : Binary64) : Nat :=
  if x.biasedExponent = 0 then x.fraction else Nat.pow 2 52 + x.fraction

def exponent (x : Binary64) : Int := (max x.biasedExponent 1 : Nat) - 1075

/-- The bits of positive infinity, above those of every finite positive number. -/
def infinityBits : Nat := 2047 * Nat.pow 2 52

/-- The integer nearest to `n / d`, and of two equally near ones the even one. -/
def roundDiv (n d : Nat) : Nat :=
  let q := n / d
  let r := n % d
  if 2 * r < d then q else if d < 2 * r then q + 1 else q + q % 2

/-- The exponent of the last place of `n / d` when it has fifty-three binary places, but no less
than the smallest there is. -/
def lastPlace (n d : Nat) : Int :=
  let guess : Int := (n.log2 : Int) - d.log2 - 53
  let fits := if 0 ≤ guess then n < d * Nat.pow 2 (53 + guess.toNat)
    else n * Nat.pow 2 (-guess).toNat < d * Nat.pow 2 53
  max (if fits then guess else guess + 1) (-1074)

/-- The number nearest to the quotient `n / d`. A significand that rounds up to `2 ^ 53` carries
into the exponent by the very layout of the bits, and what is too large becomes infinity. -/
def ofRatio (n d : Nat) : Binary64 :=
  if n = 0 then ⟨0⟩ else
    let place := lastPlace n d
    let significand :=
      if 0 ≤ place then roundDiv n (d * Nat.pow 2 place.toNat)
      else roundDiv (n * Nat.pow 2 (-place).toNat) d
    ⟨(min ((place + 1074).toNat * Nat.pow 2 52 + significand) infinityBits).toUInt64⟩

/-- The number that a row of decimal digits stands for. -/
def digitsValue (ds : List Char) : Nat := ds.foldl (fun n c => 10 * n + (c.toNat - '0'.toNat)) 0

/-- Reads a decimal text: digits, perhaps followed by a point and more digits. -/
def readDecimal? (text : List Char) : Option Binary64 :=
  let whole := text.takeWhile Char.isDigit
  if whole.isEmpty then none else
    match text.drop whole.length with
    | [] => some (ofRatio (digitsValue whole) 1)
    | point :: places =>
      if point = '.' && !places.isEmpty && places.all Char.isDigit then
        some (ofRatio (digitsValue (whole ++ places)) (Nat.pow 10 places.length))
      else none

theorem readDecimal?_digits {whole : List Char} (hw : whole ≠ [])
    (hd : ∀ c ∈ whole, c.isDigit = true) :
    readDecimal? whole = some (ofRatio (digitsValue whole) 1) := by
  have ht : whole.takeWhile Char.isDigit = whole := by
    have ha := @List.takeWhile_append_of_pos _ Char.isDigit whole [] hd
    simpa using ha
  simp [readDecimal?, ht, hw]

theorem readDecimal?_point {whole places : List Char} (hw : whole ≠ [])
    (hd : ∀ c ∈ whole, c.isDigit = true) (hp : places ≠ [])
    (he : ∀ c ∈ places, c.isDigit = true) :
    readDecimal? (whole ++ '.' :: places) =
      some (ofRatio (digitsValue (whole ++ places)) (Nat.pow 10 places.length)) := by
  have ht : (whole ++ '.' :: places).takeWhile Char.isDigit = whole := by
    rw [List.takeWhile_append_of_pos hd]
    simp [List.takeWhile]
  simp [readDecimal?, ht, hw, hp, List.all_eq_true.2 he]

end Binary64
end LexicalScoping

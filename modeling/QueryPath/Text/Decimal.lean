/-!
# Decimal digits of binary numbers

The fewest decimal digits that are read back as a given floating-point number, and two ways to
write them down. The numbers that are read back as `m * 2 ^ q` lie halfway to its two neighbours
at most, the ends included where `m` is even. So the search tries one digit, then two, and takes
the first number of that many digits that lies between; of two it takes the nearer.
-/

namespace QueryPath.Text

/-- The absolute value of a floating-point number: `significand * 2 ^ exponent`. -/
structure Binary where
  significand : Nat
  exponent : Int
  /-- The next number below is only half as far away as the next one above. -/
  isNarrowBelow : Bool
deriving DecidableEq, Repr

/-- The absolute value of a finite floating-point number of 64 bits. -/
def Binary.ofFloat (x : Float) : Binary :=
  let bits := x.toBits.toNat
  let exponent := bits / 0x10000000000000 % 2048
  let fraction := bits % 0x10000000000000
  if exponent = 0 then ⟨fraction, -1074, false⟩
  else ⟨0x10000000000000 + fraction, exponent - 1075, fraction = 0 && 1 < exponent⟩

/-- A decimal number: `digits * 10 ^ exponent`. -/
structure Decimal where
  digits : Nat
  exponent : Int
deriving DecidableEq, Repr

namespace Decimal

/-- Compares a decimal number with `n * 2 ^ q`. -/
def compareBinary (d : Decimal) (n : Nat) (q : Int) : Ordering :=
  compare (d.digits * Nat.pow 10 d.exponent.toNat * Nat.pow 2 (-q).toNat)
    (n * Nat.pow 2 q.toNat * Nat.pow 10 (-d.exponent).toNat)

/-- Whether a decimal number is read back as the binary one. -/
def readsBack (d : Decimal) (x : Binary) : Bool :=
  let withEnds := x.significand % 2 == 0
  let below := 4 * x.significand - (if x.isNarrowBelow then 1 else 2)
  let atLeast := d.compareBinary below (x.exponent - 2)
  let atMost := d.compareBinary (4 * x.significand + 2) (x.exponent - 2)
  (atLeast == .gt || (withEnds && atLeast == .eq)) && (atMost == .lt || (withEnds && atMost == .eq))

/-- The least power of ten above a binary number that is not zero, as its exponent. -/
def scale (x : Binary) : Int :=
  let guess := (x.significand.log2 + x.exponent) * 30103 / 100000 - 1
  let isAbove (k : Int) : Bool := compareBinary ⟨1, k⟩ x.significand x.exponent == .gt
  (([guess, guess + 1, guess + 2].find? isAbove)).getD (guess + 3)

/-- The number of `n` digits that is read back as `x`, if there is one. Of two equally near ones
the greater is taken if `tiesUp`, and else the even one. -/
def ofLength? (tiesUp : Bool) (x : Binary) (n : Nat) : Option Decimal :=
  let exponent := scale x - n
  let low := x.significand * Nat.pow 2 x.exponent.toNat * Nat.pow 10 (-exponent).toNat
    / (Nat.pow 2 (-x.exponent).toNat * Nat.pow 10 exponent.toNat)
  let below : Decimal := ⟨low, exponent⟩
  let above : Decimal := ⟨low + 1, exponent⟩
  match below.readsBack x, above.readsBack x with
  | true, true =>
      match compareBinary ⟨2 * low + 1, exponent⟩ (2 * x.significand) x.exponent with
      | .gt => some below
      | .lt => some above
      | .eq => some (if tiesUp || low % 2 == 1 then above else below)
  | true, false => some below
  | false, true => some above
  | false, false => none

/-- The fewest digits that are read back as `x`. Seventeen are always enough. -/
def shortest (tiesUp : Bool) (x : Binary) : Decimal :=
  if x.significand = 0 then ⟨0, 0⟩
  else ((List.range 17).findSome? fun n => ofLength? tiesUp x (n + 1)).getD ⟨0, 0⟩

/-- The number without zeros at the end of its digits; the bound is the number of digits. -/
def stripped (d : Decimal) : Nat → Decimal
  | 0 => d
  | n + 1 =>
      if d.digits ≠ 0 ∧ d.digits % 10 = 0 then stripped ⟨d.digits / 10, d.exponent + 1⟩ n else d

/-- The digits with a point, and with at least one digit on both sides of it. -/
def positional (d : Decimal) : String :=
  let digits := d.digits.repr.toList
  let zeros (n : Nat) : List Char := List.replicate n '0'
  let point := digits.length + d.exponent
  String.ofList <|
    if 0 ≤ d.exponent then digits ++ zeros d.exponent.toNat ++ ['.', '0']
    else if 0 < point then digits.take point.toNat ++ '.' :: digits.drop point.toNat
    else '0' :: '.' :: zeros (-point).toNat ++ digits

/-- The digits with a point behind the first one and a power of ten, which has a sign. -/
def scientific (d : Decimal) : String :=
  let digits := d.digits.repr.toList
  let power := digits.length + d.exponent - 1
  let fraction := if digits.length ≤ 1 then [] else '.' :: digits.tail
  let sign := if 0 ≤ power then ['+'] else []
  String.ofList (digits.take 1 ++ fraction ++ 'e' :: sign ++ power.repr.toList)

end Decimal

/-- How a floating-point number is written. -/
structure DecimalStyle where
  /-- Of two equally short and near numbers the greater is taken, not the even one. -/
  tiesUp : Bool
  /-- Whether powers of ten are written out for numbers with that many digits before the point. -/
  isPositional : Int → Bool

/-- A floating-point number in decimal digits. -/
def DecimalStyle.text (style : DecimalStyle) (x : Float) : String :=
  if x.isNaN then "NaN"
  else
    let magnitude :=
      if x.isInf then "inf"
      else
        let d := (Decimal.shortest style.tiesUp (.ofFloat x)).stripped 17
        let point : Int := d.digits.repr.length + d.exponent
        if style.isPositional point then d.positional else d.scientific
    if x.toBits.toNat < 0x8000000000000000 then magnitude else "-" ++ magnitude

end QueryPath.Text

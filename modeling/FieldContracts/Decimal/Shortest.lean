/-!
# Shortest decimals of binary fractions

A positive number `m * 2 ^ q` stands for all reals that are nearer to it than to its neighbours
among the numbers of its format; a real halfway between two belongs to the one with the even
mantissa.  `shortest` finds the fewest digits that denote such a real, and of those the nearest
decimal.  All comparisons are made between natural numbers.
-/

namespace FieldContracts.Decimal

/-- A positive number `mantissa * 2 ^ exponent` of a binary format.  `belowIsCloser` says that the
neighbour below is at half the distance of the neighbour above. -/
structure BinaryFraction where
  mantissa : Nat
  exponent : Int
  belowIsCloser : Bool
deriving DecidableEq, Repr

/-- The decimal `digits * 10 ^ exponent`. -/
structure ShortDecimal where
  digits : Nat
  exponent : Int
deriving DecidableEq, Repr

/-- A quotient of natural numbers. -/
structure Ratio where
  num : Nat
  den : Nat
deriving DecidableEq, Repr

namespace Ratio

/-- The quotient that equals `n * 2 ^ q`. -/
def ofBinary (n : Nat) (q : Int) : Ratio := ⟨n * Nat.pow 2 q.toNat, Nat.pow 2 (-q).toNat⟩

/-- The quotient that equals `r * 10 ^ k`. -/
def shift (r : Ratio) (k : Int) : Ratio :=
  ⟨r.num * Nat.pow 10 k.toNat, r.den * Nat.pow 10 (-k).toNat⟩

def le (r s : Ratio) : Bool := r.num * s.den ≤ s.num * r.den

def lt (r s : Ratio) : Bool := r.num * s.den < s.num * r.den

/-- The least `k`, at least `start` and less than `start + bound`, for which `r * 10 ^ k ≥ 1`. -/
def firstShift (r : Ratio) (start : Nat) : (bound : Nat) → Nat
  | 0 => start
  | bound + 1 => if r.den ≤ r.num * Nat.pow 10 start then start else r.firstShift (start + 1) bound

/-- The exponent of the leading decimal digit. -/
def leadingExponent (r : Ratio) : Int :=
  if r.den ≤ r.num then
    (Nat.toDigits 10 (r.num / r.den)).length - 1
  else
    -(r.firstShift 1 400 : Int)

end Ratio

namespace BinaryFraction

def ratio (x : BinaryFraction) : Ratio := Ratio.ofBinary x.mantissa x.exponent

/-- The halfway point to the neighbour below. -/
def lower (x : BinaryFraction) : Ratio :=
  Ratio.ofBinary (4 * x.mantissa - if x.belowIsCloser then 1 else 2) (x.exponent - 2)

/-- The halfway point to the neighbour above. -/
def upper (x : BinaryFraction) : Ratio :=
  Ratio.ofBinary (4 * x.mantissa + 2) (x.exponent - 2)

/-- Whether a reader that rounds to nearest reads the decimal as `x`. -/
def denotedBy (x : BinaryFraction) (d : ShortDecimal) : Bool :=
  let point := Ratio.shift ⟨d.digits, 1⟩ d.exponent
  if x.mantissa % 2 == 0 then
    x.lower.le point && point.le x.upper
  else
    x.lower.lt point && point.lt x.upper

/-- The decimal with `count` digits that denotes `x` and is nearest to it; of two equally near ones
the one with the even last digit. -/
def withDigits? (x : BinaryFraction) (count : Nat) : Option ShortDecimal :=
  let unit := x.ratio.leadingExponent - count + 1
  let scaled := x.ratio.shift (-unit)
  let below := scaled.num / scaled.den
  let remainder := scaled.num % scaled.den
  let down : ShortDecimal := ⟨below, unit⟩
  let up : ShortDecimal := ⟨below + 1, unit⟩
  match x.denotedBy down, x.denotedBy up with
  | true, true =>
      if 2 * remainder < scaled.den || (2 * remainder == scaled.den && below % 2 == 0) then
        some down
      else
        some up
  | true, false => some down
  | false, true => some up
  | false, false => none

/-- The decimal with the fewest digits that denotes `x`, nearest to `x` among those.  Seventeen
digits suffice for every number of 53 binary digits. -/
def shortest (x : BinaryFraction) : ShortDecimal :=
  ((List.range 17).findSome? fun i => x.withDigits? (i + 1)).getD ⟨x.mantissa, x.exponent⟩

end BinaryFraction

end FieldContracts.Decimal

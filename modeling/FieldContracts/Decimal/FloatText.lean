import FieldContracts.Decimal.Shortest

/-!
# The text of a floating point number

The fewest digits that read back, with a decimal point whenever the number is neither very large
nor very small.
-/

namespace FieldContracts.Decimal

/-- The finite positive double of these bits, sign ignored; `none` for zero. -/
def BinaryFraction.ofBits? (bits : UInt64) : Option BinaryFraction :=
  let fraction : Nat := bits.toNat % Nat.pow 2 52
  let biased : Nat := bits.toNat / Nat.pow 2 52 % Nat.pow 2 11
  if biased == 0 then
    if fraction == 0 then none else some ⟨fraction, -1074, false⟩
  else
    some ⟨fraction + Nat.pow 2 52, (biased : Int) - 1075, fraction == 0 && biased > 1⟩

/-- The decimal point stands among or beside the digits when the exponent of the leading digit is
from -5 to 15; else one digit stands before it and the exponent follows `e` and its sign. -/
def ShortDecimal.text (d : ShortDecimal) : List Char :=
  let all := Nat.toDigits 10 d.digits
  let digits := (all.reverse.dropWhile (· == '0')).reverse
  let leading := d.exponent + (all.length - 1)
  if 0 ≤ leading && leading ≤ 15 then
    let whole := leading.toNat + 1
    let padded := digits ++ List.replicate (whole - digits.length) '0'
    let fraction := padded.drop whole
    padded.take whole ++ '.' :: (if fraction.isEmpty then ['0'] else fraction)
  else if -5 ≤ leading && leading < 0 then
    '0' :: '.' :: (List.replicate ((-leading).toNat - 1) '0' ++ digits)
  else
    let exponent := 'e' :: (if leading < 0 then '-' else '+') :: Nat.toDigits 10 leading.natAbs
    match digits with
    | [digit] => digit :: exponent
    | digit :: more => digit :: '.' :: (more ++ exponent)
    | [] => []

/-- The text of a finite double. -/
def floatText (x : Float) : String :=
  let bits := x.toBits
  let sign := if bits.toNat / Nat.pow 2 63 == 1 then ['-'] else []
  let unsigned :=
    match BinaryFraction.ofBits? bits with
    | none => ['0', '.', '0']
    | some fraction => fraction.shortest.text
  String.ofList (sign ++ unsigned)

end FieldContracts.Decimal

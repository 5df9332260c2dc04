import HostPrereqs.Number.Double

/-!
# Number — the shortest decimal

Every double is the nearest double to many decimals.  `Double.shortest` finds the one with the
fewest digits, and of those with equally many the one nearest to the number itself, a tie going
to the even digit.  It tries
one digit, two digits, and so on to seventeen; on each decimal grid only the two neighbours of
the number can be nearest, so only these are tested against the interval of reals that round to
the number.

`Double.text` writes the decimal: positionally when the first digit stands between the fourth
place after the point and the sixteenth before it, and with an exponent of at least two digits
otherwise.
-/

namespace HostPrereqs

namespace Double

/-- Non-negative reals between two quotients over one denominator, the ends included or not. -/
structure Interval where
  low : Nat
  high : Nat
  den : Nat
  closed : Bool

/-- Whether `num / den` lies in the interval. -/
def Interval.holds (i : Interval) (num den : Nat) : Bool :=
  let value := num * i.den
  if i.closed then i.low * den ≤ value && value ≤ i.high * den
  else i.low * den < value && value < i.high * den

/-- The magnitude of a finite number, over the denominator of its rounding interval. -/
def magnitude (x : Double) : Nat × Nat := scaled (4 * x.mantissa) 4 x.scale

/-- The reals that round to a finite positive number.  Below a power of two the neighbour is
half as far away as above it.  The ends round to the number when its mantissa is even. -/
def roundingInterval (x : Double) : Interval :=
  let m := x.mantissa
  let narrow := x.fractionField = 0 && 1 < x.exponentField
  let (unit, den) := scaled 1 4 x.scale
  { low := (4 * m - if narrow then 1 else 2) * unit
    high := (4 * m + 2) * unit
    den := den
    closed := m % 2 = 0 }

/-- `num / den` times a power of ten, as a quotient of naturals. -/
def tenfold (num den : Nat) (power : Int) : Nat × Nat :=
  if 0 ≤ power then (num * Nat.pow 10 power.toNat, den) else (num, den * Nat.pow 10 (-power).toNat)

/-- The number of decimal digits before the point of a positive quotient, negative when zeros
follow the point: the least `p` with `num / den < 10 ^ p`. -/
def decimalPoint (num den : Nat) : Int :=
  let guess : Int := (Nat.toDigits 10 num).length - (Nat.toDigits 10 den).length
  let (n, d) := tenfold num den (-guess)
  if n < d then guess else guess + 1

/-- The neighbours of `num / den` on the grid of multiples of `10 ^ unit` that lie in the
interval, the nearer one first, and of two equally near the even one. -/
def gridNeighbours (i : Interval) (num den : Nat) (unit : Int) : List Nat :=
  let (n, d) := tenfold num den (-unit)
  let below := n / d
  let inside (k : Nat) : Bool :=
    let (kn, kd) := tenfold k 1 unit
    i.holds kn kd
  let belowFirst := 2 * (n % d) < d || (2 * (n % d) = d && below % 2 = 0)
  (if belowFirst then [below, below + 1] else [below + 1, below]).filter inside

/-- Tries grids of `places` digits, more and more of them, at most `tries` times. -/
def shortestFrom (i : Interval) (num den : Nat) (point : Int) : Nat → Nat → Nat × Int
  | 0, places => (num, point - places)
  | tries + 1, places =>
      match gridNeighbours i num den (point - places) with
      | k :: _ => (k, point - places)
      | [] => shortestFrom i num den point tries (places + 1)

/-- The shortest decimal of a finite positive number: its digits as a natural, and the power of
ten of the last one. -/
def shortest (x : Double) : Nat × Int :=
  let (num, den) := x.magnitude
  shortestFrom x.roundingInterval num den (decimalPoint num den) 17 1

/-- Drops the zeros at the end of a list of digits. -/
def dropFinalZeros (ds : List Char) : List Char := (ds.reverse.dropWhile (· = '0')).reverse

/-- Positions at which a decimal is written without an exponent. -/
structure Positional where
  least : Int
  greatest : Int

/-- A number is written positionally when its point stands at most three zeros before its
digits or sixteen digits after the first. -/
def positional : Positional := ⟨-3, 16⟩

/-- A power of ten with its sign and at least two digits. -/
def exponentText (e : Int) : List Char :=
  let ds := Nat.toDigits 10 e.natAbs
  (if e < 0 then '-' else '+') :: (List.replicate (2 - ds.length) '0' ++ ds)

/-- Writes the digits `ds`, of which `point` stand before the decimal point. -/
def writeDigits (ds : List Char) (point : Int) : List Char :=
  if positional.least ≤ point && point ≤ positional.greatest then
    if point ≤ 0 then ['0', '.'] ++ List.replicate (-point).toNat '0' ++ ds
    else
      let whole := point.toNat
      let before := ds.take whole ++ List.replicate (whole - ds.length) '0'
      let after := ds.drop whole
      before ++ '.' :: (if after.isEmpty then ['0'] else after)
  else
    match ds with
    | [] => []
    | [d] => d :: 'e' :: exponentText (point - 1)
    | d :: rest => d :: '.' :: rest ++ 'e' :: exponentText (point - 1)

/-- The text of a number. -/
def text (x : Double) : String :=
  if x.isNaN then "nan"
  else
    let sign := if x.isNegative then ['-'] else []
    if !x.isFinite then String.ofList (sign ++ ['i', 'n', 'f'])
    else if x.isZero then String.ofList (sign ++ ['0', '.', '0'])
    else
      let (k, unit) := x.shortest
      let ds := Nat.toDigits 10 k
      String.ofList (sign ++ writeDigits (dropFinalZeros ds) (ds.length + unit))

end Double

end HostPrereqs

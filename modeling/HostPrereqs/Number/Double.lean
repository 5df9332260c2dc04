/-!
# Number — double-precision numbers

A floating-point number is its 64 bits: a sign, eleven bits of exponent and fifty-two of
fraction.  Keeping the bits makes equality decidable and tells the two zeros apart.  A finite
number is an integer times a power of two (`mantissa`, `scale`); `ofRatio` rounds a quotient of
two naturals to the nearest double, a tie to the even mantissa, and `ofDecimal` a decimal
numeral.
-/

namespace HostPrereqs

/-- A number in IEEE 754 double precision. -/
structure Double where
  bits : UInt64
deriving DecidableEq, Inhabited

namespace Double

/-! ### The parts of a number -/

def isNegative (x : Double) : Bool := x.bits.toNat / Nat.pow 2 63 = 1

/-- The exponent field, from 0 to 2047. -/
def exponentField (x : Double) : Nat := x.bits.toNat / Nat.pow 2 52 % Nat.pow 2 11

/-- The fraction field, below `2 ^ 52`. -/
def fractionField (x : Double) : Nat := x.bits.toNat % Nat.pow 2 52

def isFinite (x : Double) : Bool := x.exponentField < 2047

def isNaN (x : Double) : Bool := !x.isFinite && x.fractionField != 0

/-- The integer that a finite number multiplies a power of two with. -/
def mantissa (x : Double) : Nat :=
  if x.exponentField = 0 then x.fractionField else x.fractionField + Nat.pow 2 52

/-- The power of two of a finite number. -/
def scale (x : Double) : Int :=
  if x.exponentField = 0 then -1074 else (x.exponentField : Int) - 1075

def isZero (x : Double) : Bool := x.exponentField = 0 && x.fractionField = 0

/-- Builds a number from its three fields. -/
def ofFields (negative : Bool) (exponent fraction : Nat) : Double :=
  ⟨UInt64.ofNat ((if negative then Nat.pow 2 63 else 0) + exponent * Nat.pow 2 52 + fraction)⟩

def infinity (negative : Bool) : Double := ofFields negative 2047 0

def nan : Double := ofFields false 2047 (Nat.pow 2 51)

/-! ### Rounding to the nearest number -/

/-- The quotient of two naturals, rounded to the nearest, a tie to the even neighbour. -/
def roundDiv (num den : Nat) : Nat :=
  let q := num / den
  let r := num % den
  if 2 * r < den then q else if den < 2 * r then q + 1 else if q % 2 = 0 then q else q + 1

/-- `num / den` times a power of two, as a quotient of naturals. -/
def scaled (num den : Nat) (power : Int) : Nat × Nat :=
  if 0 ≤ power then (num * Nat.pow 2 power.toNat, den) else (num, den * Nat.pow 2 (-power).toNat)

/-- The power of two under which `num / den` has fifty-three binary digits, but never below the
power of the smallest numbers. -/
def scaleFor (num den : Nat) : Int :=
  let guess := (num.log2 : Int) - den.log2 - 53
  let (n, d) := scaled num den (-guess)
  let fitted := if n / d < Nat.pow 2 53 then guess else guess + 1
  max fitted (-1074)

/-- The double nearest to `num / den`, with the given sign; `den` is not zero. -/
def ofRatio (negative : Bool) (num den : Nat) : Double :=
  if num = 0 then ofFields negative 0 0
  else
    let power := scaleFor num den
    let (n, d) := scaled num den (-power)
    let m := roundDiv n d
    let (m, power) := if m = Nat.pow 2 53 then (Nat.pow 2 52, power + 1) else (m, power)
    if m < Nat.pow 2 52 then ofFields negative 0 m
    else if 971 < power then infinity negative
    else ofFields negative (power + 1075).toNat (m - Nat.pow 2 52)

/-- The double nearest to `digits * 10 ^ exponent`.  Numerals far outside the range of doubles
are settled by their size alone. -/
def ofDecimal (negative : Bool) (digits : Nat) (exponent : Int) : Double :=
  let size : Int := (Nat.toDigits 10 digits).length + exponent
  if digits = 0 || size < -400 then ofFields negative 0 0
  else if 400 < size then infinity negative
  else if 0 ≤ exponent then ofRatio negative (digits * Nat.pow 10 exponent.toNat) 1
  else ofRatio negative digits (Nat.pow 10 (-exponent).toNat)

/-! ### Whole numbers -/

/-- The integer a finite number equals, if it equals one. -/
def toInt? (x : Double) : Option Int :=
  if !x.isFinite then none
  else
    let magnitude : Option Nat :=
      if 0 ≤ x.scale then some (x.mantissa * Nat.pow 2 x.scale.toNat)
      else
        let unit := Nat.pow 2 (-x.scale).toNat
        if x.mantissa % unit = 0 then some (x.mantissa / unit) else none
    magnitude.map fun n => if x.isNegative then -(n : Int) else n

/-! ### Arithmetic -/

def add (x y : Double) : Double := ⟨(Float.ofBits x.bits + Float.ofBits y.bits).toBits⟩

def mul (x y : Double) : Double := ⟨(Float.ofBits x.bits * Float.ofBits y.bits).toBits⟩

def neg (x : Double) : Double := ofFields (!x.isNegative) x.exponentField x.fractionField

end Double

end HostPrereqs

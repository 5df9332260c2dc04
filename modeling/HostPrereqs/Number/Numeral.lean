import HostPrereqs.Text.Blank

/-!
# Number — numerals

A numeral may be written in the digits of any script and may have spaces around it; `plain` is the
same numeral in the basic digits.

Decimal numerals of whole numbers are read and written up to a certain number of digits.  What is
longer is refused (`Excess`), and not as a fault of the text around it.
-/

namespace HostPrereqs.Numeral

/-! ### Digits -/

/-- The code points of the zeros of all scripts.  The other nine digits follow each of them. -/
def zeros : List Nat :=
  [0x30, 0x660, 0x6f0, 0x7c0, 0x966, 0x9e6, 0xa66, 0xae6, 0xb66, 0xbe6, 0xc66, 0xce6, 0xd66, 0xde6,
    0xe50, 0xed0, 0xf20, 0x1040, 0x1090, 0x17e0, 0x1810, 0x1946, 0x19d0, 0x1a80, 0x1a90, 0x1b50,
    0x1bb0, 0x1c40, 0x1c50, 0xa620, 0xa8d0, 0xa900, 0xa9d0, 0xa9f0, 0xaa50, 0xabf0, 0xff10,
    0x104a0, 0x10d30, 0x11066, 0x110f0, 0x11136, 0x111d0, 0x112f0, 0x11450, 0x114d0, 0x11650,
    0x116c0, 0x11730, 0x118e0, 0x11950, 0x11c50, 0x11d50, 0x11da0, 0x16a60, 0x16ac0, 0x16b50,
    0x1d7ce, 0x1d7d8, 0x1d7e2, 0x1d7ec, 0x1d7f6, 0x1e140, 0x1e2f0, 0x1e950, 0x1fbf0]

/-- The basic character that a character of a numeral stands for. -/
def basic (c : Char) : Char :=
  if c.toNat < 127 then c
  else if Text.isBlank c then ' '
  else
    match zeros.find? fun first => first ≤ c.toNat && c.toNat < first + 10 with
    | some first => Char.ofNat (0x30 + (c.toNat - first))
    | none => '?'

/-- What may stand around a numeral. -/
def isSpace (c : Char) : Bool := c = ' ' || (9 ≤ c.toNat && c.toNat ≤ 13)

/-- A numeral in basic characters, without the spaces around it. -/
def plain (s : List Char) : List Char :=
  Text.dropEndWhile isSpace ((s.map basic).dropWhile isSpace)

/-! ### Length -/

/-- The digits that a numeral may have. -/
def digitLimit : Nat := 4300

/-- What is said of a numeral with more digits. -/
def tooLong (digits : Nat) : String :=
  s!"Exceeds the limit ({digitLimit} digits) for integer string conversion: "
    ++ s!"value has {digits} digits; "
    ++ "use sys.set_int_max_str_digits() to increase the limit"

/-- What is said of a number whose numeral would have more digits. -/
def unwritable : String :=
  s!"Exceeds the limit ({digitLimit} digits) for integer string conversion; "
    ++ "use sys.set_int_max_str_digits() to increase the limit"

/-- A numeral that has too many digits: one that was to be read, or one that was to be written. -/
inductive Excess where
  | read (digits : Nat)
  | written
deriving DecidableEq, Repr

def Excess.message : Excess → String
  | read digits => tooLong digits
  | written     => unwritable

/-- A number whose numeral does not have too many digits. -/
def Fits (n : Nat) : Prop := (Nat.toDigits 10 n).length ≤ digitLimit

instance (n : Nat) : Decidable (Fits n) := inferInstanceAs (Decidable (_ ≤ _))

end HostPrereqs.Numeral

import AmlService.Lib.Text

/-!
# AmlService.Lib.PyFloat

Python's `float` of a text and `int` of a float, as far as the integer goes: a finite float
is known by its integer part. `ofText` reads ASCII texts, to the nearest double; Python
takes decimal digits and blanks of other scripts as well.
-/

/-- A float: what `int` makes of it, if it is finite. -/
inductive PyFloat
  | finite (integer : Int)
  | infinity
  | nan
  deriving Repr, DecidableEq

namespace PyFloat

/-- The integer part of the double nearest to `num / den`, ties to even; `none` when it
overflows. -/
def nearest (num den : Nat) : Option Nat :=
  if num = 0 then some 0
  else
    let e : Int := (Nat.log2 num : Int) - Nat.log2 den
    -- the exponent: `2 ^ e ≤ num / den < 2 ^ (e + 1)`
    let e := if num * 2 ^ (-e).toNat < den * 2 ^ e.toNat then e - 1 else e
    -- the weight of the last of 53 bits, fewer when the double is subnormal
    let ulp := max (e - 52) (-1074)
    let n := num * 2 ^ (-ulp).toNat
    let d := den * 2 ^ ulp.toNat
    let q := n / d
    let q := if 2 * (n % d) > d ∨ 2 * (n % d) = d ∧ q % 2 = 1 then q + 1 else q
    let integer := q * 2 ^ ulp.toNat / 2 ^ (-ulp).toNat
    if integer < 2 ^ 1024 then some integer else none

/-- `digits * 10 ^ exponent`; a text that is far out of range is not computed. -/
def scaled (digits : List Char) (exponent : Int) : PyFloat :=
  let num := Text.digitsValue digits
  if num = 0 then .finite 0
  else if exponent > 400 then .infinity
  else if digits.length + exponent < -400 then .finite 0
  else
    match nearest (num * 10 ^ exponent.toNat) (10 ^ (-exponent).toNat) with
    | some integer => .finite integer
    | none => .infinity

/-- A text without its underscores; each of them stands between two digits. -/
def dropUnderscores (digitBefore : Bool) : List Char → Option (List Char)
  | [] => some []
  | '_' :: cs => if digitBefore && cs.head?.any Char.isDigit then dropUnderscores false cs else none
  | c :: cs => (dropUnderscores c.isDigit cs).map (c :: ·)

/-- What follows `e` or `E`: a sign and digits. -/
def exponent (s : List Char) : Option Int :=
  match s with
  | [] => some 0
  | c :: s =>
    let (negative, signs) := Text.sign s
    let digits := s.drop signs
    if c.toLower = 'e' ∧ digits ≠ [] ∧ digits.all Char.isDigit then
      some (if negative then -Text.digitsValue digits else Text.digitsValue digits)
    else none

/-- A numeral without a sign, in decimal. -/
def numeral (s : List Char) : Option PyFloat :=
  let whole := s.takeWhile Char.isDigit
  let s := s.drop whole.length
  let (fraction, s) := match s with
    | '.' :: s => (s.takeWhile Char.isDigit, s.dropWhile Char.isDigit)
    | s => ([], s)
  if whole ++ fraction = [] then none
  else (exponent s).map fun e => scaled (whole ++ fraction) (e - fraction.length)

/-- A text without a sign, an `inf` or `nan` among them. -/
def unsigned (s : List Char) : Option PyFloat :=
  let word := String.ofList (s.map Char.toLower)
  if word = "inf" ∨ word = "infinity" then some .infinity
  else if word = "nan" then some .nan
  else numeral s

def neg : PyFloat → PyFloat
  | finite integer => finite (-integer)
  | x => x

/-- The blanks that `str.strip` takes off, of ASCII. -/
def isBlank (c : Char) : Bool := Text.isSpace c || ('\x1c' ≤ c && c ≤ '\x1f')

/-- `float(text)`; `none` for a `ValueError`. -/
def ofText (text : String) : Option PyFloat := do
  let s := ((text.toList.dropWhile isBlank).reverse.dropWhile isBlank).reverse
  let s ← dropUnderscores false s
  let (negative, signs) := Text.sign s
  let x ← unsigned (s.drop signs)
  return if negative then x.neg else x

example : ["12", " -7.9e1\n", "1_000.0", "0.99999999999999999"].map ofText =
    [some (finite 12), some (finite (-79)), some (finite 1000), some (finite 1)] := by decide +kernel

example : ["1e309", "-Inf", "nan", "1__0", "0x10", ""].map ofText =
    [some infinity, some infinity, some nan, none, none, none] := by decide +kernel

end PyFloat

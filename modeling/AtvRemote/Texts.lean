import Mathlib.Algebra.Group.Int.Defs
import Mathlib.Data.List.DropRight

namespace AtvRemote.Texts

def toDigit (radix : Nat) (c : Char) : Option Nat :=
  let value :=
    if '0' ≤ c ∧ c ≤ '9' then some (c.toNat - '0'.toNat)
    else if 'a' ≤ c ∧ c ≤ 'z' then some (c.toNat - 'a'.toNat + 10)
    else if 'A' ≤ c ∧ c ≤ 'Z' then some (c.toNat - 'A'.toNat + 10)
    else none
  value.filter (· < radix)

def isAsciiHexdigit (c : Char) : Bool := (toDigit 16 c).isSome

/-- `u8::from_str_radix`: an optional plus sign and at least one digit, without
overflow. -/
def fromStrRadix (radix : Nat) (s : String) : Option UInt8 :=
  let digits := match s.toList with
    | '+' :: rest => rest
    | chars => chars
  if digits.isEmpty then none
  else
    let value := digits.foldlM (fun n c => do
      let d ← toDigit radix c
      if n * radix + d < 256 then some (n * radix + d) else none) 0
    value.map UInt8.ofNat

/-- `i32::from_str`: an optional sign and at least one digit, without overflow. -/
def parseI32 (s : String) : Option Int32 :=
  let (sign, digits) : Int × List Char := match s.toList with
    | '+' :: rest => (1, rest)
    | '-' :: rest => (-1, rest)
    | chars => (1, chars)
  if digits.isEmpty then none
  else
    let value := digits.foldlM (fun (n : Int) c => do
      let d ← toDigit 10 c
      let n := n * 10 + sign * d
      if -2 ^ 31 ≤ n ∧ n < 2 ^ 31 then some n else none) 0
    value.map Int32.ofInt

/-- The parts between the separators, of which the text may have none. -/
def split (s : String) (separators : List Char) : List String :=
  (s.toList.splitOnP separators.contains).map String.ofList

def stripSuffix (s suffix : String) : Option String :=
  if suffix.toList.isSuffixOf s.toList then some
    (String.ofList (s.toList.take (s.toList.length - suffix.toList.length)))
  else none

def startsWith (s pattern : String) : Bool := pattern.toList.isPrefixOf s.toList

def toAsciiUppercase (s : String) : String := String.ofList (s.toList.map Char.toUpper)

/-- Cut a text after a number of bytes; `none` unless a character ends there. -/
def splitBytes : Nat → List Char → Option (List Char × List Char)
  | 0, chars => some ([], chars)
  | _ + 1, [] => none
  | n + 1, c :: chars =>
      if c.utf8Size ≤ n + 1 then (splitBytes (n + 1 - c.utf8Size) chars).map
        (fun (a, b) => (c :: a, b))
      else none

def slice (s : String) (i j : Nat) : Option String := do
  let (upTo, _) ← splitBytes j s.toList
  let (_, part) ← splitBytes i upTo
  some (String.ofList part)

/-- The characters with the Unicode property `White_Space`. -/
def isWhitespace (c : Char) : Bool :=
  let n := c.toNat
  (0x9 ≤ n && n ≤ 0xd) || n == 0x20 || n == 0x85 || n == 0xa0 || n == 0x1680 ||
    (0x2000 ≤ n && n ≤ 0x200a) || n == 0x2028 || n == 0x2029 || n == 0x202f || n ==
      0x205f || n == 0x3000

def trim (s : String) : String :=
  String.ofList ((s.toList.dropWhile isWhitespace).rdropWhile isWhitespace)

end AtvRemote.Texts

/-!
Reading decimal numerals. A numeral is an optional sign and at least one ASCII digit, and it is
refused when its value lies outside the range of the field it fills.
-/
namespace ArtifactGate.Text

def digitsValue (digits : List Char) : Nat :=
  digits.foldl (fun value c => value * 10 + (c.toNat - '0'.toNat)) 0

def readDigits (cs : List Char) : Option Nat :=
  if !cs.isEmpty && cs.all Char.isDigit then some (digitsValue cs) else none

/-- Reads a natural number below `bound`; a plus sign may stand before it. -/
def readNat (bound : Nat) (text : String) : Option Nat :=
  let digits :=
    match text.toList with
    | '+' :: rest => rest
    | cs => cs
  (readDigits digits).filter (· < bound)

def nat64Bound : Nat := UInt64.size

def nat32Bound : Nat := UInt32.size

/-- One past the largest integer of 64 bits; the smallest is this far below zero. -/
def int64Bound : Nat := UInt64.size / 2

def readInt64 (text : String) : Option Int :=
  match text.toList with
  | '+' :: rest => ((readDigits rest).filter (· < int64Bound)).map Int.ofNat
  | '-' :: rest => ((readDigits rest).filter (· ≤ int64Bound)).map fun n => - Int.ofNat n
  | cs => ((readDigits cs).filter (· < int64Bound)).map Int.ofNat

end ArtifactGate.Text

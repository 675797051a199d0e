import ArtifactGate.Fault
import ArtifactGate.Text.Numeral
import ArtifactGate.Text.Printable
import ArtifactGate.Text.Split

/-!
The lines that introduce what is sent:

    C<permissions> <length> <name>       a file of that many bytes
    D<permissions> 0 <name>              a directory
    T<modified> 0 <accessed> 0           the times of the next file or directory
-/
namespace ArtifactGate.Wire

/-- The line before a file or a directory, without its first letter. -/
structure Header where
  name : String
  length : Nat
  permissions : String
  deriving DecidableEq, Repr, Inhabited

namespace Header

def isOctal (c : Char) : Bool := '0' ≤ c && c ≤ '7'

/-- Reads the permissions: four octal digits and the blank after them. -/
def splitPermissions : List Char → Option (List Char × List Char)
  | a :: b :: c :: d :: ' ' :: rest =>
    if [a, b, c, d].all isOctal then some ([a, b, c, d], rest) else none
  | _ => none

/-- Reads a line's fields after its first letter. The name is what follows the second blank; it is
not empty and may hold blanks. -/
def ofFields (fields : List Char) : Option Header := do
  let (permissions, rest) ← splitPermissions fields
  let (length, name) ← Text.splitFirst ' ' rest
  let length ← Text.readNat Text.nat64Bound (String.ofList length)
  if name.isEmpty then none
  else some { name := String.ofList name, length, permissions := String.ofList permissions }

/-- Reads a whole line; its first letter is any one ASCII character. -/
def parse? (line : String) : Option Header :=
  match line.toList with
  | [] => none
  | kind :: fields => if kind.toNat < 128 then ofFields fields else none

def parse (line : String) : Except Fault Header :=
  match parse? line with
  | some header => .ok header
  | none => .error (.protocol ("malformed header: " ++ Text.quoted line))

def format (header : Header) (kind : Char) : String :=
  kind.toString ++ header.permissions ++ " " ++ toString header.length ++ " " ++ header.name

end Header

/-- When a file was last changed and last read, in seconds since 1970. -/
structure Timestamps where
  modified : Int
  accessed : Int
  deriving DecidableEq, Repr, Inhabited

namespace Timestamps

/-- Reads a line: four fields, of which the first and the third are the times. -/
def parse? (line : String) : Option Timestamps :=
  match line.toList with
  | 'T' :: fields =>
    match Text.words (String.ofList fields) with
    | [modified, _, accessed, _] => do
      return { modified := ← Text.readInt64 modified, accessed := ← Text.readInt64 accessed }
    | _ => none
  | _ => none

def parse (line : String) : Except Fault Timestamps :=
  match parse? line with
  | some times => .ok times
  | none => .error (.protocol ("malformed time header: " ++ Text.quoted line))

def format (times : Timestamps) : String :=
  "T" ++ toString times.modified ++ " 0 " ++ toString times.accessed ++ " 0"

end Timestamps

end ArtifactGate.Wire

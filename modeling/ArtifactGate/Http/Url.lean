import ArtifactGate.Artifact
import ArtifactGate.Text.Utf8

/-!
Where a server keeps its items. Names go into a url byte by byte: a byte that has a meaning in urls is
written as a percent sign and two hexadecimal digits, so that a separator in a url always was one.
-/
namespace ArtifactGate.Http

def hexDigit (n : Nat) : Char :=
  if n < 10 then Char.ofNat ('0'.toNat + n) else Char.ofNat ('A'.toNat + (n - 10))

def percent (byte : UInt8) : List Char :=
  ['%', hexDigit (byte.toNat / 16), hexDigit (byte.toNat % 16)]

def encodeByte (plain : Char → Bool) (byte : UInt8) : List Char :=
  let c := Char.ofNat byte.toNat
  if byte < 0x80 && plain c then [c] else percent byte

def encodeText (plain : Char → Bool) (text : String) : List Char :=
  (Text.encode text).flatMap (encodeByte plain)

def reservedInPath : List Char :=
  ['"', '#', '%', ';', '<', '>', '?', '[', '\\', ']', '^', '\x60', '\x7b', '|', '\x7d']

def plainInPath (c : Char) : Bool :=
  ' ' < c && c < '\x7f' && !reservedInPath.contains c

/-- Of a property nothing stays that could separate it from the next. -/
def plainInProperty (c : Char) : Bool :=
  c.isAlphanum || ['-', '_', '.', '~'].contains c

def encodePath (path : String) : List Char :=
  encodeText plainInPath path

def encodeProperty (property : String × String) : List Char :=
  ';' :: encodeText plainInProperty property.1 ++
    '=' :: encodeText plainInProperty property.2

/-- A server, by the url that those of its items begin with. -/
structure Server where
  base : List Char
  deriving DecidableEq, Repr, Inhabited

namespace Server

/-- The server at a url; slashes at the end of the url mean nothing. -/
def ofUrl (url : String) : Server :=
  ⟨Text.dropTrailing Location.isSlash url.toList⟩

def itemPath (location : Location) : List Char :=
  encodePath location.repository ++ '/' :: encodePath location.path

def storageUrl (server : Server) (location : Location) : String :=
  String.ofList (server.base ++ "/api/storage/".toList ++ itemPath location)

def contentUrl (server : Server) (location : Location) : String :=
  String.ofList (server.base ++ '/' :: itemPath location)

/-- Where an item is uploaded to: where its content will be, and the properties it will have. -/
def uploadUrl (server : Server) (location : Location) (properties : Properties) : String :=
  String.ofList
    (server.base ++ '/' :: itemPath location ++ properties.entries.flatMap encodeProperty)

end Server

end ArtifactGate.Http

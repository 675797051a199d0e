/-!
Text as bytes on the wire. Writing and reading are inverse to each other, so a line that was sent
is the line that is received. Bytes that are no text can be read, too: every stretch that begins a character
and does not complete it, and every byte that cannot begin one, becomes one replacement character.
-/
namespace ArtifactGate.Text

def encode (text : String) : List UInt8 :=
  text.toUTF8.data.toList

def decode? (bytes : List UInt8) : Option String :=
  String.fromUTF8? ⟨bytes.toArray⟩

theorem decode?_encode (text : String) : decode? (encode text) = some text := by
  have whole : (⟨(encode text).toArray⟩ : ByteArray) = text.toByteArray := by
    simp [encode]
  have valid : (⟨(encode text).toArray⟩ : ByteArray).IsValidUTF8 := by
    rw [whole]
    exact text.isValidUTF8
  simp only [decode?, String.fromUTF8?, dif_pos valid, String.fromUTF8, Option.some.injEq]
  exact String.toByteArray_inj.1 whole

def replacementChar : Char := '\ufffd'

/-- How many bytes follow a first byte, and the range in which the second one lies; nothing for a byte
that begins no character. -/
def continuation? (first : UInt8) : Option (Nat × UInt8 × UInt8) :=
  if first < 0x80 then some (0, 0x80, 0xBF)
  else if first < 0xC2 then none
  else if first < 0xE0 then some (1, 0x80, 0xBF)
  else if first == 0xE0 then some (2, 0xA0, 0xBF)
  else if first == 0xED then some (2, 0x80, 0x9F)
  else if first < 0xF0 then some (2, 0x80, 0xBF)
  else if first == 0xF0 then some (3, 0x90, 0xBF)
  else if first < 0xF4 then some (3, 0x80, 0xBF)
  else if first == 0xF4 then some (3, 0x80, 0x8F)
  else none

/-- A character of which bytes are still to come: its code so far, how many they are, and the range of
the next. -/
structure OpenChar where
  code : Nat
  missing : Nat
  low : UInt8
  high : UInt8

def beginChar (byte : UInt8) : Option OpenChar × List Char :=
  match continuation? byte with
  | none => (none, [replacementChar])
  | some (0, _, _) => (none, [Char.ofNat byte.toNat])
  | some (missing, low, high) =>
    let code := byte.toNat % (if missing = 1 then 32 else if missing = 2 then 16 else 8)
    (some { code, missing, low, high }, [])

def decodeLossyFrom : Option OpenChar → List UInt8 → List Char
  | none, [] => []
  | some _, [] => [replacementChar]
  | none, byte :: rest =>
    let (opened, chars) := beginChar byte
    chars ++ decodeLossyFrom opened rest
  | some char, byte :: rest =>
    if char.low ≤ byte && byte ≤ char.high then
      let code := char.code * 64 + byte.toNat % 64
      if char.missing = 1 then Char.ofNat code :: decodeLossyFrom none rest
      else
        decodeLossyFrom (some { code, missing := char.missing - 1, low := 0x80, high := 0xBF })
          rest
    else
      let (opened, chars) := beginChar byte
      replacementChar :: chars ++ decodeLossyFrom opened rest

def decodeLossy (bytes : List UInt8) : String :=
  String.ofList (decodeLossyFrom none bytes)

end ArtifactGate.Text

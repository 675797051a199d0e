import ArtifactGate.Proofs.Http.Paths
import ArtifactGate.Proofs.SortedMap
import ArtifactGate.Yaml.Token

/-!
Reading a store's urls back. Names are written with escapes for whatever could be taken for a separator, so what
follows the root of a url is cut where its parts were put together, and each part is read as the name that it was.
The escapes are those of every uri: what reads the uris in the tags of a YAML text reads them, too. Where the root of
a url ends is not written in it, so each kind of url has a reader of its own.
-/
namespace ArtifactGate.Http

open Yaml (hexValue?)
open Yaml.Scanner (unescapeUri)

section Escapes

variable {plain : Char → Bool}

theorem hexValue?_hexDigit : ∀ n < 16, hexValue? (hexDigit n) = some n := by
  decide

theorem unescapeUri_percent (byte : UInt8) (rest : List Char) :
    unescapeUri (percent byte ++ rest) = (unescapeUri rest).map (byte :: ·) := by
  have bound := byte.toNat_lt
  have high := hexValue?_hexDigit (byte.toNat / 16) (by omega)
  have low := hexValue?_hexDigit (byte.toNat % 16) (by omega)
  have halves : byte.toNat / 16 * 16 + byte.toNat % 16 = byte.toNat := by omega
  simp only [percent, List.cons_append, List.nil_append, unescapeUri, high, low, Option.bind_eq_bind, Option.bind_some,
    halves, UInt8.ofNat_toNat]
  cases unescapeUri rest <;> rfl

theorem unescapeUri_cons {c : Char} (ascii : c.toNat < 128) (other : c ≠ '%') (rest : List Char) :
    unescapeUri (c :: rest) = (unescapeUri rest).map (UInt8.ofNat c.toNat :: ·) := by
  have bytes : Text.encode (String.singleton c) = [UInt8.ofNat c.toNat] := by
    rw [Text.encode_eq_flatMap, String.toList_singleton, List.flatMap_singleton, Text.utf8EncodeChar_of_ascii ascii]
  rw [unescapeUri, beq_false_of_ne other, bytes]
  · cases unescapeUri rest <;> rfl
  · intro high low rest same
    exact absurd same other

/-- What is written for a byte is read as that byte, if a percent sign is never written as it is. -/
theorem unescapeUri_encodeByte (marks : plain '%' = false) (byte : UInt8) (rest : List Char) :
    unescapeUri (encodeByte plain byte ++ rest) = (unescapeUri rest).map (byte :: ·) := by
  rw [encodeByte]
  split
  · rename_i shown
    rw [Bool.and_eq_true, decide_eq_true_eq, UInt8.lt_iff_toNat_lt] at shown
    obtain ⟨ascii, shown⟩ := shown
    have codes : ∀ number < 128, (Char.ofNat number).toNat = number := by decide
    have code := codes byte.toNat ascii
    have other : Char.ofNat byte.toNat ≠ '%' := by
      intro same
      rw [same, marks] at shown
      cases shown
    rw [List.singleton_append, unescapeUri_cons (code.symm ▸ ascii) other, code, UInt8.ofNat_toNat]
  · exact unescapeUri_percent byte rest

theorem unescapeUri_flatMap (marks : plain '%' = false) (bytes : List UInt8) :
    unescapeUri (bytes.flatMap (encodeByte plain)) = some bytes := by
  induction bytes with
  | nil => rfl
  | cons byte rest ih => rw [List.flatMap_cons, unescapeUri_encodeByte marks, ih, Option.map_some]

/-- The text that is written with escapes. -/
def readText? (written : List Char) : Option String :=
  (unescapeUri written).bind Text.decode?

theorem readText?_encodeText (marks : plain '%' = false) (text : String) :
    readText? (encodeText plain text) = some text := by
  rw [readText?, encodeText, unescapeUri_flatMap marks, Option.bind_some, Text.decode?_encode]

theorem isAlphanum_hexDigit : ∀ n < 16, (hexDigit n).isAlphanum = true := by
  decide

theorem mem_percent {byte : UInt8} {c : Char} (member : c ∈ percent byte) : c = '%' ∨ c.isAlphanum = true := by
  have bound := byte.toNat_lt
  have high := isAlphanum_hexDigit (byte.toNat / 16) (by omega)
  have low := isAlphanum_hexDigit (byte.toNat % 16) (by omega)
  simp only [percent, List.mem_cons, List.not_mem_nil, or_false] at member
  rcases member with same | rfl | rfl
  · exact .inl same
  · exact .inr high
  · exact .inr low

/-- A mark that escapes do not hold is written as it is, or not at all. -/
theorem mem_of_mem_encodeText {mark : Char} (other : mark ≠ '%') (sign : mark.isAlphanum = false) {text : String}
    (member : mark ∈ encodeText plain text) : mark ∈ text.toList ∧ plain mark = true := by
  have outside (byte : UInt8) : mark ∉ percent byte := by
    intro among
    rcases mem_percent among with same | among
    · exact other same
    · rw [sign] at among
      cases among
  rw [encodeText_eq, List.mem_flatMap] at member
  obtain ⟨c, among, member⟩ := member
  rcases escape_cases plain c with ⟨_, shown, same⟩ | ⟨byte, rest, escaped, _⟩
  · rw [same, List.mem_singleton] at member
    exact member ▸ ⟨among, shown⟩
  · rw [escaped, List.mem_append, List.mem_flatMap] at member
    rcases member with first | ⟨more, _, later⟩
    · exact absurd first (outside byte)
    · exact absurd later (outside more)

theorem not_mem_encodeText {mark : Char} (other : mark ≠ '%') (sign : mark.isAlphanum = false)
    (hidden : plain mark = false) (text : String) : mark ∉ encodeText plain text := by
  intro member
  obtain ⟨_, shown⟩ := mem_of_mem_encodeText other sign member
  rw [hidden] at shown
  cases shown

end Escapes

section Pairs

variable {plain : Char → Bool} {separator : Char} {pair : String × String}

/-- Two texts with a separator between them: a repository and a path, or a property and its value. -/
def writePair (plain : Char → Bool) (separator : Char) (pair : String × String) : List Char :=
  encodeText plain pair.1 ++ separator :: encodeText plain pair.2

def readPair? (separator : Char) (written : List Char) : Option (String × String) := do
  let (first, second) ← Text.splitFirst separator written
  return (← readText? first, ← readText? second)

theorem readPair?_writePair (marks : plain '%' = false) (absent : separator ∉ encodeText plain pair.1) :
    readPair? separator (writePair plain separator pair) = some pair := by
  simp only [readPair?, writePair, Text.splitFirst_append absent, Option.bind_eq_bind, Option.bind_some,
    readText?_encodeText marks]
  rfl

theorem not_mem_writePair {mark : Char} (other : mark ≠ '%') (sign : mark.isAlphanum = false)
    (hidden : plain mark = false) (apart : mark ≠ separator) : mark ∉ writePair plain separator pair := by
  intro member
  rcases List.mem_append.1 member with first | later
  · exact not_mem_encodeText other sign hidden _ first
  · rcases List.mem_cons.1 later with same | second
    · exact apart same
    · exact not_mem_encodeText other sign hidden _ second

end Pairs

section Items

variable {location : Location} {item : List Char}

/-- What stands in a url after its root: where the item is, and the properties it is to have. -/
def itemText (location : Location) (properties : Properties) : List Char :=
  Server.itemPath location ++ properties.entries.flatMap encodeProperty

theorem itemPath_eq (location : Location) :
    Server.itemPath location = writePair plainInPath '/' (location.repository, location.path) :=
  rfl

theorem encodeProperty_eq (property : String × String) :
    encodeProperty property = ';' :: writePair plainInProperty '=' property :=
  rfl

theorem itemText_empty (location : Location) : itemText location .empty = Server.itemPath location :=
  List.append_nil _

def isMark (c : Char) : Bool := c == ';'

theorem isMark_of_not_mem (absent : ';' ∉ item) : ∀ c ∈ item, isMark c = false :=
  fun _ member => beq_false_of_ne fun same => absent (same ▸ member)

theorem mark_not_mem_itemPath : ';' ∉ Server.itemPath location := by
  rw [itemPath_eq]
  exact not_mem_writePair (by decide) (by decide) (by decide) (by decide)

theorem mark_not_mem_property {property : String × String} : ';' ∉ writePair plainInProperty '=' property :=
  not_mem_writePair (by decide) (by decide) (by decide) (by decide)

/-- Properties are cut at the marks that they were put together with. -/
theorem pieces_properties (absent : ';' ∉ item) (properties : List (String × String)) :
    Text.pieces isMark (item ++ properties.flatMap encodeProperty) =
      item :: properties.map (writePair plainInProperty '=') := by
  induction properties generalizing item with
  | nil => rw [List.flatMap_nil, List.append_nil, Text.pieces_of_none (isMark_of_not_mem absent), List.map_nil]
  | cons property rest ih =>
      rw [List.flatMap_cons, encodeProperty_eq, List.cons_append, Text.pieces_append (isMark_of_not_mem absent) rfl,
        ih mark_not_mem_property, List.map_cons]

theorem mapM_readPair? (properties : List (String × String)) :
    (properties.map (writePair plainInProperty '=')).mapM (readPair? '=') = some properties := by
  have read (property : String × String) :
      readPair? '=' (writePair plainInProperty '=' property) = some property :=
    readPair?_writePair (by decide) (not_mem_encodeText (by decide) (by decide) (by decide) _)
  induction properties with
  | nil => rfl
  | cons property rest ih =>
      simp only [List.map_cons, List.mapM_cons, read, ih, Option.bind_eq_bind, Option.bind_some]
      rfl

/-- Where the item is that a url tells of after its root, and the properties it is to have. -/
def readItemText? (written : List Char) : Option (Location × Properties) :=
  match Text.pieces isMark written with
  | [] => none
  | item :: properties => do
    let (repository, path) ← readPair? '/' item
    return (⟨repository, path⟩, .ofList (← properties.mapM (readPair? '=')))

theorem readItemText?_itemText (free : '/' ∉ location.repository.toList) (properties : Properties) :
    readItemText? (itemText location properties) = some (location, properties) := by
  have absent : '/' ∉ encodeText plainInPath location.repository := fun member =>
    free (mem_of_mem_encodeText (by decide) (by decide) member).1
  have read : readPair? '/' (Server.itemPath location) = some (location.repository, location.path) := by
    rw [itemPath_eq]
    exact readPair?_writePair (by decide) absent
  rw [readItemText?, itemText, pieces_properties mark_not_mem_itemPath]
  simp only [read, mapM_readPair?, Option.bind_eq_bind, Option.bind_some, SortedMap.ofList_entries]
  rfl

theorem not_mem_itemText {mark : Char} (other : mark ≠ '%') (sign : mark.isAlphanum = false)
    (hidden : plainInPath mark = false ∧ plainInProperty mark = false) (apart : mark ∉ ['/', ';', '='])
    (properties : Properties) : mark ∉ itemText location properties := by
  simp only [List.mem_cons, List.not_mem_nil, or_false, not_or] at apart
  obtain ⟨slash, semicolon, equals⟩ := apart
  intro member
  rcases List.mem_append.1 member with path | property
  · rw [itemPath_eq] at path
    exact not_mem_writePair other sign hidden.1 slash path
  · obtain ⟨property, _, member⟩ := List.mem_flatMap.1 property
    rcases List.mem_cons.1 member with same | pair
    · exact semicolon same
    · exact not_mem_writePair other sign hidden.2 equals pair

theorem count_itemText (location : Location) (properties : Properties) :
    (itemText location properties).count ';' = properties.entries.length := by
  rw [itemText, List.count_append, List.count_eq_zero_of_not_mem mark_not_mem_itemPath, Nat.zero_add]
  induction properties.entries with
  | nil => rfl
  | cons property rest ih =>
      rw [List.flatMap_cons, List.count_append, ih, encodeProperty_eq, List.count_cons_self,
        List.count_eq_zero_of_not_mem mark_not_mem_property, List.length_cons, Nat.zero_add, Nat.add_comm]

end Items

namespace Server

/-- Reads what a url of the server says after a folder of the server. -/
def readUrl? (server : Server) (folder url : String) : Option (Location × Properties) :=
  readItemText? (url.toList.drop (server.base ++ folder.toList).length)

theorem readUrl?_append (server : Server) (folder : String) {location : Location}
    (free : '/' ∉ location.repository.toList) (properties : Properties) :
    server.readUrl? folder (String.ofList (server.base ++ folder.toList ++ itemText location properties)) =
      some (location, properties) := by
  rw [readUrl?, String.toList_ofList, List.drop_left, readItemText?_itemText free]

theorem uploadUrl_eq (server : Server) (location : Location) (properties : Properties) :
    server.uploadUrl location properties =
      String.ofList (server.base ++ "/".toList ++ itemText location properties) := by
  rw [uploadUrl, itemText, List.append_assoc, List.append_assoc]
  rfl

theorem contentUrl_eq (server : Server) (location : Location) :
    server.contentUrl location = String.ofList (server.base ++ "/".toList ++ itemText location .empty) := by
  rw [contentUrl, itemText_empty, List.append_assoc]
  rfl

theorem storageUrl_eq (server : Server) (location : Location) :
    server.storageUrl location =
      String.ofList (server.base ++ "/api/storage/".toList ++ itemText location .empty) := by
  rw [storageUrl, itemText_empty]

def readUploadUrl? (server : Server) (url : String) : Option (Location × Properties) :=
  server.readUrl? "/" url

def readContentUrl? (server : Server) (url : String) : Option Location :=
  (server.readUrl? "/" url).map Prod.fst

def readStorageUrl? (server : Server) (url : String) : Option Location :=
  (server.readUrl? "/api/storage/" url).map Prod.fst

/-- A url of an item is read as what it was made of by the reader for its kind. Different uploads have different
urls, and after its root a url holds nothing that would end its path, and a mark just before each property. -/
theorem urls_decoded (server : Server) :
    (∀ (location : Location) (properties : Properties), '/' ∉ location.repository.toList →
        server.readUploadUrl? (server.uploadUrl location properties) = some (location, properties) ∧
        server.readContentUrl? (server.contentUrl location) = some location ∧
        server.readStorageUrl? (server.storageUrl location) = some location) ∧
      (∀ (location other : Location) (properties others : Properties), '/' ∉ location.repository.toList →
        '/' ∉ other.repository.toList → server.uploadUrl location properties = server.uploadUrl other others →
        location = other ∧ properties = others) ∧
      ∀ (location : Location) (properties : Properties), ∃ item,
        (server.uploadUrl location properties).toList = server.base ++ '/' :: item ∧
          (∀ mark ∈ ['#', '?', ' '], mark ∉ item) ∧ item.count ';' = properties.entries.length ∧
          (properties = .empty → (server.contentUrl location).toList = server.base ++ '/' :: item ∧
            (server.storageUrl location).toList = server.base ++ "/api/storage/".toList ++ item) := by
  have reads (location : Location) (properties : Properties) (free : '/' ∉ location.repository.toList) :
      server.readUploadUrl? (server.uploadUrl location properties) = some (location, properties) := by
    rw [readUploadUrl?, uploadUrl_eq]
    exact server.readUrl?_append "/" free properties
  refine ⟨fun location properties free => ⟨reads location properties free, ?_, ?_⟩, ?_, ?_⟩
  · rw [readContentUrl?, contentUrl_eq, server.readUrl?_append "/" free .empty, Option.map_some]
  · rw [readStorageUrl?, storageUrl_eq, server.readUrl?_append "/api/storage/" free .empty, Option.map_some]
  · intro location other properties others free otherFree same
    have read := reads location properties free
    rw [same, reads other others otherFree] at read
    obtain ⟨rfl, rfl⟩ := Prod.mk.inj (Option.some.inj read)
    exact ⟨rfl, rfl⟩
  · intro location properties
    refine ⟨itemText location properties, ?_, ?_, count_itemText location properties, ?_⟩
    · rw [uploadUrl_eq, String.toList_ofList, List.append_assoc]
      rfl
    · intro mark among
      simp only [List.mem_cons, List.not_mem_nil, or_false] at among
      rcases among with rfl | rfl | rfl <;>
        exact not_mem_itemText (by decide) (by decide) ⟨by decide, by decide⟩ (by decide) properties
    · rintro rfl
      rw [contentUrl_eq, storageUrl_eq]
      refine ⟨?_, String.toList_ofList⟩
      rw [String.toList_ofList, List.append_assoc]
      rfl

/-- Names, a key and a value with every mark there is, and an empty key with an empty value. -/
theorem urls_decoded_of_marks :
    let server := ofUrl "https://host:8081/artifactory/"
    let location : Location := ⟨"a;b", "c=d/%2F #?;é/"⟩
    let properties : Properties := .ofList [("", ""), ("k;=%#? ", "v/é")]
    let url := "https://host:8081/artifactory/a%3Bb/c=d/%252F%20%23%3F%3B%C3%A9/;=;k%3B%3D%25%23%3F%20=v%2F%C3%A9"
    server.uploadUrl location properties = url ∧ server.readUploadUrl? url = some (location, properties) := by
  intro server location properties url
  have written : server.uploadUrl location properties = url := by decide +kernel
  have free : '/' ∉ location.repository.toList := by decide
  exact ⟨written, written ▸ ((urls_decoded server).1 location properties free).1⟩

/-- The content of one item can be where what is known of another is. So no reader tells from a url alone which item
it was made for. -/
theorem content_where_another_is_described :
    let server := ofUrl "http://host"
    server.contentUrl ⟨"api", "storage/libs/a"⟩ = server.storageUrl ⟨"libs", "a"⟩ ∧
      ¬ ∃ read : String → Option Location, ∀ location : Location, '/' ∉ location.repository.toList →
        read (server.contentUrl location) = some location ∧ read (server.storageUrl location) = some location := by
  intro server
  have same : server.contentUrl ⟨"api", "storage/libs/a"⟩ = server.storageUrl ⟨"libs", "a"⟩ := by decide
  refine ⟨same, ?_⟩
  rintro ⟨read, reads⟩
  have content := (reads ⟨"api", "storage/libs/a"⟩ (by decide)).1
  rw [same, (reads ⟨"libs", "a"⟩ (by decide)).2] at content
  exact absurd (Option.some.inj content) (by decide)

end Server

end ArtifactGate.Http

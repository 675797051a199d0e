import ArtifactGate.Proofs.Wire.Lines

/-!
Statuses and lines as they are exchanged. Each is read up to its own end and no further, so both sides stay in step
through any exchange of what fits in a line.
-/
namespace ArtifactGate.Wire

section Reading

variable {bytes rest : List UInt8} {line : Line} {message text : String} {mayEnd : Bool}

/-- A line is read up to the first line end, if there is room for it. -/
theorem drive_line {atEnd : Line → Except Fault String} (inner : newline ∉ bytes)
    (room : line.bytes.size + bytes.length ≤ maxLineLength) :
    drive Line.push atEnd line (bytes ++ newline :: rest) = (Line.text ⟨line.bytes ++ bytes.toArray⟩, rest) := by
  induction bytes generalizing line with
  | nil => rw [List.nil_append, drive, Line.push_newline, Array.append_empty]
  | cons byte bytes ih =>
      obtain ⟨other, inner⟩ := not_or.1 (fun member => inner (List.mem_cons.2 member))
      rw [List.length_cons] at room
      have more : line.push byte = .more ⟨line.bytes.push byte⟩ := Line.push_more (Ne.symm other) (by omega)
      have left : (line.bytes.push byte).size + bytes.length ≤ maxLineLength := by
        rw [Array.size_push]
        omega
      have whole : line.bytes.push byte ++ bytes.toArray = line.bytes ++ (byte :: bytes).toArray := by simp
      rw [List.cons_append, drive, more, ← whole]
      exact ih inner left

theorem readLine_lineBytes (inner : newline ∉ Text.encode text) (fits : (Text.encode text).length ≤ maxLineLength) :
    readLine (lineBytes text ++ rest) = (.ok text, rest) := by
  have room : (#[] : Array UInt8).size + (Text.encode text).length ≤ maxLineLength := by
    rwa [Array.size_empty, Nat.zero_add]
  rw [readLine, lineBytes, List.append_assoc, List.singleton_append,
    drive_line inner room, Array.empty_append, Line.text_encode]

/-- After the status byte, the message is read as a line. -/
theorem drive_message (isError : Bool) (input : List UInt8) :
    drive Acknowledgement.push (Acknowledgement.atEnd mayEnd) (.message isError line) input =
      let read := drive Line.push (fun _ => .error Line.unended) line input
      (read.1.bind fun text => if isError then .error (.peer text) else .ok (), read.2) := by
  induction input generalizing line with
  | nil => rfl
  | cons byte input ih =>
      rw [drive, drive, Acknowledgement.push]
      cases line.push byte with
      | more line => exact ih
      | done outcome => cases outcome <;> rfl

theorem oneLine_eq_map (message : String) : oneLine message = message.map fun c => if c = '\n' then ' ' else c := by
  rw [← String.toList_inj, String.toList_map, oneLine, String.toList_ofList]

/-- A blank takes as many bytes as the line end in whose place it is. -/
theorem length_encode_oneLine (message : String) :
    (Text.encode (oneLine message)).length = (Text.encode message).length := by
  rw [Text.encode_eq_flatMap, Text.encode_eq_flatMap, oneLine, String.toList_ofList, List.flatMap_map,
    List.length_flatMap, List.length_flatMap]
  refine congrArg List.sum (List.map_congr_left fun c _ => ?_)
  split
  · rename_i same
    rw [same]
    rfl
  · rfl

theorem readStatus_ok (message : String) :
    readStatus mayEnd (statusBytes okStatus message ++ rest) = (.ok (), rest) := by
  rfl

theorem readStatus_notice {status : UInt8} (notice : status = warningStatus ∨ status = errorStatus)
    (fits : (Text.encode message).length ≤ maxLineLength) :
    readStatus mayEnd (statusBytes status message ++ rest) =
      (if status = errorStatus then .error (.peer (oneLine message)) else .ok (), rest) := by
  have read : readLine (lineBytes (oneLine message) ++ rest) = (.ok (oneLine message), rest) :=
    readLine_lineBytes (newline_not_mem_oneLine message) (length_encode_oneLine message ▸ fits)
  have message (isError : Bool) : drive Acknowledgement.push (Acknowledgement.atEnd mayEnd) (.message isError {})
      (lineBytes (oneLine message) ++ rest) =
        (if isError then .error (.peer (oneLine message)) else .ok (), rest) := by
    rw [drive_message, ← readLine, read]
    rfl
  rcases notice with rfl | rfl
  · exact message false
  · exact message true

end Reading

/-- What one side says to the other. -/
inductive Frame
  | ok
  | warning (message : String)
  | error (message : String)
  | line (text : String)
  deriving DecidableEq, Repr, Inhabited

/-- What the other side waits for. -/
inductive Wait
  | status (mayEnd : Bool)
  | line
  deriving DecidableEq, Repr, Inhabited

/-- What it reads then. -/
inductive Finding
  | status (outcome : Except Fault Unit)
  | line (outcome : Except Fault String)
  deriving Repr, Inhabited

def Wait.read : Wait → List UInt8 → Finding × List UInt8
  | .status mayEnd, input => (readStatus mayEnd input).map Finding.status id
  | .line, input => (readLine input).map Finding.line id

/-- Reads in turn what is waited for, and gives what is left. -/
def readAll : List Wait → List UInt8 → List Finding × List UInt8
  | [], input => ([], input)
  | wait :: waits, input =>
    let (finding, rest) := wait.read input
    let (findings, rest) := readAll waits rest
    (finding :: findings, rest)

namespace Frame

def bytes : Frame → List UInt8
  | .ok => statusBytes okStatus ""
  | .warning message => statusBytes warningStatus message
  | .error message => statusBytes errorStatus message
  | .line text => lineBytes text

/-- There is room for its line, and nothing in a line that ends it before. -/
def Fits : Frame → Prop
  | .ok => True
  | .warning message => (Text.encode message).length ≤ maxLineLength
  | .error message => (Text.encode message).length ≤ maxLineLength
  | .line text => '\n' ∉ text.toList ∧ (Text.encode text).length ≤ maxLineLength

instance : DecidablePred Fits
  | .ok => isTrue trivial
  | .warning message => inferInstanceAs (Decidable ((Text.encode message).length ≤ maxLineLength))
  | .error message => inferInstanceAs (Decidable ((Text.encode message).length ≤ maxLineLength))
  | .line text => inferInstanceAs (Decidable ('\n' ∉ text.toList ∧ (Text.encode text).length ≤ maxLineLength))

def wait (mayEnd : Bool) : Frame → Wait
  | .ok | .warning _ | .error _ => .status mayEnd
  | .line _ => .line

/-- A warning is as good as no message, and an error is told in one line. -/
def finding : Frame → Finding
  | .ok | .warning _ => .status (.ok ())
  | .error message => .status (.error (.peer (message.map fun c => if c = '\n' then ' ' else c)))
  | .line text => .line (.ok text)

theorem read_bytes {frame : Frame} (fits : frame.Fits) (mayEnd : Bool) (rest : List UInt8) :
    (frame.wait mayEnd).read (frame.bytes ++ rest) = (frame.finding, rest) := by
  cases frame with
  | ok => exact congrArg (Prod.map Finding.status id) (readStatus_ok "")
  | warning message => exact congrArg (Prod.map Finding.status id) (readStatus_notice (.inl rfl) fits)
  | error message =>
      rw [finding, ← oneLine_eq_map]
      exact congrArg (Prod.map Finding.status id) (readStatus_notice (.inr rfl) fits)
  | line text =>
      have read : readLine (lineBytes text ++ rest) = (.ok text, rest) :=
        readLine_lineBytes (Text.newline_not_mem_encode fits.1) fits.2
      exact congrArg (Prod.map Finding.line id) read

/-- Whatever is said in turn is read in turn, whether or not the input may end where a status is waited for, and what
comes after it is left. -/
theorem frames_read_back {frames : List (Frame × Bool)} (fit : ∀ frame ∈ frames, frame.1.Fits)
    (trailing : List UInt8) :
    readAll (frames.map fun (frame, mayEnd) => frame.wait mayEnd)
        (frames.flatMap (fun (frame, _) => frame.bytes) ++ trailing) =
      (frames.map fun (frame, _) => frame.finding, trailing) := by
  induction frames with
  | nil => rfl
  | cons frame frames ih =>
      obtain ⟨fits, fit⟩ := List.forall_mem_cons.1 fit
      rw [List.map_cons, List.flatMap_cons, List.append_assoc, readAll, read_bytes fits]
      dsimp only
      rw [ih fit]
      rfl

/-- A warning and a line that fill all the room there is, the warning with line ends alone, and statuses inside of a
message and a line. -/
theorem frames_read_back_of_full_lines :
    let full (c : Char) : String := String.ofList (List.replicate maxLineLength c)
    let frames : List (Frame × Bool) :=
      [(.ok, false), (.warning (full '\n'), true), (.error "a\nb\x02", false), (.line "\x00\x01é", true),
        (.line (full 'a'), false)]
    (∀ frame ∈ frames, frame.1.Fits) ∧
      readAll [.status false, .status true, .status false, .line, .line]
          (frames.flatMap (fun (frame, _) => frame.bytes) ++ [2, 10, 0]) =
        ([.status (.ok ()), .status (.ok ()), .status (.error (.peer "a b\x02")), .line (.ok "\x00\x01é"),
          .line (.ok (full 'a'))], [2, 10, 0]) := by
  intro full frames
  have fills (c : Char) (single : (String.utf8EncodeChar c).length = 1) :
      (Text.encode (full c)).length ≤ maxLineLength := by
    apply Nat.le_of_eq
    rw [Text.encode_eq_flatMap, String.toList_ofList, List.length_flatMap, List.map_replicate, single,
      List.sum_replicate_nat, Nat.mul_one]
  have unbroken : '\n' ∉ (full 'a').toList := by
    rw [String.toList_ofList]
    exact fun member => absurd (List.eq_of_mem_replicate member) (by decide)
  have fit : ∀ frame ∈ frames, frame.1.Fits := by
    simp only [frames, List.forall_mem_cons]
    exact ⟨trivial, fills '\n' rfl, by decide, by decide, ⟨unbroken, fills 'a' rfl⟩, nofun⟩
  have message : ("a\nb\x02".map fun c => if c = '\n' then ' ' else c) = "a b\x02" := by decide +kernel
  have read := frames_read_back fit [2, 10, 0]
  simp only [frames, List.map, wait, finding, message] at read
  exact ⟨fit, read⟩

end Frame

end ArtifactGate.Wire

import ArtifactGate.Proofs.Session.KeptForest
import ArtifactGate.Proofs.Session.Link
import ArtifactGate.Proofs.Session.ReceivingForest
import ArtifactGate.Proofs.Session.SendingForest

/-!
A receiver that takes a forest answers a sender that sends it: once for the times, twice for every file, and when
a directory is entered and left.
-/
namespace ArtifactGate

namespace Beat

theorem sendings_append (first second : List Beat) :
    sendings (first ++ second) = sendings first ++ sendings second :=
  List.flatMap_append

theorem sendings_line (control : UInt8) (text : String) (sent : List UInt8) :
    sendings (line control text sent) = sent := by
  have silent : ((Text.encode text).map quiet).flatMap Beat.sent = [] := by
    rw [List.flatMap_map]
    exact List.flatMap_eq_nil_iff.2 fun _ _ => rfl
  rw [sendings, line, List.flatMap_cons, List.flatMap_append, silent]
  exact List.append_nil _

theorem sendings_body (bytes : List UInt8) :
    sendings (body bytes) = if bytes.isEmpty then [] else [Wire.okStatus] := by
  induction bytes with
  | nil => rfl
  | cons byte rest ih =>
      rw [body, sendings, List.flatMap_cons, ← sendings, ih, bodyAnswer]
      cases rest <;> rfl

end Beat

namespace Answered

variable {spare : Nat} {deliveries others : List Delivery} {beats more : List Beat}

theorem times (label : Label) (answered : Answered 0 deliveries beats) :
    Answered 0 (label.timesDeliveries ++ deliveries) (label.timesBeats ++ beats) := by
  rw [Label.timesDeliveries, Label.timesBeats]
  cases label.times with
  | none => exact answered
  | some times =>
      refine append (once ?_ (Beat.sendings_line _ _ _)) answered
      rw [Beat.bytes_line, Wire.Timestamps.format_eq, Wire.lineBytes, Wire.lineBytes, Text.encode_append]
      rfl

theorem around (label : Label) (inside : Answered 0 deliveries beats) (rest : Answered 0 others more) :
    Answered 0 (label.around deliveries others) (label.timesBeats ++
      (Beat.line 68 (label.header 0).fields [Wire.okStatus] ++
        (beats ++ (Beat.line 69 "" [Wire.okStatus] ++ more)))) := by
  have header : Answered 0 [{ message := Wire.lineBytes ((label.header 0).format 'D') }]
      (Beat.line 68 (label.header 0).fields [Wire.okStatus]) :=
    once (@Forest.bytes_header 'D' 68 (by decide) _ _) (Beat.sendings_line _ _ _)
  have leave : Answered 0 [{ message := Wire.lineBytes "E" }] (Beat.line 69 "" [Wire.okStatus]) :=
    once rfl (Beat.sendings_line _ _ _)
  exact times label (append header (append inside (append leave rest)))

/-- A file is acknowledged twice: when it is begun, and when its last byte is stored. For an empty file both
are sent at once. -/
theorem file (label : Label) (bytes : List UInt8) (logged further : List AccessRecord)
    (rest : Answered 0 others more) :
    Answered 0 (label.timesDeliveries ++
      { message := Wire.lineBytes ((label.header bytes.length).format 'C') } ::
        { message := bytes ++ [Wire.okStatus], logged } :: others)
      (label.timesBeats ++
        (Beat.line 67 (label.header bytes.length).fields (Wire.okStatus :: Beat.bodyAnswer bytes) ++
          (Beat.body bytes ++ { byte := Wire.okStatus, logged := further } :: more))) := by
  have last : ∀ beat : Beat, Beat.body bytes ++ beat :: more = (Beat.body bytes ++ [beat]) ++ more := by simp
  rw [last]
  refine times label ⟨_, _, if bytes.isEmpty then 2 else 1, if bytes.isEmpty then 1 else 0, rfl,
    @Forest.bytes_header 'C' 67 (by decide) _ _, ?_, by split <;> rfl, _, _, if bytes.isEmpty then 0 else 1, 0,
    rfl, ?_, ?_, by split <;> rfl, rest⟩
  · rw [Beat.sendings_line, Beat.bodyAnswer]
    split <;> rfl
  · rw [Beat.bytes_append, Beat.bytes_body]
    rfl
  · rw [Beat.sendings_append, Beat.sendings_body]
    split <;> rfl

end Answered

namespace Forest

theorem answered {forest : Forest} {gateway : Gateway MemoryStore} {times : Metadata → Option Wire.Timestamps}
    {source : Location} (kept : forest.Kept gateway times source) (sender receiver : Transfer)
    (target : Location) : Answered 0 (forest.deliveries sender source) (forest.beats receiver target) := by
  induction forest generalizing source target with
  | nil => exact ⟨rfl, rfl⟩
  | warning text rest ih => exact kept.elim
  | file label bytes rest ih => exact .file label bytes _ _ (ih kept.2.2 target)
  | directory label inside rest ihInside ih =>
      exact .around label (ihInside kept.2.1 _) (ih kept.2.2 target)

end Forest

end ArtifactGate

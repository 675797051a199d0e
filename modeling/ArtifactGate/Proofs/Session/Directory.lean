import Mathlib.Data.List.Nodup
import ArtifactGate.Proofs.Session.Acknowledged
import ArtifactGate.Proofs.Session.Outline

/-!
Where an upload into a directory puts its files. With a target that takes children every file has a place of
its own, by the names that lead to it. With a target that is missing and not named as a directory, which passes
for one, the files that are in no directory all have the place of the target.
-/
namespace ArtifactGate

namespace Receipt

/-- The names that lead to a file, from the outermost directory that is open to its own. -/
def names (receipt : Receipt) : List String :=
  (Outline.ofBytes receipt.before).namesTo receipt.header.name

/-- No directory was open when the file was announced. -/
def isOutermost (receipt : Receipt) : Bool :=
  (Outline.ofBytes receipt.before).opened.isEmpty

theorem names_eq_singleton {receipt : Receipt} {name : String} :
    receipt.names = [name] ↔ receipt.isOutermost = true ∧ receipt.header.name = name := by
  rw [names, Outline.namesTo, List.reverse_eq_iff, isOutermost, List.isEmpty_iff, List.reverse_singleton,
    List.cons.injEq, and_comm]

theorem names_ne_nil (receipt : Receipt) : receipt.names ≠ [] := by
  rw [names, Outline.namesTo, Ne, List.reverse_eq_nil_iff]
  exact List.cons_ne_nil _ _

variable {σ : Type} [RemoteStore σ] {start : Session × Live σ} {base : Node} {receipt : Receipt}

theorem place_of_placed (outside : base.location.isSink = false) (traces : Session.Traces base {} start)
    (placed : receipt.Placed start) :
    (∀ name ∈ receipt.names, IsPlain name) ∧
      ((receipt.isOutermost = true → base.TakesChildren) ∧
          receipt.location = base.location.descend receipt.names ∨
        receipt.isOutermost = true ∧ ¬base.TakesChildren ∧ receipt.location = base.location) := by
  obtain ⟨transfer, mark, level, outer, text, reached, _, _, _, _, put⟩ := placed
  have agrees := (Session.feedAll_traces outside traces receipt.before).agrees
  rw [reached] at agrees
  refine ⟨?_, ?_⟩
  · intro name member
    rcases List.mem_cons.1 (List.mem_reverse.1 member) with rfl | member
    · exact isPlain_of_isFileName put.named
    · exact agrees.nested.plain name member
  · rw [isOutermost, List.isEmpty_iff]
    exact agrees.nested.place put.places

/-- A file that is in no directory goes to the place of its name below a base that takes children, and else to
the base. -/
theorem place_of_isOutermost (outside : base.location.isSink = false) (traces : Session.Traces base {} start)
    (placed : receipt.Placed start) (outermost : receipt.isOutermost = true) :
    (base.TakesChildren → receipt.location = base.location.child receipt.header.name ∧
        receipt.location ≠ base.location) ∧
      (¬base.TakesChildren → receipt.location = base.location) := by
  obtain ⟨plain, place⟩ := place_of_placed outside traces placed
  rw [names_eq_singleton.2 ⟨outermost, rfl⟩] at plain place
  rw [Location.descend_singleton] at place
  rcases place with ⟨children, place⟩ | ⟨_, missing, place⟩
  · refine ⟨fun _ => ⟨place, ?_⟩, fun missing => absurd (children outermost) missing⟩
    exact place ▸ base.location.child_ne (plain _ (List.mem_singleton_self _)).1
  · exact ⟨fun takes => absurd takes missing, fun _ => place⟩

end Receipt

namespace Session

open Receipt (isOutermost)

/-- The node that an upload writes to, once it is accepted, while no directory is open. -/
def target? : Session → Option Node
  | .receiving _ _ receiver => some receiver.level.target
  | _ => none

section Placing

variable {σ : Type} [RemoteStore σ] {start : Session × Live σ} {base : Node} {receipts : List Receipt}

/-- No two files have the same place if the base takes children and those in no directory have names of their own.
A file in a directory has other names than one in none. -/
theorem same_of_location {first second : Receipt} (outside : base.location.isSink = false)
    (traces : Traces base {} start) (placed : ∀ receipt ∈ receipts, receipt.Placed start)
    (takes : base.TakesChildren)
    (distinct : ((receipts.filter isOutermost).map fun receipt => receipt.header.name).Nodup)
    (member : first ∈ receipts) (outermost : first.isOutermost = true) (other : second ∈ receipts)
    (same : second.location = first.location) : second = first := by
  obtain ⟨plain, first_place⟩ := Receipt.place_of_placed outside traces (placed first member)
  obtain ⟨otherPlain, second_place⟩ := Receipt.place_of_placed outside traces (placed second other)
  have first_place := (first_place.resolve_right fun missing => missing.2.1 takes).2
  have second_place := (second_place.resolve_right fun missing => missing.2.1 takes).2
  have names : second.names = first.names :=
    Location.descend_injective second.names_ne_nil (fun name among => (otherPlain name among).1) first.names_ne_nil
      (fun name among => (plain name among).1) (by rw [← second_place, ← first_place, same])
  obtain ⟨alsoOutermost, name⟩ :=
    Receipt.names_eq_singleton.1 (names.trans (Receipt.names_eq_singleton.2 ⟨outermost, rfl⟩))
  exact List.inj_on_of_nodup_map distinct (List.mem_filter.2 ⟨other, alsoOutermost⟩)
    (List.mem_filter.2 ⟨member, outermost⟩) name

/-- An upload that is accepted begins at its target; with `-d` things can be put below that. -/
theorem accepted_traces {line : String} {command : Command} {live : Live σ} {target : Node} (login : Login)
    (parsed : Command.parse line = .ok command) (sink : command.direction = .sink)
    (outside : (Location.resolve (command.paths.headD "")).isSink = false) (idle : live.gateway.uploads = [])
    (accepted : (Session.start login line live).1.target? = some target) :
    target.location.isSink = false ∧ (command.targetIsDirectory = true → target.isFile = false) ∧
      Traces target {} (Session.start login line live) := by
  obtain ⟨⟨base, located, elsewhere, isOpen, traces⟩, _⟩ := start_traces login parsed sink outside idle
  have agrees := traces.agrees
  cases begun : (Session.start login line live).1 with
  | receiving transfer mark receiver =>
      rw [begun] at agrees accepted
      obtain rfl : target = base := (agrees.nested.eq_base.trans (Option.some.inj accepted)).symm
      exact ⟨located ▸ outside, fun flag => Node.isFile_of_isOpen (isOpen flag) elsewhere, traces⟩
  | _ =>
      rw [begun] at accepted
      cases accepted

end Placing

/-- What `-d` does for the files of an upload that are in no directory. If the target exists or is named as a
directory, each goes to the place of its own name below the target and not to the target; and what the store has
received by names that are all different it holds, each file with its own bytes. If the target is missing and not
named as a directory, all of them go to the target itself. A file is acknowledged when the store has received it. -/
theorem uploads_into_directory {login : Login} {line : String} {command : Command} {live : Live ScriptedStore}
    {target : Node} (parsed : Command.parse line = .ok command) (sink : command.direction = .sink)
    (flag : command.targetIsDirectory = true)
    (outside : (Location.resolve (command.paths.headD "")).isSink = false) (idle : live.gateway.uploads = [])
    (accepted : (start login line live).1.target? = some target) (input : List UInt8) :
    let isNamed := target.exists? || target.location.namesDirectory
    ∃ receipts, Books (start login line live) input receipts ∧
      (∀ receipt ∈ receipts, receipt.isOutermost = true →
        if isNamed then
          receipt.location = target.location.child receipt.header.name ∧ receipt.location ≠ target.location
        else receipt.location = target.location) ∧
      (∀ taken, taken <+: input → ∀ ending,
        let received := completeIn receipts taken
        let store := (run login line taken ending live).2.gateway.store
        store.deposits = live.gateway.store.deposits ++ received.map Receipt.deposit ∧
          (isNamed = true →
            ((received.filter isOutermost).map fun receipt => receipt.header.name).Nodup →
            ∀ receipt ∈ received, receipt.isOutermost = true →
              store.memory.objects.get? (target.location.child receipt.header.name) =
                some ⟨receipt.body, receipt.properties, live.gateway.store.memory.now⟩)) ∧
      ∀ taken byte, taken ++ [byte] <+: input → ∀ earlier world later,
        let state := feedAll taken (start login line live)
        asked byte state = earlier ++ (.send (Wire.statusBytes Wire.okStatus ""), world) :: later →
        AnswersBody state.1 earlier →
        (∃ receipt ∈ receipts, receipt.upTo = taken ++ [byte]) ∧
          world.gateway.store.deposits = live.gateway.store.deposits ++
            (completeIn receipts (taken ++ [byte])).map Receipt.deposit := by
  intro isNamed
  have begins : Stands (uploadContext login line command live) [] [] (start login line live) :=
    start_stands parsed sink outside idle
  obtain ⟨receipts, books, placed, stands⟩ := placed_after begins input
  obtain ⟨outside, noFile, traces⟩ := accepted_traces login parsed sink outside idle accepted
  have takes : target.TakesChildren ↔ isNamed = true := and_iff_right (noFile flag)
  have placeOf (receipt : Receipt) (member : receipt ∈ receipts) (outermost : receipt.isOutermost = true) :
      if isNamed then
        receipt.location = target.location.child receipt.header.name ∧ receipt.location ≠ target.location
      else receipt.location = target.location := by
    obtain ⟨below, here⟩ := Receipt.place_of_isOutermost outside traces (placed receipt member) outermost
    split
    · exact below (takes.2 ‹_›)
    · exact here fun children => absurd (takes.1 children) ‹_›
  refine ⟨receipts, books, placeOf, ?_, ?_⟩
  · intro taken within ending received store
    have same : store = (finish ending (feedAll taken (start login line live))).2.gateway.store :=
      congrArg (fun live => live.gateway.store) (run_eq_finish login line taken ending live)
    obtain ⟨deposits, objects, _⟩ : live.gateway.store.Holds (received.map Receipt.deposit) store :=
      same ▸ (finish_stores (stands taken within) ending).2
    refine ⟨deposits, fun named distinct receipt member outermost => ?_⟩
    have among (receipt : Receipt) (member : receipt ∈ received) : receipt ∈ receipts :=
      (List.mem_filter.1 member).1
    have place := placeOf receipt (among receipt member) outermost
    rw [if_pos named] at place
    rw [objects, ← place.1]
    refine MemoryStore.get?_of_only _ _ (List.mem_map_of_mem member) ?_
    intro deposit other here
    obtain ⟨second, alsoMember, rfl⟩ := List.mem_map.1 other
    exact congrArg Receipt.deposit (same_of_location outside traces
      (fun receipt member => placed receipt (among receipt member)) (takes.2 named) distinct member outermost
      alsoMember here)
  · intro taken byte within earlier world later state split answers
    exact acknowledged_receipt books stands within split answers

/-- Two files for a directory that does not exist but is named as one. -/
theorem uploads_into_directory_of_two_files :
    let live : Live ScriptedStore := { gateway := Gateway.new {} {} (fun _ _ _ => true) ⟨0, 0⟩ }
    let input := Text.encode "C0644 3 a.txt\naaa" ++ 0 :: Text.encode "C0644 2 b.txt\nbb" ++ [0]
    let store := (run ⟨"ann", "::1", .empty⟩ "scp -d -t libs/new/" input .closed live).2.gateway.store
    ∃ receipts, Books (start ⟨"ann", "::1", .empty⟩ "scp -d -t libs/new/" live) input receipts ∧
      store.deposits = receipts.map Receipt.deposit ∧
      ∀ receipt ∈ receipts, receipt.isOutermost = true → receipt.location ≠ ⟨"libs", "new/"⟩ := by
  intro live input store
  have parsed : Command.parse "scp -d -t libs/new/" = .ok ⟨.sink, false, false, true, false, ["libs/new/"]⟩ := by
    decide +kernel
  have accepted : (start ⟨"ann", "::1", .empty⟩ "scp -d -t libs/new/" live).1.target? =
      some (Node.ofRemote "ann" ⟨"libs", "new/"⟩ none) := by
    decide +kernel
  obtain ⟨receipts, books, places, received, _⟩ := @uploads_into_directory ⟨"ann", "::1", .empty⟩ _ _ live _ parsed
    rfl rfl (by decide +kernel) rfl accepted input
  obtain ⟨deposits, _⟩ := received input (List.prefix_refl _) .closed
  rw [completeIn_of_within books.within] at deposits
  exact ⟨receipts, books, deposits, fun receipt member outermost => (places receipt member outermost).2⟩

/-- Two files for a directory that does not exist and is not named as one: both are acknowledged, and the one is
lost to the other. -/
theorem second_file_replaces_first :
    let live : Live ScriptedStore := { gateway := Gateway.new {} {} (fun _ _ _ => true) ⟨0, 0⟩ }
    let input := Text.encode "C0644 3 a.txt\naaa" ++ 0 :: Text.encode "C0644 2 b.txt\nbb" ++ [0]
    let ended := run ⟨"ann", "::1", .empty⟩ "scp -d -t libs/new" input .closed live
    exitValue ended.1 = 0 ∧ ended.2.outlet.taken = #[0, 0, 0, 0, 0] ∧
      ended.2.gateway.store.memory.held "libs" = [(⟨"libs", "new"⟩, Text.encode "bb")] := by
  decide +kernel

end Session

end ArtifactGate

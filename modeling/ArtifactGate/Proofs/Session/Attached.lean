import ArtifactGate.Proofs.Session.HeaderLines
import ArtifactGate.Proofs.Session.Uploadless

/-!
What is attached to the files that a session stores. A receiver has for the directory that it is in the times that the
header lines leave there, and none for the outer ones; so what it attaches to a file is what the environment gives,
with `-p` the times of the last `T` line of the file's directory and the permissions of the file's own line, and the
user's name.
-/
namespace ArtifactGate

/-- Nothing is attached to the directories of a receiver, and its times are those that some lines, the latest first,
leave for the directory it is in. They leave none for the others. -/
structure Receiver.Timely (lines : List HeaderLine) (receiver : Receiver) : Prop where
  bare : receiver.level.target.properties = .empty ∧ ∀ level ∈ receiver.outer, level.target.properties = .empty
  here : receiver.level.times = (timesFor? receiver.outer.length lines).bind HeaderLine.times?
  spent : ∀ level ∈ receiver.outer, level.times = none
  beyond : ∀ depth < receiver.outer.length, timesFor? depth lines = none

namespace Receiver

variable {granted : String → String → Access → Prop} {receiver : Receiver} {progress : Progress Receiver}
  {lines : List HeaderLine} {last : HeaderLine} {base : Node} {taken : List UInt8} {byte : UInt8}

theorem Timely.beyond_cons (timely : receiver.Timely lines) (depth : last.depth = receiver.outer.length) :
    ∀ depth < receiver.outer.length, timesFor? depth (last :: lines) = none := by
  intro outer less
  rw [timesFor?_of_inner (depth ▸ less)]
  exact timely.beyond outer less

theorem Turns.timely (turns : receiver.Turns granted last.kind last.text progress) (timely : receiver.Timely lines)
    (depth : last.depth = receiver.outer.length) : progress.Holds (Timely (last :: lines)) := by
  have beyond := timely.beyond_cons depth
  obtain ⟨upTo, kind, text, opened⟩ := last
  cases turns with
  | times parsed =>
      refine ⟨timely.bare, ?_, timely.spent, beyond⟩
      rw [timesFor?_of_here depth]
      change _ = HeaderLine.times? _
      rw [HeaderLine.times?, parsed]
      rfl
  | entered parsed located isOpen named writable =>
      refine ⟨⟨located.fresh, List.forall_mem_cons.2 timely.bare⟩, ?_, List.forall_mem_cons.2 ⟨rfl, timely.spent⟩, ?_⟩
      · rw [timesFor?_of_outer (depth ▸ Nat.lt_succ_self _)]
        rfl
      · intro outer less
        rcases Nat.lt_succ_iff_lt_or_eq.1 less with less | rfl
        · exact beyond outer less
        · exact timesFor?_of_here depth
  | left inner =>
      obtain ⟨_, bare⟩ := timely.bare
      have spent := timely.spent
      rw [inner] at bare spent beyond
      obtain ⟨used, spent⟩ := List.forall_mem_cons.1 spent
      refine ⟨List.forall_mem_cons.1 bare, ?_, spent, fun outer less => beyond outer (Nat.lt_succ_of_lt less)⟩
      rw [beyond _ (Nat.lt_succ_self _)]
      exact used
  | closed outermost => trivial
  | warned =>
      refine ⟨timely.bare, ?_, timely.spent, beyond⟩
      rw [timesFor?_of_here depth]
      exact timely.here

theorem Steps.timely (steps : Steps granted receiver byte progress)
    (agrees : receiver.Agrees base (Outline.ofBytes taken)) (timely : receiver.Timely (headerLines taken).reverse) :
    progress.Holds (Timely (headerLines (taken ++ [byte])).reverse) := by
  have phase := agrees.phase
  have depth : (Outline.ofBytes taken).opened.length = receiver.outer.length :=
    agrees.nested.length_eq.trans (List.length_map _)
  have goesOn {next : Reception} (ends : (Outline.ofBytes taken).line? byte = none) :
      Timely (headerLines (taken ++ [byte])).reverse ⟨receiver.level, receiver.outer, next⟩ := by
    rw [headerLines_append_of_none ends]
    exact ⟨timely.bare, timely.here, timely.spent, timely.beyond⟩
  cases steps with
  | control meaning =>
      apply goesOn
      simp only [Outline.line?, phase, Reception.outline]
  | line more =>
      apply goesOn
      simp only [Outline.line?, phase, Reception.outline, more]
  | @turn _ _ kind _ _ text _ done turns =>
      have ends : (Outline.ofBytes taken).line? byte = some (kind, text) := by
        simp only [Outline.line?, phase, Reception.outline, done]
      rw [headerLines_append_of_line? ends]
      exact Turns.timely turns ⟨timely.bare, timely.here, timely.spent, timely.beyond⟩ depth
  | @opened level outer _ _ text _ _ file done parsed letsIn fresh =>
      have ends : (Outline.ofBytes taken).line? byte = some (.file, text) := by
        simp only [Outline.line?, phase, Reception.outline, done]
      have here : HeaderLine.depth ⟨taken ++ [byte], .file, text, (Outline.ofBytes taken).opened⟩ = outer.length :=
        depth
      rw [headerLines_append_of_line? ends]
      refine ⟨timely.bare, ?_, timely.spent, timely.beyond_cons here⟩
      rw [timesFor?_of_here here]
      rfl
  | body =>
      apply goesOn
      simp only [Outline.line?, phase, Reception.outline]
  | word more =>
      apply goesOn
      simp only [Outline.line?, phase, Reception.outline]
  | acknowledged done =>
      apply goesOn
      simp only [Outline.line?, phase, Reception.outline]

end Receiver

namespace Session

variable {σ : Type} [RemoteStore σ] {login : Login} {line : String} {command : Command} {transfer : Transfer}
  {base : Node} {state start : Session × Live σ} {live : Live σ} {taken : List UInt8}

/-- A session that receives for the transfer keeps to the times that some lines leave, the latest first. -/
def Timely (transfer : Transfer) (lines : List HeaderLine) : Session → Prop
  | .receiving given _ receiver => given = transfer ∧ receiver.Of transfer.login.user ∧ receiver.Timely lines
  | _ => True

theorem start_timely (parsed : Command.parse line = .ok command) (sink : command.direction = .sink) :
    (Session.start login line live).1.Timely (login.transfer command live.gateway.settings) [] := by
  have ends := live.undisturbed_of_attempts ((Receiver.start_begins (login.transfer command live.gateway.settings)
    (command.paths.headD "")).weaken fun _ => Effect.Courteous.quiet)
  rw [start_sink parsed sink]
  refine carryOut_keeps (Timely _ []) _ _ (ends.mono (fun _ _ ended => ended.1) fun _ _ _ => trivial)
    (fun _ => trivial) ?_
  rintro ⟨level, outer, phase⟩ begun
  obtain ⟨rfl, rfl, times, located, _⟩ := begun
  refine ⟨rfl, ⟨located.user, List.forall_mem_nil _⟩, ⟨located.fresh, List.forall_mem_nil _⟩, times,
    List.forall_mem_nil _, ?_⟩
  exact fun depth less => absurd less (Nat.not_lt_zero depth)

theorem feed_timely (traces : Traces base (Outline.ofBytes taken) state)
    (timely : state.1.Timely transfer (headerLines taken).reverse) (byte : UInt8) :
    (feed byte state).1.Timely transfer (headerLines (taken ++ [byte])).reverse := by
  obtain ⟨session, live⟩ := state
  cases session with
  | receiving given mark receiver =>
      obtain ⟨rfl, ours, timely⟩ := timely
      have agrees : receiver.Agrees base (Outline.ofBytes taken) := traces.agrees
      have ends : live.Ends _ _ _ := Live.ends_of_complies (receiver.push_steps vouches_anyAnswer given byte)
        (fun _ => True) (fun _ _ _ _ => ⟨trivial, fun _ _ => trivial⟩) trivial
      refine carryOut_keeps (Timely given _) given mark (ends.mono (fun _ _ ended => ended.1) fun _ _ _ => trivial)
        (fun _ => trivial) ?_
      intro progress steps
      have goesOn := steps.of ours
      have times := steps.timely agrees timely
      cases progress with
      | waiting next => exact ⟨rfl, goesOn, times⟩
      | _ => trivial
  | sending given sender => exact traces.agrees.elim
  | ended result => trivial

theorem feedAll_timely (outside : base.location.isSink = false) (traces : Traces base {} start)
    (timely : start.1.Timely transfer []) (taken : List UInt8) :
    (feedAll taken start).1.Timely transfer (headerLines taken).reverse := by
  induction taken using List.reverseRecOn with
  | nil => exact timely
  | append_singleton taken byte ih =>
      rw [feedAll_append_singleton]
      exact feed_timely (feedAll_traces outside traces taken) ih byte

end Session

namespace Receipt

variable {σ : Type} [RemoteStore σ] {start : Session × Live σ} {base : Node} {transfer : Transfer}
  {receipt earlier later : Receipt}

/-- What is attached to a file: the user's name, before all else; what `-p` keeps of the file; and what the environment
gives. -/
theorem get?_properties (outside : base.location.isSink = false) (traces : Session.Traces base {} start)
    (timely : start.1.Timely transfer []) (placed : receipt.Placed start) (key : String) :
    receipt.properties.get? key =
      if key = Node.uploadedBy then some transfer.login.user
      else ((transfer.command.kept receipt.times? receipt.header).lookup key).or (transfer.properties.get? key) := by
  obtain ⟨given, mark, level, outer, text, reached, _, _, _, _, put⟩ := placed
  have agrees := (Session.feedAll_traces outside traces receipt.before).agrees
  have timely := Session.feedAll_timely outside traces timely receipt.before
  rw [reached] at agrees timely
  obtain ⟨rfl, ours, timely⟩ := timely
  have times : level.times = receipt.times? := by
    rw [timely.here, times?, timesLine?, agrees.nested.length_eq, List.length_map]
  rw [put.properties timely.bare.1, SortedMap.get?_insert, ours.1, Receiver.get?_fileProperties, times]

/-- The times of one line do not hold for two files. -/
theorem apart_of_placed (outside : base.location.isSink = false) (traces : Session.Traces base {} start)
    (placed : earlier.Placed start) (apart : earlier.upTo <+: later.before) {line : HeaderLine}
    (found : earlier.timesLine? = some line) : later.timesLine? ≠ some line := by
  obtain ⟨given, mark, level, outer, text, reached, unbroken, short, decoded, _, _⟩ := placed
  have agrees := (Session.feedAll_traces outside traces earlier.before).agrees
  rw [reached] at agrees
  exact timesLine?_ne apart agrees.phase unbroken short decoded found

end Receipt

namespace Session

variable {login : Login} {line : String} {command : Command} {live : Live ScriptedStore} {receipts : List Receipt}

/-- What a store holds that has accepted some files is what it held before, or one of them. -/
theorem held_of_receipts {before after : ScriptedStore} (stored : before.Holds (receipts.map Receipt.deposit) after)
    (location : Location) :
    after.memory.objects.get? location = before.memory.objects.get? location ∨
      ∃ receipt ∈ receipts, receipt.location = location ∧
        after.memory.objects.get? location = some ⟨receipt.body, receipt.properties, before.memory.now⟩ := by
  obtain ⟨_, objects, _⟩ := stored
  rw [objects]
  rcases MemoryStore.get?_of_deposits before.memory.now (receipts.map Receipt.deposit) before.memory.objects location
    with kept | ⟨deposit, member, same, found⟩
  · exact .inl kept
  · obtain ⟨receipt, among, rfl⟩ := List.mem_map.1 member
    exact .inr ⟨receipt, among, same, found⟩

/-- Every file that a session stores carries the right properties, and no others: the variables of the environment that
the settings map to properties, if they have a value; with `-p` the times of the last `T` line of its directory, if no
file and no directory was announced there after it, and the permissions of its own line; and, whatever these say, the
name of the user. The times of no line are attached to two files, or to a file of another directory. -/
theorem stored_files_carry_properties
    (distinct : (live.gateway.settings.environmentProperties.entries.map Prod.snd).Nodup)
    (idle : live.gateway.uploads = []) (login : Login) (line : String) (input : List UInt8) (ending : Ending) :
    let store := (run login line input ending live).2.gateway.store
    ∃ receipts, Books (start login line live) input receipts ∧
      store.deposits = live.gateway.store.deposits ++ receipts.map Receipt.deposit ∧
      (∀ location, store.memory.objects.get? location = live.gateway.store.memory.objects.get? location ∨
        ∃ receipt ∈ receipts, receipt.location = location ∧ store.memory.objects.get? location =
          some ⟨receipt.body, receipt.properties, live.gateway.store.memory.now⟩) ∧
      (∀ receipt ∈ receipts, ∃ command, Command.parse line = .ok command ∧ ∀ key, receipt.properties.get? key =
        if key = Node.uploadedBy then some login.user
        else ((command.kept receipt.times? receipt.header).lookup key).or
          (live.gateway.settings.attached? login.environment key)) ∧
      (∀ receipt ∈ receipts, ∀ sent, receipt.timesLine? = some sent →
        sent.opened = (Outline.ofBytes receipt.before).opened ∧
          ∀ other ∈ headerLines receipt.before, sent.upTo.length < other.upTo.length → sent.opened <:+ other.opened) ∧
      receipts.Pairwise fun earlier later =>
        ∀ sent, earlier.timesLine? = some sent → later.timesLine? ≠ some sent := by
  intro store
  by_cases uploads : ∃ command, Command.parse line = .ok command ∧ command.direction = .sink ∧
      (Location.resolve (command.paths.headD "")).isSink = false
  · obtain ⟨command, parsed, sink, outside⟩ := uploads
    obtain ⟨⟨base, located, _, _, traces⟩, _⟩ := start_traces login parsed sink outside idle
    have outside' : base.location.isSink = false := located ▸ outside
    have timely : (start login line live).1.Timely _ [] := start_timely parsed sink
    have begins : Stands (uploadContext login line command live) [] [] (start login line live) :=
      start_stands parsed sink outside idle
    obtain ⟨receipts, books, placed, stands⟩ := placed_after begins input
    have stands := stands input (List.prefix_refl _)
    rw [completeIn_of_within books.within] at stands
    have stored : live.gateway.store.Holds (receipts.map Receipt.deposit) store := by
      change live.gateway.store.Holds _ (run login line input ending live).2.gateway.store
      rw [run_eq_finish]
      exact (finish_stores stands ending).2
    refine ⟨receipts, books, stored.1, held_of_receipts stored, ?_, ?_, ?_⟩
    · intro receipt member
      refine ⟨command, parsed, fun key => ?_⟩
      rw [Receipt.get?_properties outside' traces timely (placed receipt member)]
      rw [← Gateway.get?_environmentProperties distinct]
      rfl
    · intro receipt member sent found
      obtain ⟨opened, holds⟩ := Receipt.holds_of_timesLine? found
      exact ⟨opened, fun other came later => (holds.since other came later).1⟩
    · refine books.apart.imp_of_mem ?_
      intro earlier later member _ apart sent found
      exact Receipt.apart_of_placed outside' traces (placed earlier member) apart found
  · have uploadless : ∀ command, Command.parse line = .ok command →
        command.direction = .source ∨ (Location.resolve (command.paths.headD "")).isSink = true := by
      intro command parsed
      cases direction : command.direction with
      | source => exact .inl rfl
      | sink => exact .inr (Bool.of_not_eq_false fun outside => uploads ⟨command, parsed, direction, outside⟩)
    have stored : live.gateway.store.Holds (([] : List Receipt).map Receipt.deposit) store :=
      run_stores_nothing (effects_quiet uploadless input ending) idle
    refine ⟨[], ⟨?_, ?_, ?_, .nil⟩, stored.1, held_of_receipts stored, ?_, ?_, .nil⟩ <;> exact List.forall_mem_nil _

/-- Two files, the first with times, from a user whose environment gives another name. -/
theorem stored_files_carry_properties_of_two_files :
    let settings : Settings :=
      { environmentProperties := (SortedMap.empty.insert "BUILD" "build.id").insert "WHO" "uploaded-by" }
    let login : Login := ⟨"ann", "::1", (SortedMap.empty.insert "BUILD" "7").insert "WHO" "eve"⟩
    let live : Live ScriptedStore := { gateway := Gateway.new settings {} (fun _ _ _ => true) ⟨0, 0⟩ }
    let input := Text.encode "T5 0 6 0\nC0644 2 a\nhi" ++ 0 :: Text.encode "C0600 2 b\nyo" ++ [0]
    let store := (run login "scp -p -t libs/x/" input .closed live).2.gateway.store
    store.deposits.map (fun deposit => deposit.properties.entries) =
        [[("build.id", "7"), ("scp.accessed", "6"), ("scp.modified", "5"), ("scp.permissions", "0644"),
          ("uploaded-by", "ann")], [("build.id", "7"), ("uploaded-by", "ann")]] ∧
      ∃ receipts, Books (start login "scp -p -t libs/x/" live) input receipts ∧
        store.deposits = receipts.map Receipt.deposit ∧
        ∀ receipt ∈ receipts, receipt.properties.get? Node.uploadedBy = some "ann" := by
  intro settings login live input store
  obtain ⟨receipts, books, deposits, _, properties, _⟩ := @stored_files_carry_properties live (by decide +kernel) rfl
    login "scp -p -t libs/x/" input .closed
  refine ⟨by decide +kernel, receipts, books, deposits, fun receipt member => ?_⟩
  obtain ⟨command, _, values⟩ := properties receipt member
  rw [values, if_pos rfl]

end Session

end ArtifactGate

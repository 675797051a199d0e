import Mathlib.Data.List.Nodup
import ArtifactGate.Proofs.Session.Closing
import ArtifactGate.Proofs.Session.ListedForest
import ArtifactGate.Proofs.Session.SendingForest
import ArtifactGate.Proofs.Session.StoredForest

/-!
A recursive download sends what the store keeps below a directory: every object once, in the order of the
names, and nothing else.
-/
namespace ArtifactGate

namespace Beat

variable {deliveries : List Delivery} {logged : List AccessRecord}

theorem bytes_deliver : bytes (deliver logged deliveries) =
    List.replicate (deliveries.length + 1) Wire.okStatus := by
  induction deliveries generalizing logged with
  | nil => rfl
  | cons delivery rest ih =>
      rw [deliver, bytes, List.map_cons, ← bytes, ih]
      rfl

theorem sendings_deliver : sendings (deliver logged deliveries) = deliveries.flatMap Delivery.message := by
  induction deliveries generalizing logged with
  | nil => rfl
  | cons delivery rest ih =>
      rw [deliver, sendings, List.flatMap_cons, ← sendings, ih]
      rfl

theorem records_deliver :
    records (deliver logged deliveries) = logged ++ deliveries.flatMap Delivery.logged := by
  induction deliveries generalizing logged with
  | nil => rfl
  | cons delivery rest ih =>
      rw [deliver, records, List.flatMap_cons, ← records, ih]
      rfl

end Beat

namespace Label

variable {label : Label} {inside rest : List Delivery}

theorem messages_times : label.timesDeliveries.flatMap Delivery.message = label.timesBytes := by
  rw [timesDeliveries, timesBytes]
  cases label.times with
  | none => rfl
  | some times => exact List.append_nil _

theorem records_times : label.timesDeliveries.flatMap Delivery.logged = [] := by
  rw [timesDeliveries]
  split <;> rfl

theorem messages_around : (label.around inside rest).flatMap Delivery.message =
    label.timesBytes ++ Wire.lineBytes ((label.header 0).format 'D') ++ inside.flatMap Delivery.message ++
      Wire.lineBytes "E" ++ rest.flatMap Delivery.message := by
  simp only [around, List.flatMap_append, List.flatMap_cons, messages_times, List.append_assoc]

theorem records_around : (label.around inside rest).flatMap Delivery.logged =
    inside.flatMap Delivery.logged ++ rest.flatMap Delivery.logged := by
  simp only [around, List.flatMap_append, List.flatMap_cons, records_times, List.nil_append]

end Label

namespace Forest

def directories : Forest → Nat
  | nil => 0
  | warning _ rest => rest.directories
  | file _ _ rest => rest.directories
  | directory _ inside rest => inside.directories + 1 + rest.directories

variable {forest : Forest} {gateway : Gateway MemoryStore} {times : Metadata → Option Wire.Timestamps}
  {location : Location} {transfer : Transfer}

theorem messages_deliveries (kept : forest.Kept gateway times location) :
    (forest.deliveries transfer location).flatMap Delivery.message = forest.encode := by
  induction forest generalizing location with
  | nil => rfl
  | warning text rest ih => exact kept.elim
  | file label bytes rest ih =>
      simp only [deliveries, encode, List.flatMap_append, List.flatMap_cons, Label.messages_times, ih kept.2.2,
        List.append_assoc, List.singleton_append]
  | directory label inside rest ihInside ih =>
      rw [deliveries, Label.messages_around, ihInside kept.2.1, ih kept.2.2, encode]

theorem records_deliveries (distinct : forest.Distinct) :
    (forest.deliveries transfer location).flatMap Delivery.logged = forest.files.map fun file =>
      transfer.successRecord ⟨location.descend file.1, file.2.length⟩ := by
  induction forest generalizing location with
  | nil => rfl
  | warning text rest ih => exact ih distinct
  | file label bytes rest ih =>
      simp only [deliveries, files, List.flatMap_append, List.flatMap_cons, Label.records_times, ih distinct.2.2,
        List.nil_append, List.singleton_append, List.map_cons, Location.descend_singleton]
  | directory label inside rest ihInside ih =>
      obtain ⟨segment, distinctInside, _, distinctRest⟩ := distinct
      rw [deliveries, Label.records_around, ihInside distinctInside, ih distinctRest, files, List.map_append,
        List.map_map]
      refine congrArg (· ++ _) (List.map_congr_left fun file member => ?_)
      obtain ⟨first, names, split, _⟩ := names_of_mem_files distinctInside member
      rw [Function.comp_apply, Location.descend_cons segment (split ▸ List.cons_ne_nil _ _)]

theorem length_deliveries (listed : forest.Listed) :
    (forest.deliveries transfer location).length = 2 * forest.files.length + 2 * forest.directories := by
  induction forest generalizing location with
  | nil => rfl
  | warning text rest ih => exact listed.elim
  | file label bytes rest ih =>
      obtain ⟨same, listedRest⟩ := listed
      have timeless : label.timesDeliveries = [] := by rw [same]; rfl
      simp only [deliveries, timeless, files, directories, List.nil_append, List.length_cons, ih listedRest]
      omega
  | directory label inside rest ihInside ih =>
      obtain ⟨same, _, listedInside, listedRest⟩ := listed
      have timeless : label.timesDeliveries = [] := by rw [same]; rfl
      simp only [deliveries, Label.around, timeless, files, directories, List.nil_append, List.length_cons,
        List.length_append, List.length_map, ihInside listedInside, ih listedRest]
      omega

end Forest

namespace Session

variable {login : Login} {line path : String} {command : Command} {live : Live MemoryStore}
  {location : Location} {metadata : Metadata} {filled : String}

theorem Sender.gives_nodesOf {transfer : Transfer} (reliable : live.gateway.store.failuresPending = 0)
    (literal : Glob.hasGlob path = false) (resolved : Location.resolve path = location)
    (named : location.isEmpty = false) (outside : location.isSink = false) :
    live.Gives (Sender.nodesOf transfer path) fun nodes after =>
      nodes = [live.gateway.nodeAt transfer.login.user location] ∧ live.Asks [] [] after := by
  subst resolved
  rw [Sender.nodesOf, literal]
  apply (Live.gives_resolve reliable named outside transfer.login.user).bind
  rintro node after ⟨known, asks⟩
  subst known
  exact Live.Gives.pure ⟨rfl, asks⟩

theorem start_sending (parsed : Command.parse line = .ok command) (source : command.direction = .source) :
    start login line live = (.sending (transferOf login command live) (.start (transferOf login command live)),
      live) := by
  rw [start, parsed]
  simp only [source]
  rfl

theorem follows_download {transfer : Transfer} (recursive : transfer.command.recursive = true)
    (single : transfer.command.paths = [path]) (literal : Glob.hasGlob path = false)
    (resolved : Location.resolve path = location) (named : location.isEmpty = false)
    (outside : location.isSink = false) (apart : location.repository ≠ filled)
    (shows : live.Shows live.gateway transfer.login.user location.repository)
    (described : live.gateway.described location = .ok metadata) (isDirectory : metadata.isDirectory = true)
    {forest : Forest} (entries : metadata.entries = forest.entries)
    (kept : forest.Kept live.gateway transfer.timesOf location) (distinct : forest.Distinct) :
    Follows (.sending filled) Sender.Over
      (Beat.deliver [] (Label.around ⟨location.name, directoryPermissions, transfer.timesOf metadata⟩
        (forest.deliveries transfer location) []))
      (.sending transfer (.start transfer)) live := by
  have wireName : (live.gateway.nodeAt transfer.login.user location).wireName = location.name :=
    Sender.wireName_nodeAt (Location.slash_not_mem_name (resolved ▸
      Location.slash_not_mem_resolve (resolved.symm ▸ outside))) _
  rw [Sender.start, single]
  apply Sender.follows_await
  intro gateway aside
  have shown := shows.aside apart aside
  have same : gateway.nodeAt transfer.login.user location = live.gateway.nodeAt transfer.login.user location := by
    rw [Gateway.nodeAt, shown.described location rfl, ← Gateway.nodeAt]
  apply Sender.Continues.bind (Sender.gives_nodesOf shown.reliable literal resolved named outside).adapt
  intro nodes after known asks
  subst known
  have shownStill := shown.asks asks
  rw [Sender.beginNodes, same]
  refine Sender.continues_directory recursive shownStill apart outside described isDirectory entries rfl rfl
    wireName ?_ fun last _ => ?_
  · intro live rest agenda shows next
    exact Sender.continues_forest recursive shows apart outside kept distinct next
  · exact Live.Gives.pure ⟨rfl, .refl last⟩

/-- A recursive download of a directory sends what the store keeps below it: every object once, in the order of
the names, and nothing else. The client answers with a good status for the first file, twice for every file
and twice for every directory, and the session has ended by then, not earlier; each file is logged. -/
theorem download_sends_forest (parsed : Command.parse line = .ok command) (source : command.direction = .source)
    (recursive : command.recursive = true) (timeless : command.preserve = false)
    (single : command.paths = [path]) (literal : Glob.hasGlob path = false)
    (resolved : Location.resolve path = location) (named : location.isEmpty = false)
    (outside : location.isSink = false)
    (unsuffixed : location.namesDirectory = true ∨ Gateway.checksumSize? location.path = none)
    (described : live.gateway.store.describe location = .ok metadata) (isDirectory : metadata.isDirectory = true)
    (granted : live.gateway.authorizer location.repository login.user .read = true)
    (reliable : live.gateway.store.failuresPending = 0) (unlimited : live.outlet.limit = none)
    (announced : ∀ place, place.repository = location.repository →
      live.gateway.store.announced.get? place = none)
    (arranged : live.gateway.store.Arranged location.repository) :
    ∃ forest : Forest, forest.Listed ∧ forest.Ascending ∧
      (forest.files.map fun file => (location.descend file.1, file.2)).Perm
        (live.gateway.store.below location) ∧
      ∃ count, count = 1 + 2 * forest.files.length + 2 * (1 + forest.directories) ∧
        (∀ fewer < count,
          (feedAll (List.replicate fewer Wire.okStatus) (start login line live)).1.result? = none) ∧
        ∀ more ending,
          (run login line (List.replicate count Wire.okStatus ++ more) ending live).1 = .ok () ∧
          (run login line (List.replicate count Wire.okStatus ++ more) ending live).2.outlet =
            live.outlet.extend
              (Forest.directory ⟨location.name, directoryPermissions, none⟩ forest .nil).encode ∧
          (run login line (List.replicate count Wire.okStatus ++ more) ending live).2.gateway.log =
            live.gateway.log ++ forest.files.map fun file =>
              { user := login.user, address := login.address, method := .get, location := location.descend file.1
                size := file.2.length, status := 200, exitValue := 0 } := by
  have times : (transferOf login command live).timesOf = fun _ => none := by
    funext metadata
    rw [Transfer.timesOf, transferOf]
    simp only [timeless]
    rfl
  have known : live.gateway.described location = .ok metadata := by
    rcases unsuffixed with names | unsuffixed
    · rw [Gateway.described_of_namesDirectory names, described]
    · rw [Gateway.described, unsuffixed, described]
  obtain ⟨forest, entries, kept, ascending, perm⟩ :=
    Forest.exists_kept_below (fun _ => none) described isDirectory arranged announced
  have shows : live.Shows live.gateway login.user location.repository :=
    ⟨granted, reliable, unlimited, fun _ _ => rfl, fun _ _ => rfl⟩
  have apart : location.repository ≠ Location.sinkRepository := ne_of_beq_false outside
  have follows := @follows_download _ _ _ _ _ (transferOf login command live) recursive single literal resolved
    named outside apart shows known isDirectory forest entries (times ▸ kept) ascending.distinct
  rw [times] at follows
  have messages : (Label.around ⟨location.name, directoryPermissions, none⟩
      (forest.deliveries (transferOf login command live) location) []).flatMap Delivery.message =
        (Forest.directory ⟨location.name, directoryPermissions, none⟩ forest .nil).encode := by
    rw [Label.messages_around, Forest.messages_deliveries kept, Forest.encode]
    rfl
  have records : (Label.around ⟨location.name, directoryPermissions, none⟩
      (forest.deliveries (transferOf login command live) location) []).flatMap Delivery.logged =
        forest.files.map fun file =>
          { user := login.user, address := login.address, method := .get, location := location.descend file.1
            size := file.2.length, status := 200, exitValue := 0 } := by
    have method : (transferOf login command live).method = .get := by
      rw [Transfer.method, transferOf, source]
    rw [Label.records_around, Forest.records_deliveries ascending.distinct]
    simp only [Transfer.successRecord, method]
    exact List.append_nil _
  have length : (Label.around ⟨location.name, directoryPermissions, none⟩
      (forest.deliveries (transferOf login command live) location) []).length + 1 =
        1 + 2 * forest.files.length + 2 * (1 + forest.directories) := by
    simp only [Label.around, Label.timesDeliveries, List.nil_append, List.length_cons, List.length_append,
      Forest.length_deliveries kept.listed, List.length_nil]
    omega
  generalize Label.around ⟨location.name, directoryPermissions, none⟩
    (forest.deliveries (transferOf login command live) location) [] = deliveries at *
  have bytes := @Beat.bytes_deliver deliveries []
  have beats : (Beat.deliver [] deliveries).length = deliveries.length + 1 := by
    rw [← List.length_map (f := Beat.byte), ← Beat.bytes, bytes, List.length_replicate]
  rw [start_sending parsed source]
  refine ⟨forest, kept.listed, ascending, perm, deliveries.length + 1, length, fun fewer less => ?_, ?_⟩
  · have waits := follows.waits (beats.symm ▸ less)
    rw [bytes, List.take_replicate, Nat.min_eq_left (Nat.le_of_lt less)] at waits
    exact waits
  · intro more ending
    obtain ⟨session, after, fed, sent, logged, rfl⟩ := follows.feedAll
    rw [bytes] at fed
    rw [Beat.sendings_deliver, messages] at sent
    rw [Beat.records_deliver, List.nil_append, records] at logged
    have ended : run login line (List.replicate (deliveries.length + 1) Wire.okStatus ++ more) ending live =
        (.ok (), after) := by
      rw [run, start_sending parsed source, feedAll_append, fed, feedAll_ended]
      rfl
    rw [ended]
    exact ⟨rfl, sent, logged⟩

/-- A directory with a file and, in a directory of its own, an empty file with the suffix of a checksum. -/
theorem download_sends_forest_of_two_files :
    let store := ((({} : MemoryStore).insert ⟨"libs", "x/a"⟩ [104, 105] .empty).insert
      ⟨"libs", "x/d/b.md5"⟩ [] .empty)
    let live : Live MemoryStore := { gateway := Gateway.new {} store (fun _ _ _ => true) ⟨0, 0⟩ }
    let forest : Forest := .file ⟨"a", "0644", none⟩ [104, 105]
      (.directory ⟨"d", "0755", none⟩ (.file ⟨"b.md5", "0644", none⟩ [] .nil) .nil)
    (run ⟨"ann", "::1", .empty⟩ "scp -r -f libs/x" (List.replicate 9 0) .closed live).1 = .ok () ∧
      (run ⟨"ann", "::1", .empty⟩ "scp -r -f libs/x" (List.replicate 9 0) .closed live).2.outlet =
        live.outlet.extend (Forest.directory ⟨"x", "0755", none⟩ forest .nil).encode := by
  intro store live forest
  have parsed : Command.parse "scp -r -f libs/x" =
      .ok ⟨.source, true, false, false, false, ["libs/x"]⟩ := by decide +kernel
  have resolved : Location.resolve "libs/x" = ⟨"libs", "x"⟩ := by decide +kernel
  have described : store.describe ⟨"libs", "x"⟩ =
      .ok (Metadata.directory ⟨0, 0⟩ "libs" "/x" [⟨"a", false⟩, ⟨"d", true⟩]) := by decide +kernel
  have held : store.held "libs" = [(⟨"libs", "x/a"⟩, [104, 105]), (⟨"libs", "x/d/b.md5"⟩, [])] := by
    decide +kernel
  have arranged : store.Arranged "libs" := by
    constructor <;> rw [held]
    · decide +kernel
    · decide +kernel
  have listed : forest.Listed := ⟨rfl, rfl, List.cons_ne_nil _ _, ⟨rfl, trivial⟩, trivial⟩
  have ascending : forest.Ascending := by
    refine ⟨⟨by decide, by decide⟩, List.forall_mem_singleton.2 (by decide), ⟨by decide, by decide⟩,
      ⟨⟨by decide, by decide⟩, List.forall_mem_nil _, trivial⟩, List.forall_mem_nil _, trivial⟩
  have below : store.below ⟨"libs", "x"⟩ =
      forest.files.map fun file => (Location.descend ⟨"libs", "x"⟩ file.1, file.2) := by decide +kernel
  obtain ⟨sent, sentListed, sentAscending, perm, count, total, _, answered⟩ :=
    @download_sends_forest ⟨"ann", "::1", .empty⟩ _ "libs/x" _ live ⟨"libs", "x"⟩ _ parsed rfl rfl rfl rfl
      (by decide +kernel) resolved (by decide) (by decide) (.inr (by decide +kernel)) described rfl rfl rfl rfl
      (fun _ _ => rfl) arranged
  have files := perm.map fun file => (Location.namesTo ⟨"libs", "x"⟩ file.1, file.2)
  rw [Forest.map_namesTo_files sentAscending.distinct] at files
  obtain rfl : sent = forest := by
    refine Forest.eq_of_files_perm sentListed sentAscending listed ascending (files.trans (.of_eq ?_))
    exact (congrArg _ below).trans (Forest.map_namesTo_files ascending.distinct _)
  obtain rfl : count = 9 := total
  obtain ⟨ended, taken, _⟩ := answered [] .closed
  rw [List.append_nil] at ended taken
  exact ⟨ended, taken⟩

end Session

end ArtifactGate

import ArtifactGate.Proofs.Http.Paths
import ArtifactGate.Proofs.Location
import ArtifactGate.Store.Http
import Mathlib.Data.List.TakeDrop
import Mathlib.Data.List.TakeWhile

/-!
Where the requests of a store behind a server go. A path that does not lead above its repository is asked
for below the repository's own url. One that does can reach whatever the server has: `..` is not escaped,
and nobody looks at a path before the url is resolved.
-/
namespace ArtifactGate

namespace Http

/-- Where the items of a server are: its url with a slash after it. -/
def Server.root? (server : Server) : Option Address :=
  Address.parse? (String.ofList (server.base ++ ['/']))

/-- The characters of the part of a url that a store writes. -/
def Shown (text : List Char) : Prop :=
  ∀ c ∈ text, isShown hiddenInPath c = true

section Shown

variable {text : List Char}

theorem code_of_isShown {hidden : List Char} {c : Char} (shown : isShown hidden c = true) :
    32 < c.toNat ∧ c.toNat < 127 := by
  simp only [isShown, Bool.and_eq_true, decide_eq_true_eq] at shown
  obtain ⟨⟨above, below⟩, _⟩ := shown
  exact ⟨above, below⟩

theorem Shown.absent (shown : Shown text) {c : Char} (hidden : isShown hiddenInPath c = false) : c ∉ text :=
  fun member => Bool.false_ne_true (hidden ▸ shown c member)

theorem Shown.encodeText (shown : Shown text) :
    encodeText (isShown hiddenInPath) (String.ofList text) = text := by
  rw [encodeText_eq, String.toList_ofList]
  induction text with
  | nil => rfl
  | cons c text ih =>
      obtain ⟨first, others⟩ := List.forall_mem_cons.1 shown
      have ascii : c.toNat < 128 := Nat.lt_succ_of_lt (code_of_isShown first).2
      rw [List.flatMap_cons, escape_of_plain ascii first, ih others, List.singleton_append]

theorem Shown.stripUrl (shown : Shown text) (front : List Char) :
    stripUrl (front ++ '/' :: text) =
      ((front.dropWhile fun c => decide (c ≤ ' ')).filter fun c => c != '\t' && c != '\n' && c != '\r') ++
        '/' :: text := by
  have late (c : Char) (member : c ∈ '/' :: text) : ' ' < c := by
    rcases List.mem_cons.1 member with rfl | member
    · decide
    · exact (code_of_isShown (shown c member)).1
  have inner (c : Char) (member : c ∈ '/' :: text) : decide (c ≤ ' ') = false :=
    decide_eq_false (Char.not_le.2 (late c member))
  have kept (c : Char) (member : c ∈ '/' :: text) : (c != '\t' && c != '\n' && c != '\r') = true := by
    have later := late c member
    simp only [Bool.and_eq_true, bne_iff_ne, ne_eq]
    refine ⟨⟨?_, ?_⟩, ?_⟩ <;> rintro rfl <;> exact absurd later (by decide)
  rw [Http.stripUrl, Text.dropWhile_append_cons (inner _ List.mem_cons_self),
    Text.dropTrailing_of_none (List.cons_ne_nil _ _) inner, List.filter_append, List.filter_eq_self.2 kept]

end Shown

/-- Whether a scheme asks for encryption. -/
def isSecure? (scheme : List Char) : Option Bool :=
  match (String.ofList scheme).toLower with
  | "http" => some false
  | "https" => some true
  | _ => none

theorem scheme?_eq (url : List Char) :
    scheme? url = (Text.splitFirst ':' url).bind fun parts => (isSecure? parts.1).map (·, parts.2) := by
  rw [scheme?]
  congr 1
  funext ⟨scheme, rest⟩
  simp only [isSecure?]
  generalize (String.ofList scheme).toLower = name
  split <;> simp only [Option.map_some, Option.map_none]

theorem scheme?_append {front : List Char} {secure : Bool} {rest : List Char}
    (known : scheme? (front ++ ['/']) = some (secure, rest)) :
    ∃ before, rest = before ++ ['/'] ∧ (∀ c ∈ before, c ∈ front) ∧
      ∀ text, scheme? (front ++ '/' :: text) = some (secure, before ++ '/' :: text) := by
  rw [scheme?_eq, Option.bind_eq_some_iff] at known
  obtain ⟨⟨scheme, after⟩, split, known⟩ := known
  rw [Option.map_eq_some_iff] at known
  obtain ⟨_, asked, same⟩ := known
  obtain ⟨rfl, rfl⟩ := Prod.mk.inj same
  obtain ⟨shape, absent⟩ := Text.eq_of_splitFirst split
  rcases List.eq_nil_or_concat after with rfl | ⟨before, last, rfl⟩
  · have last := (List.append_inj' shape rfl).2
    cases last
  · rw [List.concat_eq_append, ← List.cons_append, ← List.append_assoc] at shape
    obtain ⟨rfl, same⟩ := List.append_inj' shape rfl
    cases same
    refine ⟨before, List.concat_eq_append, ?_, fun text => ?_⟩
    · intro c member
      exact List.mem_append_right _ (List.mem_cons_of_mem _ member)
    · rw [scheme?_eq, List.append_assoc, List.cons_append, Text.splitFirst_append absent, Option.bind_some, asked]
      rfl

def isInAuthority (c : Char) : Bool :=
  !isSeparator c && c != '?' && c != '#'

/-- The address at what follows the scheme of a url. -/
def addressAfter? (secure : Bool) (rest : List Char) : Option Address :=
  let (authority, afterHost) := (rest.dropWhile isSeparator).span isInAuthority
  (hostAndPort? (if secure then 443 else 80) (Text.takeTrailing (· != '@') authority)).map
    fun (host, port) => { secure, host, port, target := String.ofList (targetOf afterHost) }

theorem parse?_eq (url : String) :
    Address.parse? url = (scheme? (stripUrl url.toList)).bind fun parts => addressAfter? parts.1 parts.2 := by
  rw [Address.parse?]
  simp only [Option.bind_eq_bind, addressAfter?, List.span_eq_takeWhile_dropWhile]
  congr 1
  funext ⟨secure, rest⟩
  exact (Option.map_eq_bind ..).symm

/-- A url goes on after the slash that follows its authority and its path. -/
theorem addressAfter?_append {secure : Bool} {before : List Char} {root : Address}
    (known : addressAfter? secure (before ++ ['/']) = some root) :
    ∃ path, (∀ c ∈ path, c ∈ before) ∧ root.target = String.ofList (targetOf (path ++ ['/'])) ∧
      ∀ text, addressAfter? secure (before ++ '/' :: text) =
        some { root with target := String.ofList (targetOf (path ++ '/' :: text)) } := by
  have ends : isInAuthority '/' = false := by
    decide
  by_cases bare : before.dropWhile isSeparator = []
  · have nothing : (before ++ ['/']).dropWhile isSeparator = [] := by
      rw [List.dropWhile_append, bare]
      rfl
    rw [addressAfter?, nothing] at known
    cases known
  · have goesOn (text : List Char) : (before ++ '/' :: text).dropWhile isSeparator =
        before.dropWhile isSeparator ++ '/' :: text := by
      rw [List.dropWhile_append, if_neg (by simpa using bare)]
    simp only [addressAfter?, goesOn, List.span_eq_takeWhile_dropWhile] at known ⊢
    simp only [Text.takeWhile_append_cons ends, Text.dropWhile_append_cons ends] at known ⊢
    obtain ⟨⟨host, port⟩, found, rfl⟩ := Option.map_eq_some_iff.1 known
    refine ⟨_, ?_, rfl, fun text => ?_⟩
    · intro c member
      exact (List.dropWhile_sublist _).mem ((List.dropWhile_sublist _).mem member)
    · rw [found]
      rfl

/-- The segments of the path before it goes on after a slash. -/
def segmentsBefore (path : List Char) : List (List Char) :=
  match path with
  | [] => []
  | _ :: path => Text.pieces isSeparator path

theorem pieces_after (path text : List Char) : Text.pieces isSeparator ((path ++ '/' :: text).drop 1) =
    segmentsBefore path ++ Text.pieces isSeparator text := by
  cases path with
  | nil => rfl
  | cons c path => exact Text.pieces_append_pieces (by decide) path text

theorem targetOf_append {path : List Char} (noQuery : '?' ∉ path) (noFragment : '#' ∉ path) :
    ∃ kept, ∀ text, Shown text → targetOf (path ++ '/' :: text) =
      renderPath (resolveAfter kept (Text.pieces isSeparator text)) := by
  refine ⟨keptAfter [] ((segmentsBefore path).map fun segment =>
    encodeText (isShown hiddenInPath) (String.ofList segment)), ?_⟩
  intro text shown
  have whole {mark : Char} (absent : mark ∉ path) (other : mark ≠ '/')
      (hidden : isShown hiddenInPath mark = false) : (path ++ '/' :: text).span (· != mark) =
      (path ++ '/' :: text, []) := by
    have inner (c : Char) (member : c ∈ path ++ '/' :: text) : (c != mark) = true := by
      rw [bne_iff_ne]
      rintro rfl
      rcases List.mem_append.1 member with member | member
      · exact absent member
      · rcases List.mem_cons.1 member with same | member
        · exact other same
        · exact shown.absent hidden member
    rw [List.span_eq_takeWhile_dropWhile, List.takeWhile_eq_self_iff.2 inner, List.dropWhile_eq_nil_iff.2 inner]
  have same : (Text.pieces isSeparator text).map (fun segment =>
      encodeText (isShown hiddenInPath) (String.ofList segment)) = Text.pieces isSeparator text := by
    have unchanged (segment : List Char) (among : segment ∈ Text.pieces isSeparator text) :
        encodeText (isShown hiddenInPath) (String.ofList segment) = id segment :=
      Shown.encodeText fun c member => shown c (Text.mem_of_mem_pieces among member)
    rw [List.map_congr_left unchanged, List.map_id]
  simp only [targetOf, whole noFragment (by decide) (by decide), whole noQuery (by decide) (by decide)]
  rw [pieces_after, List.map_append, same, resolveDots, resolveAfter_append _ _ (Text.pieces_ne_nil _ _)]
  exact List.append_nil _

section Below

variable {server : Server} {root : Address}

/-- A url that goes on below a server leads to the server, to a target that goes on below its root. -/
theorem parse?_below (known : server.root? = some root) (noQuery : '?' ∉ server.base)
    (noFragment : '#' ∉ server.base) :
    ∃ kept, root.target = String.ofList (renderPath kept.reverse ++ ['/']) ∧ ∀ text, Shown text →
      Address.parse? (String.ofList (server.base ++ '/' :: text)) = some { root with
        target := String.ofList (renderPath (resolveAfter kept (Text.pieces isSeparator text))) } := by
  have none : Shown [] := List.forall_mem_nil _
  rw [Server.root?, parse?_eq, String.toList_ofList, none.stripUrl, Option.bind_eq_some_iff] at known
  obtain ⟨⟨secure, rest⟩, scheme, address⟩ := known
  obtain ⟨before, rfl, among, schemes⟩ := scheme?_append scheme
  obtain ⟨path, inside, target, addresses⟩ := addressAfter?_append address
  have inner (c : Char) (absent : c ∉ server.base) : c ∉ path := fun member =>
    absent ((List.dropWhile_sublist _).mem (List.mem_filter.1 (among c (inside c member))).1)
  obtain ⟨kept, resolved⟩ := targetOf_append (inner _ noQuery) (inner _ noFragment)
  refine ⟨kept, ?_, ?_⟩
  · rw [target, resolved [] none]
    simp [Text.pieces, resolveAfter, isAbove, isHere, dots, renderPath]
  · intro text shown
    rw [parse?_eq, String.toList_ofList, shown.stripUrl, schemes, Option.bind_some, addresses, resolved text shown]

/-- The url leads to a server, to a target that begins as the server's root does and goes on with these
characters. -/
def Address.Leads (root : Address) (front : List Char) (url : String) : Prop :=
  ∃ target, Address.parse? url = some { root with target } ∧ root.target.toList ++ front <+: target.toList

/-- A segment that stands in a url as it is and that resolving keeps. -/
structure Kept (segment : List Char) : Prop where
  inner : ∀ c ∈ segment, isInSegment c = true
  notAbove : isAbove segment = false
  notHere : isHere segment = false

section Kept

variable {front : List (List Char)}

/-- Segments with a slash after each. -/
def leading (segments : List (List Char)) : List Char :=
  segments.flatMap (· ++ ['/'])

theorem leading_append (segments more : List (List Char)) :
    leading (segments ++ more) = leading segments ++ leading more :=
  List.flatMap_append

theorem pieces_leading (kept : ∀ segment ∈ front, Kept segment) (text : List Char) :
    Text.pieces isSeparator (leading front ++ text) = front ++ Text.pieces isSeparator text := by
  induction front with
  | nil => rfl
  | cons segment front ih =>
      obtain ⟨first, others⟩ := List.forall_mem_cons.1 kept
      have inner (c : Char) (member : c ∈ segment) := isSeparator_of_isInSegment (first.inner c member)
      rw [leading, List.flatMap_cons, List.append_assoc, List.append_assoc, List.singleton_append,
        Text.pieces_append inner (by decide), ← leading, ih others, List.cons_append]

theorem keptAfter_front (kept : ∀ segment ∈ front, Kept segment) (before : List (List Char)) :
    keptAfter before front = front.reverse ++ before := by
  induction front generalizing before with
  | nil => rfl
  | cons segment front ih =>
      obtain ⟨first, others⟩ := List.forall_mem_cons.1 kept
      rw [keptAfter, first.notAbove, first.notHere]
      simp only [Bool.false_eq_true, if_false]
      rw [ih others, List.reverse_cons, List.append_assoc, List.singleton_append]

theorem renderPath_append (segments more : List (List Char)) :
    renderPath (segments ++ more) = renderPath segments ++ renderPath more :=
  List.flatMap_append

theorem renderPath_leading (front : List (List Char)) (text : List Char) :
    renderPath front ++ '/' :: text = '/' :: (leading front ++ text) := by
  induction front with
  | nil => rfl
  | cons segment front ih =>
      rw [renderPath, List.flatMap_cons, List.append_assoc, ← renderPath, ih]
      simp [leading]

theorem shown_of_inner {text : List Char} (inner : ∀ c ∈ text, isInSegment c = true) : Shown text :=
  fun c member => (Bool.and_eq_true_iff.1 (inner c member)).1

theorem shown_append {text more : List Char} (shown : Shown text) (also : Shown more) : Shown (text ++ more) :=
  List.forall_mem_append.2 ⟨shown, also⟩

theorem shown_leading (kept : ∀ segment ∈ front, Kept segment) : Shown (leading front) := by
  intro c member
  obtain ⟨segment, among, member⟩ := List.mem_flatMap.1 member
  rcases List.mem_append.1 member with member | slash
  · exact shown_of_inner (kept segment among).inner c member
  · rw [List.mem_singleton.1 slash]
    decide

theorem shown_encodePath (path : String) : Shown (encodePath path) := by
  intro c member
  rw [encodePath, encodeText_eq] at member
  obtain ⟨d, _, member⟩ := List.mem_flatMap.1 member
  by_cases slash : d = '/'
  · rw [slash, escape_slash, List.mem_singleton] at member
    rw [member]
    decide
  · exact shown_of_inner (isInSegment_of_mem_escape (isInSegment_of_plainInPath slash)) c member

/-- What goes on below a directory of the server and does not lead above it is asked for below it. -/
theorem leads_below (known : server.root? = some root) (noQuery : '?' ∉ server.base)
    (noFragment : '#' ∉ server.base) (kept : ∀ segment ∈ front, Kept segment) {tail : List Char}
    (follows : Follows tail) {path : String}
    (stays : climbs 0 (Text.pieces Location.isSlash path.toList) = false) :
    root.Leads (leading front)
      (String.ofList (server.base ++ '/' :: (leading front ++ (encodePath path ++ tail)))) := by
  obtain ⟨before, target, below⟩ := parse?_below known noQuery noFragment
  have shown := shown_append (shown_leading kept)
    (shown_append (shown_encodePath path) (shown_of_inner follows.1))
  have inner (c : Char) (member : c ∈ tail) := isSeparator_of_isInSegment (follows.1 c member)
  obtain ⟨first, rest, resolved⟩ := resolveAfter_below follows (front.reverse ++ before)
    (Text.pieces_ne_nil Location.isSlash path.toList) [] stays
  refine ⟨_, below _ shown, ?_⟩
  rw [pieces_leading kept, encodePath, encodeText_eq, pieces_escaped inner,
    resolveAfter_append _ _ (written_ne_nil tail (Text.pieces_ne_nil _ _)), keptAfter_front kept]
  rw [List.nil_append] at resolved
  rw [resolved, target]
  simp only [String.toList_ofList, List.reverse_append, List.reverse_reverse]
  refine ⟨first ++ renderPath rest, ?_⟩
  have last : renderPath (first :: rest) = '/' :: (first ++ renderPath rest) := rfl
  rw [renderPath_append, renderPath_append, last, List.append_assoc (renderPath _) (renderPath front),
    renderPath_leading front, List.append_assoc]
  exact List.append_assoc ..

/-- A path that starts by leading above a directory is asked for as what follows is beside the directory. -/
theorem parse?_climbing (known : server.root? = some root) (noQuery : '?' ∉ server.base)
    (noFragment : '#' ∉ server.base) (kept : ∀ segment ∈ front, Kept segment) {last : List Char}
    (lastKept : Kept last) {tail : List Char} (follows : Follows tail) (path : String) :
    Address.parse? (String.ofList (server.base ++ '/' ::
      (leading (front ++ [last]) ++ (encodePath ("../" ++ path) ++ tail)))) =
    Address.parse? (String.ofList (server.base ++ '/' :: (leading front ++ (encodePath path ++ tail)))) := by
  obtain ⟨before, _, below⟩ := parse?_below known noQuery noFragment
  have keptAll := List.forall_mem_append.2 ⟨kept, List.forall_mem_singleton.2 lastKept⟩
  have shown (path : String) := shown_append (shown_encodePath path) (shown_of_inner follows.1)
  have up : encodePath ("../" ++ path) ++ tail = ['.', '.'] ++ '/' :: (encodePath path ++ tail) := by
    simp only [encodePath, encodeText_eq, String.toList_append, List.flatMap_append]
    rfl
  have dotted : ∀ c ∈ ['.', '.'], isSeparator c = false :=
    List.forall_mem_cons.2 ⟨rfl, List.forall_mem_singleton.2 rfl⟩
  obtain ⟨first, others, split⟩ := List.exists_cons_of_ne_nil
    (Text.pieces_ne_nil isSeparator (encodePath path ++ tail))
  rw [below _ (shown_append (shown_leading keptAll) (shown _)), below _ (shown_append (shown_leading kept) (shown _)),
    pieces_leading keptAll, pieces_leading kept, up, Text.pieces_append dotted (by decide),
    resolveAfter_append _ _ (List.cons_ne_nil _ _), resolveAfter_append _ _ (Text.pieces_ne_nil _ _),
    keptAfter_front keptAll, keptAfter_front kept, List.reverse_append, split]
  rfl

end Kept

theorem kept_repository {repository : String} (outside : '/' ∉ repository.toList)
    (named : repository ∉ [".", ".."]) : Kept (encodePath repository) := by
  have whole := List.append_nil (encodePath repository)
  have text : encodePath repository = repository.toList.flatMap (escape plainInPath) :=
    encodeText_eq plainInPath repository
  refine ⟨?_, ?_, ?_⟩
  · intro c member
    rw [text] at member
    obtain ⟨d, among, member⟩ := List.mem_flatMap.1 member
    refine isInSegment_of_mem_escape (isInSegment_of_plainInPath ?_) c member
    rintro rfl
    exact outside among
  · rw [Bool.eq_false_iff]
    intro above
    rw [text, ← List.append_nil (List.flatMap _ _)] at above
    have dots : repository = ".." := String.toList_inj.1 (isAbove_escaped follows_nil above)
    exact named (dots ▸ List.mem_cons_of_mem _ List.mem_cons_self)
  · rw [Bool.eq_false_iff]
    intro here
    rw [text, ← List.append_nil (List.flatMap _ _)] at here
    have dot : repository = "." := String.toList_inj.1 (isHere_escaped follows_nil here)
    exact named (dot ▸ List.mem_cons_self)

theorem isInSegment_of_mem_property {text : String} :
    ∀ c ∈ encodeText plainInProperty text, isInSegment c = true := by
  have all : ∀ number < 128, plainInProperty (Char.ofNat number) = true →
      isInSegment (Char.ofNat number) = true := by
    decide +kernel
  intro c member
  rw [encodeText_eq] at member
  obtain ⟨d, _, member⟩ := List.mem_flatMap.1 member
  refine isInSegment_of_mem_escape (fun ascii shown => ?_) c member
  have known := all d.toNat ascii
  rw [Char.ofNat_toNat] at known
  exact known shown

theorem follows_properties (properties : Properties) : Follows (properties.entries.flatMap encodeProperty) := by
  constructor
  · intro c member
    obtain ⟨property, _, member⟩ := List.mem_flatMap.1 member
    simp only [encodeProperty, List.mem_cons, List.mem_append] at member
    rcases member with (rfl | member) | rfl | member
    · decide
    · exact isInSegment_of_mem_property c member
    · decide
    · exact isInSegment_of_mem_property c member
  · intro c first
    cases entries : properties.entries with
    | nil =>
        rw [entries] at first
        cases first
    | cons property rest =>
        rw [entries] at first
        exact (Option.some.inj first).symm

end Below

end Http

namespace Location

/-- The repository's name is no dot segment, and the path does not lead above the repository. -/
def StaysInside (location : Location) : Prop :=
  location.repository ∉ [".", ".."] ∧
    Http.climbs 0 (Text.pieces isSlash location.path.toList) = false

instance (location : Location) : Decidable location.StaysInside :=
  inferInstanceAs (Decidable (_ ∧ _))

end Location

namespace HttpStore

open Http

theorem requests_exchange (request : Request) (store : HttpStore) :
    (store.exchange request).2.requests = store.requests ∨
      (store.exchange request).2.requests = request :: store.requests := by
  rw [exchange]
  split
  · exact .inl rfl
  · simp only []
    split <;> exact .inr rfl

/-! The directory of a server in which items are described. -/

def api : List (List Char) := ["api".toList, "storage".toList]

theorem kept_api : ∀ segment ∈ api, Kept segment :=
  List.forall_mem_cons.2 ⟨⟨List.all_eq_true.1 (by decide), by decide, by decide⟩,
    List.forall_mem_singleton.2 ⟨List.all_eq_true.1 (by decide), by decide, by decide⟩⟩

theorem leading_api : leading api = "api/storage/".toList := by
  decide

theorem slash_api : "/api/storage/".toList = '/' :: "api/storage/".toList := by
  decide

section Inside

variable {store : HttpStore} {root : Address} {location : Location}

theorem leads_of_exchange {request : Request} {front : List Char} (leads : root.Leads front request.url) :
    ∀ made ∈ (store.exchange request).2.requests, made ∈ store.requests ∨ root.Leads front made.url := by
  intro made member
  rcases requests_exchange request store with same | one
  · exact .inl (same ▸ member)
  · rw [one] at member
    rcases List.mem_cons.1 member with rfl | member
    · exact .inr leads
    · exact .inl member

/-- Every request for an item goes below the url of the item's repository, unless the item's path leads
above the repository. -/
theorem requests_inside (known : store.server.root? = some root) (noQuery : '?' ∉ store.server.base)
    (noFragment : '#' ∉ store.server.base) {text : String} (outside : (Location.resolve text).isSink = false)
    (inside : (Location.resolve text).StaysInside) (properties : Properties) (body : List UInt8) :
    let location := Location.resolve text
    let repository := encodePath location.repository ++ ['/']
    (∀ request ∈ (store.metadata location).2.requests,
      request ∈ store.requests ∨ root.Leads ("api/storage/".toList ++ repository) request.url) ∧
    (∀ request ∈ (store.content location).2.requests,
      request ∈ store.requests ∨ root.Leads repository request.url) ∧
    ∀ request ∈ (store.storeBody location properties body).2.requests,
      request ∈ store.requests ∨ root.Leads repository request.url := by
  obtain ⟨named, stays⟩ := inside
  have kept := kept_repository (Location.slash_not_mem_resolve outside) named
  have alone := List.forall_mem_singleton.2 kept
  have listed := List.forall_mem_append.2 ⟨kept_api, alone⟩
  have repository : leading [encodePath (Location.resolve text).repository] =
      encodePath (Location.resolve text).repository ++ ['/'] := List.flatMap_singleton ..
  refine ⟨leads_of_exchange ?_, leads_of_exchange ?_, leads_of_exchange ?_⟩
  · have leads := leads_below known noQuery noFragment listed follows_nil stays
    simpa only [leading_append, leading_api, repository, List.append_nil, List.append_assoc, List.cons_append,
      List.nil_append, request, Server.storageUrl, Server.itemPath, slash_api] using leads
  · have leads := leads_below known noQuery noFragment alone follows_nil stays
    simpa only [repository, List.append_nil, List.append_assoc, List.cons_append, List.nil_append, request,
      Server.contentUrl, Server.itemPath] using leads
  · have leads := leads_below known noQuery noFragment alone (follows_properties properties) stays
    simpa only [repository, List.append_nil, List.append_assoc, List.cons_append, List.nil_append, request,
      Server.uploadUrl, Server.itemPath] using leads

/-- Going up inside a repository is no way out of it. -/
theorem requests_inside_of_jar :
    let store := ofUrl "http://h/art/" .anonymous { reply := fun _ => none }
    let location := Location.resolve "libs/com/../a.jar"
    let root : Address := { secure := false, host := "h", port := 80, target := "/art/" }
    (store.server.root? = some root ∧ location.isSink = false ∧ location.StaysInside) ∧
      ∀ request ∈ (store.content location).2.requests,
        request ∈ store.requests ∨ root.Leads "libs/".toList request.url := by
  intro store location root
  have known : store.server.root? = some root := by
    decide +kernel
  have outside : location.isSink = false := by
    decide +kernel
  have inside : location.StaysInside := by
    decide +kernel
  have sent := requests_inside known (by decide +kernel) (by decide +kernel) outside inside .empty []
  exact ⟨⟨known, outside, inside⟩, sent.2.1⟩

end Inside

section Climbing

variable {server : Server} {root : Address} {repository : String}

/-- From any repository the path `../other/path` reaches what the path reaches in the other repository. -/
theorem urls_of_climbing (known : server.root? = some root) (noQuery : '?' ∉ server.base)
    (noFragment : '#' ∉ server.base) (outside : '/' ∉ repository.toList) (named : repository ∉ [".", ".."])
    (other : Location) (properties : Properties) :
    let location : Location := ⟨repository, "../" ++ (other.repository ++ "/" ++ other.path)⟩
    Address.parse? (server.storageUrl location) = Address.parse? (server.storageUrl other) ∧
      Address.parse? (server.contentUrl location) = Address.parse? (server.contentUrl other) ∧
      Address.parse? (server.uploadUrl location properties) =
        Address.parse? (server.uploadUrl other properties) := by
  have kept := kept_repository outside named
  have none : leading [] = [] := rfl
  have alone : leading [encodePath repository] = encodePath repository ++ ['/'] := List.flatMap_singleton ..
  have item : encodePath (other.repository ++ "/" ++ other.path) = Server.itemPath other := by
    simp only [Server.itemPath, encodePath, encodeText_eq, String.toList_append, List.flatMap_append,
      List.append_assoc]
    rfl
  refine ⟨?_, ?_, ?_⟩
  · have same := parse?_climbing known noQuery noFragment kept_api kept follows_nil
      (other.repository ++ "/" ++ other.path)
    simpa only [leading_append, leading_api, alone, item, List.append_nil, List.append_assoc, List.cons_append,
      List.nil_append, Server.storageUrl, Server.itemPath, slash_api] using same
  · have same := parse?_climbing known noQuery noFragment (List.forall_mem_nil _) kept follows_nil
      (other.repository ++ "/" ++ other.path)
    simpa only [none, alone, item, List.append_nil, List.append_assoc, List.cons_append,
      List.nil_append, Server.contentUrl, Server.itemPath] using same
  · have same := parse?_climbing known noQuery noFragment (List.forall_mem_nil _) kept
      (follows_properties properties) (other.repository ++ "/" ++ other.path)
    simpa only [none, alone, item, List.append_nil, List.append_assoc, List.cons_append,
      List.nil_append, Server.uploadUrl, Server.itemPath] using same

theorem content_leaves_repository :
    let server := Server.ofUrl "http://h/art"
    let location := Location.resolve "libs/../secret/key"
    location.isEmpty = false ∧ location.isSink = false ∧
      (server.root?.map Address.target) = some "/art/" ∧
      (Address.parse? (server.contentUrl location)).map Address.target = some "/art/secret/key" ∧
      ¬("/art/".toList ++ encodePath location.repository ++ ['/']) <+: "/art/secret/key".toList := by
  decide +kernel

end Climbing

end HttpStore

end ArtifactGate

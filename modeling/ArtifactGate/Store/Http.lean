import ArtifactGate.Artifact
import ArtifactGate.Http.ItemInfo
import ArtifactGate.Http.Message
import ArtifactGate.Http.Url
import ArtifactGate.Text.Utf8

/-!
A store behind an HTTP server. Every call is one request; the requests that were made are kept, and the
answer to the newest of them may depend on all of them. An answer may still be outstanding: the store is
then halted, and makes no request any more.
-/
namespace ArtifactGate

/-- The way to a server. -/
structure Transport where
  obstacle : Option String := none
  /-- The reply to the newest of these requests, unless it is outstanding. -/
  reply : List Http.Request → Option Http.Reply

def Transport.unreachable : Transport :=
  { obstacle := some "connection refused", reply := fun _ => none }

structure HttpStore where
  server : Http.Server
  credentials : Http.Credentials
  transport : Transport
  requests : List Http.Request := []
  isHalted : Bool := false

namespace HttpStore

def ofUrl (url : String) (credentials : Http.Credentials) (transport : Transport) : HttpStore :=
  { server := Http.Server.ofUrl url, credentials, transport }

def lostRequest (url : String) : Fault :=
  .http ("error sending request for url (" ++ url ++ ")")

def brokenBody : String := "error decoding response body"

def request (store : HttpStore) (verb : Http.Verb) (url : String) (body : List UInt8) :
    Http.Request :=
  { verb, url, authorization := store.credentials.authorization?, body }

def exchange (request : Http.Request) (store : HttpStore) :
    Except Fault Http.Response × HttpStore :=
  if store.transport.obstacle.isSome || store.isHalted then
    (.error (lostRequest request.url), store)
  else
    let requests := request :: store.requests
    match store.transport.reply requests with
    | some (.response response) => (.ok response, { store with requests })
    | some (.lost _) => (.error (lostRequest request.url), { store with requests })
    | none => (.error (lostRequest request.url), { store with requests, isHalted := true })

def checkStatus (location : Location) (response : Http.Response) :
    Except Fault Http.Response :=
  if Http.isSuccess response.status then .ok response
  else if response.status = 404 then
    .error (.notFound (location.repository ++ "/" ++ location.path))
  else
    let body := if response.cutShort then "" else Text.decodeLossy response.body
    .error (.remote (Http.statusText response.status) (Text.trim body))

def ask (location : Location) (request : Http.Request) (store : HttpStore) :
    Except Fault Http.Response × HttpStore :=
  let (answer, store) := store.exchange request
  (answer.bind (checkStatus location), store)

def readMetadata (location : Location) (response : Http.Response) : Except Fault Metadata :=
  if response.cutShort then .error (.http brokenBody)
  else Http.itemInfo location.repository response.body

def readContent (response : Http.Response) : Content :=
  { length := response.length
    bytes := response.body
    breakage := if response.cutShort then some brokenBody else none }

def metadata (location : Location) (store : HttpStore) : Except Fault Metadata × HttpStore :=
  let (answer, store) :=
    store.ask location (store.request .get (store.server.storageUrl location) [])
  (answer.bind (readMetadata location), store)

def content (location : Location) (store : HttpStore) : Except Fault Content × HttpStore :=
  let (answer, store) :=
    store.ask location (store.request .get (store.server.contentUrl location) [])
  (answer.map readContent, store)

def openUpload (location : Location) (properties : Properties) (store : HttpStore) :
    Except Fault Unit × HttpStore :=
  if store.transport.obstacle.isSome then
    (.error (lostRequest (store.server.uploadUrl location properties)), store)
  else (.ok (), store)

def storeBody (location : Location) (properties : Properties) (body : List UInt8)
    (store : HttpStore) : Except Fault Unit × HttpStore :=
  let (answer, store) :=
    store.ask location
      (store.request .put (store.server.uploadUrl location properties) body)
  (answer.map fun _ => (), store)

/-- Nothing is known of a server's directories, so the bound is one that no listing reaches. -/
def listingDepth (_store : HttpStore) : Nat := UInt64.size

instance : RemoteStore HttpStore where
  metadata
  content
  openUpload
  admitUpload _ _ store := (some (.ok ()), store)
  storeBody
  dropAdmitted store := store
  listingDepth

end HttpStore

end ArtifactGate

import ArtifactGate.Text.Utf8

/-!
What is sent to a server and what comes back.
-/
namespace ArtifactGate.Http

inductive Verb
  | get
  | put
  deriving DecidableEq, Repr, Inhabited

def Verb.name : Verb → String
  | .get => "GET"
  | .put => "PUT"

def base64Alphabet : List Char :=
  "ABCDEFGHIJKLMNOPQRSTUVWXYZabcdefghijklmnopqrstuvwxyz0123456789+/".toList

def base64Digit (sextet : Nat) : Char :=
  base64Alphabet.getD sextet '='

/-- Three bytes are four characters, and a group that is not full is filled up with equals signs. -/
def base64 : List UInt8 → List Char
  | a :: b :: c :: rest =>
    base64Digit (a.toNat / 4) :: base64Digit (a.toNat % 4 * 16 + b.toNat / 16) ::
      base64Digit (b.toNat % 16 * 4 + c.toNat / 64) :: base64Digit (c.toNat % 64) :: base64 rest
  | [a, b] =>
    [base64Digit (a.toNat / 4), base64Digit (a.toNat % 4 * 16 + b.toNat / 16),
      base64Digit (b.toNat % 16 * 4), '=']
  | [a] => [base64Digit (a.toNat / 4), base64Digit (a.toNat % 4 * 16), '=', '=']
  | [] => []

/-- How the gateway makes itself known to the server. -/
inductive Credentials
  | anonymous
  | basic (user password : String)
  | bearer (token : String)
  deriving DecidableEq, Repr, Inhabited

def Credentials.authorization? : Credentials → Option String
  | .anonymous => none
  | .basic user password =>
    some ("Basic " ++ String.ofList (base64 (Text.encode (user ++ ":" ++ password))))
  | .bearer token => some ("Bearer " ++ token)

def userAgent : String := "scp-gateway/0.1.0"

structure Request where
  verb : Verb
  url : String
  authorization : Option String := none
  body : List UInt8 := []
  deriving DecidableEq, Repr, Inhabited

/-- An answer. `length` is the announced length of the body, and `cutShort` tells that the body ended
before it was whole. -/
structure Response where
  status : Nat
  length : Option Nat := none
  body : List UInt8 := []
  cutShort : Bool := false
  deriving DecidableEq, Repr, Inhabited

/-- What becomes of a request. -/
inductive Reply
  | response (response : Response)
  | lost (reason : String)
  deriving DecidableEq, Repr, Inhabited

def reasonPhrases : List (Nat × String) :=
  [(100, "Continue"), (101, "Switching Protocols"), (102, "Processing"), (200, "OK"),
    (201, "Created"), (202, "Accepted"), (203, "Non Authoritative Information"),
    (204, "No Content"), (205, "Reset Content"), (206, "Partial Content"),
    (207, "Multi-Status"), (208, "Already Reported"), (226, "IM Used"),
    (300, "Multiple Choices"), (301, "Moved Permanently"), (302, "Found"), (303, "See Other"),
    (304, "Not Modified"), (305, "Use Proxy"), (307, "Temporary Redirect"),
    (308, "Permanent Redirect"), (400, "Bad Request"), (401, "Unauthorized"),
    (402, "Payment Required"), (403, "Forbidden"), (404, "Not Found"),
    (405, "Method Not Allowed"), (406, "Not Acceptable"),
    (407, "Proxy Authentication Required"), (408, "Request Timeout"), (409, "Conflict"),
    (410, "Gone"), (411, "Length Required"), (412, "Precondition Failed"),
    (413, "Payload Too Large"), (414, "URI Too Long"), (415, "Unsupported Media Type"),
    (416, "Range Not Satisfiable"), (417, "Expectation Failed"), (418, "I'm a teapot"),
    (421, "Misdirected Request"), (422, "Unprocessable Entity"), (423, "Locked"),
    (424, "Failed Dependency"), (425, "Too Early"), (426, "Upgrade Required"),
    (428, "Precondition Required"), (429, "Too Many Requests"),
    (431, "Request Header Fields Too Large"), (451, "Unavailable For Legal Reasons"),
    (500, "Internal Server Error"), (501, "Not Implemented"), (502, "Bad Gateway"),
    (503, "Service Unavailable"), (504, "Gateway Timeout"),
    (505, "HTTP Version Not Supported"), (506, "Variant Also Negotiates"),
    (507, "Insufficient Storage"), (508, "Loop Detected"), (510, "Not Extended"),
    (511, "Network Authentication Required")]

def statusText (status : Nat) : String :=
  toString status ++ " " ++ (reasonPhrases.lookup status).getD "<unknown status code>"

def isSuccess (status : Nat) : Bool :=
  200 ≤ status && status < 300

end ArtifactGate.Http

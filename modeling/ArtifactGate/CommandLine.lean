import ArtifactGate.SortedMap
import ArtifactGate.Text.Split

/-!
The arguments of the program. Options come first; from the first argument that is none of them on, all
arguments are the command of a client, whatever they look like. An option that is not given takes its
value from the environment.
-/
namespace ArtifactGate

abbrev Environment := SortedMap String String

/-- The options that have a value. -/
inductive Setting
  | config
  | user
  | remoteAddress
  deriving DecidableEq, Repr, Inhabited

namespace Setting

def all : List Setting := [.config, .user, .remoteAddress]

def longName : Setting → String
  | .config => "config"
  | .user => "user"
  | .remoteAddress => "remote-addr"

def shortName? : Setting → Option Char
  | .config => some 'c'
  | .user => some 'u'
  | .remoteAddress => none

def variableName : Setting → String
  | .config => "SCP_GATEWAY_CONFIG"
  | .user => "SCP_GATEWAY_USER"
  | .remoteAddress => "SCP_GATEWAY_REMOTE_ADDR"

def accepts : Setting → String → Bool
  | .config, value => !value.isEmpty
  | _, _ => true

end Setting

structure Arguments where
  config : String
  user : Option String := none
  remoteAddress : Option String := none
  command : List String := []
  deriving DecidableEq, Repr, Inhabited

/-- Why there are no arguments to go by. -/
inductive Misuse
  | helpWanted
  | versionWanted
  /-- An option stands without its value, or with one it does not take. -/
  | missingValue
  | repeatedOption
  | needlessValue
  deriving DecidableEq, Repr, Inhabited

namespace CommandLine

def defaultConfig : String := "/etc/scp-gateway/config.yaml"

/-- What an argument is on its own. -/
inductive Word
  | setting (setting : Setting) (value : Option String)
  | refused (reason : Misuse)
  | separator
  | plain
  deriving DecidableEq, Repr, Inhabited

def longWord (text : List Char) : Word :=
  let (name, value) :=
    match Text.splitFirst '=' text with
    | some (name, value) => (String.ofList name, some (String.ofList value))
    | none => (String.ofList text, none)
  match Setting.all.find? fun setting => setting.longName == name with
  | some setting => .setting setting value
  | none =>
    if name == "help" then .refused (if value.isSome then .needlessValue else .helpWanted)
    else if name == "version" then
      .refused (if value.isSome then .needlessValue else .versionWanted)
    else .plain

def settingOf? (letter : Char) : Option Setting :=
  Setting.all.find? fun setting => setting.shortName? == some letter

/-- Options by their letters, the last of which may be followed by its value; all of the characters have
to be letters of options. -/
def shortWord (letters : List Char) : Word :=
  let isKnown (letter : Char) : Bool :=
    letter == 'h' || letter == 'V' || (settingOf? letter).isSome
  match letters with
  | [] => .plain
  | letter :: rest =>
    if !letters.all isKnown then .plain
    else if letter == 'h' then .refused .helpWanted
    else if letter == 'V' then .refused .versionWanted
    else
      match settingOf? letter with
      | some setting =>
        .setting setting (if rest.isEmpty then none else some (String.ofList rest))
      | none => .plain

def classify (argument : String) : Word :=
  match argument.toList with
  | ['-', '-'] => .separator
  | '-' :: '-' :: text => longWord text
  | '-' :: letters => shortWord letters
  | _ => .plain

abbrev Given := List (Setting × String)

def give (given : Given) (setting : Setting) (value : String) : Except Misuse Given :=
  if (given.lookup setting).isSome then .error .repeatedOption
  else if setting.accepts value then .ok ((setting, value) :: given)
  else .error .missingValue

/-- Reads the arguments after those that gave `given`; `pending` is an option that waits for its
value. Gives the options and the command. -/
def readWords (given : Given) (pending : Option Setting) :
    List String → Except Misuse (Given × List String)
  | [] => if pending.isSome then .error .missingValue else .ok (given, [])
  | argument :: rest =>
    match classify argument, pending with
    | .refused .needlessValue, _ => .error .needlessValue
    | .refused reason, none => .error reason
    | .separator, none => .ok (given, rest)
    | .setting setting (some value), none => do
      readWords (← give given setting value) none rest
    | .setting setting none, none => readWords given (some setting) rest
    | .plain, some setting => do readWords (← give given setting argument) none rest
    | .plain, none => .ok (given, argument :: rest)
    | _, some _ => .error .missingValue

/-- The value of an option, from the arguments or else from the environment. -/
def valueOf (environment : Environment) (given : Given) (setting : Setting) :
    Except Misuse (Option String) :=
  match given.lookup setting with
  | some value => .ok (some value)
  | none =>
    match environment.get? setting.variableName with
    | some value => if setting.accepts value then .ok (some value) else .error .missingValue
    | none => .ok none

def parse (environment : Environment) (arguments : List String) : Except Misuse Arguments := do
  let (given, command) ← readWords [] none arguments
  let config ← valueOf environment given .config
  let user ← valueOf environment given .user
  let remoteAddress ← valueOf environment given .remoteAddress
  return { config := config.getD defaultConfig, user, remoteAddress, command }

def versionText : String := "scp-gateway 0.1.0\n"

def variableNote (environment : Environment) (setting : Setting) : String :=
  "[env: " ++ setting.variableName ++ "=" ++
    (environment.get? setting.variableName).getD "" ++ "]"

def helpText (environment : Environment) : String :=
  "An SCP front end that streams files to and from an HTTP artifact repository\n\n" ++
  "Usage: scp-gateway [OPTIONS] [COMMAND]...\n\n" ++
  "Arguments:\n" ++
  "  [COMMAND]...  SCP command line, defaults to $SSH_ORIGINAL_COMMAND\n\n" ++
  "Options:\n" ++
  "  -c, --config <CONFIG>            Gateway configuration file " ++
  variableNote environment .config ++ " [default: " ++ defaultConfig ++ "]\n" ++
  "  -u, --user <USER>                Authenticated user, defaults to $USER " ++
  variableNote environment .user ++ "\n" ++
  "      --remote-addr <REMOTE_ADDR>  Client address for the access log, defaults to the " ++
  "first field of $SSH_CLIENT " ++ variableNote environment .remoteAddress ++ "\n" ++
  "  -h, --help                       Print help\n" ++
  "  -V, --version                    Print version\n"

end CommandLine

end ArtifactGate

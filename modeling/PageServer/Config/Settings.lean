import PageServer.Config.Address
import PageServer.Config.Toml.Document
import PageServer.Scope
import PageServer.Session.Record
import PageServer.Site.FileTree
import PageServer.Error

/-! # Settings

The settings of a server come from a TOML document, whose absent keys keep their defaults and whose
unknown keys are ignored. They are checked before they are used.
-/

namespace PageServer

structure Settings where
  host : String := "127.0.0.1"
  port : Nat := 8080
  /-- The number of worker threads; without it, there is one for each processor. -/
  threads : Option Nat := none
  /-- The host of requests that name none. -/
  defaultDomain : String := "localhost"
  documentRoot : String := "www"
  scriptExtension : String := "tmpl"
  indexFile : String := "index.html"
  /-- The seconds that a session lasts after its last use. -/
  sessionTimeout : Nat := 30 * 60
  /-- The seconds between two sweeps of the sessions. -/
  sweepInterval : Nat := 60
  encoding : String := "UTF-8"
  defaultMediaType : String := "application/octet-stream"
  mediaTypes : Scope := Scope.ofPairs
    [("html", "text/html"), ("htm", "text/html"), ("txt", "text/plain"), ("css", "text/css"),
      ("csv", "text/csv"), ("js", "application/javascript"), ("json", "application/json"),
      ("xml", "application/xml"), ("pdf", "application/pdf"), ("png", "image/png"),
      ("jpg", "image/jpeg"), ("jpeg", "image/jpeg"), ("gif", "image/gif"),
      ("svg", "image/svg+xml"), ("ico", "image/x-icon"), ("xls", "application/vnd.ms-excel")]
  /-- Paths that start with it are reached only from inside. -/
  privatePrefix : String := "/private/"
  /-- Paths that start with it name a worker. -/
  workerPrefix : String := "/workers/"
  maxHeaderBytes : Nat := 16 * 1024

inductive SettingsError
  /-- The document is not TOML, or a value does not fit its key. -/
  | document
  /-- The file cannot be read as a text. -/
  | unreadable (path reason : String)
  /-- A setting breaks a rule. -/
  | invalid (reason : String)
deriving DecidableEq, Repr

namespace SettingsError

def reason : SettingsError → String
  | .document => "the document is not a valid configuration"
  | .unreadable path reason => s!"{path}: {reason}"
  | .invalid reason => reason

def toServer (e : SettingsError) : ServerError :=
  .config e.reason

end SettingsError

namespace Settings

def text? : Toml.Value → Option String
  | .string text => some text
  | _ => none

def natural? (bound : Nat) : Toml.Value → Option Nat
  | .integer n => if 0 ≤ n ∧ n.toNat < bound then some n.toNat else none
  | _ => none

/-- The key under which a date stands where a table is wanted. -/
def dateKey : String := "$__toml_private_datetime"

def scope? : Toml.Value → Option Scope
  | .table _ entries =>
    (entries.mapM fun (entry : String × Toml.Value) =>
      (text? entry.2).map fun text => (entry.1, text)).map Scope.ofPairs
  | .date text => some (Scope.ofPairs [(dateKey, text)])
  | _ => none

def keys : List String :=
  ["host", "port", "threads", "default_domain", "document_root", "script_extension", "index_file",
    "session_timeout_secs", "sweep_interval_secs", "encoding", "default_mime", "mime_types",
    "private_prefix", "worker_prefix", "max_header_bytes"]

/-- The settings after the value of a key was stored. -/
def store (s : Settings) (key : String) (value : Toml.Value) : Option Settings :=
  match key with
  | "host" => (text? value).map fun host => { s with host }
  | "port" => (natural? (Nat.pow 2 16) value).map fun port => { s with port }
  | "threads" => (natural? (Nat.pow 2 64) value).map fun n => { s with threads := some n }
  | "default_domain" => (text? value).map fun defaultDomain => { s with defaultDomain }
  | "document_root" => (text? value).map fun documentRoot => { s with documentRoot }
  | "script_extension" => (text? value).map fun scriptExtension => { s with scriptExtension }
  | "index_file" => (text? value).map fun indexFile => { s with indexFile }
  | "session_timeout_secs" =>
    (natural? (Nat.pow 2 64) value).map fun sessionTimeout => { s with sessionTimeout }
  | "sweep_interval_secs" =>
    (natural? (Nat.pow 2 64) value).map fun sweepInterval => { s with sweepInterval }
  | "encoding" => (text? value).map fun encoding => { s with encoding }
  | "default_mime" => (text? value).map fun defaultMediaType => { s with defaultMediaType }
  | "mime_types" => (scope? value).map fun mediaTypes => { s with mediaTypes }
  | "private_prefix" => (text? value).map fun privatePrefix => { s with privatePrefix }
  | "worker_prefix" => (text? value).map fun workerPrefix => { s with workerPrefix }
  | "max_header_bytes" =>
    (natural? (Nat.pow 2 64) value).map fun maxHeaderBytes => { s with maxHeaderBytes }
  | _ => some s

/-- The settings in the entries of a document. No key of the settings may stand in it twice. -/
def ofEntries? (entries : Toml.Entries) : Option Settings :=
  let known := (entries.map (·.1)).filter keys.contains
  if known.Nodup then entries.foldlM (fun s entry => s.store entry.1 entry.2) {} else none

/-- Whether a path starts and ends with a slash. -/
def isDirectoryPath (path : String) : Bool :=
  path.toList.head? == some '/' && path.toList.getLast? == some '/'

/-- A path prefix that does not start and end with a slash. -/
def badPath (key path : String) : SettingsError :=
  .invalid s!"{key} must start and end with '/', got '{path}'"

/-- Checks the rules that settings keep, in order. -/
def validate (s : Settings) : Except SettingsError Unit :=
  if s.threads = some 0 then .error (.invalid "threads must be at least 1")
  else if !isDirectoryPath s.privatePrefix then .error (badPath "private_prefix" s.privatePrefix)
  else if !isDirectoryPath s.workerPrefix then .error (badPath "worker_prefix" s.workerPrefix)
  else if s.maxHeaderBytes = 0 then .error (.invalid "max_header_bytes must be positive")
  else .ok ()

/-- The settings that a document makes, once they are checked. -/
def ofToml (document : String) : Except SettingsError Settings :=
  match (Toml.parse? document).bind ofEntries? with
  | none => .error .document
  | some s => s.validate.map fun _ => s

/-- The settings in a file, given what reading the file gave. -/
def ofFile (path : String) (content : Except FileError Bytes) : Except SettingsError Settings :=
  match content with
  | .error e => .error (.unreadable path e.message)
  | .ok bytes =>
    match Text.decode? bytes with
    | none => .error (.unreadable path "stream did not contain valid UTF-8")
    | some document => ofToml document

def listenAddress (s : Settings) : Except SettingsError Address :=
  match Address.parse? s!"{s.host}:{s.port}" with
  | some address => .ok address
  | none => .error (.invalid "bad listen address: invalid socket address syntax")

/-- The address to listen on, once the settings are checked. -/
def prepare (s : Settings) : Except SettingsError Address := do
  s.validate
  s.listenAddress

/-- The seconds between two sweeps that are really kept. There is at least one. -/
def effectiveSweepInterval (s : Settings) : Nat :=
  max s.sweepInterval 1

/-- The milliseconds that a session lasts after its last use. -/
def sessionMilliseconds (s : Settings) : Nat :=
  min Session.endOfTime (1000 * s.sessionTimeout)

end Settings

end PageServer

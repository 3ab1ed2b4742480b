import PageServer.Config.Settings
import PageServer.Number.Decimal

/-! # The command line

The arguments name a configuration file, and settings that replace those of the file. Each option
takes one value and can be given once. It has a long form, `--port 80` or `--port=80`, and may have a
short one, `-p 80`, `-p80` or `-p=80`. Arguments are read from left to right; the first one that asks
for help or for the version, or that breaks a rule, decides.
-/

namespace PageServer.CommandLine

/-- What an option sets. -/
inductive Key
  | config
  | host
  | port
  | threads
  | root
deriving DecidableEq, Repr

inductive Flag
  /-- An option, which takes a value. -/
  | option (key : Key)
  | help
  | version
deriving DecidableEq, Repr

def Flag.ofLong? : String → Option Flag
  | "config" => some (.option .config)
  | "host" => some (.option .host)
  | "port" => some (.option .port)
  | "threads" => some (.option .threads)
  | "root" => some (.option .root)
  | "help" => some .help
  | "version" => some .version
  | _ => none

def Flag.ofLetter? : Char → Option Flag
  | 'c' => some (.option .config)
  | 'p' => some (.option .port)
  | 't' => some (.option .threads)
  | 'r' => some (.option .root)
  | 'h' => some .help
  | 'V' => some .version
  | _ => none

structure Arguments where
  config : Option String := none
  host : Option String := none
  port : Option Nat := none
  threads : Option Nat := none
  root : Option String := none
deriving DecidableEq, Repr

inductive Request
  | help
  | version
  | run (arguments : Arguments)
deriving DecidableEq, Repr

def path? (value : List Char) : Option String :=
  if value = [] then none else some (String.ofList value)

def port? (value : List Char) : Option Nat :=
  (Decimal.readInteger? value).bind fun n => if 0 ≤ n ∧ n.toNat < Nat.pow 2 16 then some n.toNat else none

/-- The arguments after the value of an option was stored. An option that was given before, or a value
that does not fit it, breaks a rule. -/
def Arguments.store (a : Arguments) (key : Key) (value : List Char) : Option Arguments :=
  match key with
  | .config => if a.config.isSome then none else (path? value).map fun v => { a with config := v }
  | .host => if a.host.isSome then none else some { a with host := some (String.ofList value) }
  | .port => if a.port.isSome then none else (port? value).map fun v => { a with port := v }
  | .threads =>
    if a.threads.isSome then none
    else (Decimal.readNatural? (Nat.pow 2 64) value).map fun v => { a with threads := v }
  | .root => if a.root.isSome then none else (path? value).map fun v => { a with root := v }

/-- The flag in an argument and the value that is attached to it. -/
def readFlag? : List Char → Option (Flag × Option (List Char))
  | '-' :: '-' :: long =>
    let (name, attached) := match Text.cut '=' long with
      | some (name, value) => (name, some value)
      | none => (long, none)
    match Flag.ofLong? (String.ofList name) with
    | some (.option key) => some (.option key, attached)
    | some flag => if attached = none then some (flag, none) else none
    | none => none
  | '-' :: letter :: rest =>
    let attached := match rest with
      | [] => none
      | '=' :: value => some value
      | value => some value
    (Flag.ofLetter? letter).map fun flag => (flag, attached)
  | _ => none

/-- Whether an argument cannot be the value of the option before it. -/
def looksLikeFlag : List Char → Bool
  | '-' :: _ :: _ => true
  | _ => false

/-- Reads arguments. `pending` is the option that waits for its value. -/
def readFrom (a : Arguments) (pending : Option Key) : List (List Char) → Option Request
  | [] => if pending = none then some (.run a) else none
  | argument :: rest =>
    match pending with
    | some key =>
      if looksLikeFlag argument then none
      else
        match a.store key argument with
        | some a => readFrom a none rest
        | none => none
    | none =>
      if argument = ['-', '-'] then if rest = [] then some (.run a) else none
      else
        match readFlag? argument with
        | some (.help, _) => some .help
        | some (.version, _) => some .version
        | some (.option key, none) => readFrom a (some key) rest
        | some (.option key, some value) =>
          match a.store key value with
          | some a => readFrom a none rest
          | none => none
        | none => none

/-- What the arguments ask for, unless they break a rule. -/
def read? (arguments : List String) : Option Request :=
  readFrom {} none (arguments.map String.toList)

/-- The settings that the arguments select, of which `content` is what reading the configuration file
gave. They are checked once more after the options have replaced some. -/
def Arguments.settings (a : Arguments) (content : String → Except FileError Bytes) :
    Except SettingsError Settings := do
  let base ← match a.config with
    | some path => Settings.ofFile path (content path)
    | none => .ok {}
  let s : Settings := { base with
    host := a.host.getD base.host
    port := a.port.getD base.port
    threads := a.threads.or base.threads
    documentRoot := a.root.getD base.documentRoot }
  s.validate
  .ok s

inductive Start
  /-- The arguments break a rule. -/
  | misused
  | help
  | version
  /-- The settings cannot be used. -/
  | refused (error : SettingsError)
  /-- The settings can be served. -/
  | ready (settings : Settings) (address : Address)

/-- What the program does with its arguments, of which `content` is what reading the configuration
file gave. -/
def start (arguments : List String) (content : String → Except FileError Bytes) : Start :=
  match read? arguments with
  | none => .misused
  | some .help => .help
  | some .version => .version
  | some (.run a) =>
    match (do let s ← a.settings content; .ok (s, ← s.prepare)) with
    | .ok (settings, address) => .ready settings address
    | .error e => .refused e

def versionText : String := "ember 0.1.0\n"

def helpText : String :=
  String.join <| List.map (· ++ "\n")
    ["Template and static file web server",
      "",
      "Usage: ember [OPTIONS]",
      "",
      "Options:",
      "  -c, --config <CONFIG>    TOML configuration file; flags below override its values",
      "      --host <HOST>        ",
      "  -p, --port <PORT>        ",
      "  -t, --threads <THREADS>  Worker threads serving connections",
      "  -r, --root <ROOT>        Document root for files and templates",
      "  -h, --help               Print help",
      "  -V, --version            Print version"]

def refusalText (error : SettingsError) : String :=
  "Error: Config(" ++ Text.quoted error.reason ++ ")\n"

end PageServer.CommandLine

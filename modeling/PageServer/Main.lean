import PageServer.CommandLine
import PageServer.Site.Connection
import PageServer.Site.Standard

/-! # The program

The program checks its arguments and its configuration, and then serves one connection: the request
arrives on standard input and the response leaves on standard output, so that whatever accepts
connections on the listen address can hand each of them over.

Files are read when a request needs them. Serving is a function of the files, so a request that failed
for a file that exists is simply served again with that file.
-/

namespace PageServer

open CommandLine

/-- Why the system refused to read a file. -/
def FileError.ofIO : IO.Error → FileError
  | .permissionDenied .. => .denied
  | .inappropriateType _ 21 _ => .isADirectory
  | .inappropriateType .. => .notADirectory
  | .invalidArgument _ 36 _ => .nameTooLong
  | _ => .notFound

def readFile (path : String) : IO (Except FileError Bytes) := do
  if path.toList.contains '\x00' then pure (.error .unexpectedNul)
  else
    try
      let content ← IO.FS.readBinFile path
      pure (.ok content.toList)
    catch e => pure (.error (.ofIO e))

/-- Everything that arrives on a stream. -/
partial def readAll (input : IO.FS.Stream) (seen : ByteArray) : IO ByteArray := do
  let portion ← input.read 4096
  if portion.isEmpty then pure seen else readAll input (seen ++ portion)

def missingPath? : Except (Halt ServerError) Unit → Option String
  | .error (.failed (.notFound path)) => some path
  | .error (.failed (.script (.response (.notFound path)))) => some path
  | _ => none

/-- Adds the file that a request path leads to below a document root, if it exists. -/
def fetch? (root indexFile : String) (files : FileTree) (path : String) : IO (Option FileTree) := do
  let relative := String.ofList (path.toList.dropWhile (· == '/'))
  for name in [relative, Path.join relative indexFile] do
    if !files.isFile name then
      if let .ok content ← readFile (Path.join root name) then
        return some (files.addPath name content)
  return none

/-- An id with one letter for each byte. -/
def letterId (bytes : ByteArray) : String :=
  String.ofList (bytes.toList.map fun byte => idLetter byte.toNat)

/-- Serves a request with the files that it turns out to need. A new session has the given id. -/
partial def serveWith (settings : Settings) (id : String) (files : FileTree) (request : Bytes) :
    IO Served := do
  let site := Site.standard { settings with documentRoot := "." } files
  let sessions : SessionRegistry := { timeout := settings.sessionMilliseconds, draw := fun _ => id }
  let served := site.serve sessions 0 [.bytes request] {}
  match missingPath? served.result with
  | none => pure served
  | some path =>
    match ← fetch? settings.documentRoot settings.indexFile files path with
    | some files => serveWith settings id files request
    | none => pure served

/-- Runs the program with its arguments. The result is its exit code. -/
def runProgram (arguments : List String) : IO UInt32 := do
  let content ← match read? arguments with
    | some (.run { config := some path, .. }) => readFile path
    | _ => pure (.error .notFound)
  match start arguments fun _ => content with
  | .misused => pure 2
  | .help =>
    IO.print helpText
    pure 0
  | .version =>
    IO.print versionText
    pure 0
  | .refused error =>
    IO.eprint (refusalText error)
    pure 1
  | .ready settings _ =>
    let request ← readAll (← IO.getStdin) .empty
    let id := letterId (← IO.getRandomBytes 32)
    let served ← serveWith settings id .empty request.toList
    let output ← IO.getStdout
    output.write ⟨served.sink.stored⟩
    output.flush
    pure 0

end PageServer

def main (arguments : List String) : IO UInt32 :=
  PageServer.runProgram arguments

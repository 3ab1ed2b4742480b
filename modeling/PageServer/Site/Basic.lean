import PageServer.Config.Settings
import PageServer.Handler.Basic

/-! # Sites

A site is everything that requests can reach: handlers by exact path, handlers by name below the
worker prefix, and the files below the document root. A path is brought to one spelling and then
resolved to a target: paths below the private prefix are hidden from clients, a handler of the exact
path comes first, then a worker, and then a file, which is a template if it has the extension of
templates.
-/

namespace PageServer

/-- What a path leads to. -/
inductive Target
  | handler (handler : Handler)
  /-- The path of a template. -/
  | template (file : String)
  /-- The path of a file that is sent as it is, and its media type. -/
  | file (file mediaType : String)

/-- Everything that requests can reach. -/
structure Site where
  settings : Settings := {}
  /-- The handlers of exact paths. -/
  routes : HandlerTable := ∅
  /-- The handlers below the worker prefix. -/
  workers : HandlerTable := ∅
  files : FileTree := .empty
  /-- Reads the source of a template. -/
  parse : String → Except ScriptError Template.Document := Template.parse

namespace Site

def route (site : Site) (path : String) (handler : Handler) : Site :=
  { site with routes := site.routes.insert path handler }

def worker (site : Site) (name : String) (handler : Handler) : Site :=
  { site with workers := site.workers.insert name handler }

/-- The spelling of names as a request path. -/
def spell (names : List (List Char)) (slash : Bool) : String :=
  String.ofList (names.flatMap ('/' :: ·) ++ if names = [] ∨ slash then ['/'] else [])

/-- The one spelling of a request path. A path that leads to a directory above is not found. -/
def normalize (path : String) : Except ServerError String :=
  if (Path.segments path).contains ['.', '.'] then .error (.notFound path)
  else .ok (spell (Path.names path) (Path.endsWithSlash path))

def trimSlashes (path : List Char) : List Char :=
  (path.reverse.dropWhile (· == '/')).reverse

/-- Whether a path lies below the private prefix, or is that directory itself. -/
def isPrivate (site : Site) (path : String) : Bool :=
  let hidden := site.settings.privatePrefix.toList
  hidden.isPrefixOf path.toList || path.toList == trimSlashes hidden

/-- The name of a worker in a path below the worker prefix. -/
def workerName? (site : Site) (path : String) : Option String :=
  let start := site.settings.workerPrefix.toList
  if start.isPrefixOf path.toList then some (String.ofList (path.toList.drop start.length)) else none

/-- The file that a path leads to. The one of a directory is its index file. -/
def locate (site : Site) (path : String) : Except ServerError String :=
  let relative := String.ofList (path.toList.dropWhile (· == '/'))
  if (Path.components relative).all (· matches .name _) then
    let place := Path.join site.settings.documentRoot relative
    let file :=
      if site.files.isDirectory place then Path.join place site.settings.indexFile else place
    if site.files.isFile file then .ok file else .error (.notFound path)
  else .error (.notFound path)

def fileTarget (site : Site) (file : String) : Target :=
  if Path.extension? file = some site.settings.scriptExtension then .template file
  else .file file (Path.mediaType site.settings.mediaTypes file site.settings.defaultMediaType)

/-- The target of a path in its one spelling. -/
def target (site : Site) (path : String) : Except ServerError Target :=
  match site.routes[path]? with
  | some handler => .ok (.handler handler)
  | none =>
    match site.workerName? path with
    | some name =>
      match site.workers[name]? with
      | some handler => .ok (.handler handler)
      | none => .error (.notFound path)
    | none => (site.locate path).map site.fileTarget

/-- The target of a path. It is direct if it comes from a client. -/
def resolve (site : Site) (path : String) (direct : Bool) : Except ServerError Target := do
  let path ← normalize path
  if direct && site.isPrivate path then .error (.notFound path) else site.target path

end Site

end PageServer

import PageServer.Site.Basic

/-! # Running what a path leads to

A path is dispatched by running its target on an exchange. Handlers and templates can include other
paths, which are dispatched inside the same exchange. An include is refused when too many others are
running, which bounds a site that includes itself.
-/

namespace PageServer.Site

/-- The number of includes that can run inside one another. -/
def maxIncludeDepth : Nat := 16

/-- The number of includes that can be nested if handlers declare that some of them are over. -/
def includeLevels : Nat := 20000

def runTemplate (site : Site) (includePath : Include) (file : String) : Run Unit :=
  match (site.files.read file).toOption.bind Text.decode? with
  | none => throw (.failed (.notFound file))
  | some source =>
    match site.parse source with
    | .error e => throw (.failed (.script e))
    | .ok document => Template.run { include? := some includePath } document

/-- Sends a file. Only a file that a client asked for sets the media type and the length: an included
one joins the response that includes it. -/
def sendFile (site : Site) (direct : Bool) (file mediaType : String) : Run Unit :=
  match site.files.read file with
  | .error _ => throw (.failed (.notFound file))
  | .ok bytes => Exchange.Step.run do
    if direct && !(← get).headerSent then
      Exchange.setMediaType mediaType
      Exchange.setContentLength (some bytes.length)
    Exchange.write bytes

/-- Runs a target, of which `includePath` runs the includes. -/
def runTarget (site : Site) (includePath : Include) (direct : Bool) : Target → Run Unit
  | .handler handler => handler.run (some includePath)
  | .template file => site.runTemplate includePath file
  | .file file mediaType => site.sendFile direct file mediaType

/-- Runs what a path leads to, of which `includePath` runs the includes. -/
def dispatchWith (site : Site) (includePath : Include) (path : String) (direct : Bool) : Run Unit :=
  match site.resolve path direct with
  | .error e => throw (.failed e)
  | .ok target => site.runTarget includePath direct target

/-- Work that counts as an include while it runs. -/
def asInclude (work : Run Unit) : Run Unit := fun x =>
  match work x.enterInclude with
  | .ok _ x => .ok () x.leaveInclude
  | .error halt x => .error halt x.leaveInclude

def tooDeep (path : String) : ServerError :=
  .script (.unsupported s!"include depth exceeded at '{path}'")

/-- Includes a path, at most `levels` inside one another. -/
def runInclude (site : Site) : Nat → Include
  | 0 => fun _ => throw .unfinished
  | levels + 1 => fun path x =>
    if maxIncludeDepth ≤ x.depth then .error (.failed (tooDeep path)) x
    else asInclude (site.dispatchWith (site.runInclude levels) path false) x

/-- Runs what a path leads to. It is direct if it comes from a client. -/
def dispatch (site : Site) (path : String) (direct : Bool) : Run Unit :=
  site.dispatchWith (site.runInclude includeLevels) path direct

end PageServer.Site

import PageServer.Http.Cookie
import PageServer.Text.Bytes

/-! # Response heads

What a response says before its body, and the block of lines that says it.
-/

namespace PageServer.Http

def reasonPhrase : Nat → String
  | 200 => "OK"
  | 201 => "Created"
  | 204 => "No Content"
  | 301 => "Moved Permanently"
  | 302 => "Found"
  | 304 => "Not Modified"
  | 400 => "Bad request"
  | 403 => "Forbidden"
  | 404 => "Not Found"
  | 405 => "Method Not Allowed"
  | 500 => "Internal Server Error"
  | 501 => "Not Implemented"
  | 503 => "Service Unavailable"
  | _ => "Unknown"

/-- The reply to a head that cannot be used at all. -/
def badRequest : String :=
  "HTTP/1.1 400 Bad request\r\nContent-Length: 0\r\nConnection: close\r\n\r\n"

structure ResponseHead where
  status : Nat := 200
  reason : String := reasonPhrase 200
  mediaType : String
  encoding : String
  contentLength : Option Nat := none
  cookies : List Cookie := []
deriving DecidableEq, Repr

namespace ResponseHead

/-- The media type. A type of text names its encoding. -/
def contentType (head : ResponseHead) : String :=
  if "text/".toList.isPrefixOf head.mediaType.toList then
    head.mediaType ++ ";charset=" ++ head.encoding
  else head.mediaType

/-- The lines of the block, without the blank line that ends it. -/
def lines (head : ResponseHead) : List String :=
  [s!"HTTP/1.1 {head.status} {head.reason}", "Content-Type: " ++ head.contentType] ++
    (head.contentLength.map fun n => s!"Content-Length: {n}").toList ++
    head.cookies.map fun c => "Set-Cookie: " ++ c.render

/-- The whole block, each line with its end. -/
def render (head : ResponseHead) : String :=
  String.join (head.lines.map (· ++ "\r\n")) ++ "\r\n"

end ResponseHead

end PageServer.Http

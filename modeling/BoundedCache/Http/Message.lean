import BoundedCache.Json.Text
import BoundedCache.Text.Utf8

namespace BoundedCache.Http

/-!
# Requests and responses

`Request` and `Response` are what the service takes and gives.  The target of a request is reduced
to its path by `pathOfTarget`.  Of a response that refuses a request before any handler sees it the
status matters and not the wording, so its body is only known to be a notice in plain text.
-/

/-- A request. -/
structure Request where
  method : String
  /-- The path of the target, still percent-encoded. -/
  path : String
  headers : List (String × String) := []
  body : Bytes := []

/-- The body of a response. -/
inductive Body
  | empty
  /-- A JSON text. -/
  | json (text : String)
  /-- A notice in plain text. -/
  | notice
  deriving DecidableEq, Repr

/-- A response. -/
structure Response where
  status : Nat
  headers : List (String × String) := []
  body : Body := .empty
  deriving DecidableEq, Repr

/-! ### Requests -/

/-- A text with ASCII capitals made small. -/
def lowerAscii (s : String) : String := String.ofList (s.toList.map Char.toLower)

/-- The first header of a name, for which case does not matter. -/
def Request.header? (request : Request) (name : String) : Option String :=
  (request.headers.find? fun header => lowerAscii header.1 == lowerAscii name).map Prod.snd

/-- The characters behind the first occurrence of a separator. -/
def after? (separator : List Char) : List Char → Option (List Char)
  | [] => if separator.isEmpty then some [] else none
  | c :: rest =>
    if separator.isPrefixOf (c :: rest) then some ((c :: rest).drop separator.length)
    else after? separator rest

/-- The path of a request target: without scheme and host, query and fragment. -/
def pathOfTarget (target : String) : String :=
  let text := target.toList
  let pathOn :=
    if text.head? = some '/' then text
    else
      match after? [':', '/', '/'] text with
      | some rest =>
        match rest.dropWhile fun c => c != '/' && c != '?' && c != '#' with
        | '/' :: path => '/' :: path
        | _ => ['/']
      | none => text
  String.ofList (pathOn.takeWhile fun c => c != '?' && c != '#')

/-! ### Responses -/

/-- The header that names the kind of a body. -/
def contentType : String := "content-type"

/-- A response that carries a JSON value. -/
def Response.ofValue (status : Nat) (value : Json.Value) : Response :=
  { status, headers := [(contentType, "application/json")], body := .json value.render }

/-- A response that refuses a request with a notice. -/
def Response.refusal (status : Nat) : Response :=
  { status, headers := [(contentType, "text/plain; charset=utf-8")], body := .notice }

end BoundedCache.Http

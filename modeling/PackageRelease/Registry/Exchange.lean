import PackageRelease.Json.Printer
import PackageRelease.Registry.Status
import PackageRelease.Url.Basic

/-! # Requests and answers

  A request goes to a registry, and an answer may come back or not. The headers of a request are
  kept in the order in which they are sent.
-/

namespace PackageRelease

/-- What a request asks for. -/
inductive Method where
  /-- To hand out what is there. -/
  | get
  /-- To store what is sent. -/
  | put
  deriving DecidableEq, Repr

namespace Method

/-- The word for a method. -/
def name : Method → String
  | .get => "GET"
  | .put => "PUT"

end Method

/-- A request to a registry. -/
structure Request where
  /-- What is asked for. -/
  method : Method
  /-- The address, without user name and password. -/
  url : Url
  /-- Names and values of the headers. -/
  headers : List (String × String)
  /-- The document that is sent along. -/
  body? : Option Json
  deriving DecidableEq

namespace Request

/-- The first value of a header. -/
def header? (request : Request) (name : String) : Option String := request.headers.lookup name

end Request

/-- An answer of a registry, as the HTTP client hands it out. The client follows redirections by
    itself, so this is the answer at the end of them. -/
structure Answer where
  /-- Whether and why the request succeeded. -/
  status : Status
  /-- The body: nothing if the connection was lost before the whole of it had come. -/
  body? : Option String
  deriving DecidableEq, Repr

namespace Answer

/-- The body as a text. One that did not come whole counts as empty. -/
def text (answer : Answer) : String := answer.body?.getD ""

end Answer

/-- A request that was handed to the HTTP client, and what came back: nothing if the connection
    failed. -/
structure Attempt where
  /-- What was sent. -/
  request : Request
  /-- What came back. -/
  answer? : Option Answer
  deriving DecidableEq

end PackageRelease

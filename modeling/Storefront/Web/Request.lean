import Storefront.Sheet.Records
import Storefront.Web.UrlText

/-!
# Requests

A request names a method and an address, and may carry headers and a body. The address is a path
with a query behind a question mark.

* `Request`, `Request.ofAddress`: requests
* `Request.parameter?`, `Request.parameters`: the values of a query
* `Request.content`: what the body holds
-/

namespace Storefront

/-- A request to the service. -/
structure Request where
  method : String
  path : String
  query : List (String × String)
  headers : List (String × String)
  body : String

namespace Request

/-- The part of an address without what follows a number sign. -/
def withoutFragment (address : List Char) : List Char := address.takeWhile (· != '#')

/-- The request with a method to an address. -/
def ofAddress (method address : String) (headers : List (String × String)) (body : String) :
    Request :=
  let target := withoutFragment address.toList
  { method := method.map Char.toUpper
    path := UrlText.percentDecoded (target.takeWhile (· != '?'))
    query := UrlText.queryPairs ((target.dropWhile (· != '?')).drop 1)
    headers
    body }

/-- The header with a name, in any case. -/
def header? (r : Request) (name : String) : Option String :=
  (r.headers.find? fun field => field.1.map Char.toLower = name).map Prod.snd

/-- The last value of a query's parameter. -/
def parameter? (r : Request) (name : String) : Option String :=
  (r.query.filter (·.1 = name)).getLast?.map Prod.snd

/-- All values of a query's parameter. -/
def parameters (r : Request) (name : String) : List String :=
  (r.query.filter (·.1 = name)).map Prod.snd

/-! ## Bodies -/

/-- What the body of a request holds. -/
inductive Content where
  /-- There is no body. -/
  | nothing
  /-- The body is a value. -/
  | value (v : Value)
  /-- The body is of another kind. -/
  | other
  /-- The body should be a value and cannot be read. -/
  | unreadable (fault : JsonFault)

/-- The kind of a body, without the parameters that may follow it. -/
def mediaType (header : String) : List Char :=
  (trimWhile isBlank (header.toList.takeWhile (· != ';'))).map Char.toLower

/-- The kind of a body that is read as a value: JSON, or a kind that is written in JSON. -/
def isJsonType (header : String) : Bool :=
  match splitBy (· == '/') (mediaType header) with
  | [main, sub] =>
    main == "application".toList && (sub == "json".toList || "+json".toList.isSuffixOf sub)
  | _ => false

/-- What the body of a request holds; a byte order mark at its start does not count. -/
def content (r : Request) : Content :=
  if r.body.isEmpty then .nothing
  else if isJsonType ((r.header? "content-type").getD "") then
    match Value.read (String.ofList (Sheet.dropByteOrderMark r.body.toList)) with
    | .ok .null => .nothing
    | .ok v => .value v
    | .error fault => .unreadable fault
  else .other

end Request

end Storefront

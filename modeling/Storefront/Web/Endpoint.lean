import Storefront.Text.Split

/-!
# Endpoints

The service answers at a fixed set of paths, each for one method. A path that differs from one of
them only by slashes at its end is redirected to it.

* `Endpoint`, `Endpoint.ofPath?`: the endpoints and their paths
* `Route`, `route`: where a request goes
-/

namespace Storefront

/-- What the service answers. Ids are texts, which are read later. -/
inductive Endpoint where
  | ping
  | status
  | metrics
  | suggested
  | related (product : String)
  | ruleOptions
  | syncAll
  | sync (collection : String)
  | listing (collection : String)
  | order (collection : String)
  | statistics (collection : String)
deriving DecidableEq

namespace Endpoint

/-- The method of an endpoint. -/
def method : Endpoint → String
  | .syncAll | .sync _ => "POST"
  | .order _ => "PUT"
  | _ => "GET"

/-- The endpoint at the names of a path. -/
def ofNames? : List String → Option Endpoint
  | ["ping"] => some .ping
  | ["status"] => some .status
  | ["metrics"] => some .metrics
  | ["products", "suggested"] => some .suggested
  | ["collections", "rule-options"] => some .ruleOptions
  | ["collections", "sync"] => some .syncAll
  | ["products", id, "related"] => if id.isEmpty then none else some (.related id)
  | ["collections", id, action] =>
    if id.isEmpty then none
    else if action = "sync" then some (.sync id)
    else if action = "products" then some (.listing id)
    else if action = "order" then some (.order id)
    else if action = "stats" then some (.statistics id)
    else none
  | _ => none

/-- The endpoint at a path. -/
def ofPath? (path : String) : Option Endpoint :=
  match (splitBy (· == '/') path.toList).map String.ofList with
  | "" :: names => ofNames? names
  | _ => none

end Endpoint

/-- Where a request goes. -/
inductive Route where
  | endpoint (e : Endpoint)
  /-- The path is known, and answers to another method. -/
  | wrongMethod
  /-- The path is known with fewer slashes at its end. -/
  | redirect (path : String)
  | unknown

/-- A path without the slashes at its end. -/
def withoutEndSlashes (path : String) : String :=
  String.ofList (path.toList.reverse.dropWhile (· == '/')).reverse

/-- Where a request with a method to a path goes. -/
def route (method path : String) : Route :=
  match Endpoint.ofPath? path with
  | some e => if e.method = method then .endpoint e else .wrongMethod
  | none =>
    let shorter := withoutEndSlashes path
    if (Endpoint.ofPath? shorter).isSome then .redirect shorter else .unknown

end Storefront

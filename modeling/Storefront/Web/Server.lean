import Storefront.Catalog.Directory
import Storefront.Engine
import Storefront.Service.Metrics
import Storefront.Web.Endpoint
import Storefront.Web.Request
import Storefront.Web.Response

/-!
# The server

The server answers requests from one catalog, which it loads when it is first needed. A request's
parameters are read after the catalog is there, those of the path first, then those of the query,
then the body, and all that are refused are reported.

* `Server`: the catalog, once loaded, and the metrics
* `Server.run`: what an endpoint does
* `Server.handle`: the response to a request
-/

namespace Storefront

/-- The state of the service. -/
structure Server where
  directory : Directory
  store : Option Store := none
  metrics : Metrics := .none

/-! ## Parameters -/

namespace Request

/-- The greatest number of products that a request may ask for. -/
def maxLimit : Int := 100

/-- A whole number within bounds. -/
def wholeWithin (low : Int) (high : Option Int) (s : String) : Except Refusal Int := do
  let n ← Intake.wholeOfText s
  if n < low then throw .tooSmall
  if high.any (· < n) then throw .tooLarge
  return n

/-- An id in the path. -/
def pathId (name id : String) : Checked Int := .ofField ["path", name] (Intake.wholeOfText id)

/-- A whole number in the query. -/
def queryWhole (r : Request) (name : String) (default low : Int) (high : Option Int) :
    Checked Int :=
  match r.parameter? name with
  | some s => .ofField ["query", name] (wholeWithin low high s)
  | none => .accepted default

/-- The number of products asked for. -/
def queryLimit (r : Request) (default : Int) : Checked Int :=
  r.queryWhole "limit" default 1 (some maxLimit)

/-- A flag in the query. -/
def queryFlag (r : Request) (name : String) : Checked Bool :=
  match r.parameter? name with
  | some s => .ofField ["query", name] (Intake.flagOfText s)
  | none => .accepted false

/-- The whole numbers of a list; the refused ones are named by their places. -/
def checkedItems (path : List String) : Nat → List Value → Checked (List Int)
  | _, [] => .accepted []
  | place, v :: vs =>
    (· :: ·) <$> .ofField (path ++ [intText place]) (Intake.whole v)
      <*> checkedItems path (place + 1) vs

/-- The list of ids that the body holds. -/
def bodyIds (r : Request) : Checked (List Int) :=
  let refuse (path : List String) (refusal : Refusal) := .refused [⟨path, refusal⟩]
  match r.content with
  | .value (.object fields) =>
    match fields.lookup "product_ids" with
    | some (.list items) => checkedItems ["body", "product_ids"] 0 items
    | some _ => refuse ["body", "product_ids"] .notList
    | none => refuse ["body", "product_ids"] .missing
  | .nothing => refuse ["body"] .missing
  | .value _ | .other | .unreadable _ => refuse ["body"] .notRecord

/-- Why the body cannot be read at all, if that is so. -/
def bodyFault? (r : Request) : Option Outcome :=
  match r.content with
  | .unreadable (.malformed position) =>
    some (.refused [⟨["body", intText position], .notJson⟩])
  | .unreadable .wholeTooLong => some (.rejected 400 "There was an error parsing the body")
  | _ => none

end Request

/-! ## Bodies -/

/-- A number in a body; one that has no digits is null. -/
def wireNumber (x : Binary64) : Value := if x.isFinite then .float x else .null

/-- A product in a body. -/
def Product.wireValue (p : Product) : Value :=
  .object ((p.toFields Moment.wireText).map fun field =>
    match field with
    | (name, .float x) => (name, wireNumber x)
    | field => field)

/-- Products in a body. -/
def productsBody (products : List Product) : Value := .list (products.map Product.wireValue)

/-- Scores and reasons in a body, by product. -/
def scoresBody (candidates : List Candidate) : Value :=
  .object (candidates.map fun c => (intText c.product.id,
    .object [("relevance_score", wireNumber c.shownScore),
      ("match_reasons", .list (c.reasons.map .text))]))

/-- Values that all have to be texts. -/
def textsBody (values : List Value) : Except Failure Value :=
  if values.all fun
    | .text _ => true
    | _ => false
  then .ok (.list values)
  else .error (.outside "ResponseValidationError" "")

namespace Server

/-! ## Endpoints -/

/-- Goes on with the store, which is loaded if it is not there yet. -/
def withStore (s : Server) (go : Server → Store → Server × Outcome) : Server × Outcome :=
  match s.store with
  | some store => go s store
  | none =>
    match s.directory.load with
    | .ok store => go { s with store := some store } store
    | .error f => (s, .failed f)

/-- Goes on with parameters, unless some are refused. -/
def withParameters {α : Type} (s : Server) (parameters : Checked α)
    (go : α → Server × Outcome) : Server × Outcome :=
  match parameters with
  | .accepted a => go a
  | .refused faults => (s, .refused faults)

/-- Answers with what is read from the store. -/
def answerRead (s : Server) (body : Except Failure Value) : Server × Outcome :=
  match body with
  | .ok v => (s, .answered v)
  | .error f => (s, .failed f)

/-- Answers with what is read from the store, and counts the request. -/
def answerCounted (s : Server) (operation : String) (ms : Number) (body : Except Failure Value) :
    Server × Outcome :=
  match body with
  | .ok v => ({ s with metrics := s.metrics.recordRequest operation ms }, .answered v)
  | .error f => (s, .failed f)

/-- Answers for a sync, and counts it. Only a failure to sync counts as a failed one. -/
def answerSync (s : Server) (store : Store) (outcome : Except Failure Nat)
    (body : Nat → Value) : Server × Outcome :=
  let s := { s with store := some store }
  match outcome with
  | .ok n => ({ s with metrics := s.metrics.recordSync n }, .answered (body n))
  | .error (.syncFailed ids cause) =>
    ({ s with metrics := s.metrics.recordFailedSync }, .failed (.syncFailed ids cause))
  | .error f => (s, .failed f)

/-- The state of the server; asking for it loads nothing. -/
def status (s : Server) : Value :=
  .object [("catalog_loaded", .bool s.store.isSome),
    ("timestamp_last_loaded", .bool s.store.isSome),
    ("num_products", .int ((s.store.map Store.productCount).getD 0)),
    ("num_collections", .int ((s.store.map Store.collectionCount).getD 0))]

/-- Suggested products. -/
def suggested (s : Server) (faults : Faults) (ms : Number) (r : Request) : Server × Outcome :=
  s.withStore fun s store =>
  s.withParameters (r.queryLimit 12) fun limit =>
  let plan := ((r.parameter? "strategy").map fun name => Plan.ofValue (.text name)).getD .mixed
  s.answerCounted "suggested" ms do
    let products ← store.suggested faults (.int limit) plan
    return .object [("strategy", .text plan.name), ("products", productsBody products)]

/-- The signals that a request names, if it names any. -/
def signalOptions (names : List String) : Value :=
  if names.isEmpty then .null else .object [("signals", .list (names.map .text))]

/-- Products related to a product, with their scores if these are asked for. -/
def related (s : Server) (faults : Faults) (ms : Number) (r : Request) (product : String) :
    Server × Outcome :=
  s.withStore fun s store =>
  s.withParameters ((fun id limit explain => (id, limit, explain))
    <$> Request.pathId "product_id" product <*> r.queryLimit 12 <*> r.queryFlag "explain")
    fun (id, limit, explain) =>
  s.answerCounted "related" ms do
    let candidates ← store.related faults (.int id) (.int limit)
      (signalOptions (r.parameters "signals"))
    return .object [("product_id", .int id),
      ("products", productsBody (candidates.map (·.product))),
      ("scores", if explain then scoresBody candidates else .null)]

/-- The values that rules can name. -/
def ruleOptions (s : Server) : Server × Outcome :=
  s.withStore fun s store =>
  s.answerRead do
    let options ← store.ruleOptions
    return .object [("product_types", ← textsBody options.productTypes),
      ("vendors", ← textsBody options.vendors)]

/-- Syncs every smart collection, each under its own faults. -/
def syncAll (s : Server) (faults : Int → Faults) : Server × Outcome :=
  s.withStore fun s store =>
  let (store, outcome) := store.syncAll faults
  s.answerSync store outcome fun n => .object [("members_written", .int n)]

/-- Syncs one collection. -/
def sync (s : Server) (faults : Faults) (collection : String) : Server × Outcome :=
  s.withStore fun s store =>
  s.withParameters (Request.pathId "collection_id" collection) fun id =>
  let body (n : Nat) : Value := .object [("collection_id", .int id), ("member_count", .int n)]
  let (store, outcome) := store.syncById faults (.int id)
  s.answerSync store outcome body

/-- One page of a collection. -/
def listing (s : Server) (r : Request) (collection : String) : Server × Outcome :=
  s.withStore fun s store =>
  s.withParameters ((fun id page limit => (id, page, limit))
    <$> Request.pathId "collection_id" collection <*> r.queryWhole "page" 1 1 none
    <*> r.queryLimit 50) fun (id, page, limit) =>
  s.answerRead do
    let products ← store.page (.int id) (.int page) (.int limit)
    return .object [("collection_id", .int id), ("page", .int page),
      ("products", productsBody products)]

/-- Puts members of a collection in order. -/
def order (s : Server) (faults : Faults) (r : Request) (collection : String) :
    Server × Outcome :=
  match r.bodyFault? with
  | some outcome => (s, outcome)
  | none =>
    s.withStore fun s store =>
    s.withParameters ((fun id ids => (id, ids))
      <$> Request.pathId "collection_id" collection <*> r.bodyIds) fun (id, ids) =>
    let (store, outcome) := store.reorder faults (.int id) (.list (ids.map .int))
    { s with store := some store }.answerRead do
      return .object [("reordered", .bool (← outcome))]

/-- What is known about a collection. -/
def statistics (s : Server) (collection : String) : Server × Outcome :=
  s.withStore fun s store =>
  s.withParameters (Request.pathId "collection_id" collection) fun id =>
  s.answerRead do
    let known ← store.statistics (.int id)
    return .object [("collection_id", .int known.collectionId),
      ("product_count", .int known.productCount), ("is_smart", .bool known.isSmart)]

/-- What an endpoint does with a request that took so many milliseconds. -/
def run (s : Server) (faults : Faults) (ms : Number) (r : Request) : Endpoint → Server × Outcome
  | .ping => (s, .answered (.object [("status", .text "ok")]))
  | .status => (s, .answered s.status)
  | .metrics => (s, .answered (.object s.metrics.toFields))
  | .suggested => s.suggested faults ms r
  | .related product => s.related faults ms r product
  | .ruleOptions => s.ruleOptions
  | .syncAll => s.syncAll fun _ => faults
  | .sync collection => s.sync faults collection
  | .listing collection => s.listing r collection
  | .order collection => s.order faults r collection
  | .statistics collection => s.statistics collection

/-! ## Requests -/

/-- What becomes of a request on its route. -/
def follow (s : Server) (faults : Faults) (ms : Number) (r : Request) : Route → Server × Outcome
  | .endpoint e => s.run faults ms r e
  | .wrongMethod | .redirect _ => (s, .rejected 405 "Method Not Allowed")
  | .unknown => (s, .rejected 404 "Not Found")

/-- The response at a path. -/
def respondAt (s : Server) (faults : Faults) (ms : Number) (r : Request) (path : String) :
    Server × Response :=
  let (s, outcome) := s.follow faults ms r (route r.method path)
  let requestId := (r.header? "x-request-id").filter (!·.isEmpty)
  (s, .ofOutcome r.method path requestId outcome)

/-- The response to a request. A redirect is followed once, and logged as well; a request for the
head alone is answered without a body. -/
def handle (s : Server) (faults : Faults) (ms : Number) (r : Request) : Server × Response :=
  let (s, response) := match route r.method r.path with
    | .redirect path =>
      let (s, response) := s.respondAt faults ms r path
      (s, { response with log := LogEntry.ofStatus r.method r.path 307 :: response.log })
    | _ => s.respondAt faults ms r r.path
  (s, if r.method = "HEAD" then { response with body := .text "" } else response)

end Server

end Storefront

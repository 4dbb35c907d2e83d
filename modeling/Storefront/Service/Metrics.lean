import Storefront.Json.Comparison

/-!
# Metrics

Counts of requests with their latencies, and counts of syncs with the members they wrote.

* `Latency`: count, average and extremes of the latencies of one operation
* `Metrics`: all counts
* `Metrics.recordRequest`, `Metrics.recordSync`: the events that are counted
-/

namespace Storefront

/-! ## Numbers -/

namespace Number

/-- A number as a double. -/
def toDouble : Number → Binary64
  | .whole n => .ofInt n
  | .double x => x

/-- A number rounded to two decimal places; a whole number is one already. -/
def rounded : Number → Number
  | .whole n => .whole n
  | .double x => .double (x.roundTo 2)

/-- A number as a value. -/
def toValue : Number → Value
  | .whole n => .int n
  | .double x => .float x

end Number

/-! ## Latencies -/

/-- What is known about the latencies of an operation, in milliseconds. -/
structure Latency where
  count : Nat
  total : Binary64
  least : Number
  greatest : Number

namespace Latency

/-- No latency is known. -/
def none : Latency := ⟨0, .zero, .double .infinity, .double .zero⟩

/-- Adds a latency. The least and the greatest change only for a strictly better one. -/
def add (l : Latency) (ms : Number) : Latency where
  count := l.count + 1
  total := l.total.add ms.toDouble
  least := if ms.order? l.least = some .lt then ms else l.least
  greatest := if ms.order? l.greatest = some .gt then ms else l.greatest

/-- The average of the latencies; zero when there is none. -/
def average (l : Latency) : Number :=
  .double (if l.count = 0 then .zero else l.total.div (.ofNat l.count))

/-- The figures of an operation, rounded to two places. -/
def toFields (l : Latency) : Fields :=
  [("count", .int l.count), ("average_latency_ms", l.average.rounded.toValue),
    ("min_latency_ms", (if l.count = 0 then .float .zero else l.least.rounded.toValue)),
    ("max_latency_ms", l.greatest.rounded.toValue)]

end Latency

/-! ## All metrics -/

/-- The latencies of each operation by its name, and the counts of syncs. -/
structure Metrics where
  requests : List (String × Latency) := []
  syncsSucceeded : Nat := 0
  syncsFailed : Nat := 0
  membersWritten : Int := 0

namespace Metrics

/-- Nothing has been counted. -/
def none : Metrics := {}

/-- Counts a request for an operation. -/
def recordRequest (m : Metrics) (operation : String) (ms : Number) : Metrics :=
  let known := (m.requests.lookup operation).getD Latency.none
  { m with requests := insertField operation (known.add ms) m.requests }

/-- Counts a sync that succeeded, with the members it wrote. -/
def recordSync (m : Metrics) (members : Int) : Metrics :=
  { m with syncsSucceeded := m.syncsSucceeded + 1, membersWritten := m.membersWritten + members }

/-- Counts a sync that failed. -/
def recordFailedSync (m : Metrics) : Metrics := { m with syncsFailed := m.syncsFailed + 1 }

/-- All counts. -/
def toFields (m : Metrics) : Fields :=
  [("requests", .object (m.requests.map fun entry => (entry.1, .object entry.2.toFields))),
    ("syncs", .object [("succeeded", .int m.syncsSucceeded), ("failed", .int m.syncsFailed),
      ("members_written", .int m.membersWritten)])]

end Metrics

end Storefront

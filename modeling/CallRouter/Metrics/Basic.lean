import CallRouter.Keyed
import CallRouter.Number.Binary64

namespace CallRouter

inductive Metric where
  | callTimeouts
  | connectionsActive
  | connections
  | errors
  | messageDuration
  | messages
  | metaEvents
  | pendingInvocations
  | registrations
  | sessionsActive
  deriving DecidableEq, Repr, Inhabited

namespace Metric

def all : List Metric :=
  [callTimeouts, connectionsActive, connections, errors, messageDuration, messages, metaEvents,
    pendingInvocations, registrations, sessionsActive]

def name : Metric → String
  | callTimeouts => "wampd_call_timeouts_total"
  | connectionsActive => "wampd_connections_active"
  | connections => "wampd_connections_total"
  | errors => "wampd_errors_total"
  | messageDuration => "wampd_message_duration_seconds"
  | messages => "wampd_messages_total"
  | metaEvents => "wampd_meta_events_total"
  | pendingInvocations => "wampd_pending_invocations"
  | registrations => "wampd_registrations"
  | sessionsActive => "wampd_sessions_active"

def help : Metric → String
  | callTimeouts => "Calls ended by the dealer-side timeout"
  | connectionsActive => "Number of currently active connections"
  | connections => "Total number of connections accepted"
  | errors => "Errors sent to peers by URI"
  | messageDuration => "Message handling duration in seconds by type"
  | messages => "Inbound messages by type"
  | metaEvents => "Registration meta events published by topic"
  | pendingInvocations => "Invocations awaiting a callee reply"
  | registrations => "Number of registered procedures"
  | sessionsActive => "Number of established sessions"

inductive Form where
  | counter
  | gauge
  | histogram
  deriving DecidableEq, Repr, Inhabited

def Form.name : Form → String
  | counter => "counter"
  | gauge => "gauge"
  | histogram => "histogram"

def form : Metric → Form
  | callTimeouts | connections | errors | messages | metaEvents => .counter
  | connectionsActive | pendingInvocations | registrations | sessionsActive => .gauge
  | messageDuration => .histogram

def label? : Metric → Option String
  | messages | messageDuration => some "type"
  | errors => some "uri"
  | metaEvents => some "topic"
  | _ => none

end Metric

/-- A sum of binary64 numbers, which stays infinite once it has left their range. -/
inductive Amount where
  | finite (value : Binary64)
  | infinite (negative : Bool)
  deriving DecidableEq, Repr, Inhabited

namespace Amount

def zero : Amount := finite (.zero false)

def plus : Amount → Binary64 → Amount
  | finite total, value =>
    match total.plus value with
    | some sum => finite sum
    | none => infinite total.negative
  | infinite negative, _ => infinite negative

def floor : Amount → Int
  | finite value => value.floor
  | infinite _ => 0

end Amount

structure Histogram where
  buckets : List Nat
  sum : Amount
  count : Nat
  deriving DecidableEq, Repr

namespace Histogram

def bounds : List Binary64 :=
  [(1, 10000), (5, 10000), (1, 1000), (5, 1000), (1, 100), (5, 100), (1, 10), (5, 10)].filterMap
    fun (numerator, denominator) => Binary64.nearest numerator denominator

def empty : Histogram := ⟨bounds.map fun _ => 0, .zero, 0⟩

def observe (histogram : Histogram) (value : Binary64) : Histogram where
  buckets := (bounds.zip histogram.buckets).map fun (bound, count) =>
    if value.atMost bound then count + 1 else count
  sum := histogram.sum.plus value
  count := histogram.count + 1

end Histogram

structure Metrics where
  amounts : Keyed (Metric × String) Amount
  durations : Keyed String Histogram

namespace Metrics

def empty : Metrics := ⟨Keyed.empty, Keyed.empty⟩

instance : Inhabited Metrics := ⟨empty⟩

def amount (metrics : Metrics) (metric : Metric) (label : String) : Amount :=
  (metrics.amounts.find? (metric, label)).getD .zero

def set (metrics : Metrics) (metric : Metric) (label : String) (value : Binary64) : Metrics :=
  { metrics with amounts := metrics.amounts.insert (metric, label) (.finite value) }

def add (metrics : Metrics) (metric : Metric) (label : String) (value : Binary64) : Metrics :=
  let sum := (metrics.amount metric label).plus value
  { metrics with amounts := metrics.amounts.insert (metric, label) sum }

def observe (metrics : Metrics) (label : String) (value : Binary64) : Metrics :=
  { metrics with durations := metrics.durations.adjust label .empty (·.observe value) }

def record (metrics : Metrics) (metric : Metric) (label : String) (value : Binary64) : Metrics :=
  match metric.form with
  | .counter => metrics.add metric label value
  | .gauge => metrics.set metric label value
  | .histogram => metrics.observe label value

/-- A whole number as an amount; those past the range are cut to zero. -/
def whole (n : Int) : Binary64 := (Binary64.ofInt n).getD (.zero false)

def increment (metrics : Metrics) (metric : Metric) (label : String) : Metrics :=
  metrics.add metric label (whole 1)

def decrement (metrics : Metrics) (metric : Metric) (label : String) : Metrics :=
  metrics.add metric label (whole (-1))

end Metrics

end CallRouter

import CallRouter.Keyed

/-!
Call statistics. The counters form a tree: a node is named by the path of labels that leads to it
from the root, and what is recorded on a node counts for all nodes above it too. Calls that found
no procedure are counted by name, up to a number of names.
-/

namespace CallRouter

structure Counters where
  attempted : UInt64 := 0
  invoked : UInt64 := 0
  completed : UInt64 := 0
  errored : UInt64 := 0
  canceled : UInt64 := 0
  durationMicros : UInt64 := 0
  deriving DecidableEq, Repr, Inhabited

/-- What is recorded about a call. A completion comes with the time that the call took. -/
inductive Occurrence where
  | attempt
  | invocation
  | completion (nanoseconds : Nat)
  | failure
  | cancellation
  deriving DecidableEq, Repr

def Counters.count (counters : Counters) : Occurrence → Counters
  | .attempt => { counters with attempted := counters.attempted + 1 }
  | .invocation => { counters with invoked := counters.invoked + 1 }
  | .completion nanoseconds =>
    { counters with
      completed := counters.completed + 1
      durationMicros := counters.durationMicros + UInt64.ofNat (nanoseconds / 1000) }
  | .failure => { counters with errored := counters.errored + 1 }
  | .cancellation => { counters with canceled := counters.canceled + 1 }

structure Statistics where
  nodes : Keyed (List String) Counters
  missed : Keyed String UInt64
  missedLimit : Nat
  overflow : UInt64

namespace Statistics

def empty (missedLimit : Nat) : Statistics :=
  ⟨Keyed.empty.insert [] {}, Keyed.empty, missedLimit, 0⟩

def defaultMissedLimit : Nat := 1024

instance : Inhabited Statistics := ⟨empty defaultMissedLimit⟩

def attach (statistics : Statistics) (path : List String) : Statistics :=
  if statistics.nodes.contains path then statistics
  else { statistics with nodes := statistics.nodes.insert path {} }

/-- Records an occurrence on a node and on all nodes above it. -/
def record (statistics : Statistics) (path : List String) (occurrence : Occurrence) : Statistics :=
  let attached := statistics.attach path
  { attached with
    nodes := attached.nodes.map fun above counters =>
      if above.isPrefixOf path then counters.count occurrence else counters }

def counters? (statistics : Statistics) (path : List String) : Option Counters :=
  statistics.nodes.find? path

def total (statistics : Statistics) : Counters := (statistics.counters? []).getD {}

/-- Counts a call of a missing procedure: on its name while there is room for names. -/
def recordMissed (statistics : Statistics) (name : String) : Statistics :=
  if statistics.missed.contains name || statistics.missed.size < statistics.missedLimit then
    { statistics with missed := statistics.missed.adjust name 0 (· + 1) }
  else { statistics with overflow := statistics.overflow + 1 }

def missedCount (statistics : Statistics) (name : String) : UInt64 :=
  (statistics.missed.find? name).getD 0

end Statistics

end CallRouter

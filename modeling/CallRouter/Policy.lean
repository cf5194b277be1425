namespace CallRouter

structure UnknownOption where
  text : String
  deriving DecidableEq, Repr

def UnknownOption.message (unknown : UnknownOption) : String :=
  "unknown option value '" ++ unknown.text ++ "'"

def named {α : Type} (values : List α) (name : α → String) (text : String) :
    Except UnknownOption α :=
  match values.find? fun value => name value == text with
  | some value => .ok value
  | none => .error ⟨text⟩

inductive MatchPolicy where
  | exact
  | byPrefix
  | wildcard
  deriving DecidableEq, Repr, Inhabited

namespace MatchPolicy

def all : List MatchPolicy := [exact, byPrefix, wildcard]

def name : MatchPolicy → String
  | exact => "exact"
  | byPrefix => "prefix"
  | wildcard => "wildcard"

def ofName (text : String) : Except UnknownOption MatchPolicy := named all name text

end MatchPolicy

inductive InvocationPolicy where
  | single
  | roundRobin
  | random
  | first
  | last
  deriving DecidableEq, Repr, Inhabited

namespace InvocationPolicy

def all : List InvocationPolicy := [single, roundRobin, random, first, last]

def name : InvocationPolicy → String
  | single => "single"
  | roundRobin => "roundrobin"
  | random => "random"
  | first => "first"
  | last => "last"

def ofName (text : String) : Except UnknownOption InvocationPolicy := named all name text

def isShared (policy : InvocationPolicy) : Bool := policy ≠ single

end InvocationPolicy

/--
How a call is canceled: `skip` answers the caller and leaves the callees alone, `kill` interrupts
the callees and waits for their answer, `killNoWait` does both at once.
-/
inductive CancelMode where
  | skip
  | kill
  | killNoWait
  deriving DecidableEq, Repr, Inhabited

namespace CancelMode

def all : List CancelMode := [skip, kill, killNoWait]

def name : CancelMode → String
  | skip => "skip"
  | kill => "kill"
  | killNoWait => "killnowait"

def ofName (text : String) : Except UnknownOption CancelMode := named all name text

def reason (mode : CancelMode) : String := "call.canceled." ++ mode.name

end CancelMode

end CallRouter

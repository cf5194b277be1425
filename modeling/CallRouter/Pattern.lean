import CallRouter.Json.Basic
import CallRouter.Uri

namespace CallRouter

structure Pattern where
  policy : MatchPolicy
  uri : String
  deriving DecidableEq, Repr, Inhabited

namespace Pattern

def covers (pattern : Pattern) (uri : String) : Bool :=
  match pattern.policy with
  | .exact => pattern.uri == uri
  | .byPrefix => pattern.uri.toList.isPrefixOf uri.toList
  | .wildcard => Uri.fits (Uri.segments pattern.uri.toList) (Uri.segments uri.toList)

def concreteSegments (pattern : Pattern) : Nat :=
  (Uri.segments pattern.uri.toList).countP fun segment => !segment.isEmpty

/--
The order in which patterns covering one URI are preferred: exact ones, then prefixes with the
longer one first, then wildcard patterns with the one of more concrete segments first and of
equally many the one whose text comes first.
-/
def narrower (a b : Pattern) : Bool :=
  match a.policy, b.policy with
  | .exact, .exact => false
  | .exact, _ => true
  | .byPrefix, .exact => false
  | .byPrefix, .byPrefix => decide (b.uri.toList.length < a.uri.toList.length)
  | .byPrefix, .wildcard => true
  | .wildcard, .wildcard =>
    decide (b.concreteSegments < a.concreteSegments) ||
      (b.concreteSegments == a.concreteSegments && Dict.keyBefore a.uri.toList b.uri.toList)
  | .wildcard, _ => false

end Pattern

end CallRouter

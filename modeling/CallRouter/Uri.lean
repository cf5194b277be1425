import CallRouter.Policy
import CallRouter.Text.Blank

namespace CallRouter.Uri

def segments : List Char → List (List Char)
  | [] => [[]]
  | c :: rest =>
    if c = '.' then [] :: segments rest
    else
      match segments rest with
      | [] => [[c]]
      | segment :: others => (c :: segment) :: others

def isSegmentChar (c : Char) : Bool := !Text.isBlank c && !Text.isControl c && c != '#'

def isValid (uri : String) : Bool :=
  !uri.toList.isEmpty && (segments uri.toList).all fun segment => segment.all isSegmentChar

def hasNoEmptySegment (parts : List (List Char)) : Bool := parts.all fun segment => !segment.isEmpty

/--
A URI that may be registered under a policy. An exact one has no empty segment, a prefix may end
in a dot, and a wildcard pattern may have empty segments anywhere.
-/
def isProcedure (policy : MatchPolicy) (uri : String) : Bool :=
  isValid uri &&
    let parts := segments uri.toList
    match policy with
    | .exact => hasNoEmptySegment parts
    | .byPrefix =>
      hasNoEmptySegment parts.dropLast && (parts.getLast? != some [] || 1 < parts.length)
    | .wildcard => true

def reservedStem : List Char := ['w', 'a', 'm', 'p', '.']

def isReserved (uri : String) : Bool := reservedStem.isPrefixOf uri.toList

/-- Does a pattern with empty segments for arbitrary ones fit a URI, segment by segment? -/
def fits : List (List Char) → List (List Char) → Bool
  | [], [] => true
  | part :: pattern, segment :: uri => (part.isEmpty || part == segment) && fits pattern uri
  | _, _ => false

theorem segments_ne_nil (chars : List Char) : segments chars ≠ [] := by
  cases chars with
  | nil => simp [segments]
  | cons c rest =>
    simp only [segments]
    split
    · simp
    · split <;> simp

end CallRouter.Uri

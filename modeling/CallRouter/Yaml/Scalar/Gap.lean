import CallRouter.Yaml.Character

namespace CallRouter.Yaml

inductive Gap where
  | within (blanks : List Char)
  /-- A line break, which counts for nothing if it is escaped, then others, and the number of
  blanks since the last one. -/
  | across (first : Option Char) (others : List Char) (column : Nat)
  deriving DecidableEq, Repr

namespace Gap

def empty : Gap := within []

def escaped : Gap := across none [] 0

def addBlank (gap : Gap) (c : Char) : Gap :=
  match gap with
  | within blanks => within (blanks ++ [c])
  | across first others column => across first others (column + 1)

def addBreak (gap : Gap) (c : Char) : Gap :=
  match gap with
  | within _ => across (some c) [] 0
  | across first others _ => across first (others ++ [c]) 0

def text : Gap → List Char
  | within blanks => blanks
  | across none others _ => others
  | across (some first) others _ =>
    if first ≠ '\n' then first :: others else if others.isEmpty then [' '] else others

def isEmpty : Gap → Bool
  | within blanks => blanks.isEmpty
  | across .. => false

def endsLine : Gap → Bool
  | within _ => false
  | across .. => true

def endsBefore (gap : Gap) (column : Nat) : Bool :=
  match gap with
  | within _ => false
  | across _ _ reached => reached < column

end Gap

end CallRouter.Yaml

import CallRouter.Yaml.Character

namespace CallRouter.Yaml

structure Place where
  index : Nat := 0
  line : Nat := 0
  column : Nat := 0
  deriving DecidableEq, Repr

def Place.after (place : Place) (c : Char) : Place :=
  if isBreak c then { index := place.index + 1, line := place.line + 1, column := 0 }
  else { place with index := place.index + 1, column := place.column + 1 }

structure Cursor where
  rest : List Char
  place : Place := {}
  deriving Repr

namespace Cursor

def advance (cursor : Cursor) (n : Nat) : Cursor where
  rest := cursor.rest.drop n
  place := (cursor.rest.take n).foldl Place.after cursor.place

def moveTo (cursor : Cursor) (rest : List Char) : Cursor :=
  cursor.advance (cursor.rest.length - rest.length)

end Cursor

end CallRouter.Yaml

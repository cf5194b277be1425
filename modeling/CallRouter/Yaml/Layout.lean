import CallRouter.Yaml.Cursor
import CallRouter.Yaml.Scalar.Block
import CallRouter.Yaml.Scalar.Plain
import CallRouter.Yaml.Scalar.Quoted
import CallRouter.Yaml.Token

/-!
From a text to its tokens. Outside brackets the layout of the lines counts: indentation begins and
ends blocks. That a node is a key shows only at the colon behind it, which must follow on its line
within 1024 characters; the token of the key is then put in front of the node.
-/

namespace CallRouter.Yaml

structure PossibleKey where
  required : Bool
  before : Nat
  place : Place
  deriving Repr

def maxKeyLength : Nat := 1024

structure Layout where
  cursor : Cursor
  blocks : List Nat := []
  keyAllowed : Bool := true
  key : Option PossibleKey := none
  /-- The possible keys outside of each of the brackets around the place, from the inside. -/
  outerKeys : List (Option PossibleKey) := []
  /-- The reverse of the tokens before the place, and their number. -/
  tokens : List Token := []
  count : Nat := 0

namespace Layout

def inFlow (layout : Layout) : Bool := !layout.outerKeys.isEmpty

def column (layout : Layout) : Nat := layout.cursor.place.column

def leastColumn (layout : Layout) : Nat :=
  match layout.blocks with
  | [] => 0
  | column :: _ => column + 1

def emit (layout : Layout) (token : Token) : Layout :=
  { layout with tokens := token :: layout.tokens, count := layout.count + 1 }

def insert (layout : Layout) (before : Nat) (token : Token) : Layout :=
  let behind := layout.tokens.take (layout.count - before)
  let inFront := layout.tokens.drop (layout.count - before)
  { layout with tokens := behind ++ token :: inFront, count := layout.count + 1 }

def advance (layout : Layout) (n : Nat) : Layout :=
  { layout with cursor := layout.cursor.advance n }

def moveTo (layout : Layout) (rest : List Char) : Layout :=
  { layout with cursor := layout.cursor.moveTo rest }

def isStale (place : Place) (key : PossibleKey) : Bool :=
  key.place.line < place.line || key.place.index + maxKeyLength < place.index

def expireKeys (layout : Layout) : Option Layout :=
  let stale := isStale layout.cursor.place
  if (layout.key :: layout.outerKeys).any (·.any fun key => key.required && stale key) then none
  else some { layout with
    key := layout.key.filter (!stale ·)
    outerKeys := layout.outerKeys.map (·.filter (!stale ·)) }

def dropKey (layout : Layout) : Option Layout :=
  if layout.key.any (·.required) then none else some { layout with key := none }

def expectKey (layout : Layout) : Option Layout :=
  if !layout.keyAllowed then some layout
  else do
    let layout ← layout.dropKey
    let required := !layout.inFlow && layout.blocks.head? == some layout.column
    return { layout with key := some ⟨required, layout.count, layout.cursor.place⟩ }

def beginBlock (layout : Layout) (column before : Nat) (token : Token) : Layout :=
  if layout.inFlow || column < layout.leastColumn then layout
  else { layout.insert before token with blocks := column :: layout.blocks }

def endBlocks (layout : Layout) (ended : Nat → Bool) : Layout :=
  if layout.inFlow then layout
  else
    let tokens := (layout.blocks.takeWhile ended).map fun _ => Token.blockEnd
    { layout with
      blocks := layout.blocks.dropWhile ended
      tokens := tokens ++ layout.tokens
      count := layout.count + tokens.length }

def endAllBlocks (layout : Layout) : Layout := layout.endBlocks fun _ => true

/--
Passes blanks, line breaks and comments. Outside brackets a new line may begin a key, and where a
key may begin no tab is passed.
-/
def passGap (inFlow keyAllowed inComment : Bool) (place : Place) : List Char → Bool × Cursor
  | [] => (keyAllowed, ⟨[], place⟩)
  | c :: rest =>
    if isBreak c then passGap inFlow (keyAllowed || !inFlow) false (place.after c) rest
    else if inComment || c = '#' then passGap inFlow keyAllowed true (place.after c) rest
    else if c = ' ' || (c = '\t' && (inFlow || !keyAllowed)) ||
        (c = byteOrderMark && place.index = 0) then
      passGap inFlow keyAllowed false (place.after c) rest
    else (keyAllowed, ⟨c :: rest, place⟩)

def approach (layout : Layout) : Option Layout := do
  let (keyAllowed, cursor) :=
    passGap layout.inFlow layout.keyAllowed false layout.cursor.place layout.cursor.rest
  let layout ← expireKeys { layout with keyAllowed, cursor }
  return layout.endBlocks (layout.column < ·)

def readBoundary (layout : Layout) (token : Token) (rest : List Char) : Option Layout := do
  let layout ← layout.endAllBlocks.dropKey
  return { layout with keyAllowed := false }.emit token |>.moveTo rest

def readDirective (layout : Layout) (rest : List Char) : Option Layout := do
  let (directive, rest) ← Directive.read rest
  layout.readBoundary (.directive directive) (← Block.endLine rest)

def openFlow (layout : Layout) (token : Token) : Option Layout := do
  let layout ← layout.expectKey
  let layout := (layout.emit token).advance 1
  return { layout with
    keyAllowed := true, key := none, outerKeys := layout.key :: layout.outerKeys }

def closeFlow (layout : Layout) (token : Token) : Option Layout := do
  let layout ← layout.dropKey
  let layout := { layout with keyAllowed := false }.emit token |>.advance 1
  return match layout.outerKeys with
    | [] => layout
    | key :: outerKeys => { layout with key, outerKeys }

def readComma (layout : Layout) : Option Layout := do
  let layout ← layout.dropKey
  return { layout with keyAllowed := true }.emit .comma |>.advance 1

/-- Begins a block at a mark of an item or a key. Outside brackets it must be in a key's place. -/
def markBlock (layout : Layout) (token : Token) : Option Layout :=
  if !layout.inFlow && !layout.keyAllowed then none
  else some (layout.beginBlock layout.column layout.count token)

def readItem (layout : Layout) : Option Layout := do
  let layout ← (← layout.markBlock .listStart).dropKey
  return { layout with keyAllowed := true }.emit .item |>.advance 1

def readKey (layout : Layout) : Option Layout := do
  let layout ← (← layout.markBlock .mappingStart).dropKey
  return { layout with keyAllowed := !layout.inFlow }.emit .key |>.advance 1

/-- A colon makes a key of the node before it, if it can be one, or of what has been marked so. -/
def readValue (layout : Layout) : Option Layout :=
  match layout.key with
  | some key =>
    let layout := (layout.insert key.before .key).beginBlock key.place.column key.before .mappingStart
    some ({ layout with key := none, keyAllowed := false }.emit .value |>.advance 1)
  | none => do
    let layout ← layout.markBlock .mappingStart
    return { layout with keyAllowed := !layout.inFlow }.emit .value |>.advance 1

def endsName (chars : List Char) : Bool :=
  endsWord chars || chars.head?.any ['?', ':', ',', ']', '}', '%', '@', '\x60'].contains

def readNode (layout : Layout) (token : Token) (rest : List Char) : Option Layout := do
  let layout ← layout.expectKey
  return { layout with keyAllowed := false }.emit token |>.moveTo rest

def readName (layout : Layout) (token : String → Token) (chars : List Char) : Option Layout :=
  let name := chars.takeWhile isNameChar
  let rest := chars.dropWhile isNameChar
  if name.isEmpty || !endsName rest then none
  else layout.readNode (token (String.ofList name)) rest

def readTag (layout : Layout) (chars : List Char) : Option Layout := do
  let (tag, rest) ← Tag.read chars
  if endsWord rest || (layout.inFlow && rest.head? == some ',') then
    layout.readNode (.tag tag) rest
  else none

def readQuoted (layout : Layout)
    (read : List Char → Gap → List Char → Option (List Char × List Char)) (chars : List Char) :
    Option Layout := do
  let (text, rest) ← read [] .empty chars
  layout.readNode (.scalar .quoted (String.ofList text)) rest

def readPlain (layout : Layout) (chars : List Char) : Option Layout := do
  let ending ← Plain.read layout.inFlow layout.leastColumn [] .empty chars
  let layout ← layout.readNode (.scalar .plain (String.ofList ending.text)) ending.rest
  return { layout with keyAllowed := ending.endsLine }

def readBlock (layout : Layout) (folded : Bool) (chars : List Char) : Option Layout := do
  let layout ← layout.dropKey
  let (text, rest) ← Block.read folded (layout.blocks.headD 0) layout.leastColumn chars
  let style : Style := if folded then .folded else .literal
  return { layout with keyAllowed := true }.emit (.scalar style (String.ofList text)) |>.moveTo rest

def isReserved (c : Char) : Bool :=
  ['\t', ',', '[', ']', '{', '}', '#', '&', '*', '!', '|', '>', '\'', '"', '%', '@',
    '\x60'].contains c

def readToken (layout : Layout) (c : Char) (rest : List Char) : Option Layout :=
  let chars := c :: rest
  let attached := !layout.inFlow && !endsWord rest
  if layout.column = 0 && c = '%' then layout.readDirective rest
  else if layout.column = 0 && startsMarker '-' chars then
    layout.readBoundary .documentStart (chars.drop 3)
  else if layout.column = 0 && startsMarker '.' chars then
    layout.readBoundary .documentEnd (chars.drop 3)
  else if c = '[' then layout.openFlow .flowListStart
  else if c = '{' then layout.openFlow .flowMappingStart
  else if c = ']' then layout.closeFlow .flowListEnd
  else if c = '}' then layout.closeFlow .flowMappingEnd
  else if c = ',' then layout.readComma
  else if c = '-' && endsWord rest then layout.readItem
  else if c = '?' && !attached then layout.readKey
  else if c = ':' && !attached then layout.readValue
  else if c = '*' then layout.readName .reference rest
  else if c = '&' then layout.readName .anchor rest
  else if c = '!' then layout.readTag chars
  else if c = '|' && !layout.inFlow then layout.readBlock false rest
  else if c = '>' && !layout.inFlow then layout.readBlock true rest
  else if c = '\'' then layout.readQuoted Quoted.readSingle rest
  else if c = '"' then layout.readQuoted Quoted.readDouble rest
  else if isReserved c then none
  else layout.readPlain chars

def readTokens : Nat → Layout → Option (List Token)
  | 0, _ => none
  | fuel + 1, layout => do
    let layout ← layout.approach
    match layout.cursor.rest with
    | [] => return (← layout.endAllBlocks.dropKey).tokens.reverse
    | c :: rest => readTokens fuel (← layout.readToken c rest)

end Layout

def Token.ofChars? (chars : List Char) : Option (List Token) :=
  if chars.all isAdmitted then
    let chars := withUniformBreaks chars
    Layout.readTokens (chars.length + 1) { cursor := { rest := chars } }
  else none

end CallRouter.Yaml

import CallRouter.Yaml.Layout
import CallRouter.Yaml.Node

/-!
From tokens to a document. A text holds one document at most, in front of which directives may
stand. An anchor is numbered by the names that came before it, so that one which takes a name again
also takes the number of the next new name.
-/

namespace CallRouter.Yaml

structure Reading where
  tokens : List Token
  anchors : List (String × Nat) := []

namespace Reading

def number (reading : Reading) (name : String) : Nat × Reading :=
  let next := reading.anchors.length
  let others := reading.anchors.filter (·.1 ≠ name)
  (next, { reading with anchors := (name, next) :: others })

def properties : List Token → Option String × Option Tag × List Token
  | .anchor name :: .tag tag :: rest => (some name, some tag, rest)
  | .tag tag :: .anchor name :: rest => (some name, some tag, rest)
  | .anchor name :: rest => (some name, none, rest)
  | .tag tag :: rest => (none, some tag, rest)
  | rest => (none, none, rest)

def readProperties (handles : Handles) (reading : Reading) :
    Option (Option Nat × Option String × Reading) := do
  let (name, tag, rest) := properties reading.tokens
  let tag ← tag.mapM (·.text handles)
  let reading := { reading with tokens := rest }
  match name with
  | none => return (none, tag, reading)
  | some name =>
    let (anchor, reading) := reading.number name
    return (some anchor, tag, reading)

def optional (stops : List Token) (read : Reading → Option (Node × Reading)) (reading : Reading) :
    Option (Node × Reading) :=
  if reading.tokens.head?.any stops.contains then some (.absent, reading) else read reading

def readValue (stops : List Token) (read : Reading → Option (Node × Reading)) (reading : Reading) :
    Option (Node × Reading) :=
  match reading.tokens with
  | .value :: rest => optional stops read { reading with tokens := rest }
  | _ => some (.absent, reading)

def passComma (first : Bool) (reading : Reading) : Option Reading :=
  match first, reading.tokens with
  | true, _ => some reading
  | false, .comma :: rest => some { reading with tokens := rest }
  | false, _ => none

def readSingleKey (read : Reading → Option (Node × Reading)) (reading : Reading) :
    Option (Node × Reading) :=
  match reading.tokens with
  | .value :: rest | .comma :: rest | .flowListEnd :: rest =>
    some (.absent, { reading with tokens := rest })
  | _ => read reading

mutual

def readNode (handles : Handles) (fuel : Nat) (unindented : Bool) (reading : Reading) :
    Option (Node × Reading) :=
  match fuel with
  | 0 => none
  | fuel + 1 =>
    match reading.tokens with
    | .reference name :: rest =>
      (reading.anchors.lookup name).map (.reference ·, { reading with tokens := rest })
    | _ => do
      let (anchor, tag, reading) ← reading.readProperties handles
      let inside := { reading with tokens := reading.tokens.drop 1 }
      match reading.tokens with
      | .scalar style text :: _ => return (.scalar anchor (tag.filter (· ≠ "!")) style text, inside)
      | .flowListStart :: _ =>
        let (items, rest) ← readFlowItems handles fuel true inside
        return (.list anchor items, rest)
      | .flowMappingStart :: _ =>
        let (entries, rest) ← readFlowEntries handles fuel true inside
        return (.mapping anchor entries, rest)
      | .listStart :: _ =>
        let (items, rest) ← readItems handles fuel inside
        return (.list anchor items, rest)
      | .mappingStart :: _ =>
        let (entries, rest) ← readEntries handles fuel inside
        return (.mapping anchor entries, rest)
      | tokens =>
        if unindented && tokens.head? == some .item then
          let (items, rest) ← readUnindentedItems handles fuel reading
          return (.list anchor items, rest)
        else if anchor.isSome || tag.isSome then
          return (.scalar anchor tag .plain "", reading)
        else none
termination_by structural fuel

def readItems (handles : Handles) (fuel : Nat) (reading : Reading) :
    Option (List Node × Reading) :=
  match fuel with
  | 0 => none
  | fuel + 1 =>
    match reading.tokens with
    | .blockEnd :: rest => some ([], { reading with tokens := rest })
    | .item :: rest => do
      let (item, reading) ←
        optional [.item, .blockEnd] (readNode handles fuel false) { reading with tokens := rest }
      let (items, reading) ← readItems handles fuel reading
      return (item :: items, reading)
    | _ => none
termination_by structural fuel

def readUnindentedItems (handles : Handles) (fuel : Nat) (reading : Reading) :
    Option (List Node × Reading) :=
  match fuel with
  | 0 => none
  | fuel + 1 =>
    match reading.tokens with
    | .item :: rest => do
      let (item, reading) ←
        optional [.item, .key, .value, .blockEnd] (readNode handles fuel false)
          { reading with tokens := rest }
      let (items, reading) ← readUnindentedItems handles fuel reading
      return (item :: items, reading)
    | _ => some ([], reading)
termination_by structural fuel

def readEntries (handles : Handles) (fuel : Nat) (reading : Reading) :
    Option (List (Node × Node) × Reading) :=
  match fuel with
  | 0 => none
  | fuel + 1 =>
    match reading.tokens with
    | .blockEnd :: rest => some ([], { reading with tokens := rest })
    | .key :: rest => do
      let stops := [.key, .value, .blockEnd]
      let (key, reading) ←
        optional stops (readNode handles fuel true) { reading with tokens := rest }
      let (value, reading) ← readValue stops (readNode handles fuel true) reading
      let (entries, reading) ← readEntries handles fuel reading
      return ((key, value) :: entries, reading)
    | _ => none
termination_by structural fuel

def readFlowItems (handles : Handles) (fuel : Nat) (first : Bool) (reading : Reading) :
    Option (List Node × Reading) :=
  match fuel with
  | 0 => none
  | fuel + 1 =>
    match reading.tokens with
    | .flowListEnd :: rest => some ([], { reading with tokens := rest })
    | _ => do
      let reading ← reading.passComma first
      match reading.tokens with
      | .flowListEnd :: rest => return ([], { reading with tokens := rest })
      | .key :: rest =>
        let (key, reading) ←
          readSingleKey (readNode handles fuel false) { reading with tokens := rest }
        let (value, reading) ←
          readValue [.comma, .flowListEnd] (readNode handles fuel false) reading
        let (items, reading) ← readFlowItems handles fuel false reading
        return (.mapping none [(key, value)] :: items, reading)
      | _ =>
        let (item, reading) ← readNode handles fuel false reading
        let (items, reading) ← readFlowItems handles fuel false reading
        return (item :: items, reading)
termination_by structural fuel

def readFlowEntries (handles : Handles) (fuel : Nat) (first : Bool) (reading : Reading) :
    Option (List (Node × Node) × Reading) :=
  match fuel with
  | 0 => none
  | fuel + 1 =>
    match reading.tokens with
    | .flowMappingEnd :: rest => some ([], { reading with tokens := rest })
    | _ => do
      let reading ← reading.passComma first
      match reading.tokens with
      | .flowMappingEnd :: rest => return ([], { reading with tokens := rest })
      | .key :: rest =>
        let (key, reading) ←
          optional [.value, .comma, .flowMappingEnd] (readNode handles fuel false)
            { reading with tokens := rest }
        let (value, reading) ←
          readValue [.comma, .flowMappingEnd] (readNode handles fuel false) reading
        let (entries, reading) ← readFlowEntries handles fuel false reading
        return ((key, value) :: entries, reading)
      | _ =>
        let (key, reading) ← readNode handles fuel false reading
        let (entries, reading) ← readFlowEntries handles fuel false reading
        return ((key, .absent) :: entries, reading)
termination_by structural fuel

end

end Reading

namespace Document

def isKnownVersion (major minor : Nat) : Bool := major == 1 && (minor == 1 || minor == 2)

def readDirectives (versioned : Bool) (handles : Handles) :
    List Token → Option (Handles × List Token)
  | .directive (.version major minor) :: rest =>
    if versioned || !isKnownVersion major minor then none else readDirectives true handles rest
  | .directive (.handle name meaning) :: rest =>
    if (handles.lookup name).isSome then none
    else readDirectives versioned ((name, meaning) :: handles) rest
  | rest => some (handles ++ Tag.commonHandles, rest)

def isBoundary : Token → Bool
  | .directive _ | .documentStart | .documentEnd => true
  | _ => false

def readRoot (handles : Handles) (tokens : List Token) : Option Document := do
  let (root, reading) ← Reading.readNode handles (2 * tokens.length + 2) false { tokens }
  if reading.tokens.all (· == .documentEnd) then return ⟨some root⟩ else none

def ofTokens? (tokens : List Token) : Option Document :=
  match tokens with
  | [] => some ⟨none⟩
  | .directive _ :: _ | .documentStart :: _ => do
    match ← readDirectives false [] tokens with
    | (handles, .documentStart :: rest) =>
      if rest.head?.all isBoundary then
        if rest.all (· == .documentEnd) then return ⟨some .absent⟩ else none
      else readRoot handles rest
    | _ => none
  | _ => readRoot Tag.commonHandles tokens

def ofText? (text : String) : Option Document := Token.ofChars? text.toList >>= ofTokens?

end Document

end CallRouter.Yaml

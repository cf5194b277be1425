import CallRouter.Yaml.Token

namespace CallRouter.Yaml

inductive Node where
  | scalar (anchor : Option Nat) (tag : Option String) (style : Style) (text : String)
  | list (anchor : Option Nat) (items : List Node)
  | mapping (anchor : Option Nat) (entries : List (Node × Node))
  | reference (number : Nat)
  deriving Repr, Inhabited

namespace Node

def absent : Node := scalar none none .plain ""

def listed (anchor : Option Nat) (node : Node) : List (Nat × Node) :=
  anchor.toList.map (·, node)

mutual

def anchored (node : Node) : List (Nat × Node) :=
  match node with
  | reference _ => []
  | scalar anchor .. => listed anchor node
  | list anchor items => listed anchor node ++ anchoredItems items
  | mapping anchor entries => listed anchor node ++ anchoredEntries entries

def anchoredItems : List Node → List (Nat × Node)
  | [] => []
  | item :: items => anchored item ++ anchoredItems items

def anchoredEntries : List (Node × Node) → List (Nat × Node)
  | [] => []
  | (key, value) :: entries => anchored key ++ anchored value ++ anchoredEntries entries

end

end Node

structure Document where
  root : Option Node
  deriving Repr, Inhabited

namespace Document

def find? (document : Document) (number : Nat) : Option Node :=
  ((document.root.toList.flatMap Node.anchored).reverse.find? (·.1 == number)).map (·.2)

def resolve (document : Document) : Node → Option Node
  | .reference number => document.find? number
  | node => some node

end Document

end CallRouter.Yaml

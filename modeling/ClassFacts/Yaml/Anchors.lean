import ClassFacts.Yaml.Node

namespace ClassFacts.Yaml

/-- A node whose anchors and aliases are numbered. -/
abbrev NumberedNode := Node Nat

/-- The anchors seen so far with their numbers, each name once. -/
abbrev Anchors := List (List Char × Nat)

/-- The anchors with a number for a name. A new anchor gets the count of the names so far, so
that one that comes again shares its number with the next new name. -/
def Anchors.add (anchors : Anchors) (name : List Char) : Nat × Anchors :=
  let number := anchors.length
  (number, (name, number) :: anchors.filter (·.1 ≠ name))

def Anchors.addOption (anchors : Anchors) : Option (List Char) → Option Nat × Anchors
  | none => (none, anchors)
  | some name =>
    let (number, anchors) := anchors.add name
    (some number, anchors)

namespace Node

mutual

/-- Numbers the anchors in the order of the text. An alias needs an anchor before it. -/
def number (anchors : Anchors) : NamedNode → Option (NumberedNode × Anchors)
  | .alias name => do return (.alias (← anchors.lookup name), anchors)
  | .scalar p style text =>
    let (anchor, anchors) := anchors.addOption p.anchor
    some (.scalar ⟨anchor, p.tag⟩ style text, anchors)
  | .sequence p items => do
    let (anchor, anchors) := anchors.addOption p.anchor
    let (items, anchors) ← numberItems anchors items
    return (.sequence ⟨anchor, p.tag⟩ items, anchors)
  | .mapping p entries => do
    let (anchor, anchors) := anchors.addOption p.anchor
    let (entries, anchors) ← numberEntries anchors entries
    return (.mapping ⟨anchor, p.tag⟩ entries, anchors)

def numberItems (anchors : Anchors) : List NamedNode → Option (List NumberedNode × Anchors)
  | [] => some ([], anchors)
  | item :: rest => do
    let (item, anchors) ← number anchors item
    let (rest, anchors) ← numberItems anchors rest
    return (item :: rest, anchors)

def numberEntries (anchors : Anchors) :
    List (NamedNode × NamedNode) → Option (List (NumberedNode × NumberedNode) × Anchors)
  | [] => some ([], anchors)
  | (key, value) :: rest => do
    let (key, anchors) ← number anchors key
    let (value, anchors) ← number anchors value
    let (rest, anchors) ← numberEntries anchors rest
    return ((key, value) :: rest, anchors)

end

/-- The number of a node's own anchor. -/
def anchor? : NumberedNode → Option Nat
  | .alias _ => none
  | .scalar p _ _ => p.anchor
  | .sequence p _ => p.anchor
  | .mapping p _ => p.anchor

/-- A node itself behind its number, if it has one. -/
def own (n : NumberedNode) : List (Nat × NumberedNode) :=
  match n.anchor? with
  | some number => [(number, n)]
  | none => []

mutual

/-- The numbered nodes of a tree in the order of the text. -/
def anchored : NumberedNode → List (Nat × NumberedNode)
  | .alias _ => []
  | .scalar p style text => own (.scalar p style text)
  | .sequence p items => own (.sequence p items) ++ anchoredItems items
  | .mapping p entries => own (.mapping p entries) ++ anchoredEntries entries

def anchoredItems : List NumberedNode → List (Nat × NumberedNode)
  | [] => []
  | item :: rest => anchored item ++ anchoredItems rest

def anchoredEntries : List (NumberedNode × NumberedNode) → List (Nat × NumberedNode)
  | [] => []
  | (key, value) :: rest => anchored key ++ anchored value ++ anchoredEntries rest

end

mutual

/-- How many scalars, aliases, and starts and ends of collections a tree has. -/
def weight {α : Type} : Node α → Nat
  | .alias _ => 1
  | .scalar _ _ _ => 1
  | .sequence _ items => 2 + weightItems items
  | .mapping _ entries => 2 + weightEntries entries

def weightItems {α : Type} : List (Node α) → Nat
  | [] => 0
  | item :: rest => weight item + weightItems rest

def weightEntries {α : Type} : List (Node α × Node α) → Nat
  | [] => 0
  | (key, value) :: rest => weight key + weight value + weightEntries rest

end

end Node

/-- A document with the nodes that its aliases stand for, the last of each number first, and how
often aliases may be followed. -/
structure Graph where
  root : NumberedNode
  targets : List (Nat × NumberedNode)
  allowance : Nat

def Graph.ofRoot? (root : NamedNode) : Option Graph := do
  let (root, _) ← root.number []
  return ⟨root, root.anchored.reverse, 100 * root.weight⟩

end ClassFacts.Yaml

import ClassFacts.Yaml.Token

namespace ClassFacts.Yaml

/-- What may be said of a node besides its content. Anchors and aliases go by names of type
`α`. -/
structure Properties (α : Type) where
  anchor : Option α
  tag : Option (List UInt8)
  deriving DecidableEq, Repr

/-- A node of a document. -/
inductive Node (α : Type)
  | alias (target : α)
  | scalar (properties : Properties α) (style : ScalarStyle) (text : List Char)
  | sequence (properties : Properties α) (items : List (Node α))
  | mapping (properties : Properties α) (entries : List (Node α × Node α))
  deriving Repr

namespace Node

/-- A node whose content is left out. -/
def blank {α : Type} : Node α :=
  .scalar ⟨none, none⟩ .plain []

end Node

/-- A node by the names in the text. -/
abbrev NamedNode := Node (List Char)

/-- What a handle at the front of a tag stands for. -/
abbrev TagHandles := List (List Char × List UInt8)

/-- A node or a list of nodes from the front of some tokens, and the tokens after it. -/
abbrev Parsed (β : Type) := β × List Token

/-- Where a node stands. A sequence that is the value of a block entry need not be indented. -/
inductive Place
  | block
  | entry
  | flow
  deriving DecidableEq, Repr

namespace Node

def resolveTag (handles : TagHandles) (handle : List Char) (suffix : List UInt8) :
    Option (List UInt8) :=
  if handle.isEmpty then some suffix else (handles.lookup handle).map (· ++ suffix)

/-- Reads an anchor and a tag, in either order. -/
def readProperties (handles : TagHandles) :
    List Token → Option (Parsed (Properties (List Char)))
  | .anchor a :: .tag handle suffix :: rest
  | .tag handle suffix :: .anchor a :: rest => do
    return (⟨some a, ← resolveTag handles handle suffix⟩, rest)
  | .anchor a :: rest => some (⟨some a, none⟩, rest)
  | .tag handle suffix :: rest => do
    return (⟨none, ← resolveTag handles handle suffix⟩, rest)
  | rest => some (⟨none, none⟩, rest)

/-- Whether one of the given tokens comes next, so that the content of a node is left out. -/
def comes (stops : List Token) : List Token → Bool
  | t :: _ => stops.contains t
  | [] => false

/-- Reads a node, or leaves its content out if one of the given tokens comes next. -/
def orBlank (node : List Token → Option (Parsed NamedNode)) (stops tokens : List Token) :
    Option (Parsed NamedNode) :=
  if comes stops tokens then some (blank, tokens) else node tokens

/-- Reads the items of an indented sequence. -/
def blockItems (node : List Token → Option (Parsed NamedNode)) :
    Nat → List Token → Option (Parsed (List NamedNode))
  | bound + 1, .blockEntry :: rest => do
    let (item, rest) ← orBlank node [.blockEntry, .blockEnd] rest
    let (items, rest) ← blockItems node bound rest
    return (item :: items, rest)
  | _ + 1, .blockEnd :: rest => some ([], rest)
  | _, _ => none

/-- Reads the items of a sequence that is not indented. -/
def looseItems (node : List Token → Option (Parsed NamedNode)) :
    Nat → List Token → Option (Parsed (List NamedNode))
  | 0, _ => none
  | bound + 1, .blockEntry :: rest => do
    let (item, rest) ← orBlank node [.blockEntry, .key, .value, .blockEnd] rest
    let (items, rest) ← looseItems node bound rest
    return (item :: items, rest)
  | _ + 1, rest => some ([], rest)

/-- Reads the value behind a key, if there is one. -/
def valueAfter (node : List Token → Option (Parsed NamedNode)) (stops : List Token) :
    List Token → Option (Parsed NamedNode)
  | .value :: rest => orBlank node stops rest
  | rest => some (blank, rest)

def blockEntries (node : List Token → Option (Parsed NamedNode)) :
    Nat → List Token → Option (Parsed (List (NamedNode × NamedNode)))
  | bound + 1, .key :: rest => do
    let stops := [.key, .value, .blockEnd]
    let (key, rest) ← orBlank node stops rest
    let (value, rest) ← valueAfter node stops rest
    let (entries, rest) ← blockEntries node bound rest
    return ((key, value) :: entries, rest)
  | _ + 1, .blockEnd :: rest => some ([], rest)
  | _, _ => none

/-- Passes the comma before an item that is not the first. -/
def separated (first : Bool) : List Token → Option (List Token)
  | rest@(.flowEntry :: after) => some (if first then rest else after)
  | rest => if first then some rest else none

/-- Reads the single entry of a mapping that is an item of a flow sequence. A key that is left
out takes a token with it. -/
def pair (node : List Token → Option (Parsed NamedNode)) (tokens : List Token) :
    Option (Parsed NamedNode) := do
  let (key, rest) ←
    if comes [.value, .flowEntry, .flowSequenceEnd] tokens then some (blank, tokens.drop 1)
    else node tokens
  let (value, rest) ← valueAfter node [.flowEntry, .flowSequenceEnd] rest
  return (.mapping ⟨none, none⟩ [(key, value)], rest)

/-- Reads the items of a flow sequence after its opening bracket. -/
def flowItems (node : List Token → Option (Parsed NamedNode)) :
    Nat → Bool → List Token → Option (Parsed (List NamedNode))
  | 0, _, _ => none
  | _ + 1, _, .flowSequenceEnd :: rest => some ([], rest)
  | bound + 1, first, tokens => do
    match ← separated first tokens with
    | .flowSequenceEnd :: rest => return ([], rest)
    | .key :: rest =>
      let (item, rest) ← pair node rest
      let (items, rest) ← flowItems node bound false rest
      return (item :: items, rest)
    | rest =>
      let (item, rest) ← node rest
      let (items, rest) ← flowItems node bound false rest
      return (item :: items, rest)

/-- Reads the entries of a flow mapping after its opening brace. -/
def flowEntries (node : List Token → Option (Parsed NamedNode)) :
    Nat → Bool → List Token → Option (Parsed (List (NamedNode × NamedNode)))
  | 0, _, _ => none
  | _ + 1, _, .flowMappingEnd :: rest => some ([], rest)
  | bound + 1, first, tokens => do
    match ← separated first tokens with
    | .flowMappingEnd :: rest => return ([], rest)
    | .key :: rest =>
      let (key, rest) ← orBlank node [.value, .flowEntry, .flowMappingEnd] rest
      let (value, rest) ← valueAfter node [.flowEntry, .flowMappingEnd] rest
      let (entries, rest) ← flowEntries node bound false rest
      return ((key, value) :: entries, rest)
    | rest =>
      let (key, rest) ← node rest
      let (entries, rest) ← flowEntries node bound false rest
      return ((key, blank) :: entries, rest)

/-- Reads the content of a node behind its properties, given how to read what a collection holds,
unless no more collections may nest. A scalar keeps its tag, also one that is a lone `!`. -/
def content (inner : Option (Place → List Token → Option (Parsed NamedNode))) (place : Place)
    (p : Properties (List Char)) : List Token → Option (Parsed NamedNode)
  | .scalar style text :: rest => some (.scalar p style text, rest)
  | tokens => do
    let read ← inner
    match place, tokens with
    | _, .flowSequenceStart :: rest =>
      let (items, rest) ← flowItems (read .flow) (rest.length + 1) true rest
      return (.sequence p items, rest)
    | _, .flowMappingStart :: rest =>
      let (entries, rest) ← flowEntries (read .flow) (rest.length + 1) true rest
      return (.mapping p entries, rest)
    | .entry, .blockEntry :: rest =>
      let (items, rest) ← looseItems (read .block) (rest.length + 2) (.blockEntry :: rest)
      return (.sequence p items, rest)
    | .block, .blockSequenceStart :: rest | .entry, .blockSequenceStart :: rest =>
      let (items, rest) ← blockItems (read .block) (rest.length + 1) rest
      return (.sequence p items, rest)
    | .block, .blockMappingStart :: rest | .entry, .blockMappingStart :: rest =>
      let (entries, rest) ← blockEntries (read .entry) (rest.length + 1) rest
      return (.mapping p entries, rest)
    | _, rest => if p = ⟨none, none⟩ then none else return (.scalar p .plain [], rest)

/-- Reads a node; the bound is on the nesting of collections. -/
def read (handles : TagHandles) : Nat → Place → List Token → Option (Parsed NamedNode)
  | bound, place, tokens =>
    let inner :=
      match bound with
      | 0 => none
      | bound + 1 => some (read handles bound)
    match tokens with
    | .alias name :: rest => some (.alias name, rest)
    | tokens => do
      let (p, rest) ← readProperties handles tokens
      content inner place p rest

end Node

def standardHandles : TagHandles :=
  [(['!'], [33]), (['!', '!'], "tag:yaml.org,2002:".toUTF8.toList)]

/-- Reads the directives of a document. There is one version at most, and a handle is given one
meaning at most. -/
def readDirectives : (version : Bool) → TagHandles → List Token → Option (Parsed TagHandles)
  | version, handles, .version major minor :: rest =>
    if version ∨ major ≠ 1 ∨ (minor ≠ 1 ∧ minor ≠ 2) then none
    else readDirectives true handles rest
  | version, handles, .tagHandle handle expansion :: rest =>
    if (handles.lookup handle).isSome then none
    else readDirectives version ((handle, expansion) :: handles) rest
  | _, handles, rest => some (handles, rest)

def isDirective : Token → Bool
  | .version _ _ => true
  | .tagHandle _ _ => true
  | _ => false

/-- Whether a document that has been opened is left empty. -/
def leftEmpty : List Token → Bool
  | t :: _ => isDirective t || [.documentStart, .documentEnd, .streamEnd].contains t
  | [] => true

def readRoot (handles : TagHandles) (tokens : List Token) : Option (Parsed NamedNode) :=
  Node.read handles tokens.length .block tokens

/-- Reads a document that opens with directives or its start mark. -/
def readExplicit (tokens : List Token) : Option (Parsed NamedNode) := do
  let (handles, rest) ← readDirectives false [] tokens
  match rest with
  | .documentStart :: rest =>
    if leftEmpty rest then return (.blank, rest) else readRoot (handles ++ standardHandles) rest
  | _ => none

/-- The root of the only document of a stream. A stream may also hold none. -/
def readStream : List Token → Option (Option NamedNode)
  | [.streamEnd] => some none
  | tokens => do
    let (root, rest) ←
      match tokens with
      | t :: _ =>
        if isDirective t || t = .documentStart then readExplicit tokens
        else readRoot standardHandles tokens
      | [] => none
    match rest.dropWhile (· = .documentEnd) with
    | [.streamEnd] => return some root
    | _ => none

end ClassFacts.Yaml

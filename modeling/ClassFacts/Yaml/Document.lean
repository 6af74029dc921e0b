import ClassFacts.Keyed
import ClassFacts.Schema
import ClassFacts.Yaml.Anchors
import ClassFacts.Yaml.Lexer

namespace ClassFacts.Yaml

/-- Reading keeps count of the aliases that it has followed. -/
abbrev Reading := StateT Nat Option

/-- The node itself, or the one that it stands for. -/
def follow (g : Graph) : NumberedNode → Reading NumberedNode
  | .alias target => do
    let count ← get
    if g.allowance ≤ count then failure
    set (count + 1)
    (g.targets.lookup target : Option NumberedNode)
  | n => pure n

/-- A tag that is local to the document, without its mark. A lone mark is kept. -/
def localTag? : Option (List UInt8) → Option String
  | some (33 :: rest) => String.fromUTF8? ⟨(if rest.isEmpty then [33] else rest).toArray⟩
  | _ => none

def nullTag : List UInt8 :=
  "tag:yaml.org,2002:null".toUTF8.toList

def integerTag : List UInt8 :=
  "tag:yaml.org,2002:int".toUTF8.toList

def isNullWord (text : List Char) : Bool :=
  text == ['n', 'u', 'l', 'l'] || text == ['N', 'u', 'l', 'l'] || text == ['N', 'U', 'L', 'L'] ||
    text == ['~']

def digitValue? (base : Nat) (c : Char) : Option Nat := do
  let d ← hexValue? c
  if d < base then some d else none

/-- The number that is written by at least one digit, if it fits in 64 bits. -/
def natural? (base : Nat) (text : List Char) : Option Nat := do
  if text.isEmpty then none
  let n ← text.foldlM (fun n c => (digitValue? base c).map (n * base + ·)) 0
  if n < Nat.pow 2 64 then some n else none

/-- A whole number after its sign: hexadecimal, octal or binary behind a mark, and otherwise
decimal without a zero in front. -/
def unsigned? : List Char → Option Nat
  | '0' :: 'x' :: rest => natural? 16 rest
  | '0' :: 'o' :: rest => natural? 8 rest
  | '0' :: 'b' :: rest => natural? 2 rest
  | '0' :: _ :: _ => none
  | text => natural? 10 text

def count? (text : List Char) : Option Nat :=
  match text with
  | '+' :: rest => unsigned? rest
  | _ => unsigned? text

/-- Whether a scalar may be read as a number. -/
def isNumeric (p : Properties Nat) (style : ScalarStyle) : Bool :=
  style == .plain || (style == .literal && p.tag == some integerTag)

/-- Whether an optional value is there. The tag of nothing fits nothing else. -/
def isPresent? (p : Properties Nat) (style : ScalarStyle) (text : List Char) : Option Bool :=
  if style ≠ .plain then some true
  else
    match p.tag with
    | none => some (!text.isEmpty && !isNullWord text)
    | some tag =>
      if tag = nullTag then (if isNullWord text then some false else none) else some true

def isBlank (style : ScalarStyle) (text : List Char) : Bool :=
  style == .plain && text.isEmpty

def readText (g : Graph) (n : NumberedNode) : Reading String := do
  match ← follow g n with
  | .scalar _ _ text => return String.ofList text
  | _ => failure

/-- What nothing at all is read as. -/
def ofNothing : Shape → Option Document
  | .names | .list _ => some (.list [])
  | .table _ => some (.table [])
  | .record r => (r.complete []).toOption.map .record
  | _ => none

/-- Reads a member's value; an optional one may be nothing. -/
def readMember (g : Graph) (read : Shape → NumberedNode → Reading Document) (m : Member)
    (n : NumberedNode) : Reading Document := do
  if m.isOptional then
    match ← follow g n with
    | .scalar p style text =>
      match isPresent? p style text with
      | some true => read m.shape (.scalar p style text)
      | some false => return .absent
      | none => failure
    | n => read m.shape n
  else read m.shape n

/-- Reads the entries of a record. Unknown keys are passed over, and known ones come once. -/
def readRecordEntries (g : Graph) (read : Shape → NumberedNode → Reading Document) (r : Record) :
    List (NumberedNode × NumberedNode) → List (String × Document) →
      Reading (List (String × Document))
  | [], written => pure written
  | (key, value) :: rest, written => do
    let key ← readText g key
    match r.member? key with
    | none => readRecordEntries g read r rest written
    | some m =>
      if (written.lookup key).isSome then failure
      let d ← readMember g read m value
      readRecordEntries g read r rest ((key, d) :: written)

def readTableEntries (g : Graph) (read : NumberedNode → Reading Document) :
    List (NumberedNode × NumberedNode) → List (String × Document) →
      Reading (List (String × Document))
  | [], found => pure found
  | (key, value) :: rest, found => do
    let key ← readText g key
    let d ← read value
    readTableEntries g read rest (Entries.put key d found)

/-- Reads a choice: the text of a scalar, or its tag if nothing else stands there. -/
def readChoice (c : Choice) (p : Properties Nat) (style : ScalarStyle) (text : List Char) :
    Option Document :=
  let name? :=
    match localTag? p.tag with
    | none => some (String.ofList text)
    | some tag =>
      if style == .plain && (text.isEmpty || isNullWord text) then some tag else none
  match name? with
  | some name => if name ∈ c.variants then some (.choice name) else none
  | none => none

def tag? : NumberedNode → Option (List UInt8)
  | .alias _ => none
  | .scalar p _ _ => p.tag
  | .sequence p _ => p.tag
  | .mapping p _ => p.tag

/-- Reads a node that is no annotation value, given how to read what a collection holds, unless
no more collections may nest. -/
def readContent (g : Graph) (inner : Option (Shape → NumberedNode → Reading Document)) :
    Shape → NumberedNode → Reading Document
  | .text, .scalar _ _ text => return .text (String.ofList text)
  | .count, .scalar p style text =>
    if isNumeric p style then return .count (← (count? text : Option Nat)) else failure
  | .choice c, .scalar p style text => (readChoice c p style text : Option Document)
  | .names, .sequence _ items => do
    let _ ← (inner : Option _)
    return .ofNames (NameSet.ofList (← items.mapM (readText g))).names
  | .list item, .sequence _ items => do
    let read ← (inner : Option _)
    return .list (← items.mapM (read item))
  | .table item, .mapping _ entries => do
    let read ← (inner : Option _)
    return .table (← readTableEntries g (read item) entries [])
  | .record r, .mapping _ entries => do
    let read ← (inner : Option _)
    let written ← readRecordEntries g read r entries []
    match r.complete written with
    | .ok members => return .record members
    | .error _ => failure
  | shape, .scalar _ style text =>
    if isBlank style text then (ofNothing shape : Option Document) else failure
  | _, _ => failure

/-- Reads a node of the given shape in which at most `depth` more collections nest. The form of
an annotation value is the node's tag. -/
def readShape (g : Graph) : Nat → Shape → NumberedNode → Reading Document
  | depth, shape, n => do
    let inner :=
      match depth with
      | 0 => none
      | depth + 1 => some (readShape g depth)
    let n ← follow g n
    match shape with
    | .value =>
      let name ← (localTag? (tag? n) : Option String)
      let payload ← (valueForms.lookup name : Option Shape)
      return .form name (← readContent g inner payload n)
    | shape => readContent g inner shape n

/-- How many collections may stand one inside the other. -/
def maxDepth : Nat := 128

/-- Reads a whole text as a document of the given shape. -/
def readDocument (shape : Shape) (text : String) : Option Document := do
  match ← readStream (← Token.ofText? text) with
  | none => ofNothing shape
  | some root =>
    let g ← Graph.ofRoot? root
    (readShape g maxDepth shape g.root).run' 0

end ClassFacts.Yaml

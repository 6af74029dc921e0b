import ClassFacts.Json.Printer
import ClassFacts.Yaml.Directive
import ClassFacts.Yaml.Node

namespace ClassFacts.Yaml

/-- A value in the flow style. A tag says which of several forms a value has. -/
inductive Flow
  | scalar (bare : Bool) (text : String)
  | sequence (items : List Flow)
  | mapping (entries : List (String × Flow))
  | tagged (name : String) (content : Flow)

/-- Lists with a mark between two of them, and before the first unless it is the first of all. -/
def punctuated {α : Type} (mark : List α) : Bool → List (List α) → List α
  | _, [] => []
  | first, x :: xs => (if first then x else mark ++ x) ++ punctuated mark false xs

theorem punctuated_cons {α : Type} (mark : α) (first : Bool) (x : List α) (xs : List (List α))
    (rest : List α) :
    punctuated [mark] first (x :: xs) ++ rest =
      if first then x ++ (punctuated [mark] false xs ++ rest)
      else mark :: (x ++ (punctuated [mark] false xs ++ rest)) := by
  cases first <;> simp [punctuated]

theorem length_le_punctuated {α : Type} {mark : List α} {xs : List (List α)}
    (h : ∀ x ∈ xs, 0 < x.length) (first : Bool) :
    xs.length ≤ (punctuated mark first xs).length := by
  induction xs generalizing first with
  | nil => exact Nat.zero_le _
  | cons x xs ih =>
    have hx := h x (by simp)
    have hxs := ih (fun y hy => h y (by simp [hy])) false
    have hpart : x.length ≤ (if first then x else mark ++ x).length := by
      cases first <;> simp
    rw [punctuated, List.length_append, List.length_cons]
    omega

theorem length_le_punctuated_of_mem {α : Type} {mark : List α} {xs : List (List α)} {x : List α}
    (h : x ∈ xs) (first : Bool) : x.length ≤ (punctuated mark first xs).length := by
  induction xs generalizing first with
  | nil => cases h
  | cons y xs ih =>
    rw [punctuated, List.length_append]
    rcases List.mem_cons.mp h with rfl | h
    · have hpart : x.length ≤ (if first then x else mark ++ x).length := by
        cases first <;> simp
      omega
    · have hrest := ih h false
      omega

theorem mem_punctuated {α : Type} {mark : List α} {xs : List (List α)} {first : Bool} {a : α}
    (h : a ∈ punctuated mark first xs) : a ∈ mark ∨ ∃ x ∈ xs, a ∈ x := by
  induction xs generalizing first with
  | nil => cases h
  | cons x xs ih =>
    rcases List.mem_append.mp h with hx | hrest
    · have hmem : a ∈ mark ∨ a ∈ x := by
        cases first with
        | true => exact .inr hx
        | false => exact List.mem_append.mp hx
      exact hmem.imp_right fun hx => ⟨x, by simp, hx⟩
    · exact (ih hrest).imp_right fun ⟨y, hy, ha⟩ => ⟨y, by simp [hy], ha⟩

/-- A collection has room for its parts. -/
theorem length_lt_punctuated {α : Type} {mark : List α} {xs : List (List α)}
    (h : ∀ x ∈ xs, 0 < x.length) (rest : List α) :
    xs.length < (punctuated mark true xs ++ rest).length + 1 := by
  have hle := @length_le_punctuated α mark xs h true
  rw [List.length_append]
  omega

namespace Flow

mutual

/-- The text on one line, with a space behind each comma and colon. -/
def text : Flow → List Char
  | .scalar bare s => if bare then s.toList else Json.stringText s
  | .sequence items => '[' :: (punctuated [',', ' '] true (itemTexts items) ++ [']'])
  | .mapping entries => '\x7b' :: (punctuated [',', ' '] true (entryTexts entries) ++ ['\x7d'])
  | .tagged name content => '!' :: (name.toList ++ ' ' :: content.text)

def itemTexts : List Flow → List (List Char)
  | [] => []
  | f :: rest => f.text :: itemTexts rest

def entryTexts : List (String × Flow) → List (List Char)
  | [] => []
  | (key, f) :: rest => (Json.stringText key ++ ':' :: ' ' :: f.text) :: entryTexts rest

end

def scalarStyle (bare : Bool) : ScalarStyle :=
  if bare then .plain else .quoted

mutual

def tokens : Flow → List Token
  | .scalar bare s => [.scalar (scalarStyle bare) s.toList]
  | .sequence items =>
    .flowSequenceStart :: (punctuated [.flowEntry] true (itemTokens items) ++ [.flowSequenceEnd])
  | .mapping entries =>
    .flowMappingStart :: (punctuated [.flowEntry] true (entryTokens entries) ++ [.flowMappingEnd])
  | .tagged name content => .tag ['!'] (octetsOf name.toList) :: content.tokens

def itemTokens : List Flow → List (List Token)
  | [] => []
  | f :: rest => f.tokens :: itemTokens rest

def entryTokens : List (String × Flow) → List (List Token)
  | [] => []
  | (key, f) :: rest =>
    (.key :: .scalar .quoted key.toList :: .value :: f.tokens) :: entryTokens rest

end

/-- The tag that is local to a document and has the given name. -/
def localTag (name : String) : List UInt8 :=
  33 :: octetsOf name.toList

/-- The key of an entry as a node. -/
def keyNode {α : Type} (key : String) : Node α :=
  .scalar ⟨none, none⟩ .quoted key.toList

mutual

/-- The node that has the given tag, unless it comes with its own. -/
def node {α : Type} (tag : Option (List UInt8)) : Flow → Node α
  | .scalar bare s => .scalar ⟨none, tag⟩ (scalarStyle bare) s.toList
  | .sequence items => .sequence ⟨none, tag⟩ (itemNodes items)
  | .mapping entries => .mapping ⟨none, tag⟩ (entryNodes entries)
  | .tagged name content => content.node (some (localTag name))

def itemNodes {α : Type} : List Flow → List (Node α)
  | [] => []
  | f :: rest => f.node none :: itemNodes rest

def entryNodes {α : Type} : List (String × Flow) → List (Node α × Node α)
  | [] => []
  | (key, f) :: rest => (keyNode key, f.node none) :: entryNodes rest

end

mutual

/-- How many collections stand one inside the other at most. -/
def nesting : Flow → Nat
  | .scalar _ _ => 0
  | .sequence items => itemsNesting items + 1
  | .mapping entries => entriesNesting entries + 1
  | .tagged _ content => content.nesting

def itemsNesting : List Flow → Nat
  | [] => 0
  | f :: rest => max f.nesting (itemsNesting rest)

def entriesNesting : List (String × Flow) → Nat
  | [] => 0
  | (_, f) :: rest => max f.nesting (entriesNesting rest)

end

theorem itemTexts_eq (items : List Flow) : itemTexts items = items.map text := by
  induction items with
  | nil => rfl
  | cons f rest ih => rw [itemTexts, ih, List.map_cons]

def entryText (e : String × Flow) : List Char :=
  Json.stringText e.1 ++ ':' :: ' ' :: e.2.text

theorem entryTexts_eq (entries : List (String × Flow)) :
    entryTexts entries = entries.map entryText := by
  induction entries with
  | nil => rfl
  | cons e rest ih => rw [entryTexts, ih, List.map_cons, entryText]

theorem itemTokens_eq (items : List Flow) : itemTokens items = items.map tokens := by
  induction items with
  | nil => rfl
  | cons f rest ih => rw [itemTokens, ih, List.map_cons]

def entryToken (e : String × Flow) : List Token :=
  .key :: .scalar .quoted e.1.toList :: .value :: e.2.tokens

theorem entryTokens_eq (entries : List (String × Flow)) :
    entryTokens entries = entries.map entryToken := by
  induction entries with
  | nil => rfl
  | cons e rest ih => rw [entryTokens, ih, List.map_cons, entryToken]

variable {α : Type}

theorem itemNodes_eq (items : List Flow) :
    (itemNodes items : List (Node α)) = items.map (node none) := by
  induction items with
  | nil => rfl
  | cons f rest ih => rw [itemNodes, ih, List.map_cons]

theorem entryNodes_eq (entries : List (String × Flow)) :
    (entryNodes entries : List (Node α × Node α)) =
      entries.map fun e => (keyNode e.1, e.2.node none) := by
  induction entries with
  | nil => rfl
  | cons e rest ih => rw [entryNodes, ih, List.map_cons]

theorem itemsNesting_le_iff {items : List Flow} {n : Nat} :
    itemsNesting items ≤ n ↔ ∀ f ∈ items, f.nesting ≤ n := by
  induction items with
  | nil => simp [itemsNesting]
  | cons f rest ih => rw [itemsNesting, Nat.max_le, ih, List.forall_mem_cons]

theorem entriesNesting_le_iff {entries : List (String × Flow)} {n : Nat} :
    entriesNesting entries ≤ n ↔ ∀ e ∈ entries, e.2.nesting ≤ n := by
  induction entries with
  | nil => simp [entriesNesting]
  | cons e rest ih => rw [entriesNesting, Nat.max_le, ih, List.forall_mem_cons]

/-- Printable ASCII. -/
def isPrintable (c : Char) : Bool :=
  0x20 ≤ c.toNat && c.toNat ≤ 0x7E

def isBareChar (c : Char) : Bool :=
  c.isAlphanum || c == '_' || c == '$' || c == '.'

/-- Whether the quotes of a string may be left out. -/
def isBareWord (s : String) : Bool :=
  !s.toList.isEmpty && s.toList.all isBareChar

/-- A key short enough for a YAML key, however many of its characters are escaped. -/
def isShortKey (key : String) : Bool :=
  key.toList.all isPrintable && key.length ≤ 500

def isTagName (name : String) : Bool :=
  !name.toList.isEmpty && name.toList.all isWordChar

def isTagged : Flow → Bool
  | .tagged _ _ => true
  | _ => false

/-- Flows of printable strings in which every string without quotes is a word. -/
inductive Fine : Flow → Prop
  | quoted {s : String} : s.toList.all isPrintable = true → Fine (.scalar false s)
  | bare {s : String} : isBareWord s = true → Fine (.scalar true s)
  | sequence {items : List Flow} : (∀ f ∈ items, Fine f) → Fine (.sequence items)
  | mapping {entries : List (String × Flow)} : (∀ e ∈ entries, isShortKey e.1 = true) →
      (∀ e ∈ entries, Fine e.2) → Fine (.mapping entries)
  | tagged {name : String} {content : Flow} : isTagName name = true → content.isTagged = false →
      Fine content → Fine (.tagged name content)

end Flow

end ClassFacts.Yaml

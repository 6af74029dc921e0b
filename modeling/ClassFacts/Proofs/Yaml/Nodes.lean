import ClassFacts.Proofs.Yaml.Flow
import ClassFacts.Yaml.Anchors

namespace ClassFacts.Yaml

open Yaml.Flow (localTag keyNode)

namespace Token

/-- A token with which the content of a node in the flow style starts. -/
def opensContent : Token → Bool
  | .scalar _ _ | .flowSequenceStart | .flowMappingStart => true
  | _ => false

/-- A token with which a node in the flow style starts. -/
def opensNode : Token → Bool
  | .tag _ _ => true
  | t => t.opensContent

end Token

namespace Node

def tagTokens : Option String → List Token
  | none => []
  | some name => [.tag ['!'] (octetsOf name.toList)]

variable {bound : Nat} {place : Place} {t : Token}

theorem readProperties_tag (ht : t.opensContent = true) (tag : Option String) (rest : List Token) :
    readProperties standardHandles (tagTokens tag ++ t :: rest) =
      some (⟨none, tag.map localTag⟩, t :: rest) := by
  cases tag with
  | none => cases t <;> first | rfl | cases ht
  | some name => cases t <;> first | rfl | cases ht

/-- How the collections inside of a node are read. -/
def inner (handles : TagHandles) : Nat → Option (Place → List Token → Option (Parsed NamedNode))
  | 0 => none
  | bound + 1 => some (read handles bound)

/-- What is read with a tag starts with its properties. -/
theorem read_properties (ht : t.opensContent = true) (tag : Option String) (rest : List Token) :
    read standardHandles bound place (tagTokens tag ++ t :: rest) =
      (readProperties standardHandles (tagTokens tag ++ t :: rest) >>= fun (p, rest) =>
        content (inner standardHandles bound) place p rest) := by
  cases tag with
  | none => cases t <;> first | cases bound <;> rfl | cases ht
  | some name => cases bound <;> rfl

theorem read_tagTokens (ht : t.opensContent = true) (tag : Option String) (rest : List Token) :
    read standardHandles bound place (tagTokens tag ++ t :: rest) =
      content (inner standardHandles bound) place ⟨none, tag.map localTag⟩ (t :: rest) := by
  rw [read_properties ht, readProperties_tag ht]
  rfl

/-- A flow that is read as its node wherever its tokens stand. -/
def Reads (node : List Token → Option (Parsed NamedNode)) (f : Flow) : Prop :=
  ∀ rest, node (f.tokens ++ rest) = some (f.node none, rest)

theorem tokens_cons (f : Flow) : ∃ t ts, f.tokens = t :: ts ∧ t.opensNode = true := by
  cases f with
  | scalar bare s => exact ⟨_, _, rfl, rfl⟩
  | sequence items => exact ⟨_, _, rfl, rfl⟩
  | mapping entries => exact ⟨_, _, rfl, rfl⟩
  | tagged name content => exact ⟨_, _, rfl, rfl⟩

variable {node : List Token → Option (Parsed NamedNode)}

theorem flowItems_item (ht : t.opensNode = true) (first : Bool) (tokens : List Token) :
    flowItems node (bound + 1) first (if first then t :: tokens else .flowEntry :: t :: tokens) =
      (node (t :: tokens) >>= fun (item, rest) =>
        flowItems node bound false rest >>= fun (items, rest) => some (item :: items, rest)) := by
  cases t <;> first | cases first <;> rfl | cases ht

theorem flowEntries_entry {key : List Char} (ht : t.opensNode = true)
    (hkey : ∀ rest, node (.scalar .quoted key :: rest) =
      some (.scalar ⟨none, none⟩ .quoted key, rest)) (first : Bool) (tokens : List Token) :
    flowEntries node (bound + 1) first
        (if first then .key :: .scalar .quoted key :: .value :: t :: tokens
          else .flowEntry :: .key :: .scalar .quoted key :: .value :: t :: tokens) =
      (node (t :: tokens) >>= fun (value, rest) =>
        flowEntries node bound false rest >>= fun (entries, rest) =>
          some ((.scalar ⟨none, none⟩ .quoted key, value) :: entries, rest)) := by
  have horBlank : orBlank node [.flowEntry, .flowMappingEnd] (t :: tokens) =
      node (t :: tokens) := by
    cases t <;> first | rfl | cases ht
  have hkeyed : orBlank node [.value, .flowEntry, .flowMappingEnd]
      (.scalar .quoted key :: .value :: t :: tokens) =
        some (.scalar ⟨none, none⟩ .quoted key, .value :: t :: tokens) := hkey _
  cases first <;> simp [flowEntries, separated, hkeyed, valueAfter, horBlank]

theorem flowItems_flows {items : List Flow} (h : ∀ f ∈ items, Reads node f) {bound : Nat}
    (hbound : items.length < bound) (first : Bool) (rest : List Token) :
    flowItems node bound first
        (punctuated [.flowEntry] first (items.map Flow.tokens) ++ .flowSequenceEnd :: rest) =
      some (items.map (Flow.node none), rest) := by
  induction items generalizing bound first with
  | nil =>
    obtain ⟨bound, rfl⟩ := Nat.exists_eq_add_one_of_ne_zero (Nat.ne_zero_of_lt hbound)
    rfl
  | cons f items ih =>
    obtain ⟨bound, rfl⟩ := Nat.exists_eq_add_one_of_ne_zero (Nat.ne_zero_of_lt hbound)
    obtain ⟨t, ts, htokens, ht⟩ := tokens_cons f
    have hrest := ih (fun g hg => h g (by simp [hg])) (show items.length < bound by
      simpa using hbound) false
    have hread := h f (by simp)
      (punctuated [.flowEntry] false (items.map Flow.tokens) ++ .flowSequenceEnd :: rest)
    rw [htokens, List.cons_append] at hread
    rw [List.map_cons, punctuated_cons, htokens, List.cons_append, flowItems_item ht first]
    simp [hread, hrest]

theorem flowEntries_flows {entries : List (String × Flow)} (h : ∀ e ∈ entries, Reads node e.2)
    (hkey : ∀ key rest, node (.scalar .quoted key :: rest) =
      some (.scalar ⟨none, none⟩ .quoted key, rest)) {bound : Nat}
    (hbound : entries.length < bound) (first : Bool) (rest : List Token) :
    flowEntries node bound first
        (punctuated [.flowEntry] first (entries.map Flow.entryToken) ++ .flowMappingEnd :: rest) =
      some (entries.map fun e => (keyNode e.1, e.2.node none), rest) := by
  induction entries generalizing bound first with
  | nil =>
    obtain ⟨bound, rfl⟩ := Nat.exists_eq_add_one_of_ne_zero (Nat.ne_zero_of_lt hbound)
    rfl
  | cons e entries ih =>
    obtain ⟨bound, rfl⟩ := Nat.exists_eq_add_one_of_ne_zero (Nat.ne_zero_of_lt hbound)
    obtain ⟨t, ts, htokens, ht⟩ := tokens_cons e.2
    have hrest := ih (fun d hd => h d (by simp [hd])) (show entries.length < bound by
      simpa using hbound) false
    have hread := h e (by simp)
      (punctuated [.flowEntry] false (entries.map Flow.entryToken) ++ .flowMappingEnd :: rest)
    rw [htokens, List.cons_append] at hread
    rw [List.map_cons, punctuated_cons, Flow.entryToken, htokens, List.cons_append,
      List.cons_append, List.cons_append, List.cons_append, flowEntries_entry ht (hkey _) first]
    simp [hread, hrest, keyNode]

theorem read_scalar (style : ScalarStyle) (text : List Char) (rest : List Token) :
    read standardHandles bound place (.scalar style text :: rest) =
      some (.scalar ⟨none, none⟩ style text, rest) :=
  read_tagTokens rfl none rest

theorem read_sequence {items : List Flow}
    (h : ∀ f ∈ items, Reads (read standardHandles bound .flow) f) (tag : Option String)
    (rest : List Token) :
    read standardHandles (bound + 1) place
        (tagTokens tag ++ ((Flow.sequence items).tokens ++ rest)) =
      some ((Flow.sequence items).node (tag.map localTag), rest) := by
  have hpos : ∀ ts ∈ items.map Flow.tokens, 0 < ts.length := by
    intro ts hts
    obtain ⟨f, _, rfl⟩ := List.mem_map.mp hts
    obtain ⟨t, others, htokens, _⟩ := tokens_cons f
    simp [htokens]
  have hroom := @length_lt_punctuated _ [.flowEntry] _ hpos (.flowSequenceEnd :: rest)
  rw [List.length_map] at hroom
  have hitems := flowItems_flows h hroom true rest
  rw [Flow.tokens, Flow.itemTokens_eq, List.cons_append, List.append_assoc, List.singleton_append,
    read_tagTokens rfl]
  simp [content, inner, hitems, Flow.node, Flow.itemNodes_eq, -List.length_append]

theorem read_mapping {entries : List (String × Flow)}
    (h : ∀ e ∈ entries, Reads (read standardHandles bound .flow) e.2) (tag : Option String)
    (rest : List Token) :
    read standardHandles (bound + 1) place
        (tagTokens tag ++ ((Flow.mapping entries).tokens ++ rest)) =
      some ((Flow.mapping entries).node (tag.map localTag), rest) := by
  have hpos : ∀ ts ∈ entries.map Flow.entryToken, 0 < ts.length := by
    intro ts hts
    obtain ⟨e, _, rfl⟩ := List.mem_map.mp hts
    exact Nat.succ_pos _
  have hroom := @length_lt_punctuated _ [.flowEntry] _ hpos (.flowMappingEnd :: rest)
  rw [List.length_map] at hroom
  have hentries := flowEntries_flows h (fun key rest => read_scalar .quoted _ rest) hroom true rest
  rw [Flow.tokens, Flow.entryTokens_eq, List.cons_append, List.append_assoc, List.singleton_append,
    read_tagTokens rfl]
  simp [content, inner, hentries, Flow.node, Flow.entryNodes_eq, -List.length_append]

end Node

namespace Flow

open Node

/-- The tokens of a flow are read as its node, behind a tag if it does not come with its own. -/
theorem Fine.read {f : Flow} (h : Fine f) {bound : Nat} (hbound : f.nesting ≤ bound) (place : Place)
    (tag : Option String) (htag : f.isTagged = true → tag = none) (rest : List Token) :
    Node.read standardHandles bound place (tagTokens tag ++ (f.tokens ++ rest)) =
      some (f.node (tag.map localTag), rest) := by
  induction h generalizing bound place tag rest with
  | quoted _ => exact read_tagTokens rfl tag rest
  | bare _ => exact read_tagTokens rfl tag rest
  | @sequence items _ ih =>
    rw [nesting] at hbound
    obtain ⟨bound, rfl⟩ := Nat.exists_eq_add_one_of_ne_zero (Nat.ne_zero_of_lt hbound)
    have hitems := itemsNesting_le_iff.mp (show itemsNesting items ≤ bound by omega)
    exact read_sequence (fun f hf => ih f hf (hitems f hf) .flow none (fun _ => rfl)) tag rest
  | @mapping entries _ _ ih =>
    rw [nesting] at hbound
    obtain ⟨bound, rfl⟩ := Nat.exists_eq_add_one_of_ne_zero (Nat.ne_zero_of_lt hbound)
    have hentries := entriesNesting_le_iff.mp (show entriesNesting entries ≤ bound by omega)
    exact read_mapping (fun e he => ih e he (hentries e he) .flow none (fun _ => rfl)) tag rest
  | @tagged name content _ huntagged _ ih =>
    obtain rfl := htag rfl
    exact ih hbound place (some name) (by simp [huntagged]) rest

/-- A node nests no deeper than it has tokens. -/
theorem Fine.nesting_le {f : Flow} (h : Fine f) : f.nesting ≤ f.tokens.length := by
  induction h with
  | quoted _ => exact Nat.zero_le _
  | bare _ => exact Nat.zero_le _
  | @sequence items _ ih =>
    have hitems : itemsNesting items ≤
        (punctuated [.flowEntry] true (items.map tokens)).length := by
      rw [itemsNesting_le_iff]
      intro f hf
      have hmem : f.tokens ∈ items.map tokens := List.mem_map_of_mem hf
      have hle := @length_le_punctuated_of_mem Token [.flowEntry] _ _ hmem true
      exact Nat.le_trans (ih f hf) hle
    rw [nesting, tokens, itemTokens_eq, List.length_cons, List.length_append]
    omega
  | @mapping entries _ _ ih =>
    have hentries : entriesNesting entries ≤
        (punctuated [.flowEntry] true (entries.map entryToken)).length := by
      rw [entriesNesting_le_iff]
      intro e he
      have hmem : entryToken e ∈ entries.map entryToken := List.mem_map_of_mem he
      have hle := @length_le_punctuated_of_mem Token [.flowEntry] _ _ hmem true
      have hentry : e.2.tokens.length ≤ (entryToken e).length := by
        simp [entryToken]
        omega
      exact Nat.le_trans (ih e he) (Nat.le_trans hentry hle)
    rw [nesting, tokens, entryTokens_eq, List.length_cons, List.length_append]
    omega
  | @tagged name content _ _ _ ih => exact Nat.le_trans ih (Nat.le_succ _)

theorem numberItems_eq {items : List Flow} {anchors : Anchors}
    (h : ∀ f ∈ items, (f.node none).number anchors = some (f.node none, anchors)) :
    numberItems anchors (items.map (node none)) = some (items.map (node none), anchors) := by
  induction items with
  | nil => rfl
  | cons f items ih =>
    have hf := h f (by simp)
    have hrest := ih fun g hg => h g (by simp [hg])
    simp [numberItems, hf, hrest]

theorem numberEntries_eq {entries : List (String × Flow)} {anchors : Anchors}
    (h : ∀ e ∈ entries, (e.2.node none).number anchors = some (e.2.node none, anchors)) :
    numberEntries anchors (entries.map fun e => (keyNode e.1, e.2.node none)) =
      some (entries.map fun e => (keyNode e.1, e.2.node none), anchors) := by
  induction entries with
  | nil => rfl
  | cons e entries ih =>
    have hkey : (keyNode e.1 : NamedNode).number anchors = some (keyNode e.1, anchors) := rfl
    have he := h e (by simp)
    have hrest := ih fun d hd => h d (by simp [hd])
    simp [numberEntries, hkey, he, hrest]

/-- There are no anchors to number. -/
theorem Fine.number {f : Flow} (h : Fine f) (anchors : Anchors) (tag : Option (List UInt8)) :
    (f.node tag).number anchors = some (f.node tag, anchors) := by
  induction h generalizing tag with
  | quoted _ => rfl
  | bare _ => rfl
  | @sequence items _ ih =>
    have hitems := numberItems_eq fun f hf => ih f hf none
    simp [node, itemNodes_eq, Node.number, Anchors.addOption, hitems]
  | @mapping entries _ _ ih =>
    have hentries := numberEntries_eq fun e he => ih e he none
    simp [node, entryNodes_eq, Node.number, Anchors.addOption, hentries]
  | tagged _ _ _ ih => exact ih _

theorem Fine.readStream {entries : List (String × Flow)} (h : Fine (.mapping entries)) :
    readStream ((Flow.mapping entries).tokens ++ [.streamEnd]) =
      some (some ((Flow.mapping entries).node none)) := by
  have hdeep : (Flow.mapping entries).nesting ≤
      ((Flow.mapping entries).tokens ++ [Token.streamEnd]).length := by
    rw [List.length_append]
    exact Nat.le_trans h.nesting_le (Nat.le_add_right _ _)
  have hroot : readRoot standardHandles ((Flow.mapping entries).tokens ++ [.streamEnd]) =
      some ((Flow.mapping entries).node none, [.streamEnd]) :=
    h.read hdeep .block none (fun _ => rfl) [.streamEnd]
  obtain ⟨ts, hts⟩ : ∃ ts, (Flow.mapping entries).tokens ++ [Token.streamEnd] =
      .flowMappingStart :: ts := ⟨_, rfl⟩
  rw [hts] at hroot ⊢
  simp [Yaml.readStream, isDirective, hroot]

theorem Fine.ofRoot? {f : Flow} (h : Fine f) :
    ∃ g, Graph.ofRoot? (f.node none) = some g ∧ g.root = f.node none := by
  have hnumber := h.number [] none
  have hroot : Graph.ofRoot? (f.node none) = some ⟨f.node none,
      (f.node none : NumberedNode).anchored.reverse,
      100 * (f.node none : NumberedNode).weight⟩ := by
    rw [Graph.ofRoot?, hnumber]
    rfl
  exact ⟨_, hroot, rfl⟩

end Flow

end ClassFacts.Yaml

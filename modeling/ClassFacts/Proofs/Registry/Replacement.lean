import ClassFacts.Proofs.Documents.RoundTrip
import Mathlib.Data.Finset.Card
import Mathlib.Data.Finset.Dedup

namespace ClassFacts.Registry

/-- A class gets a place of its own unless it takes that of another. -/
theorem size_add (r : Registry) (c : ClassDecl) :
    (r.add c).size = if (r.find? c.qualifiedName).isSome then r.size else r.size + 1 := by
  have hnames := congrArg List.length (names_place c r.classes)
  rw [List.length_map] at hnames
  rw [size, add, hnames]
  by_cases h : c.qualifiedName ∈ r.classes.map ClassDecl.qualifiedName
  · rw [if_pos h, if_pos (find?_isSome_iff.mpr h), List.length_map, size]
  · rw [if_neg h, if_neg (fun hfound => h (find?_isSome_iff.mp hfound))]
    simp [size]

/-- Every class is the one that is found by its name. -/
theorem map_find?_names (r : Registry) :
    (r.classes.map ClassDecl.qualifiedName).map r.find? = r.classes.map some := by
  rw [List.map_map]
  exact List.map_congr_left fun c hc => find?_of_nodup r.distinct hc

/-- The names of some classes, each once and where it first comes. -/
def firstNames (classes : List ClassDecl) : List String :=
  (classes.map ClassDecl.qualifiedName).eraseDups

/-- The last one of some classes with the given name. -/
def lastNamed? (classes : List ClassDecl) (q : String) : Option ClassDecl :=
  classes.reverse.find? (·.qualifiedName == q)

/-- A registry to which classes have been added one after the other, with what that has said:
each name has one place, that of its first class, and the last class of the name stands there. -/
structure Settled (added : List ClassDecl) (log : Logged Registry) : Prop where
  names : log.result.classes.map ClassDecl.qualifiedName = firstNames added
  classes : log.result.classes.map some = (firstNames added).map (lastNamed? added)
  find? : ∀ q, log.result.find? q = lastNamed? added q
  size : log.result.size = (added.map ClassDecl.qualifiedName).toFinset.card
  replaced : log.events.count .replacingDuplicate + log.result.size = added.length

theorem firstNames_append (classes : List ClassDecl) (c : ClassDecl) :
    firstNames (classes ++ [c]) =
      if c.qualifiedName ∈ firstNames classes then firstNames classes
      else firstNames classes ++ [c.qualifiedName] := by
  rw [firstNames, List.map_append, List.map_singleton, eraseDups_concat]
  rfl

theorem lastNamed?_append (classes : List ClassDecl) (c : ClassDecl) (q : String) :
    lastNamed? (classes ++ [c]) q =
      if c.qualifiedName = q then some c else lastNamed? classes q := by
  by_cases h : c.qualifiedName = q <;> simp [lastNamed?, h]

/-- The places of the names and the classes found by them say all that there is to say. -/
theorem settled_of_names_find? {classes : List ClassDecl} {log : Logged Registry}
    (hnames : log.result.classes.map ClassDecl.qualifiedName = firstNames classes)
    (hfind : ∀ q, log.result.find? q = lastNamed? classes q)
    (hreplaced : log.events.count .replacingDuplicate + log.result.size = classes.length) :
    Settled classes log where
  names := hnames
  classes := by
    rw [← map_find?_names, hnames]
    exact List.map_congr_left fun q _ => hfind q
  find? := hfind
  size := by
    have hset : (classes.map ClassDecl.qualifiedName).toFinset =
        (log.result.classes.map ClassDecl.qualifiedName).toFinset := by
      ext q
      rw [hnames, firstNames]
      simp [List.mem_eraseDups]
    rw [hset, List.toFinset_card_of_nodup log.result.distinct, List.length_map]
    rfl
  replaced := hreplaced

theorem settled_empty : Settled [] (.quiet empty) :=
  settled_of_names_find? rfl (fun _ => rfl) rfl

/-- One more class keeps the others where they are. -/
theorem Settled.insert {classes : List ClassDecl} {log : Logged Registry}
    (h : Settled classes log) (c : ClassDecl) :
    Settled (classes ++ [c]) (log.bind fun r => r.insert c) := by
  have hfound := @find?_isSome_iff log.result c.qualifiedName
  have hsize := size_add log.result c
  have hreplaced := h.replaced
  refine settled_of_names_find? ?_ (fun q => ?_) ?_
  · show (place c log.result.classes).map ClassDecl.qualifiedName = _
    rw [names_place, firstNames_append, h.names]
  · show (log.result.add c).find? q = _
    rw [find?_add, lastNamed?_append, h.find?]
  · show (log.events ++ (log.result.insert c).events).count .replacingDuplicate +
      (log.result.add c).size = _
    rw [List.count_append, List.length_append, List.length_singleton, hsize, Registry.insert]
    by_cases hc : (log.result.find? c.qualifiedName).isSome
    · simp only [hc, if_true, List.count_singleton_self]
      omega
    · simp only [hc, Bool.false_eq_true, if_false, List.count_nil]
      omega

theorem insertAll_append (r : Registry) (classes : List ClassDecl) (c : ClassDecl) :
    r.insertAll (classes ++ [c]) = (r.insertAll classes).bind fun r => r.insert c := by
  simp [insertAll, List.foldl_append]

theorem settled_insertAll (classes : List ClassDecl) :
    Settled classes (empty.insertAll classes) := by
  induction classes using List.reverseRecOn with
  | nil => exact settled_empty
  | append_singleton before c ih =>
    rw [insertAll_append]
    exact ih.insert c

open Document (toJson)
open Documented (dump)

/-- The document that lists classes, whatever their names. -/
def listing (classes : List ClassDecl) : Json.Value :=
  .object [("classes", .ofList dump classes)]

theorem listing_eq_toJson (classes : List ClassDecl) :
    listing classes =
      toJson (.record .model) (.record [.list (classes.map ClassDecl.toDocument)]) := by
  have homits : (Member.several "classes" .classDecl).omits
      (.list (classes.map ClassDecl.toDocument)) = false := by
    cases classes <;> rfl
  have hshape : (Member.several "classes" .classDecl).shape = .list (.record .classDecl) := rfl
  have hitems : Document.itemsToJson (.record .classDecl) (classes.map ClassDecl.toDocument) =
      classes.map dump := by
    rw [Document.itemsToJson_eq, List.map_map]
    rfl
  simp only [toJson, Record.members, Document.membersToJson, homits, hshape, hitems,
    Bool.false_eq_true, if_false]
  rfl

theorem read_listing {classes : List ClassDecl}
    (hdepth : (listing classes).nesting ≤ Json.maxDepth) :
    Documented.read .json (listing classes).compact = .ok (empty.insertAll classes).result := by
  have hconforms : Conforms (.record .model) (.record [.list (classes.map ClassDecl.toDocument)]) :=
    conforms_record_iff.mpr ⟨_, .cons (.inr (Faithful.conforms classes)) .nil, rfl⟩
  rw [listing_eq_toJson] at hdepth ⊢
  have hclasses : Document.asList ClassDecl.ofDocument
      (.list (classes.map ClassDecl.toDocument)) = classes :=
    ofDocument_toDocument classes
  have hread := Json.readDocument_compact hconforms hdepth
  have hresult : Registry.ofDocument (.record [.list (classes.map ClassDecl.toDocument)]) =
      (empty.insertAll classes).result := by
    rw [ofDocument, hclasses, ofClasses]
  rw [← hresult]
  exact Documented.read_of_readDocument hread

/-- A document that lists classes is read as what their insertion one after the other leads to,
on the way to which every class replaces the one before it of its name. -/
theorem read_listing_settled (classes : List ClassDecl)
    (hdepth : (listing classes).nesting ≤ Json.maxDepth) :
    Documented.read .json (listing classes).compact = .ok (empty.insertAll classes).result ∧
      ∀ before, before <+: classes → Settled before (empty.insertAll before) :=
  ⟨read_listing hdepth, fun before _ => settled_insertAll before⟩

/-- Three classes, of which the last takes the place of the first: both have a blank name. -/
def renewed : List ClassDecl :=
  [.ofQualified "" .classType, .ofQualified "a.B" .interface, .ofQualified "" .enum]

theorem read_listing_settled_renewed :
    (listing renewed).nesting ≤ Json.maxDepth ∧
      Documented.read .json (listing renewed).compact = .ok (empty.insertAll renewed).result ∧
      ∀ before, before <+: renewed → Settled before (empty.insertAll before) := by
  have hdepth : (listing renewed).nesting ≤ Json.maxDepth := by decide
  exact ⟨hdepth, read_listing_settled renewed hdepth⟩

end ClassFacts.Registry

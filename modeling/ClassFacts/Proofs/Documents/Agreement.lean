import ClassFacts.Proofs.Documents.Flow
import ClassFacts.Proofs.Documents.RoundTrip
import ClassFacts.Proofs.Yaml.Lexing
import ClassFacts.Proofs.Yaml.Nodes

namespace ClassFacts

open Document
open Yaml (Flow Graph NumberedNode Reading follow readContent readShape)
open Yaml.Flow (keyNode localTag itemNodes entryNodes isBareWord)

namespace Yaml

variable {g : Graph}

theorem follow_node (f : Flow) (tag : Option (List UInt8)) :
    follow g (f.node tag) = pure (f.node tag) := by
  match f with
  | .scalar _ _ | .sequence _ | .mapping _ => rfl
  | .tagged name content => exact follow_node content _

theorem readText_node (bare : Bool) (s : String) (tag : Option (List UInt8)) :
    readText g ((Flow.scalar bare s).node tag) = pure s := by
  have hread : readText g ((Flow.scalar bare s).node tag) = pure (String.ofList s.toList) := rfl
  rw [hread, String.ofList_toList]

theorem readText_keyNode (key : String) : readText g (keyNode key) = pure key := by
  have hread : readText g (keyNode key) = pure (String.ofList key.toList) := rfl
  rw [hread, String.ofList_toList]

/-- How what a collection holds is read. -/
def readInner (g : Graph) : Nat → Option (Shape → NumberedNode → Reading Document)
  | 0 => none
  | depth + 1 => some (readShape g depth)

theorem readShape_node {shape : Shape} (hshape : shape ≠ .value) (depth : Nat) (f : Flow)
    (tag : Option (List UInt8)) :
    readShape g depth shape (f.node tag) =
      readContent g (readInner g depth) shape (f.node tag) := by
  have hread : readShape g depth shape (f.node tag) =
      follow g (f.node tag) >>= readContent g (readInner g depth) shape := by
    cases shape with
    | value => exact absurd rfl hshape
    | _ => cases depth <;> rfl
  rw [hread, follow_node, pure_bind]

theorem tag?_node {f : Flow} (hf : f.isTagged = false) (tag : Option (List UInt8)) :
    tag? (f.node tag) = tag := by
  cases f with
  | tagged name content => cases hf
  | _ => rfl

theorem localTag?_localTag {name : String} {payload : Shape}
    (h : valueForms.lookup name = some payload) : localTag? (some (localTag name)) = some name := by
  rcases AnnotationValue.forms_cases h with ⟨rfl, _⟩ | ⟨rfl, _⟩ | ⟨rfl, _⟩ <;> decide

/-- What an annotation value holds is read whatever its tag. -/
theorem readContent_tag {name : String} {payload : Shape}
    (h : valueForms.lookup name = some payload) (f : Flow) (tag : Option (List UInt8))
    (inner : Option (Shape → NumberedNode → Reading Document)) :
    readContent g inner payload (f.node tag) = readContent g inner payload (f.node none) := by
  rcases AnnotationValue.forms_cases h with ⟨_, rfl⟩ | ⟨_, rfl⟩ | ⟨_, rfl⟩ <;> cases f <;> rfl

theorem readShape_tagged {name : String} {payload : Shape}
    (hname : valueForms.lookup name = some payload) {f : Flow} (hf : f.isTagged = false)
    {depth : Nat} {d : Document} (h : readShape g depth payload (f.node none) = pure d) :
    readShape g depth .value ((Flow.tagged name f).node none) = pure (.form name d) := by
  have hread : readShape g depth .value ((Flow.tagged name f).node none) =
      follow g (f.node (some (localTag name))) >>= fun n =>
        (localTag? (tag? n) : Option String) >>= fun name =>
          (valueForms.lookup name : Option Shape) >>= fun payload =>
            Document.form name <$> readContent g (readInner g depth) payload n := by
    cases depth <;> rfl
  rw [readShape_node (form_ne_value hname)] at h
  have hlift : ∀ {α : Type} (x : α), (liftM (some x) : Reading α) = pure x := fun x => rfl
  rw [hread, follow_node, pure_bind, tag?_node hf, localTag?_localTag hname, hlift, pure_bind,
    hname, hlift, pure_bind, readContent_tag hname, h, map_pure]

theorem readShape_sequence {item : Shape} {depth : Nat} {flows : List Flow} {items : List Document}
    (h : (itemNodes flows).mapM (readShape g depth item) = pure items) :
    readShape g (depth + 1) (.list item) ((Flow.sequence flows).node none) =
      pure (.list items) := by
  have hread : readShape g (depth + 1) (.list item) ((Flow.sequence flows).node none) =
      Document.list <$> (itemNodes flows).mapM (readShape g depth item) := rfl
  rw [hread, h, map_pure]

theorem readShape_names {depth : Nat} {flows : List Flow} {names : List String}
    (h : (itemNodes flows).mapM (readText g) = pure names) (hnodup : names.Nodup) :
    readShape g (depth + 1) .names ((Flow.sequence flows).node none) = pure (.ofNames names) := by
  have hread : readShape g (depth + 1) .names ((Flow.sequence flows).node none) =
      (fun names => Document.ofNames (NameSet.ofList names).names) <$>
        (itemNodes flows).mapM (readText g) := rfl
  rw [hread, h, map_pure, NameSet.names_ofList hnodup]

theorem readShape_mapping {item : Shape} {depth : Nat} {flows : List (String × Flow)}
    {entries : List (String × Document)}
    (h : readTableEntries g (readShape g depth item) (entryNodes flows) [] = pure entries) :
    readShape g (depth + 1) (.table item) ((Flow.mapping flows).node none) =
      pure (.table entries) := by
  have hread : readShape g (depth + 1) (.table item) ((Flow.mapping flows).node none) =
      Document.table <$> readTableEntries g (readShape g depth item) (entryNodes flows) [] := rfl
  rw [hread, h, map_pure]

theorem readShape_entries (r : Record) (depth : Nat) (flows : List (String × Flow)) :
    readShape g (depth + 1) (.record r) ((Flow.mapping flows).node none) =
      readRecordEntries g (readShape g depth) r (entryNodes flows) [] >>= fun written =>
        match r.complete written with
        | .ok members => pure (.record members)
        | .error _ => failure :=
  rfl

theorem readShape_record {r : Record} {depth : Nat} {flows : List (String × Flow)}
    {written : List (String × Document)} {members : List Document}
    (h : readRecordEntries g (readShape g depth) r (entryNodes flows) [] = pure written)
    (hcomplete : r.complete written = .ok members) :
    readShape g (depth + 1) (.record r) ((Flow.mapping flows).node none) =
      pure (.record members) := by
  rw [readShape_entries, h, pure_bind, hcomplete]

variable {item : Shape} {depth : Nat}

theorem mapM_itemsToFlow {items : List Document}
    (h : ∀ d ∈ items, ∀ bare, readShape g depth item ((toFlow bare item d).node none) = pure d)
    (bare : List Nat → Bool) (i : Nat) :
    (itemNodes (itemsToFlow bare i item items)).mapM (readShape g depth item) = pure items := by
  induction items generalizing i with
  | nil => rfl
  | cons d rest ih =>
    have hd := h d (by simp) fun place => bare (i :: place)
    have hrest := ih (fun e he => h e (by simp [he])) (i + 1)
    rw [itemsToFlow, itemNodes, List.mapM_cons, hd, pure_bind, hrest, pure_bind]

theorem mapM_readText (names : List String) (bare : List Nat → Bool) (i : Nat) :
    (itemNodes (itemsToFlow bare i .text (names.map .text))).mapM (readText g) = pure names := by
  induction names generalizing i with
  | nil => rfl
  | cons name names ih =>
    rw [List.map_cons, itemsToFlow, itemNodes, List.mapM_cons, toFlow, readText_node, pure_bind, ih,
      pure_bind]

theorem readTableEntries_toFlow {entries : List (String × Document)}
    (h : ∀ e ∈ entries, ∀ bare,
      readShape g depth item ((toFlow bare item e.2).node none) = pure e.2)
    (found : List (String × Document)) (bare : List Nat → Bool) (i : Nat) :
    readTableEntries g (readShape g depth item) (entryNodes (entriesToFlow bare i item entries))
        found = pure (entries.foldl (fun found e => Entries.put e.1 e.2 found) found) := by
  induction entries generalizing found i with
  | nil => rfl
  | cons e rest ih =>
    obtain ⟨key, d⟩ := e
    have hd := h (key, d) (by simp) fun place => bare (i :: place)
    have hrest := ih (fun e he => h e (by simp [he])) (Entries.put key d found) (i + 1)
    rw [entriesToFlow, entryNodes, readTableEntries, readText_keyNode, pure_bind, hd, pure_bind,
      hrest, List.foldl_cons]

/-- The entries of a table, which have keys of their own, are all kept. -/
theorem readTableEntries_distinct {entries : List (String × Document)}
    (h : ∀ e ∈ entries, ∀ bare,
      readShape g depth item ((toFlow bare item e.2).node none) = pure e.2)
    (hnodup : (Entries.keys entries).Nodup) (bare : List Nat → Bool) (i : Nat) :
    readTableEntries g (readShape g depth item) (entryNodes (entriesToFlow bare i item entries))
        [] = pure entries := by
  rw [readTableEntries_toFlow h]
  exact congrArg pure (Entries.gathered_self hnodup)

theorem isPresent?_choice {c : Choice} {name : String} (h : name ∈ c.variants) (bare : Bool) :
    isPresent? ⟨none, none⟩ (Flow.scalarStyle bare) name.toList = some true := by
  have hword : ∀ name ∈ c.variants, !name.toList.isEmpty && !isNullWord name.toList := by
    cases c <;> decide
  cases bare with
  | false => rfl
  | true => simpa [isPresent?, Flow.scalarStyle] using hword name h

/-- A member that is written is not taken for a missing one. -/
theorem readMember_toFlow {r : Record} {m : Member} {d : Document} (hm : m ∈ r.members)
    (h : Conforms m.shape d) (read : Shape → NumberedNode → Reading Document)
    (bare : List Nat → Bool) :
    readMember g read m ((toFlow bare m.shape d).node none) =
      read m.shape ((toFlow bare m.shape d).node none) := by
  cases hoptional : m.isOptional with
  | false => simp [readMember, hoptional]
  | true =>
    rcases Record.optional_shape r m hm hoptional with hshape | hshape | hshape
    · rw [hshape] at h ⊢
      cases h with
      | @choice _ name hname =>
        have hpresent := isPresent?_choice hname (bare [] && isBareWord name)
        simp [readMember, hoptional, toFlow, Flow.node, follow, hpresent, hshape]
    · rw [hshape] at h ⊢
      cases h
      simp [readMember, hoptional, toFlow, Flow.node, follow, hshape]
    · rw [hshape] at h ⊢
      cases h
      simp [readMember, hoptional, toFlow, Flow.node, follow, hshape]

theorem readRecordEntries_toFlow {r : Record} {members : List Member} {documents : List Document}
    {found : List (String × Document)}
    (h : ∀ p ∈ written members documents, p.1 ∈ r.members ∧ Conforms p.1.shape p.2 ∧
      ∀ bare, readShape g depth p.1.shape ((toFlow bare p.1.shape p.2).node none) = pure p.2)
    (hnodup : ((written members documents).map (·.1.name)).Nodup)
    (hnew : ∀ p ∈ written members documents, p.1.name ∉ found.map Prod.fst)
    (bare : List Nat → Bool) (i : Nat) :
    readRecordEntries g (readShape g depth) r
        (entryNodes (membersToFlow bare i members documents)) found =
      pure (((written members documents).map fun p => (p.1.name, p.2)).reverse ++ found) := by
  induction members generalizing documents found i with
  | nil => cases documents <;> rfl
  | cons m members ih =>
    cases documents with
    | nil => rfl
    | cons d documents =>
      cases homits : m.omits d with
      | true =>
        have hwritten : written (m :: members) (d :: documents) = written members documents := by
          simp [written, homits]
        rw [hwritten] at h hnodup hnew ⊢
        rw [membersToFlow, if_pos homits]
        exact ih h hnodup hnew (i + 1)
      | false =>
        have hwritten : written (m :: members) (d :: documents) =
            (m, d) :: written members documents := by
          simp [written, homits]
        rw [hwritten] at h hnodup hnew ⊢
        rw [List.map_cons, List.nodup_cons] at hnodup
        obtain ⟨hm, hconforms, hread⟩ := h (m, d) (by simp)
        have hd := hread fun place => bare (i :: place)
        have hrest := @ih documents ((m.name, d) :: found) (fun p hp => h p (by simp [hp])) hnodup.2
          (by
            intro p hp hin
            rcases List.mem_cons.mp hin with he | hin
            · exact hnodup.1 (List.mem_map.mpr ⟨p, hp, he⟩)
            · exact hnew p (by simp [hp]) hin) (i + 1)
        have hlookup := lookup_eq_none (hnew (m, d) (by simp))
        rw [membersToFlow, if_neg (by simp [homits]), entryNodes, readRecordEntries,
          readText_keyNode, pure_bind, Record.member?_of_mem hm]
        simp [hlookup, readMember_toFlow hm hconforms, hd, hrest]

theorem readShape_choice {c : Choice} {name : String} (h : name ∈ c.variants) (depth : Nat)
    (bare : Bool) :
    readShape g depth (.choice c) ((Flow.scalar bare name).node none) = pure (.choice name) := by
  have hread : readContent g (readInner g depth) (.choice c) ((Flow.scalar bare name).node none) =
      liftM (readChoice c ⟨none, none⟩ (Flow.scalarStyle bare) name.toList) := rfl
  have hchoice : readChoice c ⟨none, none⟩ (Flow.scalarStyle bare) name.toList =
      some (.choice name) := by
    simp [readChoice, localTag?, h]
  rw [readShape_node Shape.noConfusion, hread, hchoice]
  rfl

/-- A plain document is read back from the node of its flow. -/
theorem readShape_toFlow {shape : Shape} {d : Document} (h : Conforms shape d)
    (hplain : d.isPlain = true) {depth : Nat} (hdepth : (toJson shape d).nesting ≤ depth)
    (bare : List Nat → Bool) :
    readShape g depth shape ((toFlow bare shape d).node none) = pure d := by
  induction h generalizing depth bare with
  | text s =>
    have hread : readContent g (readInner g depth) .text ((toFlow bare .text (.text s)).node none) =
        pure (.text (String.ofList s.toList)) := rfl
    rw [readShape_node Shape.noConfusion, hread, String.ofList_toList]
  | count => cases hplain
  | choice hname => exact readShape_choice hname depth _
  | @names names hnodup =>
    obtain ⟨k, rfl, _⟩ := Json.exists_succ_of_nesting_array hdepth
    exact readShape_names (mapM_readText names bare 0) hnodup
  | @list item items _ ih =>
    rw [toJson, itemsToJson_eq] at hdepth
    obtain ⟨k, rfl, hitems⟩ := Json.exists_succ_of_nesting_array hdepth
    rw [isPlain, arePlain_iff] at hplain
    exact readShape_sequence (mapM_itemsToFlow (fun d hd bare =>
      ih d hd (hplain d hd) (hitems _ (List.mem_map_of_mem hd)) bare) bare 0)
  | @table item entries hnodup _ ih =>
    rw [toJson, entriesToJson_eq] at hdepth
    obtain ⟨k, rfl, hentries⟩ := Json.exists_succ_of_nesting_object hdepth
    rw [isPlain, arePlainEntries_iff] at hplain
    exact readShape_mapping (readTableEntries_distinct (fun e he bare =>
      ih e he (hplain e he).2 (hentries _ (List.mem_map.mpr ⟨e, he, rfl⟩)) bare) hnodup bare 0)
  | @form name payload d hname h ih =>
    -- A tag takes the place of an object, so that the depth that is left is not used up.
    rw [toJson, formShape_eq hname] at hdepth
    obtain ⟨k, rfl, hforms⟩ := Json.exists_succ_of_nesting_object hdepth
    have hshallow := hforms (name, toJson payload d) (by simp)
    rw [toFlow, formShape_eq hname]
    exact readShape_tagged hname (isTagged_toFlow h (form_ne_value hname) bare)
      (ih hplain (Nat.le_succ_of_le hshallow) bare)
  | @record r members hlength habsent h ih =>
    rw [isPlain, arePlain_iff] at hplain
    obtain ⟨k, rfl, hwritten⟩ :=
      Json.exists_succ_of_nesting_record (.record hlength habsent h) hdepth
    have hread := @readRecordEntries_toFlow g k r r.members members [] (fun p hp => by
      obtain ⟨hmem, hne, hconforms, hshallow⟩ := hwritten p hp
      have hzip := List.of_mem_zip hmem
      exact ⟨hzip.1, hconforms, fun bare => ih p hmem hne (hplain _ hzip.2) hshallow bare⟩)
      (Record.written_names_nodup hlength) (by simp) bare 0
    rw [List.append_nil] at hread
    exact readShape_record hread (Record.complete_gathered hlength)

end Yaml

open Documented (shape ofDocument dump)

/-- The text of a model in the flow style, on one line. Words at the places that `bare` chooses have
no quotes. -/
def Registry.flowText (r : Registry) (bare : List Nat → Bool) : String :=
  String.ofList (toFlow bare (.record .model) r.toDocument).text

theorem Documented.read_yaml {α : Type} [Documented α] {text : String} {d : Document}
    (h : Yaml.readDocument (shape α) text = some d) :
    Documented.read .yaml text = .ok (ofDocument d : α) := by
  simp [Documented.read, Format.read, h, Except.map]

theorem Yaml.readDocument_flowText (r : Registry) (bare : List Nat → Bool)
    (hplain : r.toDocument.isPlain = true) (hdepth : (dump r).nesting ≤ Yaml.maxDepth) :
    Yaml.readDocument (.record .model) (r.flowText bare) = some r.toDocument := by
  have hconforms := registry_conforms r
  have hfine := fine_toFlow hconforms hplain bare
  have hread := fun g => @Yaml.readShape_toFlow g _ _ hconforms hplain Yaml.maxDepth hdepth bare
  obtain ⟨entries, hentries⟩ : ∃ entries, toFlow bare (.record .model) r.toDocument =
      .mapping entries := ⟨_, rfl⟩
  rw [hentries] at hfine hread
  obtain ⟨g, hg, hroot⟩ := hfine.ofRoot?
  rw [Registry.flowText, hentries, Yaml.readDocument, Yaml.Token.ofText?_mapping hfine]
  simp [hfine.readStream, hg, hroot, hread]

/-- A model is the same from its dump and from the text in the flow style: with tags in place of the
objects of annotation values, and without the quotes of any words one likes. -/
theorem Registry.read_flowText (r : Registry) (bare : List Nat → Bool)
    (hplain : r.toDocument.isPlain = true) (hdepth : (dump r).nesting ≤ 100) :
    (toFlow bare (.record .model) r.toDocument).value = dump r ∧
      Documented.read .yaml (r.flowText bare) = .ok r ∧
      Documented.read .yaml (r.flowText bare) =
        (Documented.read .json (dump r).compact : Except Error Registry) := by
  have hread : Documented.read .yaml (r.flowText bare) = .ok r := by
    have hdocument := Yaml.readDocument_flowText r bare hplain (Nat.le_trans hdepth (by decide))
    rw [Documented.read_yaml hdocument]
    exact congrArg Except.ok (registry_ofDocument_toDocument r)
  have hjson := roundTrips_registry.read_dump r trivial (Nat.le_trans hdepth (by decide))
  exact ⟨value_toFlow (registry_conforms r) hplain bare, hread, hread.trans hjson.symm⟩

/-- A class with words that YAML alone would take for a null, a truth value and numbers. -/
def wordy : Registry :=
  ⟨[⟨"No", "null", .enum, [], [], [⟨⟨"True", "", some .interface, []⟩,
      ⟨[("in", .list [.literal "1.50", .typeRef ⟨"0x10", "", none, []⟩])], by decide⟩⟩],
    none, [], []⟩], by decide⟩

theorem Registry.read_flowText_wordy :
    wordy.toDocument.isPlain = true ∧ (dump wordy).nesting ≤ 100 ∧
      Documented.read .yaml (wordy.flowText fun _ => true) = .ok wordy ∧
      Documented.read .yaml (wordy.flowText fun _ => true) =
        (Documented.read .json (dump wordy).compact : Except Error Registry) := by
  have hplain : wordy.toDocument.isPlain = true := by decide
  have hdepth : (dump wordy).nesting ≤ 100 := by decide
  exact ⟨hplain, hdepth, (wordy.read_flowText _ hplain hdepth).2⟩

end ClassFacts

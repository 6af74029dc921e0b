import ClassFacts.Proofs.Documents.RoundTrip
import ClassFacts.Proofs.Json.Cuts

namespace ClassFacts

namespace Json

open Document (toJson)

variable {α β : Type}

theorem mayBreakOff_marked {read : List Char → Except Fault (Front α)} {text : List Char}
    (h : MayBreakOff read text) (f : α → β) :
    MayBreakOff (fun text => readMark ':' text >>= fun text => read text >>= fun (x, text) =>
      .ok (f x, text)) (':' :: text) := by
  intro before after htext hafter
  rcases cut_cons htext with rfl | ⟨rest, rfl, hrest⟩
  · exact .inl rfl
  have hmark := readMark_cons (show isSpace ':' = false from rfl) rest
  rcases h rest after hrest hafter with hended | ⟨x, hx⟩
  · exact .inl (by simp [hmark, hended])
  · exact .inr ⟨f x, by simp [hmark, hx]⟩

variable {depth : Nat} {item : Shape}

theorem mayBreakOff_readTableEntry {found : List (String × Document)} {key : String}
    {text : List Char} (h : MayBreakOff (readShape depth item) text) :
    MayBreakOff (readTableEntry depth item found key) (':' :: text) :=
  mayBreakOff_marked h fun d => Entries.put key d found

theorem readMember_cut {read : Shape → List Char → Except Fault (Front Document)} {m : Member}
    {d : Document} (h : Conforms m.shape d) {before after : List Char}
    (htext : before ++ after = (toJson m.shape d).compactText) :
    readMember read m before = read m.shape before := by
  obtain ⟨c, cs, hc, hspace, _, _, hne⟩ := compactText_cons h
  rw [hc] at htext
  have hskip : skipSpace before = before ∧ before.head? ≠ some 'n' := by
    rcases cut_cons htext with rfl | ⟨rest, rfl, _⟩
    · exact ⟨rfl, by simp⟩
    · exact ⟨skipSpace_cons hspace rest, by simpa using hne⟩
  rw [readMember, hskip.1]
  split
  next => exact absurd rfl hskip.2
  next => rfl

theorem mayBreakOff_readRecordEntry {r : Record}
    {read : Shape → List Char → Except Fault (Front Document)} {found : List (String × Document)}
    {m : Member} {d : Document} (hm : m ∈ r.members) (h : Conforms m.shape d)
    (hnew : m.name ∉ found.map Prod.fst)
    (hcut : MayBreakOff (read m.shape) (toJson m.shape d).compactText) :
    MayBreakOff (readRecordEntry read r found m.name)
      (':' :: (toJson m.shape d).compactText) := by
  have hmember : MayBreakOff (readMember read m) (toJson m.shape d).compactText := by
    intro before after htext hafter
    rw [readMember_cut h htext]
    exact hcut before after htext hafter
  have hentry := mayBreakOff_marked hmember fun d => (m.name, d) :: found
  intro before after htext hafter
  rw [readRecordEntry_new hm hnew]
  exact hentry before after htext hafter

theorem gathersWhole_table {entries found : List (String × Document)}
    (hread : ∀ e ∈ entries, Reads (readShape depth item) (toJson item e.2).compactText e.2)
    (hcut : ∀ e ∈ entries, MayBreakOff (readShape depth item) (toJson item e.2).compactText) :
    GathersWhole (readTableEntry depth item) found
      (entries.map fun e => (e.1, (toJson item e.2).compactText)) := by
  induction entries generalizing found with
  | nil => exact .done
  | cons e entries ih =>
    obtain ⟨key, d⟩ := e
    have hrest := @ih (Entries.put key d found) (fun e he => hread e (by simp [he]))
      (fun e he => hcut e (by simp [he]))
    refine .step ?_ (mayBreakOff_readTableEntry (hcut (key, d) (by simp))) hrest
    intro rest hends
    have hvalue := (hread (key, d) (by simp)).2 rest hends
    simp [readTableEntry, readMark_cons (show isSpace ':' = false from rfl), hvalue]

theorem gathersWhole_record {r : Record}
    {read : Shape → List Char → Except Fault (Front Document)} {ps : List (Member × Document)}
    {found : List (String × Document)}
    (hread : ∀ p ∈ ps, p.1 ∈ r.members ∧ Conforms p.1.shape p.2 ∧
      Reads (read p.1.shape) (toJson p.1.shape p.2).compactText p.2)
    (hcut : ∀ p ∈ ps, MayBreakOff (read p.1.shape) (toJson p.1.shape p.2).compactText)
    (hnodup : (ps.map (·.1.name)).Nodup)
    (hnew : ∀ p ∈ ps, p.1.name ∉ found.map Prod.fst) :
    GathersWhole (readRecordEntry read r) found
      (ps.map fun p => (p.1.name, (toJson p.1.shape p.2).compactText)) := by
  induction ps generalizing found with
  | nil => exact .done
  | cons p ps ih =>
    obtain ⟨m, d⟩ := p
    obtain ⟨hmem, hconforms, hreads⟩ := hread (m, d) (by simp)
    have hfresh := hnew (m, d) (by simp)
    rw [List.map_cons, List.nodup_cons] at hnodup
    have hrest := @ih ((m.name, d) :: found) (fun p hp => hread p (by simp [hp]))
      (fun p hp => hcut p (by simp [hp])) hnodup.2 (by
        intro p hp hin
        rcases List.mem_cons.mp hin with he | hin
        · exact hnodup.1 (List.mem_map.mpr ⟨p, hp, he⟩)
        · exact hnew p (by simp [hp]) hin)
    exact .step (readRecordEntry_compactText hmem hconforms hfresh hreads)
      (mayBreakOff_readRecordEntry hmem hconforms hfresh (hcut (m, d) (by simp))) hrest

theorem breaksOff_names (names : List String) :
    BreaksOff (readShape (depth + 1) .names) (toJson .names (.ofNames names)).compactText := by
  intro before after htext hafter
  rw [names_compactText] at htext
  rcases cut_cons htext with rfl | ⟨rest, rfl, hrest⟩
  · rfl
  have hread : ∀ t ∈ names.map stringText, ∃ s, Reads (readText .text) t s := by
    intro t ht
    obtain ⟨name, _, rfl⟩ := List.mem_map.mp ht
    exact ⟨name, reads_readText .text name⟩
  have hcut : ∀ t ∈ names.map stringText, MayBreakOff (readText .text) t := by
    intro t ht
    obtain ⟨name, _, rfl⟩ := List.mem_map.mp ht
    exact (breaksOff_readText .text name).may
  have hended := readItems_cut hread hcut hrest hafter (Nat.lt_succ_self rest.length)
  rw [readShape_names, hended]
  rfl

theorem breaksOff_list {items : List Document}
    (hread : ∀ d ∈ items, Reads (readShape depth item) (toJson item d).compactText d)
    (hcut : ∀ d ∈ items, MayBreakOff (readShape depth item) (toJson item d).compactText) :
    BreaksOff (readShape (depth + 1) (.list item))
      (toJson (.list item) (.list items)).compactText := by
  intro before after htext hafter
  rw [list_compactText] at htext
  rcases cut_cons htext with rfl | ⟨rest, rfl, hrest⟩
  · rfl
  have hreads : ∀ t ∈ items.map fun d => (toJson item d).compactText,
      ∃ d, Reads (readShape depth item) t d := by
    intro t ht
    obtain ⟨d, hd, rfl⟩ := List.mem_map.mp ht
    exact ⟨d, hread d hd⟩
  have hcuts : ∀ t ∈ items.map fun d => (toJson item d).compactText,
      MayBreakOff (readShape depth item) t := by
    intro t ht
    obtain ⟨d, hd, rfl⟩ := List.mem_map.mp ht
    exact hcut d hd
  have hended := readItems_cut hreads hcuts hrest hafter (Nat.lt_succ_self rest.length)
  rw [readShape_list, hended]
  rfl

theorem breaksOff_table {entries : List (String × Document)}
    (hread : ∀ e ∈ entries, Reads (readShape depth item) (toJson item e.2).compactText e.2)
    (hcut : ∀ e ∈ entries, MayBreakOff (readShape depth item) (toJson item e.2).compactText) :
    BreaksOff (readShape (depth + 1) (.table item))
      (toJson (.table item) (.table entries)).compactText := by
  intro before after htext hafter
  rw [table_compactText] at htext
  rcases cut_cons htext with rfl | ⟨rest, rfl, hrest⟩
  · rfl
  have hended := readEntries_cut (@gathersWhole_table depth item entries [] hread hcut) hrest hafter
    (Nat.lt_succ_self rest.length)
  rw [readShape_table, hended]
  rfl

theorem breaksOff_form {name : String} {payload : Shape} {d : Document}
    (hname : valueForms.lookup name = some payload)
    (hread : Reads (readShape depth payload) (toJson payload d).compactText d)
    (hcut : MayBreakOff (readShape depth payload) (toJson payload d).compactText) :
    BreaksOff (readShape (depth + 1) .value) (toJson .value (.form name d)).compactText := by
  intro before after htext hafter
  rw [form_compactText d hname] at htext
  rcases cut_cons htext with rfl | ⟨rest, rfl, hrest⟩
  · rfl
  rw [readShape_form]
  -- The cut is in the key, before or after the colon and in the payload, or before the brace.
  rcases cut_append hrest with ⟨missing, hmissing, hkey⟩ | ⟨value, rfl, hvalue⟩
  · simp [breaksOff_readKey name rest missing hkey hmissing]
  rw [readKey_stringText, ok_bind]
  simp only [hname]
  rcases cut_cons hvalue with rfl | ⟨value, rfl, hpayload⟩
  · rfl
  rw [readMark_cons (show isSpace ':' = false from rfl), ok_bind]
  rcases cut_append hpayload with ⟨missing, hmissing, hpayload⟩ | ⟨close, rfl, hclose⟩
  · rcases hcut value missing hpayload hmissing with hended | ⟨x, hx⟩
    · simp [hended]
    · rw [hx]
      rfl
  · rw [cut_singleton hclose hafter, hread.2 [] ends_nil]
    rfl

theorem breaksOff_record {r : Record} {members : List Document}
    (h : Conforms (.record r) (.record members))
    (hread : ∀ p ∈ Document.written r.members members,
      Reads (readShape depth p.1.shape) (toJson p.1.shape p.2).compactText p.2)
    (hcut : ∀ p ∈ Document.written r.members members,
      MayBreakOff (readShape depth p.1.shape) (toJson p.1.shape p.2).compactText) :
    BreaksOff (readShape (depth + 1) (.record r))
      (toJson (.record r) (.record members)).compactText := by
  intro before after htext hafter
  rw [record_compactText] at htext
  rcases cut_cons htext with rfl | ⟨rest, rfl, hrest⟩
  · rfl
  cases h with
  | record hlength habsent hconforms =>
  have hgathers := @gathersWhole_record r (readShape depth) (Document.written r.members members) []
    (fun p hp =>
      have ⟨hmem, hne⟩ := Document.ne_absent_of_written habsent hp
      ⟨(List.of_mem_zip hmem).1, hconforms p hmem hne, hread p hp⟩)
    hcut (Record.written_names_nodup hlength) (by simp)
  have hended := readEntries_cut hgathers hrest hafter (Nat.lt_succ_self rest.length)
  rw [readShape_record, hended]
  rfl

/-- Of a document that has been cut off the end is missed, unless it was a number. -/
theorem mayBreakOff_of_conforms {shape : Shape} {d : Document} (h : Conforms shape d) {depth : Nat}
    (hdepth : (toJson shape d).nesting ≤ depth) :
    MayBreakOff (readShape depth shape) (toJson shape d).compactText := by
  induction h generalizing depth with
  | text s =>
    intro before after htext hafter
    refine .inl ?_
    rw [readShape, breaksOff_readText .text s before after htext hafter]
    rfl
  | @count n hn =>
    intro before after htext hafter
    rw [readShape]
    rcases mayBreakOff_readCount hn before after htext hafter with hended | ⟨m, hm⟩
    · exact .inl (by simp [hended])
    · exact .inr ⟨.count m, by simp [hm]⟩
  | names hnodup =>
    obtain ⟨k, rfl, _⟩ := exists_succ_of_nesting_array hdepth
    exact (breaksOff_names _).may
  | @list item items h ih =>
    rw [toJson, Document.itemsToJson_eq] at hdepth
    obtain ⟨k, rfl, hitems⟩ := exists_succ_of_nesting_array hdepth
    have hshallow : ∀ d ∈ items, (toJson item d).nesting ≤ k :=
      fun d hd => hitems _ (List.mem_map_of_mem hd)
    exact (breaksOff_list (fun d hd => reads_of_conforms (h d hd) (hshallow d hd))
      (fun d hd => ih d hd (hshallow d hd))).may
  | @table item entries hnodup h ih =>
    rw [toJson, Document.entriesToJson_eq] at hdepth
    obtain ⟨k, rfl, hentries⟩ := exists_succ_of_nesting_object hdepth
    have hshallow : ∀ e ∈ entries, (toJson item e.2).nesting ≤ k :=
      fun e he => hentries _ (List.mem_map.mpr ⟨e, he, rfl⟩)
    exact (breaksOff_table (fun e he => reads_of_conforms (h e he) (hshallow e he))
      (fun e he => ih e he (hshallow e he))).may
  | @choice c name hname =>
    intro before after htext hafter
    refine .inl ?_
    rw [readShape]
    rcases cut_cons htext with rfl | ⟨rest, rfl, hrest⟩
    · rfl
    rw [skipSpace_cons rfl]
    simp [breaksOff_readString name rest after hrest hafter]
  | @form name payload d hname h ih =>
    rw [toJson, formShape_eq hname] at hdepth
    obtain ⟨k, rfl, hpayload⟩ := exists_succ_of_nesting_object hdepth
    have hshallow := hpayload (name, toJson payload d) (by simp)
    exact (breaksOff_form hname (reads_of_conforms h hshallow) (ih hshallow)).may
  | @record r members hlength habsent h ih =>
    obtain ⟨k, rfl, hwritten⟩ := exists_succ_of_nesting_record (.record hlength habsent h) hdepth
    refine (breaksOff_record (.record hlength habsent h) (fun p hp => ?_) (fun p hp => ?_)).may
    · obtain ⟨_, _, hconforms, hshallow⟩ := hwritten p hp
      exact reads_of_conforms hconforms hshallow
    · obtain ⟨hmem, hne, _, hshallow⟩ := hwritten p hp
      exact ih p hmem hne hshallow

/-- Of a record the end is always missed, and anything may follow it. -/
theorem readShape_record_alone {r : Record} {d : Document} (h : Conforms (.record r) d)
    (hdepth : (toJson (.record r) d).nesting ≤ depth) :
    BreaksOff (readShape depth (.record r)) (toJson (.record r) d).compactText ∧
      ∀ rest, readShape depth (.record r) ((toJson (.record r) d).compactText ++ rest) =
        .ok (d, rest) := by
  obtain ⟨members, _, rfl⟩ := conforms_record_iff.mp h
  obtain ⟨k, rfl, hwritten⟩ := exists_succ_of_nesting_record h hdepth
  have hread : ∀ p ∈ Document.written r.members members,
      Reads (readShape k p.1.shape) (toJson p.1.shape p.2).compactText p.2 := by
    intro p hp
    obtain ⟨_, _, hconforms, hshallow⟩ := hwritten p hp
    exact reads_of_conforms hconforms hshallow
  refine ⟨breaksOff_record h hread fun p hp => ?_, readShape_record_compactText h hread⟩
  obtain ⟨_, _, hconforms, hshallow⟩ := hwritten p hp
  exact mayBreakOff_of_conforms hconforms hshallow

end Json

open Documented (shape toDocument ofDocument dump)

variable {α : Type} [Documented α]

/-- The characters that may surround a JSON value. -/
def IsJsonSpace (c : Char) : Prop :=
  c = ' ' ∨ c = '\t' ∨ c = '\r' ∨ c = '\n'

/-- Values whose dumps are read whole or not at all: one that has been cut off misses its end,
white space may follow it, and nothing else. -/
structure ReadWhole (α : Type) [Documented α] (fits : α → Prop) : Prop where
  cut : ∀ x : α, fits x → (dump x).nesting ≤ Json.maxDepth → ∀ before after : String,
    before ++ after = (dump x).compact → after ≠ "" →
      (Documented.read .json before : Except Error α) = .error (.json .ended)
  spaced : ∀ x : α, fits x → (dump x).nesting ≤ Json.maxDepth → ∀ more : String,
    (∀ c ∈ more.toList, IsJsonSpace c) →
      Documented.read .json ((dump x).compact ++ more) = .ok x
  overlong : ∀ x : α, fits x → (dump x).nesting ≤ Json.maxDepth → ∀ more : String,
    (∃ c ∈ more.toList, ¬ IsJsonSpace c) →
      (Documented.read .json ((dump x).compact ++ more) : Except Error α) =
        .error (.json .malformed)

theorem isSpace_iff {c : Char} : Json.isSpace c = true ↔ IsJsonSpace c := by
  simp only [Json.isSpace, IsJsonSpace, Bool.or_eq_true, beq_iff_eq]
  tauto

theorem readWhole_of_record {r : Record} (hshape : shape α = .record r) {fits : α → Prop}
    (hconforms : ∀ x : α, fits x → Conforms (shape α) (toDocument x))
    (hsame : ∀ x : α, ofDocument (toDocument x) = x) : ReadWhole α fits := by
  have halone : ∀ x : α, fits x → (dump x).nesting ≤ Json.maxDepth →
      Json.BreaksOff (Json.readShape Json.maxDepth (shape α)) (dump x).compactText ∧
        ∀ rest, Json.readShape Json.maxDepth (shape α) ((dump x).compactText ++ rest) =
          .ok (toDocument x, rest) := by
    intro x hfits hdepth
    have hx := hconforms x hfits
    rw [dump, hshape] at hdepth ⊢
    rw [hshape] at hx
    exact Json.readShape_record_alone hx hdepth
  have hmore : ∀ x : α, fits x → (dump x).nesting ≤ Json.maxDepth → ∀ more : String,
      Json.readDocument (shape α) ((dump x).compact ++ more) =
        if more.toList.all Json.isSpace then .ok (toDocument x) else .error .malformed := by
    intro x hfits hdepth more
    refine Json.whole_ok ?_
    rw [String.toList_append, Json.Value.compact, String.toList_ofList]
    exact (halone x hfits hdepth).2 more.toList
  refine ⟨fun x hfits hdepth before after htext hafter => ?_, fun x hfits hdepth more hspace => ?_,
    fun x hfits hdepth more hother => ?_⟩
  · have hcut : before.toList ++ after.toList = (dump x).compactText := by
      rw [← String.toList_append, htext, Json.Value.compact, String.toList_ofList]
    have hne : after.toList ≠ [] := by simpa using hafter
    exact Documented.read_of_fault
      (Json.whole_error ((halone x hfits hdepth).1 _ _ hcut hne))
  · have hall : more.toList.all Json.isSpace = true :=
      List.all_eq_true.mpr fun c hc => isSpace_iff.mpr (hspace c hc)
    have hread := hmore x hfits hdepth more
    rw [if_pos hall] at hread
    rw [Documented.read_of_readDocument hread, hsame]
  · have hall : ¬ more.toList.all Json.isSpace = true := by
      obtain ⟨c, hc, hspace⟩ := hother
      exact fun hall => hspace (isSpace_iff.mp (List.all_eq_true.mp hall c hc))
    have hread := hmore x hfits hdepth more
    rw [if_neg hall] at hread
    exact Documented.read_of_fault hread

/-- Models and configurations are read whole or not at all. -/
theorem readWhole_files :
    ReadWhole Registry (fun _ => True) ∧
      ReadWhole Config (fun c => c.maxHierarchyDepth < Nat.pow 2 64) :=
  ⟨readWhole_of_record rfl (fun r _ => registry_conforms r) registry_ofDocument_toDocument,
    readWhole_of_record rfl (fun _ hfits => config_conforms hfits) config_ofDocument_toDocument⟩

/-- A configuration that is cut off in its number, closed by white space, or followed by more. -/
theorem readWhole_highest :
    (Documented.read .json (String.ofList ((dump highest).compactText.take 215)) :
        Except Error Config) = .error (.json .ended) ∧
      Documented.read .json ((dump highest).compact ++ " \r\n\t") = .ok highest ∧
      (Documented.read .json ((dump highest).compact ++ " 0") : Except Error Config) =
        .error (.json .malformed) := by
  obtain ⟨_, hconfig⟩ := readWhole_files
  have hfits : highest.maxHierarchyDepth < Nat.pow 2 64 := by decide
  have hdepth : (dump highest).nesting ≤ Json.maxDepth := by decide
  have htext : String.ofList ((dump highest).compactText.take 215) ++
      String.ofList ((dump highest).compactText.drop 215) = (dump highest).compact := by
    rw [← String.ofList_append, List.take_append_drop, Json.Value.compact]
  have hmissing : String.ofList ((dump highest).compactText.drop 215) ≠ "" := by
    have hne : (dump highest).compactText.drop 215 ≠ [] := by decide
    exact fun he => hne (by simpa using congrArg String.toList he)
  exact ⟨hconfig.cut highest hfits hdepth _ _ htext hmissing,
    hconfig.spaced highest hfits hdepth _ (by simp [IsJsonSpace]),
    hconfig.overlong highest hfits hdepth _ ⟨'0', by decide, by simp [IsJsonSpace]⟩⟩

end ClassFacts

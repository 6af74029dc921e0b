import ClassFacts.Json.Document
import ClassFacts.Proofs.Documents.Conforms
import ClassFacts.Proofs.Keyed
import Mathlib.Data.List.Nodup

namespace ClassFacts

open Json (Value)

/-- The JSON values that stand for a document of the given shape. A record is an object of the
members that its dump has, or the array of its first members in the order of their declaration,
with nothing for an absent one, if all the others are what they would be taken for when missing. A
name out of a closed set may stand as the key of an object that holds nothing. -/
inductive Spells : Shape → Document → Value → Prop
  | text (s : String) : Spells .text (.text s) (.text s)
  | count {n : Nat} : n < Nat.pow 2 64 → Spells .count (.count n) (.integer n)
  | names {names : List String} : names.Nodup →
      Spells .names (.ofNames names) (.array (names.map .text))
  | list {item : Shape} {ps : List (Document × Value)} :
      (∀ p ∈ ps, Spells item p.1 p.2) →
      Spells (.list item) (.list (ps.map Prod.fst)) (.array (ps.map Prod.snd))
  | table {item : Shape} {ps : List (String × Document × Value)} :
      (ps.map Prod.fst).Nodup → (∀ p ∈ ps, Spells item p.2.1 p.2.2) →
      Spells (.table item) (.table (ps.map fun p => (p.1, p.2.1)))
        (.object (ps.map fun p => (p.1, p.2.2)))
  | name {c : Choice} {name : String} : name ∈ c.variants →
      Spells (.choice c) (.choice name) (.text name)
  | variant {c : Choice} {name : String} : name ∈ c.variants →
      Spells (.choice c) (.choice name) (.object [(name, .null)])
  | form {name : String} {payload : Shape} {d : Document} {v : Value} :
      valueForms.lookup name = some payload → Spells payload d v →
      Spells .value (.form name d) (.object [(name, v)])
  | object {r : Record} {members : List Document} {ps : List ((Member × Document) × Value)} :
      members.length = r.members.length →
      ps.map Prod.fst = Document.written r.members members →
      (∀ p ∈ ps, Spells p.1.1.shape p.1.2 p.2) →
      Spells (.record r) (.record members) (.object (ps.map fun p => (p.1.1.name, p.2)))
  | array {r : Record} {members : List Document} {ps : List ((Member × Document) × Value)}
      {rest : List (Member × Document)} :
      members.length = r.members.length →
      ps.map Prod.fst ++ rest = r.members.zip members →
      (∀ p ∈ ps, p.1.2 = .absent → p.1.1.isOptional = true ∧ p.2 = .null) →
      (∀ p ∈ ps, p.1.2 ≠ .absent → Spells p.1.1.shape p.1.2 p.2) →
      (∀ q ∈ rest, q.1.fallback? = some q.2) →
      Spells (.record r) (.record members) (.array (ps.map Prod.snd))

/-- The JSON values that stand for what a member of a record holds. -/
def Member.SpelledBy (m : Member) (d : Document) (v : Value) : Prop :=
  (m.isOptional = true ∧ d = .absent ∧ v = .null) ∨ Spells m.shape d v

namespace Json

variable {depth : Nat} {item : Shape}

theorem readShape_names (text : List Char) :
    readShape (depth + 1) .names ('[' :: text) =
      (readItems (readText .text) (text.length + 1) true text >>= fun (names, text) =>
        .ok (.ofNames (NameSet.ofList names).names, text)) :=
  rfl

theorem readShape_list (text : List Char) :
    readShape (depth + 1) (.list item) ('[' :: text) =
      (readItems (readShape depth item) (text.length + 1) true text >>= fun (items, text) =>
        .ok (.list items, text)) :=
  rfl

/-- Reads an entry of a table. -/
def readTableEntry (depth : Nat) (item : Shape) (found : List (String × Document)) (key : String)
    (text : List Char) : Except Fault (Front (List (String × Document))) := do
  let (v, text) ← readShape depth item (← readMark ':' text)
  return (Entries.put key v found, text)

theorem readShape_table (text : List Char) :
    readShape (depth + 1) (.table item) ('\x7b' :: text) =
      (readEntries (readTableEntry depth item) (text.length + 1) true [] text >>=
        fun (entries, text) => .ok (.table entries, text)) :=
  rfl

theorem readShape_variant (c : Choice) (text : List Char) :
    readShape (depth + 1) (.choice c) ('\x7b' :: text) = (readKey text >>= fun (name, text) =>
      checkVariant c.variants name >>= fun name => readMark ':' text >>= fun text =>
        readNothing text >>= fun text => readMark '\x7d' text >>= fun text =>
          .ok (.choice name, text)) :=
  rfl

theorem readShape_form (text : List Char) :
    readShape (depth + 1) .value ('\x7b' :: text) = (readKey text >>= fun (name, text) =>
      match valueForms.lookup name with
      | none => .error (.mismatch (.unknownVariant name (valueForms.map Prod.fst)))
      | some payload => readMark ':' text >>= fun text =>
        readShape depth payload text >>= fun (value, text) =>
          readMark '\x7d' text >>= fun text => .ok (.form name value, text)) :=
  rfl

theorem readShape_record (r : Record) (text : List Char) :
    readShape (depth + 1) (.record r) ('\x7b' :: text) =
      (readEntries (readRecordEntry (readShape depth) r) (text.length + 1) true [] text >>=
        fun (written, text) =>
          match r.complete written with
          | .ok members => .ok (.record members, text)
          | .error key => .error (.mismatch (.missing key))) :=
  rfl

theorem readShape_positional (r : Record) (text : List Char) :
    readShape (depth + 1) (.record r) ('[' :: text) =
      (readPositional (readShape depth) r r.members 0 text >>= fun (members, text) =>
        .ok (.record members, text)) :=
  rfl

theorem opens_array (items : List Value) : Opens (Value.array items).compactText := by
  rw [array_compactText]
  exact opens_cons _ (by decide)

theorem opens_object (entries : List (String × Value)) : Opens (Value.object entries).compactText := by
  rw [object_compactText]
  exact opens_cons _ (by decide)

theorem opening_of_isDigit {c : Char} (h : isDigit c = true) :
    isSpace c = false ∧ c ≠ ']' ∧ c ≠ '\x7d' ∧ c ≠ 'n' := by
  refine ⟨isSpace_of_isDigit h, ?_, ?_, ?_⟩ <;> rintro rfl <;> cases h

/-- The text of a document does not start as a missing one would. -/
theorem compactText_cons_of_spells {shape : Shape} {d : Document} {v : Value}
    (h : Spells shape d v) :
    ∃ c cs, v.compactText = c :: cs ∧ isSpace c = false ∧ c ≠ ']' ∧ c ≠ '\x7d' ∧ c ≠ 'n' := by
  cases h with
  | @count n =>
    obtain ⟨c, cs, hc, hdigit⟩ := toDigits_cons n
    exact ⟨c, cs, hc, opening_of_isDigit hdigit⟩
  | text | name => exact ⟨'"', _, rfl, by decide⟩
  | names | list | array => exact ⟨'[', _, rfl, by decide⟩
  | table | variant | form | object => exact ⟨'\x7b', _, rfl, by decide⟩

theorem opens_of_spells {shape : Shape} {d : Document} {v : Value} (h : Spells shape d v) :
    Opens v.compactText := by
  obtain ⟨c, cs, hc, hspace, harray, hobject, _⟩ := compactText_cons_of_spells h
  exact ⟨c, cs, hc, hspace, harray, hobject⟩

theorem readText_stringText (expected : Expected) (s : String) (rest : List Char) :
    readText expected (stringText s ++ rest) = .ok (s, rest) := by
  have htext : stringText s ++ rest = '"' :: (s.toList.flatMap escape ++ '"' :: rest) := by
    simp [stringText]
  rw [htext, readText, skipSpace_cons rfl]
  exact readString_escaped s rest

theorem reads_readText (expected : Expected) (s : String) :
    Reads (readText expected) (stringText s) s :=
  ⟨opens_cons _ (by decide), fun rest _ => readText_stringText expected s rest⟩

/-! ### The members of records -/

variable {read : Shape → List Char → Except Fault (Front Document)} {m : Member} {d : Document}

theorem readMember_of_ne {c : Char} (hspace : isSpace c = false) (hne : c ≠ 'n')
    (text : List Char) : readMember read m (c :: text) = read m.shape (c :: text) := by
  rw [readMember, skipSpace_cons hspace]
  split
  next heq => exact absurd (List.cons.inj heq).1 hne
  next => rfl

theorem reads_null (h : m.isOptional = true) :
    Reads (readMember read m) Value.null.compactText .absent := by
  refine ⟨opens_cons _ (by decide), fun rest _ => ?_⟩
  simp [readMember, h, Value.compactText, readWord,
    skipSpace_cons (show isSpace 'n' = false from rfl)]

/-- A member whose text does not start as a missing one would is read by its shape. -/
theorem reads_member_of_ne {text : List Char} (hne : ∀ c ∈ text.head?, c ≠ 'n')
    (hread : Reads (read m.shape) text d) : Reads (readMember read m) text d := by
  obtain ⟨c, cs, rfl, hspace, _⟩ := hread.1
  refine ⟨hread.1, fun rest hends => ?_⟩
  rw [List.cons_append, readMember_of_ne hspace (hne c rfl)]
  exact hread.2 rest hends

/-- A member that is not absent is read by its shape, whether or not it might be missing. -/
theorem reads_member {v : Value} (h : Spells m.shape d v)
    (hread : Reads (read m.shape) v.compactText d) :
    Reads (readMember read m) v.compactText d := by
  obtain ⟨c, cs, hc, _, _, _, hne⟩ := compactText_cons_of_spells h
  refine reads_member_of_ne (fun c' hc' => ?_) hread
  rw [hc] at hc'
  cases hc'
  exact hne

/-- How an entry is read for a member that no entry has been read for. -/
theorem readRecordEntry_new {r : Record} {found : List (String × Document)} (hm : m ∈ r.members)
    (hnew : m.name ∉ found.map Prod.fst) (text : List Char) :
    readRecordEntry read r found m.name text =
      (readMark ':' text >>= fun text => readMember read m text >>= fun (d, text) =>
        .ok ((m.name, d) :: found, text)) := by
  rw [readRecordEntry, Record.member?_of_mem hm, lookup_eq_none hnew]
  rfl

theorem readRecordEntry_reads {r : Record} {found : List (String × Document)} {text : List Char}
    (hm : m ∈ r.members) (hnew : m.name ∉ found.map Prod.fst)
    (hread : Reads (readMember read m) text d) (rest : List Char) (hends : Ends rest) :
    readRecordEntry read r found m.name (':' :: (text ++ rest)) =
      .ok ((m.name, d) :: found, rest) := by
  rw [readRecordEntry_new hm hnew, readMark_cons (show isSpace ':' = false from rfl), ok_bind,
    hread.2 rest hends, ok_bind]

theorem gathers_record {r : Record} {ps : List ((Member × Document) × Value)}
    {found : List (String × Document)}
    (hread : ∀ p ∈ ps, p.1.1 ∈ r.members ∧
      Reads (readMember read p.1.1) p.2.compactText p.1.2)
    (hnodup : (ps.map (·.1.1.name)).Nodup) (hnew : ∀ p ∈ ps, p.1.1.name ∉ found.map Prod.fst) :
    Gathers (readRecordEntry read r) found (ps.map fun p => (p.1.1.name, p.2.compactText))
      ((ps.map fun p => (p.1.1.name, p.1.2)).reverse ++ found) := by
  induction ps generalizing found with
  | nil => exact .done
  | cons p ps ih =>
    obtain ⟨⟨m, d⟩, v⟩ := p
    obtain ⟨hmem, hreads⟩ := hread ((m, d), v) (by simp)
    rw [List.map_cons, List.nodup_cons] at hnodup
    have hrest := @ih ((m.name, d) :: found) (fun p hp => hread p (by simp [hp])) hnodup.2 (by
      intro p hp hin
      rcases List.mem_cons.mp hin with he | hin
      · exact hnodup.1 (List.mem_map.mpr ⟨p, hp, he⟩)
      · exact hnew p (by simp [hp]) hin)
    rw [List.map_cons, List.map_cons, List.reverse_cons, List.append_assoc, List.singleton_append]
    exact .step (readRecordEntry_reads hmem (hnew ((m, d), v) (by simp)) hreads) hrest

/-- The members at the front of an array are read, and those that remain from what follows. -/
theorem readPositional_append {r : Record} {ps : List ((Member × Document) × List Char)}
    (hread : ∀ p ∈ ps, Reads (readMember read p.1.1) p.2 p.1.2) (remaining : List Member)
    (done : Nat) (texts : List (List Char)) (rest : List Char) :
    readPositional read r (ps.map (·.1.1) ++ remaining) done
        (separated (done == 0) (ps.map Prod.snd ++ texts) ++ ']' :: rest) =
      (readPositional read r remaining (done + ps.length)
        (separated (done + ps.length == 0) texts ++ ']' :: rest)).map
          fun (ds, text) => (ps.map (·.1.2) ++ ds, text) := by
  induction ps generalizing done with
  | nil =>
    simp only [List.map_nil, List.nil_append, List.length_nil, Nat.add_zero]
    cases readPositional read r remaining done (separated (done == 0) texts ++ ']' :: rest) <;> rfl
  | cons p ps ih =>
    obtain ⟨hopens, hvalue⟩ := hread p (by simp)
    have hnext := next_separated (Or.inl rfl) hopens (done == 0) (ps.map Prod.snd ++ texts)
      (']' :: rest)
    have hrest := ih (fun q hq => hread q (by simp [hq])) (done + 1)
    rw [show (done + 1 == 0) = false from rfl] at hrest
    rw [List.map_cons, List.cons_append, List.map_cons, List.cons_append, readPositional, hnext,
      ok_bind]
    dsimp only
    rw [hvalue _ (ends_separated (Or.inl rfl) _ rest), ok_bind]
    dsimp only
    rw [hrest, List.length_cons, show done + 1 + ps.length = done + (ps.length + 1) by omega]
    cases readPositional read r remaining (done + (ps.length + 1))
      (separated (done + (ps.length + 1) == 0) texts ++ ']' :: rest) <;> rfl

theorem mapM_fallback? {omitted : List (Member × Document)}
    (h : ∀ q ∈ omitted, q.1.fallback? = some q.2) :
    (omitted.map Prod.fst).mapM Member.fallback? = some (omitted.map Prod.snd) := by
  induction omitted with
  | nil => rfl
  | cons q omitted ih =>
    rw [List.map_cons, List.mapM_cons, h q (by simp), ih fun p hp => h p (by simp [hp])]
    rfl

/-- Members that are missing at the end of an array are what they are taken for. -/
theorem readPositional_close (r : Record) {omitted : List (Member × Document)}
    (h : ∀ q ∈ omitted, q.1.fallback? = some q.2) (done : Nat) (rest : List Char) :
    readPositional read r (omitted.map Prod.fst) done (']' :: rest) =
      .ok (omitted.map Prod.snd, rest) := by
  have hmembers := mapM_fallback? h
  cases omitted with
  | nil => rfl
  | cons q omitted =>
    rw [List.map_cons] at hmembers ⊢
    rw [readPositional, next_close (Or.inl rfl), ok_bind]
    simp only [hmembers]
    rfl

/-- A member that is missing at the end of an array and has no substitute is reported. -/
theorem readPositional_short (r : Record) (h : m.fallback? = none) (remaining : List Member)
    (done : Nat) (rest : List Char) :
    readPositional read r (m :: remaining) done (']' :: rest) =
      .error (.mismatch (.wrongLength done r.title r.members.length)) := by
  rw [readPositional, next_close (Or.inl rfl), ok_bind]
  simp [h]

/-! ### Each shape reads the texts of what stands for a document -/

theorem reads_names {names : List String} (h : names.Nodup) :
    Reads (readShape (depth + 1) .names) (Value.array (names.map .text)).compactText
      (.ofNames names) := by
  refine ⟨opens_array _, fun rest _ => ?_⟩
  have hname : ∀ name ∈ names, Reads (readText .text) (stringText name) (id name) :=
    fun name _ => reads_readText .text name
  have htexts : (names.map Value.text).map Value.compactText = names.map stringText := by
    rw [List.map_map]
    rfl
  rw [array_compactText, htexts, List.cons_append, readShape_names,
    readItems_array hname rest (by simp), List.map_id, ok_bind]
  simp only [NameSet.names_ofList h]

theorem reads_list {ps : List (Document × Value)}
    (hread : ∀ p ∈ ps, Reads (readShape depth item) p.2.compactText p.1) :
    Reads (readShape (depth + 1) (.list item)) (Value.array (ps.map Prod.snd)).compactText
      (.list (ps.map Prod.fst)) := by
  have hitems : ∀ p ∈ ps,
      Reads (readShape depth item) ((Value.compactText ∘ Prod.snd) p) (Prod.fst p) := hread
  refine ⟨opens_array _, fun rest _ => ?_⟩
  rw [array_compactText, List.map_map, List.cons_append, readShape_list,
    readItems_array hitems rest (by simp), ok_bind]

/-- The entries of a table are put by their keys, of which the last one counts. -/
theorem reads_gathered {ps : List (String × Document × Value)}
    (hread : ∀ p ∈ ps, Reads (readShape depth item) p.2.2.compactText p.2.1) :
    Reads (readShape (depth + 1) (.table item))
      (Value.object (ps.map fun p => (p.1, p.2.2))).compactText
      (.table (Entries.gathered Prod.fst (fun p => p.2.1) ps)) := by
  refine ⟨opens_object _, fun rest _ => ?_⟩
  let es := ps.map fun p => (p.1, p.2.2.compactText, p.2.1)
  have hes : ∀ e ∈ es, ∀ rest, Ends rest →
      readShape depth item (e.2.1 ++ rest) = .ok (e.2.2, rest) := by
    intro e he
    obtain ⟨p, hp, rfl⟩ := List.mem_map.mp he
    exact (hread p hp).2
  have htexts : (ps.map fun p => (p.1, p.2.2)).map (fun e => entryText (e.1, e.2.compactText)) =
      (es.map fun e => (e.1, e.2.1)).map entryText := by
    rw [List.map_map, List.map_map, List.map_map]
    rfl
  have hgathers : Gathers (readTableEntry depth item) [] (es.map fun e => (e.1, e.2.1))
      (Entries.gathered Prod.fst (fun p => p.2.1) ps) := by
    have hput := gathers_put hes []
    rwa [List.foldl_map] at hput
  rw [object_compactText, htexts, List.cons_append, readShape_table,
    readEntries_object hgathers rest (by simp), ok_bind]

theorem reads_table {ps : List (String × Document × Value)} (hnodup : (ps.map Prod.fst).Nodup)
    (hread : ∀ p ∈ ps, Reads (readShape depth item) p.2.2.compactText p.2.1) :
    Reads (readShape (depth + 1) (.table item))
      (Value.object (ps.map fun p => (p.1, p.2.2))).compactText
      (.table (ps.map fun p => (p.1, p.2.1))) := by
  rw [← Entries.gathered_of_nodup Prod.fst (fun p : String × Document × Value => p.2.1) hnodup]
  exact reads_gathered hread

theorem single_compactText (key : String) (v : Value) (rest : List Char) :
    (Value.object [(key, v)]).compactText ++ rest =
      '\x7b' :: (entryText (key, v.compactText) ++ '\x7d' :: rest) := by
  rw [object_compactText]
  simp [separated, entryText]

theorem reads_variant {c : Choice} {name : String} (h : name ∈ c.variants) :
    Reads (readShape (depth + 1) (.choice c)) (Value.object [(name, .null)]).compactText
      (.choice name) := by
  refine ⟨opens_object _, fun rest _ => ?_⟩
  have hmark := readMark_cons (show isSpace ':' = false from rfl)
  have hnull : readNothing (Value.null.compactText ++ '\x7d' :: rest) = .ok ('\x7d' :: rest) := rfl
  rw [single_compactText, readShape_variant, readKey_entryText, ok_bind]
  simp [checkVariant, h, hmark, hnull, readMark_cons (show isSpace '\x7d' = false from rfl)]

theorem reads_form {name : String} {payload : Shape} {v : Value}
    (hname : valueForms.lookup name = some payload)
    (hread : Reads (readShape depth payload) v.compactText d) :
    Reads (readShape (depth + 1) .value) (Value.object [(name, v)]).compactText (.form name d) := by
  refine ⟨opens_object _, fun rest _ => ?_⟩
  have hmark := readMark_cons (show isSpace ':' = false from rfl)
  have hvalue := hread.2 ('\x7d' :: rest) (ends_cons _ (by decide))
  rw [single_compactText, readShape_form, readKey_entryText, ok_bind]
  simp [hname, hmark, hvalue, readMark_cons (show isSpace '\x7d' = false from rfl)]

end Json

theorem Record.zip_names_nodup {r : Record} {members : List Document}
    (hlength : members.length = r.members.length) :
    ((r.members.zip members).map (·.1.name)).Nodup := by
  have hfst : (r.members.zip members).map Prod.fst = r.members := List.map_fst_zip (by omega)
  have hnames := r.names_nodup
  rw [← hfst, List.map_map] at hnames
  exact hnames

theorem Record.written_names_nodup {r : Record} {members : List Document}
    (hlength : members.length = r.members.length) :
    ((Document.written r.members members).map (·.1.name)).Nodup :=
  (Record.zip_names_nodup hlength).sublist (List.filter_sublist.map _)

/-- What has been read of a written record when it closes, the last member in front. -/
def Document.gathered (members : List Member) (documents : List Document) :
    List (String × Document) :=
  ((written members documents).map fun p => (p.1.name, p.2)).reverse

theorem Record.gathered_names_nodup {r : Record} {members : List Document}
    (hlength : members.length = r.members.length) :
    ((Document.gathered r.members members).map Prod.fst).Nodup := by
  rw [Document.gathered, List.map_reverse, List.map_map, List.nodup_reverse]
  exact Record.written_names_nodup hlength

theorem Document.mem_gathered {members : List Member} {documents : List Document} {m : Member}
    {d : Document} (hp : (m, d) ∈ members.zip documents) (hd : m.omits d = false) :
    (m.name, d) ∈ gathered members documents := by
  rw [gathered, List.mem_reverse]
  exact List.mem_map.mpr ⟨(m, d), List.mem_filter.mpr ⟨hp, by simp [hd]⟩, rfl⟩

theorem Record.not_mem_gathered {r : Record} {members : List Document}
    (hlength : members.length = r.members.length) {m : Member} {d : Document}
    (hp : (m, d) ∈ r.members.zip members) (hd : m.omits d = true) :
    m.name ∉ (Document.gathered r.members members).map Prod.fst := by
  rw [Document.gathered, List.map_reverse, List.map_map, List.mem_reverse]
  intro hin
  obtain ⟨q, hq, hname⟩ := List.mem_map.mp hin
  obtain ⟨hqmem, hqd⟩ := List.mem_filter.mp hq
  obtain rfl := List.inj_on_of_nodup_map (Record.zip_names_nodup hlength) hqmem hp hname
  simp [hd] at hqd

/-- A record is complete with the members that are written: the others are left out only where
reading puts them back. -/
theorem Record.complete_gathered {r : Record} {members : List Document}
    (hlength : members.length = r.members.length) :
    r.complete (Document.gathered r.members members) = .ok members := by
  refine mapM_eq_ok_iff.mpr (List.forall₂_iff_zip.mpr ⟨hlength.symm, @fun m d hp => ?_⟩)
  cases hd : m.omits d with
  | false =>
    have hlookup := lookup_of_mem (Record.gathered_names_nodup hlength)
      (Document.mem_gathered hp hd)
    simp [hlookup]
  | true =>
    have hlookup := lookup_eq_none (Record.not_mem_gathered hlength hp hd)
    have hfallback := Record.fallback?_of_omits (List.of_mem_zip hp).1 hd
    simp [hlookup, hfallback]

namespace Json

variable {depth : Nat} {r : Record} {members : List Document}

/-- A record closes with its brace, so that anything may follow. -/
theorem readShape_object {ps : List ((Member × Document) × Value)}
    (hlength : members.length = r.members.length)
    (hwritten : ps.map Prod.fst = Document.written r.members members)
    (hread : ∀ p ∈ ps, Reads (readMember (readShape depth) p.1.1) p.2.compactText p.1.2)
    (rest : List Char) :
    readShape (depth + 1) (.record r)
        ((Value.object (ps.map fun p => (p.1.1.name, p.2))).compactText ++ rest) =
      .ok (.record members, rest) := by
  have hmem : ∀ p ∈ ps, p.1.1 ∈ r.members := by
    intro p hp
    have hmem := List.mem_map_of_mem (f := Prod.fst) hp
    rw [hwritten] at hmem
    exact (List.of_mem_zip (List.mem_filter.mp hmem).1).1
  have hnames : (ps.map (·.1.1.name)).Nodup := by
    have hnodup := Record.written_names_nodup hlength
    rw [← hwritten, List.map_map] at hnodup
    exact hnodup
  have hgathers := @gathers_record (readShape depth) r ps []
    (fun p hp => ⟨hmem p hp, hread p hp⟩) hnames (by simp)
  have hgathered : (ps.map fun p => (p.1.1.name, p.1.2)).reverse ++ [] =
      Document.gathered r.members members := by
    rw [List.append_nil, Document.gathered, ← hwritten, List.map_map]
    rfl
  have htexts : (ps.map fun p => (p.1.1.name, p.2)).map
        (fun e => entryText (e.1, e.2.compactText)) =
      (ps.map fun p => (p.1.1.name, p.2.compactText)).map entryText := by
    rw [List.map_map, List.map_map]
    rfl
  rw [hgathered] at hgathers
  rw [object_compactText, htexts, List.cons_append, readShape_record,
    readEntries_object hgathers rest (by simp), ok_bind]
  simp [Record.complete_gathered hlength]

/-! ### Records as arrays -/

theorem reads_positional {ps : List ((Member × Document) × Value)}
    {omitted : List (Member × Document)} (hlength : members.length = r.members.length)
    (hmembers : ps.map Prod.fst ++ omitted = r.members.zip members)
    (hread : ∀ p ∈ ps, Reads (readMember (readShape depth) p.1.1) p.2.compactText p.1.2)
    (homitted : ∀ q ∈ omitted, q.1.fallback? = some q.2) :
    Reads (readShape (depth + 1) (.record r)) (Value.array (ps.map Prod.snd)).compactText
      (.record members) := by
  have hfst : ps.map (·.1.1) ++ omitted.map Prod.fst = r.members := by
    have hzip : (r.members.zip members).map Prod.fst = r.members := List.map_fst_zip (by omega)
    rw [← hmembers, List.map_append, List.map_map] at hzip
    exact hzip
  have hsnd : ps.map (·.1.2) ++ omitted.map Prod.snd = members := by
    have hzip : (r.members.zip members).map Prod.snd = members := List.map_snd_zip (by omega)
    rw [← hmembers, List.map_append, List.map_map] at hzip
    exact hzip
  refine ⟨opens_array _, fun rest _ => ?_⟩
  have hitems : ∀ q ∈ ps.map fun p => (p.1, p.2.compactText),
      Reads (readMember (readShape depth) q.1.1) q.2 q.1.2 := by
    intro q hq
    obtain ⟨p, hp, rfl⟩ := List.mem_map.mp hq
    exact hread p hp
  have hfront := readPositional_append (r := r) hitems (omitted.map Prod.fst) 0 [] rest
  rw [List.length_map, show separated (0 + ps.length == 0) [] ++ ']' :: rest = ']' :: rest from rfl,
    readPositional_close r homitted, List.map_map, List.map_map, List.map_map, List.append_nil]
    at hfront
  simp only [Function.comp_def, hfst] at hfront
  rw [array_compactText, List.map_map, List.cons_append, List.append_assoc, List.singleton_append,
    readShape_positional, show true = ((0 : Nat) == 0) from rfl]
  simp only [Function.comp_def, hfront, Except.map, hsnd, ok_bind]

/-- A document is read from the text of whatever stands for it, given depth enough. -/
theorem reads_of_spells {shape : Shape} {d : Document} {v : Value} (h : Spells shape d v)
    {depth : Nat} (hdepth : v.nesting ≤ depth) :
    Reads (readShape depth shape) v.compactText d := by
  induction h generalizing depth with
  | text s =>
    refine ⟨opens_of_spells (.text s), fun rest _ => ?_⟩
    rw [Value.compactText, readShape, readText_stringText]
    rfl
  | @count n hn =>
    refine ⟨opens_of_spells (.count hn), fun rest hends => ?_⟩
    have htext : (Value.integer n).compactText = Nat.toDigits 10 n := rfl
    rw [htext, readShape, readCount_toDigits hn hends]
    rfl
  | names hnodup =>
    obtain ⟨k, rfl, _⟩ := exists_succ_of_nesting_array hdepth
    exact reads_names hnodup
  | list _ ih =>
    obtain ⟨k, rfl, hitems⟩ := exists_succ_of_nesting_array hdepth
    exact reads_list fun p hp => ih p hp (hitems _ (List.mem_map_of_mem hp))
  | table hnodup _ ih =>
    obtain ⟨k, rfl, hentries⟩ := exists_succ_of_nesting_object hdepth
    exact reads_table hnodup fun p hp => ih p hp (hentries _ (List.mem_map.mpr ⟨p, hp, rfl⟩))
  | @name c name hname =>
    refine ⟨opens_of_spells (.name hname), fun rest _ => ?_⟩
    have htext : (Value.text name).compactText ++ rest =
        '"' :: (name.toList.flatMap escape ++ '"' :: rest) := by
      rw [Value.compactText, stringText]
      simp
    rw [htext, readShape, skipSpace_cons rfl]
    simp [readString_escaped, checkVariant, hname]
  | variant hname =>
    obtain ⟨k, rfl, _⟩ := exists_succ_of_nesting_object hdepth
    exact reads_variant hname
  | form hname _ ih =>
    obtain ⟨k, rfl, hpayload⟩ := exists_succ_of_nesting_object hdepth
    exact reads_form hname (ih (hpayload _ List.mem_cons_self))
  | object hlength hwritten h ih =>
    obtain ⟨k, rfl, hentries⟩ := exists_succ_of_nesting_object hdepth
    refine ⟨opens_object _, fun rest _ => readShape_object hlength hwritten (fun p hp => ?_) rest⟩
    exact reads_member (h p hp) (ih p hp (hentries _ (List.mem_map.mpr ⟨p, hp, rfl⟩)))
  | array hlength hmembers habsent h homitted ih =>
    -- The reader takes nothing for an absent member only where it is optional.
    obtain ⟨k, rfl, hitems⟩ := exists_succ_of_nesting_array hdepth
    refine reads_positional hlength hmembers (fun p hp => ?_) homitted
    by_cases hp' : p.1.2 = .absent
    · obtain ⟨hoptional, hnull⟩ := habsent p hp hp'
      rw [hp', hnull]
      exact reads_null hoptional
    · exact reads_member (h p hp hp') (ih p hp hp' (hitems _ (List.mem_map_of_mem hp)))

end Json

end ClassFacts

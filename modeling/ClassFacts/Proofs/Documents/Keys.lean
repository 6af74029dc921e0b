import ClassFacts.Proofs.Documents.RoundTrip
import ClassFacts.Proofs.Json.WellFormed

namespace ClassFacts

open Document (toJson)
open Json

/-- An entry of the object that stands for a record: what is said of a member, or any text behind
a key that is no member's. -/
inductive FreeEntry
  | member (name : String)
  | other (key : String) (text : List Char)

namespace FreeEntry

def member? : FreeEntry → Option String
  | .member name => some name
  | .other _ _ => none

/-- The members that are written, in the order in which they come. -/
def written (entries : List FreeEntry) : List String :=
  entries.filterMap member?

def leavesOut (entries : List FreeEntry) (name : String) : Bool :=
  !(written entries).contains name

/-- Entries that write members of a record once each, in any order, with anything that is well
formed between them. -/
structure Fit (r : Record) (entries : List FreeEntry) : Prop where
  known : ∀ name ∈ written entries, name ∈ r.members.map Member.name
  once : (written entries).Nodup
  foreign : ∀ key text, .other key text ∈ entries →
    key ∉ r.members.map Member.name ∧ WellFormed text

end FreeEntry

open FreeEntry (written leavesOut)

/-- What a member holds: what stands for it if it is left out. -/
def Member.unlessOmitted (omitted : String → Bool) (m : Member) (d : Document) : Document :=
  if omitted m.name then m.fallback?.getD .absent else d

namespace Document

/-- The members of a record by name, with what a document says of them. -/
def said (r : Record) : Document → List (String × Member × Document)
  | .record documents => (r.members.zip documents).map fun p => (p.1.name, p)
  | _ => []

/-- The JSON value of a member; one that is absent has the value of nothing. -/
def memberJson (r : Record) (d : Document) (name : String) : Value :=
  match (d.said r).lookup name with
  | some (m, e) => toJson m.shape e
  | none => .null

def freeEntry (r : Record) (d : Document) : FreeEntry → String × List Char
  | .member name => (name, (memberJson r d name).compactText)
  | .other key source => (key, source)

/-- A document of a record with its entries written freely. -/
def freeText (r : Record) (d : Document) (entries : List FreeEntry) : List Char :=
  '\x7b' :: (separated true ((entries.map (freeEntry r d)).map entryText) ++ ['\x7d'])

/-- A document of a record in which members that are left out have what stands for them. -/
def withDefaults (r : Record) (omitted : String → Bool) : Document → Document
  | .record documents =>
    .record ((r.members.zip documents).map fun p => p.1.unlessOmitted omitted p.2)
  | d => d

end Document

namespace Json

variable {depth : Nat} {r : Record} {members : List Document}

theorem readRecordEntry_foreign {read : Shape → List Char → Except Fault (Front Document)}
    (found : List (String × Document)) {key : String} (hkey : key ∉ r.members.map Member.name)
    {text : List Char} (htext : WellFormed text) {rest : List Char} (hrest : Ends rest) :
    readRecordEntry read r found key (':' :: (text ++ rest)) = .ok (found, rest) := by
  have hmember : r.member? key = none := by
    rw [Record.member?, List.find?_eq_none]
    intro m hm he
    exact hkey (List.mem_map.mpr ⟨m, hm, by simpa using he⟩)
  simp [readRecordEntry, hmember, readMark_cons (show isSpace ':' = false from rfl),
    skipValue_wellFormed htext hrest]

theorem said_names_nodup (hlength : members.length = r.members.length) :
    (((Document.record members).said r).map Prod.fst).Nodup := by
  rw [Document.said, List.map_map]
  exact Record.zip_names_nodup hlength

theorem lookup_said (hlength : members.length = r.members.length) {m : Member} {d : Document}
    (hp : (m, d) ∈ r.members.zip members) :
    ((Document.record members).said r).lookup m.name = some (m, d) :=
  lookup_of_mem (said_names_nodup hlength) (List.mem_map.mpr ⟨(m, d), hp, rfl⟩)

theorem exists_of_member (hlength : members.length = r.members.length) {m : Member}
    (h : m ∈ r.members) : ∃ d, (m, d) ∈ r.members.zip members := by
  have hfst : (r.members.zip members).map Prod.fst = r.members := List.map_fst_zip (by omega)
  rw [← hfst] at h
  obtain ⟨⟨_, d⟩, hp, rfl⟩ := List.mem_map.mp h
  exact ⟨d, hp⟩

/-- What has been gathered from the entries of a record, the last in front. -/
def gatheredFreely (r : Record) (d : Document) (entries : List FreeEntry) :
    List (String × Document) :=
  ((written entries).map fun name =>
    (name, (((d.said r).lookup name).map Prod.snd).getD .absent)).reverse

theorem gathers_free (h : Conforms (.record r) (.record members)) {entries : List FreeEntry}
    {found : List (String × Document)} (hfit : FreeEntry.Fit r entries)
    (hdepth : ∀ name ∈ written entries,
      ((Document.record members).memberJson r name).nesting ≤ depth)
    (hnew : ∀ name ∈ written entries, name ∉ found.map Prod.fst) :
    Gathers (readRecordEntry (readShape depth) r) found
      (entries.map ((Document.record members).freeEntry r))
      (gatheredFreely r (.record members) entries ++ found) := by
  induction entries generalizing found with
  | nil => exact .done
  | cons e entries ih =>
    obtain ⟨hknown, honce, hforeign⟩ := hfit
    cases e with
    | other key text =>
      have hrest := @ih found ⟨hknown, honce, fun k t hk => hforeign k t (by simp [hk])⟩ hdepth hnew
      obtain ⟨hkey, htext⟩ := hforeign key text (by simp)
      exact .step (fun rest => readRecordEntry_foreign found hkey htext) hrest
    | member name =>
      have hlength := h.length_members
      have hcons : written (.member name :: entries) = name :: written entries := rfl
      rw [hcons] at hknown honce hdepth hnew
      rw [List.nodup_cons] at honce
      obtain ⟨m, hm, rfl⟩ := List.mem_map.mp (hknown name (by simp))
      obtain ⟨d, hp⟩ := exists_of_member hlength hm
      have hlookup := lookup_said hlength hp
      have hshallow := hdepth m.name (by simp)
      have hrest := @ih ((m.name, d) :: found)
        ⟨fun n hn => hknown n (by simp [hn]), honce.2, fun k t hk => hforeign k t (by simp [hk])⟩
        (fun n hn => hdepth n (by simp [hn])) (by
          intro n hn hin
          rcases List.mem_cons.mp hin with rfl | hin
          · exact honce.1 hn
          · exact hnew n (by simp [hn]) hin)
      have hgathered : gatheredFreely r (.record members) (.member m.name :: entries) ++ found =
          gatheredFreely r (.record members) entries ++ (m.name, d) :: found := by
        simp [gatheredFreely, hcons, hlookup]
      have hentry : (Document.record members).freeEntry r (.member m.name) =
          (m.name, (toJson m.shape d).compactText) := by
        simp [Document.freeEntry, Document.memberJson, hlookup]
      simp only [Document.memberJson, hlookup] at hshallow
      rw [hgathered, List.map_cons, hentry]
      refine .step (fun rest hends => ?_) hrest
      have hholds : m.Holds d := by
        obtain ⟨documents, hall, heq⟩ := conforms_record_iff.mp h
        cases heq
        exact (List.forall₂_iff_zip.mp hall).2 hp
      rcases hholds with ⟨hoptional, rfl⟩ | hconforms
      · have hnull : toJson m.shape .absent = .null := by
          simp [toJson]
        rw [hnull]
        exact readRecordEntry_reads hm (hnew m.name (by simp)) (reads_null hoptional) rest hends
      · exact readRecordEntry_compactText hm hconforms (hnew m.name (by simp))
          (reads_of_conforms hconforms hshallow) rest hends

end Json

/-- The members that have to be written, in the order of their declaration. -/
def Record.required : Record → List String
  | .typeRef => ["name"]
  | .field | .parameter | .constant => ["name", "type"]
  | .method => ["name", "returns"]
  | .annotationUse => ["type"]
  | .classDecl => ["name", "qualified_name"]
  | .model | .config => []

theorem Record.required_eq (r : Record) :
    r.required = (r.members.filter (·.fallback?.isNone)).map Member.name := by
  cases r <;> rfl

theorem Record.mem_required {r : Record} {m : Member} (hm : m ∈ r.members)
    (hnone : m.fallback? = none) : m.name ∈ r.required := by
  rw [Record.required_eq]
  exact List.mem_map_of_mem (List.mem_filter.mpr ⟨hm, by simp [hnone]⟩)

namespace FreeEntry

variable {r : Record} {members : List Document} {entries : List FreeEntry}

theorem lookup_gatheredFreely (hlength : members.length = r.members.length)
    (honce : (written entries).Nodup) {m : Member} {d : Document}
    (hp : (m, d) ∈ r.members.zip members) :
    (Json.gatheredFreely r (.record members) entries).lookup m.name =
      if leavesOut entries m.name then none else some d := by
  have hkeys : (Json.gatheredFreely r (.record members) entries).map Prod.fst =
      (written entries).reverse := by
    simp [Json.gatheredFreely, Function.comp_def]
  cases homitted : leavesOut entries m.name with
  | true =>
    have hout : m.name ∉ written entries := by
      simpa [leavesOut] using homitted
    exact lookup_eq_none (by rw [hkeys]; simpa using hout)
  | false =>
    have hin : m.name ∈ written entries := by
      simpa [leavesOut] using homitted
    refine lookup_of_mem (by rw [hkeys]; exact List.nodup_reverse.mpr honce) ?_
    rw [Json.gatheredFreely, List.mem_reverse]
    exact List.mem_map.mpr ⟨m.name, hin, by simp [Json.lookup_said hlength hp]⟩

/-- A record with no required member left out is complete. -/
theorem complete_free (hlength : members.length = r.members.length)
    (honce : (written entries).Nodup)
    (hrequired : ∀ name ∈ r.required, leavesOut entries name = false) :
    r.complete (Json.gatheredFreely r (.record members) entries) =
      .ok ((r.members.zip members).map fun p => p.1.unlessOmitted (leavesOut entries) p.2) := by
  have hfst : (r.members.zip members).map Prod.fst = r.members := List.map_fst_zip (by omega)
  rw [Record.complete, mapM_eq_ok_iff]
  conv => arg 2; rw [← hfst]
  rw [List.forall₂_map_left_iff, List.forall₂_map_right_iff]
  refine List.forall₂_same.mpr fun ⟨m, d⟩ hp => ?_
  rw [lookup_gatheredFreely hlength honce hp]
  cases homitted : leavesOut entries m.name with
  | false => simp [Member.unlessOmitted, homitted]
  | true =>
    cases hfallback : m.fallback? with
    | some value => simp [Member.unlessOmitted, homitted, hfallback]
    | none =>
      have hkept := hrequired m.name (Record.mem_required (List.of_mem_zip hp).1 hfallback)
      rw [homitted] at hkept
      cases hkept

/-- Of the required members that are left out, the one that was declared first is named. -/
theorem complete_free_error (hlength : members.length = r.members.length)
    (honce : (written entries).Nodup) {key : String}
    (hkey : r.required.find? (leavesOut entries) = some key) :
    r.complete (Json.gatheredFreely r (.record members) entries) = .error key := by
  rw [Record.required_eq, List.find?_map, List.find?_filter, Option.map_eq_some_iff] at hkey
  obtain ⟨m, hm, rfl⟩ := hkey
  obtain ⟨hmissing, before, after, hmembers, hbefore⟩ := List.find?_eq_some_iff_append.mp hm
  rw [decide_eq_true_eq] at hmissing
  rw [Record.complete, hmembers]
  refine mapM_eq_error (fun y hy => ?_) ?_
  · obtain ⟨d, hp⟩ := Json.exists_of_member hlength
      (show y ∈ r.members by simp [hmembers, hy])
    rw [lookup_gatheredFreely hlength honce hp]
    cases homitted : leavesOut entries y.name with
    | false => exact ⟨d, by simp⟩
    | true =>
      have hhas := hbefore y hy
      obtain ⟨value, hvalue⟩ : ∃ value, y.fallback? = some value := by
        cases hfallback : y.fallback? with
        | some value => exact ⟨value, rfl⟩
        | none => simp [homitted, hfallback] at hhas
      exact ⟨value, by simp [hvalue]⟩
  · obtain ⟨d, hp⟩ := Json.exists_of_member hlength
      (show m ∈ r.members by simp [hmembers])
    have hnone : m.fallback? = none := by simpa using hmissing.1
    have homitted : leavesOut entries m.name = true := hmissing.2
    rw [lookup_gatheredFreely hlength honce hp]
    simp [homitted, hnone]

end FreeEntry

namespace Json

variable {r : Record} {members : List Document} {entries : List FreeEntry}

theorem readShape_free {depth : Nat} (h : Conforms (.record r) (.record members))
    (hfit : FreeEntry.Fit r entries)
    (hdepth : ∀ name ∈ written entries,
      ((Document.record members).memberJson r name).nesting ≤ depth) (rest : List Char) :
    readShape (depth + 1) (.record r) ((Document.record members).freeText r entries ++ rest) =
      match r.complete (gatheredFreely r (.record members) entries) with
      | .ok members => .ok (.record members, rest)
      | .error key => .error (.mismatch (.missing key)) := by
  have hgathers := @gathers_free depth r members h entries [] hfit hdepth (by simp)
  rw [List.append_nil] at hgathers
  rw [Document.freeText, List.cons_append, readShape_record,
    readEntries_object hgathers rest (by simp)]
  rfl

variable (h : Conforms (.record r) (.record members)) (hfit : FreeEntry.Fit r entries)
  (hdepth : ∀ name ∈ written entries,
    ((Document.record members).memberJson r name).nesting < maxDepth)

include h hfit hdepth

theorem readDocument_free (hrequired : ∀ name ∈ r.required, leavesOut entries name = false) :
    readDocument (.record r) (String.ofList ((Document.record members).freeText r entries)) =
      .ok ((Document.record members).withDefaults r (leavesOut entries)) := by
  have hread := @readShape_free r members entries 126 h hfit
    (fun name hname => Nat.le_of_lt_succ (hdepth name hname)) []
  rw [FreeEntry.complete_free h.length_members hfit.once hrequired, List.append_nil] at hread
  exact whole_ok (by rw [String.toList_ofList]; exact hread)

theorem readDocument_free_missing {key : String}
    (hkey : r.required.find? (leavesOut entries) = some key) :
    readDocument (.record r) (String.ofList ((Document.record members).freeText r entries)) =
      .error (.mismatch (.missing key)) := by
  have hread := @readShape_free r members entries 126 h hfit
    (fun name hname => Nat.le_of_lt_succ (hdepth name hname)) []
  rw [FreeEntry.complete_free_error h.length_members hfit.once hkey, List.append_nil] at hread
  exact whole_error (by rw [String.toList_ofList]; exact hread)

end Json

end ClassFacts

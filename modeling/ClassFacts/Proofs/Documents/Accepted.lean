import ClassFacts.Json.Document
import ClassFacts.Proofs.Documents.Conforms
import ClassFacts.Proofs.Keyed
import Mathlib.Data.List.Forall2

namespace ClassFacts

open Document (toJson)
open Json

theorem conforms_list_nil (item : Shape) : Conforms (.list item) (.list []) :=
  .list (by simp)

theorem conforms_table_nil (item : Shape) : Conforms (.table item) (.table []) :=
  .table List.nodup_nil (by simp)

/-- Whatever is assumed of a missing member would be accepted in its place. -/
theorem Record.conforms_assumed (r : Record) :
    ∀ m ∈ r.members, ∀ d, m.presence = .assumed d → Conforms m.shape d := by
  cases r <;> simp [Record.members, Member.required, Member.optional, Member.assumed,
    Member.several, conforms_list_nil, conforms_table_nil]
  case typeRef => exact .text ""
  case field => exact .choice (by decide)
  case classDecl => exact .choice (by decide)
  case config =>
    exact ⟨.names (by decide), .names (by decide), .names (by decide), .names (by decide),
      .names (by decide), .text _, .text _, .text _, .count (by decide)⟩

theorem Record.holds_of_fallback? {r : Record} {m : Member} {d : Document} (hm : m ∈ r.members)
    (h : m.fallback? = some d) : m.Holds d := by
  unfold Member.fallback? at h
  split at h
  next => cases h
  next hoptional =>
    cases h
    exact .inl ⟨by simp [Member.isOptional, hoptional], rfl⟩
  next hassumed =>
    cases h
    exact .inr (r.conforms_assumed m hm d hassumed)

/-- How many containers a document of the record may nest when it is written, however few
nested in what was read: members that were missing are written as empty lists. -/
def Record.headroom : Record → Nat
  | .classDecl | .config => 2
  | .model => 4
  | _ => 0

def Shape.headroom : Shape → Nat
  | .record r => r.headroom
  | .list item => if item.headroom = 0 then 0 else item.headroom + 1
  | .table item => if item.headroom = 0 then 0 else item.headroom + 1
  | _ => 0

theorem Record.headroom_of_mem (r : Record) :
    ∀ m ∈ r.members, m.shape.headroom = 0 ∨ m.shape.headroom < r.headroom := by
  cases r <;> decide

theorem nesting_ofNames (names : List String) :
    (toJson .names (.ofNames names)).nesting = 1 := by
  have hitems : itemsNesting (Document.itemsToJson .text (names.map .text)) ≤ 0 := by
    rw [itemsNesting_le_iff, Document.itemsToJson_eq]
    intro v hv
    obtain ⟨_, hd, rfl⟩ := List.mem_map.mp hv
    obtain ⟨name, _, rfl⟩ := List.mem_map.mp hd
    exact Nat.le_refl 0
  have hjson : toJson .names (.ofNames names) =
      .array (Document.itemsToJson .text (names.map .text)) := rfl
  rw [hjson, Value.nesting]
  omega

/-- A missing member is written as an empty container only where there is room for it: in a
record that holds another one, which nests as deep. -/
theorem Record.nesting_of_fallback? (r : Record) :
    ∀ m ∈ r.members, ∀ d, m.fallback? = some d → m.omits d = false →
      (toJson m.shape d).nesting = 0 ∨ (toJson m.shape d).nesting = 1 ∧
        (2 ≤ r.headroom ∨ ∃ n ∈ r.members, n.fallback? = none ∧ ∃ s, n.shape = .record s) := by
  cases r <;> simp [Record.members, Member.required, Member.optional, Member.assumed,
    Member.several, Member.fallback?, Member.omits, Member.isOptional, toJson, Value.nesting,
    Document.itemsToJson, Document.entriesToJson, itemsNesting, entriesNesting, nesting_ofNames,
    Record.headroom]

/-! ### What a depth allows -/

/-- A document that may have been read at a depth. -/
def Allowed (depth : Nat) (shape : Shape) (d : Document) : Prop :=
  Conforms shape d ∧ (toJson shape d).nesting ≤ max depth shape.headroom

/-- What a member may come to: what was read for it, or what stands for it. -/
def Member.Allowed (depth : Nat) (m : Member) (d : Document) : Prop :=
  ClassFacts.Allowed depth m.shape d ∨ m.fallback? = some d

variable {depth : Nat} {item : Shape}

theorem allowed_list {items : List Document} (h : ∀ d ∈ items, Allowed depth item d) :
    Allowed (depth + 1) (.list item) (.list items) := by
  refine ⟨.list fun d hd => (h d hd).1, ?_⟩
  have hitems : itemsNesting (Document.itemsToJson item items) ≤ max depth item.headroom := by
    rw [itemsNesting_le_iff, Document.itemsToJson_eq]
    intro v hv
    obtain ⟨d, hd, rfl⟩ := List.mem_map.mp hv
    exact (h d hd).2
  rw [toJson, Value.nesting, Shape.headroom]
  split <;> omega

theorem allowed_table {entries : List (String × Document)} (hnodup : (Entries.keys entries).Nodup)
    (h : ∀ e ∈ entries, Allowed depth item e.2) :
    Allowed (depth + 1) (.table item) (.table entries) := by
  refine ⟨.table hnodup fun e he => (h e he).1, ?_⟩
  have hentries : entriesNesting (Document.entriesToJson item entries) ≤
      max depth item.headroom := by
    rw [entriesNesting_le_iff, Document.entriesToJson_eq]
    intro v hv
    obtain ⟨e, he, rfl⟩ := List.mem_map.mp hv
    exact (h e he).2
  rw [toJson, Value.nesting, Shape.headroom]
  split <;> omega

theorem headroom_of_lookup {name : String} {payload : Shape}
    (h : valueForms.lookup name = some payload) : payload.headroom = 0 := by
  have hall : ∀ form ∈ valueForms, form.2.headroom = 0 := by decide
  exact hall _ (mem_of_lookup h)

theorem allowed_form {name : String} {payload : Shape} {d : Document}
    (hname : valueForms.lookup name = some payload) (h : Allowed depth payload d) :
    Allowed (depth + 1) .value (.form name d) := by
  refine ⟨.form hname h.1, ?_⟩
  have hdeep := h.2
  rw [headroom_of_lookup hname] at hdeep
  simp only [toJson, formShape_eq hname, Value.nesting, entriesNesting, Shape.headroom]
  omega

theorem nesting_pos_of_record {r : Record} {d : Document} (h : Conforms (.record r) d) :
    0 < (toJson (.record r) d).nesting := by
  cases h with
  | record => simp [toJson, Value.nesting]

/-- A record that had to be read leaves room for an empty container beside it. -/
theorem room_of_required {r s : Record} {members : List Document}
    (h : List.Forall₂ (Member.Allowed depth) r.members members) {m : Member} (hm : m ∈ r.members)
    (hrequired : m.fallback? = none) (hs : m.shape = .record s) :
    2 ≤ max (depth + 1) r.headroom := by
  obtain ⟨hlength, hzip⟩ := List.forall₂_iff_zip.mp h
  have hfst : (r.members.zip members).map Prod.fst = r.members := List.map_fst_zip (by omega)
  rw [← hfst] at hm
  obtain ⟨⟨m, d⟩, hp, rfl⟩ := List.mem_map.mp hm
  have hroom := r.headroom_of_mem m (List.of_mem_zip hp).1
  rcases hzip hp with ⟨hconforms, hdeep⟩ | hfallback
  · rw [hs] at hconforms hdeep hroom
    have hpos := nesting_pos_of_record hconforms
    omega
  · cases hrequired.symm.trans hfallback

theorem nesting_of_allowed {r : Record} {members : List Document}
    (h : List.Forall₂ (Member.Allowed depth) r.members members) {m : Member} {d : Document}
    (hp : (m, d) ∈ Document.written r.members members) :
    (toJson m.shape d).nesting + 1 ≤ max (depth + 1) r.headroom := by
  obtain ⟨hp, homits⟩ := List.mem_filter.mp hp
  have hm := (List.of_mem_zip hp).1
  rcases (List.forall₂_iff_zip.mp h).2 hp with ⟨_, hdeep⟩ | hfallback
  · have hroom := r.headroom_of_mem m hm
    omega
  -- Written, but not read: an empty container, for which there has to be room.
  · rcases r.nesting_of_fallback? m hm d hfallback (by simpa using homits) with
      hflat | ⟨hflat, hroomy | ⟨n, hn, hrequired, s, hs⟩⟩
    · omega
    · omega
    · have hroom := room_of_required h hn hrequired hs
      omega

theorem allowed_record {r : Record} {members : List Document}
    (h : List.Forall₂ (Member.Allowed depth) r.members members) :
    Allowed (depth + 1) (.record r) (.record members) := by
  obtain ⟨hlength, hzip⟩ := List.forall₂_iff_zip.mp h
  have hholds : List.Forall₂ Member.Holds r.members members :=
    List.forall₂_iff_zip.mpr ⟨hlength, @fun m d hp => by
      rcases hzip hp with hallowed | hfallback
      · exact .inr hallowed.1
      · exact Record.holds_of_fallback? (List.of_mem_zip hp).1 hfallback⟩
  refine ⟨conforms_record_iff.mpr ⟨members, hholds, rfl⟩, ?_⟩
  have hentries : entriesNesting (Document.membersToJson r.members members) ≤
      max (depth + 1) r.headroom - 1 := by
    rw [entriesNesting_le_iff, Document.membersToJson_eq]
    intro e he
    obtain ⟨⟨m, d⟩, hp, rfl⟩ := List.mem_map.mp he
    have hdeep := nesting_of_allowed h hp
    dsimp only
    omega
  rw [toJson, Value.nesting, Shape.headroom]
  omega

namespace Json

theorem mem_of_checkVariant {known : List String} {name found : String}
    (h : checkVariant known name = .ok found) : found ∈ known := by
  unfold checkVariant at h
  split at h
  next hknown => cases h; exact hknown
  next => cases h

/-- A reader of which nothing comes that its depth does not allow. -/
def Bounded (depth : Nat) (read : Shape → List Char → Except Fault (Front Document)) : Prop :=
  ∀ shape text d rest, read shape text = .ok (d, rest) → Allowed depth shape d

variable {read : Shape → List Char → Except Fault (Front Document)}

theorem allowed_of_readMember (hread : Bounded depth read) {m : Member} {text rest : List Char}
    {d : Document} (h : readMember read m text = .ok (d, rest)) : m.Allowed depth d := by
  unfold readMember at h
  split at h
  next hoptional _ =>
    obtain ⟨after, _, h⟩ := bind_eq_ok.mp h
    cases h
    exact .inr (Member.fallback?_of_isOptional hoptional)
  next => exact .inl (hread _ _ _ _ h)

theorem allowed_of_readPositional (hread : Bounded depth read) {r : Record}
    {members : List Member} {done : Nat} {text rest : List Char} {documents : List Document}
    (h : readPositional read r members done text = .ok (documents, rest)) :
    List.Forall₂ (Member.Allowed depth) members documents := by
  induction members generalizing done text rest documents with
  | nil =>
    obtain ⟨after, _, h⟩ := bind_eq_ok.mp h
    cases h
    exact .nil
  | cons m members ih =>
    obtain ⟨step, _, h⟩ := bind_eq_ok.mp h
    cases step with
    | item after =>
      obtain ⟨⟨d, middle⟩, hd, h⟩ := bind_eq_ok.mp h
      obtain ⟨⟨others, last⟩, hothers, h⟩ := bind_eq_ok.mp h
      cases h
      exact .cons (allowed_of_readMember hread hd) (ih hothers)
    | close after =>
      dsimp only at h
      split at h
      next hmembers =>
        cases h
        exact (forall₂_of_mapM hmembers).imp fun _ _ hfallback => .inr hfallback
      next => cases h

/-- What has been read of a record. -/
def Gathered (depth : Nat) (r : Record) (written : List (String × Document)) : Prop :=
  ∀ e ∈ written, ∀ m ∈ r.members, m.name = e.1 → m.Allowed depth e.2

theorem gathered_readRecordEntry (hread : Bounded depth read) {r : Record}
    {written written' : List (String × Document)} {key : String} {text rest : List Char}
    (h : readRecordEntry read r written key text = .ok (written', rest))
    (hwritten : Gathered depth r written) : Gathered depth r written' := by
  unfold readRecordEntry at h
  split at h
  next =>
    obtain ⟨after, _, h⟩ := bind_eq_ok.mp h
    obtain ⟨last, _, h⟩ := bind_eq_ok.mp h
    cases h
    exact hwritten
  next m hm =>
    split at h
    next => cases h
    obtain ⟨after, _, h⟩ := bind_eq_ok.mp h
    obtain ⟨⟨d, last⟩, hd, h⟩ := bind_eq_ok.mp h
    cases h
    intro e he n hn hname
    rcases List.mem_cons.mp he with rfl | he
    · have hn' := Record.member?_of_mem hn
      rw [hname, hm] at hn'
      cases hn'
      exact allowed_of_readMember hread hd
    · exact hwritten e he n hn hname

theorem allowed_of_complete {r : Record} {written : List (String × Document)}
    {documents : List Document} (hwritten : Gathered depth r written)
    (h : r.complete written = .ok documents) :
    List.Forall₂ (Member.Allowed depth) r.members documents := by
  obtain ⟨hlength, hzip⟩ := List.forall₂_iff_zip.mp (mapM_eq_ok_iff.mp h)
  refine List.forall₂_iff_zip.mpr ⟨hlength, @fun m d hp => ?_⟩
  have hcomplete := hzip hp
  split at hcomplete
  next value hlookup =>
    cases hcomplete
    exact hwritten (m.name, d) (mem_of_lookup hlookup) m (List.of_mem_zip hp).1 rfl
  next =>
    split at hcomplete
    next value hfallback =>
      cases hcomplete
      exact .inr hfallback
    next => cases hcomplete

/-- What has been read of a table. -/
def TableOf (depth : Nat) (item : Shape) (entries : List (String × Document)) : Prop :=
  (Entries.keys entries).Nodup ∧ ∀ e ∈ entries, Allowed depth item e.2

/-! ### Shape by shape -/

-- The equations of the reader are made here once for all the lemmas below.
attribute [local simp] readShape

variable {text rest : List Char} {d : Document}

theorem allowed_of_readNames (h : readShape depth .names text = .ok (d, rest)) :
    Allowed depth .names d := by
  rw [readShape] at h
  split at h
  next =>
    cases depth with
    | zero => cases h
    | succ depth =>
      obtain ⟨⟨names, after⟩, _, h⟩ := bind_eq_ok.mp h
      cases h
      refine ⟨.names (NameSet.ofList names).distinct, ?_⟩
      rw [nesting_ofNames]
      omega
  next => cases h

theorem allowed_of_readList (hread : ∀ k < depth, Bounded k (readShape k))
    (h : readShape depth (.list item) text = .ok (d, rest)) : Allowed depth (.list item) d := by
  rw [readShape] at h
  split at h
  next =>
    cases depth with
    | zero => cases h
    | succ depth =>
      obtain ⟨⟨items, after⟩, hitems, h⟩ := bind_eq_ok.mp h
      cases h
      have hitem := hread depth (Nat.lt_succ_self depth) item
      exact allowed_list (forall_of_readItems hitem hitems)
  next => cases h

theorem allowed_of_readTable (hread : ∀ k < depth, Bounded k (readShape k))
    (h : readShape depth (.table item) text = .ok (d, rest)) : Allowed depth (.table item) d := by
  rw [readShape] at h
  split at h
  next =>
    cases depth with
    | zero => cases h
    | succ depth =>
      obtain ⟨⟨entries, after⟩, hentries, h⟩ := bind_eq_ok.mp h
      cases h
      have htable : TableOf depth item entries :=
        each_of_readEntries (hread depth (Nat.lt_succ_self depth) item) hentries
      exact allowed_table htable.1 htable.2
  next => cases h

theorem allowed_of_readChoice {c : Choice} (h : readShape depth (.choice c) text = .ok (d, rest)) :
    Allowed depth (.choice c) d := by
  rw [readShape] at h
  split at h
  next => cases h
  next =>
    obtain ⟨⟨name, after⟩, _, h⟩ := bind_eq_ok.mp h
    obtain ⟨known, hknown, h⟩ := bind_eq_ok.mp h
    cases h
    exact ⟨.choice (mem_of_checkVariant hknown), Nat.zero_le _⟩
  next =>
    cases depth with
    | zero => cases h
    | succ depth =>
      obtain ⟨⟨name, after⟩, _, h⟩ := bind_eq_ok.mp h
      obtain ⟨known, hknown, h⟩ := bind_eq_ok.mp h
      obtain ⟨marked, _, h⟩ := bind_eq_ok.mp h
      obtain ⟨emptied, _, h⟩ := bind_eq_ok.mp h
      obtain ⟨closed, _, h⟩ := bind_eq_ok.mp h
      cases h
      exact ⟨.choice (mem_of_checkVariant hknown), Nat.zero_le _⟩
  next => cases h

theorem allowed_of_readForm (hread : ∀ k < depth, Bounded k (readShape k))
    (h : readShape depth .value text = .ok (d, rest)) : Allowed depth .value d := by
  rw [readShape] at h
  split at h
  next => cases h
  next =>
    obtain ⟨⟨name, after⟩, _, h⟩ := bind_eq_ok.mp h
    obtain ⟨known, _, h⟩ := bind_eq_ok.mp h
    cases h
  next =>
    cases depth with
    | zero => cases h
    | succ depth =>
      obtain ⟨⟨name, after⟩, _, h⟩ := bind_eq_ok.mp h
      dsimp only at h
      split at h
      next => cases h
      next payload hname =>
        obtain ⟨marked, _, h⟩ := bind_eq_ok.mp h
        obtain ⟨⟨v, last⟩, hv, h⟩ := bind_eq_ok.mp h
        obtain ⟨closed, _, h⟩ := bind_eq_ok.mp h
        cases h
        exact allowed_form hname (hread depth (Nat.lt_succ_self depth) _ _ _ _ hv)
  next => cases h

theorem allowed_of_readRecord {r : Record} (hread : ∀ k < depth, Bounded k (readShape k))
    (h : readShape depth (.record r) text = .ok (d, rest)) : Allowed depth (.record r) d := by
  rw [readShape] at h
  split at h
  next =>
    cases depth with
    | zero => cases h
    | succ depth =>
      obtain ⟨⟨members, after⟩, hmembers, h⟩ := bind_eq_ok.mp h
      cases h
      exact allowed_record
        (allowed_of_readPositional (hread depth (Nat.lt_succ_self depth)) hmembers)
  next =>
    cases depth with
    | zero => cases h
    | succ depth =>
      obtain ⟨⟨written, after⟩, hwritten, h⟩ := bind_eq_ok.mp h
      have hempty : Gathered depth r [] := by simp [Gathered]
      have hgathered := invariant_of_readEntries
        (fun _ _ _ _ _ => gathered_readRecordEntry (hread depth (Nat.lt_succ_self depth)))
        hempty hwritten
      dsimp only at h
      split at h
      next members hmembers =>
        cases h
        exact allowed_record (allowed_of_complete hgathered hmembers)
      next => cases h
  next => cases h

/-- Whatever is read has its shape, and is written with hardly more depth than it was given. -/
theorem bounded_readShape (depth : Nat) : Bounded depth (readShape depth) := by
  -- The depth is what falls from a container to what it holds; texts may be of any length.
  induction depth using Nat.strongRecOn with
  | ind depth ih =>
  intro shape text d rest h
  cases shape with
  | text =>
    rw [readShape] at h
    obtain ⟨⟨s, after⟩, _, h⟩ := bind_eq_ok.mp h
    cases h
    exact ⟨.text s, Nat.zero_le _⟩
  | count =>
    rw [readShape] at h
    obtain ⟨⟨n, after⟩, hn, h⟩ := bind_eq_ok.mp h
    cases h
    exact ⟨.count (readCount_lt hn), Nat.zero_le _⟩
  | names => exact allowed_of_readNames h
  | list item => exact allowed_of_readList ih h
  | table item => exact allowed_of_readTable ih h
  | choice c => exact allowed_of_readChoice h
  | value => exact allowed_of_readForm ih h
  | record r => exact allowed_of_readRecord ih h

end Json

end ClassFacts

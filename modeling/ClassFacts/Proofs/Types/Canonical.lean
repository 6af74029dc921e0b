import ClassFacts.Model.TypeRef
import ClassFacts.Proofs.Text.Spans
import Mathlib.Data.List.Forall2

namespace ClassFacts.TypeRef

/-- What holds of a reference as soon as it holds of its arguments holds of all references. -/
@[elab_as_elim]
theorem byArguments {motive : TypeRef → Prop}
    (node : ∀ t : TypeRef, (∀ a ∈ t.arguments, motive a) → motive t) (t : TypeRef) : motive t :=
  node t fun a ha =>
    have hsize : sizeOf a < sizeOf t := by
      obtain ⟨name, qualifiedName, kind, arguments⟩ := t
      exact Nat.lt_of_lt_of_le (List.sizeOf_lt_of_mem ha) (by simp)
    byArguments node a
termination_by sizeOf t

/-- Two references have the same qualified names, argument by argument at every depth. -/
inductive SameNames : TypeRef → TypeRef → Prop
  | node {s t : TypeRef} : s.qualified = t.qualified →
      List.Forall₂ SameNames s.arguments t.arguments → SameNames s t

/-- The characters that have a meaning in a canonical name. -/
def delimiters : List Char :=
  ['<', '>', ',']

def Plain (name : String) : Prop :=
  ∀ c ∈ name.toList, c ∉ delimiters

instance (name : String) : Decidable (Plain name) :=
  List.decidableBAll (· ∉ delimiters) name.toList

/-- A reference stands in another one: it is this one, or stands in one of its arguments. -/
inductive StandsIn (u : TypeRef) : TypeRef → Prop
  | self : StandsIn u u
  | argument {a t : TypeRef} : a ∈ t.arguments → StandsIn u a → StandsIn u t

/-- All the qualified names in a reference are plain. -/
def Separable (t : TypeRef) : Prop :=
  ∀ u, StandsIn u t → Plain u.qualified

theorem separable_iff {t : TypeRef} :
    Separable t ↔ Plain t.qualified ∧ ∀ a ∈ t.arguments, Separable a := by
  constructor
  · intro h
    exact ⟨h t .self, fun a ha u hu => h u (.argument ha hu)⟩
  · rintro ⟨hplain, harguments⟩ u hu
    cases hu with
    | self => exact hplain
    | argument ha hu => exact harguments _ ha u hu

theorem canonicalName_nil {t : TypeRef} (h : t.arguments = []) :
    t.canonicalName = t.qualified := by
  obtain ⟨name, qualifiedName, kind, arguments⟩ := t
  subst h
  rw [canonicalName, qualified]

theorem canonicalName_cons {t a : TypeRef} {more : List TypeRef} (h : t.arguments = a :: more) :
    t.canonicalName = t.qualified ++ "<" ++ a.canonicalName ++ canonicalRest more ++ ">" := by
  obtain ⟨name, qualifiedName, kind, arguments⟩ := t
  subst h
  rw [canonicalName, qualified]

theorem canonicalRest_congr {more others : List TypeRef}
    (ih : ∀ a ∈ more, ∀ b, SameNames a b → a.canonicalName = b.canonicalName)
    (h : List.Forall₂ SameNames more others) : canonicalRest more = canonicalRest others := by
  induction h with
  | nil => rfl
  | cons hab _ ihmore =>
    rw [canonicalRest, canonicalRest, ih _ List.mem_cons_self _ hab,
      ihmore fun a ha => ih a (List.mem_cons_of_mem _ ha)]

theorem canonicalName_congr {s t : TypeRef} (h : SameNames s t) :
    s.canonicalName = t.canonicalName := by
  induction s using byArguments generalizing t with
  | node s ih =>
    obtain ⟨hname, harguments⟩ := h
    cases hs : s.arguments with
    | nil =>
      rw [hs, List.forall₂_nil_left_iff] at harguments
      rw [canonicalName_nil hs, canonicalName_nil harguments, hname]
    | cons a more =>
      rw [hs] at harguments ih
      obtain ⟨b, others, hab, hmore, ht⟩ := List.forall₂_cons_left_iff.mp harguments
      rw [canonicalName_cons hs, canonicalName_cons ht, hname, ih a List.mem_cons_self hab,
        canonicalRest_congr (fun a ha b => ih a (List.mem_cons_of_mem _ ha)) hmore]

/-- Nothing follows, or a text that begins with a delimiter. -/
def Delimited (rest : List Char) : Prop :=
  ∀ c ∈ rest.head?, c ∈ delimiters

/-- Nothing follows, or a text that ends an argument. -/
def Closes (rest : List Char) : Prop :=
  ∀ c ∈ rest.head?, c = '>' ∨ c = ','

theorem closes_nil : Closes [] := by
  simp [Closes]

theorem Closes.delimited {rest : List Char} (h : Closes rest) : Delimited rest := by
  intro c hc
  rcases h c hc with rfl | rfl <;> decide

theorem closes_canonicalRest (more : List TypeRef) (rest : List Char) :
    Closes ((canonicalRest more).toList ++ '>' :: rest) := by
  cases more <;> simp [Closes, canonicalRest]

theorem span_plain {name : String} {rest : List Char} (hname : Plain name)
    (hrest : Delimited rest) :
    (name.toList ++ rest).takeWhile (· ∉ delimiters) = name.toList ∧
      (name.toList ++ rest).dropWhile (· ∉ delimiters) = rest :=
  Text.span_append (fun c hc => decide_eq_true (hname c hc)) fun c hc => by simp [hrest c hc]

/-- A plain name ends where the first delimiter is. -/
theorem plain_append_inj {name other : String} {rest rest' : List Char} (hname : Plain name)
    (hother : Plain other) (hrest : Delimited rest) (hrest' : Delimited rest')
    (h : name.toList ++ rest = other.toList ++ rest') : name = other ∧ rest = rest' := by
  obtain ⟨htake, hdrop⟩ := span_plain hname hrest
  obtain ⟨htake', hdrop'⟩ := span_plain hother hrest'
  rw [h] at htake hdrop
  exact ⟨String.toList_inj.mp (htake.symm.trans htake'), hdrop.symm.trans hdrop'⟩

/-- The text of a reference is told apart from that of any other one, whatever comes after. -/
def SelfDelimiting (s : TypeRef) : Prop :=
  ∀ {t : TypeRef} {rest rest' : List Char}, Separable t → Closes rest → Closes rest' →
    s.canonicalName.toList ++ rest = t.canonicalName.toList ++ rest' →
    SameNames s t ∧ rest = rest'

/-- Arguments that are told apart one by one are told apart together, up to their bracket. -/
theorem canonicalRest_append_inj {more others : List TypeRef} {rest rest' : List Char}
    (hmore : ∀ a ∈ more, SelfDelimiting a) (hothers : ∀ b ∈ others, Separable b)
    (h : (canonicalRest more).toList ++ '>' :: rest =
      (canonicalRest others).toList ++ '>' :: rest') :
    List.Forall₂ SameNames more others ∧ rest = rest' := by
  induction more generalizing others with
  | nil =>
    cases others with
    | nil => exact ⟨.nil, by simpa [canonicalRest] using h⟩
    | cons b others => simp [canonicalRest] at h
  | cons a more ih =>
    cases others with
    | nil => simp [canonicalRest] at h
    | cons b others =>
      rw [List.forall_mem_cons] at hmore hothers
      have htext : a.canonicalName.toList ++ ((canonicalRest more).toList ++ '>' :: rest) =
          b.canonicalName.toList ++ ((canonicalRest others).toList ++ '>' :: rest') := by
        simpa [canonicalRest] using h
      obtain ⟨hab, hafter⟩ := hmore.1 hothers.1 (closes_canonicalRest _ _)
        (closes_canonicalRest _ _) htext
      obtain ⟨hargs, hrest⟩ := ih hmore.2 hothers.2 hafter
      exact ⟨.cons hab hargs, hrest⟩

/-- What comes after the qualified name of a reference: its arguments in brackets, or none. -/
def bracketed : List TypeRef → List Char
  | [] => []
  | a :: more => '<' :: (a.canonicalName.toList ++ ((canonicalRest more).toList ++ ['>']))

theorem canonicalName_toList (t : TypeRef) :
    t.canonicalName.toList = t.qualified.toList ++ bracketed t.arguments := by
  cases h : t.arguments with
  | nil => rw [canonicalName_nil h, bracketed, List.append_nil]
  | cons a more => simp [canonicalName_cons h, bracketed]

theorem delimited_bracketed (arguments : List TypeRef) {rest : List Char} (h : Closes rest) :
    Delimited (bracketed arguments ++ rest) := by
  cases arguments with
  | nil => exact h.delimited
  | cons a more => simp [Delimited, bracketed, delimiters]

theorem bracketed_append_inj {arguments others : List TypeRef} {rest rest' : List Char}
    (harguments : ∀ a ∈ arguments, SelfDelimiting a) (hothers : ∀ b ∈ others, Separable b)
    (hrest : Closes rest) (hrest' : Closes rest')
    (h : bracketed arguments ++ rest = bracketed others ++ rest') :
    List.Forall₂ SameNames arguments others ∧ rest = rest' := by
  cases arguments with
  | nil =>
    cases others with
    | nil => exact ⟨.nil, h⟩
    | cons b others =>
      have hopen : rest.head? = some '<' := congrArg List.head? h
      have hbad := hrest '<' hopen
      simp at hbad
  | cons a more =>
    cases others with
    | nil =>
      have hopen : rest'.head? = some '<' := (congrArg List.head? h).symm
      have hbad := hrest' '<' hopen
      simp at hbad
    | cons b others =>
      -- Behind its bracket or its comma, the first argument is read in one and the same way.
      have htext : (canonicalRest (a :: more)).toList ++ '>' :: rest =
          (canonicalRest (b :: others)).toList ++ '>' :: rest' := by
        simpa [bracketed, canonicalRest] using h
      exact canonicalRest_append_inj harguments hothers htext

theorem selfDelimiting_of_separable {s : TypeRef} (hs : Separable s) : SelfDelimiting s := by
  induction s using byArguments with
  | node s ih =>
    obtain ⟨hplain, harguments⟩ := separable_iff.mp hs
    intro t rest rest' ht hrest hrest' h
    obtain ⟨hplain', harguments'⟩ := separable_iff.mp ht
    rw [canonicalName_toList, canonicalName_toList, List.append_assoc, List.append_assoc] at h
    obtain ⟨hname, hafter⟩ := plain_append_inj hplain hplain'
      (delimited_bracketed _ hrest) (delimited_bracketed _ hrest') h
    obtain ⟨hsame, hrests⟩ := bracketed_append_inj (fun a ha => ih a ha (harguments a ha))
      harguments' hrest hrest' hafter
    exact ⟨.node hname hsame, hrests⟩

/-- A canonical name says what the qualified names of a reference are, and nothing else. -/
theorem canonicalName_eq_iff {s t : TypeRef} (hs : Separable s) (ht : Separable t) :
    s.canonicalName = t.canonicalName ↔ SameNames s t := by
  constructor
  · intro h
    have htext : s.canonicalName.toList ++ [] = t.canonicalName.toList ++ [] := by rw [h]
    exact (selfDelimiting_of_separable hs ht closes_nil closes_nil htext).1
  · exact canonicalName_congr

/-- A map by its simple name, from what has no name to what has a space in its name. -/
def namedSimply : TypeRef :=
  ⟨"Map", "", some .map, [⟨"", "", none, []⟩, ⟨"a b", "", none, [⟨"", "", none, []⟩]⟩]⟩

/-- The same map by qualified names. -/
def namedInFull : TypeRef :=
  ⟨"M", "Map", none, [⟨"", "", none, []⟩, ⟨"b", "a b", some .classType, [⟨"", "", none, []⟩]⟩]⟩

theorem canonicalName_eq_iff_named :
    Separable namedSimply ∧ Separable namedInFull ∧
      (namedSimply.canonicalName = namedInFull.canonicalName ↔
        SameNames namedSimply namedInFull) := by
  have hblank : Separable ⟨"", "", none, []⟩ := separable_iff.mpr ⟨by decide, by simp⟩
  have hsimply : Separable namedSimply := by
    refine separable_iff.mpr ⟨by decide, ?_⟩
    simp only [namedSimply, List.forall_mem_cons]
    exact ⟨hblank, separable_iff.mpr ⟨by decide, by simpa using hblank⟩, by simp⟩
  have hfull : Separable namedInFull := by
    refine separable_iff.mpr ⟨by decide, ?_⟩
    simp only [namedInFull, List.forall_mem_cons]
    exact ⟨hblank, separable_iff.mpr ⟨by decide, by simpa using hblank⟩, by simp⟩
  exact ⟨hsimply, hfull, canonicalName_eq_iff hsimply hfull⟩

end ClassFacts.TypeRef

import ClassFacts.Hierarchy
import ClassFacts.Proofs.Text.LowerCase

namespace ClassFacts

namespace Names

theorem lowerFirst_toList (name : String) :
    (lowerFirst name).toList =
      (name.toList.take 1).flatMap Text.lowerChar ++ name.toList.drop 1 := by
  cases hname : name.toList with
  | nil => simp [lowerFirst, lowerFirstChars, hname]
  | cons c rest => simp [lowerFirst, lowerFirstChars, hname]

theorem lowerFirst_eq_empty_iff {name : String} : lowerFirst name = "" ↔ name = "" := by
  rw [← String.toList_inj, ← String.toList_inj, lowerFirst_toList]
  cases name.toList with
  | nil => simp
  | cons c rest => simp [Text.lowerChar_ne_nil]

/-- The dotted capital I becomes two characters, of which only the first counts here. -/
theorem lowerFirst_lowerFirst (name : String) : lowerFirst (lowerFirst name) = lowerFirst name := by
  apply String.toList_inj.mp
  cases hname : name.toList with
  | nil => simp [lowerFirst_toList, hname]
  | cons c rest =>
    obtain ⟨d, more, hc⟩ := List.exists_cons_of_ne_nil (Text.lowerChar_ne_nil c)
    have hd : Text.lowerChar d = [d] := by
      apply Text.lowerChar_of_mem (c := c)
      simp [hc]
    have hlower : (lowerFirst name).toList = d :: (more ++ rest) := by
      rw [lowerFirst_toList, hname]
      simp [hc]
    rw [lowerFirst_toList, hlower]
    simp [hd]

/-- A method of this name is an accessor exactly if something stands behind its `get`. -/
theorem accessorProperty?_eq_some_iff {method property : String} :
    accessorProperty? method = some property ↔
      ∃ rest, rest ≠ "" ∧ method = "get" ++ rest ∧ property = lowerFirst rest := by
  constructor
  · intro h
    obtain ⟨chars, hchars, rfl⟩ := Option.map_eq_some_iff.mp h
    unfold accessorChars? at hchars
    split at hchars
    next c rest hname =>
      cases hchars
      refine ⟨String.ofList (c :: rest), ?_, ?_, ?_⟩
      · intro he
        simpa using congrArg String.toList he
      · apply String.toList_inj.mp
        simp [hname]
      · simp [lowerFirst]
    next => cases hchars
  · rintro ⟨rest, hne, rfl, rfl⟩
    cases hrest : rest.toList with
    | nil => exact absurd (String.toList_inj.mp (by simpa using hrest)) hne
    | cons c cs => simp [accessorProperty?, lowerFirst, hrest, accessorChars?]

theorem accessorProperty?_get_self {method property : String}
    (h : accessorProperty? method = some property) :
    property ≠ "" ∧ accessorProperty? ("get" ++ property) = some property := by
  obtain ⟨rest, hne, -, rfl⟩ := accessorProperty?_eq_some_iff.mp h
  have hproperty : lowerFirst rest ≠ "" := mt lowerFirst_eq_empty_iff.mp hne
  refine ⟨hproperty, accessorProperty?_eq_some_iff.mpr ⟨lowerFirst rest, hproperty, rfl, ?_⟩⟩
  exact (lowerFirst_lowerFirst rest).symm

/-- Lower-casing the first character of a name leaves the others and is needed once. So the
accessor that is named after a property stands for this property again. -/
theorem propertyName_stable (name method property : String) :
    (lowerFirst (lowerFirst name) = lowerFirst name ∧
      (lowerFirst name).toList =
        (name.toList.take 1).flatMap Text.lowerChar ++ name.toList.drop 1 ∧
      (lowerFirst name = "" ↔ name = "")) ∧
    (accessorProperty? method = some property ↔
      ∃ rest, rest ≠ "" ∧ method = "get" ++ rest ∧ property = lowerFirst rest) ∧
    (accessorProperty? method = some property →
      property ≠ "" ∧ accessorProperty? ("get" ++ property) = some property) := by
  refine ⟨⟨?_, ?_, ?_⟩, ?_, ?_⟩
  · exact lowerFirst_lowerFirst name
  · exact lowerFirst_toList name
  · exact lowerFirst_eq_empty_iff
  · exact accessorProperty?_eq_some_iff
  · exact accessorProperty?_get_self

/-- A capital out of the table, and the dotted one that becomes two characters. -/
theorem propertyName_stable_capitals :
    (accessorProperty? "getURL" = some "uRL" ∧ "uRL" ≠ "" ∧
      accessorProperty? ("get" ++ "uRL") = some "uRL") ∧
    (accessorProperty? "get\u0130d" = some "i\u0307d" ∧ "i\u0307d" ≠ "" ∧
      accessorProperty? ("get" ++ "i\u0307d") = some "i\u0307d") := by
  have hplain : accessorProperty? "getURL" = some "uRL" := by decide +kernel
  have hdotted : accessorProperty? "get\u0130d" = some "i\u0307d" := by decide +kernel
  obtain ⟨-, -, hplainAgain⟩ := propertyName_stable "URL" "getURL" "uRL"
  obtain ⟨-, -, hdottedAgain⟩ := propertyName_stable "\u0130d" "get\u0130d" "i\u0307d"
  exact ⟨⟨hplain, hplainAgain hplain⟩, hdotted, hdottedAgain hdotted⟩

end Names

namespace Hierarchy

/-- A method under the name of the accessor to its property, if it has one. -/
def renamed (m : Method) : Method :=
  match Names.accessorProperty? m.name with
  | some property => { m with name := "get" ++ property }
  | none => m

theorem accessorProperty?_renamed (m : Method) :
    Names.accessorProperty? (renamed m).name = Names.accessorProperty? m.name := by
  unfold renamed
  split
  next property hproperty =>
    rw [hproperty]
    exact (Names.accessorProperty?_get_self hproperty).2
  next => rfl

theorem returns_renamed (m : Method) : (renamed m).returns = m.returns := by
  unfold renamed
  split <;> rfl

/-- What an interface derives from its accessors is settled by their properties. -/
theorem synthesizedFields_renamed (config : Config) (c : ClassDecl) :
    synthesizedFields config { c with methods := c.methods.map renamed } =
      synthesizedFields config c := by
  unfold synthesizedFields ClassDecl.isInterface
  simp only [List.filterMap_map, Function.comp_def, accessorProperty?_renamed, returns_renamed]

end Hierarchy

end ClassFacts

import ClassFacts.CommandLine
import ClassFacts.Proofs.Groups.Overloads
import ClassFacts.Proofs.Json.Layouts

namespace ClassFacts

open Json (Value Held)

namespace Json

variable {depth : Nat} {α : Type}

theorem held_text (s : String) : Held depth (.text s) :=
  ⟨.text s, Nat.zero_le _⟩

theorem held_ofList {f : α → Value} {xs : List α} (h : ∀ x ∈ xs, Held depth (f x)) :
    Held (depth + 1) (.ofList f xs) := by
  refine held_array fun v hv => ?_
  obtain ⟨x, hx, rfl⟩ := List.mem_map.mp hv
  exact h x hx

end Json

theorem SampleValue.held_toJson (sample : SampleValue) : Held Json.maxDepth sample.toJson := by
  cases sample with
  | constantName name => exact Json.held_text name
  | argument source =>
    rw [SampleValue.toJson]
    split
    next hparse => exact Json.held_of_parse hparse
    next => exact Json.held_text source

namespace Session

variable {s : Session} {v : Value}

theorem withClass_eq_ok {name : String}
    {answer : ClassDecl → Logged (Except CommandError Value)}
    (h : (s.withClass name answer).result = .ok v) : ∃ c, (answer c).result = .ok v := by
  unfold withClass at h
  split at h
  next c _ => exact ⟨c, h⟩
  next => cases h

theorem held_fieldRow (f : Field) : Held 1 (fieldRow f) := by
  refine Json.held_object ⟨by simp [Entries.keys], ?_⟩
  simp [Json.held_text]

theorem held_fields {className : String} (h : (s.fields className).result = .ok v) : Held 2 v := by
  obtain ⟨c, hc⟩ := withClass_eq_ok h
  unfold Logged.map at hc
  dsimp only at hc
  split at hc
  next =>
    cases hc
    exact Json.held_ofList fun f _ => held_fieldRow f
  next => cases hc

theorem held_enumSample {className : String} {nameOnly : Bool}
    (h : (s.enumSample className nameOnly).result = .ok v) : Held Json.maxDepth v := by
  obtain ⟨c, hc⟩ := withClass_eq_ok h
  split at hc
  next =>
    cases hc
    cases (EnumSample.resolve s.config c nameOnly).result with
    | none => exact ⟨.null, Nat.zero_le _⟩
    | some sample => exact sample.held_toJson
  next => cases hc

theorem held_typeArguments {className fieldName : String}
    (h : (s.typeArguments className fieldName).result = .ok v) : Held 1 v := by
  obtain ⟨c, hc⟩ := withClass_eq_ok h
  split at hc
  next =>
    cases hc
    exact Json.held_ofList fun t _ => Json.held_text _
  next => cases hc

theorem held_overloadGroups (wanted : Option String) (m : Method) :
    Entries.Each (Held 1) (s.overloadGroups wanted m).result := by
  unfold overloadGroups
  rw [parameterGroups_result]
  exact Entries.each_gathered _ _ _ fun p _ => Json.held_ofList fun group _ => Json.held_text group

theorem held_overloadsGroups (wanted : Option String) (overloads : List Method) :
    ∀ row ∈ (s.overloadsGroups wanted overloads).result, Entries.Each (Held 1) row := by
  induction overloads with
  | nil => simp [overloadsGroups]
  | cons m rest ih =>
    intro row hrow
    simp only [overloadsGroups, Logged.bind, Logged.map] at hrow
    split at hrow
    next => exact ih row hrow
    next =>
      rcases List.mem_cons.mp hrow with rfl | hrow
      · exact held_overloadGroups wanted m
      · exact ih row hrow

theorem held_groups {className methodName : String} {wanted : Option String}
    (h : (s.groups className methodName wanted).result = .ok v) : Held 3 v := by
  obtain ⟨c, hc⟩ := withClass_eq_ok h
  dsimp only at hc
  split at hc
  next => cases hc
  next =>
    unfold Logged.map at hc
    dsimp only at hc
    split at hc
    next => cases hc
    next =>
      cases hc
      exact Json.held_ofList fun row hrow =>
        Json.held_object (held_overloadsGroups _ _ row hrow)

end Session

/-- Every answer is a value that a text can hold. -/
theorem Command.held_answer {command : Command} {s : Session} {v : Value}
    (h : (command.answer s).result = .ok v) : Held Json.maxDepth v := by
  cases command with
  | fields className => exact (Session.held_fields h).mono (by decide)
  | enumSample className nameOnly => exact Session.held_enumSample h
  | typeArguments className fieldName => exact (Session.held_typeArguments h).mono (by decide)
  | groups className methodName parameter => exact (Session.held_groups h).mono (by decide)

/-- An answer without floating-point numbers is read again from the text that is printed for it. -/
theorem Command.parse_pretty_answer {command : Command} {s : Session} {v : Value}
    (h : (command.answer s).result = .ok v) (hfree : v.isFloatFree = true) :
    Value.parse (v.pretty ++ "\n") = .ok v :=
  Json.parse_pretty (held_answer h).1 hfree (held_answer h).2

end ClassFacts

import ClassFacts.EnumSample
import ClassFacts.Proofs.Json.Layouts
import ClassFacts.Proofs.Text.Spans

namespace ClassFacts

open Json (Value Sound)
open Text (AllBlank Strips Tight)

namespace Json

theorem isBlank_of_isDigit {c : Char} (h : isDigit c = true) : Text.isBlank c = false := by
  have hrange : '0'.toNat ≤ c.toNat ∧ c.toNat ≤ '9'.toNat := by
    simpa [isDigit, Char.le_def, UInt32.le_iff_toNat_le] using h
  have hzero : '0'.toNat = 48 := rfl
  have hnine : '9'.toNat = 57 := rfl
  simp only [Text.isBlank, Bool.or_eq_false_iff, Bool.and_eq_false_iff, decide_eq_false_iff_not,
    beq_eq_false_iff_ne]
  omega

theorem tight_integerText (n : Int) : Tight (integerText n) := by
  refine Text.tight_of_forall fun c hc => ?_
  cases n with
  | ofNat n => exact isBlank_of_isDigit (isDigit_of_mem_toDigits hc)
  | negSucc n =>
    rcases List.mem_cons.mp hc with rfl | hc
    · rfl
    · exact isBlank_of_isDigit (isDigit_of_mem_toDigits hc)

theorem tight_compactText {v : Value} (hfree : v.isFloatFree = true) : Tight v.compactText := by
  cases v with
  | null => exact Text.tight_between rfl rfl ['u', 'l']
  | boolean b =>
    cases b with
    | true => exact Text.tight_between rfl rfl ['r', 'u']
    | false => exact Text.tight_between rfl rfl ['a', 'l', 's']
  | integer n => exact tight_integerText n
  | float x => cases hfree
  | text s => exact Text.tight_between rfl rfl _
  | array items => exact Text.tight_between rfl rfl _
  | object entries => exact Text.tight_between rfl rfl _

end Json

namespace SampleValue

variable {source core : String}

theorem toJson_of_parse (h : Strips source.toList core.toList) {v : Value}
    (hparse : Value.parse core = .ok v) : (argument source).toJson = v := by
  simp only [toJson, Text.trim_of_strips h, String.ofList_toList, hparse]

theorem toJson_of_not_parse (h : Strips source.toList core.toList)
    (hparse : ∀ v, Value.parse core ≠ .ok v) : (argument source).toJson = .text source := by
  cases hcore : Value.parse core with
  | ok v => exact absurd hcore (hparse v)
  | error fault => simp only [toJson, Text.trim_of_strips h, String.ofList_toList, hcore]

/-- The argument that is the text of a value, between white space, stands for the value. -/
theorem toJson_compact {v : Value} (h : Sound v) (hfree : v.isFloatFree = true)
    (hdepth : v.nesting ≤ Json.maxDepth) {before after : String} (hbefore : AllBlank before.toList)
    (hafter : AllBlank after.toList) : (argument (before ++ v.compact ++ after)).toJson = v := by
  have hcore : v.compact.toList = v.compactText := String.toList_ofList
  have hstrips : Strips (before ++ v.compact ++ after).toList v.compact.toList := by
    refine ⟨before.toList, after.toList, hbefore, hafter, hcore ▸ Json.tight_compactText hfree, ?_⟩
    simp
  exact toJson_of_parse hstrips (Json.parse_compact h hfree hdepth)

theorem existsUnique_strips (source : String) :
    ∃! core : String, Strips source.toList core.toList := by
  refine ⟨String.ofList (Text.trim source.toList), ?_, fun core h => ?_⟩
  · simpa using Text.strips_trim source.toList
  · apply String.toList_inj.mp
    simpa using Text.strips_iff.mp h

/-- The argument that is the text of a value without floating-point numbers stands for the value,
whatever white space is around it. Every argument that is not the text of a value, once the white
space at its ends is away, stands for all of its own text. A name stands for itself, in a text that
is read back. -/
theorem toJson_recovers :
    (∀ (v : Value) (before after : String), Sound v → v.isFloatFree = true →
      v.nesting ≤ Json.maxDepth → AllBlank before.toList → AllBlank after.toList →
      (argument (before ++ v.compact ++ after)).toJson = v) ∧
    (∀ source : String, ∃! core : String, Strips source.toList core.toList) ∧
    (∀ source core : String, Strips source.toList core.toList →
      (∀ v, Value.parse core ≠ .ok v) → (argument source).toJson = .text source) ∧
    (∀ name : String, (constantName name).toJson = .text name ∧
      Value.parse (constantName name).toJson.compact = .ok (.text name)) := by
  refine ⟨?_, existsUnique_strips, fun source core => toJson_of_not_parse, fun name => ⟨rfl, ?_⟩⟩
  · intro v before after hsound hfree hdepth hbefore hafter
    exact toJson_compact hsound hfree hdepth hbefore hafter
  · exact Json.parse_compact (.text name) rfl (Nat.zero_le _)

/-- An object with the smallest number that there is, and a text that has to be escaped. -/
def escaped : Value :=
  .object [("\"", .integer (-9223372036854775808)), ("", .array [.text "\\\n😀", .null])]

theorem sound_escaped : Sound escaped := by
  refine .object (by decide) ?_
  simp only [List.forall_mem_cons, List.not_mem_nil, false_implies, implies_true, and_true]
  refine ⟨.integer (by decide) (by decide), .array ?_⟩
  simp only [List.forall_mem_cons, List.not_mem_nil, false_implies, implies_true, and_true]
  exact ⟨.text _, .null⟩

/-- White space that may not stand in a document is cut off around one, and kept around a text that
is none. -/
theorem toJson_recovers_escaped :
    (argument ("\u00A0" ++ escaped.compact ++ "\u2028")).toJson = escaped ∧
      (argument "\u00A0Codes.ACTIVE ").toJson = .text "\u00A0Codes.ACTIVE " ∧
      Value.parse (constantName "\u0000").toJson.compact = .ok (.text "\u0000") := by
  obtain ⟨hvalue, -, htext, hname⟩ := toJson_recovers
  refine ⟨?_, ?_, (hname "\u0000").2⟩
  · refine hvalue escaped "\u00A0" "\u2028" sound_escaped rfl (by decide) ?_ ?_ <;> decide
  · refine htext _ "Codes.ACTIVE" (Text.strips_iff.mpr (by decide)) fun v hv => ?_
    have hparse : Value.parse "Codes.ACTIVE" = .error .malformed := by cbv
    cases hparse.symm.trans hv

theorem display_toList (name : String) :
    (constantName name).display.toList = '"' :: (name.toList ++ ['"']) := by
  simp [display]

theorem strips_display (name : String) :
    Strips (constantName name).display.toList (constantName name).display.toList := by
  rw [display_toList]
  exact Text.strips_self (Text.tight_between rfl rfl _)

/-- A name is read back from between quotation marks if nothing in it has to be escaped. -/
theorem parse_display {name : String} (h : ∀ c ∈ name.toList, Json.StandsForItself c) :
    Value.parse (constantName name).display = .ok (.text name) := by
  have hcompact : (constantName name).display = (Value.text name).compact := by
    apply String.toList_inj.mp
    rw [display_toList, Value.compact, String.toList_ofList, Value.compactText, Json.stringText,
      Json.escaped_of_standForThemselves h]
    rfl
  rw [hcompact]
  exact Json.parse_compact (.text name) rfl (Nat.zero_le _)

/-- And only then, since an escape is longer than what it stands for. -/
theorem standForThemselves_of_parse_display {name : String}
    (h : Value.parse (constantName name).display = .ok (.text name)) :
    ∀ c ∈ name.toList, Json.StandsForItself c := by
  obtain ⟨⟨v, rest⟩, hv, h⟩ := bind_eq_ok.mp h
  dsimp only at h
  split at h
  next =>
    cases h
    rw [display_toList, Json.readValue_text] at hv
    obtain ⟨⟨s, after⟩, hs, hv⟩ := bind_eq_ok.mp hv
    cases hv
    exact Json.readString_self hs
  next => cases h

/-- A text between quotation marks is longer than the text. -/
theorem display_ne (name : String) : (constantName name).display ≠ name := by
  intro h
  have hlength := congrArg List.length ((display_toList name).symm.trans (congrArg String.toList h))
  simp only [List.length_cons, List.length_append, List.length_nil] at hlength
  omega

/-- What a name is shown as stands for the name exactly if it holds no quotation mark, no backslash
and no control character. -/
theorem toJson_display_eq_iff (name : String) :
    (argument (constantName name).display).toJson = (constantName name).toJson ↔
      ∀ c ∈ name.toList, c ≠ '"' ∧ c ≠ '\\' ∧ 0x20 ≤ c.toNat := by
  constructor
  · intro h
    by_cases hparse : ∃ v, Value.parse (constantName name).display = .ok v
    · obtain ⟨v, hv⟩ := hparse
      rw [toJson_of_parse (strips_display name) hv] at h
      rw [h] at hv
      exact standForThemselves_of_parse_display hv
    · rw [toJson_of_not_parse (strips_display name) (not_exists.mp hparse)] at h
      exact absurd (Value.text.inj h) (display_ne name)
  · intro h
    exact toJson_of_parse (strips_display name) (parse_display h)

end SampleValue

end ClassFacts

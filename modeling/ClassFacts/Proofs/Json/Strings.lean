import ClassFacts.Json.Lexeme
import ClassFacts.Json.Printer
import ClassFacts.Proofs.Except

namespace ClassFacts.Json

theorem hexValue?_hexDigit : ∀ n < 16, hexValue? (hexDigit n) = some n := by
  decide

/-- A control character is written by the two digits of its number. -/
theorem readEscapedChar_control {c : Char} (hc : c.toNat < 0x20) (rest : List Char) :
    readEscapedChar ('0' :: '0' :: hexDigit (c.toNat / 16) :: hexDigit (c.toNat % 16) :: rest) =
      .ok (c, rest) := by
  have hhigh := hexValue?_hexDigit (c.toNat / 16) (by omega)
  have hlow := hexValue?_hexDigit (c.toNat % 16) (by omega)
  have hzero : hexValue? '0' = some 0 := by decide
  have hunit : hexUnit? '0' '0' (hexDigit (c.toNat / 16)) (hexDigit (c.toNat % 16)) =
      some c.toNat := by
    simp only [hexUnit?, hhigh, hlow, hzero, Option.bind_eq_bind, Option.bind_some, Option.pure_def,
      Option.some.injEq]
    omega
  have hplain : isTrailing c.toNat = false ∧ isLeading c.toNat = false := by
    simp only [isTrailing, isLeading, Bool.and_eq_false_iff, decide_eq_false_iff_not]
    omega
  simp [readEscapedChar, readUnit, hunit, hplain]

theorem readStringChar_escape (c : Char) (rest : List Char) :
    readStringChar (escape c ++ rest) = .ok (some c, rest) := by
  unfold escape
  split
  · subst c; rfl
  split
  · subst c; rfl
  split
  · subst c; rfl
  split
  · subst c; rfl
  split
  · subst c; rfl
  split
  · subst c; rfl
  split
  · subst c; rfl
  split
  next hc =>
    have hu : shortEscape? 'u' = none := by decide
    simp [readStringChar, hu, readEscapedChar_control hc]
  next _ hslash _ _ _ _ _ hc =>
    simp [readStringChar, hslash, hc]

theorem escape_ne_nil (c : Char) : escape c ≠ [] := by
  unfold escape
  repeat' split
  all_goals simp

theorem length_le_escaped (cs : List Char) : cs.length ≤ (cs.flatMap escape).length := by
  induction cs with
  | nil => simp
  | cons c cs ih =>
    have hpos := List.length_pos_iff.mpr (escape_ne_nil c)
    simp only [List.flatMap_cons, List.length_append, List.length_cons]
    omega

theorem readChars_escaped {bound : Nat} (cs rest : List Char) (h : cs.length < bound) :
    readChars bound (cs.flatMap escape ++ '"' :: rest) = .ok (cs, rest) := by
  induction cs generalizing bound with
  | nil =>
    obtain ⟨bound, rfl⟩ := Nat.exists_eq_add_one_of_ne_zero (Nat.ne_zero_of_lt h)
    rfl
  | cons c cs ih =>
    obtain ⟨bound, rfl⟩ := Nat.exists_eq_add_one_of_ne_zero (Nat.ne_zero_of_lt h)
    have hrest : readChars bound (cs.flatMap escape ++ '"' :: rest) = .ok (cs, rest) :=
      ih (by simpa using h)
    simp only [List.flatMap_cons, List.append_assoc, readChars, readStringChar_escape]
    simp [hrest]

/-- What is written between quotation marks is read back. -/
theorem readString_escaped (s : String) (rest : List Char) :
    readString (s.toList.flatMap escape ++ '"' :: rest) = .ok (s, rest) := by
  have hbound : s.toList.length < (s.toList.flatMap escape ++ '"' :: rest).length + 1 := by
    have hlength := length_le_escaped s.toList
    rw [List.length_append, List.length_cons]
    omega
  rw [readString, readChars_escaped s.toList rest hbound]
  simp

/-- A character that stands for itself between quotation marks. -/
def StandsForItself (c : Char) : Prop :=
  c ≠ '"' ∧ c ≠ '\\' ∧ 0x20 ≤ c.toNat

theorem escape_of_standsForItself {c : Char} (h : StandsForItself c) : escape c = [c] := by
  obtain ⟨hquote, hslash, hcode⟩ := h
  have hne : ∀ d : Char, d.toNat < 0x20 → c ≠ d := by
    rintro d hd rfl
    omega
  simp only [escape, hquote, hslash, hne '\x08' (by decide), hne '\t' (by decide),
    hne '\n' (by decide), hne '\x0c' (by decide), hne '\r' (by decide),
    Nat.not_lt.mpr hcode, if_false]

theorem escaped_of_standForThemselves {cs : List Char} (h : ∀ c ∈ cs, StandsForItself c) :
    cs.flatMap escape = cs := by
  induction cs with
  | nil => rfl
  | cons c cs ih =>
    rw [List.flatMap_cons, escape_of_standsForItself (h c (by simp)), ih fun d hd => h d (by simp [hd])]
    rfl

theorem length_le_of_readUnit {text rest : List Char} {unit : Nat}
    (h : readUnit text = .ok (unit, rest)) : rest.length ≤ text.length := by
  unfold readUnit at h
  split at h
  next a b c d after =>
    split at h
    next =>
      cases h
      simp only [List.length_cons]
      omega
    next => cases h
  next => cases h

theorem length_le_of_readWord {word text rest : List Char} (h : readWord word text = .ok rest) :
    rest.length ≤ text.length := by
  induction word generalizing text with
  | nil =>
    cases h
    exact Nat.le_refl _
  | cons w word ih =>
    cases text with
    | nil => cases h
    | cons c text =>
      rw [readWord] at h
      split at h
      next => exact Nat.le_trans (ih h) (Nat.le_succ _)
      next => cases h

theorem length_le_of_readEscapedChar {text rest : List Char} {c : Char}
    (h : readEscapedChar text = .ok (c, rest)) : rest.length ≤ text.length := by
  obtain ⟨⟨unit, after⟩, hunit, h⟩ := bind_eq_ok.mp h
  have hafter := length_le_of_readUnit hunit
  dsimp only at h
  split at h
  next => cases h
  next =>
    split at h
    next =>
      obtain ⟨middle, hword, h⟩ := bind_eq_ok.mp h
      obtain ⟨⟨second, last⟩, hsecond, h⟩ := bind_eq_ok.mp h
      have hmiddle := length_le_of_readWord hword
      have hlast := length_le_of_readUnit hsecond
      dsimp only at h
      split at h
      next =>
        obtain ⟨_, rfl⟩ := Prod.mk.inj (Except.ok.inj h)
        omega
      next => cases h
    next =>
      cases h
      exact hafter

theorem eq_of_readStringChar_none {text rest : List Char}
    (h : readStringChar text = .ok (none, rest)) : text = '"' :: rest := by
  unfold readStringChar at h
  split at h
  next => cases h
  next =>
    cases h
    rfl
  next => cases h
  next =>
    split at h
    next => cases h
    next =>
      split at h
      next =>
        obtain ⟨_, _, h⟩ := bind_eq_ok.mp h
        cases h
      next => cases h
  next =>
    split at h
    next => cases h
    next => cases h

/-- A character takes up one of the text, if it stands for itself, and otherwise at least two. -/
theorem readStringChar_takes {text rest : List Char} {c : Char}
    (h : readStringChar text = .ok (some c, rest)) :
    (text = c :: rest ∧ StandsForItself c) ∨ rest.length + 2 ≤ text.length := by
  unfold readStringChar at h
  split at h
  next => cases h
  next => cases h
  next => cases h
  next e after =>
    right
    split at h
    next =>
      cases h
      exact Nat.le_refl _
    next =>
      split at h
      next =>
        obtain ⟨⟨d, last⟩, hchar, h⟩ := bind_eq_ok.mp h
        cases h
        exact Nat.add_le_add_right (length_le_of_readEscapedChar hchar) 2
      next => cases h
  next hquote hslash hescape =>
    split at h
    next => cases h
    next hcode =>
      cases h
      have hne : c ≠ '\\' := by
        rintro rfl
        cases rest with
        | nil => exact hslash rfl rfl
        | cons e more => exact hescape e more rfl rfl
      exact .inl ⟨rfl, hquote, hne, by omega⟩

/-- What is read up to the closing quotation mark is no longer than its text, and as long as it
only if every character stands for itself. -/
theorem readChars_takes {bound : Nat} {text rest cs : List Char}
    (h : readChars bound text = .ok (cs, rest)) :
    (text = cs ++ '"' :: rest ∧ ∀ c ∈ cs, StandsForItself c) ∨
      cs.length + rest.length + 1 < text.length := by
  induction bound generalizing text rest cs with
  | zero => cases h
  | succ bound ih =>
    obtain ⟨⟨found, after⟩, hchar, h⟩ := bind_eq_ok.mp h
    cases found with
    | none =>
      cases h
      exact .inl ⟨eq_of_readStringChar_none hchar, by simp⟩
    | some c =>
      obtain ⟨⟨others, last⟩, hothers, h⟩ := bind_eq_ok.mp h
      cases h
      have hfirst := readStringChar_takes hchar
      rcases ih hothers with ⟨rfl, hplain⟩ | hlonger
      · rcases hfirst with ⟨rfl, hc⟩ | hfirst
        · exact .inl ⟨rfl, List.forall_mem_cons.mpr ⟨hc, hplain⟩⟩
        · right
          simp only [List.length_append, List.length_cons] at hfirst ⊢
          omega
      · right
        rcases hfirst with ⟨rfl, _⟩ | hfirst
        · simp only [List.length_cons]
          omega
        · simp only [List.length_cons]
          omega

/-- A text between quotation marks is read as itself only if every character stands for itself. -/
theorem readString_self {s : String} {rest : List Char}
    (h : readString (s.toList ++ ['"']) = .ok (s, rest)) : ∀ c ∈ s.toList, StandsForItself c := by
  obtain ⟨⟨cs, after⟩, hchars, h⟩ := bind_eq_ok.mp h
  cases h
  rw [String.toList_ofList] at hchars ⊢
  rcases readChars_takes hchars with ⟨_, hplain⟩ | hlonger
  · exact hplain
  · simp only [List.length_append, List.length_singleton] at hlonger
    omega

end ClassFacts.Json

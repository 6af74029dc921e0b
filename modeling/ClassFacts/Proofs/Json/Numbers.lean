import ClassFacts.Json.Document
import ClassFacts.Json.Printer
import ClassFacts.Proofs.Except
import ClassFacts.Proofs.Text.Spans

namespace ClassFacts.Json

/-- A text with which no number goes on. -/
def Ends (text : List Char) : Prop :=
  ∀ c ∈ text.head?, isDigit c = false ∧ c ≠ '.' ∧ c ≠ 'e' ∧ c ≠ 'E'

theorem ends_nil : Ends [] := by
  intro c hc
  cases hc

theorem ends_cons {c : Char} (text : List Char)
    (h : isDigit c = false ∧ c ≠ '.' ∧ c ≠ 'e' ∧ c ≠ 'E') : Ends (c :: text) := by
  intro d hd
  cases hd
  exact h

theorem isDigit_iff {c : Char} : isDigit c = true ↔ c.isDigit = true := by
  simp only [isDigit, Char.isDigit, Bool.and_eq_true, decide_eq_true_eq]
  rfl

theorem digits_append {ds rest : List Char} (hds : ∀ d ∈ ds, isDigit d = true)
    (hrest : ∀ c ∈ rest.head?, isDigit c = false) :
    digits (ds ++ rest) = ds ∧ afterDigits (ds ++ rest) = rest :=
  Text.span_append hds hrest

theorem digitsValue_eq (ds : List Char) : digitsValue ds = Nat.ofDigitChars 10 ds 0 := by
  simp only [digitsValue, digitValue, Nat.ofDigitChars_eq_foldl, Nat.mul_comm]

theorem digitsValue_toDigits (n : Nat) : digitsValue (Nat.toDigits 10 n) = n := by
  rw [digitsValue_eq, Nat.ofDigitChars_ten_toDigits]

theorem isDigit_of_mem_toDigits {n : Nat} {c : Char} (h : c ∈ Nat.toDigits 10 n) :
    isDigit c = true :=
  isDigit_iff.mpr (Nat.isDigit_of_mem_toDigits (by omega) (by omega) h)

/-- Only the number zero is written with a zero in front. -/
theorem head_toDigits {n : Nat} (h : (Nat.toDigits 10 n).head? = some '0') : n = 0 := by
  induction n using Nat.strongRecOn with
  | ind n ih =>
    by_cases hn : n < 10
    · rw [Nat.toDigits_of_lt_base hn] at h
      simpa using h
    · rw [Nat.toDigits_of_base_le (by omega) (by omega), List.head?_append] at h
      cases hq : (Nat.toDigits 10 (n / 10)).head? with
      | none => simp at hq
      | some d =>
        rw [hq] at h
        have hzero := ih (n / 10) (by omega) (hq.trans h)
        omega

theorem toDigits_cons (n : Nat) :
    ∃ d ds, Nat.toDigits 10 n = d :: ds ∧ isDigit d = true := by
  cases h : Nat.toDigits 10 n with
  | nil => exact absurd h Nat.toDigits_ne_nil
  | cons d ds => exact ⟨d, ds, rfl, isDigit_of_mem_toDigits (n := n) (by simp [h])⟩

theorem readWhole_toDigits (n : Nat) {rest : List Char} (hrest : Ends rest) :
    readWhole (Nat.toDigits 10 n ++ rest) = .ok (Nat.toDigits 10 n, rest) := by
  obtain ⟨hfront, hafter⟩ := digits_append
    (show ∀ d ∈ Nat.toDigits 10 n, isDigit d = true from fun d => isDigit_of_mem_toDigits)
    (fun c hc => (hrest c hc).1)
  have hread : readDigits (Nat.toDigits 10 n ++ rest) = .ok (Nat.toDigits 10 n, rest) := by
    unfold readDigits
    rw [hfront, hafter]
    split
    next he => exact absurd he Nat.toDigits_ne_nil
    next => rfl
  have hzero : ¬ ((Nat.toDigits 10 n).head? = some '0' ∧ 1 < (Nat.toDigits 10 n).length) := by
    rintro ⟨hhead, hlong⟩
    obtain rfl := head_toDigits hhead
    simp at hlong
  simp [readWhole, hread, hzero]

theorem readFraction_ends {rest : List Char} (hrest : Ends rest) :
    readFraction rest = .ok (none, rest) := by
  unfold readFraction
  split
  next text => exact absurd rfl (hrest '.' rfl).2.1
  next => rfl

theorem readExponent_ends {rest : List Char} (hrest : Ends rest) :
    readExponent rest = .ok (none, rest) := by
  cases rest with
  | nil => rfl
  | cons c rest =>
    have hc := (hrest c rfl).2.2
    simp [readExponent, hc]

theorem readMinus_toDigits (n : Nat) (rest : List Char) :
    readMinus (Nat.toDigits 10 n ++ rest) = (false, Nat.toDigits 10 n ++ rest) := by
  obtain ⟨d, ds, hd, hdigit⟩ := toDigits_cons n
  rw [hd]
  unfold readMinus
  split
  next h =>
    rw [(List.cons.inj h).1] at hdigit
    cases hdigit
  next => rfl

theorem readNumeral_integerText (n : Int) {rest : List Char} (hrest : Ends rest) :
    readNumeral (integerText n ++ rest) =
      .ok (⟨n < 0, Nat.toDigits 10 n.natAbs, none, none⟩, rest) := by
  cases n with
  | ofNat n =>
    simp [integerText, readNumeral, readMinus_toDigits, readWhole_toDigits n hrest,
      readFraction_ends hrest, readExponent_ends hrest]
  | negSucc n =>
    have hminus : readMinus ('-' :: (Nat.toDigits 10 (n + 1) ++ rest)) =
        (true, Nat.toDigits 10 (n + 1) ++ rest) := rfl
    simp [integerText, readNumeral, hminus, readWhole_toDigits (n + 1) hrest,
      readFraction_ends hrest, readExponent_ends hrest]

/-- A whole number of 64 bits, signed or unsigned, is read back. -/
theorem readNumber_integerText {n : Int} (hlow : -(Nat.pow 2 63 : Nat) ≤ n)
    (hhigh : n < (Nat.pow 2 64 : Nat)) {rest : List Char} (hrest : Ends rest) :
    readNumber (integerText n ++ rest) = .ok (.integer n, rest) := by
  have hnumber : (Numeral.mk (n < 0) (Nat.toDigits 10 n.natAbs) none none).number? =
      some (.integer n) := by
    unfold Numeral.number? Numeral.integer?
    simp only [digitsValue_toDigits, Option.isSome_none, Bool.false_eq_true, or_self, ↓reduceIte,
      decide_eq_true_eq]
    by_cases hneg : n < 0
    · rw [if_pos hneg, if_pos (by omega)]
      simp only [Option.some.injEq, Number.integer.injEq]
      omega
    · rw [if_neg hneg, if_pos (by omega)]
      simp only [Option.some.injEq, Number.integer.injEq]
      omega
  rw [readNumber, readNumeral_integerText n hrest, ok_bind]
  simp only [hnumber]
  rfl

theorem isSpace_of_isDigit {c : Char} (h : isDigit c = true) : isSpace c = false := by
  cases hs : isSpace c with
  | false => rfl
  | true =>
    simp only [isSpace, Bool.or_eq_true, beq_iff_eq] at hs
    rcases hs with ((rfl | rfl) | rfl) | rfl <;> cases h

/-- What starts a number starts nothing else. -/
theorem ne_of_opensNumber {c d : Char} (hc : c = '-' ∨ isDigit c = true) (hminus : d ≠ '-')
    (hdigit : isDigit d = false) : c ≠ d := by
  rintro rfl
  rcases hc with hc | hc
  · exact hminus hc
  · rw [hdigit] at hc
    cases hc

theorem isSpace_of_opensNumber {c : Char} (hc : c = '-' ∨ isDigit c = true) :
    isSpace c = false := by
  rcases hc with rfl | hdigit
  · rfl
  · exact isSpace_of_isDigit hdigit

theorem integerText_cons (n : Int) :
    ∃ c cs, integerText n = c :: cs ∧ (c = '-' ∨ isDigit c = true) := by
  cases n with
  | ofNat n =>
    obtain ⟨d, ds, hd, hdigit⟩ := toDigits_cons n
    exact ⟨d, ds, hd, .inr hdigit⟩
  | negSucc n => exact ⟨'-', _, rfl, .inl rfl⟩

theorem readCount_toDigits {n : Nat} (h : n < Nat.pow 2 64) {rest : List Char} (hrest : Ends rest) :
    readCount (Nat.toDigits 10 n ++ rest) = .ok (n, rest) := by
  have hlow : -(Nat.pow 2 63 : Nat) ≤ (n : Int) := by omega
  have hhigh : (n : Int) < (Nat.pow 2 64 : Nat) := by omega
  have hnumber := readNumber_integerText hlow hhigh hrest
  have htext : integerText (n : Int) = Nat.toDigits 10 n := rfl
  obtain ⟨d, ds, hd, hdigit⟩ := toDigits_cons n
  have hskip : skipSpace (d :: (ds ++ rest)) = d :: (ds ++ rest) := by
    rw [skipSpace, List.dropWhile_cons_of_neg (by simp [isSpace_of_isDigit hdigit])]
  rw [htext, hd, List.cons_append] at hnumber
  rw [hd, List.cons_append, readCount, hskip]
  simp only [hdigit, or_true, ↓reduceIte, hnumber]

theorem Numeral.integer?_range {n : Numeral} {value : Int} (h : n.integer? = some value) :
    -(Nat.pow 2 63 : Nat) ≤ value ∧ value < (Nat.pow 2 64 : Nat) := by
  unfold Numeral.integer? at h
  split at h
  next => cases h
  dsimp only at h
  split at h
  · split at h
    next => cases h; omega
    next => cases h
  · split at h
    next => cases h; omega
    next => cases h

theorem readNumber_integer_range {text rest : List Char} {value : Int}
    (h : readNumber text = .ok (.integer value, rest)) :
    -(Nat.pow 2 63 : Nat) ≤ value ∧ value < (Nat.pow 2 64 : Nat) := by
  obtain ⟨⟨n, after⟩, _, h⟩ := bind_eq_ok.mp h
  dsimp only at h
  split at h
  next number hnumber =>
    cases h
    unfold Numeral.number? at hnumber
    split at hnumber
    next hvalue =>
      cases hnumber
      exact Numeral.integer?_range hvalue
    next => cases hf : n.float? <;> simp [hf] at hnumber
  next => cases h

theorem readCount_lt {text rest : List Char} {n : Nat} (h : readCount text = .ok (n, rest)) :
    n < Nat.pow 2 64 := by
  unfold readCount at h
  split at h
  · split at h
    · split at h
      next hnumber =>
        cases h
        have hvalue := (readNumber_integer_range hnumber).2
        simp only [Int.ofNat_eq_natCast] at hvalue
        omega
      all_goals cases h
    next => cases h
  next => cases h

end ClassFacts.Json

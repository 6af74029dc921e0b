import ClassFacts.Proofs.Json.Containers

namespace ClassFacts.Json

/-- A text between white space. -/
structure Spaced where
  before : List Char
  text : List Char
  after : List Char

namespace Spaced

def whole (s : Spaced) : List Char :=
  s.before ++ (s.text ++ s.after)

def IsSpaced (s : Spaced) : Prop :=
  AllSpace s.before ∧ AllSpace s.after

/-- A key with its value. -/
def entry (e : Spaced × Spaced) : List Char :=
  e.1.whole ++ ':' :: e.2.whole

theorem whole_append (s : Spaced) (rest : List Char) :
    s.whole ++ rest = s.before ++ (s.text ++ (s.after ++ rest)) := by
  simp [whole]

theorem entry_append (e : Spaced × Spaced) (rest : List Char) :
    entry e ++ rest = e.1.before ++ (e.1.text ++ (e.1.after ++ ':' :: (e.2.whole ++ rest))) := by
  simp [entry, whole]

end Spaced

/-- One character of a string, as it may be written. -/
inductive StringPart : List Char → Prop
  | plain {c : Char} : c ≠ '"' → c ≠ '\\' → 0x20 ≤ c.toNat → StringPart [c]
  | escape {e : Char} : e ∈ ['"', '\\', '/', 'b', 'f', 'n', 'r', 't'] → StringPart ['\\', e]
  | unit {a b c d : Char} : (∀ x ∈ [a, b, c, d], x ∈ "0123456789abcdefABCDEF".toList) →
      StringPart ['\\', 'u', a, b, c, d]

inductive IsString : List Char → Prop
  | parts {parts : List (List Char)} : (∀ part ∈ parts, StringPart part) →
      IsString ('"' :: (parts.flatten ++ ['"']))

def IsDigits (ds : List Char) : Prop :=
  ds ≠ [] ∧ ∀ d ∈ ds, isDigit d = true

inductive IsFraction : List Char → Prop
  | none : IsFraction []
  | some {ds : List Char} : IsDigits ds → IsFraction ('.' :: ds)

inductive IsExponent : List Char → Prop
  | none : IsExponent []
  | some {e : Char} {sign ds : List Char} : e = 'e' ∨ e = 'E' → sign ∈ [[], ['+'], ['-']] →
      IsDigits ds → IsExponent (e :: (sign ++ ds))

inductive IsNumber : List Char → Prop
  | parts {minus whole fraction exponent : List Char} : minus ∈ [[], ['-']] → IsDigits whole →
      (whole.head? = some '0' → whole = ['0']) → IsFraction fraction → IsExponent exponent →
      IsNumber (minus ++ (whole ++ (fraction ++ exponent)))

/-- The text of a JSON value, of any depth and with white space wherever it may stand inside. -/
inductive WellFormed : List Char → Prop
  | word {text : List Char} :
      text ∈ [['n', 'u', 'l', 'l'], ['t', 'r', 'u', 'e'], ['f', 'a', 'l', 's', 'e']] →
      WellFormed text
  | number {text : List Char} : IsNumber text → WellFormed text
  | string {text : List Char} : IsString text → WellFormed text
  | array {space : List Char} {items : List Spaced} :
      AllSpace space → (∀ i ∈ items, i.IsSpaced) → (∀ i ∈ items, WellFormed i.text) →
      WellFormed ('[' :: (space ++ (separated true (items.map Spaced.whole) ++ [']'])))
  | object {space : List Char} {entries : List (Spaced × Spaced)} :
      AllSpace space → (∀ e ∈ entries, e.1.IsSpaced ∧ e.2.IsSpaced) →
      (∀ e ∈ entries, IsString e.1.text) → (∀ e ∈ entries, WellFormed e.2.text) →
      WellFormed ('\x7b' :: (space ++
        (separated true (entries.map Spaced.entry) ++ ['\x7d'])))

theorem skipWithin_space {space : List Char} (h : AllSpace space) (depth : Nat)
    (text : List Char) : skipWithin depth (space ++ text) = skipWithin depth text := by
  rw [skipWithin, skipWithin, skipSpace_append h]

/-! ### Strings -/

theorem hexValue?_isSome :
    ∀ c ∈ "0123456789abcdefABCDEF".toList, (hexValue? c).isSome = true :=
  List.all_eq_true.mp (by decide)

theorem readUnit_hex {a b c d : Char}
    (h : ∀ x ∈ [a, b, c, d], x ∈ "0123456789abcdefABCDEF".toList) (rest : List Char) :
    ∃ unit, readUnit (a :: b :: c :: d :: rest) = .ok (unit, rest) := by
  obtain ⟨na, ha⟩ := Option.isSome_iff_exists.mp (hexValue?_isSome a (h a (by simp)))
  obtain ⟨nb, hb⟩ := Option.isSome_iff_exists.mp (hexValue?_isSome b (h b (by simp)))
  obtain ⟨nc, hc⟩ := Option.isSome_iff_exists.mp (hexValue?_isSome c (h c (by simp)))
  obtain ⟨nd, hd⟩ := Option.isSome_iff_exists.mp (hexValue?_isSome d (h d (by simp)))
  exact ⟨((na * 16 + nb) * 16 + nc) * 16 + nd, by simp [readUnit, hexUnit?, ha, hb, hc, hd]⟩

theorem shortEscape?_isSome :
    ∀ e ∈ ['"', '\\', '/', 'b', 'f', 'n', 'r', 't'], (shortEscape? e).isSome = true :=
  List.all_eq_true.mp (by decide)

theorem skipChars_part {part : List Char} (h : StringPart part) (bound : Nat) (rest : List Char) :
    skipChars (bound + 1) (part ++ rest) = skipChars bound rest := by
  cases h with
  | @plain c hquote hslash hcode =>
    have hplain : ¬ c.toNat < 0x20 := by omega
    simp [skipChars, hquote, hslash, hplain]
  | @escape e he =>
    have hescape := shortEscape?_isSome e he
    simp [skipChars, skipEscape, hescape]
  | @unit a b c d hdigits =>
    have hu : shortEscape? 'u' = none := by decide
    obtain ⟨unit, hunit⟩ := readUnit_hex hdigits rest
    simp [skipChars, skipEscape, hu, hunit]

theorem skipChars_parts {parts : List (List Char)} (h : ∀ part ∈ parts, StringPart part)
    {bound : Nat} (hbound : parts.length < bound) (rest : List Char) :
    skipChars bound (parts.flatten ++ '"' :: rest) = .ok rest := by
  induction parts generalizing bound with
  | nil =>
    obtain ⟨bound, rfl⟩ := Nat.exists_eq_add_one_of_ne_zero (Nat.ne_zero_of_lt hbound)
    rfl
  | cons part parts ih =>
    obtain ⟨bound, rfl⟩ := Nat.exists_eq_add_one_of_ne_zero (Nat.ne_zero_of_lt hbound)
    rw [List.flatten_cons, List.append_assoc, skipChars_part (h part (by simp))]
    exact ih (fun p hp => h p (by simp [hp])) (by simpa using hbound)

theorem length_le_flatten {parts : List (List Char)} (h : ∀ part ∈ parts, StringPart part) :
    parts.length ≤ parts.flatten.length := by
  induction parts with
  | nil => simp
  | cons part parts ih =>
    have hrest := ih fun p hp => h p (by simp [hp])
    have hpos : 0 < part.length := by
      cases h part (by simp) <;> simp
    simp only [List.length_cons, List.flatten_cons, List.length_append]
    omega

/-- A string is skipped from its opening quotation mark on. -/
theorem skipString_isString {text : List Char} (h : IsString text) (rest : List Char) :
    ∃ inside, text ++ rest = '"' :: inside ∧ skipString inside = .ok rest := by
  cases h with
  | @parts parts hparts =>
    refine ⟨parts.flatten ++ '"' :: rest, by simp, ?_⟩
    have hlength := length_le_flatten hparts
    refine skipChars_parts hparts ?_ rest
    rw [List.length_append]
    omega

/-! ### Numbers -/

theorem readDigits_append {ds rest : List Char} (h : IsDigits ds)
    (hrest : ∀ c ∈ rest.head?, isDigit c = false) : readDigits (ds ++ rest) = .ok (ds, rest) := by
  obtain ⟨hfront, hafter⟩ := digits_append h.2 hrest
  cases ds with
  | nil => exact absurd rfl h.1
  | cons d ds =>
    unfold readDigits
    rw [hfront, hafter]

theorem readFraction_isFraction {fraction : List Char} (h : IsFraction fraction) {rest : List Char}
    (hrest : ∀ c ∈ rest.head?, isDigit c = false ∧ c ≠ '.') :
    ∃ x, readFraction (fraction ++ rest) = .ok (x, rest) := by
  cases h with
  | none =>
    refine ⟨none, ?_⟩
    rw [List.nil_append]
    unfold readFraction
    split
    next text => exact absurd rfl (hrest '.' rfl).2
    next => rfl
  | @some ds hds =>
    refine ⟨some ds, ?_⟩
    have hread := readDigits_append hds fun c hc => (hrest c hc).1
    simp [readFraction, hread]

theorem digits_ne_cons {ds : List Char} (h : IsDigits ds) {c : Char} (hc : isDigit c = false)
    (rest text : List Char) : ds ++ rest ≠ c :: text := by
  intro heq
  cases ds with
  | nil => exact h.1 rfl
  | cons d ds =>
    have hd := h.2 d (by simp)
    rw [(List.cons.inj heq).1, hc] at hd
    cases hd

theorem readSign_digits {ds : List Char} (h : IsDigits ds) (rest : List Char) :
    readSign (ds ++ rest) = (false, ds ++ rest) := by
  unfold readSign
  split
  next text heq => exact absurd heq (digits_ne_cons h rfl rest text)
  next text heq => exact absurd heq (digits_ne_cons h rfl rest text)
  next => rfl

theorem readExponent_isExponent {exponent : List Char} (h : IsExponent exponent) {rest : List Char}
    (hrest : Ends rest) : ∃ x, readExponent (exponent ++ rest) = .ok (x, rest) := by
  cases h with
  | none => exact ⟨none, readExponent_ends hrest⟩
  | @some e sign ds he hsign hds =>
    have hdigits := readDigits_append hds fun c hc => (hrest c hc).1
    simp only [List.mem_cons, List.not_mem_nil, or_false] at hsign
    rcases hsign with rfl | rfl | rfl
    · exact ⟨some (false, ds), by simp [readExponent, he, readSign_digits hds, hdigits]⟩
    · exact ⟨some (false, ds), by simp [readExponent, he, readSign, hdigits]⟩
    · exact ⟨some (true, ds), by simp [readExponent, he, readSign, hdigits]⟩

theorem readMinus_digits {ds : List Char} (h : IsDigits ds) (rest : List Char) :
    readMinus (ds ++ rest) = (false, ds ++ rest) := by
  unfold readMinus
  split
  next text heq => exact absurd heq (digits_ne_cons h rfl rest text)
  next => rfl

/-- What follows the whole part of a number is no digit. -/
theorem head_fraction_exponent {fraction exponent rest : List Char}
    (hfraction : IsFraction fraction) (hexponent : IsExponent exponent) (hrest : Ends rest) :
    ∀ c ∈ (fraction ++ (exponent ++ rest)).head?, isDigit c = false := by
  cases hfraction with
  | some =>
    intro c hc
    cases hc
    rfl
  | none =>
    cases hexponent with
    | none => exact fun c hc => (hrest c hc).1
    | some he =>
      intro c hc
      cases hc
      rcases he with rfl | rfl <;> rfl

theorem head_exponent {exponent rest : List Char} (hexponent : IsExponent exponent)
    (hrest : Ends rest) : ∀ c ∈ (exponent ++ rest).head?, isDigit c = false ∧ c ≠ '.' := by
  cases hexponent with
  | none => exact fun c hc => ⟨(hrest c hc).1, (hrest c hc).2.1⟩
  | some he =>
    intro c hc
    cases hc
    rcases he with rfl | rfl <;> decide

theorem readWhole_isDigits {whole rest : List Char} (h : IsDigits whole)
    (hzero : whole.head? = some '0' → whole = ['0'])
    (hrest : ∀ c ∈ rest.head?, isDigit c = false) :
    readWhole (whole ++ rest) = .ok (whole, rest) := by
  have hleading : ¬ (whole.head? = some '0' ∧ 1 < whole.length) := by
    rintro ⟨hhead, hlong⟩
    rw [hzero hhead] at hlong
    exact absurd hlong (by decide)
  simp [readWhole, readDigits_append h hrest, hleading]

theorem skipNumber_isNumber {text : List Char} (h : IsNumber text) {rest : List Char}
    (hrest : Ends rest) : skipNumber (text ++ rest) = .ok rest := by
  cases h with
  | @parts minus whole fraction exponent hminus hwhole hzero hfraction hexponent =>
    obtain ⟨x, hx⟩ := readFraction_isFraction hfraction (head_exponent hexponent hrest)
    obtain ⟨y, hy⟩ := readExponent_isExponent hexponent hrest
    have hread := readWhole_isDigits hwhole hzero (head_fraction_exponent hfraction hexponent hrest)
    have hsign : ∃ negative, readMinus (minus ++ (whole ++ (fraction ++ (exponent ++ rest)))) =
        (negative, whole ++ (fraction ++ (exponent ++ rest))) := by
      simp only [List.mem_cons, List.not_mem_nil, or_false] at hminus
      rcases hminus with rfl | rfl
      · exact ⟨false, readMinus_digits hwhole _⟩
      · exact ⟨true, rfl⟩
    obtain ⟨negative, hnegative⟩ := hsign
    have hnumeral : readNumeral (minus ++ (whole ++ (fraction ++ (exponent ++ rest)))) =
        .ok (⟨negative, whole, x, y⟩, rest) := by
      simp [readNumeral, hnegative, hread, hx, hy]
    simp only [List.append_assoc, skipNumber, hnumeral]

/-! ### Values -/

theorem isNumber_cons {text : List Char} (h : IsNumber text) :
    ∃ c cs, text = c :: cs ∧ (c = '-' ∨ isDigit c = true) := by
  cases h with
  | @parts minus whole fraction exponent hminus hwhole _ _ _ =>
    simp only [List.mem_cons, List.not_mem_nil, or_false] at hminus
    rcases hminus with rfl | rfl
    · cases whole with
      | nil => exact absurd rfl hwhole.1
      | cons d ds => exact ⟨d, _, rfl, .inr (hwhole.2 d (by simp))⟩
    · exact ⟨'-', _, rfl, .inl rfl⟩

theorem opens_isString {text : List Char} (h : IsString text) : Opens text := by
  cases h with
  | parts => exact opens_cons _ (by decide)

theorem opens_wellFormed {text : List Char} (h : WellFormed text) : Opens text := by
  cases h with
  | word h =>
    simp only [List.mem_cons, List.not_mem_nil, or_false] at h
    rcases h with rfl | rfl | rfl <;> exact opens_cons _ (by decide)
  | number h =>
    obtain ⟨c, cs, rfl, hc⟩ := isNumber_cons h
    refine opens_cons cs ?_
    rcases hc with rfl | hdigit
    · decide
    · refine ⟨isSpace_of_isDigit hdigit, ?_, ?_⟩ <;> rintro rfl <;> cases hdigit
  | string h => exact opens_isString h
  | array => exact opens_cons _ (by decide)
  | object => exact opens_cons _ (by decide)

theorem ends_spaced {after : List Char} (h : AllSpace after) {bracket : Char}
    (hb : bracket = ']' ∨ bracket = '\x7d') (texts : List (List Char)) (rest : List Char) :
    Ends (after ++ (separated false texts ++ bracket :: rest)) :=
  ends_space h (ends_separated hb texts rest)

theorem skipItems_spaced {skip : List Char → Except Fault (List Char)} {items : List Spaced}
    (hspace : ∀ i ∈ items, i.IsSpaced) (hopens : ∀ i ∈ items, Opens i.text)
    (hskip : ∀ i ∈ items, ∀ rest, Ends rest → skip (i.text ++ rest) = .ok rest) {bound : Nat}
    (hbound : items.length < bound) (first : Bool) {before : List Char} (hbefore : AllSpace before)
    (rest : List Char) :
    skipItems skip bound first
      (before ++ (separated first (items.map Spaced.whole) ++ ']' :: rest)) = .ok rest := by
  induction items generalizing bound first before with
  | nil =>
    obtain ⟨bound, rfl⟩ := Nat.exists_eq_add_one_of_ne_zero (Nat.ne_zero_of_lt hbound)
    have hclose := next_close (Or.inl rfl) first rest
    simp [separated, skipItems, next_space hbefore, hclose]
  | cons i items ih =>
    obtain ⟨bound, rfl⟩ := Nat.exists_eq_add_one_of_ne_zero (Nat.ne_zero_of_lt hbound)
    obtain ⟨hfront, hback⟩ := hspace i (by simp)
    have hnext := next_spaced (Or.inl rfl) hfront (hopens i (by simp)) first
      (i.after ++ (separated false (items.map Spaced.whole) ++ ']' :: rest))
    have hitem := hskip i (by simp) _ (ends_spaced hback (Or.inl rfl)
      (items.map Spaced.whole) rest)
    have hrest := ih (fun j hj => hspace j (by simp [hj])) (fun j hj => hopens j (by simp [hj]))
      (fun j hj => hskip j (by simp [hj])) (show items.length < bound by simpa using hbound)
      false hback
    rw [skipItems, next_space hbefore, List.map_cons, separated_cons, List.append_assoc,
      List.append_assoc, Spaced.whole_append, hnext, ok_bind]
    simp [hitem, hrest]

theorem skipEntries_spaced {skip : List Char → Except Fault (List Char)}
    {entries : List (Spaced × Spaced)}
    (hspace : ∀ e ∈ entries, e.1.IsSpaced ∧ e.2.IsSpaced) (hkey : ∀ e ∈ entries, IsString e.1.text)
    (hskip : ∀ e ∈ entries, ∀ rest, Ends rest → skip (e.2.before ++ (e.2.text ++ rest)) = .ok rest)
    {bound : Nat} (hbound : entries.length < bound) (first : Bool) {before : List Char}
    (hbefore : AllSpace before) (rest : List Char) :
    skipEntries skip bound first
      (before ++ (separated first (entries.map Spaced.entry) ++ '\x7d' :: rest)) = .ok rest := by
  induction entries generalizing bound first before with
  | nil =>
    obtain ⟨bound, rfl⟩ := Nat.exists_eq_add_one_of_ne_zero (Nat.ne_zero_of_lt hbound)
    have hclose := next_close (Or.inr rfl) first rest
    simp [separated, skipEntries, next_space hbefore, hclose]
  | cons e entries ih =>
    obtain ⟨bound, rfl⟩ := Nat.exists_eq_add_one_of_ne_zero (Nat.ne_zero_of_lt hbound)
    obtain ⟨⟨hfront, hmiddle⟩, _, hback⟩ := hspace e (by simp)
    have hstring := hkey e (by simp)
    have hrest := ih (fun j hj => hspace j (by simp [hj])) (fun j hj => hkey j (by simp [hj]))
      (fun j hj => hskip j (by simp [hj])) (show entries.length < bound by simpa using hbound)
      false hback
    have hvalue := hskip e (by simp) _ (ends_spaced hback (Or.inr rfl)
      (entries.map Spaced.entry) rest)
    rw [skipEntries, next_space hbefore, List.map_cons, separated_cons, List.append_assoc,
      List.append_assoc, Spaced.entry_append,
      next_spaced (Or.inr rfl) hfront (opens_isString hstring), ok_bind]
    obtain ⟨inside, hinside, hskipped⟩ := skipString_isString hstring (e.1.after ++ ':' ::
      (e.2.whole ++ (separated false (entries.map Spaced.entry) ++ '\x7d' :: rest)))
    have hquote : readMark '"' ('"' :: inside) = .ok inside :=
      @readMark_space [] (by simp [AllSpace]) _ rfl inside
    rw [hinside]
    have hcolon : isSpace ':' = false := rfl
    simp only [hquote, hskipped, ok_bind, readMark_space hmiddle hcolon, Spaced.whole_append,
      hvalue, hrest]

theorem skipWithin_number {c : Char} (hc : c = '-' ∨ isDigit c = true) (depth : Nat)
    (text : List Char) : skipWithin depth (c :: text) = skipNumber (c :: text) := by
  have hne : ∀ d, d ≠ '-' → isDigit d = false → c ≠ d := fun _ => ne_of_opensNumber hc
  rw [skipWithin, skipSpace_cons (isSpace_of_opensNumber hc)]
  split
  next heq => cases heq
  next heq => exact absurd (List.cons.inj heq).1 (hne _ (by decide) rfl)
  next heq => exact absurd (List.cons.inj heq).1 (hne _ (by decide) rfl)
  next heq => exact absurd (List.cons.inj heq).1 (hne _ (by decide) rfl)
  next heq => exact absurd (List.cons.inj heq).1 (hne _ (by decide) rfl)
  next heq => exact absurd (List.cons.inj heq).1 (hne _ (by decide) rfl)
  next heq => exact absurd (List.cons.inj heq).1 (hne _ (by decide) rfl)
  next heq =>
    cases heq
    exact if_pos hc

/-- The text of a value is skipped, given depth for as many containers as it has characters. -/
theorem skipWithin_wellFormed {text : List Char} (h : WellFormed text) {depth : Nat}
    (hdepth : text.length ≤ depth) {rest : List Char} (hrest : Ends rest) :
    skipWithin depth (text ++ rest) = .ok rest := by
  induction h generalizing depth rest with
  | word h =>
    simp only [List.mem_cons, List.not_mem_nil, or_false] at h
    rcases h with rfl | rfl | rfl <;> rw [skipWithin] <;> rfl
  | number h =>
    have hskip := skipNumber_isNumber h hrest
    obtain ⟨c, cs, rfl, hc⟩ := isNumber_cons h
    exact (skipWithin_number hc depth (cs ++ rest)).trans hskip
  | string h =>
    obtain ⟨inside, hinside, hskipped⟩ := skipString_isString h rest
    rw [hinside, skipWithin, skipSpace_cons rfl]
    exact hskipped
  | @array space items hspace hspaced hitems ih =>
    obtain ⟨depth, rfl⟩ : ∃ k, depth = k + 1 := ⟨depth - 1, by simp at hdepth; omega⟩
    simp only [List.length_cons, List.length_append, List.length_nil] at hdepth
    have hskip : ∀ i ∈ items, ∀ rest, Ends rest →
        skipWithin depth (i.text ++ rest) = .ok rest := by
      intro i hi rest hrest
      have hlength := length_le_separated_of_mem (List.mem_map_of_mem (f := Spaced.whole) hi) true
      simp only [Spaced.whole, List.length_append] at hlength
      exact ih i hi (by omega) hrest
    have hpos : ∀ t ∈ items.map Spaced.whole, 0 < t.length := by
      intro t ht
      obtain ⟨i, hi, rfl⟩ := List.mem_map.mp ht
      have hpos := (opens_wellFormed (hitems i hi)).length_pos
      simp only [Spaced.whole, List.length_append]
      omega
    have hroom := length_le_separated hpos true
    rw [List.length_map] at hroom
    rw [List.cons_append, List.append_assoc, List.append_assoc, skipWithin, skipSpace_cons rfl]
    refine skipItems_spaced hspaced (fun i hi => opens_wellFormed (hitems i hi)) hskip ?_ true
      hspace rest
    simp only [List.length_append]
    omega
  | @object space entries hspace hspaced hkey hvalues ih =>
    obtain ⟨depth, rfl⟩ : ∃ k, depth = k + 1 := ⟨depth - 1, by simp at hdepth; omega⟩
    simp only [List.length_cons, List.length_append, List.length_nil] at hdepth
    have hskip : ∀ e ∈ entries, ∀ rest, Ends rest →
        skipWithin depth (e.2.before ++ (e.2.text ++ rest)) = .ok rest := by
      intro e he rest hrest
      have hlength := length_le_separated_of_mem (List.mem_map_of_mem (f := Spaced.entry) he) true
      simp only [Spaced.entry, Spaced.whole, List.length_append, List.length_cons] at hlength
      rw [skipWithin_space (hspaced e he).2.1]
      exact ih e he (by omega) hrest
    have hpos : ∀ t ∈ entries.map Spaced.entry, 0 < t.length := by
      intro t ht
      obtain ⟨e, _, rfl⟩ := List.mem_map.mp ht
      simp only [Spaced.entry, List.length_append, List.length_cons]
      omega
    have hroom := length_le_separated hpos true
    rw [List.length_map] at hroom
    rw [List.cons_append, List.append_assoc, List.append_assoc, skipWithin, skipSpace_cons rfl]
    refine skipEntries_spaced hspaced hkey hskip ?_ true hspace rest
    simp only [List.length_append]
    omega

/-- Any value is skipped. -/
theorem skipValue_wellFormed {text : List Char} (h : WellFormed text) {rest : List Char}
    (hrest : Ends rest) : skipValue (text ++ rest) = .ok rest :=
  skipWithin_wellFormed h (by simp) hrest

end ClassFacts.Json

import ClassFacts.Proofs.Json.Containers

namespace ClassFacts.Json

variable {α σ : Type}

/-- A text of which a reader misses the end in every strict beginning. -/
def BreaksOff (read : List Char → Except Fault α) (text : List Char) : Prop :=
  ∀ before after, before ++ after = text → after ≠ [] → read before = .error .ended

/-- A text of which a reader misses the end in every strict beginning, unless the beginning is
all of a value: one number goes on in another. -/
def MayBreakOff (read : List Char → Except Fault (Front α)) (text : List Char) : Prop :=
  ∀ before after, before ++ after = text → after ≠ [] →
    read before = .error .ended ∨ ∃ x, read before = .ok (x, [])

theorem BreaksOff.may {read : List Char → Except Fault (Front α)} {text : List Char}
    (h : BreaksOff read text) : MayBreakOff read text :=
  fun before after htext hafter => .inl (h before after htext hafter)

/-- A strict beginning of two texts in a row is one of the first, or goes on in the second. -/
theorem cut_append {before after first second : List Char}
    (h : before ++ after = first ++ second) :
    (∃ missing, missing ≠ [] ∧ before ++ missing = first) ∨
      ∃ rest, before = first ++ rest ∧ rest ++ after = second := by
  rcases List.append_eq_append_iff.mp h with ⟨missing, hfirst, hafter⟩ | ⟨rest, hbefore, hsecond⟩
  · by_cases hmissing : missing = []
    · subst hmissing
      exact .inr ⟨[], by simpa using hfirst.symm, by simpa using hafter⟩
    · exact .inl ⟨missing, hmissing, hfirst.symm⟩
  · exact .inr ⟨rest, hbefore, hsecond.symm⟩

theorem cut_cons {before after text : List Char} {c : Char} (h : before ++ after = c :: text) :
    before = [] ∨ ∃ rest, before = c :: rest ∧ rest ++ after = text := by
  cases before with
  | nil => exact .inl rfl
  | cons d rest =>
    obtain ⟨rfl, hrest⟩ := List.cons.inj h
    exact .inr ⟨rest, rfl, hrest⟩

/-- No strict beginning of a single character has anything in it. -/
theorem cut_singleton {before after : List Char} {c : Char} (h : before ++ after = [c])
    (hafter : after ≠ []) : before = [] := by
  rcases cut_cons h with h | ⟨rest, _, hrest⟩
  · exact h
  · exact absurd (List.append_eq_nil_iff.mp hrest).2 hafter

theorem escape_cases (c : Char) :
    escape c = [c] ∨ (∃ e, escape c = ['\\', e]) ∨
      ∃ a < 16, ∃ b, escape c = ['\\', 'u', '0', '0', hexDigit a, b] := by
  unfold escape
  split
  · exact .inr (.inl ⟨_, rfl⟩)
  split
  · exact .inr (.inl ⟨_, rfl⟩)
  split
  · exact .inr (.inl ⟨_, rfl⟩)
  split
  · exact .inr (.inl ⟨_, rfl⟩)
  split
  · exact .inr (.inl ⟨_, rfl⟩)
  split
  · exact .inr (.inl ⟨_, rfl⟩)
  split
  · exact .inr (.inl ⟨_, rfl⟩)
  split
  next hc => exact .inr (.inr ⟨_, by omega, _, rfl⟩)
  next => exact .inl rfl

theorem hexFault_hexDigit : ∀ a < 16, hexFault ['0', '0', hexDigit a] = .ended := by
  decide

theorem readUnit_cut {a : Nat} (ha : a < 16) {b : Char} {before after : List Char}
    (h : before ++ after = ['0', '0', hexDigit a, b]) (hafter : after ≠ []) :
    readUnit before = .error .ended := by
  rcases cut_cons h with rfl | ⟨second, rfl, hsecond⟩
  · rfl
  rcases cut_cons hsecond with rfl | ⟨third, rfl, hthird⟩
  · rfl
  rcases cut_cons hthird with rfl | ⟨fourth, rfl, hfourth⟩
  · rfl
  rw [cut_singleton hfourth hafter, readUnit, hexFault_hexDigit a ha]
  simp

theorem breaksOff_escape (c : Char) : BreaksOff readStringChar (escape c) := by
  intro before after htext hafter
  rcases escape_cases c with he | ⟨e, he⟩ | ⟨a, ha, b, he⟩ <;> rw [he] at htext
  · rw [cut_singleton htext hafter]
    rfl
  · rcases cut_cons htext with rfl | ⟨letter, rfl, hletter⟩
    · rfl
    · rw [cut_singleton hletter hafter]
      rfl
  · rcases cut_cons htext with rfl | ⟨letter, rfl, hletter⟩
    · rfl
    rcases cut_cons hletter with rfl | ⟨digits, rfl, hdigits⟩
    · rfl
    have hu : shortEscape? 'u' = none := by decide
    simp [readStringChar, hu, readEscapedChar, readUnit_cut ha hdigits hafter]

theorem readChars_cut {bound : Nat} {cs before after : List Char}
    (h : before ++ after = cs.flatMap escape ++ ['"']) (hafter : after ≠ []) :
    readChars bound before = .error .ended := by
  induction cs generalizing bound before with
  | nil =>
    rw [cut_singleton h hafter]
    cases bound <;> rfl
  | cons c cs ih =>
    cases bound with
    | zero => rfl
    | succ bound =>
      rw [List.flatMap_cons, List.append_assoc] at h
      rcases cut_append h with ⟨missing, hmissing, hescape⟩ | ⟨rest, rfl, hrest⟩
      · rw [readChars, breaksOff_escape c before missing hescape hmissing]
        rfl
      · rw [readChars, readStringChar_escape, ok_bind]
        simp [ih hrest]

theorem breaksOff_readString (s : String) :
    BreaksOff readString (s.toList.flatMap escape ++ ['"']) := by
  intro before after h hafter
  rw [readString, readChars_cut h hafter]
  rfl

theorem breaksOff_readText (expected : Expected) (s : String) :
    BreaksOff (readText expected) (stringText s) := by
  intro before after h hafter
  rcases cut_cons h with rfl | ⟨rest, rfl, hrest⟩
  · rfl
  · rw [readText, skipSpace_cons rfl]
    exact breaksOff_readString s rest after hrest hafter

theorem breaksOff_readKey (key : String) : BreaksOff readKey (stringText key) := by
  intro before after h hafter
  rcases cut_cons h with rfl | ⟨rest, rfl, hrest⟩
  · rfl
  · have hmark : readMark '"' ('"' :: rest) = .ok rest := by
      simp [readMark, skipSpace_cons (show isSpace '"' = false from rfl)]
    rw [readKey, hmark, ok_bind]
    exact breaksOff_readString key rest after hrest hafter

/-- The beginnings of a number are those of its tenth part and so on. -/
theorem toDigits_cut (n : Nat) {before after : List Char} (h : before ++ after = Nat.toDigits 10 n)
    (hafter : after ≠ []) : before = [] ∨ ∃ m ≤ n, before = Nat.toDigits 10 m := by
  induction n using Nat.strongRecOn generalizing before after with
  | ind n ih =>
    by_cases hn : n < 10
    · rw [Nat.toDigits_of_lt_base hn] at h
      exact .inl (cut_singleton h hafter)
    · rw [Nat.toDigits_of_base_le (by omega) (by omega)] at h
      rcases cut_append h with ⟨missing, hmissing, hdigits⟩ | ⟨rest, rfl, hrest⟩
      · rcases ih (n / 10) (by omega) hdigits hmissing with hnil | ⟨m, hm, hbefore⟩
        · exact .inl hnil
        · exact .inr ⟨m, by omega, hbefore⟩
      · rw [cut_singleton hrest hafter, List.append_nil]
        exact .inr ⟨n / 10, by omega, rfl⟩

theorem mayBreakOff_readCount {n : Nat} (h : n < Nat.pow 2 64) :
    MayBreakOff readCount (Nat.toDigits 10 n) := by
  intro before after hdigits hafter
  rcases toDigits_cut n hdigits hafter with rfl | ⟨m, hm, rfl⟩
  · exact .inl rfl
  · have hread := readCount_toDigits (Nat.lt_of_le_of_lt hm h) ends_nil
    rw [List.append_nil] at hread
    exact .inr ⟨m, hread⟩

theorem next_nil (bracket : Char) (first : Bool) : next bracket first [] = .error .ended := rfl

/-- What comes next in a text that has been cut off: nothing, or what is left of an item. -/
theorem next_cut {bracket : Char} (hb : bracket = ']' ∨ bracket = '\x7d') {text tail : List Char}
    (hopens : Opens text) {first : Bool} {texts : List (List Char)} {before after : List Char}
    (h : before ++ after = separated first (text :: texts) ++ tail) :
    next bracket first before = .error .ended ∨
      ∃ rest, next bracket first before = .ok (.item rest) ∧ rest.length ≤ before.length ∧
        rest ≠ [] ∧ rest ++ after = text ++ (separated false texts ++ tail) := by
  have hitem : ∀ {c : Char} {rest : List Char},
      c :: rest ++ after = text ++ (separated false texts ++ tail) →
      isSpace c = false ∧ c ≠ bracket := by
    intro c rest heq
    obtain ⟨d, ds, rfl, hspace, harray, hobject⟩ := hopens
    obtain ⟨rfl, _⟩ := List.cons.inj heq
    refine ⟨hspace, ?_⟩
    rcases hb with rfl | rfl
    · exact harray
    · exact hobject
  rw [separated, List.append_assoc] at h
  cases before with
  | nil => exact .inl (next_nil bracket first)
  | cons c rest =>
    cases first with
    | true =>
      rw [if_pos rfl] at h
      obtain ⟨hspace, hne⟩ := hitem h
      exact .inr ⟨c :: rest, by simp [next, skipSpace_cons hspace, hne], Nat.le_refl _, by simp, h⟩
    | false =>
      rw [if_neg Bool.false_ne_true] at h
      obtain ⟨rfl, hrest⟩ := List.cons.inj h
      have hcomma : ',' ≠ bracket := by
        rcases hb with rfl | rfl <;> decide
      have hskip := skipSpace_cons (show isSpace ',' = false from rfl) rest
      cases rest with
      | nil =>
        have hnil : skipSpace [] = [] := rfl
        exact .inl (by simp [next, hskip, hcomma, hnil])
      | cons d rest =>
        obtain ⟨hspace, hne⟩ := hitem hrest
        refine .inr ⟨d :: rest, ?_, by simp, by simp, hrest⟩
        simp [next, hskip, hcomma, skipSpace_cons hspace, hne]

theorem ends_cut {bracket : Char} (hb : bracket = ']' ∨ bracket = '\x7d')
    {texts : List (List Char)} {before after : List Char}
    (h : before ++ after = separated false texts ++ [bracket]) : Ends before := by
  have hends := ends_separated hb texts []
  rw [← h] at hends
  cases before with
  | nil => exact ends_nil
  | cons c rest => exact hends

/-- An array that has been cut off is missed the end of, given room for its items. -/
theorem readItems_cut {item : List Char → Except Fault (Front α)} {texts : List (List Char)}
    (hread : ∀ text ∈ texts, ∃ x, Reads item text x) (hcut : ∀ text ∈ texts, MayBreakOff item text)
    {bound : Nat} {first : Bool} {before after : List Char}
    (h : before ++ after = separated first texts ++ [']']) (hafter : after ≠ [])
    (hbound : before.length < bound) : readItems item bound first before = .error .ended := by
  induction texts generalizing bound first before with
  | nil =>
    obtain ⟨bound, rfl⟩ := Nat.exists_eq_add_one_of_ne_zero (Nat.ne_zero_of_lt hbound)
    rw [cut_singleton h hafter]
    rfl
  | cons text texts ih =>
    obtain ⟨bound, rfl⟩ := Nat.exists_eq_add_one_of_ne_zero (Nat.ne_zero_of_lt hbound)
    obtain ⟨x, hopens, hvalue⟩ := hread text (by simp)
    rcases next_cut (Or.inl rfl) hopens h with hnext | ⟨rest, hnext, hlength, hne, hrest⟩
    · rw [readItems, hnext]
      rfl
    have hpos := List.length_pos_iff.mpr hne
    rw [readItems, hnext, ok_bind]
    rcases cut_append hrest with ⟨missing, hmissing, htext⟩ | ⟨rest, rfl, hothers⟩
    · rcases hcut text (by simp) rest missing htext hmissing with hended | ⟨y, hy⟩
      · simp [hended]
      · obtain ⟨bound, rfl⟩ := Nat.exists_eq_add_one_of_ne_zero (show bound ≠ 0 by omega)
        simp [hy, readItems, next_nil]
    · have htext := hopens.length_pos
      rw [List.length_append] at hlength
      have hended := ih (fun t ht => hread t (by simp [ht])) (fun t ht => hcut t (by simp [ht]))
        hothers (show rest.length < bound by omega)
      simp [hvalue rest (ends_cut (Or.inl rfl) hothers), hended]

/-- Entries that are gathered, and of which none is read when it has been cut off. -/
inductive GathersWhole (entry : σ → String → List Char → Except Fault (Front σ)) :
    σ → List (String × List Char) → Prop
  | done {s : σ} : GathersWhole entry s []
  | step {s s' : σ} {key : String} {text : List Char} {entries : List (String × List Char)} :
      (∀ rest, Ends rest → entry s key (':' :: (text ++ rest)) = .ok (s', rest)) →
      MayBreakOff (entry s key) (':' :: text) → GathersWhole entry s' entries →
      GathersWhole entry s ((key, text) :: entries)

theorem readEntries_cut {entry : σ → String → List Char → Except Fault (Front σ)} {s : σ}
    {entries : List (String × List Char)} (h : GathersWhole entry s entries) {bound : Nat}
    {first : Bool} {before after : List Char}
    (htext : before ++ after = separated first (entries.map entryText) ++ ['\x7d'])
    (hafter : after ≠ []) (hbound : before.length < bound) :
    readEntries entry bound first s before = .error .ended := by
  induction h generalizing bound first before with
  | done =>
    obtain ⟨bound, rfl⟩ := Nat.exists_eq_add_one_of_ne_zero (Nat.ne_zero_of_lt hbound)
    rw [cut_singleton htext hafter]
    rfl
  | @step s s' key text entries hentry hcut _ ih =>
    obtain ⟨bound, rfl⟩ := Nat.exists_eq_add_one_of_ne_zero (Nat.ne_zero_of_lt hbound)
    rw [List.map_cons] at htext
    rcases next_cut (Or.inr rfl) (opens_entryText (key, text)) htext with
      hnext | ⟨rest, hnext, hlength, hne, hrest⟩
    · rw [readEntries, hnext]
      rfl
    have hpos := List.length_pos_iff.mpr hne
    rw [readEntries, hnext, ok_bind]
    rcases cut_append hrest with ⟨missing, hmissing, hitem⟩ | ⟨rest, rfl, hothers⟩
    · rcases cut_append hitem with ⟨missing, hmissing, hkey⟩ | ⟨rest, rfl, hvalue⟩
      · simp [breaksOff_readKey key rest missing hkey hmissing]
      · have hread := readKey_stringText key rest
        rcases hcut rest missing hvalue hmissing with hended | ⟨t, ht⟩
        · simp [hread, hended]
        · obtain ⟨bound, rfl⟩ := Nat.exists_eq_add_one_of_ne_zero (show bound ≠ 0 by omega)
          simp [hread, ht, readEntries, next_nil]
    · have hopens := (opens_entryText (key, text)).length_pos
      rw [List.length_append] at hlength
      have hended := ih hothers (show rest.length < bound by omega)
      simp [readKey_entryText, hentry rest (ends_cut (Or.inr rfl) hothers), hended]

end ClassFacts.Json

import ClassFacts.Proofs.Json.Strings
import ClassFacts.Proofs.Text.Spans
import ClassFacts.Proofs.Yaml.Flow
import ClassFacts.Yaml.PlainScalar
import ClassFacts.Yaml.QuotedScalar
import Mathlib.Data.List.TakeWhile

namespace ClassFacts.Yaml

open Yaml.Flow (isPrintable isBareChar)

/-- What holds of each of the ninety-five printable characters. -/
theorem forall_printable {p : Char → Bool}
    (h : ∀ n < 0x7F, isPrintable (Char.ofNat n) = true → p (Char.ofNat n) = true) {c : Char}
    (hc : isPrintable c = true) : p c = true := by
  have hle : c.toNat ≤ 0x7E := by
    simp only [isPrintable, Bool.and_eq_true, decide_eq_true_eq] at hc
    exact hc.2
  have hsame : Char.ofNat c.toNat = c := Char.ofNat_toNat c
  have hp := h c.toNat (by omega)
  rw [hsame] at hp
  exact hp hc

theorem isPrintable_of_isAlphanum {c : Char} (h : c.isAlphanum = true) : isPrintable c = true := by
  delta Char.isAlphanum Char.isAlpha Char.isUpper Char.isLower Char.isDigit at h
  simp only [Bool.or_eq_true, Bool.and_eq_true, decide_eq_true_eq, UInt32.le_iff_toNat_le, ge_iff_le] at h
  rw [isPrintable, Bool.and_eq_true, decide_eq_true_eq, decide_eq_true_eq]
  have hval : c.toNat = c.val.toNat := rfl
  have hA : 'A'.val.toNat = 65 := rfl
  have hZ : 'Z'.val.toNat = 90 := rfl
  have ha : 'a'.val.toNat = 97 := rfl
  have hz : 'z'.val.toNat = 122 := rfl
  have hzero : '0'.val.toNat = 48 := rfl
  have hnine : '9'.val.toNat = 57 := rfl
  omega

theorem isPrintable_of_isBareChar {c : Char} (h : isBareChar c = true) : isPrintable c = true := by
  simp only [isBareChar, Bool.or_eq_true, beq_iff_eq] at h
  rcases h with ((h | rfl) | rfl) | rfl
  · exact isPrintable_of_isAlphanum h
  all_goals decide

theorem isWordChar_iff {c : Char} :
    isWordChar c = true ↔ c.isAlphanum = true ∨ c = '_' ∨ c = '-' := by
  delta isWordChar Char.isAlphanum Char.isAlpha Char.isUpper Char.isLower Char.isDigit
  simp only [Bool.or_eq_true, Bool.and_eq_true, decide_eq_true_eq, beq_iff_eq, Char.le_def, ge_iff_le]
  tauto

theorem isPrintable_of_isWordChar {c : Char} (h : isWordChar c = true) : isPrintable c = true := by
  rcases isWordChar_iff.mp h with h | rfl | rfl
  · exact isPrintable_of_isAlphanum h
  all_goals decide

theorem not_isBreak {c : Char} (h : isPrintable c = true) : isBreak c = false := by
  have hp := @forall_printable (fun c => !isBreak c) (by decide) c h
  simpa using hp

theorem utf8Size_printable {c : Char} (h : isPrintable c = true) : c.utf8Size = 1 := by
  have hp := @forall_printable (fun c => c.utf8Size == 1) (by decide) c h
  simpa using hp

theorem isGapChar_printable {c : Char} (h : isPrintable c = true) (hc : c ≠ ' ') :
    isGapChar c = false := by
  have hp := @forall_printable (fun c => c == ' ' || !isGapChar c) (by decide) c h
  simpa [hc] using hp

/-- The place `n` octets further in the line, at which `rest` remains. -/
def Cursor.over (c : Cursor) (n : Nat) (rest : List Char) : Cursor :=
  ⟨rest, c.line, c.column + n, c.octet + n⟩

@[simp]
theorem Cursor.over_rest (c : Cursor) (n : Nat) (rest : List Char) : (c.over n rest).rest = rest :=
  rfl

theorem Cursor.over_over (c : Cursor) (m n : Nat) (before rest : List Char) :
    (c.over m before).over n rest = c.over (m + n) rest := by
  simp [Cursor.over, Nat.add_assoc]

def AllPrintable (text : List Char) : Prop :=
  ∀ c ∈ text, isPrintable c = true

theorem Cursor.after_printable (c : Cursor) {x : Char} (h : isPrintable x = true)
    (rest : List Char) : c.after x rest = c.over 1 rest := by
  rw [Cursor.after, not_isBreak h, utf8Size_printable h]
  rfl

theorem Cursor.past_printable {consumed : List Char} (h : AllPrintable consumed) (c : Cursor)
    (rest : List Char) : c.past consumed rest = c.over consumed.length rest := by
  induction consumed generalizing c with
  | nil => rfl
  | cons x consumed ih =>
    rw [Cursor.past, Cursor.after_printable c (h x (by simp)), ih fun y hy => h y (by simp [hy]),
      Cursor.over_over, List.length_cons, Nat.add_comm]

theorem octetCount_printable {text : List Char} (h : AllPrintable text) :
    octetCount text = text.length := by
  have hfold : ∀ n, text.foldl (fun n c => n + c.utf8Size) n = n + text.length := by
    induction text with
    | nil => simp
    | cons x text ih =>
      intro n
      rw [List.foldl_cons, utf8Size_printable (h x (by simp)), ih fun y hy => h y (by simp [hy]),
        List.length_cons]
      omega
  simpa [octetCount] using hfold 0

theorem Cursor.skip_printable {c : Cursor} {consumed rest : List Char} (h : AllPrintable consumed)
    (hc : c.rest = consumed ++ rest) : c.skip consumed.length = c.over consumed.length rest := by
  rw [Cursor.skip, hc, List.drop_left, List.take_left, octetCount_printable h]
  rfl

theorem Cursor.upTo_printable {c : Cursor} {consumed rest : List Char} (h : AllPrintable consumed)
    (hc : c.rest = consumed ++ rest) : c.upTo rest = c.over consumed.length rest := by
  have hlength : c.rest.length - rest.length = consumed.length := by
    rw [hc, List.length_append]
    omega
  rw [Cursor.upTo, hlength, Cursor.skip_printable h hc]

/-! ### Quoted scalars -/

namespace QuotedScalar

open Json (escape length_le_escaped)

/-- Of the printable characters only the quotation mark and the backslash are escaped. -/
theorem escape_printable {c : Char} (h : isPrintable c = true) :
    escape c = ['\\', c] ∧ (c = '"' ∨ c = '\\') ∨ escape c = [c] ∧ c ≠ '"' ∧ c ≠ '\\' := by
  have hp := @forall_printable (fun c =>
    escape c == ['\\', c] && (c == '"' || c == '\\') || escape c == [c] && c != '"' && c != '\\')
    (by decide) c h
  simpa [and_assoc] using hp

theorem allPrintable_escape {c : Char} (h : isPrintable c = true) : AllPrintable (escape c) := by
  intro x hx
  rcases escape_printable h with ⟨he, _⟩ | ⟨he, _⟩
  · rw [he] at hx
    rcases List.mem_cons.mp hx with rfl | hx
    · decide
    · exact List.mem_singleton.mp hx ▸ h
  · rw [he] at hx
    exact List.mem_singleton.mp hx ▸ h

theorem allPrintable_escaped {s : List Char} (h : AllPrintable s) :
    AllPrintable (s.flatMap escape) := by
  intro x hx
  obtain ⟨c, hc, hx⟩ := List.mem_flatMap.mp hx
  exact allPrintable_escape (h c hc) x hx

theorem length_escape_le {c : Char} (h : isPrintable c = true) : (escape c).length ≤ 2 := by
  rcases escape_printable h with ⟨he, _⟩ | ⟨he, _⟩ <;> simp [he]

theorem length_escaped_le {s : List Char} (h : AllPrintable s) :
    (s.flatMap escape).length ≤ 2 * s.length := by
  induction s with
  | nil => simp
  | cons c s ih =>
    have hc := length_escape_le (h c (by simp))
    have hs := ih fun x hx => h x (by simp [hx])
    rw [List.flatMap_cons, List.length_append, List.length_cons]
    omega

/-- A run reads the characters of a word up to where it stops. -/
theorem doubleRun_word {word tail rest : List Char} {stop : RunEnd} (hword : AllPrintable word)
    (hspace : ' ' ∉ word) (hstop : ∀ bound, doubleRun (bound + 1) tail = some ([], stop, rest))
    {bound : Nat} (hbound : word.length < bound) :
    doubleRun bound (word.flatMap escape ++ tail) = some (word, stop, rest) := by
  induction word generalizing bound with
  | nil =>
    obtain ⟨bound, rfl⟩ := Nat.exists_eq_add_one_of_ne_zero (Nat.ne_zero_of_lt hbound)
    exact hstop bound
  | cons c word ih =>
    obtain ⟨bound, rfl⟩ := Nat.exists_eq_add_one_of_ne_zero (Nat.ne_zero_of_lt hbound)
    have hc := hword c (by simp)
    have hne : c ≠ ' ' := fun he => hspace (by simp [he])
    have hrest := @ih (fun x hx => hword x (by simp [hx])) (fun hin => hspace (by simp [hin]))
      bound (by simpa using hbound)
    rw [List.flatMap_cons, List.append_assoc]
    rcases escape_printable hc with ⟨he, hmark⟩ | ⟨he, _, hslash⟩
    · have hbreak := not_isBreak hc
      have hread : ∀ text, readEscape c text = some (c, text) := by
        intro text
        rcases hmark with rfl | rfl <;> rfl
      simp [he, doubleRun, hbreak, hread, hrest]
    · have hgap := isGapChar_printable hc hne
      simp [he, doubleRun, hslash, hgap, hrest]

theorem run_word {word tail rest : List Char} {stop : RunEnd} (hword : AllPrintable word)
    (hspace : ' ' ∉ word) (hstop : ∀ bound, doubleRun (bound + 1) tail = some ([], stop, rest)) :
    run false (word.flatMap escape ++ tail) = some (word, stop, rest) := by
  have hlength : word.length < (word.flatMap escape ++ tail).length + 1 := by
    have hle := length_le_escaped word
    rw [List.length_append]
    omega
  exact doubleRun_word hword hspace hstop hlength

/-- A string as words with spaces between them. -/
inductive Spelled : List Char → Prop
  | word {word : List Char} : ' ' ∉ word → Spelled word
  | spaced {word gap more : List Char} : ' ' ∉ word → gap ≠ [] → (∀ x ∈ gap, x = ' ') →
      more.head? ≠ some ' ' → Spelled more → Spelled (word ++ (gap ++ more))

theorem exists_word (s : List Char) : ∃ word gap more, s = word ++ (gap ++ more) ∧ ' ' ∉ word ∧
    (∀ x ∈ gap, x = ' ') ∧ more.head? ≠ some ' ' ∧ (gap = [] → more = []) := by
  refine ⟨s.takeWhile (· ≠ ' '), (s.dropWhile (· ≠ ' ')).takeWhile (· = ' '),
    (s.dropWhile (· ≠ ' ')).dropWhile (· = ' '), ?_, ?_, ?_, ?_, ?_⟩
  · rw [List.takeWhile_append_dropWhile, List.takeWhile_append_dropWhile]
  · intro hin
    simpa using List.mem_takeWhile_imp hin
  · intro x hx
    simpa using List.mem_takeWhile_imp hx
  · intro hhead
    have hstop := List.head?_dropWhile_not (fun x : Char => decide (x = ' '))
      (s.dropWhile (· ≠ ' '))
    rw [hhead] at hstop
    simp at hstop
  · intro hgap
    have hstop := List.head?_dropWhile_not (fun x : Char => decide (x ≠ ' ')) s
    cases hd : s.dropWhile (· ≠ ' ') with
    | nil => rfl
    | cons x xs =>
      rw [hd] at hgap hstop
      simp at hstop
      simp [hstop] at hgap

theorem spelled (s : List Char) : Spelled s := by
  induction hn : s.length using Nat.strongRecOn generalizing s with
  | ind n ih =>
  obtain ⟨word, gap, more, rfl, hspace, hgap, hhead, hlast⟩ := exists_word s
  rcases Classical.em (gap = []) with rfl | hne
  · obtain rfl := hlast rfl
    simpa using Spelled.word hspace
  · have hpos := List.length_pos_iff.mpr hne
    rw [List.length_append, List.length_append] at hn
    exact .spaced hspace hne hgap hhead (ih more.length (by omega) more rfl)

theorem folded_spaces {gap : List Char} (h : ∀ x ∈ gap, x = ' ') :
    (Gap.ofText false gap).folded = gap := by
  have hnone : gap.filter isBreak = [] := by
    rw [List.filter_eq_nil_iff]
    intro x hx
    rw [h x hx]
    decide
  simp [Gap.ofText, hnone, Gap.folded]

/-- A gap ends where the next run starts. -/
theorem span_spaces {gap more rest : List Char} (hgap : ∀ x ∈ gap, x = ' ')
    (hmore : AllPrintable more) (hhead : more.head? ≠ some ' ') :
    (gap ++ (more.flatMap escape ++ '"' :: rest)).takeWhile isGapChar = gap ∧
      (gap ++ (more.flatMap escape ++ '"' :: rest)).dropWhile isGapChar =
        more.flatMap escape ++ '"' :: rest := by
  have hpos : ∀ x ∈ gap, isGapChar x = true := by
    intro x hx
    rw [hgap x hx]
    rfl
  have hstop : ∀ x ∈ (more.flatMap escape ++ '"' :: rest).head?, isGapChar x = false := by
    cases more with
    | nil => simpa using (by decide : isGapChar '"' = false)
    | cons c more =>
      have hc := hmore c (by simp)
      have hne : c ≠ ' ' := by simpa using hhead
      rcases escape_printable hc with ⟨he, _⟩ | ⟨he, _⟩
      · simpa [he] using (by decide : isGapChar '\\' = false)
      · simpa [he] using isGapChar_printable hc hne
  exact Text.span_append hpos hstop

theorem readRuns_word {word rest : List Char} (hword : AllPrintable word) (hspace : ' ' ∉ word)
    {c : Cursor} (hcolumn : 0 < c.column) (hc : c.rest = word.flatMap escape ++ '"' :: rest)
    (bound : Nat) :
    readRuns false (bound + 1) c = some (word, c.over ((word.flatMap escape).length + 1) rest) := by
  have hrun : run false c.rest = some (word, .quote, rest) := by
    rw [hc]
    exact run_word hword hspace fun bound => by simp [doubleRun]
  have hconsumed : AllPrintable (word.flatMap escape ++ ['"']) := by
    intro x hx
    rcases List.mem_append.mp hx with hx | hx
    · exact allPrintable_escaped hword x hx
    · exact List.mem_singleton.mp hx ▸ rfl
  have hupTo := @Cursor.upTo_printable c _ rest hconsumed (by simp [hc])
  have hline : ¬ (c.column = 0 ∧ (documentMark? c.rest).isSome = true) := by omega
  have hstart : c.rest ≠ [] := by simp [hc]
  simp [readRuns, hline, hstart, hrun, hupTo, -List.length_flatMap]

theorem readRuns_spaced {word gap more rest : List Char} {after : Cursor}
    (hs : AllPrintable (word ++ (gap ++ more))) (hspace : ' ' ∉ word) (hne : gap ≠ [])
    (hgap : ∀ x ∈ gap, x = ' ') (hhead : more.head? ≠ some ' ') {c : Cursor}
    (hcolumn : 0 < c.column)
    (hc : c.rest = word.flatMap escape ++ (gap ++ (more.flatMap escape ++ '"' :: rest)))
    {bound : Nat}
    (hmore : readRuns false bound (c.over ((word.flatMap escape).length + gap.length)
      (more.flatMap escape ++ '"' :: rest)) = some (more, after)) :
    readRuns false (bound + 1) c = some (word ++ (gap ++ more), after) := by
  have hword : AllPrintable word := fun x hx => hs x (by simp [hx])
  have hblank : AllPrintable gap := fun x hx => hs x (by simp [hx])
  have hrun : run false c.rest =
      some (word, .gap, gap ++ (more.flatMap escape ++ '"' :: rest)) := by
    obtain ⟨x, others, rfl⟩ := List.exists_cons_of_ne_nil hne
    obtain rfl := hgap x (by simp)
    rw [hc]
    exact run_word hword hspace fun bound => by simp [doubleRun, isGapChar, isSpaceOrTab]
  have hupTo := Cursor.upTo_printable (allPrintable_escaped hword) hc
  obtain ⟨htake, hdrop⟩ := @span_spaces gap more rest hgap (fun x hx => hs x (by simp [hx])) hhead
  have hline : ¬ (c.column = 0 ∧ (documentMark? c.rest).isSome = true) := by omega
  have hstart : c.rest ≠ [] := by simp [hc, hne]
  have hbreak : (RunEnd.gap == RunEnd.escapedBreak) = false := rfl
  simp [readRuns, hline, hstart, hrun, hbreak, htake, hdrop, hupTo, Cursor.past_printable hblank,
    Cursor.over_over, hmore, folded_spaces hgap, -List.length_flatMap]

/-- A string of printable characters is read back, one word after the other. -/
theorem readRuns_escaped {s rest : List Char} (hs : AllPrintable s) {c : Cursor}
    (hcolumn : 0 < c.column) (hc : c.rest = s.flatMap escape ++ '"' :: rest) {bound : Nat}
    (hbound : s.length < bound) :
    readRuns false bound c = some (s, c.over ((s.flatMap escape).length + 1) rest) := by
  obtain ⟨bound, rfl⟩ := Nat.exists_eq_add_one_of_ne_zero (Nat.ne_zero_of_lt hbound)
  induction spelled s generalizing c bound with
  | word hspace => exact readRuns_word hs hspace hcolumn hc bound
  | @spaced word gap more hspace hne hgap hhead _ ih =>
    have hescaped : gap.flatMap escape = gap := by
      rw [List.flatMap_congr fun x hx => show escape x = [x] by rw [hgap x hx]; rfl]
      exact List.flatMap_singleton' gap
    have hpos := List.length_pos_iff.mpr hne
    rw [List.length_append, List.length_append] at hbound
    obtain ⟨bound, rfl⟩ := Nat.exists_eq_add_one_of_ne_zero (show bound ≠ 0 by omega)
    rw [List.flatMap_append, List.flatMap_append, hescaped, List.append_assoc, List.append_assoc]
      at hc
    refine readRuns_spaced hs hspace hne hgap hhead hcolumn hc ?_
    rw [ih (fun x hx => hs x (by simp [hx])) (show 0 < c.column + _ by omega) rfl bound (by omega),
      Cursor.over_over]
    simp [hescaped, Nat.add_assoc]

/-- A quoted string is read back after its opening mark. -/
theorem read_stringText {s rest : List Char} (hs : AllPrintable s) {c : Cursor}
    (hcolumn : 0 < c.column) (hc : c.rest = s.flatMap escape ++ '"' :: rest) :
    read false c = some (s, c.over ((s.flatMap escape).length + 1) rest) := by
  have hle := length_le_escaped s
  refine readRuns_escaped hs hcolumn hc ?_
  rw [hc, List.length_append]
  omega

end QuotedScalar

/-! ### Scalars without quotes -/

namespace PlainScalar

/-- A text with which a value in a flow collection ends. -/
def Closes (rest : List Char) : Prop :=
  ∃ c more, rest = c :: more ∧ (c = ',' ∨ c = ']' ∨ c = '\x7d')

theorem word_closes {rest : List Char} (h : Closes rest) : word true rest = some ([], rest) := by
  obtain ⟨c, more, rfl, rfl | rfl | rfl⟩ := h <;> rfl

theorem not_mark_of_isBareChar {c : Char} (h : isBareChar c = true) :
    isGapChar c = false ∧ isFlowMark c = false ∧ c ≠ ':' ∧ c ≠ '#' := by
  have hp := @forall_printable (fun c =>
    !isBareChar c || (!isGapChar c && !isFlowMark c && c != ':' && c != '#'))
    (by decide) c (isPrintable_of_isBareChar h)
  simpa [h, and_assoc] using hp

theorem word_bare {w rest : List Char} (hw : ∀ c ∈ w, isBareChar c = true) (hrest : Closes rest) :
    word true (w ++ rest) = some (w, rest) := by
  induction w with
  | nil => exact word_closes hrest
  | cons c w ih =>
    obtain ⟨hgap, hmark, hcolon, _⟩ := not_mark_of_isBareChar (hw c (by simp))
    have htail := ih fun x hx => hw x (by simp [hx])
    simp [word, hgap, hmark, hcolon, htail]

/-- A word without quotes is read up to the mark that ends it. -/
theorem read_bare {w rest : List Char} (hne : w ≠ []) (hw : ∀ c ∈ w, isBareChar c = true)
    (hrest : Closes rest) (start : Nat) {c : Cursor} (hcolumn : 0 < c.column)
    (hc : c.rest = w ++ rest) :
    read true start c = some (w, false, c.over w.length rest) := by
  have hword : word true c.rest = some (w, rest) := by
    rw [hc]
    exact word_bare hw hrest
  have hhead : c.rest.head? ≠ some '#' := by
    obtain ⟨x, xs, rfl⟩ := List.exists_cons_of_ne_nil hne
    have hx := (not_mark_of_isBareChar (hw x (by simp))).2.2.2
    simpa [hc] using hx
  have hgap : (rest.takeWhile isGapChar).isEmpty = true := by
    obtain ⟨x, more, rfl, rfl | rfl | rfl⟩ := hrest <;> rfl
  have hupTo := Cursor.upTo_printable (fun x hx => isPrintable_of_isBareChar (hw x hx)) hc
  have hstart : ¬ ((c.column = 0 ∧ (documentMark? c.rest).isSome = true) ∨
      c.rest.head? = some '#') := by
    rintro (⟨hzero, _⟩ | hmark)
    · omega
    · exact hhead hmark
  have hsome : w.isEmpty = false := by simpa using hne
  simp only [read, words, if_neg hstart, hword, Option.bind_eq_bind, Option.bind_some, hsome, hgap,
    hupTo, Bool.false_eq_true, if_true, if_false]
  rfl

end PlainScalar

theorem isTagChar_space : isTagChar false ' ' = false := by
  decide

theorem readTag_local {name rest : List Char} (hne : name ≠ [])
    (hname : ∀ c ∈ name, isWordChar c = true) :
    readTag (name ++ ' ' :: rest) = some (.tag ['!'] (octetsOf name), ' ' :: rest) := by
  have hspace : ∀ c ∈ (' ' :: rest).head?, isWordChar c = false := by
    simpa using (by decide : isWordChar ' ' = false)
  have hhandle : readHandle (name ++ ' ' :: rest) = (name, false, ' ' :: rest) := by
    obtain ⟨htake, hdrop⟩ := Text.span_append hname hspace
    rw [readHandle, htake, hdrop]
    rfl
  have hmore : readTagText false (' ' :: rest) = some ([], ' ' :: rest) := by
    simp [readTagText, readTagChars, isTagChar_space]
  have hsuffix : octetsOf name ≠ [] := by
    simpa [octetsOf] using hne
  obtain ⟨x, xs, rfl⟩ := List.exists_cons_of_ne_nil hne
  have hx : x ≠ '<' := by
    rintro rfl
    exact absurd (hname '<' (by simp)) (by decide)
  rw [List.cons_append] at hhandle ⊢
  unfold readTag
  split
  next heq => exact absurd (List.cons.inj heq).1 hx
  next =>
    rw [hhandle]
    simp [hmore, beforeZero, hsuffix]

end ClassFacts.Yaml

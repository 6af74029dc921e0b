import ClassFacts.Proofs.Json.Numbers
import ClassFacts.Proofs.Json.Strings
import ClassFacts.Proofs.Keyed
import Mathlib.Data.List.TakeWhile

namespace ClassFacts.Json

/-- A text that starts as an item of a container may. -/
def Opens (text : List Char) : Prop :=
  ∃ c rest, text = c :: rest ∧ isSpace c = false ∧ c ≠ ']' ∧ c ≠ '\x7d'

/-- A text that is read as a value, whatever follows with which no number goes on. -/
def Reads {α : Type} (read : List Char → Except Fault (Front α)) (text : List Char) (x : α) :
    Prop :=
  Opens text ∧ ∀ rest, Ends rest → read (text ++ rest) = .ok (x, rest)

/-- Texts with a comma between two of them, and before the first unless it is the first of all. -/
def separated : Bool → List (List Char) → List Char
  | _, [] => []
  | first, text :: texts => (if first then text else ',' :: text) ++ separated false texts

theorem separated_cons (first : Bool) (text : List Char) (texts : List (List Char)) :
    separated first (text :: texts) =
      (if first then [] else [',']) ++ (text ++ separated false texts) := by
  cases first <;> rfl

def entryText (entry : String × List Char) : List Char :=
  stringText entry.1 ++ ':' :: entry.2

theorem opens_cons {c : Char} (text : List Char) (h : isSpace c = false ∧ c ≠ ']' ∧ c ≠ '\x7d') :
    Opens (c :: text) :=
  ⟨c, text, rfl, h⟩

theorem skipSpace_cons {c : Char} (h : isSpace c = false) (text : List Char) :
    skipSpace (c :: text) = c :: text :=
  List.dropWhile_cons_of_neg (by simp [h])

theorem Opens.skipSpace {text : List Char} (h : Opens text) : skipSpace text = text := by
  obtain ⟨c, cs, rfl, hc, _⟩ := h
  exact skipSpace_cons hc cs

theorem Opens.length_pos {text : List Char} (h : Opens text) : 0 < text.length := by
  obtain ⟨c, cs, rfl, _⟩ := h
  simp

theorem opens_entryText (entry : String × List Char) : Opens (entryText entry) :=
  opens_cons _ (by decide)

theorem length_le_separated {texts : List (List Char)} (h : ∀ text ∈ texts, 0 < text.length)
    (first : Bool) : texts.length ≤ (separated first texts).length := by
  induction texts generalizing first with
  | nil => simp
  | cons text texts ih =>
    have hrest := ih (fun t ht => h t (by simp [ht])) false
    have hpos := h text (by simp)
    cases first <;> simp only [separated, Bool.false_eq_true, ↓reduceIte, List.length_append,
      List.length_cons] <;> omega

theorem length_le_separated_of_mem {texts : List (List Char)} {text : List Char} (h : text ∈ texts)
    (first : Bool) : text.length ≤ (separated first texts).length := by
  induction texts generalizing first with
  | nil => cases h
  | cons t texts ih =>
    rcases List.mem_cons.mp h with rfl | h
    · cases first <;> simp only [separated, Bool.false_eq_true, ↓reduceIte, List.length_append,
        List.length_cons] <;> omega
    · have hrest := ih h false
      cases first <;> simp only [separated, Bool.false_eq_true, ↓reduceIte, List.length_append,
        List.length_cons] <;> omega

theorem readMark_cons {mark : Char} (h : isSpace mark = false) (text : List Char) :
    readMark mark (mark :: text) = .ok text := by
  simp [readMark, skipSpace_cons h]

def AllSpace (text : List Char) : Prop :=
  ∀ c ∈ text, isSpace c = true

theorem allSpace_nil : AllSpace [] := by
  simp [AllSpace]

theorem skipSpace_append {space : List Char} (h : AllSpace space) (text : List Char) :
    skipSpace (space ++ text) = skipSpace text :=
  List.dropWhile_append_of_pos h

theorem next_space {space : List Char} (h : AllSpace space) (bracket : Char) (first : Bool)
    (text : List Char) : next bracket first (space ++ text) = next bracket first text := by
  rw [next, next, skipSpace_append h]

theorem readMark_space {space : List Char} (h : AllSpace space) {mark : Char}
    (hmark : isSpace mark = false) (text : List Char) :
    readMark mark (space ++ mark :: text) = .ok text := by
  rw [readMark, skipSpace_append h, skipSpace_cons hmark]
  simp

/-- White space goes on with no number. -/
theorem ends_space {space : List Char} (h : AllSpace space) {rest : List Char} (hrest : Ends rest) :
    Ends (space ++ rest) := by
  cases space with
  | nil => exact hrest
  | cons c space =>
    have hc := h c (by simp)
    have hnot : ∀ d, isSpace d = false → c ≠ d := by
      rintro d hd rfl
      rw [hc] at hd
      cases hd
    refine ends_cons _ ⟨?_, hnot '.' rfl, hnot 'e' rfl, hnot 'E' rfl⟩
    cases hdigit : isDigit c with
    | false => rfl
    | true => exact absurd hc (by simp [isSpace_of_isDigit hdigit])

/-- An item between white space starts where the white space before it ends. -/
theorem next_spaced {bracket : Char} (hb : bracket = ']' ∨ bracket = '\x7d')
    {before text : List Char} (hbefore : AllSpace before) (hopens : Opens text) (first : Bool)
    (rest : List Char) :
    next bracket first ((if first then [] else [',']) ++ (before ++ (text ++ rest))) =
      .ok (.item (text ++ rest)) := by
  obtain ⟨c, cs, rfl, hspace, harray, hobject⟩ := hopens
  rw [List.cons_append]
  have hskip : skipSpace (before ++ c :: (cs ++ rest)) = c :: (cs ++ rest) := by
    rw [skipSpace_append hbefore, skipSpace_cons hspace]
  have hne : c ≠ bracket := by
    rcases hb with rfl | rfl
    · exact harray
    · exact hobject
  have hcomma : ',' ≠ bracket := by
    rcases hb with rfl | rfl <;> decide
  cases first with
  | true => simp [next, hskip, hne]
  | false =>
    have hmark := skipSpace_cons (show isSpace ',' = false from rfl) (before ++ c :: (cs ++ rest))
    simp [next, hmark, hcomma, hskip, hne]

theorem next_close {bracket : Char} (hb : bracket = ']' ∨ bracket = '\x7d') (first : Bool)
    (rest : List Char) : next bracket first (bracket :: rest) = .ok (.close rest) := by
  have hspace : isSpace bracket = false := by
    rcases hb with rfl | rfl <;> rfl
  simp [next, skipSpace_cons hspace]

theorem next_closing {bracket : Char} (hb : bracket = ']' ∨ bracket = '\x7d') {close : List Char}
    (hclose : AllSpace close) (first : Bool) (rest : List Char) :
    next bracket first (close ++ bracket :: rest) = .ok (.close rest) := by
  rw [next_space hclose, next_close hb]

theorem next_spread {bracket : Char} (hb : bracket = ']' ∨ bracket = '\x7d')
    {before text : List Char} (hbefore : AllSpace before) (h : Opens text) (first : Bool)
    (texts : List (List Char)) (rest : List Char) :
    next bracket first (separated first ((before ++ text) :: texts) ++ rest) =
      .ok (.item (text ++ (separated false texts ++ rest))) := by
  have hnext := next_spaced hb hbefore h first (separated false texts ++ rest)
  simpa [separated_cons] using hnext

theorem next_separated {bracket : Char} (hb : bracket = ']' ∨ bracket = '\x7d') {text : List Char}
    (h : Opens text) (first : Bool) (texts : List (List Char)) (rest : List Char) :
    next bracket first (separated first (text :: texts) ++ rest) =
      .ok (.item (text ++ (separated false texts ++ rest))) :=
  next_spread hb allSpace_nil h first texts rest

theorem ends_spread {bracket : Char} (hb : bracket = ']' ∨ bracket = '\x7d') {close : List Char}
    (hclose : AllSpace close) (texts : List (List Char)) (rest : List Char) :
    Ends (separated false texts ++ (close ++ bracket :: rest)) := by
  cases texts with
  | nil =>
    refine ends_space hclose (ends_cons _ ?_)
    rcases hb with rfl | rfl <;> decide
  | cons text texts => exact ends_cons _ (by decide)

theorem ends_separated {bracket : Char} (hb : bracket = ']' ∨ bracket = '\x7d')
    (texts : List (List Char)) (rest : List Char) :
    Ends (separated false texts ++ bracket :: rest) :=
  ends_spread hb allSpace_nil texts rest

/-! ### Arrays and objects -/

/-- How the entries of an object, read one after the other, change what has been gathered. -/
inductive Gathers {σ : Type} (entry : σ → String → List Char → Except Fault (Front σ)) :
    σ → List (String × List Char) → σ → Prop
  | done {s : σ} : Gathers entry s [] s
  | step {s s' s'' : σ} {key : String} {text : List Char} {entries : List (String × List Char)} :
      (∀ rest, Ends rest → entry s key (':' :: (text ++ rest)) = .ok (s', rest)) →
      Gathers entry s' entries s'' → Gathers entry s ((key, text) :: entries) s''

theorem readKey_stringText (key : String) (rest : List Char) :
    readKey (stringText key ++ rest) = .ok (key, rest) := by
  have htext : stringText key ++ rest = '"' :: (key.toList.flatMap escape ++ '"' :: rest) := by
    simp [stringText]
  have hmark : readMark '"' (stringText key ++ rest) =
      .ok (key.toList.flatMap escape ++ '"' :: rest) := by
    rw [htext, readMark, skipSpace_cons rfl]
    rfl
  rw [readKey, hmark, ok_bind, readString_escaped]

theorem readKey_entryText (key : String) (text rest : List Char) :
    readKey (entryText (key, text) ++ rest) = .ok (key, ':' :: (text ++ rest)) := by
  have htext : entryText (key, text) ++ rest = stringText key ++ ':' :: (text ++ rest) := by
    simp [entryText]
  rw [htext, readKey_stringText]

section Spread

variable {α ι σ : Type} {before close : List Char} (hbefore : AllSpace before)
  (hclose : AllSpace close)

include hbefore hclose

/-- The items of an array are read back, with white space before each and before its end. -/
theorem readItems_bounded {item : List Char → Except Fault (Front α)} {text : ι → List Char}
    {value : ι → α} {is : List ι} (h : ∀ i ∈ is, Reads item (text i) (value i)) {bound : Nat}
    (hbound : is.length < bound) (first : Bool) (rest : List Char) :
    readItems item bound first
        (separated first (is.map fun i => before ++ text i) ++ (close ++ ']' :: rest)) =
      .ok (is.map value, rest) := by
  induction is generalizing bound first with
  | nil =>
    obtain ⟨bound, rfl⟩ := Nat.exists_eq_add_one_of_ne_zero (Nat.ne_zero_of_lt hbound)
    have hclosing := next_closing (Or.inl rfl) hclose first rest
    simp [separated, readItems, hclosing]
  | cons i is ih =>
    obtain ⟨bound, rfl⟩ := Nat.exists_eq_add_one_of_ne_zero (Nat.ne_zero_of_lt hbound)
    obtain ⟨hopens, hread⟩ := h i (by simp)
    have hnext := next_spread (Or.inl rfl) hbefore hopens first
      (is.map fun i => before ++ text i) (close ++ ']' :: rest)
    have hrest := ih (fun j hj => h j (by simp [hj]))
      (show is.length < bound by simpa using hbound) false
    rw [List.map_cons, readItems, hnext, ok_bind]
    simp [hread _ (ends_spread (Or.inl rfl) hclose _ rest), hrest]

/-- The text of an array leaves room enough for its own items. -/
theorem readItems_spread {item : List Char → Except Fault (Front α)} {text : ι → List Char}
    {value : ι → α} {is : List ι} (h : ∀ i ∈ is, Reads item (text i) (value i))
    (rest : List Char) {document : List Char}
    (hd : document =
      separated true (is.map fun i => before ++ text i) ++ (close ++ ']' :: rest)) :
    readItems item (document.length + 1) true document = .ok (is.map value, rest) := by
  subst hd
  have hpos : ∀ t ∈ is.map fun i => before ++ text i, 0 < t.length := by
    intro t ht
    obtain ⟨i, hi, rfl⟩ := List.mem_map.mp ht
    have hlength := (h i hi).1.length_pos
    rw [List.length_append]
    omega
  have hroom := length_le_separated hpos true
  refine readItems_bounded hbefore hclose h ?_ true rest
  rw [List.length_map] at hroom
  rw [List.length_append]
  omega

/-- The entries of an object are gathered. -/
theorem readEntries_bounded {entry : σ → String → List Char → Except Fault (Front σ)}
    {s s' : σ} {entries : List (String × List Char)} (h : Gathers entry s entries s') {bound : Nat}
    (hbound : entries.length < bound) (first : Bool) (rest : List Char) :
    readEntries entry bound first s
        (separated first (entries.map fun e => before ++ entryText e) ++
          (close ++ '\x7d' :: rest)) = .ok (s', rest) := by
  induction h generalizing bound first with
  | done =>
    obtain ⟨bound, rfl⟩ := Nat.exists_eq_add_one_of_ne_zero (Nat.ne_zero_of_lt hbound)
    have hclosing := next_closing (Or.inr rfl) hclose first rest
    simp [separated, readEntries, hclosing]
  | @step s s' s'' key text entries hentry _ ih =>
    obtain ⟨bound, rfl⟩ := Nat.exists_eq_add_one_of_ne_zero (Nat.ne_zero_of_lt hbound)
    have hnext := next_spread (Or.inr rfl) hbefore (opens_entryText (key, text)) first
      (entries.map fun e => before ++ entryText e) (close ++ '\x7d' :: rest)
    have hrest := ih (show entries.length < bound by simpa using hbound) false
    rw [List.map_cons, readEntries, hnext, ok_bind]
    simp [readKey_entryText, hentry _ (ends_spread (Or.inr rfl) hclose _ rest), hrest]

/-- The text of an object leaves room enough for its own entries. -/
theorem readEntries_spread {entry : σ → String → List Char → Except Fault (Front σ)} {s s' : σ}
    {entries : List (String × List Char)} (h : Gathers entry s entries s')
    (rest : List Char) {document : List Char}
    (hd : document = separated true (entries.map fun e => before ++ entryText e) ++
      (close ++ '\x7d' :: rest)) :
    readEntries entry (document.length + 1) true s document = .ok (s', rest) := by
  subst hd
  have hpos : ∀ t ∈ entries.map fun e => before ++ entryText e, 0 < t.length := by
    intro t ht
    obtain ⟨e, _, rfl⟩ := List.mem_map.mp ht
    have hlength := (opens_entryText e).length_pos
    rw [List.length_append]
    omega
  have hroom := length_le_separated hpos true
  refine readEntries_bounded hbefore hclose h ?_ true rest
  rw [List.length_map] at hroom
  rw [List.length_append]
  omega

end Spread

variable {α ι σ : Type}

theorem readItems_array {item : List Char → Except Fault (Front α)} {text : ι → List Char}
    {value : ι → α} {is : List ι} (h : ∀ i ∈ is, Reads item (text i) (value i))
    (rest : List Char) {document : List Char}
    (hd : document = separated true (is.map text) ++ ']' :: rest) :
    readItems item (document.length + 1) true document = .ok (is.map value, rest) :=
  readItems_spread allSpace_nil allSpace_nil h rest hd

theorem readEntries_object {entry : σ → String → List Char → Except Fault (Front σ)} {s s' : σ}
    {entries : List (String × List Char)} (h : Gathers entry s entries s')
    (rest : List Char) {document : List Char}
    (hd : document = separated true (entries.map entryText) ++ '\x7d' :: rest) :
    readEntries entry (document.length + 1) true s document = .ok (s', rest) :=
  readEntries_spread allSpace_nil allSpace_nil h rest hd

/-- What holds of whatever is read as an item holds of the items of an array. -/
theorem forall_of_readItems {item : List Char → Except Fault (Front α)} {P : α → Prop}
    (hitem : ∀ text x rest, item text = .ok (x, rest) → P x) {bound : Nat} {first : Bool}
    {text rest : List Char} {xs : List α} (h : readItems item bound first text = .ok (xs, rest)) :
    ∀ x ∈ xs, P x := by
  induction bound generalizing first text rest xs with
  | zero => cases h
  | succ bound ih =>
    rw [readItems] at h
    obtain ⟨step, _, h⟩ := bind_eq_ok.mp h
    cases step with
    | close after =>
      cases h
      simp
    | item after =>
      obtain ⟨⟨x, middle⟩, hx, h⟩ := bind_eq_ok.mp h
      obtain ⟨⟨others, last⟩, hothers, h⟩ := bind_eq_ok.mp h
      cases h
      intro y hy
      rcases List.mem_cons.mp hy with rfl | hy
      · exact hitem after y middle hx
      · exact ih hothers y hy

/-- What every entry of an object keeps holds of what is gathered from all of them. -/
theorem invariant_of_readEntries {entry : σ → String → List Char → Except Fault (Front σ)}
    {P : σ → Prop}
    (hentry : ∀ s key text s' rest, entry s key text = .ok (s', rest) → P s → P s') {bound : Nat}
    {first : Bool} {s s' : σ} {text rest : List Char} (hs : P s)
    (h : readEntries entry bound first s text = .ok (s', rest)) : P s' := by
  induction bound generalizing first s text with
  | zero => cases h
  | succ bound ih =>
    rw [readEntries] at h
    obtain ⟨step, _, h⟩ := bind_eq_ok.mp h
    cases step with
    | close after =>
      cases h
      exact hs
    | item after =>
      obtain ⟨⟨key, behind⟩, _, h⟩ := bind_eq_ok.mp h
      obtain ⟨⟨t, middle⟩, ht, h⟩ := bind_eq_ok.mp h
      exact ih (hentry s key behind t middle ht hs) h

/-! ### Entries that are put by their keys -/

/-- Reads an entry of an object of which each value is put by its key. -/
def readPut (value : List Char → Except Fault (Front α)) (found : List (String × α)) (key : String)
    (text : List Char) : Except Fault (Front (List (String × α))) := do
  let (v, text) ← value (← readMark ':' text)
  return (Entries.put key v found, text)

/-- Values that are read are put one after the other, whatever their keys. -/
theorem gathers_put {value : List Char → Except Fault (Front α)}
    {ps : List (String × List Char × α)}
    (hread : ∀ p ∈ ps, ∀ rest, Ends rest → value (p.2.1 ++ rest) = .ok (p.2.2, rest))
    (found : List (String × α)) :
    Gathers (readPut value) found (ps.map fun p => (p.1, p.2.1))
      (ps.foldl (fun found p => Entries.put p.1 p.2.2 found) found) := by
  induction ps generalizing found with
  | nil => exact .done
  | cons p ps ih =>
    obtain ⟨key, text, v⟩ := p
    rw [List.map_cons, List.foldl_cons]
    refine .step (fun rest hends => ?_) (ih (fun p hp => hread p (by simp [hp])) _)
    have hvalue := hread (key, text, v) (by simp) rest hends
    simp [readPut, readMark_cons (show isSpace ':' = false from rfl), hvalue]

/-- Values with keys of their own are gathered in their order. -/
theorem gathers_distinct {value : List Char → Except Fault (Front α)}
    {ps : List (String × List Char × α)}
    (hread : ∀ p ∈ ps, ∀ rest, Ends rest → value (p.2.1 ++ rest) = .ok (p.2.2, rest))
    (hnodup : (ps.map Prod.fst).Nodup) :
    Gathers (readPut value) [] (ps.map fun p => (p.1, p.2.1)) (ps.map fun p => (p.1, p.2.2)) := by
  rw [← Entries.gathered_of_nodup Prod.fst (fun p : String × List Char × α => p.2.2) hnodup]
  exact gathers_put hread []

/-- What holds of whatever is read as a value holds of the values of an object. -/
theorem each_of_readEntries {value : List Char → Except Fault (Front α)} {P : α → Prop}
    (hvalue : ∀ text v rest, value text = .ok (v, rest) → P v) {bound : Nat} {first : Bool}
    {text rest : List Char} {entries : List (String × α)}
    (h : readEntries (readPut value) bound first [] text = .ok (entries, rest)) :
    Entries.Each P entries := by
  refine invariant_of_readEntries (fun found key text found' rest hentry hfound => ?_)
    (Entries.each_nil P) h
  obtain ⟨marked, _, hentry⟩ := bind_eq_ok.mp hentry
  obtain ⟨⟨v, last⟩, hv, hentry⟩ := bind_eq_ok.mp hentry
  cases hentry
  exact hfound.put key (hvalue _ _ _ hv)

theorem whole_error {read : List Char → Except Fault (Front α)} {text : String} {fault : Fault}
    (h : read text.toList = .error fault) : whole read text = .error fault := by
  rw [whole, h]
  rfl

theorem whole_ok {read : List Char → Except Fault (Front α)} {text : String} {x : α}
    {rest : List Char} (h : read text.toList = .ok (x, rest)) :
    whole read text = if rest.all isSpace then .ok x else .error .malformed := by
  have hskip : (skipSpace rest).isEmpty = rest.all isSpace := by
    rw [Bool.eq_iff_iff, List.isEmpty_iff, skipSpace, List.dropWhile_eq_nil_iff, List.all_eq_true]
  rw [whole, h, ok_bind]
  simp [hskip]

end ClassFacts.Json

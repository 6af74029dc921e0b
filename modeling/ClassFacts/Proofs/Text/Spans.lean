import ClassFacts.Text.Blank
import Mathlib.Data.List.TakeWhile

namespace ClassFacts.Text

/-- What is read as long as a property holds ends where the property does. -/
theorem span_append {p : Char → Bool} {first rest : List Char} (hfirst : ∀ c ∈ first, p c = true)
    (hrest : ∀ c ∈ rest.head?, p c = false) :
    (first ++ rest).takeWhile p = first ∧ (first ++ rest).dropWhile p = rest := by
  have hstop : rest.takeWhile p = [] ∧ rest.dropWhile p = rest := by
    cases rest with
    | nil => exact ⟨rfl, rfl⟩
    | cons c rest =>
      have hc := hrest c rfl
      simp [hc]
  rw [List.takeWhile_append_of_pos hfirst, List.dropWhile_append_of_pos hfirst, hstop.1, hstop.2]
  simp

/-- What is read up to a mark goes past a text without it. -/
theorem until_append {mark : Char} {first : List Char} (h : mark ∉ first) (rest : List Char) :
    (first ++ rest).takeWhile (· ≠ mark) = first ++ rest.takeWhile (· ≠ mark) ∧
      (first ++ rest).dropWhile (· ≠ mark) = rest.dropWhile (· ≠ mark) := by
  have hne : ∀ c ∈ first, decide (c ≠ mark) = true := by
    intro c hc
    simpa using fun e : c = mark => h (e ▸ hc)
  exact ⟨List.takeWhile_append_of_pos hne, List.dropWhile_append_of_pos hne⟩

def AllBlank (text : List Char) : Prop :=
  ∀ c ∈ text, isBlank c = true

instance (text : List Char) : Decidable (AllBlank text) :=
  List.decidableBAll (isBlank · = true) text

/-- A text without white space at its ends. -/
def Tight (text : List Char) : Prop :=
  (∀ c ∈ text.head?, isBlank c = false) ∧ ∀ c ∈ text.getLast?, isBlank c = false

/-- What is left of a text without the white space at its ends. -/
def Strips (source core : List Char) : Prop :=
  ∃ before after, AllBlank before ∧ AllBlank after ∧ Tight core ∧ source = before ++ (core ++ after)

theorem tight_of_forall {text : List Char} (h : ∀ c ∈ text, isBlank c = false) : Tight text :=
  ⟨fun c hc => h c (List.mem_of_head? hc), fun c hc => h c (List.mem_of_getLast? hc)⟩

theorem tight_between {first last : Char} (hfirst : isBlank first = false)
    (hlast : isBlank last = false) (inside : List Char) :
    Tight (first :: (inside ++ [last])) := by
  refine ⟨?_, ?_⟩
  · intro c hc
    cases hc
    exact hfirst
  · intro c hc
    rw [← List.cons_append, List.getLast?_concat] at hc
    cases hc
    exact hlast

theorem strips_self {text : List Char} (h : Tight text) : Strips text text :=
  ⟨[], [], by simp [AllBlank], by simp [AllBlank], h, by simp⟩

theorem trimStart_append {before : List Char} (h : AllBlank before) (text : List Char) :
    trimStart (before ++ text) = trimStart text :=
  List.dropWhile_append_of_pos h

theorem trimStart_of_head {text : List Char} (h : ∀ c ∈ text.head?, isBlank c = false) :
    trimStart text = text :=
  (span_append (List.forall_mem_nil _) h).2

theorem head_trimStart (text : List Char) : ∀ c ∈ (trimStart text).head?, isBlank c = false := by
  intro c hc
  have hstop := List.head?_dropWhile_not isBlank text
  rw [trimStart] at hc
  rw [hc] at hstop
  exact hstop

theorem exists_trimStart (text : List Char) :
    ∃ before, AllBlank before ∧ text = before ++ trimStart text :=
  ⟨text.takeWhile isBlank, fun _ hc => List.mem_takeWhile_imp hc,
    List.takeWhile_append_dropWhile.symm⟩

theorem trimEnd_eq (text : List Char) : trimEnd text = (trimStart text.reverse).reverse := rfl

theorem trimEnd_append {after : List Char} (h : AllBlank after) (text : List Char) :
    trimEnd (text ++ after) = trimEnd text := by
  have hreverse : AllBlank after.reverse := fun c hc => h c (List.mem_reverse.mp hc)
  rw [trimEnd_eq, List.reverse_append, trimStart_append hreverse, trimEnd_eq]

theorem trimEnd_of_getLast {text : List Char} (h : ∀ c ∈ text.getLast?, isBlank c = false) :
    trimEnd text = text := by
  have hhead : ∀ c ∈ text.reverse.head?, isBlank c = false := by
    rwa [List.head?_reverse]
  rw [trimEnd_eq, trimStart_of_head hhead, List.reverse_reverse]

theorem getLast_trimEnd (text : List Char) : ∀ c ∈ (trimEnd text).getLast?, isBlank c = false := by
  rw [trimEnd_eq, List.getLast?_reverse]
  exact head_trimStart text.reverse

theorem trimEnd_eq_self_iff {text : List Char} :
    trimEnd text = text ↔ ∀ c ∈ text.getLast?, isBlank c = false := by
  refine ⟨fun h => ?_, trimEnd_of_getLast⟩
  rw [← h]
  exact getLast_trimEnd text

theorem exists_trimEnd (text : List Char) :
    ∃ after, AllBlank after ∧ text = trimEnd text ++ after := by
  obtain ⟨before, hbefore, hsplit⟩ := exists_trimStart text.reverse
  refine ⟨before.reverse, fun c hc => hbefore c (List.mem_reverse.mp hc), ?_⟩
  rw [trimEnd_eq, ← List.reverse_append, ← hsplit, List.reverse_reverse]

theorem trim_of_strips {source core : List Char} (h : Strips source core) : trim source = core := by
  obtain ⟨before, after, hbefore, hafter, ⟨hfirst, hlast⟩, rfl⟩ := h
  cases core with
  | nil =>
    have hnone : trimStart after = [] := List.dropWhile_eq_nil_iff.mpr hafter
    rw [trim, trimStart_append hbefore, List.nil_append, hnone]
    rfl
  | cons c rest =>
    have hstart : trimStart (c :: rest ++ after) = c :: rest ++ after :=
      trimStart_of_head hfirst
    rw [trim, trimStart_append hbefore, hstart, trimEnd_append hafter, trimEnd_of_getLast hlast]

theorem tight_trim (text : List Char) : Tight (trim text) := by
  refine ⟨fun c hc => head_trimStart text c ?_, getLast_trimEnd (trimStart text)⟩
  obtain ⟨after, _, hsplit⟩ := exists_trimEnd (trimStart text)
  have hfirst : c ∈ (trimEnd (trimStart text) ++ after).head? := by
    rw [List.head?_append, show (trimEnd (trimStart text)).head? = some c from hc]
    rfl
  rwa [← hsplit] at hfirst

theorem strips_trim (text : List Char) : Strips text (trim text) := by
  obtain ⟨before, hbefore, hstart⟩ := exists_trimStart text
  obtain ⟨after, hafter, hend⟩ := exists_trimEnd (trimStart text)
  refine ⟨before, after, hbefore, hafter, tight_trim text, ?_⟩
  calc text = before ++ trimStart text := hstart
    _ = before ++ (trim text ++ after) := congrArg (before ++ ·) hend

theorem strips_iff {source core : List Char} : Strips source core ↔ core = trim source :=
  ⟨fun h => (trim_of_strips h).symm, fun h => h ▸ strips_trim source⟩

end ClassFacts.Text

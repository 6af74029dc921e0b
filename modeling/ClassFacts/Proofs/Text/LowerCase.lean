import ClassFacts.Text.LowerCase
import Mathlib.Data.Nat.ModEq

namespace ClassFacts.Text

namespace CaseRun

/-- The code points to which a run is moved. -/
def image (run : CaseRun) : CaseRun :=
  ⟨(run.first + run.shift).toNat, (run.last + run.shift).toNat, run.stride, 0⟩

/-- What divides the distance between any two code points of a run. A single one is at no distance
from itself, whatever the stride. -/
def spacing (run : CaseRun) : Nat :=
  if run.first = run.last then 0 else run.stride

/-- One run ends before the other begins, or they step past one another. -/
def apart (run other : CaseRun) : Bool :=
  -- `Nat.blt` and not `<`, because this is evaluated for every pair of a long table
  Nat.blt run.last other.first || Nat.blt other.last run.first ||
    run.first % run.spacing.gcd other.spacing != other.first % run.spacing.gcd other.spacing

variable {run other : CaseRun} {code : Nat}

theorem covers_iff :
    run.covers code = true ↔
      run.first ≤ code ∧ code ≤ run.last ∧ (code - run.first) % run.stride = 0 := by
  simp [covers, and_assoc]

theorem covers_eq_false_iff {first last : Nat} {shift : Int} :
    covers ⟨first, last, 1, shift⟩ code = false ↔ code < first ∨ last < code := by
  rw [← Bool.not_eq_true, covers_iff]
  dsimp only
  rw [Nat.mod_one]
  omega

theorem apart_iff :
    run.apart other = true ↔
      run.last < other.first ∨ other.last < run.first ∨
        ¬ run.first ≡ other.first [MOD run.spacing.gcd other.spacing] := by
  simp [apart, Nat.ModEq, or_assoc]

theorem modEq_of_covers (h : run.covers code = true) : run.first ≡ code [MOD run.spacing] := by
  obtain ⟨hfirst, hlast, hstep⟩ := covers_iff.mp h
  unfold spacing
  split
  next hsingle =>
    have hcode : run.first = code := by omega
    rw [hcode]
  next => exact (Nat.modEq_iff_dvd' hfirst).mpr (Nat.dvd_of_mod_eq_zero hstep)

theorem not_covers_of_apart (h : run.apart other = true) (hrun : run.covers code = true) :
    other.covers code = false := by
  cases hother : other.covers code with
  | false => rfl
  | true =>
    have hin := covers_iff.mp hrun
    have hin' := covers_iff.mp hother
    rcases apart_iff.mp h with hbefore | hbehind | hsteps
    · omega
    · omega
    · have hmod := (modEq_of_covers hrun).of_dvd (Nat.gcd_dvd_left _ other.spacing)
      have hmod' := (modEq_of_covers hother).of_dvd (Nat.gcd_dvd_right run.spacing _)
      exact absurd (hmod.trans hmod'.symm) hsteps

theorem image_covers (hstart : 0 ≤ run.first + run.shift) (h : run.covers code = true) :
    run.image.covers (code + run.shift).toNat = true := by
  obtain ⟨hfirst, hlast, hstep⟩ := covers_iff.mp h
  have hdistance : (code + run.shift).toNat - (run.first + run.shift).toNat = code - run.first := by
    omega
  apply covers_iff.mpr
  refine ⟨?_, ?_, ?_⟩
  · change (run.first + run.shift).toNat ≤ (code + run.shift).toNat
    omega
  · change (code + run.shift).toNat ≤ (run.last + run.shift).toNat
    omega
  · change ((code + run.shift).toNat - (run.first + run.shift).toNat) % run.stride = 0
    rw [hdistance, hstep]

end CaseRun

/-- Where no character is moved: to the dotted capital I, to a surrogate, or to what is moved
itself. -/
def barred : List CaseRun :=
  ⟨0x130, 0x130, 1, 0⟩ :: ⟨0xD800, 0xDFFF, 1, 0⟩ :: caseRuns

theorem caseRuns_apart :
    caseRuns.all (fun run => barred.all fun other => run.image.apart other) = true := by
  decide +kernel

theorem caseRuns_bounds :
    ∀ run ∈ caseRuns, 0 ≤ run.first + run.shift ∧ run.image.last < 0x110000 := by
  decide +kernel

variable {code : Nat}

theorem lowerCode_of_not_covers (h : ∀ run ∈ caseRuns, run.covers code = false) :
    lowerCode code = code := by
  have hnone : caseRuns.find? (·.covers code) = none := by
    apply List.find?_eq_none.mpr
    intro run hrun
    simp [h run hrun]
  unfold lowerCode
  rw [hnone]

/-- A code point stays where it is, or it is moved to a place from which none is moved. -/
theorem lowerCode_cases (code : Nat) :
    lowerCode code = code ∨
      lowerCode code < 0x110000 ∧ ∀ other ∈ barred, other.covers (lowerCode code) = false := by
  cases hfind : caseRuns.find? (·.covers code) with
  | none =>
    left
    apply lowerCode_of_not_covers
    simpa using hfind
  | some run =>
    right
    have hrun : run ∈ caseRuns := List.mem_of_find?_eq_some hfind
    have hcovers : run.covers code = true := by simpa using List.find?_some hfind
    have hlower : lowerCode code = (code + run.shift).toNat := by
      unfold lowerCode
      rw [hfind]
    obtain ⟨hstart, hlast⟩ := caseRuns_bounds run hrun
    have himage : run.image.covers (lowerCode code) = true :=
      hlower ▸ CaseRun.image_covers hstart hcovers
    refine ⟨Nat.lt_of_le_of_lt (CaseRun.covers_iff.mp himage).2.1 hlast, ?_⟩
    intro other hother
    have hapart := List.all_eq_true.mp (List.all_eq_true.mp caseRuns_apart run hrun) other hother
    exact CaseRun.not_covers_of_apart hapart himage

theorem lowerCode_lowerCode (code : Nat) : lowerCode (lowerCode code) = lowerCode code := by
  rcases lowerCode_cases code with hsame | ⟨-, hbarred⟩
  · rw [hsame, hsame]
  · apply lowerCode_of_not_covers
    intro run hrun
    exact hbarred run (by simp [barred, hrun])

theorem isValidChar_lowerCode (h : code.isValidChar) : (lowerCode code).isValidChar := by
  rcases lowerCode_cases code with hsame | ⟨hlast, hbarred⟩
  · rwa [hsame]
  · have hsurrogate := hbarred ⟨0xD800, 0xDFFF, 1, 0⟩ (by simp [barred])
    have hout := CaseRun.covers_eq_false_iff.mp hsurrogate
    unfold Nat.isValidChar
    omega

theorem lowerCode_ne_dotted (h : code ≠ 0x130) : lowerCode code ≠ 0x130 := by
  rcases lowerCode_cases code with hsame | ⟨-, hbarred⟩
  · rwa [hsame]
  · have hdotted := hbarred ⟨0x130, 0x130, 1, 0⟩ (by simp [barred])
    have hout := CaseRun.covers_eq_false_iff.mp hdotted
    omega

theorem toNat_lowered (c : Char) : (Char.ofNat (lowerCode c.toNat)).toNat = lowerCode c.toNat := by
  have hvalid : (lowerCode c.toNat).isValidChar := isValidChar_lowerCode c.valid
  rw [Char.ofNat, dif_pos hvalid]
  rfl

theorem lowerChar_ne_nil (c : Char) : lowerChar c ≠ [] := by
  unfold lowerChar
  split <;> simp

/-- What a character becomes is in lower case. -/
theorem lowerChar_of_mem {c d : Char} (h : d ∈ lowerChar c) : lowerChar d = [d] := by
  unfold lowerChar at h
  split at h
  next =>
    have hd : d = 'i' ∨ d = '\u0307' := by simpa using h
    rcases hd with rfl | rfl
    · decide +kernel
    · decide +kernel
  next hc =>
    have hd : d = Char.ofNat (lowerCode c.toNat) := by simpa using h
    have hcode : d.toNat = lowerCode c.toNat := by rw [hd, toNat_lowered]
    have hdotted : d ≠ '\u0130' := by
      intro he
      have hne : c.toNat ≠ 0x130 := fun hn => hc (Char.toNat_inj.mp hn)
      apply lowerCode_ne_dotted hne
      rw [← hcode, he]
      rfl
    rw [lowerChar, if_neg hdotted, hcode, lowerCode_lowerCode, ← hd]

end ClassFacts.Text

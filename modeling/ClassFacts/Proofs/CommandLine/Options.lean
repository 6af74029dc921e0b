import ClassFacts.CommandLine
import ClassFacts.Proofs.Except
import ClassFacts.Proofs.Keyed
import ClassFacts.Proofs.Text.Spans
import Mathlib.Data.List.Nodup

namespace ClassFacts

/-- An option on a command line. Its value is joined to its name or is an argument of its own; a
flag has none. -/
inductive GivenOption
  | joined (name value : String)
  | apart (name value : String)
  | flag (name : String)
  deriving DecidableEq, Repr

namespace GivenOption

def name : GivenOption → String
  | .joined name _ | .apart name _ | .flag name => name

def value : GivenOption → String
  | .joined _ value | .apart _ value => value
  | .flag _ => ""

def entry (o : GivenOption) : String × String :=
  (o.name, o.value)

@[simp]
theorem entry_fst (o : GivenOption) : o.entry.1 = o.name :=
  rfl

def texts : GivenOption → List String
  | .joined name value => ["--" ++ name ++ "=" ++ value]
  | .apart name value => ["--" ++ name, value]
  | .flag name => ["--" ++ name]

end GivenOption

/-- An argument that is no option: it does not start with a hyphen, or is one. -/
def IsPlain (text : String) : Prop :=
  text.toList.head? = some '-' → text = "-"

/-- Whether an option of the given kind may be written so. A value of its own is not taken for
another option. -/
def GivenOption.Forms (kind : OptionKind) : GivenOption → Prop
  | .joined _ _ => kind ≠ .flag
  | .apart _ value => kind ≠ .flag ∧ IsPlain value
  | .flag _ => kind = .flag

/-- An option out of a table with a value that it accepts. -/
def GivenOption.Suits (table : OptionTable) (o : GivenOption) : Prop :=
  ∃ kind, table.lookup o.name = some kind ∧ kind.accepts o.value = true ∧ o.Forms kind

/-- Options that may stand together on a command line. -/
structure FitOptions (table : OptionTable) (given : List GivenOption) : Prop where
  suit : ∀ o ∈ given, o.Suits table
  once : (given.map GivenOption.name).Nodup

def optionValue? (given : List GivenOption) (name : String) : Option String :=
  (given.map GivenOption.entry).lookup name

/-- Names that can be told from their values, and from the options that every command has. -/
def PlainNames (table : OptionTable) : Prop :=
  ∀ e ∈ table, e.1 ≠ "" ∧ '=' ∉ e.1.toList ∧ e.1 ≠ "help" ∧ e.1 ≠ "version"

/-- What the options end at: nothing, or an argument that is none. -/
def EndsOptions (arguments : List String) : Prop :=
  ∀ text ∈ arguments.head?, text = "--" ∨ IsPlain text

/-! ### Single arguments -/

namespace Argument

variable {text name value : String}

theorem ofText_hyphens {rest : List Char} (htext : text.toList = '-' :: '-' :: rest)
    (hne : rest ≠ []) :
    ofText text =
      match rest.dropWhile (· ≠ '=') with
      | [] => .long (String.ofList (rest.takeWhile (· ≠ '='))) none
      | _ :: value => .long (String.ofList (rest.takeWhile (· ≠ '='))) (some (String.ofList value)) := by
  cases rest with
  | nil => exact absurd rfl hne
  | cons c rest =>
    unfold ofText
    rw [htext]
    rfl

theorem ofText_plain (h : IsPlain text) : ofText text = .plain text := by
  have hshort : ∀ c rest, text.toList ≠ '-' :: c :: rest := by
    intro c rest htext
    rw [h (by rw [htext]; rfl)] at htext
    cases htext
  unfold ofText
  split
  next htext => exact absurd htext (hshort _ _)
  next htext => exact absurd htext (hshort _ _)
  next htext => exact absurd htext (hshort _ _)
  next => rfl

/-- What an argument may be if it is not plain. -/
theorem ofText_cases (h : ¬ IsPlain text) :
    (text = "--" ∧ ofText text = .escape) ∨
      (∃ rest, rest ≠ [] ∧ text.toList = '-' :: '-' :: rest) ∨
      ∃ letters, ofText text = .short letters := by
  obtain ⟨hhead, hne⟩ := Classical.not_imp.mp h
  obtain ⟨after, htext⟩ := List.head?_eq_some_iff.mp hhead
  cases after with
  | nil => exact absurd (String.toList_inj.mp htext) hne
  | cons c rest =>
    by_cases hc : c = '-'
    · subst hc
      cases rest with
      | nil =>
        obtain rfl : text = "--" := String.toList_inj.mp htext
        exact .inl ⟨rfl, rfl⟩
      | cons d rest => exact .inr (.inl ⟨d :: rest, by simp, htext⟩)
    · refine .inr (.inr ⟨c :: rest, ?_⟩)
      unfold ofText
      rw [htext]
      split
      next heq => cases heq; exact absurd rfl hc
      next heq => cases heq; exact absurd rfl hc
      next heq => cases heq; rfl
      next hnot => exact absurd rfl (hnot c rest)

theorem ofText_joined (hname : '=' ∉ name.toList) (value : String) :
    ofText ("--" ++ name ++ "=" ++ value) = .long name (some value) := by
  have htext : ("--" ++ name ++ "=" ++ value).toList =
      '-' :: '-' :: (name.toList ++ '=' :: value.toList) := by simp
  obtain ⟨htake, hdrop⟩ := Text.until_append hname ('=' :: value.toList)
  rw [ofText_hyphens htext (by simp), htake, hdrop]
  simp

theorem ofText_name (hne : name ≠ "") (hname : '=' ∉ name.toList) :
    ofText ("--" ++ name) = .long name none := by
  have htext : ("--" ++ name).toList = '-' :: '-' :: name.toList := by simp
  obtain ⟨htake, hdrop⟩ := Text.until_append hname []
  rw [List.append_nil] at htake hdrop
  rw [ofText_hyphens htext (by simpa using hne), htake, hdrop]
  simp

/-- Only a plain argument is taken as one, and it is taken as it is. -/
theorem eq_of_ofText_plain (h : ofText text = .plain value) : text = value ∧ IsPlain text := by
  by_cases hplain : IsPlain text
  · rw [ofText_plain hplain] at h
    exact ⟨plain.inj h, hplain⟩
  · rcases ofText_cases hplain with ⟨_, he⟩ | ⟨rest, hne, htext⟩ | ⟨letters, he⟩
    · cases he.symm.trans h
    · rw [ofText_hyphens htext hne] at h
      split at h <;> cases h
    · cases he.symm.trans h

theorem eq_of_ofText_escape (h : ofText text = .escape) : text = "--" := by
  by_cases hplain : IsPlain text
  · cases (ofText_plain hplain).symm.trans h
  · rcases ofText_cases hplain with ⟨he, _⟩ | ⟨rest, hne, htext⟩ | ⟨letters, he⟩
    · exact he
    · rw [ofText_hyphens htext hne] at h
      split at h <;> cases h
    · cases he.symm.trans h

theorem eq_of_ofText_long {value : Option String} (h : ofText text = .long name value) :
    text = "--" ++ name ++ value.elim "" ("=" ++ ·) := by
  by_cases hplain : IsPlain text
  · cases (ofText_plain hplain).symm.trans h
  · rcases ofText_cases hplain with ⟨_, he⟩ | ⟨rest, hne, htext⟩ | ⟨letters, he⟩
    · cases he.symm.trans h
    · rw [ofText_hyphens htext hne] at h
      have hsplit := List.takeWhile_append_dropWhile (p := (· ≠ '=')) (l := rest)
      have hfirst := List.head?_dropWhile_not (· ≠ '=') rest
      generalize rest.takeWhile (· ≠ '=') = front at h hsplit
      generalize rest.dropWhile (· ≠ '=') = back at h hsplit hfirst
      refine String.toList_inj.mp ?_
      rw [htext, ← hsplit]
      cases back with
      | nil =>
        cases h
        simp
      | cons c after =>
        cases h
        obtain rfl : c = '=' := by simpa using hfirst
        simp
    · cases he.symm.trans h

end Argument

/-! ### Reading options -/

section Reading

variable {table : OptionTable} {outermost : Bool} {read : OptionsRead} {found values : OptionValues}
  {rest : List String}

theorem addOption_eq_ok_iff {name value : String} :
    addOption table found name value = .ok values ↔
      (∃ kind, table.lookup name = some kind ∧ kind.accepts value = true) ∧
        found.lookup name = none ∧ values = (name, value) :: found := by
  unfold addOption
  split
  next kind hkind =>
    rw [hkind]
    split
    next h =>
      rw [Bool.and_eq_true, Option.isNone_iff_eq_none] at h
      simp only [Except.ok.injEq, Option.some.injEq, exists_eq_left', h, true_and]
      exact eq_comm
    next h =>
      rw [Bool.and_eq_true, Option.isNone_iff_eq_none] at h
      simp only [Option.some.injEq, exists_eq_left', reduceCtorEq, false_iff]
      exact fun hboth => h ⟨hboth.1, hboth.2.1⟩
  next hkind => simp [hkind]

theorem readOptions_joined {name : String} (hname : '=' ∉ name.toList) (value : String) :
    readOptions table outermost (("--" ++ name ++ "=" ++ value) :: rest) read =
      match table.lookup name with
      | some .text | some .path => do
        let values ← addOption table (← read.check table) name value
        readOptions table outermost rest ⟨values, none⟩
      | _ => .error .misuse := by
  rw [readOptions, Argument.ofText_joined hname]
  split
  next h => cases h
  next h => cases h
  next h => cases h
  next h => cases h
  next h => cases h
  next h => cases h
  next h => cases h
  next h =>
    cases h
    rfl
  next h => cases h

theorem readOptions_name {name : String} (hne : name ≠ "") (hname : '=' ∉ name.toList)
    (hhelp : name ≠ "help") (hversion : name ≠ "version") :
    readOptions table outermost (("--" ++ name) :: rest) read =
      match table.lookup name, rest with
      | some .flag, rest => do
        let values ← addOption table (← read.check table) name ""
        readOptions table outermost rest ⟨values, none⟩
      | some _, next :: rest =>
        match Argument.ofText next with
        | .plain value => do
          readOptions table outermost rest ⟨← read.check table, some (name, value)⟩
        | _ => .error .misuse
      | _, _ => .error .misuse := by
  rw [readOptions, Argument.ofText_name hne hname]
  split
  next h => cases h
  next h => cases h
  next h => cases h
  next h => cases h; exact absurd rfl hhelp
  next h => cases h
  next h => cases h; exact absurd rfl hversion
  next h => cases h
  next h => cases h
  next h =>
    cases h
    rfl

/-- An option that suits its table is read, and added to those before it. -/
theorem readOptions_suits (hnames : PlainNames table) {o : GivenOption} (h : o.Suits table)
    (hcheck : read.check table = .ok found) (hnew : found.lookup o.name = none)
    (rest : List String) :
    ∃ after, readOptions table outermost (o.texts ++ rest) read =
        readOptions table outermost rest after ∧ after.check table = .ok (o.entry :: found) := by
  obtain ⟨kind, hkind, haccepts, hforms⟩ := h
  have hplain := hnames _ (mem_of_lookup hkind)
  have hadd : addOption table found o.name o.value = .ok (o.entry :: found) :=
    addOption_eq_ok_iff.mpr ⟨⟨kind, hkind, haccepts⟩, hnew, rfl⟩
  cases o with
  | joined name value =>
    obtain ⟨_, hname, _⟩ : name ≠ "" ∧ '=' ∉ name.toList ∧ name ≠ "help" ∧ name ≠ "version" := hplain
    refine ⟨⟨(name, value) :: found, none⟩, ?_, rfl⟩
    rw [GivenOption.texts, List.singleton_append, readOptions_joined hname,
      show table.lookup name = some kind from hkind]
    cases kind with
    | flag => exact absurd rfl hforms
    | text | path =>
      rw [hcheck, ok_bind]
      exact congrArg (· >>= _) hadd
  | apart name value =>
    obtain ⟨hne, hname, hhelp, hversion⟩ :
      name ≠ "" ∧ '=' ∉ name.toList ∧ name ≠ "help" ∧ name ≠ "version" := hplain
    refine ⟨⟨found, some (name, value)⟩, ?_, hadd⟩
    rw [GivenOption.texts, List.cons_append, List.singleton_append,
      readOptions_name hne hname hhelp hversion, show table.lookup name = some kind from hkind]
    cases kind with
    | flag => exact absurd rfl hforms.1
    | text | path => simp only [Argument.ofText_plain hforms.2, hcheck, ok_bind]
  | flag name =>
    obtain ⟨hne, hname, hhelp, hversion⟩ :
      name ≠ "" ∧ '=' ∉ name.toList ∧ name ≠ "help" ∧ name ≠ "version" := hplain
    obtain rfl : kind = .flag := hforms
    refine ⟨⟨(name, "") :: found, none⟩, ?_, rfl⟩
    rw [GivenOption.texts, List.singleton_append, readOptions_name hne hname hhelp hversion,
      show table.lookup name = some .flag from hkind]
    dsimp only
    rw [hcheck, ok_bind]
    exact congrArg (· >>= _) hadd

theorem readOptions_ends (h : EndsOptions rest) :
    readOptions table outermost rest read = .ok (read, rest) := by
  cases rest with
  | nil => rfl
  | cons text rest =>
    rcases h text rfl with rfl | hplain
    · rfl
    · rw [readOptions, Argument.ofText_plain hplain]

/-- One option at the front of some arguments is read. It is added by the next check. -/
def ReadsOption (table : OptionTable) (read : OptionsRead) (arguments others : List String)
    (after : OptionsRead) : Prop :=
  ∃ (o : GivenOption) (found : OptionValues) (kind : OptionKind), arguments = o.texts ++ others ∧
    table.lookup o.name = some kind ∧ o.Forms kind ∧ read.check table = .ok found ∧
    after.check table = addOption table found o.name o.value

variable {others : List String} {last : OptionsRead} {name : String}

theorem readsOption_joined {value : String} {kind : OptionKind}
    (hkind : table.lookup name = some kind) (hne : kind ≠ .flag)
    (h : (do
      let values ← addOption table (← read.check table) name value
      readOptions table outermost others ⟨values, none⟩) = .ok (last, rest)) :
    ∃ after, ReadsOption table read (("--" ++ name ++ "=" ++ value) :: others) others after ∧
      readOptions table outermost others after = .ok (last, rest) := by
  obtain ⟨found, hfound, h⟩ := bind_eq_ok.mp h
  obtain ⟨values, hvalues, h⟩ := bind_eq_ok.mp h
  exact ⟨⟨values, none⟩, ⟨.joined name value, found, kind, rfl, hkind, hne, hfound, hvalues.symm⟩, h⟩

/-- Reading either ends where it starts, or takes one option and goes on. -/
theorem readOptions_cases {arguments : List String}
    (h : readOptions table outermost arguments read = .ok (last, rest)) :
    (last = read ∧ rest = arguments ∧ EndsOptions arguments) ∨
      ∃ others after, ReadsOption table read arguments others after ∧
        readOptions table outermost others after = .ok (last, rest) := by
  cases arguments with
  | nil =>
    cases h
    exact .inl ⟨rfl, rfl, by simp [EndsOptions]⟩
  | cons text others =>
    rw [readOptions] at h
    split at h
    next hplain =>
      cases h
      have hends := (Argument.eq_of_ofText_plain hplain).2
      exact .inl ⟨rfl, rfl, by simpa [EndsOptions] using .inr hends⟩
    next hescape =>
      cases h
      obtain rfl := Argument.eq_of_ofText_escape hescape
      exact .inl ⟨rfl, rfl, by simp [EndsOptions]⟩
    next => exact absurd h bind_error_ne_ok
    next => exact absurd h bind_error_ne_ok
    next => exact absurd h bind_error_ne_ok
    next => exact absurd h bind_error_ne_ok
    next => cases h
    next name value hlong =>
      obtain rfl : text = "--" ++ name ++ "=" ++ value :=
        (Argument.eq_of_ofText_long hlong).trans String.append_assoc.symm
      right
      split at h
      next hkind => exact ⟨others, readsOption_joined hkind (by decide) h⟩
      next hkind => exact ⟨others, readsOption_joined hkind (by decide) h⟩
      next => cases h
    next name _ _ hlong =>
      obtain rfl : text = "--" ++ name :=
        (Argument.eq_of_ofText_long hlong).trans String.append_empty
      right
      split at h
      next hkind =>
        obtain ⟨found, hfound, h⟩ := bind_eq_ok.mp h
        obtain ⟨values, hvalues, h⟩ := bind_eq_ok.mp h
        exact ⟨_, ⟨values, none⟩,
          ⟨.flag name, found, .flag, rfl, hkind, rfl, hfound, hvalues.symm⟩, h⟩
      next kind next more hflag hkind =>
        split at h
        next value hvalue =>
          obtain ⟨rfl, hplain⟩ := Argument.eq_of_ofText_plain hvalue
          obtain ⟨found, hfound, h⟩ := bind_eq_ok.mp h
          exact ⟨more, ⟨found, some (name, next)⟩,
            ⟨.apart name next, found, kind, rfl, hkind, ⟨fun he => hflag he, hplain⟩, hfound, rfl⟩, h⟩
        next => cases h
      next => cases h

/-- Options that fit their table are read one after the other. -/
theorem readOptions_given (hnames : PlainNames table) {given : List GivenOption}
    (hfit : FitOptions table given) (hnew : ∀ o ∈ given, found.lookup o.name = none)
    (hcheck : read.check table = .ok found) (hends : EndsOptions rest) :
    ∃ last, readOptions table outermost (given.flatMap GivenOption.texts ++ rest) read =
        .ok (last, rest) ∧
      last.check table = .ok ((given.map GivenOption.entry).reverse ++ found) := by
  induction given generalizing read found with
  | nil => exact ⟨read, readOptions_ends hends, hcheck⟩
  | cons o given ih =>
    obtain ⟨hsuit, honce⟩ := hfit
    rw [List.map_cons, List.nodup_cons] at honce
    obtain ⟨after, hstep, hafter⟩ := readOptions_suits hnames (hsuit o (by simp)) hcheck
      (hnew o (by simp)) (given.flatMap GivenOption.texts ++ rest)
    have hothers : ∀ other ∈ given, List.lookup other.name (o.entry :: found) = none := by
      intro other hother
      have hne : other.name ≠ o.name := fun he => honce.1 (he ▸ List.mem_map_of_mem hother)
      rw [GivenOption.entry, List.lookup_cons, beq_false_of_ne hne]
      exact hnew other (by simp [hother])
    obtain ⟨last, hlast, hvalues⟩ := ih ⟨fun other hother => hsuit other (by simp [hother]), honce.2⟩
      hothers hafter
    refine ⟨last, ?_, ?_⟩
    · rw [List.flatMap_cons, List.append_assoc, hstep, hlast]
    · rw [hvalues]
      simp

/-- Whatever is read as options is written as options that fit their table. -/
theorem exists_given {arguments : List String}
    (h : readOptions table outermost arguments read = .ok (last, rest))
    (hlast : last.check table = .ok values) :
    ∃ given found, read.check table = .ok found ∧
      arguments = given.flatMap GivenOption.texts ++ rest ∧ EndsOptions rest ∧
      FitOptions table given ∧ (∀ o ∈ given, found.lookup o.name = none) ∧
      values = (given.map GivenOption.entry).reverse ++ found := by
  -- An option takes one argument or two, so the induction is on how many there are.
  induction hlength : arguments.length using Nat.strongRecOn generalizing arguments read with
  | ind length ih =>
  rcases readOptions_cases h with ⟨rfl, rfl, hends⟩ | ⟨others, after, hstep, hrest⟩
  · exact ⟨[], values, hlast, rfl, hends, ⟨by simp, List.nodup_nil⟩, by simp, rfl⟩
  obtain ⟨o, found, kind, rfl, hkind, hforms, hfound, hafter⟩ := hstep
  have hshorter : others.length < length := by
    have hpos : 0 < o.texts.length := by cases o <;> exact Nat.succ_pos _
    rw [← hlength, List.length_append]
    omega
  obtain ⟨given, found', hfound', rfl, hends, ⟨hsuit, honce⟩, hnew, rfl⟩ :=
    ih _ hshorter hrest rfl
  rw [hafter] at hfound'
  obtain ⟨⟨kind', hkind', haccepts⟩, hnone, rfl⟩ := addOption_eq_ok_iff.mp hfound'
  obtain rfl : kind' = kind := Option.some.inj (hkind'.symm.trans hkind)
  have hothers : ∀ other ∈ given, other.name ≠ o.name ∧ found.lookup other.name = none := by
    intro other hother
    have hlookup := hnew other hother
    rw [List.lookup_cons] at hlookup
    by_cases hne : other.name = o.name
    · rw [hne, beq_self_eq_true] at hlookup
      cases hlookup
    · rw [beq_false_of_ne hne] at hlookup
      exact ⟨hne, hlookup⟩
  refine ⟨o :: given, found, hfound, ?_, hends, ⟨?_, ?_⟩, ?_, ?_⟩
  · rw [List.flatMap_cons, List.append_assoc]
  · exact List.forall_mem_cons.mpr ⟨⟨kind', hkind, haccepts, hforms⟩, hsuit⟩
  · rw [List.map_cons, List.nodup_cons]
    refine ⟨fun hmem => ?_, honce⟩
    obtain ⟨other, hother, he⟩ := List.mem_map.mp hmem
    exact (hothers other hother).1 he
  · exact List.forall_mem_cons.mpr ⟨hnone, fun other hother => (hothers other hother).2⟩
  · simp [GivenOption.entry]

theorem lookup_reverse {α : Type} {entries : List (String × α)}
    (h : (entries.map Prod.fst).Nodup) (key : String) :
    entries.reverse.lookup key = entries.lookup key := by
  cases hlookup : entries.lookup key with
  | none =>
    rw [List.lookup_eq_none_iff] at hlookup ⊢
    exact fun e he => hlookup e (List.mem_reverse.mp he)
  | some value =>
    refine lookup_of_mem ?_ (List.mem_reverse.mpr (mem_of_lookup hlookup))
    rw [List.map_reverse]
    exact List.nodup_reverse.mpr h

/-- Some arguments are read as options with their values exactly if they are written as options
that fit, up to an argument that is none. -/
theorem readOptions_eq_ok_iff (hnames : PlainNames table) (outermost : Bool)
    {arguments : List String} :
    (∃ last, readOptions table outermost arguments .empty = .ok (last, rest) ∧
        last.check table = .ok values) ↔
      ∃ given, FitOptions table given ∧ EndsOptions rest ∧
        arguments = given.flatMap GivenOption.texts ++ rest ∧
        values = (given.map GivenOption.entry).reverse := by
  constructor
  · rintro ⟨last, hread, hlast⟩
    obtain ⟨given, found, hfound, harguments, hends, hfit, _, hvalues⟩ := exists_given hread hlast
    obtain rfl : found = [] := (Except.ok.inj hfound).symm
    exact ⟨given, hfit, hends, harguments, by rw [hvalues, List.append_nil]⟩
  · rintro ⟨given, hfit, hends, rfl, rfl⟩
    obtain ⟨last, hread, hlast⟩ := @readOptions_given table outermost .empty [] rest hnames given hfit
      (by simp) rfl hends
    rw [List.append_nil] at hlast
    exact ⟨last, hread, hlast⟩

theorem lookup_given {given : List GivenOption} (h : FitOptions table given) (name : String) :
    List.lookup name (given.map GivenOption.entry).reverse = optionValue? given name := by
  refine lookup_reverse ?_ name
  rw [List.map_map]
  exact h.once

end Reading

end ClassFacts

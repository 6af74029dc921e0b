import ClassFacts.Format
import ClassFacts.Proofs.Text.Spans

namespace ClassFacts.Format

/-- The name of a file, and not a step on the way to it. -/
structure IsName (name : String) : Prop where
  not_blank : name ≠ ""
  not_dot : name ≠ "."
  not_dots : name ≠ ".."
  no_slash : '/' ∉ name.toList

/-- What may follow the name at the end of a path: slashes, alone or with a dot behind. -/
inductive Trails : List Char → Prop
  | nil : Trails []
  | slash {rest : List Char} : Trails rest → Trails ('/' :: rest)
  | slashDot {rest : List Char} : Trails rest → Trails ('/' :: '.' :: rest)

/-- The name ends in a dot and an extension of YAML documents, and something stands before them. -/
def NamesYaml (name : String) : Prop :=
  ∃ stem extension : String, stem ≠ "" ∧ name = stem ++ "." ++ extension ∧
    '.' ∉ extension.toList ∧ extension.toLower ∈ ["yaml", "yml"]

theorem parts_eq_splitOn (path : List Char) : parts path = path.splitOn '/' := by
  induction path with
  | nil => rfl
  | cons c rest ih =>
    rw [parts, List.splitOn_cons_eq_if_modifyHead, ih]
    by_cases hc : c = '/'
    · simp [hc]
    · rw [if_neg hc, if_neg (by simp [hc])]
      cases hrest : rest.splitOn '/' with
      | nil => exact absurd hrest (List.splitOn_ne_nil '/' rest)
      | cons part others => rfl

theorem parts_append (before after : List Char) :
    parts (before ++ '/' :: after) = parts before ++ parts after := by
  simp only [parts_eq_splitOn, List.splitOn_append_cons_self]

theorem parts_of_not_mem {part : List Char} (h : '/' ∉ part) : parts part = [part] := by
  rw [parts_eq_splitOn, List.splitOn_eq_singleton h]

/-- A part that is passed over. -/
def Idle (part : List Char) : Prop :=
  part = [] ∨ part = ['.']

theorem parts_trailed {name after : List Char} (hname : '/' ∉ name) (hafter : Trails after) :
    ∃ idle, (∀ part ∈ idle, Idle part) ∧ parts (name ++ after) = name :: idle := by
  induction hafter generalizing name with
  | nil => exact ⟨[], by simp, by rw [List.append_nil, parts_of_not_mem hname]⟩
  | @slash rest _ ih =>
    obtain ⟨idle, hidle, hparts⟩ := ih (List.not_mem_nil (a := '/'))
    refine ⟨[] :: idle, List.forall_mem_cons.mpr ⟨.inl rfl, hidle⟩, ?_⟩
    rw [parts_append, parts_of_not_mem hname, ← hparts]
    rfl
  | @slashDot rest _ ih =>
    have hdot : '/' ∉ ['.'] := by decide
    obtain ⟨idle, hidle, hparts⟩ := ih hdot
    refine ⟨['.'] :: idle, List.forall_mem_cons.mpr ⟨.inr rfl, hidle⟩, ?_⟩
    rw [parts_append, parts_of_not_mem hname, ← hparts]
    rfl

theorem parts_below {before : List Char}
    (h : before = [] ∨ ∃ directory, before = directory ++ ['/']) (rest : List Char) :
    ∃ above, parts (before ++ rest) = above ++ parts rest := by
  obtain rfl | ⟨directory, rfl⟩ := h
  · exact ⟨[], rfl⟩
  · exact ⟨parts directory, by rw [List.append_assoc, List.singleton_append, parts_append]⟩

theorem lastPart?_of_parts {path name : List Char} {above idle : List (List Char)}
    (hname : ¬ Idle name) (hidle : ∀ part ∈ idle, Idle part)
    (h : parts path = above ++ name :: idle) : lastPart? path = some name := by
  have hpassed : idle.reverse.find? (fun part => part ≠ [] && part ≠ ['.']) = none := by
    rw [List.find?_eq_none]
    intro part hpart
    rcases hidle part (List.mem_reverse.mp hpart) with rfl | rfl <;> simp
  rw [lastPart?, h, List.reverse_append, List.reverse_cons, List.append_assoc, List.find?_append,
    hpassed, Option.none_or, List.singleton_append,
    List.find?_cons_of_pos (by simpa [Idle] using hname)]

theorem extension?_of_not_mem {name : List Char} (h : '.' ∉ name) : extension? name = none := by
  have hreverse : '.' ∉ name.reverse := fun hc => h (List.mem_reverse.mp hc)
  have hwhole : name.reverse.takeWhile (· ≠ '.') = name.reverse := by
    simpa using (Text.until_append hreverse []).1
  have hname : name ≠ ['.', '.'] := fun e => h (e ▸ List.mem_cons_self)
  rw [extension?, if_neg hname, hwhole, List.reverse_reverse]
  exact if_neg (by omega)

theorem extension?_dotted {stem extension : List Char} (h : '.' ∉ extension)
    (hname : stem ++ '.' :: extension ≠ ['.', '.']) :
    extension? (stem ++ '.' :: extension) = if stem = [] then none else some extension := by
  have hreverse : '.' ∉ extension.reverse := fun hc => h (List.mem_reverse.mp hc)
  have hafter : (stem ++ '.' :: extension).reverse.takeWhile (· ≠ '.') = extension.reverse := by
    rw [List.reverse_append, List.reverse_cons, List.append_assoc, List.singleton_append,
      (Text.until_append hreverse _).1, List.takeWhile_cons_of_neg (by simp), List.append_nil]
  rw [extension?, if_neg hname, hafter, List.reverse_reverse]
  by_cases hstem : stem = []
  · simp [hstem]
  · have hlength : 0 < stem.length := List.length_pos_iff.mpr hstem
    rw [if_neg hstem]
    exact if_pos (by simp only [List.length_append, List.length_cons]; omega)

/-- An extension stands behind the last dot of a name that does not begin with this dot. -/
theorem extension?_eq_some_iff {name extension : List Char} (hname : name ≠ ['.', '.']) :
    extension? name = some extension ↔
      ∃ stem, stem ≠ [] ∧ name = stem ++ '.' :: extension ∧ '.' ∉ extension := by
  constructor
  · intro h
    by_cases hdot : '.' ∈ name
    · obtain ⟨after, before, hreverse, hafter⟩ :=
        List.eq_append_cons_of_mem (List.mem_reverse.mpr hdot)
      have hsplit : name = before.reverse ++ '.' :: after.reverse := by
        simpa using congrArg List.reverse hreverse
      have hlast : '.' ∉ after.reverse := fun hc => hafter (List.mem_reverse.mp hc)
      rw [hsplit, extension?_dotted hlast (hsplit ▸ hname)] at h
      split at h
      next => cases h
      next hne =>
        cases h
        exact ⟨before.reverse, hne, hsplit, hlast⟩
    · rw [extension?_of_not_mem hdot] at h
      cases h
  · rintro ⟨stem, hne, rfl, hlast⟩
    rw [extension?_dotted hlast hname, if_neg hne]

theorem namesYaml_iff {name : String} (hname : name ≠ "..") :
    NamesYaml name ↔ ∃ extension, extension? name.toList = some extension ∧
      (String.ofList extension).toLower ∈ ["yaml", "yml"] := by
  have hdots : name.toList ≠ ['.', '.'] := fun e => hname (String.toList_inj.mp e)
  simp only [extension?_eq_some_iff hdots]
  constructor
  · rintro ⟨stem, extension, hstem, rfl, hlast, hyaml⟩
    refine ⟨extension.toList, ⟨stem.toList, by simpa using hstem, by simp, hlast⟩, ?_⟩
    rwa [String.ofList_toList]
  · rintro ⟨extension, ⟨stem, hstem, hsplit, hlast⟩, hyaml⟩
    refine ⟨.ofList stem, .ofList extension, by simpa using hstem, ?_, by simpa using hlast, hyaml⟩
    exact String.toList_inj.mp (by simpa using hsplit)

theorem sameIgnoringCase_iff {a b : String} (hb : b.toList.map Char.toLower = b.toList) :
    Config.sameIgnoringCase a b = true ↔ a.toLower = b := by
  have hlower : a.toLower.toList = a.toList.map Char.toLower := String.toList_map
  rw [Config.sameIgnoringCase, beq_iff_eq, hb, ← String.toList_inj, hlower]

theorem ofPath_eq_yaml_iff {path : String} :
    ofPath path = .yaml ↔ ∃ extension, (lastPart? path.toList).bind extension? = some extension ∧
      (String.ofList extension).toLower ∈ ["yaml", "yml"] := by
  unfold ofPath
  cases (lastPart? path.toList).bind extension? with
  | none => simp
  | some extension =>
    have hyaml := sameIgnoringCase_iff (a := .ofList extension) (b := "yaml") (by decide)
    have hyml := sameIgnoringCase_iff (a := .ofList extension) (b := "yml") (by decide)
    simp [hyaml, hyml, or_iff_not_imp_left]

/-- The last part of a path is a name, whatever leads to it and whatever trails it. -/
theorem lastPart?_of_name {before name after : String}
    (hbefore : before = "" ∨ ∃ directory, before = directory ++ "/") (hname : IsName name)
    (hafter : Trails after.toList) :
    lastPart? (before ++ name ++ after).toList = some name.toList := by
  have hlead : before.toList = [] ∨ ∃ directory, before.toList = directory ++ ['/'] := by
    obtain rfl | ⟨directory, rfl⟩ := hbefore
    · exact .inl rfl
    · exact .inr ⟨directory.toList, String.toList_append⟩
  have hnamed : ¬ Idle name.toList := by
    rintro (h | h)
    · exact hname.not_blank (String.toList_inj.mp h)
    · exact hname.not_dot (String.toList_inj.mp h)
  obtain ⟨idle, hidle, htrailed⟩ := parts_trailed hname.no_slash hafter
  obtain ⟨above, hbelow⟩ := parts_below hlead (name.toList ++ after.toList)
  have hparts : parts (before ++ name ++ after).toList = above ++ name.toList :: idle := by
    rw [String.toList_append, String.toList_append, List.append_assoc, hbelow, htrailed]
  exact lastPart?_of_parts hnamed hidle hparts

/-- The format of a document is told by the last name in its path, whatever leads to this name and
whatever slashes and single dots follow it. It is YAML if the name has an extension that says so,
and JSON otherwise. -/
theorem ofPath_by_name {before name after : String}
    (hbefore : before = "" ∨ ∃ directory, before = directory ++ "/") (hname : IsName name)
    (hafter : Trails after.toList) :
    (ofPath (before ++ name ++ after) = .yaml ↔ NamesYaml name) ∧
      (ofPath (before ++ name ++ after) = .json ↔ ¬ NamesYaml name) := by
  have hyaml : ofPath (before ++ name ++ after) = .yaml ↔ NamesYaml name := by
    rw [ofPath_eq_yaml_iff, lastPart?_of_name hbefore hname hafter, Option.bind_some,
      namesYaml_iff hname.not_dots]
  refine ⟨hyaml, ?_⟩
  rw [← hyaml]
  cases ofPath (before ++ name ++ after) <;> simp

/-- What stands before the last dot may begin with a dot, but may not be empty. -/
theorem ofPath_by_name_hidden :
    ofPath ("/v1.yml/" ++ ".model.YmL" ++ "//./") = .yaml ∧
      ofPath ("/v1.yml/" ++ ".yaml" ++ "//./") = .json := by
  have hbefore : "/v1.yml/" = "" ∨ ∃ directory, "/v1.yml/" = directory ++ "/" :=
    .inr ⟨"/v1.yml", rfl⟩
  have hafter : Trails "//./".toList := .slash (.slashDot (.slash .nil))
  have hmodel : IsName ".model.YmL" := ⟨by decide, by decide, by decide, by decide⟩
  have hhidden : IsName ".yaml" := ⟨by decide, by decide, by decide, by decide⟩
  have hlower : "YmL".toLower = "yml" := (sameIgnoringCase_iff (by decide)).mp (by decide)
  have hnone : extension? ".yaml".toList = none := by decide
  refine ⟨(ofPath_by_name hbefore hmodel hafter).1.mpr ?_,
    (ofPath_by_name hbefore hhidden hafter).2.mpr ?_⟩
  · exact ⟨".model", "YmL", by decide, rfl, by decide, by simp [hlower]⟩
  · rw [namesYaml_iff hhidden.not_dots, hnone]
    rintro ⟨extension, hsome, -⟩
    cases hsome

end ClassFacts.Format

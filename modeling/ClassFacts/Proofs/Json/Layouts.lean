import ClassFacts.Proofs.Json.Sound

namespace ClassFacts.Json

/-- The texts of a value without floating-point numbers, one for each choice of the white space
before the parts of a container and before its end. -/
inductive Writes : List Char → Value → Prop
  | null : Writes ['n', 'u', 'l', 'l'] .null
  | boolean (b : Bool) : Writes (booleanText b) (.boolean b)
  | integer {n : Int} : -(Nat.pow 2 63 : Nat) ≤ n → n < (Nat.pow 2 64 : Nat) →
      Writes (integerText n) (.integer n)
  | text (s : String) : Writes (stringText s) (.text s)
  | array {before close : List Char} {ps : List (List Char × Value)} :
      AllSpace before → AllSpace close → (∀ p ∈ ps, Writes p.1 p.2) →
      Writes ('[' :: (separated true (ps.map fun p => before ++ p.1) ++ (close ++ [']'])))
        (.array (ps.map Prod.snd))
  | object {before between close : List Char} {ps : List (String × List Char × Value)} :
      AllSpace before → AllSpace between → AllSpace close → (ps.map Prod.fst).Nodup →
      (∀ p ∈ ps, Writes p.2.1 p.2.2) →
      Writes ('\x7b' :: (separated true
          (ps.map fun p => before ++ entryText (p.1, between ++ p.2.1)) ++ (close ++ ['\x7d'])))
        (.object (ps.map fun p => (p.1, p.2.2)))

variable {depth : Nat}

theorem readValue_space {space : List Char} (h : AllSpace space) (text : List Char) :
    readValue depth (space ++ text) = readValue depth text := by
  unfold readValue
  rw [skipSpace_append h]

theorem readValue_text (text : List Char) :
    readValue depth ('"' :: text) =
      (readString text >>= fun (s, text) => .ok (.text s, text)) := by
  unfold readValue
  rfl

theorem readValue_array (text : List Char) :
    readValue (depth + 1) ('[' :: text) =
      (readItems (readValue depth) (text.length + 1) true text >>= fun (items, text) =>
        .ok (.array items, text)) := by
  rfl

theorem readValue_object (text : List Char) :
    readValue (depth + 1) ('\x7b' :: text) =
      (readEntries (readPut (readValue depth)) (text.length + 1) true [] text >>=
        fun (entries, text) => .ok (.object entries, text)) := by
  rfl

theorem readValue_number {c : Char} (hc : c = '-' ∨ isDigit c = true) (text : List Char) :
    readValue depth (c :: text) = (readNumber (c :: text) >>= fun (n, text) =>
      match n with
      | .integer n => .ok (.integer n, text)
      | .float x => .ok (.float x, text)) := by
  have hne : ∀ d, d ≠ '-' → isDigit d = false → c ≠ d := fun _ => ne_of_opensNumber hc
  unfold readValue
  rw [skipSpace_cons (isSpace_of_opensNumber hc)]
  split
  next heq => cases heq
  next heq => exact absurd (List.cons.inj heq).1 (hne _ (by decide) rfl)
  next heq => exact absurd (List.cons.inj heq).1 (hne _ (by decide) rfl)
  next heq => exact absurd (List.cons.inj heq).1 (hne _ (by decide) rfl)
  next heq => exact absurd (List.cons.inj heq).1 (hne _ (by decide) rfl)
  next heq => exact absurd (List.cons.inj heq).1 (hne _ (by decide) rfl)
  next heq => exact absurd (List.cons.inj heq).1 (hne _ (by decide) rfl)
  next heq =>
    cases heq
    exact if_pos hc

theorem opens_of_writes {text : List Char} {v : Value} (h : Writes text v) : Opens text := by
  cases h with
  | null => exact opens_cons _ (by decide)
  | boolean b => cases b <;> exact opens_cons _ (by decide)
  | @integer n =>
    obtain ⟨c, cs, hc, hopens⟩ := integerText_cons n
    rw [hc]
    exact opens_cons cs ⟨isSpace_of_opensNumber hopens, ne_of_opensNumber hopens (by decide) rfl,
      ne_of_opensNumber hopens (by decide) rfl⟩
  | text s => exact opens_cons _ (by decide)
  | array => exact opens_cons _ (by decide)
  | object => exact opens_cons _ (by decide)

theorem reads_array {before close : List Char} (hbefore : AllSpace before)
    (hclose : AllSpace close) {ps : List (List Char × Value)}
    (hread : ∀ p ∈ ps, Reads (readValue depth) p.1 p.2) :
    Reads (readValue (depth + 1))
      ('[' :: (separated true (ps.map fun p => before ++ p.1) ++ (close ++ [']'])))
      (.array (ps.map Prod.snd)) := by
  refine ⟨opens_cons _ (by decide), fun rest _ => ?_⟩
  rw [List.cons_append, readValue_array,
    readItems_spread hbefore hclose hread rest (by simp), ok_bind]

theorem reads_object {before between close : List Char} (hbefore : AllSpace before)
    (hbetween : AllSpace between) (hclose : AllSpace close)
    {ps : List (String × List Char × Value)} (hnodup : (ps.map Prod.fst).Nodup)
    (hread : ∀ p ∈ ps, Reads (readValue depth) p.2.1 p.2.2) :
    Reads (readValue (depth + 1))
      ('\x7b' :: (separated true
        (ps.map fun p => before ++ entryText (p.1, between ++ p.2.1)) ++ (close ++ ['\x7d'])))
      (.object (ps.map fun p => (p.1, p.2.2))) := by
  have hgathers := @gathers_distinct _ (readValue depth)
    (ps.map fun p => (p.1, between ++ p.2.1, p.2.2)) (by
      intro q hq rest hends
      obtain ⟨p, hp, rfl⟩ := List.mem_map.mp hq
      rw [List.append_assoc, readValue_space hbetween]
      exact (hread p hp).2 rest hends) (by rw [List.map_map]; exact hnodup)
  have htexts : (ps.map fun p => before ++ entryText (p.1, between ++ p.2.1)) =
      ((ps.map fun p => (p.1, between ++ p.2.1, p.2.2)).map fun p => (p.1, p.2.1)).map
        fun e => before ++ entryText e := by
    rw [List.map_map, List.map_map]
    rfl
  refine ⟨opens_cons _ (by decide), fun rest _ => ?_⟩
  rw [List.cons_append, readValue_object, htexts,
    readEntries_spread hbefore hclose hgathers rest (by simp), ok_bind, List.map_map]
  rfl

/-- A value is read from each of its texts, given depth enough. -/
theorem reads_of_writes {text : List Char} {v : Value} (h : Writes text v) {depth : Nat}
    (hdepth : v.nesting ≤ depth) : Reads (readValue depth) text v := by
  induction h generalizing depth with
  | null =>
    refine ⟨opens_of_writes .null, fun rest _ => ?_⟩
    unfold readValue
    rfl
  | boolean b =>
    refine ⟨opens_of_writes (.boolean b), fun rest _ => ?_⟩
    cases b <;> · unfold readValue; rfl
  | @integer n hlow hhigh =>
    refine ⟨opens_of_writes (.integer hlow hhigh), fun rest hends => ?_⟩
    have hnumber := readNumber_integerText hlow hhigh hends
    obtain ⟨c, cs, hc, hopens⟩ := integerText_cons n
    rw [hc, List.cons_append] at hnumber ⊢
    rw [readValue_number hopens, hnumber]
    rfl
  | text s =>
    refine ⟨opens_of_writes (.text s), fun rest _ => ?_⟩
    have htext : stringText s ++ rest = '"' :: (s.toList.flatMap escape ++ '"' :: rest) := by
      simp [stringText]
    rw [htext, readValue_text, readString_escaped, ok_bind]
  | array hbefore hclose _ ih =>
    obtain ⟨k, rfl, hitems⟩ := exists_succ_of_nesting_array hdepth
    exact reads_array hbefore hclose fun p hp => ih p hp (hitems _ (List.mem_map_of_mem hp))
  | object hbefore hbetween hclose hnodup _ ih =>
    obtain ⟨k, rfl, hentries⟩ := exists_succ_of_nesting_object hdepth
    exact reads_object hbefore hbetween hclose hnodup fun p hp =>
      ih p hp (hentries _ (List.mem_map.mpr ⟨p, hp, rfl⟩))

theorem parse_of_writes {text : List Char} {v : Value} (h : Writes text v)
    (hdepth : v.nesting ≤ maxDepth) {space : List Char} (hspace : AllSpace space) :
    Value.parse (String.ofList (text ++ space)) = .ok v := by
  have hread := (reads_of_writes h hdepth).2 space (by simpa using ends_space hspace ends_nil)
  rw [← String.toList_ofList (l := text ++ space)] at hread
  rw [Value.parse, whole_ok hread, if_pos (List.all_eq_true.mpr hspace)]

theorem writes_compactText {v : Value} (h : Sound v) (hfree : v.isFloatFree = true) :
    Writes v.compactText v := by
  induction h with
  | null => exact .null
  | boolean b => exact .boolean b
  | integer hlow hhigh => exact .integer hlow hhigh
  | float x => cases hfree
  | text s => exact .text s
  | @array items _ ih =>
    rw [Value.isFloatFree, itemsFloatFree_iff] at hfree
    have hwrites := @Writes.array [] [] (items.map fun v => (v.compactText, v)) allSpace_nil
      allSpace_nil (by
        intro p hp
        obtain ⟨w, hw, rfl⟩ := List.mem_map.mp hp
        exact ih w hw (hfree w hw))
    rw [List.map_map, List.map_map] at hwrites
    rw [array_compactText]
    simpa only [Function.comp_def, List.map_id', List.nil_append] using hwrites
  | @object entries hnodup _ ih =>
    rw [Value.isFloatFree, entriesFloatFree_iff] at hfree
    have hwrites := @Writes.object [] [] [] (entries.map fun e => (e.1, e.2.compactText, e.2))
      allSpace_nil allSpace_nil allSpace_nil (by rw [List.map_map]; exact hnodup) (by
        intro p hp
        obtain ⟨e, he, rfl⟩ := List.mem_map.mp hp
        exact ih e he (hfree e he))
    rw [List.map_map, List.map_map] at hwrites
    rw [object_compactText]
    simpa only [Function.comp_def, List.map_id', List.nil_append] using hwrites

/-- The text of a value without white space is read back. -/
theorem parse_compact {v : Value} (h : Sound v) (hfree : v.isFloatFree = true)
    (hdepth : v.nesting ≤ maxDepth) : Value.parse v.compact = .ok v := by
  have hread := parse_of_writes (writes_compactText h hfree) hdepth allSpace_nil
  rwa [List.append_nil] at hread

theorem allSpace_newLine (level : Nat) : AllSpace (newLine level) := by
  intro c hc
  rcases List.mem_cons.mp hc with rfl | hc
  · rfl
  · rw [List.eq_of_mem_replicate hc]
    rfl

theorem prettyRest_eq (level : Nat) (items : List Value) :
    prettyRest level items =
      separated false (items.map fun v => newLine level ++ v.prettyText level) := by
  induction items with
  | nil => rfl
  | cons v rest ih => simp [prettyRest, separated, ih]

theorem prettyEntryRest_eq (level : Nat) (entries : List (String × Value)) :
    prettyEntryRest level entries =
      separated false (entries.map fun e =>
        newLine level ++ entryText (e.1, [' '] ++ e.2.prettyText level)) := by
  induction entries with
  | nil => rfl
  | cons e rest ih =>
    obtain ⟨key, v⟩ := e
    simp [prettyEntryRest, separated, entryText, ih]

theorem array_prettyText (level : Nat) (v : Value) (rest : List Value) :
    (Value.array (v :: rest)).prettyText level =
      '[' :: (separated true ((v :: rest).map fun v =>
        newLine (level + 1) ++ v.prettyText (level + 1)) ++ (newLine level ++ [']'])) := by
  simp [Value.prettyText, separated, prettyRest_eq]

theorem object_prettyText (level : Nat) (e : String × Value) (rest : List (String × Value)) :
    (Value.object (e :: rest)).prettyText level =
      '\x7b' :: (separated true ((e :: rest).map fun e =>
        newLine (level + 1) ++ entryText (e.1, [' '] ++ e.2.prettyText (level + 1))) ++
          (newLine level ++ ['\x7d'])) := by
  obtain ⟨key, v⟩ := e
  simp [Value.prettyText, separated, entryText, prettyEntryRest_eq]

theorem writes_prettyText {v : Value} (h : Sound v) (hfree : v.isFloatFree = true) (level : Nat) :
    Writes (v.prettyText level) v := by
  induction h generalizing level with
  | null => exact .null
  | boolean b => exact .boolean b
  | integer hlow hhigh => exact .integer hlow hhigh
  | float x => cases hfree
  | text s => exact .text s
  | @array items _ ih =>
    rw [Value.isFloatFree, itemsFloatFree_iff] at hfree
    cases items with
    | nil => exact @Writes.array [] [] [] allSpace_nil allSpace_nil (by simp)
    | cons v rest =>
      have hwrites := @Writes.array _ _
        ((v :: rest).map fun v => (v.prettyText (level + 1), v)) (allSpace_newLine (level + 1))
        (allSpace_newLine level) (by
          intro p hp
          obtain ⟨w, hw, rfl⟩ := List.mem_map.mp hp
          exact ih w hw (hfree w hw) (level + 1))
      rw [List.map_map, List.map_map] at hwrites
      rw [array_prettyText]
      simpa only [Function.comp_def, List.map_id'] using hwrites
  | @object entries hnodup _ ih =>
    rw [Value.isFloatFree, entriesFloatFree_iff] at hfree
    cases entries with
    | nil =>
      exact @Writes.object [] [] [] [] allSpace_nil allSpace_nil allSpace_nil List.nodup_nil
        (by simp)
    | cons e rest =>
      have hwrites := @Writes.object _ [' '] _
        ((e :: rest).map fun e => (e.1, e.2.prettyText (level + 1), e.2))
        (allSpace_newLine (level + 1)) (by simp [AllSpace, isSpace]) (allSpace_newLine level)
        (by rw [List.map_map]; exact hnodup) (by
          intro p hp
          obtain ⟨f, hf, rfl⟩ := List.mem_map.mp hp
          exact ih f hf (hfree f hf) (level + 1))
      rw [List.map_map, List.map_map] at hwrites
      rw [object_prettyText]
      simpa only [Function.comp_def, List.map_id'] using hwrites

/-- The text of a value with an item to a line is read back, whatever white space is after it. -/
theorem parse_pretty {v : Value} (h : Sound v) (hfree : v.isFloatFree = true)
    (hdepth : v.nesting ≤ maxDepth) : Value.parse (v.pretty ++ "\n") = .ok v := by
  have htext : v.pretty ++ "\n" = String.ofList (v.prettyText 0 ++ ['\n']) := by
    rw [String.ofList_append]
    rfl
  rw [htext]
  exact parse_of_writes (writes_prettyText h hfree 0) hdepth (by simp [AllSpace, isSpace])

end ClassFacts.Json

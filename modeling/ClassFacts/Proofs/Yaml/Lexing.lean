import ClassFacts.Proofs.Yaml.Scalars
import ClassFacts.Yaml.Lexer

namespace ClassFacts.Yaml

open Yaml.Flow (isPrintable isBareChar isShortKey isTagName)

namespace Lexer

/-- A place inside of a line, with so many flow collections around it. None of the keys that are
still possible is required, so that no key is missed if it turns out to be none. -/
structure At (x : Lexer) (depth : Nat) (allowed : Bool) (tokens : List Token) (rest : List Char) :
    Prop where
  rest : x.cursor.rest = rest
  column : 0 < x.cursor.column
  tokens : x.tokens = tokens
  allowed : x.keyAllowed = allowed
  depth : x.outerKeys.length = depth
  outer : x.outer = []
  key : ∀ k, x.key = some k → k.required = false
  outerKeys : ∀ k, some k ∈ x.outerKeys → k.required = false

/-- One place leads to another in `n` tokens. -/
def Leads (n : Nat) (x y : Lexer) : Prop :=
  ∀ bound, x.run (bound + n) = y.run bound

theorem Leads.trans {m n : Nat} {x y z : Lexer} (hxy : Leads m x y) (hyz : Leads n y z) :
    Leads (m + n) x z := by
  intro bound
  have hsum : bound + (m + n) = bound + n + m := by omega
  rw [hsum, hxy, hyz]

variable {x : Lexer} {depth : Nat} {allowed : Bool} {tokens : List Token} {rest : List Char}

theorem At.ne_zero (h : At x depth allowed tokens rest) : x.cursor.column ≠ 0 :=
  Nat.ne_of_gt h.column

theorem At.inFlow (h : At x (depth + 1) allowed tokens rest) : x.inFlow = true := by
  have hlength := h.depth
  cases hkeys : x.outerKeys with
  | nil => simp [hkeys] at hlength
  | cons k ks => simp [Lexer.inFlow, hkeys]

theorem checkStale_loose {c : Cursor} {key : Option KeyMark}
    (h : ∀ k, key = some k → k.required = false) :
    ∃ left, checkStale c key = some left ∧ (∀ k, left = some k → key = some k) ∧
      ∀ k, key = some k → isStale c k = false → left = some k := by
  cases key with
  | none => exact ⟨none, rfl, by simp, by simp⟩
  | some k =>
    have hloose := h k rfl
    cases hstale : isStale c k with
    | false => exact ⟨some k, by simp [checkStale, hstale], by simp, by simp⟩
    | true =>
      refine ⟨none, by simp [checkStale, hstale, hloose], by simp, ?_⟩
      intro k' hk hfresh
      cases hk
      rw [hstale] at hfresh
      cases hfresh

theorem checkStale_each {c : Cursor} {keys : List (Option KeyMark)}
    (h : ∀ k, some k ∈ keys → k.required = false) :
    ∃ left, keys.mapM (checkStale c) = some left ∧ left.length = keys.length ∧
      ∀ k, some k ∈ left → some k ∈ keys := by
  induction keys with
  | nil => exact ⟨[], rfl, rfl, by simp⟩
  | cons key keys ih =>
    obtain ⟨first, hfirst, hsame, _⟩ :=
      @checkStale_loose c key fun k hk => h k (by simp [hk])
    obtain ⟨left, hleft, hlength, hmem⟩ := ih fun k hk => h k (by simp [hk])
    refine ⟨first :: left, by simp [hfirst, hleft], by simp [hlength], ?_⟩
    intro k hk
    rcases List.mem_cons.mp hk with hk | hk
    · simp [hsame k hk.symm]
    · simp [hmem k hk]

/-- Stale keys are given up, and a fresh one is kept. -/
theorem At.dropStale (h : At x depth allowed tokens rest) :
    ∃ y, x.dropStale = some y ∧ At y depth allowed tokens rest ∧ y.cursor = x.cursor ∧
      ∀ k, x.key = some k → isStale x.cursor k = false → y.key = some k := by
  obtain ⟨key, hkey, hsame, hfresh⟩ := @checkStale_loose x.cursor x.key h.key
  obtain ⟨keys, hkeys, hlength, hmem⟩ := @checkStale_each x.cursor x.outerKeys h.outerKeys
  refine ⟨{ x with key := key, outerKeys := keys }, by simp [Lexer.dropStale, hkey, hkeys], ?_, rfl,
    hfresh⟩
  exact ⟨h.rest, h.column, h.tokens, h.allowed, hlength.trans h.depth, h.outer,
    fun k hk => h.key k (hsame k hk), fun k hk => h.outerKeys k (hmem k hk)⟩

theorem At.dropKey (h : At x depth allowed tokens rest) :
    ∃ y, x.dropKey = some y ∧ At y depth allowed tokens rest ∧ y.cursor = x.cursor ∧
      y.outerKeys = x.outerKeys := by
  cases hkey : x.key with
  | none => exact ⟨x, by simp [Lexer.dropKey, hkey], h, rfl, rfl⟩
  | some k =>
    refine ⟨{ x with key := none }, by simp [Lexer.dropKey, hkey, h.key k hkey], ?_, rfl, rfl⟩
    exact ⟨h.rest, h.column, h.tokens, h.allowed, h.depth, h.outer, by simp, h.outerKeys⟩

/-- Inside of a flow collection a key is never required. -/
theorem At.saveKey (h : At x (depth + 1) allowed tokens rest) :
    ∃ y, x.saveKey = some y ∧ At y (depth + 1) allowed tokens rest ∧ y.cursor = x.cursor ∧
      (allowed = true → y.key = some ⟨tokens.length, x.cursor, false⟩) := by
  cases allowed with
  | false => exact ⟨x, by simp [Lexer.saveKey, h.allowed], h, rfl, by simp⟩
  | true =>
    obtain ⟨y, hy, hat, hcursor, _⟩ := h.dropKey
    refine ⟨{ y with key := some ⟨y.tokens.length, y.cursor, false⟩ }, ?_, ?_, hcursor, ?_⟩
    · simp [Lexer.saveKey, h.allowed, h.inFlow, hy]
    · exact ⟨hat.rest, hat.column, hat.tokens, hat.allowed, hat.depth, hat.outer, by simp,
        hat.outerKeys⟩
    · simp [hat.tokens, hcursor]

/-! ### Steps -/

/-- A character that is neither white space nor the start of a comment. -/
def IsSolid (c : Char) : Prop :=
  isPrintable c = true ∧ c ≠ ' ' ∧ c ≠ '#'

theorem skipSpace_solid {c : Char} (hc : IsSolid c) (flow keyAllowed : Bool) (text : List Char)
    (place : Cursor) :
    skipSpace flow (c :: text) false keyAllowed place = (place, keyAllowed) := by
  obtain ⟨hprint, hspace, hcomment⟩ := hc
  have htab : c ≠ '\t' := by
    rintro rfl
    cases hprint
  have hmark : c ≠ '\ufeff' := by
    rintro rfl
    cases hprint
  simp [skipSpace, not_isBreak hprint, hspace, hcomment, htab, hmark]

theorem toToken_solid {c : Char} {text : List Char} (hc : IsSolid c)
    (hrest : x.cursor.rest = c :: text) : x.toToken = x := by
  rw [toToken, hrest, skipSpace_solid hc]

/-- What the lexer does at a character of a flow collection. -/
theorem At.step {c : Char} {text : List Char} (h : At x (depth + 1) allowed tokens (c :: text))
    (hc : IsSolid c) :
    ∃ y, At y (depth + 1) allowed tokens (c :: text) ∧ y.cursor = x.cursor ∧
      (∀ k, x.key = some k → isStale x.cursor k = false → y.key = some k) ∧
      ∀ bound, x.run (bound + 1) = (y.token c text).bind (run bound) := by
  obtain ⟨y, hy, hat, hcursor, hkey⟩ := h.dropStale
  refine ⟨y, hat, hcursor, hkey, fun bound => ?_⟩
  have hunroll : y.unroll y.cursor.column = y := by
    simp [Lexer.unroll, hat.inFlow]
  simp [run, toToken_solid hc h.rest, hy, hunroll, hat.rest]

/-- A space is passed together with what follows it. -/
theorem At.space (h : At x (depth + 1) allowed tokens (' ' :: rest)) :
    ∃ y, Leads 0 x y ∧ At y (depth + 1) allowed tokens rest := by
  have hafter := Cursor.after_printable x.cursor (show isPrintable ' ' = true by decide) rest
  have hskip : ∀ flow, skipSpace flow (' ' :: rest) false allowed x.cursor =
      skipSpace flow rest false allowed (x.cursor.over 1 rest) := by
    intro flow
    simp [skipSpace, hafter, show isBreak ' ' = false from rfl]
  refine ⟨{ x with cursor := x.cursor.over 1 rest }, fun bound => ?_, ?_⟩
  · cases bound with
    | zero => rfl
    | succ bound =>
      have htoken : x.toToken = Lexer.toToken { x with cursor := x.cursor.over 1 rest } := by
        simp [toToken, h.rest, h.allowed, hskip, Lexer.inFlow]
      simp [run, htoken]
  · exact ⟨rfl, Nat.succ_pos _, h.tokens, h.allowed, h.depth, h.outer, h.key, h.outerKeys⟩

/-- Behind a mark of one character. -/
theorem At.pass {c : Char} {t : Token} {text : List Char}
    (h : At x depth allowed tokens (c :: text)) (hc : isPrintable c = true) (after : Bool) :
    At (((x.allowKey after).skip 1).emit t) depth after (t :: tokens) text := by
  have hskip := @Cursor.skip_printable x.cursor [c] text (by simpa [AllPrintable] using hc) h.rest
  have hcursor : (((x.allowKey after).skip 1).emit t).cursor = x.cursor.over 1 text := hskip
  refine ⟨by rw [hcursor]; rfl, by rw [hcursor]; exact Nat.succ_pos _, ?_, rfl, h.depth, h.outer,
    h.key, h.outerKeys⟩
  rw [← h.tokens]
  rfl

variable {text : List Char} {c : Char} {t : Token}

theorem At.opening (h : At x (depth + 1) allowed tokens (c :: text))
    (hc : c = '[' ∧ t = .flowSequenceStart ∨ c = '\x7b' ∧ t = .flowMappingStart) :
    ∃ y, Leads 1 x y ∧ At y (depth + 2) true (t :: tokens) text := by
  have hsolid : IsSolid c := by
    rcases hc with ⟨rfl, _⟩ | ⟨rfl, _⟩ <;> exact ⟨by decide, by decide, by decide⟩
  obtain ⟨y, hy, _, _, hrun⟩ := h.step hsolid
  obtain ⟨z, hz, hat, _, _⟩ := hy.saveKey
  have htoken : y.token c text = y.flowStart t := by
    rcases hc with ⟨rfl, rfl⟩ | ⟨rfl, rfl⟩ <;> simp [token, hy.ne_zero]
  have hinner : At { z with key := none, outerKeys := z.key :: z.outerKeys } (depth + 2) allowed
      tokens (c :: text) := by
    refine ⟨hat.rest, hat.column, hat.tokens, hat.allowed, by simp [hat.depth], hat.outer, by simp,
      fun k hk => ?_⟩
    rcases List.mem_cons.mp hk with hk | hk
    · exact hat.key k hk.symm
    · exact hat.outerKeys k hk
  refine ⟨_, fun bound => ?_, hinner.pass hsolid.1 true⟩
  rw [hrun, htoken, flowStart, hz]
  rfl

theorem At.closing (h : At x (depth + 1) allowed tokens (c :: text))
    (hc : c = ']' ∧ t = .flowSequenceEnd ∨ c = '\x7d' ∧ t = .flowMappingEnd) :
    ∃ y, Leads 1 x y ∧ At y depth false (t :: tokens) text := by
  have hsolid : IsSolid c := by
    rcases hc with ⟨rfl, _⟩ | ⟨rfl, _⟩ <;> exact ⟨by decide, by decide, by decide⟩
  obtain ⟨y, hy, _, _, hrun⟩ := h.step hsolid
  obtain ⟨z, hz, hat, _, _⟩ := hy.dropKey
  have htoken : y.token c text = y.flowEnd t := by
    rcases hc with ⟨rfl, rfl⟩ | ⟨rfl, rfl⟩ <;> simp [token, hy.ne_zero]
  obtain ⟨key, keys, hkeys⟩ : ∃ key keys, z.outerKeys = key :: keys :=
    List.exists_cons_of_ne_nil fun hnil => by simpa [hnil] using hat.depth
  have houter : At { z with key := key, outerKeys := keys } depth allowed tokens (c :: text) := by
    refine ⟨hat.rest, hat.column, hat.tokens, hat.allowed, ?_, hat.outer, ?_, ?_⟩
    · simpa [hkeys] using hat.depth
    · exact fun k hk => hat.outerKeys k (by simp [hkeys, show key = some k from hk])
    · exact fun k hk => hat.outerKeys k (by simp [hkeys, show some k ∈ keys from hk])
  refine ⟨_, fun bound => ?_, houter.pass hsolid.1 false⟩
  rw [hrun, htoken, flowEnd, hz]
  simp [hkeys]

theorem At.comma (h : At x (depth + 1) allowed tokens (',' :: text)) :
    ∃ y, Leads 1 x y ∧ At y (depth + 1) true (.flowEntry :: tokens) text := by
  obtain ⟨y, hy, _, _, hrun⟩ := h.step ⟨by decide, by decide, by decide⟩
  obtain ⟨z, hz, hat, _, _⟩ := hy.dropKey
  have htoken : y.token ',' text = y.flowEntry := by
    simp [token, hy.ne_zero]
  refine ⟨_, fun bound => ?_, hat.pass (by decide) true⟩
  rw [hrun, htoken, flowEntry, hz]
  rfl

/-- The colon behind a possible key makes a key of it. -/
theorem At.colon {place : Cursor} (h : At x (depth + 1) allowed (t :: tokens) (':' :: text))
    (hkey : x.key = some ⟨tokens.length, place, false⟩)
    (hfresh : isStale x.cursor ⟨tokens.length, place, false⟩ = false) :
    ∃ y, Leads 1 x y ∧ At y (depth + 1) false (.value :: t :: .key :: tokens) text := by
  obtain ⟨y, hy, _, hkept, hrun⟩ := h.step ⟨by decide, by decide, by decide⟩
  have hmark := hkept _ hkey hfresh
  have htoken : y.token ':' text = y.value := by
    simp [token, hy.ne_zero, hy.inFlow]
  have hinsert : At { y with key := none, tokens := t :: .key :: tokens } (depth + 1) allowed
      (t :: .key :: tokens) (':' :: text) :=
    ⟨hy.rest, hy.column, rfl, hy.allowed, hy.depth, hy.outer, by simp, hy.outerKeys⟩
  refine ⟨_, fun bound => ?_, hinsert.pass (by decide) false⟩
  have hin : y.outerKeys.isEmpty = false := by simpa [Lexer.inFlow] using hy.inFlow
  rw [hrun, htoken]
  simp [value, hmark, insertAt, roll, Lexer.inFlow, hin, hy.tokens, allowKey]

/-! ### Scalars and tags -/

theorem At.over (h : At x depth allowed tokens text) (n : Nat) :
    At (((x.moveTo (x.cursor.over n rest)).emit t).allowKey false) depth false (t :: tokens)
      rest := by
  refine ⟨rfl, Nat.lt_of_lt_of_le h.column (Nat.le_add_right _ _), ?_, rfl, h.depth, h.outer,
    h.key, h.outerKeys⟩
  rw [← h.tokens]
  rfl

theorem At.quoted {s : String} (h : At x (depth + 1) allowed tokens (Json.stringText s ++ rest))
    (hs : AllPrintable s.toList) :
    ∃ y, Leads 1 x y ∧ At y (depth + 1) false (.scalar .quoted s.toList :: tokens) rest ∧
      y.cursor = x.cursor.over (Json.stringText s).length rest ∧
      (allowed = true → y.key = some ⟨tokens.length, x.cursor, false⟩) := by
  have htext : Json.stringText s ++ rest =
      '"' :: (s.toList.flatMap Json.escape ++ '"' :: rest) := by
    simp [Json.stringText]
  rw [htext] at h
  obtain ⟨y, hy, hcursor, _, hrun⟩ := h.step ⟨by decide, by decide, by decide⟩
  obtain ⟨z, hz, hat, hsame, hkey⟩ := hy.saveKey
  have htoken : y.token '"' (s.toList.flatMap Json.escape ++ '"' :: rest) =
      y.quotedScalar false := by
    simp [token, hy.ne_zero]
  have hskip := @Cursor.skip_printable z.cursor ['"'] (s.toList.flatMap Json.escape ++ '"' :: rest)
    (by simp [AllPrintable, isPrintable]) hat.rest
  have hread := QuotedScalar.read_stringText hs
    (show 0 < (z.cursor.over 1 (s.toList.flatMap Json.escape ++ '"' :: rest)).column from
      Nat.succ_pos _) rfl
  rw [Cursor.over_over] at hread
  have hlength : 1 + ((s.toList.flatMap Json.escape).length + 1) = (Json.stringText s).length := by
    simp [Json.stringText, -List.length_flatMap]
    omega
  rw [hlength] at hread
  refine ⟨_, fun bound => ?_, hat.over (Json.stringText s).length, ?_, fun hallowed => ?_⟩
  · simp only [List.length_singleton] at hskip
    rw [hrun, htoken, quotedScalar, hz]
    simp [hskip, hread]
  · rw [← hcursor, ← hsame]
    rfl
  · rw [← hcursor]
    exact hkey hallowed

/-- A short key in quotes and its colon. -/
theorem At.keyed {key : String}
    (h : At x (depth + 1) true tokens (Json.stringText key ++ ':' :: rest))
    (hkey : isShortKey key = true) :
    ∃ y, Leads 2 x y ∧
      At y (depth + 1) false (.value :: .scalar .quoted key.toList :: .key :: tokens) rest := by
  rw [isShortKey, Bool.and_eq_true, List.all_eq_true, decide_eq_true_eq] at hkey
  obtain ⟨y, hxy, hy, hcursor, hmark⟩ := h.quoted hkey.1
  have hfresh : isStale y.cursor ⟨tokens.length, x.cursor, false⟩ = false := by
    have hshort := QuotedScalar.length_escaped_le hkey.1
    have hlength : key.toList.length = key.length := rfl
    have hquoted : (Json.stringText key).length = (key.toList.flatMap Json.escape).length + 2 := by
      simp [Json.stringText, -List.length_flatMap]
    rw [hcursor]
    simp [isStale, Cursor.over]
    omega
  obtain ⟨z, hyz, hz⟩ := hy.colon (hmark rfl) hfresh
  exact ⟨z, hxy.trans hyz, hz⟩

theorem token_bare (hc : isBareChar c = true) (hcolumn : x.cursor.column ≠ 0) :
    x.token c text = x.plainScalar := by
  have hp := @forall_printable (fun c => !isBareChar c ||
      !isIndicator c && !isGapChar c && ['[', '\x7b', ']', '\x7d', ',', '-', '?', ':', '*', '&',
        '!', '|', '>', '\'', '"'].all (c != ·))
    (by decide) c (isPrintable_of_isBareChar hc)
  simp only [hc, Bool.not_true, Bool.false_or, List.all_cons, List.all_nil, Bool.and_eq_true,
    Bool.not_eq_true', bne_iff_ne, ne_eq] at hp
  simp [token, hcolumn, hp]

theorem At.bare {w : List Char} (h : At x (depth + 1) allowed tokens (w ++ rest)) (hne : w ≠ [])
    (hw : ∀ c ∈ w, isBareChar c = true) (hrest : PlainScalar.Closes rest) :
    ∃ y, Leads 1 x y ∧ At y (depth + 1) false (.scalar .plain w :: tokens) rest := by
  obtain ⟨c, others, rfl⟩ := List.exists_cons_of_ne_nil hne
  have hc := hw c (by simp)
  have hsolid : IsSolid c := by
    obtain ⟨hgap, _, _, hcomment⟩ := PlainScalar.not_mark_of_isBareChar hc
    refine ⟨isPrintable_of_isBareChar hc, ?_, hcomment⟩
    rintro rfl
    cases hgap
  obtain ⟨y, hy, _, _, hrun⟩ := h.step hsolid
  obtain ⟨z, hz, hat, _, _⟩ := hy.saveKey
  have hread := PlainScalar.read_bare hne hw hrest (z.indent + 1).toNat hat.column hat.rest
  refine ⟨_, fun bound => ?_, hat.over (c :: others).length⟩
  rw [hrun, token_bare hc hy.ne_zero, plainScalar, hz]
  simp [hat.inFlow, hread]

theorem At.tagged {name : String}
    (h : At x (depth + 1) allowed tokens ('!' :: (name.toList ++ ' ' :: rest)))
    (hname : isTagName name = true) :
    ∃ y, Leads 1 x y ∧
      At y (depth + 1) false (.tag ['!'] (octetsOf name.toList) :: tokens) rest := by
  simp only [isTagName, Bool.and_eq_true, Bool.not_eq_true', List.isEmpty_eq_false_iff,
    List.all_eq_true] at hname
  obtain ⟨y, hy, _, _, hrun⟩ := h.step ⟨by decide, by decide, by decide⟩
  obtain ⟨z, hz, hat, _, _⟩ := hy.saveKey
  have htoken : y.token '!' (name.toList ++ ' ' :: rest) = y.tag := by
    simp [token, hy.ne_zero]
  have hread := @readTag_local name.toList rest hname.1 hname.2
  have hprint : AllPrintable ('!' :: name.toList) := by
    intro c hc
    rcases List.mem_cons.mp hc with rfl | hc
    · decide
    · exact isPrintable_of_isWordChar (hname.2 c hc)
  have hupTo := @Cursor.upTo_printable z.cursor ('!' :: name.toList) (' ' :: rest) hprint hat.rest
  obtain ⟨w, hzw, hw⟩ := (hat.over ('!' :: name.toList).length).space
  refine ⟨w, fun bound => ?_, hw⟩
  rw [← hzw, hrun, htoken, tag, hz]
  have hends : tagEnds z.inFlow (' ' :: rest) = true := rfl
  simp [hat.rest, hread, hends, hupTo]

/-! ### Collections -/

open PlainScalar (Closes)

/-- A text that is lexed as the given tokens wherever the value of an entry may stand. -/
def Lexes (ts : List Token) (text : List Char) (allowed : Bool) : Prop :=
  ∀ ⦃x : Lexer⦄ ⦃depth : Nat⦄ ⦃tokens : List Token⦄ ⦃rest : List Char⦄,
    At x (depth + 1) allowed tokens (text ++ rest) → Closes rest →
      ∃ n y, n ≤ text.length ∧ Leads n x y ∧ At y (depth + 1) false (ts.reverse ++ tokens) rest

theorem closes_punctuated (texts : List (List Char)) (hrest : Closes rest) :
    Closes (punctuated [',', ' '] false texts ++ rest) := by
  cases texts with
  | nil => exact hrest
  | cons text texts => exact ⟨',', _, rfl, .inl rfl⟩

/-- Behind what stands before an item, a key may come. -/
theorem At.item {first : Bool} {texts : List (List Char)}
    (h : At x (depth + 1) allowed tokens (punctuated [',', ' '] first (text :: texts) ++ rest))
    (hfirst : first = true → allowed = true) :
    ∃ n y, n + text.length + (punctuated [',', ' '] false texts).length ≤
        (punctuated [',', ' '] first (text :: texts)).length ∧ Leads n x y ∧
      At y (depth + 1) true ((if first then [] else [.flowEntry]) ++ tokens)
        (text ++ (punctuated [',', ' '] false texts ++ rest)) := by
  cases first with
  | true =>
    obtain rfl := hfirst rfl
    refine ⟨0, x, by simp [punctuated], fun bound => rfl, ?_⟩
    simpa [punctuated] using h
  | false =>
    obtain ⟨y, hxy, hy⟩ := At.comma (by simpa [punctuated] using h)
    obtain ⟨z, hyz, hz⟩ := hy.space
    refine ⟨1, z, ?_, hxy.trans hyz, by simpa using hz⟩
    simp [punctuated]
    omega

theorem At.items {parts : List (List Token × List Char)}
    (hparts : ∀ p ∈ parts, Lexes p.1 p.2 true) {first : Bool}
    (h : At x (depth + 1) allowed tokens
      (punctuated [',', ' '] first (parts.map Prod.snd) ++ rest))
    (hfirst : first = true → allowed = true) (hrest : Closes rest) :
    ∃ n y after, n ≤ (punctuated [',', ' '] first (parts.map Prod.snd)).length ∧ Leads n x y ∧
      At y (depth + 1) after
        ((punctuated [.flowEntry] first (parts.map Prod.fst)).reverse ++ tokens) rest := by
  induction parts generalizing x first allowed tokens with
  | nil => exact ⟨0, x, allowed, Nat.zero_le _, fun bound => rfl, h⟩
  | cons p parts ih =>
    obtain ⟨l, y, hl, hxy, hy⟩ := At.item h hfirst
    obtain ⟨m, z, hm, hyz, hz⟩ := hparts p (by simp) hy (closes_punctuated _ hrest)
    obtain ⟨n, w, after, hn, hzw, hw⟩ := ih (fun q hq => hparts q (by simp [hq])) hz (by simp)
    refine ⟨l + m + n, w, after, ?_, (hxy.trans hyz).trans hzw, ?_⟩
    · rw [List.map_cons]
      omega
    · cases first <;> simpa [punctuated] using hw

theorem lexes_collection {parts : List (List Token × List Char)}
    (hparts : ∀ p ∈ parts, Lexes p.1 p.2 true) {opening closing : Token} {left right : Char}
    (hopen : left = '[' ∧ opening = .flowSequenceStart ∨
      left = '\x7b' ∧ opening = .flowMappingStart)
    (hclose : right = ']' ∧ closing = .flowSequenceEnd ∨
      right = '\x7d' ∧ closing = .flowMappingEnd) :
    Lexes (opening :: (punctuated [.flowEntry] true (parts.map Prod.fst) ++ [closing]))
      (left :: (punctuated [',', ' '] true (parts.map Prod.snd) ++ [right])) allowed := by
  intro x depth tokens rest h _
  rw [List.cons_append, List.append_assoc] at h
  obtain ⟨y, hxy, hy⟩ := h.opening hopen
  have hcloses : Closes ([right] ++ rest) := by
    rcases hclose with ⟨rfl, _⟩ | ⟨rfl, _⟩ <;> exact ⟨_, rest, rfl, by simp⟩
  obtain ⟨n, z, after, hn, hyz, hz⟩ := At.items hparts hy (fun _ => rfl) hcloses
  obtain ⟨w, hzw, hw⟩ := At.closing hz hclose
  refine ⟨1 + n + 1, w, ?_, (hxy.trans hyz).trans hzw, by simpa using hw⟩
  simp
  omega

theorem lexes_entry {key : String} {ts : List Token} (hkey : isShortKey key = true)
    (h : Lexes ts text false) :
    Lexes (.key :: .scalar .quoted key.toList :: .value :: ts)
      (Json.stringText key ++ ':' :: ' ' :: text) true := by
  intro x depth tokens rest hx hrest
  rw [List.append_assoc] at hx
  obtain ⟨y, hxy, hy⟩ := At.keyed hx hkey
  obtain ⟨z, hyz, hz⟩ := hy.space
  obtain ⟨n, w, hn, hzw, hw⟩ := h hz hrest
  refine ⟨2 + 0 + n, w, ?_, (hxy.trans hyz).trans hzw, by simpa using hw⟩
  simp [Json.stringText, -List.length_flatMap]
  omega

end Lexer

namespace Flow

open Lexer

/-- The entries of a mapping, each as its tokens and as its text. -/
def entryParts (entries : List (String × Flow)) : List (List Token × List Char) :=
  entries.map fun e => (entryToken e, entryText e)

theorem tokens_mapping (entries : List (String × Flow)) :
    (Flow.mapping entries).tokens = .flowMappingStart ::
      (punctuated [.flowEntry] true ((entryParts entries).map Prod.fst) ++ [.flowMappingEnd]) := by
  rw [tokens, entryTokens_eq, entryParts, List.map_map]
  rfl

theorem text_mapping (entries : List (String × Flow)) :
    (Flow.mapping entries).text =
      '\x7b' :: (punctuated [',', ' '] true ((entryParts entries).map Prod.snd) ++ ['\x7d']) := by
  rw [text, entryTexts_eq, entryParts, List.map_map]
  rfl

theorem lexes_entryParts {entries : List (String × Flow)}
    (hkeys : ∀ e ∈ entries, isShortKey e.1 = true)
    (h : ∀ e ∈ entries, Lexes e.2.tokens e.2.text false) :
    ∀ p ∈ entryParts entries, Lexes p.1 p.2 true := by
  intro p hp
  obtain ⟨e, he, rfl⟩ := List.mem_map.mp hp
  exact lexes_entry (hkeys e he) (h e he)

/-- The text of a fine value is lexed as its tokens. -/
theorem Fine.lexes {f : Flow} (h : Fine f) (allowed : Bool) : Lexes f.tokens f.text allowed := by
  induction h generalizing allowed with
  | @quoted s hs =>
    intro x depth tokens rest hx _
    obtain ⟨y, hxy, hy, _⟩ := At.quoted hx (List.all_eq_true.mp hs)
    exact ⟨1, y, by simp [text, Json.stringText], hxy, hy⟩
  | @bare s hs =>
    intro x depth tokens rest hx hrest
    simp only [isBareWord, Bool.and_eq_true, Bool.not_eq_true', List.isEmpty_eq_false_iff,
      List.all_eq_true] at hs
    obtain ⟨y, hxy, hy⟩ := At.bare hx hs.1 hs.2 hrest
    exact ⟨1, y, List.length_pos_iff.mpr hs.1, hxy, hy⟩
  | @sequence items _ ih =>
    have hparts : ∀ p ∈ items.map fun f => (f.tokens, f.text), Lexes p.1 p.2 true := by
      intro p hp
      obtain ⟨f, hf, rfl⟩ := List.mem_map.mp hp
      exact ih f hf true
    have hall := @lexes_collection allowed _ hparts _ _ _ _ (.inl ⟨rfl, rfl⟩) (.inl ⟨rfl, rfl⟩)
    rw [List.map_map, List.map_map] at hall
    rw [tokens, text, itemTokens_eq, itemTexts_eq]
    exact hall
  | @mapping entries hkeys _ ih =>
    have hparts := lexes_entryParts hkeys fun e he => ih e he false
    rw [tokens_mapping, text_mapping]
    exact lexes_collection hparts (.inr ⟨rfl, rfl⟩) (.inr ⟨rfl, rfl⟩)
  | @tagged name content hname _ _ ih =>
    intro x depth tokens rest hx hrest
    rw [text, List.cons_append, List.append_assoc] at hx
    obtain ⟨y, hxy, hy⟩ := At.tagged hx hname
    obtain ⟨n, z, hn, hyz, hz⟩ := ih false hy hrest
    refine ⟨1 + n, z, ?_, hxy.trans hyz, by simpa [Flow.tokens] using hz⟩
    simp [text]
    omega

/-! ### Whole texts -/

theorem allPrintable_stringText {s : String} (h : s.toList.all isPrintable = true) :
    AllPrintable (Json.stringText s) := by
  have hescaped := QuotedScalar.allPrintable_escaped (List.all_eq_true.mp h)
  intro c hc
  rw [Json.stringText, List.cons_append, List.mem_cons, List.mem_append, List.mem_singleton] at hc
  rcases hc with rfl | hc | rfl
  · decide
  · exact hescaped c hc
  · decide

theorem allPrintable_collection {texts : List (List Char)} (h : ∀ t ∈ texts, AllPrintable t)
    {left right : Char} (hleft : isPrintable left = true) (hright : isPrintable right = true) :
    AllPrintable (left :: (punctuated [',', ' '] true texts ++ [right])) := by
  intro c hc
  rw [List.mem_cons, List.mem_append, List.mem_singleton] at hc
  rcases hc with rfl | hc | rfl
  · exact hleft
  · rcases mem_punctuated hc with hmark | ⟨t, ht, hc⟩
    · rcases List.mem_pair.mp hmark with rfl | rfl <;> decide
    · exact h t ht c hc
  · exact hright

theorem Fine.allPrintable {f : Flow} (h : Fine f) : AllPrintable f.text := by
  induction h with
  | quoted hs => exact allPrintable_stringText hs
  | bare hs =>
    simp only [isBareWord, Bool.and_eq_true, List.all_eq_true] at hs
    exact fun c hc => isPrintable_of_isBareChar (hs.2 c hc)
  | @sequence items _ ih =>
    rw [text, itemTexts_eq]
    refine allPrintable_collection (fun t ht => ?_) (by decide) (by decide)
    obtain ⟨f, hf, rfl⟩ := List.mem_map.mp ht
    exact ih f hf
  | @mapping entries hkeys _ ih =>
    rw [text, entryTexts_eq]
    refine allPrintable_collection (fun t ht => ?_) (by decide) (by decide)
    obtain ⟨e, he, rfl⟩ := List.mem_map.mp ht
    have hkey := hkeys e he
    rw [isShortKey, Bool.and_eq_true] at hkey
    intro c hc
    rw [entryText, List.mem_append, List.mem_cons, List.mem_cons] at hc
    rcases hc with hc | rfl | rfl | hc
    · exact allPrintable_stringText hkey.1 c hc
    · decide
    · decide
    · exact ih e he c hc
  | @tagged name content hname _ _ ih =>
    simp only [isTagName, Bool.and_eq_true, List.all_eq_true] at hname
    intro c hc
    rw [text, List.mem_cons, List.mem_append, List.mem_cons] at hc
    rcases hc with rfl | hc | rfl | hc
    · decide
    · exact isPrintable_of_isWordChar (hname.2 c hc)
    · decide
    · exact ih c hc

end Flow

namespace Lexer

/-- A stream starts with the opening brace of a mapping. -/
theorem start_mapping (text : List Char) :
    ∃ y, Leads 1 (start ('\x7b' :: text)) y ∧ At y 1 true [.flowMappingStart] text := by
  refine ⟨⟨⟨text, 0, 1, 1⟩, [.flowMappingStart], -1, [], true, none,
    [some ⟨0, ⟨'\x7b' :: text, 0, 0, 0⟩, false⟩]⟩, fun bound => ?_, ?_⟩
  · have hmark : documentMark? ('\x7b' :: text) = none := by
      match text with
      | [] | [_] => rfl
      | _ :: _ :: _ => simp [documentMark?]
    have hsolid : IsSolid '\x7b' := ⟨by decide, by decide, by decide⟩
    simp [run, start, Cursor.start, toToken_solid hsolid, Lexer.dropStale, checkStale, unroll,
      Lexer.inFlow, closeBlocks, token, hmark, flowStart, Lexer.saveKey, Lexer.dropKey, allowKey,
      skip, emit, Cursor.skip, octetCount]
    rfl
  · refine ⟨rfl, Nat.one_pos, rfl, rfl, rfl, rfl, by simp, ?_⟩
    intro k hk
    simp at hk
    rw [hk]

theorem At.finish {x : Lexer} {allowed : Bool} {tokens : List Token} (h : At x 0 allowed tokens [])
    (bound : Nat) : x.run (bound + 1) = some (tokens.reverse ++ [.streamEnd]) := by
  have htoken : x.toToken = x := by
    rw [toToken, h.rest]
    rfl
  obtain ⟨y, hy, hat, _, _⟩ := h.dropStale
  have hunroll : ∀ (z : Lexer) (column : Int), z.outer = [] → z.unroll column = z := by
    intro z column hz
    cases z
    simp_all [unroll, closeBlocks]
  obtain ⟨z, hz, hlast, _, _⟩ := hat.dropKey
  simp [run, htoken, hy, hunroll _ _ hat.outer, hat.rest, hz, emit, hlast.tokens]

end Lexer

theorem normalizeBreaks_printable {text : List Char} (h : AllPrintable text) :
    normalizeBreaks text = text := by
  induction text with
  | nil => rfl
  | cons c text ih =>
    have hc := @forall_printable (fun c => c != '\r' && c != '\x85') (by decide) c (h c (by simp))
    have hrest := ih fun x hx => h x (by simp [hx])
    simp only [Bool.and_eq_true, bne_iff_ne] at hc
    simp [normalizeBreaks, hc, hrest]

/-- The tokens of a fine mapping are those of the stream that holds it alone. -/
theorem Token.ofText?_mapping {entries : List (String × Flow)} (h : Flow.Fine (.mapping entries)) :
    Token.ofText? (String.ofList (Flow.mapping entries).text) =
      some ((Flow.mapping entries).tokens ++ [.streamEnd]) := by
  have hprint := h.allPrintable
  have hallowed : (Flow.mapping entries).text.all isAllowed = true := by
    rw [List.all_eq_true]
    exact fun c hc => @forall_printable isAllowed (by decide) c (hprint c hc)
  have hparts : ∀ p ∈ Flow.entryParts entries, Lexer.Lexes p.1 p.2 true := by
    cases h with
    | mapping hkeys hentries =>
      exact Flow.lexes_entryParts hkeys fun e he => (hentries e he).lexes false
  obtain ⟨x, hstart, hx⟩ := Lexer.start_mapping
    (punctuated [',', ' '] true ((Flow.entryParts entries).map Prod.snd) ++ ['\x7d'])
  obtain ⟨n, y, after, hn, hxy, hy⟩ := Lexer.At.items hparts hx (fun _ => rfl)
    ⟨'\x7d', [], rfl, by simp⟩
  obtain ⟨z, hyz, hz⟩ := Lexer.At.closing hy (.inr ⟨rfl, rfl⟩)
  have hlead := (hstart.trans hxy).trans hyz
  rw [← Flow.text_mapping] at hlead
  obtain ⟨bound, hbound⟩ : ∃ bound, (Flow.mapping entries).text.length + 1 =
      bound + 1 + (1 + n + 1) := by
    refine ⟨(Flow.mapping entries).text.length - (1 + n + 1), ?_⟩
    rw [Flow.text_mapping, List.length_cons, List.length_append, List.length_singleton]
    omega
  rw [Token.ofText?, String.toList_ofList, if_pos hallowed, normalizeBreaks_printable hprint,
    hbound, hlead, hz.finish, Flow.tokens_mapping]
  simp

end ClassFacts.Yaml

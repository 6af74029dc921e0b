import ClassFacts.Proofs.Json.Nesting
import ClassFacts.Proofs.Keyed

namespace ClassFacts.Json

/-- What may stand in a text: whole numbers of 64 bits, signed or not, and keys without
repetition. -/
inductive Sound : Value → Prop
  | null : Sound .null
  | boolean (b : Bool) : Sound (.boolean b)
  | integer {n : Int} : -(Nat.pow 2 63 : Nat) ≤ n → n < (Nat.pow 2 64 : Nat) → Sound (.integer n)
  | float (x : Decimal.Binary64) : Sound (.float x)
  | text (s : String) : Sound (.text s)
  | array {items : List Value} : (∀ v ∈ items, Sound v) → Sound (.array items)
  | object {entries : List (String × Value)} : (Entries.keys entries).Nodup →
      (∀ e ∈ entries, Sound e.2) → Sound (.object entries)

mutual

/-- Whether there is no floating-point number in a value. -/
def Value.isFloatFree : Value → Bool
  | .float _ => false
  | .array items => itemsFloatFree items
  | .object entries => entriesFloatFree entries
  | _ => true

def itemsFloatFree : List Value → Bool
  | [] => true
  | v :: rest => v.isFloatFree && itemsFloatFree rest

def entriesFloatFree : List (String × Value) → Bool
  | [] => true
  | (_, v) :: rest => v.isFloatFree && entriesFloatFree rest

end

theorem itemsFloatFree_iff {items : List Value} :
    itemsFloatFree items = true ↔ ∀ v ∈ items, v.isFloatFree = true := by
  induction items with
  | nil => simp [itemsFloatFree]
  | cons v rest ih => rw [itemsFloatFree, Bool.and_eq_true, ih, List.forall_mem_cons]

theorem entriesFloatFree_iff {entries : List (String × Value)} :
    entriesFloatFree entries = true ↔ ∀ e ∈ entries, e.2.isFloatFree = true := by
  induction entries with
  | nil => simp [entriesFloatFree]
  | cons e rest ih => rw [entriesFloatFree, Bool.and_eq_true, ih, List.forall_mem_cons]

/-- Sound values in which no more containers nest than there was depth for. -/
def Held (depth : Nat) (v : Value) : Prop :=
  Sound v ∧ v.nesting ≤ depth

variable {depth : Nat}

theorem held_array {items : List Value} (h : ∀ v ∈ items, Held depth v) :
    Held (depth + 1) (.array items) := by
  refine ⟨.array fun v hv => (h v hv).1, ?_⟩
  rw [Value.nesting]
  exact Nat.succ_le_succ (itemsNesting_le_iff.mpr fun v hv => (h v hv).2)

theorem held_object {entries : List (String × Value)} (h : Entries.Each (Held depth) entries) :
    Held (depth + 1) (.object entries) := by
  refine ⟨.object h.1 fun e he => (h.2 e he).1, ?_⟩
  rw [Value.nesting]
  exact Nat.succ_le_succ (entriesNesting_le_iff.mpr fun e he => (h.2 e he).2)

theorem Held.mono {v : Value} (h : Held depth v) {other : Nat} (hle : depth ≤ other) :
    Held other v :=
  ⟨h.1, Nat.le_trans h.2 hle⟩

/-- Whatever is read is sound and nests no deeper than it may. -/
theorem held_of_readValue (depth : Nat) :
    ∀ text v rest, readValue depth text = .ok (v, rest) → Held depth v := by
  induction depth using Nat.strongRecOn with
  | ind depth ih =>
  intro text v rest h
  unfold readValue at h
  split at h
  next => cases h
  next =>
    obtain ⟨⟨s, after⟩, _, h⟩ := bind_eq_ok.mp h
    cases h
    exact ⟨.text s, Nat.zero_le _⟩
  next =>
    cases depth with
    | zero => cases h
    | succ depth =>
      obtain ⟨⟨items, after⟩, hitems, h⟩ := bind_eq_ok.mp h
      cases h
      exact held_array (forall_of_readItems (ih depth (Nat.lt_succ_self depth)) hitems)
  next =>
    cases depth with
    | zero => cases h
    | succ depth =>
      obtain ⟨⟨entries, after⟩, hentries, h⟩ := bind_eq_ok.mp h
      cases h
      exact held_object (each_of_readEntries (ih depth (Nat.lt_succ_self depth)) hentries)
  next =>
    obtain ⟨after, _, h⟩ := bind_eq_ok.mp h
    cases h
    exact ⟨.null, Nat.zero_le _⟩
  next =>
    obtain ⟨after, _, h⟩ := bind_eq_ok.mp h
    cases h
    exact ⟨.boolean true, Nat.zero_le _⟩
  next =>
    obtain ⟨after, _, h⟩ := bind_eq_ok.mp h
    cases h
    exact ⟨.boolean false, Nat.zero_le _⟩
  next =>
    split at h
    next =>
      obtain ⟨⟨n, after⟩, hn, h⟩ := bind_eq_ok.mp h
      cases n with
      | integer n =>
        cases h
        obtain ⟨hlow, hhigh⟩ := readNumber_integer_range hn
        exact ⟨.integer hlow hhigh, Nat.zero_le _⟩
      | float x =>
        cases h
        exact ⟨.float x, Nat.zero_le _⟩
    next => cases h

theorem held_of_parse {text : String} {v : Value} (h : Value.parse text = .ok v) :
    Held maxDepth v := by
  obtain ⟨⟨w, rest⟩, hw, h⟩ := bind_eq_ok.mp h
  dsimp only at h
  split at h
  next =>
    cases h
    exact held_of_readValue maxDepth _ _ _ hw
  next => cases h

end ClassFacts.Json

namespace ClassFacts

theorem nodup_append_new {x : String} {xs : List String} (h : xs.Nodup) (hx : x ∉ xs) :
    (xs ++ [x]).Nodup := by
  refine List.nodup_append.mpr ⟨h, by simp, ?_⟩
  intro a ha b hb hab
  rw [List.mem_singleton] at hb
  exact hx (hb ▸ hab ▸ ha)

namespace Entries

variable {α : Type}

/-- Sets the value of a key: in place if the key is there, at the end otherwise. -/
def put (key : String) (value : α) : List (String × α) → List (String × α)
  | [] => [(key, value)]
  | (k, v) :: rest => if k = key then (k, value) :: rest else (k, v) :: put key value rest

def get? (key : String) : List (String × α) → Option α
  | [] => none
  | (k, v) :: rest => if k = key then some v else get? key rest

def keys (entries : List (String × α)) : List String :=
  entries.map Prod.fst

theorem keys_put (key : String) (value : α) (entries : List (String × α)) :
    keys (put key value entries) =
      if key ∈ keys entries then keys entries else keys entries ++ [key] := by
  induction entries with
  | nil => simp [put, keys]
  | cons entry rest ih =>
    obtain ⟨k, v⟩ := entry
    by_cases h : k = key
    · simp [put, keys, h]
    · have h' : key ≠ k := fun e => h e.symm
      simp only [keys] at ih
      by_cases hm : key ∈ List.map Prod.fst rest <;> simp_all [put, keys]

theorem nodup_put {entries : List (String × α)} (h : (keys entries).Nodup) (key : String)
    (value : α) : (keys (put key value entries)).Nodup := by
  rw [keys_put]
  split
  · exact h
  next hm => exact nodup_append_new h hm

end Entries

/-- Values by name, in the order in which the names first came. -/
structure Keyed (α : Type) where
  entries : List (String × α)
  distinct : (Entries.keys entries).Nodup
  deriving Repr

namespace Keyed

variable {α : Type}

def empty : Keyed α :=
  ⟨[], List.nodup_nil⟩

/-- Sets the value of a name: in place if the name is there, at the end otherwise. -/
def put (name : String) (value : α) (m : Keyed α) : Keyed α :=
  ⟨Entries.put name value m.entries, Entries.nodup_put m.distinct name value⟩

def get? (m : Keyed α) (name : String) : Option α :=
  Entries.get? name m.entries

/-- Puts the entries one after the other. -/
def ofEntries (entries : List (String × α)) : Keyed α :=
  entries.foldl (fun m (name, value) => m.put name value) empty

end Keyed

/-- Names without repetition, in the order in which they first came. -/
structure NameSet where
  names : List String
  distinct : names.Nodup
  deriving DecidableEq, Repr

namespace NameSet

def empty : NameSet :=
  ⟨[], List.nodup_nil⟩

def insert (s : NameSet) (name : String) : NameSet :=
  if h : name ∈ s.names then s
  else ⟨s.names ++ [name], nodup_append_new s.distinct h⟩

def ofList (names : List String) : NameSet :=
  names.foldl insert empty

def contains (s : NameSet) (name : String) : Bool :=
  s.names.contains name

end NameSet

end ClassFacts

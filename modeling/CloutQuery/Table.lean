namespace CloutQuery

/-- Entries in the order of their keys. Keys are ordered by code points, which is also the order of their
UTF-8 bytes. -/
structure Table (α : Type) where
  entries : List (String × α)

namespace Table

variable {α : Type}

def empty : Table α := ⟨[]⟩

instance : EmptyCollection (Table α) := ⟨empty⟩

instance : Inhabited (Table α) := ⟨empty⟩

def size (t : Table α) : Nat := t.entries.length

def keys (t : Table α) : List String := t.entries.map Prod.fst

def values (t : Table α) : List α := t.entries.map Prod.snd

def get? (t : Table α) (key : String) : Option α := t.entries.lookup key

def contains (t : Table α) (key : String) : Bool := (t.get? key).isSome

def insertEntry (key : String) (value : α) : List (String × α) → List (String × α)
  | [] => [(key, value)]
  | (k, v) :: rest =>
    if key < k then (key, value) :: (k, v) :: rest
    else if key = k then (key, value) :: rest
    else (k, v) :: insertEntry key value rest

def insert (t : Table α) (key : String) (value : α) : Table α := ⟨insertEntry key value t.entries⟩

def erase (t : Table α) (key : String) : Table α := ⟨t.entries.filter fun e ↦ e.1 ≠ key⟩

/-- The table of a list of entries; of entries with one key the last counts. -/
def ofList (entries : List (String × α)) : Table α :=
  entries.foldl (fun t e ↦ t.insert e.1 e.2) empty

def Sorted (t : Table α) : Prop := t.keys.Pairwise (· < ·)

end Table

end CloutQuery

/-!
# Ordered tables

A **table** maps keys to values and lists them by ascending key. Keys are told apart
by their order alone: two keys that compare as equal are one entry, even where they
differ in something that the order does not look at.

That makes the stored key worth a rule. Putting a value under a key that is there
replaces the value and keeps the key that is there
(`TensorContraction.Table.insert`); only a removal lets go of it.
-/

namespace TensorContraction

/-- A map from keys to values, by ascending key. -/
structure Table (α β : Type) where
  /-- The entries, ascending. -/
  entries : List (α × β)

namespace Table

variable {α β : Type}

/-- The table without entries. -/
def empty : Table α β :=
  ⟨[]⟩

/-- The number of entries. -/
def size (t : Table α β) : Nat :=
  t.entries.length

variable [Ord α]

/-- The value under a key. -/
def get? (t : Table α β) (key : α) : Option β :=
  (t.entries.find? fun entry => compare key entry.1 == .eq).map Prod.snd

/-- Puts a value in its place among ascending entries. -/
def insertInto (key : α) (value : β) : List (α × β) → List (α × β)
  | [] => [(key, value)]
  | (k, v) :: rest =>
    match compare key k with
    | .lt => (key, value) :: (k, v) :: rest
    | .eq => (k, value) :: rest
    | .gt => (k, v) :: insertInto key value rest

/-- Puts a value under a key. An equal key that is there already is kept. -/
def insert (t : Table α β) (key : α) (value : β) : Table α β :=
  ⟨insertInto key value t.entries⟩

/-- Takes out the entry under a key. -/
def erase (t : Table α β) (key : α) : Table α β :=
  ⟨t.entries.eraseP fun entry => compare key entry.1 == .eq⟩

/-- The entries from a key on: those that are not before it. -/
def entriesFrom (t : Table α β) (key : α) : List (α × β) :=
  t.entries.dropWhile fun entry => compare entry.1 key == .lt

end Table

end TensorContraction

/-!
# Tables

A `Table α β` is a finite map that remembers the order in which its keys first arrived. Every
map of the library whose order can be seen, or whose laws are argued about, is one of these:
property dictionaries, interceptor values, shape transitions, code caches and the stub cache.

The laws below say what each operation does to `get?`; nothing else about the layout of
`entries` is used outside this module, except by listings, which read `toList`.
-/

namespace Speculation

/-- A finite map from `α` to `β`, as its entries in order of arrival. -/
structure Table (α β : Type) where
  entries : List (α × β) := []
deriving Repr, DecidableEq, Inhabited

namespace Table

variable {α β : Type} [DecidableEq α]

/-- The table with no entries. -/
def empty : Table α β := {}

/-- The entries in order of arrival. -/
def toList (t : Table α β) : List (α × β) := t.entries

/-- How many keys the table has. -/
def size (t : Table α β) : Nat := t.entries.length

/-- The value of the first entry for a key in a list of entries. -/
def find? (k : α) : List (α × β) → Option β
  | [] => none
  | (a, b) :: rest => if a = k then some b else find? k rest

/-- Replaces the value of a key where it stands, or appends a new entry. -/
def put (k : α) (v : β) : List (α × β) → List (α × β)
  | [] => [(k, v)]
  | (a, b) :: rest => if a = k then (k, v) :: rest else (a, b) :: put k v rest

/-- Drops every entry of a key. -/
def drop (k : α) : List (α × β) → List (α × β)
  | [] => []
  | (a, b) :: rest => if a = k then drop k rest else (a, b) :: drop k rest

/-- The value stored under `k`. -/
def get? (t : Table α β) (k : α) : Option β := find? k t.entries

/-- Whether `k` has a value. -/
def contains (t : Table α β) (k : α) : Bool := (t.get? k).isSome

/-- Stores `v` under `k`, keeping the place of a key that is already there. -/
def insert (t : Table α β) (k : α) (v : β) : Table α β := ⟨put k v t.entries⟩

/-- Removes the key `k`. -/
def erase (t : Table α β) (k : α) : Table α β := ⟨drop k t.entries⟩

/-- Keeps the entries whose key satisfies `keep`. -/
def filterKeys (t : Table α β) (keep : α → Bool) : Table α β :=
  ⟨t.entries.filter fun e => keep e.1⟩

/-- The table of a list of pairs; a later pair wins over an earlier one of the same key. -/
def ofList (pairs : List (α × β)) : Table α β :=
  pairs.foldl (fun t p => t.insert p.1 p.2) empty

/-! ### What the operations do to `get?` -/

@[simp] theorem get?_empty (k : α) : (empty : Table α β).get? k = none := rfl

theorem find?_put (k j : α) (v : β) (es : List (α × β)) :
    find? j (put k v es) = if k = j then some v else find? j es := by
  induction es with
  | nil => rfl
  | cons e rest ih =>
    obtain ⟨a, b⟩ := e
    by_cases hk : a = k
    · subst hk
      by_cases hj : a = j <;> simp [put, find?, hj]
    · by_cases hj : a = j
      · subst hj
        simp [put, find?, hk, Ne.symm hk]
      · simp [put, find?, hk, hj, ih]

@[simp] theorem get?_insert (t : Table α β) (k j : α) (v : β) :
    (t.insert k v).get? j = if k = j then some v else t.get? j :=
  find?_put k j v t.entries

theorem find?_drop (k j : α) (es : List (α × β)) :
    find? j (drop k es) = if k = j then none else find? j es := by
  induction es with
  | nil => simp [drop, find?]
  | cons e rest ih =>
    obtain ⟨a, b⟩ := e
    by_cases hk : a = k
    · subst hk
      by_cases hj : a = j
      · subst hj
        simpa [drop] using ih
      · simp [drop, find?, ih, hj]
    · by_cases hj : a = j
      · subst hj
        simp [drop, find?, hk, Ne.symm hk]
      · simp [drop, find?, hk, hj, ih]

@[simp] theorem get?_erase (t : Table α β) (k j : α) :
    (t.erase k).get? j = if k = j then none else t.get? j :=
  find?_drop k j t.entries

theorem find?_filter (keep : α → Bool) (k : α) (es : List (α × β)) :
    find? k (es.filter fun e => keep e.1) = if keep k then find? k es else none := by
  induction es with
  | nil => simp [find?]
  | cons e rest ih =>
    obtain ⟨a, b⟩ := e
    by_cases ha : a = k
    · subst ha
      cases hk : keep a <;> simp [find?, hk, ih]
    · cases hk : keep a <;> simp [find?, hk, ha, ih]

@[simp] theorem get?_filterKeys (t : Table α β) (keep : α → Bool) (k : α) :
    (t.filterKeys keep).get? k = if keep k then t.get? k else none :=
  find?_filter keep k t.entries

end Table

end Speculation

import Mathlib.Data.Finmap
import Mathlib.Data.Finset.Card

/-!
Finite maps observed through one lookup. A hash map's iteration order is not
observable here: two maps with equal lookups are equal, so every statement
about a table is a statement about its contents.
-/

namespace SailwindOnline

structure FiniteMap (Key Value : Type) where
  table : Finmap (fun _ : Key => Value)

namespace FiniteMap
variable {Key Value : Type}

def empty : FiniteMap Key Value := ⟨∅⟩

def keys (map : FiniteMap Key Value) : Finset Key := map.table.keys

def size (map : FiniteMap Key Value) : Nat := map.keys.card

variable [DecidableEq Key]

instance [DecidableEq Value] : DecidableEq (FiniteMap Key Value) :=
  fun left right => decidable_of_iff (left.table = right.table)
    ⟨fun same => by cases left; cases right; exact congrArg mk same, congrArg table⟩

def get? (map : FiniteMap Key Value) (key : Key) : Option Value := map.table.lookup key

def insert (map : FiniteMap Key Value) (key : Key) (value : Value) : FiniteMap Key Value :=
  ⟨map.table.insert key value⟩

def erase (map : FiniteMap Key Value) (key : Key) : FiniteMap Key Value := ⟨map.table.erase key⟩

/-- In-place mutation of one present entry; an absent key is left absent. -/
def modify (map : FiniteMap Key Value) (key : Key) (change : Value → Value) : FiniteMap Key Value :=
  match map.get? key with
  | none => map
  | some value => map.insert key (change value)

@[ext] theorem ext {left right : FiniteMap Key Value}
    (same : ∀ key, left.get? key = right.get? key) : left = right := by
  cases left
  cases right
  exact congrArg mk (Finmap.ext_lookup same)

@[simp] theorem get?_empty (key : Key) : (empty : FiniteMap Key Value).get? key = none :=
  Finmap.lookup_empty key

omit [DecidableEq Key] in
@[simp] theorem keys_empty : (empty : FiniteMap Key Value).keys = ∅ := Finmap.keys_empty

omit [DecidableEq Key] in
@[simp] theorem size_empty : (empty : FiniteMap Key Value).size = 0 := by simp [size]

theorem get?_insert (map : FiniteMap Key Value) (key other : Key) (value : Value) :
    (map.insert key value).get? other = if other = key then some value else map.get? other := by
  by_cases same : other = key
  · subst same
    simp [get?, insert]
  · simp [get?, insert, same, Finmap.lookup_insert_of_ne]

@[simp] theorem get?_insert_self (map : FiniteMap Key Value) (key : Key) (value : Value) :
    (map.insert key value).get? key = some value := by
  simp [get?_insert]

theorem get?_erase (map : FiniteMap Key Value) (key other : Key) :
    (map.erase key).get? other = if other = key then none else map.get? other := by
  by_cases same : other = key
  · subst same
    simp [get?, erase]
  · simp [get?, erase, same, Finmap.lookup_erase_ne]

@[simp] theorem get?_erase_self (map : FiniteMap Key Value) (key : Key) :
    (map.erase key).get? key = none := by
  simp [get?_erase]

theorem get?_modify (map : FiniteMap Key Value) (key other : Key) (change : Value → Value) :
    (map.modify key change).get? other =
      if other = key then (map.get? key).map change else map.get? other := by
  unfold modify
  cases found : map.get? key with
  | none => by_cases same : other = key <;> simp [same, found]
  | some value => simp [get?_insert]

theorem mem_keys (map : FiniteMap Key Value) (key : Key) :
    key ∈ map.keys ↔ (map.get? key).isSome := by
  rw [keys, Finmap.mem_keys, get?, Finmap.lookup_isSome]

theorem mem_keys_iff_exists (map : FiniteMap Key Value) (key : Key) :
    key ∈ map.keys ↔ ∃ value, map.get? key = some value := by
  rw [mem_keys, Option.isSome_iff_exists]

theorem not_mem_keys (map : FiniteMap Key Value) (key : Key) :
    key ∉ map.keys ↔ map.get? key = none := by
  rw [mem_keys, Option.not_isSome_iff_eq_none]

@[simp] theorem keys_insert (map : FiniteMap Key Value) (key : Key) (value : Value) :
    (map.insert key value).keys = Insert.insert key map.keys := by
  ext other
  rw [Finset.mem_insert, mem_keys, mem_keys, get?_insert]
  by_cases same : other = key <;> simp [same]

@[simp] theorem keys_erase (map : FiniteMap Key Value) (key : Key) :
    (map.erase key).keys = map.keys.erase key := by
  ext other
  rw [Finset.mem_erase, mem_keys, mem_keys, get?_erase]
  by_cases same : other = key <;> simp [same]

@[simp] theorem keys_modify (map : FiniteMap Key Value) (key : Key) (change : Value → Value) :
    (map.modify key change).keys = map.keys := by
  ext other
  rw [mem_keys, mem_keys, get?_modify]
  by_cases same : other = key <;> simp [same]

theorem size_insert_fresh (map : FiniteMap Key Value) (key : Key) (value : Value)
    (fresh : map.get? key = none) : (map.insert key value).size = map.size + 1 := by
  rw [size, keys_insert, Finset.card_insert_of_notMem ((not_mem_keys map key).mpr fresh), size]

theorem size_erase_present (map : FiniteMap Key Value) (key : Key) (value : Value)
    (present : map.get? key = some value) : (map.erase key).size + 1 = map.size := by
  have member : key ∈ map.keys := (mem_keys_iff_exists map key).mpr ⟨value, present⟩
  rw [size, keys_erase, size]
  exact Finset.card_erase_add_one member

theorem size_pos_of_present (map : FiniteMap Key Value) (key : Key) (value : Value)
    (present : map.get? key = some value) : 0 < map.size :=
  Finset.card_pos.mpr ⟨key, (mem_keys_iff_exists map key).mpr ⟨value, present⟩⟩

end FiniteMap
end SailwindOnline

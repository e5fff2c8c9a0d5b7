/-!
# Label addresses

The addresses of labels, in the order in which the labels were introduced. `Named.insert` keeps the
names apart: a name that is there already gets another value in its place.
-/

namespace Dcpu

/-- Values by name. -/
abbrev Named (α : Type) := List (String × α)

namespace Named

variable {α β : Type}

/-- Gives a name a value. A name that has one keeps its place and changes its value. -/
def insert (entries : Named α) (name : String) (value : α) : Named α :=
  if entries.any (·.1 == name) then
    entries.map fun entry => if entry.1 == name then (name, value) else entry
  else entries ++ [(name, value)]

/-- A name that has no value yet comes last. -/
theorem insert_of_not_mem {entries : Named α} {name : String} (new : name ∉ entries.map Prod.fst)
    (value : α) : insert entries name value = entries ++ [(name, value)] := by
  apply if_neg
  intro known
  obtain ⟨entry, mem, same⟩ := List.any_eq_true.1 known
  exact new (List.mem_map.2 ⟨entry, mem, beq_iff_eq.1 same⟩)

/-- A name that has a value keeps its place. -/
theorem map_fst_insert_of_mem {entries : Named α} {name : String}
    (old : name ∈ entries.map Prod.fst) (value : α) :
    (insert entries name value).map Prod.fst = entries.map Prod.fst := by
  obtain ⟨entry, mem, same⟩ := List.mem_map.1 old
  have known : entries.any (·.1 == name) = true :=
    List.any_eq_true.2 ⟨entry, mem, beq_iff_eq.2 same⟩
  rw [insert, if_pos known, List.map_map]
  apply List.map_congr_left
  intro entry _
  show (if entry.1 == name then (name, value) else entry).1 = entry.1
  split
  · next same => exact (beq_iff_eq.1 same).symm
  · rfl

/-- Two collections with the same names have the same names after an insertion into each. -/
theorem map_fst_insert_congr {entries : Named α} {others : Named β}
    (same : entries.map Prod.fst = others.map Prod.fst) (name : String) (value : α) (other : β) :
    (insert entries name value).map Prod.fst = (insert others name other).map Prod.fst := by
  by_cases old : name ∈ others.map Prod.fst
  · rw [map_fst_insert_of_mem old, map_fst_insert_of_mem (same ▸ old), same]
  · rw [insert_of_not_mem old, insert_of_not_mem (same ▸ old), List.map_append, List.map_append,
      same]
    rfl

end Named

/-- The labels with their addresses. -/
abbrev Labels := Named Int

namespace Labels

/-- The address of a label. -/
def get? (labels : Labels) (name : String) : Option Int :=
  labels.lookup name

/-- The names of the labels. -/
def names (labels : Labels) : List String :=
  labels.map Prod.fst

/-- The labels that a list of pairs introduces one after the other. -/
def ofPairs (pairs : List (String × Int)) : Labels :=
  pairs.foldl (fun labels (name, address) => Named.insert labels name address) []

/-- Tells whether two collections have the same labels with the same addresses, in any order. -/
def sameAs (labels others : Labels) : Bool :=
  labels.length == others.length && labels.all fun (name, address) =>
    others.get? name == some address

end Labels

end Dcpu

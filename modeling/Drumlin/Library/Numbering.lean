import Mathlib

/-!
# Numbering the entries of a table

A table without duplicates numbers its entries by position; an item that is not in it is added at
the end.  Codes stay good because the table only grows.
-/

namespace Numbering

variable {α : Type*} [BEq α] [LawfulBEq α]

/-- The number of an item, with the table that has it. -/
def number (table : List α) (item : α) : List α × Nat :=
  if item ∈ table then (table, table.idxOf item) else (table ++ [item], table.length)

/-- The entries that codes stand for. -/
def decode (table : List α) (codes : List Nat) : List (Option α) :=
  codes.map fun code => table[code]?

theorem number_grows (table : List α) (item : α) : table <+: (number table item).1 := by
  rw [number]
  split
  · exact List.prefix_refl table
  · exact List.prefix_append table [item]

theorem number_nodup {table : List α} (nodup : table.Nodup) (item : α) :
    (number table item).1.Nodup := by
  rw [number]
  split
  · exact nodup
  · rename_i absent
    exact List.nodup_append.mpr ⟨nodup, List.nodup_singleton item, by
      rintro entry present other member rfl
      exact absent (List.mem_singleton.mp member ▸ present)⟩

/-- The number leads back to the item. -/
theorem getElem?_number (table : List α) (item : α) :
    (number table item).1[(number table item).2]? = some item := by
  rw [number]
  split
  · rename_i present
    exact List.getElem?_idxOf present
  · exact List.getElem?_concat_length

omit [BEq α] [LawfulBEq α] in
theorem decode_lt {table : List α} {codes : List Nat} {items : List α}
    (decoded : decode table codes = items.map some) {code : Nat} (member : code ∈ codes) :
    code < table.length := by
  have found : table[code]? ∈ decode table codes := List.mem_map_of_mem member
  rw [decoded] at found
  obtain ⟨item, _, equal⟩ := List.mem_map.mp found
  exact (List.getElem?_eq_some_iff.mp equal.symm).1

omit [BEq α] [LawfulBEq α] in
/-- Growing the table changes no decoding. -/
theorem decode_of_prefix {table larger : List α} (grows : table <+: larger) {codes : List Nat}
    {items : List α} (decoded : decode table codes = items.map some) :
    decode larger codes = items.map some := by
  rw [← decoded]
  apply List.map_congr_left
  intro code member
  obtain ⟨more, rfl⟩ := grows
  exact List.getElem?_append_left (decode_lt decoded member)

/-- One more item is encoded by its number. -/
theorem decode_number {table : List α} {codes : List Nat} {items : List α}
    (decoded : decode table codes = items.map some) (item : α) :
    decode (number table item).1 (codes ++ [(number table item).2]) =
      (items ++ [item]).map some := by
  have earlier := decode_of_prefix (number_grows table item) decoded
  rw [decode] at earlier ⊢
  rw [List.map_append, List.map_append, earlier, List.map_singleton, List.map_singleton,
    getElem?_number]

end Numbering

import Mathlib

/-!
# `std::list` and its iterators

The elements of a list lie in nodes, and an iterator is known by the node it points to.  Erasing a
node leaves the iterators to other nodes valid; erasing through an iterator to no node of the list
is undefined.
-/

/-- A list of nodes.  Nodes get numbers in the order in which they are made. -/
structure StdList (α : Type*) where
  /-- The nodes in order, each with its number. -/
  nodes : List (Nat × α)
  /-- The number of the next node. -/
  fresh : Nat
  nodup : (nodes.map Prod.fst).Nodup
  below : ∀ node ∈ nodes, node.1 < fresh

namespace StdList

variable {α : Type*}

/-- The empty list. -/
def empty : StdList α := ⟨[], 0, by simp, by simp⟩

/-- The elements. -/
def toList (list : StdList α) : List α := list.nodes.map Prod.snd

/-- `push_back`. -/
def pushBack (element : α) (list : StdList α) : StdList α where
  nodes := list.nodes ++ [(list.fresh, element)]
  fresh := list.fresh + 1
  nodup := by
    rw [List.map_append, List.map_singleton, ← List.concat_eq_append, List.nodup_concat]
    refine ⟨fun used => ?_, list.nodup⟩
    obtain ⟨node, member, same⟩ := List.mem_map.mp used
    exact (list.below node member).ne same
  below node member := by
    rcases List.mem_append.mp member with before | new
    · exact (list.below node before).trans (Nat.lt_succ_self _)
    · obtain rfl := List.mem_singleton.mp new
      exact Nat.lt_succ_self _

/-- The list without the nodes of some numbers. -/
def without (iterators : List Nat) (list : StdList α) : StdList α where
  nodes := list.nodes.filter fun node => node.1 ∉ iterators
  fresh := list.fresh
  nodup := list.nodup.sublist (List.filter_sublist.map Prod.fst)
  below node member := list.below node (List.mem_of_mem_filter member)

/-- The iterator points to a node of the list. -/
def IsValid (list : StdList α) (iterator : Nat) : Prop := iterator ∈ list.nodes.map Prod.fst

instance (list : StdList α) : DecidablePred list.IsValid := fun iterator =>
  inferInstanceAs (Decidable (iterator ∈ list.nodes.map Prod.fst))

/-- `erase` through an iterator. -/
def erase (iterator : Nat) (list : StdList α) : Option (StdList α) :=
  if list.IsValid iterator then some (list.without [iterator]) else none

/-- `erase` through one iterator after another. -/
def eraseEach (iterators : List Nat) (list : StdList α) : Option (StdList α) :=
  iterators.foldlM (fun list iterator => list.erase iterator) list

@[simp]
theorem toList_empty : (empty : StdList α).toList = [] := rfl

@[simp]
theorem toList_pushBack (element : α) (list : StdList α) :
    (list.pushBack element).toList = list.toList ++ [element] := by
  simp [toList, pushBack]

@[ext]
theorem ext {left right : StdList α} (nodes : left.nodes = right.nodes)
    (fresh : left.fresh = right.fresh) : left = right := by
  cases left
  cases right
  simp_all

@[simp]
theorem without_nil (list : StdList α) : list.without [] = list := by
  ext1 <;> simp [without]

@[simp]
theorem without_without (first second : List Nat) (list : StdList α) :
    (list.without first).without second = list.without (first ++ second) := by
  ext1
  · simp [without, List.filter_filter, not_or, Bool.and_comm]
  · rfl

/-- An iterator stays valid until its own node is erased. -/
@[simp]
theorem isValid_without {iterators : List Nat} {list : StdList α} {iterator : Nat} :
    (list.without iterators).IsValid iterator ↔
      list.IsValid iterator ∧ iterator ∉ iterators := by
  simp only [IsValid, without, List.mem_map, List.mem_filter, decide_eq_true_eq]
  constructor
  · rintro ⟨node, ⟨member, kept⟩, rfl⟩
    exact ⟨⟨node, member, rfl⟩, kept⟩
  · rintro ⟨⟨node, member, rfl⟩, kept⟩
    exact ⟨node, ⟨member, kept⟩, rfl⟩

/-- Erasing through different valid iterators is defined, and takes just their nodes. -/
theorem eraseEach_eq_some {iterators : List Nat} (distinct : iterators.Nodup) {list : StdList α}
    (valid : ∀ iterator ∈ iterators, list.IsValid iterator) :
    list.eraseEach iterators = some (list.without iterators) := by
  induction iterators generalizing list with
  | nil => simp [eraseEach]
  | cons iterator iterators induction =>
      obtain ⟨fresh, rest⟩ := List.nodup_cons.mp distinct
      have here : list.erase iterator = some (list.without [iterator]) :=
        if_pos (valid iterator List.mem_cons_self)
      have later : ∀ other ∈ iterators, (list.without [iterator]).IsValid other := by
        intro other member
        refine isValid_without.mpr ⟨valid other (List.mem_cons_of_mem _ member), ?_⟩
        intro same
        exact fresh (List.mem_singleton.mp same ▸ member)
      have erased := induction rest later
      rw [eraseEach, List.foldlM_cons, here]
      simpa [eraseEach] using erased

/-! ## Selecting and erasing -/

section Select

variable (select : α → Bool)

/-- The iterators to the elements selected, in order. -/
def iterators (list : StdList α) : List Nat :=
  (list.nodes.filter fun node => select node.2).map Prod.fst

/-- To erase through the iterators to the elements selected is to filter them out. -/
theorem eraseEach_iterators (list : StdList α) :
    ∃ erased, list.eraseEach (list.iterators select) = some erased ∧
      erased.toList = list.toList.filter fun element => !select element := by
  have distinct : (list.iterators select).Nodup :=
    list.nodup.sublist (List.filter_sublist.map Prod.fst)
  have valid : ∀ iterator ∈ list.iterators select, list.IsValid iterator := by
    intro iterator member
    obtain ⟨node, selected, rfl⟩ := List.mem_map.mp member
    exact List.mem_map_of_mem (List.mem_of_mem_filter selected)
  refine ⟨list.without (list.iterators select), eraseEach_eq_some distinct valid, ?_⟩
  rw [toList, toList, without, List.filter_map]
  refine congrArg (List.map Prod.snd) (List.filter_congr fun node member => ?_)
  -- a node is known by its number
  have selected : node.1 ∈ list.iterators select ↔ select node.2 := by
    constructor
    · intro found
      obtain ⟨other, chosen, same⟩ := List.mem_map.mp found
      obtain ⟨other_mem, accepted⟩ := List.mem_filter.mp chosen
      rwa [← List.inj_on_of_nodup_map list.nodup other_mem member same]
    · intro accepted
      exact List.mem_map_of_mem (List.mem_filter.mpr ⟨member, accepted⟩)
  simp [selected]

end Select

end StdList

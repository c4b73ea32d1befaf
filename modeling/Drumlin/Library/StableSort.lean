import Mathlib

/-!
# Sorting by rounds

Whoever takes the elements of a list key by key, from the greatest key down, sorts the list, and
leaves elements of one key in their order.  A list that is sorted by a key and keeps the order at
each key is determined by that.
-/

namespace StableSort

variable {α : Type*}

section Keys

variable {Key : Type*} [LinearOrder Key] {key : α → Key}

/-- Lists that are sorted by a key and agree at each key are equal. -/
theorem eq_of_filter_eq {one other : List α}
    (one_sorted : one.Pairwise fun left right => key right ≤ key left)
    (other_sorted : other.Pairwise fun left right => key right ≤ key left)
    (same : ∀ value, one.filter (key · = value) = other.filter (key · = value)) : one = other := by
  have mem_iff (element : α) : element ∈ one ↔ element ∈ other := by
    have at_key := congrArg (element ∈ ·) (same (key element))
    simpa using at_key
  induction one generalizing other with
  | nil =>
      cases other with
      | nil => rfl
      | cons head tail => simpa using mem_iff head
  | cons head tail induction =>
      cases other with
      | nil => simpa using mem_iff head
      | cons head' tail' =>
          obtain ⟨below, tail_sorted⟩ := List.pairwise_cons.mp one_sorted
          obtain ⟨below', tail_sorted'⟩ := List.pairwise_cons.mp other_sorted
          have le_head : key head' ≤ key head := by
            rcases List.mem_cons.mp ((mem_iff head').mpr (.head _)) with rfl | member
            · exact le_rfl
            · exact below _ member
          have head_le : key head ≤ key head' := by
            rcases List.mem_cons.mp ((mem_iff head).mp (.head _)) with rfl | member
            · exact le_rfl
            · exact below' _ member
          have keys := le_antisymm head_le le_head
          have first := same (key head)
          rw [List.filter_cons_of_pos (by simp), List.filter_cons_of_pos (by simp [keys])] at first
          obtain ⟨rfl, -⟩ := List.cons.inj first
          have rest (value : Key) :
              tail.filter (key · = value) = tail'.filter (key · = value) := by
            have both := same value
            by_cases here : key head = value
            · rw [List.filter_cons_of_pos (by simp [here]),
                List.filter_cons_of_pos (by simp [here])] at both
              exact (List.cons.inj both).2
            · rwa [List.filter_cons_of_neg (by simp [here]),
                List.filter_cons_of_neg (by simp [here])] at both
          have members (element : α) : element ∈ tail ↔ element ∈ tail' := by
            have at_key := congrArg (element ∈ ·) (rest (key element))
            simpa using at_key
          rw [induction tail_sorted tail_sorted' rest members]

variable (key)

/-- Elements of one key are in order. -/
theorem pairwise_filter (list : List α) (value : Key) :
    (list.filter (key · = value)).Pairwise fun left right => key right ≤ key left := by
  refine List.Pairwise.imp_of_mem (fun {left right} leftIn rightIn _ => ?_)
    (List.pairwise_of_forall (R := fun _ _ => True) fun _ _ => trivial)
  simp only [List.mem_filter, decide_eq_true_eq] at leftIn rightIn
  rw [leftIn.2, rightIn.2]

theorem trans_descending (a b c : α) (ab : decide (key b ≤ key a) = true)
    (bc : decide (key c ≤ key b) = true) : decide (key c ≤ key a) = true := by
  simp only [decide_eq_true_eq] at ab bc ⊢
  exact bc.trans ab

theorem total_descending (a b : α) :
    (decide (key b ≤ key a) || decide (key a ≤ key b)) = true := by
  simpa using le_total (key b) (key a)

theorem pairwise_mergeSort (list : List α) :
    (list.mergeSort fun left right => key right ≤ key left).Pairwise
      fun left right => key right ≤ key left := by
  simpa only [decide_eq_true_eq] using
    List.pairwise_mergeSort (trans_descending key) (total_descending key) list

/-- The stable sort leaves the elements of one key as they are. -/
theorem filter_mergeSort (list : List α) (value : Key) :
    (list.mergeSort fun left right => key right ≤ key left).filter (key · = value) =
      list.filter (key · = value) := by
  have apart := (pairwise_filter key list value).imp decide_eq_true
  have kept : (list.filter (key · = value)).Sublist
      (list.mergeSort fun left right => key right ≤ key left) :=
    List.sublist_mergeSort (trans_descending key) (total_descending key) apart List.filter_sublist
  have filtered := kept.filter (key · = value)
  rw [List.filter_filter] at filtered
  simp only [Bool.and_self] at filtered
  refine (filtered.eq_of_length ?_).symm
  exact (((List.mergeSort_perm list _).filter _).length_eq).symm

end Keys

/-- The elements of a list from the greatest key to the least, one key after another. -/
def rounds (key : α → Nat) (first : Nat) : Nat → List α → List α
  | 0, _ => []
  | value + 1, list =>
      if first < value + 1 then
        list.filter (key · = value + 1) ++ rounds key first value list
      else []

theorem mem_rounds {key : α → Nat} {first last : Nat} {list : List α} {element : α} :
    element ∈ rounds key first last list ↔
      element ∈ list ∧ first < key element ∧ key element ≤ last := by
  induction last with
  | zero => simp [rounds]; omega
  | succ last induction =>
      rw [rounds]
      split
      · simp only [List.mem_append, List.mem_filter, induction, decide_eq_true_eq]
        constructor
        · rintro (⟨member, same⟩ | ⟨member, above, below⟩) <;> exact ⟨member, by omega, by omega⟩
        · rintro ⟨member, above, below⟩
          by_cases same : key element = last + 1
          · exact .inl ⟨member, same⟩
          · exact .inr ⟨member, above, by omega⟩
      · simp; omega

theorem pairwise_rounds (key : α → Nat) (first last : Nat) (list : List α) :
    (rounds key first last list).Pairwise fun left right => key right ≤ key left := by
  induction last with
  | zero => exact .nil
  | succ last induction =>
      rw [rounds]
      split
      · refine List.pairwise_append.mpr ⟨pairwise_filter key list _, induction, ?_⟩
        intro left leftIn right rightIn
        simp only [List.mem_filter, decide_eq_true_eq] at leftIn
        exact (mem_rounds.mp rightIn).2.2.trans (by omega)
      · exact .nil

theorem filter_rounds (key : α → Nat) (first last : Nat) (list : List α) (value : Nat) :
    (rounds key first last list).filter (key · = value) =
      if first < value ∧ value ≤ last then list.filter (key · = value) else [] := by
  induction last with
  | zero => rw [if_neg (by omega)]; rfl
  | succ last induction =>
      rw [rounds]
      split
      · rw [List.filter_append, induction, List.filter_filter]
        by_cases now : value = last + 1
        · subst now
          rw [if_neg (by omega), if_pos (by omega), List.append_nil]
          simp only [Bool.and_self]
        · have none_now : (list.filter fun element =>
              key element = value && key element = last + 1) = [] := by
            refine List.filter_eq_nil_iff.mpr fun element _ => ?_
            simp only [Bool.and_eq_true, decide_eq_true_eq]
            rintro ⟨rfl, same⟩
            exact now same
          rw [none_now, List.nil_append]
          exact if_congr (by omega) rfl rfl
      · rw [if_neg (by omega)]; rfl

/-- Taking the elements key by key is the stable sort. -/
theorem rounds_eq_mergeSort (key : α → Nat) (first last : Nat) (list : List α) :
    rounds key first last list =
      (list.filter fun element => first < key element ∧ key element ≤ last).mergeSort
        fun left right => key right ≤ key left := by
  refine eq_of_filter_eq (pairwise_rounds key first last list) (pairwise_mergeSort key _) ?_
  intro value
  rw [filter_mergeSort, filter_rounds, List.filter_filter]
  split
  · rename_i within
    refine List.filter_congr fun element _ => ?_
    by_cases same : key element = value <;> simp [same, within]
  · rename_i outside
    refine (List.filter_eq_nil_iff.mpr fun element _ => ?_).symm
    simp only [Bool.and_eq_true, decide_eq_true_eq]
    rintro ⟨rfl, within⟩
    exact outside within

end StableSort

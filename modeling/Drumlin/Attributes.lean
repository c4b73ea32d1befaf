import Drumlin.Library.NumberText
import Drumlin.Library.StdMap
import Drumlin.UseIdentHash

/-!
# Names and values

An item of a `string_list` may have the form `name=value` (string_list.cpp, use_ident.cpp).  Where
`find` has found no `=`, it returns `npos`, and `begin() + npos` is the position before the first:
the test for the end, which is meant for items without `=`, never succeeds.
-/

namespace Drumlin

/-- `attribute_list`. -/
abbrev AttributeList := Std.ExtTreeMap Str Str

namespace Str

/-- What is before the first `=`. -/
def name (item : Str) : Str := item.takeWhile (· != equalsSign)

/-- What is behind the first `=`. -/
def value (item : Str) : Str := (item.dropWhile (· != equalsSign)).tail

/-- `boost::lexical_cast` of an `int` that is not negative. -/
def lexicalCast (number : Nat) : Str := (Nat.toDigits 10 number).map Char.toUInt8

/-- An item of the form `name=value`. -/
def assign (name value : Str) : Str := name ++ [equalsSign] ++ value

end Str

namespace StringList

/-- The body of the loop of `string_list::operator attribute_list`; `substr` starts at `lpos + 1`,
taken modulo `2 ^ 64`. -/
def convertOne (progress : AttributeList × Nat) (item : Str) : AttributeList × Nat :=
  let (map, ordinal) := progress
  let lpos := item.find Str.equalsSign
  if lpos % 2 ^ 64 ≠ item.length then
    (map.insertIfNew (item.take lpos) (item.drop ((lpos + 1) % 2 ^ 64)), ordinal)
  else
    (map.insertIfNew (Str.lexicalCast ordinal) item, ordinal + 1)

/-- `string_list::operator attribute_list`. -/
def toAttributeList (list : StringList) : AttributeList := (list.foldl convertOne (∅, 0)).1

end StringList

/-- `UseIdent::hasComponent`. -/
def UseIdent.hasComponent (name : Str) (use : UseIdent) : Bool :=
  use.specification.any fun item => name == item.take (item.find Str.equalsSign)

/-! ## The first `=` of an item -/

namespace Str

variable {item name value : Str}

private theorem clean_iff : equalsSign ∉ name ↔ ∀ character ∈ name, (character != equalsSign) := by
  simp only [bne_iff_ne]
  constructor
  · rintro clean character member rfl
    exact clean member
  · exact fun clean member => clean equalsSign member rfl

theorem name_of_notMem (bare : equalsSign ∉ item) : item.name = item := by
  rw [Str.name, List.takeWhile_eq_self_iff]
  exact clean_iff.mp bare

theorem name_assign (clean : equalsSign ∉ name) (value : Str) :
    (assign name value).name = name := by
  rw [assign, Str.name, List.append_assoc, List.takeWhile_append_of_pos (clean_iff.mp clean)]
  simp

theorem value_assign (clean : equalsSign ∉ name) (value : Str) :
    (assign name value).value = value := by
  rw [assign, Str.value, List.append_assoc, List.dropWhile_append_of_pos (clean_iff.mp clean)]
  simp

/-- An item with `=` is put together of a name and a value. -/
theorem exists_assign (named : equalsSign ∈ item) :
    ∃ name value, equalsSign ∉ name ∧ item = assign name value := by
  obtain ⟨name, value, rfl, clean⟩ := List.eq_append_cons_of_mem named
  exact ⟨name, value, clean, by simp [assign]⟩

theorem length_assign (name value : Str) :
    (assign name value).length = name.length + 1 + value.length := by
  simp only [assign, List.length_append, List.length_singleton]

theorem mem_assign (name value : Str) : equalsSign ∈ assign name value := by simp [assign]

theorem find_assign (clean : equalsSign ∉ name) (value : Str) :
    (assign name value).find equalsSign = name.length := by
  have before : name.findIdx? (· == equalsSign) = none := by
    rw [List.findIdx?_eq_none_iff]
    simpa using clean_iff.mp clean
  rw [find, assign, List.append_assoc, List.findIdx?_append, before]
  simp [List.findIdx?_cons]

theorem find_of_notMem (bare : equalsSign ∉ item) : item.find equalsSign = npos := by
  have absent : item.findIdx? (· == equalsSign) = none := by
    rw [List.findIdx?_eq_none_iff]
    simpa using clean_iff.mp bare
  rw [find, absent]

/-- The test for the end does not succeed, with `=` or without. -/
theorem find_mod_ne_length (short : item.length < npos) :
    item.find equalsSign % 2 ^ 64 ≠ item.length := by
  by_cases named : equalsSign ∈ item
  · obtain ⟨name, value, clean, rfl⟩ := exists_assign named
    have reduced := Nat.mod_le name.length (2 ^ 64)
    rw [find_assign clean, length_assign]
    omega
  · rw [find_of_notMem named]
    exact short.ne'

/-- `substr(0, lpos)`. -/
theorem take_find (short : item.length < npos) : item.take (item.find equalsSign) = item.name := by
  by_cases named : equalsSign ∈ item
  · obtain ⟨name, value, clean, rfl⟩ := exists_assign named
    rw [find_assign clean, name_assign clean]
    simp [assign]
  · rw [find_of_notMem named, name_of_notMem named, List.take_of_length_le short.le]

/-- `substr(lpos + 1)`; `npos + 1` is zero. -/
theorem drop_find (short : item.length < npos) :
    item.drop ((item.find equalsSign + 1) % 2 ^ 64) =
      if equalsSign ∈ item then item.value else item := by
  by_cases named : equalsSign ∈ item
  · obtain ⟨name, value, clean, rfl⟩ := exists_assign named
    have small : name.length + 1 < 2 ^ 64 := by
      rw [length_assign, npos] at short
      omega
    rw [find_assign clean, Nat.mod_eq_of_lt small, if_pos named, value_assign clean]
    simp [assign]
  · rw [find_of_notMem named, if_neg named]
    exact List.drop_zero

end Str

/-! ## Names only -/

namespace StringList

/-- Every string is shorter than `npos`, as `max_size` sees to it. -/
def Sized (list : StringList) : Prop := ∀ item ∈ list, item.length < Str.npos

instance : DecidablePred Sized := fun list =>
  inferInstanceAs (Decidable (∀ item ∈ list, item.length < Str.npos))

/-- The names of the items with `=`. -/
def names (list : StringList) : StringList :=
  (list.filter fun item => Str.equalsSign ∈ item).map Str.name

/-- The names, and the items without `=` in their places. -/
def namesOrItems (list : StringList) : StringList :=
  list.map fun item => if Str.equalsSign ∈ item then item.name else item

/-- All items have `=`. -/
def AllNamed (list : StringList) : Prop := ∀ item ∈ list, Str.equalsSign ∈ item

instance : DecidablePred AllNamed := fun list =>
  inferInstanceAs (Decidable (∀ item ∈ list, Str.equalsSign ∈ item))

/-- Strict or not, `namesOnly` takes what is before the first `=` of every item. -/
theorem namesOnly_eq {list : StringList} (sized : list.Sized) (strict : Bool) :
    list.namesOnly strict = list.map Str.name := by
  rw [namesOnly, ← List.filterMap_eq_map]
  apply List.filterMap_congr
  intro item member
  have short := sized item member
  rw [nameOf, if_pos (Str.find_mod_ne_length short), Str.take_find short, Function.comp_apply]

theorem namesOnly_lax {list : StringList} (sized : list.Sized) :
    list.namesOnly false = list.namesOrItems := by
  rw [namesOnly_eq sized, namesOrItems]
  apply List.map_congr_left
  intro item member
  split
  · rfl
  · exact Str.name_of_notMem ‹_›

theorem namesOnly_strict_iff {list : StringList} (sized : list.Sized) :
    list.namesOnly true = list.names ↔ list.AllNamed := by
  rw [namesOnly_eq sized, names]
  constructor
  · intro same
    have lengths := congrArg List.length same
    rw [List.length_map, List.length_map] at lengths
    simpa [AllNamed] using List.length_filter_eq_length_iff.mp lengths.symm
  · intro named
    rw [List.filter_eq_self.mpr (by simpa [AllNamed] using named)]

end StringList

/-- `namesOnly` takes the names of a list and of a specification, and a strict filter compares by
these. -/
structure FiltersByNames (sha256 : Str → Str) (list : StringList) (rhs : UseIdent) : Prop where
  strict : list.namesOnly true = list.names ∧
    rhs.specification.namesOnly true = rhs.specification.names
  lax : list.namesOnly false = list.namesOrItems ∧
    rhs.specification.namesOnly false = rhs.specification.namesOrItems
  ofList : (BaseFilter.namesOnlyOf list true).object.equals sha256 rhs ↔
    list.names = rhs.specification.names
  ofUse : ∀ use : UseIdent, use.specification = list →
    ((BaseFilter.namesOnly use true).object.equals sha256 rhs ↔
      list.names = rhs.specification.names)

/-- Names are taken and compared as they should be precisely if all items have `=`. -/
theorem filtersByNames_iff {sha256 : Str → Str} {list : StringList} {rhs : UseIdent}
    (sized : list.Sized) (sized_rhs : rhs.specification.Sized) :
    FiltersByNames sha256 list rhs ↔ list.AllNamed ∧ rhs.specification.AllNamed := by
  have strict := StringList.namesOnly_strict_iff sized
  have strict_rhs := StringList.namesOnly_strict_iff sized_rhs
  constructor
  · intro filters
    exact ⟨strict.mp filters.strict.1, strict_rhs.mp filters.strict.2⟩
  · rintro ⟨named, named_rhs⟩
    have names := strict.mpr named
    have names_rhs := strict_rhs.mpr named_rhs
    refine ⟨⟨names, names_rhs⟩,
      ⟨StringList.namesOnly_lax sized, StringList.namesOnly_lax sized_rhs⟩, ?_, ?_⟩
    · cases list with
      | nil => simp [BaseFilter.object, Filter.equals, UseIdent.empty, names, names_rhs]
      | cons item list => simp [BaseFilter.object, Filter.equals, names, names_rhs]
    · rintro use rfl
      simp [BaseFilter.object, Filter.equals, names, names_rhs]

/-- A filter for `a`, and an identifier with `a=b`. -/
theorem filtersByNames_one : FiltersByNames id [[97, 61]] ⟨none, [], [[97, 61, 98]], 0⟩ :=
  (filtersByNames_iff (by decide) (by decide)).mpr ⟨by decide, by decide⟩

/-- One item without `=`. -/
theorem filtersByNames_fails :
    ¬∀ (sha256 : Str → Str) (list : StringList) (rhs : UseIdent), list.Sized →
      rhs.specification.Sized → FiltersByNames sha256 list rhs := by
  intro always
  have strict := (always id [[97]] .empty (by decide) (by decide)).strict.1
  revert strict
  decide

/-! ## Conversion to a map -/

namespace StringList

/-- The entry an item makes. -/
def entryOf (item : Str) : Str × Str :=
  (item.name, if Str.equalsSign ∈ item then item.value else item)

theorem entryOf_assign {name : Str} (clean : Str.equalsSign ∉ name) (value : Str) :
    entryOf (Str.assign name value) = (name, value) := by
  rw [entryOf, Str.name_assign clean, if_pos (Str.mem_assign name value), Str.value_assign clean]

theorem entryOf_of_notMem {item : Str} (bare : Str.equalsSign ∉ item) :
    entryOf item = (item, item) := by
  rw [entryOf, Str.name_of_notMem bare, if_neg bare]

/-- The conversion inserts the entries of the items, and never an ordinal. -/
theorem toAttributeList_eq {list : StringList} (sized : list.Sized) :
    list.toAttributeList = StdMap.insertEach ∅ (list.map entryOf) := by
  have loop (map : AttributeList) (ordinal : Nat) : (list.foldl convertOne (map, ordinal)).1 =
      StdMap.insertEach map (list.map entryOf) := by
    induction list generalizing map with
    | nil => rfl
    | cons item list induction =>
        obtain ⟨short, rest⟩ := List.forall_mem_cons.mp sized
        rw [List.foldl_cons, convertOne, if_pos (Str.find_mod_ne_length short),
          Str.take_find short, Str.drop_find short, induction rest]
        rfl
  exact loop ∅ 0

/-- The items without `=`, in order. -/
def bare (list : StringList) : StringList := list.filter fun item => Str.equalsSign ∉ item

/-- Nothing is lost: an item with `=` gives its name its value, the items without `=` are numbered,
and every item has an entry. -/
structure Lossless (list : StringList) : Prop where
  named : ∀ item ∈ list, Str.equalsSign ∈ item → list.toAttributeList[item.name]? = some item.value
  numbered : ∀ ordinal item, list.bare[ordinal]? = some item →
    list.toAttributeList[Str.lexicalCast ordinal]? = some item
  size : list.toAttributeList.size = list.length

theorem notMem_lexicalCast (number : Nat) : Str.equalsSign ∉ Str.lexicalCast number := by
  intro member
  have digits : ∀ value < 10, (Nat.digitChar value).toUInt8 ≠ Str.equalsSign := by decide
  obtain ⟨digit, digit_member, same⟩ := List.mem_map.mp member
  obtain ⟨value, small, rfl⟩ := NumberText.mem_toDigits (by decide) digit_member
  exact digits value small same

/-- Where no name comes twice, the map has the entries of the items. -/
theorem getElem?_toAttributeList {list : StringList} (sized : list.Sized)
    (distinct : (list.map Str.name).Nodup) {key value : Str} :
    list.toAttributeList[key]? = some value ↔ (key, value) ∈ list.map entryOf := by
  have fresh : StdMap.Fresh (∅ : AttributeList) (list.map entryOf) :=
    ⟨by rwa [List.map_map], fun pair _ => by simp⟩
  rw [toAttributeList_eq sized, StdMap.getElem?_insertEach fresh]
  simp

theorem size_toAttributeList_iff {list : StringList} (sized : list.Sized) :
    list.toAttributeList.size = list.length ↔ (list.map Str.name).Nodup := by
  have filled : (StdMap.insertEach (∅ : AttributeList) (list.map entryOf)).size =
      (∅ : AttributeList).size + (list.map entryOf).length ↔ _ := StdMap.size_insertEach_eq_iff
  rw [← toAttributeList_eq sized, List.length_map] at filled
  simpa [StdMap.Fresh, Function.comp_def, entryOf] using filled

/-- Nothing is lost precisely if no item without `=` is another item or the name of one, and each is
its own number, or its number and it are an item. -/
theorem lossless_iff {list : StringList} (sized : list.Sized) :
    list.Lossless ↔
      (list.map Str.name).Nodup ∧ ∀ ordinal item, list.bare[ordinal]? = some item →
        item = Str.lexicalCast ordinal ∨ Str.assign (Str.lexicalCast ordinal) item ∈ list := by
  constructor
  · intro lossless
    have distinct := (size_toAttributeList_iff sized).mp lossless.size
    refine ⟨distinct, fun ordinal item found => ?_⟩
    have entry := (getElem?_toAttributeList sized distinct).mp
      (lossless.numbered ordinal item found)
    obtain ⟨source, member, made⟩ := List.mem_map.mp entry
    by_cases named : Str.equalsSign ∈ source
    · obtain ⟨name, value, clean, rfl⟩ := Str.exists_assign named
      rw [entryOf_assign clean] at made
      obtain ⟨rfl, rfl⟩ := Prod.mk.inj made
      exact .inr member
    · rw [entryOf_of_notMem named] at made
      obtain ⟨rfl, same⟩ := Prod.mk.inj made
      exact .inl same.symm
  · rintro ⟨distinct, numbers⟩
    constructor
    · intro item member named
      rw [getElem?_toAttributeList sized distinct]
      exact List.mem_map.mpr ⟨item, member, by simp [entryOf, named]⟩
    · intro ordinal item found
      rw [getElem?_toAttributeList sized distinct, List.mem_map]
      rcases numbers ordinal item found with rfl | assigned
      · obtain ⟨member, bare⟩ := List.mem_filter.mp (List.mem_of_getElem? found)
        exact ⟨_, member, entryOf_of_notMem (by simpa using bare)⟩
      · exact ⟨_, assigned, entryOf_assign (notMem_lexicalCast ordinal) item⟩
    · exact (size_toAttributeList_iff sized).mpr distinct

/-- Two items with `=`, and the item `0` between. -/
theorem lossless_three : Lossless [[97, 61, 98], [48], [99, 61]] := by
  refine (lossless_iff (by decide)).mpr ⟨by decide, fun ordinal item found => .inl ?_⟩
  change [[48]][ordinal]? = some item at found
  rw [List.getElem?_singleton] at found
  split at found
  · rename_i zero
    cases found
    rw [zero]
    decide
  · cases found

/-- One item without `=`. -/
theorem lossless_fails : ¬∀ list : StringList, list.Sized → list.names.Nodup → list.Lossless := by
  intro always
  have numbered := (always [[97]] (by decide) (by decide)).numbered 0 [97] rfl
  rw [getElem?_toAttributeList (by decide) (by decide)] at numbered
  revert numbered
  decide

end StringList

/-! ## Attributes of an identifier -/

namespace UseIdent

theorem specification_withAttr (attributes : List (Str × Str)) (use : UseIdent) :
    (use.withAttr attributes).specification =
      use.specification ++ attributes.map fun attr => Str.assign attr.1 attr.2 := by
  induction attributes generalizing use with
  | nil => simp [withAttr]
  | cons attr attributes induction =>
      have rest := induction (use.append attr)
      simpa [withAttr, append, Str.assign] using rest

theorem hasComponent_withAttr {attributes : List (Str × Str)}
    (clean : ∀ attr ∈ attributes, Str.equalsSign ∉ attr.1) (use : UseIdent) (name : Str) :
    (use.withAttr attributes).hasComponent name ↔
      use.hasComponent name ∨ name ∈ attributes.map Prod.fst := by
  have one : ∀ attr ∈ attributes,
      (Str.assign attr.1 attr.2).take ((Str.assign attr.1 attr.2).find Str.equalsSign) =
        attr.1 := by
    intro attr member
    rw [Str.find_assign (clean attr member)]
    simp [Str.assign]
  rw [hasComponent, specification_withAttr, List.any_append, Bool.or_eq_true]
  refine or_congr_right ?_
  rw [List.any_map, List.any_eq_true, List.mem_map]
  refine exists_congr fun attr => and_congr_right fun member => ?_
  rw [Function.comp_apply, one attr member, beq_iff_eq, eq_comm]

end UseIdent

/-- The attributes given to an identifier are read back from a fresh one, and are its components
besides those it had; the identifier they are given to stays as it is. -/
theorem withAttr_spec {world : UseWorld} {ident : Nat} {use : UseIdent}
    (found : world.idents[ident]? = some use) {attributes : AttributeList}
    (clean : ∀ name ∈ attributes, Str.equalsSign ∉ name)
    (sized : StringList.Sized (attributes.toList.map fun attr => Str.assign attr.1 attr.2)) :
    (UseIdent.empty.withAttr attributes.toList).specification.toAttributeList = attributes ∧
      (∃ next, world.identCall (.withAttr ident attributes.toList) = some next ∧
        next.idents[ident]? = some use ∧
        next.idents[world.idents.length]? = some (use.withAttr attributes.toList)) ∧
      ∀ name, (use.withAttr attributes.toList).hasComponent name ↔
        use.hasComponent name ∨ name ∈ attributes := by
  have keys : ∀ name, name ∈ attributes.toList.map Prod.fst ↔ name ∈ attributes := by
    intro name
    rw [Std.ExtTreeMap.map_fst_toList_eq_keys, Std.ExtTreeMap.mem_keys]
  have clean_pairs : ∀ attr ∈ attributes.toList, Str.equalsSign ∉ attr.1 := by
    intro attr member
    exact clean attr.1 ((keys attr.1).mp (List.mem_map_of_mem member))
  refine ⟨?_, ?_, ?_⟩
  · have entries : (attributes.toList.map fun attr => Str.assign attr.1 attr.2).map
        StringList.entryOf = attributes.toList := by
      rw [List.map_map]
      conv_rhs => rw [← List.map_id attributes.toList]
      apply List.map_congr_left
      intro attr member
      exact StringList.entryOf_assign (clean_pairs attr member) attr.2
    rw [UseIdent.specification_withAttr, UseIdent.empty, List.nil_append,
      StringList.toAttributeList_eq sized, entries, StdMap.insertEach_toList]
  · obtain ⟨bound, -⟩ := List.getElem?_eq_some_iff.mp found
    refine ⟨world.add (use.withAttr attributes.toList), ?_, ?_, ?_⟩
    · simp [UseWorld.identCall, found]
    · rw [UseWorld.add, List.getElem?_append_left bound, found]
    · simp [UseWorld.add]
  · intro name
    rw [UseIdent.hasComponent_withAttr clean_pairs, keys]

/-- One attribute, whose value has `=`. -/
theorem withAttr_spec_one :
    let attributes : AttributeList := (∅ : AttributeList).insert [97] [98, 61]
    (UseIdent.empty.withAttr attributes.toList).specification.toAttributeList = attributes ∧
      (UseIdent.empty.withAttr attributes.toList).hasComponent [97] := by
  intro attributes
  have mem_iff (name : Str) : name ∈ attributes ↔ name = [97] := by
    rw [Std.ExtTreeMap.mem_insert, Std.compare_eq_iff_eq]
    simp [eq_comm]
  have sized : StringList.Sized
      (attributes.toList.map fun attr => Str.assign attr.1 attr.2) := by
    intro item member
    obtain ⟨attr, entry, rfl⟩ := List.mem_map.mp member
    rw [Std.ExtTreeMap.mem_toList_iff_getElem?_eq_some, Std.ExtTreeMap.getElem?_insert] at entry
    split at entry
    · rename_i same
      rw [Std.compare_eq_iff_eq] at same
      rw [← same, ← Option.some.inj entry]
      decide
    · simp at entry
  have clean : ∀ name ∈ attributes, Str.equalsSign ∉ name := by
    intro name member
    rw [(mem_iff name).mp member]
    decide
  have found : (⟨fun _ => none, [.empty]⟩ : UseWorld).idents[0]? = some .empty := rfl
  obtain ⟨back, -, components⟩ := withAttr_spec found clean sized
  exact ⟨back, (components [97]).mpr (.inr ((mem_iff [97]).mpr rfl))⟩

end Drumlin

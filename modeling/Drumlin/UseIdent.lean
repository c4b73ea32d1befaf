import Drumlin.StringList

/-!
# Identifiers of heap uses and their filters

A `UseIdent` (use_ident.h, use_ident.cpp) marks a heap allocation.  The classes derived from
`UseIdentFilter` compare one with a `UseIdent` through a virtual `operator==`; copying an object of
such a class into a `UseIdentFilter` keeps the base class part and loses the class.
-/

namespace Drumlin

/-- `UseIdent`. -/
structure UseIdent where
  /-- `m_source`, the address of a `UsesAllocator`; the default constructor leaves it unset. -/
  source : Option Nat
  /-- `m_source_name`. -/
  sourceName : Str
  /-- `m_specification`. -/
  specification : StringList
  /-- `m_tick`. -/
  tick : UInt32
deriving DecidableEq, Repr

namespace UseIdent

/-- `UseIdent::UseIdent()`. -/
def empty : UseIdent := ⟨none, [], [], 0⟩

/-- `UseIdent::UseIdent(UsesAllocator*)`, of the allocator at an address with a token. -/
def ofUses (uses : Nat) (token : Str) : UseIdent := ⟨some uses, token, [], 0⟩

/-- `UseIdent::operator==`, which leaves the name out. -/
def equals (left right : UseIdent) : Bool :=
  left.source == right.source && left.tick == right.tick &&
    left.specification == right.specification

/-- `UseIdent::getHash`, for the hash function of the library it calls. -/
def getHash (sha256 : Str → Str) (use : UseIdent) : Str := sha256 use.specification.toString

end UseIdent

/-- An object whose class is `UseIdentFilter` itself: the base class part of every filter. -/
structure UseIdentFilter where
  /-- `m_ident`. -/
  ident : UseIdent
deriving DecidableEq, Repr

/-- `UseIdentFilter::operator==`. -/
def UseIdentFilter.equals (_ : UseIdentFilter) (_ : UseIdent) : Bool := false

/-- A filter object, by its class.  Each holds the base class part; the logical filters hold their
operands by value, as `UseIdentFilter`. -/
inductive Filter
  | base (part : UseIdentFilter)
  | sourcesOnly (part : UseIdentFilter)
  | hashOnly (part : UseIdentFilter)
  | namesOnly (part : UseIdentFilter) (list : StringList) (strict : Bool)
  | tickRange (part : UseIdentFilter) (exclusive : Bool) (min max : UInt32)
  | logicalAnd (part lhs rhs : UseIdentFilter)
  | logicalOr (part lhs rhs : UseIdentFilter)
  | logicalNot (part rhs : UseIdentFilter)
deriving DecidableEq, Repr

namespace Filter

/-- Copying a filter into a `UseIdentFilter`. -/
def slice : Filter → UseIdentFilter
  | base part | sourcesOnly part | hashOnly part | namesOnly part _ _ | tickRange part _ _ _
  | logicalAnd part _ _ | logicalOr part _ _ | logicalNot part _ => part

/-- The `operator==` of the filter's own class. -/
def equals (sha256 : Str → Str) (filter : Filter) (rhs : UseIdent) : Bool :=
  match filter with
  | base part => part.equals rhs
  | sourcesOnly part => part.ident.sourceName == rhs.sourceName
  | hashOnly part => part.ident.getHash sha256 == rhs.getHash sha256
  | namesOnly part list strict =>
      if list.isEmpty then
        part.ident.specification.namesOnly strict == rhs.specification.namesOnly strict
      else
        list.namesOnly strict == rhs.specification.namesOnly strict
  | tickRange _ exclusive min max =>
      if exclusive then
        rhs.tick > min && rhs.tick < max
      else
        rhs.tick >= min && rhs.tick <= max
  | logicalAnd _ lhs rhs' => lhs.equals rhs && rhs'.equals rhs
  | logicalOr _ lhs rhs' => lhs.equals rhs || rhs'.equals rhs
  | logicalNot _ rhs' => !rhs'.equals rhs

/-- `operator&&`. -/
def and (lhs rhs : Filter) : Filter := logicalAnd ⟨.empty⟩ lhs.slice rhs.slice

/-- `operator||`. -/
def or (lhs rhs : Filter) : Filter := logicalOr ⟨.empty⟩ lhs.slice rhs.slice

/-- `operator!`. -/
def not (rhs : Filter) : Filter := logicalNot ⟨.empty⟩ rhs.slice

/-- Nothing equals a copied filter. -/
@[simp] theorem slice_equals (filter : Filter) (rhs : UseIdent) :
    filter.slice.equals rhs = false := rfl

@[simp] theorem and_equals (sha256 : Str → Str) (lhs rhs : Filter) (use : UseIdent) :
    (lhs.and rhs).equals sha256 use = false := rfl

@[simp] theorem or_equals (sha256 : Str → Str) (lhs rhs : Filter) (use : UseIdent) :
    (lhs.or rhs).equals sha256 use = false := rfl

@[simp] theorem not_equals (sha256 : Str → Str) (rhs : Filter) (use : UseIdent) :
    rhs.not.equals sha256 use = true := rfl

end Filter

/-! ## The four classes a caller constructs -/

/-- A filter of one of the classes that compare a `UseIdent` themselves, by the arguments of its
constructor. -/
inductive BaseFilter
  | sourcesOnly (use : UseIdent)
  | hashOnly (use : UseIdent)
  | namesOnly (use : UseIdent) (strict : Bool)
  | namesOnlyOf (list : StringList) (strict : Bool)
  | tickRange (min max : UInt32) (exclusive : Bool)
deriving DecidableEq, Repr

/-- The object constructed; `strict()` and `exclusive()` set the flags. -/
def BaseFilter.object : BaseFilter → Filter
  | sourcesOnly use => .sourcesOnly ⟨use⟩
  | hashOnly use => .hashOnly ⟨use⟩
  | namesOnly use strict => .namesOnly ⟨use⟩ [] strict
  | namesOnlyOf list strict => .namesOnly ⟨.empty⟩ list strict
  | tickRange min max exclusive => .tickRange ⟨.empty⟩ exclusive min max

/-- `TickRange()`, with its default arguments: every tick. -/
def BaseFilter.anyTick : BaseFilter := .tickRange 0 0xffffffff false

theorem BaseFilter.anyTick_equals (sha256 : Str → Str) (use : UseIdent) :
    anyTick.object.equals sha256 use = true := by
  have low : (0 : UInt32) ≤ use.tick := UInt32.zero_le
  have high : use.tick ≤ (0xffffffff : UInt32) := by
    rw [UInt32.le_iff_toNat_le]
    exact Nat.le_of_lt_succ use.tick.toNat_lt
  simp [anyTick, object, Filter.equals, low, high]

/-! ## Filter expressions -/

/-- An expression built from the base filters with `&&`, `||` and `!`. -/
inductive FilterExpr
  | base (filter : BaseFilter)
  | and (lhs rhs : FilterExpr)
  | or (lhs rhs : FilterExpr)
  | not (rhs : FilterExpr)
deriving Repr

namespace FilterExpr

/-- The object the expression evaluates to. -/
def object : FilterExpr → Filter
  | base filter => filter.object
  | and lhs rhs => lhs.object.and rhs.object
  | or lhs rhs => lhs.object.or rhs.object
  | not rhs => rhs.object.not

variable (sha256 : Str → Str)

/-- At every node of the expression the operator means what it says, in terms of its operands'
own comparisons. -/
def Lawful (use : UseIdent) : FilterExpr → Prop
  | base _ => True
  | and lhs rhs =>
      ((and lhs rhs).object.equals sha256 use ↔
        lhs.object.equals sha256 use ∧ rhs.object.equals sha256 use) ∧
      lhs.Lawful use ∧ rhs.Lawful use
  | or lhs rhs =>
      ((or lhs rhs).object.equals sha256 use ↔
        lhs.object.equals sha256 use ∨ rhs.object.equals sha256 use) ∧
      lhs.Lawful use ∧ rhs.Lawful use
  | not rhs =>
      ((not rhs).object.equals sha256 use ↔ ¬rhs.object.equals sha256 use) ∧ rhs.Lawful use

/-- The expression is a base filter that accepts the identifier, or a negation. -/
def Accepting (use : UseIdent) : FilterExpr → Prop
  | base filter => filter.object.equals sha256 use
  | and _ _ | or _ _ => False
  | not _ => True

/-- No `&&` has two accepting operands, no `||` has one, and no `!` is applied to one. -/
def Unaffected (use : UseIdent) : FilterExpr → Prop
  | base _ => True
  | and lhs rhs =>
      ¬(lhs.Accepting sha256 use ∧ rhs.Accepting sha256 use) ∧
      lhs.Unaffected use ∧ rhs.Unaffected use
  | or lhs rhs =>
      ¬(lhs.Accepting sha256 use ∨ rhs.Accepting sha256 use) ∧
      lhs.Unaffected use ∧ rhs.Unaffected use
  | not rhs => ¬rhs.Accepting sha256 use ∧ rhs.Unaffected use

/-- The comparison of an expression, without regard to what the copied operands were. -/
theorem equals_iff_accepting (use : UseIdent) (expr : FilterExpr) :
    expr.object.equals sha256 use ↔ expr.Accepting sha256 use := by
  cases expr <;> simp [object, Accepting]

end FilterExpr

/-- The logical filters mean what they say exactly where it makes no difference that a copied
operand accepts nothing. -/
theorem filter_laws_iff (sha256 : Str → Str) (expr : FilterExpr) (use : UseIdent) :
    expr.Lawful sha256 use ↔ expr.Unaffected sha256 use := by
  induction expr with
  | base filter => exact Iff.rfl
  | and lhs rhs left right =>
      rw [FilterExpr.Lawful, FilterExpr.Unaffected, left, right,
        lhs.equals_iff_accepting, rhs.equals_iff_accepting]
      simp [FilterExpr.object]
  | or lhs rhs left right =>
      rw [FilterExpr.Lawful, FilterExpr.Unaffected, left, right,
        lhs.equals_iff_accepting, rhs.equals_iff_accepting]
      simp [FilterExpr.object]
  | not rhs right =>
      rw [FilterExpr.Lawful, FilterExpr.Unaffected, right, rhs.equals_iff_accepting]
      simp [FilterExpr.object]

/-- Two ranges that hold every tick have an intersection that holds none. -/
theorem filter_laws_fail :
    ¬∀ (sha256 : Str → Str) (expr : FilterExpr) (use : UseIdent), expr.Lawful sha256 use := by
  intro lawful
  have law := (lawful id (.and (.base .anyTick) (.base .anyTick)) .empty).1
  simp [FilterExpr.object, BaseFilter.anyTick_equals] at law

end Drumlin

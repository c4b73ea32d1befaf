import Drumlin.UseIdent
import Drumlin.Library.Runs

/-!
# The hash of a `UseIdent`

`std::hash<UseIdent>` (use_ident.h) mixes in the name that a `UseIdent` took from its
`UsesAllocator`, which `operator==` leaves out.  Assigning to a `UsesAllocator` (uses_allocator.cpp)
changes the name it gives from then on.
-/

namespace Drumlin

/-! ## Identifiers -/

/-- The hash functions of the libraries. -/
structure Hashing where
  /-- `std::hash<guint64>`, of an address. -/
  guint64 : Option Nat → UInt64
  /-- `std::hash<std::string>`. -/
  string : Str → UInt64
  /-- `std::hash<guint32>`. -/
  guint32 : UInt32 → UInt64
  /-- `boost::hash_combine`, by the seed it leaves. -/
  combine : UInt64 → UInt64 → UInt64

namespace UseIdent

/-- `std::hash<UseIdent>`. -/
def hash (hashing : Hashing) (s : UseIdent) : UInt64 :=
  let seed := hashing.combine 0 (hashing.guint64 s.source)
  let seed := hashing.combine seed (hashing.string s.sourceName)
  let seed := hashing.combine seed (hashing.string s.specification.toString)
  hashing.combine seed (hashing.guint32 s.tick)

/-- `UseIdent::operator<<`; for a value in a `boost::any` comes what is written of it. -/
def append (pair : Str × Str) (use : UseIdent) : UseIdent :=
  { use with specification := use.specification ++ [pair.1 ++ [Str.equalsSign] ++ pair.2] }

/-- `UseIdent::withAttr`. -/
def withAttr (attributes : List (Str × Str)) (use : UseIdent) : UseIdent :=
  attributes.foldl (fun ret attr => ret.append attr) use

/-- `UseIdent::withTick`. -/
def withTick (tick : UInt32) (use : UseIdent) : UseIdent := { use with tick := tick }

/-- `UseIdent::setUse`, of the allocator at an address with a token. -/
def setUse (uses : Nat) (token : Str) (use : UseIdent) : UseIdent :=
  { use with source := some uses, sourceName := token }

@[simp] theorem append_source (pair : Str × Str) (use : UseIdent) :
    (use.append pair).source = use.source := rfl

@[simp] theorem append_sourceName (pair : Str × Str) (use : UseIdent) :
    (use.append pair).sourceName = use.sourceName := rfl

@[simp] theorem withAttr_source (attributes : List (Str × Str)) (use : UseIdent) :
    (use.withAttr attributes).source = use.source := by
  induction attributes generalizing use with
  | nil => rfl
  | cons attr attributes induction => exact induction (use.append attr)

@[simp] theorem withAttr_sourceName (attributes : List (Str × Str)) (use : UseIdent) :
    (use.withAttr attributes).sourceName = use.sourceName := by
  induction attributes generalizing use with
  | nil => rfl
  | cons attr attributes induction => exact induction (use.append attr)

/-- Equal identifiers of one name have one hash. -/
theorem hash_eq_of_equals {left right : UseIdent} (same : left.equals right)
    (name : left.sourceName = right.sourceName) (hashing : Hashing) :
    left.hash hashing = right.hash hashing := by
  simp only [equals, Bool.and_eq_true, beq_iff_eq] at same
  obtain ⟨⟨source, tick⟩, specification⟩ := same
  rw [hash, hash, source, name, specification, tick]

/-- Hash functions that tell a name from every other one. -/
def telling (name : Str) : Hashing where
  guint64 _ := 0
  string text := if text = name then 1 else 0
  guint32 _ := 0
  combine seed value := seed + value

/-- Equal identifiers of different names have different hashes, for some hash functions. -/
theorem exists_hash_ne {left right : UseIdent} (same : left.equals right)
    (name : left.sourceName ≠ right.sourceName) :
    ∃ hashing, left.hash hashing ≠ right.hash hashing := by
  simp only [equals, Bool.and_eq_true, beq_iff_eq] at same
  refine ⟨telling left.sourceName, fun collide => ?_⟩
  simp [hash, telling, same.2, Ne.symm name] at collide

end UseIdent

/-! ## Allocators and identifiers -/

/-- The `UsesAllocator`s and the `UseIdent`s there are. -/
structure UseWorld where
  /-- `m_token` of the `UsesAllocator` at an address. -/
  tokens : Nat → Option Str
  /-- Every `UseIdent`. -/
  idents : List UseIdent

namespace UseWorld

/-- No allocators and no identifiers. -/
def start : UseWorld := ⟨fun _ => none, []⟩

/-- What is done to a `UsesAllocator`. -/
inductive SourceCall
  /-- A constructor, also where another allocator was before. -/
  | construct (address : Nat) (token : Str)
  /-- `operator=(UsesAllocator &)`. -/
  | assign (target source : Nat)
  /-- `operator=(UsesAllocator &&)`, with what the move leaves in the other token. -/
  | moveAssign (target source : Nat) (left : Str)
deriving DecidableEq

/-- What is done to a `UseIdent`. -/
inductive IdentCall
  | ofUses (uses : Nat)
  | copy (ident : Nat)
  | assign (target source : Nat)
  | setUse (ident uses : Nat)
  | withAttr (ident : Nat) (attributes : List (Str × Str))
  | withTick (ident : Nat) (tick : UInt32)
  | append (ident : Nat) (pair : Str × Str)
deriving DecidableEq

/-- A call of either kind. -/
abbrev Call := SourceCall ⊕ IdentCall

/-- A call on allocators; none if there is no such allocator. -/
def sourceCall (world : UseWorld) : SourceCall → Option UseWorld
  | .construct address token =>
      some { world with tokens := Function.update world.tokens address (some token) }
  | .assign target source => do
      let _ ← world.tokens target
      let token ← world.tokens source
      return { world with tokens := Function.update world.tokens target (some token) }
  | .moveAssign target source left => do
      let _ ← world.tokens target
      let token ← world.tokens source
      let moved := Function.update world.tokens target (some token)
      return { world with tokens := Function.update moved source (some left) }

/-- A new identifier. -/
def add (world : UseWorld) (use : UseIdent) : UseWorld :=
  { world with idents := world.idents ++ [use] }

/-- An identifier changed where it is. -/
def put (world : UseWorld) (ident : Nat) (use : UseIdent) : UseWorld :=
  { world with idents := world.idents.set ident use }

/-- A call on identifiers; none if there is no such identifier or allocator. -/
def identCall (world : UseWorld) : IdentCall → Option UseWorld
  | .ofUses uses => do
      let token ← world.tokens uses
      return world.add (.ofUses uses token)
  | .copy ident => do
      let use ← world.idents[ident]?
      return world.add use
  | .assign target source => do
      let _ ← world.idents[target]?
      let rhs ← world.idents[source]?
      return world.put target rhs
  | .setUse ident uses => do
      let use ← world.idents[ident]?
      let token ← world.tokens uses
      return world.put ident (use.setUse uses token)
  | .withAttr ident attributes => do
      let use ← world.idents[ident]?
      return world.add (use.withAttr attributes)
  | .withTick ident tick => do
      let use ← world.idents[ident]?
      return world.add (use.withTick tick)
  | .append ident pair => do
      let use ← world.idents[ident]?
      return world.put ident (use.append pair)

/-- A call. -/
def call (world : UseWorld) : Call → Option UseWorld
  | .inl request => world.sourceCall request
  | .inr request => world.identCall request

/-! ## What is asked of the hash -/

/-- Equal identifiers have equal hashes. -/
def HashRespectsEquals (world : UseWorld) : Prop :=
  ∀ left ∈ world.idents, ∀ right ∈ world.idents, left.equals right →
    ∀ hashing, left.hash hashing = right.hash hashing

/-- So do all identifiers that can be made of these. -/
def Consistent (world : UseWorld) : Prop :=
  ∀ further final, Runs.exec identCall world further = some final → final.HashRespectsEquals

/-- No allocator that an identifier was taken from gets another token. -/
def KeepsTokens (world : UseWorld) (request : Call) : Prop :=
  ∀ next, world.call request = some next →
    ∀ use ∈ world.idents, ∀ uses, use.source = some uses → next.tokens uses = world.tokens uses

/-- Every identifier has the token that its allocator has now. -/
def NamesCurrent (world : UseWorld) : Prop :=
  ∀ use ∈ world.idents, ∃ uses, use.source = some uses ∧ world.tokens uses = some use.sourceName

/-- Every identifier was taken from an allocator that there is. -/
def SourcesExist (world : UseWorld) : Prop :=
  ∀ use ∈ world.idents, ∃ uses token, use.source = some uses ∧ world.tokens uses = some token

variable {world next : UseWorld} {use : UseIdent}

/-! ## What a call on identifiers does -/

/-- An identifier that has its source and its name from one there is, or from an allocator. -/
def Derived (world : UseWorld) (use : UseIdent) : Prop :=
  (∃ old ∈ world.idents, use.source = old.source ∧ use.sourceName = old.sourceName) ∨
    ∃ uses, use.source = some uses ∧ world.tokens uses = some use.sourceName

theorem derived_of_mem (member : use ∈ world.idents) : world.Derived use :=
  .inl ⟨use, member, rfl, rfl⟩

/-- A call makes or changes one identifier. -/
theorem identCall_cases {request : IdentCall} (taken : world.identCall request = some next) :
    ∃ use, world.Derived use ∧ (next = world.add use ∨ ∃ ident, next = world.put ident use) := by
  cases request with
  | ofUses uses =>
      obtain ⟨token, found, made⟩ := Option.bind_eq_some_iff.mp taken
      exact ⟨.ofUses uses token, .inr ⟨uses, rfl, found⟩, .inl (Option.some.inj made).symm⟩
  | copy ident =>
      obtain ⟨use, found, made⟩ := Option.bind_eq_some_iff.mp taken
      exact ⟨use, derived_of_mem (List.mem_of_getElem? found), .inl (Option.some.inj made).symm⟩
  | assign target source =>
      obtain ⟨_, -, rest⟩ := Option.bind_eq_some_iff.mp taken
      obtain ⟨rhs, found, made⟩ := Option.bind_eq_some_iff.mp rest
      exact ⟨rhs, derived_of_mem (List.mem_of_getElem? found),
        .inr ⟨target, (Option.some.inj made).symm⟩⟩
  | setUse ident uses =>
      obtain ⟨use, -, rest⟩ := Option.bind_eq_some_iff.mp taken
      obtain ⟨token, found, made⟩ := Option.bind_eq_some_iff.mp rest
      exact ⟨use.setUse uses token, .inr ⟨uses, rfl, found⟩,
        .inr ⟨ident, (Option.some.inj made).symm⟩⟩
  | withAttr ident attributes =>
      obtain ⟨use, found, made⟩ := Option.bind_eq_some_iff.mp taken
      exact ⟨use.withAttr attributes, .inl ⟨use, List.mem_of_getElem? found, by simp, by simp⟩,
        .inl (Option.some.inj made).symm⟩
  | withTick ident tick =>
      obtain ⟨use, found, made⟩ := Option.bind_eq_some_iff.mp taken
      exact ⟨use.withTick tick, .inl ⟨use, List.mem_of_getElem? found, rfl, rfl⟩,
        .inl (Option.some.inj made).symm⟩
  | append ident pair =>
      obtain ⟨use, found, made⟩ := Option.bind_eq_some_iff.mp taken
      exact ⟨use.append pair, .inl ⟨use, List.mem_of_getElem? found, rfl, rfl⟩,
        .inr ⟨ident, (Option.some.inj made).symm⟩⟩

/-- A call on identifiers leaves the allocators alone, and derives what it makes. -/
theorem identCall_spec {request : IdentCall} (taken : world.identCall request = some next) :
    next.tokens = world.tokens ∧ ∀ use ∈ next.idents, world.Derived use := by
  obtain ⟨made, derived, rfl | ⟨ident, rfl⟩⟩ := identCall_cases taken
  · refine ⟨rfl, fun use member => ?_⟩
    rcases List.mem_append.mp member with old | new
    · exact derived_of_mem old
    · rwa [List.mem_singleton.mp new]
  · refine ⟨rfl, fun use member => ?_⟩
    rcases List.mem_or_eq_of_mem_set member with old | rfl
    · exact derived_of_mem old
    · exact derived

theorem isSome_update {tokens : Nat → Option Str} {uses : Nat} (there : (tokens uses).isSome)
    (address : Nat) (token : Str) :
    (Function.update tokens address (some token) uses).isSome := by
  by_cases same : uses = address
  · simp [same]
  · simpa [same] using there

/-- A call on allocators leaves the identifiers alone, and an allocator that there is stays. -/
theorem sourceCall_spec {request : SourceCall} (taken : world.sourceCall request = some next) :
    next.idents = world.idents ∧
      ∀ uses, (world.tokens uses).isSome → (next.tokens uses).isSome := by
  cases request with
  | construct address token =>
      obtain rfl := Option.some.inj taken
      exact ⟨rfl, fun uses there => isSome_update there address token⟩
  | assign target source =>
      obtain ⟨_, -, rest⟩ := Option.bind_eq_some_iff.mp taken
      obtain ⟨token, -, made⟩ := Option.bind_eq_some_iff.mp rest
      obtain rfl := Option.some.inj made
      exact ⟨rfl, fun uses there => isSome_update there target token⟩
  | moveAssign target source left =>
      obtain ⟨_, -, rest⟩ := Option.bind_eq_some_iff.mp taken
      obtain ⟨token, -, made⟩ := Option.bind_eq_some_iff.mp rest
      obtain rfl := Option.some.inj made
      exact ⟨rfl, fun uses there => isSome_update (isSome_update there target token) source left⟩

theorem sourcesExist_start : start.SourcesExist := by simp [SourcesExist, start]

theorem SourcesExist.derived (exist : world.SourcesExist) (derived : world.Derived use) :
    ∃ uses token, use.source = some uses ∧ world.tokens uses = some token := by
  rcases derived with ⟨old, member, source, -⟩ | ⟨uses, source, found⟩
  · rw [source]
    exact exist old member
  · exact ⟨uses, use.sourceName, source, found⟩

theorem SourcesExist.call (exist : world.SourcesExist) {request : Call}
    (taken : world.call request = some next) : next.SourcesExist := by
  intro use member
  cases request with
  | inl request =>
      obtain ⟨idents, stays⟩ := sourceCall_spec taken
      rw [idents] at member
      obtain ⟨uses, token, source, found⟩ := exist use member
      obtain ⟨token', found'⟩ := Option.isSome_iff_exists.mp (stays uses (by simp [found]))
      exact ⟨uses, token', source, found'⟩
  | inr request =>
      obtain ⟨tokens, derived⟩ := identCall_spec taken
      rw [tokens]
      exact exist.derived (derived use member)

/-! ## Names that are current -/

theorem NamesCurrent.identCall (current : world.NamesCurrent) {request : IdentCall}
    (taken : world.identCall request = some next) : next.NamesCurrent := by
  obtain ⟨tokens, derived⟩ := identCall_spec taken
  intro use member
  rw [tokens]
  rcases derived use member with ⟨old, before, source, name⟩ | made
  · rw [source, name]
    exact current old before
  · exact made

theorem NamesCurrent.hashRespectsEquals (current : world.NamesCurrent) :
    world.HashRespectsEquals := by
  intro left left_member right right_member same hashing
  refine UseIdent.hash_eq_of_equals same ?_ hashing
  obtain ⟨uses, source, token⟩ := current left left_member
  obtain ⟨uses', source', token'⟩ := current right right_member
  simp only [UseIdent.equals, Bool.and_eq_true, beq_iff_eq] at same
  have sources := same.1.1
  rw [source, source'] at sources
  obtain rfl := Option.some.inj sources
  exact Option.some.inj (token.symm.trans token')

/-- An identifier with another name than its allocator: copy it, and set its use again. -/
theorem Consistent.namesCurrent (consistent : world.Consistent) (exist : world.SourcesExist) :
    world.NamesCurrent := by
  intro use member
  obtain ⟨uses, token, source, found⟩ := exist use member
  refine ⟨uses, source, ?_⟩
  rw [found]
  by_contra stale
  have name : use.sourceName ≠ token := fun same => stale (congrArg some same.symm)
  obtain ⟨ident, bound, at_ident⟩ := List.getElem_of_mem member
  have copied : world.identCall (.copy ident) = some (world.add use) := by
    simp [identCall, bound, at_ident]
  have renamed : (world.add use).identCall (.setUse world.idents.length uses) =
      some ((world.add use).put world.idents.length (use.setUse uses token)) := by
    simp [identCall, add, found]
  have run : Runs.exec identCall world [.copy ident, .setUse world.idents.length uses] =
      some ((world.add use).put world.idents.length (use.setUse uses token)) := by
    rw [Runs.exec, copied, Option.bind_eq_bind, Option.bind_some, Runs.exec, renamed]
    rfl
  have equal : use.equals (use.setUse uses token) := by
    simp [UseIdent.equals, UseIdent.setUse, source]
  have idents : ((world.add use).put world.idents.length (use.setUse uses token)).idents =
      world.idents ++ [use.setUse uses token] := by
    simp [put, add]
  obtain ⟨hashing, different⟩ := UseIdent.exists_hash_ne equal name
  apply different
  apply consistent _ _ run use ?_ _ ?_ equal
  · exact idents ▸ List.mem_append_left _ member
  · exact idents ▸ List.mem_append_right _ (List.mem_singleton_self _)

theorem NamesCurrent.consistent (current : world.NamesCurrent) : world.Consistent := by
  intro further final run
  have kept : final.NamesCurrent :=
    Runs.exec_invariant_of_forall (fun _ _ _ current taken => current.identCall taken) current run
  exact kept.hashRespectsEquals

/-- With current names, a call leaves the names current precisely if it keeps the tokens. -/
theorem NamesCurrent.call_iff (current : world.NamesCurrent) (request : Call) :
    (∀ next, world.call request = some next → next.NamesCurrent) ↔
      world.KeepsTokens request := by
  cases request with
  | inr request =>
      refine iff_of_true (fun next taken => current.identCall taken) ?_
      intro next taken use _ uses _
      rw [(identCall_spec taken).1]
  | inl request =>
      constructor
      · intro after next taken use member uses source
        have idents := (sourceCall_spec taken).1
        obtain ⟨uses', source', token'⟩ := after next taken use (idents ▸ member)
        obtain ⟨uses'', source'', token''⟩ := current use member
        obtain rfl := Option.some.inj (source.symm.trans source')
        obtain rfl := Option.some.inj (source.symm.trans source'')
        rw [token', token'']
      · intro keeps next taken use member
        have idents := (sourceCall_spec taken).1
        rw [idents] at member
        obtain ⟨uses, source, token⟩ := current use member
        exact ⟨uses, source, (keeps next taken use member uses source).trans token⟩

/-- Equal identifiers have equal hashes throughout a run, whatever is made of them, precisely if no
allocator that an identifier was taken from gets another token. -/
theorem hash_respects_equals_iff (calls : List Call) :
    Runs.Along call
        (fun world request => ∀ next, world.call request = some next → next.Consistent)
        start calls ↔
      Runs.Along call KeepsTokens start calls := by
  have consistent_iff : ∀ world : UseWorld, world.SourcesExist →
      (world.Consistent ↔ world.NamesCurrent) := fun world exist =>
    ⟨fun consistent => consistent.namesCurrent exist, NamesCurrent.consistent⟩
  apply Runs.along_good_iff_along SourcesExist
  · intro world request next taken exist
    exact exist.call taken
  · intro world request exist consistent
    rw [← ((consistent_iff world exist).mp consistent).call_iff request]
    refine forall_congr' fun next => forall_congr' fun taken => ?_
    exact consistent_iff next (exist.call taken)
  · exact sourcesExist_start
  · exact NamesCurrent.consistent (by simp [NamesCurrent, start])

/-- The token of an allocator is replaced between the construction of two identifiers. -/
theorem hash_respects_equals_fails :
    ∃ final, Runs.exec call start
        [.inl (.construct 8 [97]), .inl (.construct 16 [98]), .inr (.ofUses 8),
          .inl (.assign 8 16), .inr (.ofUses 8)] = some final ∧ ¬final.HashRespectsEquals := by
  refine ⟨_, rfl, fun respects => ?_⟩
  have same := respects (.ofUses 8 [97]) (by decide) (.ofUses 8 [98]) (by decide) rfl
    (UseIdent.telling [97])
  exact absurd same (by decide)

end UseWorld

end Drumlin

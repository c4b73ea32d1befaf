import Mathlib
import Drumlin.Library.Runs
import Drumlin.StringList

/-!
# The work of a thread

`Work::Store` (work.h, work.cpp) keeps an object for each token of work, and the tokens in the order
in which they were set.  `setWork` and `getWork` hand out an `Access`, which shares the object.
-/

namespace Drumlin

namespace Work

/-! ## Tokens -/

/-- `boost::uuids::uuid`, its bytes. -/
abbrev Uuid := Vector UInt8 16

/-- `Work::Token`. -/
structure Token where
  /-- `m_target`. -/
  target : Str
  /-- `m_uuid`. -/
  uuid : Uuid
  /-- `m_part`. -/
  part : UInt64
deriving DecidableEq

/-- A hexadecimal digit. -/
def hexDigit (value : UInt8) : UInt8 := if value < 10 then 48 + value else 87 + value

/-- The text of a uuid: two digits for each byte, in groups with `-` between them. -/
def Uuid.toStr (uuid : Uuid) : Str :=
  uuid.toList.zipIdx.flatMap fun (byte, position) =>
    (if position ∈ [4, 6, 8, 10] then [45] else []) ++ [hexDigit (byte / 16), hexDigit (byte % 16)]

/-- `Token::toString`, with `:` between the parts. -/
def Token.toString (token : Token) : Str :=
  token.target ++ [58] ++ token.uuid.toStr ++ [58] ++ (Nat.repr token.part.toNat).toUTF8.toList

/-! ## The store -/

/-- `Work::Object`, as far as it is written. -/
structure Object where
  /-- `m_descriptors`. -/
  descriptors : StringList
deriving DecidableEq

/-- `Work::Access`. -/
structure Access where
  /-- `m_token`. -/
  token : Token
  /-- `m_object`, a shared pointer: the number of an object, or null. -/
  object : Option Nat
deriving DecidableEq

/-- `Work::Store` with the objects that were made and the accesses handed out. -/
structure Store where
  /-- `m_workMap`. -/
  workMap : List (Token × Nat)
  /-- `m_workQueue`. -/
  workQueue : List Token
  /-- Every `Object`, by number. -/
  objects : List Object
  /-- What callers hold. -/
  accesses : List Access
deriving DecidableEq

namespace Store

/-- A store without work. -/
def start : Store := ⟨[], [], [], []⟩

/-- The text of the exception of `setWork`. -/
def alreadySeen (token : Token) : Str :=
  "Already seen ".toUTF8.toList ++ token.toString ++ [46]

/-- The text of the exception of `getWork`. -/
def cannotFind (token : Token) : Str :=
  "Canot find ".toUTF8.toList ++ token.toString ++ [46]

/-- A new `Access`, to what the map holds for the token. -/
def hand (workToken : Token) (store : Store) : Store × Access :=
  let access : Access := ⟨workToken, store.workMap.lookup workToken⟩
  ({ store with accesses := store.accesses ++ [access] }, access)

/-- `Store::setWork`. -/
def setWork (workToken : Token) (store : Store) : Store × Except Str Access :=
  if (store.workMap.lookup workToken).isSome then
    (store, .error (alreadySeen workToken))
  else
    let pair := (workToken, store.objects.length)
    let stored :=
      { store with
        objects := store.objects ++ [Object.mk []]
        workMap := store.workMap ++ [pair]
        workQueue := store.workQueue ++ [workToken] }
    let (handed, access) := stored.hand workToken
    (handed, .ok access)

/-- `Store::getWork`. -/
def getWork (workToken : Token) (store : Store) : Store × Except Str Access :=
  if (store.workMap.lookup workToken).isNone then
    (store, .error (cannotFind workToken))
  else
    let (handed, access) := store.hand workToken
    (handed, .ok access)

/-- `Access::addDescriptor`; none if the access shares no object. -/
def addDescriptor (access : Access) (descriptor : Str) (store : Store) : Option Store :=
  access.object.map fun object =>
    { store with
      objects := store.objects.modify object fun shared =>
        { shared with descriptors := shared.descriptors ++ [descriptor] } }

/-- The descriptors seen through an access. -/
def seenThrough (access : Access) (store : Store) : Option StringList :=
  access.object.bind fun object => (store.objects[object]?).map Object.descriptors

/-- A call, the last one through one of the accesses held. -/
inductive Call
  | setWork (token : Token)
  | getWork (token : Token)
  | addDescriptor (held : Nat) (descriptor : Str)
deriving DecidableEq

/-- The store after one call. -/
def call (store : Store) : Call → Option Store
  | .setWork token => some (store.setWork token).1
  | .getWork token => some (store.getWork token).1
  | .addDescriptor held descriptor =>
      match store.accesses[held]? with
      | some access => store.addDescriptor access descriptor
      | none => some store

/-- The token that a call sets successfully. -/
def setBy (store : Store) : Call → List Token
  | .setWork token =>
      match (store.setWork token).2 with
      | .ok _ => [token]
      | .error _ => []
  | _ => []

/-- The descriptor that a call adds through an access to the token. -/
def addedBy (token : Token) (store : Store) : Call → StringList
  | .addDescriptor held descriptor =>
      match store.accesses[held]? with
      | some access => if access.token = token then [descriptor] else []
      | none => []
  | _ => []

end Store

/-! ## What the calls stand for -/

/-- What a store stands for. -/
structure Ledger where
  /-- The tokens set, in order. -/
  tokens : List Token
  /-- The token of each access handed out. -/
  held : List Token
  /-- The descriptors added, each with the token it was added for. -/
  added : List (Token × Str)

namespace Ledger

/-- Nothing is set. -/
def start : Ledger := ⟨[], [], []⟩

/-- The descriptors of a token. -/
def descriptors (ledger : Ledger) (token : Token) : StringList :=
  (ledger.added.filter fun entry => entry.1 == token).map Prod.snd

/-- The ledger after one call. -/
def call (ledger : Ledger) : Store.Call → Ledger
  | .setWork token =>
      if token ∈ ledger.tokens then ledger
      else { ledger with tokens := ledger.tokens ++ [token], held := ledger.held ++ [token] }
  | .getWork token =>
      if token ∈ ledger.tokens then { ledger with held := ledger.held ++ [token] } else ledger
  | .addDescriptor held descriptor =>
      match ledger.held[held]? with
      | some token => { ledger with added := ledger.added ++ [(token, descriptor)] }
      | none => ledger

/-- The store that stands for the ledger: the object of a token has the token's place. -/
def realize (ledger : Ledger) : Store where
  workMap := ledger.tokens.zipIdx
  workQueue := ledger.tokens
  objects := ledger.tokens.map fun token => ⟨ledger.descriptors token⟩
  accesses := ledger.held.map fun token => ⟨token, ledger.tokens.zipIdx.lookup token⟩

/-- No token is set twice, and what is held or added is for a token that was set. -/
structure Sound (ledger : Ledger) : Prop where
  nodup : ledger.tokens.Nodup
  held : ∀ token ∈ ledger.held, token ∈ ledger.tokens
  added : ∀ entry ∈ ledger.added, entry.1 ∈ ledger.tokens

theorem sound_start : start.Sound := ⟨by simp [start], by simp [start], by simp [start]⟩

theorem Sound.call {ledger : Ledger} (sound : ledger.Sound) (request : Store.Call) :
    (ledger.call request).Sound := by
  cases request with
  | setWork token =>
      rw [Ledger.call]
      split
      · exact sound
      · rename_i fresh
        refine ⟨?_, ?_, ?_⟩
        · simpa [List.nodup_append, sound.nodup] using fun other member =>
            ne_of_mem_of_not_mem member fresh
        · intro other member
          exact (List.mem_append.mp member).elim
            (fun before => List.mem_append_left _ (sound.held other before))
            (List.mem_append_right _)
        · exact fun entry member => List.mem_append_left _ (sound.added entry member)
  | getWork token =>
      rw [Ledger.call]
      split
      · rename_i present
        refine ⟨sound.nodup, fun other member => ?_, sound.added⟩
        rcases List.mem_append.mp member with before | new
        · exact sound.held other before
        · rwa [List.mem_singleton.mp new]
      · exact sound
  | addDescriptor held descriptor =>
      simp only [Ledger.call]
      split
      · rename_i token found
        refine ⟨sound.nodup, sound.held, fun entry member => ?_⟩
        rcases List.mem_append.mp member with before | new
        · exact sound.added entry before
        · rw [List.mem_singleton.mp new]
          exact sound.held token (List.mem_of_getElem? found)
      · exact sound

/-! ## Places in the queue -/

variable {tokens : List Token} {token : Token}

theorem isSome_lookup_zipIdx : (tokens.zipIdx.lookup token).isSome ↔ token ∈ tokens := by
  rw [List.lookup_isSome_iff]
  constructor
  · rintro ⟨⟨other, place⟩, member, same⟩
    rw [beq_iff_eq] at same
    subst same
    exact List.mem_of_getElem? (List.mem_zipIdx_iff_getElem?.mp member)
  · intro member
    obtain ⟨place, bound, found⟩ := List.getElem_of_mem member
    refine ⟨(token, place), List.mem_zipIdx_iff_getElem?.mpr ?_, by simp⟩
    rw [List.getElem?_eq_getElem bound, found]

theorem getElem?_of_lookup {place : Nat} (found : tokens.zipIdx.lookup token = some place) :
    tokens[place]? = some token := by
  obtain ⟨front, back, entries, -⟩ := List.lookup_eq_some_iff.mp found
  have member : (token, place) ∈ tokens.zipIdx := by simp [entries]
  exact List.mem_zipIdx_iff_getElem?.mp member

/-- A token keeps its place when another one is set. -/
theorem lookup_append (present : token ∈ tokens) (next : Token) :
    (tokens ++ [next]).zipIdx.lookup token = tokens.zipIdx.lookup token := by
  obtain ⟨place, found⟩ := Option.isSome_iff_exists.mp (isSome_lookup_zipIdx.mpr present)
  rw [List.zipIdx_append, List.lookup_append, found]
  rfl

/-! ## The store follows the ledger -/

variable {ledger : Ledger}

theorem descriptors_eq_nil (sound : ledger.Sound) (fresh : token ∉ ledger.tokens) :
    ledger.descriptors token = [] := by
  rw [descriptors, List.map_eq_nil_iff, List.filter_eq_nil_iff]
  intro entry member same
  rw [beq_iff_eq] at same
  exact fresh (same ▸ sound.added entry member)

theorem descriptors_append (token other : Token) (descriptor : Str) :
    descriptors { ledger with added := ledger.added ++ [(token, descriptor)] } other =
      if token = other then ledger.descriptors other ++ [descriptor]
      else ledger.descriptors other := by
  by_cases same : token = other <;> simp [descriptors, same]

/-- `setWork` of a token that was not set. -/
theorem setWork_realize_of_notMem (sound : ledger.Sound) (fresh : token ∉ ledger.tokens) :
    ledger.realize.setWork token =
      ((ledger.call (.setWork token)).realize, .ok ⟨token, some ledger.tokens.length⟩) := by
  have missing : ledger.tokens.zipIdx.lookup token = none := by
    rwa [← Option.not_isSome_iff_eq_none, isSome_lookup_zipIdx]
  have pairs : (ledger.tokens ++ [token]).zipIdx =
      ledger.tokens.zipIdx ++ [(token, ledger.tokens.length)] := by
    simp [List.zipIdx_append]
  have place : (ledger.tokens.zipIdx ++ [(token, ledger.tokens.length)]).lookup token =
      some ledger.tokens.length := by
    simp [List.lookup_append, missing]
  have accesses : ledger.held.map (fun other =>
        (⟨other, (ledger.tokens.zipIdx ++ [(token, ledger.tokens.length)]).lookup other⟩ :
          Access)) =
      ledger.held.map fun other => ⟨other, ledger.tokens.zipIdx.lookup other⟩ :=
    List.map_congr_left fun other member => by
      rw [← pairs, lookup_append (sound.held other member)]
  have after : (ledger.call (.setWork token)).realize =
      { workMap := ledger.tokens.zipIdx ++ [(token, ledger.tokens.length)]
        workQueue := ledger.tokens ++ [token]
        objects := ledger.realize.objects ++ [⟨ledger.descriptors token⟩]
        accesses := ledger.realize.accesses ++ [⟨token, some ledger.tokens.length⟩] } := by
    simp only [call, if_neg fresh, realize, pairs, List.map_append, List.map_cons, List.map_nil,
      place, accesses]
    rfl
  rw [after, descriptors_eq_nil sound fresh, Store.setWork, if_neg (by simp [realize, missing])]
  simp only [Store.hand, realize, List.length_map, place]

/-- `setWork` throws for a token that was set, and sets any other. -/
theorem setWork_realize (sound : ledger.Sound) (token : Token) :
    ledger.realize.setWork token =
      if token ∈ ledger.tokens then (ledger.realize, .error (Store.alreadySeen token))
      else ((ledger.call (.setWork token)).realize, .ok ⟨token, some ledger.tokens.length⟩) := by
  by_cases present : token ∈ ledger.tokens
  · have found : (ledger.realize.workMap.lookup token).isSome := isSome_lookup_zipIdx.mpr present
    rw [Store.setWork, if_pos found, if_pos present]
  · rw [if_neg present, setWork_realize_of_notMem sound present]

/-- `getWork` throws for a token that was not set. -/
theorem getWork_realize (token : Token) :
    ledger.realize.getWork token =
      if token ∈ ledger.tokens then
        ((ledger.call (.getWork token)).realize,
          .ok ⟨token, ledger.tokens.zipIdx.lookup token⟩)
      else (ledger.realize, .error (Store.cannotFind token)) := by
  by_cases present : token ∈ ledger.tokens
  · have found : (ledger.realize.workMap.lookup token).isNone ≠ true := by
      rw [ne_eq, Option.isNone_iff_eq_none]
      exact Option.isSome_iff_ne_none.mp (isSome_lookup_zipIdx.mpr present)
    rw [Store.getWork, if_neg found, if_pos present]
    simp [Store.hand, realize, call, present, descriptors]
  · have missing : (ledger.realize.workMap.lookup token).isNone = true := by
      rw [Option.isNone_iff_eq_none, ← Option.not_isSome_iff_eq_none]
      exact fun found => present (isSome_lookup_zipIdx.mp found)
    rw [Store.getWork, if_pos missing, if_neg present]

/-- A descriptor is added to the object at the place of the token of the access. -/
theorem addDescriptor_realize (sound : ledger.Sound) {held : Nat} {descriptor : Str}
    (found : ledger.held[held]? = some token) :
    ledger.realize.addDescriptor ⟨token, ledger.tokens.zipIdx.lookup token⟩ descriptor =
      some (ledger.call (.addDescriptor held descriptor)).realize := by
  have present := sound.held token (List.mem_of_getElem? found)
  obtain ⟨place, located⟩ := Option.isSome_iff_exists.mp (isSome_lookup_zipIdx.mpr present)
  have there := getElem?_of_lookup located
  have objects : (ledger.tokens.map fun token => (⟨ledger.descriptors token⟩ : Object)).modify
      place (fun shared => { shared with descriptors := shared.descriptors ++ [descriptor] }) =
      ledger.tokens.map fun other =>
        ⟨descriptors { ledger with added := ledger.added ++ [(token, descriptor)] } other⟩ := by
    refine List.ext_getElem? fun index => ?_
    rw [List.getElem?_modify, List.getElem?_map, List.getElem?_map]
    cases entry : ledger.tokens[index]? with
    | none => rfl
    | some other =>
        have same : place = index ↔ token = other := by
          constructor
          · rintro rfl
            exact Option.some.inj (there.symm.trans entry)
          · rintro rfl
            have bound := (List.getElem?_eq_some_iff.mp there).1
            exact (List.getElem?_inj bound sound.nodup).mp (there.trans entry.symm)
        simp only [Option.map_some, descriptors_append, same]
        split <;> simp_all
  simp only [Store.addDescriptor, located, Option.map_some, call, found]
  simp only [realize, objects]

theorem call_realize (sound : ledger.Sound) (request : Store.Call) :
    ledger.realize.call request = some (ledger.call request).realize := by
  cases request with
  | setWork token =>
      rw [Store.call, setWork_realize sound]
      split
      · rename_i present
        simp [call, present]
      · rfl
  | getWork token =>
      rw [Store.call, getWork_realize]
      split
      · rfl
      · rename_i missing
        simp [call, missing]
  | addDescriptor held descriptor =>
      cases found : ledger.held[held]? with
      | none => simp [Store.call, realize, call, found]
      | some token =>
          rw [← addDescriptor_realize sound found]
          simp [Store.call, realize, found]

/-! ## Runs -/

theorem setBy_realize (sound : ledger.Sound) (request : Store.Call) :
    (ledger.call request).tokens = ledger.tokens ++ ledger.realize.setBy request := by
  cases request with
  | setWork token =>
      rw [Store.setBy, setWork_realize sound, call]
      by_cases present : token ∈ ledger.tokens <;> simp [present]
  | getWork token =>
      rw [Store.setBy, List.append_nil, call]
      split <;> rfl
      all_goals simp
  | addDescriptor held descriptor =>
      simp only [Store.setBy, List.append_nil, call]
      split <;> rfl

theorem addedBy_realize (request : Store.Call) (token : Token) :
    (ledger.call request).descriptors token =
      ledger.descriptors token ++ ledger.realize.addedBy token request := by
  cases request with
  | setWork other =>
      rw [Store.addedBy, List.append_nil, call]
      split <;> rfl
      all_goals simp
  | getWork other =>
      rw [Store.addedBy, List.append_nil, call]
      split <;> rfl
      all_goals simp
  | addDescriptor held descriptor =>
      cases found : ledger.held[held]? with
      | none => simp [Store.addedBy, realize, call, found]
      | some other =>
          simp only [call, found, descriptors_append, Store.addedBy, realize, List.getElem?_map,
            Option.map_some]
          split <;> simp

theorem mem_tokens_call (request : Store.Call) :
    token ∈ (ledger.call request).tokens ↔ token ∈ ledger.tokens ∨ request = .setWork token := by
  cases request with
  | setWork other =>
      rw [call]
      split
      · rename_i present
        constructor
        · exact Or.inl
        · rintro (before | ⟨⟨⟩⟩)
          · exact before
          · exact present
      · simp [eq_comm]
  | getWork other =>
      rw [call]
      split <;> simp
  | addDescriptor held descriptor =>
      simp only [call]
      split <;> simp

theorem Sound.run (sound : ledger.Sound) (calls : List Store.Call) :
    (calls.foldl Ledger.call ledger).Sound :=
  @Runs.foldl_invariant _ _ Ledger.call Sound (fun _ request sound => sound.call request)
    ledger sound calls

theorem exec_realize (sound : ledger.Sound) (calls : List Store.Call) :
    Runs.exec Store.call ledger.realize calls = some (calls.foldl call ledger).realize := by
  induction calls generalizing ledger with
  | nil => rfl
  | cons request calls induction =>
      rw [Runs.exec, call_realize sound]
      exact induction (sound.call request)

/-- What grows with each call by what is observed of the call grows so in a run. -/
theorem observed_run {Output : Type*} (measure : Ledger → List Output)
    (observe : Store → Store.Call → List Output)
    (grows : ∀ ledger : Ledger, ledger.Sound → ∀ request,
      measure (ledger.call request) = measure ledger ++ observe ledger.realize request)
    (sound : ledger.Sound) (calls : List Store.Call) :
    measure (calls.foldl call ledger) =
      measure ledger ++ Runs.observed Store.call observe ledger.realize calls := by
  induction calls generalizing ledger with
  | nil => simp
  | cons request calls induction =>
      rw [Runs.observed_cons_of_step (call_realize sound request), ← List.append_assoc,
        ← grows ledger sound request]
      exact induction (sound.call request)

theorem tokens_run (sound : ledger.Sound) (calls : List Store.Call) :
    (calls.foldl call ledger).tokens =
      ledger.tokens ++ Runs.observed Store.call Store.setBy ledger.realize calls :=
  observed_run tokens Store.setBy (fun _ sound request => setBy_realize sound request) sound calls

theorem descriptors_run (sound : ledger.Sound) (token : Token) (calls : List Store.Call) :
    (calls.foldl call ledger).descriptors token =
      ledger.descriptors token ++
        Runs.observed Store.call (Store.addedBy token) ledger.realize calls :=
  observed_run (fun ledger => ledger.descriptors token) (Store.addedBy token)
    (fun _ _ request => addedBy_realize request token) sound calls

theorem mem_tokens_run (calls : List Store.Call) :
    token ∈ (calls.foldl call ledger).tokens ↔
      token ∈ ledger.tokens ∨ .setWork token ∈ calls := by
  induction calls generalizing ledger with
  | nil => simp
  | cons request calls induction =>
      rw [List.foldl_cons, induction, mem_tokens_call, List.mem_cons, or_assoc, eq_comm]

theorem seenThrough_realize (present : token ∈ ledger.tokens) :
    ledger.realize.seenThrough ⟨token, ledger.tokens.zipIdx.lookup token⟩ =
      some (ledger.descriptors token) := by
  obtain ⟨place, located⟩ := Option.isSome_iff_exists.mp (isSome_lookup_zipIdx.mpr present)
  simp [Store.seenThrough, located, realize, getElem?_of_lookup located]

end Ledger

/-- Map, queue, objects and accesses after every sequence of calls: the queue has the tokens set
successfully, each once and in order, and they are the keys of the map; `setWork` throws for the
tokens that were set and `getWork` for the others, which changes nothing; and the descriptors added
through any access to a token are seen in order through every access to it. -/
theorem store_consistent (calls : List Store.Call) :
    ∃ store, Runs.exec Store.call .start calls = some store ∧
      (store.workQueue = Runs.observed Store.call Store.setBy .start calls ∧
        store.workQueue.Nodup ∧ store.workMap.map Prod.fst = store.workQueue) ∧
      (∀ token,
        ((∃ text, (store.getWork token).2 = .error text) ↔ .setWork token ∉ calls) ∧
        ((∃ text, (store.setWork token).2 = .error text) ↔ .setWork token ∈ calls)) ∧
      (∀ token text, (store.getWork token).2 = .error text → (store.getWork token).1 = store) ∧
      (∀ token text, (store.setWork token).2 = .error text → (store.setWork token).1 = store) ∧
      ∀ access ∈ store.accesses, store.seenThrough access =
        some (Runs.observed Store.call (Store.addedBy access.token) .start calls) := by
  have start : Store.start = Ledger.start.realize := rfl
  have sound := Ledger.sound_start.run calls
  have member : ∀ token, token ∈ (calls.foldl Ledger.call .start).tokens ↔
      .setWork token ∈ calls := fun token => by
    simp [Ledger.mem_tokens_run, Ledger.start]
  refine ⟨(calls.foldl Ledger.call .start).realize, ?_, ⟨?_, sound.nodup, ?_⟩, ?_, ?_, ?_, ?_⟩
  · rw [start, Ledger.exec_realize Ledger.sound_start]
  · exact Ledger.tokens_run Ledger.sound_start calls
  · exact List.zipIdx_map_fst 0 _
  · intro token
    rw [Ledger.getWork_realize, Ledger.setWork_realize sound, ← member]
    constructor <;> split <;> simp_all
  · intro token text
    rw [Ledger.getWork_realize]
    split <;> simp
  · intro token text
    rw [Ledger.setWork_realize sound]
    split <;> simp
  · intro access held
    obtain ⟨token, member, rfl⟩ := List.mem_map.mp held
    rw [Ledger.seenThrough_realize (sound.held token member),
      Ledger.descriptors_run Ledger.sound_start]
    rfl

end Work

end Drumlin

import Drumlin.Application

/-!
# Selections of threads

A `ThreadAccessor` (thread_accessor.h, thread_accessor.cpp) collects threads of the application by
evaluating a predicate on every element of `m_threads`, dereferencing each of them.
-/

namespace Drumlin

/-- What the predicates of a selection read of the threads. -/
structure ThreadAttributes where
  /-- What `getTask` returns. -/
  task : Nat → String
  /-- What `getWorker` returns. -/
  worker : Nat → Nat
  /-- What `getType` of a worker returns, and its name. -/
  type : Nat → Nat × String

/-- `ThreadAccessor`, as far as the functions below use it. -/
structure ThreadAccessor where
  /-- `namedThreads`. -/
  namedThreads : List Nat
  /-- `typedThreads`. -/
  typedThreads : List Nat
  /-- `flagAllName`. -/
  flagAllName : Bool
  /-- `flagAllType`. -/
  flagAllType : Bool
  /-- `m_name`. -/
  name : String
  /-- `m_type`. -/
  type : String
  /-- `m_worker`. -/
  worker : Nat
  /-- `selection`. -/
  selection : List Nat
deriving DecidableEq, Repr

namespace ThreadAccessor

variable (attributes : ThreadAttributes) (app : Application)

/-- `ThreadAccessor::named`, with the threads it dereferences. -/
def named (name : String) (access : ThreadAccessor) : ThreadAccessor × List Nat :=
  let (copied, visited) := Cxx.copyIf (fun thread => attributes.task thread == name) app.threads
  ({ access with namedThreads := copied, flagAllName := false, name }, visited)

/-- `ThreadAccessor::typed`, with the threads it dereferences. -/
def typed (type : Nat × String) (access : ThreadAccessor) : ThreadAccessor × List Nat :=
  let (copied, visited) := Cxx.copyIf
    (fun thread => attributes.type (attributes.worker thread) == type) app.threads
  ({ access with typedThreads := copied, flagAllType := false, type := type.2 }, visited)

/-- `ThreadAccessor::getWorkered`, with the threads it dereferences. -/
def getWorkered (worker : Nat) (access : ThreadAccessor) : ThreadAccessor × List Nat :=
  let (copied, visited) := Cxx.copyIf (fun thread => attributes.worker thread == worker) app.threads
  ({ access with selection := copied, worker }, visited)

/-- `ThreadAccessor::clear`. -/
def clear (access : ThreadAccessor) : ThreadAccessor :=
  { access with
    selection := []
    flagAllName := false
    flagAllType := false
    name := ""
    type := ""
    worker := Cxx.nullptr }

/-- `ThreadAccessor::ThreadAccessor`. -/
def construct : ThreadAccessor where
  namedThreads := []
  typedThreads := []
  flagAllName := false
  flagAllType := false
  name := ""
  type := ""
  worker := Cxx.nullptr
  selection := []

/-- `ThreadAccessor::allNames`. -/
def allNames (b : Bool) (access : ThreadAccessor) : ThreadAccessor :=
  { access with flagAllName := b }

/-- `ThreadAccessor::allTypes`. -/
def allTypes (b : Bool) (access : ThreadAccessor) : ThreadAccessor :=
  { access with flagAllType := b }

/-- `ThreadAccessor::getNamed`. -/
def getNamed (access : ThreadAccessor) : ThreadAccessor :=
  { access with selection := if access.flagAllName then app.threads else access.namedThreads }

/-- `ThreadAccessor::getTyped`. -/
def getTyped (access : ThreadAccessor) : ThreadAccessor :=
  { access with selection := if access.flagAllType then app.threads else access.typedThreads }

/-- A selection that evaluates a predicate. -/
inductive Selection
  | named (name : String)
  | typed (type : Nat × String)
  | getWorkered (worker : Nat)
deriving DecidableEq, Repr

/-- Make a selection. -/
def select (access : ThreadAccessor) : Selection → ThreadAccessor × List Nat
  | .named name => access.named attributes app name
  | .typed type => access.typed attributes app type
  | .getWorkered worker => access.getWorkered attributes app worker

/-- Every selection dereferences every element of `m_threads`. -/
@[simp] theorem select_snd (access : ThreadAccessor) (selection : Selection) :
    (access.select attributes app selection).2 = app.threads := by
  cases selection <;> simp [select, named, typed, getWorkered]

end ThreadAccessor

end Drumlin

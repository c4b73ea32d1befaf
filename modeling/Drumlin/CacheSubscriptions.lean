import Drumlin.BufferCache
import Drumlin.Library.StdList

/-!
# The subscriptions of the cache

`m_subscriptions` is a `std::list`, and `unsubscribe` erases through iterators it stored while it
walked the list.  Here `publish` and `unsubscribe` are given with their loops, and shown to do what
the list operations of `BufferCache` say; what the list holds is then read off the calls made.
-/

namespace Drumlin

namespace Subscriptions

variable {Selector : Type} (accepts : Selector → UseIdent → Bool)

/-! ## The loops -/

/-- The body of the loop of `publish`: the counter, and the acceptors called so far, each with the
address of the buffer. -/
def publishOne (buffer : HeapBuffer) (progress : UInt32 × List (Nat × Nat))
    (sub : Selector × Nat) : UInt32 × List (Nat × Nat) :=
  if accepts sub.1 buffer.ident then
    (progress.1 + 1, progress.2 ++ [(sub.2, buffer.address)])
  else progress

/-- `BufferCache::publish`, with what it returns and the acceptors it calls.  The acceptors do not
call back. -/
def publish (buffer : HeapBuffer) (subscriptions : StdList (Selector × Nat)) :
    UInt32 × List (Nat × Nat) :=
  subscriptions.toList.foldl (publishOne accepts buffer) (0, [])

/-- The body of the first loop of `unsubscribe`: the counter, and the iterators stored so far. -/
def collectOne (acceptor : Nat) (progress : Int × List Nat) (node : Nat × (Selector × Nat)) :
    Int × List Nat :=
  if node.2.2 = acceptor then (progress.1 + 1, progress.2 ++ [node.1]) else progress

/-- `BufferCache::unsubscribe`, with what it returns.  Nothing is returned where the language leaves
an `erase` undefined. -/
def unsubscribe (acceptor : Nat) (subscriptions : StdList (Selector × Nat)) :
    Option (StdList (Selector × Nat) × Int) :=
  let (n, pairs) := subscriptions.nodes.foldl (collectOne acceptor) (0, [])
  (subscriptions.eraseEach pairs).map fun left => (left, n)

/-- The loop of `publish` calls the acceptors whose filter accepts the buffer, and counts them. -/
theorem foldl_publishOne (buffer : HeapBuffer) (subs : List (Selector × Nat)) (count : UInt32)
    (called : List (Nat × Nat)) :
    subs.foldl (publishOne accepts buffer) (count, called) =
      (count + UInt32.ofNat (subs.countP fun sub => accepts sub.1 buffer.ident),
        called ++ (subs.filter fun sub => accepts sub.1 buffer.ident).map fun sub =>
          (sub.2, buffer.address)) := by
  induction subs generalizing count called with
  | nil => simp
  | cons sub subs induction =>
      cases accepted : accepts sub.1 buffer.ident with
      | true => simp [publishOne, accepted, induction, UInt32.add_assoc, UInt32.add_comm 1]
      | false => simp [publishOne, accepted, induction]

/-- The first loop of `unsubscribe` collects the iterators to the subscriptions of the acceptor. -/
theorem foldl_collectOne (acceptor : Nat) (nodes : List (Nat × (Selector × Nat))) (count : Int)
    (pairs : List Nat) :
    nodes.foldl (collectOne acceptor) (count, pairs) =
      (count + nodes.countP (fun node => node.2.2 == acceptor),
        pairs ++ (nodes.filter fun node => node.2.2 == acceptor).map Prod.fst) := by
  induction nodes generalizing count pairs with
  | nil => simp
  | cons node nodes induction =>
      by_cases own : node.2.2 = acceptor
      · simp [collectOne, own, induction, add_assoc, add_comm (1 : Int)]
      · simp [collectOne, own, induction]

theorem publish_eq (buffer : HeapBuffer) (subscriptions : StdList (Selector × Nat)) :
    publish accepts buffer subscriptions =
      (UInt32.ofNat (subscriptions.toList.countP fun sub => accepts sub.1 buffer.ident),
        (subscriptions.toList.filter fun sub => accepts sub.1 buffer.ident).map fun sub =>
          (sub.2, buffer.address)) := by
  rw [publish, foldl_publishOne, UInt32.zero_add, List.nil_append]

/-- `unsubscribe` is defined in every state. -/
theorem unsubscribe_eq (acceptor : Nat) (subscriptions : StdList (Selector × Nat)) :
    ∃ left : StdList (Selector × Nat),
      unsubscribe acceptor subscriptions =
        some (left, ↑(subscriptions.toList.countP fun sub => sub.2 == acceptor)) ∧
      left.toList = subscriptions.toList.filter fun sub => sub.2 != acceptor := by
  obtain ⟨left, erased, kept⟩ := subscriptions.eraseEach_iterators fun sub => sub.2 == acceptor
  refine ⟨left, ?_, kept⟩
  have collected : subscriptions.nodes.foldl (collectOne acceptor) (0, []) =
      (↑(subscriptions.toList.countP fun sub => sub.2 == acceptor),
        subscriptions.iterators fun sub => sub.2 == acceptor) := by
    rw [foldl_collectOne, Int.zero_add, List.nil_append, StdList.toList, List.countP_map]
    rfl
  simp only [unsubscribe, collected, erased, Option.map_some]

/-- `publish` refines the operation on lists. -/
theorem publish_refines (buffer : HeapBuffer) {cache : BufferCache Selector}
    {subscriptions : StdList (Selector × Nat)}
    (same : subscriptions.toList = cache.subscriptions) :
    publish accepts buffer subscriptions =
      (UInt32.ofNat (cache.publish accepts buffer).length, cache.publish accepts buffer) := by
  rw [publish_eq, same]
  simp [BufferCache.publish, List.countP_eq_length_filter]

/-- `unsubscribe` refines the operation on lists. -/
theorem unsubscribe_refines (acceptor : Nat) {cache : BufferCache Selector}
    {subscriptions : StdList (Selector × Nat)}
    (same : subscriptions.toList = cache.subscriptions) :
    ∃ left : StdList (Selector × Nat),
      unsubscribe acceptor subscriptions = some (left, ↑(cache.unsubscribe acceptor).2) ∧
        left.toList = (cache.unsubscribe acceptor).1.subscriptions := by
  obtain ⟨left, removed, kept⟩ := unsubscribe_eq acceptor subscriptions
  rw [same] at removed kept
  exact ⟨left, removed, kept⟩

/-! ## The list and the calls made -/

/-- A call that reads or changes the subscriptions. -/
inductive Call (Selector : Type)
  | subscribe (sub : Selector × Nat)
  | unsubscribe (acceptor : Nat)
  | publish (buffer : HeapBuffer)

/-- The list after one call; none where the call is undefined. -/
def call (subscriptions : StdList (Selector × Nat)) :
    Call Selector → Option (StdList (Selector × Nat))
  | .subscribe sub => some (subscriptions.pushBack sub)
  | .unsubscribe acceptor => (unsubscribe acceptor subscriptions).map Prod.fst
  | .publish _ => some subscriptions

/-- The call removes the subscriptions of the acceptor. -/
def Call.removes (acceptor : Nat) : Call Selector → Bool
  | .unsubscribe other => other == acceptor
  | .subscribe _ | .publish _ => false

/-- The subscriptions made by the calls and not removed by a later one, in the order in which they
were made. -/
def standing : List (Call Selector) → List (Selector × Nat)
  | [] => []
  | .subscribe sub :: later =>
      if later.any (Call.removes sub.2) then standing later else sub :: standing later
  | .unsubscribe _ :: later | .publish _ :: later => standing later

/-- A run keeps the subscriptions it does not remove, and adds its own. -/
theorem exec_call (subscriptions : StdList (Selector × Nat)) (calls : List (Call Selector)) :
    ∃ final, Runs.exec call subscriptions calls = some final ∧
      final.toList = (subscriptions.toList.filter fun sub => !calls.any (Call.removes sub.2)) ++
        standing calls := by
  induction calls generalizing subscriptions with
  | nil => exact ⟨subscriptions, rfl, by simp [standing]⟩
  | cons request calls induction =>
      cases request with
      | subscribe sub =>
          obtain ⟨final, run, result⟩ := induction (subscriptions.pushBack sub)
          refine ⟨final, by simpa [Runs.exec, call] using run, ?_⟩
          cases removed : calls.any (Call.removes sub.2) with
          | true => simpa [standing, removed, Call.removes, List.filter_append] using result
          | false => simpa [standing, removed, Call.removes, List.filter_append] using result
      | unsubscribe acceptor =>
          obtain ⟨left, removed, kept⟩ := unsubscribe_eq acceptor subscriptions
          obtain ⟨final, run, result⟩ := induction left
          refine ⟨final, by simpa [Runs.exec, call, removed] using run, ?_⟩
          rw [result, kept, List.filter_filter, standing]
          apply congrArg (· ++ standing calls)
          apply List.filter_congr
          intro sub _
          rw [List.any_cons, Call.removes, Bool.not_or, Bool.and_comm, Bool.beq_comm]
          rfl
      | publish buffer =>
          obtain ⟨final, run, result⟩ := induction subscriptions
          exact ⟨final, by simpa [Runs.exec, call] using run,
            by simpa [standing, Call.removes] using result⟩

/-- After whatever calls, the code erases no node twice; `publish` calls once, in the order of
subscription, each acceptor whose filter accepts the buffer, and counts them; and `unsubscribe`
takes the subscriptions of its acceptor, leaves the others in order and counts what it took. -/
theorem publish_standing (history : List (Call Selector)) :
    ∃ subscriptions, Runs.exec call StdList.empty history = some subscriptions ∧
      (∀ buffer, publish accepts buffer subscriptions =
        (UInt32.ofNat ((standing history).countP fun sub => accepts sub.1 buffer.ident),
          ((standing history).filter fun sub => accepts sub.1 buffer.ident).map fun sub =>
            (sub.2, buffer.address))) ∧
      ∀ acceptor, ∃ left : StdList (Selector × Nat),
        unsubscribe acceptor subscriptions =
          some (left, ↑((standing history).countP fun sub => sub.2 == acceptor)) ∧
        left.toList = (standing history).filter fun sub => sub.2 != acceptor := by
  obtain ⟨subscriptions, run, listed⟩ := exec_call StdList.empty history
  simp only [StdList.toList_empty, List.filter_nil, List.nil_append] at listed
  refine ⟨subscriptions, run, fun buffer => ?_, fun acceptor => ?_⟩
  · rw [publish_eq, listed]
  · rw [← listed]
    exact unsubscribe_eq acceptor subscriptions

end Subscriptions

end Drumlin

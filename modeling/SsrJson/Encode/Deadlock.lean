import SsrJson.Encode.LockHeld
import SsrJson.Encode.OutputOwned
import SsrJson.Library.LockOrder

/-!
# Threads that encode at the same time

Threads of the locking build encode the nodes of one graph of objects that nothing changes. Each
thread makes calls one after the other, and the steps of the calls are interleaved in any order; a
thread that asks for a lock goes on when no thread holds it. In a graph without cycles a thread
only asks for descendants of what it holds, so the threads cannot wait for each other in a circle.
-/

namespace SsrJson.Encode

open EncodeMachine

/-- A call of a thread: the compiled variant, and where the call is. -/
structure EncodeThread where
  variant : Variant
  position : EncodeTransition

/-- The threads of a process; those without a call have not begun one yet. -/
abbrev Threads (Thread : Type*) := Thread → Option EncodeThread

/-- A thread waits for the lock of a container. -/
def Waits (thread : Option EncodeThread) (obj : ObjId) : Prop :=
  ∃ v s, thread = some ⟨v, .lock obj s⟩

/-- A thread holds the lock of a container. -/
def HoldsLock (thread : Option EncodeThread) (obj : ObjId) : Prop :=
  ∃ call, thread = some call ∧ 0 < call.position.state.locks obj

/-- A thread that can begin a call: it has made none, or one that ended, and holds no lock. -/
inductive Idle : Option EncodeThread → Prop where
  | fresh : Idle none
  | returned {v : Variant} {s : EncodeState} : (∀ obj, s.locks obj = 0) → Idle (some ⟨v, .ret s⟩)
  | failed {v : Variant} {s : EncodeState} : (∀ obj, s.locks obj = 0) →
      Idle (some ⟨v, .retNull s⟩)

/-- A step of one thread, given which locks are free. -/
inductive ThreadStep (heap : Heap) (free : ObjId → Prop) :
    Option EncodeThread → Option EncodeThread → Prop where
  | begin {thread : Option EncodeThread} {v : Variant} {call : EncodeCall} :
      Idle thread → v.locking = true → call.heap = heap →
      ThreadStep heap free thread (some ⟨v, .goto (initial call)⟩)
  | run {v : Variant} {s : EncodeState} :
      ThreadStep heap free (some ⟨v, .goto s⟩) (some ⟨v, step v s⟩)
  | acquire {v : Variant} {obj : ObjId} {s : EncodeState} :
      free obj → ThreadStep heap free (some ⟨v, .lock obj s⟩) (some ⟨v, .goto (s.lock obj)⟩)
  | answer {v : Variant} {s : EncodeState} :
      ThreadStep heap free (some ⟨v, .lookup s⟩) (some ⟨v, .goto s⟩)

section System

variable {Thread : Type*} [DecidableEq Thread]

/-- A step of the process is a step of one of its threads. -/
inductive ThreadsStep (heap : Heap) : Threads Thread → Threads Thread → Prop where
  | step {threads : Threads Thread} {thread : Thread} {next : Option EncodeThread} :
      ThreadStep heap (fun obj => ∀ other, ¬ HoldsLock (threads other) obj) (threads thread) next →
      ThreadsStep heap threads (Function.update threads thread next)

/-- What holds of every thread of the locking build at any time. -/
def ThreadOk (heap : Heap) (thread : Option EncodeThread) : Prop :=
  ∀ call, thread = some call → call.variant.locking = true ∧ call.position.state.heap = heap ∧
    HeldAt call.position ∧ ∃ root, PathAt ∅ root call.position

theorem ThreadStep.ok {heap : Heap} {free : ObjId → Prop} {thread next : Option EncodeThread}
    (h : ThreadStep heap free thread next) (hthread : ThreadOk heap thread) :
    ThreadOk heap next := by
  intro call hcall
  cases h with
  | @begin _ v start hidle hv hheap =>
      cases hcall
      exact ⟨hv, hheap, fun obj => rfl, start.obj, initial_path ∅ start⟩
  | @run v s =>
      cases hcall
      obtain ⟨hv, hheap, hheld, root, hpath⟩ := hthread _ rfl
      exact ⟨hv, step_heap.trans hheap, step_held hv hpath hheld, root, step_path hpath⟩
  | @acquire v obj s hfree =>
      cases hcall
      obtain ⟨hv, hheap, hheld, root, hpath⟩ := hthread _ rfl
      have hnext : EncodeMachine.next v (.lock obj s) = some (.goto (s.lock obj)) := rfl
      exact ⟨hv, hheap, next_held hv hnext hpath hheld, root, next_path hnext hpath⟩
  | @answer v s =>
      cases hcall
      obtain ⟨hv, hheap, hheld, hpath⟩ := hthread _ rfl
      exact ⟨hv, hheap, hheld, hpath⟩

theorem threads_ok {heap : Heap} {threads : Threads Thread}
    (h : Relation.ReflTransGen (ThreadsStep heap) (fun _ => none) threads) (thread : Thread) :
    ThreadOk heap (threads thread) := by
  induction h generalizing thread with
  | refl =>
      intro call hcall
      cases hcall
  | @tail threads next hreach hstep ih =>
      cases hstep with
      | @step stepped result hstep =>
          by_cases heq : thread = stepped
          · subst heq
            rw [Function.update_self]
            exact hstep.ok (ih thread)
          · rw [Function.update_of_ne heq]
            exact ih thread

/-- What is waited for descends from everything on the path. -/
theorem descends_of_chain {heap : Heap} {obj : ObjId} {ctns : List ObjId}
    (h : (obj :: ctns).IsChain fun inner outer => Link ∅ heap outer inner) :
    ∀ held ∈ ctns, Relation.TransGen (Child heap) held obj := by
  induction ctns generalizing obj with
  | nil => exact nofun
  | cons outer ctns ih =>
      obtain ⟨hlink, hchain⟩ := List.isChain_cons_cons.mp h
      have hchild := link_empty.mp hlink
      intro held hheld
      rcases List.mem_cons.mp hheld with rfl | hheld
      · exact .single hchild
      · exact (ih hchain held hheld).tail hchild

/-- A thread waits for a descendant of whatever it holds. -/
theorem waits_descends {heap : Heap} {thread : Option EncodeThread} (h : ThreadOk heap thread)
    {awaited held : ObjId} (hwaits : Waits thread awaited) (hholds : HoldsLock thread held) :
    Relation.TransGen (Child heap) held awaited := by
  obtain ⟨v, s, rfl⟩ := hwaits
  obtain ⟨call, hcall, hlocked⟩ := hholds
  cases hcall
  obtain ⟨hv, hheap, hheld, root, hpath, hopening⟩ := h _ rfl
  have hchain := hpath.chain
  rw [EncodeState.openCtns, hopening] at hchain
  have hheap : s.heap = heap := hheap
  rw [hheap] at hchain
  refine descends_of_chain hchain held ?_
  have hcount : s.locks held = ((lockables s.heap s.path).count held : Nat) := hheld held
  have hmem : held ∈ lockables s.heap s.path := by
    rw [← List.count_pos_iff]
    have hpos : (0 : Int) < s.locks held := hlocked
    omega
  exact (List.mem_filter.mp hmem).1

/-- In a finite graph of objects without cycles, no threads of the locking build that encode its
nodes wait for each other in a circle, and none waits for a lock of its own. -/
theorem encode_deadlock_free {heap : Heap}
    (hfinite : {obj | (heap obj).ctnType ≠ none}.Finite)
    (hacyclic : ∀ obj, ¬ Relation.TransGen (Child heap) obj obj) {threads : Threads Thread}
    (hreach : Relation.ReflTransGen (ThreadsStep heap) (fun _ => none) threads) :
    (∀ parties : Set Thread, ¬ WaitCycle (fun thread => Waits (threads thread))
      (fun thread => HoldsLock (threads thread)) parties) ∧
    ∀ thread obj, Waits (threads thread) obj → ¬ HoldsLock (threads thread) obj := by
  have hok := threads_ok hreach
  have hinner : ∀ outer inner, Child heap outer inner →
      outer ∈ {obj | (heap obj).ctnType ≠ none} := by
    intro outer inner hchild
    show (heap outer).ctnType ≠ none
    intro hscalar
    rw [Child] at hchild
    cases hobj : heap outer <;> rw [hobj] at hscalar hchild
    · cases hchild
    all_goals cases hscalar
  constructor
  · exact not_waitCycle (wellFounded_descendants hfinite hinner hacyclic)
      fun thread awaited held hwaits hholds => waits_descends (hok thread) hwaits hholds
  · intro thread obj hwaits hholds
    exact hacyclic obj (waits_descends (hok thread) hwaits hholds)

end System

/-! ## Two threads -/

/-- A list in a list. -/
def nestedLists : Heap := fun obj =>
  if obj = 0 then .list [1] else if obj = 1 then .list [2] else .scalar .none

/-- `dumps` of the outer list. -/
def outerCall : EncodeCall where
  obj := 0
  heap := nestedLists
  stack := fun _ => ⟨0, 0, .list⟩
  growth := fun _ => false
  insert := fun _ => false
  answers := fun _ => .raised

/-- The two threads after some transitions of each, one after the other. -/
def twoThreads (first second : Option EncodeThread) : Threads Bool
  | true => first
  | false => second

theorem update_true (first second next : Option EncodeThread) :
    Function.update (twoThreads first second) true next = twoThreads next second := by
  funext thread
  cases thread <;> rfl

theorem update_false (first second next : Option EncodeThread) :
    Function.update (twoThreads first second) false next = twoThreads first next := by
  funext thread
  cases thread <;> rfl

/-- The call behind some transitions. -/
def outerAfter (n : Nat) : Option EncodeThread :=
  some ⟨⟨false, .locking, 0⟩, follow ⟨false, .locking, 0⟩ n (.goto (initial outerCall))⟩

/-- One thread holds the lock of the outer list, the other waits for it. -/
theorem twoThreads_reached : Relation.ReflTransGen (ThreadsStep nestedLists) (fun _ => none)
    (twoThreads (outerAfter 2) (outerAfter 1)) := by
  have hstart : (fun _ => none : Threads Bool) = twoThreads none none := by
    funext thread
    cases thread <;> rfl
  rw [hstart]
  have hbegin : ∀ free, ThreadStep nestedLists free none (outerAfter 0) :=
    fun free => @ThreadStep.begin _ free none ⟨false, .locking, 0⟩ outerCall .fresh rfl rfl
  have hrun : ∀ free, ThreadStep nestedLists free (outerAfter 0) (outerAfter 1) :=
    fun free => .run
  have hacquire : ∀ free, free 0 → ThreadStep nestedLists free (outerAfter 1) (outerAfter 2) :=
    fun free hfree => .acquire hfree
  have hfree : ∀ other, ¬ HoldsLock (twoThreads (outerAfter 1) none other) 0 := by
    rintro (_ | _) ⟨call, hcall, hlocked⟩ <;> cases hcall
    exact absurd hlocked (by decide)
  have h1 := @ThreadsStep.step Bool _ nestedLists (twoThreads none none) true _ (hbegin _)
  have h2 := @ThreadsStep.step Bool _ nestedLists (twoThreads (outerAfter 0) none) true _ (hrun _)
  have h3 := @ThreadsStep.step Bool _ nestedLists (twoThreads (outerAfter 1) none) true _
    (hacquire _ hfree)
  have h4 := @ThreadsStep.step Bool _ nestedLists (twoThreads (outerAfter 2) none) false _
    (hbegin _)
  have h5 := @ThreadsStep.step Bool _ nestedLists (twoThreads (outerAfter 2) (outerAfter 0)) false
    _ (hrun _)
  rw [update_true] at h1 h2 h3
  rw [update_false] at h4 h5
  exact .tail (.tail (.tail (.tail (.single h1) h2) h3) h4) h5

/-- The items of the nested lists have larger numbers. -/
theorem nestedLists_child {outer inner : ObjId} (h : Child nestedLists outer inner) :
    outer < inner ∧ outer < 2 := by
  rw [Child, nestedLists] at h
  split at h
  · next houter =>
      obtain rfl := List.mem_singleton.mp h
      subst houter
      decide
  · split at h
    · next houter =>
        obtain rfl := List.mem_singleton.mp h
        subst houter
        decide
    · cases h

/-- The waiting thread waits for a lock the other one holds, and they are not in a circle. -/
theorem encode_deadlock_free_two :
    (Waits (twoThreads (outerAfter 2) (outerAfter 1) false) 0 ∧
      HoldsLock (twoThreads (outerAfter 2) (outerAfter 1) true) 0) ∧
    (∀ parties : Set Bool, ¬ WaitCycle
      (fun thread => Waits (twoThreads (outerAfter 2) (outerAfter 1) thread))
      (fun thread => HoldsLock (twoThreads (outerAfter 2) (outerAfter 1) thread)) parties) ∧
    ∀ thread obj, Waits (twoThreads (outerAfter 2) (outerAfter 1) thread) obj →
      ¬ HoldsLock (twoThreads (outerAfter 2) (outerAfter 1) thread) obj := by
  refine ⟨⟨⟨_, _, rfl⟩, ⟨_, rfl, by decide⟩⟩, encode_deadlock_free ?_ ?_ twoThreads_reached⟩
  · refine Set.Finite.subset (Set.finite_lt_nat 2) fun obj hobj => ?_
    have hctn : (nestedLists obj).ctnType ≠ none := hobj
    rw [nestedLists] at hctn
    split at hctn
    · next h0 => exact h0 ▸ Nat.two_pos
    · split at hctn
      · next h1 => exact h1 ▸ Nat.one_lt_two
      · exact absurd rfl hctn
  · intro obj hcycle
    have hlt : ∀ {a b}, Relation.TransGen (Child nestedLists) a b → a < b := by
      intro a b h
      induction h with
      | single h => exact (nestedLists_child h).1
      | tail _ h ih => exact Nat.lt_trans ih (nestedLists_child h).1
    exact Nat.lt_irrefl _ (hlt hcycle)

end SsrJson.Encode

import SsrJson.Encode.OutputOwned
import SsrJson.Encode.StackFrame

/-!
# Calls that run while another call encodes

While an array answers an attribute lookup other calls may begin, run and end. In the GIL build all
calls store their entries in one static stack; else the calls of a thread share one. A call that
enters a container at a depth where another one still has an entry overwrites it, and the other
call goes on in a wrong container. As long as this does not happen each call does what it does
alone.
-/

namespace SsrJson.Encode

open EncodeMachine

/-- A call of a thread: what it was given, and where it is. -/
structure StackedCall (Thread : Type*) where
  thread : Thread
  variant : Variant
  call : EncodeCall
  position : EncodeTransition

/-- The calls of a process, and the stacks their entries are stored in. -/
structure Process (Thread CallId : Type*) where
  calls : CallId → Option (StackedCall Thread)
  ctnStacks : Option Thread → Nat → CtnEntry

/-- `get_encode_obj_stack_buffer`: the one stack there is, or that of the thread. -/
def stackKey {Thread : Type*} (build : Build) (thread : Thread) : Option Thread :=
  if build = .gil then none else some thread

/-- The call is not over. -/
def EncodeTransition.Active : EncodeTransition → Prop
  | .goto _ | .lock _ _ | .lookup _ => True
  | .ret _ | .retNull _ | .nullSet _ | .undefinedFlag _ | .badItem _ => False

/-- Other code runs on the stack of the call: an array answers, or the call is over. -/
def EncodeTransition.Suspended : EncodeTransition → Prop
  | .goto _ | .lock _ _ => False
  | .lookup _ | .ret _ | .retNull _ | .nullSet _ | .undefinedFlag _ | .badItem _ => True

section System

variable {Thread CallId : Type*} [DecidableEq Thread] [DecidableEq CallId]

/-- The other calls that use the stack are suspended. -/
def OthersSuspended (build : Build) (x : Process Thread CallId) (id : CallId) (thread : Thread) :
    Prop :=
  ∀ other c, other ≠ id → x.calls other = some c →
    stackKey build c.thread = stackKey build thread → c.position.Suspended

/-- No call holds the lock that is waited for. -/
def LockFree (x : Process Thread CallId) (t : EncodeTransition) : Prop :=
  match t with
  | .lock obj _ => ∀ other c, x.calls other = some c → c.position.state.locks obj = 0
  | _ => True

/-- A call begins, or one goes on to its next transition, on the stack as it is then. -/
inductive ProcessStep (build : Build) (id : CallId) :
    Process Thread CallId → Process Thread CallId → Prop where
  | begin {x : Process Thread CallId} (c : StackedCall Thread) :
      x.calls id = none → c.variant.build = build → c.position = .goto (initial c.call) →
      OthersSuspended build x id c.thread →
      ProcessStep build id x { x with calls := Function.update x.calls id (some c) }
  | run {x : Process Thread CallId} {c : StackedCall Thread} {t : EncodeTransition} :
      x.calls id = some c → OthersSuspended build x id c.thread → LockFree x c.position →
      next c.variant (c.position.withStack (x.ctnStacks (stackKey build c.thread))) = some t →
      ProcessStep build id x
        { calls := Function.update x.calls id (some { c with position := t })
          ctnStacks := Function.update x.ctnStacks (stackKey build c.thread) t.state.stack }

/-- A call that enters a container does not do so at a smaller depth than that of another call
which has not ended and uses the same stack. -/
def KeepsEntries (build : Build) (id : CallId) (x : Process Thread CallId) : Prop :=
  ∀ c s, x.calls id = some c → c.position = .goto s → Enters c.variant s →
    ∀ other c', other ≠ id → x.calls other = some c' →
      stackKey build c'.thread = stackKey build c.thread → c'.position.Active →
      c'.position.state.depth ≤ s.depth

/-- Every call is where it gets alone, and what it has written is what it writes alone. -/
def AsAlone (build : Build) (x : Process Thread CallId) : Prop :=
  ∀ id c, x.calls id = some c → ∃ t, Reaches c.variant c.call t ∧
    Alike t (c.position.withStack (x.ctnStacks (stackKey build c.thread)))

/-- No entry is written that another call still goes back to. -/
def EntriesKept (build : Build) (id : CallId) (x y : Process Thread CallId) : Prop :=
  ∀ other c, other ≠ id → x.calls other = some c → c.position.Active →
    AgreeBelow c.position.state.depth (x.ctnStacks (stackKey build c.thread))
      (y.ctnStacks (stackKey build c.thread))

theorem withStack_self (t : EncodeTransition) : t.withStack t.state.stack = t := by
  cases t <;> rfl

/-- The entries under its depth are all a call depends on. -/
theorem Alike.restack {t t' : EncodeTransition} {stack stack' : Nat → CtnEntry}
    (h : Alike t (t'.withStack stack))
    (hagree : t'.Active → AgreeBelow t'.state.depth stack stack') :
    Alike t (t'.withStack stack') := by
  have hsame : ∀ {s s' : EncodeState}, SameCall s { s' with stack } →
      SameCall s { s' with stack := stack' } ∧ s.depth = s'.depth := by
    intro s s' h
    have hstack := congrArg (fun s : EncodeState => ({ s with stack := stack' } : EncodeState)) h
    exact ⟨hstack, (congrArg EncodeState.depth h).symm⟩
  have hbelow : ∀ {s s' : EncodeState}, SameCall s { s' with stack } →
      AgreeBelow s.depth s.stack stack → AgreeBelow s'.depth stack stack' →
      AgreeBelow s.depth s.stack stack' := by
    intro s s' h hs hs' i hpos hlt
    rw [hs i hpos hlt]
    rw [(hsame h).2] at hlt
    exact hs' i hpos hlt
  cases t' with
  | goto s' =>
      cases h with
      | goto h hs => exact .goto (hsame h).1 (hbelow h hs (hagree trivial))
  | lock obj s' =>
      cases h with
      | lock h hs => exact .lock (hsame h).1 (hbelow h hs (hagree trivial))
  | lookup s' =>
      cases h with
      | lookup h hs => exact .lookup (hsame h).1 (hbelow h hs (hagree trivial))
  | ret s' =>
      cases h with
      | ret h => exact .ret (hsame h).1
  | retNull s' =>
      cases h with
      | retNull h => exact .retNull (hsame h).1
  | nullSet s' =>
      cases h with
      | nullSet h => exact .nullSet (hsame h).1
  | undefinedFlag s' =>
      cases h with
      | undefinedFlag h => exact .undefinedFlag (hsame h).1
  | badItem s' =>
      cases h with
      | badItem h => exact .badItem (hsame h).1

theorem alike_initial (call : EncodeCall) (stack : Nat → CtnEntry) :
    Alike (.goto (initial call)) (.goto { initial call with stack }) :=
  .goto rfl fun i _ hlt => absurd hlt (Nat.not_lt_zero i)

/-- What a step leaves of the entries. -/
theorem ProcessStep.entriesKept {build : Build} {id : CallId} {x y : Process Thread CallId}
    (h : ProcessStep build id x y) (hkeeps : KeepsEntries build id x) :
    EntriesKept build id x y := by
  intro other c' hother hc' hactive i hpos hlt
  cases h with
  | begin c hnone hbuild hbegin hothers => rfl
  | @run c t hc hothers hfree hnext =>
      by_cases hkey : stackKey build c'.thread = stackKey build c.thread
      · show _ = Function.update x.ctnStacks _ t.state.stack _ i
        rw [hkey, Function.update_self]
        cases hposition : c.position with
        | goto s =>
            rw [hposition] at hnext
            cases hnext
            rcases step_stack (v := c.variant)
              (s := { s with stack := x.ctnStacks (stackKey build c.thread) }) hpos with
              h | ⟨henters, hi⟩
            · exact h.symm
            · have hle := hkeeps c s hc hposition henters other c' hother hc' hkey hactive
              exact absurd (hi ▸ hlt) (Nat.not_lt.mpr hle)
        | lock obj s | lookup s =>
            rw [hposition] at hnext
            cases hnext
            rfl
        | ret | retNull | nullSet | undefinedFlag | badItem =>
            rw [hposition] at hnext
            cases hnext
      · show _ = Function.update x.ctnStacks _ t.state.stack _ i
        rw [Function.update_of_ne hkey]

/-- A step of one call leaves each call where it gets alone. -/
theorem ProcessStep.asAlone {build : Build} {id : CallId} {x y : Process Thread CallId}
    (h : ProcessStep build id x y) (hkeeps : KeepsEntries build id x) (hx : AsAlone build x) :
    AsAlone build y := by
  have hkept := h.entriesKept hkeeps
  have hother : ∀ other c', other ≠ id → x.calls other = some c' → ∃ t,
      Reaches c'.variant c'.call t ∧
        Alike t (c'.position.withStack (y.ctnStacks (stackKey build c'.thread))) := by
    intro other c' hne hc'
    obtain ⟨t, hreach, halike⟩ := hx other c' hc'
    exact ⟨t, hreach, halike.restack (hkept other c' hne hc')⟩
  intro other c' hc'
  by_cases hne : other = id
  · subst hne
    cases h with
    | begin c hnone hbuild hbegin hothers =>
        have hc' : Function.update x.calls other (some c) other = some c' := hc'
        rw [Function.update_self] at hc'
        cases hc'
        refine ⟨.goto (initial c'.call), .refl, ?_⟩
        rw [hbegin]
        exact alike_initial c'.call _
    | @run c t hc hothers hfree hnext =>
        obtain ⟨alone, hreach, halike⟩ := hx other c hc
        obtain ⟨after, hafter, halike⟩ := next_alike halike hnext
        have hc' : Function.update x.calls other (some { c with position := t }) other =
          some c' := hc'
        rw [Function.update_self] at hc'
        cases hc'
        refine ⟨after, hreach.tail hafter, ?_⟩
        show Alike after (t.withStack (Function.update x.ctnStacks (stackKey build c.thread)
          t.state.stack (stackKey build c.thread)))
        rw [Function.update_self, withStack_self]
        exact halike
  · refine hother other c' hne ?_
    cases h with
    | begin c hnone hbuild hbegin hothers =>
        have hc' : Function.update x.calls id (some c) other = some c' := hc'
        rwa [Function.update_of_ne hne] at hc'
    | @run c t hc hothers hfree hnext =>
        have hc' : Function.update x.calls id (some { c with position := t }) other =
          some c' := hc'
        rwa [Function.update_of_ne hne] at hc'

/-- As long as no call enters a container at a depth where another one has an entry it goes back
to, no call writes such an entry, and every call is where it gets alone. -/
theorem calls_as_alone (build : Build) (ctnStacks : Option Thread → Nat → CtnEntry)
    {x : Process Thread CallId}
    (h : Relation.ReflTransGen
      (fun x y => ∃ id, ProcessStep build id x y ∧ KeepsEntries build id x)
      ⟨fun _ => none, ctnStacks⟩ x) :
    AsAlone build x ∧ ∀ id y, ProcessStep build id x y → KeepsEntries build id x →
      EntriesKept build id x y := by
  constructor
  · induction h with
    | refl =>
        intro id c hc
        cases hc
    | tail hreach hstep ih =>
        obtain ⟨id, hstep, hkeeps⟩ := hstep
        exact hstep.asAlone hkeeps ih
  · exact fun id y hstep hkeeps => hstep.entriesKept hkeeps

end System

/-! ## Two calls -/

/-- A call goes on by itself, without a lock. -/
def EncodeTransition.goesOn : EncodeTransition → Bool
  | .goto _ | .lookup _ => true
  | _ => false

/-- Transitions of one call as steps of something it is part of. -/
theorem related_follow {α : Type*} {R : α → α → Prop} {v : Variant} {x : EncodeTransition → α}
    (hstep : ∀ t t', t.goesOn = true → next v t = some t' → R (x t) (x t')) (n : Nat)
    {t : EncodeTransition} (hruns : ∀ k < n, (follow v k t).goesOn = true) :
    Relation.ReflTransGen R (x t) (x (follow v n t)) := by
  induction n generalizing t with
  | zero => exact .refl
  | succ n ih =>
      have hgoes := hruns 0 (Nat.succ_pos n)
      obtain ⟨t', hnext⟩ : ∃ t', next v t = some t' := by
        cases t with
        | goto | lookup => exact ⟨_, rfl⟩
        | lock | ret | retNull | nullSet | undefinedFlag | badItem => cases hgoes
      have hfollow : ∀ k, follow v (k + 1) t = follow v k t' := by
        intro k
        rw [follow, hnext]
      rw [hfollow]
      refine .head (hstep t t' hgoes hnext) (ih fun k hk => ?_)
      rw [← hfollow]
      exact hruns (k + 1) (Nat.succ_lt_succ hk)

/-- Lists in lists, one with an array, and some without. -/
def reentryHeap : Heap := fun obj =>
  if obj = 0 then .list [1, 3]
  else if obj = 1 then .list [2]
  else if obj = 2 then .scalar (.numpyArray true)
  else if obj = 4 then .list [5]
  else if obj = 5 then .list [3]
  else .scalar .none

/-- `dumps` of an object. -/
def reentryCall (obj : ObjId) : EncodeCall where
  obj := obj
  heap := reentryHeap
  stack := fun _ => ⟨0, 0, .list⟩
  growth := fun _ => false
  insert := fun _ => false
  answers := fun _ => .interface 2 true true 1 true [3]

/-- A call, and one that may have begun while its array answers. -/
def twoCalls (obj : ObjId) (outer : EncodeTransition) (nested : Option EncodeTransition)
    (stack : Nat → CtnEntry) : Process Unit Bool where
  calls
    | true => some ⟨(), ⟨false, .gil, 0⟩, reentryCall obj, outer⟩
    | false => nested.map fun t => ⟨(), ⟨false, .gil, 0⟩, reentryCall 4, t⟩
  ctnStacks
    | none => stack
    | some _ => fun _ => ⟨0, 0, .list⟩

variable {obj : ObjId} {outer t t' : EncodeTransition} {nested : Option EncodeTransition}
  {stack : Nat → CtnEntry}

theorem lockFree_of_goesOn {x : Process Unit Bool} (hgoes : t.goesOn = true) : LockFree x t := by
  cases t with
  | lock => cases hgoes
  | goto | lookup | ret | retNull | nullSet | undefinedFlag | badItem => trivial

theorem outer_step (hnext : next ⟨false, .gil, 0⟩ (t.withStack stack) = some t')
    (hgoes : t.goesOn = true) (hnested : ∀ t ∈ nested, t.Suspended) :
    ProcessStep .gil true (twoCalls obj t nested stack)
      (twoCalls obj t' nested t'.state.stack) := by
  have hothers : OthersSuspended .gil (twoCalls obj t nested stack) true () := by
    intro other c hother hc _
    cases other with
    | true => exact absurd rfl hother
    | false =>
        obtain ⟨t, ht, rfl⟩ := Option.map_eq_some_iff.mp hc
        exact hnested t ht
  have hrun := @ProcessStep.run Unit Bool _ _ .gil true (twoCalls obj t nested stack)
    ⟨(), ⟨false, .gil, 0⟩, reentryCall obj, t⟩ t' rfl hothers (lockFree_of_goesOn hgoes) hnext
  have hafter : twoCalls obj t' nested t'.state.stack =
      ⟨Function.update (twoCalls obj t nested stack).calls true
        (some ⟨(), ⟨false, .gil, 0⟩, reentryCall obj, t'⟩),
      Function.update (twoCalls obj t nested stack).ctnStacks none t'.state.stack⟩ := by
    refine congrArg₂ Process.mk ?_ ?_
    · funext id
      cases id <;> rfl
    · funext key
      cases key <;> rfl
  rw [hafter]
  exact hrun

theorem nested_step (hnext : next ⟨false, .gil, 0⟩ (t.withStack stack) = some t')
    (hgoes : t.goesOn = true) (houter : outer.Suspended) :
    ProcessStep .gil false (twoCalls obj outer (some t) stack)
      (twoCalls obj outer (some t') t'.state.stack) := by
  have hothers : OthersSuspended .gil (twoCalls obj outer (some t) stack) false () := by
    intro other c hother hc _
    cases other with
    | true =>
        cases hc
        exact houter
    | false => exact absurd rfl hother
  have hrun := @ProcessStep.run Unit Bool _ _ .gil false (twoCalls obj outer (some t) stack)
    ⟨(), ⟨false, .gil, 0⟩, reentryCall 4, t⟩ t' rfl hothers (lockFree_of_goesOn hgoes) hnext
  have hafter : twoCalls obj outer (some t') t'.state.stack =
      ⟨Function.update (twoCalls obj outer (some t) stack).calls false
        (some ⟨(), ⟨false, .gil, 0⟩, reentryCall 4, t'⟩),
      Function.update (twoCalls obj outer (some t) stack).ctnStacks none t'.state.stack⟩ := by
    refine congrArg₂ Process.mk ?_ ?_
    · funext id
      cases id <;> rfl
    · funext key
      cases key <;> rfl
  rw [hafter]
  exact hrun

theorem nested_begins (houter : outer.Suspended) :
    ProcessStep .gil false (twoCalls obj outer none stack)
      (twoCalls obj outer (some (.goto (initial (reentryCall 4)))) stack) := by
  have hothers : OthersSuspended .gil (twoCalls obj outer none stack) false () := by
    intro other c hother hc _
    cases other with
    | true =>
        cases hc
        exact houter
    | false => cases hc
  have hbegin := @ProcessStep.begin Unit Bool _ _ .gil false (twoCalls obj outer none stack)
    ⟨(), ⟨false, .gil, 0⟩, reentryCall 4, .goto (initial (reentryCall 4))⟩ rfl rfl rfl hothers
  have hafter : twoCalls obj outer (some (.goto (initial (reentryCall 4)))) stack =
      ⟨Function.update (twoCalls obj outer none stack).calls false
        (some ⟨(), ⟨false, .gil, 0⟩, reentryCall 4, .goto (initial (reentryCall 4))⟩),
      (twoCalls obj outer none stack).ctnStacks⟩ := by
    refine congrArg₂ Process.mk ?_ rfl
    funext id
    cases id <;> rfl
  rw [hafter]
  exact hbegin

theorem outer_begins (obj : ObjId) :
    ProcessStep .gil true (⟨fun _ => none, fun _ _ => ⟨0, 0, .list⟩⟩ : Process Unit Bool)
      (twoCalls obj (.goto (initial (reentryCall obj))) none fun _ => ⟨0, 0, .list⟩) := by
  have hbegin := @ProcessStep.begin Unit Bool _ _ .gil true
    ⟨fun _ => none, fun _ _ => ⟨0, 0, .list⟩⟩
    ⟨(), ⟨false, .gil, 0⟩, reentryCall obj, .goto (initial (reentryCall obj))⟩ rfl rfl rfl
    (fun _ _ _ hc => nomatch hc)
  have hafter : twoCalls obj (.goto (initial (reentryCall obj))) none (fun _ => ⟨0, 0, .list⟩) =
      ⟨Function.update (fun _ => none) true
        (some ⟨(), ⟨false, .gil, 0⟩, reentryCall obj, .goto (initial (reentryCall obj))⟩),
      fun _ _ => ⟨0, 0, .list⟩⟩ := by
    refine congrArg₂ Process.mk ?_ ?_
    · funext id
      cases id <;> rfl
    · funext key
      cases key <;> rfl
  rw [hafter]
  exact hbegin

/-- No entry is left for another call. -/
theorem outer_keeps (hnested : ∀ t ∈ nested, ¬ t.Active) :
    KeepsEntries .gil true (twoCalls obj t nested stack) := by
  intro c s _ _ _ other c' hother hc' _ hactive
  cases other with
  | true => exact absurd rfl hother
  | false =>
      obtain ⟨t, ht, rfl⟩ := Option.map_eq_some_iff.mp hc'
      exact absurd hactive (hnested t ht)

/-- A call with one open container has no entry. -/
theorem nested_keeps (houter : outer.state.depth ≤ 1) :
    KeepsEntries .gil false (twoCalls obj outer nested stack) := by
  intro c s _ _ henters other c' hother hc' _ _
  cases other with
  | true =>
      cases hc'
      exact Nat.le_trans houter henters.1
  | false => exact absurd rfl hother

/-- The call after some transitions, before the other one begins. -/
def enclosingAfter (obj : ObjId) (n : Nat) : EncodeTransition :=
  follow ⟨false, .gil, 0⟩ n (.goto (initial (reentryCall obj)))

/-- The other call after some transitions, begun when the first has come to its array. -/
def nestedAfter (obj : ObjId) (array n : Nat) : EncodeTransition :=
  follow ⟨false, .gil, 0⟩ n
    (.goto { initial (reentryCall 4) with stack := (enclosingAfter obj array).state.stack })

/-- The first call after some more transitions, when the other one has ended. -/
def enclosingResumed (obj : ObjId) (array n : Nat) : EncodeTransition :=
  follow ⟨false, .gil, 0⟩ n
    ((enclosingAfter obj array).withStack (nestedAfter obj array 5).state.stack)

/-- The first call comes to its array, the other one runs to its end, and the first one goes
on. -/
theorem twoCalls_run {R : Process Unit Bool → Process Unit Bool → Prop} {array rest : Nat}
    (hbegin : R ⟨fun _ => none, fun _ _ => ⟨0, 0, .list⟩⟩
      (twoCalls obj (enclosingAfter obj 0) none fun _ => ⟨0, 0, .list⟩))
    (houter : ∀ t t' nested stack, (∀ t ∈ nested, t.Suspended ∧ ¬ t.Active) → t.goesOn = true →
      next ⟨false, .gil, 0⟩ (t.withStack stack) = some t' →
      R (twoCalls obj t nested stack) (twoCalls obj t' nested t'.state.stack))
    (hnestedBegin : ∀ stack, R (twoCalls obj (enclosingAfter obj array) none stack)
      (twoCalls obj (enclosingAfter obj array) (some (.goto (initial (reentryCall 4)))) stack))
    (hnested : ∀ t t' stack, t.goesOn = true →
      next ⟨false, .gil, 0⟩ (t.withStack stack) = some t' →
      R (twoCalls obj (enclosingAfter obj array) (some t) stack)
        (twoCalls obj (enclosingAfter obj array) (some t') t'.state.stack))
    (hruns : ∀ k < array, (enclosingAfter obj k).goesOn = true)
    (harray : ∃ s, enclosingAfter obj array = .lookup s)
    (hnestedRuns : ∀ k < 5, (nestedAfter obj array k).goesOn = true)
    (hnestedEnd : ∃ s, nestedAfter obj array 5 = .ret s)
    (hrest : ∀ k < rest + 1, (enclosingResumed obj array k).goesOn = true) :
    Relation.ReflTransGen R ⟨fun _ => none, fun _ _ => ⟨0, 0, .list⟩⟩
      (twoCalls obj (enclosingResumed obj array (rest + 1)) (some (nestedAfter obj array 5))
        (enclosingResumed obj array (rest + 1)).state.stack) := by
  have hself : ∀ {t t'}, next ⟨false, .gil, 0⟩ t = some t' →
      next ⟨false, .gil, 0⟩ (t.withStack t.state.stack) = some t' := by
    intro t t' hnext
    rwa [withStack_self]
  have hnone : ∀ t ∈ (none : Option EncodeTransition), t.Suspended ∧ ¬ t.Active := by
    rintro _ ⟨⟩
  have hcomes := @related_follow _ R _ (fun t => twoCalls obj t none t.state.stack)
    (fun t t' hgoes hnext => houter t t' none _ hnone hgoes (hself hnext)) array
    (.goto (initial (reentryCall obj))) hruns
  have hfirst := hnested (.goto (initial (reentryCall 4))) (nestedAfter obj array 1)
    (enclosingAfter obj array).state.stack rfl rfl
  have hends := @related_follow _ R _
    (fun t => twoCalls obj (enclosingAfter obj array) (some t) t.state.stack)
    (fun t t' hgoes hnext => hnested t t' _ hgoes (hself hnext)) 4 (nestedAfter obj array 1)
    fun k hk => hnestedRuns (k + 1) (Nat.succ_lt_succ hk)
  obtain ⟨s, hs⟩ := harray
  obtain ⟨send, hend⟩ := hnestedEnd
  have hover : ∀ t ∈ some (nestedAfter obj array 5), t.Suspended ∧ ¬ t.Active := by
    rintro _ ⟨⟩
    rw [hend]
    exact ⟨trivial, id⟩
  have hfollow : ∀ k, enclosingResumed obj array (k + 1) =
      follow ⟨false, .gil, 0⟩ k (enclosingResumed obj array 1) := by
    intro k
    rw [enclosingResumed, enclosingResumed, hs]
    rfl
  have hresumes := houter (enclosingAfter obj array) (enclosingResumed obj array 1)
    (some (nestedAfter obj array 5)) (nestedAfter obj array 5).state.stack hover
    (by rw [hs]; rfl) (by rw [enclosingResumed, hs]; rfl)
  have hgoesOn := @related_follow _ R _
    (fun t => twoCalls obj t (some (nestedAfter obj array 5)) t.state.stack)
    (fun t t' hgoes hnext => houter t t' _ _ hover hgoes (hself hnext)) rest
    (enclosingResumed obj array 1) fun k hk => by
      rw [← hfollow]
      exact hrest (k + 1) (Nat.succ_lt_succ hk)
  rw [hfollow]
  exact ((((Relation.ReflTransGen.single hbegin).trans hcomes).tail (hnestedBegin _)).tail
    hfirst).trans (hends.trans (.head hresumes hgoesOn))

/-- While an array of the outer call answers, another call runs; the outer call has no entry. -/
theorem calls_as_alone_two :
    (∃ s, enclosingResumed 1 2 3 = .ret s ∧ s.out.tokens = [.closeArr, .array [3], .openArr]) ∧
    AsAlone .gil (twoCalls 1 (enclosingResumed 1 2 3) (some (nestedAfter 1 2 5))
      (enclosingResumed 1 2 3).state.stack) := by
  refine ⟨⟨_, rfl, by decide⟩, (calls_as_alone .gil (fun _ _ => ⟨0, 0, .list⟩) ?_).1⟩
  refine twoCalls_run ?_ ?_ ?_ ?_ (by decide) ⟨_, rfl⟩ (by decide) ⟨_, rfl⟩ (by decide)
  · exact ⟨true, outer_begins 1, fun c s hc => nomatch hc⟩
  · exact fun t t' nested stack hnested hgoes hnext =>
      ⟨true, outer_step hnext hgoes fun t ht => (hnested t ht).1,
        outer_keeps fun t ht => (hnested t ht).2⟩
  · exact fun stack => ⟨false, nested_begins trivial, nested_keeps (by decide)⟩
  · exact fun t t' stack hgoes hnext =>
      ⟨false, nested_step hnext hgoes trivial, nested_keeps (by decide)⟩

/-- The end of a call that runs alone is the only one. -/
theorem reaches_end_unique {v : Variant} {call : EncodeCall} {t t' : EncodeTransition}
    (h : Reaches v call t) (h' : Reaches v call t') (hend : next v t = none)
    (hend' : next v t' = none) : t = t' := by
  have hunique : Relator.RightUnique fun t t' => next v t = some t' :=
    fun _ _ _ h h' => Option.some.inj (h.symm.trans h')
  rcases Relation.ReflTransGen.total_of_right_unique hunique h h' with hpath | hpath
  · rcases Relation.ReflTransGen.cases_head hpath with rfl | ⟨after, hafter, -⟩
    · rfl
    · rw [hend] at hafter
      cases hafter
  · rcases Relation.ReflTransGen.cases_head hpath with rfl | ⟨after, hafter, -⟩
    · rfl
    · rw [hend'] at hafter
      cases hafter

/-- A call that runs while the array of a list in a list answers makes the outer call go on in a
list of its own: the last element of the outer list is not written. -/
theorem nested_call_redirects_outer :
    ¬ ∀ (build : Build) (ctnStacks : Option Unit → Nat → CtnEntry) (x : Process Unit Bool),
      Relation.ReflTransGen (fun x y => ∃ id, ProcessStep build id x y)
        ⟨fun _ => none, ctnStacks⟩ x → AsAlone build x := by
  intro h
  have hrun := @twoCalls_run 0 (fun x y => ∃ id, ProcessStep .gil id x y) 3 3
    ⟨true, outer_begins 0⟩
    (fun t t' nested stack hnested hgoes hnext =>
      ⟨true, outer_step hnext hgoes fun t ht => (hnested t ht).1⟩)
    (fun stack => ⟨false, nested_begins trivial⟩)
    (fun t t' stack hgoes hnext => ⟨false, nested_step hnext hgoes trivial⟩)
    (by decide) ⟨_, rfl⟩ (by decide) ⟨_, rfl⟩ (by decide)
  obtain ⟨t, hreach, halike⟩ := h _ _ _ hrun true _ rfl
  have hresumed : ∃ s, enclosingResumed 0 3 4 = .ret s ∧ s.out.tokens.length = 5 := ⟨_, rfl, by decide⟩
  have halone : ∃ s, enclosingAfter 0 8 = .ret s ∧ s.out.tokens.length = 7 := ⟨_, rfl, by decide⟩
  obtain ⟨s, hs, hlength⟩ := hresumed
  obtain ⟨s', hs', hlength'⟩ := halone
  have hreach' : Reaches ⟨false, .gil, 0⟩ (reentryCall 0) (.ret s') := by
    rw [← hs']
    exact reaches_follow 8 .refl
  have halike : Alike t ((enclosingResumed 0 3 4).withStack (enclosingResumed 0 3 4).state.stack) := halike
  rw [withStack_self, hs] at halike
  cases halike with
  | @ret s₀ _ hsame =>
      have heq := reaches_end_unique hreach hreach' rfl rfl
      cases heq
      have hout : s.out = ({ s' with stack := s.stack } : EncodeState).out :=
        congrArg EncodeState.out hsame
      have hout : s.out = s'.out := hout
      rw [hout, hlength'] at hlength
      cases hlength

end SsrJson.Encode

import SsrJson.Library.Run
import Mathlib.Logic.Function.Basic

/-!
# The chain of decoder buffers

`ssrjson_Decode` gives every call a `DecoderBuffers`. In the GIL build a call without hooks uses
one static instance; every other call takes a node of a doubly linked list hanging off the
thread's `DecoderTLSData`. `selectBuffer` and `releaseBuffer` are the two ends of
`ssrjson_Decode`; `Thread` adds the calls still active, so that a hook of a running call can
itself call `loads`.
-/

namespace SsrJson.Decode

/-- The two ways the extension is compiled: `SSRJSON_GIL_ENABLED` or not. -/
inductive Build where
  | gil
  | freeThreaded
  deriving DecidableEq, Repr

/-- Address of a heap block. -/
abbrev Addr := Nat

/-- `SSRJSON_OBJECT_HOOK_MAX_RECURSION`. -/
def objectHookMaxRecursion : Nat := 32

/-- `DecoderBufferLinkedList`: one `DecoderBuffers` and its place in the chain. -/
structure BufferNode (Buf : Type) where
  ctx : Buf
  prev : Option Addr
  next : Option Addr
  level : Nat

/-- What the pointer `decoder_context` points to. -/
inductive CtxRef where
  | default
  | node (address : Addr)
  deriving DecidableEq, Repr

/-- `DecoderTLSData`. -/
structure DecoderTlsData where
  curBuffer : Option Addr
  deriving DecidableEq, Repr

/-- The exceptions raised before a buffer is selected. -/
inductive SelectError where
  | memoryError
  | recursionError
  deriving DecidableEq, Repr

/-- The memory one thread's calls of `loads` share: the allocated nodes, `_DefaultDecoderCtx`,
and the thread-local pointer to the `DecoderTLSData`. -/
structure BufferMemory (Buf : Type) where
  nodes : Addr → Option (BufferNode Buf)
  defaultCtx : Buf
  tls : Option DecoderTlsData

/-- The answers of the allocators during one selection: whether `tls_get_decoder_data` can create
the `DecoderTLSData`, and what `ssrjson_aligned_alloc` returns, with the contents found there. -/
structure AllocAnswers (Buf : Type) where
  tlsData : Bool
  node : Option (Addr × Buf)

/-- How the first part of `ssrjson_Decode` ends. -/
inductive Selection (Buf : Type) where
  | selected (ctx : CtxRef) (memory : BufferMemory Buf)
  | failed (error : SelectError) (memory : BufferMemory Buf)
  /-- A NULL pointer or a freed node was dereferenced. -/
  | undefined

namespace BufferMemory

variable {Buf : Type}

/-- A thread that never called `loads`. -/
def initial (ctx : Buf) : BufferMemory Buf where
  nodes _ := none
  defaultCtx := ctx
  tls := none

/-- `tls_data_ptr->cur_buffer`, with NULL for a thread that has no `DecoderTLSData` yet. -/
def curBuffer (memory : BufferMemory Buf) : Option Addr :=
  memory.tls.bind DecoderTlsData.curBuffer

/-- `tls_data_ptr->cur_buffer = buffer`. -/
def setCurBuffer (memory : BufferMemory Buf) (buffer : Option Addr) : BufferMemory Buf :=
  { memory with tls := some ⟨buffer⟩ }

/-- Store a node. -/
def setNode (memory : BufferMemory Buf) (address : Addr) (node : BufferNode Buf) :
    BufferMemory Buf :=
  { memory with nodes := Function.update memory.nodes address (some node) }

/-- `ssrjson_aligned_free`; freeing what is not allocated is undefined. -/
def free (memory : BufferMemory Buf) (address : Addr) : Option (BufferMemory Buf) := do
  let _ ← memory.nodes address
  some { memory with nodes := Function.update memory.nodes address none }

/-- `address->next = next`. -/
def setNext (memory : BufferMemory Buf) (address : Addr) (next : Option Addr) :
    Option (BufferMemory Buf) := do
  let node ← memory.nodes address
  some (memory.setNode address { node with next := next })

/-- The `DecoderBuffers` behind a pointer. -/
def read (memory : BufferMemory Buf) : CtxRef → Option Buf
  | .default => some memory.defaultCtx
  | .node address => (memory.nodes address).map BufferNode.ctx

/-- Overwrite the `DecoderBuffers` behind a pointer. -/
def write (memory : BufferMemory Buf) (buf : Buf) : CtxRef → Option (BufferMemory Buf)
  | .default => some { memory with defaultCtx := buf }
  | .node address => do
      let node ← memory.nodes address
      some (memory.setNode address { node with ctx := buf })

/-- `tls_get_decoder_data`: NULL when the `DecoderTLSData` cannot be created. -/
def tlsGetDecoderData (memory : BufferMemory Buf) (available : Bool) :
    Option (DecoderTlsData × BufferMemory Buf) :=
  match memory.tls with
  | some data => some (data, memory)
  | none => if available then some (⟨none⟩, memory.setCurBuffer none) else none

end BufferMemory

variable {Buf Local Obj : Type}

/-- Whether a call takes a node of the chain. -/
def chained (build : Build) (hooked : Bool) : Bool :=
  build == .freeThreaded || hooked

/-- The chain part of the selection: `ssrjson_Decode` from `tls_get_decoder_data` on. -/
def selectNode (answers : AllocAnswers Buf) (memory : BufferMemory Buf) : Selection Buf :=
  match memory.tlsGetDecoderData answers.tlsData with
  | none => .undefined
  | some (data, memory) =>
    match data.curBuffer with
    | none =>
      -- this is the first ctx
      match answers.node with
      | none => .failed .memoryError memory
      | some (new, garbage) =>
        let memory := memory.setNode new ⟨garbage, none, none, 0⟩
        .selected (.node new) (memory.setCurBuffer (some new))
    | some old =>
      match memory.nodes old with
      | none => .undefined
      | some oldNode =>
        match oldNode.next with
        | some next =>
          -- use next: the context is the one of the old buffer
          .selected (.node old) (memory.setCurBuffer (some next))
        | none =>
          let newlevel := oldNode.level + 1
          if objectHookMaxRecursion ≤ newlevel then .failed .recursionError memory
          else
            match answers.node with
            | none => .failed .memoryError memory
            | some (new, garbage) =>
              let memory := memory.setNode new ⟨garbage, some old, none, newlevel⟩
              let memory := memory.setNode old { oldNode with next := some new }
              .selected (.node new) (memory.setCurBuffer (some new))

/-- The buffer selection of `ssrjson_Decode`. -/
def selectBuffer (build : Build) (hooked : Bool) (answers : AllocAnswers Buf)
    (memory : BufferMemory Buf) : Selection Buf :=
  if chained build hooked then selectNode answers memory else .selected .default memory

/-- Under `done:`, free a node kept behind the used one. -/
def freeNext (memory : BufferMemory Buf) (used : Addr) (usedNode : BufferNode Buf) :
    Option (BufferMemory Buf) :=
  match usedNode.next with
  | none => some memory
  | some next => do
      let memory ← memory.free next
      memory.setNext used none

/-- Under `done:`, make the node below the used one current. -/
def goBack (build : Build) (memory : BufferMemory Buf) (used : Addr) (goback : Option Addr) :
    Option (BufferMemory Buf) :=
  match build, goback with
  | .gil, none => do
      -- head buffer, free it
      let memory ← memory.free used
      some (memory.setCurBuffer none)
  | .gil, some goback => some (memory.setCurBuffer (some goback))
  | .freeThreaded, none => some memory
  | .freeThreaded, some goback => do
      let memory ← memory.free used
      (memory.setCurBuffer (some goback)).setNext goback none

/-- The part of `ssrjson_Decode` under `done:` for a call that took a node; `none` when it is
undefined. -/
def releaseBuffer (build : Build) (memory : BufferMemory Buf) : Option (BufferMemory Buf) := do
  let used ← memory.curBuffer
  let usedNode ← memory.nodes used
  let goback := usedNode.prev
  let memory ← freeNext memory used usedNode
  goBack build memory used goback

/-- What a decoder does next with its local variables and its `DecoderBuffers`. -/
inductive Action (Buf Local Obj : Type) where
  | compute (loc : Local) (buf : Buf)
  /-- Call a hook; the answer is what the hook returns, `none` when it raises. -/
  | callHook (argument : Obj) (resume : Option Obj → Local)
  /-- Return a value, or NULL with an exception set. -/
  | ret (value : Option Obj)

/-- The decoding code `ssrjson_Decode` dispatches to, one action at a time. It touches no
`DecoderBuffers` but the one passed to it. -/
abbrev Decoder (Buf Local Obj : Type) := Local → Buf → Action Buf Local Obj

/-- A call of `loads` that has not returned. -/
structure Frame (Buf Local Obj : Type) where
  hooked : Bool
  ctx : CtxRef
  loc : Local
  /-- How to go on when the hook now running returns. -/
  waiting : Option (Option Obj → Local)
  /-- History variable: the input and the buffer contents the call began with. -/
  origin : Local × Buf
  /-- History variable: the answers of the call's hooks so far. -/
  answers : List (Option Obj)

/-- One thread: the memory and the active calls, innermost first. -/
structure Thread (Buf Local Obj : Type) where
  memory : BufferMemory Buf
  frames : List (Frame Buf Local Obj)

/-- What can happen on the thread. -/
inductive Event (Buf Local Obj : Type) where
  /-- `loads` is called, by a running hook or with no call active. -/
  | call (hooked : Bool) (input : Local) (answers : AllocAnswers Buf)
  /-- The innermost call performs its next action. -/
  | act
  /-- The running hook returns. -/
  | hookReturns (answer : Option Obj)

namespace Thread

/-- A thread that never called `loads`. -/
def initial (ctx : Buf) : Thread Buf Local Obj where
  memory := .initial ctx
  frames := []

/-- Python code runs, so that `loads` can be called: no call is active or a hook is running. -/
def pythonRuns (thread : Thread Buf Local Obj) : Bool :=
  match thread.frames with
  | [] => true
  | frame :: _ => frame.waiting.isSome

/-- An allocator never returns a block still in use. -/
def answersFresh (memory : BufferMemory Buf) (answers : AllocAnswers Buf) : Bool :=
  match answers.node with
  | none => true
  | some (address, _) => (memory.nodes address).isNone

/-- Enter `loads`. A call that fails before it has a buffer returns at once. -/
def enter (build : Build) (hooked : Bool) (input : Local) (answers : AllocAnswers Buf)
    (thread : Thread Buf Local Obj) : Option (Thread Buf Local Obj) :=
  match selectBuffer build hooked answers thread.memory with
  | .undefined => none
  | .failed _ memory => some { thread with memory := memory }
  | .selected ctx memory => do
      let buf ← memory.read ctx
      some ⟨memory, ⟨hooked, ctx, input, none, (input, buf), []⟩ :: thread.frames⟩

/-- Leave `loads`: the buffer is released and the frame disappears. -/
def leave (build : Build) (frame : Frame Buf Local Obj) (rest : List (Frame Buf Local Obj))
    (memory : BufferMemory Buf) : Option (Thread Buf Local Obj) :=
  if chained build frame.hooked then do
    let memory ← releaseBuffer build memory
    some ⟨memory, rest⟩
  else some ⟨memory, rest⟩

/-- The next action of the innermost call. Only a call with hooks calls one. -/
def act (build : Build) (decoder : Decoder Buf Local Obj) (thread : Thread Buf Local Obj) :
    Option (Thread Buf Local Obj) :=
  match thread.frames with
  | [] => none
  | frame :: rest =>
    if frame.waiting.isSome then none
    else do
      let buf ← thread.memory.read frame.ctx
      match decoder frame.loc buf with
      | .compute loc buf => do
          let memory ← thread.memory.write buf frame.ctx
          some ⟨memory, { frame with loc := loc } :: rest⟩
      | .callHook _ resume =>
          if frame.hooked then
            some { thread with frames := { frame with waiting := some resume } :: rest }
          else none
      | .ret _ => leave build frame rest thread.memory

/-- The running hook returns `answer` to the innermost call. -/
def hookReturns (answer : Option Obj) (thread : Thread Buf Local Obj) :
    Option (Thread Buf Local Obj) :=
  match thread.frames with
  | [] => none
  | frame :: rest => do
      let resume ← frame.waiting
      let frame :=
        { frame with loc := resume answer, waiting := none, answers := frame.answers ++ [answer] }
      some { thread with frames := frame :: rest }

/-- One event on the thread. -/
def step (build : Build) (decoder : Decoder Buf Local Obj) :
    Event Buf Local Obj → Thread Buf Local Obj → Option (Thread Buf Local Obj)
  | .call hooked input answers, thread =>
      if thread.pythonRuns && answersFresh thread.memory answers then
        thread.enter build hooked input answers
      else none
  | .act, thread => thread.act build decoder
  | .hookReturns answer, thread => thread.hookReturns answer

end Thread

end SsrJson.Decode

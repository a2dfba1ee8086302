import SsrJson.Decode.BufferChain
import Mathlib.Data.List.Nodup

/-!
# Isolation of nested calls

`ChainInv` says that the nodes reachable from `cur_buffer` through `prev` are exactly the nodes of
the active calls, below them at most one node the free-threaded build keeps. As long as no entry
reuses a kept node the active calls own distinct buffers, and each of them computes what it would
compute alone (`SoloReach`).
-/

namespace SsrJson.Decode

variable {Buf Local Obj : Type}

/-! ## A call running alone -/

/-- `SoloReach decoder origin answers loc buf` says a call that begins in `origin` and runs alone
reaches the locals `loc` and the buffer contents `buf` when its hooks answer `answers`. -/
inductive SoloReach (decoder : Decoder Buf Local Obj) (origin : Local × Buf) :
    List (Option Obj) → Local → Buf → Prop where
  | start : SoloReach decoder origin [] origin.1 origin.2
  | compute {answers loc buf loc' buf'} :
      SoloReach decoder origin answers loc buf → decoder loc buf = .compute loc' buf' →
      SoloReach decoder origin answers loc' buf'
  | hook {answers loc buf argument resume} (answer : Option Obj) :
      SoloReach decoder origin answers loc buf → decoder loc buf = .callHook argument resume →
      SoloReach decoder origin (answers ++ [answer]) (resume answer) buf

/-- A call that begins in `origin` and runs alone returns `value` when its hooks answer
`answers`. -/
def SoloReturns (decoder : Decoder Buf Local Obj) (origin : Local × Buf)
    (answers : List (Option Obj)) (value : Option Obj) : Prop :=
  ∃ loc buf, SoloReach decoder origin answers loc buf ∧ decoder loc buf = .ret value

/-! ## Memory lemmas -/

namespace BufferMemory

variable {memory memory' : BufferMemory Buf}

@[simp] theorem curBuffer_setCurBuffer (memory : BufferMemory Buf) (buffer : Option Addr) :
    (memory.setCurBuffer buffer).curBuffer = buffer := rfl

@[simp] theorem nodes_setCurBuffer (memory : BufferMemory Buf) (buffer : Option Addr) :
    (memory.setCurBuffer buffer).nodes = memory.nodes := rfl

@[simp] theorem defaultCtx_setCurBuffer (memory : BufferMemory Buf) (buffer : Option Addr) :
    (memory.setCurBuffer buffer).defaultCtx = memory.defaultCtx := rfl

@[simp] theorem nodes_setNode (memory : BufferMemory Buf) (address : Addr)
    (node : BufferNode Buf) :
    (memory.setNode address node).nodes = Function.update memory.nodes address (some node) := rfl

@[simp] theorem curBuffer_setNode (memory : BufferMemory Buf) (address : Addr)
    (node : BufferNode Buf) : (memory.setNode address node).curBuffer = memory.curBuffer := rfl

@[simp] theorem defaultCtx_setNode (memory : BufferMemory Buf) (address : Addr)
    (node : BufferNode Buf) : (memory.setNode address node).defaultCtx = memory.defaultCtx := rfl

/-- Freeing an allocated block removes it and nothing else. -/
theorem free_of_allocated {address : Addr} {node : BufferNode Buf}
    (h : memory.nodes address = some node) :
    memory.free address =
      some { memory with nodes := Function.update memory.nodes address none } := by
  simp [free, h]

/-- Setting the `next` pointer of an allocated node. -/
theorem setNext_of_allocated {address : Addr} {next : Option Addr} {node : BufferNode Buf}
    (h : memory.nodes address = some node) :
    memory.setNext address next = some (memory.setNode address { node with next := next }) := by
  simp [setNext, h]

/-- `tls_get_decoder_data` returns the current buffer and changes no buffer. -/
theorem tlsGetDecoderData_spec {available : Bool} {data : DecoderTlsData}
    (h : memory.tlsGetDecoderData available = some (data, memory')) :
    data.curBuffer = memory.curBuffer ∧ memory'.curBuffer = memory.curBuffer ∧
      memory'.nodes = memory.nodes ∧ memory'.defaultCtx = memory.defaultCtx := by
  unfold tlsGetDecoderData at h
  cases htls : memory.tls with
  | some d =>
      simp only [htls, Option.some.injEq, Prod.mk.injEq] at h
      obtain ⟨rfl, rfl⟩ := h
      simp [curBuffer, htls]
  | none =>
      simp only [htls] at h
      split at h
      · obtain ⟨rfl, rfl⟩ := by simpa using h
        simp [curBuffer, setCurBuffer, htls]
      · cases h

end BufferMemory

/-! ## The chain -/

/-- `Linked nodes above addresses` says the addresses are allocated nodes linked through `prev`,
innermost first, with their distance from the head as `level`; `above` is the node the innermost
one must point back to. -/
def Linked (nodes : Addr → Option (BufferNode Buf)) : Option Addr → List Addr → Prop
  | _, [] => True
  | above, address :: rest =>
      ∃ node, nodes address = some node ∧ node.prev = rest.head? ∧ node.level = rest.length ∧
        (∀ b, above = some b → node.next = some b) ∧ Linked nodes (some address) rest

/-- The pointers of a node, without its buffers. -/
def BufferNode.links (node : BufferNode Buf) : Option Addr × Option Addr × Nat :=
  (node.prev, node.next, node.level)

namespace Linked

variable {nodes nodes' : Addr → Option (BufferNode Buf)}

/-- Only the pointers of the nodes on the chain matter. -/
theorem congr {above : Option Addr} {addresses : List Addr}
    (h : ∀ a ∈ addresses, (nodes' a).map BufferNode.links = (nodes a).map BufferNode.links)
    (hlinked : Linked nodes above addresses) : Linked nodes' above addresses := by
  induction addresses generalizing above with
  | nil => trivial
  | cons a rest ih =>
      obtain ⟨node, hnode, hprev, hlevel, hnext, hrest⟩ := hlinked
      have ha := h a List.mem_cons_self
      rw [hnode, Option.map_some, Option.map_eq_some_iff] at ha
      obtain ⟨node', hnode', hlinks⟩ := ha
      simp only [BufferNode.links, Prod.mk.injEq] at hlinks
      obtain ⟨hp, hn, hl⟩ := hlinks
      refine ⟨node', hnode', hp.trans hprev, hl.trans hlevel, fun b hb => hn.trans (hnext b hb), ?_⟩
      exact ih (fun b hb => h b (List.mem_cons_of_mem a hb)) hrest

/-- The chain is unchanged where the nodes are. -/
theorem congr_nodes {above : Option Addr} {addresses : List Addr}
    (h : ∀ a ∈ addresses, nodes' a = nodes a) (hlinked : Linked nodes above addresses) :
    Linked nodes' above addresses :=
  hlinked.congr fun a ha => by rw [h a ha]

/-- Forget which node points to the innermost one. -/
theorem weaken {above : Option Addr} {addresses : List Addr}
    (hlinked : Linked nodes above addresses) : Linked nodes none addresses := by
  cases addresses with
  | nil => trivial
  | cons a rest =>
      obtain ⟨node, hnode, hprev, hlevel, -, hrest⟩ := hlinked
      exact ⟨node, hnode, hprev, hlevel, nofun, hrest⟩

/-- Every node on the chain is allocated. -/
theorem allocated {above : Option Addr} {addresses : List Addr}
    (hlinked : Linked nodes above addresses) {a : Addr} (ha : a ∈ addresses) :
    ∃ node, nodes a = some node := by
  induction addresses generalizing above with
  | nil => cases ha
  | cons b rest ih =>
      obtain ⟨node, hnode, -, -, -, hrest⟩ := hlinked
      rcases List.mem_cons.mp ha with rfl | hmem
      · exact ⟨node, hnode⟩
      · exact ih hrest hmem

/-- A new node on top of a chain, with the `next` pointer of the node below set to it. -/
theorem push {above : Option Addr} {old new : Addr} {rest : List Addr} {oldNode : BufferNode Buf}
    {garbage : Buf} (hlinked : Linked nodes above (old :: rest)) (hold : nodes old = some oldNode)
    (hnodup : (old :: rest).Nodup) (hnew : nodes new = none) :
    Linked (Function.update (Function.update nodes new
        (some ⟨garbage, some old, none, oldNode.level + 1⟩)) old
        (some { oldNode with next := some new })) none (new :: old :: rest) := by
  obtain ⟨node, hnode, hprev, hlevel, -, hrest⟩ := hlinked
  obtain rfl : oldNode = node := Option.some.inj (hold.symm.trans hnode)
  have hne : new ≠ old := by
    rintro rfl
    simp [hold] at hnew
  refine ⟨_, by rw [Function.update_of_ne hne, Function.update_self], rfl, by simp [hlevel],
    nofun, { oldNode with next := some new }, by rw [Function.update_self], hprev, hlevel,
    (fun b hb => hb), ?_⟩
  apply hrest.congr_nodes
  intro a ha
  have haold : a ≠ old := fun h => (List.nodup_cons.mp hnodup).1 (h ▸ ha)
  have hanew : a ≠ new := by
    rintro rfl
    obtain ⟨n, hn⟩ := hrest.allocated ha
    simp [hn] at hnew
  rw [Function.update_of_ne haold, Function.update_of_ne hanew]

end Linked

/-! ## What selecting a buffer does -/

/-- The entry takes the branch of `ssrjson_Decode` that reuses `old_buffer->next`. -/
def ReusesNext (build : Build) (event : Event Buf Local Obj) (thread : Thread Buf Local Obj) :
    Prop :=
  match event with
  | .call hooked _ _ =>
      chained build hooked = true ∧ ∃ old node, thread.memory.curBuffer = some old ∧
        thread.memory.nodes old = some node ∧ node.next.isSome
  | _ => False

/-- Everything `selectNode` can do when it hands out a buffer. -/
theorem selectNode_selected {answers : AllocAnswers Buf} {memory memory' : BufferMemory Buf}
    {ctx : CtxRef} (h : selectNode answers memory = .selected ctx memory') :
    memory'.defaultCtx = memory.defaultCtx ∧
    ((∃ new garbage, answers.node = some (new, garbage) ∧ memory.curBuffer = none ∧
        ctx = .node new ∧ memory'.curBuffer = some new ∧
        memory'.nodes = Function.update memory.nodes new (some ⟨garbage, none, none, 0⟩)) ∨
      (∃ old oldNode next, memory.curBuffer = some old ∧ memory.nodes old = some oldNode ∧
        oldNode.next = some next ∧ ctx = .node old ∧ memory'.curBuffer = some next ∧
        memory'.nodes = memory.nodes) ∨
      (∃ new garbage old oldNode, answers.node = some (new, garbage) ∧
        memory.curBuffer = some old ∧ memory.nodes old = some oldNode ∧ oldNode.next = none ∧
        oldNode.level + 1 < objectHookMaxRecursion ∧
        ctx = .node new ∧ memory'.curBuffer = some new ∧
        memory'.nodes = Function.update (Function.update memory.nodes new
          (some ⟨garbage, some old, none, oldNode.level + 1⟩)) old
          (some { oldNode with next := some new }))) := by
  unfold selectNode at h
  cases htls : memory.tlsGetDecoderData answers.tlsData with
  | none => simp [htls] at h
  | some pair =>
      obtain ⟨data, m⟩ := pair
      obtain ⟨hdata, -, hnodes, hdefault⟩ := BufferMemory.tlsGetDecoderData_spec htls
      simp only [htls, hdata] at h
      cases hcur : memory.curBuffer with
      | none =>
          cases hnode : answers.node with
          | none => simp [hcur, hnode] at h
          | some new =>
              simp only [hcur, hnode, Selection.selected.injEq] at h
              obtain ⟨rfl, rfl⟩ := h
              exact ⟨hdefault, .inl ⟨new.1, new.2, by simp [hnodes]⟩⟩
      | some old =>
          simp only [hcur, hnodes] at h
          cases hold : memory.nodes old with
          | none => simp [hold] at h
          | some oldNode =>
              simp only [hold] at h
              cases hnext : oldNode.next with
              | some next =>
                  simp only [hnext, Selection.selected.injEq] at h
                  obtain ⟨rfl, rfl⟩ := h
                  exact ⟨hdefault, .inr (.inl ⟨old, oldNode, next, by simp [hold, hnext, hnodes]⟩)⟩
              | none =>
                  simp only [hnext] at h
                  split at h
                  · cases h
                  · rename_i hlevel
                    cases hnode : answers.node with
                    | none => simp [hnode] at h
                    | some new =>
                        simp only [hnode, Selection.selected.injEq] at h
                        obtain ⟨rfl, rfl⟩ := h
                        refine ⟨hdefault, .inr (.inr ⟨new.1, new.2, old, oldNode, ?_⟩)⟩
                        simp [hold, hnext, hnodes, Nat.lt_of_not_le hlevel]

/-- A failing selection leaves the buffers and `cur_buffer` alone. -/
theorem selectBuffer_failed {build : Build} {hooked : Bool} {answers : AllocAnswers Buf}
    {memory memory' : BufferMemory Buf} {error : SelectError}
    (h : selectBuffer build hooked answers memory = .failed error memory') :
    memory'.curBuffer = memory.curBuffer ∧ memory'.nodes = memory.nodes ∧
      memory'.defaultCtx = memory.defaultCtx := by
  unfold selectBuffer selectNode at h
  split at h
  · cases htls : memory.tlsGetDecoderData answers.tlsData with
    | none => simp [htls] at h
    | some pair =>
        obtain ⟨data, m⟩ := pair
        have hspec := BufferMemory.tlsGetDecoderData_spec htls
        simp only [htls] at h
        have hm : memory' = m := by
          repeat' split at h
          all_goals first | cases h; rfl | cases h
        exact hm ▸ hspec.2
  · cases h

/-! ## What releasing a buffer does -/

/-- The innermost node of a chain points to nothing, or, in the GIL build, to an allocated node
kept from an earlier nested call. -/
def Kept (build : Build) (nodes : Addr → Option (BufferNode Buf)) (chain : List Addr) : Prop :=
  ∀ address node next, chain.head? = some address → nodes address = some node →
    node.next = some next → build = .gil ∧ next ∉ chain ∧ ∃ nextNode, nodes next = some nextNode

/-- The chain left by the release of its innermost node. -/
def releasedChain : Build → Addr → List Addr → List Addr
  | .freeThreaded, address, [] => [address]
  | _, _, rest => rest

@[simp] theorem releasedChain_cons (build : Build) (address a : Addr) (rest : List Addr) :
    releasedChain build address (a :: rest) = a :: rest := by
  cases build <;> rfl

/-- A node kept behind the used one can be freed. -/
theorem freeNext_spec {build : Build} {memory : BufferMemory Buf} {used : Addr} {rest : List Addr}
    {usedNode : BufferNode Buf} (hused : memory.nodes used = some usedNode)
    (hkept : Kept build memory.nodes (used :: rest)) :
    ∃ memory', freeNext memory used usedNode = some memory' ∧
      memory'.curBuffer = memory.curBuffer ∧ memory'.defaultCtx = memory.defaultCtx ∧
      memory'.nodes used = some { usedNode with next := none } ∧
      ∀ b ∈ rest, b ≠ used → memory'.nodes b = memory.nodes b := by
  unfold freeNext
  cases hnext : usedNode.next with
  | none =>
      refine ⟨memory, rfl, rfl, rfl, ?_, fun b _ _ => rfl⟩
      rw [hused, ← hnext]
  | some next =>
      obtain ⟨-, hmem, nextNode, hnextNode⟩ := hkept used usedNode next rfl hused hnext
      have hne : used ≠ next := fun h => hmem (h ▸ List.mem_cons_self)
      have hused' : (Function.update memory.nodes next none) used = some usedNode := by
        rw [Function.update_of_ne hne, hused]
      simp only [BufferMemory.free_of_allocated hnextNode, Option.bind_eq_bind, Option.bind_some]
      refine ⟨_, BufferMemory.setNext_of_allocated hused', rfl, rfl, by simp, ?_⟩
      intro b hb hbused
      have hbnext : b ≠ next := fun h => hmem (h ▸ List.mem_cons_of_mem used hb)
      rw [BufferMemory.nodes_setNode, Function.update_of_ne hbused]
      exact Function.update_of_ne hbnext _ _

/-- Releasing the innermost node of a chain succeeds, makes the node below it current again and
leaves the buffers of the other nodes alone. -/
theorem releaseBuffer_spec {build : Build} {memory : BufferMemory Buf} {used : Addr}
    {rest : List Addr} (hcur : memory.curBuffer = some used)
    (hlinked : Linked memory.nodes none (used :: rest)) (hnodup : (used :: rest).Nodup)
    (hkept : Kept build memory.nodes (used :: rest)) :
    ∃ memory', releaseBuffer build memory = some memory' ∧
      memory'.curBuffer = (releasedChain build used rest).head? ∧
      memory'.defaultCtx = memory.defaultCtx ∧
      Linked memory'.nodes none (releasedChain build used rest) ∧
      Kept build memory'.nodes (releasedChain build used rest) ∧
      ∀ b ∈ rest, (memory'.nodes b).map BufferNode.ctx = (memory.nodes b).map BufferNode.ctx := by
  obtain ⟨usedNode, hused, hprev, hlevel, -, hrest⟩ := hlinked
  obtain ⟨memory₁, hfree, hcur₁, hdefault₁, hused₁, hrest₁⟩ := freeNext_spec hused hkept
  obtain ⟨husedrest, hnodup'⟩ := List.nodup_cons.mp hnodup
  have hne : ∀ b ∈ rest, b ≠ used := fun b hb h => husedrest (h ▸ hb)
  have hsame : ∀ b ∈ rest, memory₁.nodes b = memory.nodes b := fun b hb => hrest₁ b hb (hne b hb)
  have hlinked₁ : Linked memory₁.nodes (some used) rest := hrest.congr_nodes hsame
  unfold releaseBuffer
  simp only [hcur, hused, hprev, hfree, Option.bind_eq_bind, Option.bind_some]
  cases rest with
  | nil =>
      cases build with
      | gil =>
          simp only [List.head?_nil, goBack, BufferMemory.free_of_allocated hused₁,
            Option.bind_eq_bind, Option.bind_some]
          refine ⟨_, rfl, rfl, hdefault₁, trivial, ?_, fun b hb => by cases hb⟩
          intro a node next ha
          cases ha
      | freeThreaded =>
          simp only [List.head?_nil, goBack]
          refine ⟨memory₁, rfl, hcur₁.trans hcur, hdefault₁, ⟨_, hused₁, hprev, hlevel, nofun,
            trivial⟩, ?_, fun b hb => by cases hb⟩
          intro a node next ha hnode hnext
          obtain rfl : used = a := by simpa [releasedChain] using ha
          obtain rfl := Option.some.inj (hused₁.symm.trans hnode)
          cases hnext
  | cons goback rest =>
      cases build with
      | gil =>
          simp only [List.head?_cons, goBack]
          refine ⟨_, rfl, rfl, hdefault₁, hlinked₁.weaken, ?_, fun b hb => by
            rw [BufferMemory.nodes_setCurBuffer, hsame b hb]⟩
          -- the node just released is the one kept behind the new head
          intro a node next ha hnode hnext
          obtain rfl : goback = a := by simpa [releasedChain] using ha
          obtain ⟨node', hnode', -, -, habove, -⟩ := hlinked₁
          obtain rfl := Option.some.inj (hnode'.symm.trans hnode)
          obtain rfl : used = next := Option.some.inj ((habove used rfl).symm.trans hnext)
          exact ⟨rfl, husedrest, _, hused₁⟩
      | freeThreaded =>
          obtain ⟨gobackNode, hgoback, hgprev, hglevel, -, hgrest⟩ := hlinked₁
          have hgu : goback ≠ used := hne goback List.mem_cons_self
          have hgoback₂ : (Function.update memory₁.nodes used none) goback = some gobackNode := by
            rw [Function.update_of_ne hgu, hgoback]
          simp only [List.head?_cons, goBack, BufferMemory.free_of_allocated hused₁,
            Option.bind_eq_bind, Option.bind_some]
          refine ⟨_, BufferMemory.setNext_of_allocated hgoback₂, rfl, hdefault₁, ?_, ?_, ?_⟩
          · refine ⟨{ gobackNode with next := none }, by simp, hgprev, hglevel, nofun, ?_⟩
            apply hgrest.congr_nodes
            intro b hb
            have hbg : b ≠ goback := fun h => (List.nodup_cons.mp hnodup').1 (h ▸ hb)
            have hbu : b ≠ used := hne b (List.mem_cons_of_mem goback hb)
            simp [Function.update_of_ne hbg, Function.update_of_ne hbu]
          · intro a node next ha hnode hnext
            obtain rfl : goback = a := by simpa [releasedChain] using ha
            rw [BufferMemory.nodes_setNode, Function.update_self] at hnode
            obtain rfl := Option.some.inj hnode
            cases hnext
          · intro b hb
            rw [← hsame b hb]
            by_cases hbg : b = goback
            · subst hbg
              simp [hgoback]
            · simp [Function.update_of_ne hbg, Function.update_of_ne (hne b hb)]

/-! ## The invariant -/

/-- The nodes of the active calls are `chain`, innermost first; `base` is what the free-threaded
build keeps below them. -/
structure ChainInv (build : Build) (memory : BufferMemory Buf) (chain base : List Addr) :
    Prop where
  base_gil : build = .gil → base = []
  cur : memory.curBuffer = (chain ++ base).head?
  linked : Linked memory.nodes none (chain ++ base)
  nodup : (chain ++ base).Nodup
  kept : Kept build memory.nodes (chain ++ base)

/-- The calls that took a node. -/
def chainedFrames (build : Build) (frames : List (Frame Buf Local Obj)) :
    List (Frame Buf Local Obj) :=
  frames.filter fun frame => chained build frame.hooked

/-- A call whose buffer holds `buf` is where it would be if it ran alone. -/
def Frame.OnSoloPath (decoder : Decoder Buf Local Obj) (frame : Frame Buf Local Obj)
    (buf : Buf) : Prop :=
  SoloReach decoder frame.origin frame.answers frame.loc buf ∧
    ∀ resume, frame.waiting = some resume →
      ∃ argument, decoder frame.loc buf = .callHook argument resume

/-- The active calls own distinct contexts and each is on its own solo path. -/
structure FramesInv (build : Build) (decoder : Decoder Buf Local Obj)
    (thread : Thread Buf Local Obj) (chain : List Addr) : Prop where
  contexts : (chainedFrames build thread.frames).map Frame.ctx = chain.map CtxRef.node
  unchained : ∀ frame ∈ thread.frames, chained build frame.hooked = false → frame.ctx = .default
  waiting : ∀ frame ∈ thread.frames.tail, frame.waiting.isSome
  hooked : ∀ frame ∈ thread.frames, frame.waiting.isSome → frame.hooked
  solo : ∀ frame ∈ thread.frames, ∃ buf, thread.memory.read frame.ctx = some buf ∧
    frame.OnSoloPath decoder buf

/-- The invariant of a thread. -/
def ThreadInv (build : Build) (decoder : Decoder Buf Local Obj) (thread : Thread Buf Local Obj) :
    Prop :=
  ∃ chain base, ChainInv build thread.memory chain base ∧ FramesInv build decoder thread chain

@[simp] theorem chained_of_hooked (build : Build) : chained build true = true := by
  cases build <;> rfl

@[simp] theorem chainedFrames_cons (build : Build) (frame : Frame Buf Local Obj)
    (frames : List (Frame Buf Local Obj)) :
    chainedFrames build (frame :: frames) =
      if chained build frame.hooked then frame :: chainedFrames build frames
      else chainedFrames build frames := by
  simp [chainedFrames, List.filter_cons]

namespace FramesInv

variable {build : Build} {decoder : Decoder Buf Local Obj} {thread : Thread Buf Local Obj}
  {chain : List Addr}

/-- Below a frame that does not wait every call waits for a hook, so it took a node. -/
theorem chainedFrames_tail (h : FramesInv build decoder thread chain) :
    chainedFrames build thread.frames.tail = thread.frames.tail := by
  apply List.filter_eq_self.mpr
  intro frame hframe
  have hhooked := h.hooked frame (List.mem_of_mem_tail hframe) (h.waiting frame hframe)
  rw [hhooked, chained_of_hooked]

/-- If Python code runs, every active call waits for a hook. -/
theorem chainedFrames_eq (h : FramesInv build decoder thread chain)
    (hpython : thread.pythonRuns = true) : chainedFrames build thread.frames = thread.frames := by
  have htail := h.chainedFrames_tail
  have hhooked := h.hooked
  unfold Thread.pythonRuns at hpython
  cases hframes : thread.frames with
  | nil => rfl
  | cons frame rest =>
      rw [hframes] at htail hpython hhooked
      have := hhooked frame List.mem_cons_self hpython
      rw [chainedFrames_cons, this, chained_of_hooked, if_pos rfl]
      exact congrArg (frame :: ·) htail

/-- The active calls use distinct contexts. -/
theorem distinct (h : FramesInv build decoder thread chain) (hnodup : chain.Nodup) :
    (thread.frames.map Frame.ctx).Nodup := by
  have hinj : Function.Injective CtxRef.node := fun a b hab => by cases hab; rfl
  have hnode : (chain.map CtxRef.node).Nodup := hnodup.map hinj
  have htail := h.chainedFrames_tail
  have hcontexts := h.contexts
  have hunchained := h.unchained
  cases hframes : thread.frames with
  | nil => exact List.nodup_nil
  | cons frame rest =>
      rw [hframes] at htail hcontexts hunchained
      rw [chainedFrames_cons] at hcontexts
      change chainedFrames build rest = rest at htail
      rw [htail] at hcontexts
      cases hchained : chained build frame.hooked with
      | true =>
          rw [hchained, if_pos rfl] at hcontexts
          rw [hcontexts]
          exact hnode
      | false =>
          rw [hchained, if_neg Bool.false_ne_true] at hcontexts
          rw [List.map_cons, List.nodup_cons, hcontexts,
            hunchained frame List.mem_cons_self hchained]
          exact ⟨by simp, hnode⟩

end FramesInv

/-! ## Entering -/

section Steps

variable {build : Build} {decoder : Decoder Buf Local Obj} {thread next : Thread Buf Local Obj}

/-- Memory that looks the same keeps the chain. -/
theorem ChainInv.congr {memory memory' : BufferMemory Buf} {chain base : List Addr}
    (h : ChainInv build memory chain base) (hcur : memory'.curBuffer = memory.curBuffer)
    (hlinks : ∀ a, (memory'.nodes a).map BufferNode.links = (memory.nodes a).map BufferNode.links) :
    ChainInv build memory' chain base where
  base_gil := h.base_gil
  cur := hcur.trans h.cur
  linked := h.linked.congr fun a _ => hlinks a
  nodup := h.nodup
  kept := by
    intro a node next ha hnode hnext
    have hlink := hlinks a
    rw [hnode, Option.map_some, eq_comm, Option.map_eq_some_iff] at hlink
    obtain ⟨node', hnode', hlink⟩ := hlink
    have hnext' : node'.next = some next := by
      rw [show node'.next = node.next from congrArg (·.2.1) hlink, hnext]
    obtain ⟨hbuild, hmem, nextNode, hnextNode⟩ := h.kept a node' next ha hnode' hnext'
    have hlink₂ := hlinks next
    rw [hnextNode, Option.map_some, Option.map_eq_some_iff] at hlink₂
    exact ⟨hbuild, hmem, hlink₂.imp fun _ => And.left⟩

/-- A fresh node on top of the chain. -/
theorem ChainInv.push {memory memory' : BufferMemory Buf} {chain base : List Addr} {new : Addr}
    (h : ChainInv build memory chain base) (hnew : memory.nodes new = none)
    (hcur : memory'.curBuffer = some new)
    (hlinked : Linked memory'.nodes none (new :: chain ++ base))
    (hnext : ∀ node, memory'.nodes new = some node → node.next = none) :
    ChainInv build memory' (new :: chain) base where
  base_gil := h.base_gil
  cur := hcur
  linked := hlinked
  nodup := by
    refine List.nodup_cons.mpr ⟨fun hmem => ?_, h.nodup⟩
    obtain ⟨node, hnode⟩ := h.linked.allocated hmem
    simp [hnew] at hnode
  kept := by
    intro a node next ha hnode hkept
    obtain rfl : new = a := by simpa using ha
    simp [hnext node hnode] at hkept

/-- A call that begins is on its solo path. -/
theorem onSoloPath_start (hooked : Bool) (ctx : CtxRef) (input : Local) (buf : Buf) :
    Frame.OnSoloPath decoder ⟨hooked, ctx, input, none, (input, buf), []⟩ buf :=
  ⟨.start, nofun⟩

/-- A new innermost call. The contexts of the others keep their contents. -/
theorem FramesInv.push {memory : BufferMemory Buf} {chain chain' : List Addr} {hooked : Bool}
    {ctx : CtxRef} {input : Local} {buf : Buf} (h : FramesInv build decoder thread chain)
    (hpython : thread.pythonRuns = true) (hread : memory.read ctx = some buf)
    (hsame : ∀ frame ∈ thread.frames, memory.read frame.ctx = thread.memory.read frame.ctx)
    (hctx : if chained build hooked then chain' = chain'.head?.toList ++ chain ∧
        some ctx = chain'.head?.map CtxRef.node else chain' = chain ∧ ctx = .default) :
    FramesInv build decoder
      ⟨memory, ⟨hooked, ctx, input, none, (input, buf), []⟩ :: thread.frames⟩ chain' where
  contexts := by
    have hcontexts := h.contexts
    rw [chainedFrames_cons]
    split at hctx
    · rename_i hchained
      simp only at hchained ⊢
      rw [if_pos hchained]
      cases chain' with
      | nil => simp at hctx
      | cons new rest =>
          obtain ⟨hrest, hnew⟩ := hctx
          obtain rfl : rest = chain := by simpa using hrest
          obtain rfl : ctx = .node new := by simpa using hnew
          simp [hcontexts]
    · rename_i hchained
      simp only at hchained ⊢
      rw [if_neg hchained, hctx.1, hcontexts]
  unchained := by
    intro frame hframe hchained
    rcases List.mem_cons.mp hframe with rfl | hmem
    · simp only at hchained
      simp only [hchained, if_neg Bool.false_ne_true] at hctx
      exact hctx.2
    · exact h.unchained frame hmem hchained
  waiting := by
    intro frame hframe
    cases hframes : thread.frames with
    | nil => simp [hframes] at hframe
    | cons top rest =>
        simp only [List.tail_cons, hframes] at hframe
        rcases List.mem_cons.mp hframe with rfl | hmem
        · simpa [Thread.pythonRuns, hframes] using hpython
        · exact h.waiting frame (by rw [hframes]; exact hmem)
  hooked := by
    intro frame hframe hwaiting
    rcases List.mem_cons.mp hframe with rfl | hmem
    · cases hwaiting
    · exact h.hooked frame hmem hwaiting
  solo := by
    intro frame hframe
    rcases List.mem_cons.mp hframe with rfl | hmem
    · exact ⟨buf, hread, onSoloPath_start hooked ctx input buf⟩
    · obtain ⟨b, hb, hsolo⟩ := h.solo frame hmem
      exact ⟨b, (hsame frame hmem).trans hb, hsolo⟩

/-- When Python code runs, every active call's context is a node of the chain. -/
theorem FramesInv.ctx_mem {chain : List Addr} (h : FramesInv build decoder thread chain)
    (hpython : thread.pythonRuns = true) {frame : Frame Buf Local Obj}
    (hframe : frame ∈ thread.frames) : ∃ a ∈ chain, frame.ctx = .node a := by
  have hmem : frame.ctx ∈ chain.map CtxRef.node := by
    rw [← h.contexts, h.chainedFrames_eq hpython]
    exact List.mem_map_of_mem hframe
  obtain ⟨a, ha, hctx⟩ := List.mem_map.mp hmem
  exact ⟨a, ha, hctx.symm⟩

/-- Entering `loads` keeps the invariant unless it reuses a kept node. -/
theorem ThreadInv.enter {hooked : Bool} {input : Local} {answers : AllocAnswers Buf}
    (h : ThreadInv build decoder thread) (hpython : thread.pythonRuns = true)
    (hfresh : Thread.answersFresh thread.memory answers = true)
    (hguard : build = .gil → ¬ ReusesNext build (.call hooked input answers) thread)
    (hstep : thread.enter build hooked input answers = some next) :
    ThreadInv build decoder next := by
  obtain ⟨chain, base, hchain, hframes⟩ := h
  unfold Thread.enter at hstep
  cases hselect : selectBuffer build hooked answers thread.memory with
  | undefined => simp [hselect] at hstep
  | failed error memory =>
      obtain ⟨hcur, hnodes, hdefault⟩ := selectBuffer_failed hselect
      simp only [hselect, Option.some.injEq] at hstep
      subst hstep
      refine ⟨chain, base, hchain.congr hcur fun a => by rw [hnodes], ?_⟩
      have hread : ∀ ctx, memory.read ctx = thread.memory.read ctx := by
        intro ctx
        cases ctx <;> simp [BufferMemory.read, hnodes, hdefault]
      exact ⟨hframes.contexts, hframes.unchained, hframes.waiting, hframes.hooked,
        fun frame hframe => (hframes.solo frame hframe).imp fun b hb => ⟨by rw [hread, hb.1], hb.2⟩⟩
  | selected ctx memory =>
      simp only [hselect, Option.bind_eq_bind, Option.bind_eq_some_iff] at hstep
      obtain ⟨buf, hread, hnext⟩ := hstep
      obtain rfl := Option.some.inj hnext
      unfold selectBuffer at hselect
      split at hselect
      · rename_i hchained
        obtain ⟨hdefault, hcase⟩ := selectNode_selected hselect
        have hallocated : ∀ a ∈ chain ++ base, ∃ node, thread.memory.nodes a = some node :=
          fun a ha => hchain.linked.allocated ha
        rcases hcase with ⟨new, garbage, hanswer, hcur, rfl, hcur', hnodes⟩ |
          ⟨old, oldNode, kept, hcur, hold, hkept, -, -, -⟩ |
          ⟨new, garbage, old, oldNode, hanswer, hcur, hold, hnext, -, rfl, hcur', hnodes⟩
        · -- the first node of the thread
          have hnil : chain = [] ∧ base = [] := by
            have hhead := hchain.cur.symm.trans hcur
            simpa using hhead
          obtain ⟨rfl, rfl⟩ := hnil
          have hnew : thread.memory.nodes new = none := by
            simpa [Thread.answersFresh, hanswer] using hfresh
          refine ⟨[new], [], hchain.push hnew hcur' ?_ ?_, hframes.push hpython hread ?_ ?_⟩
          · exact ⟨_, by rw [hnodes, Function.update_self], rfl, rfl, nofun, trivial⟩
          · intro node hnode
            rw [hnodes, Function.update_self] at hnode
            exact (Option.some.inj hnode) ▸ rfl
          · intro frame hframe
            obtain ⟨a, ha, -⟩ := hframes.ctx_mem hpython hframe
            cases ha
          · simp [hchained]
        · -- a kept node exists only in the GIL build, where the guard excludes it
          have hhead : (chain ++ base).head? = some old := hchain.cur.symm.trans hcur
          have hbuild := (hchain.kept old oldNode kept hhead hold hkept).1
          exact absurd ⟨hchained, old, oldNode, hcur, hold, by simp [hkept]⟩ (hguard hbuild)
        · -- a new node above the current one
          have hnew : thread.memory.nodes new = none := by
            simpa [Thread.answersFresh, hanswer] using hfresh
          have hhead : (chain ++ base).head? = some old := hchain.cur.symm.trans hcur
          obtain ⟨rest, hrest⟩ : ∃ rest, chain ++ base = old :: rest := by
            cases happ : chain ++ base with
            | nil => simp [happ] at hhead
            | cons a rest => exact ⟨rest, by rw [happ] at hhead; simp_all⟩
          have hlinked := hchain.linked
          have hnodup := hchain.nodup
          rw [hrest] at hlinked hnodup
          have hne : ∀ a ∈ chain ++ base, a ≠ new := by
            rintro a ha rfl
            obtain ⟨node, hnode⟩ := hallocated a ha
            simp [hnew] at hnode
          have hon : new ≠ old := fun he => hne old (hrest ▸ List.mem_cons_self) he.symm
          refine ⟨new :: chain, base, hchain.push hnew hcur' ?_ ?_,
            hframes.push hpython hread ?_ ?_⟩
          · rw [hnodes, List.cons_append, hrest]
            exact hlinked.push hold hnodup hnew
          · intro node hnode
            rw [hnodes, Function.update_of_ne hon, Function.update_self] at hnode
            exact (Option.some.inj hnode) ▸ rfl
          · intro frame hframe
            obtain ⟨a, ha, hctx⟩ := hframes.ctx_mem hpython hframe
            have hanew := hne a (List.mem_append_left base ha)
            simp only [hctx, BufferMemory.read, hnodes]
            by_cases haold : a = old
            · subst haold
              simp [hold]
            · rw [Function.update_of_ne haold, Function.update_of_ne hanew]
          · simp [hchained]
      · rename_i hchained
        obtain ⟨rfl, rfl⟩ := by simpa using hselect
        exact ⟨chain, base, hchain, hframes.push hpython hread (fun _ _ => rfl) (by simp [hchained])⟩

/-! ## Acting and returning -/

/-- Overwriting a context changes no pointer and no other context. -/
theorem BufferMemory.write_spec {memory : BufferMemory Buf} {ctx : CtxRef} {old : Buf} (buf : Buf)
    (hread : memory.read ctx = some old) :
    ∃ memory', memory.write buf ctx = some memory' ∧ memory'.curBuffer = memory.curBuffer ∧
      (∀ a, (memory'.nodes a).map BufferNode.links = (memory.nodes a).map BufferNode.links) ∧
      memory'.read ctx = some buf ∧ ∀ other, other ≠ ctx → memory'.read other = memory.read other := by
  cases ctx with
  | default =>
      refine ⟨_, rfl, rfl, fun a => rfl, rfl, fun other hother => ?_⟩
      cases other with
      | default => exact absurd rfl hother
      | node a => rfl
  | node address =>
      obtain ⟨node, hnode, rfl⟩ := Option.map_eq_some_iff.mp hread
      refine ⟨memory.setNode address { node with ctx := buf }, by simp [write, hnode], rfl,
        fun a => ?_, by simp [read], fun other hother => ?_⟩
      · by_cases ha : a = address
        · subst ha
          simp [hnode, BufferNode.links]
        · simp [Function.update_of_ne ha]
      · cases other with
        | default => rfl
        | node a =>
            have ha : a ≠ address := fun h => hother (h ▸ rfl)
            simp [read, Function.update_of_ne ha]

/-- Releasing the node of the innermost call keeps the chain of the others. -/
theorem ChainInv.release {memory : BufferMemory Buf} {used : Addr} {chain base : List Addr}
    (h : ChainInv build memory (used :: chain) base) :
    ∃ memory' base', releaseBuffer build memory = some memory' ∧ ChainInv build memory' chain base' ∧
      memory'.defaultCtx = memory.defaultCtx ∧
      ∀ a ∈ chain, memory'.read (.node a) = memory.read (.node a) := by
  obtain ⟨memory', hrelease, hcur, hdefault, hlinked, hkept, hsame⟩ :=
    @releaseBuffer_spec _ _ _ _ (chain ++ base) h.cur h.linked h.nodup h.kept
  obtain ⟨base', hbase, hgil⟩ : ∃ base', releasedChain build used (chain ++ base) = chain ++ base' ∧
      (build = .gil → base' = []) := by
    cases build with
    | gil => exact ⟨base, rfl, h.base_gil⟩
    | freeThreaded =>
        cases happ : chain ++ base with
        | nil =>
            obtain ⟨rfl, rfl⟩ := List.append_eq_nil_iff.mp happ
            exact ⟨[used], rfl, nofun⟩
        | cons a rest => exact ⟨base, by rw [releasedChain_cons, happ], nofun⟩
  rw [hbase] at hcur hlinked hkept
  have hnodup : (chain ++ base').Nodup := by
    have hrest : (chain ++ base).Nodup := (List.nodup_cons.mp h.nodup).2
    rw [← hbase]
    cases happ : chain ++ base with
    | nil => cases build <;> simp [releasedChain]
    | cons a rest => rwa [releasedChain_cons, ← happ]
  refine ⟨memory', base', hrelease, ⟨hgil, hcur, hlinked, hnodup, hkept⟩, hdefault, fun a ha => ?_⟩
  exact hsame a (List.mem_append_left base ha)

/-- A step of the innermost call from a state that satisfies the invariant. -/
theorem FramesInv.tail {chain chain' : List Addr} {frame : Frame Buf Local Obj}
    {rest : List (Frame Buf Local Obj)} {memory memory' : BufferMemory Buf}
    (h : FramesInv build decoder ⟨memory, frame :: rest⟩ chain)
    (hcontexts : rest.map Frame.ctx = chain'.map CtxRef.node)
    (hsame : ∀ f ∈ rest, memory'.read f.ctx = memory.read f.ctx) :
    FramesInv build decoder ⟨memory', rest⟩ chain' where
  contexts := by
    have htail := h.chainedFrames_tail
    simp only [List.tail_cons] at htail
    simp only [htail, hcontexts]
  unchained f hf := h.unchained f (List.mem_cons_of_mem frame hf)
  waiting f hf := h.waiting f (List.mem_of_mem_tail hf)
  hooked f hf := h.hooked f (List.mem_cons_of_mem frame hf)
  solo f hf := (h.solo f (List.mem_cons_of_mem frame hf)).imp
    fun _ hb => ⟨(hsame f hf).trans hb.1, hb.2⟩

/-- Replace the innermost frame by one that uses the same context. -/
theorem FramesInv.replace {chain : List Addr} {frame frame' : Frame Buf Local Obj}
    {rest : List (Frame Buf Local Obj)} {memory memory' : BufferMemory Buf} {buf : Buf}
    (h : FramesInv build decoder ⟨memory, frame :: rest⟩ chain)
    (hctx : frame'.ctx = frame.ctx) (hhooked : frame'.hooked = frame.hooked)
    (hwaiting : frame'.waiting.isSome → frame.hooked)
    (hread : memory'.read frame.ctx = some buf)
    (hsame : ∀ f ∈ rest, memory'.read f.ctx = memory.read f.ctx)
    (hsolo : frame'.OnSoloPath decoder buf) :
    FramesInv build decoder ⟨memory', frame' :: rest⟩ chain where
  contexts := by
    have hcontexts := h.contexts
    rw [chainedFrames_cons] at hcontexts ⊢
    rw [hhooked]
    split at hcontexts <;> simp_all
  unchained f hf hchained := by
    rcases List.mem_cons.mp hf with rfl | hmem
    · exact hctx.trans (h.unchained frame List.mem_cons_self (hhooked ▸ hchained))
    · exact h.unchained f (List.mem_cons_of_mem frame hmem) hchained
  waiting := h.waiting
  hooked f hf hwait := by
    rcases List.mem_cons.mp hf with rfl | hmem
    · exact hhooked ▸ hwaiting hwait
    · exact h.hooked f (List.mem_cons_of_mem frame hmem) hwait
  solo f hf := by
    rcases List.mem_cons.mp hf with rfl | hmem
    · exact ⟨buf, hctx ▸ hread, hsolo⟩
    · exact (h.solo f (List.mem_cons_of_mem frame hmem)).imp
        fun _ hb => ⟨(hsame f hmem).trans hb.1, hb.2⟩

/-- Leaving `loads` succeeds and keeps the invariant. -/
theorem ThreadInv.leave {memory : BufferMemory Buf} {frame : Frame Buf Local Obj}
    {rest : List (Frame Buf Local Obj)}
    (h : ThreadInv build decoder ⟨memory, frame :: rest⟩) :
    ∃ next, Thread.leave build frame rest memory = some next ∧ ThreadInv build decoder next := by
  obtain ⟨chain, base, hchain, hframes⟩ := h
  have hcontexts := hframes.contexts
  have htail : chainedFrames build rest = rest := hframes.chainedFrames_tail
  rw [chainedFrames_cons, htail] at hcontexts
  unfold Thread.leave
  split
  · rename_i hchained
    rw [if_pos hchained] at hcontexts
    cases chain with
    | nil => simp at hcontexts
    | cons used chain =>
        have hrest : rest.map Frame.ctx = chain.map CtxRef.node := (List.cons.inj hcontexts).2
        obtain ⟨memory', base', hrelease, hchain', -, hsame⟩ := hchain.release
        refine ⟨⟨memory', rest⟩, by simp [hrelease], chain, base', hchain',
          hframes.tail hrest fun f hf => ?_⟩
        have hmem : f.ctx ∈ chain.map CtxRef.node := hrest ▸ List.mem_map_of_mem hf
        obtain ⟨a, ha, hctx⟩ := List.mem_map.mp hmem
        rw [← hctx, hsame a ha]
  · rename_i hchained
    rw [if_neg hchained] at hcontexts
    exact ⟨_, rfl, chain, base, hchain, hframes.tail hcontexts fun _ _ => rfl⟩

/-- An action of the innermost call keeps the invariant. -/
theorem ThreadInv.act (h : ThreadInv build decoder thread)
    (hstep : thread.act build decoder = some next) : ThreadInv build decoder next := by
  obtain ⟨memory, frames⟩ := thread
  cases frames with
  | nil => simp [Thread.act] at hstep
  | cons frame rest =>
      obtain ⟨chain, base, hchain, hframes⟩ := id h
      obtain ⟨buf, hread, hpath, -⟩ := hframes.solo frame List.mem_cons_self
      have hdistinct := hframes.distinct (List.nodup_append.mp hchain.nodup).1
      have hother : ∀ f ∈ rest, f.ctx ≠ frame.ctx := by
        intro f hf he
        exact (List.nodup_cons.mp hdistinct).1 (he ▸ List.mem_map_of_mem hf)
      simp only [Thread.act] at hstep
      split at hstep
      · cases hstep
      · simp only [hread, Option.bind_eq_bind, Option.bind_some] at hstep
        rename_i hwaiting
        cases haction : decoder frame.loc buf with
        | compute loc buf' =>
            obtain ⟨memory', hwrite, hcur, hlinks, hread', hsame⟩ :=
              BufferMemory.write_spec buf' hread
            simp only [haction, hwrite, Option.bind_some, Option.some.injEq] at hstep
            subst hstep
            refine ⟨chain, base, hchain.congr hcur hlinks,
              hframes.replace rfl rfl (fun hw => absurd hw hwaiting) hread'
                (fun f hf => hsame f.ctx (hother f hf)) ⟨hpath.compute haction, ?_⟩⟩
            exact fun resume hresume => absurd (Option.isSome_of_eq_some hresume) hwaiting
        | callHook argument resume =>
            simp only [haction] at hstep
            split at hstep
            · rename_i hhooked
              obtain rfl := Option.some.inj hstep
              refine ⟨chain, base, hchain, hframes.replace rfl rfl (fun _ => hhooked) hread
                (fun _ _ => rfl) ⟨hpath, ?_⟩⟩
              intro resume' hresume
              obtain rfl := Option.some.inj hresume
              exact ⟨argument, haction⟩
            · cases hstep
        | ret value =>
            simp only [haction] at hstep
            obtain ⟨next', hleave, hinv⟩ := h.leave
            obtain rfl := Option.some.inj (hleave.symm.trans hstep)
            exact hinv

/-- The return of a hook keeps the invariant. -/
theorem ThreadInv.hookReturns {answer : Option Obj} (h : ThreadInv build decoder thread)
    (hstep : thread.hookReturns answer = some next) : ThreadInv build decoder next := by
  obtain ⟨memory, frames⟩ := thread
  cases frames with
  | nil => simp [Thread.hookReturns] at hstep
  | cons frame rest =>
      obtain ⟨chain, base, hchain, hframes⟩ := h
      obtain ⟨buf, hread, hpath, hwait⟩ := hframes.solo frame List.mem_cons_self
      simp only [Thread.hookReturns, Option.bind_eq_bind, Option.bind_eq_some_iff] at hstep
      obtain ⟨resume, hresume, hnext⟩ := hstep
      obtain rfl := Option.some.inj hnext
      obtain ⟨argument, haction⟩ := hwait resume hresume
      exact ⟨chain, base, hchain, hframes.replace rfl rfl nofun hread (fun _ _ => rfl)
        ⟨hpath.hook answer haction, nofun⟩⟩

/-- Every event but an entry that reuses a kept node keeps the invariant. -/
theorem ThreadInv.step {event : Event Buf Local Obj} (h : ThreadInv build decoder thread)
    (hguard : build = .gil → ¬ ReusesNext build event thread)
    (hstep : Thread.step build decoder event thread = some next) :
    ThreadInv build decoder next := by
  cases event with
  | call hooked input answers =>
      simp only [Thread.step] at hstep
      split at hstep
      · rename_i hcond
        obtain ⟨hpython, hfresh⟩ := (Bool.and_eq_true _ _).mp hcond
        exact h.enter hpython hfresh hguard hstep
      · cases hstep
  | act => exact h.act hstep
  | hookReturns answer => exact h.hookReturns hstep

/-- A thread that never called `loads` satisfies the invariant. -/
theorem ThreadInv.initial (ctx : Buf) : ThreadInv build decoder (.initial ctx) :=
  ⟨[], [], ⟨fun _ => rfl, rfl, trivial, List.nodup_nil, nofun⟩,
    ⟨rfl, nofun, nofun, nofun, nofun⟩⟩

end Steps

/-! ## Isolation -/

/-- The state of the buffers a tree of nested calls must always be in. -/
structure Isolated (build : Build) (decoder : Decoder Buf Local Obj)
    (thread : Thread Buf Local Obj) : Prop where
  /-- No two active calls use the same `DecoderBuffers`. -/
  distinct : (thread.frames.map Frame.ctx).Nodup
  /-- The `DecoderBuffers` of an active call is allocated. -/
  live : ∀ frame ∈ thread.frames, (thread.memory.read frame.ctx).isSome
  /-- `cur_buffer` is the buffer of the innermost active call that took one. -/
  current : ∀ frame ∈ (chainedFrames build thread.frames).head?,
    thread.memory.curBuffer.map CtxRef.node = some frame.ctx
  /-- A call that returns can release its buffer, and returns what it would return alone. -/
  value : ∀ frame rest buf value, thread.frames = frame :: rest → frame.waiting = none →
    thread.memory.read frame.ctx = some buf → decoder frame.loc buf = .ret value →
    (thread.act build decoder).isSome ∧ SoloReturns decoder frame.origin frame.answers value

/-- The invariant isolates the active calls. -/
theorem ThreadInv.isolated {build : Build} {decoder : Decoder Buf Local Obj}
    {thread : Thread Buf Local Obj} (h : ThreadInv build decoder thread) :
    Isolated build decoder thread := by
  obtain ⟨chain, base, hchain, hframes⟩ := id h
  refine ⟨hframes.distinct (List.nodup_append.mp hchain.nodup).1, ?_, ?_, ?_⟩
  · intro frame hframe
    obtain ⟨buf, hread, -⟩ := hframes.solo frame hframe
    rw [hread, Option.isSome_some]
  · intro frame hframe
    have hcontexts := hframes.contexts
    cases hc : chainedFrames build thread.frames with
    | nil => simp [hc] at hframe
    | cons top rest =>
        obtain rfl : top = frame := by simpa [hc] using hframe
        rw [hc] at hcontexts
        cases chain with
        | nil => simp at hcontexts
        | cons a chain =>
            rw [hchain.cur]
            simpa using (List.cons.inj hcontexts).1.symm
  · intro frame rest buf value hcons hwaiting hread haction
    obtain ⟨memory, frames⟩ := thread
    obtain rfl : frames = frame :: rest := hcons
    obtain ⟨next, hleave, -⟩ := h.leave
    obtain ⟨buf', hread', hpath, -⟩ := hframes.solo frame List.mem_cons_self
    obtain rfl := Option.some.inj (hread'.symm.trans hread)
    refine ⟨?_, frame.loc, buf', hpath, haction⟩
    simp only at hread
    simp [Thread.act, hwaiting, hread, haction, hleave]

/-- Entering through a kept node makes the new call share the buffers of the one below it. -/
theorem ThreadInv.not_isolated_of_reusesNext {decoder : Decoder Buf Local Obj}
    {thread next : Thread Buf Local Obj} {event : Event Buf Local Obj}
    (h : ThreadInv .gil decoder thread) (hreuse : ReusesNext .gil event thread)
    (hstep : Thread.step .gil decoder event thread = some next) :
    ¬ Isolated .gil decoder next := by
  obtain ⟨chain, base, hchain, hframes⟩ := h
  cases event with
  | act => exact hreuse.elim
  | hookReturns answer => exact hreuse.elim
  | call hooked input answers =>
      obtain ⟨hchained, old, oldNode, hcur, hold, hkept⟩ := hreuse
      simp only [Thread.step] at hstep
      split at hstep
      swap
      · cases hstep
      rename_i hcond
      have hpython := ((Bool.and_eq_true _ _).mp hcond).1
      have hmem : CtxRef.node old ∈ thread.frames.map Frame.ctx := by
        rw [← hframes.chainedFrames_eq hpython, hframes.contexts]
        have hhead : (chain ++ base).head? = some old := hchain.cur.symm.trans hcur
        rw [hchain.base_gil rfl, List.append_nil] at hhead
        exact List.mem_map_of_mem (List.mem_of_mem_head? hhead)
      unfold Thread.enter at hstep
      cases hselect : selectBuffer .gil hooked answers thread.memory with
      | undefined => simp [hselect] at hstep
      | failed error memory =>
          obtain ⟨kept, hkept⟩ := Option.isSome_iff_exists.mp hkept
          unfold selectBuffer selectNode at hselect
          rw [if_pos hchained] at hselect
          cases htls : thread.memory.tlsGetDecoderData answers.tlsData with
          | none => simp [htls] at hselect
          | some pair =>
              obtain ⟨hdata, -, hnodes, -⟩ := BufferMemory.tlsGetDecoderData_spec htls
              simp [htls, hdata, hcur, hnodes, hold, hkept] at hselect
      | selected ctx memory =>
          have hctx : ctx = .node old := by
            unfold selectBuffer at hselect
            rw [if_pos hchained] at hselect
            obtain ⟨-, ⟨_, _, _, hcur', -⟩ | ⟨old', _, _, hcur', _, _, hctx, -⟩ |
              ⟨_, _, old', oldNode', _, hcur', hold', hnext, -⟩⟩ := selectNode_selected hselect
            · simp [hcur] at hcur'
            · obtain rfl := Option.some.inj (hcur.symm.trans hcur')
              exact hctx
            · obtain rfl := Option.some.inj (hcur.symm.trans hcur')
              obtain rfl := Option.some.inj (hold.symm.trans hold')
              simp [hnext] at hkept
          simp only [hselect, Option.bind_eq_bind, Option.bind_eq_some_iff] at hstep
          obtain ⟨buf, -, hnext⟩ := hstep
          obtain rfl := Option.some.inj hnext
          intro hisolated
          exact (List.nodup_cons.mp hisolated.distinct).1 (hctx ▸ hmem)

/-! ## Two calls with hooks made by one call -/

/-- A decoder that leaves its input in its buffer, calls a hook twice and returns what it then
finds in the buffer. The locals are the input and the number of actions done. -/
def echoDecoder : Decoder Nat (Nat × Nat) Nat := fun loc buf =>
  match loc.2 with
  | 0 => .compute (loc.1, 1) loc.1
  | 1 => .callHook buf fun _ => (loc.1, 2)
  | 2 => .callHook buf fun _ => (loc.1, 3)
  | _ => .ret (some buf)

/-- The outer call runs up to its first hook, which calls `loads` with a hook of its own. -/
def firstSibling : List (Event Nat (Nat × Nat) Nat) :=
  [.call true (1, 0) ⟨true, some (0, 0)⟩, .act, .act,
    .call true (2, 2) ⟨true, some (1, 0)⟩, .act, .hookReturns (some 0), .act]

/-- The second hook of the outer call does the same. -/
def secondSibling : List (Event Nat (Nat × Nat) Nat) :=
  [.hookReturns (some 0), .act, .call true (3, 0) ⟨true, none⟩, .act]

/-! ## Runs of nested calls -/

/-- The entry does not reuse a node the GIL build kept from an earlier nested call. -/
def EntersFresh (build : Build) (event : Event Buf Local Obj) (thread : Thread Buf Local Obj) :
    Prop :=
  build = .gil → ¬ ReusesNext build event thread

/-- In a run whose entries never reuse a kept node the active calls are isolated in every state,
and the next event keeps them so exactly when it does not reuse one either. -/
theorem nested_calls_isolated (build : Build) (decoder : Decoder Buf Local Obj) (ctx : Buf)
    (events : List (Event Buf Local Obj)) (thread : Thread Buf Local Obj)
    (hrun : Run (Thread.step build decoder) (EntersFresh build) (.initial ctx) events thread) :
    Isolated build decoder thread ∧
      ∀ event next, Thread.step build decoder event thread = some next →
        (Isolated build decoder next ↔ EntersFresh build event thread) := by
  have hinv : ThreadInv build decoder thread :=
    hrun.invariant (fun _ _ _ hguard hnext h => h.step hguard hnext) (.initial ctx)
  refine ⟨hinv.isolated, fun event next hnext => ⟨fun hisolated hbuild hreuse => ?_,
    fun hguard => (hinv.step hguard hnext).isolated⟩⟩
  subst hbuild
  exact hinv.not_isolated_of_reusesNext hreuse hnext hisolated

/-- The first call with hooks that a hook makes gets a buffer of its own. -/
theorem first_sibling_isolated :
    ∃ thread, exec (Thread.step .gil echoDecoder) firstSibling (.initial 0) = some thread ∧
      Isolated .gil echoDecoder thread := by
  refine ⟨_, rfl, (nested_calls_isolated .gil echoDecoder 0 firstSibling _ ?_).1⟩
  refine .cons (fun _ ⟨_, _, _, hcur, _⟩ => nomatch hcur) rfl <| .cons (fun _ h => h) rfl <|
    .cons (fun _ h => h) rfl <| .cons ?_ rfl <| .cons (fun _ h => h) rfl <|
    .cons (fun _ h => h) rfl <| .cons (fun _ h => h) rfl (.nil _)
  rintro - ⟨-, old, node, hcur, hold, hnext⟩
  obtain rfl : 0 = old := Option.some.inj hcur
  obtain rfl := Option.some.inj hold
  cases hnext

/-- The free-threaded build keeps no node, so its calls are isolated in every run. -/
theorem nested_calls_isolated_freeThreaded (decoder : Decoder Buf Local Obj) (ctx : Buf)
    (events : List (Event Buf Local Obj)) (thread : Thread Buf Local Obj)
    (hrun : exec (Thread.step .freeThreaded decoder) events (.initial ctx) = some thread) :
    Isolated .freeThreaded decoder thread := by
  have hinv : ThreadInv .freeThreaded decoder thread :=
    exec_invariant (fun _ _ _ hnext h => h.step nofun hnext) hrun (.initial ctx)
  exact hinv.isolated

/-- The second hooked call made by one call works in the buffers of the call that encloses it:
both contexts are the same node, and the encloser's buffer holds the nested call's input. -/
theorem second_sibling_shares_buffers :
    ∃ thread, exec (Thread.step .gil echoDecoder) (firstSibling ++ secondSibling) (.initial 0) =
        some thread ∧
      thread.frames.map Frame.ctx = [.node 0, .node 0] ∧
      thread.frames.map (fun frame => thread.memory.read frame.ctx) = [some 3, some 3] ∧
      ¬ Isolated .gil echoDecoder thread := by
  refine ⟨_, rfl, rfl, rfl, fun h => ?_⟩
  have hnodup : [CtxRef.node 0, CtxRef.node 0].Nodup := h.distinct
  exact absurd hnodup (by decide)

end SsrJson.Decode

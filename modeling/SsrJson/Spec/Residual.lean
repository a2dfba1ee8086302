import SsrJson.Spec.GrammarLemmas

/-!
# What open containers demand of the text

A reader in the middle of a document has some containers open. `Closes` says what the rest of the
text must be for them to be completed to a document. `ArrNext`, `KeyNext`, `ValNext` and their
like say it for the points inside a container at which a reader can stop, and the lemmas after
them say how one more character changes the demand. A reader that follows these lemmas both ways
accepts the grammar and nothing else.
-/

namespace SsrJson.Spec

variable (enc : Nat → Option (List Nat)) (numVal : List Nat → Num)
  (objVal : List (PyStr × PyVal) → PyVal) (limit : Nat)

/-- A container whose end has not been read, with the elements it has so far. A `member` waits
for the value of its last key. -/
inductive Open where
  | array (values : List PyVal)
  | member (members : List (PyStr × PyVal)) (key : PyStr)

/-- The text between an element and the end of its array. -/
inductive ArrRest (n : Nat) : List Nat → List PyVal → List Nat → Prop where
  | close {s r} : Ws s (0x5D :: r) → ArrRest n s [] r
  | more {s s₁ vs r} : Ws s (0x2C :: s₁) → Elements enc numVal objVal n s₁ vs r → ArrRest n s vs r

/-- The text between a member and the end of its object. -/
inductive ObjRest (n : Nat) : List Nat → List (PyStr × PyVal) → List Nat → Prop where
  | close {s r} : Ws s (0x7D :: r) → ObjRest n s [] r
  | more {s s₁ ms r} : Ws s (0x2C :: s₁) → Members enc numVal objVal n s₁ ms r → ObjRest n s ms r

/-- `Closes outer v s res` says that `s` completes the document that has the containers `outer`
open, innermost first, and in which the value `v` has just been read, and that `res` is the value
of the document. -/
def Closes : List Open → PyVal → List Nat → PyVal → Prop
  | [], v, s, res => res = v ∧ Ws s []
  | .array vs :: outer, v, s, res => ∃ ts r,
      ArrRest enc numVal objVal (limit - (outer.length + 1)) s ts r ∧
      Closes outer (.list (vs ++ v :: ts)) r res
  | .member ms k :: outer, v, s, res =>
      ∃ ts r, ObjRest enc numVal objVal (limit - (outer.length + 1)) s ts r ∧
        Closes outer (objVal (ms ++ (k, v) :: ts)) r res

/-- A value comes next, then the containers are closed. -/
def ValNext (outer : List Open) (s : List Nat) (res : PyVal) : Prop :=
  ∃ s₁ v s₂, Ws s s₁ ∧ Value enc numVal objVal (limit - outer.length) s₁ v s₂ ∧
    Closes enc numVal objVal limit outer v s₂ res

/-- An element comes next, or the end of an array that has none. -/
def ArrNext (vs : List PyVal) (outer : List Open) (s : List Nat) (res : PyVal) : Prop :=
  (vs = [] ∧ ∃ r, Ws s (0x5D :: r) ∧ Closes enc numVal objVal limit outer (.list []) r res) ∨
    ValNext enc numVal objVal limit (.array vs :: outer) s res

/-- A comma or the end of the array comes next. -/
def ArrAfter (vs : List PyVal) (outer : List Open) (s : List Nat) (res : PyVal) : Prop :=
  ∃ ts r, ArrRest enc numVal objVal (limit - (outer.length + 1)) s ts r ∧
    Closes enc numVal objVal limit outer (.list (vs ++ ts)) r res

/-- A colon comes next. -/
def ColonNext (ms : List (PyStr × PyVal)) (k : PyStr) (outer : List Open) (s : List Nat)
    (res : PyVal) : Prop :=
  ∃ s₁, Ws s (0x3A :: s₁) ∧ ValNext enc numVal objVal limit (.member ms k :: outer) s₁ res

/-- A key comes next, or the end of an object that has none. -/
def KeyNext (ms : List (PyStr × PyVal)) (outer : List Open) (s : List Nat) (res : PyVal) : Prop :=
  (ms = [] ∧ ∃ r, Ws s (0x7D :: r) ∧ Closes enc numVal objVal limit outer (objVal []) r res) ∨
    ∃ s₁ k s₂, Ws s s₁ ∧ StringToken enc s₁ k s₂ ∧
      ColonNext enc numVal objVal limit ms k outer s₂ res

/-- A comma or the end of the object comes next. -/
def ObjAfter (ms : List (PyStr × PyVal)) (outer : List Open) (s : List Nat) (res : PyVal) :
    Prop :=
  ∃ ts r, ObjRest enc numVal objVal (limit - (outer.length + 1)) s ts r ∧
    Closes enc numVal objVal limit outer (objVal (ms ++ ts)) r res

variable {enc numVal objVal limit}

/-! ## Sequences as a first element and a rest -/

theorem elements_iff {n : Nat} {s r : List Nat} {ts : List PyVal} :
    Elements enc numVal objVal n s ts r ↔ ∃ s₁ v s₂ ts', Ws s s₁ ∧ Value enc numVal objVal n s₁ v s₂ ∧
      ArrRest enc numVal objVal n s₂ ts' r ∧ ts = v :: ts' := by
  constructor
  · intro h
    cases h with
    | last hws hv hend => exact ⟨_, _, _, _, hws, hv, .close hend, rfl⟩
    | more hws hv hcomma hrest => exact ⟨_, _, _, _, hws, hv, .more hcomma hrest, rfl⟩
  · rintro ⟨s₁, v, s₂, ts', hws, hv, hrest, rfl⟩
    cases hrest with
    | close hend => exact .last hws hv hend
    | more hcomma hels => exact .more hws hv hcomma hels

theorem members_iff {n : Nat} {s r : List Nat} {ts : List (PyStr × PyVal)} :
    Members enc numVal objVal n s ts r ↔ ∃ s₁ k s₂ s₃ s₄ v s₅ ts', Ws s s₁ ∧ StringToken enc s₁ k s₂ ∧
      Ws s₂ (0x3A :: s₃) ∧ Ws s₃ s₄ ∧ Value enc numVal objVal n s₄ v s₅ ∧
      ObjRest enc numVal objVal n s₅ ts' r ∧ ts = (k, v) :: ts' := by
  constructor
  · intro h
    cases h with
    | last hws hk hcolon hws' hv hend =>
        exact ⟨_, _, _, _, _, _, _, _, hws, hk, hcolon, hws', hv, .close hend, rfl⟩
    | more hws hk hcolon hws' hv hcomma hrest =>
        exact ⟨_, _, _, _, _, _, _, _, hws, hk, hcolon, hws', hv, .more hcomma hrest, rfl⟩
  · rintro ⟨s₁, k, s₂, s₃, s₄, v, s₅, ts', hws, hk, hcolon, hws', hv, hrest, rfl⟩
    cases hrest with
    | close hend => exact .last hws hk hcolon hws' hv hend
    | more hcomma hms => exact .more hws hk hcolon hws' hv hcomma hms

/-- The elements of an array are one value, then what closes the array behind it. -/
theorem valNext_array_iff {vs : List PyVal} {outer : List Open} {s : List Nat} {res : PyVal} :
    ValNext enc numVal objVal limit (.array vs :: outer) s res ↔
      ∃ ts r, Elements enc numVal objVal (limit - (outer.length + 1)) s ts r ∧
        Closes enc numVal objVal limit outer (.list (vs ++ ts)) r res := by
  constructor
  · rintro ⟨s₁, v, s₂, hws, hv, ts, r, hrest, hclose⟩
    exact ⟨v :: ts, r, elements_iff.mpr ⟨s₁, v, s₂, ts, hws, hv, hrest, rfl⟩, hclose⟩
  · rintro ⟨ts, r, hels, hclose⟩
    obtain ⟨s₁, v, s₂, ts', hws, hv, hrest, rfl⟩ := elements_iff.mp hels
    exact ⟨s₁, v, s₂, hws, hv, ts', r, hrest, hclose⟩

/-- The members of an object are one member, then what closes the object behind it. -/
theorem keyNext_members_iff {ms : List (PyStr × PyVal)} {outer : List Open} {s : List Nat}
    {res : PyVal} :
    (∃ s₁ k s₂, Ws s s₁ ∧ StringToken enc s₁ k s₂ ∧
      ColonNext enc numVal objVal limit ms k outer s₂ res) ↔
      ∃ ts r, Members enc numVal objVal (limit - (outer.length + 1)) s ts r ∧
        Closes enc numVal objVal limit outer (objVal (ms ++ ts)) r res := by
  constructor
  · rintro ⟨s₁, k, s₂, hws, hk, s₃, hcolon, s₄, v, s₅, hws', hv, ts, r, hrest, hclose⟩
    exact ⟨(k, v) :: ts, r,
      members_iff.mpr ⟨s₁, k, s₂, s₃, s₄, v, s₅, ts, hws, hk, hcolon, hws', hv, hrest, rfl⟩, hclose⟩
  · rintro ⟨ts, r, hms, hclose⟩
    obtain ⟨s₁, k, s₂, s₃, s₄, v, s₅, ts', hws, hk, hcolon, hws', hv, hrest, rfl⟩ :=
      members_iff.mp hms
    exact ⟨s₁, k, s₂, hws, hk, s₃, hcolon, s₄, v, s₅, hws', hv, ts', r, hrest, hclose⟩

/-! ## White space is no matter -/

theorem arrRest_ws {n : Nat} {s s' r : List Nat} {ts : List PyVal} (h : Ws s s') :
    ArrRest enc numVal objVal n s ts r ↔ ArrRest enc numVal objVal n s' ts r := by
  constructor
  · intro ha
    cases ha with
    | close hend => exact .close ((Ws.iff h (by simp [isWs])).mp hend)
    | more hcomma hels => exact .more ((Ws.iff h (by simp [isWs])).mp hcomma) hels
  · intro ha
    cases ha with
    | close hend => exact .close (h.trans hend)
    | more hcomma hels => exact .more (h.trans hcomma) hels

theorem objRest_ws {n : Nat} {s s' r : List Nat} {ts : List (PyStr × PyVal)} (h : Ws s s') :
    ObjRest enc numVal objVal n s ts r ↔ ObjRest enc numVal objVal n s' ts r := by
  constructor
  · intro ha
    cases ha with
    | close hend => exact .close ((Ws.iff h (by simp [isWs])).mp hend)
    | more hcomma hms => exact .more ((Ws.iff h (by simp [isWs])).mp hcomma) hms
  · intro ha
    cases ha with
    | close hend => exact .close (h.trans hend)
    | more hcomma hms => exact .more (h.trans hcomma) hms

theorem closes_ws {outer : List Open} {v res : PyVal} {s s' : List Nat} (h : Ws s s') :
    Closes enc numVal objVal limit outer v s res ↔
      Closes enc numVal objVal limit outer v s' res := by
  cases outer with
  | nil => simp only [Closes, Ws.iff h noWs_nil]
  | cons o outer => cases o <;> simp only [Closes, arrRest_ws h, objRest_ws h]

theorem valNext_ws {outer : List Open} {res : PyVal} {s s' : List Nat} (h : Ws s s') :
    ValNext enc numVal objVal limit outer s res ↔ ValNext enc numVal objVal limit outer s' res := by
  constructor
  · rintro ⟨s₁, v, s₂, hws, hv, hclose⟩
    exact ⟨s₁, v, s₂, (Ws.iff h hv.noWs).mp hws, hv, hclose⟩
  · rintro ⟨s₁, v, s₂, hws, hv, hclose⟩
    exact ⟨s₁, v, s₂, h.trans hws, hv, hclose⟩

theorem arrNext_ws {vs : List PyVal} {outer : List Open} {res : PyVal} {s s' : List Nat}
    (h : Ws s s') :
    ArrNext enc numVal objVal limit vs outer s res ↔
      ArrNext enc numVal objVal limit vs outer s' res := by
  have hend : ∀ r, Ws s (0x5D :: r) ↔ Ws s' (0x5D :: r) := fun r => Ws.iff h (by simp [isWs])
  simp only [ArrNext, valNext_ws h, hend]

theorem arrAfter_ws {vs : List PyVal} {outer : List Open} {res : PyVal} {s s' : List Nat}
    (h : Ws s s') :
    ArrAfter enc numVal objVal limit vs outer s res ↔
      ArrAfter enc numVal objVal limit vs outer s' res := by
  simp only [ArrAfter, arrRest_ws h]

theorem colonNext_ws {ms : List (PyStr × PyVal)} {k : PyStr} {outer : List Open} {res : PyVal}
    {s s' : List Nat} (h : Ws s s') :
    ColonNext enc numVal objVal limit ms k outer s res ↔
      ColonNext enc numVal objVal limit ms k outer s' res := by
  have hend : ∀ r, Ws s (0x3A :: r) ↔ Ws s' (0x3A :: r) := fun r => Ws.iff h (by simp [isWs])
  simp only [ColonNext, hend]

theorem keyNext_ws {ms : List (PyStr × PyVal)} {outer : List Open} {res : PyVal}
    {s s' : List Nat} (h : Ws s s') :
    KeyNext enc numVal objVal limit ms outer s res ↔
      KeyNext enc numVal objVal limit ms outer s' res := by
  have hend : ∀ r, Ws s (0x7D :: r) ↔ Ws s' (0x7D :: r) := fun r => Ws.iff h (by simp [isWs])
  have hkey : ∀ s₁ k s₂, (Ws s s₁ ∧ StringToken enc s₁ k s₂) ↔
      (Ws s' s₁ ∧ StringToken enc s₁ k s₂) :=
    fun s₁ k s₂ => and_congr_left fun hk => Ws.iff h hk.noWs
  simp only [KeyNext, hend, ← and_assoc, hkey]

theorem objAfter_ws {ms : List (PyStr × PyVal)} {outer : List Open} {res : PyVal}
    {s s' : List Nat} (h : Ws s s') :
    ObjAfter enc numVal objVal limit ms outer s res ↔
      ObjAfter enc numVal objVal limit ms outer s' res := by
  simp only [ObjAfter, objRest_ws h]

/-! ## One more character -/

/-- What can stand right after a value. -/
def Delimited (s : List Nat) : Prop :=
  ∀ c ∈ s.head?, isWs c = true ∨ c = 0x2C ∨ c = 0x5D ∨ c = 0x7D

theorem Ws.delimited {s r : List Nat} (h : Ws s r) (hr : Delimited r) : Delimited s := by
  cases h with
  | nil => exact hr
  | cons hc _ =>
      intro c' hc'
      obtain rfl := Option.some.inj hc'
      exact .inl hc

/-- A value is followed by white space, a comma, a closing bracket or the end of the text. -/
theorem Closes.delimited {outer : List Open} {v res : PyVal} {s : List Nat}
    (h : Closes enc numVal objVal limit outer v s res) : Delimited s := by
  cases outer with
  | nil => exact h.2.delimited (by simp [Delimited])
  | cons o outer =>
      cases o with
      | array vs =>
          obtain ⟨ts, r, hrest, -⟩ := h
          cases hrest with
          | close hend => exact hend.delimited (by simp [Delimited])
          | more hcomma _ => exact hcomma.delimited (by simp [Delimited])
      | member ms k =>
          obtain ⟨ts, r, hrest, -⟩ := h
          cases hrest with
          | close hend => exact hend.delimited (by simp [Delimited])
          | more hcomma _ => exact hcomma.delimited (by simp [Delimited])

/-- A value that begins here, since no white space does. -/
theorem valNext_noWs {outer : List Open} {s : List Nat} {res : PyVal} (hs : NoWs s) :
    ValNext enc numVal objVal limit outer s res ↔ ∃ v s₂,
      Value enc numVal objVal (limit - outer.length) s v s₂ ∧
        Closes enc numVal objVal limit outer v s₂ res := by
  constructor
  · rintro ⟨s₁, v, s₂, hws, hv, hclose⟩
    obtain rfl := hws.eq_of_noWs hs
    exact ⟨v, s₂, hv, hclose⟩
  · rintro ⟨v, s₂, hv, hclose⟩
    exact ⟨s, v, s₂, .nil s, hv, hclose⟩

/-- An opening bracket: an array, provided one more container may be open. -/
theorem valNext_bracket {outer : List Open} {s : List Nat} {res : PyVal} :
    ValNext enc numVal objVal limit outer (0x5B :: s) res ↔
      outer.length < limit ∧ ArrNext enc numVal objVal limit [] outer s res := by
  have hlen : ∀ m, limit - outer.length = m + 1 → m = limit - (outer.length + 1) := by omega
  rw [valNext_noWs (by simp [isWs])]
  constructor
  · rintro ⟨v, s₂, hv, hclose⟩
    rcases hv.cases_head with ⟨hc, -⟩ | ⟨hc, -⟩ | ⟨hc, -⟩ | ⟨num, hnum, -⟩ | ⟨hc, -⟩ |
      ⟨-, m, hm, hcase⟩ | ⟨hc, -⟩
    any_goals (exact absurd hc (by decide))
    · exact absurd hnum.head (by decide)
    refine ⟨by omega, ?_⟩
    rcases hcase with ⟨hend, rfl⟩ | ⟨vs, hels, rfl⟩
    · exact .inl ⟨rfl, s₂, hend, hclose⟩
    · exact .inr (valNext_array_iff.mpr ⟨vs, s₂, hlen m hm ▸ hels, hclose⟩)
  · rintro ⟨hlt, ⟨-, r, hend, hclose⟩ | hnext⟩
    · refine ⟨_, r, ?_, hclose⟩
      rw [show limit - outer.length = limit - (outer.length + 1) + 1 by omega]
      exact .emptyArray _ hend
    · obtain ⟨ts, r, hels, hclose⟩ := valNext_array_iff.mp hnext
      refine ⟨_, r, ?_, hclose⟩
      rw [show limit - outer.length = limit - (outer.length + 1) + 1 by omega]
      exact .array hels

/-- An opening brace: an object, provided one more container may be open. -/
theorem valNext_brace {outer : List Open} {s : List Nat} {res : PyVal} :
    ValNext enc numVal objVal limit outer (0x7B :: s) res ↔
      outer.length < limit ∧ KeyNext enc numVal objVal limit [] outer s res := by
  have hlen : ∀ m, limit - outer.length = m + 1 → m = limit - (outer.length + 1) := by omega
  rw [valNext_noWs (by simp [isWs])]
  constructor
  · rintro ⟨v, s₂, hv, hclose⟩
    rcases hv.cases_head with ⟨hc, -⟩ | ⟨hc, -⟩ | ⟨hc, -⟩ | ⟨num, hnum, -⟩ | ⟨hc, -⟩ |
      ⟨hc, -⟩ | ⟨-, m, hm, hcase⟩
    any_goals (exact absurd hc (by decide))
    · exact absurd hnum.head (by decide)
    refine ⟨by omega, ?_⟩
    rcases hcase with ⟨hend, rfl⟩ | ⟨ms, hms, rfl⟩
    · exact .inl ⟨rfl, s₂, hend, hclose⟩
    · exact .inr (keyNext_members_iff.mpr ⟨ms, s₂, hlen m hm ▸ hms, hclose⟩)
  · rintro ⟨hlt, ⟨-, r, hend, hclose⟩ | hnext⟩
    · refine ⟨_, r, ?_, hclose⟩
      rw [show limit - outer.length = limit - (outer.length + 1) + 1 by omega]
      exact .emptyObject _ hend
    · obtain ⟨ts, r, hms, hclose⟩ := keyNext_members_iff.mp hnext
      refine ⟨_, r, ?_, hclose⟩
      rw [show limit - outer.length = limit - (outer.length + 1) + 1 by omega]
      exact .object hms

/-- No value begins with any other character. -/
theorem not_valNext {outer : List Open} {c : Nat} {s : List Nat} {res : PyVal}
    (hws : isWs c = false) (hnum : isNumHead c = false)
    (h : c ≠ 0x22 ∧ c ≠ 0x5B ∧ c ≠ 0x7B ∧ c ≠ 0x74 ∧ c ≠ 0x66) :
    ¬ ValNext enc numVal objVal limit outer (c :: s) res := by
  rw [valNext_noWs (noWs_cons.mpr hws)]
  rintro ⟨v, s₂, hv, -⟩
  rcases hv.cases_head with ⟨rfl, -⟩ | ⟨rfl, -⟩ | ⟨rfl, -⟩ | ⟨num, htok, -⟩ | ⟨rfl, -⟩ |
    ⟨rfl, -⟩ | ⟨rfl, -⟩
  · cases hnum
  · simp at h
  · simp at h
  · simp [htok.head] at hnum
  · simp at h
  · simp at h
  · simp at h

theorem not_valNext_nil {outer : List Open} {res : PyVal} :
    ¬ ValNext enc numVal objVal limit outer [] res := by
  rw [valNext_noWs noWs_nil]
  rintro ⟨v, s₂, hv, -⟩
  exact hv.ne_nil

/-- A string. -/
theorem valNext_string {outer : List Open} {s : List Nat} {res : PyVal} :
    ValNext enc numVal objVal limit outer (0x22 :: s) res ↔
      ∃ str r, StringToken enc (0x22 :: s) str r ∧
        Closes enc numVal objVal limit outer (.str str) r res := by
  rw [valNext_noWs (by simp [isWs])]
  constructor
  · rintro ⟨v, s₂, hv, hclose⟩
    rcases hv.cases_head with ⟨hc, -⟩ | ⟨hc, -⟩ | ⟨hc, -⟩ | ⟨num, hnum, -⟩ | ⟨-, str, hstr, rfl⟩ |
      ⟨hc, -⟩ | ⟨hc, -⟩
    any_goals (exact absurd hc (by decide))
    · exact absurd hnum.head (by decide)
    · exact ⟨str, s₂, hstr, hclose⟩
  · rintro ⟨str, r, hstr, hclose⟩
    exact ⟨_, r, .string _ hstr, hclose⟩

/-- A number or special literal, if the text does not begin with `null`. -/
theorem valNext_number {outer : List Open} {c : Nat} {s : List Nat} {res : PyVal}
    (hc : isNumHead c = true) (hnull : ∀ r, c :: s ≠ 0x6E :: 0x75 :: 0x6C :: 0x6C :: r) :
    ValNext enc numVal objVal limit outer (c :: s) res ↔
      ∃ num r, NumToken numVal (c :: s) num r ∧
        Closes enc numVal objVal limit outer (.num num) r res := by
  have hws : isWs c = false := by
    simp only [isNumHead, isDigit, Bool.or_eq_true, beq_iff_eq, Bool.and_eq_true,
      decide_eq_true_eq] at hc
    simp only [isWs, Bool.or_eq_false_iff, beq_eq_false_iff_ne]
    omega
  rw [valNext_noWs (noWs_cons.mpr hws)]
  constructor
  · rintro ⟨v, s₂, hv, hclose⟩
    rcases hv.cases_head with ⟨rfl, rfl, -⟩ | ⟨rfl, -⟩ | ⟨rfl, -⟩ | ⟨num, hnum, rfl⟩ | ⟨rfl, -⟩ |
      ⟨rfl, -⟩ | ⟨rfl, -⟩
    · exact absurd rfl (hnull s₂)
    · cases hc
    · cases hc
    · exact ⟨num, s₂, hnum, hclose⟩
    · cases hc
    · cases hc
    · cases hc
  · rintro ⟨num, r, hnum, hclose⟩
    exact ⟨_, r, .of_numToken _ hnum, hclose⟩

/-- `true` or `false`, by the first character. -/
theorem valNext_true {outer : List Open} {s : List Nat} {res : PyVal} :
    ValNext enc numVal objVal limit outer (0x74 :: s) res ↔
      ∃ r, s = 0x72 :: 0x75 :: 0x65 :: r ∧
        Closes enc numVal objVal limit outer (.bool true) r res := by
  rw [valNext_noWs (by simp [isWs])]
  constructor
  · rintro ⟨v, s₂, hv, hclose⟩
    rcases hv.cases_head with ⟨hc, -⟩ | ⟨-, hs, rfl⟩ | ⟨hc, -⟩ | ⟨num, hnum, -⟩ | ⟨hc, -⟩ |
      ⟨hc, -⟩ | ⟨hc, -⟩
    any_goals (exact absurd hc (by decide))
    · exact ⟨s₂, hs, hclose⟩
    · exact absurd hnum.head (by decide)
  · rintro ⟨r, rfl, hclose⟩
    exact ⟨_, r, .true _ r, hclose⟩

theorem valNext_false {outer : List Open} {s : List Nat} {res : PyVal} :
    ValNext enc numVal objVal limit outer (0x66 :: s) res ↔
      ∃ r, s = 0x61 :: 0x6C :: 0x73 :: 0x65 :: r ∧
        Closes enc numVal objVal limit outer (.bool false) r res := by
  rw [valNext_noWs (by simp [isWs])]
  constructor
  · rintro ⟨v, s₂, hv, hclose⟩
    rcases hv.cases_head with ⟨hc, -⟩ | ⟨hc, -⟩ | ⟨-, hs, rfl⟩ | ⟨num, hnum, -⟩ | ⟨hc, -⟩ |
      ⟨hc, -⟩ | ⟨hc, -⟩
    any_goals (exact absurd hc (by decide))
    · exact ⟨s₂, hs, hclose⟩
    · exact absurd hnum.head (by decide)
  · rintro ⟨r, rfl, hclose⟩
    exact ⟨_, r, .false _ r, hclose⟩

/-- `null`. -/
theorem valNext_null {outer : List Open} {s : List Nat} {res : PyVal} :
    ValNext enc numVal objVal limit outer (0x6E :: 0x75 :: 0x6C :: 0x6C :: s) res ↔
      Closes enc numVal objVal limit outer .none s res := by
  rw [valNext_noWs (by simp [isWs])]
  constructor
  · rintro ⟨v, s₂, hv, hclose⟩
    rcases hv.cases_head with ⟨-, hs, rfl⟩ | ⟨hc, -⟩ | ⟨hc, -⟩ | ⟨num, hnum, -⟩ | ⟨hc, -⟩ |
      ⟨hc, -⟩ | ⟨hc, -⟩
    any_goals (exact absurd hc (by decide))
    · simp only [List.cons.injEq, true_and] at hs
      exact hs ▸ hclose
    · -- no number literal begins with `nu`
      obtain ⟨t, ht, ⟨htext, -⟩ | ⟨bits, hspecial, -⟩⟩ := hnum
      · obtain ⟨c, t', rfl, hc⟩ := htext.head
        obtain ⟨rfl, -⟩ := List.cons.inj ht
        exact absurd hc (by decide)
      · cases hspecial with
        | inf neg heq =>
            cases neg with
            | true => cases ht
            | false =>
                cases heq with
                | cons hc _ =>
                    obtain ⟨rfl, -⟩ := List.cons.inj ht
                    exact absurd hc (by decide)
        | nan neg heq =>
            cases neg with
            | true => cases ht
            | false =>
                cases heq with
                | cons _ heq =>
                    cases heq with
                    | cons hc _ =>
                        obtain ⟨rfl, -⟩ := List.cons.inj (List.cons.inj ht).2
                        exact absurd hc (by decide)
  · intro hclose
    exact ⟨_, s, .null _ s, hclose⟩

/-- After an element: a comma. -/
theorem arrAfter_comma {vs : List PyVal} {outer : List Open} {s : List Nat} {res : PyVal} :
    ArrAfter enc numVal objVal limit vs outer (0x2C :: s) res ↔
      ValNext enc numVal objVal limit (.array vs :: outer) s res := by
  rw [valNext_array_iff]
  constructor
  · rintro ⟨ts, r, hrest, hclose⟩
    cases hrest with
    | close hend => exact absurd (hend.eq_of_noWs (by simp [isWs])) (by simp)
    | more hcomma hels =>
        obtain ⟨-, rfl⟩ := List.cons.inj (hcomma.eq_of_noWs (by simp [isWs]))
        exact ⟨ts, r, hels, hclose⟩
  · rintro ⟨ts, r, hels, hclose⟩
    exact ⟨ts, r, .more (.nil _) hels, hclose⟩

/-- After an element: the end of the array. -/
theorem arrAfter_bracket {vs : List PyVal} {outer : List Open} {s : List Nat} {res : PyVal} :
    ArrAfter enc numVal objVal limit vs outer (0x5D :: s) res ↔
      Closes enc numVal objVal limit outer (.list vs) s res := by
  constructor
  · rintro ⟨ts, r, hrest, hclose⟩
    cases hrest with
    | close hend =>
        obtain ⟨-, rfl⟩ := List.cons.inj (hend.eq_of_noWs (by simp [isWs]))
        simpa using hclose
    | more hcomma hels => exact absurd (hcomma.eq_of_noWs (by simp [isWs])) (by simp)
  · intro hclose
    exact ⟨[], s, .close (.nil _), by simpa using hclose⟩

/-- After an element: nothing else. -/
theorem not_arrAfter {vs : List PyVal} {outer : List Open} {s : List Nat} {res : PyVal}
    (hs : NoWs s) (h : ∀ c ∈ s.head?, c ≠ 0x2C ∧ c ≠ 0x5D) :
    ¬ ArrAfter enc numVal objVal limit vs outer s res := by
  rintro ⟨ts, r, hrest, -⟩
  cases hrest with
  | close hend =>
      obtain rfl := hend.eq_of_noWs hs
      exact (h _ rfl).2 rfl
  | more hcomma hels =>
      obtain rfl := hcomma.eq_of_noWs hs
      exact (h _ rfl).1 rfl

/-- After a member: a comma. -/
theorem objAfter_comma {ms : List (PyStr × PyVal)} {outer : List Open} {s : List Nat}
    {res : PyVal} :
    ObjAfter enc numVal objVal limit ms outer (0x2C :: s) res ↔
      ∃ s₁ k s₂, Ws s s₁ ∧ StringToken enc s₁ k s₂ ∧
        ColonNext enc numVal objVal limit ms k outer s₂ res := by
  rw [keyNext_members_iff]
  constructor
  · rintro ⟨ts, r, hrest, hclose⟩
    cases hrest with
    | close hend => exact absurd (hend.eq_of_noWs (by simp [isWs])) (by simp)
    | more hcomma hms =>
        obtain ⟨-, rfl⟩ := List.cons.inj (hcomma.eq_of_noWs (by simp [isWs]))
        exact ⟨ts, r, hms, hclose⟩
  · rintro ⟨ts, r, hms, hclose⟩
    exact ⟨ts, r, .more (.nil _) hms, hclose⟩

/-- After a member: the end of the object. -/
theorem objAfter_brace {ms : List (PyStr × PyVal)} {outer : List Open} {s : List Nat}
    {res : PyVal} :
    ObjAfter enc numVal objVal limit ms outer (0x7D :: s) res ↔
      Closes enc numVal objVal limit outer (objVal ms) s res := by
  constructor
  · rintro ⟨ts, r, hrest, hclose⟩
    cases hrest with
    | close hend =>
        obtain ⟨-, rfl⟩ := List.cons.inj (hend.eq_of_noWs (by simp [isWs]))
        simpa using hclose
    | more hcomma hms => exact absurd (hcomma.eq_of_noWs (by simp [isWs])) (by simp)
  · intro hclose
    exact ⟨[], s, .close (.nil _), by simpa using hclose⟩

/-- After a member: nothing else. -/
theorem not_objAfter {ms : List (PyStr × PyVal)} {outer : List Open} {s : List Nat}
    {res : PyVal} (hs : NoWs s) (h : ∀ c ∈ s.head?, c ≠ 0x2C ∧ c ≠ 0x7D) :
    ¬ ObjAfter enc numVal objVal limit ms outer s res := by
  rintro ⟨ts, r, hrest, -⟩
  cases hrest with
  | close hend =>
      obtain rfl := hend.eq_of_noWs hs
      exact (h _ rfl).2 rfl
  | more hcomma hms =>
      obtain rfl := hcomma.eq_of_noWs hs
      exact (h _ rfl).1 rfl

/-- Where a colon is due: a colon. -/
theorem colonNext_colon {ms : List (PyStr × PyVal)} {k : PyStr} {outer : List Open} {s : List Nat}
    {res : PyVal} :
    ColonNext enc numVal objVal limit ms k outer (0x3A :: s) res ↔
      ValNext enc numVal objVal limit (.member ms k :: outer) s res := by
  constructor
  · rintro ⟨s₁, hws, hnext⟩
    obtain ⟨-, rfl⟩ := List.cons.inj (hws.eq_of_noWs (by simp [isWs]))
    exact hnext
  · exact fun hnext => ⟨s, .nil _, hnext⟩

/-- Where a colon is due: nothing else. -/
theorem not_colonNext {ms : List (PyStr × PyVal)} {k : PyStr} {outer : List Open} {s : List Nat}
    {res : PyVal} (hs : NoWs s) (h : ∀ c ∈ s.head?, c ≠ 0x3A) :
    ¬ ColonNext enc numVal objVal limit ms k outer s res := by
  rintro ⟨s₁, hws, -⟩
  obtain rfl := hws.eq_of_noWs hs
  exact h _ rfl rfl

/-- Where an element is due: the end of an array without elements. -/
theorem arrNext_bracket {vs : List PyVal} {outer : List Open} {s : List Nat} {res : PyVal} :
    ArrNext enc numVal objVal limit vs outer (0x5D :: s) res ↔
      vs = [] ∧ Closes enc numVal objVal limit outer (.list vs) s res := by
  constructor
  · rintro (⟨rfl, r, hend, hclose⟩ | hnext)
    · obtain ⟨-, rfl⟩ := List.cons.inj (hend.eq_of_noWs (by simp [isWs]))
      exact ⟨rfl, hclose⟩
    · exact absurd hnext (not_valNext (by decide) (by decide) (by decide))
  · rintro ⟨rfl, hclose⟩
    exact .inl ⟨rfl, s, .nil _, hclose⟩

/-- Where an element is due: anything but white space and a closing bracket begins a value. -/
theorem arrNext_iff_valNext {vs : List PyVal} {outer : List Open} {s : List Nat} {res : PyVal}
    (hs : NoWs s) (h : ∀ c ∈ s.head?, c ≠ 0x5D) :
    ArrNext enc numVal objVal limit vs outer s res ↔
      ValNext enc numVal objVal limit (.array vs :: outer) s res := by
  constructor
  · rintro (⟨-, r, hend, -⟩ | hnext)
    · obtain rfl := hend.eq_of_noWs hs
      exact absurd rfl (h _ rfl)
    · exact hnext
  · exact .inr

/-- Where a key is due: the end of an object without members. -/
theorem keyNext_brace {ms : List (PyStr × PyVal)} {outer : List Open} {s : List Nat}
    {res : PyVal} :
    KeyNext enc numVal objVal limit ms outer (0x7D :: s) res ↔
      ms = [] ∧ Closes enc numVal objVal limit outer (objVal ms) s res := by
  constructor
  · rintro (⟨rfl, r, hend, hclose⟩ | ⟨s₁, k, s₂, hws, hk, -⟩)
    · obtain ⟨-, rfl⟩ := List.cons.inj (hend.eq_of_noWs (by simp [isWs]))
      exact ⟨rfl, hclose⟩
    · obtain rfl := hws.eq_of_noWs (by simp [isWs])
      cases hk
  · rintro ⟨rfl, hclose⟩
    exact .inl ⟨rfl, s, .nil _, hclose⟩

/-- Where a key is due: a string. -/
theorem keyNext_string {ms : List (PyStr × PyVal)} {outer : List Open} {s : List Nat}
    {res : PyVal} :
    KeyNext enc numVal objVal limit ms outer (0x22 :: s) res ↔
      ∃ k r, StringToken enc (0x22 :: s) k r ∧
        ColonNext enc numVal objVal limit ms k outer r res := by
  constructor
  · rintro (⟨-, r, hend, -⟩ | ⟨s₁, k, s₂, hws, hk, hcolon⟩)
    · exact absurd (hend.eq_of_noWs (by simp [isWs])) (by simp)
    · obtain rfl := hws.eq_of_noWs (by simp [isWs])
      exact ⟨k, s₂, hk, hcolon⟩
  · rintro ⟨k, r, hk, hcolon⟩
    exact .inr ⟨_, k, r, .nil _, hk, hcolon⟩

/-- Where a key is due: nothing else. -/
theorem not_keyNext {ms : List (PyStr × PyVal)} {outer : List Open} {s : List Nat} {res : PyVal}
    (hs : NoWs s) (h : ∀ c ∈ s.head?, c ≠ 0x22 ∧ c ≠ 0x7D) :
    ¬ KeyNext enc numVal objVal limit ms outer s res := by
  rintro (⟨-, r, hend, -⟩ | ⟨s₁, k, s₂, hws, hk, -⟩)
  · obtain rfl := hend.eq_of_noWs hs
    exact (h _ rfl).2 rfl
  · obtain rfl := hws.eq_of_noWs hs
    cases hk
    exact (h _ rfl).1 rfl

/-! ## A value has been read -/

theorem closes_array_iff {vs : List PyVal} {outer : List Open} {v res : PyVal} {s : List Nat} :
    Closes enc numVal objVal limit (.array vs :: outer) v s res ↔
      ArrAfter enc numVal objVal limit (vs ++ [v]) outer s res := by
  simp [Closes, ArrAfter]

theorem closes_member_iff {ms : List (PyStr × PyVal)} {k : PyStr} {outer : List Open}
    {v res : PyVal} {s : List Nat} :
    Closes enc numVal objVal limit (.member ms k :: outer) v s res ↔
      ObjAfter enc numVal objVal limit (ms ++ [(k, v)]) outer s res := by
  simp [Closes, ObjAfter]

/-- At the start of a text, with nothing open, a document comes next. -/
theorem valNext_nil_iff {s : List Nat} {v : PyVal} :
    ValNext enc numVal objVal limit [] s v ↔ Document enc numVal objVal limit s v := by
  constructor
  · rintro ⟨s₁, w, s₂, hws, hv, rfl, hend⟩
    exact ⟨hws, hv, hend⟩
  · rintro ⟨hws, hv, hend⟩
    exact ⟨_, v, _, hws, hv, rfl, hend⟩

end SsrJson.Spec

import Mathlib.Data.List.Basic

/-!
# UTF-8

The bytes of a code point and the reader of one code point, which inverts them. Surrogates have no
UTF-8 form.
-/

namespace SsrJson.Utf8

/-- A code point that is no surrogate. -/
def isScalar (c : Nat) : Bool := c ≤ 0x10FFFF && !(0xD800 ≤ c && c ≤ 0xDFFF)

/-- The bytes of a code point. -/
def bytes (c : Nat) : List Nat :=
  if c < 0x80 then [c]
  else if c < 0x800 then [0xC0 + c / 64, 0x80 + c % 64]
  else if c < 0x10000 then [0xE0 + c / 4096, 0x80 + c / 64 % 64, 0x80 + c % 64]
  else [0xF0 + c / 262144, 0x80 + c / 4096 % 64, 0x80 + c / 64 % 64, 0x80 + c % 64]

/-- The bytes of a code point that has some. -/
def enc (c : Nat) : Option (List Nat) := if isScalar c then some (bytes c) else none

/-- A byte that goes on a sequence. -/
def isCont (b : Nat) : Bool := 0x80 ≤ b && b ≤ 0xBF

/-- The payload of a sequence of two bytes. -/
def seq2 (b₀ b₁ : Nat) : Nat := (b₀ - 0xC0) * 64 + (b₁ - 0x80)

/-- The payload of a sequence of three bytes. -/
def seq3 (b₀ b₁ b₂ : Nat) : Nat := ((b₀ - 0xE0) * 64 + (b₁ - 0x80)) * 64 + (b₂ - 0x80)

/-- The payload of a sequence of four bytes. -/
def seq4 (b₀ b₁ b₂ b₃ : Nat) : Nat :=
  (((b₀ - 0xF0) * 64 + (b₁ - 0x80)) * 64 + (b₂ - 0x80)) * 64 + (b₃ - 0x80)

/-- Two bytes that are a code point of two bytes. -/
def IsSeq2 (b₀ b₁ : Nat) : Prop := 0xC2 ≤ b₀ ∧ b₀ < 0xE0 ∧ isCont b₁ = true

/-- Three bytes that are a code point of three bytes. -/
def IsSeq3 (b₀ b₁ b₂ : Nat) : Prop :=
  0xE0 ≤ b₀ ∧ b₀ < 0xF0 ∧ isCont b₁ = true ∧ isCont b₂ = true ∧
    0x800 ≤ seq3 b₀ b₁ b₂ ∧ isScalar (seq3 b₀ b₁ b₂) = true

/-- Four bytes that are a code point of four bytes. -/
def IsSeq4 (b₀ b₁ b₂ b₃ : Nat) : Prop :=
  0xF0 ≤ b₀ ∧ b₀ < 0xF8 ∧ isCont b₁ = true ∧ isCont b₂ = true ∧ isCont b₃ = true ∧
    0x10000 ≤ seq4 b₀ b₁ b₂ b₃ ∧ seq4 b₀ b₁ b₂ b₃ ≤ 0x10FFFF

instance (b₀ b₁ : Nat) : Decidable (IsSeq2 b₀ b₁) := inferInstanceAs (Decidable (_ ∧ _))
instance (b₀ b₁ b₂ : Nat) : Decidable (IsSeq3 b₀ b₁ b₂) := inferInstanceAs (Decidable (_ ∧ _))
instance (b₀ b₁ b₂ b₃ : Nat) : Decidable (IsSeq4 b₀ b₁ b₂ b₃) :=
  inferInstanceAs (Decidable (_ ∧ _))

/-- The code point a text begins with. -/
def next : List Nat → Option (Nat × List Nat)
  | [] => none
  | b₀ :: s =>
    if b₀ < 0x80 then some (b₀, s)
    else
      match s with
      | [] => none
      | b₁ :: s =>
        if IsSeq2 b₀ b₁ then some (seq2 b₀ b₁, s)
        else
          match s with
          | [] => none
          | b₂ :: s =>
            if IsSeq3 b₀ b₁ b₂ then some (seq3 b₀ b₁ b₂, s)
            else
              match s with
              | [] => none
              | b₃ :: s => if IsSeq4 b₀ b₁ b₂ b₃ then some (seq4 b₀ b₁ b₂ b₃, s) else none

/-! ## Sequences -/

variable {b₀ b₁ b₂ b₃ c : Nat}

theorem isCont_iff {b : Nat} : isCont b = true ↔ 0x80 ≤ b ∧ b ≤ 0xBF := by
  simp [isCont]

theorem isScalar_iff : isScalar c = true ↔ c ≤ 0x10FFFF ∧ ¬ (0xD800 ≤ c ∧ c ≤ 0xDFFF) := by
  simp only [isScalar, Bool.and_eq_true, Bool.not_eq_true', Bool.and_eq_false_iff,
    decide_eq_true_eq, decide_eq_false_iff_not]
  omega

theorem IsSeq2.range (h : IsSeq2 b₀ b₁) : 0x80 ≤ seq2 b₀ b₁ ∧ seq2 b₀ b₁ < 0x800 := by
  obtain ⟨h₀, h₀', h₁⟩ := h
  rw [isCont_iff] at h₁
  unfold seq2
  omega

theorem IsSeq3.range (h : IsSeq3 b₀ b₁ b₂) :
    0x800 ≤ seq3 b₀ b₁ b₂ ∧ seq3 b₀ b₁ b₂ < 0x10000 := by
  obtain ⟨h₀, h₀', h₁, h₂, hlow, -⟩ := h
  rw [isCont_iff] at h₁ h₂
  refine ⟨hlow, ?_⟩
  unfold seq3
  omega

/-- A sequence holds the bytes of its payload. -/
theorem IsSeq2.bytes_eq (h : IsSeq2 b₀ b₁) : bytes (seq2 b₀ b₁) = [b₀, b₁] := by
  have hrange := h.range
  obtain ⟨h₀, h₀', h₁⟩ := h
  rw [isCont_iff] at h₁
  rw [bytes, if_neg (by omega), if_pos hrange.2]
  unfold seq2
  simp only [List.cons.injEq, and_true]
  omega

theorem IsSeq3.bytes_eq (h : IsSeq3 b₀ b₁ b₂) : bytes (seq3 b₀ b₁ b₂) = [b₀, b₁, b₂] := by
  have hrange := h.range
  obtain ⟨h₀, h₀', h₁, h₂, -⟩ := h
  rw [isCont_iff] at h₁ h₂
  rw [bytes, if_neg (by omega), if_neg (by omega), if_pos hrange.2]
  unfold seq3
  simp only [List.cons.injEq, and_true]
  omega

theorem IsSeq4.bytes_eq (h : IsSeq4 b₀ b₁ b₂ b₃) :
    bytes (seq4 b₀ b₁ b₂ b₃) = [b₀, b₁, b₂, b₃] := by
  obtain ⟨h₀, h₀', h₁, h₂, h₃, hlow, -⟩ := h
  rw [isCont_iff] at h₁ h₂ h₃
  rw [bytes, if_neg (by omega), if_neg (by omega), if_neg (by omega)]
  unfold seq4
  simp only [List.cons.injEq, and_true]
  omega

/-- The bytes of a code point by its size. -/
theorem bytes_cases (h : isScalar c = true) :
    (c < 0x80 ∧ bytes c = [c]) ∨
    (∃ b₀ b₁, IsSeq2 b₀ b₁ ∧ c = seq2 b₀ b₁ ∧ bytes c = [b₀, b₁]) ∨
    (∃ b₀ b₁ b₂, IsSeq3 b₀ b₁ b₂ ∧ c = seq3 b₀ b₁ b₂ ∧ bytes c = [b₀, b₁, b₂]) ∨
    (∃ b₀ b₁ b₂ b₃, IsSeq4 b₀ b₁ b₂ b₃ ∧ c = seq4 b₀ b₁ b₂ b₃ ∧ bytes c = [b₀, b₁, b₂, b₃]) := by
  have hscalar := isScalar_iff.mp h
  have hcont : ∀ n, isCont (0x80 + n % 64) = true := fun n => by
    rw [isCont_iff]
    omega
  by_cases h₁ : c < 0x80
  · exact .inl ⟨h₁, if_pos h₁⟩
  by_cases h₂ : c < 0x800
  · refine .inr (.inl ⟨_, _, ⟨?_, ?_, hcont c⟩, ?_, by rw [bytes, if_neg h₁, if_pos h₂]⟩)
    · omega
    · omega
    · unfold seq2
      omega
  by_cases h₃ : c < 0x10000
  · have hval : c = seq3 (0xE0 + c / 4096) (0x80 + c / 64 % 64) (0x80 + c % 64) := by
      unfold seq3
      omega
    refine .inr (.inr (.inl ⟨_, _, _, ⟨by omega, by omega, hcont _, hcont _, ?_, ?_⟩, hval,
      by rw [bytes, if_neg h₁, if_neg h₂, if_pos h₃]⟩))
    · rw [← hval]
      omega
    · rwa [← hval]
  · have hval : c = seq4 (0xF0 + c / 262144) (0x80 + c / 4096 % 64) (0x80 + c / 64 % 64)
        (0x80 + c % 64) := by
      unfold seq4
      omega
    refine .inr (.inr (.inr ⟨_, _, _, _, ⟨by omega, by omega, hcont _, hcont _, hcont _, ?_, ?_⟩,
      hval, by rw [bytes, if_neg h₁, if_neg h₂, if_neg h₃]⟩))
    · rw [← hval]
      omega
    · rw [← hval]
      omega

theorem enc_low (h : c < 0x80) : enc c = some [c] := by
  rw [enc, if_pos (isScalar_iff.mpr (by omega)), bytes, if_pos h]

/-- Only code points below `0x80` begin with such a byte. -/
theorem enc_high {u : List Nat} (h : 0x80 ≤ c) (henc : enc c = some u) :
    ∃ b t, u = b :: t ∧ 0x80 ≤ b := by
  simp only [enc, Option.ite_none_right_eq_some, Option.some.injEq] at henc
  obtain ⟨hscalar, rfl⟩ := henc
  rcases bytes_cases hscalar with ⟨hlow, -⟩ | ⟨b₀, b₁, hseq, -, hb⟩ |
    ⟨b₀, b₁, b₂, hseq, -, hb⟩ | ⟨b₀, b₁, b₂, b₃, hseq, -, hb⟩
  · omega
  · exact ⟨b₀, _, hb, by have := hseq.1; omega⟩
  · exact ⟨b₀, _, hb, by have := hseq.1; omega⟩
  · exact ⟨b₀, _, hb, by have := hseq.1; omega⟩

/-! ## The reader -/

theorem next_seq2 (h : IsSeq2 b₀ b₁) (s : List Nat) :
    next (b₀ :: b₁ :: s) = some (seq2 b₀ b₁, s) := by
  have := h.1
  unfold next
  dsimp only
  rw [if_neg (by omega), if_pos h]

theorem next_seq3 (h : IsSeq3 b₀ b₁ b₂) (s : List Nat) :
    next (b₀ :: b₁ :: b₂ :: s) = some (seq3 b₀ b₁ b₂, s) := by
  have := h.1
  unfold next
  dsimp only
  rw [if_neg (by omega), if_neg (fun h' => by have := h'.2.1; omega), if_pos h]

theorem next_seq4 (h : IsSeq4 b₀ b₁ b₂ b₃) (s : List Nat) :
    next (b₀ :: b₁ :: b₂ :: b₃ :: s) = some (seq4 b₀ b₁ b₂ b₃, s) := by
  have := h.1
  unfold next
  dsimp only
  rw [if_neg (by omega), if_neg (fun h' => by have := h'.2.1; omega), if_neg (fun h' => by have := h'.2.1; omega),
    if_pos h]

/-- The reader takes off the bytes of a code point. -/
theorem next_iff {s r : List Nat} : next s = some (c, r) ↔ ∃ u, enc c = some u ∧ s = u ++ r := by
  constructor
  · intro h
    have hok : ∀ {u : List Nat}, isScalar c = true → bytes c = u → enc c = some u := by
      rintro _ hs rfl
      exact if_pos hs
    cases s with
    | nil => cases h
    | cons b₀ s =>
        unfold next at h
        dsimp only at h
        split at h
        · cases h
          refine ⟨[c], hok (isScalar_iff.mpr (by omega)) ?_, rfl⟩
          rw [bytes, if_pos ‹_›]
        cases s with
        | nil => cases h
        | cons b₁ s =>
            dsimp only at h
            split at h
            · rename_i hseq
              simp only [Option.some.injEq, Prod.mk.injEq] at h
              obtain ⟨rfl, rfl⟩ := h
              have hrange := hseq.range
              exact ⟨_, hok (isScalar_iff.mpr (by omega)) hseq.bytes_eq, rfl⟩
            cases s with
            | nil => cases h
            | cons b₂ s =>
                dsimp only at h
                split at h
                · rename_i hseq
                  simp only [Option.some.injEq, Prod.mk.injEq] at h
                  obtain ⟨rfl, rfl⟩ := h
                  exact ⟨_, hok hseq.2.2.2.2.2 hseq.bytes_eq, rfl⟩
                cases s with
                | nil => cases h
                | cons b₃ s =>
                    dsimp only at h
                    split at h
                    · rename_i hseq
                      simp only [Option.some.injEq, Prod.mk.injEq] at h
                      obtain ⟨rfl, rfl⟩ := h
                      have hlow := hseq.2.2.2.2.2
                      exact ⟨_, hok (isScalar_iff.mpr (by omega)) hseq.bytes_eq, rfl⟩
                    · cases h
  · rintro ⟨u, hu, rfl⟩
    simp only [enc, Option.ite_none_right_eq_some, Option.some.injEq] at hu
    obtain ⟨hscalar, rfl⟩ := hu
    rcases bytes_cases hscalar with ⟨hlow, hb⟩ | ⟨b₀, b₁, hseq, hc, hb⟩ |
      ⟨b₀, b₁, b₂, hseq, hc, hb⟩ | ⟨b₀, b₁, b₂, b₃, hseq, hc, hb⟩
    · rw [hb]
      exact if_pos hlow
    · rw [hb, hc]
      exact next_seq2 hseq r
    · rw [hb, hc]
      exact next_seq3 hseq r
    · rw [hb, hc]
      exact next_seq4 hseq r

end SsrJson.Utf8

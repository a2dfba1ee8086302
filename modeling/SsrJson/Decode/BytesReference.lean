import SsrJson.Decode.BytesBlockSpec

/-!
# The block reader against a scalar decoder

`takePlain` decodes UTF-8 character by character, up to the first one that does not stand for itself
in a string or is too large. The block reader copies the same characters and stops for the same
reason, however the shapes of sixteen bytes follow one another. Only where it finds an error does it
stop early: at the start of the sixteen bytes that hold it.
-/

namespace SsrJson.Decode

open Spec Utf8

/-! ## The scalar decoder -/

/-- What a scalar decoder stops at. -/
inductive PlainStop where
  | quote
  | backslash
  /-- A character the bound excludes. -/
  | wide
  /-- A control character, the end of the text or a sequence that is ill formed. -/
  | bad
  deriving DecidableEq, Repr

/-- The characters below `bound` a text begins with that stand for themselves in a string, what
follows them, and the text from there on. -/
def takePlain (bound : Nat) : List Nat → List Nat × PlainStop × List Nat
  | [] => ([], .bad, [])
  | b :: s =>
    if b = 0x22 then ([], .quote, b :: s)
    else if b = 0x5C then ([], .backslash, b :: s)
    else if b < 0x20 then ([], .bad, b :: s)
    else
      match _h : Utf8.next (b :: s) with
      | none => ([], .bad, b :: s)
      | some (d, r) =>
        if d < bound then
          let (ds, stop, rest) := takePlain bound r
          (d :: ds, stop, rest)
        else ([], .wide, b :: s)
termination_by s => s.length
decreasing_by exact @CharCode.next_length .utf8 _ _ _ _h

/-- The state of a block reader that stops there. -/
def PlainStop.state : PlainStop → BlockState
  | .quote => .end
  | .backslash => .escape
  | .wide => .promote
  | .bad => .invalid

section

variable {src : Source} {cur cur' bound : Nat} {ds : List Nat}

/-- A character that was passed is taken. -/
theorem Took.takePlain_cons {d : Nat} (h : Took src cur cur' [d]) (hd : d < bound) :
    takePlain bound (src.rest cur) =
      (d :: (takePlain bound (src.rest cur')).1, (takePlain bound (src.rest cur')).2) := by
  have hplain := isEscapeUnit_eq_false.mp h.head_plain
  have hbound := h.bound
  have hlt := h.lt (List.cons_ne_nil _ _)
  have hnext := h.next_eq
  rw [Source.rest_of_lt (hlt.trans_le hbound)] at hnext ⊢
  rw [takePlain, if_neg hplain.1, if_neg hplain.2.1, if_neg (Nat.not_lt.mpr hplain.2.2)]
  split
  · rename_i heq
    rw [hnext] at heq
    cases heq
  · rename_i e r heq
    rw [hnext] at heq
    cases heq
    rw [if_pos hd]

/-- So are those that were passed one behind the other. -/
theorem Took.takePlain_append (h : Took src cur cur' ds) (hfits : ∀ d ∈ ds, d < bound) :
    takePlain bound (src.rest cur) =
      (ds ++ (takePlain bound (src.rest cur')).1, (takePlain bound (src.rest cur')).2) := by
  induction ds generalizing cur with
  | nil =>
      rw [h.same]
      rfl
  | cons d ds ih =>
      obtain ⟨hfirst, hrest⟩ := h.uncons
      obtain ⟨hd, hfits⟩ := List.forall_mem_cons.mp hfits
      rw [hfirst.takePlain_cons hd, ih hrest hfits]
      rfl

/-- A sequence of two bytes is taken. -/
theorem takePlain_seq2 {b₀ b₁ : Nat} (hseq : IsSeq2 b₀ b₁) (hfits : seq2 b₀ b₁ < bound)
    (s : List Nat) : takePlain bound (b₀ :: b₁ :: s) =
      (seq2 b₀ b₁ :: (takePlain bound s).1, (takePlain bound s).2) := by
  have hnext := next_seq2 hseq s
  have hlead := hseq.1
  rw [takePlain, if_neg (by omega), if_neg (by omega), if_neg (by omega)]
  split
  · rename_i heq
    rw [hnext] at heq
    cases heq
  · rename_i d r heq
    rw [hnext, Option.some.injEq, Prod.mk.injEq] at heq
    rw [← heq.1, ← heq.2, if_pos hfits]

/-- What the scalar decoder stops at. -/
def StopsAt (src : Source) (bound cur : Nat) : PlainStop → Prop
  | .quote => src.read cur = 0x22
  | .backslash => src.read cur = 0x5C
  | .wide => WideAt src cur bound
  | .bad => BadAt src cur

/-- There it takes nothing. -/
theorem StopsAt.takePlain_eq {stop : PlainStop} (hle : cur ≤ src.len)
    (h : StopsAt src bound cur stop) :
    takePlain bound (src.rest cur) = ([], stop, src.rest cur) := by
  cases stop with
  | quote =>
      have hread : src.read cur = 0x22 := h
      have hlt := Source.lt_of_read hle (show src.read cur ≠ 0 by omega)
      rw [Source.rest_of_lt hlt, takePlain, if_pos hread]
  | backslash =>
      have hread : src.read cur = 0x5C := h
      have hlt := Source.lt_of_read hle (show src.read cur ≠ 0 by omega)
      rw [Source.rest_of_lt hlt, takePlain, if_neg (by omega), if_pos hread]
  | wide =>
      obtain ⟨d, cur', htook, hd⟩ := h
      have hplain := isEscapeUnit_eq_false.mp htook.head_plain
      have hbound := htook.bound
      have hlt := htook.lt (List.cons_ne_nil _ _)
      have hnext := htook.next_eq
      rw [Source.rest_of_lt (hlt.trans_le hbound)] at hnext ⊢
      rw [takePlain, if_neg hplain.1, if_neg hplain.2.1, if_neg (Nat.not_lt.mpr hplain.2.2)]
      split
      · rename_i heq
        rw [hnext] at heq
        cases heq
      · rename_i e r heq
        rw [hnext] at heq
        cases heq
        rw [if_neg (Nat.not_lt.mpr hd)]
  | bad =>
      obtain ⟨hquote, hback, hchar⟩ := h
      rcases Nat.lt_or_eq_of_le hle with hlt | rfl
      · rw [Source.rest_of_lt hlt, takePlain, if_neg hquote, if_neg hback]
        split
        · rfl
        · rename_i hctl
          have hplain := isEscapeUnit_eq_false.mpr ⟨hquote, hback, Nat.le_of_not_lt hctl⟩
          split
          · rfl
          · rename_i e r heq
            rw [← Source.rest_of_lt hlt] at heq
            exact absurd (Took.of_next hle hplain heq) (hchar _ _)
      · rw [Source.rest_len, takePlain]

end

/-! ## The block reader -/

/-- What a block reader does is what the scalar decoder does: it copies the same characters and
stops for the same reason. An error is reported up to fifteen bytes in front of where it stands. -/
structure AgreesWithPlain (src : Source) (w : Writer) (cur : Nat) (result : BlockState × Writer × Nat)
    (plain : List Nat × PlainStop × List Nat) : Prop where
  state : result.1 = plain.2.1.state
  sound : result.2.1.Sound
  level : result.2.1.level = w.level
  /-- Where the scalar decoder finds no error, the same characters and the same place. -/
  copied : plain.2.1 ≠ .bad →
    result.2.1.content = w.content ++ plain.1 ∧ src.rest result.2.2 = plain.2.2
  /-- Where it finds one, some of its characters, up to less than sixteen bytes in front of it. -/
  failed : plain.2.1 = .bad → ∃ ds es, plain.1 = ds ++ es ∧
    result.2.1.content = w.content ++ ds ∧
      src.rest result.2.2 = es.flatMap bytes ++ plain.2.2 ∧ (es.flatMap bytes).length < 16

/-- The block reader copies the characters a scalar decoder takes, for every mixture of lengths at
every place, and always returns. -/
theorem decodeBytesBlock_agrees (isa : Isa) {src : Source} {w : Writer} {cur fuel : Nat}
    (hbytes : src.IsBytes) (hsound : w.Sound) (hle : cur ≤ src.len)
    (hfuel : src.len - cur < fuel) :
    AgreesWithPlain src w cur (decodeBytesBlock isa src fuel 32 w cur)
      (takePlain (levelBound w.level) (src.rest cur)) := by
  obtain ⟨state, w', cur', ds, heq, hcopied, -, hstop⟩ :=
    decodeBytesBlock_spec isa hbytes fuel 32 (by decide) hsound hle hfuel
  have hbound := hcopied.took.bound
  have htake := hcopied.took.takePlain_append hcopied.fits
  -- the places where the block reader stops for the reason the scalar decoder does
  have hagree : ∀ stop : PlainStop, stop ≠ .bad → state = stop.state →
      StopsAt src (levelBound w.level) cur' stop →
      AgreesWithPlain src w cur (state, w', cur') (takePlain (levelBound w.level) (src.rest cur)) := by
    intro stop hne hstate hat
    rw [htake, hat.takePlain_eq hbound, List.append_nil]
    exact ⟨hstate, hcopied.sound, hcopied.level, fun _ => ⟨hcopied.content, rfl⟩,
      fun hbad => absurd hbad hne⟩
  rw [heq]
  cases state with
  | «continue» =>
      have hlimit : src.len + 1 ≤ cur' := hstop
      omega
  | «end» => exact hagree .quote (by decide) rfl hstop
  | escape => exact hagree .backslash (by decide) rfl hstop
  | promote => exact hagree .wide (by decide) rfl hstop.2
  | invalid =>
      obtain ⟨last, es, hes, hfits, hnear, hbad⟩ := hstop
      have hat : StopsAt src (levelBound w.level) last .bad := hbad
      have hlen := congrArg List.length hes.rest
      have hmove := hes.le
      have hlast := hes.bound
      simp only [Source.length_rest, List.length_append] at hlen
      rw [htake, hes.takePlain_append hfits, hat.takePlain_eq hes.bound, List.append_nil]
      exact ⟨rfl, hcopied.sound, hcopied.level, fun hne => absurd rfl hne,
        fun _ => ⟨ds, es, rfl, hcopied.content, hes.rest, by omega⟩⟩

theorem decodeBytesBlock_agrees_mixed :
    let src := Source.ofUnits [0x61, 0xC3, 0xA9, 0xE2, 0x82, 0xAC, 0x22]
    let w : Writer := ⟨1, fun _ => 0, 0, 0, 0, true, 0⟩
    AgreesWithPlain src w 0 (decodeBytesBlock .avx2 src (src.len + 1) 32 w 0)
      (takePlain (levelBound w.level) (src.rest 0)) := by
  intro src w
  exact decodeBytesBlock_agrees .avx2 (Source.isBytes_ofUnits (by decide))
    ⟨.inl rfl, fun _ => ⟨rfl, rfl⟩, fun h => absurd h (by decide)⟩ (Nat.zero_le _) (by decide)

/-- The block reader does not take the seven characters in front of an overlong sequence that stands
in the same sixteen bytes. -/
theorem block_error_in_front :
    ¬ ∀ (isa : Isa) (src : Source) (w : Writer) (cur fuel : Nat), src.IsBytes → w.Sound →
      cur ≤ src.len → src.len - cur < fuel →
        (decodeBytesBlock isa src fuel 32 w cur).2.1.content =
          w.content ++ (takePlain (levelBound w.level) (src.rest cur)).1 := by
  intro hall
  have h := hall .avx2 (.ofUnits [0xC3, 0xA9, 0xC3, 0xA9, 0xC3, 0xA9, 0xC3, 0xA9, 0xC3, 0xA9, 0xC3,
    0xA9, 0xC3, 0xA9, 0xC0, 0x80, 0x22]) ⟨1, fun _ => 0, 0, 0, 0, true, 0⟩ 0 18
    (Source.isBytes_ofUnits (by decide))
    ⟨.inl rfl, fun _ => ⟨rfl, rfl⟩, fun h => absurd h (by decide)⟩ (Nat.zero_le _) (by decide)
  have htaken := @takePlain_seq2 0x100 0xC3 0xA9 (by decide) (by decide)
  have hbad : (takePlain 0x100 [0xC0, 0x80, 0x22]).1 = [] := by
    rw [takePlain]
    rfl
  simp only [Source.rest, Source.ofUnits, List.drop_zero, levelBound, if_true, htaken, hbad] at h
  revert h
  decide +kernel

end SsrJson.Decode

import Mathlib.Data.Set.Finite.Basic
import Mathlib.Logic.Relation
import Mathlib.Order.WellFounded

/-!
# Locks taken along an order

Parties hold some resources and wait for others. When what a party waits for is always smaller in a
well-founded order than what it holds, no set of parties waits in a circle. The descendants in a
finite graph without cycles are such an order.
-/

namespace SsrJson

variable {Party Resource : Type*}

/-- A set of parties each of which waits for a resource that one of them holds. -/
structure WaitCycle (waits holds : Party → Resource → Prop) (parties : Set Party) : Prop where
  nonempty : parties.Nonempty
  blocked : ∀ party ∈ parties, ∃ resource, waits party resource ∧
    ∃ owner ∈ parties, holds owner resource

/-- Resources that are taken along a well-founded order leave no circle of waits. -/
theorem not_waitCycle {smaller : Resource → Resource → Prop} (hwf : WellFounded smaller)
    {waits holds : Party → Resource → Prop}
    (horder : ∀ party awaited held, waits party awaited → holds party held → smaller awaited held)
    (parties : Set Party) : ¬ WaitCycle waits holds parties := by
  intro h
  let contended := {resource | ∃ party ∈ parties, waits party resource ∧
    ∃ owner ∈ parties, holds owner resource}
  have hsome : contended.Nonempty := by
    obtain ⟨party, hparty⟩ := h.nonempty
    obtain ⟨resource, hwaits, howner⟩ := h.blocked party hparty
    exact ⟨resource, party, hparty, hwaits, howner⟩
  -- The owner of the least contended resource waits for a smaller one.
  obtain ⟨least, ⟨-, -, -, owner, howner, hholds⟩, hleast⟩ := hwf.has_min contended hsome
  obtain ⟨resource, hwaits, hheld⟩ := h.blocked owner howner
  exact hleast resource ⟨owner, howner, hwaits, hheld⟩ (horder owner resource least hwaits hholds)

/-- In a graph of finitely many inner nodes without cycles the descendants are well-founded. -/
theorem wellFounded_descendants {edge : Resource → Resource → Prop} {inner : Set Resource}
    (hfinite : inner.Finite) (hinner : ∀ a b, edge a b → a ∈ inner)
    (hacyclic : ∀ a, ¬ Relation.TransGen edge a a) :
    WellFounded fun a b => Relation.TransGen edge b a := by
  have hstart : ∀ a b, Relation.TransGen edge a b → a ∈ inner := by
    intro a b h
    obtain ⟨next, hedge, -⟩ := Relation.TransGen.head'_iff.mp h
    exact hinner a next hedge
  let descends := fun a b : inner => Relation.TransGen edge b.1 a.1
  have hwf : WellFounded descends := by
    have : Finite inner := hfinite
    have : IsTrans inner descends := ⟨fun _ _ _ hab hbc => hbc.trans hab⟩
    have : Std.Irrefl descends := ⟨fun a => hacyclic a.1⟩
    exact Finite.wellFounded_of_trans_of_irrefl descends
  -- A node that is not inner has no descendants.
  have hleaf : ∀ a, a ∉ inner → Acc (fun a b => Relation.TransGen edge b a) a :=
    fun a ha => Acc.intro a fun b hb => absurd (hstart a b hb) ha
  have hnode : ∀ a : inner, Acc (fun a b => Relation.TransGen edge b a) a.1 := by
    intro a
    induction a using hwf.induction with
    | h a ih =>
        refine Acc.intro a.1 fun b hb => ?_
        by_cases hin : b ∈ inner
        · exact ih ⟨b, hin⟩ hb
        · exact hleaf b hin
  refine ⟨fun a => ?_⟩
  by_cases ha : a ∈ inner
  · exact hnode ⟨a, ha⟩
  · exact hleaf a ha

end SsrJson

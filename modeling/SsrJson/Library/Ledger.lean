import Mathlib.Data.List.Perm.Basic
import Mathlib.Data.List.Nodup

/-!
# Ledgers

What was acquired and must be given up exactly once: references, or allocations. Every acquisition
draws a fresh token. Giving up a token that is not live is a fault, so a ledger without a fault saw
no token given up twice. `Accounts` says whose the live tokens are: each one has exactly one owner.
-/

namespace SsrJson

/-- The live tokens, and whether one was given up that was not live. -/
structure Ledger where
  next : Nat
  live : List Nat
  fault : Bool
  deriving DecidableEq, Repr

namespace Ledger

/-- Nothing was acquired yet. -/
def empty : Ledger := ⟨0, [], false⟩

/-- A fresh token. -/
def acquire (l : Ledger) : Nat × Ledger :=
  (l.next, { l with next := l.next + 1, live := l.next :: l.live })

/-- Give up a token. -/
def release (token : Nat) (l : Ledger) : Ledger :=
  if token ∈ l.live then { l with live := l.live.erase token } else { l with fault := true }

/-- Give up some tokens. -/
def releaseAll (tokens : List Nat) (l : Ledger) : Ledger :=
  tokens.foldl (fun l token => l.release token) l

/-- The live tokens are those of the owners, each owned once, and no fault occurred. -/
structure Accounts (l : Ledger) (owned : List Nat) : Prop where
  perm : l.live.Perm owned
  nodup : owned.Nodup
  old : ∀ token ∈ owned, token < l.next
  sound : l.fault = false

variable {l : Ledger} {owned : List Nat} {token : Nat}

theorem Accounts.empty : Accounts .empty [] := ⟨.nil, .nil, nofun, rfl⟩

theorem Accounts.congr {owned' : List Nat} (h : Accounts l owned) (hperm : owned.Perm owned') :
    Accounts l owned' :=
  ⟨h.perm.trans hperm, hperm.nodup_iff.mp h.nodup, fun t ht => h.old t (hperm.mem_iff.mpr ht),
    h.sound⟩

/-- A fresh token gets an owner. -/
theorem Accounts.acquire (h : Accounts l owned) : Accounts l.acquire.2 (l.acquire.1 :: owned) := by
  refine ⟨h.perm.cons _, List.nodup_cons.mpr ⟨fun hmem => ?_, h.nodup⟩, fun t ht => ?_, h.sound⟩
  · exact Nat.lt_irrefl _ (h.old _ hmem)
  · rcases List.mem_cons.mp ht with rfl | ht
    · exact Nat.lt_succ_self _
    · exact Nat.lt_succ_of_lt (h.old t ht)

/-- The owner of a token gives it up. -/
theorem Accounts.release (h : Accounts l (token :: owned)) : Accounts (l.release token) owned := by
  have hlive : token ∈ l.live := h.perm.mem_iff.mpr List.mem_cons_self
  rw [Ledger.release, if_pos hlive]
  refine ⟨?_, h.nodup.of_cons, fun t ht => h.old t (List.mem_cons_of_mem _ ht), h.sound⟩
  have herase := h.perm.erase token
  rwa [List.erase_cons_head] at herase

/-- The owners of some tokens give them up. -/
theorem Accounts.releaseAll {tokens : List Nat} (h : Accounts l (tokens ++ owned)) :
    Accounts (l.releaseAll tokens) owned := by
  induction tokens generalizing l with
  | nil => exact h
  | cons t tokens ih => exact ih (Accounts.release h)

end Ledger

end SsrJson

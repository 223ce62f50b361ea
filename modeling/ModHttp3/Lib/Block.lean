import Mathlib.Data.Nat.Notation
import Mathlib.Tactic.Common

/-! Growing blocks of memory on a machine whose sizes are bounded. Reads, copies and arithmetic are
partial: `none` is an access outside a block, or a result that the arithmetic does not give. -/
namespace ModHttp3.Lib

/-- The operations on sizes that a program uses. -/
structure SizeArith where
  add : ℕ → ℕ → Option ℕ
  sub : ℕ → ℕ → Option ℕ
  double : ℕ → Option ℕ

/-- Results modulo `size`, as the machine computes. -/
def wrapping (size : ℕ) : SizeArith where
  add a b := some ((a + b) % size)
  sub a b := some ((a + (size - b % size)) % size)
  double a := some (a * 2 % size)

/-- No result where the machine would wrap around. -/
def checked (size : ℕ) : SizeArith where
  add a b := if a + b < size then some (a + b) else none
  sub a b := if b ≤ a then some (a - b) else none
  double a := if a * 2 < size then some (a * 2) else none

/-- The operations are those of the natural numbers wherever these stay below `size`. -/
structure SizeArith.Exact (size : ℕ) (ar : SizeArith) : Prop where
  add : ∀ {a b}, a + b < size → ar.add a b = some (a + b)
  sub : ∀ {a b}, b ≤ a → a < size → ar.sub a b = some (a - b)
  double : ∀ {a}, a * 2 < size → ar.double a = some (a * 2)

theorem exact_wrapping (size : ℕ) : (wrapping size).Exact size where
  add h := congrArg some (Nat.mod_eq_of_lt h)
  sub {a b} hle hlt := by
    have hb : b % size = b := Nat.mod_eq_of_lt (by omega)
    have heq : a + (size - b) = a - b + size := by omega
    change some _ = some _
    rw [hb, heq, Nat.add_mod_right, Nat.mod_eq_of_lt (by omega)]
  double h := congrArg some (Nat.mod_eq_of_lt h)

theorem exact_checked (size : ℕ) : (checked size).Exact size where
  add h := if_pos h
  sub hle _ := if_pos hle
  double h := if_pos h

/-- `while (cap < need) cap *= 2;` -/
def growLoop (ar : SizeArith) : ℕ → ℕ → ℕ → Option ℕ
  | 0, _, _ => none
  | fuel + 1, cap, need => if cap < need then (ar.double cap).bind (growLoop ar fuel · need) else some cap

/-- `memcpy(dst + off, src, …)`. -/
def memcpy {α : Type*} (dst : List α) (off : ℕ) (src : List α) : Option (List α) :=
  if off + src.length ≤ dst.length then some (dst.take off ++ src ++ dst.drop (off + src.length)) else none

/-- The first `len` cells of a block as the source of a copy. -/
def readMem {α : Type*} (mem : List α) (len : ℕ) : Option (List α) := if len ≤ mem.length then some (mem.take len) else none

/-- A new block; `junk` is what happens to be in its cells. -/
def palloc {α : Type*} (junk : ℕ → α) (n : ℕ) : List α := (List.range n).map junk

/-- A pointer to a block with the variables for its length and its capacity. -/
structure Block (α : Type*) where
  mem : List α
  len : ℕ
  cap : ℕ
  deriving DecidableEq, Repr

namespace Block
variable {α : Type*} {b : Block α} {data : List α}

def empty : Block α := ⟨[], 0, 0⟩

def stored (b : Block α) : List α := b.mem.take b.len

/-- The variables describe the block. -/
structure WF (b : Block α) : Prop where
  cap : b.mem.length = b.cap
  len : b.len ≤ b.cap

/-- A larger block with the same contents. -/
def regrow (junk : ℕ → α) (newCap : ℕ) (b : Block α) : Option (Block α) :=
  let grown := palloc junk newCap
  if b.len ≠ 0 then do
    let old ← readMem b.mem b.len
    let grown ← memcpy grown 0 old
    return ⟨grown, b.len, newCap⟩
  else some ⟨grown, b.len, newCap⟩

/-- Copy behind what is stored. -/
def append (data : List α) (newLen : ℕ) (b : Block α) : Option (Block α) :=
  (memcpy b.mem b.len data).map fun mem => ⟨mem, newLen, b.cap⟩

theorem wf_empty : (empty : Block α).WF := ⟨rfl, Nat.le_refl _⟩

theorem WF.length_stored (h : b.WF) : b.stored.length = b.len := by
  have hcap := h.cap
  have hlen := h.len
  unfold stored
  rw [List.length_take]
  omega

theorem memcpy_eq {dst src : List α} {off : ℕ} (h : off + src.length ≤ dst.length) :
    ∃ mem, memcpy dst off src = some mem ∧ mem.length = dst.length ∧ mem.take (off + src.length) = dst.take off ++ src := by
  refine ⟨_, if_pos h, ?_, ?_⟩
  · simp only [List.length_append, List.length_take, List.length_drop]
    omega
  · have hlen : (dst.take off ++ src).length = off + src.length := by
      rw [List.length_append, List.length_take]
      omega
    rw [← hlen, List.take_left]

theorem regrow_spec (junk : ℕ → α) {newCap : ℕ} (h : b.WF) (hcap : b.len ≤ newCap) :
    ∃ b', b.regrow junk newCap = some b' ∧ b'.WF ∧ b'.stored = b.stored ∧ b'.len = b.len ∧ b'.cap = newCap := by
  have hpalloc : (palloc junk newCap).length = newCap := by simp [palloc]
  unfold regrow
  dsimp only
  split_ifs with hlen
  · have hread : readMem b.mem b.len = some b.stored := if_pos (h.cap ▸ h.len)
    have hold := h.length_stored
    have hroom : 0 + b.stored.length ≤ (palloc junk newCap).length := by omega
    obtain ⟨mem, hmem, hmemlen, htake⟩ := memcpy_eq hroom
    rw [hread]
    simp only [Option.bind_eq_bind, Option.bind_some, hmem]
    refine ⟨_, rfl, ⟨hmemlen.trans hpalloc, hcap⟩, ?_, rfl, rfl⟩
    rw [Nat.zero_add, hold, List.take_zero, List.nil_append] at htake
    exact htake
  · refine ⟨_, rfl, ⟨hpalloc, hcap⟩, ?_, rfl, rfl⟩
    have hzero : b.len = 0 := not_not.mp hlen
    unfold stored
    dsimp only
    rw [hzero, List.take_zero, List.take_zero]

theorem append_spec (h : b.WF) (hfits : b.len + data.length ≤ b.cap) :
    ∃ b', b.append data (b.len + data.length) = some b' ∧ b'.WF ∧ b'.stored = b.stored ++ data ∧ b'.cap = b.cap := by
  have hroom : b.len + data.length ≤ b.mem.length := h.cap ▸ hfits
  obtain ⟨mem, hmem, hmemlen, htake⟩ := memcpy_eq hroom
  unfold append
  rw [hmem]
  exact ⟨_, rfl, ⟨hmemlen.trans h.cap, hfits⟩, htake, rfl⟩

end Block

end ModHttp3.Lib

import Mathlib.Data.List.Infix
import Mathlib.Data.Nat.Notation
import Mathlib.Tactic.Common

/-! A one-way transfer: what a producer wrote, how much of it was handed to the
next layer, and how much of that was acknowledged. -/
namespace ModHttp3.Lib

/-- Items leave in the order they were produced, and only handed items are acknowledged. -/
@[ext] structure Transfer (α : Type*) where
  produced : List α
  handed : List α
  acked : ℕ
  inOrder : handed <+: produced
  acked_le : acked ≤ handed.length

namespace Transfer
variable {α : Type*}

def start : Transfer α := ⟨[], [], 0, List.prefix_rfl, le_rfl⟩

def produce (b : Transfer α) (l : List α) : Transfer α where
  produced := b.produced ++ l
  handed := b.handed
  acked := b.acked
  inOrder := b.inOrder.trans (List.prefix_append _ _)
  acked_le := b.acked_le

def hand (b : Transfer α) (l : List α) (h : b.handed ++ l <+: b.produced) : Transfer α where
  produced := b.produced
  handed := b.handed ++ l
  acked := b.acked
  inOrder := h
  acked_le := b.acked_le.trans (by simp)

def ack (b : Transfer α) (n : ℕ) (h : b.acked + n ≤ b.handed.length) : Transfer α where
  produced := b.produced
  handed := b.handed
  acked := b.acked + n
  inOrder := b.inOrder
  acked_le := h

theorem handed_le (b : Transfer α) : b.handed.length ≤ b.produced.length := b.inOrder.length_le

theorem hand_nil (b : Transfer α) (h : b.handed ++ [] <+: b.produced) : b.hand [] h = b := by
  ext1 <;> simp [hand]

theorem ack_zero (b : Transfer α) (h : b.acked + 0 ≤ b.handed.length) : b.ack 0 h = b := by
  ext1 <;> simp [ack]

theorem ack_ack (b : Transfer α) (m n : ℕ) (h : b.acked + m ≤ b.handed.length)
    (h' : b.acked + m + n ≤ b.handed.length) (h'' : b.acked + (m + n) ≤ b.handed.length) :
    (b.ack m h).ack n h' = b.ack (m + n) h'' := by
  ext1 <;> simp [ack, Nat.add_assoc]

end Transfer

end ModHttp3.Lib

import Mathlib.Algebra.GroupWithZero.Nat
import Mathlib.Algebra.BigOperators.Group.List.Basic
import Mathlib.Data.List.Chain

/-! Turns around a circle of `n` places. An arc is taken from any type by its first place and its
length; each arc of a chain begins where the one before it ended. -/
namespace ModHttp3.Lib

/-- A full turn from any place meets every place. -/
theorem exists_offset (start : ℕ) {i n : ℕ} (hi : i < n) : ∃ j < n, (start + j) % n = i := by
  have hlt : start % n < n := Nat.mod_lt _ (by omega)
  refine ⟨(i + (n - start % n)) % n, Nat.mod_lt _ (by omega), ?_⟩
  calc (start + (i + (n - start % n)) % n) % n
      = (start % n + (i + (n - start % n))) % n := by rw [Nat.add_mod_mod, Nat.mod_add_mod]
    _ = (i + n) % n := by congr 1; omega
    _ = i := by rw [Nat.add_mod_right, Nat.mod_eq_of_lt hi]

section
variable {α : Type*} (start len : α → ℕ) (n : ℕ)

/-- The second arc begins where the first one ended. -/
def Continues (a b : α) : Prop := start b % n = (start a + len a) % n

variable {start len n}

/-- A chain of arcs meets as many places in a row as its arcs have together. -/
theorem exists_arc_of_lt {a : α} {arcs : List α} (hchain : (a :: arcs).IsChain (Continues start len n))
    {m : ℕ} (hm : m < ((a :: arcs).map len).sum) :
    ∃ b ∈ a :: arcs, ∃ j < len b, (start b + j) % n = (start a + m) % n := by
  induction arcs generalizing a m with
  | nil =>
    rw [List.map_singleton, List.sum_singleton] at hm
    exact ⟨a, List.mem_cons_self, m, hm, rfl⟩
  | cons c arcs ih =>
    by_cases hfirst : m < len a
    · exact ⟨a, List.mem_cons_self, m, hfirst, rfl⟩
    · obtain ⟨hnext, hrest⟩ := List.isChain_cons_cons.mp hchain
      rw [List.map_cons, List.sum_cons] at hm
      obtain ⟨b, hb, j, hj, he⟩ := ih hrest (m := m - len a) (by omega)
      refine ⟨b, List.mem_cons_of_mem a hb, j, hj, he.trans ?_⟩
      rw [← Nat.mod_add_mod, hnext, Nat.mod_add_mod]
      congr 1
      omega

/-- As many arcs as there are places, none of them empty, meet every place. -/
theorem exists_arc {arcs : List α} (hchain : arcs.IsChain (Continues start len n))
    (hpos : ∀ a ∈ arcs, 0 < len a) (hn : n ≤ arcs.length) {i : ℕ} (hi : i < n) :
    ∃ a ∈ arcs, ∃ j < len a, (start a + j) % n = i := by
  cases arcs with
  | nil =>
    rw [List.length_nil] at hn
    omega
  | cons a arcs =>
    obtain ⟨m, hm, he⟩ := exists_offset (start a) hi
    have htotal : (a :: arcs).length ≤ ((a :: arcs).map len).sum := by
      rw [← List.length_map len]
      refine List.length_le_sum_of_one_le _ fun x hx => ?_
      obtain ⟨b, hb, rfl⟩ := List.mem_map.mp hx
      exact hpos b hb
    obtain ⟨b, hb, j, hj, hplace⟩ := exists_arc_of_lt hchain (by omega : m < _)
    exact ⟨b, hb, j, hj, hplace.trans he⟩

end

end ModHttp3.Lib

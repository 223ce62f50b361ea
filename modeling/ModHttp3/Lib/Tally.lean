import Mathlib.Data.Int.Notation
import Mathlib.Data.List.Nodup
import Mathlib.Logic.Function.Basic
import Mathlib.Tactic.Common

/-! A counter kept beside a table whose entries carry a flag. -/
namespace ModHttp3.Lib

variable {α : Type*}

/-- `n` is the number of keys whose flag is set; no other flag is. -/
structure Tally (keys : List α) (flag : α → Bool) (n : ℤ) : Prop where
  nodup : keys.Nodup
  listed : ∀ x, flag x → x ∈ keys
  count : n = keys.countP flag

namespace Tally

variable {keys : List α} {flag : α → Bool} {n : ℤ} {x : α}

theorem empty : Tally ([] : List α) (fun _ => false) 0 := ⟨List.nodup_nil, nofun, rfl⟩

theorem nonneg (h : Tally keys flag n) : 0 ≤ n := by
  rw [h.count]
  exact Int.natCast_nonneg _

/-- A counter that is not positive counts nothing. -/
theorem unset_of_nonpos (h : Tally keys flag n) (hn : n ≤ 0) (x : α) : flag x = false := by
  have hzero : keys.countP flag = 0 := by
    have hcount := h.count
    omega
  by_contra hx
  rw [Bool.not_eq_false] at hx
  exact List.countP_eq_zero.mp hzero x (h.listed x hx) hx

theorem add (h : Tally keys flag n) (hx : x ∉ keys) : Tally (keys ++ [x]) flag n where
  nodup := List.nodup_append.mpr ⟨h.nodup, List.nodup_singleton x, by
    rintro y hy z hz rfl
    rw [List.mem_singleton.mp hz] at hy
    exact hx hy⟩
  listed := fun y hy => List.mem_append_left _ (h.listed y hy)
  count := by
    have hunset : ¬ flag x = true := fun hset => hx (h.listed x hset)
    rw [List.countP_append, List.countP_singleton, if_neg hunset, Nat.add_zero]
    exact h.count

variable [DecidableEq α]

theorem countP_erase_add (hx : x ∈ keys) (flag : α → Bool) :
    keys.countP flag = (keys.erase x).countP flag + if flag x then 1 else 0 := by
  rw [(List.perm_cons_erase hx).countP_eq, List.countP_cons]

/-- The other flags count as before. -/
theorem countP_update (hnodup : keys.Nodup) (hx : x ∈ keys) (flag : α → Bool) (b : Bool) :
    keys.countP (Function.update flag x b) = (keys.erase x).countP flag + if b then 1 else 0 := by
  have hrest : (keys.erase x).countP (Function.update flag x b) = (keys.erase x).countP flag := by
    apply List.countP_congr
    intro y hy
    have hne : y ≠ x := by
      rintro rfl
      exact hnodup.not_mem_erase hy
    rw [Function.update_of_ne hne]
  rw [countP_erase_add hx, hrest, Function.update_self]

theorem set (h : Tally keys flag n) (hx : x ∈ keys) (hunset : flag x = false) :
    Tally keys (Function.update flag x true) (n + 1) where
  nodup := h.nodup
  listed := by
    intro y hy
    by_cases hyx : y = x
    · rwa [hyx]
    · rw [Function.update_of_ne hyx] at hy
      exact h.listed y hy
  count := by
    have hold := countP_erase_add hx flag
    have hnew := countP_update h.nodup hx flag true
    rw [hunset] at hold
    have hcount := h.count
    simp only [Bool.false_eq_true, if_false, if_true] at hold hnew
    omega

theorem listed_clear (h : Tally keys flag n) (x : α) {y : α}
    (hy : Function.update flag x false y = true) : y ∈ keys ∧ y ≠ x := by
  by_cases hyx : y = x
  · rw [hyx, Function.update_self] at hy
    cases hy
  · rw [Function.update_of_ne hyx] at hy
    exact ⟨h.listed y hy, hyx⟩

theorem clear (h : Tally keys flag n) (hset : flag x = true) :
    Tally keys (Function.update flag x false) (n - 1) where
  nodup := h.nodup
  listed := fun _ hy => (h.listed_clear x hy).1
  count := by
    have hx := h.listed x hset
    have hold := countP_erase_add hx flag
    have hnew := countP_update h.nodup hx flag false
    rw [hset] at hold
    have hcount := h.count
    simp only [Bool.false_eq_true, if_false, if_true] at hold hnew
    omega

/-- A key leaves the table with its flag. -/
theorem remove (h : Tally keys flag n) (x : α) :
    Tally (keys.filter (· ≠ x)) (Function.update flag x false) (if flag x then n - 1 else n) where
  nodup := h.nodup.filter _
  listed := by
    intro y hy
    obtain ⟨hmem, hne⟩ := h.listed_clear x hy
    exact List.mem_filter.mpr ⟨hmem, decide_eq_true hne⟩
  count := by
    have hcount := h.count
    have hrest : (keys.filter (· ≠ x)).countP (Function.update flag x false) =
        (keys.filter (· ≠ x)).countP flag := by
      apply List.countP_congr
      intro y hy
      rw [Function.update_of_ne (of_decide_eq_true (List.mem_filter.mp hy).2)]
    rw [hrest]
    by_cases hx : x ∈ keys
    · have herase : keys.filter (· ≠ x) = keys.erase x := by
        rw [h.nodup.erase_eq_filter x]
        apply List.filter_congr
        intro y _
        by_cases hy : y = x <;> simp [hy]
      have hold := countP_erase_add hx flag
      rw [herase]
      split_ifs at hold ⊢ <;> omega
    · have hunset : ¬ flag x = true := fun hset => hx (h.listed x hset)
      have hall : keys.filter (· ≠ x) = keys := by
        apply List.filter_eq_self.mpr
        intro y hy
        apply decide_eq_true
        rintro rfl
        exact hx hy
      rw [hall, if_neg hunset]
      exact hcount

end Tally

end ModHttp3.Lib

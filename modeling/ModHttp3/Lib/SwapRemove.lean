import Mathlib.Data.List.Perm.Basic

/-! Removal from an unordered array: the last element takes the place of the removed one. A pass over
such an array looks at the element that came in before it goes on. -/
namespace ModHttp3.Lib

section
variable {α : Type*}

def swapRemove (l : List α) (i : ℕ) : List α :=
  if i < l.length - 1 then (l.getLast?.elim l fun x => l.set i x).dropLast else l.dropLast

theorem swapRemove_append_singleton (l : List α) (x : α) (i : ℕ) :
    swapRemove (l ++ [x]) i = if i < l.length then l.set i x else l := by
  unfold swapRemove
  rw [List.length_append, List.length_singleton, Nat.add_sub_cancel, List.getLast?_concat]
  split_ifs with hi
  · rw [Option.elim_some, List.set_append_left _ _ hi, List.dropLast_concat]
  · exact List.dropLast_concat

/-- The element at `i` is removed, and all others stay. -/
theorem cons_swapRemove_perm {l : List α} {i : ℕ} {a : α} (ha : l[i]? = some a) :
    (a :: swapRemove l i).Perm l := by
  rcases List.eq_nil_or_concat l with rfl | ⟨l, x, rfl⟩
  · cases ha
  · rw [List.concat_eq_append] at ha ⊢
    rw [swapRemove_append_singleton]
    split_ifs with hi
    · rw [List.getElem?_append_left hi, List.getElem?_eq_getElem hi, Option.some.injEq] at ha
      subst ha
      have hset : (l[i] :: l.set i x).Perm (l[i] :: x :: l.eraseIdx i) :=
        (List.set_perm_cons_eraseIdx hi x).cons _
      have hback : (x :: l[i] :: l.eraseIdx i).Perm (x :: l) :=
        (List.getElem_cons_eraseIdx_perm hi).cons _
      exact (hset.trans (.swap _ _ _)).trans (hback.trans (List.perm_append_singleton x l).symm)
    · have hlen := (List.getElem?_eq_some_iff.mp ha).1
      rw [List.length_append, List.length_singleton] at hlen
      obtain rfl : i = l.length := by omega
      rw [List.getElem?_concat_length, Option.some.injEq] at ha
      subst ha
      exact (List.perm_append_singleton x l).symm

theorem length_swapRemove {l : List α} {i : ℕ} {a : α} (ha : l[i]? = some a) :
    (swapRemove l i).length + 1 = l.length :=
  (cons_swapRemove_perm ha).length_eq

theorem mem_of_mem_swapRemove {l : List α} {i : ℕ} {a x : α} (ha : l[i]? = some a)
    (hx : x ∈ swapRemove l i) : x ∈ l :=
  (cons_swapRemove_perm ha).subset (List.mem_cons_of_mem a hx)

/-- The elements before the removed one keep their places. -/
theorem take_swapRemove {l : List α} {i : ℕ} {a : α} (ha : l[i]? = some a) :
    (swapRemove l i).take i = l.take i := by
  rcases List.eq_nil_or_concat l with rfl | ⟨l, x, rfl⟩
  · cases ha
  · have hlen := (List.getElem?_eq_some_iff.mp ha).1
    rw [List.concat_eq_append] at hlen ⊢
    rw [List.length_append, List.length_singleton] at hlen
    have hi : i ≤ l.length := by omega
    rw [swapRemove_append_singleton, List.take_append_of_le_length hi]
    split_ifs
    · exact List.take_set_of_le (Nat.le_refl i)
    · rfl

/-- From the removed element on, all others stay. -/
theorem cons_drop_swapRemove_perm {l : List α} {i : ℕ} {a : α} (ha : l[i]? = some a) :
    (a :: (swapRemove l i).drop i).Perm (l.drop i) := by
  have hall : (l.take i ++ a :: (swapRemove l i).drop i).Perm (l.take i ++ l.drop i) := by
    calc (l.take i ++ a :: (swapRemove l i).drop i).Perm (a :: (l.take i ++ (swapRemove l i).drop i)) :=
          List.perm_middle
      _ = a :: swapRemove l i := by rw [← take_swapRemove ha, List.take_append_drop]
      (a :: swapRemove l i).Perm l := cons_swapRemove_perm ha
      _ = l.take i ++ l.drop i := (List.take_append_drop i l).symm
  exact (List.perm_append_left_iff _).mp hall

theorem swapRemove_perm_eraseIdx {l : List α} {i : ℕ} {a : α} (ha : l[i]? = some a) :
    (swapRemove l i).Perm (l.eraseIdx i) := by
  obtain ⟨hi, rfl⟩ := List.getElem?_eq_some_iff.mp ha
  have hback : (l[i] :: l.eraseIdx i).Perm l := List.getElem_cons_eraseIdx_perm hi
  exact ((cons_swapRemove_perm ha).trans hback.symm).cons_inv

/-- Replacing an element by one with the same key leaves the keys alone. -/
theorem map_set_same {β : Type*} {f : α → β} {l : List α} {i : ℕ} {a b : α} (ha : l[i]? = some a)
    (hf : f b = f a) : (l.set i b).map f = l.map f := by
  have hkey : (l.map f)[i]? = some (f b) := by rw [List.getElem?_map, ha, Option.map_some, hf]
  obtain ⟨hi, hget⟩ := List.getElem?_eq_some_iff.mp hkey
  rw [List.map_set, ← hget, List.set_getElem_self]

theorem map_swapRemove {β : Type*} (f : α → β) (l : List α) (i : ℕ) :
    (swapRemove l i).map f = swapRemove (l.map f) i := by
  rcases List.eq_nil_or_concat l with rfl | ⟨l, x, rfl⟩
  · rfl
  · rw [List.concat_eq_append, List.map_append, List.map_singleton, swapRemove_append_singleton,
      swapRemove_append_singleton, List.length_map]
    split_ifs
    · exact List.map_set
    · rfl

end

/-- A pass that began with the elements `init`. `array` and `index` are the variables of its loop, and
`rounds` are the elements that it has come to, with their outcomes: those before the index are the ones
it has kept, and those from the index on are still to come. -/
structure Sweep {α β : Type*} (keeps : β → Bool) (init : List α) where
  array : List α
  index : ℕ
  rounds : List (α × β)
  seen : (rounds.map Prod.fst ++ array.drop index).Perm init
  kept : array.take index = (rounds.filter fun r => keeps r.2).map Prod.fst

namespace Sweep
variable {α β : Type*} {keeps : β → Bool} {init : List α}

def start (keeps : β → Bool) (init : List α) : Sweep keeps init := ⟨init, 0, [], List.Perm.refl init, rfl⟩

/-- A round that keeps its element. -/
def keep (s : Sweep keeps init) {a : α} {o : β} (ha : s.array[s.index]? = some a) (ho : keeps o = true) :
    Sweep keeps init where
  array := s.array
  index := s.index + 1
  rounds := s.rounds ++ [(a, o)]
  seen := by
    obtain ⟨hi, rfl⟩ := List.getElem?_eq_some_iff.mp ha
    have hseen := s.seen
    rw [List.drop_eq_getElem_cons hi] at hseen
    rw [List.map_append, List.append_assoc]
    exact hseen
  kept := by
    rw [List.take_add_one, ha, s.kept, List.filter_append, List.map_append]
    simp [ho]

/-- A round that removes its element; the index stays. -/
def remove (s : Sweep keeps init) {a : α} {o : β} (ha : s.array[s.index]? = some a) (ho : keeps o = false) :
    Sweep keeps init where
  array := swapRemove s.array s.index
  index := s.index
  rounds := s.rounds ++ [(a, o)]
  seen := by
    rw [List.map_append, List.append_assoc]
    exact ((cons_drop_swapRemove_perm ha).append_left _).trans s.seen
  kept := by
    rw [take_swapRemove ha, s.kept, List.filter_append, List.map_append]
    simp [ho]

/-- No more rounds than elements. -/
theorem rounds_length (s : Sweep keeps init) : s.rounds.length + (s.array.length - s.index) = init.length := by
  have hlen := s.seen.length_eq
  rwa [List.length_append, List.length_map, List.length_drop] at hlen

/-- Behind the last element the pass has come to each element once, and has kept what it was to keep. -/
theorem finish (s : Sweep keeps init) (hend : s.array[s.index]? = none) :
    (s.rounds.map Prod.fst).Perm init ∧ s.array = (s.rounds.filter fun r => keeps r.2).map Prod.fst := by
  have hlen : s.array.length ≤ s.index := List.getElem?_eq_none_iff.mp hend
  have hseen := s.seen
  have hkept := s.kept
  rw [List.drop_eq_nil_of_le hlen, List.append_nil] at hseen
  rw [List.take_of_length_le hlen] at hkept
  exact ⟨hseen, hkept⟩

end Sweep

end ModHttp3.Lib

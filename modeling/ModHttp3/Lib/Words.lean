import Mathlib.Data.List.TakeWhile
import Mathlib.Data.List.Nodup

/-! The words of a list between separators, and the first of all elements with one normal form. -/
namespace ModHttp3.Lib

section words
variable {α : Type*} (p : α → Bool)

/-- The longest stretches without a separator. -/
def words (xs : List α) : List (List α) := (xs.splitOnP p).filter fun w => !w.isEmpty

/-- A list that `words` can return. -/
def IsWord (w : List α) : Prop := w ≠ [] ∧ ∀ c ∈ w, p c = false

variable {p} {xs : List α}

@[simp]
theorem words_nil : words p [] = [] := by
  simp [words]

theorem words_cons_sep {x : α} (hx : p x = true) : words p (x :: xs) = words p xs := by
  unfold words
  rw [List.splitOnP_cons_eq_if_modifyHead, if_pos hx, List.filter_cons_of_neg (by simp)]

theorem words_dropWhile : words p (xs.dropWhile p) = words p xs := by
  induction xs with
  | nil => rfl
  | cons x xs ih =>
    by_cases hx : p x = true
    · rw [List.dropWhile_cons_of_pos hx, ih, words_cons_sep hx]
    · rw [List.dropWhile_cons_of_neg hx]

/-- A list that starts with a word. -/
theorem words_append {w : List α} (hw : IsWord p w) (hxs : ∀ x, xs.head? = some x → p x = true) :
    words p (w ++ xs) = w :: words p xs := by
  cases xs with
  | nil =>
    rw [List.append_nil, words_nil]
    unfold words
    rw [List.splitOnP_eq_singleton hw.2, List.filter_cons_of_pos (by simp [hw.1]), List.filter_nil]
  | cons x xs =>
    have hx := hxs x rfl
    rw [words_cons_sep hx]
    unfold words
    rw [List.splitOnP_append_cons_of_forall_mem hw.2 x hx, List.filter_cons_of_pos (by simp [hw.1])]

theorem isWord_takeWhile {x : α} (hx : p x = false) : IsWord p ((x :: xs).takeWhile fun c => !p c) := by
  constructor
  · simp [hx]
  · intro c hc
    simpa using List.mem_takeWhile_imp hc

theorem head_dropWhile_sep {x : α} (h : (xs.dropWhile fun c => !p c).head? = some x) : p x = true := by
  have hnot := List.head?_dropWhile_not (fun c => !p c) xs
  rw [h] at hnot
  simpa using hnot

theorem mem_of_mem_splitOnP {w : List α} (h : w ∈ xs.splitOnP p) : ∀ c ∈ w, p c = false ∧ c ∈ xs := by
  induction xs generalizing w with
  | nil => simp_all
  | cons x xs ih =>
    rw [List.splitOnP_cons_eq_if_modifyHead] at h
    split_ifs at h with hx
    · rcases List.mem_cons.mp h with rfl | h
      · simp
      · exact fun c hc => ⟨(ih h c hc).1, List.mem_cons_of_mem _ (ih h c hc).2⟩
    · cases hs : xs.splitOnP p with
      | nil => simp [hs] at h
      | cons u us =>
        rw [hs, List.modifyHead_cons] at h
        rcases List.mem_cons.mp h with rfl | h
        · intro c hc
          rcases List.mem_cons.mp hc with rfl | hc
          · exact ⟨Bool.not_eq_true _ ▸ hx, List.mem_cons_self⟩
          · have hold := ih (hs ▸ List.mem_cons_self) c hc
            exact ⟨hold.1, List.mem_cons_of_mem _ hold.2⟩
        · intro c hc
          have hold := ih (hs ▸ List.mem_cons_of_mem u h) c hc
          exact ⟨hold.1, List.mem_cons_of_mem _ hold.2⟩

/-- Everything that `words` returns is a word of elements of the list. -/
theorem isWord_of_mem_words {w : List α} (h : w ∈ words p xs) : IsWord p w ∧ ∀ c ∈ w, c ∈ xs := by
  obtain ⟨hsplit, hne⟩ := List.mem_filter.mp h
  have hmem := mem_of_mem_splitOnP hsplit
  exact ⟨⟨by simpa using hne, fun c hc => (hmem c hc).1⟩, fun c hc => (hmem c hc).2⟩

/-- Words that are joined by a separator are found again. -/
theorem words_intercalate {sep : α} (hsep : p sep = true) {ws : List (List α)} (hws : ∀ w ∈ ws, IsWord p w) :
    words p ([sep].intercalate ws) = ws := by
  induction ws with
  | nil => exact words_nil
  | cons w ws ih =>
    have hw := hws w List.mem_cons_self
    have hrest := ih fun v hv => hws v (List.mem_cons_of_mem _ hv)
    cases ws with
    | nil =>
      have hend : words p (w ++ []) = w :: words p [] := words_append hw (by simp)
      rw [List.append_nil, words_nil] at hend
      rw [List.intercalate_singleton, hend]
    | cons v ws =>
      rw [List.intercalate_cons_cons, List.append_assoc, List.singleton_append,
        words_append hw (by rintro x ⟨⟩; exact hsep), words_cons_sep hsep, hrest]

end words

section firsts
variable {α N : Type*} [DecidableEq N] (norm : α → N)

/-- Append an element unless there is one like it. -/
def pushNew (xs : List α) (x : α) : List α := if xs.any (fun y => norm y = norm x) then xs else xs ++ [x]

/-- The first of all elements with one normal form, in order. -/
def firsts : List α → List α
  | [] => []
  | x :: xs => x :: (firsts xs).filter fun y => norm y ≠ norm x

variable {norm} {xs : List α}

theorem firsts_cons (x : α) (xs : List α) :
    firsts norm (x :: xs) = x :: (firsts norm xs).filter fun y => norm y ≠ norm x := rfl

/-- Appending one after the other keeps the first ones that are new. -/
theorem foldl_pushNew (xs ys : List α) :
    xs.foldl (pushNew norm) ys = ys ++ (firsts norm xs).filter fun x => !ys.any fun y => norm y = norm x := by
  induction xs generalizing ys with
  | nil => simp [firsts]
  | cons x xs ih =>
    rw [List.foldl_cons, ih]
    rw [firsts_cons]
    unfold pushNew
    by_cases hx : ys.any (fun y => norm y = norm x) = true
    · rw [if_pos hx, List.filter_cons_of_neg (by simp [hx]), List.filter_filter]
      congr 1
      apply List.filter_congr
      intro z _
      by_cases hz : norm z = norm x
      · rw [hz]
        simp [hx]
      · simp [hz]
    · rw [if_neg hx, List.filter_cons_of_pos (by simp [hx]), List.filter_filter, List.append_assoc,
        List.singleton_append]
      congr 2
      apply List.filter_congr
      intro z _
      simp only [List.any_append, List.any_cons, List.any_nil, Bool.or_false, Bool.not_or, ← decide_not, ne_comm]

theorem foldl_pushNew_nil (xs : List α) : xs.foldl (pushNew norm) [] = firsts norm xs := by
  rw [foldl_pushNew, List.nil_append, List.filter_eq_self]
  simp

theorem firsts_sublist (xs : List α) : (firsts norm xs).Sublist xs := by
  induction xs with
  | nil => exact List.Sublist.refl _
  | cons x xs ih => exact (List.filter_sublist.trans ih).cons_cons x

theorem nodup_firsts (xs : List α) : ((firsts norm xs).map norm).Nodup := by
  induction xs with
  | nil => exact List.nodup_nil
  | cons x xs ih =>
    unfold firsts
    rw [List.map_cons, List.nodup_cons]
    constructor
    · simp
    · exact ih.sublist (List.filter_sublist.map norm)

theorem exists_mem_firsts {x : α} (hx : x ∈ xs) : ∃ y ∈ firsts norm xs, norm y = norm x := by
  induction xs with
  | nil => cases hx
  | cons z xs ih =>
    unfold firsts
    by_cases hz : norm z = norm x
    · exact ⟨z, List.mem_cons_self, hz⟩
    · rcases List.mem_cons.mp hx with rfl | hx
      · exact absurd rfl hz
      · obtain ⟨y, hy, hn⟩ := ih hx
        refine ⟨y, List.mem_cons_of_mem _ (List.mem_filter.mpr ⟨hy, ?_⟩), hn⟩
        rw [hn]
        simpa using Ne.symm hz

/-- What is kept is the first of its kind. -/
theorem find?_of_mem_firsts {y : α} (hy : y ∈ firsts norm xs) : xs.find? (fun x => norm x = norm y) = some y := by
  induction xs with
  | nil => cases hy
  | cons x xs ih =>
    unfold firsts at hy
    rcases List.mem_cons.mp hy with rfl | hy
    · simp
    · obtain ⟨hmem, hne⟩ := List.mem_filter.mp hy
      have hx : norm x ≠ norm y := (of_decide_eq_true hne).symm
      rw [List.find?_cons_of_neg (by simpa using hx)]
      exact ih hmem

theorem firsts_eq_self (h : (xs.map norm).Nodup) : firsts norm xs = xs := by
  induction xs with
  | nil => rfl
  | cons x xs ih =>
    rw [List.map_cons, List.nodup_cons] at h
    unfold firsts
    rw [ih h.2, List.filter_eq_self.mpr]
    intro y hy
    have hne : norm y ≠ norm x := fun he => h.1 (List.mem_map.mpr ⟨y, hy, he⟩)
    simpa using hne

end firsts

end ModHttp3.Lib

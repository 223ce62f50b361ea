import Mathlib.Tactic.Common

/-! Ordered tables whose keys are compared by a normal form. A key may occur many times; setting
its value leaves one entry of it. -/
namespace ModHttp3.Lib

section
variable {K N V : Type*} [DecidableEq N] (norm : K → N)

/-- The values of the entries with a key of normal form `n`, in order. -/
def valuesOf (t : List (K × V)) (n : N) : List V := (t.filter fun e => norm e.1 = n).map Prod.snd

/-- The first entry with the key gets the value and the others go, or there is a new entry. -/
def setEntry (k : K) (v : V) : List (K × V) → List (K × V)
  | [] => [(k, v)]
  | e :: rest =>
    if norm e.1 = norm k then (e.1, v) :: rest.filter (fun x => norm x.1 ≠ norm k)
    else e :: setEntry k v rest

/-- All entries with the key go. -/
def unsetEntry (k : K) (t : List (K × V)) : List (K × V) := t.filter fun e => norm e.1 ≠ norm k

/-- All entries of both tables; of those with one key, the last value remains. -/
def overlapSet (a b : List (K × V)) : List (K × V) :=
  (a ++ b).foldl (fun t e => setEntry norm e.1 e.2 t) []

variable {norm} {t : List (K × V)} {n : N}

theorem valuesOf_cons (e : K × V) (t : List (K × V)) (n : N) :
    valuesOf norm (e :: t) n = if norm e.1 = n then e.2 :: valuesOf norm t n else valuesOf norm t n := by
  unfold valuesOf
  rw [List.filter_cons]
  by_cases he : norm e.1 = n <;> simp [he]

theorem valuesOf_append (t t' : List (K × V)) (n : N) :
    valuesOf norm (t ++ t') n = valuesOf norm t n ++ valuesOf norm t' n := by
  unfold valuesOf
  rw [List.filter_append, List.map_append]

theorem valuesOf_filter_self (t : List (K × V)) (n : N) :
    valuesOf norm (t.filter fun x => norm x.1 ≠ n) n = [] := by
  unfold valuesOf
  rw [List.filter_filter, List.map_eq_nil_iff, List.filter_eq_nil_iff]
  intro e _
  simp

theorem valuesOf_filter_ne {n m : N} (hne : n ≠ m) (t : List (K × V)) :
    valuesOf norm (t.filter fun x => norm x.1 ≠ m) n = valuesOf norm t n := by
  unfold valuesOf
  rw [List.filter_filter]
  congr 1
  apply List.filter_congr
  intro e _
  by_cases he : norm e.1 = n <;> simp [he, hne]

theorem valuesOf_setEntry_self {k : K} (hk : norm k = n) (v : V) (t : List (K × V)) :
    valuesOf norm (setEntry norm k v t) n = [v] := by
  subst hk
  induction t with
  | nil => simp [setEntry, valuesOf]
  | cons e rest ih =>
    unfold setEntry
    split_ifs with he
    · rw [valuesOf_cons, if_pos he, valuesOf_filter_self]
    · rw [valuesOf_cons, if_neg he, ih]

theorem valuesOf_setEntry_ne {k : K} (hne : n ≠ norm k) (v : V) (t : List (K × V)) :
    valuesOf norm (setEntry norm k v t) n = valuesOf norm t n := by
  induction t with
  | nil => simp [setEntry, valuesOf, hne.symm]
  | cons e rest ih =>
    unfold setEntry
    split_ifs with he
    · have hother : norm e.1 ≠ n := fun h => hne (h.symm.trans he)
      rw [valuesOf_cons, valuesOf_cons, if_neg hother, if_neg hother, valuesOf_filter_ne hne]
    · rw [valuesOf_cons, valuesOf_cons, ih]

/-- Setting an entry updates the values at its key. -/
theorem valuesOf_setEntry (k : K) (v : V) (t : List (K × V)) :
    valuesOf norm (setEntry norm k v t) = Function.update (valuesOf norm t) (norm k) [v] := by
  funext n
  by_cases hn : n = norm k
  · rw [hn, valuesOf_setEntry_self rfl, Function.update_self]
  · rw [valuesOf_setEntry_ne hn, Function.update_of_ne hn]

theorem valuesOf_unsetEntry (k : K) (t : List (K × V)) :
    valuesOf norm (unsetEntry norm k t) = Function.update (valuesOf norm t) (norm k) [] := by
  funext n
  unfold unsetEntry
  by_cases hn : n = norm k
  · rw [hn, valuesOf_filter_self, Function.update_self]
  · rw [valuesOf_filter_ne hn, Function.update_of_ne hn]

theorem filter_setEntry_ne (k : K) (v : V) (t : List (K × V)) :
    (setEntry norm k v t).filter (fun e => norm e.1 ≠ norm k) = t.filter fun e => norm e.1 ≠ norm k := by
  induction t with
  | nil => simp [setEntry]
  | cons e rest ih =>
    unfold setEntry
    split_ifs with he
    · rw [List.filter_cons_of_neg (by simpa using he), List.filter_cons_of_neg (by simpa using he), List.filter_filter]
      simp
    · rw [List.filter_cons_of_pos (by simpa using he), List.filter_cons_of_pos (by simpa using he), ih]

/-- Entries with other keys stay when a key is unset. -/
theorem filter_unsetEntry {p : N → Bool} {k : K} (hk : p (norm k) = false) (t : List (K × V)) :
    (unsetEntry norm k t).filter (fun e => p (norm e.1)) = t.filter fun e => p (norm e.1) := by
  unfold unsetEntry
  rw [List.filter_filter]
  apply List.filter_congr
  intro e _
  by_cases he : norm e.1 = norm k
  · simp [he, hk]
  · simp [he]

/-- Entries with other keys stay when a key is set. -/
theorem filter_setEntry {p : N → Bool} {k : K} (hk : p (norm k) = false) (v : V) (t : List (K × V)) :
    (setEntry norm k v t).filter (fun e => p (norm e.1)) = t.filter fun e => p (norm e.1) := by
  have hunset : unsetEntry norm k (setEntry norm k v t) = unsetEntry norm k t := filter_setEntry_ne k v t
  rw [← filter_unsetEntry hk, hunset, filter_unsetEntry hk]

/-- Setting an entry to the value it has. -/
theorem setEntry_setEntry (k : K) (v : V) (t : List (K × V)) :
    setEntry norm k v (setEntry norm k v t) = setEntry norm k v t := by
  induction t with
  | nil => simp [setEntry]
  | cons e rest ih =>
    have hset : ∀ t' : List (K × V), setEntry norm k v (e :: t') =
        if norm e.1 = norm k then (e.1, v) :: t'.filter (fun x => norm x.1 ≠ norm k) else e :: setEntry norm k v t' :=
      fun _ => rfl
    rw [hset]
    split_ifs with he
    · unfold setEntry
      rw [if_pos he, List.filter_filter]
      simp
    · rw [hset, if_neg he, ih]

/-- Setting the entries one after the other: the last one with a key decides. -/
theorem valuesOf_foldl_setEntry (es t : List (K × V)) (n : N) :
    valuesOf norm (es.foldl (fun t e => setEntry norm e.1 e.2 t) t) n =
      ((valuesOf norm es n).getLast?.map ([·])).getD (valuesOf norm t n) := by
  induction es generalizing t with
  | nil => rfl
  | cons e rest ih =>
    rw [List.foldl_cons, ih, valuesOf_cons]
    by_cases he : norm e.1 = n
    · rw [if_pos he, valuesOf_setEntry_self he, List.getLast?_cons]
      cases (valuesOf norm rest n).getLast? <;> rfl
    · rw [if_neg he, valuesOf_setEntry_ne (Ne.symm he)]

theorem valuesOf_overlapSet (a b : List (K × V)) (n : N) :
    valuesOf norm (overlapSet norm a b) n = (valuesOf norm a n ++ valuesOf norm b n).getLast?.toList := by
  unfold overlapSet
  rw [valuesOf_foldl_setEntry, valuesOf_append]
  cases (valuesOf norm a n ++ valuesOf norm b n).getLast? <;> rfl

theorem valuesOf_eq_nil_iff : valuesOf norm t n = [] ↔ ∀ e ∈ t, norm e.1 ≠ n := by
  unfold valuesOf
  rw [List.map_eq_nil_iff, List.filter_eq_nil_iff]
  simp

variable (norm) in
theorem mem_valuesOf {e : K × V} (he : e ∈ t) : e.2 ∈ valuesOf norm t (norm e.1) :=
  List.mem_map.mpr ⟨e, List.mem_filter.mpr ⟨he, decide_eq_true rfl⟩, rfl⟩

/-- No key occurs twice exactly if every entry is the only one with its key. -/
theorem nodup_keys_iff :
    (t.map fun e => norm e.1).Nodup ↔ ∀ e ∈ t, valuesOf norm t (norm e.1) = [e.2] := by
  induction t with
  | nil => exact ⟨nofun, fun _ => List.nodup_nil⟩
  | cons e t ih =>
    rw [List.map_cons, List.nodup_cons, ih]
    constructor
    · rintro ⟨hnew, hrest⟩ x hx
      rw [valuesOf_cons]
      rcases List.mem_cons.mp hx with rfl | hx
      · have hnil : valuesOf norm t (norm x.1) = [] :=
          valuesOf_eq_nil_iff.mpr fun y hy h => hnew (List.mem_map.mpr ⟨y, hy, h⟩)
        rw [if_pos rfl, hnil]
      · rw [if_neg fun h => hnew (List.mem_map.mpr ⟨x, hx, h.symm⟩), hrest x hx]
    · intro hall
      have hhead := hall e List.mem_cons_self
      rw [valuesOf_cons, if_pos rfl] at hhead
      have hnew := valuesOf_eq_nil_iff.mp (List.cons.inj hhead).2
      refine ⟨fun hmem => ?_, fun x hx => ?_⟩
      · obtain ⟨y, hy, h⟩ := List.mem_map.mp hmem
        exact hnew y hy h
      · have hx' := hall x (List.mem_cons_of_mem _ hx)
        rwa [valuesOf_cons, if_neg (hnew x hx).symm] at hx'

end

end ModHttp3.Lib

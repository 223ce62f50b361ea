import ModHttp3.Request.Headers
import ModHttp3.Response.Fields

/-! `fix_vary` of the stable build: the tokens of all `Vary` values become one value without repetitions. -/
namespace ModHttp3.Response
open Lib ModHttp3.Request

/-- `apr_isspace`. -/
def isSpace (c : UInt8) : Bool := c == 32 || (9 ≤ c && c ≤ 13)

def isSeparator (c : UInt8) : Bool := c == 44 || isSpace c

/-- `while (p(*e)) ++e;` on a buffer; `none` when the fuel is used up or the buffer is left. -/
def skipWhile (p : UInt8 → Bool) (buf : Bytes) : ℕ → ℕ → Option ℕ
  | 0, _ => none
  | fuel + 1, e => match buf[e]? with
    | none => none
    | some c => if p c then skipWhile p buf fuel (e + 1) else some e

/-- The search among the values found so far. -/
def pushUnique (values : List Bytes) (start : Bytes) : List Bytes :=
  if values.any (sameName · start) then values else values ++ [start]

/-- The loop of `uniq_field_values`, which writes a NUL over the separator behind a token. -/
def uniqLoop : ℕ → Bytes → ℕ → List Bytes → Option (List Bytes)
  | 0, _, _, _ => none
  | fuel + 1, buf, e, values => do
    let start ← skipWhile isSeparator buf (fuel + 1) e
    let c ← buf[start]?
    if c = 0 then return values
    let stop ← skipWhile (fun c => c != 0 && !isSeparator c) buf (fuel + 1) start
    let c ← buf[stop]?
    let buf := if c ≠ 0 then buf.set stop 0 else buf
    let e := if c ≠ 0 then stop + 1 else stop
    let values := pushUnique values (cString (buf.drop start))
    let c ← buf[e]?
    if c ≠ 0 then uniqLoop fuel buf e values else return values

/-- `uniq_field_values` on a copy of the value, with the NUL at its end. -/
def uniqFieldValues (fuel : ℕ) (values : List Bytes) (val : Bytes) : Option (List Bytes) :=
  uniqLoop fuel (cString val ++ [0]) 0 values

/-- `apr_table_do` over the entries of one key. -/
def varies (fuel : ℕ) (headersOut : Table) : Option (List Bytes) :=
  (valuesOf foldCase headersOut (ascii "vary")).foldlM (uniqFieldValues fuel) []

/-- `apr_array_pstrcat` with a comma. -/
def joinComma (values : List Bytes) : Bytes := [44].intercalate values

def fixVary (fuel : ℕ) (headersOut : Table) : Option Table := do
  let vs ← varies fuel headersOut
  if 0 < vs.length then return setEntry foldCase (ascii "Vary") (joinComma vs) headersOut
  else return headersOut

/-- The tokens of all `Vary` values, in the order of the table. -/
def varyTokens (headersOut : Table) : List Bytes :=
  (valuesOf foldCase headersOut (ascii "vary")).flatMap fun v => words isSeparator (cString v)

section scan
variable {p : UInt8 → Bool} {before rest : Bytes} {fuel : ℕ}

theorem skipWhile_eq (hp : p 0 = false) (hfuel : rest.length < fuel) :
    skipWhile p (before ++ rest ++ [0]) fuel before.length = some (before.length + (rest.takeWhile p).length) := by
  induction rest generalizing before fuel with
  | nil =>
    cases fuel with
    | zero => cases hfuel
    | succ fuel => simp [skipWhile, hp]
  | cons c rest ih =>
    cases fuel with
    | zero => cases hfuel
    | succ fuel =>
      have hc : (before ++ c :: rest ++ [0])[before.length]? = some c := by simp
      unfold skipWhile
      rw [hc]
      dsimp only
      by_cases hpc : p c = true
      · have hlen : rest.length < fuel := by
          rw [List.length_cons] at hfuel
          omega
        have hnext : skipWhile p (before ++ [c] ++ rest ++ [0]) fuel (before ++ [c]).length =
          some ((before ++ [c]).length + (rest.takeWhile p).length) := ih hlen
        rw [List.length_append, List.length_singleton, List.append_assoc before, List.singleton_append] at hnext
        rw [if_pos hpc, hnext, List.takeWhile_cons_of_pos hpc, List.length_cons]
        congr 1
        omega
      · rw [if_neg hpc, List.takeWhile_cons_of_neg hpc]
        rfl

/-- Inside a value without NUL the second loop stops at the first separator. -/
private theorem takeWhile_inToken (h0 : 0 ∉ rest) :
    rest.takeWhile (fun c => c != 0 && !isSeparator c) = rest.takeWhile fun c => !isSeparator c := by
  induction rest with
  | nil => rfl
  | cons c rest ih =>
    rw [List.mem_cons, not_or] at h0
    have hne : (c != 0) = true := by simpa using Ne.symm h0.1
    rw [List.takeWhile_cons, List.takeWhile_cons, ih h0.2, hne, Bool.true_and]

theorem cString_append_zero {w : Bytes} (h0 : 0 ∉ w) (rest : Bytes) : cString (w ++ 0 :: rest) = w := by
  unfold cString
  rw [List.takeWhile_append_of_pos, List.takeWhile_cons_of_neg (by simp), List.append_nil]
  intro c hc
  have hne : c ≠ 0 := fun h => h0 (h ▸ hc)
  simpa using hne

section turn
variable {buf : Bytes} {e start stop : ℕ} {values : List Bytes} {c : UInt8}

/-- The break at the end of the value. -/
private theorem uniqLoop_break (hstart : skipWhile isSeparator buf (fuel + 1) e = some start) (hc : buf[start]? = some 0) :
    uniqLoop (fuel + 1) buf e values = some values := by
  unfold uniqLoop
  rw [hstart]
  simp [hc]

/-- The last token ends with the value. -/
private theorem uniqLoop_last (hstart : skipWhile isSeparator buf (fuel + 1) e = some start) (hc : buf[start]? = some c)
    (hne : c ≠ 0) (hstop : skipWhile (fun c => c != 0 && !isSeparator c) buf (fuel + 1) start = some stop)
    (hend : buf[stop]? = some 0) :
    uniqLoop (fuel + 1) buf e values = some (pushUnique values (cString (buf.drop start))) := by
  unfold uniqLoop
  rw [hstart]
  simp [hc, hne, hstop, hend]

/-- A token with a separator behind it. -/
private theorem uniqLoop_token (hstart : skipWhile isSeparator buf (fuel + 1) e = some start) (hc : buf[start]? = some c)
    (hne : c ≠ 0) (hstop : skipWhile (fun c => c != 0 && !isSeparator c) buf (fuel + 1) start = some stop)
    {d next : UInt8} (hd : buf[stop]? = some d) (hdne : d ≠ 0) (hnext : (buf.set stop 0)[stop + 1]? = some next) :
    uniqLoop (fuel + 1) buf e values =
      let values' := pushUnique values (cString ((buf.set stop 0).drop start))
      if next ≠ 0 then uniqLoop fuel (buf.set stop 0) (stop + 1) values' else some values' := by
  rw [uniqLoop, hstart]
  simp [hc, hne, hstop, hd, hdne, hnext]

end turn

/-- The second loop runs over the token. -/
private theorem skipWhile_word {w after : Bytes} (hw : IsWord isSeparator w)
    (hafter : ∀ x, after.head? = some x → isSeparator x = true) (h0 : 0 ∉ w ++ after)
    (hfuel : (w ++ after).length < fuel) :
    skipWhile (fun c => c != 0 && !isSeparator c) (before ++ (w ++ after) ++ [0]) fuel before.length =
      some (before.length + w.length) := by
  have htake : (w ++ after).takeWhile (fun c => !isSeparator c) = w := by
    rw [List.takeWhile_append_of_pos fun c hc => by simp [hw.2 c hc]]
    cases after with
    | nil => simp
    | cons d after => rw [List.takeWhile_cons_of_neg (by simp [hafter d rfl]), List.append_nil]
  rw [skipWhile_eq rfl hfuel, takeWhile_inToken h0, htake]

/-- A turn of the loop that finds a token. -/
private theorem uniqLoop_word {w after : Bytes} {e : ℕ} {values : List Bytes} (hw : IsWord isSeparator w)
    (hafter : ∀ x, after.head? = some x → isSeparator x = true) (h0 : 0 ∉ w ++ after)
    (hfuel : (w ++ after).length < fuel + 1)
    (hstart : skipWhile isSeparator (before ++ (w ++ after) ++ [0]) (fuel + 1) e = some before.length)
    (hrest : ∀ (before' : Bytes) values', uniqLoop fuel (before' ++ after.tail ++ [0]) before'.length values' =
      some ((words isSeparator after.tail).foldl pushUnique values')) :
    uniqLoop (fuel + 1) (before ++ (w ++ after) ++ [0]) e values =
      some ((words isSeparator (w ++ after)).foldl pushUnique values) := by
  have hstop : skipWhile (fun c => c != 0 && !isSeparator c) (before ++ (w ++ after) ++ [0]) (fuel + 1) before.length =
      some (before.length + w.length) := skipWhile_word hw hafter h0 hfuel
  have h0w : 0 ∉ w := fun h => h0 (List.mem_append_left after h)
  obtain ⟨c, w', hcons⟩ := List.exists_cons_of_ne_nil hw.1
  have hc : (before ++ (w ++ after) ++ [0])[before.length]? = some c := by simp [hcons]
  have hcne : c ≠ 0 := fun h => h0w (by simp [hcons, h])
  rw [words_append hw hafter, List.foldl_cons]
  cases after with
  | nil =>
    have hend : (before ++ (w ++ []) ++ [0])[before.length + w.length]? = some 0 := by
      rw [← List.length_append, List.append_nil]
      simp
    have hdrop : (before ++ (w ++ []) ++ [0]).drop before.length = w ++ [0] := by simp
    rw [uniqLoop_last hstart hc hcne hstop hend, hdrop, cString_append_zero h0w]
    rfl
  | cons d after =>
    have hd : (before ++ (w ++ d :: after) ++ [0])[before.length + w.length]? = some d := by
      rw [← List.length_append, ← List.append_assoc]
      simp
    have hdne : d ≠ 0 := fun h => h0 (by simp [h])
    have hset : (before ++ (w ++ d :: after) ++ [0]).set (before.length + w.length) 0 =
        before ++ w ++ [0] ++ after ++ [0] := by
      rw [← List.length_append, ← List.append_assoc before]
      simp
    have hlen : (before ++ w ++ [0]).length = before.length + w.length + 1 := by
      simp only [List.length_append, List.length_singleton]
    have hdrop : (before ++ w ++ [0] ++ after ++ [0]).drop before.length = w ++ 0 :: (after ++ [0]) := by simp
    have hnext : (before ++ w ++ [0] ++ after ++ [0])[before.length + w.length + 1]? = some (after.headD 0) := by
      rw [← hlen]
      cases after <;> simp
    rw [← hset] at hnext
    rw [uniqLoop_token hstart hc hcne hstop hd hdne hnext, hset, hdrop, cString_append_zero h0w, words_cons_sep (hafter d rfl), ← hlen]
    split_ifs with hmore
    · exact hrest _ _
    · cases after with
      | nil => simp
      | cons x after =>
        have hx : x ≠ 0 := fun h => h0 (by simp [h])
        exact absurd hx hmore

/-- One value, from the place of `e` on: the loop neither runs on nor leaves the buffer. -/
private theorem uniqLoop_eq (h0 : 0 ∉ rest) (hfuel : rest.length < fuel) (values : List Bytes) :
    uniqLoop fuel (before ++ rest ++ [0]) before.length values =
      some ((words isSeparator rest).foldl pushUnique values) := by
  induction fuel generalizing before rest values with
  | zero => cases hfuel
  | succ fuel ih =>
    have hstart : skipWhile isSeparator (before ++ rest ++ [0]) (fuel + 1) before.length = _ := skipWhile_eq rfl hfuel
    have hsplit := rest.takeWhile_append_dropWhile (p := isSeparator)
    rw [← words_dropWhile]
    generalize rest.takeWhile isSeparator = sk at hstart hsplit
    rw [← List.length_append] at hstart
    cases htail : rest.dropWhile isSeparator with
    | nil =>
      refine uniqLoop_break hstart ?_
      rw [← hsplit, htail]
      simp
    | cons c tail =>
      -- a token starts at `c`
      have hcsep : isSeparator c = false := by
        have hhead := List.head?_dropWhile_not isSeparator rest
        rw [htail] at hhead
        simpa using hhead
      have hword : IsWord isSeparator ((c :: tail).takeWhile fun c => !isSeparator c) := isWord_takeWhile hcsep
      have hafter : ∀ x, ((c :: tail).dropWhile fun c => !isSeparator c).head? = some x → isSeparator x = true :=
        fun x hx => head_dropWhile_sep hx
      have hcat := (c :: tail).takeWhile_append_dropWhile (p := fun c => !isSeparator c)
      generalize (c :: tail).takeWhile (fun c => !isSeparator c) = w at hword hcat
      generalize (c :: tail).dropWhile (fun c => !isSeparator c) = after at hafter hcat
      rw [htail, ← hcat] at hsplit
      rw [← hsplit, List.length_append] at hfuel
      rw [← hcat, ← hsplit, ← List.append_assoc before]
      rw [← hsplit, ← List.append_assoc before] at hstart
      have h0tail : 0 ∉ w ++ after := fun h => h0 (hsplit ▸ List.mem_append_right sk h)
      have hwlen : 0 < w.length := List.length_pos_of_ne_nil hword.1
      have hlen : (w ++ after).length = w.length + after.length := List.length_append
      refine uniqLoop_word hword hafter h0tail (by omega) hstart fun before' values' => ih ?_ ?_ values'
      · exact fun h => h0tail (List.mem_append_right w (List.mem_of_mem_tail h))
      · rw [List.length_tail]
        omega

private theorem pushUnique_eq : pushUnique = pushNew foldCase := by
  funext values start
  unfold pushUnique pushNew sameName
  simp only [beq_eq_decide]

end scan

section vary
variable {t : Table} {fuel : ℕ}

/-- All values fit into the fuel. -/
def varyFits (t : Table) (fuel : ℕ) : Prop := ∀ v ∈ valuesOf foldCase t (ascii "vary"), v.length < fuel

private theorem uniqFieldValues_eq {val : Bytes} (hfuel : val.length < fuel) (values : List Bytes) :
    uniqFieldValues fuel values val = some ((words isSeparator (cString val)).foldl (pushNew foldCase) values) := by
  have hlen := length_cString_le val
  unfold uniqFieldValues
  rw [← pushUnique_eq]
  exact @uniqLoop_eq [] (cString val) fuel (zero_notMem_cString val) (Nat.lt_of_le_of_lt hlen hfuel) values

private theorem foldlM_uniqFieldValues {vals : List Bytes} (hfuel : ∀ v ∈ vals, v.length < fuel) (values : List Bytes) :
    vals.foldlM (uniqFieldValues fuel) values =
      some ((vals.flatMap fun v => words isSeparator (cString v)).foldl (pushNew foldCase) values) := by
  induction vals generalizing values with
  | nil => rfl
  | cons val vals ih =>
    rw [List.foldlM_cons, uniqFieldValues_eq (hfuel val List.mem_cons_self), List.flatMap_cons, List.foldl_append]
    exact ih (fun v hv => hfuel v (List.mem_cons_of_mem _ hv)) _

private theorem varies_eq (hfuel : varyFits t fuel) : varies fuel t = some (firsts foldCase (varyTokens t)) := by
  unfold varies
  rw [foldlM_uniqFieldValues hfuel, foldl_pushNew_nil]
  rfl

/-- The table that `fix_vary` leaves. -/
def fixedVary (t : Table) : Table :=
  if varyTokens t = [] then t
  else setEntry foldCase (ascii "Vary") (joinComma (firsts foldCase (varyTokens t))) t

theorem fixVary_eq (hfuel : varyFits t fuel) : fixVary fuel t = some (fixedVary t) := by
  unfold fixVary fixedVary
  rw [varies_eq hfuel]
  cases htok : varyTokens t with
  | nil => rfl
  | cons w ws => rfl

/-- What was collected are words without NUL. -/
private theorem isWord_of_mem_varyTokens {w : Bytes} (h : w ∈ varyTokens t) : IsWord isSeparator w ∧ 0 ∉ w := by
  obtain ⟨v, -, hw⟩ := List.mem_flatMap.mp h
  obtain ⟨hword, hsub⟩ := isWord_of_mem_words hw
  exact ⟨hword, fun h0 => zero_notMem_cString v (hsub 0 h0)⟩

private theorem zero_notMem_joinComma {ws : List Bytes} (h : ∀ w ∈ ws, 0 ∉ w) : 0 ∉ joinComma ws := by
  intro h0
  unfold joinComma at h0
  induction ws with
  | nil => cases h0
  | cons w ws ih =>
    have hw := h w List.mem_cons_self
    have hrest := ih fun v hv => h v (List.mem_cons_of_mem _ hv)
    cases ws with
    | nil => exact hw (by simpa using h0)
    | cons v ws =>
      rw [List.intercalate_cons_cons] at h0
      simp_all

/-- The tokens of the joined value are the ones that were joined. -/
private theorem words_joinComma {ws : List Bytes} (h : ∀ w ∈ ws, IsWord isSeparator w ∧ 0 ∉ w) :
    words isSeparator (cString (joinComma ws)) = ws := by
  rw [cString_eq_self_iff.mpr (zero_notMem_joinComma fun w hw => (h w hw).2)]
  exact words_intercalate rfl fun w hw => (h w hw).1

theorem valuesOf_fixedVary (h : varyTokens t ≠ []) :
    valuesOf foldCase (fixedVary t) (ascii "vary") = [joinComma (firsts foldCase (varyTokens t))] := by
  unfold fixedVary
  rw [if_neg h]
  exact valuesOf_setEntry_self (by decide) _ _

theorem varyTokens_fixedVary (t : Table) : varyTokens (fixedVary t) = firsts foldCase (varyTokens t) := by
  by_cases htok : varyTokens t = []
  · unfold fixedVary
    rw [if_pos htok, htok]
    rfl
  · have hwords : ∀ w ∈ firsts foldCase (varyTokens t), IsWord isSeparator w ∧ 0 ∉ w := fun w hw =>
      isWord_of_mem_varyTokens ((firsts_sublist _).subset hw)
    unfold varyTokens at hwords ⊢
    rw [valuesOf_fixedVary htok, List.flatMap_singleton]
    exact words_joinComma hwords

private theorem fixedVary_fixedVary (t : Table) : fixedVary (fixedVary t) = fixedVary t := by
  have hsame := varyTokens_fixedVary t
  have hfirsts : firsts foldCase (firsts foldCase (varyTokens t)) = firsts foldCase (varyTokens t) :=
    firsts_eq_self (nodup_firsts _)
  by_cases htok : varyTokens t = []
  · have hkeep : fixedVary t = t := if_pos htok
    rw [hkeep, hkeep]
  · have hset : fixedVary t = setEntry foldCase (ascii "Vary") (joinComma (firsts foldCase (varyTokens t))) t :=
      if_neg htok
    have hne : varyTokens (fixedVary t) ≠ [] := by
      rw [hsame]
      cases hcons : varyTokens t with
      | nil => exact absurd hcons htok
      | cons w ws => exact List.cons_ne_nil _ _
    have hagain : fixedVary (fixedVary t) =
        setEntry foldCase (ascii "Vary") (joinComma (firsts foldCase (varyTokens (fixedVary t)))) (fixedVary t) :=
      if_neg hne
    rw [hagain, hsame, hfirsts, hset, setEntry_setEntry]

private theorem filter_fixedVary (t : Table) :
    (fixedVary t).filter (fun e => foldCase e.1 ≠ ascii "vary") = t.filter fun e => foldCase e.1 ≠ ascii "vary" := by
  have hkey : ascii "vary" = foldCase (ascii "Vary") := by decide
  unfold fixedVary
  split_ifs
  · rfl
  · rw [hkey, filter_setEntry_ne]

theorem exists_varyFits (t : Table) : ∃ bound, ∀ fuel, bound ≤ fuel → varyFits t fuel := by
  unfold varyFits
  induction valuesOf foldCase t (ascii "vary") with
  | nil => exact ⟨0, fun _ _ => nofun⟩
  | cons v vs ih =>
    obtain ⟨bound, hbound⟩ := ih
    refine ⟨max bound (v.length + 1), fun fuel hfuel => ?_⟩
    have hold := hbound fuel (by omega)
    rw [List.forall_mem_cons]
    exact ⟨by omega, hold⟩

/-- With enough fuel `fix_vary` returns. It leaves one `Vary` entry with the first spelling of every token in
order, or the table as it was if there is no token, and a second call changes nothing. -/
theorem fix_vary_normalises (t : Table) :
    ∃ t' bound, (∀ fuel, bound ≤ fuel → fixVary fuel t = some t' ∧ fixVary fuel t' = some t') ∧
      (varyTokens t ≠ [] → valuesOf foldCase t' (ascii "vary") = [joinComma (firsts foldCase (varyTokens t))]) ∧
      (varyTokens t = [] → t' = t) ∧
      varyTokens t' = firsts foldCase (varyTokens t) ∧
      (t'.filter fun e => foldCase e.1 ≠ ascii "vary") = (t.filter fun e => foldCase e.1 ≠ ascii "vary") ∧
      ((firsts foldCase (varyTokens t)).map foldCase).Nodup ∧
      (firsts foldCase (varyTokens t)).Sublist (varyTokens t) ∧
      (∀ w ∈ varyTokens t, ∃ first ∈ firsts foldCase (varyTokens t), foldCase first = foldCase w) ∧
      ∀ first ∈ firsts foldCase (varyTokens t), (varyTokens t).find? (foldCase · = foldCase first) = some first := by
  obtain ⟨bound, hbound⟩ := exists_varyFits t
  obtain ⟨bound', hbound'⟩ := exists_varyFits (fixedVary t)
  refine ⟨fixedVary t, max bound bound', fun fuel hfuel => ⟨?_, ?_⟩, valuesOf_fixedVary, fun htok => if_pos htok,
    varyTokens_fixedVary t, filter_fixedVary t, nodup_firsts _, firsts_sublist _, fun w hw => exists_mem_firsts hw,
    fun first hfirst => find?_of_mem_firsts hfirst⟩
  · exact fixVary_eq (hbound fuel (by omega))
  · rw [fixVary_eq (hbound' fuel (by omega)), fixedVary_fixedVary]

/-- Two entries, with commas and blanks in odd places. -/
def scatteredVary : Table :=
  [(ascii "vary", ascii " ,Accept,, accept\t"), (ascii "ETag", ascii "x"), (ascii "Vary", ascii "ORIGIN ,Accept")]

theorem fix_vary_normalises_scattered :
    ∃ t' fuel, fixVary fuel scatteredVary = some t' ∧
      valuesOf foldCase t' (ascii "vary") = [ascii "Accept,ORIGIN"] := by
  obtain ⟨t', bound, hrun, hvalue, -⟩ := fix_vary_normalises scatteredVary
  have hsome : varyTokens scatteredVary ≠ [] := by decide +kernel
  have hjoin : joinComma (firsts foldCase (varyTokens scatteredVary)) = ascii "Accept,ORIGIN" := by decide +kernel
  exact ⟨t', bound, (hrun bound (Nat.le_refl _)).1, hjoin ▸ hvalue hsome⟩

end vary

end ModHttp3.Response

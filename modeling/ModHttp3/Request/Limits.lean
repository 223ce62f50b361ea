import ModHttp3.Request.Headers
import ModHttp3.Session.Change

/-! The limits on the header fields and on the body of a request: the flags that the callbacks raise
depend on what was sent and not on how it came, and decide how the request is answered. -/
namespace ModHttp3.Request
open Session Lib

def httpRequestHeaderFieldsTooLarge : Status := 431

inductive Access
  | declined
  | ok
  | refused (status : Status)
  deriving DecidableEq, Repr

/-- `h3_hook_access_checker`; the stream is `none` for a request without a context. -/
def h3HookAccessChecker (isH3 : Bool) (stream : Option H3Stream) : Access :=
  if !isH3 then .declined
  else match stream with
    | none => .ok
    | some o =>
      if o.headersTooLarge then .refused httpRequestHeaderFieldsTooLarge
      else if o.requestBodyOverflow then .refused httpRequestEntityTooLarge
      else if o.bodyTruncated then .refused httpBadRequest
      else .ok

section headers
variable {conf : SessionConf} {o : H3Stream} {f : HeaderField} {seen fields : List HeaderField}

theorem regularFields_concat (hf : f.token = .regular) :
    regularFields (fields ++ [f]) = regularFields fields ++ [f] := by
  unfold regularFields
  rw [List.filter_append, List.filter_cons_of_pos (by simpa using hf), List.filter_nil]

theorem regularFields_concat_pseudo (hf : f.token ≠ .regular) : regularFields (fields ++ [f]) = regularFields fields := by
  unfold regularFields
  rw [List.filter_append, List.filter_cons_of_neg (by simpa using hf), List.filter_nil, List.append_nil]

theorem withinLimits_concat_pseudo (hf : f.token ≠ .regular) :
    withinLimits conf (fields ++ [f]) ↔ withinLimits conf fields := by
  unfold withinLimits
  rw [regularFields_concat_pseudo hf]

theorem withinLimits_concat (hf : f.token = .regular) :
    withinLimits conf (fields ++ [f]) ↔ withinLimits conf fields ∧
      (0 < conf.limitReqFields → (regularFields fields).length + 1 ≤ conf.limitReqFields) ∧
      fieldOversized conf f = false := by
  unfold withinLimits
  rw [regularFields_concat hf, List.length_append]
  simp only [List.mem_append, List.mem_singleton, List.length_singleton]
  constructor
  · rintro ⟨hcount, hsize⟩
    exact ⟨⟨fun h => by have := hcount h; omega, fun g hg => hsize g (.inl hg)⟩, fun h => by have := hcount h; omega,
      hsize f (.inr rfl)⟩
  · rintro ⟨⟨hcount, hsize⟩, hroom, hf⟩
    refine ⟨fun h => by have := hroom h; omega, fun g hg => ?_⟩
    rcases hg with hg | rfl
    · exact hsize g hg
    · exact hf

/-- The table was filled from the fields up to the first that broke a limit. -/
structure Counted (conf : SessionConf) (seen fields : List HeaderField) (o : H3Stream) : Prop where
  sub : seen <+: fields
  within : withinLimits conf seen
  headers : o.headers = some (entriesOf seen)
  small : o.headersTooLarge = false →
    seen = fields ∧ (0 < conf.limitReqFields → o.headerCount = (regularFields fields).length)
  large : o.headersTooLarge = true → ¬ withinLimits conf fields

/-- A pseudo-header changes nothing that the limits depend on. -/
private theorem onRecvHeader_pseudo (conf : SessionConf) (hf : f.token ≠ .regular) (o : H3Stream) :
    (onRecvHeader conf f o).headers = o.headers ∧ (onRecvHeader conf f o).headersTooLarge = o.headersTooLarge ∧
      (onRecvHeader conf f o).headerCount = o.headerCount := by
  rw [onRecvHeader_of_pseudo hf]
  split_ifs
  · unfold setPseudo
    split_ifs
    · exact ⟨rfl, rfl, rfl⟩
    · cases f.token <;> exact ⟨rfl, rfl, rfl⟩
  · exact ⟨rfl, rfl, rfl⟩

theorem Counted.pseudo (hc : Counted conf seen fields o) (hf : f.token ≠ .regular) :
    ∃ seen', Counted conf seen' (fields ++ [f]) (onRecvHeader conf f o) := by
  obtain ⟨hheaders, hlarge, hcount⟩ := onRecvHeader_pseudo conf hf o
  cases hflag : o.headersTooLarge with
  | true =>
    refine ⟨seen, hc.sub.trans (List.prefix_append ..), hc.within, hheaders.trans hc.headers, fun h => ?_, fun _ => ?_⟩
    · rw [hlarge, hflag] at h
      cases h
    · rw [withinLimits_concat_pseudo hf]
      exact hc.large hflag
  | false =>
    obtain ⟨rfl, hseen⟩ := hc.small hflag
    refine ⟨seen ++ [f], List.prefix_rfl, (withinLimits_concat_pseudo hf).mpr hc.within, ?_, fun _ => ⟨rfl, ?_⟩, ?_⟩
    · rw [hheaders, hc.headers]
      unfold entriesOf
      rw [regularFields_concat_pseudo hf]
    · rw [hcount, regularFields_concat_pseudo hf]
      exact hseen
    · rw [hlarge, hflag]
      nofun

/-- A regular field is stored exactly if it breaks neither limit. -/
private theorem addField_eq (conf : SessionConf) (f : HeaderField) (headers : Table) (o : H3Stream) :
    addField conf f headers o =
      let count := if 0 < conf.limitReqFields then o.headerCount + 1 else o.headerCount
      if (0 < conf.limitReqFields → ((o.headerCount + 1 : ℕ) : ℤ) ≤ conf.limitReqFields) ∧ fieldOversized conf f = false
      then { o with headerCount := count, headers := some (headers ++ [(f.name, f.value)]) }
      else { o with headerCount := count, headersTooLarge := true } := by
  unfold addField
  dsimp only
  by_cases hlimit : 0 < conf.limitReqFields
  · by_cases hmany : conf.limitReqFields < ((o.headerCount + 1 : ℕ) : ℤ)
    · rw [if_pos hlimit, if_pos ⟨hlimit, hmany⟩, if_neg fun h => by have := h.1 hlimit; omega]
    · rw [if_pos hlimit, if_neg fun h => hmany h.2]
      cases fieldOversized conf f with
      | true => rw [if_pos rfl, if_neg fun h => Bool.false_ne_true h.2.symm]
      | false => rw [if_neg Bool.false_ne_true, if_pos ⟨fun _ => by omega, rfl⟩]
  · rw [if_neg hlimit, if_neg fun h => hlimit h.1]
    cases fieldOversized conf f with
    | true => rw [if_pos rfl, if_neg fun h => Bool.false_ne_true h.2.symm]
    | false => rw [if_neg Bool.false_ne_true, if_pos ⟨fun h => absurd h hlimit, rfl⟩]

theorem Counted.regular (hc : Counted conf seen fields o) (hf : f.token = .regular) :
    ∃ seen', Counted conf seen' (fields ++ [f]) (onRecvHeader conf f o) := by
  unfold onRecvHeader
  rw [if_neg (not_not.mpr hf), hc.headers]
  dsimp only
  cases hflag : o.headersTooLarge with
  | true =>
    -- once a limit is broken no later field mends it
    rw [if_pos rfl]
    refine ⟨seen, hc.sub.trans (List.prefix_append ..), hc.within, hc.headers, fun h => ?_, fun _ h => ?_⟩
    · rw [hflag] at h
      cases h
    · exact hc.large hflag ((withinLimits_concat hf).mp h).1
  | false =>
    obtain ⟨rfl, hseen⟩ := hc.small hflag
    rw [if_neg Bool.false_ne_true]
    have hroom : (0 < conf.limitReqFields → ((o.headerCount + 1 : ℕ) : ℤ) ≤ conf.limitReqFields) ↔
        (0 < conf.limitReqFields → ((regularFields seen).length : ℤ) + 1 ≤ conf.limitReqFields) := by
      refine forall_congr' fun h => ?_
      rw [hseen h]
      rfl
    rw [addField_eq]
    dsimp only
    split
    · rename_i hfits
      rw [hroom] at hfits
      have hwithin := (withinLimits_concat hf).mpr ⟨hc.within, hfits⟩
      refine ⟨seen ++ [f], List.prefix_rfl, hwithin, ?_, fun _ => ⟨rfl, fun h => ?_⟩, fun h => ?_⟩
      · unfold entriesOf
        rw [regularFields_concat hf, List.map_append]
        rfl
      · have hcount := hseen h
        rw [regularFields_concat hf, List.length_append, ← hcount]
        exact if_pos h
      · rw [hflag] at h
        cases h
    · rename_i hfits
      rw [hroom] at hfits
      refine ⟨seen, List.prefix_append .., hc.within, hc.headers, nofun, fun _ h => ?_⟩
      exact hfits ((withinLimits_concat hf).mp h).2

private theorem counted_foldl (fields : List HeaderField) :
    ∀ {seen before : List HeaderField} {o : H3Stream}, Counted conf seen before o →
      ∃ seen', Counted conf seen' (before ++ fields) (fields.foldl (fun o f => onRecvHeader conf f o) o) := by
  induction fields with
  | nil =>
    intro seen before o hc
    rw [List.append_nil]
    exact ⟨seen, hc⟩
  | cons f fields ih =>
    intro seen before o hc
    have hnext : ∃ seen', Counted conf seen' (before ++ [f]) (onRecvHeader conf f o) := by
      by_cases hf : f.token = .regular
      · exact hc.regular hf
      · exact hc.pseudo hf
    obtain ⟨seen', hnext⟩ := hnext
    have hrest := ih hnext
    rwa [List.append_assoc] at hrest

private theorem recvHeader_malformed (conf : SessionConf) (f : HeaderField) (o : H3Stream) :
    (onRecvHeader conf f o).malformed = (o.malformed || (f.token != .regular && !storable conf f)) := by
  by_cases hf : f.token = .regular
  · obtain ⟨_, _, _, he⟩ := onRecvHeader_of_regular conf hf o
    rw [he, hf]
    simp
  · rw [onRecvHeader_of_pseudo hf]
    cases hs : storable conf f with
    | false => simp [hf]
    | true =>
      unfold storable at hs
      rw [Bool.and_eq_true, decide_eq_true_eq] at hs
      unfold setPseudo
      rw [if_pos rfl, if_neg (by omega)]
      generalize f.token = t at hf
      cases t <;> simp_all

private theorem foldl_malformed (conf : SessionConf) (fields : List HeaderField) (o : H3Stream) :
    (fields.foldl (fun o f => onRecvHeader conf f o) o).malformed =
      (o.malformed || fields.any fun f => f.token != .regular && !storable conf f) := by
  induction fields generalizing o with
  | nil => simp
  | cons f fields ih => rw [List.foldl_cons, ih, recvHeader_malformed, List.any_cons, Bool.or_assoc]

/-- A field breaks no limit on its size, in the words of the directive. -/
theorem fieldOversized_iff : fieldOversized conf f = true ↔
    0 < conf.limitReqFieldsize ∧ conf.limitReqFieldsize < f.name.length + f.value.length + 2 := by
  unfold fieldOversized
  rw [Bool.and_eq_true, decide_eq_true_eq, decide_eq_true_eq]

private theorem not_withinLimits_iff : ¬ withinLimits conf fields ↔
    (0 < conf.limitReqFields ∧ conf.limitReqFields < (regularFields fields).length) ∨
      ∃ f ∈ regularFields fields, 0 < conf.limitReqFieldsize ∧
        conf.limitReqFieldsize < f.name.length + f.value.length + 2 := by
  unfold withinLimits
  simp only [← fieldOversized_iff, Classical.not_and_iff_not_or_not, Classical.not_imp, Int.not_le,
    Classical.not_forall, Bool.not_eq_false]

theorem counted_begin (conf : SessionConf) {sid : ℤ} (h : Handle) (hbidi : h3SidIsBidi sid) :
    Counted conf [] [] (onBeginHeaders (.new sid h)) := by
  have hempty : withinLimits conf [] := by
    refine ⟨fun hpos => ?_, nofun⟩
    change (0 : ℤ) ≤ _
    omega
  refine ⟨List.prefix_rfl, hempty, ?_, fun _ => ⟨rfl, fun _ => rfl⟩, nofun⟩
  change (if h3SidIsBidi sid && true then some [] else none) = some []
  rw [hbidi]
  rfl

private theorem not_storable_iff : (!storable conf f) = true ↔
    (0 < conf.limitReqFieldsize ∧ conf.limitReqFieldsize < f.name.length + f.value.length + 2) ∨
      f.value.length = 0 ∨ 8192 ≤ f.value.length := by
  rw [← fieldOversized_iff]
  unfold storable
  cases fieldOversized conf f with
  | true => simp
  | false =>
    simp only [Bool.not_false, Bool.true_and, Bool.not_eq_true', decide_eq_false_iff_not, Bool.false_eq_true, false_or]
    omega

private theorem accessChecker_431_iff (o : H3Stream) :
    h3HookAccessChecker true (some o) = .refused httpRequestHeaderFieldsTooLarge ↔ o.headersTooLarge = true := by
  unfold h3HookAccessChecker
  rw [if_neg (by decide)]
  dsimp only
  split_ifs with hlarge hover htrunc <;>
    simp [hlarge, httpRequestHeaderFieldsTooLarge, httpRequestEntityTooLarge, httpBadRequest]

/-- Whatever fields a request stream receives, the flag, the table, the pseudo-headers and the answer 431 are
those of the two limits. -/
theorem header_limits_exact {sid : ℤ} (h : Handle) (hbidi : h3SidIsBidi sid) (fields : List HeaderField)
    (chunks : List Bytes) :
    let o := receivedStream conf sid h fields chunks
    (o.headersTooLarge = true ↔
      (0 < conf.limitReqFields ∧ conf.limitReqFields < (regularFields fields).length) ∨
        ∃ f ∈ regularFields fields, 0 < conf.limitReqFieldsize ∧
          conf.limitReqFieldsize < f.name.length + f.value.length + 2) ∧
    (∃ hs, o.headers = some hs ∧ (0 < conf.limitReqFields → hs.length ≤ conf.limitReqFields) ∧
      (∀ e ∈ hs, 0 < conf.limitReqFieldsize → e.1.length + e.2.length + 2 ≤ conf.limitReqFieldsize) ∧
      (o.headersTooLarge = false → hs = entriesOf fields)) ∧
    (o.malformed = true ↔ ∃ f ∈ fields, f.token ≠ .regular ∧
      ((0 < conf.limitReqFieldsize ∧ conf.limitReqFieldsize < f.name.length + f.value.length + 2) ∨
        f.value.length = 0 ∨ 8192 ≤ f.value.length)) ∧
    (∀ token, token ≠ .regular → pseudoValue o token =
      (fields.filter fun f => f.token = token ∧ storable conf f).getLast?.map HeaderField.value) ∧
    (h3HookAccessChecker true (some o) = .refused httpRequestHeaderFieldsTooLarge ↔ o.headersTooLarge = true) := by
  intro o
  obtain ⟨seen, hc⟩ := counted_foldl fields (counted_begin conf h hbidi)
  have hmal := foldl_malformed conf fields (onBeginHeaders (.new sid h))
  have hpseudo := @foldl_pseudoValue conf fields (onBeginHeaders (.new sid h))
  obtain ⟨body, capacity, overflow, he⟩ := recvData_eq conf chunks
    (fields.foldl (fun o f => onRecvHeader conf f o) (onBeginHeaders (.new sid h)))
  change o = _ at he
  rw [List.nil_append] at hc
  rw [he]
  refine ⟨?_, ⟨entriesOf seen, hc.headers, ?_, ?_, ?_⟩, ?_, ?_, ?_⟩
  · rw [← not_withinLimits_iff]
    refine ⟨hc.large, fun hnot => ?_⟩
    by_contra hsmall
    obtain ⟨rfl, -⟩ := hc.small (Bool.not_eq_true _ ▸ hsmall)
    exact hnot hc.within
  · unfold entriesOf
    rw [List.length_map]
    exact hc.within.1
  · intro e hmem hpos
    obtain ⟨f, hf, rfl⟩ := List.mem_map.mp hmem
    have hsize := hc.within.2 f hf
    rw [← Bool.not_eq_true, fieldOversized_iff] at hsize
    dsimp only
    omega
  · intro hsmall
    rw [(hc.small hsmall).1]
  · rw [hmal]
    change (false || _) = true ↔ _
    rw [Bool.false_or, List.any_eq_true]
    simp only [Bool.and_eq_true, not_storable_iff, bne_iff_ne]
  · intro token ht
    have hlast := hpseudo token ht
    have hstart : pseudoValue (onBeginHeaders (.new sid h)) token = none := by
      cases token <;> rfl
    rw [hstart, Option.or_none] at hlast
    rw [← hlast]
    cases token <;> rfl
  · exact accessChecker_431_iff _

def crowdedConf : SessionConf := ⟨1, 40, 1024, 8, 512⟩

/-- Two fields where one is allowed, and an empty path. -/
def crowdedFields : List HeaderField :=
  [⟨.path, ascii ":path", []⟩, ⟨.regular, ascii "a", ascii "1"⟩, ⟨.regular, ascii "b", ascii "2"⟩]

theorem header_limits_exact_crowded :
    let o := receivedStream crowdedConf 0 20 crowdedFields []
    h3SidIsBidi 0 ∧ o.headersTooLarge = true ∧ o.malformed = true ∧ pseudoValue o .path = none ∧
      h3HookAccessChecker true (some o) = .refused httpRequestHeaderFieldsTooLarge := by
  intro o
  obtain ⟨hlarge, -, hmal, hpseudo, hhook⟩ := @header_limits_exact crowdedConf 0 20 rfl crowdedFields []
  have hflag := hlarge.mpr (.inl ⟨by decide, by decide⟩)
  exact ⟨rfl, hflag, hmal.mpr ⟨_, List.mem_cons_self, nofun, .inr (.inl rfl)⟩, hpseudo .path nofun, hhook.mpr hflag⟩

end headers

section body
variable {conf : SessionConf} {o : H3Stream} {body data : Bytes}

/-- What the buffer and the flag say of the body so far. -/
structure BodyTaken (conf : SessionConf) (body : Bytes) (o : H3Stream) : Prop where
  bidi : o.isBidi
  sub : o.requestBody <+: body
  fits : o.requestBody.length ≤ conf.maxRequestBodySize
  small : o.requestBodyOverflow = false → o.requestBody = body
  large : o.requestBodyOverflow = true → conf.maxRequestBodySize < body.length

theorem BodyTaken.recv (ht : BodyTaken conf body o) (data : Bytes) :
    BodyTaken conf (body ++ data) (onRecvData conf data o) := by
  unfold onRecvData
  dsimp only
  split_ifs with hnone hflag hmany
  · have hnil : data = [] := by
      rcases hnone with hb | hd
      · rw [ht.bidi] at hb
        cases hb
      · exact List.length_eq_zero_iff.mp hd
    rw [hnil, List.append_nil]
    exact ht
  · -- the bytes after the first that did not fit are dropped
    have hlong := ht.large hflag
    refine ⟨ht.bidi, ht.sub.trans (List.prefix_append ..), ht.fits, fun hfalse => ?_, fun _ => ?_⟩
    · rw [hflag] at hfalse
      cases hfalse
    · rw [List.length_append]
      omega
  all_goals
    have hwhole := ht.small (Bool.not_eq_true _ ▸ hflag)
  · refine ⟨ht.bidi, ht.sub.trans (List.prefix_append ..), ht.fits, nofun, fun _ => ?_⟩
    rw [List.length_append, ← hwhole]
    exact hmany
  all_goals
    have hcat : o.requestBody ++ data = body ++ data := by rw [hwhole]
    refine ⟨ht.bidi, ⟨[], (List.append_nil _).trans hcat⟩, ?_, fun _ => hcat, fun htrue => absurd htrue hflag⟩
    rw [List.length_append]
    omega

private theorem bodyTaken_foldl (chunks : List Bytes) (ht : BodyTaken conf body o) :
    BodyTaken conf (body ++ chunks.flatten) (chunks.foldl (fun o data => onRecvData conf data o) o) := by
  induction chunks generalizing body o with
  | nil =>
    rw [List.flatten_nil, List.append_nil]
    exact ht
  | cons data chunks ih =>
    rw [List.flatten_cons, ← List.append_assoc]
    exact ih (ht.recv data)

theorem BodyTaken.field (ht : BodyTaken conf body o) (f : HeaderField) :
    BodyTaken conf body (onRecvHeader conf f o) := by
  obtain ⟨_, _, _, _, _, _, _, _, -, he⟩ := onRecvHeader_eq conf f o
  rw [he]
  exact { ht with }

private theorem bodyTaken_fields (fields : List HeaderField) (ht : BodyTaken conf body o) :
    BodyTaken conf body (fields.foldl (fun o f => onRecvHeader conf f o) o) := by
  induction fields generalizing o with
  | nil => exact ht
  | cons f fields ih => exact ih (ht.field f)

theorem bodyTaken_received {sid : ℤ} (h : Handle) (hbidi : h3SidIsBidi sid) (fields : List HeaderField)
    (chunks : List Bytes) : BodyTaken conf chunks.flatten (receivedStream conf sid h fields chunks) := by
  have hbegin : BodyTaken conf [] (onBeginHeaders (.new sid h)) :=
    ⟨hbidi, List.prefix_rfl, Nat.zero_le _, fun _ => rfl, nofun⟩
  exact bodyTaken_foldl chunks (bodyTaken_fields fields hbegin)

theorem BodyTaken.overflow_iff (ht : BodyTaken conf body o) :
    o.requestBodyOverflow = true ↔ conf.maxRequestBodySize < body.length := by
  refine ⟨ht.large, fun hlong => ?_⟩
  by_contra hflag
  have hwhole := ht.small (Bool.not_eq_true _ ▸ hflag)
  have hfits := ht.fits
  rw [hwhole] at hfits
  omega

/-- The host check reads the host and nothing else of the header table. -/
def Httpd.HostOnly (httpd : Httpd) : Prop :=
  ∀ t t' : Table, t.get (ascii "Host") = t'.get (ascii "Host") → httpd.hostAccepted t = httpd.hostAccepted t'

theorem handling_process_iff (o : H3Stream) (r : RequestRec) :
    handling o r = .process ↔ r.status = httpOk ∧ o.requestBodyOverflow = false := by
  unfold handling
  split_ifs with hstatus hover
  · simp [hstatus]
  · simp [hover]
  · simp [not_not.mp hstatus, hover]

private theorem handling_413_iff {o : H3Stream} {r : RequestRec} (hstatus : r.status = httpOk) :
    handling o r = .die httpRequestEntityTooLarge ↔ o.requestBodyOverflow = true := by
  unfold handling
  rw [if_neg (not_not.mpr hstatus)]
  split_ifs with hover <;> simp [hover]

/-- The request that is built differs with the stored body only in the length it states. -/
private theorem buildRequest_status_body {base : H3Stream} {body₁ body₂ : Bytes} {httpd : Httpd} (hhost : httpd.HostOnly)
    (hhs : base.headers.isSome) :
    (buildRequest httpd { base with requestBody := body₁ }).status =
      (buildRequest httpd { base with requestBody := body₂ }).status := by
  obtain ⟨hs, hhs⟩ := Option.isSome_iff_exists.mp hhs
  have hget : (headersIn { base with requestBody := body₁ }).get (ascii "Host") =
      (headersIn { base with requestBody := body₂ }).get (ascii "Host") := by
    rw [get_host (o := { base with requestBody := body₁ }) hhs, get_host (o := { base with requestBody := body₂ }) hhs]
    rfl
  have hsame := hhost _ _ hget
  unfold buildRequest
  dsimp only
  rw [hsame]

/-- The flag depends on the length of the body alone. Of two ways to split one body, both set it or neither
does, and the request is answered in the same way. -/
theorem body_limit_on_total {sid : ℤ} (h : Handle) (hbidi : h3SidIsBidi sid) (fields : List HeaderField)
    {chunks₁ chunks₂ : List Bytes} (hsame : chunks₁.flatten = chunks₂.flatten) :
    let o₁ := receivedStream conf sid h fields chunks₁
    let o₂ := receivedStream conf sid h fields chunks₂
    (o₁.requestBodyOverflow = true ↔ conf.maxRequestBodySize < chunks₁.flatten.length) ∧
    o₁.requestBody <+: chunks₁.flatten ∧ o₁.requestBody.length ≤ conf.maxRequestBodySize ∧
    (o₁.requestBodyOverflow = false → o₁.requestBody = chunks₁.flatten) ∧
    o₁.requestBodyOverflow = o₂.requestBodyOverflow ∧
    (∀ httpd, (buildRequest httpd o₁).status = httpOk →
      (handling o₁ (buildRequest httpd o₁) = .die httpRequestEntityTooLarge ↔
        conf.maxRequestBodySize < chunks₁.flatten.length)) ∧
    (∀ httpd, handling o₁ (buildRequest httpd o₁) = .process ↔ handling o₂ (buildRequest httpd o₂) = .process) ∧
    ∀ httpd, httpd.HostOnly → handling o₁ (buildRequest httpd o₁) = handling o₂ (buildRequest httpd o₂) := by
  intro o₁ o₂
  have ht₁ : BodyTaken conf chunks₁.flatten o₁ := bodyTaken_received h hbidi fields chunks₁
  have ht₂ : BodyTaken conf chunks₁.flatten o₂ := hsame ▸ bodyTaken_received h hbidi fields chunks₂
  have hflag : o₁.requestBodyOverflow = o₂.requestBodyOverflow := by
    rw [Bool.eq_iff_iff, ht₁.overflow_iff, ht₂.overflow_iff]
  refine ⟨ht₁.overflow_iff, ht₁.sub, ht₁.fits, ht₁.small, hflag, fun httpd hstatus => ?_, fun httpd => ?_,
    fun httpd hhost => ?_⟩
  · rw [handling_413_iff hstatus, ht₁.overflow_iff]
  all_goals
    obtain ⟨body₁, capacity₁, overflow₁, he₁⟩ := recvData_eq conf chunks₁
      (fields.foldl (fun o f => onRecvHeader conf f o) (onBeginHeaders (.new sid h)))
    obtain ⟨body₂, capacity₂, overflow₂, he₂⟩ := recvData_eq conf chunks₂
      (fields.foldl (fun o f => onRecvHeader conf f o) (onBeginHeaders (.new sid h)))
    change o₁ = _ at he₁
    change o₂ = _ at he₂
  · rw [handling_process_iff, handling_process_iff, hflag]
    refine and_congr_left fun hsmall => ?_
    -- nothing was dropped, so the two bodies are the same
    have hbody : o₁.requestBody = o₂.requestBody := (ht₁.small (hflag.trans hsmall)).trans (ht₂.small hsmall).symm
    rw [he₁, he₂] at hbody ⊢
    dsimp only at hbody
    rw [hbody]
    rfl
  · have hbegin := (counted_begin conf h hbidi).headers
    have hheaders : (fields.foldl (fun o f => onRecvHeader conf f o) (onBeginHeaders (.new sid h))).headers.isSome :=
      foldl_headers_isSome fields (by rw [hbegin]; rfl)
    have hstatus : (buildRequest httpd o₁).status = (buildRequest httpd o₂).status := by
      rw [he₁, he₂]
      exact buildRequest_status_body hhost hheaders
    unfold handling
    rw [hstatus, hflag]

def smallBodyConf : SessionConf := ⟨100, 40, 3, 8, 512⟩

def plainHttpd : Httpd := ⟨fun path => (path, true), fun _ => true⟩

/-- Four bytes where three are allowed, in two pieces and in one: the first way stores two of them, the other none. -/
theorem body_limit_on_total_four :
    let o₁ := receivedStream smallBodyConf 0 20 [] [[1, 2], [3, 4]]
    let o₂ := receivedStream smallBodyConf 0 20 [] [[1, 2, 3, 4]]
    h3SidIsBidi 0 ∧ o₁.requestBody = [1, 2] ∧ o₂.requestBody = [] ∧ o₁.requestBodyOverflow = true ∧
      handling o₁ (buildRequest plainHttpd o₁) = .die httpRequestEntityTooLarge ∧
      handling o₂ (buildRequest plainHttpd o₂) = .die httpRequestEntityTooLarge := by
  intro o₁ o₂
  obtain ⟨hover, -, -, -, -, hdie, -, hequal⟩ := @body_limit_on_total smallBodyConf 0 20 rfl []
    [[1, 2], [3, 4]] [[1, 2, 3, 4]] rfl
  have hflag := hover.mpr (by decide)
  have hrefused := (hdie plainHttpd rfl).mpr (by decide)
  exact ⟨rfl, rfl, rfl, hflag, hrefused, (hequal plainHttpd fun _ _ _ => rfl).symm.trans hrefused⟩

end body

end ModHttp3.Request

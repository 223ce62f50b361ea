import Mathlib.Data.List.Basic
import ModHttp3.Config.Server
import ModHttp3.Request.Build

/-! The `Alt-Svc` header that `h3_hook_fixups` adds, against the port of the one listener. -/
namespace ModHttp3.Config
open Lib Request

/-- What an advertisement says. -/
structure AltSvc where
  port : ℕ
  maxAge : ℕ
  deriving DecidableEq, Repr

/-- `h3=":%d"; ma=%u; persist=1`. -/
def AltSvc.text (a : AltSvc) : Bytes :=
  ascii "h3=\":" ++ decimal a.port ++ ascii "\"; ma=" ++ decimal a.maxAge ++ ascii "; persist=1"

inductive HookResult
  | ok
  | declined
  deriving DecidableEq, Repr

/-- `h3_hook_fixups` without the TLS variables: `conf` is the record of the request's server. -/
def h3HookFixups (initialReq : Bool) (conf : ServerConf) (headersOut : Table) : HookResult × Table :=
  if !initialReq then (.declined, headersOut)
  else if !conf.configured || conf.h3Port == 0 then (.declined, headersOut)
  else if conf.h3AltSvc = .off then (.declined, headersOut)
  else if (headersOut.get (ascii "Alt-Svc")).isSome then (.declined, headersOut)
  else (.ok, setEntry foldCase (ascii "Alt-Svc") (AltSvc.text ⟨conf.h3Port, conf.h3AltSvcMaxAge⟩) headersOut)

/-- The age that a server's directives ask for, or the default. -/
def ServerConf.effectiveMaxAge (c : ServerConf) : ℕ := orElse c.h3AltSvcMaxAge h3AltSvcMaxAgeDefault

section
variable {w w' : Site} {s sel : Server}

theorem digit_toUInt8 {c : Char} (h : c.isDigit = true) :
    48 ≤ c.toUInt8 ∧ c.toUInt8 ≤ 57 ∧ Char.ofNat c.toUInt8.toNat = c := by
  have hdigit : 48 ≤ c.toNat ∧ c.toNat ≤ 57 := Char.isDigit_iff_toNat.mp h
  have hmod : c.toUInt8.toNat = c.toNat % 2 ^ 8 := UInt32.toNat_toUInt8 c.val
  have hbyte : c.toUInt8.toNat = c.toNat := by omega
  refine ⟨?_, ?_, ?_⟩
  · rw [UInt8.le_iff_toNat_le, hbyte]
    exact hdigit.1
  · rw [UInt8.le_iff_toNat_le, hbyte]
    exact hdigit.2
  · rw [hbyte, Char.ofNat_toNat]

theorem decimal_chars (n : ℕ) : (decimal n).map (fun b => Char.ofNat b.toNat) = Nat.toDigits 10 n := by
  unfold decimal
  rw [List.map_map]
  have hdigit : ∀ c ∈ Nat.toDigits 10 n, (fun c : Char => Char.ofNat c.toUInt8.toNat) c = c := by
    intro c hc
    exact (digit_toUInt8 (Nat.isDigit_of_mem_toDigits (by omega) (by omega) hc)).2.2
  exact (List.map_congr_left hdigit).trans (List.map_id' _)

theorem decimal_inj {m n : ℕ} (h : decimal m = decimal n) : m = n := by
  have hdigits : Nat.toDigits 10 m = Nat.toDigits 10 n := by rw [← decimal_chars, ← decimal_chars, h]
  have hm : Nat.ofDigitChars 10 (Nat.toDigits 10 m) 0 = m := Nat.ofDigitChars_ten_toDigits
  have hn : Nat.ofDigitChars 10 (Nat.toDigits 10 n) 0 = n := Nat.ofDigitChars_ten_toDigits
  rw [← hm, ← hn, hdigits]

theorem not_mem_decimal {b : UInt8} (hb : b < 48 ∨ 57 < b) (n : ℕ) : b ∉ decimal n := by
  intro hmem
  obtain ⟨c, hc, rfl⟩ := List.mem_map.mp hmem
  obtain ⟨hlo, hhi, -⟩ := digit_toUInt8 (Nat.isDigit_of_mem_toDigits (by omega) (by omega) hc)
  rcases hb with hb | hb
  · exact absurd hlo (UInt8.not_le.mpr hb)
  · exact absurd hhi (UInt8.not_le.mpr hb)

/-- The header tells which port and which age it was made from: a quote ends the port, a semicolon
the age. -/
theorem AltSvc.text_inj {a b : AltSvc} (h : a.text = b.text) : a = b := by
  have hquote : ascii "\"; ma=" = 34 :: ascii "; ma=" := by decide
  have hsemicolon : ascii "; persist=1" = 59 :: ascii " persist=1" := by decide
  have hrest : ∀ n : ℕ, (34 : UInt8) ∉ ascii "; ma=" ++ (decimal n ++ ascii "; persist=1") := by
    intro n hmem
    rcases List.mem_append.mp hmem with hmem | hmem
    · exact absurd hmem (by decide)
    · rcases List.mem_append.mp hmem with hmem | hmem
      · exact not_mem_decimal (.inl (by decide)) n hmem
      · exact absurd hmem (by decide)
  unfold AltSvc.text at h
  simp only [List.append_assoc, List.append_cancel_left_eq] at h
  rw [hquote, List.cons_append, List.cons_append,
    List.append_cons_inj_of_notMem (not_mem_decimal (.inl (by decide)) _) (hrest _)] at h
  obtain ⟨hport, -, hage⟩ := h
  rw [List.append_cancel_left_eq, hsemicolon,
    List.append_cons_inj_of_notMem (not_mem_decimal (.inr (by decide)) _) (by decide)] at hage
  obtain ⟨port, age⟩ := a
  obtain ⟨port', age'⟩ := b
  obtain rfl := decimal_inj hport
  obtain rfl := decimal_inj hage.1
  rfl

private theorem fixups_ok {initialReq : Bool} {conf : ServerConf} {headersOut headersOut' : Table}
    (h : h3HookFixups initialReq conf headersOut = (.ok, headersOut')) :
    headersOut'.get (ascii "Alt-Svc") = some (AltSvc.text ⟨conf.h3Port, conf.h3AltSvcMaxAge⟩) := by
  unfold h3HookFixups at h
  split_ifs at h
  · cases h
  · cases h
  · cases h
  · cases h
  · cases h
    unfold Table.get
    rw [valuesOf_setEntry_self rfl]
    rfl

theorem confOf_update_same (f : ServerConf → ServerConf) (h : s.record = sel.record) :
    (w.update sel f).confOf s = f (w.confOf sel) := by
  unfold Site.confOf Site.update
  dsimp only
  rw [h, Function.update_self]
  rfl

theorem confOf_update_other (f : ServerConf → ServerConf) (h : s.record ≠ sel.record) :
    (w.update sel f).confOf s = w.confOf s := by
  unfold Site.confOf Site.update
  dsimp only
  rw [Function.update_of_ne h]

/-- A change that keeps the paths keeps the selection. -/
theorem selected_update {f : ServerConf → ServerConf} (h : (f (w.confOf sel)).configured = (w.confOf sel).configured) :
    (w.update sel f).selected = w.selected := by
  unfold Site.selected
  change w.servers.find? _ = _
  congr 1
  funext s
  by_cases hs : s.record = sel.record
  · rw [confOf_update_same f hs, h]
    unfold Site.confOf
    rw [hs]
  · rw [confOf_update_other f hs]

/-- The listener binds the port of the server that `h3_post_config` selected. -/
private theorem listenerPort_postConfig (hsel : w.selected = some sel) :
    listenerPort (w.update sel (·.defaulted (getServerPort sel))) =
      some (orElse (w.confOf sel).h3Port (getServerPort sel)) := by
  unfold listenerPort findH3Server
  rw [selected_update rfl, hsel]
  simp only [Option.map_some, Option.some.injEq]
  rw [confOf_update_same _ rfl, confOf_update_same _ rfl]
  rfl

private theorem effectiveMaxAge_bounds {c : ServerConf} (h : c.WithinLimits) :
    1 ≤ c.effectiveMaxAge ∧ c.effectiveMaxAge ≤ h3AltSvcMaxAgeMax := by
  have hage := h.altSvcMaxAge
  unfold ServerConf.effectiveMaxAge orElse
  split_ifs with hset
  · exact ⟨Nat.one_le_iff_ne_zero.mpr hset, hage⟩
  · exact ⟨by decide, by decide⟩

/-- When a virtual host sets `Alt-Svc`, the header has the listener's port and the host's effective
age exactly if the host uses the selected record, or asks for the listener's port and for an age itself. -/
theorem alt_svc_advertises_listener_iff {addrs : List ℕ} {ds : List Directive} {vhosts : List Vhost}
    {certReadable keyReadable initialReq : Bool} {headersOut headersOut' : Table}
    (hconf : Site.configure addrs ds vhosts = .ok w) (hpost : h3PostConfig w certReadable keyReadable = some w')
    (hset : h3HookFixups initialReq (w'.confOf s) headersOut = (.ok, headersOut')) :
    (∃ port, listenerPort w' = some port ∧ 1 ≤ (w.confOf s).effectiveMaxAge ∧
        (w.confOf s).effectiveMaxAge ≤ h3AltSvcMaxAgeMax ∧
        headersOut'.get (ascii "Alt-Svc") = some (AltSvc.text ⟨port, (w.confOf s).effectiveMaxAge⟩)) ↔
      ∃ sel, w.selected = some sel ∧ (s.record = sel.record ∨
        (w.confOf s).h3Port = orElse (w.confOf sel).h3Port (getServerPort sel) ∧
          (w.confOf s).h3AltSvcMaxAge ≠ 0) := by
  unfold h3PostConfig at hpost
  cases hsel : w.selected with
  | none =>
    rw [hsel] at hpost
    cases hpost
  | some sel =>
    rw [hsel] at hpost
    dsimp only at hpost
    split_ifs at hpost
    cases hpost
    have hlisten := listenerPort_postConfig hsel
    have hage := effectiveMaxAge_bounds (configure_withinLimits hconf s.record)
    have htext := fixups_ok hset
    have hselected : ∀ P : Server → Prop, (∃ t, some sel = some t ∧ P t) ↔ P sel := by
      intro P
      simp
    rw [hselected, hlisten, htext]
    by_cases hrec : s.record = sel.record
    · -- The record with the defaults.
      have hsame : w.confOf s = w.confOf sel := by
        unfold Site.confOf
        rw [hrec]
      rw [confOf_update_same _ hrec, ← hsame]
      exact iff_of_true ⟨_, rfl, hage.1, hage.2, rfl⟩ (.inl hrec)
    · rw [confOf_update_other _ hrec]
      constructor
      · rintro ⟨port, hport, hone, -, heq⟩
        have hport' := Option.some.inj hport
        have hadvert := AltSvc.text_inj (Option.some.inj heq)
        rw [AltSvc.mk.injEq] at hadvert
        obtain ⟨hp, ha⟩ := hadvert
        exact .inr ⟨hp.trans hport'.symm, by omega⟩
      · rintro (hsame | ⟨hport, hset⟩)
        · exact absurd hsame hrec
        · have heff : (w.confOf s).effectiveMaxAge = (w.confOf s).h3AltSvcMaxAge := if_pos hset
          exact ⟨_, rfl, hage.1, hage.2, by rw [hport, heff]⟩

/-- A certificate and a key for the main server, which listens on port 443. -/
def mainLines : List Directive :=
  [.path .h3CertificatePath "cert.pem", .path .h3CertificateKeyPath "key.pem", .port "443" (.value 443)]

/-- A site with one virtual host. -/
def oneVhost (directives : Option (List Directive)) : Except String Site :=
  Site.configure [443] mainLines [⟨[443], directives⟩]

/-- A virtual host without directives of its own shares the selected record. -/
theorem alt_svc_advertises_listener_iff_shared :
    ∃ w w' s headersOut, oneVhost none = .ok w ∧ h3PostConfig w true true = some w' ∧
      w'.servers[1]? = some s ∧ h3HookFixups true (w'.confOf s) [] = (.ok, headersOut) ∧
      ∃ port, listenerPort w' = some port ∧ 1 ≤ (w.confOf s).effectiveMaxAge ∧
        (w.confOf s).effectiveMaxAge ≤ h3AltSvcMaxAgeMax ∧
        headersOut.get (ascii "Alt-Svc") = some (AltSvc.text ⟨port, (w.confOf s).effectiveMaxAge⟩) := by
  have hconf : ∃ w, oneVhost none = .ok w := ⟨_, rfl⟩
  obtain ⟨w, hconf⟩ := hconf
  have hpost : ∃ w', h3PostConfig w true true = some w' := by
    cases hconf
    exact ⟨_, rfl⟩
  obtain ⟨w', hpost⟩ := hpost
  have hset : ∃ headersOut, h3HookFixups true (w'.confOf ⟨[443], 0⟩) [] = (.ok, headersOut) := by
    cases hconf
    cases hpost
    exact ⟨_, rfl⟩
  obtain ⟨headersOut, hset⟩ := hset
  have hserver : w'.servers[1]? = some ⟨[443], 0⟩ := by
    cases hconf
    cases hpost
    rfl
  have hshared : ∃ sel, w.selected = some sel ∧ (0 = sel.record ∨
      (w.confOf ⟨[443], 0⟩).h3Port = orElse (w.confOf sel).h3Port (getServerPort sel) ∧
        (w.confOf ⟨[443], 0⟩).h3AltSvcMaxAge ≠ 0) := by
    cases hconf
    exact ⟨_, rfl, .inl rfl⟩
  exact ⟨w, w', ⟨[443], 0⟩, headersOut, hconf, hpost, hserver, hset,
    (alt_svc_advertises_listener_iff hconf hpost hset).mpr hshared⟩

/-- A virtual host with a port of its own advertises that port, where nothing listens, for zero seconds. -/
theorem vhost_advertises_other_port :
    ∃ w w' s headersOut, oneVhost (some [.port "8443" (.value 8443)]) = .ok w ∧ h3PostConfig w true true = some w' ∧
      w'.servers[1]? = some s ∧ h3HookFixups true (w'.confOf s) [] = (.ok, headersOut) ∧
      listenerPort w' = some 443 ∧
      headersOut.get (ascii "Alt-Svc") = some (AltSvc.text ⟨8443, 0⟩) :=
  ⟨_, _, _, _, rfl, rfl, rfl, rfl, rfl, rfl⟩

end

end ModHttp3.Config

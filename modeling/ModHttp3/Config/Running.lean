import ModHttp3.Config.AltSvc

/-! The configuration that the listener, the sessions and the workers run with: what `find_h3_server`
returns after `h3_post_config`. -/
namespace ModHttp3.Config

/-- A limit that is in force and within its directive's range. -/
def Limited (n hi : ℕ) : Prop := n ≠ 0 ∧ n ≤ hi

/-- The limits that the runtime uses without looking at them again. `h3StreamTimeout` is not one of them:
its zero stands for the server's `Timeout`. -/
structure ServerConf.InRange (c : ServerConf) : Prop where
  streamBuffer : Limited c.h3StreamBufferSize h3StreamBufferSizeMax
  socketBuffer : Limited c.h3SocketBufferSize h3SocketBufferSizeMax
  requestBody : Limited c.h3MaxRequestBodySize h3MaxRequestBodySizeMax
  responseBody : Limited c.h3MaxResponseBodySize h3MaxResponseBodySizeMax ∨
    c.h3MaxResponseBodySize = h3MaxResponseBodySizeDefault
  connections : Limited c.h3MaxConnections h3MaxConnectionsMax
  streams : Limited c.h3MaxConcurrentStreams uint16Max
  streamErrors : Limited c.h3MaxStreamErrors h3MaxStreamErrorsMax
  handshake : Limited c.h3HandshakeTimeout h3HandshakeTimeoutMax
  idle : Limited c.h3IdleTimeout h3IdleTimeoutMax
  minWorkers : Limited c.h3MinWorkers h3WorkersMax
  maxWorkers : Limited c.h3MaxWorkers h3WorkersMax
  workerIdle : Limited c.h3MaxWorkerIdleSeconds h3MaxWorkerIdleSecondsMax
  altSvcMaxAge : Limited c.h3AltSvcMaxAge h3AltSvcMaxAgeMax
  workers : c.h3MinWorkers ≤ c.h3MaxWorkers
  qpackCapacity : c.h3QpackTableCapacity ≤ h3QpackTableCapacityMax
  qpackBlocked : c.h3QpackBlockedStreams ≤ h3QpackBlockedStreamsMax

section
variable {c : ServerConf} {w w' : Site} {sel : Server}

theorem limited_orElse {n default hi : ℕ} (hn : n ≤ hi) (hd : Limited default hi) : Limited (orElse n default) hi := by
  unfold orElse
  split_ifs with h
  · exact ⟨h, hn⟩
  · exact hd

theorem maxWorkers_defaulted (hlim : c.WithinLimits) (hostPort : ℕ) :
    Limited (c.defaulted hostPort).h3MaxWorkers h3WorkersMax ∧
      (c.defaulted hostPort).h3MinWorkers ≤ (c.defaulted hostPort).h3MaxWorkers := by
  have hmin : Limited (orElse c.h3MinWorkers h3MinWorkersDefault) h3WorkersMax :=
    limited_orElse hlim.minWorkers ⟨by decide, by decide⟩
  have hmax : Limited (orElse c.h3MaxWorkers h3MaxWorkersDefault) h3WorkersMax :=
    limited_orElse hlim.maxWorkers ⟨by decide, by decide⟩
  unfold ServerConf.defaulted
  dsimp only
  split_ifs with h
  · exact ⟨hmin, Nat.le_refl _⟩
  · exact ⟨hmax, by omega⟩

/-- The defaults complete every configuration that the setters can make. -/
theorem ServerConf.WithinLimits.defaulted (hlim : c.WithinLimits) (hostPort : ℕ) :
    (c.defaulted hostPort).InRange where
  streamBuffer := limited_orElse hlim.streamBuffer ⟨by decide, by decide⟩
  socketBuffer := limited_orElse hlim.socketBuffer ⟨by decide, by decide⟩
  requestBody := limited_orElse hlim.requestBody ⟨by decide, by decide⟩
  responseBody := by
    by_cases h : c.h3MaxResponseBodySize = 0
    · right
      exact if_neg (not_not_intro h)
    · left
      have hset : (c.defaulted hostPort).h3MaxResponseBodySize = c.h3MaxResponseBodySize := if_pos h
      rw [hset]
      exact ⟨h, hlim.responseBody⟩
  connections := limited_orElse hlim.connections ⟨by decide, by decide⟩
  streams := limited_orElse hlim.streams ⟨by decide, by decide⟩
  streamErrors := limited_orElse hlim.streamErrors ⟨by decide, by decide⟩
  handshake := limited_orElse hlim.handshake ⟨by decide, by decide⟩
  idle := limited_orElse hlim.idle ⟨by decide, by decide⟩
  minWorkers := limited_orElse hlim.minWorkers ⟨by decide, by decide⟩
  maxWorkers := (maxWorkers_defaulted hlim hostPort).1
  workerIdle := limited_orElse hlim.workerIdle ⟨by decide, by decide⟩
  altSvcMaxAge := limited_orElse hlim.altSvcMaxAge ⟨by decide, by decide⟩
  workers := (maxWorkers_defaulted hlim hostPort).2
  qpackCapacity := by
    unfold ServerConf.defaulted
    dsimp only
    split_ifs
    · exact hlim.qpackCapacity
    · decide
  qpackBlocked := by
    unfold ServerConf.defaulted
    dsimp only
    split_ifs
    · exact hlim.qpackBlocked
    · decide

private theorem findH3Server_update {f : ServerConf → ServerConf} (hsel : w.selected = some sel)
    (hf : (f (w.confOf sel)).configured = (w.confOf sel).configured) :
    ∃ w'', findH3Server (w.update sel f) = some (sel, w'') ∧
      w''.confOf sel = { f (w.confOf sel) with hostPort := getServerPort sel } := by
  unfold findH3Server
  rw [selected_update hf, hsel]
  refine ⟨_, rfl, ?_⟩
  rw [confOf_update_same _ rfl, confOf_update_same _ rfl]

/-- After a start that `h3_post_config` allowed, the children select the server it found, and run with a
configuration in range. -/
theorem running_conf_in_range {addrs : List ℕ} {ds : List Directive} {vhosts : List Vhost}
    {certReadable keyReadable : Bool} (hconf : Site.configure addrs ds vhosts = .ok w)
    (hpost : h3PostConfig w certReadable keyReadable = some w') :
    ∃ sel w'', w.selected = some sel ∧ findH3Server w' = some (sel, w'') ∧ (w''.confOf sel).InRange := by
  unfold h3PostConfig at hpost
  cases hsel : w.selected with
  | none =>
    rw [hsel] at hpost
    cases hpost
  | some sel =>
    rw [hsel] at hpost
    dsimp only at hpost
    split_ifs at hpost
    cases hpost
    obtain ⟨w'', hfind, hrun⟩ := findH3Server_update (f := (·.defaulted (getServerPort sel))) hsel rfl
    have hlim := configure_withinLimits hconf sel.record
    have hrange := hlim.defaulted (getServerPort sel)
    refine ⟨sel, w'', rfl, hfind, ?_⟩
    rw [hrun]
    exact { hrange with }

/-- A virtual host that asks for more workers at least than at most. -/
def manyMinWorkers : List Directive :=
  [.path .h3CertificatePath "cert.pem", .path .h3CertificateKeyPath "key.pem",
    .number .h3MinWorkers "100" (.value 100), .number .h3MaxWorkers "2" (.value 2)]

/-- The host with the certificate is selected, and runs with the greater of the two numbers. -/
theorem running_conf_in_range_workers :
    ∃ w w' sel w'', Site.configure [80] [] [⟨[443], some manyMinWorkers⟩] = .ok w ∧
      h3PostConfig w true true = some w' ∧ findH3Server w' = some (sel, w'') ∧ w.selected = some sel ∧
      ((w.confOf sel).h3MinWorkers, (w.confOf sel).h3MaxWorkers) = (100, 2) ∧
      ((w''.confOf sel).h3MinWorkers, (w''.confOf sel).h3MaxWorkers) = (100, 100) ∧ (w''.confOf sel).InRange := by
  have hconf : ∃ w, Site.configure [80] [] [⟨[443], some manyMinWorkers⟩] = .ok w ∧ ∃ w' sel w'',
      h3PostConfig w true true = some w' ∧ findH3Server w' = some (sel, w'') ∧
      ((w.confOf sel).h3MinWorkers, (w.confOf sel).h3MaxWorkers) = (100, 2) ∧
      ((w''.confOf sel).h3MinWorkers, (w''.confOf sel).h3MaxWorkers) = (100, 100) :=
    ⟨_, rfl, _, _, _, rfl, rfl, rfl, rfl⟩
  obtain ⟨w, hconf, w', sel, w'', hpost, hfind, hasked, hgiven⟩ := hconf
  obtain ⟨sel', w₁, hsel, hfind', hrange⟩ := running_conf_in_range hconf hpost
  cases hfind.symm.trans hfind'
  exact ⟨w, w', sel, w'', hconf, hpost, hfind, hsel, hasked, hgiven, hrange⟩

end

end ModHttp3.Config

import Mathlib.Data.Int.Notation
import Mathlib.Data.Nat.Notation
import Mathlib.Logic.Function.Basic
import Mathlib.Tactic.SplitIfs

/-! The server configuration: `h3_server_conf`, the setters of the directives, merging, and the
defaults that `h3_post_config` fills in. -/
namespace ModHttp3.Config

/-- `h3_tri_flag`. -/
inductive TriFlag
  | unset
  | on
  | off
  deriving DecidableEq, Repr

/-- `h3_server_conf`; a path that is null is `none`. -/
structure ServerConf where
  hostPort : ℕ
  h3CertPath : Option String
  h3KeyPath : Option String
  h3Port : ℕ
  h3MaxConcurrentStreams : ℕ
  h3MaxConnections : ℕ
  h3StreamBufferSize : ℕ
  h3MaxRequestBodySize : ℕ
  h3MaxResponseBodySize : ℕ
  h3AltSvc : TriFlag
  h3AddressValidation : TriFlag
  h3AltSvcMaxAge : ℕ
  h3HandshakeTimeout : ℕ
  h3IdleTimeout : ℕ
  h3SocketBufferSize : ℕ
  h3SessionTickets : TriFlag
  h3StreamTimeout : ℕ
  h3MaxStreamErrors : ℕ
  h3QpackCapacitySet : Bool
  h3QpackBlockedSet : Bool
  h3QpackTableCapacity : ℕ
  h3QpackBlockedStreams : ℕ
  h3MinWorkers : ℕ
  h3MaxWorkers : ℕ
  h3MaxWorkerIdleSeconds : ℕ
  deriving DecidableEq, Repr

def h3MaxConcurrentStreamsDefault : ℕ := 100
def h3MaxConnectionsDefault : ℕ := 256
def h3MaxConnectionsMax : ℕ := 10000
def h3StreamBufferSizeDefault : ℕ := 64 * 1024
def h3StreamBufferSizeMax : ℕ := 1024 * 1024
def h3MaxRequestBodySizeDefault : ℕ := 10 * 1024 * 1024
def h3MaxRequestBodySizeMax : ℕ := 1024 * 1024 * 1024
/-- `(apr_size_t)-1`. -/
def h3MaxResponseBodySizeDefault : ℕ := 0xFFFFFFFFFFFFFFFF
def h3MaxResponseBodySizeMax : ℕ := 2 * 1024 * 1024 * 1024
def h3AltSvcMaxAgeDefault : ℕ := 86400
def h3AltSvcMaxAgeMax : ℕ := 7 * 24 * 3600
def h3SocketBufferSizeDefault : ℕ := 2 * 1024 * 1024
def h3SocketBufferSizeMax : ℕ := 64 * 1024 * 1024
def h3StreamTimeoutMax : ℕ := 86400
def h3MaxStreamErrorsDefault : ℕ := 8
def h3MaxStreamErrorsMax : ℕ := 10000
def h3QpackTableCapacityDefault : ℕ := 4096
def h3QpackTableCapacityMax : ℕ := 1024 * 1024
def h3QpackBlockedStreamsDefault : ℕ := 0
def h3QpackBlockedStreamsMax : ℕ := 1000
def h3MinWorkersDefault : ℕ := 16
def h3MaxWorkersDefault : ℕ := 64
def h3WorkersMax : ℕ := 4096
def h3MaxWorkerIdleSecondsDefault : ℕ := 600
def h3MaxWorkerIdleSecondsMax : ℕ := 86400
def h3HandshakeTimeoutDefault : ℕ := 10
def h3HandshakeTimeoutMax : ℕ := 600
def h3IdleTimeoutDefault : ℕ := 300
def h3IdleTimeoutMax : ℕ := 86400
def uint16Max : ℕ := 65535

/-- `h3_create_server_config`. -/
def h3CreateServerConfig : ServerConf where
  hostPort := 0
  h3CertPath := none
  h3KeyPath := none
  h3Port := 0
  h3MaxConcurrentStreams := 0
  h3MaxConnections := 0
  h3StreamBufferSize := 0
  h3MaxRequestBodySize := 0
  h3MaxResponseBodySize := 0
  h3AltSvc := .unset
  h3AddressValidation := .unset
  h3AltSvcMaxAge := 0
  h3HandshakeTimeout := 0
  h3IdleTimeout := 0
  h3SocketBufferSize := 0
  h3SessionTickets := .unset
  h3StreamTimeout := 0
  h3MaxStreamErrors := 0
  h3QpackCapacitySet := false
  h3QpackBlockedSet := false
  h3QpackTableCapacity := 0
  h3QpackBlockedStreams := 0
  h3MinWorkers := 0
  h3MaxWorkers := 0
  h3MaxWorkerIdleSeconds := 0

/-- `new ? new : base` for a number. -/
def orElse (new base : ℕ) : ℕ := if new ≠ 0 then new else base

def TriFlag.orElse (new base : TriFlag) : TriFlag := if new ≠ .unset then new else base

def h3MergeServerConfig (base new : ServerConf) : ServerConf where
  hostPort := 0
  h3CertPath := new.h3CertPath.or base.h3CertPath
  h3KeyPath := new.h3KeyPath.or base.h3KeyPath
  h3Port := orElse new.h3Port base.h3Port
  h3MaxConcurrentStreams := orElse new.h3MaxConcurrentStreams base.h3MaxConcurrentStreams
  h3MaxConnections := orElse new.h3MaxConnections base.h3MaxConnections
  h3StreamBufferSize := orElse new.h3StreamBufferSize base.h3StreamBufferSize
  h3MaxRequestBodySize := orElse new.h3MaxRequestBodySize base.h3MaxRequestBodySize
  h3MaxResponseBodySize := orElse new.h3MaxResponseBodySize base.h3MaxResponseBodySize
  h3AltSvc := new.h3AltSvc.orElse base.h3AltSvc
  h3AddressValidation := new.h3AddressValidation.orElse base.h3AddressValidation
  h3AltSvcMaxAge := orElse new.h3AltSvcMaxAge base.h3AltSvcMaxAge
  h3HandshakeTimeout := orElse new.h3HandshakeTimeout base.h3HandshakeTimeout
  h3IdleTimeout := orElse new.h3IdleTimeout base.h3IdleTimeout
  h3SocketBufferSize := orElse new.h3SocketBufferSize base.h3SocketBufferSize
  h3SessionTickets := new.h3SessionTickets.orElse base.h3SessionTickets
  h3StreamTimeout := orElse new.h3StreamTimeout base.h3StreamTimeout
  h3MaxStreamErrors := orElse new.h3MaxStreamErrors base.h3MaxStreamErrors
  h3QpackCapacitySet := if new.h3QpackCapacitySet then new.h3QpackCapacitySet else base.h3QpackCapacitySet
  h3QpackTableCapacity := if new.h3QpackCapacitySet then new.h3QpackTableCapacity else base.h3QpackTableCapacity
  h3QpackBlockedSet := if new.h3QpackBlockedSet then new.h3QpackBlockedSet else base.h3QpackBlockedSet
  h3QpackBlockedStreams := if new.h3QpackBlockedSet then new.h3QpackBlockedStreams else base.h3QpackBlockedStreams
  h3MinWorkers := orElse new.h3MinWorkers base.h3MinWorkers
  h3MaxWorkers := orElse new.h3MaxWorkers base.h3MaxWorkers
  h3MaxWorkerIdleSeconds := orElse new.h3MaxWorkerIdleSeconds base.h3MaxWorkerIdleSeconds

/-- What `apr_cstr_atoi64` or `apr_cstr_atoui64` makes of an argument. -/
inductive Parsed (α : Type)
  | value (n : α)
  | einval
  | erange
  deriving DecidableEq, Repr

/-- A setter changes the configuration or returns the text of its error. -/
abbrev Setter := ServerConf → Except String ServerConf

def notANumber (name arg : String) : String := name ++ ": '" ++ arg ++ "' is not a number"

def notRepresentable (name arg : String) : String := name ++ ": '" ++ arg ++ "' is out of representable range"

def notAllowed (name arg : String) (lo hi : ℕ) : String :=
  name ++ ": '" ++ arg ++ "' is out of allowed range (" ++ toString lo ++ "-" ++ toString hi ++ ")"

/-- The setters of numbers, with the bounds of the directive; an empty argument may also be null. -/
def setNumber (name : String) (lo hi : ℕ) (store : ℕ → ServerConf → ServerConf) (arg : String) (parsed : Parsed ℕ) :
    Setter := fun conf =>
  if arg = "" then .error (name ++ ": empty value")
  else match parsed with
    | .einval => .error (notANumber name arg)
    | .erange => .error (notRepresentable name arg)
    | .value val => if val < lo ∨ hi < val then .error (notAllowed name arg lo hi) else .ok (store val conf)

/-- `set_string`. -/
def setString (store : String → ServerConf → ServerConf) (arg : String) : Setter := fun conf => .ok (store arg conf)

def setFlag (store : TriFlag → ServerConf → ServerConf) (flag : Bool) : Setter := fun conf =>
  .ok (store (if flag then .on else .off) conf)

def setH3CertPath : String → Setter := setString fun v c => { c with h3CertPath := some v }

def setH3KeyPath : String → Setter := setString fun v c => { c with h3KeyPath := some v }

/-- The port is parsed as a signed number, and its empty argument has a text of its own. -/
def setH3Port (arg : String) (parsed : Parsed ℤ) : Setter := fun conf =>
  if arg = "" then .error "H3Port: empty port number"
  else match parsed with
    | .einval => .error (notANumber "H3Port" arg)
    | .erange => .error (notRepresentable "H3Port" arg)
    | .value port =>
      if port < 1 ∨ 65535 < port then .error (notAllowed "H3Port" arg 1 65535)
      else .ok { conf with h3Port := port.toNat }

/-- The commands of `h3_cmds` that take a number. -/
inductive NumberCmd
  | h3MaxConcurrentStreams
  | h3MaxConnections
  | h3StreamBufferSize
  | h3MaxRequestBodySize
  | h3AltSvcMaxAge
  | h3HandshakeTimeout
  | h3IdleTimeout
  | h3MaxResponseBodySize
  | h3SocketBufferSize
  | h3StreamTimeout
  | h3MaxStreamErrors
  | h3QpackTableCapacity
  | h3QpackBlockedStreams
  | h3MinWorkers
  | h3MaxWorkers
  | h3MaxWorkerIdleSeconds
  deriving DecidableEq, Repr

/-- What an accepted number is written to. -/
def NumberCmd.store (cmd : NumberCmd) (val : ℕ) (c : ServerConf) : ServerConf :=
  match cmd with
  | .h3MaxConcurrentStreams => { c with h3MaxConcurrentStreams := val }
  | .h3MaxConnections => { c with h3MaxConnections := val }
  | .h3StreamBufferSize => { c with h3StreamBufferSize := val }
  | .h3MaxRequestBodySize => { c with h3MaxRequestBodySize := val }
  | .h3AltSvcMaxAge => { c with h3AltSvcMaxAge := val }
  | .h3HandshakeTimeout => { c with h3HandshakeTimeout := val }
  | .h3IdleTimeout => { c with h3IdleTimeout := val }
  | .h3MaxResponseBodySize => { c with h3MaxResponseBodySize := val }
  | .h3SocketBufferSize => { c with h3SocketBufferSize := val }
  | .h3StreamTimeout => { c with h3StreamTimeout := val }
  | .h3MaxStreamErrors => { c with h3MaxStreamErrors := val }
  | .h3QpackTableCapacity => { c with h3QpackTableCapacity := val, h3QpackCapacitySet := true }
  | .h3QpackBlockedStreams => { c with h3QpackBlockedStreams := val, h3QpackBlockedSet := true }
  | .h3MinWorkers => { c with h3MinWorkers := val }
  | .h3MaxWorkers => { c with h3MaxWorkers := val }
  | .h3MaxWorkerIdleSeconds => { c with h3MaxWorkerIdleSeconds := val }

def setH3MaxConcurrentStreams : String → Parsed ℕ → Setter :=
  setNumber "H3MaxConcurrentStreams" 1 uint16Max NumberCmd.h3MaxConcurrentStreams.store

def setH3MaxConnections : String → Parsed ℕ → Setter :=
  setNumber "H3MaxConnections" 1 h3MaxConnectionsMax NumberCmd.h3MaxConnections.store

def setH3StreamBufferSize : String → Parsed ℕ → Setter :=
  setNumber "H3StreamBufferSize" 1 h3StreamBufferSizeMax NumberCmd.h3StreamBufferSize.store

def setH3SocketBufferSize : String → Parsed ℕ → Setter :=
  setNumber "H3SocketBufferSize" 1 h3SocketBufferSizeMax NumberCmd.h3SocketBufferSize.store

def setH3StreamTimeout : String → Parsed ℕ → Setter :=
  setNumber "H3StreamTimeout" 1 h3StreamTimeoutMax NumberCmd.h3StreamTimeout.store

def setH3MaxStreamErrors : String → Parsed ℕ → Setter :=
  setNumber "H3MaxStreamErrors" 1 h3MaxStreamErrorsMax NumberCmd.h3MaxStreamErrors.store

def setH3QpackTableCapacity : String → Parsed ℕ → Setter :=
  setNumber "H3QpackTableCapacity" 0 h3QpackTableCapacityMax NumberCmd.h3QpackTableCapacity.store

def setH3QpackBlockedStreams : String → Parsed ℕ → Setter :=
  setNumber "H3QpackBlockedStreams" 0 h3QpackBlockedStreamsMax NumberCmd.h3QpackBlockedStreams.store

def setH3MinWorkers : String → Parsed ℕ → Setter :=
  setNumber "H3MinWorkers" 1 h3WorkersMax NumberCmd.h3MinWorkers.store

def setH3MaxWorkers : String → Parsed ℕ → Setter :=
  setNumber "H3MaxWorkers" 1 h3WorkersMax NumberCmd.h3MaxWorkers.store

def setH3MaxWorkerIdleSeconds : String → Parsed ℕ → Setter :=
  setNumber "H3MaxWorkerIdleSeconds" 1 h3MaxWorkerIdleSecondsMax NumberCmd.h3MaxWorkerIdleSeconds.store

def setH3MaxRequestBodySize : String → Parsed ℕ → Setter :=
  setNumber "H3MaxRequestBodySize" 1 h3MaxRequestBodySizeMax NumberCmd.h3MaxRequestBodySize.store

def setH3MaxResponseBodySize : String → Parsed ℕ → Setter :=
  setNumber "H3MaxResponseBodySize" 1 h3MaxResponseBodySizeMax NumberCmd.h3MaxResponseBodySize.store

def setH3HandshakeTimeout : String → Parsed ℕ → Setter :=
  setNumber "H3HandshakeTimeout" 1 h3HandshakeTimeoutMax NumberCmd.h3HandshakeTimeout.store

def setH3IdleTimeout : String → Parsed ℕ → Setter :=
  setNumber "H3IdleTimeout" 1 h3IdleTimeoutMax NumberCmd.h3IdleTimeout.store

def setH3AltSvcMaxAge : String → Parsed ℕ → Setter :=
  setNumber "H3AltSvcMaxAge" 1 h3AltSvcMaxAgeMax NumberCmd.h3AltSvcMaxAge.store

def setH3SessionTickets : Bool → Setter := setFlag fun v c => { c with h3SessionTickets := v }

def setH3AltSvc : Bool → Setter := setFlag fun v c => { c with h3AltSvc := v }

def setH3AddressValidation : Bool → Setter := setFlag fun v c => { c with h3AddressValidation := v }

/-- The other commands of `h3_cmds`. -/
inductive PathCmd
  | h3CertificatePath
  | h3CertificateKeyPath
  deriving DecidableEq, Repr

inductive FlagCmd
  | h3AltSvc
  | h3AddressValidation
  | h3SessionTickets
  deriving DecidableEq, Repr

/-- A line of the configuration, with what the number in it parses to. -/
inductive Directive
  | path (cmd : PathCmd) (arg : String)
  | port (arg : String) (parsed : Parsed ℤ)
  | number (cmd : NumberCmd) (arg : String) (parsed : Parsed ℕ)
  | flag (cmd : FlagCmd) (value : Bool)
  deriving DecidableEq, Repr

def PathCmd.setter : PathCmd → String → Setter
  | .h3CertificatePath => setH3CertPath
  | .h3CertificateKeyPath => setH3KeyPath

def FlagCmd.setter : FlagCmd → Bool → Setter
  | .h3AltSvc => setH3AltSvc
  | .h3AddressValidation => setH3AddressValidation
  | .h3SessionTickets => setH3SessionTickets

def NumberCmd.setter : NumberCmd → String → Parsed ℕ → Setter
  | .h3MaxConcurrentStreams => setH3MaxConcurrentStreams
  | .h3MaxConnections => setH3MaxConnections
  | .h3StreamBufferSize => setH3StreamBufferSize
  | .h3MaxRequestBodySize => setH3MaxRequestBodySize
  | .h3AltSvcMaxAge => setH3AltSvcMaxAge
  | .h3HandshakeTimeout => setH3HandshakeTimeout
  | .h3IdleTimeout => setH3IdleTimeout
  | .h3MaxResponseBodySize => setH3MaxResponseBodySize
  | .h3SocketBufferSize => setH3SocketBufferSize
  | .h3StreamTimeout => setH3StreamTimeout
  | .h3MaxStreamErrors => setH3MaxStreamErrors
  | .h3QpackTableCapacity => setH3QpackTableCapacity
  | .h3QpackBlockedStreams => setH3QpackBlockedStreams
  | .h3MinWorkers => setH3MinWorkers
  | .h3MaxWorkers => setH3MaxWorkers
  | .h3MaxWorkerIdleSeconds => setH3MaxWorkerIdleSeconds

/-- The directives for which zero is a value. -/
def NumberCmd.admitsZero : NumberCmd → Bool
  | .h3QpackTableCapacity | .h3QpackBlockedStreams => true
  | _ => false

def Directive.setter : Directive → Setter
  | .path cmd arg => cmd.setter arg
  | .port arg parsed => setH3Port arg parsed
  | .number cmd arg parsed => cmd.setter arg parsed
  | .flag cmd value => cmd.setter value

/-- Run the setters of a server's lines; the first error stops the start of the server. -/
def runDirectives : List Directive → Setter
  | [], conf => .ok conf
  | d :: ds, conf => match d.setter conf with
    | .ok conf' => runDirectives ds conf'
    | .error e => .error e

/-- A `server_rec`: the ports of its addresses and which record is its `h3_server_conf`. -/
structure Server where
  addrs : List ℕ
  record : ℕ
  deriving DecidableEq, Repr

/-- `get_server_port`. -/
def getServerPort (s : Server) : ℕ := (s.addrs.find? (· ≠ 0)).getD 0

/-- The list of servers, the main one first, and their records. -/
structure Site where
  servers : List Server
  records : ℕ → ServerConf

def Site.confOf (w : Site) (s : Server) : ServerConf := w.records s.record

/-- A virtual host; `none` when no line of it is a directive of this module. -/
structure Vhost where
  addrs : List ℕ
  directives : Option (List Directive)
  deriving DecidableEq, Repr

/-- httpd runs the lines of each server on a record of its own and merges it with the main one's. A
virtual host without a record is given the main server's. -/
def Site.merged (addrs : List ℕ) (main : ServerConf) (vhosts : List (List ℕ × Option ServerConf)) : Site where
  servers := ⟨addrs, 0⟩ :: vhosts.zipIdx.map fun v => ⟨v.1.1, if v.1.2.isSome then v.2 + 1 else 0⟩
  records
    | 0 => main
    | i + 1 => match vhosts[i]? with
      | some (_, some own) => h3MergeServerConfig main own
      | _ => main

/-- The configuration that a vhost's own lines make. -/
def Vhost.own (v : Vhost) : Except String (List ℕ × Option ServerConf) :=
  match v.directives with
  | none => .ok (v.addrs, none)
  | some ds => match runDirectives ds h3CreateServerConfig with
    | .ok conf => .ok (v.addrs, some conf)
    | .error e => .error e

def Site.configure (addrs : List ℕ) (ds : List Directive) (vhosts : List Vhost) : Except String Site := do
  let main ← runDirectives ds h3CreateServerConfig
  let own ← vhosts.mapM Vhost.own
  return Site.merged addrs main own

/-- The test for a server with HTTP/3. -/
def ServerConf.configured (c : ServerConf) : Bool := c.h3CertPath.isSome && c.h3KeyPath.isSome

/-- The defaults that `h3_post_config` gives the selected server. -/
def ServerConf.defaulted (c : ServerConf) (hostPort : ℕ) : ServerConf :=
  let minWorkers := orElse c.h3MinWorkers h3MinWorkersDefault
  let maxWorkers := orElse c.h3MaxWorkers h3MaxWorkersDefault
  { c with
    hostPort := hostPort
    h3Port := orElse c.h3Port hostPort
    h3MaxConcurrentStreams := orElse c.h3MaxConcurrentStreams h3MaxConcurrentStreamsDefault
    h3MaxConnections := orElse c.h3MaxConnections h3MaxConnectionsDefault
    h3StreamBufferSize := orElse c.h3StreamBufferSize h3StreamBufferSizeDefault
    h3SocketBufferSize := orElse c.h3SocketBufferSize h3SocketBufferSizeDefault
    h3MaxStreamErrors := orElse c.h3MaxStreamErrors h3MaxStreamErrorsDefault
    h3QpackTableCapacity := if c.h3QpackCapacitySet then c.h3QpackTableCapacity else h3QpackTableCapacityDefault
    h3QpackBlockedStreams := if c.h3QpackBlockedSet then c.h3QpackBlockedStreams else h3QpackBlockedStreamsDefault
    h3MinWorkers := minWorkers
    h3MaxWorkers := if maxWorkers < minWorkers then minWorkers else maxWorkers
    h3MaxWorkerIdleSeconds := orElse c.h3MaxWorkerIdleSeconds h3MaxWorkerIdleSecondsDefault
    h3MaxRequestBodySize := orElse c.h3MaxRequestBodySize h3MaxRequestBodySizeDefault
    h3MaxResponseBodySize := orElse c.h3MaxResponseBodySize h3MaxResponseBodySizeDefault
    h3AltSvc := c.h3AltSvc.orElse .on
    h3AddressValidation := c.h3AddressValidation.orElse .on
    h3SessionTickets := c.h3SessionTickets.orElse .on
    h3AltSvcMaxAge := orElse c.h3AltSvcMaxAge h3AltSvcMaxAgeDefault
    h3HandshakeTimeout := orElse c.h3HandshakeTimeout h3HandshakeTimeoutDefault
    h3IdleTimeout := orElse c.h3IdleTimeout h3IdleTimeoutDefault }

/-- The first server with a certificate and a key. -/
def Site.selected (w : Site) : Option Server := w.servers.find? fun s => (w.confOf s).configured

/-- Change the record of a server, and with it of every server that shares it. -/
def Site.update (w : Site) (s : Server) (f : ServerConf → ServerConf) : Site :=
  { w with records := Function.update w.records s.record (f (w.confOf s)) }

/-- `h3_post_config`, from the configured phase on; `none` is an internal server error. The last two
arguments tell whether the certificate and the key can be opened. -/
def h3PostConfig (w : Site) (certReadable keyReadable : Bool) : Option Site :=
  match w.selected with
  | none => none
  | some s =>
    if certReadable && keyReadable then some (w.update s (·.defaulted (getServerPort s))) else none

/-- `find_h3_server`. -/
def findH3Server (w : Site) : Option (Server × Site) :=
  w.selected.map fun s => (s, w.update s fun c => { c with hostPort := getServerPort s })

/-- The port that `h3_child_init` passes to `h3_socket_open`. -/
def listenerPort (w : Site) : Option ℕ := (findH3Server w).map fun p => (p.2.confOf p.1).h3Port

/-- No number is above the maximum of its directive. -/
structure ServerConf.WithinLimits (c : ServerConf) : Prop where
  port : c.h3Port ≤ 65535
  streams : c.h3MaxConcurrentStreams ≤ uint16Max
  connections : c.h3MaxConnections ≤ h3MaxConnectionsMax
  streamBuffer : c.h3StreamBufferSize ≤ h3StreamBufferSizeMax
  requestBody : c.h3MaxRequestBodySize ≤ h3MaxRequestBodySizeMax
  responseBody : c.h3MaxResponseBodySize ≤ h3MaxResponseBodySizeMax
  altSvcMaxAge : c.h3AltSvcMaxAge ≤ h3AltSvcMaxAgeMax
  handshake : c.h3HandshakeTimeout ≤ h3HandshakeTimeoutMax
  idle : c.h3IdleTimeout ≤ h3IdleTimeoutMax
  socketBuffer : c.h3SocketBufferSize ≤ h3SocketBufferSizeMax
  streamTimeout : c.h3StreamTimeout ≤ h3StreamTimeoutMax
  streamErrors : c.h3MaxStreamErrors ≤ h3MaxStreamErrorsMax
  qpackCapacity : c.h3QpackTableCapacity ≤ h3QpackTableCapacityMax
  qpackBlocked : c.h3QpackBlockedStreams ≤ h3QpackBlockedStreamsMax
  minWorkers : c.h3MinWorkers ≤ h3WorkersMax
  maxWorkers : c.h3MaxWorkers ≤ h3WorkersMax
  workerIdle : c.h3MaxWorkerIdleSeconds ≤ h3MaxWorkerIdleSecondsMax

section
variable {conf conf' : ServerConf}

theorem withinLimits_fresh : h3CreateServerConfig.WithinLimits := by
  constructor <;> exact Nat.zero_le _

/-- An accepted number is in range, and is accepted on every record. -/
theorem setNumber_ok {name arg : String} {lo hi : ℕ} {store : ℕ → ServerConf → ServerConf} {parsed : Parsed ℕ}
    (h : setNumber name lo hi store arg parsed conf = .ok conf') :
    ∃ val, parsed = .value val ∧ lo ≤ val ∧ val ≤ hi ∧ conf' = store val conf ∧
      ∀ other, setNumber name lo hi store arg parsed other = .ok (store val other) := by
  unfold setNumber at h
  split_ifs at h with harg
  cases parsed with
  | einval => cases h
  | erange => cases h
  | value val =>
    dsimp only at h
    split_ifs at h with hrange
    have hbounds := not_or.mp hrange
    cases h
    refine ⟨val, rfl, by omega, by omega, rfl, fun other => ?_⟩
    unfold setNumber
    rw [if_neg harg]
    exact if_neg hrange

theorem setH3Port_ok {arg : String} {parsed : Parsed ℤ} (h : setH3Port arg parsed conf = .ok conf') :
    ∃ val, parsed = .value val ∧ 1 ≤ val.toNat ∧ val.toNat ≤ 65535 ∧ conf' = { conf with h3Port := val.toNat } ∧
      ∀ other, setH3Port arg parsed other = .ok { other with h3Port := val.toNat } := by
  unfold setH3Port at h
  split_ifs at h with harg
  cases parsed with
  | einval => cases h
  | erange => cases h
  | value val =>
    dsimp only at h
    split_ifs at h with hrange
    have hbounds := not_or.mp hrange
    cases h
    refine ⟨val, rfl, by omega, by omega, rfl, fun other => ?_⟩
    unfold setH3Port
    rw [if_neg harg]
    exact if_neg hrange

/-- The setters of numbers differ in a name, two bounds and the field. -/
theorem NumberCmd.setter_eq (cmd : NumberCmd) :
    ∃ name lo hi, cmd.setter = setNumber name lo hi cmd.store ∧ (cmd.admitsZero ∨ 1 ≤ lo) ∧
      ∀ val ≤ hi, ∀ c : ServerConf, c.WithinLimits → (cmd.store val c).WithinLimits := by
  cases cmd with
  | h3MaxConcurrentStreams => exact ⟨_, _, _, rfl, .inr (Nat.le_refl 1), fun _ hv _ hc => { hc with streams := hv }⟩
  | h3MaxConnections => exact ⟨_, _, _, rfl, .inr (Nat.le_refl 1), fun _ hv _ hc => { hc with connections := hv }⟩
  | h3StreamBufferSize => exact ⟨_, _, _, rfl, .inr (Nat.le_refl 1), fun _ hv _ hc => { hc with streamBuffer := hv }⟩
  | h3MaxRequestBodySize => exact ⟨_, _, _, rfl, .inr (Nat.le_refl 1), fun _ hv _ hc => { hc with requestBody := hv }⟩
  | h3AltSvcMaxAge => exact ⟨_, _, _, rfl, .inr (Nat.le_refl 1), fun _ hv _ hc => { hc with altSvcMaxAge := hv }⟩
  | h3HandshakeTimeout => exact ⟨_, _, _, rfl, .inr (Nat.le_refl 1), fun _ hv _ hc => { hc with handshake := hv }⟩
  | h3IdleTimeout => exact ⟨_, _, _, rfl, .inr (Nat.le_refl 1), fun _ hv _ hc => { hc with idle := hv }⟩
  | h3MaxResponseBodySize => exact ⟨_, _, _, rfl, .inr (Nat.le_refl 1), fun _ hv _ hc => { hc with responseBody := hv }⟩
  | h3SocketBufferSize => exact ⟨_, _, _, rfl, .inr (Nat.le_refl 1), fun _ hv _ hc => { hc with socketBuffer := hv }⟩
  | h3StreamTimeout => exact ⟨_, _, _, rfl, .inr (Nat.le_refl 1), fun _ hv _ hc => { hc with streamTimeout := hv }⟩
  | h3MaxStreamErrors => exact ⟨_, _, _, rfl, .inr (Nat.le_refl 1), fun _ hv _ hc => { hc with streamErrors := hv }⟩
  | h3QpackTableCapacity => exact ⟨_, _, _, rfl, .inl rfl, fun _ hv _ hc => { hc with qpackCapacity := hv }⟩
  | h3QpackBlockedStreams => exact ⟨_, _, _, rfl, .inl rfl, fun _ hv _ hc => { hc with qpackBlocked := hv }⟩
  | h3MinWorkers => exact ⟨_, _, _, rfl, .inr (Nat.le_refl 1), fun _ hv _ hc => { hc with minWorkers := hv }⟩
  | h3MaxWorkers => exact ⟨_, _, _, rfl, .inr (Nat.le_refl 1), fun _ hv _ hc => { hc with maxWorkers := hv }⟩
  | h3MaxWorkerIdleSeconds => exact ⟨_, _, _, rfl, .inr (Nat.le_refl 1), fun _ hv _ hc => { hc with workerIdle := hv }⟩

theorem Directive.withinLimits {d : Directive} (hc : conf.WithinLimits) (h : d.setter conf = .ok conf') :
    conf'.WithinLimits := by
  cases d with
  | path cmd arg => cases cmd <;> cases h <;> exact { hc with }
  | port arg parsed =>
    obtain ⟨val, -, -, hhi, rfl, -⟩ := setH3Port_ok h
    exact { hc with port := hhi }
  | number cmd arg parsed =>
    obtain ⟨name, lo, hi, heq, -, hkeeps⟩ := cmd.setter_eq
    have hset : setNumber name lo hi cmd.store arg parsed conf = .ok conf' := heq ▸ h
    obtain ⟨val, -, -, hhi, rfl, -⟩ := setNumber_ok hset
    exact hkeeps val hhi conf hc
  | flag cmd value => cases cmd <;> cases h <;> exact { hc with }

theorem runDirectives_withinLimits (ds : List Directive) (hc : conf.WithinLimits)
    (h : runDirectives ds conf = .ok conf') : conf'.WithinLimits := by
  induction ds generalizing conf with
  | nil =>
    cases h
    exact hc
  | cons d ds ih =>
    unfold runDirectives at h
    split at h
    · rename_i next hd
      exact ih (Directive.withinLimits hc hd) h
    · cases h

theorem orElse_le {new base hi : ℕ} (hnew : new ≤ hi) (hbase : base ≤ hi) : orElse new base ≤ hi := by
  unfold orElse
  split_ifs <;> assumption

theorem ServerConf.WithinLimits.merge {base new : ServerConf} (hb : base.WithinLimits) (hn : new.WithinLimits) :
    (h3MergeServerConfig base new).WithinLimits where
  port := orElse_le hn.port hb.port
  streams := orElse_le hn.streams hb.streams
  connections := orElse_le hn.connections hb.connections
  streamBuffer := orElse_le hn.streamBuffer hb.streamBuffer
  requestBody := orElse_le hn.requestBody hb.requestBody
  responseBody := orElse_le hn.responseBody hb.responseBody
  altSvcMaxAge := orElse_le hn.altSvcMaxAge hb.altSvcMaxAge
  handshake := orElse_le hn.handshake hb.handshake
  idle := orElse_le hn.idle hb.idle
  socketBuffer := orElse_le hn.socketBuffer hb.socketBuffer
  streamTimeout := orElse_le hn.streamTimeout hb.streamTimeout
  streamErrors := orElse_le hn.streamErrors hb.streamErrors
  qpackCapacity := by
    unfold h3MergeServerConfig
    dsimp only
    split_ifs
    · exact hn.qpackCapacity
    · exact hb.qpackCapacity
  qpackBlocked := by
    unfold h3MergeServerConfig
    dsimp only
    split_ifs
    · exact hn.qpackBlocked
    · exact hb.qpackBlocked
  minWorkers := orElse_le hn.minWorkers hb.minWorkers
  maxWorkers := orElse_le hn.maxWorkers hb.maxWorkers
  workerIdle := orElse_le hn.workerIdle hb.workerIdle

theorem Vhost.own_withinLimits {v : Vhost} {addrs : List ℕ} (h : v.own = .ok (addrs, some conf)) :
    conf.WithinLimits := by
  unfold Vhost.own at h
  split at h
  · cases h
  · split at h
    · rename_i hrun
      cases h
      exact runDirectives_withinLimits _ withinLimits_fresh hrun
    · cases h

private theorem mapM_own_withinLimits {vhosts : List Vhost} {own : List (List ℕ × Option ServerConf)}
    (h : vhosts.mapM Vhost.own = .ok own) : ∀ addrs conf, (addrs, some conf) ∈ own → conf.WithinLimits := by
  induction vhosts generalizing own with
  | nil =>
    cases h
    intro addrs conf hmem
    cases hmem
  | cons v vhosts ih =>
    rw [List.mapM_cons] at h
    cases hv : v.own with
    | error e =>
      rw [hv] at h
      cases h
    | ok p =>
      cases hrest : vhosts.mapM Vhost.own with
      | error e =>
        rw [hv, hrest] at h
        cases h
      | ok rest =>
        rw [hv, hrest] at h
        cases h
        intro addrs conf hmem
        rcases List.mem_cons.mp hmem with rfl | hmem
        · exact Vhost.own_withinLimits hv
        · exact ih hrest addrs conf hmem

/-- Every record of a site whose lines were accepted is within the limits. -/
theorem configure_withinLimits {addrs : List ℕ} {ds : List Directive} {vhosts : List Vhost} {w : Site}
    (h : Site.configure addrs ds vhosts = .ok w) (i : ℕ) : (w.records i).WithinLimits := by
  unfold Site.configure at h
  cases hmain : runDirectives ds h3CreateServerConfig with
  | error e =>
    rw [hmain] at h
    cases h
  | ok main =>
    cases hown : vhosts.mapM Vhost.own with
    | error e =>
      rw [hmain, hown] at h
      cases h
    | ok own =>
      rw [hmain, hown] at h
      cases h
      have hlimits := runDirectives_withinLimits ds withinLimits_fresh hmain
      cases i with
      | zero => exact hlimits
      | succ i =>
        unfold Site.merged
        dsimp only
        split
        · rename_i hi
          exact hlimits.merge (mapM_own_withinLimits hown _ _ (List.mem_of_getElem? hi))
        · exact hlimits

end

end ModHttp3.Config

import ModHttp3.Config.Server

/-! Merging two configurations is replaying the lines of the outer server and then those of the
virtual host. A configuration is read as a partial map of settings, in which the three ways of
writing "unset" (zero or null, the third value of a flag, a separate bit) are all `none`. -/
namespace ModHttp3.Config

/-- What a directive names. -/
inductive Key
  | path (cmd : PathCmd)
  | port
  | number (cmd : NumberCmd)
  | flag (cmd : FlagCmd)
  deriving DecidableEq, Repr

inductive Setting
  | text (v : String)
  | number (v : ℕ)
  | flag (v : Bool)
  deriving DecidableEq, Repr

/-- A number whose zero means unset. -/
def nonzeroSetting (n : ℕ) : Option Setting := if n ≠ 0 then some (.number n) else none

def TriFlag.setting : TriFlag → Option Setting
  | .unset => none
  | .on => some (.flag true)
  | .off => some (.flag false)

/-- The setting of a configuration for a directive; the QPACK values have a bit of their own. -/
def ServerConf.setting (c : ServerConf) : Key → Option Setting
  | .path .h3CertificatePath => c.h3CertPath.map .text
  | .path .h3CertificateKeyPath => c.h3KeyPath.map .text
  | .port => nonzeroSetting c.h3Port
  | .number .h3MaxConcurrentStreams => nonzeroSetting c.h3MaxConcurrentStreams
  | .number .h3MaxConnections => nonzeroSetting c.h3MaxConnections
  | .number .h3StreamBufferSize => nonzeroSetting c.h3StreamBufferSize
  | .number .h3MaxRequestBodySize => nonzeroSetting c.h3MaxRequestBodySize
  | .number .h3AltSvcMaxAge => nonzeroSetting c.h3AltSvcMaxAge
  | .number .h3HandshakeTimeout => nonzeroSetting c.h3HandshakeTimeout
  | .number .h3IdleTimeout => nonzeroSetting c.h3IdleTimeout
  | .number .h3MaxResponseBodySize => nonzeroSetting c.h3MaxResponseBodySize
  | .number .h3SocketBufferSize => nonzeroSetting c.h3SocketBufferSize
  | .number .h3StreamTimeout => nonzeroSetting c.h3StreamTimeout
  | .number .h3MaxStreamErrors => nonzeroSetting c.h3MaxStreamErrors
  | .number .h3QpackTableCapacity => if c.h3QpackCapacitySet then some (.number c.h3QpackTableCapacity) else none
  | .number .h3QpackBlockedStreams => if c.h3QpackBlockedSet then some (.number c.h3QpackBlockedStreams) else none
  | .number .h3MinWorkers => nonzeroSetting c.h3MinWorkers
  | .number .h3MaxWorkers => nonzeroSetting c.h3MaxWorkers
  | .number .h3MaxWorkerIdleSeconds => nonzeroSetting c.h3MaxWorkerIdleSeconds
  | .flag .h3AltSvc => c.h3AltSvc.setting
  | .flag .h3AddressValidation => c.h3AddressValidation.setting
  | .flag .h3SessionTickets => c.h3SessionTickets.setting

/-- What a line sets, by its own text. -/
def Directive.sets (d : Directive) (k : Key) : Option Setting :=
  match d with
  | .path cmd arg => if k = .path cmd then some (.text arg) else none
  | .port _ (.value val) => if k = .port then some (.number val.toNat) else none
  | .number cmd _ (.value val) => if k = .number cmd then some (.number val) else none
  | .flag cmd value => if k = .flag cmd then some (.flag value) else none
  | _ => none

/-- The last line that names a directive decides it. -/
def lastSetting (ds : List Directive) (k : Key) : Option Setting := (ds.filterMap (·.sets k)).getLast?

/-- A QPACK value that is not marked as set is zero: the records that directives can make. -/
structure ServerConf.Clean (c : ServerConf) : Prop where
  host : c.hostPort = 0
  capacity : c.h3QpackCapacitySet = false → c.h3QpackTableCapacity = 0
  blocked : c.h3QpackBlockedSet = false → c.h3QpackBlockedStreams = 0

section laws
variable {m n : ℕ}

@[simp]
theorem orElse_zero (n : ℕ) : orElse 0 n = n := if_neg (fun h => h rfl)

@[simp]
theorem orElse_zero_right (n : ℕ) : orElse n 0 = n := by
  unfold orElse
  split_ifs with h
  · rfl
  · omega

theorem orElse_of_pos (base : ℕ) (h : 1 ≤ n) : orElse n base = n := if_pos (by omega)

theorem orElse_assoc (k m n : ℕ) : orElse n (orElse m k) = orElse (orElse n m) k := by
  unfold orElse
  split_ifs <;> omega

@[simp]
theorem TriFlag.orElse_unset (f : TriFlag) : TriFlag.unset.orElse f = f := by
  cases f <;> rfl

@[simp]
theorem TriFlag.orElse_unset_right (f : TriFlag) : f.orElse .unset = f := by
  cases f <;> rfl

theorem TriFlag.orElse_assoc (f g h : TriFlag) : h.orElse (g.orElse f) = (h.orElse g).orElse f := by
  cases h <;> rfl

@[simp]
theorem TriFlag.orElse_flag (value : Bool) (f : TriFlag) :
    (if value then TriFlag.on else .off).orElse f = if value then .on else .off := by
  cases value <;> rfl

/-- A value that goes with a mark is chosen with it. -/
theorem marked_assoc {α : Type} (x y : Bool) (p q r : α) :
    (if (if x then x else y) then if x then p else q else r) = if x then p else if y then q else r := by
  cases x <;> cases y <;> rfl

theorem nonzeroSetting_orElse : nonzeroSetting (orElse n m) = (nonzeroSetting n).or (nonzeroSetting m) := by
  unfold nonzeroSetting orElse
  split_ifs <;> rfl

theorem TriFlag.setting_orElse (f g : TriFlag) : (f.orElse g).setting = f.setting.or g.setting := by
  cases f <;> rfl

end laws

section merging
variable {base conf conf' : ServerConf}

private theorem merge_assoc (a b c : ServerConf) :
    h3MergeServerConfig (h3MergeServerConfig a b) c = h3MergeServerConfig a (h3MergeServerConfig b c) := by
  simp only [h3MergeServerConfig, orElse_assoc, TriFlag.orElse_assoc, Option.or_assoc, ServerConf.mk.injEq, and_true,
    true_and]
  -- what is left are the two QPACK values and their marks
  exact ⟨(marked_assoc ..).symm, (marked_assoc ..).symm, (marked_assoc ..).symm, (marked_assoc ..).symm⟩

theorem merge_fresh_right (h : conf.Clean) : h3MergeServerConfig conf h3CreateServerConfig = conf := by
  obtain ⟨hhost, -, -⟩ := h
  cases conf
  simp_all [h3MergeServerConfig, h3CreateServerConfig]

private theorem merge_fresh_left (h : conf.Clean) : h3MergeServerConfig h3CreateServerConfig conf = conf := by
  obtain ⟨hhost, hcapacity, hblocked⟩ := h
  cases conf
  simp_all [h3MergeServerConfig, h3CreateServerConfig]

theorem NumberCmd.setter_any {cmd : NumberCmd} {arg : String} {parsed : Parsed ℕ}
    (h : cmd.setter arg parsed conf = .ok conf') :
    ∃ val, parsed = .value val ∧ (cmd.admitsZero ∨ 1 ≤ val) ∧ conf' = cmd.store val conf ∧
      ∀ other, cmd.setter arg parsed other = .ok (cmd.store val other) := by
  obtain ⟨name, lo, hi, heq, hzero, -⟩ := cmd.setter_eq
  rw [heq] at h ⊢
  obtain ⟨val, rfl, hlo, -, rfl, hany⟩ := setNumber_ok h
  exact ⟨val, rfl, hzero.imp_right fun h1 => Nat.le_trans h1 hlo, rfl, hany⟩

private theorem merge_store {cmd : NumberCmd} {val : ℕ} (base conf : ServerConf) (h : cmd.admitsZero ∨ 1 ≤ val) :
    h3MergeServerConfig base (cmd.store val conf) = cmd.store val (h3MergeServerConfig base conf) := by
  cases cmd
  case h3QpackTableCapacity => rfl
  case h3QpackBlockedStreams => rfl
  all_goals
    have hpos : 1 ≤ val := h.resolve_left Bool.false_ne_true
    simp only [NumberCmd.store, h3MergeServerConfig, orElse_of_pos _ hpos]
    rfl

/-- A setter does to a merged record what it does to the host's own. -/
theorem Directive.setter_merge {d : Directive} (h : d.setter conf = .ok conf') :
    d.setter (h3MergeServerConfig base conf) = .ok (h3MergeServerConfig base conf') := by
  cases d with
  | path cmd arg => cases cmd <;> cases h <;> rfl
  | port arg parsed =>
    obtain ⟨val, -, hlo, -, rfl, hany⟩ := setH3Port_ok h
    refine (hany _).trans ?_
    simp only [h3MergeServerConfig, orElse_of_pos _ hlo]
  | number cmd arg parsed =>
    obtain ⟨val, -, hval, rfl, hany⟩ := NumberCmd.setter_any h
    refine (hany _).trans ?_
    rw [merge_store base conf hval]
  | flag cmd value => cases cmd <;> cases h <;> cases value <;> rfl

private theorem runDirectives_merge (base : ServerConf) (ds : List Directive) (h : runDirectives ds conf = .ok conf') :
    runDirectives ds (h3MergeServerConfig base conf) = .ok (h3MergeServerConfig base conf') := by
  induction ds generalizing conf with
  | nil =>
    cases h
    rfl
  | cons d ds ih =>
    unfold runDirectives at h ⊢
    split at h
    · rename_i next hd
      rw [Directive.setter_merge hd]
      exact ih h
    · cases h

private theorem runDirectives_append {ds : List Directive} (es : List Directive) (h : runDirectives ds conf = .ok conf') :
    runDirectives (ds ++ es) conf = runDirectives es conf' := by
  induction ds generalizing conf with
  | nil =>
    cases h
    rfl
  | cons d ds ih =>
    unfold runDirectives at h
    rw [List.cons_append, runDirectives]
    split at h
    · exact ih h
    · cases h

end merging

section settings
variable {conf conf' : ServerConf}

/-- The merge of two records, read as settings, prefers the host's. -/
theorem setting_merge (base conf : ServerConf) (k : Key) :
    (h3MergeServerConfig base conf).setting k = (conf.setting k).or (base.setting k) := by
  cases k with
  | path cmd => cases cmd <;> simp only [ServerConf.setting, h3MergeServerConfig, Option.map_or]
  | port => exact nonzeroSetting_orElse
  | flag cmd => cases cmd <;> exact TriFlag.setting_orElse _ _
  | number cmd =>
    cases cmd
    case h3QpackTableCapacity =>
      cases hset : conf.h3QpackCapacitySet <;> simp [ServerConf.setting, h3MergeServerConfig, hset]
    case h3QpackBlockedStreams =>
      cases hset : conf.h3QpackBlockedSet <;> simp [ServerConf.setting, h3MergeServerConfig, hset]
    all_goals exact nonzeroSetting_orElse

theorem nonzeroSetting_of_pos {n : ℕ} (h : 1 ≤ n) : nonzeroSetting n = some (.number n) := if_pos (by omega)

private theorem setting_store {cmd : NumberCmd} {val : ℕ} (conf : ServerConf) (h : cmd.admitsZero ∨ 1 ≤ val) (k : Key) :
    (cmd.store val conf).setting k = (if k = .number cmd then some (.number val) else none).or (conf.setting k) := by
  split_ifs with hk
  · subst hk
    cases cmd
    case h3QpackTableCapacity => rfl
    case h3QpackBlockedStreams => rfl
    all_goals exact nonzeroSetting_of_pos (h.resolve_left Bool.false_ne_true)
  · cases cmd <;> rcases k with ⟨⟨⟩⟩ | _ | ⟨⟨⟩⟩ | ⟨⟨⟩⟩ <;> first | rfl | exact absurd rfl hk

/-- An accepted line changes the setting it names and no other. -/
theorem Directive.setting_setter {d : Directive} (h : d.setter conf = .ok conf') (k : Key) :
    conf'.setting k = (d.sets k).or (conf.setting k) := by
  cases d with
  | number cmd arg parsed =>
    obtain ⟨val, rfl, hval, rfl, -⟩ := NumberCmd.setter_any h
    exact setting_store conf hval k
  | port arg parsed =>
    obtain ⟨val, rfl, hlo, -, rfl, -⟩ := setH3Port_ok h
    simp only [Directive.sets]
    split_ifs with hk
    · subst hk
      simp [ServerConf.setting, nonzeroSetting_of_pos, hlo]
    · rcases k with ⟨⟨⟩⟩ | _ | ⟨⟨⟩⟩ | ⟨⟨⟩⟩ <;> first | rfl | exact absurd rfl hk
  | path cmd arg =>
    cases cmd <;> cases h <;> rcases k with ⟨⟨⟩⟩ | _ | ⟨⟨⟩⟩ | ⟨⟨⟩⟩ <;> rfl
  | flag cmd value =>
    cases cmd <;> cases h <;> cases value <;> rcases k with ⟨⟨⟩⟩ | _ | ⟨⟨⟩⟩ | ⟨⟨⟩⟩ <;> rfl

private theorem lastSetting_cons (d : Directive) (ds : List Directive) (k : Key) :
    lastSetting (d :: ds) k = (lastSetting ds k).or (d.sets k) := by
  unfold lastSetting
  rw [List.filterMap_cons]
  cases d.sets k with
  | none => rw [Option.or_none]
  | some v =>
    dsimp only
    rw [List.getLast?_cons]
    cases (ds.filterMap fun x => x.sets k).getLast? <;> rfl

private theorem runDirectives_setting (ds : List Directive) (h : runDirectives ds conf = .ok conf') (k : Key) :
    conf'.setting k = (lastSetting ds k).or (conf.setting k) := by
  induction ds generalizing conf with
  | nil =>
    cases h
    rfl
  | cons d ds ih =>
    unfold runDirectives at h
    split at h
    · rename_i next hd
      rw [ih h, Directive.setting_setter hd k, ← Option.or_assoc, lastSetting_cons]
    · cases h

private theorem setting_fresh (k : Key) : h3CreateServerConfig.setting k = none := by
  rcases k with ⟨⟨⟩⟩ | _ | ⟨⟨⟩⟩ | ⟨⟨⟩⟩ <;> rfl

end settings

section replay
variable {conf conf' : ServerConf}

theorem clean_fresh : h3CreateServerConfig.Clean := ⟨rfl, fun _ => rfl, fun _ => rfl⟩

theorem Directive.clean {d : Directive} (hc : conf.Clean) (h : d.setter conf = .ok conf') : conf'.Clean := by
  cases d with
  | path cmd arg => cases cmd <;> cases h <;> exact { hc with }
  | port arg parsed =>
    obtain ⟨val, -, -, -, rfl, -⟩ := setH3Port_ok h
    exact { hc with }
  | number cmd arg parsed =>
    obtain ⟨val, -, -, rfl, -⟩ := NumberCmd.setter_any h
    cases cmd
    case h3QpackTableCapacity => exact { hc with capacity := by nofun }
    case h3QpackBlockedStreams => exact { hc with blocked := by nofun }
    all_goals exact { hc with }
  | flag cmd value => cases cmd <;> cases h <;> exact { hc with }

theorem runDirectives_clean (ds : List Directive) (hc : conf.Clean) (h : runDirectives ds conf = .ok conf') :
    conf'.Clean := by
  induction ds generalizing conf with
  | nil =>
    cases h
    exact hc
  | cons d ds ih =>
    unfold runDirectives at h
    split at h
    · rename_i next hd
      exact ih (Directive.clean hc hd) h
    · cases h

/-- For accepted lines `ds₁` of the outer server and `ds₂` of a virtual host, the merge of the two records is the
record that the lines make one after the other, and the last line for a directive decides its setting.
Merging is associative, and the fresh record is its identity on all that lines can make. -/
theorem merge_is_replay :
    (∀ ds₁ ds₂ c₁ c₂, runDirectives ds₁ h3CreateServerConfig = .ok c₁ →
      runDirectives ds₂ h3CreateServerConfig = .ok c₂ →
      runDirectives (ds₁ ++ ds₂) h3CreateServerConfig = .ok (h3MergeServerConfig c₁ c₂) ∧
        ∀ k, (h3MergeServerConfig c₁ c₂).setting k = lastSetting (ds₁ ++ ds₂) k) ∧
      (∀ a b c, h3MergeServerConfig (h3MergeServerConfig a b) c = h3MergeServerConfig a (h3MergeServerConfig b c)) ∧
      ∀ ds c, runDirectives ds h3CreateServerConfig = .ok c →
        h3MergeServerConfig h3CreateServerConfig c = c ∧ h3MergeServerConfig c h3CreateServerConfig = c := by
  refine ⟨fun ds₁ ds₂ c₁ c₂ h₁ h₂ => ?_, merge_assoc, fun ds c h => ?_⟩
  · have hclean := runDirectives_clean ds₁ clean_fresh h₁
    have hrun : runDirectives (ds₁ ++ ds₂) h3CreateServerConfig = .ok (h3MergeServerConfig c₁ c₂) := by
      have hmerge := runDirectives_merge c₁ ds₂ h₂
      rwa [merge_fresh_right hclean, ← runDirectives_append ds₂ h₁] at hmerge
    refine ⟨hrun, fun k => ?_⟩
    have hset := runDirectives_setting (ds₁ ++ ds₂) hrun k
    rwa [setting_fresh, Option.or_none] at hset
  · have hclean := runDirectives_clean ds clean_fresh h
    exact ⟨merge_fresh_left hclean, merge_fresh_right hclean⟩

/-- The host's explicit zero wins over the outer server's value, and the other setting is kept. -/
theorem merge_is_replay_qpack_zero :
    ∃ c₁ c₂, runDirectives [.number .h3QpackTableCapacity "512" (.value 512), .number .h3MinWorkers "3" (.value 3)]
        h3CreateServerConfig = .ok c₁ ∧
      runDirectives [.number .h3QpackTableCapacity "0" (.value 0)] h3CreateServerConfig = .ok c₂ ∧
      (h3MergeServerConfig c₁ c₂).setting (.number .h3QpackTableCapacity) = some (.number 0) ∧
      (h3MergeServerConfig c₁ c₂).setting (.number .h3MinWorkers) = some (.number 3) := by
  have houter : ∃ c, runDirectives [.number .h3QpackTableCapacity "512" (.value 512),
      .number .h3MinWorkers "3" (.value 3)] h3CreateServerConfig = .ok c := ⟨_, rfl⟩
  have hhost : ∃ c, runDirectives [.number .h3QpackTableCapacity "0" (.value 0)] h3CreateServerConfig = .ok c :=
    ⟨_, rfl⟩
  obtain ⟨c₁, h₁⟩ := houter
  obtain ⟨c₂, h₂⟩ := hhost
  have hlast := (merge_is_replay.1 _ _ _ _ h₁ h₂).2
  exact ⟨c₁, c₂, h₁, h₂, hlast _, hlast _⟩

end replay

end ModHttp3.Config

import RemoteAgent.Proofs.Decimal.Reading
import RemoteAgent.Proofs.Effect

/-! # Configurations from variables

What every assignment of values to variables makes of the configuration. The values that a variable
may have are told by their texts, and each field by the one variable that sets it.
-/

namespace RemoteAgent

namespace Config

/-- The texts that set the timeout to a number of seconds. -/
structure DenotesTimeout (value : String) (n : ℕ) : Prop where
  numeral : ∃ (s : Sign) (ds : Digits), s ≠ .minus ∧ ds ≠ [] ∧
    Text.Trims value.toList (s.text ++ ds.text) ∧ n = ds.value
  bounded : n < 2 ^ 64

/-- The texts that set the delay. -/
structure DenotesDelay (value : String) (d : Duration) : Prop where
  reading : ∃ (core : List Char) (b : Binary64) (q : ℚ), Text.Trims value.toList core ∧
    Binary64.Reads core b ∧ b.value? = some q ∧ 0 ≤ q ∧ q < 2 ^ 64 ∧
      IsNearest (q * 10 ^ 9) d.nanoseconds

/-- The texts that do not set the delay. -/
inductive IsNoDelay (value : String) : Prop
  | unread {core : List Char} (h : Text.Trims value.toList core)
      (hb : ∀ b, ¬Binary64.Reads core b)
  | nan {core : List Char} (h : Text.Trims value.toList core) (hb : Binary64.Reads core .nan)
  | infinite {core : List Char} {negative : Bool} (h : Text.Trims value.toList core)
      (hb : Binary64.Reads core (.infinite negative))
  | outside {core : List Char} {b : Binary64} {q : ℚ} (h : Text.Trims value.toList core)
      (hb : Binary64.Reads core b) (hq : b.value? = some q) (hrange : q < 0 ∨ 2 ^ 64 ≤ q)

variable {value : String} {lookup lookup' : String → Option String}

theorem timeout?_eq_some_iff {n : ℕ} : timeout? value = some n ↔ DenotesTimeout value n := by
  rw [timeout?, Numeral.ofSigned?_eq_some_iff]
  simp only [Text.trimBlanks_eq_iff]
  constructor
  · rintro ⟨s, ds, hs, hne, htrims, hn, hlt⟩
    exact ⟨⟨s, ds, hs, hne, htrims, hn⟩, hlt⟩
  · rintro ⟨⟨s, ds, hs, hne, htrims, hn⟩, hlt⟩
    exact ⟨s, ds, hs, hne, htrims, hn, hlt⟩

theorem timeout?_eq_none_iff : timeout? value = none ↔ ∀ n, ¬DenotesTimeout value n := by
  simp only [Option.eq_none_iff_forall_ne_some, ne_eq, timeout?_eq_some_iff]

theorem killDelay?_eq_some_iff {d : Duration} :
    killDelay? value = some d ↔ DenotesDelay value d := by
  simp only [killDelay?, Option.bind_eq_some_iff, duration?_eq_some_iff,
    Binary64.ofText?_eq_some_iff]
  constructor
  · rintro ⟨b, hb, q, hq⟩
    exact ⟨_, b, q, Text.trims_trimBlanks _, hb, hq⟩
  · rintro ⟨core, b, q, htrims, hb, hq⟩
    exact ⟨b, htrims.trimBlanks_eq ▸ hb, q, hq⟩

theorem killDelay?_eq_none_iff : killDelay? value = none ↔ IsNoDelay value := by
  constructor
  · intro h
    have htrims := Text.trims_trimBlanks value.toList
    rw [killDelay?, Option.bind_eq_none_iff] at h
    by_cases hread : ∃ b, Binary64.Reads (Text.trimBlanks value.toList) b
    · obtain ⟨b, hb⟩ := hread
      have hnone := duration?_eq_none_iff.1 (h b (Binary64.ofText?_eq_some_iff.2 hb))
      cases b with
      | nan => exact .nan htrims hb
      | infinite negative => exact .infinite htrims hb
      | finite negative m e => exact .outside htrims hb rfl (hnone _ rfl)
    · exact .unread htrims (not_exists.1 hread)
  · intro h
    have hfrom : ∀ {core b}, Text.Trims value.toList core → Binary64.Reads core b →
        killDelay? value = duration? b := by
      intro core b htrims hb
      rw [killDelay?, htrims.trimBlanks_eq, Binary64.ofText?_eq_some_iff.2 hb]
      rfl
    cases h with
    | unread htrims hb =>
      rw [killDelay?, htrims.trimBlanks_eq, Option.bind_eq_none_iff]
      intro b hread
      exact absurd (Binary64.ofText?_eq_some_iff.1 hread) (hb b)
    | nan htrims hb => exact hfrom htrims hb
    | infinite htrims hb => exact hfrom htrims hb
    | outside htrims hb hq hrange =>
      rw [hfrom htrims hb, duration?_eq_none_iff]
      intro q' hq'
      obtain rfl := Option.some_inj.1 (hq.symm.trans hq')
      exact hrange

section Settings

variable {α : Type} {name : String} {read : String → Option α} {default a : α} {e : ConfigError}

theorem setting_eq_ok_iff : setting lookup name read default = .ok a ↔
    (lookup name = none ∧ a = default) ∨
      ∃ value, lookup name = some value ∧ read value = some a := by
  rw [setting]
  cases lookup name with
  | none => simp [eq_comm]
  | some value =>
    cases hread : read value with
    | none => simp [hread]
    | some a' => simp [hread]

theorem setting_eq_error_iff : setting lookup name read default = .error e ↔
    ∃ value, lookup name = some value ∧ read value = none ∧ e = ⟨name, value⟩ := by
  rw [setting]
  cases lookup name with
  | none => simp
  | some value =>
    cases hread : read value with
    | none => simp [hread, eq_comm]
    | some a' => simp [hread]

theorem setting_congr (h : lookup name = lookup' name) :
    setting lookup name read default = setting lookup' name read default := by
  rw [setting, h, ← setting]

end Settings

/-- A configuration with every field as its own variable sets it. -/
structure IsSetBy (lookup : String → Option String) (c : Config) : Prop where
  bundlePath : c.bundlePath = (lookup "TETHER_AGENT_BUNDLE").map Path.mk
  timeout : (lookup "TETHER_SSH_CONNECT_TIMEOUT" = none ∧ c.transport.sshConnectTimeout = 5) ∨
    ∃ value, lookup "TETHER_SSH_CONNECT_TIMEOUT" = some value ∧
      DenotesTimeout value c.transport.sshConnectTimeout
  killDelay : (lookup "TETHER_KILL_DELAY" = none ∧ c.killDelay = .ofSeconds 5) ∨
    ∃ value, lookup "TETHER_KILL_DELAY" = some value ∧ DenotesDelay value c.killDelay
  agentLogLevel : c.agentLogLevel = (lookup "TETHER_AGENT_LOG_LEVEL").getD "info"
  ipfsHelper : c.transport.ipfsHelper = (lookup "TETHER_IPFS_HELPER").getD "tether-ipfs"

/-- The variables that cannot be used, the first of them only. -/
inductive IsRefused (lookup : String → Option String) : ConfigError → Prop
  | timeout {value : String} (h : lookup "TETHER_SSH_CONNECT_TIMEOUT" = some value)
      (hvalue : ∀ n, ¬DenotesTimeout value n) :
      IsRefused lookup ⟨"TETHER_SSH_CONNECT_TIMEOUT", value⟩
  | killDelay {value : String}
      (htimeout : ∀ value ∈ lookup "TETHER_SSH_CONNECT_TIMEOUT", ∃ n, DenotesTimeout value n)
      (h : lookup "TETHER_KILL_DELAY" = some value) (hvalue : IsNoDelay value) :
      IsRefused lookup ⟨"TETHER_KILL_DELAY", value⟩

theorem setting_timeout_eq_ok_iff {n : ℕ} :
    setting lookup timeoutVariable timeout? default.transport.sshConnectTimeout = .ok n ↔
      (lookup "TETHER_SSH_CONNECT_TIMEOUT" = none ∧ n = 5) ∨
        ∃ value, lookup "TETHER_SSH_CONNECT_TIMEOUT" = some value ∧ DenotesTimeout value n := by
  rw [setting_eq_ok_iff]
  simp only [timeout?_eq_some_iff]
  exact Iff.rfl

theorem setting_killDelay_eq_ok_iff {d : Duration} :
    setting lookup killDelayVariable killDelay? default.killDelay = .ok d ↔
      (lookup "TETHER_KILL_DELAY" = none ∧ d = .ofSeconds 5) ∨
        ∃ value, lookup "TETHER_KILL_DELAY" = some value ∧ DenotesDelay value d := by
  rw [setting_eq_ok_iff]
  simp only [killDelay?_eq_some_iff]
  exact Iff.rfl

theorem setting_timeout_eq_error_iff {e : ConfigError} :
    setting lookup timeoutVariable timeout? default.transport.sshConnectTimeout = .error e ↔
      ∃ value, lookup "TETHER_SSH_CONNECT_TIMEOUT" = some value ∧ (∀ n, ¬DenotesTimeout value n) ∧
        e = ⟨"TETHER_SSH_CONNECT_TIMEOUT", value⟩ := by
  rw [setting_eq_error_iff]
  simp only [timeout?_eq_none_iff]
  exact Iff.rfl

theorem setting_killDelay_eq_error_iff {e : ConfigError} :
    setting lookup killDelayVariable killDelay? default.killDelay = .error e ↔
      ∃ value, lookup "TETHER_KILL_DELAY" = some value ∧ IsNoDelay value ∧
        e = ⟨"TETHER_KILL_DELAY", value⟩ := by
  rw [setting_eq_error_iff]
  simp only [killDelay?_eq_none_iff]
  exact Iff.rfl

theorem ofVariables_eq_error_iff {e : ConfigError} :
    ofVariables lookup = .error e ↔ IsRefused lookup e := by
  have hnever : ∀ (c : Config), (pure c : Except ConfigError Config) = .error e ↔ False :=
    fun c => iff_of_false nofun id
  simp only [ofVariables, bind_eq_error_iff, setting_timeout_eq_error_iff,
    setting_timeout_eq_ok_iff, setting_killDelay_eq_error_iff, hnever, and_false, exists_false,
    or_false]
  constructor
  · rintro (⟨value, hlookup, hvalue, rfl⟩ | ⟨n, htimeout, value, hlookup, hvalue, rfl⟩)
    · exact .timeout hlookup hvalue
    · refine .killDelay (fun value' hvalue' => ?_) hlookup hvalue
      obtain ⟨hnone, -⟩ | ⟨value'', hsome, hn⟩ := htimeout
      · exact absurd (hnone.symm.trans hvalue') nofun
      · exact ⟨n, Option.some_inj.1 (hsome.symm.trans hvalue') ▸ hn⟩
  · rintro (⟨hlookup, hvalue⟩ | ⟨htimeout, hlookup, hvalue⟩)
    · exact .inl ⟨_, hlookup, hvalue, rfl⟩
    · refine .inr ?_
      cases hset : lookup "TETHER_SSH_CONNECT_TIMEOUT" with
      | none => exact ⟨5, .inl ⟨rfl, rfl⟩, _, hlookup, hvalue, rfl⟩
      | some value' =>
        obtain ⟨n, hn⟩ := htimeout value' hset
        exact ⟨n, .inr ⟨value', rfl, hn⟩, _, hlookup, hvalue, rfl⟩

theorem ofVariables_eq_ok_iff {c : Config} : ofVariables lookup = .ok c ↔ IsSetBy lookup c := by
  simp only [ofVariables, bind_eq_ok_iff, setting_timeout_eq_ok_iff, setting_killDelay_eq_ok_iff]
  constructor
  · rintro ⟨n, hn, d, hd, hc⟩
    obtain rfl := Except.ok.inj hc
    exact ⟨Option.or_none, hn, hd, rfl, rfl⟩
  · intro h
    refine ⟨_, h.timeout, _, h.killDelay, congrArg Except.ok ?_⟩
    obtain ⟨bundlePath, killDelay, agentLogLevel, timeout, ipfsHelper⟩ := c
    obtain rfl : bundlePath = _ := h.bundlePath
    obtain rfl : agentLogLevel = _ := h.agentLogLevel
    obtain rfl : ipfsHelper = _ := h.ipfsHelper
    exact congrArg (Config.mk · _ _ _) Option.or_none

/-- Two configurations differ at most where the variable of the field does. -/
structure FollowsVariables (lookup lookup' : String → Option String) (c c' : Config) : Prop where
  bundlePath : lookup "TETHER_AGENT_BUNDLE" = lookup' "TETHER_AGENT_BUNDLE" →
    c.bundlePath = c'.bundlePath
  timeout : lookup "TETHER_SSH_CONNECT_TIMEOUT" = lookup' "TETHER_SSH_CONNECT_TIMEOUT" →
    c.transport.sshConnectTimeout = c'.transport.sshConnectTimeout
  killDelay : lookup "TETHER_KILL_DELAY" = lookup' "TETHER_KILL_DELAY" → c.killDelay = c'.killDelay
  agentLogLevel : lookup "TETHER_AGENT_LOG_LEVEL" = lookup' "TETHER_AGENT_LOG_LEVEL" →
    c.agentLogLevel = c'.agentLogLevel
  ipfsHelper : lookup "TETHER_IPFS_HELPER" = lookup' "TETHER_IPFS_HELPER" →
    c.transport.ipfsHelper = c'.transport.ipfsHelper

theorem IsSetBy.followsVariables {c c' : Config} (h : IsSetBy lookup c) (h' : IsSetBy lookup' c') :
    FollowsVariables lookup lookup' c c' where
  bundlePath heq := by rw [h.bundlePath, h'.bundlePath, heq]
  timeout heq := by
    have ht := setting_timeout_eq_ok_iff.2 h.timeout
    have ht' := setting_timeout_eq_ok_iff.2 h'.timeout
    exact Except.ok.inj (ht.symm.trans ((setting_congr heq).trans ht'))
  killDelay heq := by
    have hd := setting_killDelay_eq_ok_iff.2 h.killDelay
    have hd' := setting_killDelay_eq_ok_iff.2 h'.killDelay
    exact Except.ok.inj (hd.symm.trans ((setting_congr heq).trans hd'))
  agentLogLevel heq := by rw [h.agentLogLevel, h'.agentLogLevel, heq]
  ipfsHelper heq := by rw [h.ipfsHelper, h'.ipfsHelper, heq]

/-- The names of all variables that are looked at. -/
def variableNames : List String :=
  ["TETHER_AGENT_BUNDLE", "TETHER_SSH_CONNECT_TIMEOUT", "TETHER_KILL_DELAY",
    "TETHER_AGENT_LOG_LEVEL", "TETHER_IPFS_HELPER"]

theorem ofVariables_congr (h : ∀ name ∈ variableNames, lookup name = lookup' name) :
    ofVariables lookup = ofVariables lookup' := by
  have hbundle : lookup bundleVariable = lookup' bundleVariable := h _ (by decide)
  have htimeout : lookup timeoutVariable = lookup' timeoutVariable := h _ (by decide)
  have hdelay : lookup killDelayVariable = lookup' killDelayVariable := h _ (by decide)
  have hlevel : lookup logLevelVariable = lookup' logLevelVariable := h _ (by decide)
  have hhelper : lookup helperVariable = lookup' helperVariable := h _ (by decide)
  rw [ofVariables, ofVariables, setting_congr htimeout, setting_congr hdelay, hbundle, hlevel,
    hhelper]

/-- What is made of the variables, whatever they are set to: which of them is refused, what the
fields are if none is, and that nothing else matters. -/
theorem ofVariables_exact (lookup : String → Option String) :
    (∀ e, ofVariables lookup = .error e ↔ IsRefused lookup e) ∧
      (∀ c, ofVariables lookup = .ok c ↔ IsSetBy lookup c) ∧
      (∀ lookup' c c', ofVariables lookup = .ok c → ofVariables lookup' = .ok c' →
        FollowsVariables lookup lookup' c c') ∧
      ∀ lookup', (∀ name ∈ variableNames, lookup name = lookup' name) →
        ofVariables lookup' = ofVariables lookup :=
  ⟨fun _ => ofVariables_eq_error_iff, fun _ => ofVariables_eq_ok_iff,
    fun _ _ _ h h' => (ofVariables_eq_ok_iff.1 h).followsVariables (ofVariables_eq_ok_iff.1 h'),
    fun _ h => (ofVariables_congr h).symm⟩

end Config

end RemoteAgent

import Scorer.TomlTableProofs

/-! # The optional sections of `config.toml`

    `NodeConfig::load` reads and validates the file, and `into_ldk_user_info` makes of
    it what the node runs on.  A section that is missing takes the default of its
    type; the fields of a section that is there take defaults of their own.

    * `deserialize`, `validate`, `load`, `intoLdkUserInfo` and `startedTasks` follow
      the source;
    * `omitted_section_is_default_iff`: of the optional sections, only
      `rapid_gossip_sync` may be left out instead of left empty. -/

namespace SectionDefault

open TomlTable

/-! ## The configuration -/

/-- What `load` can fail with, as far as a caller can tell the cases apart. -/
inductive ConfigError where
  | fileNotFound (path : String)
  | deprecatedJsonConfig (path : String)
  | parseError (message : String)
  | validationError (message : String)
  deriving DecidableEq, Repr

/-- The section `[bitcoind]`, the only one that a file must have. -/
structure BitcoindConfig where
  rpcHost     : String
  rpcPort     : UInt16
  rpcUsername : String
  rpcPassword : String
  deriving DecidableEq, Repr

/-- The section `[ldk]`. -/
structure LdkConfig where
  peerListeningPort : UInt16
  announcedNodeName : Option String
  announcedListenAddr : List String
  deriving DecidableEq, Repr

/-- The section `[rapid_gossip_sync]`. -/
structure RapidGossipSyncConfig where
  enabled       : Bool
  url           : Option String
  intervalHours : UInt64
  deriving DecidableEq, Repr

/-- `RawProbingConfig`, and `ProbingConfig` with the same fields. -/
structure ProbingConfig where
  intervalSec            : UInt64
  peers                  : List String
  amountMsats            : List UInt64
  randomMinAmountMsat    : UInt64
  randomNodesPerInterval : UInt64
  timeoutSec             : UInt64
  probeDelaySec          : UInt64
  peerDelaySec           : UInt64
  deriving DecidableEq, Repr

/-- The section `[dns_bootstrap]`. -/
structure DnsBootstrapConfig where
  enabled      : Bool
  seeds        : List String
  timeoutSecs  : UInt64
  numPeers     : UInt64
  intervalSecs : UInt64
  deriving DecidableEq, Repr

/-- A configuration as `serde` builds it from the file. -/
structure NodeConfig where
  bitcoind        : BitcoindConfig
  network         : String
  ldk             : LdkConfig
  rapidGossipSync : RapidGossipSyncConfig
  probing         : Option ProbingConfig
  dnsBootstrap    : Option DnsBootstrapConfig
  deriving DecidableEq, Repr

/-! ## Defaults -/

/-- `default_network`, for a file that names no network. -/
def defaultNetwork : String := "testnet"

/-- `default_peer_port`, for a section `[ldk]` that gives no port. -/
def defaultPeerPort : UInt16 := 9735

/-- `default_true`: rapid gossip sync is on unless it is switched off. -/
def defaultTrue : Bool := true

/-- `default_rgs_interval`, in hours. -/
def defaultRgsInterval : UInt64 := 6

/-- `default_probe_timeout`, in seconds. -/
def defaultProbeTimeout : UInt64 := 60

/-- `default_probe_delay`, in seconds. -/
def defaultProbeDelay : UInt64 := 1

/-- `default_peer_delay`, in seconds. -/
def defaultPeerDelay : UInt64 := 2

/-- `default_random_min_probe_amount`; with zero the random probes are off. -/
def defaultRandomMinProbeAmount : UInt64 := 0

/-- `default_random_nodes_per_interval`. -/
def defaultRandomNodesPerInterval : UInt64 := 1

/-- `default_enabled`: a section `[dns_bootstrap]` switches it on. -/
def defaultEnabled : Bool := true

/-- `default_seeds`. -/
def defaultSeeds : List String := ["nodes.lightning.wiki", "lseed.bitcoinstats.com"]

/-- `default_timeout_secs`, of one DNS lookup. -/
def defaultTimeoutSecs : UInt64 := 30

/-- `default_num_peers`, for a round of the bootstrapper. -/
def defaultNumPeers : UInt64 := 10

/-- `default_interval_secs`, between two rounds. -/
def defaultIntervalSecs : UInt64 := 300

/-- `LdkConfig::default`, which is derived: each field takes the default of its type. -/
def ldkDefault : LdkConfig := ⟨0, none, []⟩

/-- `RapidGossipSyncConfig::default`, which is written out. -/
def rapidGossipSyncDefault : RapidGossipSyncConfig := ⟨true, none, 6⟩

/-! ## Reading the file -/

/-- Every field of `[bitcoind]` has to be there. -/
def readBitcoind : Toml → Option BitcoindConfig :=
  asRecord ["rpc_host", "rpc_port", "rpc_username", "rpc_password"] fun t => do
    let rpcHost ← required "rpc_host" asString t
    let rpcPort ← required "rpc_port" asU16 t
    let rpcUsername ← required "rpc_username" asString t
    let rpcPassword ← required "rpc_password" asString t
    return ⟨rpcHost, rpcPort, rpcUsername, rpcPassword⟩

/-- Every field of `[ldk]` may be missing; the port has a default then. -/
def readLdk : Toml → Option LdkConfig :=
  asRecord ["peer_listening_port", "announced_node_name", "announced_listen_addr"] fun t => do
    let peerListeningPort ← defaulted "peer_listening_port" asU16 t defaultPeerPort
    let announcedNodeName ← optional "announced_node_name" asString t
    let announcedListenAddr ← defaulted "announced_listen_addr" (asList asString) t []
    return ⟨peerListeningPort, announcedNodeName, announcedListenAddr⟩

/-- Every field of `[rapid_gossip_sync]` may be missing. -/
def readRapidGossipSync : Toml → Option RapidGossipSyncConfig :=
  asRecord ["enabled", "url", "interval_hours"] fun t => do
    let enabled ← defaulted "enabled" asBool t defaultTrue
    let url ← optional "url" asString t
    let intervalHours ← defaulted "interval_hours" asU64 t defaultRgsInterval
    return ⟨enabled, url, intervalHours⟩

/-- Of `[probing]` the interval, the peers and the amounts have to be there. -/
def readProbing : Toml → Option ProbingConfig :=
  asRecord ["interval_sec", "peers", "amount_msats", "random_min_amount_msat",
      "random_nodes_per_interval", "timeout_sec", "probe_delay_sec", "peer_delay_sec"]
    fun t => do
      let intervalSec ← required "interval_sec" asU64 t
      let peers ← required "peers" (asList asString) t
      let amountMsats ← required "amount_msats" (asList asU64) t
      let randomMinAmountMsat ←
        defaulted "random_min_amount_msat" asU64 t defaultRandomMinProbeAmount
      let randomNodesPerInterval ←
        defaulted "random_nodes_per_interval" asU64 t defaultRandomNodesPerInterval
      let timeoutSec ← defaulted "timeout_sec" asU64 t defaultProbeTimeout
      let probeDelaySec ← defaulted "probe_delay_sec" asU64 t defaultProbeDelay
      let peerDelaySec ← defaulted "peer_delay_sec" asU64 t defaultPeerDelay
      return ⟨intervalSec, peers, amountMsats, randomMinAmountMsat, randomNodesPerInterval,
        timeoutSec, probeDelaySec, peerDelaySec⟩

/-- Every field of `[dns_bootstrap]` may be missing. -/
def readDnsBootstrap : Toml → Option DnsBootstrapConfig :=
  asRecord ["enabled", "seeds", "timeout_secs", "num_peers", "interval_secs"] fun t => do
    let enabled ← defaulted "enabled" asBool t defaultEnabled
    let seeds ← defaulted "seeds" (asList asString) t defaultSeeds
    let timeoutSecs ← defaulted "timeout_secs" asU64 t defaultTimeoutSecs
    let numPeers ← defaulted "num_peers" asU64 t defaultNumPeers
    let intervalSecs ← defaulted "interval_secs" asU64 t defaultIntervalSecs
    return ⟨enabled, seeds, timeoutSecs, numPeers, intervalSecs⟩

/-- The names that a file may have at its top. -/
def nodeFields : List String :=
  ["bitcoind", "network", "ldk", "rapid_gossip_sync", "probing", "dns_bootstrap"]

/-- The file itself: each section with the `serde` attribute of its field. -/
def readNode (t : Table) : Option NodeConfig := do
  let bitcoind ← required "bitcoind" readBitcoind t
  let network ← defaulted "network" asString t defaultNetwork
  let ldk ← defaulted "ldk" readLdk t ldkDefault
  let rapidGossipSync ←
    defaulted "rapid_gossip_sync" readRapidGossipSync t rapidGossipSyncDefault
  let probing ← optional "probing" readProbing t
  let dnsBootstrap ← optional "dns_bootstrap" readDnsBootstrap t
  return ⟨bitcoind, network, ldk, rapidGossipSync, probing, dnsBootstrap⟩

/-- `toml::from_str`, after its parser. -/
def deserialize (t : Table) : Option NodeConfig := asRecord nodeFields readNode (.table t)

/-! ## Validation -/

/-- What is not in the repository: the parser of addresses, the text of a
    deserialisation error, and whether two managers of the node can be made. -/
structure Platform (σ : Type) where
  socketAddress     : String → Option σ
  tomlError         : Table → String
  rapidSyncReady    : Option String → Bool
  bootstrapperReady : DnsBootstrapConfig → Bool

variable {σ : Type} (E : Platform σ)

/-- The first check of `validate`. -/
def networkError (network : String) : Option String :=
  if ["mainnet", "testnet", "regtest", "signet"].contains network then none
  else some ("Invalid network '" ++ network ++
    "'. Must be: mainnet, testnet, regtest, signet")

/-- The second: the addresses, and the length of the name. -/
def ldkError (ldk : LdkConfig) : Option String :=
  match ldk.announcedListenAddr.find? fun addr => (E.socketAddress addr).isNone with
  | some addr => some ("Invalid announced address: " ++ addr)
  | none =>
      match ldk.announcedNodeName with
      | some name =>
          if name.utf8ByteSize > 32 then some "Node name cannot exceed 32 bytes" else none
      | none => none

/-- The third. -/
def rapidGossipSyncError (rapidGossipSync : RapidGossipSyncConfig) : Option String :=
  if rapidGossipSync.enabled && rapidGossipSync.intervalHours == 0 then
    some "rapid_gossip_sync.interval_hours must be greater than 0 when enabled"
  else none

/-- The fourth, where there is a section `[probing]`. -/
def probingError : Option ProbingConfig → Option String
  | none => none
  | some probing =>
      if probing.intervalSec == 0 then some "probing.interval_sec must be greater than 0"
      else if probing.timeoutSec == 0 then some "probing.timeout_sec must be greater than 0"
      else none

/-- The last, where bootstrapping is enabled. -/
def dnsBootstrapError : Option DnsBootstrapConfig → Option String
  | none => none
  | some dnsBootstrap =>
      if dnsBootstrap.enabled then
        if dnsBootstrap.seeds.isEmpty then
          some "dns_bootstrap.seeds must not be empty when enabled"
        else if dnsBootstrap.timeoutSecs == 0 then
          some "dns_bootstrap.timeout_secs must be greater than 0 when enabled"
        else if dnsBootstrap.intervalSecs == 0 then
          some "dns_bootstrap.interval_secs must be greater than 0 when enabled"
        else if dnsBootstrap.numPeers == 0 then
          some "dns_bootstrap.num_peers must be greater than 0 when enabled"
        else none
      else none

/-- `NodeConfig::validate`: the first check that fails. -/
def validate (config : NodeConfig) : Option String :=
  networkError config.network <|> ldkError E config.ldk <|>
    rapidGossipSyncError config.rapidGossipSync <|> probingError config.probing <|>
    dnsBootstrapError config.dnsBootstrap

/-- A file as `read_to_string` and the parser of `toml` find it. -/
inductive ConfigText where
  | unreadable (message : String)
  | notToml (message : String)
  | toml (t : Table)

/-- The two files that `load` looks for in the data directory. -/
structure ConfigDir where
  configToml : Option ConfigText
  configJson : Bool

/-- `NodeConfig::load`. -/
def load (ldkDataDir : String) (dir : ConfigDir) : Except ConfigError NodeConfig :=
  match dir.configToml with
  | none =>
      if dir.configJson then .error (.deprecatedJsonConfig (ldkDataDir ++ "/config.json"))
      else .error (.fileNotFound (ldkDataDir ++ "/config.toml"))
  | some (.unreadable message) => .error (.parseError ("Failed to read config: " ++ message))
  | some (.notToml message) => .error (.parseError ("Invalid TOML: " ++ message))
  | some (.toml t) =>
      match deserialize t with
      | none => .error (.parseError ("Invalid TOML: " ++ E.tomlError t))
      | some config =>
          match validate E config with
          | some message => .error (.validationError message)
          | none => .ok config

/-! ## What the node runs on -/

/-- The networks of the `bitcoin` crate that a file can name. -/
inductive Network where
  | bitcoin
  | testnet
  | regtest
  | signet
  deriving DecidableEq, Repr

/-- What `start_ldk` gets to know of the configuration. -/
structure LdkUserInfo (σ : Type) where
  bitcoindRpcUsername : String
  bitcoindRpcPassword : String
  bitcoindRpcPort : UInt16
  bitcoindRpcHost : String
  ldkStorageDirPath : String
  ldkPeerListeningPort : UInt16
  ldkAnnouncedListenAddr : List σ
  ldkAnnouncedNodeName : Vector UInt8 32
  network : Network
  rapidGossipSyncEnabled : Bool
  rapidGossipSyncUrl : Option String
  rapidGossipSyncIntervalHours : UInt64
  probing : Option ProbingConfig
  dnsBootstrap : Option DnsBootstrapConfig

/-- `get_network`; the last branch is never taken after a validation. -/
def getNetwork (config : NodeConfig) : Network :=
  if config.network = "mainnet" then .bitcoin
  else if config.network = "testnet" then .testnet
  else if config.network = "regtest" then .regtest
  else if config.network = "signet" then .signet
  else .testnet

/-- The bytes of the name, cut or filled with zeros to 32. -/
def getAnnouncedNodeName (config : NodeConfig) : Vector UInt8 32 :=
  match config.ldk.announcedNodeName with
  | some name => Vector.ofFn fun i => name.toUTF8.data.getD i 0
  | none => Vector.replicate 32 0

/-- `get_announced_listen_addr`, which leaves out what does not parse. -/
def getAnnouncedListenAddr (config : NodeConfig) : List σ :=
  config.ldk.announcedListenAddr.filterMap E.socketAddress

/-- `into_ldk_user_info`: each argument of the start from its field. -/
def intoLdkUserInfo (config : NodeConfig) (ldkStorageDirPath : String) : LdkUserInfo σ where
  bitcoindRpcUsername := config.bitcoind.rpcUsername
  bitcoindRpcPassword := config.bitcoind.rpcPassword
  bitcoindRpcPort := config.bitcoind.rpcPort
  bitcoindRpcHost := config.bitcoind.rpcHost
  ldkStorageDirPath := ldkStorageDirPath
  ldkPeerListeningPort := config.ldk.peerListeningPort
  ldkAnnouncedListenAddr := getAnnouncedListenAddr E config
  ldkAnnouncedNodeName := getAnnouncedNodeName config
  network := getNetwork config
  rapidGossipSyncEnabled := config.rapidGossipSync.enabled
  rapidGossipSyncUrl := config.rapidGossipSync.url
  rapidGossipSyncIntervalHours := config.rapidGossipSync.intervalHours
  probing := config.probing
  dnsBootstrap := config.dnsBootstrap

/-- The tasks that `start_ldk` spawns, with what it hands them of its arguments. -/
inductive BackgroundTask (σ : Type) where
  | listen (port : UInt16)
  | pollBlocks
  | processEvents
  | reconnectPeers
  | dnsBootstrap (config : DnsBootstrapConfig)
  | announceNode (name : Vector UInt8 32) (addrs : List σ)
  | migrateSpendableOutputs
  | probing (config : ProbingConfig)
  | rapidGossipSync (url : Option String) (intervalHours : UInt64)
  | pollForUserInput

/-- The spawns of `start_ldk` itself, in order, when it runs through. -/
def startedTasks (args : LdkUserInfo σ) : List (BackgroundTask σ) :=
  ([.listen args.ldkPeerListeningPort, .pollBlocks, .processEvents, .reconnectPeers] :
      List (BackgroundTask σ)) ++
    (match args.dnsBootstrap with
      | some config =>
          if config.enabled && E.bootstrapperReady config then [.dnsBootstrap config] else []
      | none => [] : List (BackgroundTask σ)) ++
    ([.announceNode args.ldkAnnouncedNodeName args.ldkAnnouncedListenAddr,
      .migrateSpendableOutputs] : List (BackgroundTask σ)) ++
    (match args.probing with
      | some config => [.probing config]
      | none => [] : List (BackgroundTask σ)) ++
    (if args.rapidGossipSyncEnabled && E.rapidSyncReady args.rapidGossipSyncUrl then
      [.rapidGossipSync args.rapidGossipSyncUrl args.rapidGossipSyncIntervalHours]
    else [] : List (BackgroundTask σ)) ++
    ([.pollForUserInput] : List (BackgroundTask σ))

/-! ## A section omitted, and a section left empty -/

/-- The sections that a file may leave out and for which there are defaults. -/
inductive OptionalSection where
  | ldk
  | rapidGossipSync
  | dnsBootstrap
  deriving DecidableEq, Repr

/-- The name of such a section in the file. -/
def OptionalSection.key : OptionalSection → String
  | .ldk => "ldk"
  | .rapidGossipSync => "rapid_gossip_sync"
  | .dnsBootstrap => "dns_bootstrap"

/-- `DnsBootstrapConfig::default`, which nothing calls. -/
def dnsBootstrapDefault : DnsBootstrapConfig :=
  ⟨defaultEnabled, defaultSeeds, defaultTimeoutSecs, defaultNumPeers, defaultIntervalSecs⟩

/-- The configuration without the section. -/
def omitted (config : NodeConfig) : OptionalSection → NodeConfig
  | .ldk => { config with ldk := ldkDefault }
  | .rapidGossipSync => { config with rapidGossipSync := rapidGossipSyncDefault }
  | .dnsBootstrap => { config with dnsBootstrap := none }

/-- The configuration with the section and none of its fields. -/
def leftEmpty (config : NodeConfig) : OptionalSection → NodeConfig
  | .ldk => { config with ldk := ⟨defaultPeerPort, none, []⟩ }
  | .rapidGossipSync =>
      { config with rapidGossipSync := ⟨defaultTrue, none, defaultRgsInterval⟩ }
  | .dnsBootstrap => { config with dnsBootstrap := some dnsBootstrapDefault }

variable {E} {t : Table} {config : NodeConfig} {sec : OptionalSection}

/-- The entries of the file are read as the fields of the configuration. -/
structure ReadsAs (t : Table) (config : NodeConfig) : Prop where
  bitcoind : required "bitcoind" readBitcoind t = some config.bitcoind
  network : defaulted "network" asString t defaultNetwork = some config.network
  ldk : defaulted "ldk" readLdk t ldkDefault = some config.ldk
  rapidGossipSync : defaulted "rapid_gossip_sync" readRapidGossipSync t rapidGossipSyncDefault
    = some config.rapidGossipSync
  probing : optional "probing" readProbing t = some config.probing
  dnsBootstrap : optional "dns_bootstrap" readDnsBootstrap t = some config.dnsBootstrap

/-- The reader as a relation, one premise a field. -/
theorem readNode_iff : readNode t = some config ↔ ReadsAs t config := by
  constructor
  · intro h
    simp only [readNode, Option.bind_eq_bind, Option.bind_eq_some_iff] at h
    obtain ⟨bitcoind, hb, network, hn, ldk, hl, rgs, hr, probing, hp, dns, hd, heq⟩ := h
    obtain rfl := Option.some.inj heq
    exact ⟨hb, hn, hl, hr, hp, hd⟩
  · rintro ⟨hb, hn, hl, hr, hp, hd⟩
    simp only [readNode, hb, hn, hl, hr, hp, hd, Option.bind_eq_bind, Option.bind_some]
    rfl

section Replace

variable {v : Option Toml} (h : ReadsAs t config)
include h

/-- Replacing `[ldk]` in the file replaces it in the configuration. -/
theorem readsAs_ldk {ldk : LdkConfig}
    (hv : defaulted "ldk" readLdk (setField "ldk" v t) ldkDefault = some ldk) :
    ReadsAs (setField "ldk" v t) { config with ldk := ldk } where
  bitcoind := (required_setField (by decide)).trans h.bitcoind
  network := (defaulted_setField (by decide)).trans h.network
  ldk := hv
  rapidGossipSync := (defaulted_setField (by decide)).trans h.rapidGossipSync
  probing := (optional_setField (by decide)).trans h.probing
  dnsBootstrap := (optional_setField (by decide)).trans h.dnsBootstrap

/-- The same of `[rapid_gossip_sync]`. -/
theorem readsAs_rapidGossipSync {rapidGossipSync : RapidGossipSyncConfig}
    (hv : defaulted "rapid_gossip_sync" readRapidGossipSync
      (setField "rapid_gossip_sync" v t) rapidGossipSyncDefault = some rapidGossipSync) :
    ReadsAs (setField "rapid_gossip_sync" v t)
      { config with rapidGossipSync := rapidGossipSync } where
  bitcoind := (required_setField (by decide)).trans h.bitcoind
  network := (defaulted_setField (by decide)).trans h.network
  ldk := (defaulted_setField (by decide)).trans h.ldk
  rapidGossipSync := hv
  probing := (optional_setField (by decide)).trans h.probing
  dnsBootstrap := (optional_setField (by decide)).trans h.dnsBootstrap

/-- The same of `[dns_bootstrap]`, where nothing is a value too. -/
theorem readsAs_dnsBootstrap {dnsBootstrap : Option DnsBootstrapConfig}
    (hv : optional "dns_bootstrap" readDnsBootstrap (setField "dns_bootstrap" v t) =
      some dnsBootstrap) :
    ReadsAs (setField "dns_bootstrap" v t) { config with dnsBootstrap := dnsBootstrap } where
  bitcoind := (required_setField (by decide)).trans h.bitcoind
  network := (defaulted_setField (by decide)).trans h.network
  ldk := (defaulted_setField (by decide)).trans h.ldk
  rapidGossipSync := (defaulted_setField (by decide)).trans h.rapidGossipSync
  probing := (optional_setField (by decide)).trans h.probing
  dnsBootstrap := hv

/-- A file without the section reads as the default of the *field*. -/
theorem readsAs_omitted (sec : OptionalSection) :
    ReadsAs (setField sec.key none t) (omitted config sec) := by
  cases sec with
  | ldk => exact readsAs_ldk h defaulted_setField_self
  | rapidGossipSync => exact readsAs_rapidGossipSync h defaulted_setField_self
  | dnsBootstrap => exact readsAs_dnsBootstrap h optional_setField_self

/-- A file with an empty section reads as the defaults of its *fields*. -/
theorem readsAs_leftEmpty (sec : OptionalSection) :
    ReadsAs (setField sec.key (some (.table [])) t) (leftEmpty config sec) := by
  cases sec with
  | ldk => exact readsAs_ldk h defaulted_setField_self
  | rapidGossipSync => exact readsAs_rapidGossipSync h defaulted_setField_self
  | dnsBootstrap => exact readsAs_dnsBootstrap h optional_setField_self

end Replace

/-! ## Acceptance -/

/-- A configuration is valid if no check objects; the first that does is reported. -/
theorem validate_none :
    validate E config = none ↔ networkError config.network = none ∧
      ldkError E config.ldk = none ∧ rapidGossipSyncError config.rapidGossipSync = none ∧
      probingError config.probing = none ∧ dnsBootstrapError config.dnsBootstrap = none := by
  simp only [validate, Option.orElse_eq_orElse, Option.orElse_eq_or, Option.or_eq_none_iff]

/-- The defaults pass the checks of their section. -/
theorem validate_omitted (h : validate E config = none) (sec : OptionalSection) :
    validate E (omitted config sec) = none := by
  obtain ⟨hn, hl, hr, hp, hd⟩ := validate_none.mp h
  cases sec with
  | ldk => exact validate_none.mpr ⟨hn, rfl, hr, hp, hd⟩
  | rapidGossipSync => exact validate_none.mpr ⟨hn, hl, rfl, hp, hd⟩
  | dnsBootstrap => exact validate_none.mpr ⟨hn, hl, hr, hp, rfl⟩

/-- The defaults of a section pass every check. -/
theorem validate_leftEmpty (h : validate E config = none) (sec : OptionalSection) :
    validate E (leftEmpty config sec) = none := by
  obtain ⟨hn, hl, hr, hp, hd⟩ := validate_none.mp h
  cases sec with
  | ldk => exact validate_none.mpr ⟨hn, rfl, hr, hp, hd⟩
  | rapidGossipSync => exact validate_none.mpr ⟨hn, hl, rfl, hp, hd⟩
  | dnsBootstrap => exact validate_none.mpr ⟨hn, hl, hr, hp, rfl⟩

/-- The directory whose `config.toml` holds the table. -/
def configDir (t : Table) (configJson : Bool) : ConfigDir := ⟨some (.toml t), configJson⟩

variable {ldkDataDir : String} {json : Bool}

/-- A load succeeds if the names are known, the fields read and the checks pass. -/
theorem load_ok : load E ldkDataDir (configDir t json) = .ok config ↔
    (t.all fun entry => nodeFields.contains entry.1) = true ∧ ReadsAs t config ∧
      validate E config = none := by
  rw [← readNode_iff]
  show (match deserialize t with
    | none => .error (.parseError ("Invalid TOML: " ++ E.tomlError t))
    | some config =>
        match validate E config with
        | some message => .error (.validationError message)
        | none => .ok config) = (.ok config : Except ConfigError NodeConfig) ↔ _
  rw [deserialize, asRecord]
  -- an unknown field, a field that does not read, a check that fails: in this order
  by_cases hfields : (t.all fun entry => nodeFields.contains entry.1) = true
  · rw [if_pos hfields]
    cases hread : readNode t with
    | none => exact ⟨(fun h => nomatch h), fun h => nomatch h.2.1⟩
    | some read =>
        cases hvalid : validate E read with
        | some message =>
            refine ⟨fun h => ?_, ?_⟩
            · simp only [hvalid] at h
              exact nomatch h
            · rintro ⟨-, heq, hnone⟩
              obtain rfl := Option.some.inj heq
              exact nomatch hvalid.symm.trans hnone
        | none =>
            simp only [hvalid]
            constructor
            · intro h
              obtain rfl := Except.ok.inj h
              exact ⟨hfields, rfl, hvalid⟩
            · rintro ⟨-, heq, -⟩
              exact congrArg Except.ok (Option.some.inj heq)
  · rw [if_neg hfields]
    exact ⟨(fun h => nomatch h), fun h => absurd h.1 hfields⟩

/-- The optional sections are known names. -/
theorem key_mem_nodeFields (sec : OptionalSection) : sec.key ∈ nodeFields := by
  cases sec <;> decide

/-- An accepted file is still accepted when a section is left out or left empty. -/
theorem load_omitted (h : load E ldkDataDir (configDir t json) = .ok config)
    (sec : OptionalSection) :
    load E ldkDataDir (configDir (setField sec.key none t) json) =
      .ok (omitted config sec) := by
  obtain ⟨hfields, hreads, hvalid⟩ := load_ok.mp h
  exact load_ok.mpr ⟨fields_setField (key_mem_nodeFields sec) hfields,
    readsAs_omitted hreads sec, validate_omitted hvalid sec⟩

/-- So a file that loads does so with an empty section in place of its own. -/
theorem load_leftEmpty (h : load E ldkDataDir (configDir t json) = .ok config)
    (sec : OptionalSection) :
    load E ldkDataDir (configDir (setField sec.key (some (.table [])) t) json) =
      .ok (leftEmpty config sec) := by
  obtain ⟨hfields, hreads, hvalid⟩ := load_ok.mp h
  exact load_ok.mpr ⟨fields_setField (key_mem_nodeFields sec) hfields,
    readsAs_leftEmpty hreads sec, validate_leftEmpty hvalid sec⟩

/-! ## The law -/

/-- The two files are accepted, and the node runs on the same values and starts the
    same tasks. -/
def SameNode (E : Platform σ) (ldkDataDir : String) (dir dir' : ConfigDir) : Prop :=
  ∃ config config', load E ldkDataDir dir = .ok config ∧
    load E ldkDataDir dir' = .ok config' ∧ ∀ ldkStorageDirPath,
      intoLdkUserInfo E config ldkStorageDirPath =
        intoLdkUserInfo E config' ldkStorageDirPath ∧
      startedTasks E (intoLdkUserInfo E config ldkStorageDirPath) =
        startedTasks E (intoLdkUserInfo E config' ldkStorageDirPath)

/-- Such files agree on the port and on the bootstrap. -/
private theorem sameNode_fields {dir dir' : ConfigDir} {config' : NodeConfig}
    (hsame : SameNode E ldkDataDir dir dir') (h : load E ldkDataDir dir = .ok config)
    (h' : load E ldkDataDir dir' = .ok config') :
    config.ldk.peerListeningPort = config'.ldk.peerListeningPort ∧
      config.dnsBootstrap = config'.dnsBootstrap := by
  obtain ⟨config₁, config₂, h₁, h₂, hinfo⟩ := hsame
  obtain rfl := Except.ok.inj (h.symm.trans h₁)
  obtain rfl := Except.ok.inj (h'.symm.trans h₂)
  exact ⟨congrArg LdkUserInfo.ldkPeerListeningPort (hinfo "").1,
    congrArg LdkUserInfo.dnsBootstrap (hinfo "").1⟩

/-- **WHICH SECTIONS DEFAULT**: for every accepted file, leaving an optional section
    out is the same as leaving it empty exactly for `rapid_gossip_sync`. -/
theorem omitted_section_is_default_iff
    (h : load E ldkDataDir (configDir t json) = .ok config) (sec : OptionalSection) :
    SameNode E ldkDataDir (configDir (setField sec.key none t) json)
        (configDir (setField sec.key (some (.table [])) t) json) ↔
      sec = .rapidGossipSync := by
  have homitted := load_omitted h sec
  have hempty := load_leftEmpty h sec
  constructor
  · intro hsame
    obtain ⟨hport, hdns⟩ := sameNode_fields hsame homitted hempty
    cases sec with
    | ldk =>
        -- the default of the type against that of the field
        have hport' : (0 : UInt16) = 9735 := hport
        exact absurd hport' (by decide)
    | rapidGossipSync => rfl
    | dnsBootstrap => exact nomatch hdns
  · rintro rfl
    exact ⟨_, _, homitted, hempty, fun _ => ⟨rfl, rfl⟩⟩

/-- A platform that takes any address and makes both managers. -/
def readyPlatform : Platform String :=
  ⟨some, fun _ => "", fun _ => true, fun _ => true⟩

/-- A file with the required section only. -/
private def minimalToml : Table :=
  [("bitcoind", .table [("rpc_host", .string "127.0.0.1"), ("rpc_port", .integer 8332),
    ("rpc_username", .string "user"), ("rpc_password", .string "pass")])]

/-- What it reads as: port 0, since `[ldk]` is missing as a whole. -/
private def minimalConfig : NodeConfig :=
  ⟨⟨"127.0.0.1", 8332, "user", "pass"⟩, "testnet", ⟨0, none, []⟩, ⟨true, none, 6⟩, none, none⟩

private theorem load_minimal :
    load readyPlatform ".ldk" (configDir minimalToml false) = .ok minimalConfig := rfl

/-- The smallest file gives the same node with and without an empty `[rapid_gossip_sync]`. -/
theorem omitted_section_is_default_iff_minimal :
    SameNode readyPlatform ".ldk"
        (configDir (setField "rapid_gossip_sync" none minimalToml) false)
        (configDir (setField "rapid_gossip_sync" (some (.table [])) minimalToml) false) ↔
      OptionalSection.rapidGossipSync = .rapidGossipSync :=
  omitted_section_is_default_iff load_minimal .rapidGossipSync

/-- Without the section `ldk` the node listens on port 0 and not on 9735, and without
    the section `dns_bootstrap` it does not bootstrap. -/
theorem omitted_sections_differ :
    ¬ SameNode readyPlatform ".ldk" (configDir minimalToml false)
        (configDir (("ldk", .table []) :: minimalToml) false) ∧
    ¬ SameNode readyPlatform ".ldk" (configDir minimalToml false)
        (configDir (("dns_bootstrap", .table []) :: minimalToml) false) := by
  constructor
  · intro hsame
    have hldk : load readyPlatform ".ldk" (configDir (("ldk", .table []) :: minimalToml) false)
        = .ok { minimalConfig with ldk := ⟨9735, none, []⟩ } := rfl
    exact absurd (sameNode_fields hsame load_minimal hldk).1 (by decide)
  · intro hsame
    have hdns : load readyPlatform ".ldk"
          (configDir (("dns_bootstrap", .table []) :: minimalToml) false)
        = .ok { minimalConfig with dnsBootstrap := some dnsBootstrapDefault } := rfl
    exact nomatch (sameNode_fields hsame load_minimal hdns).2

end SectionDefault

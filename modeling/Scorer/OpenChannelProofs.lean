import Scorer.KeyTextProofs
import Scorer.PaymentAgreedProofs

/-! # What `openchannel` opens

    The command reads a peer, an amount and flags.  A peer without an address must be
    connected; one with an address is connected to, before the amount and the flags
    are read.

    * `openchannel` follows the source and lists what the command does, in order;
    * `WellFormed`: the lines that name a channel to open;
    * `calls_of_reaches`, `reaches_of_calls`: the lines that `create_channel` is called
      for, and with what;
    * `opens_well_formed_iff`: only these open one, exactly when a line that gets as far
      as the flags has no second `@` and no unknown flag. -/

namespace OpenChannel

open KeyText PaymentAgreed

/-! ## What the command does -/

/-- The fields of `UserConfig` that `open_channel` sets; the others are the defaults. -/
structure UserConfig where
  theirToSelfDelay              : UInt16
  announceForForwarding         : Bool
  negotiateAnchorsZeroFeeHtlcTx : Bool
  deriving DecidableEq, Repr

/-- The arguments of `ChannelManager::create_channel`. -/
structure CreateChannel (P : Type) where
  theirNetworkKey      : P
  channelValueSatoshis : UInt64
  pushMsat             : UInt64
  userChannelId        : BitVec 128
  temporaryChannelId   : Option (Vector UInt8 32)
  overrideConfig       : Option UserConfig
  deriving DecidableEq, Repr

/-- What an awaited connection brings at a turn of the loop of `do_connect_peer`: it is
    closed, or the sleep ends and the peer is connected or not. -/
inductive Tick where
  | closed
  | slept (connected : Bool)
  deriving DecidableEq, Repr

/-- What the node, the resolver and the network answer.  The turns of a connection are
    those of the run so far. -/
structure Node (P A : Type) where
  fromSlice       : List UInt8 → Option P
  resolve         : String → UInt16 → Option (List A)
  peerByNodeId    : P → Bool
  connectOutbound : P → A → Option (List Tick)
  createChannel   : CreateChannel P → Except String Unit
  display         : P → String

/-- What a command does to the outside. -/
inductive Effect (P A : Type) where
  | print (text : String)
  | connectOutbound (pubkey : P) (peerAddr : A)
  | createChannel (call : CreateChannel P)
  deriving DecidableEq, Repr

/-- `user_err!`. -/
def userErr {P A : Type} (msg : String) : Effect P A := .print ("\nERROR: " ++ msg)

/-- The errors of the functions that the command calls. -/
inductive CliError where
  | invalidPeerInfoFormat
  | peerAddressResolution (peerAddrStr : String)
  | invalidPubkey
  | peerConnectionFailed
  | connectionClosed
  | channelOpenFailed (reason : String)

/-- The texts of `CliError`, as `thiserror` prints them. -/
def CliError.text : CliError → String
  | .invalidPeerInfoFormat => "incorrectly formatted peer info, expected `pubkey@host:port`"
  | .peerAddressResolution peerAddrStr =>
      "could not resolve `" ++ peerAddrStr ++ "` to a socket address"
  | .invalidPubkey => "unable to parse peer public key"
  | .peerConnectionFailed => "failed to connect to peer"
  | .connectionClosed => "connection closed before peer handshake completed"
  | .channelOpenFailed reason => "failed to open channel: " ++ reason

/-- The errors of `net::peer`. -/
inductive ConnectError where
  | connectionFailed
  | connectionClosed

/-- `From<ConnectError>`: a command reports the errors of `net::peer` as its own. -/
def CliError.ofConnectError : ConnectError → CliError
  | .connectionFailed => .peerConnectionFailed
  | .connectionClosed => .connectionClosed

section Source

variable {P A : Type} (node : Node P A)

/-- `str::parse::<u16>`. -/
def parseU16 (content : String) : Option UInt16 :=
  (parseU64 content).bind fun port =>
    if port.toNat < 2 ^ 16 then some (UInt16.ofNat port.toNat) else none

/-- `str::to_socket_addrs`; an address that is written out is a host that `resolve`
    knows. -/
def toSocketAddrs (text : String) : Option (List A) :=
  (rsplitOnce ':' text).bind fun (host, port) => (parseU16 port).bind (node.resolve host)

/-- `parse_peer_info`. -/
def parsePeerInfo (peerPubkeyAndIpAddr : String) : Except CliError (P × A) :=
  let pubkeyAndAddr := split '@' peerPubkeyAndIpAddr
  match pubkeyAndAddr[0]?, pubkeyAndAddr[1]? with
  | some pubkeyStr, some peerAddrStr =>
      match (toSocketAddrs node peerAddrStr).bind List.head? with
      | none => .error (.peerAddressResolution peerAddrStr)
      | some peerAddr =>
          match toCompressedPubkey node.fromSlice pubkeyStr with
          | none => .error .invalidPubkey
          | some pubkey => .ok (pubkey, peerAddr)
  | _, _ => .error .invalidPeerInfoFormat

/-- The loop of `do_connect_peer`; `none` while it waits. -/
def awaitHandshake : List Tick → Option (Except ConnectError Unit)
  | [] => none
  | .closed :: _ => some (.error .connectionClosed)
  | .slept connected :: rest => if connected then some (.ok ()) else awaitHandshake rest

/-- `do_connect_peer`. -/
def doConnectPeer (pubkey : P) (peerAddr : A) : Option (Except ConnectError Unit) :=
  match node.connectOutbound pubkey peerAddr with
  | some ticks => awaitHandshake ticks
  | none => some (.error .connectionFailed)

/-- `connect_peer_if_necessary`. -/
def connectPeerIfNecessary (pubkey : P) (peerAddr : A) :
    List (Effect P A) × Option (Except ConnectError Unit) :=
  if node.peerByNodeId pubkey then ([], some (.ok ()))
  else ([.connectOutbound pubkey peerAddr], doConnectPeer node pubkey peerAddr)

/-- `open_channel`. -/
def openChannel (peerPubkey : P) (channelAmtSat : UInt64)
    (announceForForwarding withAnchors : Bool) : List (Effect P A) × Except CliError Unit :=
  let config : UserConfig :=
    { theirToSelfDelay := 2016
      announceForForwarding
      negotiateAnchorsZeroFeeHtlcTx := withAnchors }
  let call := ⟨peerPubkey, channelAmtSat, 0, 0, none, some config⟩
  match node.createChannel call with
  | .ok () =>
      let event := "EVENT: initiated channel with peer " ++ node.display peerPubkey ++ ". "
      ([.createChannel call, .print event], .ok ())
  | .error e => ([.createChannel call], .error (.channelOpenFailed e))

/-- The loop over the words after the amount.  The `continue` of its last branch goes to
    the next word, not to the next command. -/
def readFlags : List String → Bool → Bool → List (Effect P A) × Bool × Bool
  | [], announceChannel, withAnchors => ([], announceChannel, withAnchors)
  | word :: words, announceChannel, withAnchors =>
      match word with
      | "--public" | "--public=true" => readFlags words true withAnchors
      | "--public=false" => readFlags words false withAnchors
      | "--with-anchors" | "--with-anchors=true" => readFlags words announceChannel true
      | "--with-anchors=false" => readFlags words announceChannel false
      | _ =>
          let (effects, flags) := readFlags words announceChannel withAnchors
          (userErr ("invalid boolean flag format. Valid formats: " ++
            "`--option`, `--option=true` `--option=false`") :: effects, flags)

/-- The command from the amount on. -/
def openWith (pubkey : P) (channelValueSat : String) (words : List String) :
    List (Effect P A) :=
  match parseU64 channelValueSat with
  | none => [userErr "channel amount must be a number"]
  | some chanAmtSat =>
      let (effects, announceChannel, withAnchors) := readFlags words false false
      let (opened, result) := openChannel node pubkey chanAmtSat announceChannel withAnchors
      effects ++ opened ++
        match result with
        | .ok () => []
        | .error e => [userErr e.text]

/-- The branch `"openchannel"`, with the words after it. -/
def openchannel : List String → List (Effect P A)
  | peerPubkeyAndIpAddr :: channelValueSat :: words =>
      let pubkeyAndAddr := split '@' peerPubkeyAndIpAddr
      match toCompressedPubkey node.fromSlice (pubkeyAndAddr[0]?.getD "") with
      | none => [userErr "unable to parse given pubkey for node"]
      | some pubkey =>
          if pubkeyAndAddr[1]?.isNone then
            if node.peerByNodeId pubkey then openWith node pubkey channelValueSat words
            else [.print "ERROR: Peer address not provided and peer is not connected"]
          else
            match parsePeerInfo node peerPubkeyAndIpAddr with
            | .error e => [userErr e.text]
            | .ok (peerPubkey, peerAddr) =>
                let (effects, result) := connectPeerIfNecessary node peerPubkey peerAddr
                effects ++
                  match result with
                  | none => []
                  | some (.error e) => [userErr (CliError.ofConnectError e).text]
                  -- the key of the outer block, not the one that `parse_peer_info` read
                  | some (.ok ()) => openWith node pubkey channelValueSat words
  | _ =>
      [userErr ("openchannel has 2 required arguments: " ++
        "`openchannel pubkey@host:port channel_amt_satoshis` [--public] [--with-anchors]")]

/-- A line at the prompt; `others` are the other commands. -/
def readCommand (others : String → List String → List (Effect P A)) (line : String) :
    List (Effect P A) :=
  match splitWhitespace line with
  | [] => []
  | word :: words => if word = "openchannel" then openchannel node words else others word words

end Source

/-! ## Lines that name a channel -/

/-- The calls of `create_channel` among what a command does. -/
def calls {P A : Type} (effects : List (Effect P A)) : List (CreateChannel P) :=
  effects.filterMap fun
    | .createChannel call => some call
    | _ => none

/-- The spellings of a flag. -/
def flagSpellings : List String :=
  ["--public", "--public=true", "--public=false",
    "--with-anchors", "--with-anchors=true", "--with-anchors=false"]

/-- What a word says of the first flag. -/
def namesPublic : String → Option Bool
  | "--public" | "--public=true" => some true
  | "--public=false" => some false
  | _ => none

/-- What it says of the second. -/
def namesAnchors : String → Option Bool
  | "--with-anchors" | "--with-anchors=true" => some true
  | "--with-anchors=false" => some false
  | _ => none

/-- What the last flag that names a boolean says. -/
def lastNamed (names : String → Option Bool) (flags : List String) : Bool :=
  (flags.filterMap names).getLast?.getD false

/-- The channel that a well-formed line asks for. -/
def channelFor {P : Type} (key : P) (amount : UInt64) (flags : List String) :
    CreateChannel P :=
  { theirNetworkKey := key
    channelValueSatoshis := amount
    pushMsat := 0
    userChannelId := 0
    temporaryChannelId := none
    overrideConfig := some
      { theirToSelfDelay := 2016
        announceForForwarding := lastNamed namesPublic flags
        negotiateAnchorsZeroFeeHtlcTx := lastNamed namesAnchors flags } }

section Form

variable {P A : Type} (node : Node P A)

/-- The text is the key in 66 hexadecimal digits. -/
def IsKey (text : String) (key : P) : Prop :=
  (asBytes text).length = 66 ∧ (∀ c ∈ asBytes text, (hexDigit c).isSome) ∧
    (toVec text).bind node.fromSlice = some key

/-- The peer is connected, or the connection to it gets through the handshake. -/
def Connects (key : P) (addr : A) : Prop :=
  node.peerByNodeId key = true ∨
    ∃ before after, node.connectOutbound key addr = some (before ++ .slept true :: after) ∧
      ∀ tick ∈ before, tick = .slept false

/-- The two forms of a peer. -/
inductive NamesPeer (peer : String) (key : P) : Prop where
  | connected :
      IsKey node peer key → node.peerByNodeId key = true → NamesPeer peer key
  | address (pubkey host port : String) (portNumber : UInt16) (addr : A) (addrs : List A) :
      peer = pubkey ++ "@" ++ (host ++ ":" ++ port) → peer.toList.count '@' = 1 →
      IsKey node pubkey key → parseU16 port = some portNumber →
      node.resolve host portNumber = some (addr :: addrs) → Connects node key addr →
      NamesPeer peer key

/-- `openchannel PEER AMOUNT FLAG*`. -/
def WellFormed (line : String) (key : P) (amount : UInt64) (flags : List String) : Prop :=
  ∃ peer amountText,
    splitWhitespace line = "openchannel" :: peer :: amountText :: flags ∧
      NamesPeer node peer key ∧ parseU64 amountText = some amount ∧
      ∀ flag ∈ flags, flag ∈ flagSpellings

/-- A channel is opened for a well-formed line only, and then once, as the line says. -/
def OpensWellFormed (others : String → List String → List (Effect P A)) (line : String) :
    Prop :=
  (calls (readCommand node others line) ≠ [] ↔
      ∃ key amount flags, WellFormed node line key amount flags) ∧
    ∀ key amount flags, WellFormed node line key amount flags →
      calls (readCommand node others line) = [channelFor key amount flags]

/-- The command gets past the peer with this key.  It reads the parts before and after
    the first `@`, and no other. -/
def Reaches (peer : String) (key : P) : Prop :=
  toCompressedPubkey node.fromSlice ((split '@' peer)[0]?.getD "") = some key ∧
    match (split '@' peer)[1]? with
    | none => node.peerByNodeId key = true
    | some addrText =>
        ∃ addr addrs, toSocketAddrs node addrText = some (addr :: addrs) ∧
          Connects node key addr

end Form

/-! ## Flags -/

/-- The loop over the flags calls nothing, and each boolean is what the last flag that
    names it says. -/
theorem readFlags_reads {P A : Type} (words : List String) (announceChannel withAnchors : Bool) :
    calls (readFlags (P := P) (A := A) words announceChannel withAnchors).1 = [] ∧
      (readFlags (P := P) (A := A) words announceChannel withAnchors).2 =
        ((words.filterMap namesPublic).getLast?.getD announceChannel,
          (words.filterMap namesAnchors).getLast?.getD withAnchors) := by
  fun_induction readFlags (P := P) (A := A) words announceChannel withAnchors with
  | case1 => exact ⟨rfl, rfl⟩
  | case2 _ _ _ ih => simpa [namesPublic, namesAnchors, List.getLast?_cons] using ih
  | case3 _ _ _ ih => simpa [namesPublic, namesAnchors, List.getLast?_cons] using ih
  | case4 _ _ _ ih => simpa [namesPublic, namesAnchors, List.getLast?_cons] using ih
  | case5 _ _ _ ih => simpa [namesPublic, namesAnchors, List.getLast?_cons] using ih
  | case6 _ _ _ ih => simpa [namesPublic, namesAnchors, List.getLast?_cons] using ih
  | case7 _ _ _ ih => simpa [namesPublic, namesAnchors, List.getLast?_cons] using ih
  | case8 word words _ _ effects flags hrest _ _ _ _ _ _ ih =>
      have hpublic : namesPublic word = none := by simp [namesPublic, *]
      have hanchors : namesAnchors word = none := by simp [namesAnchors, *]
      rw [hrest] at ih
      rw [List.filterMap_cons_none hpublic, List.filterMap_cons_none hanchors]
      exact ih

/-! ## The peer -/

section Peer

variable {P A : Type} {node : Node P A} {peer : String} {key : P} {addr : A}

/-- The handshake is waited for while the peer is neither there nor gone. -/
theorem awaitHandshake_iff {ticks : List Tick} :
    awaitHandshake ticks = some (.ok ()) ↔
      ∃ before after : List Tick, ticks = before ++ .slept true :: after ∧
        ∀ tick ∈ before, tick = .slept false := by
  constructor
  · intro h
    induction ticks with
    | nil => exact nomatch h
    | cons tick rest ih =>
        cases tick with
        | closed => exact nomatch h
        | slept connected =>
            cases connected with
            | true => exact ⟨[], rest, rfl, by rintro _ ⟨⟩⟩
            | false =>
                obtain ⟨before, after, rfl, hbefore⟩ := ih h
                refine ⟨.slept false :: before, after, rfl, ?_⟩
                exact List.forall_mem_cons.mpr ⟨rfl, hbefore⟩
  · rintro ⟨before, after, rfl, hbefore⟩
    induction before with
    | nil => rfl
    | cons tick before ih =>
        obtain ⟨rfl, htail⟩ := List.forall_mem_cons.mp hbefore
        exact ih htail

/-- When there is a connection in the end. -/
theorem connectPeerIfNecessary_iff :
    (connectPeerIfNecessary node key addr).2 = some (.ok ()) ↔ Connects node key addr := by
  rw [connectPeerIfNecessary, Connects]
  by_cases hconnected : node.peerByNodeId key = true
  · rw [if_pos hconnected]
    exact iff_of_true rfl (.inl hconnected)
  · rw [if_neg hconnected, or_iff_right hconnected, doConnectPeer]
    cases node.connectOutbound key addr with
    | none => exact iff_of_false (by rintro ⟨⟩) (by rintro ⟨_, _, ⟨⟩, -⟩)
    | some ticks =>
        simp only [Option.some.injEq]
        exact awaitHandshake_iff

theorem connectPeerIfNecessary_calls :
    calls (connectPeerIfNecessary node key addr).1 = [] := by
  rw [connectPeerIfNecessary]
  split <;> rfl

/-- With a key before the first `@`, only the address can be wrong. -/
theorem parsePeerInfo_eq {addrText : String}
    (hkey : toCompressedPubkey node.fromSlice ((split '@' peer)[0]?.getD "") = some key)
    (haddr : (split '@' peer)[1]? = some addrText) :
    parsePeerInfo node peer =
      match (toSocketAddrs node addrText).bind List.head? with
      | none => .error (.peerAddressResolution addrText)
      | some peerAddr => .ok (key, peerAddr) := by
  rw [parsePeerInfo]
  cases hparts : split '@' peer with
  | nil =>
      rw [hparts] at haddr
      exact nomatch haddr
  | cons pubkeyStr rest =>
      rw [hparts] at hkey haddr
      replace hkey : toCompressedPubkey node.fromSlice pubkeyStr = some key := hkey
      simp only [haddr, List.getElem?_cons_zero, hkey]

/-- A key in hexadecimal, as the decoder has it. -/
theorem isKey_iff {text : String} :
    IsKey node text key ↔ toCompressedPubkey node.fromSlice text = some key :=
  toCompressedPubkey_iff.symm

theorem colon_notMem_port {port : String} {portNumber : UInt16}
    (h : parseU16 port = some portNumber) : ':' ∉ port.toList := by
  obtain ⟨number, hnumber, -⟩ := Option.bind_eq_some_iff.mp h
  have hcolon : ¬ Char.isDigit ':' := by decide
  intro hmem
  rw [parseU64] at hnumber
  by_cases hplus : port.toList.head? = some '+'
  · obtain ⟨tail, htail⟩ := List.head?_eq_some_iff.mp hplus
    have hdigits : ':' ∈ tail := by
      rw [htail, List.mem_cons] at hmem
      exact hmem.resolve_left (by decide)
    simp only [htail, List.head?_cons, if_true, List.tail_cons] at hnumber
    rw [if_pos (.inr fun hall => hcolon (List.all_eq_true.mp hall _ hdigits))] at hnumber
    exact nomatch hnumber
  · simp only [hplus, if_false] at hnumber
    rw [if_pos (.inr fun hall => hcolon (List.all_eq_true.mp hall _ hmem))] at hnumber
    exact nomatch hnumber

/-- An address is cut at its last colon. -/
theorem toSocketAddrs_eq_some {text : String} {addrs : List A} :
    toSocketAddrs node text = some addrs ↔
      ∃ host port portNumber, text = host ++ ":" ++ port ∧
        parseU16 port = some portNumber ∧ node.resolve host portNumber = some addrs := by
  constructor
  · intro h
    obtain ⟨⟨host, port⟩, hcut, h⟩ := Option.bind_eq_some_iff.mp h
    obtain ⟨portNumber, hport, haddrs⟩ := Option.bind_eq_some_iff.mp h
    have htext := rsplitOnce_text hcut
    exact ⟨host, port, portNumber, htext, hport, haddrs⟩
  · rintro ⟨host, port, portNumber, rfl, hport, haddrs⟩
    have hcut : rsplitOnce ':' (host ++ ":" ++ port) = some (host, port) :=
      rsplitOnce_append (colon_notMem_port hport)
    rw [toSocketAddrs, hcut]
    simp only [Option.bind_some, hport, haddrs]

/-- A peer that is named properly is reached. -/
theorem reaches_of_namesPeer (h : NamesPeer node peer key) : Reaches node peer key := by
  cases h with
  | connected hkey hconnected =>
      have hparts : split '@' peer = [peer] := split_one (at_notMem_digits hkey.2.1)
      rw [Reaches, hparts]
      exact ⟨isKey_iff.mp hkey, hconnected⟩
  | address pubkey host port portNumber addr addrs htext hone hkey hport haddr hconnects =>
      have hpubkey : '@' ∉ pubkey.toList := at_notMem_digits hkey.2.1
      have hrest : '@' ∉ (host ++ ":" ++ port).toList := by
        rw [htext] at hone
        have hcount : _ + (_ + 1) = 1 := count_join.symm.trans hone
        exact List.count_eq_zero.mp (by omega)
      have hparts : split '@' peer = [pubkey, host ++ ":" ++ port] := by
        rw [htext]
        exact (split_append hpubkey).trans (congrArg _ (split_one hrest))
      rw [Reaches, hparts]
      exact ⟨isKey_iff.mp hkey, addr, addrs,
        toSocketAddrs_eq_some.mpr ⟨host, port, portNumber, rfl, hport, haddr⟩, hconnects⟩

/-- Without a second `@` the command reads the whole peer. -/
theorem namesPeer_of_reaches (h : Reaches node peer key) (hone : peer.toList.count '@' ≤ 1) :
    NamesPeer node peer key := by
  by_cases hat : '@' ∈ peer.toList
  · obtain ⟨pubkey, addrText, rfl, hpubkey⟩ := eq_append_of_mem hat
    rw [count_join] at hone
    have haddrText : '@' ∉ addrText.toList := List.count_eq_zero.mp (by omega)
    rw [Reaches, split_append hpubkey, split_one haddrText] at h
    obtain ⟨hkey, addr, addrs, haddrs, hconnects⟩ := h
    obtain ⟨host, port, portNumber, rfl, hport, haddr⟩ := toSocketAddrs_eq_some.mp haddrs
    refine .address pubkey host port portNumber addr addrs rfl ?_ (isKey_iff.mpr hkey) hport
      haddr hconnects
    rw [count_join, List.count_eq_zero.mpr hpubkey, List.count_eq_zero.mpr haddrText]
  · rw [Reaches, split_one hat] at h
    exact .connected (isKey_iff.mpr h.1) h.2

theorem namesPeer_count (h : NamesPeer node peer key) : peer.toList.count '@' ≤ 1 := by
  cases h with
  | connected hkey hconnected =>
      have hnone : peer.toList.count '@' = 0 := List.count_eq_zero.mpr (at_notMem_digits hkey.2.1)
      omega
  | address _ _ _ _ _ _ _ hone => exact hone.le

/-! ## The calls -/

theorem calls_append (first second : List (Effect P A)) :
    calls (first ++ second) = calls first ++ calls second :=
  List.filterMap_append

/-- Opening makes one call, with these arguments. -/
theorem calls_openChannel {amount : UInt64} {announce anchors : Bool} :
    calls (openChannel node key amount announce anchors).1 =
      [⟨key, amount, 0, 0, none, some ⟨2016, announce, anchors⟩⟩] := by
  rw [openChannel]
  split <;> rfl

/-- The amount is read before the flags. -/
theorem calls_openWith {channelValueSat : String} {words : List String} {amount : UInt64}
    (hamount : parseU64 channelValueSat = some amount) :
    calls (openWith node key channelValueSat words) = [channelFor key amount words] := by
  obtain ⟨hprinted, hflags⟩ := readFlags_reads (P := P) (A := A) words false false
  rw [openWith, hamount]
  rcases hread : readFlags (P := P) (A := A) words false false with ⟨effects, announce, anchors⟩
  rw [hread] at hprinted hflags
  obtain ⟨rfl, rfl⟩ := Prod.mk.inj hflags
  simp only
  rw [calls_append, calls_append, hprinted, calls_openChannel]
  split <;> rfl

/-- Without an amount there is no call. -/
theorem calls_openWith_none {channelValueSat : String} {words : List String}
    (hamount : parseU64 channelValueSat = none) :
    calls (openWith node key channelValueSat words) = [] := by
  rw [openWith, hamount]
  rfl

/-- A peer that is reached leads to the amount. -/
theorem openchannel_reaches {channelValueSat : String} {words : List String}
    (h : Reaches node peer key) :
    calls (openchannel node (peer :: channelValueSat :: words)) =
      calls (openWith node key channelValueSat words) := by
  obtain ⟨hkey, haddr⟩ := h
  rw [openchannel, hkey]
  cases hpart : (split '@' peer)[1]? with
  | none =>
      rw [hpart] at haddr
      simp only [Option.isNone_none, if_true]
      rw [if_pos haddr]
  | some addrText =>
      rw [hpart] at haddr
      obtain ⟨addr, addrs, hresolve, hconnects⟩ := haddr
      simp only [Option.isNone_some, Bool.false_eq_true, if_false]
      rw [parsePeerInfo_eq hkey hpart, hresolve]
      simp only [Option.bind_some, List.head?_cons]
      rw [calls_append, connectPeerIfNecessary_calls,
        connectPeerIfNecessary_iff.mpr hconnects, List.nil_append]

/-- One that is not leads to no call. -/
theorem openchannel_not_reaches {channelValueSat : String} {words : List String}
    (h : ∀ key, ¬ Reaches node peer key) :
    calls (openchannel node (peer :: channelValueSat :: words)) = [] := by
  rw [openchannel]
  cases hkey : toCompressedPubkey node.fromSlice ((split '@' peer)[0]?.getD "") with
  | none => rfl
  | some key =>
      have hnot := h key
      rw [Reaches, not_and] at hnot
      replace hnot := hnot hkey
      cases hpart : (split '@' peer)[1]? with
      | none =>
          rw [hpart] at hnot
          simp only [Option.isNone_none, if_true]
          rw [if_neg hnot]
          rfl
      | some addrText =>
          rw [hpart] at hnot
          simp only [Option.isNone_some, Bool.false_eq_true, if_false]
          rw [parsePeerInfo_eq hkey hpart]
          rcases hresolve : toSocketAddrs node addrText with _ | ⟨_ | ⟨addr, addrs⟩⟩
          · rfl
          · rfl
          · simp only [Option.bind_some, List.head?_cons]
            rw [calls_append, connectPeerIfNecessary_calls, List.nil_append]
            rcases hresult : (connectPeerIfNecessary node key addr).2 with _ | ⟨e | ⟨⟩⟩
            · rfl
            · rfl
            · exact absurd ⟨addr, addrs, hresolve, connectPeerIfNecessary_iff.mp hresult⟩ hnot

/-! ## Lines -/

variable {others : String → List String → List (Effect P A)} {line amountText : String}
  {flags : List String} {amount : UInt64}

/-- The line goes to the command by its first word. -/
theorem readCommand_openchannel {words : List String}
    (h : splitWhitespace line = "openchannel" :: words) :
    readCommand node others line = openchannel node words := by
  simp only [readCommand, h, if_true]

/-- The one call of a line whose peer is reached. -/
theorem calls_of_reaches
    (hwords : splitWhitespace line = "openchannel" :: peer :: amountText :: flags)
    (hpeer : Reaches node peer key) (hamount : parseU64 amountText = some amount) :
    calls (readCommand node others line) = [channelFor key amount flags] := by
  rw [readCommand_openchannel hwords, openchannel_reaches hpeer, calls_openWith hamount]

/-- Nothing else calls `create_channel`. -/
theorem reaches_of_calls (hfirst : (splitWhitespace line).head? = some "openchannel")
    (h : calls (readCommand node others line) ≠ []) :
    ∃ peer amountText flags key amount,
      splitWhitespace line = "openchannel" :: peer :: amountText :: flags ∧
        Reaches node peer key ∧ parseU64 amountText = some amount := by
  obtain ⟨words, hwords⟩ := List.head?_eq_some_iff.mp hfirst
  rw [readCommand_openchannel hwords] at h
  match words with
  | [] => exact absurd rfl h
  | [_] => exact absurd rfl h
  | peer :: amountText :: flags =>
      by_cases hpeer : ∃ key, Reaches node peer key
      · obtain ⟨key, hpeer⟩ := hpeer
        rw [openchannel_reaches hpeer] at h
        cases hamount : parseU64 amountText with
        | none => exact absurd (calls_openWith_none hamount) h
        | some amount => exact ⟨peer, amountText, flags, key, amount, hwords, hpeer, hamount⟩
      · exact absurd (openchannel_not_reaches (not_exists.mp hpeer)) h

/-- The one call of a line as the help describes it. -/
theorem calls_of_wellFormed (h : WellFormed node line key amount flags) :
    calls (readCommand node others line) = [channelFor key amount flags] := by
  obtain ⟨peer, amountText, hwords, hpeer, hamount, -⟩ := h
  exact calls_of_reaches hwords (reaches_of_namesPeer hpeer) hamount

/-- **ONLY WELL-FORMED LINES OPEN A CHANNEL**, exactly when the command, where it gets
    past the peer and the amount, is given no second `@` and no unknown flag. -/
theorem opens_well_formed_iff
    (hfirst : (splitWhitespace line).head? = some "openchannel") :
    OpensWellFormed node others line ↔
      ∀ peer amountText flags key,
        splitWhitespace line = "openchannel" :: peer :: amountText :: flags →
        Reaches node peer key → (parseU64 amountText).isSome →
        peer.toList.count '@' ≤ 1 ∧ ∀ flag ∈ flags, flag ∈ flagSpellings := by
  constructor
  · rintro ⟨hopens, -⟩ peer amountText flags key hwords hpeer hamount
    obtain ⟨amount, hamount⟩ := Option.isSome_iff_exists.mp hamount
    have hcalls : calls (readCommand node others line) ≠ [] := by
      rw [calls_of_reaches hwords hpeer hamount]
      exact List.cons_ne_nil _ _
    obtain ⟨key', amount', flags', peer', amountText', hwords', hpeer', -, hflags⟩ :=
      hopens.mp hcalls
    obtain ⟨rfl, htail⟩ := List.cons.inj (List.cons.inj (hwords.symm.trans hwords')).2
    obtain ⟨rfl, rfl⟩ := List.cons.inj htail
    exact ⟨namesPeer_count hpeer', hflags⟩
  · intro hshape
    refine ⟨⟨?_, ?_⟩, fun _ _ _ h => calls_of_wellFormed h⟩
    · intro hcalls
      obtain ⟨peer, amountText, flags, key, amount, hwords, hpeer, hamount⟩ :=
        reaches_of_calls hfirst hcalls
      obtain ⟨hone, hflags⟩ := hshape peer amountText flags key hwords hpeer
        (Option.isSome_iff_exists.mpr ⟨amount, hamount⟩)
      exact ⟨key, amount, flags, peer, amountText, hwords, namesPeer_of_reaches hpeer hone,
        hamount, hflags⟩
    · rintro ⟨key, amount, flags, h⟩
      rw [calls_of_wellFormed h]
      exact List.cons_ne_nil _ _

end Peer

/-! ## A peer on the same host -/

/-- The key of a node at hand. -/
def localKey : String :=
  "02e89ca9e8da72b33d896bae51d20e7e1f0571cece852d1387b4e2f4ae48c80a85"

/-- A node without peers that gets through to one at its second try. -/
def localNode : Node (List UInt8) (String × UInt16) where
  fromSlice bytes :=
    if bytes.length = 33 ∧ (bytes.head? = some 0x02 ∨ bytes.head? = some 0x03) then some bytes
    else none
  resolve host port := if host = "127.0.0.1" then some [(host, port)] else none
  peerByNodeId _ := false
  connectOutbound _ _ := some [.slept false, .slept true]
  createChannel _ := .ok ()
  display _ := localKey

/-- A line that opens a channel to it. -/
def localLine (flag : String) : String :=
  "openchannel " ++ localKey ++ "@127.0.0.1:9735 100000 " ++ flag

theorem splitWhitespace_localLine_public :
    splitWhitespace (localLine "--public") =
      ["openchannel", localKey ++ "@127.0.0.1:9735", "100000", "--public"] := by
  decide +kernel

/-- With the flag `--public` the line is as described. -/
theorem opens_well_formed_iff_public :
    OpensWellFormed localNode (fun _ _ => []) (localLine "--public") := by
  refine (opens_well_formed_iff (by rw [splitWhitespace_localLine_public]; rfl)).mpr ?_
  intro peer amountText flags key hwords _ _
  rw [splitWhitespace_localLine_public] at hwords
  obtain ⟨rfl, htail⟩ := List.cons.inj (List.cons.inj hwords).2
  obtain ⟨rfl, rfl⟩ := List.cons.inj htail
  exact ⟨by decide +kernel, by decide⟩

/-- The words after the amount are wrong, a message says so, and the channel is opened. -/
theorem unknown_flag_opens :
    ¬ OpensWellFormed localNode (fun _ _ => []) (localLine "--publik") := by
  intro h
  have hsplit : splitWhitespace (localLine "--publik") =
      ["openchannel", localKey ++ "@127.0.0.1:9735", "100000", "--publik"] := by
    decide +kernel
  have hcalls : calls (readCommand localNode (fun _ _ => []) (localLine "--publik")) ≠ [] := by
    rw [readCommand_openchannel hsplit]
    decide +kernel
  obtain ⟨_, _, flags, peer, amountText, hwords, -, -, hflags⟩ := h.1.mp hcalls
  obtain ⟨-, htail⟩ := List.cons.inj (List.cons.inj (hsplit.symm.trans hwords)).2
  obtain ⟨-, rfl⟩ := List.cons.inj htail
  exact absurd (hflags "--publik" (List.mem_singleton_self _)) (by decide)

-- what follows a second `@` is not read
example : (calls (openchannel localNode
    [localKey ++ "@127.0.0.1:9735@x", "100000"])).length = 1 := by
  decide +kernel

end OpenChannel

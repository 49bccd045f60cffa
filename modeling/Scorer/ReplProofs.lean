import Scorer.FirstWordProofs
import Scorer.OpenChannelProofs

/-! # The commands of a session

    `poll_for_user_input` reads a line, runs the command that its first word names, and
    reads the next line where the command left off: the confirmation of an offer reads
    lines itself.

    * `readCommand`, `repl` follow the source, in surroundings that may change from one
      command to the next;
    * `Asks`: what a line asks for, by its words;
    * `readCommand_asks`: a command does exactly what its line asks for;
    * `session_as_typed`: over a whole session every line is read once, as a command or
      as an answer, and nothing is done but what the commands ask for. -/

namespace Repl

open KeyText OpenChannel PaymentAgreed PaymentSend PaymentStore SyncTimestamp

/-! ## Effects -/

/-- What cannot be taken back. -/
inductive Action (P A : Type) where
  | connectOutbound (pubkey : P) (peerAddr : A)
  | createChannel (call : CreateChannel P)
  | pay (invoiceStr : String) (plan : SendPlan)
  | keysend (destPubkey : P) (plan : SendPlan)
  | buildOffer (amtMsat : Option UInt64)
  | getInvoice (amtMsat : UInt64) (expirySecs : UInt32)
  | disconnectByNodeId (pubkey : P)
  | closeChannel (channelId : Vector UInt8 32) (counterpartyNodeId : P)
  | forceCloseBroadcastingLatestTxn (channelId : Vector UInt8 32) (counterpartyNodeId : P)
  | sign (message : List UInt8)

/-- A text that is printed, or an action. -/
inductive Effect (P A : Type) where
  | print (text : String)
  | act (action : Action P A)

/-- `user_err!`: the text after a line break. -/
def userErr {P A : Type} (msg : String) : Effect P A := .print ("\nERROR: " ++ msg)

/-- The effects of `openchannel` among those of all commands. -/
def ofOpenChannel {P A : Type} : OpenChannel.Effect P A → Effect P A
  | .print text => .print text
  | .connectOutbound pubkey peerAddr => .act (.connectOutbound pubkey peerAddr)
  | .createChannel call => .act (.createChannel call)

/-- What was done, without what was said. -/
def actions {P A : Type} (effects : List (Effect P A)) : List (Action P A) :=
  effects.filterMap fun
    | .act action => some action
    | .print _ => none

/-! ## Surroundings -/

/-- What a command finds: the node and the network, the parsers, the random bytes, the
    answers of the `ChannelManager`, and the texts of values and errors.  A connection
    that is awaited comes to an end. -/
structure Env (P A : Type) where
  node                            : Node P A
  parsers                         : Parsers
  sha256                          : Bytes32 → Bytes32
  randomBytes                     : Bytes32
  graph                           : List GraphNode
  publicKeyFromStr                : String → Except String P
  listChannels                    : List P
  closeChannel                    : Vector UInt8 32 → P → Except String Unit
  forceCloseBroadcastingLatestTxn : Vector UInt8 32 → P → Except String Unit
  createOfferBuilder              : Except String Unit
  buildOffer                      : Option UInt64 → Except String String
  sign                            : List UInt8 → String
  parseIntError                   : String → String
  invoiceError                    : String → String
  debugAmount                     : Option OfferAmount → String
  listing                         : String → String
  handshake_ends : ∀ pubkey peerAddr ticks,
    node.connectOutbound pubkey peerAddr = some ticks → (awaitHandshake ticks).isSome

/-- An item of the input: `Ok(Some(line))` or `Err(e)`; at its end comes `Ok(None)`. -/
inductive Input where
  | line (text : String)
  | error (e : String)
  deriving DecidableEq, Repr

/-- What a command did, what it read itself, what it left, and whether it ended the
    session. -/
structure Ran (P A : Type) where
  effects : List (Effect P A)
  answers : List Input
  rest    : List Input
  stopped : Bool

/-- A command that reads nothing itself. -/
def ran {P A : Type} (effects : List (Effect P A)) (input : List Input) : Ran P A :=
  ⟨effects, [], input, false⟩

/-! ## Commands -/

section Source

variable {P A : Type} (env : Env P A)

/-- The loop that asks for a confirmation: what it prints, what it reads, what is left,
    and the answer; `none` when the input is over. -/
def confirm (amtMsat : UInt64) :
    List Input → List (Effect P A) × List Input × List Input × Option Bool
  | [] => ([.print (question amtMsat), userErr "End of stdin"], [], [], none)
  | .error e :: rest => ([.print (question amtMsat), userErr e], [.error e], rest, none)
  | .line line :: rest =>
      if line.toList.head? = some 'Y' then
        ([.print (question amtMsat)], [.line line], rest, some true)
      else if line.toList.head? = some 'N' then
        ([.print (question amtMsat)], [.line line], rest, some false)
      else
        let (effects, answers, rest', answer) := confirm amtMsat rest
        (.print (question amtMsat) :: effects, .line line :: answers, rest', answer)
where
  question (amtMsat : UInt64) : String :=
    "Paying offer for " ++ toString amtMsat.toNat ++ " msat. Continue (Y/N)? >"

/-- The branch of an offer. -/
def offerCommand (invoiceStr : String) (offerAmount : Option OfferAmount)
    (userProvidedAmt : Option UInt64) (input : List Input) : Ran P A :=
  let pay (amtMsat : UInt64) : Effect P A := .act (.pay invoiceStr
    ⟨env.randomBytes, pendingInfo none amtMsat, .payForOffer amtMsat⟩)
  let agreed (amtMsat : UInt64) : Ran P A :=
    if userProvidedAmt.isSome ∧ userProvidedAmt ≠ some amtMsat then
      ran [.print ("Amount didn't match offer of " ++ toString amtMsat.toNat ++ "msat")] input
    else if userProvidedAmt.isNone then
      match confirm amtMsat input with
      | (effects, answers, rest, none) => ⟨effects, answers, rest, true⟩
      | (effects, answers, rest, some false) => ⟨effects, answers, rest, false⟩
      | (effects, answers, rest, some true) => ⟨effects ++ [pay amtMsat], answers, rest, false⟩
    else ran [pay amtMsat] input
  match offerAmount, userProvidedAmt with
  | some (.bitcoin amountMsats), _ => agreed amountMsats
  | _, some amt => agreed amt
  | amt, none =>
      ran [userErr ("Cannot process non-Bitcoin-denominated offer value " ++
        env.debugAmount amt)] input

/-- The branch of a human-readable name. -/
def nameCommand (invoiceStr : String) (userProvidedAmt : Option UInt64) (input : List Input) :
    Ran P A :=
  match userProvidedAmt with
  | none => ran [.print "Can't pay to a human-readable-name without an amount"] input
  | some amtMsat =>
      if (findDnsResolvers env.graph []).isEmpty then
        ran [.print ("Failed to find any DNS resolving nodes, " ++
          "check your network graph is synced")] input
      else
        ran [.act (.pay invoiceStr ⟨env.randomBytes, pendingInfo none amtMsat,
          .payForOfferFromHumanReadableName amtMsat⟩)] input

/-- `send_payment`, up to the record. -/
def invoiceCommand (invoiceStr : String) (invoice : Bolt11Invoice)
    (userProvidedAmt : Option UInt64) (input : List Input) : Ran P A :=
  match sendPayment invoice userProvidedAmt with
  | .ok plan => ran [.act (.pay invoiceStr plan)] input
  | .error (.invoiceAmountMismatch invoiceMsat) =>
      ran [userErr ("Amount didn't match invoice value of " ++ toString invoiceMsat.toNat ++
        "msat")] input
  | .error _ => ran [userErr "Need an amount to pay an amountless invoice"] input

/-- The branch `"sendpayment"`, after the amount has been read. -/
def sendCommand (invoiceStr : String) (userProvidedAmt : Option UInt64) (input : List Input) :
    Ran P A :=
  match env.parsers.offer invoiceStr with
  | some offerAmount => offerCommand env invoiceStr offerAmount userProvidedAmt input
  | none =>
      if env.parsers.humanReadableName invoiceStr then
        nameCommand env invoiceStr userProvidedAmt input
      else
        match env.parsers.invoice invoiceStr with
        | some invoice => invoiceCommand invoiceStr invoice userProvidedAmt input
        | none => ran [userErr ("invalid invoice: " ++ env.invoiceError invoiceStr)] input

/-- The branch `"sendpayment"`. -/
def sendpaymentCommand (words : List String) (input : List Input) : Ran P A :=
  match words with
  | [] =>
      ran [userErr ("sendpayment requires an invoice: " ++
        "`sendpayment <invoice> [amount_msat]`")] input
  | [invoiceStr] => sendCommand env invoiceStr none input
  | invoiceStr :: amtMsatStr :: _ =>
      match parseU64 amtMsatStr with
      | none => ran [userErr ("couldn't parse amount_msat: " ++ env.parseIntError amtMsatStr)] input
      | some amt => sendCommand env invoiceStr (some amt) input

/-- The branch `"keysend"`. -/
def keysendCommand (words : List String) : List (Effect P A) :=
  match words with
  | [] =>
      [userErr ("keysend requires a destination pubkey: " ++
        "`keysend <dest_pubkey> <amt_msat>`")]
  | dest :: words =>
      match toCompressedPubkey env.node.fromSlice dest with
      | none => [userErr "couldn't parse destination pubkey"]
      | some destPubkey =>
          match words with
          | [] =>
              [userErr ("keysend requires an amount in millisatoshis: " ++
                "`keysend <dest_pubkey> <amt_msat>`")]
          | amtMsatStr :: _ =>
              match parseU64 amtMsatStr with
              | none =>
                  [userErr ("couldn't parse amount_msat: " ++ env.parseIntError amtMsatStr)]
              | some amtMsat =>
                  [.act (.keysend destPubkey (keysend env.sha256 amtMsat env.randomBytes))]

/-- The branch `"getoffer"`; the offer that was built is printed and not recorded. -/
def getofferCommand (words : List String) : List (Effect P A) :=
  match env.createOfferBuilder with
  | .error e => [userErr ("Failed to initiate offer building: " ++ e)]
  | .ok () =>
      match words.head?.map parseU64 with
      | some none => [.print "ERROR: getoffer provided payment amount was not a number"]
      | some (some amtMsat) => build (some amtMsat)
      | none => build none
where
  build (amtMsat : Option UInt64) : List (Effect P A) :=
    [.act (.buildOffer amtMsat),
      match env.buildOffer amtMsat with
      | .error e => userErr ("Failed to build offer: " ++ e)
      | .ok offer => .print offer]

/-- The branch `"getinvoice"`; the record and its write follow the creation. -/
def getinvoiceCommand (words : List String) : List (Effect P A) :=
  match words with
  | [] => [userErr "getinvoice requires an amount in millisatoshis"]
  | amtStr :: words =>
      match parseU64 amtStr with
      | none => [userErr "getinvoice provided payment amount was not a number"]
      | some amtMsat =>
          match words with
          | [] => [userErr "getinvoice requires an expiry in seconds"]
          | expirySecsStr :: _ =>
              match parseU32 expirySecsStr.toList with
              | none => [userErr "getinvoice provided expiry was not a number"]
              | some expirySecs => [.act (.getInvoice amtMsat expirySecs)]

/-- The branch `"connectpeer"`. -/
def connectpeerCommand (words : List String) : List (Effect P A) :=
  match words with
  | [] =>
      [userErr ("connectpeer requires peer connection info: " ++
        "`connectpeer pubkey@host:port`")]
  | peerPubkeyAndIpAddr :: _ =>
      match parsePeerInfo env.node peerPubkeyAndIpAddr with
      | .error e => [userErr e.text]
      | .ok (pubkey, peerAddr) =>
          let (effects, result) := connectPeerIfNecessary env.node pubkey peerAddr
          effects.map ofOpenChannel ++
            match result with
            | none => []
            | some (.ok ()) => [.print ("SUCCESS: connected to peer " ++ env.node.display pubkey)]
            | some (.error e) => [userErr (CliError.ofConnectError e).text]

/-- `do_disconnect_peer`. -/
def doDisconnectPeer [DecidableEq P] (pubkey : P) : List (Effect P A) × Except String Unit :=
  if pubkey ∈ env.listChannels then
    ([], .error "node has an active channel with this peer, close channels first")
  else if env.node.peerByNodeId pubkey then ([.act (.disconnectByNodeId pubkey)], .ok ())
  else ([], .error ("could not find connected peer " ++ env.node.display pubkey))

/-- The branch `"disconnectpeer"`. -/
def disconnectpeerCommand [DecidableEq P] (words : List String) : List (Effect P A) :=
  match words with
  | [] =>
      [userErr ("disconnectpeer requires peer public key: " ++
        "`disconnectpeer <peer_pubkey>`")]
  | peerPubkey :: _ =>
      match env.publicKeyFromStr peerPubkey with
      | .error e => [userErr e]
      | .ok peerPubkey =>
          let (effects, result) := doDisconnectPeer env peerPubkey
          effects ++
            match result with
            | .ok () =>
                [.print ("SUCCESS: disconnected from peer " ++ env.node.display peerPubkey)]
            | .error e => [userErr e]

/-- The 32 bytes of a channel id. -/
def parseChannelId (channelIdStr : String) : Option (Vector UInt8 32) :=
  match toVec channelIdStr with
  | some v => if h : v.length = 32 then some ⟨v.toArray, by simpa using h⟩ else none
  | none => none

/-- What `"closechannel"` and `"forceclosechannel"` have in common: `name` is the word,
    and `close` what is done with the channel and the peer. -/
def closeCommand (name : String) (close : Vector UInt8 32 → P → List (Effect P A))
    (words : List String) : List (Effect P A) :=
  let usage := ": `" ++ name ++ " <channel_id> <peer_pubkey>`"
  match words with
  | [] => [userErr (name ++ " requires a channel ID" ++ usage)]
  | channelIdStr :: words =>
      match parseChannelId channelIdStr with
      | none => [userErr "couldn't parse channel_id"]
      | some channelId =>
          match words with
          | [] => [userErr (name ++ " requires a peer pubkey" ++ usage)]
          | peerPubkeyStr :: _ =>
              match (toVec peerPubkeyStr).bind env.node.fromSlice with
              | none => [userErr "couldn't parse peer_pubkey"]
              | some peerPubkey => close channelId peerPubkey

/-- `close_channel`. -/
def closeChannel (channelId : Vector UInt8 32) (counterpartyNodeId : P) : List (Effect P A) :=
  [.act (.closeChannel channelId counterpartyNodeId),
    match env.closeChannel channelId counterpartyNodeId with
    | .ok () => .print "EVENT: initiating channel close"
    | .error e => userErr ("failed to close channel: " ++ e)]

/-- `force_close_channel`. -/
def forceCloseChannel (channelId : Vector UInt8 32) (counterpartyNodeId : P) :
    List (Effect P A) :=
  [.act (.forceCloseBroadcastingLatestTxn channelId counterpartyNodeId),
    match env.forceCloseBroadcastingLatestTxn channelId counterpartyNodeId with
    | .ok () => .print "EVENT: initiating channel force-close"
    | .error e => userErr ("failed to force-close channel: " ++ e)]

/-- The branch `"signmessage"`; it slices the bytes of the trimmed line. -/
def signmessageCommand (line : String) : List (Effect P A) :=
  let bytes := asBytes (String.ofList (trim line.toList))
  if bytes.length ≤ 12 then [userErr "signmsg requires a message"]
  else [.act (.sign (bytes.drop 12)), .print (env.sign (bytes.drop 12))]

/-- The words that name a command. -/
inductive Command where
  | listing (word : String)
  | openchannel
  | sendpayment
  | keysend
  | getoffer
  | getinvoice
  | connectpeer
  | disconnectpeer
  | closechannel
  | forceclosechannel
  | signmessage
  | quit
  deriving DecidableEq, Repr

/-- The words of the `match`; the listings share an arm here. -/
def Command.ofWord : String → Option Command
  | "help" => some (.listing "help")
  | "openchannel" => some .openchannel
  | "sendpayment" => some .sendpayment
  | "keysend" => some .keysend
  | "getoffer" => some .getoffer
  | "getinvoice" => some .getinvoice
  | "connectpeer" => some .connectpeer
  | "disconnectpeer" => some .disconnectpeer
  | "listchannels" => some (.listing "listchannels")
  | "listpayments" => some (.listing "listpayments")
  | "closechannel" => some .closechannel
  | "forceclosechannel" => some .forceclosechannel
  | "nodeinfo" => some (.listing "nodeinfo")
  | "listclaimablebalances" => some (.listing "listclaimablebalances")
  | "listsweeperoutputs" => some (.listing "listsweeperoutputs")
  | "listpeers" => some (.listing "listpeers")
  | "signmessage" => some .signmessage
  | "quit" | "exit" => some .quit
  | _ => none

/-- The `match` on the first word. -/
def runCommand [DecidableEq P] (line : String) (words : List String) (input : List Input) :
    Option Command → Ran P A
  | some (.listing word) => ran [.print (env.listing word)] input
  | some .openchannel => ran ((openchannel env.node words).map ofOpenChannel) input
  | some .sendpayment => sendpaymentCommand env words input
  | some .keysend => ran (keysendCommand env words) input
  | some .getoffer => ran (getofferCommand env words) input
  | some .getinvoice => ran (getinvoiceCommand words) input
  | some .connectpeer => ran (connectpeerCommand env words) input
  | some .disconnectpeer => ran (disconnectpeerCommand env words) input
  | some .closechannel => ran (closeCommand env "closechannel" (closeChannel env) words) input
  | some .forceclosechannel =>
      ran (closeCommand env "forceclosechannel" (forceCloseChannel env) words) input
  | some .signmessage => ran (signmessageCommand env line) input
  | some .quit => ⟨[], [], input, true⟩
  | none => ran [.print "Unknown command. See `\"help\" for available commands."] input

/-- A line at the prompt, with the input after it. -/
def readCommand [DecidableEq P] (line : String) (input : List Input) : Ran P A :=
  match splitWhitespace line with
  | [] => ran [] input
  | word :: words => runCommand env line words input (Command.ofWord word)

end Source

/-! ## What a line asks for -/

/-- The lines among what was read. -/
def lines (answers : List Input) : List String :=
  answers.filterMap fun
    | .line text => some text
    | .error _ => none

section Asks

variable {P A : Type} (env : Env P A)

/-- The session of a `sendpayment` that read these answers, up to the record. -/
def sendSession (words : List String) (answers : List Input) : Session where
  words := words
  answers := lines answers
  randomBytes := env.randomBytes
  graph := env.graph
  meanwhile := []
  written := true
  accepted := true
  afterwards := []

/-- What a command with these words asks for, given the answers to its question. -/
inductive AsksFor (line : String) (answers : List Input) :
    Command → List String → Action P A → Prop where
  | connectFirst {peer amountText : String} {flags : List String} {key : P} {addr : A} :
      parsePeerInfo env.node peer = .ok (key, addr) → env.node.peerByNodeId key = false →
      AsksFor line answers .openchannel (peer :: amountText :: flags) (.connectOutbound key addr)
  | createChannel {peer amountText : String} {flags : List String} {key : P} {amount : UInt64} :
      Reaches env.node peer key → parseU64 amountText = some amount →
      AsksFor line answers .openchannel (peer :: amountText :: flags)
        (.createChannel (channelFor key amount flags))
  | pay {invoiceStr : String} {words : List String} {instrument : Instrument}
      {user : Option UInt64} {plan : SendPlan} :
      parseSendPayment env.parsers (invoiceStr :: words) = some (instrument, user) →
      planInstrument (sendSession env (invoiceStr :: words) answers) user instrument = .ok plan →
      AsksFor line answers .sendpayment (invoiceStr :: words) (.pay invoiceStr plan)
  | keysend {dest amtMsatStr : String} {words : List String} {key : P} {amtMsat : UInt64} :
      toCompressedPubkey env.node.fromSlice dest = some key →
      parseU64 amtMsatStr = some amtMsat →
      AsksFor line answers .keysend (dest :: amtMsatStr :: words)
        (.keysend key (PaymentSend.keysend env.sha256 amtMsat env.randomBytes))
  -- the amount is none where no word follows, and has to be a number where one does
  | offer {words : List String} {amtMsat : Option UInt64} :
      env.createOfferBuilder = .ok () → words.head?.map parseU64 = amtMsat.map some →
      AsksFor line answers .getoffer words (.buildOffer amtMsat)
  | getInvoice {amtStr expirySecsStr : String} {words : List String} {amtMsat : UInt64}
      {expirySecs : UInt32} :
      parseU64 amtStr = some amtMsat → parseU32 expirySecsStr.toList = some expirySecs →
      AsksFor line answers .getinvoice (amtStr :: expirySecsStr :: words)
        (.getInvoice amtMsat expirySecs)
  | connect {peer : String} {words : List String} {key : P} {addr : A} :
      parsePeerInfo env.node peer = .ok (key, addr) → env.node.peerByNodeId key = false →
      AsksFor line answers .connectpeer (peer :: words) (.connectOutbound key addr)
  | disconnect {peerPubkey : String} {words : List String} {key : P} :
      env.publicKeyFromStr peerPubkey = .ok key → key ∉ env.listChannels →
      env.node.peerByNodeId key = true →
      AsksFor line answers .disconnectpeer (peerPubkey :: words) (.disconnectByNodeId key)
  | close {channelIdStr peerPubkeyStr : String} {words : List String}
      {channelId : Vector UInt8 32} {bytes : List UInt8} {key : P} :
      toVec channelIdStr = some channelId.toList → toVec peerPubkeyStr = some bytes →
      env.node.fromSlice bytes = some key →
      AsksFor line answers .closechannel (channelIdStr :: peerPubkeyStr :: words)
        (.closeChannel channelId key)
  | forceClose {channelIdStr peerPubkeyStr : String} {words : List String}
      {channelId : Vector UInt8 32} {bytes : List UInt8} {key : P} :
      toVec channelIdStr = some channelId.toList → toVec peerPubkeyStr = some bytes →
      env.node.fromSlice bytes = some key →
      AsksFor line answers .forceclosechannel (channelIdStr :: peerPubkeyStr :: words)
        (.forceCloseBroadcastingLatestTxn channelId key)
  -- one byte is cut off with the word, whatever the white space between them is
  | sign {words : List String} {sep : Char} {message : List Char} :
      trim line.toList = "signmessage".toList ++ sep :: message → message ≠ [] →
      AsksFor line answers .signmessage words
        (.sign ((asBytes (String.ofList (sep :: message))).drop 1))

/-- The question of an offer that states its amount. -/
def HasQuestion (command : Command) (words : List String) : Prop :=
  command = .sendpayment ∧ ∃ amountMsats,
    parseSendPayment env.parsers words = some (.offer (some (.bitcoin amountMsats)), none)

/-- The commands after which nothing is read. -/
def Ends : Command → List String → List Input → Prop
  | .quit, _, _ => True
  | .sendpayment, words, answers => ∃ instrument user,
      parseSendPayment env.parsers words = some (instrument, user) ∧
        planInstrument (sendSession env words answers) user instrument = .error .endOfInput
  | _, _, _ => False

/-- A line whose first word is that of a command with this property. -/
def Names (line : String) (property : Command → List String → Prop) : Prop :=
  ∃ word words command, splitWhitespace line = word :: words ∧
    Command.ofWord word = some command ∧ property command words

/-- A line, with the answers given to it, asks for an action. -/
def Asks (line : String) (answers : List Input) (action : Action P A) : Prop :=
  Names line fun command words => AsksFor env line answers command words action

end Asks

/-! ## Commands, one by one -/

section Commands

variable {P A : Type} {env : Env P A} {line : String} {words : List String}
  {input : List Input} {action : Action P A}

theorem actions_append (first second : List (Effect P A)) :
    actions (first ++ second) = actions first ++ actions second :=
  List.filterMap_append

/-- A line that does not answer the question. -/
def PassedOver (item : Input) : Prop :=
  ∃ text, item = .line text ∧ text.toList.head? ≠ some 'Y' ∧ text.toList.head? ≠ some 'N'

/-- A confirmation reads lines until one of them is an answer. -/
theorem confirm_reads {amtMsat : UInt64} {effects : List (Effect P A)}
    {answers rest : List Input} {answer : Option Bool}
    (h : confirm amtMsat input = (effects, answers, rest, answer)) :
    input = answers ++ rest ∧ confirmOffer (lines answers) = answer ∧ actions effects = [] ∧
      ∀ item ∈ answers.dropLast, PassedOver item := by
  induction input generalizing effects answers with
  | nil =>
      obtain ⟨rfl, rfl, rfl, rfl⟩ := by simpa [confirm] using h
      exact ⟨rfl, rfl, rfl, fun _ hitem => nomatch hitem⟩
  | cons item input ih =>
      cases item with
      | error e =>
          obtain ⟨rfl, rfl, rfl, rfl⟩ := by simpa [confirm] using h
          exact ⟨rfl, rfl, rfl, fun _ hitem => nomatch hitem⟩
      | line text =>
          rw [confirm] at h
          by_cases hy : text.toList.head? = some 'Y'
          · rw [if_pos hy] at h
            obtain ⟨rfl, rfl, rfl, rfl⟩ := by simpa using h
            exact ⟨rfl, if_pos hy, rfl, fun _ hitem => nomatch hitem⟩
          · rw [if_neg hy] at h
            by_cases hn : text.toList.head? = some 'N'
            · rw [if_pos hn] at h
              obtain ⟨rfl, rfl, rfl, rfl⟩ := by simpa using h
              exact ⟨rfl, (if_neg hy).trans (if_pos hn), rfl, fun _ hitem => nomatch hitem⟩
            · rw [if_neg hn] at h
              rcases hrest : confirm (P := P) (A := A) amtMsat input with
                ⟨effects', answers', rest', answer'⟩
              rw [hrest] at h
              obtain ⟨rfl, rfl, rfl, rfl⟩ := by simpa using h
              -- no answer: the line is passed over, and the next one is read
              obtain ⟨hinput, hanswer, hactions, hpassed⟩ := ih hrest
              refine ⟨congrArg _ hinput, (if_neg hy).trans ((if_neg hn).trans hanswer), hactions,
                fun item hitem => ?_⟩
              cases answers' with
              | nil => exact nomatch hitem
              | cons next answers' =>
                  rcases List.mem_cons.mp hitem with rfl | hitem
                  · exact ⟨text, rfl, hy, hn⟩
                  · exact hpassed item hitem

/-- The actions are those that are asked for, each once. -/
def Does (effects : List (Effect P A)) (asks : Action P A → Prop) : Prop :=
  (actions effects).Nodup ∧ ∀ action, action ∈ actions effects ↔ asks action

/-- A command that does nothing, where nothing is asked for. -/
theorem does_none {effects : List (Effect P A)} {asks : Action P A → Prop}
    (h : actions effects = []) (hasks : ∀ action, ¬ asks action) : Does effects asks := by
  rw [Does, h]
  exact ⟨List.nodup_nil, fun action => iff_of_false List.not_mem_nil (hasks action)⟩

/-- A command that does one thing, where that is what is asked for. -/
theorem does_one {effects : List (Effect P A)} {asks : Action P A → Prop}
    (h : actions effects = [action]) (hasks : asks action)
    (hunique : ∀ other, asks other → other = action) : Does effects asks := by
  rw [Does, h]
  refine ⟨List.nodup_singleton _, fun other => List.mem_singleton.trans ?_⟩
  exact ⟨fun heq => heq ▸ hasks, hunique other⟩

variable {answers : List Input}

theorem keysend_does :
    Does (keysendCommand env words) (AsksFor env line answers .keysend words) := by
  cases words with
  | nil => exact does_none rfl fun action h => nomatch h
  | cons dest words =>
  rw [keysendCommand]
  cases hkey : toCompressedPubkey env.node.fromSlice dest with
  | none =>
      refine does_none rfl fun action h => ?_
      cases h with
      | keysend hkey' _ => cases hkey.symm.trans hkey'
  | some key =>
  cases words with
  | nil => exact does_none rfl fun action h => nomatch h
  | cons amtMsatStr words =>
  cases hamount : parseU64 amtMsatStr with
  | none =>
      refine does_none (by simp only [hamount]; rfl) fun action h => ?_
      cases h with
      | keysend _ hamount' => cases hamount.symm.trans hamount'
  | some amtMsat =>
      refine does_one (by simp only [hamount]; rfl) (.keysend hkey hamount) fun other h => ?_
      cases h with
      | keysend hkey' hamount' =>
          cases hkey.symm.trans hkey'
          cases hamount.symm.trans hamount'
          rfl

theorem getinvoice_does :
    Does (getinvoiceCommand words) (AsksFor env line answers .getinvoice words) := by
  cases words with
  | nil => exact does_none rfl fun action h => nomatch h
  | cons amtStr words =>
  rw [getinvoiceCommand]
  cases hamount : parseU64 amtStr with
  | none =>
      refine does_none rfl fun action h => ?_
      cases h with
      | getInvoice hamount' _ => cases hamount.symm.trans hamount'
  | some amtMsat =>
  cases words with
  | nil => exact does_none rfl fun action h => nomatch h
  | cons expirySecsStr words =>
  cases hexpiry : parseU32 expirySecsStr.toList with
  | none =>
      refine does_none (by simp only [hexpiry]; rfl) fun action h => ?_
      cases h with
      | getInvoice _ hexpiry' => cases hexpiry.symm.trans hexpiry'
  | some expirySecs =>
      refine does_one (by simp only [hexpiry]; rfl) (.getInvoice hamount hexpiry) fun other h => ?_
      cases h with
      | getInvoice hamount' hexpiry' =>
          cases hamount.symm.trans hamount'
          cases hexpiry.symm.trans hexpiry'
          rfl

theorem getoffer_does :
    Does (getofferCommand env words) (AsksFor env line answers .getoffer words) := by
  rw [getofferCommand]
  cases hbuilder : env.createOfferBuilder with
  | error e =>
      refine does_none rfl fun action h => ?_
      cases h with
      | offer hbuilder' _ => cases hbuilder.symm.trans hbuilder'
  | ok u =>
  -- the word after the command, read as the amount of the offer
  have hbuild : ∀ amtMsat, words.head?.map parseU64 = amtMsat.map some →
      Does (getofferCommand.build env amtMsat) (AsksFor env line answers .getoffer words) := by
    intro amtMsat hamount
    have hactions :
        actions (getofferCommand.build env amtMsat) = [Action.buildOffer amtMsat] := by
      rw [getofferCommand.build]
      cases env.buildOffer amtMsat <;> rfl
    refine does_one hactions (.offer hbuilder hamount) fun other h => ?_
    cases h with
    | offer _ hamount' =>
        rw [Option.map_injective (fun _ _ => Option.some.inj) (hamount.symm.trans hamount')]
  cases hword : words.head?.map parseU64 with
  | none => exact hbuild none hword
  | some read =>
  cases read with
  | some amtMsat => exact hbuild (some amtMsat) hword
  | none =>
      refine does_none rfl fun action h => ?_
      cases h with
      | @offer _ amtMsat _ hamount =>
          cases amtMsat <;> cases hword.symm.trans hamount

/-- A channel id is 32 bytes in hexadecimal. -/
theorem parseChannelId_iff {text : String} {channelId : Vector UInt8 32} :
    parseChannelId text = some channelId ↔ toVec text = some channelId.toList := by
  rw [parseChannelId]
  cases htext : toVec text with
  | none => simp
  | some v =>
      by_cases hlength : v.length = 32
      · simp only [dif_pos hlength, Option.some.injEq]
        constructor
        · rintro rfl
          rfl
        · intro heq
          subst heq
          rfl
      · simp only [dif_neg hlength, Option.some.injEq]
        refine iff_of_false (by simp) fun heq => hlength ?_
        rw [heq, Vector.length_toList]

/-- The two closing arms, which differ in the call they make. -/
theorem closeCommand_does {name : String}
    {close : Vector UInt8 32 → P → List (Effect P A)} {command : Command}
    (closing : Vector UInt8 32 → P → Action P A)
    (hclose : ∀ channelId key, actions (close channelId key) = [closing channelId key])
    (hasks : ∀ words action, AsksFor env line answers command words action ↔
      ∃ channelIdStr peerPubkeyStr rest channelId bytes key,
        words = channelIdStr :: peerPubkeyStr :: rest ∧
          toVec channelIdStr = some channelId.toList ∧ toVec peerPubkeyStr = some bytes ∧
            env.node.fromSlice bytes = some key ∧ action = closing channelId key) :
    Does (closeCommand env name close words) (AsksFor env line answers command words) := by
  cases words with
  | nil =>
      refine does_none rfl fun action h => ?_
      obtain ⟨_, _, _, _, _, _, hwords, -⟩ := (hasks _ _).mp h
      exact nomatch hwords
  | cons channelIdStr words =>
  rw [closeCommand]
  cases hid : parseChannelId channelIdStr with
  | none =>
      refine does_none rfl fun action h => ?_
      obtain ⟨_, _, _, channelId, _, _, hwords, hid', -⟩ := (hasks _ _).mp h
      obtain ⟨rfl, -⟩ := List.cons.inj hwords
      exact absurd (hid.symm.trans (parseChannelId_iff.mpr hid')) (by simp)
  | some channelId =>
  -- the id is read; the key is next
  have hidText := parseChannelId_iff.mp hid
  cases words with
  | nil =>
      refine does_none rfl fun action h => ?_
      obtain ⟨_, _, _, _, _, _, hwords, -⟩ := (hasks _ _).mp h
      exact nomatch hwords
  | cons peerPubkeyStr words =>
  cases hkey : (toVec peerPubkeyStr).bind env.node.fromSlice with
  | none =>
      refine does_none (by simp only [hkey]; rfl) fun action h => ?_
      obtain ⟨_, _, _, _, bytes, key, hwords, -, hbytes, hkey', -⟩ := (hasks _ _).mp h
      obtain ⟨-, htail⟩ := List.cons.inj hwords
      obtain ⟨rfl, -⟩ := List.cons.inj htail
      rw [hbytes, Option.bind_some, hkey'] at hkey
      cases hkey
  | some key =>
      obtain ⟨bytes, hbytes, hkeyBytes⟩ := Option.bind_eq_some_iff.mp hkey
      refine does_one (by simp only [hkey]; exact hclose channelId key)
        ((hasks _ _).mpr ⟨_, _, _, channelId, bytes, key, rfl, hidText, hbytes, hkeyBytes, rfl⟩)
        fun other h => ?_
      obtain ⟨_, _, _, channelId', bytes', key', hwords, hid', hbytes', hkey', rfl⟩ :=
        (hasks _ _).mp h
      obtain ⟨rfl, htail⟩ := List.cons.inj hwords
      obtain ⟨rfl, -⟩ := List.cons.inj htail
      obtain rfl := Option.some.inj (hid.symm.trans (parseChannelId_iff.mpr hid'))
      obtain rfl := Option.some.inj (hbytes.symm.trans hbytes')
      obtain rfl := Option.some.inj (hkeyBytes.symm.trans hkey')
      rfl

theorem closechannel_does : Does (closeCommand env "closechannel" (closeChannel env) words)
    (AsksFor env line answers .closechannel words) := by
  refine closeCommand_does .closeChannel (fun channelId key => ?_)
    fun words action => ⟨?_, ?_⟩
  · rw [closeChannel]
    cases env.closeChannel channelId key <;> rfl
  · intro h
    cases h with
    | close hid hbytes hkey => exact ⟨_, _, _, _, _, _, rfl, hid, hbytes, hkey, rfl⟩
  · rintro ⟨_, _, _, _, _, _, rfl, hid, hbytes, hkey, rfl⟩
    exact .close hid hbytes hkey

theorem forceclosechannel_does :
    Does (closeCommand env "forceclosechannel" (forceCloseChannel env) words)
      (AsksFor env line answers .forceclosechannel words) := by
  refine closeCommand_does .forceCloseBroadcastingLatestTxn (fun channelId key => ?_)
    fun words action => ⟨?_, ?_⟩
  · rw [forceCloseChannel]
    cases env.forceCloseBroadcastingLatestTxn channelId key <;> rfl
  · intro h
    cases h with
    | forceClose hid hbytes hkey => exact ⟨_, _, _, _, _, _, rfl, hid, hbytes, hkey, rfl⟩
  · rintro ⟨_, _, _, _, _, _, rfl, hid, hbytes, hkey, rfl⟩
    exact .forceClose hid hbytes hkey

theorem disconnectpeer_does [DecidableEq P] : Does (disconnectpeerCommand env words)
    (AsksFor env line answers .disconnectpeer words) := by
  cases words with
  | nil => exact does_none rfl fun action h => nomatch h
  | cons peerPubkey words =>
  rw [disconnectpeerCommand]
  cases hkey : env.publicKeyFromStr peerPubkey with
  | error e =>
      refine does_none rfl fun action h => ?_
      cases h with
      | disconnect hkey' _ _ => cases hkey.symm.trans hkey'
  | ok key =>
  by_cases hchannel : key ∈ env.listChannels
  · refine does_none (by simp only [doDisconnectPeer, if_pos hchannel]; rfl) fun action h => ?_
    cases h with
    | disconnect hkey' hchannel' _ =>
        cases hkey.symm.trans hkey'
        exact hchannel' hchannel
  · cases hpeer : env.node.peerByNodeId key with
    | false =>
        refine does_none (by simp only [doDisconnectPeer, if_neg hchannel, hpeer]; rfl)
          fun action h => ?_
        cases h with
        | disconnect hkey' _ hpeer' =>
            cases hkey.symm.trans hkey'
            exact absurd (hpeer.symm.trans hpeer') (by decide)
    | true =>
        refine does_one (by simp only [doDisconnectPeer, if_neg hchannel, hpeer]; rfl)
          (.disconnect hkey hchannel hpeer) fun other h => ?_
        cases h with
        | disconnect hkey' _ _ =>
            cases hkey.symm.trans hkey'
            rfl

/-- Connecting to a peer that is connected does nothing. -/
theorem connectPeerIfNecessary_actions (key : P) (addr : A) :
    actions ((connectPeerIfNecessary env.node key addr).1.map ofOpenChannel) =
      if env.node.peerByNodeId key then [] else [.connectOutbound key addr] := by
  rw [connectPeerIfNecessary]
  cases env.node.peerByNodeId key <;> rfl

theorem connectpeer_does : Does (connectpeerCommand env words)
    (AsksFor env line answers .connectpeer words) := by
  cases words with
  | nil => exact does_none rfl fun action h => nomatch h
  | cons peer words =>
  rw [connectpeerCommand]
  cases hpeer : parsePeerInfo env.node peer with
  | error e =>
      refine does_none rfl fun action h => ?_
      cases h with
      | connect hpeer' _ => cases hpeer.symm.trans hpeer'
  | ok peerInfo =>
  obtain ⟨key, addr⟩ := peerInfo
  have hactions : ∀ result : List (Effect P A), actions result = [] →
      actions ((connectPeerIfNecessary env.node key addr).1.map ofOpenChannel ++ result) =
        if env.node.peerByNodeId key then [] else [.connectOutbound key addr] := by
    intro result hresult
    rw [actions_append, connectPeerIfNecessary_actions, hresult, List.append_nil]
  have hprinted := hactions _ (by
    show actions (match (connectPeerIfNecessary env.node key addr).2 with
      | none => []
      | some (.ok ()) => [.print ("SUCCESS: connected to peer " ++ env.node.display key)]
      | some (.error e) => [userErr (CliError.ofConnectError e).text]) = []
    split <;> rfl)
  cases hconnected : env.node.peerByNodeId key with
  | true =>
      rw [hconnected] at hprinted
      refine does_none hprinted fun action h => ?_
      cases h with
      | connect hpeer' hconnected' =>
          cases hpeer.symm.trans hpeer'
          exact absurd (hconnected.symm.trans hconnected') (by decide)
  | false =>
      rw [hconnected] at hprinted
      refine does_one hprinted (.connect hpeer hconnected) fun other h => ?_
      cases h with
      | connect hpeer' _ =>
          cases hpeer.symm.trans hpeer'
          rfl

theorem asBytes_ofList_append (front back : List Char) :
    asBytes (String.ofList (front ++ back)) =
      asBytes (String.ofList front) ++ asBytes (String.ofList back) := by
  rw [asBytes_eq, asBytes_eq, asBytes_eq, String.toList_ofList, String.toList_ofList,
    String.toList_ofList, List.flatMap_append]

theorem asBytes_ofList_cons (c : Char) (text : List Char) :
    0 < (String.utf8EncodeChar c).length ∧ asBytes (String.ofList (c :: text)) =
      String.utf8EncodeChar c ++ asBytes (String.ofList text) := by
  refine ⟨?_, by rw [asBytes_eq, asBytes_eq, String.toList_ofList, String.toList_ofList]; rfl⟩
  rw [String.length_utf8EncodeChar]
  exact Char.utf8Size_pos c

theorem length_signmessage :
    (asBytes (String.ofList "signmessage".toList)).length = 11 := by decide

/-- The `signmessage` arm, which signs what follows the word and a blank. -/
theorem signmessage_does (hwords : splitWhitespace line = "signmessage" :: words) :
    Does (signmessageCommand env line) (AsksFor env line answers .signmessage words) := by
  have hline : (line.toList.splitOnP isWhitespace).filter (fun part => !part.isEmpty) =
      "signmessage".toList :: words.map String.toList := by
    have hmap := congrArg (List.map String.toList) hwords
    rw [splitWhitespace, List.map_map] at hmap
    have hid : String.toList ∘ String.ofList = id := funext fun _ => String.toList_ofList
    rw [hid, List.map_id] at hmap
    exact hmap
  rw [signmessageCommand]
  rcases FirstWord.trimmed_of_words hline with htrim | ⟨sep, message, htrim, -, hne⟩
  · have htrim : trim line.toList = "signmessage".toList := htrim
    rw [htrim, if_pos (by rw [length_signmessage]; omega)]
    refine does_none rfl fun action h => ?_
    cases h with
    | sign htrim' _ =>
        have hlength := congrArg List.length (htrim.symm.trans htrim')
        rw [List.length_append, List.length_cons] at hlength
        omega
  · have htrim : trim line.toList = "signmessage".toList ++ sep :: message := htrim
    obtain ⟨c, rest, rfl⟩ := List.exists_cons_of_ne_nil hne
    obtain ⟨hsep, hbytes⟩ := asBytes_ofList_cons sep (c :: rest)
    obtain ⟨hc, hbytes'⟩ := asBytes_ofList_cons c rest
    -- a separator and a letter follow, so there are more than twelve bytes
    have hlong : ¬ (asBytes (String.ofList (trim line.toList))).length ≤ 12 := by
      rw [htrim, asBytes_ofList_append, List.length_append, length_signmessage, hbytes, hbytes',
        List.length_append, List.length_append]
      omega
    have hdrop : (asBytes (String.ofList (trim line.toList))).drop 12 =
        (asBytes (String.ofList (sep :: c :: rest))).drop 1 := by
      rw [htrim, asBytes_ofList_append, List.drop_append, length_signmessage,
        List.drop_eq_nil_of_le (by rw [length_signmessage]; omega), List.nil_append]
    rw [if_neg hlong, hdrop]
    refine does_one rfl (.sign htrim hne) fun other h => ?_
    cases h with
    | sign htrim' _ =>
        have htail := List.append_cancel_left (htrim.symm.trans htrim')
        rw [htail]

/-! ### A channel -/

/-- The outbound connection that a peer with an address needs. -/
def dials (env : Env P A) (peer : String) : List (Action P A) :=
  match parsePeerInfo env.node peer with
  | .ok (key, addr) => if env.node.peerByNodeId key then [] else [.connectOutbound key addr]
  | .error _ => []

theorem mem_dials {peer : String} : action ∈ dials env peer ↔ ∃ key addr,
    parsePeerInfo env.node peer = .ok (key, addr) ∧ env.node.peerByNodeId key = false ∧
      action = .connectOutbound key addr := by
  rw [dials]
  cases hpeer : parsePeerInfo env.node peer with
  | error e => simp
  | ok peerInfo =>
      obtain ⟨key, addr⟩ := peerInfo
      cases hconnected : env.node.peerByNodeId key with
      | true =>
          simp only [hconnected, if_true]
          refine iff_of_false List.not_mem_nil ?_
          rintro ⟨key', addr', hpeer', hconnected', -⟩
          cases hpeer'
          exact absurd (hconnected.symm.trans hconnected') (by decide)
      | false =>
          simp only [hconnected, Bool.false_eq_true, if_false]
          refine List.mem_singleton.trans ⟨fun h => ⟨key, addr, rfl, hconnected, h⟩, ?_⟩
          rintro ⟨key', addr', hpeer', -, rfl⟩
          cases hpeer'
          rfl

/-- A peer that is parsed has a key, and something after the `@`. -/
theorem parsePeerInfo_ok {peer : String} {key : P} {addr : A}
    (h : parsePeerInfo env.node peer = .ok (key, addr)) :
    toCompressedPubkey env.node.fromSlice ((split '@' peer)[0]?.getD "") = some key ∧
      ∃ addrText, (split '@' peer)[1]? = some addrText := by
  rw [parsePeerInfo] at h
  cases hkeyText : (split '@' peer)[0]? with
  | none => simp only [hkeyText] at h; cases h
  | some pubkeyStr =>
  cases haddrText : (split '@' peer)[1]? with
  | none => simp only [hkeyText, haddrText] at h; cases h
  | some addrText =>
  simp only [hkeyText, haddrText] at h
  cases hresolve : (toSocketAddrs env.node addrText).bind List.head? with
  | none => simp only [hresolve] at h; cases h
  | some peerAddr =>
  cases hkey : toCompressedPubkey env.node.fromSlice pubkeyStr with
  | none => simp only [hresolve, hkey] at h; cases h
  | some key' =>
      simp only [hresolve, hkey] at h
      cases h
      exact ⟨hkey, addrText, rfl⟩

/-- Reading the flags does nothing but print. -/
theorem readFlags_prints (words : List String) (announceChannel withAnchors : Bool) :
    actions ((readFlags (P := P) (A := A) words announceChannel withAnchors).1.map
      ofOpenChannel) = [] := by
  fun_induction readFlags (P := P) (A := A) words announceChannel withAnchors with
  | case1 => rfl
  | case2 _ _ _ ih => exact ih
  | case3 _ _ _ ih => exact ih
  | case4 _ _ _ ih => exact ih
  | case5 _ _ _ ih => exact ih
  | case6 _ _ _ ih => exact ih
  | case7 _ _ _ ih => exact ih
  | case8 word words _ _ effects flags hrest _ _ _ _ _ _ ih =>
      rw [hrest] at ih
      exact ih

/-- The rest of the line opens the channel. -/
theorem openWith_actions (key : P) (channelValueSat : String) (flags : List String) :
    actions ((openWith env.node key channelValueSat flags).map ofOpenChannel) =
      (calls (openWith env.node key channelValueSat flags)).map Action.createChannel := by
  cases hamount : parseU64 channelValueSat with
  | none => rw [openWith, hamount]; rfl
  | some amount =>
      have hprints := readFlags_prints (P := P) (A := A) flags false false
      rw [calls_openWith hamount, openWith, hamount]
      obtain ⟨hquiet, hflags⟩ := readFlags_reads (P := P) (A := A) flags false false
      rcases hread : readFlags (P := P) (A := A) flags false false with ⟨effects, announce, anchors⟩
      rw [hread] at hprints hflags
      obtain ⟨hannounce, hanchors⟩ := Prod.mk.inj hflags
      rw [List.map_append, List.map_append, actions_append, actions_append, hprints, channelFor,
        openChannel]
      subst hannounce hanchors
      simp only [lastNamed]
      split <;> rfl

/-- The whole arm connects first, and then opens. -/
theorem openchannel_actions (peer channelValueSat : String) (flags : List String) :
    actions ((openchannel env.node (peer :: channelValueSat :: flags)).map ofOpenChannel) =
      dials env peer ++
        (calls (openchannel env.node (peer :: channelValueSat :: flags))).map
          Action.createChannel := by
  have hundialled : ∀ e, parsePeerInfo env.node peer = .error e → dials env peer = [] := by
    intro e h
    rw [dials, h]
  rw [openchannel]
  cases hkey : toCompressedPubkey env.node.fromSlice ((split '@' peer)[0]?.getD "") with
  | none =>
      cases hinfo : parsePeerInfo env.node peer with
      | error e => rw [hundialled e hinfo]; rfl
      | ok peerInfo => cases hkey.symm.trans (parsePeerInfo_ok hinfo).1
  | some key =>
  cases hpart : (split '@' peer)[1]? with
  | none =>
      cases hinfo : parsePeerInfo env.node peer with
      | ok peerInfo =>
          obtain ⟨-, addrText, haddrText⟩ := parsePeerInfo_ok hinfo
          cases hpart.symm.trans haddrText
      | error e =>
          rw [hundialled e hinfo]
          simp only [Option.isNone_none, if_true]
          cases env.node.peerByNodeId key with
          | false => rfl
          | true => exact openWith_actions key channelValueSat flags
  | some addrText =>
      simp only [Option.isNone_some, Bool.false_eq_true, if_false]
      cases hinfo : parsePeerInfo env.node peer with
      | error e => rw [hundialled e hinfo]; rfl
      | ok peerInfo =>
          obtain ⟨key', addr⟩ := peerInfo
          obtain rfl := Option.some.inj (hkey.symm.trans (parsePeerInfo_ok hinfo).1)
          simp only []
          rw [List.map_append, actions_append, connectPeerIfNecessary_actions, calls_append,
            connectPeerIfNecessary_calls, List.nil_append, dials, hinfo]
          congr 1
          rcases (connectPeerIfNecessary env.node key addr).2 with _ | ⟨e | ⟨⟩⟩
          · rfl
          · rfl
          · exact openWith_actions key channelValueSat flags

/-- It opens one channel at most, to the peer it reached. -/
theorem calls_openchannel (peer channelValueSat : String) (flags : List String) :
    (calls (openchannel env.node (peer :: channelValueSat :: flags))).Nodup ∧
      ∀ call, call ∈ calls (openchannel env.node (peer :: channelValueSat :: flags)) ↔
        ∃ key amount, Reaches env.node peer key ∧ parseU64 channelValueSat = some amount ∧
          call = channelFor key amount flags := by
  by_cases hreach : ∃ key, Reaches env.node peer key
  · obtain ⟨key, hreach⟩ := hreach
    rw [openchannel_reaches hreach]
    cases hamount : parseU64 channelValueSat with
    | none =>
        rw [calls_openWith_none hamount]
        exact ⟨List.nodup_nil, fun call => by simp⟩
    | some amount =>
        rw [calls_openWith hamount]
        refine ⟨List.nodup_singleton _, fun call => List.mem_singleton.trans ⟨?_, ?_⟩⟩
        · rintro rfl
          exact ⟨key, amount, hreach, rfl, rfl⟩
        · rintro ⟨key', amount', hreach', hamount', rfl⟩
          obtain rfl := Option.some.inj (hreach.1.symm.trans hreach'.1)
          obtain rfl := Option.some.inj hamount'
          rfl
  · rw [openchannel_not_reaches (not_exists.mp hreach)]
    refine ⟨List.nodup_nil, fun call => iff_of_false List.not_mem_nil ?_⟩
    rintro ⟨key, -, hkey, -⟩
    exact hreach ⟨key, hkey⟩

theorem openchannel_does : Does ((openchannel env.node words).map ofOpenChannel)
    (AsksFor env line answers .openchannel words) := by
  match words with
  | [] => exact does_none rfl fun action h => nomatch h
  | [_] => exact does_none rfl fun action h => nomatch h
  | peer :: channelValueSat :: flags =>
  obtain ⟨hnodup, hcalls⟩ := @calls_openchannel P A env peer channelValueSat flags
  rw [Does, openchannel_actions]
  refine ⟨List.nodup_append.mpr ⟨?_, ?_, ?_⟩, fun action => ?_⟩
  · rw [dials]
    split
    · split
      · exact List.nodup_nil
      · exact List.nodup_singleton _
    · exact List.nodup_nil
  · exact hnodup.map fun _ _ h => Action.createChannel.inj h
  · intro dial hdial call hcall heq
    obtain ⟨_, _, -, -, rfl⟩ := mem_dials.mp hdial
    obtain ⟨_, -, rfl⟩ := List.mem_map.mp hcall
    exact nomatch heq
  · rw [List.mem_append, mem_dials, List.mem_map]
    constructor
    · rintro (⟨key, addr, hpeer, hconnected, rfl⟩ | ⟨call, hcall, rfl⟩)
      · exact .connectFirst hpeer hconnected
      · obtain ⟨key, amount, hreach, hamount, rfl⟩ := (hcalls call).mp hcall
        exact .createChannel hreach hamount
    · intro h
      cases h with
      | connectFirst hpeer hconnected => exact .inl ⟨_, _, hpeer, hconnected, rfl⟩
      | createChannel hreach hamount =>
          exact .inr ⟨_, (hcalls _).mpr ⟨_, _, hreach, hamount, rfl⟩, rfl⟩

/-! ### A payment -/

/-- What a plan comes to. -/
def planned (invoiceStr : String) : Except SendRefusal SendPlan → List (Action P A)
  | .ok plan => [.pay invoiceStr plan]
  | .error _ => []

/-- A command with a plan: it reads the input from the front, and past the first item
    only where it has a question; it does what is planned for its answers, and ends the
    session where an answer is missing. -/
structure Plans (input : List Input) (invoiceStr : String) (r : Ran P A) (question : Prop)
    (plan : List Input → Except SendRefusal SendPlan) : Prop where
  input_eq : input = r.answers ++ r.rest
  asked : r.answers ≠ [] → question
  passed : ∀ item ∈ r.answers.dropLast, PassedOver item
  actions_eq : actions r.effects = planned invoiceStr (plan r.answers)
  stopped_iff : r.stopped = true ↔ plan r.answers = .error .endOfInput

/-- A command without a question. -/
theorem plans_ran {invoiceStr : String} {effects : List (Effect P A)}
    {question : Prop} {plan : List Input → Except SendRefusal SendPlan}
    (hactions : actions effects = planned invoiceStr (plan []))
    (hends : plan [] ≠ .error .endOfInput) :
    Plans input invoiceStr (ran effects input) question plan :=
  ⟨rfl, fun h => absurd rfl h, fun _ hitem => (nomatch hitem), hactions,
    iff_of_false Bool.false_ne_true hends⟩

/-- An offer whose amount the user gives, or that states none. -/
theorem offerCommand_user (invoiceStr : String) (amount : Option OfferAmount) (amt : UInt64)
    (question : Prop) :
    Plans input invoiceStr (offerCommand env invoiceStr amount (some amt) input) question
      fun answers => payOffer amount (some amt) (lines answers) env.randomBytes := by
  have hagreed : ∀ amtMsat : UInt64, Plans input invoiceStr
      (if amt ≠ amtMsat then
          ran [.print ("Amount didn't match offer of " ++ toString amtMsat.toNat ++ "msat")] input
        else ran [(.act (.pay invoiceStr ⟨env.randomBytes, pendingInfo none amtMsat,
          .payForOffer amtMsat⟩) : Effect P A)] input) question
      fun _ => if amt ≠ amtMsat then .error (.offerAmountMismatch amtMsat)
        else .ok ⟨env.randomBytes, pendingInfo none amtMsat, .payForOffer amtMsat⟩ := by
    intro amtMsat
    by_cases hne : amt ≠ amtMsat
    · simp only [if_pos hne]
      exact plans_ran rfl (by simp)
    · simp only [if_neg hne]
      exact plans_ran rfl (by simp)
  cases amount with
  | none => simpa [offerCommand, payOffer] using hagreed amt
  | some amount =>
      cases amount with
      | bitcoin amountMsats => simpa [offerCommand, payOffer] using hagreed amountMsats
      | currency code units => simpa [offerCommand, payOffer] using hagreed amt

/-- An offer whose own amount the user is asked to confirm. -/
theorem offerCommand_confirmed (invoiceStr : String) (amountMsats : UInt64) :
    Plans input invoiceStr (offerCommand env invoiceStr (some (.bitcoin amountMsats)) none input)
      True fun answers =>
        payOffer (some (.bitcoin amountMsats)) none (lines answers) env.randomBytes := by
  rcases hconfirm : confirm (P := P) (A := A) amountMsats input with
    ⟨effects, answers, rest, answer⟩
  obtain ⟨hinput, hanswer, hactions, hpassed⟩ := confirm_reads hconfirm
  -- the command and the plan make the same case distinction on the answer
  have hcommand : offerCommand env invoiceStr (some (.bitcoin amountMsats)) none input =
      match answer with
      | none => ⟨effects, answers, rest, true⟩
      | some false => ⟨effects, answers, rest, false⟩
      | some true => ⟨effects ++ [.act (.pay invoiceStr ⟨env.randomBytes,
          pendingInfo none amountMsats, .payForOffer amountMsats⟩)], answers, rest, false⟩ := by
    rw [offerCommand]
    simp only [Option.isSome_none, Bool.false_eq_true, false_and, if_false, Option.isNone_none,
      if_true, hconfirm]
    rcases answer with _ | _ | _ <;> rfl
  have hplan : payOffer (some (.bitcoin amountMsats)) none (lines answers) env.randomBytes =
      match answer with
      | none => .error .endOfInput
      | some false => .error .offerDeclined
      | some true => .ok ⟨env.randomBytes, pendingInfo none amountMsats,
          .payForOffer amountMsats⟩ := by
    simp only [payOffer, Option.isSome_none, Bool.false_eq_true, false_and, if_false,
      Option.isNone_none, if_true, hanswer]
    rcases answer with _ | _ | _ <;> rfl
  rw [hcommand]
  rcases answer with _ | _ | _
  · exact ⟨hinput, fun _ => trivial, hpassed, by rw [hplan]; exact hactions,
      iff_of_true rfl hplan⟩
  · exact ⟨hinput, fun _ => trivial, hpassed, by rw [hplan]; exact hactions,
      by rw [hplan]; simp⟩
  · refine ⟨hinput, fun _ => trivial, hpassed, ?_, by rw [hplan]; simp⟩
    rw [hplan, actions_append, hactions]
    rfl

/-- The offer arm reads answers only where it has to ask. -/
theorem offerCommand_plans (invoiceStr : String) (amount : Option OfferAmount)
    (user : Option UInt64) :
    Plans input invoiceStr (offerCommand env invoiceStr amount user input)
      (user = none ∧ ∃ amountMsats, amount = some (.bitcoin amountMsats)) fun answers =>
        payOffer amount user (lines answers) env.randomBytes := by
  cases user with
  | some amt => exact offerCommand_user invoiceStr amount amt _
  | none =>
      cases amount with
      | none => exact plans_ran rfl (by simp [payOffer])
      | some amount =>
          cases amount with
          | bitcoin amountMsats =>
              exact { offerCommand_confirmed invoiceStr amountMsats with
                asked := fun _ => ⟨rfl, amountMsats, rfl⟩ }
          | currency code units => exact plans_ran rfl (by simp [payOffer])

/-- What the command reads of its argument decides the plan. -/
theorem sendCommand_plans (invoiceStr : String) (user : Option UInt64) (words : List String) :
    Plans input invoiceStr (sendCommand env invoiceStr user input)
      (user = none ∧ ∃ amountMsats,
        parseInstrument env.parsers invoiceStr = some (.offer (some (.bitcoin amountMsats))))
      fun answers => match parseInstrument env.parsers invoiceStr with
      | some instrument => planInstrument (sendSession env words answers) user instrument
      | none => .error .invoiceAmountNeeded := by
  rw [sendCommand]
  simp only [parseInstrument]
  cases env.parsers.offer invoiceStr with
  | some amount =>
      have hplans := @offerCommand_plans P A env input invoiceStr amount user
      refine { hplans with asked := fun hanswers => ?_ }
      obtain ⟨huser, amountMsats, rfl⟩ := hplans.asked hanswers
      exact ⟨huser, amountMsats, rfl⟩
  | none =>
  cases env.parsers.humanReadableName invoiceStr with
  | true =>
      simp only [if_true]
      cases user with
      | none => exact plans_ran rfl (by simp [planInstrument, payHumanReadableName])
      | some amtMsat =>
          rw [nameCommand]
          by_cases hnone : findDnsResolvers env.graph [] = []
          · simp only [hnone, List.isEmpty_nil, if_true]
            refine plans_ran ?_ ?_ <;>
              simp [planInstrument, payHumanReadableName, Session.dnsResolvers, sendSession, hnone,
                planned, actions]
          · have hfound : (findDnsResolvers env.graph []).isEmpty = false := by simpa using hnone
            simp only [hfound, Bool.false_eq_true, if_false]
            refine plans_ran ?_ ?_ <;>
              simp [planInstrument, payHumanReadableName, Session.dnsResolvers, sendSession, hnone,
                planned, actions]
  | false =>
  simp only [Bool.false_eq_true, if_false]
  cases env.parsers.invoice invoiceStr with
  | none => exact plans_ran rfl (by simp)
  | some invoice =>
      simp only [Option.map_some, planInstrument, invoiceCommand]
      cases hplan : sendPayment invoice user with
      | ok plan => exact plans_ran rfl (by simp)
      | error refusal =>
          have hends : refusal ≠ .endOfInput := by
            rintro rfl
            simp only [sendPayment] at hplan
            split at hplan
            · split at hplan <;> simp at hplan
            all_goals simp at hplan
          -- every other refusal is reported and ends the command
          cases refusal <;> first
            | exact absurd rfl hends
            | exact plans_ran rfl (by simp)

/-- What a command is to do, and to leave. -/
structure RunSpec (env : Env P A) (line : String) (input : List Input) (command : Command)
    (words : List String) (r : Ran P A) : Prop where
  input_eq : r.answers ++ r.rest = input
  does : Does r.effects (AsksFor env line r.answers command words)
  asked : r.answers ≠ [] → HasQuestion env command words
  passed : ∀ item ∈ r.answers.dropLast, PassedOver item
  stopped_iff : r.stopped = true ↔ Ends env command words r.answers

/-- A command that reads nothing itself. -/
theorem runSpec_ran {command : Command} {effects : List (Effect P A)}
    (hdoes : Does effects (AsksFor env line [] command words))
    (hends : ¬ Ends env command words []) :
    RunSpec env line input command words (ran effects input) :=
  ⟨rfl, hdoes, fun h => absurd rfl h, fun _ hitem => (nomatch hitem),
    iff_of_false Bool.false_ne_true hends⟩

/-- The three instruments of `sendpayment`. -/
theorem sendCommand_spec {invoiceStr : String} {user : Option UInt64}
    (hparse : parseSendPayment env.parsers (invoiceStr :: words) =
      (parseInstrument env.parsers invoiceStr).map (·, user)) :
    RunSpec env line input .sendpayment (invoiceStr :: words)
      (sendCommand env invoiceStr user input) := by
  have hplans := @sendCommand_plans P A env input invoiceStr user (invoiceStr :: words)
  generalize sendCommand env invoiceStr user input = r at hplans
  have hactions := hplans.actions_eq
  have hstopped := hplans.stopped_iff
  refine ⟨hplans.input_eq.symm, ?_, fun hanswers => ?_, hplans.passed, ?_⟩
  · cases hinstrument : parseInstrument env.parsers invoiceStr with
    | none =>
        rw [hinstrument] at hactions hparse
        refine does_none hactions fun action h => ?_
        cases h with
        | pay hparse' _ => cases hparse.symm.trans hparse'
    | some instrument =>
        rw [hinstrument] at hactions hparse
        simp only [] at hactions
        cases hplan : planInstrument (sendSession env (invoiceStr :: words) r.answers) user
            instrument with
        | error refusal =>
            rw [hplan] at hactions
            refine does_none hactions fun action h => ?_
            cases h with
            | pay hparse' hplan' =>
                cases hparse.symm.trans hparse'
                cases hplan.symm.trans hplan'
        | ok plan =>
            rw [hplan] at hactions
            refine does_one hactions (.pay hparse hplan) fun other h => ?_
            cases h with
            | pay hparse' hplan' =>
                cases hparse.symm.trans hparse'
                cases hplan.symm.trans hplan'
                rfl
  · -- lines are asked for only by an offer with its own amount
    obtain ⟨rfl, amountMsats, hinstrument⟩ := hplans.asked hanswers
    rw [hinstrument] at hparse
    exact ⟨rfl, amountMsats, hparse⟩
  · rw [hstopped]
    cases hinstrument : parseInstrument env.parsers invoiceStr with
    | none =>
        rw [hinstrument] at hparse
        refine iff_of_false (by simp) ?_
        rintro ⟨instrument, user', hparse', -⟩
        cases hparse.symm.trans hparse'
    | some instrument =>
        rw [hinstrument] at hparse
        refine ⟨fun hplan => ⟨instrument, user, hparse, hplan⟩, ?_⟩
        rintro ⟨instrument', user', hparse', hplan⟩
        cases hparse.symm.trans hparse'
        exact hplan

theorem sendpayment_spec :
    RunSpec env line input .sendpayment words (sendpaymentCommand env words input) := by
  match words with
  | [] =>
      refine runSpec_ran (does_none rfl fun action h => nomatch h) ?_
      rintro ⟨instrument, user, hparse, -⟩
      cases hparse
  | [invoiceStr] => exact sendCommand_spec rfl
  | invoiceStr :: amtMsatStr :: rest =>
      cases hamount : parseU64 amtMsatStr with
      | none =>
          have hnone : parseSendPayment env.parsers (invoiceStr :: amtMsatStr :: rest) = none := by
            rw [parseSendPayment, hamount, Option.bind_none]
          simp only [sendpaymentCommand, hamount]
          refine runSpec_ran (does_none rfl fun action h => ?_) ?_
          · cases h with
            | pay hparse _ => cases hnone.symm.trans hparse
          · rintro ⟨instrument, user, hparse, -⟩
            cases hnone.symm.trans hparse
      | some amt =>
          simp only [sendpaymentCommand, hamount]
          exact sendCommand_spec (by rw [parseSendPayment, hamount, Option.bind_some])

/-! ### Any command -/

/-- One word alone means signing. -/
theorem word_signmessage {word : String} (h : Command.ofWord word = some .signmessage) :
    word = "signmessage" := by
  unfold Command.ofWord at h
  split at h <;> first | rfl | cases h

/-- Every command does what its line and its answers ask for. -/
theorem runCommand_spec [DecidableEq P] {word : String} {command : Command}
    (hwords : splitWhitespace line = word :: words)
    (hcommand : Command.ofWord word = some command) :
    RunSpec env line input command words (runCommand env line words input (some command)) := by
  cases command with
  | listing word => exact runSpec_ran (does_none rfl fun action h => nomatch h) id
  | openchannel => exact runSpec_ran openchannel_does id
  | sendpayment => exact sendpayment_spec
  | keysend => exact runSpec_ran keysend_does id
  | getoffer => exact runSpec_ran getoffer_does id
  | getinvoice => exact runSpec_ran getinvoice_does id
  | connectpeer => exact runSpec_ran connectpeer_does id
  | disconnectpeer => exact runSpec_ran disconnectpeer_does id
  | closechannel => exact runSpec_ran closechannel_does id
  | forceclosechannel => exact runSpec_ran forceclosechannel_does id
  | signmessage =>
      obtain rfl := word_signmessage hcommand
      exact runSpec_ran (signmessage_does hwords) id
  | quit =>
      exact ⟨rfl, does_none rfl fun action h => (nomatch h), fun h => absurd rfl h,
        fun _ hitem => (nomatch hitem), iff_of_true rfl trivial⟩

/-- A line names one command, by its first word. -/
theorem names_iff {word : String} {command : Command} {property : Command → List String → Prop}
    (hwords : splitWhitespace line = word :: words)
    (hcommand : Command.ofWord word = some command) :
    Names line property ↔ property command words := by
  constructor
  · rintro ⟨word', words', command', hwords', hcommand', h⟩
    obtain ⟨rfl, rfl⟩ := List.cons.inj (hwords.symm.trans hwords')
    obtain rfl := Option.some.inj (hcommand.symm.trans hcommand')
    exact h
  · exact fun h => ⟨word, words, command, hwords, hcommand, h⟩

/-- What a line is to do, and to leave. -/
structure LineSpec (env : Env P A) (line : String) (input : List Input) (r : Ran P A) : Prop where
  input_eq : r.answers ++ r.rest = input
  does : Does r.effects (Asks env line r.answers)
  asked : r.answers ≠ [] → Names line (HasQuestion env)
  passed : ∀ item ∈ r.answers.dropLast, PassedOver item
  stopped_iff : r.stopped = true ↔ Names line fun command words => Ends env command words r.answers

/-- A line without a command. -/
theorem lineSpec_ran {text : String}
    (hnone : ∀ property : Command → List String → Prop, ¬ Names line property) :
    LineSpec env line input (ran [.print text] input) ∧ LineSpec env line input (ran [] input) :=
  ⟨⟨rfl, does_none rfl fun _ => hnone _, fun h => absurd rfl h, fun _ hitem => (nomatch hitem),
      iff_of_false Bool.false_ne_true (hnone _)⟩,
    ⟨rfl, does_none rfl fun _ => hnone _, fun h => absurd rfl h, fun _ hitem => (nomatch hitem),
      iff_of_false Bool.false_ne_true (hnone _)⟩⟩

/-- **A COMMAND DOES WHAT ITS LINE ASKS FOR**, each thing once; it reads the input from
    the front, for its question only. -/
theorem readCommand_asks [DecidableEq P] (env : Env P A) (line : String) (input : List Input) :
    LineSpec env line input (readCommand env line input) := by
  rw [readCommand]
  cases hwords : splitWhitespace line with
  | nil =>
      refine (@lineSpec_ran P A env line input "" fun property => ?_).2
      rintro ⟨_, _, _, hwords', -⟩
      cases hwords.symm.trans hwords'
  | cons word words =>
  simp only []
  cases hcommand : Command.ofWord word with
  | none =>
      refine (lineSpec_ran fun property => ?_).1
      rintro ⟨_, _, _, hwords', hcommand', -⟩
      obtain ⟨rfl, -⟩ := List.cons.inj (hwords.symm.trans hwords')
      cases hcommand.symm.trans hcommand'
  | some command =>
      have h := @runCommand_spec P A env line words input _ word command hwords hcommand
      generalize runCommand env line words input (some command) = r at h
      have hends : Names line (fun command words => Ends env command words r.answers) ↔
          Ends env command words r.answers := names_iff hwords hcommand
      have hasks : ∀ action, Asks env line r.answers action ↔
          AsksFor env line r.answers command words action := fun action =>
        names_iff hwords hcommand
      exact ⟨h.input_eq,
        ⟨h.does.1, fun action => (h.does.2 action).trans (hasks action).symm⟩,
        fun hanswers => (names_iff hwords hcommand).mpr (h.asked hanswers), h.passed,
        h.stopped_iff.trans hends.symm⟩

end Commands

/-! ## A session -/

/-- A command that was read at the prompt. -/
structure Block (P A : Type) where
  index   : Nat
  line    : String
  answers : List Input
  effects : List (Effect P A)

/-- A session: its commands, what it printed at the end, and what it left unread. -/
structure Transcript (P A : Type) where
  blocks  : List (Block P A)
  closing : List (Effect P A)
  unread  : List Input

section Session

variable {P A : Type} [DecidableEq P] (env : Nat → Env P A)

/-- A command uses up its line, which is why the loop ends. -/
theorem rest_length (e : Env P A) (line : String) (input : List Input) :
    (readCommand e line input).rest.length < (Input.line line :: input).length := by
  have hlength := congrArg List.length (readCommand_asks e line input).input_eq
  rw [List.length_append] at hlength
  rw [List.length_cons]
  omega

/-- The loop of `poll_for_user_input`, from its `n`-th command on; the surroundings of a
    command are those of its number. -/
def repl (n : Nat) : List Input → Transcript P A
  | [] => ⟨[], [.print "> ", userErr "End of stdin"], []⟩
  | .error e :: rest => ⟨[], [.print "> ", userErr e], .error e :: rest⟩
  | .line line :: input =>
      let ran := readCommand (env n) line input
      let block : Block P A := ⟨n, line, ran.answers, .print "> " :: ran.effects⟩
      if ran.stopped then ⟨[block], [], ran.rest⟩
      else
        let session := repl (n + 1) ran.rest
        ⟨block :: session.blocks, session.closing, session.unread⟩
termination_by input => input.length
decreasing_by exact rest_length (env n) line input

/-- The whole of what a session did. -/
def Transcript.effects (t : Transcript P A) : List (Effect P A) :=
  t.blocks.flatMap Block.effects ++ t.closing

/-- A session in which every item of the input is read once, as a command or as the
    answer to its question, and every command does what its line asks for. -/
structure AsTyped (n : Nat) (input : List Input) (t : Transcript P A) : Prop where
  read_once : input = (t.blocks.flatMap fun b => .line b.line :: b.answers) ++ t.unread
  in_order : t.blocks.map Block.index = List.range' n t.blocks.length
  does : ∀ b ∈ t.blocks, Does b.effects (Asks (env b.index) b.line b.answers)
  asked : ∀ b ∈ t.blocks, b.answers ≠ [] → Names b.line (HasQuestion (env b.index))
  passed : ∀ b ∈ t.blocks, ∀ item ∈ b.answers.dropLast, PassedOver item
  quiet : actions t.closing = []
  ends : (t.unread = [] ∨ ∃ e rest, t.unread = .error e :: rest) ∨ ∃ b,
    t.blocks.getLast? = some b ∧
      Names b.line fun command words => Ends (env b.index) command words b.answers
  goes_on : ∀ b ∈ t.blocks.dropLast,
    ¬ Names b.line fun command words => Ends (env b.index) command words b.answers

/-- **A SESSION DOES WHAT WAS TYPED**: for any input and any surroundings, each line is
    read once and in order; it is a command, or the answer to the question of the command
    before it; nothing is done but what the commands ask for, each thing once; and the
    session goes on to the end of the input, `quit`, or a missing answer. -/
theorem session_as_typed (n : Nat) (input : List Input) :
    AsTyped env n input (repl env n input) := by
  induction hlength : input.length using Nat.strong_induction_on generalizing n input with
  | _ length ih =>
  match input with
  | [] =>
      rw [repl]
      exact ⟨rfl, rfl, fun b hb => (nomatch hb), fun b hb => (nomatch hb),
        fun b hb => (nomatch hb), rfl, .inl (.inl rfl), fun b hb => (nomatch hb)⟩
  | .error e :: rest =>
      rw [repl]
      exact ⟨rfl, rfl, fun b hb => (nomatch hb), fun b hb => (nomatch hb),
        fun b hb => (nomatch hb), rfl, .inl (.inr ⟨e, rest, rfl⟩), fun b hb => (nomatch hb)⟩
  | .line line :: input =>
      have hspec := readCommand_asks (env n) line input
      have hshorter := rest_length (env n) line input
      rw [repl]
      generalize readCommand (env n) line input = r at hspec hshorter
      obtain ⟨hinput, hdoes, hasked, hpassed, hstopped⟩ := hspec
      -- the prompt is no action
      have hblock : Does (.print "> " :: r.effects) (Asks (env n) line r.answers) := hdoes
      cases hstop : r.stopped with
      | true =>
          simp only [if_true]
          refine ⟨?_, rfl, ?_, ?_, ?_, rfl, .inr ⟨_, rfl, hstopped.mp hstop⟩,
            fun b hb => (nomatch hb)⟩
          · show Input.line line :: input = (Input.line line :: r.answers ++ []) ++ r.rest
            rw [List.append_nil, List.cons_append, hinput]
          · exact List.forall_mem_singleton.mpr hblock
          · exact List.forall_mem_singleton.mpr hasked
          · exact List.forall_mem_singleton.mpr hpassed
      | false =>
          simp only [Bool.false_eq_true, if_false]
          have hrest := ih _ (hlength ▸ hshorter) (n + 1) r.rest rfl
          have hgoes : ¬ Names line fun command words =>
              Ends (env n) command words r.answers := fun h =>
            absurd (hstop.symm.trans (hstopped.mpr h)) Bool.false_ne_true
          generalize repl env (n + 1) r.rest = t at hrest
          refine ⟨?_, ?_, ?_, ?_, ?_, hrest.quiet, ?_, ?_⟩
          · rw [List.flatMap_cons, List.append_assoc, ← hrest.read_once, List.cons_append, hinput]
          · show n :: t.blocks.map Block.index = _
            rw [hrest.in_order]
            rfl
          · exact List.forall_mem_cons.mpr ⟨hblock, hrest.does⟩
          · exact List.forall_mem_cons.mpr ⟨hasked, hrest.asked⟩
          · exact List.forall_mem_cons.mpr ⟨hpassed, hrest.passed⟩
          · rcases hrest.ends with hunread | ⟨b, hlast, hends⟩
            · exact .inl hunread
            · exact .inr ⟨b, by rw [List.getLast?_cons, hlast]; rfl, hends⟩
          · have hgoes_on := hrest.goes_on
            cases hblocks : t.blocks with
            | nil => exact fun b hb => (nomatch hb)
            | cons first others =>
                rw [hblocks] at hgoes_on
                exact List.forall_mem_cons.mpr ⟨hgoes, hgoes_on⟩

end Session

/-! ## A session with offers -/

theorem localNode_handshake_ends {pubkey : List UInt8} {peerAddr : String × UInt16}
    {ticks : List Tick} (h : localNode.connectOutbound pubkey peerAddr = some ticks) :
    (awaitHandshake ticks).isSome := by
  cases h
  rfl

/-- Surroundings in which any offer can be built, and one can be paid. -/
def localEnv : Env (List UInt8) (String × UInt16) where
  node := localNode
  parsers :=
    { offer := fun text => if text = "lno1" then some (some (.bitcoin 7)) else none
      humanReadableName := fun _ => false
      invoice := fun _ => none }
  sha256 := id
  randomBytes := Vector.replicate 32 1
  graph := []
  publicKeyFromStr _ := .error "malformed public key"
  listChannels := []
  closeChannel _ _ := .error "no such channel"
  forceCloseBroadcastingLatestTxn _ _ := .error "no such channel"
  createOfferBuilder := .ok ()
  buildOffer _ := .ok "lno1"
  sign _ := ""
  parseIntError _ := "invalid digit found in string"
  invoiceError _ := "invalid bech32 string"
  debugAmount _ := "None"
  listing word := word
  handshake_ends _ _ _ h := localNode_handshake_ends h

/-- Two offers, the second without a number, a payment that is asked about twice, and a
    line after the end. -/
def localSession : List Input :=
  [.line "getoffer 5000", .line "getoffer five", .line "sendpayment lno1", .line "how much",
    .line "Y", .line "quit", .line "getoffer"]

/-- The payment that the session confirms. -/
def localPlan : SendPlan := ⟨Vector.replicate 32 1, pendingInfo none 7, .payForOffer 7⟩

/-- A session that builds an offer, then pays one after a wrong answer and a right one. -/
theorem session_as_typed_offers :
    AsTyped (fun _ => localEnv) 0 localSession (repl (fun _ => localEnv) 0 localSession) ∧
      actions (repl (fun _ => localEnv) 0 localSession).effects =
        [.buildOffer (some 5000), .pay "lno1" localPlan] ∧
      (repl (fun _ => localEnv) 0 localSession).unread = [.line "getoffer"] := by
  refine ⟨session_as_typed _ _ _, ?_⟩
  have hoffer : ∀ rest, readCommand localEnv "getoffer 5000" rest =
      ran [.act (.buildOffer (some 5000)), .print "lno1"] rest := fun rest => rfl
  have hword : ∀ rest, readCommand localEnv "getoffer five" rest =
      ran [.print "ERROR: getoffer provided payment amount was not a number"] rest :=
    fun rest => rfl
  have hpay : ∀ rest,
      readCommand localEnv "sendpayment lno1" (.line "how much" :: .line "Y" :: rest) =
        ⟨[.print "Paying offer for 7 msat. Continue (Y/N)? >",
            .print "Paying offer for 7 msat. Continue (Y/N)? >", .act (.pay "lno1" localPlan)],
          [.line "how much", .line "Y"], rest, false⟩ := fun rest => rfl
  have hquit : ∀ rest, readCommand localEnv "quit" rest = ⟨[], [], rest, true⟩ := fun rest => rfl
  rw [localSession, repl, hoffer, ran, repl, hword, ran, repl, hpay, repl, hquit]
  exact ⟨rfl, rfl⟩

end Repl

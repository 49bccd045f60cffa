import Scorer.FeePollerProofs
import Scorer.FeeRatesProofs
import Scorer.HexBytesProofs
import Scorer.SectionDefaultProofs

/-! # Funding a channel

    `handle_funding_generation_ready` has `bitcoind` make, fund and sign the transaction
    of a channel, and hands it to the channel manager.  Any of the steps can fail.

    * `handleFundingGenerationReady` follows the source, for any answers of `bitcoind`,
      which may depend on the requests before them;
    * `handle_exits`: every way out of the handler, with the requests made until then;
    * `funding_sound`: what is asked for, what is handed over, and what is reported. -/

namespace FundingFlow

open Binary64 FeeBuckets FeeRates KeyText SectionDefault WalletUtxos

/-! ## Requests and answers -/

/-- A number in a request is a float. -/
inductive RpcRequest where
  | createrawtransaction (outputs : List (List (String × ℚ)))
  | fundrawtransaction (rawTx : String) (feeRate : ℚ) (replaceable : Bool)
  | signrawtransactionwithwallet (txHex : String)
  deriving DecidableEq

/-- The answer to a request, after the ones before it. -/
abbrev Bitcoind := List RpcRequest → RpcRequest → Except String Json

/-- `bitcoin_bech32::constants::Network`. -/
inductive Bech32Network where
  | bitcoin
  | testnet
  | regtest
  | signet
  deriving DecidableEq, Repr

/-- The network is one of the four; the last arm of the source is for later ones. -/
def bech32Network : Network → Bech32Network
  | .bitcoin => .bitcoin
  | .regtest => .regtest
  | .signet => .signet
  | .testnet => .testnet

/-- `as_i64_field`. -/
def asI64Field (json : Json) (field : String) : Except String Int64 :=
  match json.index field with
  | .number n =>
      if n.decimals = 0 ∧ -2 ^ 63 ≤ n.digits ∧ n.digits < 2 ^ 63 then
        .ok (Int64.ofInt n.digits)
      else .error (invalidField field "expected signed integer")
  | _ => .error (invalidField field "expected signed integer")

/-- `as_bool_field`. -/
def asBoolField (json : Json) (field : String) : Except String Bool :=
  match json.index field with
  | .boolean value => .ok value
  | _ => .error (invalidField field "expected boolean")

/-- `TryInto<RawTx>`. -/
def rawTx : Json → Except String String
  | .string hex => .ok hex
  | _ => .error (invalidField "<root>" "expected raw transaction hex string")

/-- `FundedTx`. -/
structure FundedTx where
  changepos : Int64
  hex       : String
  deriving DecidableEq, Repr

/-- Its `try_into`, in the order of the fields. -/
def fundedTx (json : Json) : Except String FundedTx := do
  let changepos ← asI64Field json "changepos"
  let hex ← asStrField json "hex"
  return ⟨changepos, hex⟩

/-- `SignedTx`. -/
structure SignedTx where
  complete : Bool
  hex      : String
  deriving DecidableEq, Repr

/-- Its `try_into`, where `hex` is read first. -/
def signedTx (json : Json) : Except String SignedTx := do
  let hex ← asStrField json "hex"
  let complete ← asBoolField json "complete"
  return ⟨complete, hex⟩

/-! ## The client -/

variable (bitcoind : Bitcoind) (fees : Fees)

/-- `create_raw_transaction`. -/
def createRequest (addr : String) (channelValueSatoshis : UInt64) : RpcRequest :=
  .createrawtransaction [[(addr, rounded (rounded channelValueSatoshis.toNat / 100000000))]]

/-- `fund_raw_transaction`. -/
def fundRequest (raw : String) : RpcRequest := .fundrawtransaction raw (fundingFeeRate fees) false

/-- `sign_raw_transaction_with_wallet`. -/
def signRequest (hex : String) : RpcRequest := .signrawtransactionwithwallet hex

/-- `call_method`: an answer that does not parse is an error too. -/
def callMethod {β : Type} (made : List RpcRequest) (request : RpcRequest)
    (parse : Json → Except String β) : Except String β :=
  bitcoind made request >>= parse

/-! ## The handler -/

/-- What the handler does to the outside: requests, lines for the user, and the call of
    the channel manager. -/
inductive Effect (κ ν χ : Type) where
  | request (r : RpcRequest)
  | userErr (message : String)
  | prompt
  | fundingTransactionGenerated (temporaryChannelId : κ) (counterpartyNodeId : ν) (tx : χ)

/-- The address of a script, and the transactions that bytes are read as. -/
structure FundingLib (χ : Type) where
  fromScriptpubkey : List UInt8 → Bech32Network → Except String String
  deserialize      : List UInt8 → Except String χ

/-- `Event::FundingGenerationReady`. -/
structure FundingGenerationReady (κ ν : Type) where
  temporaryChannelId   : κ
  counterpartyNodeId   : ν
  channelValueSatoshis : UInt64
  outputScript         : List UInt8

variable {κ ν χ : Type} (L : FundingLib χ) (network : Network)
  (funds : κ → ν → χ → Bool) (event : FundingGenerationReady κ ν)

/-- What every failure of the arm ends with. -/
def reported (message : String) : List (Effect κ ν χ) := [.userErr message, .prompt]

/-- After the signed transaction has come back; `funds` is whether the manager takes it. -/
def handOver (signed : SignedTx) : List (Effect κ ν χ) :=
  if !signed.complete then
    reported "Wallet returned incomplete funding transaction signature"
  else
    match toVec signed.hex with
    | none => reported "Failed to decode signed funding transaction hex"
    | some signedTxBytes =>
        match L.deserialize signedTxBytes with
        | .error e => reported ("Failed to deserialize signed funding transaction: " ++ e)
        | .ok finalTx =>
            .fundingTransactionGenerated event.temporaryChannelId event.counterpartyNodeId
              finalTx ::
            if funds event.temporaryChannelId event.counterpartyNodeId finalTx then []
            else reported ("Channel went away before we could fund it. " ++
              "The peer disconnected or refused the channel.")

/-- The arm: an address, three calls of bitcoind, and the channel manager's answer; each
    failure is reported and ends it. -/
def handleFundingGenerationReady : List (Effect κ ν χ) :=
  match L.fromScriptpubkey event.outputScript (bech32Network network) with
  | .error e => reported ("failed to derive funding address from script: " ++ e)
  | .ok addr =>
      let create := createRequest addr event.channelValueSatoshis
      .request create ::
      match callMethod bitcoind [] create rawTx with
      | .error e => reported ("failed to create raw funding transaction: " ++ e)
      | .ok raw =>
          let fund := fundRequest fees raw
          .request fund ::
          match callMethod bitcoind [create] fund fundedTx with
          | .error e => reported ("failed to fund raw transaction: " ++ e)
          | .ok funded =>
              let sign := signRequest funded.hex
              .request sign ::
              match callMethod bitcoind [create, fund] sign signedTx with
              | .error e => reported ("failed to sign funding transaction: " ++ e)
              | .ok signed => handOver L funds event signed

/-! ## The ways out -/

/-- The requests that the answers lead to, step after step. -/
inductive Steps : List RpcRequest → Prop where
  | none : Steps []
  | create {addr : String}
      (haddr : L.fromScriptpubkey event.outputScript (bech32Network network) = .ok addr) :
      Steps [createRequest addr event.channelValueSatoshis]
  | fund {create : RpcRequest} {raw : String} (h : Steps [create])
      (hraw : callMethod bitcoind [] create rawTx = .ok raw) :
      Steps [create, fundRequest fees raw]
  | sign {create fund : RpcRequest} {funded : FundedTx} (h : Steps [create, fund])
      (hfunded : callMethod bitcoind [create] fund fundedTx = .ok funded) :
      Steps [create, fund, signRequest funded.hex]

/-- The wallet signed a transaction completely, and its hex is that of `tx`. -/
def SignedAs (signed : SignedTx) (tx : χ) : Prop :=
  signed.complete = true ∧ ∃ bytes, toVec signed.hex = some bytes ∧ L.deserialize bytes = .ok tx

/-- Every step went well. -/
def Funded (tx : χ) : Prop :=
  ∃ create fund sign signed, Steps bitcoind fees L network event [create, fund, sign] ∧
    callMethod bitcoind [create, fund] sign signedTx = .ok signed ∧ SignedAs L signed tx

variable {bitcoind fees L network funds event}

/-- A signing request has all the steps behind it. -/
theorem steps_sign {create fund sign : RpcRequest}
    (h : Steps bitcoind fees L network event [create, fund, sign]) :
    ∃ addr raw funded, L.fromScriptpubkey event.outputScript (bech32Network network) = .ok addr ∧
      create = createRequest addr event.channelValueSatoshis ∧
      callMethod bitcoind [] create rawTx = .ok raw ∧ fund = fundRequest fees raw ∧
      callMethod bitcoind [create] fund fundedTx = .ok funded ∧
      sign = signRequest funded.hex := by
  cases h with
  | sign h hfunded =>
      cases h with
      | fund h hraw =>
          cases h with
          | create haddr => exact ⟨_, _, _, haddr, rfl, hraw, rfl, hfunded, rfl⟩

/-- The steps determine the transaction. -/
theorem funded_unique {tx tx' : χ} (h : Funded bitcoind fees L network event tx)
    (h' : Funded bitcoind fees L network event tx') : tx = tx' := by
  obtain ⟨create, fund, sign, signed, hsteps, hsigned, -, bytes, hbytes, htx⟩ := h
  obtain ⟨create', fund', sign', signed', hsteps', hsigned', -, bytes', hbytes', htx'⟩ := h'
  obtain ⟨addr, raw, funded, haddr, rfl, hraw, rfl, hfunded, rfl⟩ := steps_sign hsteps
  obtain ⟨addr', raw', funded', haddr', rfl, hraw', rfl, hfunded', rfl⟩ := steps_sign hsteps'
  obtain rfl := Except.ok.inj (haddr.symm.trans haddr')
  obtain rfl := Except.ok.inj (hraw.symm.trans hraw')
  obtain rfl := Except.ok.inj (hfunded.symm.trans hfunded')
  obtain rfl := Except.ok.inj (hsigned.symm.trans hsigned')
  obtain rfl := Option.some.inj (hbytes.symm.trans hbytes')
  exact Except.ok.inj (htx.symm.trans htx')

/-- What `handOver` does with what the wallet signed. -/
theorem handOver_exits (signed : SignedTx) :
    (∃ tx, SignedAs L signed tx ∧ (handOver L funds event signed : List (Effect κ ν χ)) =
      .fundingTransactionGenerated event.temporaryChannelId event.counterpartyNodeId tx ::
        if funds event.temporaryChannelId event.counterpartyNodeId tx then []
        else reported ("Channel went away before we could fund it. " ++
          "The peer disconnected or refused the channel.")) ∨
    ((∀ tx, ¬ SignedAs L signed tx) ∧
      ∃ message, (handOver L funds event signed : List (Effect κ ν χ)) = reported message) := by
  rw [handOver]
  cases hcomplete : signed.complete with
  | false => exact .inr ⟨fun tx h => absurd (hcomplete.symm.trans h.1) (by decide), _, rfl⟩
  | true =>
      cases hbytes : toVec signed.hex with
      | none =>
          refine .inr ⟨fun tx h => ?_, _, rfl⟩
          obtain ⟨-, bytes, hsome, -⟩ := h
          exact absurd (hbytes.symm.trans hsome) (by simp)
      | some bytes =>
          cases htx : L.deserialize bytes with
          | error e =>
              refine .inr ⟨fun tx h => ?_, _, by simp only [Bool.not_true, htx]; rfl⟩
              obtain ⟨-, bytes', hsome, hok⟩ := h
              obtain rfl := Option.some.inj (hbytes.symm.trans hsome)
              exact absurd (htx.symm.trans hok) (by simp)
          | ok tx =>
              exact .inl ⟨tx, ⟨hcomplete, bytes, hbytes, htx⟩,
                by simp only [Bool.not_true, htx]; rfl⟩

/-- **EVERY WAY OUT**: the requests follow one another, and either the transaction is
    handed over or no transaction could have been. -/
theorem handle_exits :
    ∃ requests rest, handleFundingGenerationReady bitcoind fees L network funds event =
        requests.map Effect.request ++ rest ∧ Steps bitcoind fees L network event requests ∧
      ((∃ tx, Funded bitcoind fees L network event tx ∧ rest =
        .fundingTransactionGenerated event.temporaryChannelId event.counterpartyNodeId tx ::
          if funds event.temporaryChannelId event.counterpartyNodeId tx then []
          else reported ("Channel went away before we could fund it. " ++
            "The peer disconnected or refused the channel.")) ∨
      ((∀ tx, ¬ Funded bitcoind fees L network event tx) ∧
        ∃ message, rest = reported message)) := by
  cases haddr : L.fromScriptpubkey event.outputScript (bech32Network network) with
  | error e =>
      refine ⟨[], reported _, by rw [handleFundingGenerationReady, haddr]; rfl, .none,
        .inr ⟨fun tx h => ?_, _, rfl⟩⟩
      obtain ⟨create, fund, sign, signed, hsteps, -⟩ := h
      obtain ⟨addr', raw', funded', haddr', -⟩ := steps_sign hsteps
      exact absurd (haddr.symm.trans haddr') (by simp)
  | ok addr =>
  have hcreate : Steps bitcoind fees L network event [_] := .create haddr
  cases hraw : callMethod bitcoind [] (createRequest addr event.channelValueSatoshis) rawTx with
  | error e =>
      refine ⟨[_], reported _, by simp only [handleFundingGenerationReady, haddr, hraw]; rfl,
        hcreate, .inr ⟨fun tx h => ?_, _, rfl⟩⟩
      obtain ⟨create, fund, sign, signed, hsteps, -⟩ := h
      obtain ⟨addr', raw', funded', haddr', rfl, hraw', -⟩ := steps_sign hsteps
      obtain rfl := Except.ok.inj (haddr.symm.trans haddr')
      exact absurd (hraw.symm.trans hraw') (by simp)
  | ok raw =>
  have hfund := hcreate.fund hraw
  cases hfunded : callMethod bitcoind [createRequest addr event.channelValueSatoshis]
      (fundRequest fees raw) fundedTx with
  | error e =>
      refine ⟨[_, _], reported _,
        by simp only [handleFundingGenerationReady, haddr, hraw, hfunded]; rfl,
        hfund, .inr ⟨fun tx h => ?_, _, rfl⟩⟩
      obtain ⟨create, fund, sign, signed, hsteps, -⟩ := h
      obtain ⟨addr', raw', funded', haddr', rfl, hraw', rfl, hfunded', -⟩ := steps_sign hsteps
      obtain rfl := Except.ok.inj (haddr.symm.trans haddr')
      obtain rfl := Except.ok.inj (hraw.symm.trans hraw')
      exact absurd (hfunded.symm.trans hfunded') (by simp)
  | ok funded =>
  have hsign := hfund.sign hfunded
  -- the requests of a funded channel are these three
  have hthree : ∀ {create fund sign : RpcRequest},
      Steps bitcoind fees L network event [create, fund, sign] →
        create = createRequest addr event.channelValueSatoshis ∧ fund = fundRequest fees raw ∧
          sign = signRequest funded.hex := by
    intro create fund sign hsteps
    obtain ⟨addr', raw', funded', haddr', rfl, hraw', rfl, hfunded', rfl⟩ := steps_sign hsteps
    obtain rfl := Except.ok.inj (haddr.symm.trans haddr')
    obtain rfl := Except.ok.inj (hraw.symm.trans hraw')
    obtain rfl := Except.ok.inj (hfunded.symm.trans hfunded')
    exact ⟨rfl, rfl, rfl⟩
  cases hsigned : callMethod bitcoind [createRequest addr event.channelValueSatoshis,
      fundRequest fees raw] (signRequest funded.hex) signedTx with
  | error e =>
      refine ⟨[_, _, _], reported _,
        by simp only [handleFundingGenerationReady, haddr, hraw, hfunded, hsigned]; rfl,
        hsign, .inr ⟨fun tx h => ?_, _, rfl⟩⟩
      obtain ⟨create, fund, sign, signed, hsteps, hsigned', -⟩ := h
      obtain ⟨rfl, rfl, rfl⟩ := hthree hsteps
      exact absurd (hsigned.symm.trans hsigned') (by simp)
  | ok signed =>
  refine ⟨[_, _, _], handOver L funds event signed,
    by simp only [handleFundingGenerationReady, haddr, hraw, hfunded, hsigned]; rfl, hsign, ?_⟩
  rcases handOver_exits signed with ⟨tx, htx, heq⟩ | ⟨hnone, message, heq⟩
  · exact .inl ⟨tx, ⟨_, _, _, signed, hsign, hsigned, htx⟩, heq⟩
  · refine .inr ⟨fun tx h => ?_, message, heq⟩
    obtain ⟨create, fund, sign, signed', hsteps, hsigned', htx⟩ := h
    obtain ⟨rfl, rfl, rfl⟩ := hthree hsteps
    obtain rfl := Except.ok.inj (hsigned.symm.trans hsigned')
    exact hnone tx htx

/-! ## Soundness -/

/-- The calls that were made. -/
def requestsOf (effects : List (Effect κ ν χ)) : List RpcRequest :=
  effects.filterMap fun
    | .request r => some r
    | _ => none

/-- What was said to the user. -/
def messagesOf (effects : List (Effect κ ν χ)) : List String :=
  effects.filterMap fun
    | .userErr message => some message
    | _ => none

theorem requestsOf_append (requests : List RpcRequest) (rest : List (Effect κ ν χ)) :
    requestsOf (requests.map Effect.request ++ rest) = requests ++ requestsOf rest := by
  rw [requestsOf, List.filterMap_append, List.filterMap_map]
  exact congrArg (· ++ _) (List.filterMap_some)

theorem messagesOf_append (requests : List RpcRequest) (rest : List (Effect κ ν χ)) :
    messagesOf (requests.map Effect.request ++ rest) = messagesOf rest := by
  rw [messagesOf, List.filterMap_append, List.filterMap_map]
  exact congrArg (· ++ _) (List.filterMap_eq_nil_iff.mpr fun _ _ => rfl)

/-- An amount that is sent is the amount itself, in bitcoin. -/
theorem amount_text {value : UInt64} (h : value.toNat ≤ maxMoney) {t : Decimal}
    (ht : Shortest (rounded (rounded value.toNat / 100000000)) t) :
    t.value = value.toNat / 10 ^ 8 := by
  have hunits := maxMoney_units
  rw [rounded_natCast (by omega)] at ht
  refine shortest_decimal (by omega) (by norm_num) ?_
  convert ht using 3
  norm_num

/-- What the three requests ask for, at any fees above the floor. -/
def AsksFor (event : FundingGenerationReady κ ν) (addr : String) : RpcRequest → Prop
  | .createrawtransaction outputs => ∃ amount, outputs = [[(addr, amount)]] ∧
      ∀ t, Shortest amount t → t.value = event.channelValueSatoshis.toNat / 10 ^ 8
  | .fundrawtransaction _ feeRate replaceable => replaceable = false ∧
      ∀ t, Shortest feeRate t → ∃ satPerKw : ℕ, 253 ≤ satPerKw ∧
        t.value = (4 * satPerKw : ℕ) / 10 ^ 3
  | .signrawtransactionwithwallet _ => True

/-- Each call asks for what the event wants, with no rate under the floor. -/
theorem steps_asksFor {requests : List RpcRequest}
    (h : Steps bitcoind fees L network event requests) (hfloor : Floored fees)
    (hvalue : event.channelValueSatoshis.toNat ≤ maxMoney) :
    ∀ r ∈ requests, ∃ addr,
      L.fromScriptpubkey event.outputScript (bech32Network network) = .ok addr ∧
        AsksFor event addr r := by
  induction h with
  | none => exact fun r hr => nomatch hr
  | create haddr =>
      intro r hr
      obtain rfl := List.mem_singleton.mp hr
      exact ⟨_, haddr, _, rfl, fun t ht => amount_text hvalue ht⟩
  | fund h hraw ih =>
      intro r hr
      rcases List.mem_cons.mp hr with rfl | hr
      · exact ih _ (List.mem_singleton_self _)
      · obtain rfl := List.mem_singleton.mp hr
        -- the rate is one of the poller at this moment, so it is floored
        obtain ⟨addr, haddr, -⟩ := ih _ (List.mem_singleton_self _)
        exact ⟨addr, haddr, rfl, fun t ht => ⟨_,
          UInt32.le_iff_toNat_le.mp (hfloor .nonAnchorChannelFee (by decide)),
          fundingFeeRate_text ht⟩⟩
  | @sign create fund funded h hfunded ih =>
      intro r hr
      have hr : r ∈ [create, fund] ++ [signRequest funded.hex] := hr
      rcases List.mem_append.mp hr with hr | hr
      · exact ih r hr
      · obtain rfl := List.mem_singleton.mp hr
        obtain ⟨addr, haddr, -⟩ := ih _ (List.mem_cons_self ..)
        exact ⟨addr, haddr, trivial⟩

/-- **THE FUNDING IS SOUND**: at any moment of the fee poller and for any answers of
    `bitcoind`, each request is the next step after answers that parse, the output is the
    script of the channel with exactly its amount, the fee is final and at least 1.012
    satoshis for a virtual byte; the manager is handed what the wallet signed if and only
    if every step went well, and otherwise, or when it refuses, there is one message. -/
theorem funding_sound {s : FeePoller.Poller}
    (hreach : LabelledRun.Reach FeePoller.step LabelledRun.anyStep FeePoller.newPoller s)
    (hvalue : event.channelValueSatoshis.toNat ≤ maxMoney)
    {effects : List (Effect κ ν χ)}
    (heffects : effects = handleFundingGenerationReady bitcoind s.fees L network funds event) :
    Steps bitcoind s.fees L network event (requestsOf effects) ∧
    (∀ r ∈ requestsOf effects, ∃ addr,
      L.fromScriptpubkey event.outputScript (bech32Network network) = .ok addr ∧
        AsksFor event addr r) ∧
    (∀ id node tx, .fundingTransactionGenerated id node tx ∈ effects ↔
      id = event.temporaryChannelId ∧ node = event.counterpartyNodeId ∧
        Funded bitcoind s.fees L network event tx) ∧
    (messagesOf effects).length ≤ 1 ∧
    (messagesOf effects = [] ↔ ∃ tx, Funded bitcoind s.fees L network event tx ∧
      funds event.temporaryChannelId event.counterpartyNodeId tx = true) := by
  subst heffects
  obtain ⟨requests, rest, heffects, hsteps, hrest⟩ :=
    @handle_exits bitcoind s.fees κ ν χ L network funds event
  have hasks := steps_asksFor hsteps (FeePoller.underway_floored (FeePoller.reach_underway hreach))
    hvalue
  rw [heffects, requestsOf_append, messagesOf_append]
  rcases hrest with ⟨tx, htx, rfl⟩ | ⟨hnone, message, rfl⟩
  · -- what the manager is handed: one transaction, which the answers determine
    have hhanded : ∀ (rest : List (Effect κ ν χ)) id node tx',
        (∀ id node tx', Effect.fundingTransactionGenerated id node tx' ∉ rest) →
          (Effect.fundingTransactionGenerated id node tx' ∈
              requests.map Effect.request ++ Effect.fundingTransactionGenerated
                event.temporaryChannelId event.counterpartyNodeId tx :: rest ↔
            id = event.temporaryChannelId ∧ node = event.counterpartyNodeId ∧
              Funded bitcoind s.fees L network event tx') := by
      intro rest id node tx' hrest
      rw [List.mem_append, List.mem_cons, or_iff_left (hrest id node tx'),
        or_iff_right fun h => by simp at h, Effect.fundingTransactionGenerated.injEq]
      refine and_congr_right fun _ => and_congr_right fun _ => ?_
      exact ⟨fun h => h ▸ htx, fun h => funded_unique h htx⟩
    by_cases hfunds : funds event.temporaryChannelId event.counterpartyNodeId tx = true
    · rw [if_pos hfunds]
      refine ⟨(List.append_nil requests).symm ▸ hsteps, (List.append_nil requests).symm ▸ hasks,
        fun id node tx' => hhanded [] id node tx' fun _ _ _ => List.not_mem_nil, Nat.zero_le _, ?_⟩
      exact iff_of_true rfl ⟨tx, htx, hfunds⟩
    · rw [if_neg hfunds]
      refine ⟨(List.append_nil requests).symm ▸ hsteps, (List.append_nil requests).symm ▸ hasks,
        fun id node tx' => hhanded (reported _) id node tx' fun _ _ _ h => by simp [reported] at h,
        le_refl 1, ?_⟩
      refine iff_of_false (fun h => nomatch h) ?_
      rintro ⟨tx', htx', hfunds'⟩
      exact hfunds (funded_unique htx' htx ▸ hfunds')
  · refine ⟨(List.append_nil requests).symm ▸ hsteps, (List.append_nil requests).symm ▸ hasks,
      fun id node tx => ?_, le_refl 1, ?_⟩
    · refine iff_of_false (fun h => ?_) fun h => hnone tx h.2.2
      simp [reported] at h
    · exact iff_of_false (fun h => nomatch h) fun ⟨tx, htx, _⟩ => hnone tx htx

/-- A wallet that signs whatever it is asked for. -/
def willingBitcoind : Bitcoind := fun _ => fun
  | .createrawtransaction _ => .ok (.string "01")
  | .fundrawtransaction _ _ _ =>
      .ok (.object [("hex", .string "02"), ("changepos", .number ⟨-1, 0⟩)])
  | .signrawtransactionwithwallet _ =>
      .ok (.object [("hex", .string "03aa"), ("complete", .boolean true)])

/-- Scripts and transactions that always decode. -/
def bytesLib : FundingLib (List UInt8) := ⟨fun _ _ => .ok "bcrt1q", .ok⟩

/-- An event for a channel of 100000 sat. -/
def smallChannel : FundingGenerationReady ℕ ℕ := ⟨7, 8, 100000, []⟩

theorem willing_funded (fees : Fees) :
    Funded willingBitcoind fees bytesLib .regtest smallChannel [0x03, 0xaa] :=
  ⟨_, _, _, ⟨true, "03aa"⟩,
    ((Steps.create rfl).fund (show callMethod _ _ _ rawTx = .ok "01" from rfl)).sign
      (show callMethod _ _ _ fundedTx = .ok ⟨-1, "02"⟩ from rfl), rfl, rfl, _, by decide, rfl⟩

/-- Before the first fee estimate. -/
theorem funding_sound_smallChannel :
    let effects := handleFundingGenerationReady willingBitcoind initialFees bytesLib .regtest
      (fun _ _ _ => true) smallChannel
    Effect.fundingTransactionGenerated 7 8 [0x03, 0xaa] ∈ effects ∧ messagesOf effects = [] := by
  intro effects
  obtain ⟨-, -, hhanded, -, hsilent⟩ := funding_sound (LabelledRun.reach_refl FeePoller.newPoller)
    (by decide) (rfl : effects = _)
  exact ⟨(hhanded 7 8 _).mpr ⟨rfl, rfl, willing_funded initialFees⟩,
    hsilent.mpr ⟨_, willing_funded initialFees, rfl⟩⟩

end FundingFlow

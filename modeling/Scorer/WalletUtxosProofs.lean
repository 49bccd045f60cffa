import Mathlib

/-! # The UTXOs of the wallet

    `list_confirmed_utxos` parses the answer of `listunspent` entry by entry and keeps
    the outputs of the two kinds it can spend.  The parser asks more of an entry than
    bitcoind promises, and of every entry, not only of those that are kept.

    * `listUnspentResponse` and `listConfirmedUtxos` follow the source;
    * `Documents`: an entry as bitcoind documents it;
    * `utxos_read_exactly_iff`: for which answers the usable outputs are returned, each
      with its own values. -/

namespace WalletUtxos

/-! ## JSON -/

/-- A number of the text: `digits` with the last `decimals` of them behind the point. -/
structure JsonNumber where
  digits   : Int
  decimals : Nat
  deriving DecidableEq, Repr

/-- `serde_json::Value`, with the members of an object as a list. -/
inductive Json where
  | null
  | boolean (value : Bool)
  | number (value : JsonNumber)
  | string (content : String)
  | array (items : List Json)
  | object (members : List (String × Json))

/-- `json[field]`: `Null` for what is not there. -/
def Json.index (json : Json) (field : String) : Json :=
  match json with
  | .object members => (members.lookup field).getD .null
  | _ => .null

/-- `invalid_field`. -/
def invalidField (field message : String) : String :=
  "invalid or missing field `" ++ field ++ "` in bitcoind response: " ++ message

/-- `as_str_field`. -/
def asStrField (json : Json) (field : String) : Except String String :=
  match json.index field with
  | .string content => .ok content
  | _ => .error (invalidField field "expected string")

/-- `as_u64_field`. -/
def asU64Field (json : Json) (field : String) : Except String UInt64 :=
  match json.index field with
  | .number n =>
      if n.decimals = 0 ∧ 0 ≤ n.digits ∧ n.digits < 2 ^ 64 then
        .ok (UInt64.ofNat n.digits.toNat)
      else .error (invalidField field "expected unsigned integer")
  | _ => .error (invalidField field "expected unsigned integer")

/-- The value is the number of the text; rounding it is left to `f64` below. -/
def asF64Field (json : Json) (field : String) : Except String JsonNumber :=
  match json.index field with
  | .number n => .ok n
  | _ => .error (invalidField field "expected number")

/-! ## Transactions -/

/-- A segregated-witness program of an address. -/
structure WitnessProgram where
  version : Nat
  program : List UInt8
  deriving DecidableEq, Repr

/-- `is_p2wpkh`. -/
def WitnessProgram.isP2wpkh (prog : WitnessProgram) : Bool :=
  prog.version == 0 && prog.program.length == 20

/-- `is_p2tr`. -/
def WitnessProgram.isP2tr (prog : WitnessProgram) : Bool :=
  prog.version == 1 && prog.program.length == 32

/-- `WPubkeyHash::from_slice`. -/
def wPubkeyHash (bytes : List UInt8) : Option (List UInt8) :=
  if bytes.length = 20 then some bytes else none

/-- Which output of which transaction. -/
structure OutPoint (τ : Type) where
  txid : τ
  vout : UInt32
  deriving DecidableEq, Repr

/-- What LDK is given to spend. -/
structure Utxo (τ : Type) where
  outpoint           : OutPoint τ
  value              : UInt64
  scriptPubkey       : List UInt8
  satisfactionWeight : UInt64
  deriving DecidableEq, Repr

/-- All the bitcoin there is, in satoshis. -/
def maxMoney : Nat := 21000000 * 100000000

/-- What the code takes from the libraries: transaction ids `τ`, addresses `α` and
    floating-point numbers `φ`.  The laws are that an amount with at most eight
    decimals is converted exactly, and that a new P2WPKH output is the one asked for. -/
structure BitcoinLib (τ α φ : Type) where
  txidFromStr    : String → Except String τ
  addressFromStr : String → Except String α
  witnessProgram : α → Option WitnessProgram
  scriptPubkey   : α → List UInt8
  xOnlyPublicKey : List UInt8 → Bool
  f64            : JsonNumber → φ
  amountFromBtc  : φ → Except String UInt64
  newV0P2wpkh    : OutPoint τ → UInt64 → List UInt8 → Utxo τ
  fromBtc_exact  : ∀ digits decimals : Nat, decimals ≤ 8 →
    digits * 10 ^ (8 - decimals) ≤ maxMoney →
    amountFromBtc (f64 ⟨digits, decimals⟩) = .ok (UInt64.ofNat (digits * 10 ^ (8 - decimals)))
  new_outpoint   : ∀ outpoint value wpkh, (newV0P2wpkh outpoint value wpkh).outpoint = outpoint
  new_value      : ∀ outpoint value wpkh, (newV0P2wpkh outpoint value wpkh).value = value

variable {τ α φ : Type} (L : BitcoinLib τ α φ)

/-! ## Parsing and filtering -/

/-- `ListUnspentUtxo`. -/
structure ListUnspentUtxo (τ α : Type) where
  txid    : τ
  vout    : UInt32
  amount  : UInt64
  address : α
  deriving DecidableEq, Repr

/-- A field that is there and does not parse. -/
def invalidInResponse (field e : String) : String :=
  "invalid field `" ++ field ++ "` in listunspent response: " ++ e

/-- The body of the loop over the entries. -/
def parseUtxo (utxo : Json) : Except String (ListUnspentUtxo τ α) := do
  let txidStr ← asStrField utxo "txid"
  let txid ← (L.txidFromStr txidStr).mapError (invalidInResponse "txid")
  let vout ← asU64Field utxo "vout"
  let btc ← asF64Field utxo "amount"
  let amount ← (L.amountFromBtc (L.f64 btc)).mapError (invalidInResponse "amount")
  let addressStr ← asStrField utxo "address"
  let address ← (L.addressFromStr addressStr).mapError (invalidInResponse "address")
  -- `as u32` keeps the low 32 bits
  return ⟨txid, vout.toUInt32, amount, address⟩

/-- The loop: the first entry that does not parse ends it. -/
def parseUtxos : List Json → Except String (List (ListUnspentUtxo τ α))
  | [] => .ok []
  | utxo :: rest =>
      match parseUtxo L utxo with
      | .error e => .error e
      | .ok parsed => (parseUtxos rest).map (parsed :: ·)

/-- `TryInto<ListUnspentResponse>`. -/
def listUnspentResponse : Json → Except String (List (ListUnspentUtxo τ α))
  | .array utxoEntries => parseUtxos L utxoEntries
  | _ => .error (invalidField "<root>" "expected array of UTXOs")

/-- The closure of the `filter_map`. -/
def walletUtxo (utxo : ListUnspentUtxo τ α) : Option (Utxo τ) :=
  let outpoint : OutPoint τ := ⟨utxo.txid, utxo.vout⟩
  match L.witnessProgram utxo.address with
  | some prog =>
      if prog.isP2wpkh then
        (wPubkeyHash prog.program).map (L.newV0P2wpkh outpoint utxo.amount)
      else if prog.isP2tr then
        if L.xOnlyPublicKey prog.program then
          some { outpoint := outpoint
                 value := utxo.amount
                 scriptPubkey := L.scriptPubkey utxo.address
                 satisfactionWeight := 4 + 1 + 1 + 64 }
        else none
      else none
  | none => none

/-- `list_confirmed_utxos`, on the answer to `listunspent`. -/
def listConfirmedUtxos (response : Json) : Except Unit (List (Utxo τ)) :=
  match listUnspentResponse L response with
  | .ok utxos => .ok (utxos.filterMap (walletUtxo L))
  | .error _ => .error ()

/-! ## What bitcoind documents -/

/-- An unspent output, with its amount in satoshis; some scripts have no address. -/
structure Unspent (τ α : Type) where
  txid    : τ
  vout    : Nat
  amount  : Nat
  address : Option α
  deriving DecidableEq, Repr

/-- How bitcoind documents an entry of `listunspent`. -/
structure Documents (entry : Json) (u : Unspent τ α) : Prop where
  txid : ∃ s, entry.index "txid" = .string s ∧ L.txidFromStr s = .ok u.txid
  vout : entry.index "vout" = .number ⟨u.vout, 0⟩
  amount : ∃ digits decimals : Nat, entry.index "amount" = .number ⟨digits, decimals⟩ ∧
    decimals ≤ 8 ∧ u.amount = digits * 10 ^ (8 - decimals) ∧ u.amount ≤ maxMoney
  address : match u.address with
    | some a => ∃ s, entry.index "address" = .string s ∧ L.addressFromStr s = .ok a
    | none => entry.index "address" = .null

/-- The address is P2WPKH or P2TR. -/
def usable (u : Unspent τ α) : Bool :=
  match u.address.bind L.witnessProgram with
  | some prog => prog.isP2wpkh || prog.isP2tr
  | none => false

/-- The response is an array of entries for these outputs. -/
def Response (response : Json) (us : List (Unspent τ α)) : Prop :=
  ∃ entries, response = .array entries ∧ List.Forall₂ (Documents L) entries us

/-- The usable outputs are returned, in order, each with its very values. -/
def ReadExactly (response : Json) (us : List (Unspent τ α)) : Prop :=
  ∃ utxos, listConfirmedUtxos L response = .ok utxos ∧
    utxos.map (fun u => (u.outpoint.txid, u.outpoint.vout.toNat, u.value.toNat)) =
      (us.filter (usable L)).map fun u => (u.txid, u.vout, u.amount)

/-- What the code needs of an output: an address, an index that fits, and for P2TR a
    program that is the coordinate of a point. -/
structure Readable (u : Unspent τ α) : Prop where
  addressed : u.address.isSome
  parsed : u.vout < 2 ^ 64
  fits : usable L u = true → u.vout < 2 ^ 32
  key : ∀ prog, u.address.bind L.witnessProgram = some prog → prog.isP2tr = true →
    L.xOnlyPublicKey prog.program = true

variable {L} {entry : Json} {u : Unspent τ α}

/-! ## One entry -/

theorem maxMoney_lt : maxMoney < 2 ^ 64 := by decide

/-- An output number is read if it fits a `u64`. -/
theorem asU64Field_vout (h : Documents L entry u) :
    asU64Field entry "vout" =
      if u.vout < 2 ^ 64 then .ok (UInt64.ofNat u.vout)
      else .error (invalidField "vout" "expected unsigned integer") := by
  rw [asU64Field, h.vout]
  by_cases hv : u.vout < 2 ^ 64
  · have hv' : (u.vout : Int) < 2 ^ 64 := by exact_mod_cast hv
    rw [if_pos hv]
    exact if_pos ⟨rfl, Int.natCast_nonneg _, hv'⟩
  · rw [if_neg hv]
    refine if_neg fun hand => hv ?_
    have hlt : (u.vout : Int) < 2 ^ 64 := hand.2.2
    exact_mod_cast hlt

/-- Of a documented entry, the index and the address decide. -/
theorem parseUtxo_documented (h : Documents L entry u) :
    parseUtxo L entry = do
      let vout ← asU64Field entry "vout"
      let addressStr ← asStrField entry "address"
      let address ← (L.addressFromStr addressStr).mapError (invalidInResponse "address")
      return ⟨u.txid, vout.toUInt32, UInt64.ofNat u.amount, address⟩ := by
  obtain ⟨txidStr, htxidStr, htxid⟩ := h.txid
  obtain ⟨digits, decimals, hbtc, hdecimals, hamount, hmax⟩ := h.amount
  have hexact := L.fromBtc_exact digits decimals hdecimals (hamount ▸ hmax)
  have htxidField : asStrField entry "txid" = .ok txidStr := by rw [asStrField, htxidStr]
  have hbtcField : asF64Field entry "amount" = .ok ⟨digits, decimals⟩ := by
    rw [asF64Field, hbtc]
  rw [parseUtxo, htxidField, hbtcField, hamount]
  show (do
    let txid ← (L.txidFromStr txidStr).mapError (invalidInResponse "txid")
    let vout ← asU64Field entry "vout"
    let amount ← (L.amountFromBtc (L.f64 ⟨digits, decimals⟩)).mapError
      (invalidInResponse "amount")
    let addressStr ← asStrField entry "address"
    let address ← (L.addressFromStr addressStr).mapError (invalidInResponse "address")
    return ListUnspentUtxo.mk txid vout.toUInt32 amount address) = _
  rw [htxid, hexact]
  rfl

/-- An entry that is documented is parsed, with its number cut to 32 bits. -/
theorem parseUtxo_ok (h : Documents L entry u) {a : α} (ha : u.address = some a)
    (hv : u.vout < 2 ^ 64) :
    parseUtxo L entry =
      .ok ⟨u.txid, (UInt64.ofNat u.vout).toUInt32, UInt64.ofNat u.amount, a⟩ := by
  have haddress := h.address
  rw [ha] at haddress
  obtain ⟨addressStr, haddressStr, hparsed⟩ := haddress
  have hfield : asStrField entry "address" = .ok addressStr := by
    rw [asStrField, haddressStr]
  rw [parseUtxo_documented h, asU64Field_vout h, if_pos hv, hfield]
  show (do
    let address ← (L.addressFromStr addressStr).mapError (invalidInResponse "address")
    return ListUnspentUtxo.mk u.txid _ _ address) = _
  rw [hparsed]
  rfl

/-- Unless it has no address, or too large a number. -/
theorem parseUtxo_error (h : Documents L entry u)
    (hbad : u.address = none ∨ ¬ u.vout < 2 ^ 64) : ∃ e, parseUtxo L entry = .error e := by
  rw [parseUtxo_documented h, asU64Field_vout h]
  by_cases hv : u.vout < 2 ^ 64
  · have haddress := h.address
    rw [hbad.resolve_right fun hn => hn hv] at haddress
    have hfield : asStrField entry "address" =
        .error (invalidField "address" "expected string") := by
      rw [asStrField, haddress]
    rw [if_pos hv, hfield]
    exact ⟨_, rfl⟩
  · rw [if_neg hv]
    exact ⟨_, rfl⟩

/-- The UTXO that the code makes of an output, with the index it keeps. -/
def kept (L : BitcoinLib τ α φ) (u : Unspent τ α) : Option (Utxo τ) :=
  u.address.bind fun a =>
    walletUtxo L ⟨u.txid, (UInt64.ofNat u.vout).toUInt32, UInt64.ofNat u.amount, a⟩

/-- What is compared of a UTXO. -/
def reading (x : Utxo τ) : τ × Nat × Nat :=
  (x.outpoint.txid, x.outpoint.vout.toNat, x.value.toNat)

/-- What an output is, for a comparison. -/
def stated (u : Unspent τ α) : τ × Nat × Nat := (u.txid, u.vout, u.amount)

/-- An output of another kind is not kept. -/
theorem kept_unusable (hu : usable L u = false) : kept L u = none := by
  rw [usable] at hu
  cases ha : u.address with
  | none => rw [kept, ha]; rfl
  | some a =>
      rw [ha] at hu
      rw [kept, ha]
      show walletUtxo L _ = none
      rw [walletUtxo]
      cases hp : L.witnessProgram a with
      | none => rfl
      | some prog =>
          have hp' : (some a).bind L.witnessProgram = some prog := hp
          rw [hp'] at hu
          obtain ⟨hw, ht⟩ := Bool.or_eq_false_iff.mp hu
          simp only [hw, ht, Bool.false_eq_true, if_false]

/-- A number beyond 32 bits is wrapped. -/
theorem vout_kept (n : Nat) : (UInt64.ofNat n).toUInt32.toNat = n % 2 ^ 32 := by
  rw [UInt64.toNat_toUInt32, UInt64.toNat_ofNat']
  omega

theorem amount_kept (h : Documents L entry u) : (UInt64.ofNat u.amount).toNat = u.amount := by
  obtain ⟨-, -, -, -, -, hmax⟩ := h.amount
  exact UInt64.toNat_ofNat_of_lt' (Nat.lt_of_le_of_lt hmax maxMoney_lt)

/-- A usable output keeps its values when its index fits; one whose key is no point is
    dropped. -/
theorem kept_usable (h : Documents L entry u) (hu : usable L u = true) :
    (kept L u).map reading = some (stated u) ↔
      u.vout < 2 ^ 32 ∧ ∀ prog, u.address.bind L.witnessProgram = some prog →
        prog.isP2tr = true → L.xOnlyPublicKey prog.program = true := by
  have hfit : ((u.txid, u.vout % 2 ^ 32, u.amount) = stated u) ↔ u.vout < 2 ^ 32 := by
    constructor
    · intro heq
      have hv : u.vout % 2 ^ 32 = u.vout := congrArg (fun x => x.2.1) heq
      rw [← hv]
      exact Nat.mod_lt _ (by omega)
    · intro hv
      rw [Nat.mod_eq_of_lt hv]
      rfl
  rw [usable] at hu
  cases ha : u.address with
  | none => rw [ha] at hu; exact nomatch hu
  | some a =>
      cases hp : L.witnessProgram a with
      | none =>
          rw [ha] at hu
          have hp' : (some a).bind L.witnessProgram = none := hp
          rw [hp'] at hu
          exact nomatch hu
      | some prog =>
          have hp' : (some a).bind L.witnessProgram = some prog := hp
          rw [ha, hp'] at hu
          rw [kept, ha]
          show (walletUtxo L ⟨u.txid, (UInt64.ofNat u.vout).toUInt32,
            UInt64.ofNat u.amount, a⟩).map reading = some (stated u) ↔ _
          have hread : ∀ x : Utxo τ,
              x.outpoint = ⟨u.txid, (UInt64.ofNat u.vout).toUInt32⟩ →
              x.value = UInt64.ofNat u.amount →
              ((some x).map reading = some (stated u) ↔ u.vout < 2 ^ 32) := by
            intro x hout hval
            have heq : reading x = (u.txid, u.vout % 2 ^ 32, u.amount) := by
              rw [reading, hout, hval, vout_kept, amount_kept h]
            rw [Option.map_some, heq, ← hfit]
            exact ⟨Option.some.inj, congrArg some⟩
          rw [walletUtxo, hp, hp']
          cases hw : prog.isP2wpkh with
          | true =>
              obtain ⟨hversion, hlength⟩ := Bool.and_eq_true_iff.mp hw
              -- a version 0 program is no version 1 program
              have hnot : ¬ prog.isP2tr = true := by
                intro ht
                have hone := beq_iff_eq.mp (Bool.and_eq_true_iff.mp ht).1
                rw [beq_iff_eq.mp hversion] at hone
                exact nomatch hone
              simp only [wPubkeyHash, if_pos (beq_iff_eq.mp hlength), if_true, hw]
              rw [Option.map_some, hread _ (L.new_outpoint _ _ _) (L.new_value _ _ _)]
              refine ⟨fun hv => ⟨hv, fun prog' hprog ht => ?_⟩, And.left⟩
              obtain rfl := Option.some.inj hprog
              exact absurd ht hnot
          | false =>
              have ht : prog.isP2tr = true := by
                simpa only [hw, Bool.false_or] using hu
              simp only [hw, ht, Bool.false_eq_true, if_false, if_true]
              by_cases hk : L.xOnlyPublicKey prog.program = true
              · rw [if_pos hk, hread _ rfl rfl]
                refine ⟨fun hv => ⟨hv, fun prog' hprog _ => ?_⟩, And.left⟩
                obtain rfl := Option.some.inj hprog
                exact hk
              · rw [if_neg hk]
                exact ⟨(fun h => nomatch h), fun hand => absurd (hand.2 prog rfl ht) hk⟩

/-! ## The list -/

/-- A `filterMap` that keeps at most what `p` admits gives the stated values of all of
    it exactly when it gives the value of each. -/
private theorem filterMap_eq_iff {β γ : Type} {f : β → Option γ} {g : β → γ} {p : β → Bool}
    (hnone : ∀ b, p b = false → f b = none) (bs : List β) :
    bs.filterMap f = (bs.filter p).map g ↔ ∀ b ∈ bs, p b = true → f b = some (g b) := by
  -- what `p` does not admit, `f` drops anyway
  have hkeep : (fun b => if p b then f b else none) = f := by
    funext b
    cases hp : p b with
    | false => rw [if_neg Bool.false_ne_true, hnone b hp]
    | true => rw [if_pos rfl]
  have hfilter : bs.filterMap f = (bs.filter p).filterMap f := by
    rw [List.filterMap_filter, hkeep]
  rw [hfilter, List.filterMap_eq_map_iff_forall_eq_some]
  simp only [List.mem_filter, and_imp]

variable {entries : List Json} {us : List (Unspent τ α)}

/-- The loop comes to its end when each entry has an address and an index that is a
    `u64`; what the filter then keeps is `kept`. -/
theorem parseUtxos_ok (h : List.Forall₂ (Documents L) entries us)
    (hus : ∀ u ∈ us, u.address.isSome ∧ u.vout < 2 ^ 64) :
    ∃ utxos, parseUtxos L entries = .ok utxos ∧
      utxos.filterMap (walletUtxo L) = us.filterMap (kept L) := by
  induction h with
  | nil => exact ⟨[], rfl, rfl⟩
  | cons hentry hrest ih =>
      rename_i entry u entries us
      obtain ⟨hsome, hv⟩ := hus u List.mem_cons_self
      obtain ⟨a, ha⟩ := Option.isSome_iff_exists.mp hsome
      obtain ⟨utxos, hok, hkept⟩ := ih fun u hu => hus u (List.mem_cons_of_mem _ hu)
      refine ⟨_ :: utxos, by rw [parseUtxos, parseUtxo_ok hentry ha hv, hok]; rfl, ?_⟩
      rw [List.filterMap_cons, hkept, List.filterMap_cons, kept, ha]
      rfl

/-- One entry that fails fails the response. -/
theorem parseUtxos_error (h : List.Forall₂ (Documents L) entries us)
    (hus : ∃ u ∈ us, u.address = none ∨ ¬ u.vout < 2 ^ 64) :
    ∃ e, parseUtxos L entries = .error e := by
  induction h with
  | nil =>
      obtain ⟨u, hu, -⟩ := hus
      exact nomatch hu
  | cons hentry hrest ih =>
      rename_i entry u entries us
      rw [parseUtxos]
      cases hp : parseUtxo L entry with
      | error e => exact ⟨e, rfl⟩
      | ok parsed =>
          obtain ⟨u', hu', hbad⟩ := hus
          rcases List.mem_cons.mp hu' with rfl | hu'
          · obtain ⟨e, he⟩ := parseUtxo_error hentry hbad
            exact nomatch hp.symm.trans he
          · obtain ⟨e, he⟩ := ih ⟨u', hu', hbad⟩
            exact ⟨e, by rw [he]; rfl⟩

/-- The entry of a member of the list. -/
private theorem documents_of_mem (h : List.Forall₂ (Documents L) entries us)
    (hu : u ∈ us) : ∃ entry, Documents L entry u := by
  induction h with
  | nil => exact nomatch hu
  | cons hentry hrest ih =>
      rcases List.mem_cons.mp hu with rfl | hu
      · exact ⟨_, hentry⟩
      · exact ih hu

/-- **READ EXACTLY**: for every documented answer, the usable outputs are returned
    with their own values exactly when each output of the answer is `Readable`. -/
theorem utxos_read_exactly_iff {response : Json} (h : Response L response us) :
    ReadExactly L response us ↔ ∀ u ∈ us, Readable L u := by
  obtain ⟨entries, rfl, hentries⟩ := h
  by_cases hparsed : ∀ u ∈ us, u.address.isSome ∧ u.vout < 2 ^ 64
  · obtain ⟨utxos, hok, hkept⟩ := parseUtxos_ok hentries hparsed
    have hlist : listConfirmedUtxos L (.array entries) = .ok (us.filterMap (kept L)) := by
      rw [listConfirmedUtxos, listUnspentResponse, hok]
      exact congrArg Except.ok hkept
    -- all entries parse, so the answer is what is kept of each
    have hread : ReadExactly L (.array entries) us ↔
        us.filterMap (fun u => (kept L u).map reading) = (us.filter (usable L)).map stated := by
      rw [← List.map_filterMap]
      refine ⟨?_, fun heq => ⟨_, hlist, heq⟩⟩
      rintro ⟨utxos', hok', heq⟩
      obtain rfl := Except.ok.inj (hlist.symm.trans hok')
      exact heq
    rw [hread, filterMap_eq_iff fun u hu => by rw [kept_unusable hu]; rfl]
    constructor
    · intro hall u hu
      obtain ⟨entry, hentry⟩ := documents_of_mem hentries hu
      refine ⟨(hparsed u hu).1, (hparsed u hu).2, fun huse => ?_, fun prog hp ht => ?_⟩
      · exact ((kept_usable hentry huse).mp (hall u hu huse)).1
      · have huse : usable L u = true := by
          rw [usable, hp]
          exact Bool.or_eq_true_iff.mpr (Or.inr ht)
        exact ((kept_usable hentry huse).mp (hall u hu huse)).2 prog hp ht
    · intro hall u hu huse
      obtain ⟨entry, hentry⟩ := documents_of_mem hentries hu
      exact (kept_usable hentry huse).mpr ⟨(hall u hu).fits huse, (hall u hu).key⟩
  · -- some entry does not parse: nothing is returned
    have hbad : ∃ u ∈ us, u.address = none ∨ ¬ u.vout < 2 ^ 64 := by
      by_contra hno
      refine hparsed fun u hu => ⟨?_, ?_⟩
      · by_contra hnone
        exact hno ⟨u, hu, Or.inl (Option.not_isSome_iff_eq_none.mp hnone)⟩
      · by_contra hv
        exact hno ⟨u, hu, Or.inr hv⟩
    obtain ⟨e, he⟩ := parseUtxos_error hentries hbad
    have hlist : listConfirmedUtxos L (.array entries) = .error () := by
      rw [listConfirmedUtxos, listUnspentResponse, he]
    constructor
    · rintro ⟨utxos, hok, -⟩
      exact nomatch hlist.symm.trans hok
    · intro hall
      exact absurd (fun u hu => ⟨(hall u hu).addressed, (hall u hu).parsed⟩) hparsed

/-! ## Two answers -/

/-- The libraries on the values below; the one address is P2WPKH. -/
private def plainLib : BitcoinLib String WitnessProgram JsonNumber where
  txidFromStr := fun s => if s.length = 64 then .ok s else .error "bad hex string length"
  addressFromStr := fun s =>
    if s = "bc1qw508d6qejxtdg4y5r3zarvary0c5xw7kv8f3t4" then
      .ok ⟨0, [0x75, 0x1e, 0x76, 0xe8, 0x19, 0x91, 0x96, 0xd4, 0x54, 0x94,
        0x1c, 0x45, 0xd1, 0xb3, 0xa3, 0x23, 0xf1, 0x43, 0x3b, 0xd6]⟩
    else .error "invalid address"
  witnessProgram := some
  scriptPubkey := fun prog =>
    (if prog.version = 0 then 0 else UInt8.ofNat (0x50 + prog.version)) ::
      UInt8.ofNat prog.program.length :: prog.program
  xOnlyPublicKey := fun bytes => bytes.length == 32
  f64 := id
  amountFromBtc := fun btc =>
    if 0 ≤ btc.digits ∧ btc.decimals ≤ 8 then
      .ok (UInt64.ofNat (btc.digits.toNat * 10 ^ (8 - btc.decimals)))
    else .error "too precise"
  newV0P2wpkh := fun outpoint value wpkh => ⟨outpoint, value, 0 :: 20 :: wpkh, 4 + 109⟩
  fromBtc_exact := fun _ _ hdecimals _ => if_pos ⟨Int.natCast_nonneg _, hdecimals⟩
  new_outpoint := fun _ _ _ => rfl
  new_value := fun _ _ _ => rfl

/-- An id. -/
private def plainTxid : String :=
  "aa00000000000000000000000000000000000000000000000000000000000000"

/-- An entry over half a bitcoin, with or without the address. -/
private def plainEntry (vout : Nat) (addressed : Bool) : Json :=
  .object (([("txid", .string plainTxid), ("vout", .number ⟨vout, 0⟩),
      ("amount", .number ⟨50000000, 8⟩)] : List (String × Json)) ++
    (if addressed then
      [("address", .string "bc1qw508d6qejxtdg4y5r3zarvary0c5xw7kv8f3t4")]
    else [] : List (String × Json)))

/-- An output, of the kind that the wallet makes. -/
private def plainUnspent (vout : Nat) (addressed : Bool) : Unspent String WitnessProgram where
  txid := plainTxid
  vout := vout
  amount := 50000000
  address :=
    if addressed then
      some ⟨0, [0x75, 0x1e, 0x76, 0xe8, 0x19, 0x91, 0x96, 0xd4, 0x54, 0x94,
        0x1c, 0x45, 0xd1, 0xb3, 0xa3, 0x23, 0xf1, 0x43, 0x3b, 0xd6]⟩
    else none

private theorem plainEntry_documents (vout : Nat) (addressed : Bool) :
    Documents plainLib (plainEntry vout addressed) (plainUnspent vout addressed) := by
  cases addressed with
  | true =>
      refine ⟨⟨plainTxid, rfl, rfl⟩, rfl, ⟨50000000, 8, rfl, Nat.le_refl 8, rfl, ?_⟩, _, rfl, rfl⟩
      exact (by decide : 50000000 ≤ maxMoney)
  | false =>
      refine ⟨⟨plainTxid, rfl, rfl⟩, rfl, ⟨50000000, 8, rfl, Nat.le_refl 8, rfl, ?_⟩, rfl⟩
      exact (by decide : 50000000 ≤ maxMoney)

/-- A response with one such output. -/
theorem utxos_read_exactly_plain :
    ReadExactly plainLib (.array [plainEntry 1 true]) [plainUnspent 1 true] ↔
      ∀ u ∈ [plainUnspent 1 true], Readable plainLib u :=
  utxos_read_exactly_iff ⟨_, rfl, .cons (plainEntry_documents 1 true) .nil⟩

/-- An entry without an address hides the usable one before it, and an index over
    `u32::MAX` comes back as another index. -/
theorem odd_entry_hides_usable :
    (Response plainLib (.array [plainEntry 0 true, plainEntry 1 false])
        [plainUnspent 0 true, plainUnspent 1 false] ∧
      ¬ ReadExactly plainLib (.array [plainEntry 0 true, plainEntry 1 false])
        [plainUnspent 0 true, plainUnspent 1 false]) ∧
    Response plainLib (.array [plainEntry (2 ^ 32 + 7) true]) [plainUnspent (2 ^ 32 + 7) true] ∧
      (match listConfirmedUtxos plainLib (.array [plainEntry (2 ^ 32 + 7) true]) with
        | .ok utxos => utxos.map reading
        | .error _ => []) = [(plainTxid, 7, 50000000)] := by
  have hfirst := plainEntry_documents 0 true
  refine ⟨⟨⟨_, rfl, .cons hfirst (.cons (plainEntry_documents 1 false) .nil)⟩, ?_⟩,
    ⟨_, rfl, .cons (plainEntry_documents _ true) .nil⟩, by decide +kernel⟩
  rintro ⟨utxos, hok, -⟩
  have herror : listConfirmedUtxos plainLib (.array [plainEntry 0 true, plainEntry 1 false])
      = .error () := rfl
  exact nomatch herror.symm.trans hok

end WalletUtxos

import Scorer.KeyTextProofs
import Scorer.BitGroupsProofs
import Scorer.Bech32Proofs

/-! # The key in a node's hostname

    A seed names a node by a hostname whose first label is the node's key as a
    Bech32 text with the prefix `ln`.

    * `decodePubkeyFromHostname` reads it, with what `bech32` and `secp256k1` do as a
      parameter, and `AsSpecified` says what is known of them;
    * `decode_hostname`: the hostname of a key is read as that key;
    * `Misread`: the other texts that are read as a key.  The variant of the checksum
      is dropped and the number of bytes is not looked at, so the label of a key is
      not the only one that gives it. -/

namespace NodeHostname

open KeyText Bech32 BitGroups

/-! ## The decoder -/

/-- `DnsBootstrapError`, with the parts of its texts. -/
inductive DnsBootstrapError where
  | srvQueryFailed (msg : String)
  | hostResolutionFailed (hostname reason : String)
  | invalidBech32NodeId (hostname reason : String)
  | invalidPublicKey (reason : String)
  | timeout
  | resolverError (msg : String)
  deriving DecidableEq, Repr

/-- The functions of `bech32`, `secp256k1` and `lightning` that the decoder calls, an
    error as its text. -/
structure Crates (P NodeId : Type) where
  decode      : String → Except String (String × List (BitVec 5) × Variant)
  convertBits : List (BitVec 5) → (fromBits toBits : Nat) → (pad : Bool) →
    Except String (List UInt8)
  fromSlice   : List UInt8 → Except String P
  fromPubkey  : P → NodeId

variable {P NodeId : Type} {c : Crates P NodeId} {serialize : P → List UInt8}
  {hostname root label : String} {p : P} {nodeId : NodeId} {bytes : List UInt8}

variable (c) in
/-- `decode_pubkey_from_hostname`. -/
def decodePubkeyFromHostname (hostname : String) : Except DnsBootstrapError (P × NodeId) :=
  match (split '.' hostname).head? with
  | none => .error (.invalidBech32NodeId hostname "empty hostname")
  | some bech32Label =>
      if bech32Label.isEmpty then
        .error (.invalidBech32NodeId hostname "empty first label")
      else match c.decode bech32Label with
        | .error e =>
            .error (.invalidBech32NodeId hostname ("bech32 decode failed: " ++ e))
        | .ok (hrp, data, _variant) =>
            if hrp ≠ "ln" then
              .error (.invalidBech32NodeId hostname ("expected HRP 'ln', got '" ++ hrp ++ "'"))
            else match c.convertBits data 5 8 false with
              | .error e =>
                  .error (.invalidBech32NodeId hostname ("bit conversion failed: " ++ e))
              | .ok pubkeyBytes =>
                  match c.fromSlice pubkeyBytes with
                  | .error e => .error (.invalidPublicKey ("secp256k1 parse failed: " ++ e))
                  | .ok pubkey => .ok (pubkey, c.fromPubkey pubkey)

/-- What the crates are documented to do: `decode` and `convert_bits` follow the
    formats, and `from_slice` takes the 33 bytes of a key and, of other lengths, only
    encodings of 65 bytes. -/
structure AsSpecified (c : Crates P NodeId) (serialize : P → List UInt8) : Prop where
  decode : ∀ s, (c.decode s).toOption = Bech32.decode s
  convertBits : ∀ data, (c.convertBits data 5 8 false).toOption =
    (unpacked 8 data).map (List.map UInt8.ofBitVec)
  length : ∀ p, (serialize p).length = 33
  compressed : ∀ p, c.fromSlice (serialize p) = .ok p
  accepted : ∀ bytes p, c.fromSlice bytes = .ok p → bytes = serialize p ∨ bytes.length = 65

/-- The Bech32 or Bech32m text of bytes, with the prefix `ln`. -/
def lnText (v : Variant) (bytes : List UInt8) : String :=
  encode v "ln" (packed 5 (bytes.map UInt8.toBitVec))

/-- The text before the first dot. -/
def firstLabel (hostname : String) : String := ((split '.' hostname).head?).getD ""

variable (c) in
/-- The first label is, in one case, the text of an encoding of a key, but it is a
    Bech32m text or the encoding is not the one of 33 bytes. -/
def Misread (hostname : String) : Prop :=
  mixedCase (firstLabel hostname).toList = false ∧
    ∃ v bytes p, lower (firstLabel hostname) = lnText v bytes ∧ c.fromSlice bytes = .ok p ∧
      (v = .bech32m ∨ bytes.length = 65)

/-! ## Labels -/

/-- What comes before the first dot. -/
theorem split_head (hostname : String) :
    (split '.' hostname).head? = some (firstLabel hostname) := by
  rw [firstLabel]
  cases hsplit : split '.' hostname with
  | nil =>
      rw [split, List.map_eq_nil_iff] at hsplit
      exact absurd hsplit (List.splitOnP_ne_nil _ _)
  | cons label rest => rfl

/-- A text without a dot is the first label of a name under it. -/
theorem firstLabel_append (h : '.' ∉ label.toList) (root : String) :
    firstLabel (label ++ "." ++ root) = label := by
  have hsplit : split '.' (label ++ "." ++ root) = label :: split '.' root := split_append h
  rw [firstLabel, hsplit]
  rfl

/-- No character of the alphabet is a dot. -/
theorem char_ne_dot : ∀ x : BitVec 5, char x ≠ '.' := by decide

theorem dot_not_mem_lnText (v : Variant) (bytes : List UInt8) :
    '.' ∉ (lnText v bytes).toList := by
  intro h
  rcases mem_encode h with hln | hsep | ⟨x, hx⟩
  · exact absurd hln (by decide)
  · exact absurd hsep (by decide)
  · exact char_ne_dot x hx.symm

/-! ## What is accepted -/

/-- A result, through the option it leaves. -/
theorem ok_iff {ε α : Type} {x : Except ε α} {o : Option α} (h : x.toOption = o) (a : α) :
    x = .ok a ↔ o = some a := by
  rw [← h]
  cases x with
  | error e => exact iff_of_false (by rintro ⟨⟩) (by rintro ⟨⟩)
  | ok b =>
      show Except.ok b = Except.ok a ↔ some b = some a
      rw [Except.ok.injEq, Option.some.injEq]

/-- Bytes are unpacked exactly from how they were packed. -/
theorem unpacked_bytes (data : List (BitVec 5)) :
    (unpacked 8 data).map (List.map UInt8.ofBitVec) = some bytes ↔
      data = packed 5 (bytes.map UInt8.toBitVec) := by
  rw [← unpacked_iff (by omega) (by omega), Option.map_eq_some_iff]
  constructor
  · rintro ⟨xs, hxs, rfl⟩
    rw [hxs, List.map_map]
    exact congrArg some (List.map_id xs).symm
  · intro h
    refine ⟨_, h, ?_⟩
    rw [List.map_map]
    exact List.map_id bytes

/-- What the crate decodes, by its law, under the prefix `ln`. -/
theorem crates_decode (h : AsSpecified c serialize) {data : List (BitVec 5)} {v : Variant} :
    c.decode label = .ok ("ln", data, v) ↔
      mixedCase label.toList = false ∧ lower label = encode v "ln" data := by
  have hln : validHrp "ln".toList = true := by decide
  rw [ok_iff (h.decode label), decode_eq_some]
  simp only [hln, true_and]

theorem crates_convert (h : AsSpecified c serialize) {data : List (BitVec 5)} :
    c.convertBits data 5 8 false = .ok bytes ↔ data = packed 5 (bytes.map UInt8.toBitVec) := by
  rw [ok_iff (h.convertBits data), unpacked_bytes]

/-- The steps of a call that returns a key. -/
theorem steps_of_decode (hok : decodePubkeyFromHostname c hostname = .ok (p, nodeId)) :
    ∃ data v bytes, c.decode (firstLabel hostname) = .ok ("ln", data, v) ∧
      c.convertBits data 5 8 false = .ok bytes ∧ c.fromSlice bytes = .ok p ∧
      nodeId = c.fromPubkey p := by
  rw [decodePubkeyFromHostname, split_head] at hok
  simp only at hok
  split at hok
  · cases hok
  split at hok
  · cases hok
  rename_i hrp data v hdecode
  split at hok
  · cases hok
  rename_i hln
  split at hok
  · cases hok
  rename_i bytes hconvert
  split at hok
  · cases hok
  rename_i pubkey hslice
  obtain ⟨rfl, rfl⟩ := Prod.mk.inj (Except.ok.inj hok)
  obtain rfl := Classical.not_not.mp hln
  exact ⟨data, v, bytes, hdecode, hconvert, hslice, rfl⟩

/-- The function goes through if its three steps do. -/
theorem decode_of_steps (h : AsSpecified c serialize) {data : List (BitVec 5)} {v : Variant}
    (hdecode : c.decode (firstLabel hostname) = .ok ("ln", data, v))
    (hconvert : c.convertBits data 5 8 false = .ok bytes) (hslice : c.fromSlice bytes = .ok p) :
    decodePubkeyFromHostname c hostname = .ok (p, c.fromPubkey p) := by
  have hne : (firstLabel hostname).isEmpty = false := by
    rw [Bool.eq_false_iff]
    intro hempty
    have htext := ((crates_decode h).mp hdecode).2
    rw [String.isEmpty_iff.mp hempty, lower_eq_encode] at htext
    simp at htext
  rw [decodePubkeyFromHostname, split_head]
  simp only [hne, Bool.false_eq_true, if_false, hdecode, ne_eq, not_true_eq_false, hconvert,
    hslice]

/-- What the decoder accepts: the texts, in one case, of what `from_slice` accepts. -/
theorem decode_eq_ok (h : AsSpecified c serialize) :
    decodePubkeyFromHostname c hostname = .ok (p, nodeId) ↔
      nodeId = c.fromPubkey p ∧ mixedCase (firstLabel hostname).toList = false ∧
        ∃ v bytes, lower (firstLabel hostname) = lnText v bytes ∧ c.fromSlice bytes = .ok p := by
  constructor
  · intro hok
    obtain ⟨data, v, bytes, hdecode, hconvert, hslice, hid⟩ := steps_of_decode hok
    obtain ⟨hcase, htext⟩ := (crates_decode h).mp hdecode
    rw [(crates_convert h).mp hconvert] at htext
    exact ⟨hid, hcase, v, bytes, htext, hslice⟩
  · rintro ⟨rfl, hcase, v, bytes, htext, hslice⟩
    exact decode_of_steps h ((crates_decode h).mpr ⟨hcase, htext⟩) ((crates_convert h).mpr rfl)
      hslice

/-! ## Exactness -/

/-- The text of any bytes is decoded. -/
theorem decode_lnText (v : Variant) (bytes : List UInt8) : Bech32.decode (lnText v bytes)
    = some ("ln", packed 5 (bytes.map UInt8.toBitVec), v) :=
  decode_encode (by decide) (by decide)

theorem lnText_cases (v : Variant) (bytes : List UInt8) :
    mixedCase (lnText v bytes).toList = false ∧ lower (lnText v bytes) = lnText v bytes := by
  obtain ⟨hcase, -, htext⟩ := decode_eq_some.mp (decode_lnText v bytes)
  exact ⟨hcase, htext⟩

theorem lnText_injective {v v' : Variant} {bytes bytes' : List UInt8}
    (h : lnText v bytes = lnText v' bytes') : v = v' ∧ bytes = bytes' := by
  have hdecode := decode_lnText v bytes
  rw [h, decode_lnText] at hdecode
  obtain ⟨-, hparts⟩ := Prod.mk.inj (Option.some.inj hdecode)
  obtain ⟨hdata, hv⟩ := Prod.mk.inj hparts
  refine ⟨hv.symm, ?_⟩
  have hbytes := (unpacked_bytes _).mpr hdata
  rw [(unpacked_bytes _).mpr rfl] at hbytes
  exact (Option.some.inj hbytes).symm

/-- The hostname of a key is read as that key. -/
theorem decode_hostname (h : AsSpecified c serialize) (p : P) (root : String) :
    decodePubkeyFromHostname c (lnText .bech32 (serialize p) ++ "." ++ root)
      = .ok (p, c.fromPubkey p) := by
  obtain ⟨hcase, htext⟩ := lnText_cases .bech32 (serialize p)
  rw [decode_eq_ok h, firstLabel_append (dot_not_mem_lnText _ _)]
  exact ⟨rfl, hcase, _, _, htext, h.compressed p⟩

/-- Every text of an accepted encoding is read as the key, and only one is what the key
    encodes to. -/
theorem decode_label (h : AsSpecified c serialize) {v : Variant}
    (hlabel : firstLabel hostname = lnText v bytes) (hslice : c.fromSlice bytes = .ok p) :
    decodePubkeyFromHostname c hostname = .ok (p, c.fromPubkey p) ∧
      (lower (lnText .bech32 (serialize p)) = lower (firstLabel hostname) →
        v = .bech32 ∧ bytes = serialize p) := by
  obtain ⟨hcase, htext⟩ := lnText_cases v bytes
  rw [decode_eq_ok h, hlabel, htext, (lnText_cases _ _).2]
  refine ⟨⟨rfl, hcase, v, bytes, rfl, hslice⟩, fun hback => ?_⟩
  obtain ⟨rfl, rfl⟩ := lnText_injective hback
  exact ⟨rfl, rfl⟩

/-- **HOSTNAMES**: the hostname of every key is read as that key; and a key that is
    read from a hostname is the one its label encodes, letter case apart, exactly if
    the label is not misread. -/
theorem hostname_exact_iff (c : Crates P NodeId) (serialize : P → List UInt8)
    (h : AsSpecified c serialize) :
    (∀ p root, decodePubkeyFromHostname c (lnText .bech32 (serialize p) ++ "." ++ root)
      = .ok (p, c.fromPubkey p)) ∧
    ∀ hostname, (∀ p nodeId, decodePubkeyFromHostname c hostname = .ok (p, nodeId) →
      lower (lnText .bech32 (serialize p)) = lower (firstLabel hostname)) ↔
        ¬ Misread c hostname := by
  refine ⟨decode_hostname h, fun hostname => ?_⟩
  constructor
  · rintro hexact ⟨hcase, v, bytes, p, htext, hslice, hodd⟩
    -- the text of the key is not the label that was read
    have hback := hexact p _ ((decode_eq_ok h).mpr ⟨rfl, hcase, v, bytes, htext, hslice⟩)
    rw [htext, (lnText_cases _ _).2] at hback
    obtain ⟨rfl, rfl⟩ := lnText_injective hback
    rcases hodd with hv | hlen
    · cases hv
    · rw [h.length p] at hlen
      cases hlen
  · intro hread p nodeId hok
    obtain ⟨-, hcase, v, bytes, htext, hslice⟩ := (decode_eq_ok h).mp hok
    rw [(lnText_cases _ _).2, htext]
    rcases h.accepted bytes p hslice with rfl | hlen
    · cases v with
      | bech32 => rfl
      | bech32m => exact absurd ⟨hcase, _, _, p, htext, hslice, Or.inl rfl⟩ hread
    · exact absurd ⟨hcase, v, bytes, p, htext, hslice, Or.inr hlen⟩ hread

/-! ## Two labels of one key -/

/-- The keys of the tests. -/
inductive TestKey where
  | first
  | second
  deriving DecidableEq

/-- The two keys of the repository's tests, compressed. -/
def testBytes : TestKey → List UInt8
  | .first =>
      [0x02, 0xe8, 0x9c, 0xa9, 0xe8, 0xda, 0x72, 0xb3, 0x3d, 0x89, 0x6b, 0xae, 0x51, 0xd2,
       0x0e, 0x7e, 0x1f, 0x05, 0x71, 0xce, 0xce, 0x85, 0x2d, 0x13, 0x87, 0xb4, 0xe2, 0xf4,
       0xae, 0x48, 0xc8, 0x0a, 0x85]
  | .second =>
      [0x03, 0xe7, 0x15, 0x6a, 0xe3, 0x3b, 0x0a, 0x20, 0x8d, 0x07, 0x44, 0x19, 0x91, 0x63,
       0x17, 0x7e, 0x90, 0x9e, 0x80, 0x17, 0x6e, 0x55, 0xd9, 0x7a, 0x2f, 0x22, 0x1e, 0xde,
       0x0f, 0x93, 0x4d, 0xd9, 0xad]

/-- The first one with both coordinates. -/
def testPoint : List UInt8 :=
  [0x04, 0xe8, 0x9c, 0xa9, 0xe8, 0xda, 0x72, 0xb3, 0x3d, 0x89, 0x6b, 0xae, 0x51, 0xd2, 0x0e,
   0x7e, 0x1f, 0x05, 0x71, 0xce, 0xce, 0x85, 0x2d, 0x13, 0x87, 0xb4, 0xe2, 0xf4, 0xae, 0x48,
   0xc8, 0x0a, 0x85, 0x9c, 0x76, 0x23, 0x0e, 0x3f, 0x76, 0xa8, 0xbc, 0x6f, 0x23, 0x72, 0x1b,
   0xf3, 0x50, 0x10, 0x50, 0x77, 0x07, 0x09, 0x59, 0x4b, 0x09, 0x72, 0x97, 0x50, 0xa4, 0x42,
   0x70, 0xd3, 0xac, 0xcc, 0x28]

/-- The formats as specified, and these two keys. -/
def testCrates : Crates TestKey (List UInt8) where
  decode s :=
    match Bech32.decode s with
    | some parts => .ok parts
    | none => .error "invalid checksum"
  convertBits data _ _ _ :=
    match (unpacked 8 data).map (List.map UInt8.ofBitVec) with
    | some bytes => .ok bytes
    | none => .error "invalid padding"
  fromSlice bytes :=
    if bytes = testBytes .first ∨ bytes = testPoint then .ok .first
    else if bytes = testBytes .second then .ok .second
    else .error "malformed public key"
  fromPubkey := testBytes

/-- Which bytes are a key: those two, and one in the long form. -/
theorem testCrates_fromSlice (bytes : List UInt8) : testCrates.fromSlice bytes =
    if bytes = testBytes .first ∨ bytes = testPoint then .ok .first
    else if bytes = testBytes .second then .ok .second
    else .error "malformed public key" := rfl

/-- The crates of the tests obey the laws. -/
theorem testCrates_specified : AsSpecified testCrates testBytes where
  decode := fun s => by
    show Except.toOption (match Bech32.decode s with
      | some parts => Except.ok parts
      | none => .error "invalid checksum") = _
    cases Bech32.decode s <;> rfl
  convertBits := fun data => by
    show Except.toOption (match (unpacked 8 data).map (List.map UInt8.ofBitVec) with
      | some bytes => Except.ok bytes
      | none => .error "invalid padding") = _
    cases (unpacked 8 data).map (List.map UInt8.ofBitVec) <;> rfl
  length := fun p => by cases p <;> rfl
  compressed := fun p => by
    rw [testCrates_fromSlice]
    cases p with
    | first => exact if_pos (Or.inl rfl)
    | second =>
        rw [if_neg (by decide), if_pos rfl]
  accepted := fun bytes p h => by
    rw [testCrates_fromSlice] at h
    split at h
    · rename_i hfirst
      obtain rfl := Except.ok.inj h
      rcases hfirst with hkey | rfl
      · exact Or.inl hkey
      · exact Or.inr rfl
    split at h
    · rename_i hsecond
      obtain rfl := Except.ok.inj h
      exact Or.inl hsecond
    · cases h

/-- A hostname with the key as a Bech32m text. -/
def bech32mHostname : String :=
  "ln1qt5fe20gmfetx0vfdwh9r5sw0c0s2uwwe6zj6yu8kn30ftjgeq9g2zdwx9n.nodes.lightning.wiki."

/-- A hostname with the 65 bytes of the key as a Bech32 text. -/
def longHostname : String :=
  "ln1qn5fe20gmfetx0vfdwh9r5sw0c0s2uwwe6zj6yu8kn30ftjgeq9gt8rkyv8r7a4gh3hjxusm7dgpq5rhquy4jj" ++
    "cfw2t4pfzzwrf6enpgcrpydr.nodes.lightning.wiki."

/-- The label of the first hostname has a checksum of the other variant. -/
theorem bech32mHostname_label :
    firstLabel bech32mHostname = lnText .bech32m (testBytes .first) := by
  have htext : bech32mHostname =
      lnText .bech32m (testBytes .first) ++ "." ++ "nodes.lightning.wiki." := by
    decide +kernel
  rw [htext, firstLabel_append (dot_not_mem_lnText _ _)]

/-- The label of the second one has a key of 65 bytes. -/
theorem longHostname_label : firstLabel longHostname = lnText .bech32 testPoint := by
  have htext : longHostname = lnText .bech32 testPoint ++ "." ++ "nodes.lightning.wiki." := by
    decide +kernel
  rw [htext, firstLabel_append (dot_not_mem_lnText _ _)]

/-- Both are read as the key, and it does not encode to their labels. -/
theorem hostname_not_exact : AsSpecified testCrates testBytes ∧
    (decodePubkeyFromHostname testCrates bech32mHostname = .ok (.first, testBytes .first) ∧
      lower (lnText .bech32 (testBytes .first)) ≠ lower (firstLabel bech32mHostname)) ∧
    (decodePubkeyFromHostname testCrates longHostname = .ok (.first, testBytes .first) ∧
      lower (lnText .bech32 (testBytes .first)) ≠ lower (firstLabel longHostname)) := by
  have hpoint : testCrates.fromSlice testPoint = .ok .first := by
    rw [testCrates_fromSlice, if_pos (Or.inr rfl)]
  obtain ⟨hread, hback⟩ := decode_label testCrates_specified bech32mHostname_label
    (testCrates_specified.compressed .first)
  obtain ⟨hread', hback'⟩ := decode_label testCrates_specified longHostname_label hpoint
  refine ⟨testCrates_specified, ⟨hread, fun h => ?_⟩, hread', fun h => ?_⟩
  · exact absurd (hback h).1 (by decide)
  · exact absurd (congrArg List.length (hback' h).2) (by decide)

/-- A key under a root of the tests, and a hostname that is misread. -/
theorem hostname_exact_iff_testKey :
    decodePubkeyFromHostname testCrates
        (lnText .bech32 (testBytes .second) ++ "." ++ "lseed.bitcoinstats.com.")
      = .ok (.second, testBytes .second) ∧ Misread testCrates bech32mHostname := by
  have hexact := hostname_exact_iff testCrates testBytes testCrates_specified
  refine ⟨hexact.1 .second "lseed.bitcoinstats.com.", ?_⟩
  by_contra hread
  obtain ⟨hok, hback⟩ := decode_label testCrates_specified bech32mHostname_label
    (testCrates_specified.compressed .first)
  have hlabel := (hexact.2 bech32mHostname).mpr hread .first (testBytes .first) hok
  exact absurd (hback hlabel).1 (by decide)

end NodeHostname

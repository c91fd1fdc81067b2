import GhostBridge.Ecma.Objects
import GhostBridge.Trust.Proof

/-!
# Message integrity of signed documents

What the holder of a published key signs is accepted, and what is accepted was signed by the holder
of the key that the header names.
-/

namespace GhostBridge.Trust

open Ecma

variable {host : Host}

private theorem header_names (a k t p : Value) :
    Reordering.byName.order [(ascii "alg", a), (ascii "kid", k), (ascii "typ", t), (ascii "gbp", p)] =
      [(ascii "alg", a), (ascii "gbp", p), (ascii "kid", k), (ascii "typ", t)] := rfl

private theorem propertyOrder_of_names {α : Type} {members : List (Text × α)}
    (h : ∀ m ∈ members, arrayIndex? m.1 = none) :
    Reordering.propertyOrder.order members = members := by
  have hnone : members.filter (fun m => (arrayIndex? m.1).isSome) = [] :=
    List.filter_eq_nil_iff.mpr fun m hm => by simp [h m hm]
  have hall : members.filter (fun m => !(arrayIndex? m.1).isSome) = members :=
    List.filter_eq_self.mpr fun m hm => by simp [h m hm]
  simp only [Reordering.propertyOrder, hnone, hall]
  rfl

def parsedHeader (kid : Text) : Value :=
  .object [(ascii "alg", .string (ascii "EdDSA")), (ascii "gbp", .string proofProfile),
    (ascii "kid", .string kid), (ascii "typ", .string proofType)]

private theorem sorted_header (kid : Text) :
    (protectedHeader (.string (ascii "EdDSA")) kid proofType proofProfile).sorted =
      parsedHeader kid := by
  rw [protectedHeader, Value.sorted_object]
  exact congrArg Value.object (header_names _ _ _ _)

private theorem parsed_header (kid : Text) : (parsedHeader kid).parsed = parsedHeader kid := by
  rw [Value.parsed, parsedHeader, Value.rebuild_object]
  refine congrArg Value.object (propertyOrder_of_names ?_)
  simp only [List.map_cons, List.map_nil, List.forall_mem_cons, Prod.map_fst, id]
  refine ⟨by decide, by decide, by decide, by decide, ?_⟩
  simp

private theorem header_uniqueKeys (kid : Text) :
    (protectedHeader (.string (ascii "EdDSA")) kid proofType proofProfile).uniqueKeys = true := by
  rw [protectedHeader, Value.uniqueKeys_object]
  have hnames : [ascii "alg", ascii "kid", ascii "typ", ascii "gbp"].Nodup := by decide
  refine ⟨hnames, ?_⟩
  simp only [List.forall_mem_cons]
  exact ⟨rfl, rfl, rfl, rfl, fun _ h => nomatch h⟩

private theorem header_size {kid : Text} (hkid : kid.length ≤ 128) :
    Utf8.byteLength (Json.write (parsedHeader kid)) ≤ 4096 := by
  have hquote := Json.byteLength_quote_le kid
  have hstring (s : Text) : Json.write (.string s) = Json.quote s := rfl
  rw [parsedHeader, Json.byteLength_write_object (by simp [Value.isJson])]
  simp only [List.map_cons, List.map_nil, List.sum_cons, List.sum_nil, List.length_cons,
    List.length_nil, Json.byteLength_writeMember, hstring]
  have h₁ : Utf8.byteLength (Json.quote (ascii "alg")) = 5 := by decide
  have h₂ : Utf8.byteLength (Json.quote (ascii "EdDSA")) = 7 := by decide
  have h₃ : Utf8.byteLength (Json.quote (ascii "gbp")) = 5 := by decide
  have h₄ : Utf8.byteLength (Json.quote proofProfile) = 29 := by decide
  have h₅ : Utf8.byteLength (Json.quote (ascii "kid")) = 5 := by decide
  have h₆ : Utf8.byteLength (Json.quote (ascii "typ")) = 5 := by decide
  have h₇ : Utf8.byteLength (Json.quote proofType) = 23 := by decide
  omega

private theorem checkedHeader_written {kid text : Text} (hkid : kid.length ≤ 128)
    (htext : canonicalize (protectedHeader (.string (ascii "EdDSA")) kid proofType proofProfile) {} =
      .ok text) {options : VerifyOptions} (hoptions : options.allowedAlgorithms = none) :
    checkedHeader (Base64Url.encode (Utf8.encode text)) options = .ok (parsedHeader kid) := by
  obtain ⟨hvisit, hwritten, _⟩ := canonicalize_ok.mp htext
  rw [sorted_header] at hwritten
  have hjson : (parsedHeader kid).isJson = true := rfl
  have hwf : text.isWellFormed = true := hwritten ▸ Json.write_wellFormed hjson
  have hmark : (Utf8.encode text).head? ≠ some 0xef := by
    rw [hwritten, parsedHeader, Json.write_object (by simp [Value.isJson])]
    have hbrace : Text.isWellFormed [0x7b] = true := rfl
    rw [← List.singleton_append, Utf8.encode, Utf8.scalars_append _ hbrace]
    simp [Utf8.scalars, Utf8.unitScalar, isHighSurrogate, isLowSurrogate, Utf8.encodeScalar]
  have hparse : parseJsonStrict text { maximumBytes := some 4096 } = .ok (parsedHeader kid) := by
    have hvisit' : visit { maximumBytes := some 4096 }
        (protectedHeader (.string (ascii "EdDSA")) kid proofType proofProfile) 0 = .ok () := by
      refine visit_limits ?_ ?_ ?_ hvisit <;> rfl
    have h := parseJsonStrict_canonical (header_uniqueKeys kid) htext hvisit'
      (by rw [hwritten]; exact header_size hkid)
    rwa [sorted_header, parsed_header] at h
  have hread : parseJsonStrictBuffer (Base64Url.decode (Base64Url.encode (Utf8.encode text)))
      { maximumBytes := some 4096 } = .ok (parsedHeader kid) := by
    rw [Base64Url.decode_encode, parseJsonStrictBuffer, Utf8.decodeFatal_encode hwf hmark]
    exact hparse
  rw [checkedHeader, hread, hoptions]
  rfl

private theorem encode_no_dot (bytes : Bytes) : (0x2e : UInt16) ∉ Base64Url.encode bytes :=
  fun h => (Base64Url.encode_units bytes _ h).1 rfl

private theorem jwsParts_compact {header payload signature : Bytes} (hheader : header ≠ [])
    (hpayload : payload ≠ []) (hsignature : signature ≠ []) :
    jwsParts (Base64Url.encode header ++ 0x2e :: (Base64Url.encode payload ++
        0x2e :: Base64Url.encode signature)) =
      .ok (Base64Url.encode header, Base64Url.encode payload, Base64Url.encode signature) := by
  have hjoin : Base64Url.encode header ++ 0x2e :: (Base64Url.encode payload ++
      0x2e :: Base64Url.encode signature) =
      [0x2e].intercalate [Base64Url.encode header, Base64Url.encode payload,
        Base64Url.encode signature] := by
    simp [List.intercalate_cons_of_ne_nil]
  have hsplit : ([0x2e].intercalate [Base64Url.encode header, Base64Url.encode payload,
      Base64Url.encode signature]).splitOn 0x2e =
      [Base64Url.encode header, Base64Url.encode payload, Base64Url.encode signature] :=
    List.splitOn_intercalate _ (by simp [encode_no_dot]) (by simp)
  have hnonempty {bytes : Bytes} (h : bytes ≠ []) : (Base64Url.encode bytes).isEmpty = false :=
    List.isEmpty_eq_false_iff.mpr (Base64Url.encode_ne_nil h)
  rw [jwsParts, hjoin, hsplit]
  simp [hnonempty hheader, hnonempty hpayload, hnonempty hsignature, pure, Except.pure]

private theorem compact_ascii (header payload signature : Bytes) :
    ∀ u ∈ Base64Url.encode header ++ 0x2e :: (Base64Url.encode payload ++
      0x2e :: Base64Url.encode signature), u < 0x80 := by
  intro u hu
  simp only [List.mem_append, List.mem_cons] at hu
  rcases hu with hu | rfl | hu | rfl | hu
  · exact (Base64Url.encode_units _ u hu).2
  · decide
  · exact (Base64Url.encode_units _ u hu).2
  · decide
  · exact (Base64Url.encode_units _ u hu).2

/-- The steps of a successful `createProof` with default options. -/
structure CreatedProof (host : Host) (payload : Value) (signer : Signer) where
  issuedAt : Value
  headerText : Text
  payloadText : Text
  signature : Bytes
  visited : visit {} payload 0 = .ok ()
  issuedAt_ok : signedIssuanceTime host payload = .ok issuedAt
  kid_ok : isKeyIdentifier signer.kid = true
  header_ok : canonicalize
    (protectedHeader (.string (ascii "EdDSA")) signer.kid proofType proofProfile) {} =
      .ok headerText
  payload_ok : canonicalize payload {} = .ok payloadText
  signature_ok : signer.sign
    (Utf8.lowBytes (Base64Url.encode (Utf8.encode headerText) ++
      0x2e :: Base64Url.encode (Utf8.encode payloadText)))
    ⟨.string (ascii "EdDSA"), signer.kid, .undefined⟩ = .ok signature
  size_ok : Utf8.byteLength (Base64Url.encode (Utf8.encode headerText) ++
    0x2e :: (Base64Url.encode (Utf8.encode payloadText) ++ 0x2e :: Base64Url.encode signature)) ≤
      DefaultTrustLimits.maximumProofBytes

namespace CreatedProof

variable {payload : Value} {signer : Signer} (c : CreatedProof host payload signer)

def encodedHeader : Text := Base64Url.encode (Utf8.encode c.headerText)

def encodedPayload : Text := Base64Url.encode (Utf8.encode c.payloadText)

def compact : Text :=
  c.encodedHeader ++ 0x2e :: (c.encodedPayload ++ 0x2e :: Base64Url.encode c.signature)

def proof : Value :=
  proofObject c.compact signer.kid (.string (ascii "EdDSA")) c.issuedAt

end CreatedProof

private theorem algorithm_eq {text : Text} {algorithm : Value}
    (h : assertAlgorithmAllowed (.string text) none = .ok algorithm) :
    algorithm = .string (ascii "EdDSA") := by
  simp only [assertAlgorithmAllowed, bind_ok, throwWhen_ok, exists_unit, pure_ok, namesValue,
    Option.getD_none, defaultAlgorithms, List.any_cons, List.any_nil, Bool.or_false,
    Bool.not_eq_false', Value.strictEq_string] at h
  obtain ⟨_, _, _, htext, rfl⟩ := h
  exact htext

theorem createProof_ok {payload proof : Value} {signer : Signer}
    (h : createProof host payload signer {} = .ok proof) :
    ∃ c : CreatedProof host payload signer, proof = c.proof := by
  simp only [createProof, base64urlJson, bind_ok, throwWhen_ok, exists_unit, pure_ok,
    Bool.not_eq_false', decide_eq_false_iff_not, not_lt] at h
  obtain ⟨_, hplain, issuedAt, hissued, algorithm, halgorithm, hkid, _, ⟨headerText, hheader, rfl⟩,
    _, ⟨payloadText, hpayload, rfl⟩, signature, hsignature, hsize, rfl⟩ := h
  obtain rfl := algorithm_eq halgorithm
  exact ⟨⟨issuedAt, headerText, payloadText, signature, (validatePlainTrustData_ok hplain).1,
    hissued, hkid, hheader, hpayload, hsignature, hsize⟩, rfl⟩

private theorem visit_primitive {limits : Limits} {v : Value} (hv : v.isObjectLike = false)
    {depth depth' : Nat} (hdepth : depth' ≤ limits.objectDepth)
    (h : visit limits v depth = .ok ()) : visit limits v depth' = .ok () := by
  cases v with
  | undefined => exact absurd h visit_undefined
  | number n => exact (visit_number n).mpr ⟨hdepth, ((visit_number n).mp h).2⟩
  | string s => exact (visit_string s).mpr ⟨hdepth, ((visit_string s).mp h).2⟩
  | array items => simp [Value.isObjectLike] at hv
  | object members => simp [Value.isObjectLike] at hv
  | _ => simp [visit, hdepth]

private theorem isKeyIdentifier_spec {kid : Text} (h : isKeyIdentifier kid = true) :
    kid.length ≤ 128 ∧ ∀ u ∈ kid, u < 0x80 := by
  simp only [isKeyIdentifier, Bool.and_eq_true, List.all_eq_true, decide_eq_true_eq] at h
  refine ⟨h.2, fun u hu => ?_⟩
  have hu := h.1.1 u hu
  simp only [isAlphanumeric, isDigit, Bool.or_eq_true, Bool.and_eq_true, decide_eq_true_eq,
    beq_iff_eq, UInt16.le_iff_toNat_le, UInt16.reduceToNat, ← UInt16.toNat_inj] at hu
  rw [UInt16.lt_iff_toNat_lt]
  simp only [UInt16.reduceToNat]
  omega

private theorem encode_written_ne_nil {v : Value} (h : v.isJson = true) :
    Utf8.encode (Json.write v) ≠ [] := by
  intro hnil
  obtain ⟨u, us, hwrite, _⟩ := Json.write_head v
  have htext := Utf8.decodeLossy_encode (Json.write_wellFormed h)
  rw [hnil, hwrite] at htext
  exact absurd htext (by simp [Utf8.decodeLossy, Utf8.decodeScalars])

namespace CreatedProof

variable {payload : Value} {signer : Signer} (c : CreatedProof host payload signer)

private theorem visit_proof (hissued : c.issuedAt.isObjectLike = false) {limits : Limits}
    (hdefault : limits.objectDepth = 32 ∧ limits.stringLength = 65536)
    (hvisit : visit limits c.issuedAt 1 = .ok ()) : visit limits c.proof 1 = .ok () := by
  have hstring {s : Text} (hs : s.length ≤ 65536) (hascii : ∀ u ∈ s, u < 0x80) :
      visit limits (.string s) 2 = .ok () := by
    rw [visit_string, hdefault.1, hdefault.2]
    exact ⟨by omega, hs, Utf8.isWellFormed_ascii hascii⟩
  have hsize := c.size_ok
  rw [Utf8.byteLength_ascii (compact_ascii _ _ _), DefaultTrustLimits.maximumProofBytes] at hsize
  have hkid := isKeyIdentifier_spec c.kid_ok
  rw [proof, proofObject, visit_object, hdefault.1]
  refine ⟨by omega, ?_⟩
  simp only [List.forall_mem_cons]
  have hconstant {s : Text} (h : (decide (s.length ≤ 65536) && s.all (· < 0x80)) = true) :
      visit limits (.string s) 2 = .ok () := by
    simp only [Bool.and_eq_true, decide_eq_true_eq, List.all_eq_true] at h
    exact hstring h.1 h.2
  refine ⟨⟨by decide, hconstant rfl⟩, ⟨by decide, hconstant rfl⟩,
    ⟨by decide, hstring (hsize.trans (by omega)) (compact_ascii _ _ _)⟩,
    ⟨by decide, hstring (hkid.1.trans (by omega)) hkid.2⟩,
    ⟨by decide, hconstant rfl⟩, ⟨by decide, ?_⟩, List.forall_mem_nil _⟩
  exact visit_primitive hissued (by omega) hvisit

theorem issuedAt_truthy : c.issuedAt.isTruthy = true :=
  (signedIssuanceTime_ok c.issuedAt_ok).2.1

theorem payloadText_eq : c.payloadText = Json.write payload.sorted :=
  (canonicalize_ok.mp c.payload_ok).2.1

theorem headerText_eq : c.headerText = Json.write (parsedHeader signer.kid) := by
  rw [(canonicalize_ok.mp c.header_ok).2.1, sorted_header]

private theorem payload_size (c : CreatedProof host payload signer) : Utf8.byteLength (Json.write payload) ≤ 24576 := by
  have hsize := c.size_ok
  rw [Utf8.byteLength_ascii (compact_ascii _ _ _), DefaultTrustLimits.maximumProofBytes] at hsize
  have hencode := Base64Url.length_encode (Utf8.encode c.payloadText)
  have hbytes : (Utf8.encode c.payloadText).length = Utf8.byteLength (Json.write payload) := by
    rw [c.payloadText_eq]
    exact Json.byteLength_write_rebuild .byName (isJson_of_visit c.visited)
  rw [hbytes] at hencode
  simp only [List.length_append, List.length_cons] at hsize
  omega

private theorem proof_size (hjson : c.issuedAt.isJson = true)
    (hissued : Utf8.byteLength (Json.write c.issuedAt) ≤ 24576) :
    Utf8.byteLength (Json.write c.proof) ≤ 230000 := by
  have hsize := c.size_ok
  rw [Utf8.byteLength_ascii (compact_ascii _ _ _), DefaultTrustLimits.maximumProofBytes] at hsize
  have hcompact := Json.byteLength_quote_le c.compact
  have hlength : c.compact.length ≤ 32768 := hsize
  have hkid := Json.byteLength_quote_le signer.kid
  have hkid' := (isKeyIdentifier_spec c.kid_ok).1
  have hstring (s : Text) : Json.write (.string s) = Json.quote s := rfl
  rw [proof, proofObject, Json.byteLength_write_object (by simp [Value.isJson, hjson])]
  simp only [List.map_cons, List.map_nil, List.sum_cons, List.sum_nil, List.length_cons,
    List.length_nil, Json.byteLength_writeMember, hstring]
  have h₁ : Utf8.byteLength (Json.quote (ascii "format")) = 8 := by decide
  have h₂ : Utf8.byteLength (Json.quote (ascii "JWS")) = 5 := by decide
  have h₃ : Utf8.byteLength (Json.quote (ascii "profile")) = 9 := by decide
  have h₄ : Utf8.byteLength (Json.quote proofProfile) = 29 := by decide
  have h₅ : Utf8.byteLength (Json.quote (ascii "protectedJws")) = 14 := by decide
  have h₆ : Utf8.byteLength (Json.quote (ascii "kid")) = 5 := by decide
  have h₇ : Utf8.byteLength (Json.quote (ascii "algorithm")) = 11 := by decide
  have h₈ : Utf8.byteLength (Json.quote (ascii "EdDSA")) = 7 := by decide
  have h₉ : Utf8.byteLength (Json.quote (ascii "createdAt")) = 11 := by decide
  omega

end CreatedProof

private theorem issuanceMember_mem {members : List (Text × Value)}
    (h : (issuanceMember (.object members)).isTruthy = true) :
    ∃ name, (name, issuanceMember (.object members)) ∈ members := by
  obtain ⟨name, hname⟩ : ∃ name,
      issuanceMember (.object members) = (Value.object members).field name := by
    unfold issuanceMember
    rcases Value.orElse_eq (((Value.object members).field (ascii "issuedAt")).orElse
      ((Value.object members).field (ascii "generatedAt")))
      ((Value.object members).field (ascii "completedAt")) with houter | houter
    · rcases Value.orElse_eq ((Value.object members).field (ascii "issuedAt"))
        ((Value.object members).field (ascii "generatedAt")) with hinner | hinner
      · exact ⟨_, houter.trans hinner⟩
      · exact ⟨_, houter.trans hinner⟩
    · exact ⟨_, houter⟩
  rw [hname] at h ⊢
  refine ⟨name, ?_⟩
  simp only [Value.field] at h ⊢
  cases hl : members.lookup name with
  | none => simp [hl, Value.isTruthy] at h
  | some v =>
    obtain ⟨before, after, rfl, _⟩ := List.lookup_eq_some_iff.mp hl
    simp

private theorem proof_allowed : ascii "proof" ∉ prohibitedObjectKeys := by decide

private theorem validate_signed {members : List (Text × Value)} {signer : Signer}
    (c : CreatedProof host (.object members) signer) (hissued : c.issuedAt.isObjectLike = false) :
    validatePlainTrustData (.object (members ++ [(ascii "proof", c.proof)]))
        { maximumBytes := some DefaultTrustLimits.maximumPassportBytes } true =
      .ok (.object (members ++ [(ascii "proof", c.proof)])) := by
  have hjson := (Value.isJson_object members).mp (isJson_of_visit c.visited)
  have hvisited : visit { maximumBytes := some DefaultTrustLimits.maximumPassportBytes }
      (.object members) 0 = .ok () := by
    refine visit_limits ?_ ?_ ?_ c.visited <;> rfl
  rw [visit_object] at hvisited
  have hmember := (signedIssuanceTime_ok c.issuedAt_ok).1
  obtain ⟨name, hmem⟩ := issuanceMember_mem (hmember ▸ c.issuedAt_truthy)
  rw [← hmember] at hmem
  have hproof : visit { maximumBytes := some DefaultTrustLimits.maximumPassportBytes }
      c.proof 1 = .ok () :=
    c.visit_proof hissued ⟨rfl, rfl⟩ (hvisited.2 _ hmem).2
  have hall : ∀ m ∈ members ++ [(ascii "proof", c.proof)], m.2.isJson = true := by
    simp only [List.mem_append, List.mem_singleton]
    rintro m (hm | rfl)
    · exact hjson m hm
    · exact isJson_of_visit hproof
  refine validatePlainTrustData_measured ?_ ?_
  · rw [visit_object]
    refine ⟨hvisited.1, ?_⟩
    simp only [List.mem_append, List.mem_singleton]
    rintro m (hm | rfl)
    · exact hvisited.2 m hm
    · exact ⟨proof_allowed, hproof⟩
  · have hpayload := c.payload_size
    have hissuedSize : Utf8.byteLength (Json.write c.issuedAt) ≤ 24576 := by
      have hle := Json.byteLength_writeMember_le hjson hmem
      rw [Json.byteLength_writeMember] at hle
      dsimp only at hle
      omega
    have hproofSize := c.proof_size (hjson _ hmem) hissuedSize
    have hname : Utf8.byteLength (Json.quote (ascii "proof")) = 7 := by decide
    rw [Json.byteLength_write_object hjson] at hpayload
    rw [Json.byteLength_write_object hall]
    simp only [List.map_append, List.map_cons, List.map_nil, List.sum_append, List.sum_cons,
      List.sum_nil, List.length_append, List.length_cons, List.length_nil,
      Json.byteLength_writeMember]
    simp only [Json.byteLength_writeMember] at hpayload
    change _ ≤ 262144
    omega

/-- The holder of a published key: it is known by the identifier of the key, and what it signs
verifies under the key. -/
structure HoldsKey (host : Host) (signer : Signer) (key : Value) : Prop where
  kid : key.field (ascii "kid") = .string signer.kid
  correct : ∃ publicKey, host.createPublicKey (stripJwkMetadata key) = some publicKey ∧
    ∀ message context signature, signer.sign message context = .ok signature →
      signature ≠ [] ∧ host.verify publicKey message signature = true

/-- A primitive other than `NaN` is itself. -/
private theorem strictEq_self {v : Value} (hv : v.isObjectLike = false)
    (htruthy : v.isTruthy = true) : v.strictEq v = true := by
  cases v with
  | number n =>
    cases n with
    | nan => simp [Value.isTruthy] at htruthy
    | infinity b => simp [Value.strictEq, Number.strictEq]
    | finite x => simp [Value.strictEq, Number.strictEq, Finite64.same_iff]
  | array items => simp [Value.isObjectLike] at hv
  | object members => simp [Value.isObjectLike] at hv
  | _ => simp [Value.strictEq]

section Accepted

variable {members : List (Text × Value)} {signer : Signer} {jwks key purpose : Value}
  {validatedJwks : ValidatedJwks}

theorem signDocument_ok {document signed : Value}
    (h : signDocument host document signer {} = .ok signed) :
    ∃ members, ∃ c : CreatedProof host (.object members) signer,
      withoutProof document = .ok (.object members) ∧ ascii "proof" ∉ members.map Prod.fst ∧
        signed = .object (members ++ [(ascii "proof", c.proof)]) := by
  simp only [signDocument, bind_ok, pure_ok] at h
  obtain ⟨payload, hpayload, proof, hproof, rfl⟩ := h
  obtain ⟨members, rfl, rfl⟩ := withoutProof_ok.mp hpayload
  obtain ⟨c, rfl⟩ := createProof_ok hproof
  have hnot : ascii "proof" ∉ (members.filter fun m => m.1 != ascii "proof").map Prod.fst := by
    simp
  exact ⟨_, c, hpayload, hnot, congrArg Value.object (defineMember_of_not_mem hnot _)⟩

/-- Every check of `verifyProof` passes on a proof that the holder of the key made. -/
private theorem accepted_of_created (c : CreatedProof host (.object members) signer)
    (hissued : c.issuedAt.isObjectLike = false)
    (hjwks : validateJwks host jwks {} = .ok validatedJwks) (hkey : key ∈ validatedJwks.keys)
    (hholds : HoldsKey host signer key)
    (hsuitable : SuitableKey host key purpose (issuanceMember (.object members))) :
    ∃ result, verifyProof host (.object members) c.proof jwks
      { purpose := purpose, issuedAt := issuanceMember (.object members) } = .ok result := by
  obtain ⟨publicKey, hpublic, hcorrect⟩ := hholds.correct
  obtain ⟨hsignature, hverify⟩ := hcorrect _ _ _ c.signature_ok
  obtain ⟨hmember, htruthy, _⟩ := signedIssuanceTime_ok c.issuedAt_ok
  have hkid := isKeyIdentifier_spec c.kid_ok
  have hheaderText : Utf8.encode c.headerText ≠ [] := by
    rw [c.headerText_eq]
    exact encode_written_ne_nil rfl
  have hpayloadText : Utf8.encode c.payloadText ≠ [] := by
    rw [c.payloadText_eq]
    exact encode_written_ne_nil (Value.isJson_rebuild .byName (isJson_of_visit c.visited))
  have hwf : c.payloadText.isWellFormed = true := by
    rw [c.payloadText_eq]
    exact Json.write_wellFormed (Value.isJson_rebuild .byName (isJson_of_visit c.visited))
  have hsize : ¬ DefaultTrustLimits.maximumProofBytes < Utf8.byteLength c.compact :=
    not_lt.mpr c.size_ok
  have hsigning : signingKey host (parsedHeader signer.kid) jwks c.issuedAt
      { purpose := purpose, issuedAt := issuanceMember (.object members) } = .ok key := by
    refine signingKey_ok.mpr ⟨validatedJwks, hjwks, ?_, ?_⟩
    · exact ValidatedJwks.find_of_mem hjwks hkey hholds.kid
    · refine assertKeyUsable_of_suitable ?_
      rw [Value.orElse, ← hmember, ite_self, hmember]
      exact hsuitable
  refine ⟨_, verifyProof_ok.mpr ⟨{
    protectedJws := c.compact
    encodedHeader := c.encodedHeader
    encodedPayload := c.encodedPayload
    encodedSignature := Base64Url.encode c.signature
    header := parsedHeader signer.kid
    issuedAt := c.issuedAt
    canonicalPayload := c.payloadText
    key := key
    publicKey := publicKey
    text_ok := ?_
    parts_ok := jwsParts_compact hheaderText hpayloadText hsignature
    header_ok := checkedHeader_written hkid.1 c.header_ok rfl
    kid_eq := (Value.string_strictEq _ _).mpr rfl
    alg_eq := (Value.string_strictEq _ _).mpr rfl
    issuedAt_ok := c.issuedAt_ok
    createdAt_eq := strictEq_self hissued htruthy
    canonical_ok := c.payload_ok
    payload_eq := ?_
    key_ok := hsigning
    publicKey_ok := hpublic
    verified := ?_ }, rfl⟩⟩
  · have hfields : c.proof.field (ascii "protectedJws") = .string c.compact ∧
        c.proof.field (ascii "format") = .string (ascii "JWS") ∧
        c.proof.field (ascii "profile") = .string proofProfile := ⟨rfl, rfl, rfl⟩
    rw [protectedText, hfields.1, hfields.2.1, hfields.2.2]
    simp only [orThrow, ok_bind, throwWhen, limitOr, hsize]
    rfl
  · rw [CreatedProof.encodedPayload, Base64Url.decode_encode, Utf8.decodeLossy_encode hwf]
  · rw [Base64Url.decode_encode]
    exact hverify

theorem verifyDocument_signDocument {document payload signed : Value}
    (hsigned : signDocument host document signer {} = .ok signed)
    (hpayload : withoutProof document = .ok payload)
    (hissued : (issuanceMember payload).isObjectLike = false)
    (hwindow : validateTimeWindow host payload host.dateNow none none = .ok ())
    (hjwks : validateJwks host jwks {} = .ok validatedJwks) (hkey : key ∈ validatedJwks.keys)
    (hholds : HoldsKey host signer key)
    (hsuitable : SuitableKey host key purpose (issuanceMember payload)) :
    ∃ result, verifyDocument host signed jwks { purpose := purpose } = .ok (result, payload) := by
  obtain ⟨members, c, hmembers, hnot, rfl⟩ := signDocument_ok hsigned
  obtain rfl : payload = .object members := Except.ok.inj (hpayload.symm.trans hmembers)
  have hmember := (signedIssuanceTime_ok c.issuedAt_ok).1
  rw [← hmember] at hissued
  obtain ⟨result, hresult⟩ := accepted_of_created c hissued hjwks hkey hholds hsuitable
  have hproof : (Value.object (members ++ [(ascii "proof", c.proof)])).field (ascii "proof") =
      c.proof := by
    have hnone : members.lookup (ascii "proof") = none := by
      rw [List.lookup_eq_none_iff]
      intro m hm
      exact bne_iff_ne.mpr fun h => hnot (List.mem_map.mpr ⟨m, hm, h.symm⟩)
    rw [Value.field, List.lookup_append, hnone]
    rfl
  have hwithout : withoutProof (.object (members ++ [(ascii "proof", c.proof)])) =
      .ok (.object members) := by
    have hkeep : members.filter (fun m => m.1 != ascii "proof") = members := by
      refine List.filter_eq_self.mpr fun m hm => ?_
      exact bne_iff_ne.mpr fun h => hnot (List.mem_map.mpr ⟨m, hm, h⟩)
    refine withoutProof_ok.mpr ⟨_, rfl, ?_⟩
    rw [List.filter_append, hkeep]
    simp
  refine ⟨result, verifyDocument_ok.mpr ⟨validate_signed c hissued, hwithout, rfl, hwindow,
    fun h => absurd h Bool.false_ne_true, ?_⟩⟩
  rw [hproof]
  exact hresult

end Accepted

/-- The holder of the published key that the header names signed the header and the canonical
text of the payload, and the key was fit for it. -/
structure SignedPayload (host : Host) (signedBy : host.PublicKey → Bytes → Prop)
    (payload proof jwks : Value) (options : VerifyOptions) where
  encodedHeader : Text
  encodedPayload : Text
  encodedSignature : Text
  header : Value
  canonicalPayload : Text
  validatedJwks : ValidatedJwks
  key : Value
  publicKey : host.PublicKey
  compact : proof.field (ascii "protectedJws") =
    .string ([0x2e].intercalate [encodedHeader, encodedPayload, encodedSignature])
  header_ok : checkedHeader encodedHeader options = .ok header
  canonical_ok :
    canonicalize payload { maximumBytes := options.maximumPayloadBytes } = .ok canonicalPayload
  payload_eq : Utf8.decodeLossy (Base64Url.decode encodedPayload) = canonicalPayload
  jwks_ok : validateJwks host jwks options.toKeyOptions = .ok validatedJwks
  key_found : validatedJwks.find (header.field (ascii "kid")) = some key
  key_mem : key ∈ validatedJwks.keys
  key_named : (key.field (ascii "kid")).strictEq (header.field (ascii "kid")) = true
  publicKey_ok : host.createPublicKey (stripJwkMetadata key) = some publicKey
  signed : signedBy publicKey (Utf8.lowBytes (encodedHeader ++ 0x2e :: encodedPayload))
  kid_eq : (header.field (ascii "kid")).strictEq (proof.field (ascii "kid")) = true
  alg_eq : (header.field (ascii "alg")).strictEq (proof.field (ascii "algorithm")) = true
  createdAt_eq : (proof.field (ascii "createdAt")).strictEq (issuanceMember payload) = true
  purpose_ok : options.purpose.isTruthy = true →
    includes (asList (key.field (ascii "purpose"))) options.purpose = true
  window_ok : ∃ time notBefore expiresAt,
    parseDate host (options.issuedAt.orElse (issuanceMember payload)) = .ok (some time) ∧
    parseDate host (key.field (ascii "notBefore")) = .ok (some notBefore) ∧
    parseDate host (key.field (ascii "expiresAt")) = .ok (some expiresAt) ∧
    notBefore ≤ time ∧ time < expiresAt

private theorem jwsParts_ok {text header payload signature : Text}
    (h : jwsParts text = .ok (header, payload, signature)) :
    text = [0x2e].intercalate [header, payload, signature] := by
  unfold jwsParts at h
  split at h
  · next hsplit =>
    split at h
    · cases h
    · simp only [pure_ok, Prod.mk.injEq] at h
      obtain ⟨rfl, rfl, rfl⟩ := h
      rw [← hsplit, List.intercalate_splitOn]
  · cases h

theorem signedPayload_of_verifyProof {signedBy : host.PublicKey → Bytes → Prop}
    (hunforgeable : ∀ publicKey message signature,
      host.verify publicKey message signature = true → signedBy publicKey message)
    {payload proof jwks : Value} {options : VerifyOptions} {result : VerificationResult}
    (h : verifyProof host payload proof jwks options = .ok result) :
    ∃ s : SignedPayload host signedBy payload proof jwks options,
      result.kid = s.header.field (ascii "kid") ∧
        result.keyThumbprint = s.key.field (ascii "thumbprint") := by
  obtain ⟨a, rfl⟩ := verifyProof_ok.mp h
  obtain ⟨hissued, _, _⟩ := signedIssuanceTime_ok a.issuedAt_ok
  obtain ⟨validatedJwks, hjwks, hfind, husable⟩ := signingKey_ok.mp a.key_ok
  obtain ⟨hmem, hnamed, jwk, hjwk⟩ := ValidatedJwks.find_ok hjwks hfind
  obtain ⟨notBefore, expiresAt, hnotBefore, hexpiresAt⟩ := validatePublicJwk_window hjwk
  obtain ⟨hpurpose, time, htime, hle, hlt⟩ := assertKeyUsable_ok husable hnotBefore hexpiresAt
  have hcompact : proof.field (ascii "protectedJws") = .string a.protectedJws := by
    have htext := a.text_ok
    simp only [protectedText, bind_ok, throwWhen_ok, orThrow_ok, exists_unit, pure_ok] at htext
    obtain ⟨text, hfield, _, _, rfl⟩ := htext
    split at hfield
    · next hs => rw [hs, Option.some.inj hfield]
    · cases hfield
  refine ⟨{
    encodedHeader := a.encodedHeader
    encodedPayload := a.encodedPayload
    encodedSignature := a.encodedSignature
    header := a.header
    canonicalPayload := a.canonicalPayload
    validatedJwks := validatedJwks
    key := a.key
    publicKey := a.publicKey
    compact := hcompact.trans (congrArg Value.string (jwsParts_ok a.parts_ok))
    header_ok := a.header_ok
    canonical_ok := a.canonical_ok
    payload_eq := a.payload_eq
    jwks_ok := hjwks
    key_found := hfind
    key_mem := hmem
    key_named := hnamed
    publicKey_ok := a.publicKey_ok
    signed := hunforgeable _ _ _ a.verified
    kid_eq := a.kid_eq
    alg_eq := a.alg_eq
    createdAt_eq := hissued ▸ a.createdAt_eq
    purpose_ok := hpurpose
    window_ok := ⟨time, notBefore, expiresAt, hissued ▸ htime, hnotBefore, hexpiresAt, hle, hlt⟩ },
    rfl, rfl⟩

/-! ## Recorded signatures

A host that knows the signatures in a record, for runs with real keys. -/

/-- A signature made with the Ed25519 key of this public coordinate. -/
structure RecordedSignature where
  x : Text
  message : Bytes
  signature : Bytes
deriving DecidableEq

def signingInput (kid : Text) (payload : Value) : Bytes :=
  Utf8.lowBytes (Base64Url.encode (Utf8.encode (Json.write (parsedHeader kid))) ++
    0x2e :: Base64Url.encode (Utf8.encode (Json.write payload.sorted)))

def recordedHost (now : Int) (dates : List (Text × Int)) (signatures : List RecordedSignature) :
    Host where
  dateParse text := dates.lookup text
  dateNow := now
  toUpperCase text := text.map fun u => if 0x61 ≤ u ∧ u ≤ 0x7a then u - 0x20 else u
  PublicKey := Text
  createPublicKey key :=
    match key.field (ascii "x") with
    | .string x => some x
    | _ => none
  verify x message signature := signatures.contains ⟨x, message, signature⟩

theorem recordedHost_verify {now : Int} {dates : List (Text × Int)}
    {signatures : List RecordedSignature} {x : Text} {message signature : Bytes} :
    (recordedHost now dates signatures).verify x message signature = true ↔
      ⟨x, message, signature⟩ ∈ signatures :=
  List.contains_iff_mem

def recordedSigner (kid x : Text) (signatures : List RecordedSignature) : Signer where
  kid := kid
  sign message _ := orThrow .runtimeError
    ((signatures.find? fun r => r.x = x ∧ r.message = message).map RecordedSignature.signature)

theorem holdsKey_recorded {now : Int} {dates : List (Text × Int)}
    {signatures : List RecordedSignature} (hsignatures : ∀ r ∈ signatures, r.signature ≠ [])
    {kid x : Text} {key : Value} (hkid : key.field (ascii "kid") = .string kid)
    (hx : (stripJwkMetadata key).field (ascii "x") = .string x) :
    HoldsKey (recordedHost now dates signatures) (recordedSigner kid x signatures) key := by
  refine ⟨hkid, x, by simp only [recordedHost, hx], fun message _ signature h => ?_⟩
  simp only [recordedSigner, orThrow_ok, Option.map_eq_some_iff] at h
  obtain ⟨r, hr, rfl⟩ := h
  have hmem := List.mem_of_find?_eq_some hr
  obtain ⟨rfl, rfl⟩ : r.x = x ∧ r.message = message := by simpa using List.find?_some hr
  exact ⟨hsignatures r hmem, List.contains_iff_mem.mpr hmem⟩

/-! ### Recorded documents

A document whose signature is recorded is verified without a run of the scheme. -/

def recordedDocument (kid : Text) (payload : Value) (signature : Bytes) : Value :=
  withMember payload (ascii "proof")
    (proofObject (Base64Url.encode (Utf8.encode (Json.write (parsedHeader kid))) ++ 0x2e ::
        (Base64Url.encode (Utf8.encode (Json.write payload.sorted)) ++
          0x2e :: Base64Url.encode signature))
      kid (.string (ascii "EdDSA")) (issuanceMember payload))

def payloadSigner (kid : Text) (payload : Value) (signature : Bytes) : Signer where
  kid := kid
  sign message _ :=
    if message = signingInput kid payload then .ok signature else .error .runtimeError

/-- A payload that can be signed by a key of this identifier. -/
structure Signable (host : Host) (kid : Text) (payload : Value) : Prop where
  identifier : isKeyIdentifier kid = true
  object : withoutProof payload = .ok payload
  visited : visit {} payload 0 = .ok ()
  issued : signedIssuanceTime host payload = .ok (issuanceMember payload)
  size : Utf8.byteLength (Json.write payload) ≤ 20000

private theorem length_encode_write {v : Value} :
    (Utf8.encode (Json.write v)).length = Utf8.byteLength (Json.write v) := rfl

namespace Signable

variable {kid : Text} {payload : Value} (h : Signable host kid payload)

private theorem header_visited {kid : Text} (hkid : isKeyIdentifier kid = true) :
    visit {} (protectedHeader (.string (ascii "EdDSA")) kid proofType proofProfile) 0 = .ok () := by
  have hspec := isKeyIdentifier_spec hkid
  have hlength : kid.length ≤ 65536 := hspec.1.trans (by decide)
  rw [protectedHeader, visit_object]
  refine ⟨by decide, ?_⟩
  simp only [List.forall_mem_cons, visit_string]
  exact ⟨by decide, ⟨by decide, by decide, hlength, Utf8.isWellFormed_ascii hspec.2⟩,
    by decide, by decide, List.forall_mem_nil _⟩

private theorem header_canonical {kid : Text} (hkid : isKeyIdentifier kid = true) :
    canonicalize (protectedHeader (.string (ascii "EdDSA")) kid proofType proofProfile) {} =
      .ok (Json.write (parsedHeader kid)) := by
  have hsize := header_size (isKeyIdentifier_spec hkid).1
  refine canonicalize_ok.mpr ⟨header_visited hkid, by rw [sorted_header], ?_⟩
  exact hsize.trans (by decide)

include h

theorem byteLength_sorted :
    Utf8.byteLength (Json.write payload.sorted) = Utf8.byteLength (Json.write payload) :=
  Json.byteLength_write_rebuild .byName (isJson_of_visit h.visited)

theorem canonical : canonicalize payload {} = .ok (Json.write payload.sorted) := by
  have hsize := h.byteLength_sorted
  have hlimit := h.size
  refine canonicalize_ok.mpr ⟨h.visited, rfl, ?_⟩
  change _ ≤ 1048576
  omega

theorem plain : validatePlainTrustData payload {} true = .ok payload := by
  obtain ⟨members, hmembers, -⟩ := withoutProof_ok.mp h.object
  have hstringify : Json.stringify payload = some (Json.write payload) := by
    rw [hmembers]
    rfl
  have hsize : Utf8.byteLength (Json.write payload) ≤ ({} : Limits).bytes :=
    h.size.trans (by decide)
  have hmeasured : measureBytes payload {} = .ok () := by
    simp [measureBytes, hstringify, hsize]
  simp [validatePlainTrustData, h.visited, hmeasured]

theorem compact_size {signature : Bytes} (hsignature : signature.length = 64) :
    Utf8.byteLength (Base64Url.encode (Utf8.encode (Json.write (parsedHeader kid))) ++ 0x2e ::
      (Base64Url.encode (Utf8.encode (Json.write payload.sorted)) ++
        0x2e :: Base64Url.encode signature)) ≤ DefaultTrustLimits.maximumProofBytes := by
  have hheader := header_size (isKeyIdentifier_spec h.identifier).1
  have hpayload := h.byteLength_sorted ▸ h.size
  rw [Utf8.byteLength_ascii (compact_ascii _ _ _), DefaultTrustLimits.maximumProofBytes]
  simp only [List.length_append, List.length_cons, Base64Url.length_encode, length_encode_write,
    hsignature]
  omega

theorem created {signature : Bytes} (hsignature : signature.length = 64) :
    signDocument host payload (payloadSigner kid payload signature) {} =
      .ok (recordedDocument kid payload signature) := by
  have halgorithm : assertAlgorithmAllowed (.string (ascii "EdDSA")) none =
      .ok (.string (ascii "EdDSA")) := by decide
  have hheader : base64urlJson (protectedHeader (.string (ascii "EdDSA")) kid proofType
      proofProfile) = .ok (Base64Url.encode (Utf8.encode (Json.write (parsedHeader kid)))) := by
    simp [base64urlJson, header_canonical h.identifier]
  have hpayload : base64urlJson payload =
      .ok (Base64Url.encode (Utf8.encode (Json.write payload.sorted))) := by
    simp [base64urlJson, h.canonical]
  have hsign : (payloadSigner kid payload signature).sign (signingInput kid payload)
      ⟨.string (ascii "EdDSA"), kid, .undefined⟩ = .ok signature := by
    simp only [payloadSigner, if_true]
  have hsize := decide_eq_false (not_lt.mpr (h.compact_size hsignature))
  have hidentifier : (!isKeyIdentifier kid) = false := by rw [h.identifier, Bool.not_true]
  refine bind_ok.mpr ⟨payload, h.object, bind_ok.mpr ⟨_, ?_, rfl⟩⟩
  refine bind_ok.mpr ⟨payload, h.plain, bind_ok.mpr ⟨_, h.issued, ?_⟩⟩
  refine bind_ok.mpr ⟨_, halgorithm, bind_ok.mpr ⟨(), throwWhen_ok.mpr hidentifier, ?_⟩⟩
  refine bind_ok.mpr ⟨_, hheader, bind_ok.mpr ⟨_, hpayload, ?_⟩⟩
  exact bind_ok.mpr ⟨_, hsign, bind_ok.mpr ⟨(), throwWhen_ok.mpr hsize, rfl⟩⟩

theorem field_recorded {signature : Bytes} {name : Text} (hname : name ≠ ascii "proof") :
    (recordedDocument kid payload signature).field name = payload.field name := by
  obtain ⟨members, rfl, -⟩ := withoutProof_ok.mp h.object
  rw [recordedDocument, withMember, Value.field, Value.field, lookup_defineMember_of_ne hname]

theorem field_proof {signature : Bytes} :
    ((recordedDocument kid payload signature).field (ascii "proof")).isTruthy = true := by
  obtain ⟨members, rfl, -⟩ := withoutProof_ok.mp h.object
  rw [recordedDocument, withMember, Value.field, Value.lookup_defineMember_self]
  rfl

theorem field_proof_kid {signature : Bytes} :
    ((recordedDocument kid payload signature).field (ascii "proof")).field (ascii "kid") =
      .string kid := by
  obtain ⟨members, rfl, -⟩ := withoutProof_ok.mp h.object
  rw [recordedDocument, withMember, Value.field, Value.lookup_defineMember_self]
  rfl

theorem verified {signature : Bytes} {jwks document key purpose : Value}
    {publicKey : host.PublicKey} (hsignature : signature.length = 64)
    (hissued : (issuanceMember payload).isObjectLike = false)
    (hwindow : validateTimeWindow host payload host.dateNow none none = .ok ())
    (hjwks : validateJwks host jwks {} = .ok ⟨document, [key]⟩)
    (hkid : key.field (ascii "kid") = .string kid)
    (hpublicKey : host.createPublicKey (stripJwkMetadata key) = some publicKey)
    (hverify : host.verify publicKey (signingInput kid payload) signature = true)
    (hsuitable : SuitableKey host key purpose (issuanceMember payload)) :
    ∃ result, verifyDocument host (recordedDocument kid payload signature) jwks
        { purpose := purpose } = .ok (result, payload) ∧
      result.keyThumbprint = key.field (ascii "thumbprint") := by
  have hholds : HoldsKey host (payloadSigner kid payload signature) key := by
    refine ⟨hkid, publicKey, hpublicKey, fun message context other hsigned => ?_⟩
    simp only [payloadSigner] at hsigned
    split at hsigned
    · next hmessage =>
      obtain rfl := Except.ok.inj hsigned
      have hne : signature ≠ [] := List.ne_nil_of_length_pos (by omega)
      exact ⟨hne, hmessage ▸ hverify⟩
    · cases hsigned
  obtain ⟨result, hresult⟩ := verifyDocument_signDocument (h.created hsignature) h.object hissued
    hwindow hjwks List.mem_cons_self hholds hsuitable
  obtain ⟨_, _, _, _, _, hproof⟩ := verifyDocument_ok.mp hresult
  have hsigned : ∀ (key : host.PublicKey) (message signature : Bytes),
      host.verify key message signature = true → True := fun _ _ _ _ => trivial
  obtain ⟨s, _, hthumbprint⟩ := signedPayload_of_verifyProof hsigned hproof
  have hkeys := Except.ok.inj (s.jwks_ok.symm.trans hjwks)
  have hkey : s.key = key := List.mem_singleton.mp (by simpa [hkeys] using s.key_mem)
  exact ⟨result, hresult, by rw [hthumbprint, hkey]⟩

end Signable

theorem verifyDocument_expecting {document jwks purpose payload : Value}
    {result : VerificationResult} (expectedIssuer expectedAudience : Value)
    (h : verifyDocument host document jwks { purpose := purpose } = .ok (result, payload))
    (hissuer : ((payload.field (ascii "issuer")).orElse
      (payload.field (ascii "issuerId"))).strictEq expectedIssuer = true)
    (haudience : expectedAudience.isTruthy = true →
      validateAudience (payload.field (ascii "audience")) expectedAudience = .ok ()) :
    verifyDocument host document jwks
        { purpose := purpose, expectedIssuer := expectedIssuer,
          expectedAudience := expectedAudience } = .ok (result, payload) := by
  obtain ⟨hplain, hpayload, _, hwindow, _, hproof⟩ := verifyDocument_ok.mp h
  exact verifyDocument_ok.mpr
    ⟨hplain, hpayload, by simp [hissuer], hwindow, haudience, hproof⟩

def signingJwk (kid x thumbprint purpose : Text) : Value :=
  .object [(ascii "kid", .string kid), (ascii "kty", .string (ascii "OKP")),
    (ascii "crv", .string (ascii "Ed25519")), (ascii "x", .string x),
    (ascii "use", .string (ascii "sig")), (ascii "alg", .string (ascii "EdDSA")),
    (ascii "state", .string (ascii "active")),
    (ascii "notBefore", .string (ascii "2025-01-01T00:00:00.000Z")),
    (ascii "expiresAt", .string (ascii "2027-01-01T00:00:00.000Z")),
    (ascii "thumbprint", .string thumbprint), (ascii "purpose", .array [.string purpose])]

/-- `Date.parse` of the dates that occur. -/
def recordedDates : List (Text × Int) :=
  [(ascii "2025-01-01T00:00:00.000Z", 1735689600000),
    (ascii "2026-01-01T00:00:00.000Z", 1767225600000),
    (ascii "2026-01-02T00:00:00.000Z", 1767312000000),
    (ascii "2027-01-01T00:00:00.000Z", 1798761600000)]

def issuerX : Text := ascii "FfWXq3WAGFqffURjIsk75sEzOz7cn9luDwhDGTu9Xj0"

def issuerKey : Value :=
  signingJwk (ascii "k1") issuerX (ascii "LgcH0TbCKoRrt1NMhP8XJsjpadruUurO3I35x25xRCk")
    (ascii "passport_signing")

def issuerJwks : Value := .object [(ascii "keys", .array [issuerKey])]

def issuedDocument (issuedAt : Value) (more : List (Text × Value)) : Value :=
  .object ((ascii "issuer", .string (ascii "https://issuer.example")) ::
    (ascii "issuedAt", issuedAt) :: more)

def newYear : Value := .string (ascii "2026-01-01T00:00:00.000Z")

def currentDocument : Value := issuedDocument newYear []

def expiredDocument : Value :=
  issuedDocument newYear [(ascii "expiresAt", .string (ascii "2026-01-02T00:00:00.000Z"))]

/-- Its issuance time is an array, which `Date.parse` reads as its only element. -/
def listDocument : Value := issuedDocument (.array [newYear]) []

def issuerSignatures : List RecordedSignature :=
  [⟨issuerX, signingInput (ascii "k1") currentDocument, Base64Url.decode (ascii
      "08VQMKN-JGlKkgqWtmOIdtX8kxoK6fPiSx1bvKiWD5Xm3WFblD4BVU9WUE44MG1anCqxzvZ2a4eB2EernIdRBw")⟩,
    ⟨issuerX, signingInput (ascii "k1") expiredDocument, Base64Url.decode (ascii
      "K3my7RPbKMZyAV7XochpzMqzymyyYORPyfY3a9OR-NNbXtneBJ1pmJF_hdMABaZpIWSPpONoahP-YVAR8oiWCg")⟩,
    ⟨issuerX, signingInput (ascii "k1") listDocument, Base64Url.decode (ascii
      "fMzjziutzOyx2NGXjPOqoUOlGTJTN7cyi5Vnl7ARvQFPqk_JG51i8tkEYnw7WlB0XBpuigiU56P8xCULs74ABg")⟩]

def issuerHost : Host := recordedHost 1780272000000 recordedDates issuerSignatures

def issuer : Signer := recordedSigner (ascii "k1") issuerX issuerSignatures

private theorem validateJwks_issuer : validateJwks issuerHost issuerJwks {} = .ok ⟨issuerJwks, [issuerKey]⟩ := by
  decide +kernel

private theorem holdsKey_issuer : HoldsKey issuerHost issuer issuerKey :=
  holdsKey_recorded (by decide) rfl rfl

def passportSigning : Value := .string (ascii "passport_signing")

private theorem suitableKey_issuer {issuedAt : Value}
    (h : parseDate issuerHost issuedAt = .ok (some 1767225600000)) :
    SuitableKey issuerHost issuerKey passportSigning issuedAt where
  purpose _ := by decide
  state := by decide
  window := ⟨1767225600000, 1735689600000, 1798761600000, h, by decide, by decide,
    by decide, by decide⟩

private theorem issuer_signs : ∀ document ∈ [currentDocument, expiredDocument, listDocument],
    (signDocument issuerHost document issuer {}).isOk = true := by
  decide +kernel

/-- Message integrity of the proof format, for a correct and unforgeable signature scheme. -/
theorem proof_integrity (host : Host) (signedBy : host.PublicKey → Bytes → Prop)
    (hunforgeable : ∀ publicKey message signature,
      host.verify publicKey message signature = true → signedBy publicKey message) :
    (∀ document payload signed jwks key purpose signer validatedJwks,
      withoutProof document = .ok payload →
      signDocument host document signer {} = .ok signed →
      (issuanceMember payload).isObjectLike = false →
      validateTimeWindow host payload host.dateNow none none = .ok () →
      validateJwks host jwks {} = .ok validatedJwks → key ∈ validatedJwks.keys →
      HoldsKey host signer key → SuitableKey host key purpose (issuanceMember payload) →
      ∃ result, verifyDocument host signed jwks { purpose := purpose } = .ok (result, payload)) ∧
    ∀ document jwks options result payload,
      verifyDocument host document jwks options = .ok (result, payload) →
      withoutProof document = .ok payload ∧
        Nonempty (SignedPayload host signedBy payload (document.field (ascii "proof")) jwks
          { options with issuedAt := issuanceMember payload }) := by
  constructor
  · intro document payload signed jwks key purpose signer validatedJwks hpayload hsigned hissued
      hwindow hjwks hkey hholds hsuitable
    exact verifyDocument_signDocument hsigned hpayload hissued hwindow hjwks hkey hholds hsuitable
  · intro document jwks options result payload h
    obtain ⟨_, hpayload, _, _, _, hproof⟩ := verifyDocument_ok.mp h
    obtain ⟨s, _⟩ := signedPayload_of_verifyProof hunforgeable hproof
    exact ⟨hpayload, ⟨s⟩⟩

/-- The host accepts what it has a record of. -/
theorem proof_integrity_recorded :
    ∃ signed, signDocument issuerHost currentDocument issuer {} = .ok signed ∧
      (∃ result, verifyDocument issuerHost signed issuerJwks { purpose := passportSigning } =
        .ok (result, currentDocument)) ∧
      Nonempty (SignedPayload issuerHost
        (fun x message => ∃ signature, ⟨x, message, signature⟩ ∈ issuerSignatures) currentDocument
        (signed.field (ascii "proof")) issuerJwks
        { purpose := passportSigning, issuedAt := newYear }) := by
  obtain ⟨signed, hsigned⟩ := exists_of_isOk (issuer_signs currentDocument (by simp))
  have hintegrity := proof_integrity issuerHost
    (fun x message => ∃ signature, ⟨x, message, signature⟩ ∈ issuerSignatures)
    fun x message signature h => ⟨signature, recordedHost_verify.mp h⟩
  obtain ⟨result, hresult⟩ := hintegrity.1 currentDocument currentDocument signed issuerJwks
    issuerKey passportSigning issuer _ rfl hsigned rfl (by decide) validateJwks_issuer
    List.mem_cons_self holdsKey_issuer (suitableKey_issuer (by decide))
  exact ⟨signed, hsigned, ⟨result, hresult⟩, (hintegrity.2 _ _ _ _ _ hresult).2⟩

/-- `JSON.parse(JSON.stringify(value))`. -/
def transport (value : Value) : Checked Value := do
  let text ← orThrow .runtimeError (Json.stringify value)
  orThrow .runtimeError (Json.parse text)

private theorem issuer_rejected :
    (do
      let signed ← signDocument issuerHost expiredDocument issuer {}
      verifyDocument issuerHost signed issuerJwks { purpose := passportSigning }) =
        .error (trustError .messageExpired "The signed object has expired.") ∧
    (do
      let signed ← signDocument issuerHost listDocument issuer {}
      transport signed).isOk = true ∧
    (do
      let signed ← signDocument issuerHost listDocument issuer {}
      let received ← transport signed
      verifyDocument issuerHost received issuerJwks { purpose := passportSigning }) =
        .error (trustError .proofInvalid
          "Unsigned proof creation metadata does not match the signed issuance time.") := by
  decide +kernel

/-- A document signed with a suitable key is rejected when its own window is over, and when its
issuance time was a list before it was sent. -/
theorem signed_rejected :
    validateJwks issuerHost issuerJwks {} = .ok ⟨issuerJwks, [issuerKey]⟩ ∧
      HoldsKey issuerHost issuer issuerKey ∧
      SuitableKey issuerHost issuerKey passportSigning newYear ∧
      SuitableKey issuerHost issuerKey passportSigning (.array [newYear]) ∧
      (∃ signed, signDocument issuerHost expiredDocument issuer {} = .ok signed ∧
        verifyDocument issuerHost signed issuerJwks { purpose := passportSigning } =
          .error (trustError .messageExpired "The signed object has expired.")) ∧
      ∃ signed received, signDocument issuerHost listDocument issuer {} = .ok signed ∧
        transport signed = .ok received ∧
        verifyDocument issuerHost received issuerJwks { purpose := passportSigning } =
          .error (trustError .proofInvalid
            "Unsigned proof creation metadata does not match the signed issuance time.") := by
  refine ⟨validateJwks_issuer, holdsKey_issuer, suitableKey_issuer (by decide),
    suitableKey_issuer (by decide), ?_, ?_⟩
  · obtain ⟨signed, hsigned⟩ := exists_of_isOk (issuer_signs expiredDocument (by simp))
    have hrejected := issuer_rejected.1
    rw [hsigned, ok_bind] at hrejected
    exact ⟨signed, hsigned, hrejected⟩
  · obtain ⟨received, h⟩ := exists_of_isOk issuer_rejected.2.1
    obtain ⟨signed, hsigned, hreceived⟩ := bind_ok.mp h
    have hrejected := issuer_rejected.2.2
    rw [hsigned, ok_bind, hreceived, ok_bind] at hrejected
    exact ⟨signed, received, hsigned, hreceived, hrejected⟩

end GhostBridge.Trust

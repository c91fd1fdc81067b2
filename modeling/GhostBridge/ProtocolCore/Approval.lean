import GhostBridge.ProtocolCore.Documents

/-!
# Approvals

An approval is bound to an action by a digest of the action.
-/

namespace GhostBridge.ProtocolCore

open Ecma

variable (runtime : Runtime)

/-- `/^[A-Za-z0-9_-]{43}$/`. -/
def isActionDigest (text : Text) : Bool :=
  text.length == 43 && text.all fun u =>
    Regex.range 0x41 0x5a u || Regex.range 0x61 0x7a u || Regex.range 0x30 0x39 u || u == 0x5f ||
      u == 0x2d

def assertApprovalActionDigest (value : Value) : Checked Text :=
  let invalid := protocolError .approvalInvalid "The approval action digest is invalid."
  match value with
  | .string text => do
    throwWhen (!isActionDigest text) invalid
    pure text
  | _ => throw invalid

mutual
def canonicalizeApprovalValue : Value → Value
  | .array items => .array (canonicalizeApprovalItems items)
  | .object members =>
    .object (fromEntries (Reordering.byName.order (canonicalizeApprovalMembers members)))
  | v => v
def canonicalizeApprovalItems : List Value → List Value
  | [] => []
  | item :: items => canonicalizeApprovalValue item :: canonicalizeApprovalItems items
def canonicalizeApprovalMembers : List (Text × Value) → List (Text × Value)
  | [] => []
  | (key, value) :: members =>
    (key, canonicalizeApprovalValue value) :: canonicalizeApprovalMembers members
end

def canonicalApprovalDigest (value : Value) : Checked Text := do
  let _ ← assertPlainData value defaultLimits
  digest (canonicalizeApprovalValue value)

def actionTexts : List String :=
  ["invocationId", "connectionId", "capabilityKey", "capabilityVersion", "organizationScope",
    "inputContractReference", "policyDecisionReference", "validityBoundary"]

def isBoundedText (maximum : Nat) : Value → Bool
  | .string s => !s.isBlank && s.length ≤ maximum
  | _ => false

def isOptionalText (maximum : Nat) (value : Value) : Bool :=
  value.isUndefined || isBoundedText maximum value

/-- `Number.isFinite(Date.parse(value))` of a text. -/
def isDate : Value → Bool
  | .string s => (runtime.dateParse s).isSome
  | _ => false

def payloadDigestOf (input : Value) : Checked Text := do
  let payload := input.field (ascii "payload")
  let given ← (if payload.isUndefined then pure (input.field (ascii "payloadDigest"))
    else .string <$> canonicalApprovalDigest payload)
  assertApprovalActionDigest given

def boundFields (input : Value) (payloadDigest : Text) (approvalLimits : Value) :
    List (Text × Value) :=
  let name (field : String) : Text × Value := (ascii field, input.field (ascii field))
  [name "invocationId", name "connectionId", name "capabilityKey", name "capabilityVersion",
    name "organizationScope", name "workspaceScope", name "inputContractReference",
    (ascii "payloadDigest", .string payloadDigest), name "sideEffectCategory",
    (ascii "approvalLimits", approvalLimits), name "policyDecisionReference",
    name "validityBoundary"]

def createApprovalAction (input : Value) : Checked Value := do
  assertRequired runtime input
    ["invocationId", "connectionId", "capabilityKey", "capabilityVersion", "organizationScope",
      "inputContractReference", "approvalLimits", "policyDecisionReference", "validityBoundary"]
    .approvalInvalid
  let name (field : String) : Value := input.field (ascii field)
  throwWhen (!(actionTexts.all fun field => isBoundedText 500 (name field)) ||
      !isOptionalText 200 (name "workspaceScope") || !isOptionalText 100 (name "sideEffectCategory") ||
      !isDate runtime (name "validityBoundary") ||
      (match name "approvalLimits" with
        | .object _ => false
        | _ => true))
    (protocolError .approvalInvalid "The approval action binding is invalid.")
  let payloadDigest ← payloadDigestOf input
  let approvalLimits ← clonePlain (name "approvalLimits")
  assertPlainData (removeUndefined (.object (boundFields input payloadDigest approvalLimits)))
    defaultLimits

def approvalActionDigest (input : Value) : Checked Text := do
  let action ← createApprovalAction runtime input
  canonicalApprovalDigest action

/-- An own property of `value || {}`, with those of arrays and texts. -/
def ownProperty? : Value → Text → Option Value
  | .object members, key => members.lookup key
  | .array items, key =>
    if key = ascii "length" then some (.number (.ofNat items.length))
    else (arrayIndex? key).bind (items[·]?)
  | .string s, key =>
    if s.isEmpty then none
    else if key = ascii "length" then some (.number (.ofNat s.length))
    else (arrayIndex? key).bind fun index => s[index]?.map fun u => .string [u]
  | _, _ => none

def valueWithin (value limit : Value) : Bool :=
  match value, limit with
  | .number a, .number b => a.le b
  | value, limit => value.strictEq limit

mutual
def limitsWithin (approved challenged : Value) : Bool :=
  match approved with
  | .object members => membersWithin members challenged
  | .array items => itemsWithin items 0 challenged
  | _ => true
def membersWithin : List (Text × Value) → Value → Bool
  | [], _ => true
  | (key, value) :: members, challenged =>
    (match ownProperty? challenged key with
      | none => false
      | some limit =>
        match value with
        | .object _ => limitsWithin value limit
        | _ => valueWithin value limit) && membersWithin members challenged
def itemsWithin : List Value → Nat → Value → Bool
  | [], _, _ => true
  | value :: items, index, challenged =>
    (match ownProperty? challenged (decimalDigits index) with
      | none => false
      | some limit =>
        match value with
        | .object _ => limitsWithin value limit
        | _ => valueWithin value limit) && itemsWithin items (index + 1) challenged
end

def validateApprovalChallenge (document : Value) : Checked Unit := do
  assertRequired runtime document
    ["challengeId", "invocationId", "organizationScope", "actionKey", "approvalActionDigest",
      "safeSummary", "requiredRoleCategories", "approvalLimits", "expiresAt", "requestedBy",
      "policyDecisionReference", "status"]
  let _ ← assertApprovalActionDigest (document.field (ascii "approvalActionDigest"))

/-- `validateApprovalDecision(document, challenge)` of a challenge that was found. -/
def validateApprovalDecision (document challenge : Value) (clock : Int) : Checked Unit := do
  assertRequired runtime document
    ["challengeId", "decisionId", "decision", "approvalActionDigest", "approvedLimits", "decidedBy",
      "decidedAt", "safeReasonCode"]
    .approvalInvalid
  validateApprovalChallenge runtime challenge
  let same (field : String) : Bool :=
    (document.field (ascii field)).strictEq (challenge.field (ascii field))
  throwWhen (!same "challengeId")
    (protocolError .approvalInvalid "The Approval Decision is not bound to this challenge.")
  throwWhen (!same "approvalActionDigest")
    (protocolError .approvalInvalid "The Approval Decision is not bound to the challenged action.")
  let expiry ← textOf (challenge.field (ascii "expiresAt"))
  throwWhen ((runtime.dateParse expiry).any (· ≤ clock))
    (protocolError .approvalExpired "The Approval Challenge has expired.")
  throwWhen (!(challenge.field (ascii "status")).strictEq (.string (ascii "pending")))
    (protocolError .approvalInvalid "The Approval Challenge cannot be reused.")
  throwWhen (!limitsWithin (document.field (ascii "approvedLimits"))
      (challenge.field (ascii "approvalLimits")))
    (protocolError .approvalInvalid "The Approval Decision exceeds the challenged limits.")
  let _ ← assertApprovalActionDigest (document.field (ascii "approvalActionDigest"))

def canonicalOrder : Reordering := Reordering.propertyOrder.comp .byName

theorem canonicalOrder_forgetful : canonicalOrder.Forgetful :=
  Reordering.comp_forgetful _ Reordering.byName_forgetful

private theorem canonicalizeApprovalItems_eq (items : List Value) :
    canonicalizeApprovalItems items = items.map canonicalizeApprovalValue := by
  induction items with
  | nil => rfl
  | cons item items ih => rw [canonicalizeApprovalItems, ih, List.map_cons]

private theorem canonicalizeApprovalMembers_eq (members : List (Text × Value)) :
    canonicalizeApprovalMembers members = members.map (Prod.map id canonicalizeApprovalValue) := by
  induction members with
  | nil => rfl
  | cons m members ih => rw [canonicalizeApprovalMembers, ih, List.map_cons]; rfl

theorem canonicalizeApprovalValue_eq {value : Value} (h : value.uniqueKeys = true) :
    canonicalizeApprovalValue value = value.rebuild id canonicalOrder := by
  induction value using Value.inductionOn with
  | array items ih =>
    rw [Value.uniqueKeys_array] at h
    rw [canonicalizeApprovalValue, canonicalizeApprovalItems_eq, Value.rebuild_array]
    congr 1
    exact List.map_congr_left fun item hi => ih item hi (h item hi)
  | object members ih =>
    obtain ⟨hnames, h⟩ := (Value.uniqueKeys_object members).mp h
    have hmembers : canonicalizeApprovalMembers members =
        members.map (Prod.map id (Value.rebuild id canonicalOrder)) := by
      rw [canonicalizeApprovalMembers_eq]
      exact List.map_congr_left fun m hm => congrArg (Prod.mk m.1) (ih m hm (h m hm))
    rw [canonicalizeApprovalValue, hmembers, Value.rebuild_object, fromEntries_of_nodup]
    · rfl
    · rw [((Reordering.byName.perm _).map Prod.fst).nodup_iff, List.map_map]
      exact hnames
  | _ => rfl

def digestedBytes (value : Value) : Bytes :=
  Utf8.encode (Json.write (canonicalizeApprovalValue value))

theorem canonicalApprovalDigest_ok {value : Value} {text : Text}
    (h : canonicalApprovalDigest value = .ok text) :
    Plain defaultLimits 0 value ∧ text = Base64Url.encode (Sha256.hash (digestedBytes value)) := by
  simp only [canonicalApprovalDigest, digest, bind_ok, assertPlainData_ok, boundedSerialize_ok,
    pure_ok] at h
  obtain ⟨_, ⟨hplain, -⟩, _, ⟨-, rfl, -⟩, rfl⟩ := h
  exact ⟨hplain, rfl⟩

private theorem isJson_canonical {value : Value} (h : value.isJson = true) :
    (value.rebuild id canonicalOrder).isJson = true :=
  Value.isJson_rebuild_of (fun x => ⟨x, rfl⟩) _ h

theorem digestedBytes_eq_iff {v w : Value} (hv : v.isJson = true) (hw : w.isJson = true)
    (hkv : v.uniqueKeys = true) (hkw : w.uniqueKeys = true) :
    digestedBytes v = digestedBytes w ↔ v.sameUpToOrder w = true := by
  have hsorted {u : Value} (hu : u.uniqueKeys = true) :
      (u.rebuild id canonicalOrder).parsed.sorted = u.sorted := by
    rw [Value.parsed, Value.sorted_rebuild _ (Value.rebuild_uniqueKeys _ _ hu), Value.sorted,
      Value.rebuild_rebuild _ _ _ _ Reordering.byName_forgetful hu, Function.comp_id]
    rfl
  have hwrite {u : Value} (hu : u.isJson = true) (hku : u.uniqueKeys = true) :
      Json.write (u.rebuild id canonicalOrder) = Json.write (u.sorted.rebuild id canonicalOrder) := by
    rw [← Json.write_rebuild_unsignedZero _ hu, Value.sorted,
      Value.rebuild_rebuild _ _ _ _ canonicalOrder_forgetful hku, Function.id_comp]
  rw [digestedBytes, digestedBytes, canonicalizeApprovalValue_eq hkv,
    canonicalizeApprovalValue_eq hkw, Value.sameUpToOrder_iff_sorted hkv hkw]
  constructor
  · intro h
    have htext : Json.write (v.rebuild id canonicalOrder) = Json.write (w.rebuild id canonicalOrder) := by
      rw [← Utf8.decodeLossy_encode (Json.write_wellFormed (isJson_canonical hv)), h,
        Utf8.decodeLossy_encode (Json.write_wellFormed (isJson_canonical hw))]
    have hparsed := Json.parse_write (isJson_canonical hv) (Value.rebuild_uniqueKeys _ _ hkv)
    rw [htext, Json.parse_write (isJson_canonical hw) (Value.rebuild_uniqueKeys _ _ hkw),
      Option.some.injEq] at hparsed
    rw [← hsorted hkv, ← hsorted hkw, hparsed]
  · intro h
    rw [hwrite hv hkv, hwrite hw hkw, h]

theorem canonicalApprovalDigest_eq_iff {v w : Value} {s t : Text} (hkv : v.uniqueKeys = true)
    (hkw : w.uniqueKeys = true) (hs : canonicalApprovalDigest v = .ok s)
    (ht : canonicalApprovalDigest w = .ok t)
    (hsha : Set.InjOn Sha256.hash {digestedBytes v, digestedBytes w}) :
    s = t ↔ v.sameUpToOrder w = true := by
  obtain ⟨hv, rfl⟩ := canonicalApprovalDigest_ok hs
  obtain ⟨hw, rfl⟩ := canonicalApprovalDigest_ok ht
  rw [Base64Url.encode_injective.eq_iff, hsha.eq_iff (by simp) (by simp),
    digestedBytes_eq_iff (isJson_of_plain hv) (isJson_of_plain hw) hkv hkw]

variable {runtime}

private theorem uniqueKeys_boundFields {input approvalLimits : Value} (payloadDigest : Text)
    (hinput : input.uniqueKeys = true) (hlimits : approvalLimits.uniqueKeys = true) :
    (Value.object (boundFields input payloadDigest approvalLimits)).uniqueKeys = true := by
  have hnames : (boundFields input payloadDigest approvalLimits).map Prod.fst =
      ["invocationId", "connectionId", "capabilityKey", "capabilityVersion", "organizationScope",
        "workspaceScope", "inputContractReference", "payloadDigest", "sideEffectCategory",
        "approvalLimits", "policyDecisionReference", "validityBoundary"].map ascii := rfl
  rw [Value.uniqueKeys_object, hnames]
  refine ⟨by decide, fun m hm => ?_⟩
  simp only [boundFields, List.mem_cons, List.not_mem_nil, or_false] at hm
  rcases hm with rfl | rfl | rfl | rfl | rfl | rfl | rfl | rfl | rfl | rfl | rfl | rfl
  all_goals first
    | exact Value.uniqueKeys_field hinput _
    | exact hlimits
    | rfl

theorem createApprovalAction_ok {input action : Value} (hkeys : input.uniqueKeys = true)
    (h : createApprovalAction runtime input = .ok action) :
    ∃ payloadDigest, payloadDigestOf input = .ok payloadDigest ∧ action.uniqueKeys = true ∧
      action.field (ascii "payloadDigest") = .string payloadDigest ∧
      ∀ name ∈ actionTexts, ∃ s, input.field (ascii name) = .string s ∧
        action.field (ascii name) = .string s := by
  simp only [createApprovalAction, bind_ok, exists_unit, throwWhen_ok, assertPlainData_ok,
    Bool.or_eq_false_iff, Bool.not_eq_false', List.all_eq_true] at h
  obtain ⟨-, ⟨⟨⟨⟨htexts, -⟩, -⟩, -⟩, -⟩, payloadDigest, hdigest, limits, hlimits, -, rfl⟩ := h
  obtain ⟨-, rfl⟩ := clonePlain_ok (Value.uniqueKeys_field hkeys _) hlimits
  have hobject := uniqueKeys_boundFields payloadDigest hkeys
    (Value.rebuild_uniqueKeys Number.unsignedZero .propertyOrder
      (Value.uniqueKeys_field hkeys (ascii "approvalLimits")))
  refine ⟨payloadDigest, hdigest, uniqueKeys_removeUndefined hobject,
    field_removeUndefined hobject rfl, fun name hname => ?_⟩
  have htext := htexts name hname
  cases hvalue : input.field (ascii name) with
  | string s =>
    refine ⟨s, rfl, field_removeUndefined hobject ?_⟩
    rw [← hvalue]
    simp only [actionTexts, List.mem_cons, List.not_mem_nil, or_false] at hname
    rcases hname with rfl | rfl | rfl | rfl | rfl | rfl | rfl | rfl <;> rfl
  | _ => rw [hvalue] at htext; cases htext

private theorem digest_of_payload {input : Value} {payloadDigest : Text}
    (hgiven : (input.field (ascii "payload")).isUndefined = false)
    (h : payloadDigestOf input = .ok payloadDigest) :
    canonicalApprovalDigest (input.field (ascii "payload")) = .ok payloadDigest := by
  simp only [payloadDigestOf, hgiven, Bool.false_eq_true, if_false, bind_ok, map_ok] at h
  obtain ⟨_, ⟨digested, hdigested, rfl⟩, h⟩ := h
  simp only [assertApprovalActionDigest, bind_ok, throwWhen_ok, exists_unit, pure_ok] at h
  rw [hdigested, h.2]

/-- The digest of an action tells actions apart up to member order, and so does the digest of the
payload in it for payloads, as far as SHA-256 tells apart the bytes that are digested. -/
theorem approvalActionDigest_eq_iff (runtime : Runtime) (a b : PlainValue) (actionA actionB : Value)
    (s t : Text) (ha : createApprovalAction runtime a = .ok actionA)
    (hb : createApprovalAction runtime b = .ok actionB)
    (hs : approvalActionDigest runtime a = .ok s) (ht : approvalActionDigest runtime b = .ok t)
    (hsha : Set.InjOn Sha256.hash {digestedBytes actionA, digestedBytes actionB}) :
    (s = t ↔ actionA.sameUpToOrder actionB = true) ∧
      ∀ p q, a.1.field (ascii "payload") = p → b.1.field (ascii "payload") = q →
        p.isUndefined = false → q.isUndefined = false →
        Set.InjOn Sha256.hash {digestedBytes p, digestedBytes q} →
        (actionA.field (ascii "payloadDigest") = actionB.field (ascii "payloadDigest") ↔
          p.sameUpToOrder q = true) := by
  obtain ⟨digestA, hdigestA, hkeysA, hfieldA, -⟩ := createApprovalAction_ok a.2 ha
  obtain ⟨digestB, hdigestB, hkeysB, hfieldB, -⟩ := createApprovalAction_ok b.2 hb
  simp only [approvalActionDigest, ha, hb, ok_bind] at hs ht
  refine ⟨canonicalApprovalDigest_eq_iff hkeysA hkeysB hs ht hsha, ?_⟩
  rintro p q rfl rfl hp hq hpayload
  have hpA := digest_of_payload hp hdigestA
  have hpB := digest_of_payload hq hdigestB
  rw [hfieldA, hfieldB, Value.string.injEq]
  exact canonicalApprovalDigest_eq_iff (Value.uniqueKeys_field a.2 _) (Value.uniqueKeys_field b.2 _)
    hpA hpB hpayload

private def exampleRuntime : Runtime :=
  { dateParse := fun text => if text = ascii "1970-01-01T00:00:00.000Z" then some 0 else none
    toLowerCase := List.map Regex.lowerAscii
    urlProtocol := fun _ => none }

private def exampleMembers (payload : List (Text × Value)) : List (Text × Value) :=
  [(ascii "invocationId", .string (ascii "i")), (ascii "connectionId", .string (ascii "c")),
    (ascii "capabilityKey", .string (ascii "k")), (ascii "capabilityVersion", .string (ascii "1")),
    (ascii "organizationScope", .string (ascii "o")),
    (ascii "inputContractReference", .string (ascii "r")), (ascii "payload", .object payload),
    (ascii "approvalLimits", .object []), (ascii "policyDecisionReference", .string (ascii "p")),
    (ascii "validityBoundary", .string (ascii "1970-01-01T00:00:00.000Z"))]

private def exampleInput : PlainValue :=
  ⟨.object (exampleMembers [(ascii "x", .null), (ascii "y", .bool true)]), by decide⟩

private def exampleReordered : PlainValue :=
  ⟨.object (exampleMembers [(ascii "y", .bool true), (ascii "x", .null)]), by decide⟩

private def exampleAction : Value :=
  .object [(ascii "invocationId", .string (ascii "i")), (ascii "connectionId", .string (ascii "c")),
    (ascii "capabilityKey", .string (ascii "k")), (ascii "capabilityVersion", .string (ascii "1")),
    (ascii "organizationScope", .string (ascii "o")),
    (ascii "inputContractReference", .string (ascii "r")),
    (ascii "payloadDigest", .string (ascii "ydXt18CDs7AEZ_cPPLNF9FCjl3qHtgfvXzw_TBAZ5ew")), (ascii "approvalLimits", .object []),
    (ascii "policyDecisionReference", .string (ascii "p")),
    (ascii "validityBoundary", .string (ascii "1970-01-01T00:00:00.000Z"))]

private theorem exampleAction_created :
    createApprovalAction exampleRuntime exampleInput = .ok exampleAction := by decide +kernel

private theorem exampleAction_recreated :
    createApprovalAction exampleRuntime exampleReordered = .ok exampleAction := by decide +kernel

private def exampleDigest : Text := ascii "Yqweux1VYt6SDZqfwf8Tb-kRb3stboRjhp_qA-xSR38"

private theorem exampleAction_digest :
    canonicalApprovalDigest exampleAction = .ok exampleDigest := by decide +kernel

private theorem exampleInput_digest :
    approvalActionDigest exampleRuntime exampleInput = .ok exampleDigest := by
  rw [approvalActionDigest, exampleAction_created, ok_bind, exampleAction_digest]

private theorem exampleReordered_digest :
    approvalActionDigest exampleRuntime exampleReordered = .ok exampleDigest := by
  rw [approvalActionDigest, exampleAction_recreated, ok_bind, exampleAction_digest]

/-- The order of the payload's members does not show in the digest. -/
theorem approvalActionDigest_reordered :
    approvalActionDigest exampleRuntime exampleInput = .ok exampleDigest ∧
      approvalActionDigest exampleRuntime exampleReordered = .ok exampleDigest ∧
      (exampleDigest = exampleDigest ↔ exampleAction.sameUpToOrder exampleAction = true) :=
  ⟨exampleInput_digest, exampleReordered_digest,
    (approvalActionDigest_eq_iff exampleRuntime exampleInput exampleReordered exampleAction
      exampleAction exampleDigest exampleDigest exampleAction_created exampleAction_recreated
      exampleInput_digest exampleReordered_digest
      (by rw [Set.pair_eq_singleton]; exact Set.injOn_singleton _ _)).1⟩

end GhostBridge.ProtocolCore

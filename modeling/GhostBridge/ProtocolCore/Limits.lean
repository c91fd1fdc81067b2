import GhostBridge.Ecma.Numeric
import GhostBridge.ProtocolCore.Approval

/-!
# Limits of an approval

An approval may grant no more than its challenge asks for.
-/

namespace GhostBridge.ProtocolCore

open Ecma

/-- `Object.entries(value)` of an object. -/
def limitEntries : Value → List (Text × Value)
  | .object members => members
  | .array items => items.zipIdx.map fun item => (decimalDigits item.2, item.1)
  | _ => []

mutual
/-- A value stands in a relation to a limit, and to all limits below it when it is an object. -/
def EntryRespects (leaf : Value → Value → Prop) : Value → Option Value → Prop
  | .object limits, approved =>
    ∃ members, approved = some (.object members) ∧ MembersRespect leaf limits members
  | limit, approved => ∃ value, approved = some value ∧ leaf value limit
def MembersRespect (leaf : Value → Value → Prop) :
    List (Text × Value) → List (Text × Value) → Prop
  | [], _ => True
  | (key, limit) :: limits, members =>
    EntryRespects leaf limit (members.lookup key) ∧ MembersRespect leaf limits members
end

/-- At every nested key of the challenged limits there is an approved one in the relation. -/
def Respects (leaf : Value → Value → Prop) (approved challenged : Value) : Prop :=
  MembersRespect leaf (limitEntries challenged) (limitEntries approved)

/-- A number is matched by a number that is not larger, another limit by an equal value. -/
def Matches (value limit : Value) : Prop :=
  match limit with
  | .number most => ∃ n, value = .number n ∧ n.le most = true
  | limit => value = limit

def IsLeaf (value _limit : Value) : Prop := ∀ members, value ≠ .object members

def entryWithin (value limit : Value) : Bool :=
  match value with
  | .object _ => limitsWithin value limit
  | _ => valueWithin value limit

mutual
/-- A limit that a copy of it is within: no list and not `NaN`, at every nested key. -/
def isCopyable : Value → Bool
  | .object members => areCopyable members
  | .array _ => false
  | .number .nan => false
  | _ => true
def areCopyable : List (Text × Value) → Bool
  | [] => true
  | (_, limit) :: limits => isCopyable limit && areCopyable limits
end

/-- A list has less than `2 ** 32` elements. -/
def hasListLength : Value → Bool
  | .array items => items.length ≤ 4294967295
  | _ => true

def areCopyableLimits (limits : Value) : Bool :=
  areCopyable (limitEntries limits) && hasListLength limits

theorem membersRespect_iff {leaf : Value → Value → Prop} {limits members : List (Text × Value)} :
    MembersRespect leaf limits members ↔
      ∀ e ∈ limits, EntryRespects leaf e.2 (members.lookup e.1) := by
  induction limits with
  | nil => simp [MembersRespect]
  | cons e limits ih =>
    obtain ⟨key, limit⟩ := e
    simp only [MembersRespect, ih, List.forall_mem_cons]

theorem areCopyable_iff {limits : List (Text × Value)} :
    areCopyable limits = true ↔ ∀ e ∈ limits, isCopyable e.2 = true := by
  induction limits with
  | nil => simp [areCopyable]
  | cons e limits ih =>
    obtain ⟨key, limit⟩ := e
    simp only [areCopyable, Bool.and_eq_true, ih, List.forall_mem_cons]

theorem membersWithin_iff {members : List (Text × Value)} {challenged : Value} :
    membersWithin members challenged = true ↔ ∀ e ∈ members, ∃ limit,
      ownProperty? challenged e.1 = some limit ∧ entryWithin e.2 limit = true := by
  induction members with
  | nil => simp [membersWithin]
  | cons e members ih =>
    obtain ⟨key, value⟩ := e
    rw [membersWithin, Bool.and_eq_true, ih, List.forall_mem_cons]
    apply and_congr_left'
    cases ownProperty? challenged key with
    | none => simp
    | some limit => cases value <;> simp [entryWithin]

theorem itemsWithin_iff {items : List Value} {index : Nat} {challenged : Value} :
    itemsWithin items index challenged = true ↔ ∀ item ∈ items.zipIdx index, ∃ limit,
      ownProperty? challenged (decimalDigits item.2) = some limit ∧
        entryWithin item.1 limit = true := by
  induction items generalizing index with
  | nil => simp [itemsWithin]
  | cons value items ih =>
    rw [itemsWithin, Bool.and_eq_true, ih, List.zipIdx_cons, List.forall_mem_cons]
    apply and_congr_left'
    cases ownProperty? challenged (decimalDigits index) with
    | none => simp
    | some limit => cases value <;> simp [entryWithin]

theorem limitsWithin_iff {approved challenged : Value} :
    limitsWithin approved challenged = true ↔ ∀ e ∈ limitEntries approved, ∃ limit,
      ownProperty? challenged e.1 = some limit ∧ entryWithin e.2 limit = true := by
  cases approved with
  | object members => rw [limitsWithin, membersWithin_iff, limitEntries]
  | array items =>
    rw [limitsWithin, itemsWithin_iff, limitEntries, List.forall_mem_map]
  | _ => simp [limitsWithin, limitEntries]

theorem arrayIndex?_decimalDigits (index : Nat) :
    arrayIndex? (decimalDigits index) = if index < 4294967295 then some index else none := by
  unfold arrayIndex?
  simp [digitsValue_decimalDigits]

theorem decimalDigits_ne_length (index : Nat) : decimalDigits index ≠ ascii "length" := by
  intro h
  have hdigit := decimalDigits_isDigit index 0x6c (by rw [h]; decide)
  cases hdigit

theorem ownProperty?_array (items : List Value) (index : Nat) :
    ownProperty? (.array items) (decimalDigits index) =
      if index < 4294967295 then items[index]? else none := by
  rw [ownProperty?, if_neg (decimalDigits_ne_length index), arrayIndex?_decimalDigits]
  split <;> rfl

theorem ownProperty?_of_entry {challenged : Value} (hunique : challenged.uniqueKeys = true)
    {e : Text × Value} (he : e ∈ limitEntries challenged) {limit : Value}
    (h : ownProperty? challenged e.1 = some limit) : limit = e.2 := by
  cases challenged with
  | object members =>
    have hnames := ((Value.uniqueKeys_object members).mp hunique).1
    have hlookup : members.lookup e.1 = some e.2 := (lookup_eq_some_iff hnames e.1 e.2).mpr he
    rw [ownProperty?, hlookup] at h
    exact (Option.some.inj h).symm
  | array items =>
    obtain ⟨⟨item, index⟩, hitem, rfl⟩ := List.mem_map.mp he
    rw [ownProperty?_array] at h
    rw [List.mem_zipIdx_iff_getElem?] at hitem
    split at h
    · exact Option.some.inj (h.symm.trans hitem)
    · cases h
  | _ => cases he

theorem uniqueKeys_entry {challenged : Value} (hunique : challenged.uniqueKeys = true)
    {e : Text × Value} (he : e ∈ limitEntries challenged) : e.2.uniqueKeys = true := by
  cases challenged with
  | object members => exact ((Value.uniqueKeys_object members).mp hunique).2 e he
  | array items =>
    obtain ⟨⟨item, index⟩, hitem, rfl⟩ := List.mem_map.mp he
    exact (Value.uniqueKeys_array items).mp hunique item (List.fst_mem_of_mem_zipIdx hitem)
  | _ => cases he

theorem matches_iff_isLeaf {value limit : Value} (hlimit : ∀ members, limit ≠ .object members)
    (h : entryWithin value limit = true) : Matches value limit ↔ IsLeaf value limit := by
  constructor
  · intro hmatches members hobject
    subst hobject
    unfold Matches at hmatches
    split at hmatches
    · obtain ⟨n, hn, -⟩ := hmatches
      cases hn
    · exact hlimit members hmatches.symm
  · intro hleaf
    have hwithin : valueWithin value limit = true := by
      unfold entryWithin at h
      split at h
      next members => exact absurd rfl (hleaf members)
      · exact h
    unfold Matches
    cases limit with
    | object members => exact absurd rfl (hlimit members)
    | number most =>
      cases value with
      | number n => exact ⟨n, rfl, hwithin⟩
      | _ => cases hwithin
    | _ => cases value <;> simp_all [valueWithin, Value.strictEq]

theorem exists_matches_iff {value limit : Value} (hlimit : ∀ members, limit ≠ .object members)
    (h : entryWithin value limit = true) :
    (∃ v, some value = some v ∧ Matches v limit) ↔ ∃ v, some value = some v ∧ IsLeaf v limit := by
  apply exists_congr
  intro v
  apply and_congr_right
  intro hv
  obtain rfl := Option.some.inj hv
  exact matches_iff_isLeaf hlimit h

theorem mem_of_lookup {members : List (Text × Value)} {key : Text} {value : Value}
    (h : members.lookup key = some value) : (key, value) ∈ members := by
  obtain ⟨before, after, rfl, -⟩ := List.lookup_eq_some_iff.mp h
  exact List.mem_append_right _ List.mem_cons_self

theorem entryWithin_of_limitsWithin {approved challenged : Value}
    (hunique : challenged.uniqueKeys = true) (h : limitsWithin approved challenged = true)
    {e : Text × Value} (he : e ∈ limitEntries challenged) {value : Value}
    (hvalue : (limitEntries approved).lookup e.1 = some value) : entryWithin value e.2 = true := by
  obtain ⟨limit, hlimit, hwithin⟩ := limitsWithin_iff.mp h (e.1, value) (mem_of_lookup hvalue)
  rwa [ownProperty?_of_entry hunique he hlimit] at hwithin

theorem entryRespects_iff {limit : Value} (hunique : limit.uniqueKeys = true) {value : Value}
    (h : entryWithin value limit = true) :
    EntryRespects Matches limit (some value) ↔ EntryRespects IsLeaf limit (some value) := by
  induction limit using Value.inductionOn generalizing value with
  | object limits ih =>
    rw [EntryRespects, EntryRespects]
    apply exists_congr
    intro members
    apply and_congr_right
    intro hvalue
    obtain rfl := Option.some.inj hvalue
    rw [membersRespect_iff, membersRespect_iff]
    apply forall₂_congr
    intro e he
    cases hlookup : members.lookup e.1 with
    | none => cases e.2 <;> simp [EntryRespects]
    | some approved =>
      have hwithin := entryWithin_of_limitsWithin hunique h he hlookup
      exact ih e he (uniqueKeys_entry hunique he) hwithin
  | _ => exact exists_matches_iff (by simp) h

theorem respects_iff {approved challenged : Value} (hunique : challenged.uniqueKeys = true)
    (h : limitsWithin approved challenged = true) :
    Respects Matches approved challenged ↔ Respects IsLeaf approved challenged := by
  unfold Respects
  rw [membersRespect_iff, membersRespect_iff]
  apply forall₂_congr
  intro e he
  cases hlookup : (limitEntries approved).lookup e.1 with
  | none => cases e.2 <;> simp [EntryRespects]
  | some value =>
    have hwithin := entryWithin_of_limitsWithin hunique h he hlookup
    exact entryRespects_iff (uniqueKeys_entry hunique he) hwithin

theorem ownProperty?_object {members : List (Text × Value)}
    (hunique : (Value.object members).uniqueKeys = true) {e : Text × Value} (he : e ∈ members) :
    ownProperty? (.object members) e.1 = some e.2 :=
  (lookup_eq_some_iff ((Value.uniqueKeys_object members).mp hunique).1 e.1 e.2).mpr he

theorem entryWithin_self {limit : Value} (hunique : limit.uniqueKeys = true) :
    entryWithin limit limit = true ↔ isCopyable limit = true := by
  induction limit using Value.inductionOn with
  | object members ih =>
    rw [entryWithin, limitsWithin_iff, isCopyable, areCopyable_iff]
    apply forall₂_congr
    intro e he
    rw [← ih e he (uniqueKeys_entry hunique he), ownProperty?_object hunique he]
    simp
  | number n =>
    have hself : n.le n = true ↔ n ≠ .nan := by
      constructor
      · rintro h rfl
        cases h
      · exact Number.le_refl_of_ne_nan
    simp only [entryWithin, valueWithin, hself]
    cases n <;> simp [isCopyable]
  | _ => simp [entryWithin, valueWithin, Value.strictEq, isCopyable]

theorem exists_entryWithin_iff {limits : Value} (hunique : limits.uniqueKeys = true)
    {e : Text × Value} (he : e ∈ limitEntries limits) :
    (∃ limit, ownProperty? limits e.1 = some limit ∧ entryWithin e.2 limit = true) ↔
      isCopyable e.2 = true ∧ (ownProperty? limits e.1).isSome = true := by
  rw [← entryWithin_self (uniqueKeys_entry hunique he), Option.isSome_iff_exists]
  constructor
  · rintro ⟨limit, hlimit, hwithin⟩
    rw [ownProperty?_of_entry hunique he hlimit] at hwithin
    exact ⟨hwithin, limit, hlimit⟩
  · rintro ⟨hwithin, limit, hlimit⟩
    refine ⟨limit, hlimit, ?_⟩
    rwa [ownProperty?_of_entry hunique he hlimit]

theorem forall_ownProperty?_iff {limits : Value} (hunique : limits.uniqueKeys = true) :
    (∀ e ∈ limitEntries limits, (ownProperty? limits e.1).isSome = true) ↔
      hasListLength limits = true := by
  cases limits with
  | object members =>
    simp only [hasListLength, iff_true]
    intro e he
    rw [ownProperty?_object hunique he]
    rfl
  | array items =>
    rw [limitEntries, List.forall_mem_map, hasListLength, decide_eq_true_eq]
    constructor
    · intro h
      by_contra hlength
      have hindex : 4294967295 < items.length := not_le.mp hlength
      have hitem : (items[4294967295], 4294967295) ∈ items.zipIdx :=
        List.mem_zipIdx_iff_getElem?.mpr (List.getElem?_eq_getElem hindex)
      have hsome := h _ hitem
      rw [ownProperty?_array, if_neg (lt_irrefl _)] at hsome
      cases hsome
    · intro hlength item hitem
      have hget := List.mem_zipIdx_iff_getElem?.mp hitem
      have hindex : item.2 < items.length := (List.getElem?_eq_some_iff.mp hget).1
      rw [ownProperty?_array, if_pos (by omega), hget]
      rfl
  | _ => simp [limitEntries, hasListLength]

/-- A copy of the challenged limits passes the check if and only if they hold no list and no
`NaN`. -/
theorem limitsWithin_self {limits : Value} (hunique : limits.uniqueKeys = true) :
    limitsWithin limits limits = true ↔ areCopyableLimits limits = true := by
  unfold areCopyableLimits
  rw [limitsWithin_iff, Bool.and_eq_true, areCopyable_iff, ← forall_ownProperty?_iff hunique,
    ← forall₂_and]
  apply forall₂_congr
  intro e he
  exact exists_entryWithin_iff hunique he

theorem validateApprovalDecision_limits {runtime : Runtime} {document challenge : Value}
    {clock : Int} (h : validateApprovalDecision runtime document challenge clock = .ok ()) :
    limitsWithin (document.field (ascii "approvedLimits"))
      (challenge.field (ascii "approvalLimits")) = true := by
  simp only [validateApprovalDecision, bind_ok, exists_unit, throwWhen_ok, Bool.not_eq_false'] at h
  obtain ⟨-, -, -, -, -, -, -, -, hlimits, -⟩ := h
  exact hlimits

/-- The approved limits of a decision keep to the challenged ones, and a copy of limits is within
them: the first if and only if every challenged limit has an approved one of its kind, the second
if and only if the limits hold no list and no `NaN`. -/
theorem approval_limits_iff (runtime : Runtime) (document challenge limits : PlainValue)
    (clock : Int)
    (h : validateApprovalDecision runtime document.1 challenge.1 clock = .ok ()) :
    (Respects Matches (document.1.field (ascii "approvedLimits"))
        (challenge.1.field (ascii "approvalLimits")) ↔
      Respects IsLeaf (document.1.field (ascii "approvedLimits"))
        (challenge.1.field (ascii "approvalLimits"))) ∧
      (limitsWithin limits.1 limits.1 = true ↔ areCopyableLimits limits.1 = true) :=
  ⟨respects_iff (Value.uniqueKeys_field challenge.2 _) (validateApprovalDecision_limits h),
    limitsWithin_self limits.2⟩

private def limitsRuntime : Runtime :=
  { dateParse := fun _ => some 1
    toLowerCase := id
    urlProtocol := fun _ => none }

private def limitsDigest : Value := .string (List.replicate 43 0x61)

private def amountLimits : PlainValue :=
  ⟨.object [(ascii "amount", .number (.ofNat 100)), (ascii "regions", .array [.string (ascii "eu")])],
    by decide⟩

private def amountChallenge : PlainValue :=
  ⟨.object
    [(ascii "challengeId", .string (ascii "c")), (ascii "invocationId", .string (ascii "i")),
      (ascii "organizationScope", .string (ascii "o")), (ascii "actionKey", .string (ascii "a")),
      (ascii "approvalActionDigest", limitsDigest), (ascii "safeSummary", .string (ascii "s")),
      (ascii "requiredRoleCategories", .array []), (ascii "approvalLimits", amountLimits.1),
      (ascii "expiresAt", .string (ascii "e")), (ascii "requestedBy", .string (ascii "r")),
      (ascii "policyDecisionReference", .string (ascii "p")),
      (ascii "status", .string (ascii "pending"))], by decide⟩

private def emptyDecision : PlainValue :=
  ⟨.object
    [(ascii "challengeId", .string (ascii "c")), (ascii "decisionId", .string (ascii "d")),
      (ascii "decision", .string (ascii "approved")), (ascii "approvalActionDigest", limitsDigest),
      (ascii "approvedLimits", .object []), (ascii "decidedBy", .string (ascii "b")),
      (ascii "decidedAt", .string (ascii "t")), (ascii "safeReasonCode", .string (ascii "OK"))],
    by decide⟩

private theorem emptyDecision_accepted :
    validateApprovalDecision limitsRuntime emptyDecision.1 amountChallenge.1 0 = .ok () := by
  decide +kernel

theorem approval_limits_iff_amount :
    (Respects Matches (emptyDecision.1.field (ascii "approvedLimits"))
        (amountChallenge.1.field (ascii "approvalLimits")) ↔
      Respects IsLeaf (emptyDecision.1.field (ascii "approvedLimits"))
        (amountChallenge.1.field (ascii "approvalLimits"))) ∧
      (limitsWithin amountLimits.1 amountLimits.1 = true ↔ areCopyableLimits amountLimits.1 = true) :=
  approval_limits_iff limitsRuntime emptyDecision amountChallenge amountLimits 0
    emptyDecision_accepted

/-- A decision that leaves a limit out is accepted, and a copy of limits with a list is not. -/
theorem approval_limits_exceeded :
    (validateApprovalDecision limitsRuntime emptyDecision.1 amountChallenge.1 0 = .ok () ∧
      ¬Respects Matches (emptyDecision.1.field (ascii "approvedLimits"))
        (amountChallenge.1.field (ascii "approvalLimits"))) ∧
      limitsWithin amountLimits.1 amountLimits.1 = false := by
  refine ⟨⟨emptyDecision_accepted, ?_⟩, by decide +kernel⟩
  intro h
  have hlimits : amountChallenge.1.field (ascii "approvalLimits") = amountLimits.1 := by
    decide +kernel
  have happroved : emptyDecision.1.field (ascii "approvedLimits") = .object [] := by
    decide +kernel
  rw [hlimits, happroved] at h
  obtain ⟨⟨value, hvalue, -⟩, -⟩ := h
  cases hvalue

end GhostBridge.ProtocolCore

import GhostBridge.Ecma.Arrays
import GhostBridge.ProtocolCore.Documents

/-!
# Negotiation of extensions

A client and an agent declare extensions by identifier and version.
-/

namespace GhostBridge.ProtocolCore

open Ecma

/-- A declaration that `validateExtensionDeclaration` has accepted. -/
structure Extension where
  identifier : Text
  version : Value
  status : Value
  required : Bool

structure NegotiatedExtension where
  identifier : Text
  version : Value
  status : Value

inductive ExtensionConflict where
  | required_extension_unsupported (identifier : Text)
  | extension_version_conflict (identifier : Text) (clientVersion agentVersion : Value)

inductive NegotiationFailure where
  | core (failure : Failure)
  /-- `INVALID_MESSAGE` with these conflicts as details. -/
  | conflicts (conflicts : List ExtensionConflict)

/-- The lists that the loops of `negotiateExtensions` fill. -/
structure Negotiation where
  negotiated : List NegotiatedExtension := []
  unavailableOptional : List Text := []
  conflicts : List ExtensionConflict := []

structure NegotiationResult where
  negotiated : List NegotiatedExtension
  unavailableOptional : List Text
  gracefulDegradation : Bool

/-- `{ ...declaration, identifier }`. -/
def extensionOf (runtime : Runtime) (declaration : Value) : Checked Extension := do
  let identifier ← checkExtensionDeclaration runtime declaration
  return {
    identifier := identifier
    version := declaration.field (ascii "version")
    status := declaration.field (ascii "status")
    required := declaration.field (ascii "required") = .bool true }

/-- `validateExtensions(declarations)` of a list, which is `[]` when it is not given. What is no
list cannot be mapped over. -/
def extensionDeclarations (runtime : Runtime) (declarations : Value) : Checked (List Extension) := do
  let list := if declarations.isUndefined then .array [] else declarations
  validateExtensions runtime list
  match list with
  | .array items => items.mapM (extensionOf runtime)
  | _ => throw .runtimeError

/-- `new Map(declarations.map((item) => [item.identifier, item])).get(identifier)`. -/
def lastDeclaration (declarations : List Extension) (identifier : Text) : Option Extension :=
  declarations.reverse.find? fun declaration => declaration.identifier == identifier

def negotiateDeclaration (client : List Extension) (state : Negotiation) (declaration : Extension) :
    Negotiation :=
  let unavailable : Negotiation := { state with
    unavailableOptional := state.unavailableOptional ++ [declaration.identifier] }
  match lastDeclaration client declaration.identifier with
  | none =>
    if declaration.required then
      { state with
        conflicts := state.conflicts ++ [.required_extension_unsupported declaration.identifier] }
    else unavailable
  | some supported =>
    if !supported.version.strictEq declaration.version then
      if declaration.required || supported.required then
        { state with
          conflicts := state.conflicts ++ [.extension_version_conflict declaration.identifier
            supported.version declaration.version] }
      else unavailable
    else
      { state with
        negotiated := state.negotiated ++
          [⟨declaration.identifier, declaration.version, declaration.status⟩] }

def requireDeclaration (agent : List Extension) (state : Negotiation) (declaration : Extension) :
    Negotiation :=
  if declaration.required && (lastDeclaration agent declaration.identifier).isNone then
    { state with
      conflicts := state.conflicts ++ [.required_extension_unsupported declaration.identifier] }
  else state

def negotiateLists (client agent : List Extension) : Negotiation :=
  client.foldl (requireDeclaration agent) (agent.foldl (negotiateDeclaration client) {})

/-- `localeCompare` compares identifiers. -/
def negotiateExtensions (runtime : Runtime) (localeCompare : Text → Text → Bool)
    (client agent : Value) : Except NegotiationFailure NegotiationResult := do
  let clientDeclarations ← (extensionDeclarations runtime client).mapError .core
  let agentDeclarations ← (extensionDeclarations runtime agent).mapError .core
  let state := negotiateLists clientDeclarations agentDeclarations
  throwWhen (!state.conflicts.isEmpty) (.conflicts (state.conflicts.take 20))
  return {
    negotiated := state.negotiated.insertionSort fun left right =>
      localeCompare left.identifier right.identifier = true
    unavailableOptional := (distinct state.unavailableOptional).insertionSort fun a b =>
      Text.le a b = true
    gracefulDegradation := 0 < state.unavailableOptional.length }

def isSupported (client : List Extension) (declaration : Extension) : Bool :=
  (lastDeclaration client declaration.identifier).any fun supported =>
    supported.version.strictEq declaration.version

def isConflict (client : List Extension) (declaration : Extension) : Bool :=
  !isSupported client declaration && (declaration.required ||
    (lastDeclaration client declaration.identifier).any Extension.required)

variable {client agent : List Extension}

def Extension.entry (declaration : Extension) : NegotiatedExtension :=
  ⟨declaration.identifier, declaration.version, declaration.status⟩

def isUnavailable (client : List Extension) (declaration : Extension) : Bool :=
  !isSupported client declaration && !isConflict client declaration

theorem negotiateDeclaration_cases (state : Negotiation) (declaration : Extension) :
    (isSupported client declaration = true ∧ isConflict client declaration = false ∧
        negotiateDeclaration client state declaration = { state with
          negotiated := state.negotiated ++ [declaration.entry] }) ∨
      (isSupported client declaration = false ∧ isConflict client declaration = true ∧ ∃ conflict,
        negotiateDeclaration client state declaration = { state with
          conflicts := state.conflicts ++ [conflict] }) ∨
      isSupported client declaration = false ∧ isConflict client declaration = false ∧
        negotiateDeclaration client state declaration = { state with
          unavailableOptional := state.unavailableOptional ++ [declaration.identifier] } := by
  unfold negotiateDeclaration isConflict isSupported
  cases lastDeclaration client declaration.identifier with
  | none =>
    cases hrequired : declaration.required with
    | true => exact .inr (.inl ⟨rfl, rfl, _, rfl⟩)
    | false => exact .inr (.inr ⟨rfl, rfl, rfl⟩)
  | some supported =>
    simp only [Option.any_some]
    cases supported.version.strictEq declaration.version with
    | true => exact .inl ⟨rfl, rfl, rfl⟩
    | false =>
      cases declaration.required || supported.required with
      | true => exact .inr (.inl ⟨rfl, rfl, _, rfl⟩)
      | false => exact .inr (.inr ⟨rfl, rfl, rfl⟩)

structure LoopResult (client agent : List Extension) (state result : Negotiation) : Prop where
  negotiated : result.negotiated =
    state.negotiated ++ (agent.filter (isSupported client)).map Extension.entry
  unavailableOptional : result.unavailableOptional =
    state.unavailableOptional ++ (agent.filter (isUnavailable client)).map Extension.identifier
  conflicts : result.conflicts = [] ↔
    state.conflicts = [] ∧ ∀ declaration ∈ agent, isConflict client declaration = false

theorem loopResult (state : Negotiation) :
    LoopResult client agent state (agent.foldl (negotiateDeclaration client) state) := by
  induction agent generalizing state with
  | nil => exact ⟨by simp, by simp, by simp⟩
  | cons declaration agent ih =>
    rw [List.foldl_cons]
    have hrest := ih (negotiateDeclaration client state declaration)
    rcases @negotiateDeclaration_cases client state declaration with
      ⟨hsupported, hconflict, hstate⟩ | ⟨hsupported, hconflict, conflict, hstate⟩ |
        ⟨hsupported, hconflict, hstate⟩
    all_goals
      rw [hstate] at hrest ⊢
      constructor
      · rw [hrest.negotiated]
        simp [hsupported]
      · rw [hrest.unavailableOptional]
        simp [isUnavailable, hsupported, hconflict]
      · rw [hrest.conflicts]
        simp [hconflict]

theorem requireLoop_eq (state : Negotiation) :
    (client.foldl (requireDeclaration agent) state).negotiated = state.negotiated ∧
      (client.foldl (requireDeclaration agent) state).unavailableOptional =
        state.unavailableOptional ∧
      ((client.foldl (requireDeclaration agent) state).conflicts = [] → state.conflicts = []) := by
  induction client generalizing state with
  | nil => exact ⟨rfl, rfl, fun h => h⟩
  | cons declaration client ih =>
    rw [List.foldl_cons]
    obtain ⟨hnegotiated, hunavailable, hconflicts⟩ := ih (requireDeclaration agent state declaration)
    rw [hnegotiated, hunavailable]
    unfold requireDeclaration at hconflicts ⊢
    split
    next hmissing =>
      rw [if_pos hmissing] at hconflicts
      refine ⟨rfl, rfl, fun h => ?_⟩
      have hnil := hconflicts h
      simp at hnil
    next hpresent =>
      rw [if_neg hpresent] at hconflicts
      exact ⟨rfl, rfl, hconflicts⟩

private theorem mapError_ok {ε ε' α : Type} {f : ε → ε'} {x : Except ε α} {a : α} :
    x.mapError f = .ok a ↔ x = .ok a := by
  cases x <;> simp [Except.mapError]

structure NegotiationOutcome (client agent : List Extension) (result : NegotiationResult) :
    Prop where
  no_conflict : ∀ declaration ∈ agent, isConflict client declaration = false
  negotiated : result.negotiated.Perm ((agent.filter (isSupported client)).map Extension.entry)
  unavailableOptional : ∀ identifier, identifier ∈ result.unavailableOptional ↔
    ∃ declaration ∈ agent, isUnavailable client declaration = true ∧
      declaration.identifier = identifier

theorem negotiateExtensions_ok {runtime : Runtime} {localeCompare : Text → Text → Bool}
    {clientValue agentValue : Value} {result : NegotiationResult}
    (h : negotiateExtensions runtime localeCompare clientValue agentValue = .ok result) :
    ∃ client agent, extensionDeclarations runtime clientValue = .ok client ∧
      extensionDeclarations runtime agentValue = .ok agent ∧
      NegotiationOutcome client agent result := by
  simp only [negotiateExtensions, bind_ok, throwWhen_ok, exists_unit, pure_ok, mapError_ok,
    Bool.not_eq_false', List.isEmpty_iff] at h
  obtain ⟨client, hclient, agent, hagent, hconflicts, rfl⟩ := h
  have hloop : LoopResult client agent {} (agent.foldl (negotiateDeclaration client) {}) :=
    loopResult {}
  obtain ⟨hnegotiated, hunavailable, hkept⟩ := @requireLoop_eq client agent
    (agent.foldl (negotiateDeclaration client) {})
  refine ⟨client, agent, hclient, hagent, ?_, ?_, ?_⟩
  · exact (hloop.conflicts.mp (hkept hconflicts)).2
  · have hlist : (negotiateLists client agent).negotiated =
        (agent.filter (isSupported client)).map Extension.entry :=
      hnegotiated.trans (hloop.negotiated.trans (List.nil_append _))
    rw [← hlist]
    exact List.perm_insertionSort _ _
  · intro identifier
    have hlist : (negotiateLists client agent).unavailableOptional =
        (agent.filter (isUnavailable client)).map Extension.identifier :=
      hunavailable.trans (hloop.unavailableOptional.trans (List.nil_append _))
    rw [List.mem_insertionSort, mem_distinct, hlist]
    simp [and_assoc]

def Extension.isNegotiatedAs (declaration : Extension) (entry : NegotiatedExtension) : Bool :=
  entry.identifier == declaration.identifier && entry.version.strictEq declaration.version

def Extension.MatchedIn (declaration : Extension) (declarations : List Extension) : Prop :=
  ∃ other ∈ declarations, other.identifier = declaration.identifier ∧
    other.version.strictEq declaration.version = true

/-- What both sides require has been negotiated once, and nothing is negotiated and left out. -/
structure Agreed (client agent : List Extension) (result : NegotiationResult) : Prop where
  agentRequired : ∀ declaration ∈ agent, declaration.required = true →
    declaration.MatchedIn client ∧ result.negotiated.countP declaration.isNegotiatedAs = 1
  clientRequired : ∀ declaration ∈ client, declaration.required = true →
    declaration.MatchedIn agent ∧ result.negotiated.countP declaration.isNegotiatedAs = 1
  separate : ∀ entry ∈ result.negotiated, entry.identifier ∉ result.unavailableOptional

/-- The agent declares the identifier of the declaration once, in its version, which is that of the
last declaration of the client. -/
def DeclaredOnce (client agent : List Extension) (declaration : Extension) : Prop :=
  ∃ own, agent.filter (fun other => other.identifier == declaration.identifier) = [own] ∧
    own.version.strictEq declaration.version = true ∧ isSupported client own = true

/-- What is required is declared once by the agent, and the declarations of one identifier by the
agent are all in the version of the client or none is. -/
structure Consistent (client agent : List Extension) : Prop where
  required : ∀ declaration ∈ client ++ agent, declaration.required = true →
    DeclaredOnce client agent declaration
  uniform : ∀ declaration ∈ agent, ∀ other ∈ agent, declaration.identifier = other.identifier →
    isSupported client declaration = isSupported client other

variable {result : NegotiationResult}

theorem isSupported_iff {declaration : Extension} :
    isSupported client declaration = true ↔
      ∃ supported, lastDeclaration client declaration.identifier = some supported ∧
        supported.version.strictEq declaration.version = true := by
  unfold isSupported
  cases lastDeclaration client declaration.identifier with
  | none => simp
  | some supported => simp

theorem lastDeclaration_some {declarations : List Extension} {identifier : Text}
    {supported : Extension} (h : lastDeclaration declarations identifier = some supported) :
    supported ∈ declarations ∧ supported.identifier = identifier := by
  unfold lastDeclaration at h
  have hmem := List.mem_of_find?_eq_some h
  have hfound := List.find?_some h
  exact ⟨List.mem_reverse.mp hmem, by simpa using hfound⟩

theorem version_of_supported {declaration other : Extension}
    (hdeclaration : isSupported client declaration = true) (hother : isSupported client other = true)
    (hidentifier : declaration.identifier = other.identifier) :
    declaration.version.strictEq other.version = true := by
  obtain ⟨supported, hlast, hversion⟩ := isSupported_iff.mp hdeclaration
  obtain ⟨supported', hlast', hversion'⟩ := isSupported_iff.mp hother
  rw [hidentifier, hlast'] at hlast
  cases hlast
  rw [Value.strictEq_comm] at hversion
  exact Value.strictEq_trans hversion hversion'

theorem matchedIn_of_supported {declaration : Extension}
    (h : isSupported client declaration = true) : declaration.MatchedIn client := by
  obtain ⟨supported, hlast, hversion⟩ := isSupported_iff.mp h
  obtain ⟨hmem, hidentifier⟩ := lastDeclaration_some hlast
  exact ⟨supported, hmem, hidentifier, hversion⟩

theorem countP_negotiated (h : NegotiationOutcome client agent result) (declaration : Extension) :
    result.negotiated.countP declaration.isNegotiatedAs =
      (agent.filter fun other => declaration.isNegotiatedAs other.entry &&
        isSupported client other).length := by
  rw [h.negotiated.countP_eq, List.countP_map, List.countP_eq_length_filter, List.filter_filter]
  rfl

theorem countP_negotiated_iff (h : NegotiationOutcome client agent result)
    (huniform : ∀ declaration ∈ agent, ∀ other ∈ agent,
      declaration.identifier = other.identifier →
        isSupported client declaration = isSupported client other) (declaration : Extension) :
    result.negotiated.countP declaration.isNegotiatedAs = 1 ↔
      DeclaredOnce client agent declaration := by
  rw [countP_negotiated h]
  constructor
  · intro hcount
    obtain ⟨own, hown⟩ := List.length_eq_one_iff.mp hcount
    have hmem : own ∈ agent.filter fun other => declaration.isNegotiatedAs other.entry &&
        isSupported client other := by
      rw [hown]
      exact List.mem_singleton.mpr rfl
    simp only [List.mem_filter, Extension.isNegotiatedAs, Extension.entry, Bool.and_eq_true,
      beq_iff_eq] at hmem
    obtain ⟨hagent, ⟨hidentifier, hversion⟩, hsupported⟩ := hmem
    refine ⟨own, ?_, hversion, hsupported⟩
    rw [← hown]
    apply List.filter_congr
    intro other hother
    by_cases hsame : other.identifier = declaration.identifier
    · have hothers : isSupported client other = true := by
        rw [← huniform own hagent other hother (hidentifier.trans hsame.symm)]
        exact hsupported
      have hversions : other.version.strictEq own.version = true :=
        version_of_supported hothers hsupported (hsame.trans hidentifier.symm)
      have hother' := Value.strictEq_trans hversions hversion
      simp [Extension.isNegotiatedAs, Extension.entry, hsame, hothers, hother']
    · have hother : (other.identifier == declaration.identifier) = false :=
        beq_false_of_ne hsame
      simp [Extension.isNegotiatedAs, Extension.entry, hother]
  · rintro ⟨own, hown, hversion, hsupported⟩
    have hsplit : (agent.filter fun other => declaration.isNegotiatedAs other.entry &&
        isSupported client other) =
        (agent.filter fun other => other.identifier == declaration.identifier).filter
          fun other => other.version.strictEq declaration.version && isSupported client other := by
      rw [List.filter_filter]
      apply List.filter_congr
      intro other _
      simp only [Extension.isNegotiatedAs, Extension.entry]
      cases other.identifier == declaration.identifier <;> simp
    rw [hsplit, hown]
    simp [hversion, hsupported]

theorem separate_iff (h : NegotiationOutcome client agent result) :
    (∀ entry ∈ result.negotiated, entry.identifier ∉ result.unavailableOptional) ↔
      ∀ declaration ∈ agent, ∀ other ∈ agent, declaration.identifier = other.identifier →
        isSupported client declaration = isSupported client other := by
  have hapart : (∀ entry ∈ result.negotiated, entry.identifier ∉ result.unavailableOptional) ↔
      ∀ declaration ∈ agent, isSupported client declaration = true → ∀ other ∈ agent,
        declaration.identifier = other.identifier → isSupported client other = true := by
    constructor
    · intro hapart declaration hdeclaration hsupported other hother hidentifier
      by_contra hnot
      have hentry : declaration.entry ∈ result.negotiated := by
        rw [h.negotiated.mem_iff]
        exact List.mem_map_of_mem (List.mem_filter.mpr ⟨hdeclaration, hsupported⟩)
      apply hapart declaration.entry hentry
      refine (h.unavailableOptional _).mpr ⟨other, hother, ?_, hidentifier.symm⟩
      rw [Bool.not_eq_true] at hnot
      simp [isUnavailable, hnot, h.no_conflict other hother]
    · intro hall entry hentry hunavailable
      rw [h.negotiated.mem_iff] at hentry
      obtain ⟨declaration, hmem, rfl⟩ := List.mem_map.mp hentry
      obtain ⟨hdeclaration, hsupported⟩ := List.mem_filter.mp hmem
      obtain ⟨other, hother, hout, hidentifier⟩ := (h.unavailableOptional _).mp hunavailable
      have hothers := hall declaration hdeclaration hsupported other hother hidentifier.symm
      simp [isUnavailable, hothers] at hout
  rw [hapart]
  constructor
  · intro hall declaration hdeclaration other hother hidentifier
    rw [Bool.eq_iff_iff]
    constructor
    · intro hsupported
      exact hall declaration hdeclaration hsupported other hother hidentifier
    · intro hsupported
      exact hall other hother hsupported declaration hdeclaration hidentifier.symm
  · intro huniform declaration hdeclaration hsupported other hother hidentifier
    rw [← huniform declaration hdeclaration other hother hidentifier]
    exact hsupported

theorem agreed_iff (h : NegotiationOutcome client agent result) :
    Agreed client agent result ↔ Consistent client agent := by
  constructor
  · intro hagreed
    have huniform := (separate_iff h).mp hagreed.separate
    refine ⟨?_, huniform⟩
    intro declaration hmem hrequired
    apply (countP_negotiated_iff h huniform declaration).mp
    rcases List.mem_append.mp hmem with hclient | hagent
    · exact (hagreed.clientRequired declaration hclient hrequired).2
    · exact (hagreed.agentRequired declaration hagent hrequired).2
  · intro hconsistent
    have hcount := countP_negotiated_iff h hconsistent.uniform
    have hown : ∀ {declaration own : Extension},
        agent.filter (fun other => other.identifier == declaration.identifier) = [own] →
          own ∈ agent ∧ own.identifier = declaration.identifier := by
      intro declaration own hfilter
      have hmem : own ∈ agent.filter fun other => other.identifier == declaration.identifier := by
        rw [hfilter]
        exact List.mem_singleton.mpr rfl
      simpa using hmem
    refine ⟨?_, ?_, (separate_iff h).mpr hconsistent.uniform⟩
    · intro declaration hagent hrequired
      have honce := hconsistent.required declaration (List.mem_append_right _ hagent) hrequired
      refine ⟨?_, (hcount declaration).mpr honce⟩
      obtain ⟨own, hfilter, -, hsupported⟩ := honce
      obtain ⟨hmem, hidentifier⟩ := hown hfilter
      apply matchedIn_of_supported
      rw [← hconsistent.uniform own hmem declaration hagent hidentifier]
      exact hsupported
    · intro declaration hclient hrequired
      have honce := hconsistent.required declaration (List.mem_append_left _ hclient) hrequired
      refine ⟨?_, (hcount declaration).mpr honce⟩
      obtain ⟨own, hfilter, hversion, -⟩ := honce
      obtain ⟨hmem, hidentifier⟩ := hown hfilter
      exact ⟨own, hmem, hidentifier, hversion⟩

/-- A negotiation that succeeds has what both sides require exactly once, and nothing of what it
leaves out, if and only if the declarations are consistent. -/
theorem negotiation_agreed_iff (runtime : Runtime) (localeCompare : Text → Text → Bool)
    (clientValue agentValue : Value) (result : NegotiationResult)
    (h : negotiateExtensions runtime localeCompare clientValue agentValue = .ok result) :
    ∃ client agent, extensionDeclarations runtime clientValue = .ok client ∧
      extensionDeclarations runtime agentValue = .ok agent ∧
      (Agreed client agent result ↔ Consistent client agent) := by
  obtain ⟨client, agent, hclient, hagent, houtcome⟩ := negotiateExtensions_ok h
  exact ⟨client, agent, hclient, hagent, agreed_iff houtcome⟩

private def negotiationRuntime : Runtime :=
  { dateParse := fun _ => none
    toLowerCase := id
    urlProtocol := fun _ => none }

private def orders : Value :=
  .object [(ascii "identifier", .string (ascii "a.b/c")), (ascii "version", .string (ascii "1.0.0")),
    (ascii "status", .string (ascii "official")), (ascii "required", .bool true)]

private def ordersExtension : Extension :=
  { identifier := ascii "a.b/c"
    version := .string (ascii "1.0.0")
    status := .string (ascii "official")
    required := true }

private theorem extensionDeclarations_once :
    extensionDeclarations negotiationRuntime (.array [orders]) = .ok [ordersExtension] := by
  rfl

private theorem extensionDeclarations_twice :
    extensionDeclarations negotiationRuntime (.array [orders, orders]) =
      .ok [ordersExtension, ordersExtension] := by
  rfl

theorem negotiation_agreed_iff_once :
    ∃ client agent, extensionDeclarations negotiationRuntime (.array [orders]) = .ok client ∧
      extensionDeclarations negotiationRuntime (.array [orders]) = .ok agent ∧
      (Agreed client agent ⟨[ordersExtension.entry], [], false⟩ ↔ Consistent client agent) :=
  negotiation_agreed_iff negotiationRuntime (fun _ _ => true) (.array [orders]) (.array [orders])
    ⟨[ordersExtension.entry], [], false⟩ rfl

/-- An agent declares a required extension twice, and it is negotiated twice. -/
theorem negotiation_not_agreed :
    ∃ client agent result,
      negotiateExtensions negotiationRuntime (fun _ _ => true) (.array [orders])
        (.array [orders, orders]) = .ok result ∧
      extensionDeclarations negotiationRuntime (.array [orders]) = .ok client ∧
      extensionDeclarations negotiationRuntime (.array [orders, orders]) = .ok agent ∧
      ¬Agreed client agent result := by
  refine ⟨_, _, ⟨[ordersExtension.entry, ordersExtension.entry], [], false⟩, rfl,
    extensionDeclarations_once, extensionDeclarations_twice, ?_⟩
  intro hagreed
  have hcount := (hagreed.clientRequired ordersExtension (List.mem_singleton.mpr rfl) rfl).2
  revert hcount
  decide

end GhostBridge.ProtocolCore

import GhostBridge.Delegation.Grants
import GhostBridge.Machine.Lineage
import GhostBridge.Machine.Runs

/-!
# Chains of grants

The chain of a grant leads from a grant without a parent to the grant itself.
-/

namespace GhostBridge.Delegation

open Ecma Machine

variable {Entry : Type}

def termsOf (grants : Grants) (id : ObjectId) : Option Terms := (grants.get? id).map Grant.terms

abbrev Records := ObjectId → Option Terms

abbrev Chain (records : Records) : Terms → List Terms → Prop :=
  Lineage records Terms.parentDelegationGrantId

structure KeepsToChain (grant : Terms) (chain : List Terms) : Prop where
  starts : grant.passportPath.head?.bind castObjectId = chain.head?.map Terms.sourcePassportId
  ends : grant.passportPath.getLast?.bind castObjectId = some grant.targetPassportId
  once : (grant.passportPath.map castObjectId).Nodup
  depth : grant.delegationDepth.val = chain.length
  bounded : ∀ ancestor ∈ chain, grant.delegationDepth.val ≤ ancestor.maximumDelegationDepth.val

def AllLawful (records : Records) : Prop :=
  ∀ id grant, records id = some grant → ∃ chain, Chain records grant chain ∧ KeepsToChain grant chain

inductive Call (Entry : Type) where
  | create (directory : Directory Entry) (id : ObjectId) (input : GrantInput) (scope : Scope)
    (now : Int)
  | amend (id : ObjectId) (state : GrantState)

def step (grants : Grants) : Call Entry → Grants
  | .create directory id input scope now =>
    match createGrantRecord directory grants id input scope now with
    | .ok (_, created) => created
    | .error _ => grants
  | .amend id state =>
    match grants.get? id with
    | some grant => grants.set id { grant with state }
    | none => grants

def requestedIdentity (directory : Directory Entry) (input : GrantInput) : Identity :=
  grantIdentity input (findNode directory input.sourceNodeRunId)
    (findNode directory input.targetNodeRunId)

/-- A grant that is asked for begins a chain of its own between two passports at depth 1, or goes on
from the chain of its parent to a passport that is not on it, however that is spelled, and none of
that chain is at its end. -/
def WithinChain (directory : Directory Entry) (grants : Grants) (input : GrantInput) : Prop :=
  let identity := requestedIdentity directory input
  match input.parentDelegationGrantId with
  | none =>
    input.delegationDepth.orElse 1 = some 1 ∧
      castObjectId identity.sourcePassportId ≠ castObjectId identity.targetPassportId
  | some parentText =>
    ∀ parentId parent chain, castObjectId parentText = some parentId →
      termsOf grants parentId = some parent → Chain (termsOf grants) parent chain →
      castObjectId identity.targetPassportId ∉ parent.passportPath.map castObjectId ∧
        ∀ ancestor ∈ chain, parent.delegationDepth.val < ancestor.maximumDelegationDepth.val

def CreatesWithinChain (grants : Grants) : Call Entry → Prop
  | .create directory id input scope now =>
    grants.get? id = none → (step grants (.create directory id input scope now)).get? id ≠ none →
      WithinChain directory grants input
  | .amend _ _ => True

/-- What is known of the terms of a grant when it has been prepared. -/
structure Prepared (directory : Directory Entry) (grants : Grants) (input : GrantInput)
    (grant : Terms) : Prop where
  source : castObjectId (requestedIdentity directory input).sourcePassportId =
    some grant.sourcePassportId
  target : castObjectId (requestedIdentity directory input).targetPassportId =
    some grant.targetPassportId
  depth : grant.delegationDepth.val ≤ grant.maximumDelegationDepth.val
  standing : (input.parentDelegationGrantId = none ∧ grant.parentDelegationGrantId = none ∧
      input.delegationDepth.orElse 1 = some (grant.delegationDepth.val : Int) ∧
      grant.passportPath.map castObjectId =
        [some grant.sourcePassportId, some grant.targetPassportId]) ∨
    ∃ parentText parentId parent, input.parentDelegationGrantId = some parentText ∧
      castObjectId parentText = some parentId ∧ termsOf grants parentId = some parent ∧
      grant.parentDelegationGrantId = some parentId ∧
      grant.delegationDepth.val = parent.delegationDepth.val + 1 ∧
      grant.sourcePassportId = parent.targetPassportId ∧
      grant.passportPath.map castObjectId =
        parent.passportPath.map castObjectId ++ [some grant.targetPassportId]

theorem requestedDepth_ok {input : GrantInput} {contract : Contract} {depth : Depth}
    (h : requestedDepth input contract = .ok depth) :
    input.delegationDepth.orElse (if input.parentDelegationGrantId.isSome then 2 else 1) =
        some (depth.val : Int) ∧
      depth.val ≤ contract.maximumDelegationDepth.val := by
  unfold requestedDepth at h
  dsimp only at h
  split at h
  · cases h
  · next asked hasked =>
    split at h
    · next hrange =>
      split at h
      · next hle =>
        obtain rfl := pure_ok.mp h
        refine ⟨?_, hle⟩
        rw [hasked]
        congr 1
        simp only
        omega
      · cases h
    · cases h

theorem validateParentGrant_ok {grants : Grants} {input : GrantInput} {contract : Contract}
    {identity : Identity} {scope : Scope} {standing : Standing}
    (h : validateParentGrant grants input contract identity scope = .ok standing) :
    requestedDepth input contract = .ok standing.depth ∧
    (input.parentDelegationGrantId = none ∧ standing.parent = none ∧
        standing.passportPath = [idOf identity.sourcePassportId, idOf identity.targetPassportId] ∨
      ∃ parentText parentId parent, input.parentDelegationGrantId = some parentText ∧
        castObjectId parentText = some parentId ∧ grants.get? parentId = some parent ∧
        standing.parent = some parentId ∧
        standing.depth.val = parent.terms.delegationDepth.val + 1 ∧
        parent.terms.targetPassportId.val = idOf identity.sourcePassportId ∧
        standing.passportPath =
          parent.terms.passportPath ++ [idOf identity.targetPassportId]) := by
  unfold validateParentGrant at h
  obtain ⟨depth, hdepth, h⟩ := bind_ok.mp h
  split at h
  · next hnone =>
    obtain rfl := pure_ok.mp h
    exact ⟨hdepth, .inl ⟨hnone, rfl, rfl⟩⟩
  · next parentText hparent =>
    obtain ⟨-, -, h⟩ := bind_ok.mp h
    obtain ⟨parentId, hcast, h⟩ := bind_ok.mp h
    obtain ⟨parent, hfind, h⟩ := bind_ok.mp h
    obtain ⟨-, -, h⟩ := bind_ok.mp h
    obtain ⟨_, hfollows, h⟩ := bind_ok.mp h
    obtain ⟨_, htarget, h⟩ := bind_ok.mp h
    obtain ⟨-, -, h⟩ := bind_ok.mp h
    obtain rfl := pure_ok.mp h
    obtain ⟨hget, -⟩ := Option.filter_eq_some_iff.mp (orThrow_ok.mp hfind)
    simp only [throwWhen_ok, decide_eq_false_iff_not, not_or, not_not] at hfollows htarget
    exact ⟨hdepth, .inr ⟨parentText, parentId, parent, hparent, orThrow_ok.mp hcast, hget, rfl,
      hfollows.1, htarget, rfl⟩⟩

theorem termsOf_eq_some {grants : Grants} {id : ObjectId} {terms : Terms} :
    termsOf grants id = some terms ↔ ∃ grant, grants.get? id = some grant ∧ grant.terms = terms :=
  Option.map_eq_some_iff

theorem grantTerms_ok {input : GrantInput} {identity : Identity} {contract : Contract}
    {scope : Scope} {now : Int} {standing : Standing} {invocationLimit : ℕ} {terms : Terms}
    (h : grantTerms input identity contract scope now standing invocationLimit = .ok terms) :
    castObjectId identity.sourcePassportId = some terms.sourcePassportId ∧
      castObjectId identity.targetPassportId = some terms.targetPassportId ∧
      terms.delegationDepth = standing.depth ∧
      terms.maximumDelegationDepth = contract.maximumDelegationDepth ∧
      terms.parentDelegationGrantId = standing.parent ∧
      terms.passportPath = standing.passportPath := by
  unfold grantTerms at h
  obtain ⟨_, -, h⟩ := bind_ok.mp h
  obtain ⟨_, -, h⟩ := bind_ok.mp h
  obtain ⟨_, -, h⟩ := bind_ok.mp h
  obtain ⟨source, hsource, h⟩ := bind_ok.mp h
  obtain ⟨_, -, h⟩ := bind_ok.mp h
  obtain ⟨target, htarget, h⟩ := bind_ok.mp h
  obtain ⟨_, -, h⟩ := bind_ok.mp h
  obtain rfl := pure_ok.mp h
  exact ⟨orThrow_ok.mp hsource, orThrow_ok.mp htarget, rfl, rfl, rfl, rfl⟩

theorem preparedGrant_ok {directory : Directory Entry} {grants : Grants} {input : GrantInput}
    {scope : Scope} {now : Int} {grant : Grant}
    (h : preparedGrant directory grants input scope now = .ok grant) :
    Prepared directory grants input grant.terms := by
  unfold preparedGrant at h
  obtain ⟨contract, -, h⟩ := bind_ok.mp h
  obtain ⟨actors, -, h⟩ := bind_ok.mp h
  obtain ⟨-, -, h⟩ := bind_ok.mp h
  obtain ⟨-, -, h⟩ := bind_ok.mp h
  obtain ⟨-, -, h⟩ := bind_ok.mp h
  obtain ⟨-, -, h⟩ := bind_ok.mp h
  obtain ⟨standing, hstanding, h⟩ := bind_ok.mp h
  obtain ⟨limit, -, h⟩ := bind_ok.mp h
  obtain ⟨terms, hterms, h⟩ := bind_ok.mp h
  have hsame : grant.terms = terms := by
    obtain rfl := pure_ok.mp h
    rfl
  rw [hsame]
  obtain ⟨hsource, htarget, hdepth, hmaximum, hparent, hpath⟩ := grantTerms_ok hterms
  obtain ⟨hrequested, hstands⟩ := validateParentGrant_ok hstanding
  obtain ⟨hasked, hle⟩ := requestedDepth_ok hrequested
  refine ⟨hsource, htarget, by rw [hdepth, hmaximum]; exact hle, ?_⟩
  rcases hstands with ⟨hnone, hroot, hspelled⟩ |
    ⟨parentText, parentId, parent, hsome, hcast, hget, hchild, hnext, hfollows, hspelled⟩
  · left
    refine ⟨hnone, by rw [hparent, hroot], ?_, ?_⟩
    · rw [hnone] at hasked
      rw [hdepth]
      exact hasked
    · rw [hpath, hspelled, List.map_cons, List.map_cons, List.map_nil, idOf_of_cast hsource,
        idOf_of_cast htarget, hsource, htarget]
  · right
    refine ⟨parentText, parentId, parent.terms, hsome, hcast, termsOf_eq_some.mpr ⟨parent, hget, rfl⟩,
      by rw [hparent, hchild], by rw [hdepth, hnext], ?_, ?_⟩
    · rw [idOf_of_cast hsource] at hfollows
      have hsame := castObjectId_val parent.terms.targetPassportId
      rw [hfollows, hsource] at hsame
      exact Option.some.inj hsame
    · rw [hpath, hspelled, List.map_append, List.map_cons, List.map_nil, idOf_of_cast htarget,
        htarget]

theorem termsOf_set (grants : Grants) (id : ObjectId) (grant : Grant) :
    termsOf (grants.set id grant) = Function.update (termsOf grants) id (some grant.terms) := by
  funext other
  unfold termsOf
  by_cases h : other = id
  · subst h
    rw [OrderedMap.get?_set_self, Function.update_self]
    rfl
  · rw [OrderedMap.get?_set_of_ne _ h, Function.update_of_ne h]

theorem step_cases (grants : Grants) (call : Call Entry) :
    (termsOf (step grants call) = termsOf grants ∧ CreatesWithinChain grants call) ∨
    ∃ directory id input scope now grant, call = .create directory id input scope now ∧
      grants.get? id = none ∧ step grants call = grants.set id grant ∧
      Prepared directory grants input grant.terms := by
  cases call with
  | amend id state =>
    left
    refine ⟨?_, trivial⟩
    simp only [step]
    split
    · next grant hget =>
      rw [termsOf_set]
      apply Function.update_eq_self_iff.mpr
      exact (termsOf_eq_some.mpr ⟨grant, hget, rfl⟩).symm
    · rfl
  | create directory id input scope now =>
    have hsame (h : step grants (.create directory id input scope now) = grants) :
        termsOf (step grants (.create directory id input scope now)) = termsOf grants ∧
          CreatesWithinChain grants (.create directory id input scope now) := by
      refine ⟨by rw [h], fun hnone hsome => ?_⟩
      rw [h] at hsome
      exact absurd hnone hsome
    cases hcreate : createGrantRecord directory grants id input scope now with
    | error failure =>
      left
      apply hsame
      simp only [step, hcreate]
    | ok result =>
      obtain ⟨returned, created⟩ := result
      have hstep : step grants (.create directory id input scope now) = created := by
        simp only [step, hcreate]
      unfold createGrantRecord at hcreate
      obtain ⟨grant, hprepared, hcreate⟩ := bind_ok.mp hcreate
      split at hcreate
      · cases hcreate
      · next hfresh =>
        split at hcreate
        · right
          obtain ⟨-, rfl⟩ := Prod.mk.inj (pure_ok.mp hcreate)
          refine ⟨directory, id, input, scope, now, grant, rfl, ?_, hstep,
            preparedGrant_ok hprepared⟩
          rw [OrderedMap.has_eq_isSome] at hfresh
          simpa using hfresh
        · left
          obtain ⟨-, rfl⟩ := Prod.mk.inj (pure_ok.mp hcreate)
          exact hsame hstep

theorem extends_update {records : Records} {id : ObjectId} {grant : Terms}
    (hfresh : records id = none) : Extends records (Function.update records id (some grant)) := by
  intro other terms h
  rw [Function.update_of_ne]
  · exact h
  · rintro rfl
    rw [hfresh] at h
    cases h

def chainPassports : List Terms → List ObjectId
  | [] => []
  | root :: rest => root.sourcePassportId :: (root :: rest).map Terms.targetPassportId

theorem chainPassports_concat {chain : List Terms} (h : chain ≠ []) (grant : Terms) :
    chainPassports (chain ++ [grant]) = chainPassports chain ++ [grant.targetPassportId] := by
  cases chain with
  | nil => exact absurd rfl h
  | cons root rest => simp [chainPassports]

def Traced (records : Records) : Prop :=
  ∀ id grant, records id = some grant → ∃ chain, Chain records grant chain ∧
    grant.passportPath.map castObjectId = (chainPassports chain).map some

theorem Traced.rooted {records : Records} (h : Traced records) :
    Rooted records Terms.parentDelegationGrantId := by
  intro id grant hgrant
  obtain ⟨chain, hchain, -⟩ := h id grant hgrant
  exact ⟨chain, hchain⟩

theorem head_of_named {path : List Text} {ids : List ObjectId}
    (h : path.map castObjectId = ids.map some) : path.head?.bind castObjectId = ids.head? := by
  cases path with
  | nil =>
    obtain rfl := List.map_eq_nil_iff.mp h.symm
    rfl
  | cons text path =>
    cases ids with
    | nil => cases h
    | cons id ids => exact (List.cons.inj h).1

theorem last_of_named {path : List Text} {ids : List ObjectId}
    (h : path.map castObjectId = ids.map some) :
    path.getLast?.bind castObjectId = ids.getLast? := by
  have hreverse : path.reverse.map castObjectId = ids.reverse.map some := by
    rw [List.map_reverse, List.map_reverse, h]
  simpa only [List.head?_reverse] using head_of_named hreverse

theorem ends_of_named {records : Records} {grant : Terms} {chain : List Terms}
    (hchain : Chain records grant chain)
    (h : grant.passportPath.map castObjectId = (chainPassports chain).map some) :
    grant.passportPath.head?.bind castObjectId = chain.head?.map Terms.sourcePassportId ∧
      grant.passportPath.getLast?.bind castObjectId = some grant.targetPassportId := by
  have hlast := hchain.getLast?
  rw [head_of_named h, last_of_named h]
  cases chain with
  | nil => cases hlast
  | cons root rest =>
    refine ⟨rfl, ?_⟩
    rw [chainPassports, List.getLast?_cons, List.getLast?_map, hlast]
    rfl

section Created

variable {directory : Directory Entry} {grants : Grants} {input : GrantInput} {grant : Terms}
  {id : ObjectId}

theorem chain_created (hfresh : termsOf grants id = none) {parentId : ObjectId} {parent : Terms} {chain : List Terms}
    (hparent : grant.parentDelegationGrantId = some parentId)
    (hrecord : termsOf grants parentId = some parent)
    (hchain : Chain (termsOf grants) parent chain) :
    Chain (Function.update (termsOf grants) id (some grant)) grant (chain ++ [grant]) :=
  .child hparent (extends_update hfresh _ _ hrecord) (hchain.mono (extends_update hfresh))

theorem traced_created (htraced : Traced (termsOf grants))
    (h : Prepared directory grants input grant) (hfresh : termsOf grants id = none) :
    Traced (Function.update (termsOf grants) id (some grant)) := by
  intro other terms hterms
  by_cases hother : other = id
  · subst hother
    rw [Function.update_self] at hterms
    obtain rfl := Option.some.inj hterms
    rcases h.standing with ⟨-, hroot, -, hpath⟩ |
      ⟨-, parentId, parent, -, -, hrecord, hparent, -, -, hpath⟩
    · exact ⟨[grant], .root hroot, hpath⟩
    · obtain ⟨chain, hchain, hnamed⟩ := htraced parentId parent hrecord
      refine ⟨chain ++ [grant], chain_created hfresh hparent hrecord hchain, ?_⟩
      rw [hpath, hnamed, chainPassports_concat hchain.ne_nil, List.map_append]
      rfl
  · rw [Function.update_of_ne hother] at hterms
    obtain ⟨chain, hchain, hnamed⟩ := htraced other terms hterms
    exact ⟨chain, hchain.mono (extends_update hfresh), hnamed⟩

theorem allLawful_created_iff (htraced : Traced (termsOf grants)) (hall : AllLawful (termsOf grants))
    (h : Prepared directory grants input grant) (hfresh : termsOf grants id = none) :
    AllLawful (Function.update (termsOf grants) id (some grant)) ↔
      WithinChain directory grants input := by
  have hself : Function.update (termsOf grants) id (some grant) id = some grant :=
    Function.update_self _ _ _
  have hold (hcreated : ∃ chain, Chain (Function.update (termsOf grants) id (some grant)) grant chain ∧
      KeepsToChain grant chain) : AllLawful (Function.update (termsOf grants) id (some grant)) := by
    intro other terms hterms
    by_cases hother : other = id
    · subst hother
      obtain rfl := Option.some.inj (hself.symm.trans hterms)
      exact hcreated
    · rw [Function.update_of_ne hother] at hterms
      obtain ⟨chain, hchain, hkeeps⟩ := hall other terms hterms
      exact ⟨chain, hchain.mono (extends_update hfresh), hkeeps⟩
  obtain ⟨named, hnamed, hspelled⟩ := traced_created htraced h hfresh id grant hself
  obtain ⟨hstarts, hends⟩ := ends_of_named hnamed hspelled
  unfold WithinChain
  rcases h.standing with ⟨hnone, hroot, hasked, hpath⟩ |
    ⟨parentText, parentId, parent, hsome, hcast, hrecord, hparent, hdepth, -, hpath⟩
  · obtain rfl := hnamed.unique (.root hroot)
    simp only [hnone, h.source, h.target, hasked]
    constructor
    · intro hlawful
      obtain ⟨chain, hchain, hkeeps⟩ := hlawful id grant hself
      obtain rfl := hchain.unique (.root hroot)
      have hone := hkeeps.depth
      have honce := hkeeps.once
      rw [hpath] at honce
      refine ⟨by rw [hone]; rfl, ?_⟩
      simpa using honce
    · rintro ⟨hone, hdiffer⟩
      apply hold
      refine ⟨[grant], .root hroot, hstarts, hends, ?_, ?_, ?_⟩
      · rw [hpath]
        simpa using hdiffer
      · have := Option.some.inj hone
        simp only [List.length_singleton]
        omega
      · intro ancestor hancestor
        obtain rfl := List.mem_singleton.mp hancestor
        exact h.depth
  · obtain ⟨chain, hchain, hkeeps⟩ := hall parentId parent hrecord
    have hnew := chain_created hfresh hparent hrecord hchain
    obtain rfl := hnamed.unique hnew
    simp only [hsome, h.target]
    constructor
    · intro hlawful parentId' parent' chain' hcast' hrecord' hchain'
      obtain rfl := Option.some.inj (hcast.symm.trans hcast')
      obtain rfl := Option.some.inj (hrecord.symm.trans hrecord')
      obtain rfl := hchain.unique hchain'
      obtain ⟨_, hchain'', hgrant⟩ := hlawful id grant hself
      obtain rfl := hchain''.unique hnew
      constructor
      · have honce := hgrant.once
        rw [hpath, List.nodup_append] at honce
        intro hmem
        exact honce.2.2 _ hmem _ (List.mem_singleton_self _) rfl
      · intro ancestor hancestor
        have hbound := hgrant.bounded ancestor (List.mem_append_left _ hancestor)
        omega
    · intro hwithin
      obtain ⟨hfresh', hbounds⟩ := hwithin parentId parent chain hcast hrecord hchain
      apply hold
      refine ⟨chain ++ [grant], hnew, hstarts, hends, ?_, ?_, ?_⟩
      · rw [hpath, List.nodup_append]
        refine ⟨hkeeps.once, List.nodup_singleton _, ?_⟩
        intro passport hpassport other hother heq
        obtain rfl := List.mem_singleton.mp hother
        exact hfresh' (heq ▸ hpassport)
      · rw [hdepth, hkeeps.depth, List.length_append, List.length_singleton]
      · intro ancestor hancestor
        rcases List.mem_append.mp hancestor with hancestor | hancestor
        · have := hbounds ancestor hancestor
          omega
        · obtain rfl := List.mem_singleton.mp hancestor
          exact h.depth

theorem allLawful_of_update (htraced : Traced (termsOf grants)) (hfresh : termsOf grants id = none)
    (h : AllLawful (Function.update (termsOf grants) id (some grant))) :
    AllLawful (termsOf grants) := by
  intro other terms hterms
  have hextends : Extends (termsOf grants) (Function.update (termsOf grants) id (some grant)) :=
    extends_update hfresh
  obtain ⟨chain, hchain⟩ := htraced.rooted other terms hterms
  obtain ⟨chain', hchain', hkeeps⟩ := h other terms (hextends _ _ hterms)
  obtain rfl := hchain'.unique (hchain.mono hextends)
  exact ⟨chain', hchain, hkeeps⟩

end Created

theorem termsOf_empty (id : ObjectId) : termsOf .empty id = none := rfl

theorem traced_after (calls : List (Call Entry)) : Traced (termsOf (after step .empty calls)) := by
  apply after_induction (I := fun grants => Traced (termsOf grants))
  · intro id grant h
    rw [termsOf_empty] at h
    cases h
  · intro grants call htraced _
    rcases step_cases grants call with ⟨hsame, -⟩ |
      ⟨directory, id, input, scope, now, grant, -, hfresh, hstep, hprepared⟩
    · rw [hsame]
      exact htraced
    · rw [hstep, termsOf_set]
      apply traced_created htraced hprepared
      unfold termsOf
      rw [hfresh]
      rfl

/-- All grants of a run keep to their chains if and only if each of them was asked for within its
chain. -/
theorem chains_lawful_iff (calls : List (Call Entry)) :
    AllLawful (termsOf (after step .empty calls)) ↔
      Guarded step CreatesWithinChain .empty calls := by
  induction calls using List.reverseRecOn with
  | nil =>
    refine iff_of_true (fun id grant h => ?_) trivial
    rw [after_nil, termsOf_empty] at h
    cases h
  | append_singleton calls call ih =>
    have htraced := traced_after calls
    rw [after_concat, guarded_append, ← ih]
    generalize after step .empty calls = grants at htraced
    change _ ↔ _ ∧ CreatesWithinChain grants call ∧ True
    rw [and_true]
    rcases step_cases grants call with ⟨hsame, hwithin⟩ |
      ⟨directory, id, input, scope, now, grant, rfl, hfresh, hstep, hprepared⟩
    · rw [hsame]
      exact (and_iff_left hwithin).symm
    · have hnone : termsOf grants id = none := by
        unfold termsOf
        rw [hfresh]
        rfl
      have hcreates : CreatesWithinChain grants (.create directory id input scope now) ↔
          WithinChain directory grants input := by
        refine ⟨fun h => h hfresh ?_, fun h _ _ => h⟩
        rw [hstep, OrderedMap.get?_set_self]
        exact Option.some_ne_none _
      rw [hcreates, hstep, termsOf_set]
      constructor
      · intro hall
        have hold := allLawful_of_update htraced hnone hall
        exact ⟨hold, (allLawful_created_iff htraced hold hprepared hnone).mp hall⟩
      · rintro ⟨hold, hwithin⟩
        exact (allLawful_created_iff htraced hold hprepared hnone).mpr hwithin

def pairContract : Contract where
  id := digitId 0
  organizationId := ascii "o"
  workspaceId := ascii "w"
  version := 1
  status := .active
  sourceCapability := ascii "read"
  sourceOperation := ascii "run"
  targetCapability := ascii "sum"
  targetOperation := ascii "run"
  purposeCode := ascii "REPORT"
  maximumDelegationDepth := ⟨2, by decide⟩
  allowFurtherDelegation := true
  validFrom := 0
  expiresAt := 1000

def pairDirectory : Directory Unit where
  contracts := [pairContract]
  nodeRun _ := none
  connection id := if id = digitId 3 then some ⟨digitId 1⟩ else some ⟨digitId 2⟩
  passport _ := some ⟨ascii "1"⟩
  entry _ _ := some ()
  matchesSource _ _ := true
  matchesTarget _ _ := true
  approval _ _ := none

def deepRoot : Call Unit :=
  .create pairDirectory (digitId 9)
    { contractId := (digitId 0).val
      contractVersion := 1
      sourcePassportId := (digitId 1).val
      sourcePassportVersion := ascii "1"
      sourceConnectionId := (digitId 3).val
      targetPassportId := (digitId 2).val
      targetPassportVersion := ascii "1"
      targetConnectionId := (digitId 4).val
      delegationDepth := .integer 2 }
    ⟨ascii "o", ascii "w"⟩ 10

theorem deepRoot_not_lawful : ¬AllLawful (termsOf (after step .empty [deepRoot])) := by
  intro h
  have hcreated : (termsOf (after step .empty [deepRoot]) (digitId 9)).map
      (fun grant => (grant.parentDelegationGrantId, grant.delegationDepth.val)) = some (none, 2) := by
    decide
  obtain ⟨grant, hgrant, hfields⟩ := Option.map_eq_some_iff.mp hcreated
  obtain ⟨hroot, hdepth⟩ := Prod.mk.inj hfields
  obtain ⟨chain, hchain, hkeeps⟩ := h _ grant hgrant
  obtain rfl := hchain.unique (.root hroot)
  have hone := hkeeps.depth
  rw [hdepth] at hone
  cases hone

end GhostBridge.Delegation

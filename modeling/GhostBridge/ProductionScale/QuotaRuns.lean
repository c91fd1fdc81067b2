import GhostBridge.Machine.Records
import GhostBridge.ProductionScale.Quotas

/-!
# Runs over the reservations of quota

Any number of reservations, releases, consumptions, recoveries and admissions that run at the same
time under fixed maxima.
-/

namespace GhostBridge.ProductionScale

open Ecma Machine

structure Reservation.Later (stored next : Reservation) : Prop where
  kept : next = { stored with status := next.status }
  active : next.status.isActive = true → stored.status.isActive = true

theorem Reservation.Later.refl (stored : Reservation) : stored.Later stored :=
  ⟨rfl, fun h => h⟩

theorem Reservation.Later.trans {a b c : Reservation} (hab : a.Later b) (hbc : b.Later c) :
    a.Later c where
  kept := by rw [hbc.kept, hab.kept]
  active h := hab.active (hbc.active h)

theorem Reservation.clashes_symm {a b : Reservation} (h : a.clashes b = true) :
    b.clashes a = true := by
  simp only [clashes, decide_eq_true_eq] at h ⊢
  rcases h with h | ⟨h₁, h₂, h₃⟩ | ⟨h₁, h₂, h₃, h₄, h₅⟩ | ⟨h₁, h₂, h₃, h₄, h₅, h₆⟩
  · exact .inl h.symm
  · exact .inr (.inl ⟨h₁.symm, h₂.symm, h₃.symm⟩)
  · exact .inr (.inr (.inl ⟨h₂, h₁, h₃.symm, h₄.symm, h₅.symm⟩))
  · exact .inr (.inr (.inr ⟨h₂, h₁, h₃.symm, h₄.symm, h₅.symm, h₆.symm⟩))

theorem Reservation.clashes_comm (a b : Reservation) : a.clashes b = b.clashes a := by
  rw [Bool.eq_iff_iff]
  exact ⟨clashes_symm, clashes_symm⟩

theorem Reservation.clashes_later {a b a' b' : Reservation} (ha : a.Later a') (hb : b.Later b')
    (h : a'.clashes b' = true) : a.clashes b = true := by
  have hactive := ha.active
  have hactive' := hb.active
  rw [ha.kept, hb.kept] at h
  simp only [clashes, decide_eq_true_eq] at h ⊢
  rcases h with h | h | ⟨h₁, h₂, h⟩ | ⟨h₁, h₂, h⟩
  · exact .inl h
  · exact .inr (.inl h)
  · exact .inr (.inr (.inl ⟨hactive h₁, hactive' h₂, h⟩))
  · exact .inr (.inr (.inr ⟨hactive h₁, hactive' h₂, h⟩))

/-- The maxima of the policies, by organization and type, and by workspace as well. -/
structure QuotaMaxima where
  tenant : Text → Text → ℕ
  workspace : Text → Text → Text → ℕ

structure Reservation.Within (maxima : QuotaMaxima) (r : Reservation) : Prop where
  tenant : 1 ≤ r.tenantSlotNumber ∧
    r.tenantSlotNumber ≤ maxima.tenant r.organizationId r.reservationType
  workspace : 1 ≤ r.workspaceSlotNumber ∧
    r.workspaceSlotNumber ≤ maxima.workspace r.organizationId r.workspaceId r.reservationType

/-- The unique indexes hold, and active reservations are within the maxima. -/
structure QuotaStore.WellFormed (maxima : QuotaMaxima) (store : QuotaStore) : Prop where
  indexes : store.reservations.Pairwise fun a b => a.clashes b = false
  within : ∀ r ∈ store.reservations, r.status.isActive = true → r.Within maxima

/-- The reservation of an `_id`. -/
def QuotaStore.find (store : QuotaStore) (id : ℕ) : Option Reservation :=
  store.reservations.find? fun r => r.id == id

variable {maxima : QuotaMaxima} {store : QuotaStore}

namespace QuotaStore.WellFormed

theorem insert (h : store.WellFormed maxima) {reservation : Reservation}
    (hwithin : reservation.Within maxima) : (store.insert reservation).2.WellFormed maxima := by
  unfold QuotaStore.insert
  split
  · exact h
  next hclash =>
    have hfree : ∀ r ∈ store.reservations, r.clashes reservation = false := by
      intro r hr
      rw [Reservation.clashes_comm, ← Bool.not_eq_true]
      exact fun hr' => hclash (List.any_eq_true.mpr ⟨r, hr, hr'⟩)
    constructor
    · rw [List.pairwise_append]
      refine ⟨h.indexes, List.pairwise_singleton _ _, ?_⟩
      intro a ha b hb
      obtain rfl := List.mem_singleton.mp hb
      exact hfree a ha
    · intro r hr hactive
      rcases List.mem_append.mp hr with hold | hnew
      · exact h.within r hold hactive
      · obtain rfl := List.mem_singleton.mp hnew
        exact hwithin

theorem setStatus (h : store.WellFormed maxima) {filter : Reservation → Bool}
    {status : ReservationStatus}
    (hstatus : ∀ r, filter r = true → status.isActive = true → r.status.isActive = true) :
    (store.setStatus filter status).WellFormed maxima := by
  have hlater (r : Reservation) : r.Later (if filter r then { r with status := status } else r) := by
    split
    next hfilter => exact ⟨rfl, hstatus r hfilter⟩
    · exact Reservation.Later.refl r
  constructor
  · unfold QuotaStore.setStatus
    rw [List.pairwise_map]
    refine h.indexes.imp fun {a b} hab => ?_
    rw [← Bool.not_eq_true] at hab ⊢
    exact fun hclash => hab (Reservation.clashes_later (hlater a) (hlater b) hclash)
  · intro r hr hactive
    obtain ⟨stored, hstored, rfl⟩ := List.mem_map.mp hr
    have hwithin := h.within stored hstored ((hlater stored).active hactive)
    split
    · exact ⟨hwithin.tenant, hwithin.workspace⟩
    · exact hwithin

theorem eq_of_key (h : store.WellFormed maxima) {a b : Reservation} (ha : a ∈ store.reservations)
    (hb : b ∈ store.reservations) (hclash : a.clashes b = true) : a = b := by
  by_contra hne
  have hsymmetric : Std.Symm fun a b : Reservation => a.clashes b = false :=
    ⟨fun a b hab => by rwa [Reservation.clashes_comm]⟩
  have hfree := h.indexes.forall ha hb hne
  rw [hclash] at hfree
  cases hfree

theorem tenant_le (h : store.WellFormed maxima) (organizationId reservationType : Text) :
    store.reservations.countP (Reservation.ofTenant organizationId reservationType) ≤
      maxima.tenant organizationId reservationType := by
  apply countP_le_of_slots Reservation.tenantSlotNumber
  · refine h.indexes.imp fun {a b} hfree ha hb hslot => ?_
    simp only [Reservation.ofTenant, decide_eq_true_eq] at ha hb
    have hclash : a.clashes b = true := by
      simp only [Reservation.clashes, decide_eq_true_eq]
      exact .inr (.inr (.inl ⟨ha.2.2, hb.2.2, ha.1.trans hb.1.symm, ha.2.1.trans hb.2.1.symm, hslot⟩))
    rw [hclash] at hfree
    cases hfree
  · intro r hr htenant
    simp only [Reservation.ofTenant, decide_eq_true_eq] at htenant
    obtain ⟨rfl, rfl, hactive⟩ := htenant
    exact (h.within r hr hactive).tenant

theorem workspace_le (h : store.WellFormed maxima)
    (organizationId workspaceId reservationType : Text) :
    store.reservations.countP
        (Reservation.ofWorkspace organizationId workspaceId reservationType) ≤
      maxima.workspace organizationId workspaceId reservationType := by
  apply countP_le_of_slots Reservation.workspaceSlotNumber
  · refine h.indexes.imp fun {a b} hfree ha hb hslot => ?_
    simp only [Reservation.ofWorkspace, decide_eq_true_eq] at ha hb
    have hclash : a.clashes b = true := by
      simp only [Reservation.clashes, decide_eq_true_eq]
      exact .inr (.inr (.inr ⟨ha.2.2.2, hb.2.2.2, ha.1.trans hb.1.symm, ha.2.1.trans hb.2.1.symm,
        ha.2.2.1.trans hb.2.2.1.symm, hslot⟩))
    rw [hclash] at hfree
    cases hfree
  · intro r hr hworkspace
    simp only [Reservation.ofWorkspace, decide_eq_true_eq] at hworkspace
    obtain ⟨rfl, rfl, rfl, hactive⟩ := hworkspace
    exact (h.within r hr hactive).workspace

end QuotaStore.WellFormed

theorem onward_insert (reservation : Reservation) :
    Onward Reservation.Later store.find (store.insert reservation).2.find := by
  unfold QuotaStore.insert
  split
  · exact Onward.refl Reservation.Later.refl _
  · intro id stored hstored
    refine ⟨stored, ?_, Reservation.Later.refl stored⟩
    unfold QuotaStore.find at *
    rw [List.find?_append, hstored]
    rfl

theorem onward_setStatus {filter : Reservation → Bool} {status : ReservationStatus}
    (hstatus : ∀ r, filter r = true → status.isActive = true → r.status.isActive = true) :
    Onward Reservation.Later store.find (store.setStatus filter status).find := by
  intro id stored hstored
  refine ⟨if filter stored then { stored with status := status } else stored, ?_, ?_⟩
  · have hids : ((fun r : Reservation => r.id == id) ∘ fun r =>
        if filter r then { r with status := status } else r) = fun r => r.id == id := by
      funext r
      simp only [Function.comp]
      split <;> rfl
    unfold QuotaStore.find QuotaStore.setStatus at *
    rw [List.find?_map, hids, hstored]
    rfl
  · split
    next hfilter => exact ⟨rfl, hstatus stored hfilter⟩
    · exact Reservation.Later.refl stored

/-- What the database does to the reservations: nothing, an insertion, or a change of status that
makes none active. -/
inductive Effect (store : QuotaStore) : QuotaOp → QuotaStore → Prop
  | none (op : QuotaOp) (after : QuotaStore) (h : after.reservations = store.reservations) :
    Effect store op after
  | insert (input : ReserveInput) (id tenantSlotNumber workspaceSlotNumber : ℕ) (expiresAt : Int)
    (after : QuotaStore)
    (h : after.reservations = (store.insert (input.document id tenantSlotNumber workspaceSlotNumber
      expiresAt)).2.reservations) :
    Effect store (.create input tenantSlotNumber workspaceSlotNumber expiresAt) after
  | setStatus (op : QuotaOp) (filter : Reservation → Bool) (status : ReservationStatus)
    (after : QuotaStore)
    (hstatus : ∀ r, filter r = true → status.isActive = true → r.status.isActive = true)
    (h : after.reservations = (store.setStatus filter status).reservations) : Effect store op after

theorem effect_performQuota (op : QuotaOp) (answer : QuotaAnswer) :
    Effect store op (performQuota store op answer).2 := by
  unfold performQuota
  cases op with
  | create input tenantSlotNumber workspaceSlotNumber expiresAt =>
    simp only [performQuotaAt, QuotaAnswer.available]
    split
    · exact .none _ _ rfl
    split
    · exact .none _ _ rfl
    · apply Effect.insert input answer.id
      simp only [QuotaStore.insert]
      split <;> rfl
  | release id expired =>
    simp only [performQuotaAt, QuotaAnswer.available]
    split
    · exact .none _ _ rfl
    · apply Effect.setStatus _ (releasable id) (if expired then .expired else .released)
      · intro r _ hactive
        cases expired <;> cases hactive
      · rfl
  | consume id now =>
    simp only [performQuotaAt, QuotaAnswer.available]
    split
    · exact .none _ _ rfl
    · apply Effect.setStatus _ (consumable id now) .consumed
      · intro r hfilter _
        simp only [consumable, decide_eq_true_eq] at hfilter
        rw [hfilter.2.1]
        rfl
      · rfl
  | recover now =>
    simp only [performQuotaAt, QuotaAnswer.available]
    split
    · exact .none _ _ rfl
    · apply Effect.setStatus _ (recoverable now) .expired
      · intro r _ hactive
        cases hactive
      · rfl
  | clock => exact .none _ _ rfl
  | _ =>
    simp only [performQuotaAt, QuotaAnswer.available]
    split <;> exact .none _ _ rfl

theorem Effect.onward {op : QuotaOp} {after : QuotaStore} (h : Effect store op after) :
    Onward Reservation.Later store.find after.find := by
  have hsame {s t : QuotaStore} (heq : s.reservations = t.reservations) : s.find = t.find := by
    unfold QuotaStore.find
    rw [heq]
  cases h with
  | none op after h =>
    rw [hsame h]
    exact Onward.refl Reservation.Later.refl _
  | insert input id tenantSlotNumber workspaceSlotNumber expiresAt after h =>
    rw [hsame h]
    exact onward_insert _
  | setStatus op filter status after hstatus h =>
    rw [hsame h]
    exact onward_setStatus hstatus

theorem Effect.wellFormed {op : QuotaOp} {after : QuotaStore} (h : Effect store op after)
    (hstore : store.WellFormed maxima)
    (hcreate : ∀ input id tenantSlotNumber workspaceSlotNumber expiresAt,
      op = .create input tenantSlotNumber workspaceSlotNumber expiresAt →
      (input.document id tenantSlotNumber workspaceSlotNumber expiresAt).Within maxima) :
    after.WellFormed maxima := by
  have hsame {s t : QuotaStore} (heq : s.reservations = t.reservations)
      (ht : t.WellFormed maxima) : s.WellFormed maxima :=
    ⟨heq ▸ ht.indexes, heq ▸ ht.within⟩
  cases h with
  | none op after h => exact hsame h hstore
  | insert input id tenantSlotNumber workspaceSlotNumber expiresAt after h =>
    exact hsame h (hstore.insert (hcreate input id _ _ _ rfl))
  | setStatus op filter status after hstatus h => exact hsame h (hstore.setStatus hstatus)

theorem kept_reservations : KeptOnward performQuota QuotaStore.find Reservation.Later where
  refl := Reservation.Later.refl
  trans _ _ _ := Reservation.Later.trans
  perform _ op answer := (effect_performQuota op answer).onward

inductive QuotaEntry where
  | reserveQuota (input : ReserveInput)
  | releaseQuotaReservation (id : ℕ) (expired audited : Bool)
  | consumeQuotaReservation (id : ℕ) (options : QuotaOptions)
  | recoverExpiredQuotaReservations (options : QuotaOptions)
  | evaluateAdmission (request : AdmissionRequest)

inductive QuotaOutcome where
  | reserved (reserved : Reserved)
  | updated (reservation : Option Reservation)
  | recovered (expired : ℕ)
  | admitted (result : AdmissionResult)

namespace QuotaEntry

def program : QuotaEntry → QuotaFlow QuotaOutcome
  | reserveQuota input => do
    let reserved ← ProductionScale.reserveQuota input
    return .reserved reserved
  | releaseQuotaReservation id expired audited => do
    let updated ← ProductionScale.releaseQuotaReservation id expired audited
    return .updated updated
  | consumeQuotaReservation id options => do
    let updated ← ProductionScale.consumeQuotaReservation id options
    return .updated updated
  | recoverExpiredQuotaReservations options => do
    let expired ← ProductionScale.recoverExpiredQuotaReservations options
    return .recovered expired
  | evaluateAdmission request => do
    let result ← ProductionScale.evaluateAdmission request
    return .admitted result

def reserveInput : QuotaEntry → Option ReserveInput
  | reserveQuota input => some input
  | evaluateAdmission request => some request.reserve
  | _ => none

end QuotaEntry

structure FixedMaxima (maxima : QuotaMaxima) (input : ReserveInput) : Prop where
  tenant : ∀ n : Int, input.tenantMaximum = some (some n) →
    n = maxima.tenant input.organization input.reservationType
  workspace : ∀ n : Int, input.workspaceMaximum = some (some n) →
    n = maxima.workspace input.organization input.workspace input.reservationType

abbrev QuotaWorld := World QuotaStore QuotaOp QuotaReply (Except QuotaFailure QuotaOutcome)

def quotaWorld (store : QuotaStore) (entries : ℕ → QuotaEntry) (calls : List (ℕ × QuotaAnswer)) :
    QuotaWorld :=
  after (World.turn performQuota) (.initial store fun i => (entries i).program) calls

structure QuotaProgress where
  taken : Option Reservation := none

/-- The reservation is active, and one of the key that the input has. -/
structure Holds (input : ReserveInput) (r : Reservation) : Prop where
  active : r.status.isActive = true
  organization : r.organizationId = input.organization
  workspace : r.workspaceId = input.workspace
  idempotencyKey : r.idempotencyKey = input.idempotencyKey

namespace QuotaProgress

def next (s : QuotaProgress) : (op : QuotaOp) → QuotaReply op → QuotaProgress
  | .findReplay _, .ok (some r) => { taken := some r }
  | .create _ _ _ _, .ok r => { taken := some r }
  | _, _ => s

/-- The slots that a document is created with are within the maxima. -/
def allowed (maxima : QuotaMaxima) : QuotaOp → Prop
  | .create input tenantSlotNumber workspaceSlotNumber _ =>
    (1 ≤ tenantSlotNumber ∧
        tenantSlotNumber ≤ maxima.tenant input.organization input.reservationType) ∧
      1 ≤ workspaceSlotNumber ∧
        workspaceSlotNumber ≤
          maxima.workspace input.organization input.workspace input.reservationType
  | _ => True

def replies : (op : QuotaOp) → QuotaReply op → Prop
  | .findReplay input, reply => ∀ r, reply = .ok (some r) → Holds input r
  | .create input _ _ _, reply => ∀ r, reply = .ok r → Holds input r
  | _, _ => True

end QuotaProgress

def quotaConduct (maxima : QuotaMaxima) : Monitor QuotaOp QuotaReply QuotaProgress where
  next := QuotaProgress.next
  allowed _ := QuotaProgress.allowed maxima
  replies _ := QuotaProgress.replies

section Follows

variable {s : QuotaProgress} {input : ReserveInput}

def reserveEnds (input : ReserveInput) (t : QuotaProgress) : Except QuotaFailure Reserved → Prop
  | .ok reserved => t.taken = some reserved.reservation ∧ Holds input reserved.reservation
  | .error _ => True

theorem slotMaximum_ok {value : Option Numeral} {path : String} {bounded : Bounded 1 1000000}
    (h : slotMaximum value path = .ok bounded) : value = some (some (bounded.val : Int)) := by
  unfold slotMaximum boundedInteger at h
  rcases value with _ | _ | n
  · cases h
  · cases h
  · dsimp only at h
    split at h
    next hbounds =>
      obtain rfl := Except.ok.inj h
      rw [Int.toNat_of_nonneg hbounds.2.2]
    · cases h

theorem follows_findReplay {α : Type} {f : Option Reservation → QuotaFlow α}
    {post : QuotaProgress → Except QuotaFailure α → Prop}
    (herror : ∀ t e, post t (.error e))
    (hnone : (f none).Follows (quotaConduct maxima) post s)
    (hsome : ∀ r, Holds input r →
      (f (some r)).Follows (quotaConduct maxima) post { taken := some r }) :
    (findReplay input >>= f).Follows (quotaConduct maxima) post s := by
  unfold findReplay
  apply Async.follows_reply trivial
  · intro reply e _
    exact herror _ e
  intro reply found hreply hfound
  obtain rfl : reply = .ok found := hfound
  cases found with
  | none => exact hnone
  | some r => exact hsome r (hreply r rfl)

def Aside : QuotaOp → Prop
  | .findReplay _ | .create _ _ _ _ => False
  | _ => True

theorem unnoticed_aside (op : QuotaOp) (h : Aside op) :
    Program.Unnoticed (quotaConduct maxima) s op := by
  cases op with
  | findReplay input => exact h.elim
  | create input tenantSlotNumber workspaceSlotNumber expiresAt => exact h.elim
  | _ => exact ⟨trivial, fun _ => rfl⟩

theorem freeSlots_ensures (tenantMaximum workspaceMaximum : ℕ) :
    (freeSlots input tenantMaximum workspaceMaximum).Ensures Aside fun slots =>
      (1 ≤ slots.1 ∧ slots.1 ≤ tenantMaximum) ∧ 1 ≤ slots.2 ∧ slots.2 ≤ workspaceMaximum := by
  unfold freeSlots
  simp only [Async.ensures_bind, Async.ensures_ask, Async.ensures_monadLift, Async.ensures_pure]
  refine ⟨trivial, fun tenantReply tenantTaken _ => ⟨trivial, fun workspaceReply workspaceTaken _ =>
    fun tenantSlotNumber htenant workspaceSlotNumber hworkspace => ?_⟩⟩
  obtain ⟨htenantFirst, htenantLast, -⟩ := firstFree_some (orThrow_ok.mp htenant)
  obtain ⟨hworkspaceFirst, hworkspaceLast, -⟩ := firstFree_some (orThrow_ok.mp hworkspace)
  exact ⟨⟨htenantFirst, htenantLast⟩, hworkspaceFirst, hworkspaceLast⟩

theorem reservationExpiry_ensures :
    (reservationExpiry input).Ensures Aside fun _ => True := by
  unfold reservationExpiry
  cases input.expiresAt with
  | some expiresAt => exact Async.ensures_pure.mpr trivial
  | none =>
    apply Async.ensures_bind.mpr
    exact Async.ensures_ask.mpr ⟨trivial, fun _ => Async.ensures_pure.mpr trivial⟩

theorem follows_reserveSlots (hfixed : FixedMaxima maxima input)
    {tenantMaximum workspaceMaximum : ℕ}
    (htenant : input.tenantMaximum = some (some (tenantMaximum : Int)))
    (hworkspace : input.workspaceMaximum = some (some (workspaceMaximum : Int))) (attempts : ℕ) :
    (reserveSlots input tenantMaximum workspaceMaximum attempts).Follows (quotaConduct maxima)
      (reserveEnds input) s := by
  have htenantMaximum := Int.ofNat.inj (hfixed.tenant _ htenant)
  have hworkspaceMaximum := Int.ofNat.inj (hfixed.workspace _ hworkspace)
  induction attempts generalizing s with
  | zero => trivial
  | succ attempts ih =>
    unfold reserveSlots
    apply (freeSlots_ensures tenantMaximum workspaceMaximum).follows_bind unnoticed_aside
      (fun _ => trivial)
    intro slots hslots
    apply reservationExpiry_ensures.follows_bind unnoticed_aside (fun _ => trivial)
    intro expiresAt _
    apply Async.follows_asking
    · change _ ∧ _
      rw [← htenantMaximum, ← hworkspaceMaximum]
      exact hslots
    intro created hcreated
    rcases created with (failure | path | _ | _) | reservation
    · trivial
    · trivial
    · apply follows_findReplay (fun _ _ => trivial) ih
      intro r hr
      exact ⟨rfl, hr⟩
    · trivial
    · exact ⟨rfl, hcreated reservation rfl⟩

theorem follows_reserveQuota (hfixed : FixedMaxima maxima input) :
    (reserveQuota input).Follows (quotaConduct maxima) (reserveEnds input) s := by
  unfold reserveQuota
  apply Async.follows_check (fun _ => trivial)
  intro _ _
  apply follows_findReplay (fun _ _ => trivial)
  · apply Async.follows_check (fun _ => trivial)
    intro tenantMaximum htenant
    apply Async.follows_check (fun _ => trivial)
    intro workspaceMaximum hworkspace
    exact follows_reserveSlots hfixed (slotMaximum_ok htenant) (slotMaximum_ok hworkspace) 32
  · intro r hr
    exact ⟨rfl, hr⟩

theorem auditQuota_ensures (action : String) : (auditQuota action).Ensures Aside fun _ => True := by
  unfold auditQuota
  rw [Async.ensures_bind, Async.ensures_ask]
  exact ⟨trivial, fun reply => Async.ensures_monadLift.mpr fun _ _ => trivial⟩

theorem quotaTime_ensures (options : QuotaOptions) :
    (quotaTime options).Ensures Aside fun _ => True := by
  unfold quotaTime
  cases options.now with
  | some now => exact Async.ensures_pure.mpr trivial
  | none => exact Async.ensures_ask.mpr ⟨trivial, fun _ => trivial⟩

theorem consumeQuotaReservation_ensures (id : ℕ) (options : QuotaOptions) :
    (consumeQuotaReservation id options).Ensures Aside fun _ => True := by
  unfold consumeQuotaReservation
  apply Async.ensures_bind.mpr
  refine (quotaTime_ensures options).mono (fun _ h => h) fun now _ => ?_
  rw [Async.ensures_bind, Async.ensures_ask]
  exact ⟨trivial, fun reply => Async.ensures_monadLift.mpr fun _ _ => trivial⟩

theorem recoverExpiredQuotaReservations_ensures (options : QuotaOptions) :
    (recoverExpiredQuotaReservations options).Ensures Aside fun _ => True := by
  unfold recoverExpiredQuotaReservations
  apply Async.ensures_bind.mpr
  refine (quotaTime_ensures options).mono (fun _ h => h) fun now _ => ?_
  rw [Async.ensures_bind, Async.ensures_ask]
  exact ⟨trivial, fun reply => Async.ensures_monadLift.mpr fun _ _ => trivial⟩

def admissionEnds (input : ReserveInput) (t : QuotaProgress) (decision : AdmissionDecision)
    (reservation : Option ℕ) : Prop :=
  decision.isAccepted = true → ∃ r, t.taken = some r ∧ Holds input r ∧ reservation = some r.id

def reserveForAdmissionEnds (input : ReserveInput) (t : QuotaProgress) :
    Except QuotaFailure (Option Reservation × AdmissionOutcome) → Prop
  | .ok (reservation, outcome) =>
    admissionEnds input t outcome.decision (reservation.map Reservation.id)
  | .error _ => True

theorem follows_withoutQuota (outcome : AdmissionOutcome) (e : QuotaFailure) :
    (withoutQuota outcome e).Follows (quotaConduct maxima) (reserveForAdmissionEnds input) s := by
  unfold withoutQuota
  split
  next status code message =>
    split
    · apply Async.follows_asking trivial
      intro reply _
      apply Async.follows_check (fun _ => trivial)
      intro _ _ haccepted
      cases haccepted
    · trivial
  · trivial

theorem follows_reserveForAdmission (hfixed : FixedMaxima maxima input)
    (outcome : AdmissionOutcome) :
    (reserveForAdmission input outcome).Follows (quotaConduct maxima)
      (reserveForAdmissionEnds input) s := by
  unfold reserveForAdmission
  rw [Async.follows_tryCatch, Async.follows_bind]
  refine (follows_reserveQuota hfixed).mono fun t r hr => ?_
  cases r with
  | error e => exact follows_withoutQuota outcome e
  | ok reserved =>
    obtain ⟨htaken, hholds⟩ := hr
    have hends : admissionEnds input t outcome.decision (some reserved.reservation.id) :=
      fun _ => ⟨reserved.reservation, htaken, hholds, rfl⟩
    rw [Async.goesOn_ok]
    split
    · exact hends
    · apply (auditQuota_ensures _).follows_bind unnoticed_aside
      · intro e
        exact follows_withoutQuota outcome e
      · intro _ _
        exact hends

theorem releaseQuotaReservation_ensures (id : ℕ) (expired audited : Bool) :
    (releaseQuotaReservation id expired audited).Ensures Aside fun _ => True := by
  unfold releaseQuotaReservation
  rw [Async.ensures_bind, Async.ensures_ask]
  refine ⟨trivial, fun reply => ?_⟩
  rw [Async.ensures_bind, Async.ensures_monadLift]
  intro updated _
  split
  · exact Async.ensures_bind.mpr ((auditQuota_ensures _).mono (fun _ h => h) fun _ _ =>
      Async.ensures_pure.mpr trivial)
  · exact Async.ensures_pure.mpr trivial

theorem recordDecision_ensures (reservation : Option Reservation) (outcome : AdmissionOutcome) :
    (recordDecision reservation outcome).Ensures Aside fun _ => True := by
  unfold recordDecision
  apply Async.ensures_bind.mpr
  apply Async.ensures_ask.mpr
  refine ⟨trivial, fun created => ?_⟩
  cases created with
  | ok => exact Async.ensures_pure.mpr trivial
  | error e =>
    cases reservation with
    | none => exact Async.ensures_throw
    | some reservation =>
      apply Async.ensures_bind.mpr
      apply Async.ensures_attempt.mpr
      refine Async.Performs.mono (releaseQuotaReservation_ensures _ _ _) fun _ _ => ?_
      exact Async.ensures_throw

theorem follows_evaluateAdmission {request : AdmissionRequest}
    (hfixed : FixedMaxima maxima request.reserve) :
    (evaluateAdmission request).Follows (quotaConduct maxima) (fun t r =>
      match r with
      | .ok result => admissionEnds request.reserve t result.outcome.decision result.quotaReservationId
      | .error _ => True) s := by
  unfold evaluateAdmission
  apply Async.follows_check (fun _ => trivial)
  intro assessed _
  rw [Async.follows_bind]
  have hreserve : (admissionReservation request assessed).Follows (quotaConduct maxima)
      (reserveForAdmissionEnds request.reserve) s := by
    unfold admissionReservation
    split
    · exact follows_reserveForAdmission hfixed assessed
    next hrejected => exact fun haccepted => absurd haccepted hrejected
  refine hreserve.mono fun t r hr => ?_
  rcases r with e | ⟨reservation, outcome⟩
  · trivial
  · rw [Async.goesOn_ok]
    apply (recordDecision_ensures reservation outcome).follows_bind unnoticed_aside
      (fun _ => trivial)
    intro _ _
    apply (auditQuota_ensures _).follows_bind unnoticed_aside (fun _ => trivial)
    intro _ _
    exact hr

end Follows

def QuotaProgress.Ends (t : QuotaProgress) : QuotaEntry → Except QuotaFailure QuotaOutcome → Prop
  | .reserveQuota input, .ok (.reserved reserved) => reserveEnds input t (.ok reserved)
  | .evaluateAdmission request, .ok (.admitted result) =>
    admissionEnds request.reserve t result.outcome.decision result.quotaReservationId
  | _, _ => True

theorem quotaProgram_follows {entry : QuotaEntry}
    (hfixed : ∀ input ∈ entry.reserveInput, FixedMaxima maxima input) :
    entry.program.Follows (quotaConduct maxima) (fun t r => t.Ends entry r) {} := by
  have haside {α : Type} {flow : QuotaFlow α} (h : flow.Ensures Aside fun _ => True)
      (wrap : α → QuotaOutcome) (hends : ∀ t r, QuotaProgress.Ends t entry r) :
      (do let result ← flow; return wrap result : QuotaFlow QuotaOutcome).Follows
        (quotaConduct maxima) (fun t r => t.Ends entry r) {} := by
    apply h.follows_bind unnoticed_aside
    · intro e
      exact hends _ _
    · intro a _
      exact hends _ _
  cases entry with
  | reserveQuota input =>
    unfold QuotaEntry.program
    rw [Async.follows_bind]
    refine (follows_reserveQuota (hfixed input rfl)).mono fun t r hr => ?_
    cases r with
    | error e => trivial
    | ok reserved => exact hr
  | evaluateAdmission request =>
    unfold QuotaEntry.program
    rw [Async.follows_bind]
    refine (follows_evaluateAdmission (hfixed request.reserve rfl)).mono fun t r hr => ?_
    cases r with
    | error e => trivial
    | ok result => exact hr
  | releaseQuotaReservation id expired audited =>
    exact haside (releaseQuotaReservation_ensures id expired audited) .updated fun _ _ => trivial
  | consumeQuotaReservation id options =>
    exact haside (consumeQuotaReservation_ensures id options) .updated fun _ _ => trivial
  | recoverExpiredQuotaReservations options =>
    exact haside (recoverExpiredQuotaReservations_ensures options) .recovered fun _ _ => trivial

variable {entries : ℕ → QuotaEntry} {calls : List (ℕ × QuotaAnswer)}

/-- A lookup by an idempotency key finds no reservation that was released or has expired. -/
def LiveTurn (w : QuotaWorld) (call : ℕ × QuotaAnswer) : Prop :=
  ∀ input, w.Next call.1 (.findReplay input) →
    ∀ r ∈ w.store.findReplay input, r.status.isActive = true

def Live (store : QuotaStore) (entries : ℕ → QuotaEntry) (calls : List (ℕ × QuotaAnswer)) : Prop :=
  Guarded (World.turn performQuota) LiveTurn (.initial store fun i => (entries i).program) calls

theorem quota_replies {w : QuotaWorld} {i : ℕ} {answer : QuotaAnswer} {op : QuotaOp}
    (hlive : LiveTurn w (i, answer)) (hnext : w.Next i op) :
    QuotaProgress.replies op (performQuota w.store op answer).1 := by
  cases op with
  | findReplay input =>
    intro r hreply
    simp only [performQuota, performQuotaAt, QuotaAnswer.available] at hreply
    split at hreply
    · cases hreply
    · have hfound : w.store.findReplay input = some r := Except.ok.inj hreply
      have hmatches := List.find?_some hfound
      simp only [decide_eq_true_eq] at hmatches
      exact ⟨hlive input hnext r hfound, hmatches.1, hmatches.2.1, hmatches.2.2⟩
  | create input tenantSlotNumber workspaceSlotNumber expiresAt =>
    intro r hreply
    simp only [performQuota, performQuotaAt, QuotaAnswer.available, QuotaStore.insert] at hreply
    split at hreply
    · cases hreply
    split at hreply
    · cases hreply
    split at hreply
    · cases hreply
    · obtain rfl := Except.ok.inj hreply
      exact ⟨rfl, rfl, rfl, rfl⟩
  | _ => trivial

theorem quota_invariant (hstore : store.WellFormed maxima)
    (hfixed : ∀ i, ∀ input ∈ (entries i).reserveInput, FixedMaxima maxima input)
    (hlive : Live store entries calls) :
    (quotaWorld store entries calls).store.WellFormed maxima ∧
      (quotaWorld store entries calls).Monitored (quotaConduct maxima) (fun _ => {})
        fun i t r => t.Ends (entries i) r := by
  have hkept : Invariant performQuota (quotaConduct maxima) (fun _ => {}) LiveTurn
      fun w : QuotaWorld => w.store.WellFormed maxima := by
    constructor
    · intro w i answer op next _ hturn hthread _
      exact quota_replies hturn ⟨next, hthread⟩
    · intro w i answer op next hw _ hthread hallowed
      rw [World.turn_perform hthread]
      apply (effect_performQuota op answer).wellFormed hw
      intro input id tenantSlotNumber workspaceSlotNumber expiresAt hop
      subst hop
      exact ⟨hallowed.1, hallowed.2⟩
  have hprograms : (World.initial store fun i => (entries i).program : QuotaWorld).Monitored
      (quotaConduct maxima) (fun _ => {}) fun i t r => t.Ends (entries i) r :=
    fun i => quotaProgram_follows (hfixed i)
  exact hkept.after hstore hprograms hlive

theorem Live.of_prefix {before : List (ℕ × QuotaAnswer)} (h : Live store entries calls)
    ( hprefix : before <+: calls) : Live store entries before := by
  obtain ⟨rest, rfl⟩ := hprefix
  exact ((guarded_append before rest).mp h).1

/-- The operation has found the reservation in the database, or has created it, in one of its
turns. -/
def TakenBy (store : QuotaStore) (entries : ℕ → QuotaEntry) (calls : List (ℕ × QuotaAnswer))
    (i : ℕ) (r : Reservation) : Prop :=
  ∃ before answer rest, calls = before ++ (i, answer) :: rest ∧
    r ∈ (quotaWorld store entries (before ++ [(i, answer)])).store.reservations

theorem taken_next {t : QuotaProgress} {op : QuotaOp} {answer : QuotaAnswer} {r : Reservation}
    (hnot : t.taken ≠ some r)
    (h : (t.next op (performQuota store op answer).1).taken = some r) :
    r ∈ (performQuota store op answer).2.reservations := by
  cases op with
  | findReplay input =>
    simp only [performQuota, performQuotaAt, QuotaAnswer.available] at h ⊢
    split
    next hunavailable =>
      rw [if_pos hunavailable] at h
      exact absurd h hnot
    next havailable =>
      rw [if_neg havailable] at h
      dsimp only at h
      cases hfound : store.findReplay input with
      | none =>
        change (t.next (.findReplay input) (.ok (store.findReplay input))).taken = some r at h
        rw [hfound] at h
        exact absurd h hnot
      | some found =>
        change (t.next (.findReplay input) (.ok (store.findReplay input))).taken = some r at h
        rw [hfound] at h
        obtain rfl := Option.some.inj h
        exact List.mem_of_find?_eq_some hfound
  | create input tenantSlotNumber workspaceSlotNumber expiresAt =>
    simp only [performQuota, performQuotaAt, QuotaAnswer.available, QuotaStore.insert] at h ⊢
    split at h
    · exact absurd h hnot
    next havailable =>
      rw [if_neg havailable]
      split at h
      · exact absurd h hnot
      · split at h
        · exact absurd h hnot
        next hfree =>
          rw [if_neg hfree]
          obtain rfl := Option.some.inj h
          exact List.mem_append_right _ (List.mem_singleton_self _)
  | _ => exact absurd h hnot

theorem takenBy_of_taken {i : ℕ} {r : Reservation}
    (h : ((quotaWorld store entries calls).states (quotaConduct maxima) (fun _ => {}) i).taken =
      some r) : TakenBy store entries calls i r := by
  have hstart : ((World.initial store fun i => (entries i).program : QuotaWorld).states
      (quotaConduct maxima) (fun _ => {}) i).taken ≠ some r := by
    intro hsome
    cases hsome
  obtain ⟨before, answer, rest, op, next, hcalls, hthread, hnot, hnow⟩ :=
    World.exists_entry (P := fun t : QuotaProgress => t.taken = some r) hstart h
  refine ⟨before, answer, rest, hcalls, ?_⟩
  have hturn : quotaWorld store entries (before ++ [(i, answer)]) =
      (quotaWorld store entries before).turn performQuota (i, answer) := after_concat _
  have hthread' : (quotaWorld store entries before).thread i = .perform op next := hthread
  rw [hturn, World.turn_perform hthread']
  exact taken_next hnot hnow

structure QuotaLaw (maxima : QuotaMaxima) (store : QuotaStore) (entries : ℕ → QuotaEntry)
    (calls : List (ℕ × QuotaAnswer)) : Prop where
  /-- The active reservations of a type are within the maximum of their organization. -/
  tenant : ∀ before organizationId reservationType, before <+: calls →
    (quotaWorld store entries before).store.reservations.countP
        (Reservation.ofTenant organizationId reservationType) ≤
      maxima.tenant organizationId reservationType
  workspace : ∀ before organizationId workspaceId reservationType, before <+: calls →
    (quotaWorld store entries before).store.reservations.countP
        (Reservation.ofWorkspace organizationId workspaceId reservationType) ≤
      maxima.workspace organizationId workspaceId reservationType
  keys : ∀ before, before <+: calls →
    ∀ a ∈ (quotaWorld store entries before).store.reservations,
    ∀ b ∈ (quotaWorld store entries before).store.reservations,
      a.organizationId = b.organizationId → a.workspaceId = b.workspaceId →
      a.idempotencyKey = b.idempotencyKey → a = b
  /-- A reservation stays, and one that is not active stays so. -/
  final : ∀ before later id stored, before <+: later → later <+: calls →
    (quotaWorld store entries before).store.find id = some stored →
    ∃ next, (quotaWorld store entries later).store.find id = some next ∧
      next = { stored with status := next.status } ∧
      (stored.status.isActive = false → next.status.isActive = false)
  /-- A reservation that is returned is an active one of the key, in slots within the maxima. -/
  reserved : ∀ i input result, entries i = .reserveQuota input →
    (quotaWorld store entries calls).Ended i (.ok (.reserved result)) →
    Holds input result.reservation ∧ result.reservation.Within maxima ∧
      TakenBy store entries calls i result.reservation
  /-- An admission that is accepted has such a reservation. -/
  accepted : ∀ i request result, entries i = .evaluateAdmission request →
    (quotaWorld store entries calls).Ended i (.ok (.admitted result)) →
    result.outcome.decision.isAccepted = true →
    ∃ r, result.quotaReservationId = some r.id ∧ Holds request.reserve r ∧ r.Within maxima ∧
      TakenBy store entries calls i r

private def someInput : ReserveInput where
  organizationId := ascii "organization"
  workspaceId := ascii "workspace"
  reservationType := ascii "queued_run"
  workloadCategory := ascii "checkpoint"
  idempotencyKey := ascii "sha256:" ++ List.replicate 64 0x61
  tenantMaximum := some (some 1)
  workspaceMaximum := some (some 1)
  expiresAt := some 1000

private def oneEach : QuotaMaxima := ⟨fun _ _ => 1, fun _ _ _ => 1⟩

private def emptyStore : QuotaStore := ⟨0, []⟩

private def replayEntries : ℕ → QuotaEntry
  | 1 => .releaseQuotaReservation 7 false false
  | _ => .reserveQuota someInput

private theorem someInput_fixed : FixedMaxima oneEach someInput where
  tenant n h := by
    cases h
    rfl
  workspace n h := by
    cases h
    rfl

private theorem replayEntries_fixed (i : ℕ) :
    ∀ input ∈ (replayEntries i).reserveInput, FixedMaxima oneEach input := by
  intro input hinput
  unfold replayEntries at hinput
  split at hinput
  · cases hinput
  · obtain rfl := Option.some.inj hinput
    exact someInput_fixed

private theorem live_turn {w : QuotaWorld} {answer : QuotaAnswer} (op : QuotaOp)
    {next : QuotaReply op → QuotaFlow QuotaOutcome} (hthread : w.thread 0 = Program.perform op next)
    (hop : ∀ input, op = .findReplay input → w.store.findReplay input = none) :
    LiveTurn w (0, answer) := by
  intro input hnext r hr
  obtain ⟨rest, hrest⟩ := hnext
  rw [hthread] at hrest
  cases hrest
  rw [hop input rfl] at hr
  cases hr

private def reserveCalls : List (ℕ × QuotaAnswer) := [(0, {}), (0, {}), (0, {}), (0, { id := 7 })]

private theorem reserveCalls_live : Live emptyStore replayEntries reserveCalls := by
  refine ⟨?_, ?_, ?_, ?_, trivial⟩
  · exact live_turn (.findReplay someInput) rfl fun _ _ => rfl
  · exact live_turn (.tenantSlots _) rfl (by simp)
  · exact live_turn (.workspaceSlots _) rfl (by simp)
  · exact live_turn (.create _ _ _ _) rfl (by simp)

private def replayCalls : List (ℕ × QuotaAnswer) :=
  [(0, {}), (0, {}), (0, {}), (0, { id := 7 }), (1, {}), (2, {})]

private theorem replay_ended : (quotaWorld emptyStore replayEntries replayCalls).Ended 2
    (.ok (.reserved ⟨{ someInput.document 7 1 1 1000 with status := .released }, true⟩)) :=
  rfl

end GhostBridge.ProductionScale

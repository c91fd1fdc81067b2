import GhostBridge.DurableWork.WorkRuns

/-!
# Fencing of work items

What holds of the work items in every order of turns: they stay sound and their versions count
their changes, leases exclude each other, and no attempt that may have been transmitted is repeated.
-/

namespace GhostBridge.DurableWork

open Ecma Machine

private def exampleEnv : Env where
  leaseMs := 3000
  heartbeatMs := 1000
  maxAttempts := 3
  deadLetterAfterAttempts := 5
  abandonedGraceMs := 1000
  workerBatchSize := 10
  maxAttempts_le := by decide
  heartbeat_le := by decide
  grace_pos := by decide

private def exampleEntries (i : ℕ) : Entry :=
  if i = 0 then
    .enqueueWork
      { identity := ⟨ascii "p", ascii "p", ascii "w", ascii "c"⟩, invocationId := ascii "i" }
      (some ⟨ascii "a", none⟩)
  else if i = 1 then .heartbeatWork (ascii "x") ⟨ascii "a", ascii "t", none⟩ none
  else .scanAbandonedWork {} none

private def exampleOptions (_ : ℕ) : Options := { outbox := false }

private theorem exampleEntries_givenNow (i : ℕ) :
    (exampleEntries i).givenNow (exampleOptions i) = none := by
  unfold exampleEntries
  split
  · rfl
  · split <;> rfl

private def exampleInvocations : OrderedMap Text Invocation :=
  OrderedMap.empty.set (ascii "i")
    { id := ascii "i"
      receivingWorkspaceId := ascii "w"
      connectionId := ascii "c"
      lifecycleState := .accepted
      stateHistory := [⟨none, .accepted, 0, none, none, none⟩]
      protectedReplayAvailable := true
      createdAt := 0 }

private abbrev exampleAfter (calls : List (ℕ × Answer)) : WorkWorld :=
  worksAfter exampleEnv exampleOptions exampleEntries 0 exampleInvocations calls

private def exampleEnqueued : List (ℕ × Answer) :=
  [(0, {}), (0, {}), (0, { text := ascii "t" }), (0, { text := ascii "x" }), (0, {})]

private def exampleReading : List (ℕ × Answer) :=
  exampleEnqueued ++ ([(1, {})] : List (ℕ × Answer))

private def exampleHeartbeat : ℕ × Answer := (1, { elapsed := 5000 })

private def exampleScan : List (ℕ × Answer) :=
  exampleEnqueued ++ ([(2, { elapsed := 9000 }), (2, {}), (2, {}), (2, {}),
    (2, { text := ascii "u" }), (2, { text := ascii "v" }), (2, {}), (2, {}), (2, {})] :
    List (ℕ × Answer))

private def exampleRelease : ℕ × Answer := (2, {})

variable (env : Env) (options : ℕ → Options) (entries : ℕ → Entry) (clock : Int)
  (invocations : OrderedMap Text Invocation)

def HoldsLease (now : Int) (work : WorkItem) (owner token : Text) : Prop :=
  work.lease.leaseOwner = some owner ∧ work.lease.leaseTokenHash = some (leaseTokenHash token) ∧
    leaseLive now work.lease = true

def KnowsToken (entries : ℕ → Entry) (w : WorkWorld) (i : ℕ) (token : Text) : Prop :=
  (∃ p, (entries i).presented = some p ∧ p.2.leaseToken = token) ∨ w.Performed i .randomToken token

theorem not_leaseLive_of_leaseFree {lease : LeaseFields} {now later : Int}
    (h : leaseFree now lease = true) (hle : now ≤ later) : leaseLive later lease = false := by
  cases hexpiry : lease.leaseExpiresAt with
  | none => simp [leaseLive, hexpiry]
  | some expiresAt =>
    have hexpired : expiresAt ≤ now := by simpa [leaseFree, hexpiry] using h
    simpa [leaseLive, hexpiry] using hexpired.trans hle

private theorem holdsLease_of_presents {w : WorkWorld} {i : ℕ} {p : Text × Ownership}
    {work : WorkItem} (hreadings : (starts options entries i).readings = [])
    (h : Presents (w.states conduct (starts options entries) i).readings p work) :
    ∃ now, w.Performed i .clock now ∧
      HoldsLease now work p.2.leaseOwner p.2.leaseToken := by
  obtain ⟨-, howner, hhash, now, hreading, hlive⟩ := h
  refine ⟨now, (performed_of_reading hreading).resolve_left ?_, howner, hhash, hlive⟩
  rw [hreadings]
  exact List.not_mem_nil

private theorem exampleHeartbeat_get : ∃ work next,
    (exampleAfter exampleReading).store.workItems.get? (ascii "x") = some work ∧
      (exampleAfter (exampleReading ++ [exampleHeartbeat])).store.workItems.get? (ascii "x") =
        some next ∧
      leaseLive 5000 work.lease = false ∧ next ≠ work := by
  have hbefore : ((exampleAfter exampleReading).store.workItems.get? (ascii "x")).map
      (fun work => (leaseLive 5000 work.lease, work.version)) = some (false, 1) := by
    decide
  have hafter : ((exampleAfter (exampleReading ++ [exampleHeartbeat])).store.workItems.get?
      (ascii "x")).map WorkItem.version = some 2 := by
    decide +kernel
  obtain ⟨work, hget, hwork⟩ := Option.map_eq_some_iff.mp hbefore
  obtain ⟨next, hnext, hversion⟩ := Option.map_eq_some_iff.mp hafter
  obtain ⟨hlive, hversion'⟩ := Prod.mk.inj hwork
  refine ⟨work, next, hget, hnext, hlive, ?_⟩
  rintro rfl
  exact absurd (hversion.symm.trans hversion') (by decide)

end GhostBridge.DurableWork

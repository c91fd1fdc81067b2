import GhostBridge.DurableWork.Updates

/-!
# Histories of invocations

Every update of an invocation appends a path of the table of transitions to its history, or leaves
its state as it is.
-/

namespace GhostBridge.DurableWork

open Ecma Machine

variable {s : Progress} {invocation : Invocation}

/-- The entries lead from one state to another. -/
def Leads : InvocationState → List HistoryEntry → InvocationState → Prop
  | fromState, [], toState => fromState = toState
  | fromState, entry :: rest, toState =>
    entry.fromState = some fromState ∧ entry.Edge ∧ Leads entry.toState rest toState

namespace LeadsTo

variable {history entries : List HistoryEntry} {state toState : InvocationState}

theorem ne_nil (h : LeadsTo history state) : history ≠ [] := by
  rintro rfl
  cases h.last

theorem concat {entry : HistoryEntry} (h : LeadsTo history state)
    (hfrom : entry.fromState = some state) (hedge : entry.Edge) :
    LeadsTo (history ++ [entry]) entry.toState where
  edges := by
    intro e he
    rcases List.mem_append.mp he with he | he
    · exact h.edges e he
    · exact List.mem_singleton.mp he ▸ hedge
  chain := by
    refine List.isChain_append.mpr ⟨h.chain, List.isChain_singleton _, ?_⟩
    intro a ha b hb
    obtain rfl := Option.some.inj hb
    have hlast := h.last
    rw [Option.mem_def.mp ha] at hlast
    exact hfrom.trans hlast.symm
  last := by rw [List.getLast?_append]; rfl

theorem append (h : LeadsTo history state) (hleads : Leads state entries toState) :
    LeadsTo (history ++ entries) toState := by
  induction entries generalizing history state with
  | nil =>
    obtain rfl : state = toState := hleads
    rwa [List.append_nil]
  | cons entry rest ih =>
    obtain ⟨hfrom, hedge, hrest⟩ := hleads
    rw [List.append_cons]
    exact ih (h.concat hfrom hedge) hrest

theorem drop (h : LeadsTo history state) {n : ℕ} (hn : n < history.length) :
    LeadsTo (history.drop n) state where
  edges entry hentry := h.edges entry (List.mem_of_mem_drop hentry)
  chain := h.chain.drop n
  last := by rw [List.getLast?_drop, if_neg (by omega), h.last]

theorem push (h : LeadsTo history state) (hleads : Leads state entries toState) :
    LeadsTo (pushHistory history entries) toState := by
  have hall := h.append hleads
  refine hall.drop ?_
  have hlength : 0 < (history ++ entries).length := List.length_pos_iff.mpr hall.ne_nil
  have hmaximum : 0 < maxInvocationStateHistory := by decide
  omega

end LeadsTo

theorem transitionHistoryEntry_ok {fromState : Option InvocationState} {toState : InvocationState}
    {options : EntryOptions} {entry : HistoryEntry}
    (h : transitionHistoryEntry fromState toState options = .ok entry) :
    entry.fromState = fromState ∧ entry.toState = toState := by
  simp only [transitionHistoryEntry, bind_ok, throwWhen_ok, exists_unit, pure_ok] at h
  obtain ⟨-, rfl⟩ := h
  exact ⟨rfl, rfl⟩

def MayFollow (fromState toState : InvocationState) : Prop :=
  canTransition fromState toState = true ∨ IsReplayOfFailure fromState toState

instance (fromState toState : InvocationState) : Decidable (MayFollow fromState toState) :=
  inferInstanceAs (Decidable (_ ∨ (_ ∧ _)))

theorem edge_of_mayFollow {entry : HistoryEntry} {fromState : InvocationState}
    (hfrom : entry.fromState = some fromState) (h : MayFollow fromState entry.toState) :
    entry.Edge := by
  intro state hstate
  obtain rfl := Option.some.inj (hfrom.symm.trans hstate)
  exact h

theorem pathEntries_leads {options : EntryOptions} {path : List InvocationState}
    {fromState : InvocationState} {entries : List HistoryEntry}
    (h : pathEntries options fromState path = .ok entries)
    (hpath : (fromState :: path).IsChain MayFollow) :
    Leads fromState entries (path.getLastD fromState) := by
  induction path generalizing fromState entries with
  | nil => cases h; rfl
  | cons toState rest ih =>
    simp only [pathEntries, bind_ok, pure_ok] at h
    obtain ⟨entry, hentry, later, hlater, rfl⟩ := h
    obtain ⟨hfrom, rfl⟩ := transitionHistoryEntry_ok hentry
    obtain ⟨hedge, hrest⟩ := List.isChain_cons_cons.mp hpath
    rw [List.getLastD_cons]
    exact ⟨hfrom, edge_of_mayFollow hfrom hedge, ih hlater hrest⟩

theorem checkedPathEntries_leads {options : EntryOptions} {path : List InvocationState}
    {fromState : InvocationState} {entries : List HistoryEntry}
    (h : checkedPathEntries options fromState path = .ok entries) :
    Leads fromState entries (path.getLastD fromState) := by
  induction path generalizing fromState entries with
  | nil => cases h; rfl
  | cons toState rest ih =>
    simp only [checkedPathEntries, bind_ok, throwWhen_ok, exists_unit, pure_ok] at h
    obtain ⟨hallowed, entry, hentry, later, hlater, rfl⟩ := h
    obtain ⟨hfrom, rfl⟩ := transitionHistoryEntry_ok hentry
    have hedge : canTransition fromState entry.toState = true := by simpa using hallowed
    rw [List.getLastD_cons]
    exact ⟨hfrom, edge_of_mayFollow hfrom (.inl hedge), ih hlater⟩

theorem checkedPathEntries_terminal {options : EntryOptions} {path : List InvocationState}
    {fromState : InvocationState} {entries : List HistoryEntry}
    (h : checkedPathEntries options fromState path = .ok entries) (hpath : path ≠ []) :
    fromState ∉ terminalInvocationStates := by
  intro hterminal
  cases path with
  | nil => exact hpath rfl
  | cons toState rest =>
    simp only [checkedPathEntries, bind_ok, throwWhen_ok, exists_unit,
      canTransition_of_terminal hterminal] at h
    exact absurd h.1 (by decide)

theorem InvocationStep.of_same {next : Invocation} (h : invocation.Historical)
    (hid : next.id = invocation.id) (hstate : next.lifecycleState = invocation.lifecycleState)
    (hhistory : next.stateHistory = invocation.stateHistory) :
    InvocationStep s invocation next where
  id_eq := hid
  historical := by rw [Invocation.Historical, hstate, hhistory]; exact h
  terminal _ hne := absurd hstate hne

theorem applyTransition_lifecycleState (toState : InvocationState) (entry : HistoryEntry)
    (outcome : Outcome) (invocation : Invocation) :
    (applyTransition toState entry outcome invocation).lifecycleState = toState ∧
      (applyTransition toState entry outcome invocation).stateHistory =
        pushHistory invocation.stateHistory [entry] ∧
      (applyTransition toState entry outcome invocation).id = invocation.id := by
  simp only [applyTransition]
  split <;> exact ⟨rfl, rfl, rfl⟩

/-- What `transitionUpdate` returns updates an invocation in the state that it is for. -/
theorem transitionUpdate_step {fromState toState : InvocationState} {options : EntryOptions}
    {outcome : Outcome} {update : Invocation → Invocation}
    (hupdate : transitionUpdate fromState toState options outcome = .ok update)
    (h : invocation.Historical) (hstate : invocation.lifecycleState = fromState) :
    InvocationStep s invocation (update invocation) := by
  simp only [transitionUpdate, assertTransition, bind_ok, throwWhen_ok, exists_unit, pure_ok]
    at hupdate
  obtain ⟨hallowed, entry, hentry, -, rfl⟩ := hupdate
  obtain ⟨hfrom, hto⟩ := transitionHistoryEntry_ok hentry
  obtain ⟨hstate', hhistory, hid⟩ :=
    applyTransition_lifecycleState toState entry outcome invocation
  have hedge : canTransition fromState entry.toState = true := by simpa [hto] using hallowed
  refine ⟨hid, ?_, fun hterminal _ => ?_⟩
  · rw [Invocation.Historical, hstate', hhistory]
    refine h.push ⟨by rw [hstate]; exact hfrom, edge_of_mayFollow hfrom (.inl hedge), hto⟩
  · rw [hstate] at hterminal
    rw [canTransition_of_terminal hterminal] at hedge
    cases hedge

theorem InvocationStep.congr {next last : Invocation} (h : InvocationStep s invocation next)
    (hid : last.id = next.id) (hstate : last.lifecycleState = next.lifecycleState)
    (hhistory : last.stateHistory = next.stateHistory) : InvocationStep s invocation last where
  id_eq := hid.trans h.id_eq
  historical := by rw [Invocation.Historical, hstate, hhistory]; exact h.historical
  terminal := by rw [hstate]; exact h.terminal

theorem replayDenial_none {work : WorkItem} {input : ReplayInput} {now : Int}
    (h : replayDenial work input now invocation = none) :
    invocation.lifecycleState ∈ safeReplayInvocationStates ∧
      (invocation.lifecycleState = .failed → invocation.retryState = .scheduled) := by
  unfold replayDenial at h
  split at h
  · cases h
  split at h
  · cases h
  next hfailed =>
    split at h
    · cases h
    split at h
    · cases h
    next hsafe =>
      simp only [Bool.or_eq_true, Bool.not_eq_true', not_or, Bool.not_eq_false,
        List.contains_iff_mem] at hsafe
      exact ⟨hsafe.2, fun hstate => not_not.mp fun hne => hfailed ⟨hstate, hne⟩⟩

theorem replayPath_isChain {state : InvocationState} (h : state ∈ safeReplayInvocationStates) :
    (state :: replayPath state).IsChain MayFollow := by
  simp only [safeReplayInvocationStates, List.mem_cons, List.not_mem_nil, or_false] at h
  rcases h with rfl | rfl | rfl | rfl | rfl | rfl | rfl | rfl <;>
    decide

theorem replayPath_getLastD (state fromState : InvocationState) :
    (replayPath state).getLastD fromState = .authorized := by
  unfold replayPath
  split <;> rfl

theorem replayUpdate_step {work : WorkItem} {input : ReplayInput} {now : Int}
    {options : EntryOptions} {entries : List HistoryEntry} {found : Invocation}
    (hfound : found ∈ s.invocations) (hdenial : replayDenial work input now found = none)
    (hentries : pathEntries options found.lifecycleState (replayPath found.lifecycleState) =
      .ok entries)
    (h : invocation.Historical) (hfilter : replayFilter work input now found invocation = true) :
    InvocationStep s invocation (replayUpdate work found.lifecycleState entries invocation) := by
  obtain ⟨hsafe, hscheduled⟩ := replayDenial_none hdenial
  simp only [replayFilter, Bool.and_eq_true, beq_iff_eq] at hfilter
  have hid : invocation.id = found.id := hfilter.1.1.1.1.1.1.1.1.1.1
  have hstate : invocation.lifecycleState = found.lifecycleState := hfilter.1.1.1.1.1.1.1.2
  have hleads := pathEntries_leads hentries (replayPath_isChain hsafe)
  rw [replayPath_getLastD] at hleads
  refine ⟨rfl, ?_, fun hterminal _ => ?_⟩
  · exact h.push (hstate ▸ hleads)
  · have hfailed : found.lifecycleState = .failed := by
      rw [hstate] at hterminal
      revert hterminal hsafe
      generalize found.lifecycleState = state
      cases state <;> decide
    exact ⟨hstate.trans hfailed, rfl, found, hfound, hid.symm, hfailed, hscheduled hfailed⟩

theorem reconciliationPath_getLastD (state toState fromState : InvocationState) :
    (reconciliationPath state toState).getLastD fromState = toState := by
  unfold reconciliationPath
  split
  · rw [List.getLastD_eq_getLast?, List.getLast?_concat, Option.getD_some]
  · split
    · next h => rw [h.2]; rfl
    · rfl

theorem reconciliationPath_ne_nil (state toState : InvocationState) :
    reconciliationPath state toState ≠ [] := by
  unfold reconciliationPath
  split
  · simp
  · split <;> simp

theorem reconciliationUpdate_step {work : WorkItem} {options : EntryOptions}
    {fromState toState : InvocationState} {entries : List HistoryEntry}
    (hentries : checkedPathEntries options fromState (reconciliationPath fromState toState) =
      .ok entries)
    (h : invocation.Historical) (hstate : invocation.lifecycleState = fromState) :
    InvocationStep s invocation (reconciliationUpdate work toState entries invocation) := by
  have hleads := checkedPathEntries_leads hentries
  rw [reconciliationPath_getLastD] at hleads
  refine ⟨rfl, h.push (hstate ▸ hleads), fun hterminal _ => ?_⟩
  exact absurd (hstate ▸ hterminal)
    (checkedPathEntries_terminal hentries (reconciliationPath_ne_nil _ _))

theorem deadLetterUpdate_step {work : WorkItem} {now : Int} {found : Invocation}
    {update : Invocation → Invocation} (hupdate : deadLetterUpdate work now found = some update)
    (h : invocation.Historical) (hstate : invocation.lifecycleState = found.lifecycleState) :
    InvocationStep s invocation (update invocation) := by
  unfold deadLetterUpdate at hupdate
  split at hupdate
  · obtain rfl := Option.some.inj hupdate
    exact .of_same h rfl rfl rfl
  · obtain ⟨transition, htransition, rfl⟩ := Option.map_eq_some_iff.mp hupdate
    refine (transitionUpdate_step (toOption_ok.mp htransition) h hstate).congr rfl rfl
      rfl

end GhostBridge.DurableWork

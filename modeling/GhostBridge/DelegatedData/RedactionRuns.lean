import GhostBridge.DelegatedData.Concealment
import GhostBridge.DelegatedData.Rules

/-!
# Runs of redactions

The rules of a contract run in their order, each on the payload that the ones before it left.
-/

namespace GhostBridge.DelegatedData

open Ecma Delegation

variable {runtime : Runtime} {payload found left later : Value} {rules between : List Value}
  {index count : Nat} {segments : List Text} {action : RedactionAction} {q : Position}

theorem runRedactions_cons {raw : Value} (h : runRedactions runtime index (raw :: rules) found = .ok (later, count)) :
    ∃ left changed rest, applyRedaction runtime raw index found = .ok (left, changed) ∧
      runRedactions runtime (index + 1) rules left = .ok (later, rest) := by
  rw [runRedactions] at h
  obtain ⟨⟨left, changed⟩, hleft, h⟩ := bind_ok.mp h
  obtain ⟨⟨last, rest⟩, hrest, h⟩ := bind_ok.mp h
  obtain rfl : last = later := congrArg Prod.fst (pure_ok.mp h)
  exact ⟨left, changed, rest, hleft, hrest⟩

theorem runRedactions_append {before after : List Value}
    (h : runRedactions runtime index (before ++ after) found = .ok (later, count)) :
    ∃ middle first rest, runRedactions runtime index before found = .ok (middle, first) ∧
      runRedactions runtime (index + before.length) after middle = .ok (later, rest) := by
  induction before generalizing index found count with
  | nil => exact ⟨found, 0, count, rfl, h⟩
  | cons raw before ih =>
    obtain ⟨left, changed, rest, hleft, hrest⟩ := runRedactions_cons h
    obtain ⟨middle, first, last, hfirst, hlast⟩ := ih hrest
    refine ⟨middle, first + changed.toNat, last, ?_, ?_⟩
    · rw [runRedactions, hleft, ok_bind]
      show (runRedactions runtime (index + 1) before left >>= _) = _
      rw [hfirst]
      rfl
    · rw [List.length_cons, ← Nat.add_assoc, Nat.add_right_comm]
      exact hlast

theorem runRedactions_preserves {P : Value → Prop}
    (hstep : ∀ raw ∈ rules, ∀ {found left : Value} {action segments}, redactionAction raw = some action →
      redactionPath raw = .ok segments → Redaction runtime raw found left action segments →
        P found → P left)
    (h : runRedactions runtime index rules found = .ok (later, count)) (hfound : P found) :
    P later := by
  induction rules generalizing index found count with
  | nil =>
    obtain rfl : found = later := congrArg Prod.fst (pure_ok.mp h)
    exact hfound
  | cons raw rules ih =>
    obtain ⟨left, changed, rest, hleft, hrest⟩ := runRedactions_cons h
    obtain ⟨action, segments, haction, hsegments, hredaction⟩ := applyRedaction_ok hleft
    apply ih (fun other hother => hstep other (List.mem_cons_of_mem raw hother)) hrest
    exact hstep raw List.mem_cons_self haction hsegments hredaction hfound

theorem uniqueKeys_runRedactions (h : runRedactions runtime index rules found = .ok (later, count))
    (hfound : found.uniqueKeys = true) : later.uniqueKeys = true :=
  runRedactions_preserves (P := fun v => v.uniqueKeys = true)
    (fun _ _ _ _ _ _ _ _ hredaction => hredaction.unique) h hfound

theorem shapeAt_runRedactions (h : runRedactions runtime index rules found = .ok (later, count))
    (haway : ∀ raw ∈ rules, ∀ segments, redactionPath raw = .ok segments →
      Position.passes q segments = false) : later.shapeAt q = found.shapeAt q :=
  runRedactions_preserves (P := fun v => v.shapeAt q = found.shapeAt q)
    (fun raw hraw _ _ _ segments _ hsegments hredaction hsame =>
      (hredaction.shapeAt_of_not_passes (haway raw hraw segments hsegments)).trans hsame) h rfl

/-- At a position there is what was written there, or nothing. -/
def Keeps (written : Option Value) (q : Position) (v : Value) : Prop :=
  v.at? q = none ∨ v.at? q = written

theorem Redaction.keeps {raw : Value} (h : Redaction runtime raw found left action segments)
    {names : List Text} (hnames : segments ≠ names) {written : Option Value}
    (hleaf : ∀ w, written = some w → w.isObjectLike = false)
    (hkeeps : Keeps written (.ofNames names) found) : Keeps written (.ofNames names) left := by
  cases hvalue : found.at? (.ofNames segments) with
  | none =>
    rw [h.absent hvalue]
    exact hkeeps
  | some value =>
    obtain ⟨next, hnext, hat, hbeside, -⟩ := h.present value hvalue
    by_cases hbelow : Position.ofNames segments <+: Position.ofNames names
    · obtain ⟨rest, hrest⟩ := hbelow
      left
      rw [← hrest, hat]
      cases next with
      | none => rfl
      | some w =>
        obtain ⟨text, rfl⟩ := redactedValue_text hnext
        cases rest with
        | nil =>
          rw [List.append_nil] at hrest
          exact absurd (Position.ofNames_injective hrest) hnames
        | cons step rest => exact Value.at?_cons_of_leaf rfl step rest
    · by_cases habove : Position.ofNames names <+: Position.ofNames segments
      · have hne : Position.ofNames names ≠ Position.ofNames segments := fun e =>
          hnames (Position.ofNames_injective e).symm
        obtain ⟨members, hmembers⟩ := at?_above hvalue habove hne
        rcases hkeeps with hnone | hwritten
        · cases hmembers.symm.trans hnone
        · cases hleaf _ (hwritten.symm.trans hmembers)
      · unfold Keeps
        rw [hbeside _ hbelow habove]
        exact hkeeps

structure Found (runtime : Runtime) (payload : Value) (rules before : List Value) (raw : Value)
    (after : List Value) (found : Value) : Prop where
  rules : rules = before ++ raw :: after
  reached : ∃ count, runRedactions runtime 0 before (copyOf payload) = .ok (found, count)

structure RedactionLaw (runtime : Runtime) (payload : Value) (rules : List Value) (result : Value) :
    Prop where
  /-- Each rule does on the payload it finds what is asked of it. -/
  rule : ∀ before raw after found left changed action segments,
    Found runtime payload rules before raw after found →
    applyRedaction runtime raw before.length found = .ok (left, changed) →
    redactionAction raw = some action → redactionPath raw = .ok segments →
    RuleLaw runtime raw found left action segments
  /-- What it concealed stays concealed until a rule writes at the same path. -/
  lasting : ∀ before raw between rest found left changed later count action segments,
    Found runtime payload rules before raw (between ++ rest) found →
    applyRedaction runtime raw before.length found = .ok (left, changed) →
    redactionAction raw = some action → redactionPath raw = .ok segments → Conceals action →
    (∀ other ∈ between, redactionPath other ≠ .ok segments) →
    runRedactions runtime (before.length + 1) between left = .ok (later, count) →
    ∀ q value, Position.spells q segments = true → found.at? q = some value →
      ¬Shows action value (later.at? q) ∧ (rest = [] → ¬Shows action value (result.at? q))
  /-- Where no rule leads, the result has what the payload has, hidden fields apart. -/
  unchanged : ∀ q, isHidden q = false →
    (∀ raw ∈ rules, ∀ segments, redactionPath raw = .ok segments →
      Position.passes q segments = false) →
    result.shapeAt q = payload.shapeAt q

def RedactionsSafe (runtime : Runtime) (payload : Value) (rules : List Value) : Prop :=
  ∀ before raw after found action segments, Found runtime payload rules before raw after found →
    redactionAction raw = some action → redactionPath raw = .ok segments →
    SafeFor runtime raw found action segments

theorem Found.leaves {before after : List Value} {raw : Value} {last : Value}
    (h : Found runtime payload rules before raw after found)
    (hrun : runRedactions runtime 0 rules (copyOf payload) = .ok (last, count)) :
    ∃ left changed, applyRedaction runtime raw before.length found = .ok (left, changed) ∧
      ∃ rest, runRedactions runtime (before.length + 1) after left = .ok (last, rest) := by
  obtain ⟨first, hfound⟩ := h.reached
  rw [h.rules] at hrun
  obtain ⟨middle, passed, rest, hbefore, hafter⟩ := runRedactions_append hrun
  obtain rfl : found = middle := congrArg Prod.fst (Except.ok.inj (hfound.symm.trans hbefore))
  rw [Nat.zero_add] at hafter
  obtain ⟨left, changed, last, hleft, hlast⟩ := runRedactions_cons hafter
  exact ⟨left, changed, hleft, last, hlast⟩

theorem keeps_runRedactions (hrun : runRedactions runtime index between left = .ok (later, count))
    (hother : ∀ other ∈ between, redactionPath other ≠ .ok segments) {written : Option Value}
    (hleaf : ∀ w, written = some w → w.isObjectLike = false)
    (hleft : left.at? (.ofNames segments) = written) :
    Keeps written (.ofNames segments) later :=
  runRedactions_preserves (P := Keeps written (.ofNames segments))
    (fun raw hraw _ _ _ _ _ hnames hredaction hkeeps =>
      hredaction.keeps (fun e => hother raw hraw (hnames.trans (congrArg Except.ok e))) hleaf hkeeps) hrun (.inr hleft)

theorem not_shows_of_keeps {value : Value} {written : Option Value}
    (hkeeps : Keeps written (.ofNames segments) later) (h : ¬Shows action value written) :
    ¬Shows action value (later.at? (.ofNames segments)) := by
  rcases hkeeps with hnone | hwritten
  · rw [hnone]
    exact id
  · rw [hwritten]
    exact h

theorem Redaction.isLeaf {raw value : Value} (h : Redaction runtime raw found left action segments)
    (hvalue : found.at? (.ofNames segments) = some value) :
    ∀ w, left.at? (.ofNames segments) = some w → w.isObjectLike = false := by
  intro w hw
  obtain ⟨written, hwritten, hat, -⟩ := h.present value hvalue
  have hroot := hat []
  rw [List.append_nil, hw] at hroot
  cases written with
  | none => cases hroot
  | some next =>
    obtain ⟨text, rfl⟩ := redactedValue_text hwritten
    obtain rfl : w = .string text := Option.some.inj hroot
    rfl

theorem keeps_copyOf (hunique : later.uniqueKeys = true) {written : Option Value}
    (hleaf : ∀ w, written = some w → w.isObjectLike = false)
    (h : Keeps written (.ofNames segments) later) :
    Keeps written (.ofNames segments) (copyOf later) := by
  unfold Keeps
  rw [at?_copyOf hunique]
  split
  · exact .inl rfl
  · rcases h with hnone | hwritten
    · rw [hnone]
      exact .inl rfl
    · rw [hwritten]
      right
      cases written with
      | none => rfl
      | some w =>
        have hw := hleaf w rfl
        cases w with
        | array items => cases hw
        | object members => cases hw
        | _ => rfl

theorem redaction_of {raw : Value} {changed : Bool}
    (h : applyRedaction runtime raw index found = .ok (left, changed))
    (haction : redactionAction raw = some action) (hsegments : redactionPath raw = .ok segments) :
    Redaction runtime raw found left action segments := by
  obtain ⟨action', segments', haction', hsegments', hredaction⟩ := applyRedaction_ok h
  obtain rfl : action' = action := Option.some.inj (haction'.symm.trans haction)
  obtain rfl : segments' = segments := Except.ok.inj (hsegments'.symm.trans hsegments)
  exact hredaction

theorem applyRedactions_ok {limits : LimitOptions} {result : Redacted}
    (h : applyRedactions runtime payload rules limits = .ok result) :
    ∃ last count, runRedactions runtime 0 rules (copyOf payload) = .ok (last, count) ∧
      result.payload = copyOf last := by
  unfold applyRedactions at h
  obtain ⟨_, -, h⟩ := bind_ok.mp h
  obtain ⟨copy, hcopy, h⟩ := bind_ok.mp h
  obtain ⟨⟨last, count⟩, hlast, h⟩ := bind_ok.mp h
  obtain ⟨copied, hcopied, h⟩ := bind_ok.mp h
  obtain rfl := pure_ok.mp h
  rw [safeClone_ok hcopy] at hlast
  exact ⟨last, count, hlast, safeClone_ok hcopied⟩

def fixedRuntime : Runtime := ⟨ascii "secret", fun _ => none⟩

def customer : PlainValue :=
  ⟨.record [("cards", .array [.record [("number", .string (ascii "4000123412341234"))]]),
    ("name", .string (ascii "Ann"))], by decide⟩

def maskName : Value :=
  .record [("action", .string (ascii "mask")), ("path", .string (ascii "name")),
    ("ruleId", .string (ascii "hideName"))]

def removeNumbers : Value :=
  .record [("action", .string (ascii "remove")), ("path", .string (ascii "cards.number")),
    ("ruleId", .string (ascii "hideNumbers"))]

def maskedCustomer : Value :=
  .record [("cards", .array [.record [("number", .string (ascii "4000123412341234"))]]),
    ("name", .string (ascii "****Ann"))]

end GhostBridge.DelegatedData

import GhostBridge.Machine.Threads

/-!
# Records that go onward

A store keeps records by their keys.
-/

namespace Machine

variable {κ ρ σ Op Answer α S : Type} {Reply : Op → Type} {R : ρ → ρ → Prop}

/-- Every record stays, in a state that comes after. -/
def Onward (R : ρ → ρ → Prop) (before after : κ → Option ρ) : Prop :=
  ∀ key stored, before key = some stored → ∃ next, after key = some next ∧ R stored next

theorem Onward.refl (hrefl : ∀ r, R r r) (records : κ → Option ρ) : Onward R records records :=
  fun _ stored h => ⟨stored, h, hrefl stored⟩

theorem Onward.trans (htrans : ∀ a b c, R a b → R b c → R a c) {a b c : κ → Option ρ}
    (hab : Onward R a b) (hbc : Onward R b c) : Onward R a c := by
  intro key stored h
  obtain ⟨next, hnext, hlater⟩ := hab key stored h
  obtain ⟨last, hlast, hlater'⟩ := hbc key next hnext
  exact ⟨last, hlast, htrans _ _ _ hlater hlater'⟩

theorem onward_update [DecidableEq κ] (hrefl : ∀ r, R r r) {records : κ → Option ρ} {key : κ}
    {record : ρ} (h : ∀ stored, records key = some stored → R stored record) :
    Onward R records (Function.update records key (some record)) := by
  intro other stored hstored
  by_cases hkey : other = key
  · subst hkey
    exact ⟨record, Function.update_self _ _ _, h stored hstored⟩
  · exact ⟨stored, (Function.update_of_ne hkey _ _).trans hstored, hrefl stored⟩

structure KeptOnward (perform : Perform σ Op Answer Reply) (records : σ → κ → Option ρ)
    (R : ρ → ρ → Prop) : Prop where
  refl : ∀ r, R r r
  trans : ∀ a b c, R a b → R b c → R a c
  perform : ∀ s op answer, Onward R (records s) (records (perform s op answer).2)

variable {perform : Perform σ Op Answer Reply} {records : σ → κ → Option ρ}

theorem KeptOnward.turn (h : KeptOnward perform records R) (world : World σ Op Reply α)
    (call : ℕ × Answer) :
    Onward R (records world.store) (records (world.turn perform call).store) := by
  rcases World.turn_cases perform world call with ⟨hsame, -⟩ | ⟨op, next, -, hturn⟩
  · rw [hsame]
    exact Onward.refl h.refl _
  · rw [hturn]
    exact h.perform world.store op call.2

theorem KeptOnward.after (h : KeptOnward perform records R) (world : World σ Op Reply α)
    (calls : List (ℕ × Answer)) :
    Onward R (records world.store) (records (Machine.after (World.turn perform) world calls).store) :=
  after_relates
    (R := fun v w : World σ Op Reply α => Onward R (records v.store) (records w.store))
    (fun _ => Onward.refl h.refl _) (fun _ _ _ => Onward.trans h.trans) h.turn

theorem KeptOnward.of_prefix (h : KeptOnward perform records R) {world : World σ Op Reply α}
    {before calls : List (ℕ × Answer)} ( hprefix : before <+: calls) {key : κ} {stored : ρ}
    (hstored : records (Machine.after (World.turn perform) world before).store key = some stored) :
    ∃ next, records (Machine.after (World.turn perform) world calls).store key = some next ∧
      R stored next := by
  obtain ⟨rest, rfl⟩ := hprefix
  rw [after_append]
  exact h.after _ rest key stored hstored

theorem KeptOnward.known {m : Monitor Op Reply S} {start : ℕ → S} {known : S → Option (κ × ρ)}
    (h : KeptOnward perform records R) (hstart : ∀ i, known (start i) = none)
    (hnext : ∀ s op store answer,
      known (m.next s op (perform store op answer).1) = known s ∨
        ∃ key r, known (m.next s op (perform store op answer).1) = some (key, r) ∧
          records (perform store op answer).2 key = some r)
    {store : σ} {thread : ℕ → Program Op Reply α} (calls : List (ℕ × Answer)) {i : ℕ} {key : κ}
    {r : ρ} (hknown : known ((Machine.after (World.turn perform) (.initial store thread)
      calls).states m start i) = some (key, r)) :
    ∃ current, records (Machine.after (World.turn perform) (.initial store thread)
      calls).store key = some current ∧ R r current := by
  induction calls using List.reverseRecOn generalizing key r with
  | nil =>
    have hnone := hstart i
    change known (start i) = _ at hknown
    rw [hnone] at hknown
    cases hknown
  | append_singleton calls call ih =>
    rw [after_concat] at hknown ⊢
    have honward := h.turn (Machine.after (World.turn perform) (.initial store thread) calls) call
    have hearlier (hold : known ((Machine.after (World.turn perform) (.initial store thread)
        calls).states m start i) = some (key, r)) :
        ∃ current, records (World.turn perform (Machine.after (World.turn perform)
          (.initial store thread) calls) call).store key = some current ∧ R r current := by
      obtain ⟨current, hcurrent, hlater⟩ := ih hold
      obtain ⟨next, hnext, hlater'⟩ := honward key current hcurrent
      exact ⟨next, hnext, h.trans _ _ _ hlater hlater'⟩
    rcases World.states_turn_cases perform
      (Machine.after (World.turn perform) (.initial store thread) calls) call m start i with
      hsame | ⟨hi, op, next, hthread, hstate⟩
    · rw [hsame] at hknown
      exact hearlier hknown
    · rw [hstate] at hknown
      rcases hnext _ op _ call.2 with hkept | ⟨key', r', hnew, hrecord⟩
      · rw [hkept] at hknown
        exact hearlier hknown
      · rw [hnew] at hknown
        cases hknown
        have hturn : (World.turn perform (Machine.after (World.turn perform)
            (.initial store thread) calls) call).store =
              (perform (Machine.after (World.turn perform) (.initial store thread) calls).store op
                call.2).2 := by
          obtain ⟨j, answer⟩ := call
          obtain rfl : j = i := hi
          rw [World.turn_perform hthread]
        rw [hturn]
        exact ⟨r, hrecord, h.refl r⟩

end Machine

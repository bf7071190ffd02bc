import Mathlib.Data.List.Perm.Basic
import MadoPilot.Diagnostic.Stream

/-!
# What a step of the diagnostic stream can do

* `Moves` : the steps, each with what it requires and leaves, and `perform_moves`;
* `insert_counts`, `insert_records` : what an emission does behind the mutex;
* `deliver_batch`, `deliver_empty` : what a drain hands out.
-/

namespace MadoPilot.Diagnostic

open MadoPilot.Core MadoPilot.Lib

variable {π : Type}

/-! ### Behind the mutex -/

namespace StreamState

variable {s s' : StreamState π} {capacity : ℕ} {level : DiagnosticLevel} {observed : π}

def retained (s : StreamState π) (level : DiagnosticLevel) : ℕ := s.records.countP (·.level == level)

theorem remove_counts {index : ℕ} (h : s.remove index = some s')
    (hroom : ∀ level, s.losses.get level < u64Max) {other : DiagnosticLevel} (hother : other ≠ .off) :
    s'.retained other + s'.losses.get other = s.retained other + s.losses.get other := by
  obtain ⟨removed, hremoved, rfl⟩ := Option.map_eq_some_iff.mp h
  obtain ⟨hindex, rfl⟩ := List.getElem?_eq_some_iff.mp hremoved
  have hcount := (List.getElem_cons_eraseIdx_perm hindex).countP_eq (·.level == other)
  rw [List.countP_cons] at hcount
  unfold retained
  dsimp only
  rw [DiagnosticLosses.increment_eq_succ (hroom _), DiagnosticLosses.succ_get, ← hcount]
  by_cases hlevel : s.records[index].level = other
  · have henabled : s.records[index].level ≠ .off := by
      rw [hlevel]
      exact hother
    rw [if_pos ⟨hlevel, henabled⟩, if_pos (by simpa using hlevel)]
    omega
  · rw [if_neg fun h => hlevel h.1, if_neg (by simpa using hlevel)]
    omega

theorem remove_records {index : ℕ} (h : s.remove index = some s') :
    s'.records.Sublist s.records ∧ s'.nextRecord = s.nextRecord ∧ s'.sealed = s.sealed := by
  obtain ⟨removed, -, rfl⟩ := Option.map_eq_some_iff.mp h
  exact ⟨List.eraseIdx_sublist _ _, rfl, rfl⟩

theorem append_counts (hnext : s.nextRecord ≠ 0) {other : DiagnosticLevel} (hother : other ≠ .off) :
    (s.append level observed).retained other + (s.append level observed).losses.get other =
      s.retained other + s.losses.get other + if level = other ∧ level ≠ .off then 1 else 0 := by
  unfold append retained
  rw [if_neg hnext]
  dsimp only
  rw [List.countP_append, List.countP_singleton]
  by_cases hlevel : level = other
  · rw [if_pos (by simpa using hlevel), if_pos ⟨hlevel, by rw [hlevel]; exact hother⟩]
    omega
  · rw [if_neg (by simpa using hlevel), if_neg fun h => hlevel h.1]
    omega

theorem insert_counts (h : s.insert capacity level observed = some s') (hnext : s.nextRecord ≠ 0)
    (hroom : ∀ level, s.losses.get level < u64Max) {other : DiagnosticLevel} (hother : other ≠ .off) :
    s'.retained other + s'.losses.get other =
      s.retained other + s.losses.get other + if level = other ∧ level ≠ .off then 1 else 0 := by
  have hreplaced : ∀ index, (s.remove index).map (·.append level observed) = some s' →
      s'.retained other + s'.losses.get other =
        s.retained other + s.losses.get other + if level = other ∧ level ≠ .off then 1 else 0 := by
    intro index hmap
    obtain ⟨removed, hremove, rfl⟩ := Option.map_eq_some_iff.mp hmap
    have hkept := (remove_records hremove).2.1
    rw [append_counts (by rw [hkept]; exact hnext) hother, remove_counts hremove hroom hother]
  unfold insert at h
  split at h
  · split at h
    · exact hreplaced _ h
    · exact hreplaced _ h
    · obtain rfl := Option.some.inj h
      show s.retained other + (s.losses.increment .debug).get other = _
      rw [DiagnosticLosses.increment_eq_succ (hroom _), DiagnosticLosses.succ_get, Nat.add_assoc]
    · obtain rfl := Option.some.inj h
      simp
  · obtain rfl := Option.some.inj h
    exact append_counts hnext hother

theorem insert_records (h : s.insert capacity level observed = some s') :
    s'.sealed = s.sealed ∧ ∃ kept, kept.Sublist s.records ∧
      (s'.records = kept ∧ s'.nextRecord = s.nextRecord ∨
        s.nextRecord ≠ 0 ∧ s'.records = kept ++ [⟨s.nextRecord, level, observed⟩] ∧
          s'.nextRecord = (checkedAdd u64Max s.nextRecord 1).getD 0) := by
  have happend : ∀ t : StreamState π, t.records.Sublist s.records → t.nextRecord = s.nextRecord →
      t.sealed = s.sealed → t.append level observed = s' →
      s'.sealed = s.sealed ∧ ∃ kept, kept.Sublist s.records ∧
        (s'.records = kept ∧ s'.nextRecord = s.nextRecord ∨
          s.nextRecord ≠ 0 ∧ s'.records = kept ++ [⟨s.nextRecord, level, observed⟩] ∧
            s'.nextRecord = (checkedAdd u64Max s.nextRecord 1).getD 0) := by
    intro t hsub hnext hsealed hs'
    subst hs'
    unfold append
    rw [hnext]
    split_ifs with hzero
    · exact ⟨hsealed, t.records, hsub, Or.inl ⟨rfl, rfl⟩⟩
    · exact ⟨hsealed, t.records, hsub, Or.inr ⟨hzero, rfl, rfl⟩⟩
  have hreplaced : ∀ index, (s.remove index).map (·.append level observed) = some s' →
      s'.sealed = s.sealed ∧ ∃ kept, kept.Sublist s.records ∧
        (s'.records = kept ∧ s'.nextRecord = s.nextRecord ∨
          s.nextRecord ≠ 0 ∧ s'.records = kept ++ [⟨s.nextRecord, level, observed⟩] ∧
            s'.nextRecord = (checkedAdd u64Max s.nextRecord 1).getD 0) := by
    intro index hmap
    obtain ⟨removed, hremove, hs'⟩ := Option.map_eq_some_iff.mp hmap
    obtain ⟨hsub, hnext, hsealed⟩ := remove_records hremove
    exact happend removed hsub hnext hsealed hs'
  unfold insert at h
  split at h
  · split at h
    · exact hreplaced _ h
    · exact hreplaced _ h
    · obtain rfl := Option.some.inj h
      exact ⟨rfl, s.records, List.Sublist.refl _, Or.inl ⟨rfl, rfl⟩⟩
    · obtain rfl := Option.some.inj h
      exact ⟨rfl, s.records, List.Sublist.refl _, Or.inl ⟨rfl, rfl⟩⟩
  · exact happend s (List.Sublist.refl _) rfl rfl (Option.some.inj h)

theorem deliver_empty {taken : DiagnosticLosses} (hrecords : s.records = [])
    (hlosses : (s.losses.saturatingSum taken).isEmpty = true) :
    s.deliver taken = (s, if s.sealed then .endOfStream else .openEmpty) := by
  unfold deliver
  simp [hrecords, hlosses]

theorem deliver_batch {taken : DiagnosticLosses}
    (h : ¬ (s.records = [] ∧ (s.losses.saturatingSum taken).isEmpty = true)) :
    s.deliver taken = ({ s with records := [], losses := .none },
      .batch s.records (s.losses.saturatingSum taken)) := by
  unfold deliver
  dsimp only
  rw [if_neg]
  rw [Bool.and_eq_true, List.isEmpty_iff]
  exact h

theorem deliver_counts {taken : DiagnosticLosses} {other : DiagnosticLevel}
    (hroom : s.losses.get other + taken.get other ≤ u64Max) :
    (s.deliver taken).1.retained other + (s.deliver taken).1.losses.get other +
        (s.deliver taken).2.records.countP (·.level == other) + (s.deliver taken).2.losses.get other =
      s.retained other + s.losses.get other + taken.get other := by
  have hsum := DiagnosticLosses.saturatingSum_get hroom
  by_cases hempty : s.records = [] ∧ (s.losses.saturatingSum taken).isEmpty = true
  · have hzero := DiagnosticLosses.isEmpty_get other hempty.2
    rw [hsum] at hzero
    have hnothing : ∀ sealed : Bool,
        (if sealed then .endOfStream else .openEmpty : DiagnosticDrain π).records = [] ∧
          (if sealed then .endOfStream else .openEmpty : DiagnosticDrain π).losses = .none := by
      intro sealed
      cases sealed <;> exact ⟨rfl, rfl⟩
    obtain ⟨hrecords, hlosses⟩ := hnothing s.sealed
    rw [deliver_empty hempty.1 hempty.2]
    dsimp only
    rw [hrecords, hlosses, List.countP_nil, DiagnosticLosses.none_get]
    omega
  · rw [deliver_batch hempty]
    show ([] : List (DiagnosticRecord π)).countP _ + DiagnosticLosses.none.get other + s.retained other +
      (s.losses.saturatingSum taken).get other = _
    rw [hsum, DiagnosticLosses.none_get, List.countP_nil]
    omega

end StreamState

/-! ### Steps -/

def Critical.Begins : Critical π → Prop
  | .emitting .. | .draining | .sealing => True
  | _ => False

namespace DiagnosticStream

/-- A step, with what it requires and leaves. -/
inductive Moves (o : DiagnosticOptions) (s : DiagnosticStream π) : DiagnosticStream π → Prop
  | waits (contended : DiagnosticLosses) : Moves o s { s with contended := contended }
  | locks (c : Critical π) (hfree : s.critical = none) (hbegins : c.Begins) :
    Moves o s { s with critical := some c }
  | refuses (level : DiagnosticLevel) (observed : π)
    (hcritical : s.critical = some (.emitting level observed)) (hsealed : s.state.sealed = true) :
    Moves o s { s with critical := none, book := s.note level true }
  | inserts (level : DiagnosticLevel) (observed : π) (state : StreamState π)
    (hcritical : s.critical = some (.emitting level observed)) (hopen : s.state.sealed = false)
    (hinsert : s.state.insert o.capacity level observed = some state) :
    Moves o s { s with state := state, critical := none, book := s.note level false }
  | counts (level : DiagnosticLevel) (contended : DiagnosticLosses) :
    Moves o s { s.countLoss level with contended := contended }
  | takesNormal (hcritical : s.critical = some .draining) :
    Moves o s { s with
      pendingNormal := s.pendingNormal &&& lossAdmissionSealed
      critical := some (.takenNormal (s.pendingNormal &&& pendingLossMask)) }
  | takesDebug (normal : ℕ) (hcritical : s.critical = some (.takenNormal normal)) :
    Moves o s { s with
      pendingDebug := s.pendingDebug &&& lossAdmissionSealed
      critical := some (.takenBoth ⟨normal, s.pendingDebug &&& pendingLossMask⟩) }
  | delivers (taken : DiagnosticLosses) (hcritical : s.critical = some (.takenBoth taken)) :
    Moves o s { s with
      state := (s.state.deliver taken).1
      critical := none
      book := { s.book with drains := s.book.drains ++ [(s.state.deliver taken).2] } }
  | fencesNormal (hcritical : s.critical = some .sealing) :
    Moves o s { s with
      pendingNormal := s.pendingNormal ||| lossAdmissionSealed
      critical := some .fencedNormal }
  | fencesDebug (hcritical : s.critical = some .fencedNormal) :
    Moves o s { s with
      pendingDebug := s.pendingDebug ||| lossAdmissionSealed
      critical := some .fencedBoth }
  | seals (hcritical : s.critical = some .fencedBoth) :
    Moves o s { s with state := { s.state with sealed := true }, critical := none }

theorem perform_moves {o : DiagnosticOptions} {s s' : DiagnosticStream π} {e : StreamEvent π}
    (h : s.perform o e = some s') : Moves o s s' := by
  unfold perform at h
  cases e with
  | emit level observed contended =>
    dsimp only at h
    split at h
    · obtain rfl := Option.some.inj h
      exact .waits s.contended
    · split at h
      · obtain rfl := Option.some.inj h
        exact .waits _
      · split at h
        · rename_i hfree
          obtain rfl := Option.some.inj h
          exact .locks _ hfree trivial
        · cases h
  | insert =>
    dsimp only at h
    split at h
    · rename_i level observed hcritical
      split at h
      · rename_i hsealed
        obtain rfl := Option.some.inj h
        exact .refuses level observed hcritical hsealed
      · rename_i hopen
        obtain ⟨state, hinsert, rfl⟩ := Option.map_eq_some_iff.mp h
        exact .inserts level observed state hcritical (Bool.eq_false_of_not_eq_true hopen) hinsert
    · cases h
  | countLoss level =>
    cases level with
    | off => cases h
    | normal =>
      dsimp only at h
      split at h
      · obtain rfl := Option.some.inj h
        exact .counts .normal _
      · cases h
    | debug =>
      dsimp only at h
      split at h
      · obtain rfl := Option.some.inj h
        exact .counts .debug _
      · cases h
  | normalLoss =>
    obtain rfl := Option.some.inj h
    exact .counts .normal s.contended
  | lockDrain =>
    dsimp only at h
    split at h
    · rename_i hfree
      obtain rfl := Option.some.inj h
      exact .locks _ hfree trivial
    · cases h
  | takeNormal =>
    dsimp only at h
    split at h
    · rename_i hcritical
      obtain rfl := Option.some.inj h
      exact .takesNormal hcritical
    · cases h
  | takeDebug =>
    dsimp only at h
    split at h
    · rename_i normal hcritical
      obtain rfl := Option.some.inj h
      exact .takesDebug normal hcritical
    · cases h
  | deliver =>
    dsimp only at h
    split at h
    · rename_i taken hcritical
      obtain rfl := Option.some.inj h
      exact .delivers taken hcritical
    · cases h
  | lockSeal =>
    dsimp only at h
    split at h
    · rename_i hfree
      obtain rfl := Option.some.inj h
      exact .locks _ hfree trivial
    · cases h
  | fenceNormal =>
    dsimp only at h
    split at h
    · rename_i hcritical
      obtain rfl := Option.some.inj h
      exact .fencesNormal hcritical
    · cases h
  | fenceDebug =>
    dsimp only at h
    split at h
    · rename_i hcritical
      obtain rfl := Option.some.inj h
      exact .fencesDebug hcritical
    · cases h
  | publishSeal =>
    dsimp only at h
    split at h
    · rename_i hcritical
      obtain rfl := Option.some.inj h
      exact .seals hcritical
    · cases h

end DiagnosticStream

end MadoPilot.Diagnostic

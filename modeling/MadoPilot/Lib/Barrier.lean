import MadoPilot.Lib.Census

/-!
# A stage that many share and one excludes

Any number of threads pass through a shared stage, counted by a counter.  One thread at a time owns a
lease, which it enters at a stage that excludes the shared one and may keep after it has left that
stage.  To get there a turn is taken: while the turn stands nobody enters the shared stage, and the
lease is granted once the counter is down to zero.

`Barrier` is the data the threads share, `Place` where one of them stands, and `Barrier.Move` what it
may do.  `Barrier.Fits` says that the data describe the places; every move keeps it.
-/

namespace MadoPilot.Lib

variable {τ : Type*}

/-- The counter of the shared stage, the turn, the flag of the excluding stage and the owner. -/
structure Barrier (τ : Type*) where
  shared : ℕ
  turn : Bool
  excluding : Bool
  owner : Option τ

/-- Where a thread stands. -/
inductive Place where
  | outside | sharing | excluding | owning
  deriving DecidableEq

def Place.Leased (p : Place) : Prop := p = .excluding ∨ p = .owning

namespace Barrier

inductive Move (t : τ) : Barrier τ → Place → Barrier τ → Place → Prop
  | stay (b : Barrier τ) (p : Place) : Move t b p b p
  | turn {b : Barrier τ} (p : Place) (on : Bool) :
      b.owner = none → Move t b p { b with turn := on } p
  | enter {b : Barrier τ} :
      b.turn = false → b.excluding = false →
      Move t b .outside { b with shared := b.shared + 1 } .sharing
  | leave (b : Barrier τ) : Move t b .sharing { b with shared := b.shared - 1 } .outside
  | grant {b : Barrier τ} :
      b.owner = none → b.shared = 0 →
      Move t b .outside { b with turn := false, excluding := true, owner := some t } .excluding
  | prepared (b : Barrier τ) : Move t b .excluding { b with excluding := false } .owning
  | drop {b : Barrier τ} {p : Place} :
      p.Leased → Move t b p { b with excluding := false, owner := none } .outside

structure Fits (b : Barrier τ) (place : τ → Place) : Prop where
  owner : ∀ t, b.owner = some t ↔ (place t).Leased
  excluding : b.excluding = true ↔ ∃ t, place t = .excluding
  shared : Census (fun t => place t = .sharing) b.shared
  apart : b.excluding = true → b.shared = 0
  turn : b.owner ≠ none → b.turn = false

namespace Fits

variable {b b' : Barrier τ} {place : τ → Place} {t u : τ}

/-! ### What the data say -/

theorem unique (h : b.Fits place) (ht : (place t).Leased) (hu : (place u).Leased) : t = u := by
  have h₁ := (h.owner t).mpr ht
  have h₂ := (h.owner u).mpr hu
  exact Option.some.inj (h₁.symm.trans h₂)

theorem owner_none_iff (h : b.Fits place) : b.owner = none ↔ ∀ t, ¬ (place t).Leased := by
  constructor
  · intro hn t ht
    have hs := (h.owner t).mpr ht
    rw [hn] at hs
    cases hs
  · intro hall
    cases ho : b.owner with
    | none => rfl
    | some t => exact absurd ((h.owner t).mp ho) (hall t)

theorem exclusive (h : b.Fits place) (ht : place t = .excluding) : place u ≠ .sharing := by
  intro hu
  have hzero := h.apart (h.excluding.mpr ⟨t, ht⟩)
  have hpos := h.shared.pos hu
  omega

theorem shared_pos (h : b.Fits place) (ht : place t = .sharing) : 0 < b.shared := h.shared.pos ht

theorem start : Fits (⟨0, false, false, none⟩ : Barrier τ) fun _ => .outside := by
  refine ⟨fun t => ?_, ?_, Census.zero fun t => ?_, fun h => ?_, fun h => ?_⟩
  · simp [Place.Leased]
  · simp
  · simp
  · cases h
  · exact absurd rfl h

/-! ### What the moves keep -/

variable [DecidableEq τ] {p : Place}

theorem enter (h : b.Fits place) (hp : place t = .outside) (hx : b.excluding = false) :
    ({ b with shared := b.shared + 1 } : Barrier τ).Fits (Function.update place t .sharing) := by
  refine ⟨fun u => ?_, ?_, ?_, fun hx' => ?_, h.turn⟩
  · by_cases hu : u = t
    · subst hu
      have hnot := h.owner u
      simp only [hp, Place.Leased, reduceCtorEq, or_self, iff_false] at hnot
      simpa [Place.Leased] using hnot
    · simpa [hu] using h.owner u
  · constructor
    · intro hx'
      rw [hx] at hx'
      cases hx'
    · rintro ⟨u, hu⟩
      by_cases hut : u = t
      · subst hut
        simp at hu
      · refine h.excluding.mpr ⟨u, ?_⟩
        simpa [hut] using hu
  · exact h.shared.enter (P := fun q => q = Place.sharing) (f := place) (by simp [hp]) rfl
  · rw [hx] at hx'
    cases hx'

theorem leave (h : b.Fits place) (hp : place t = .sharing) :
    ({ b with shared := b.shared - 1 } : Barrier τ).Fits (Function.update place t .outside) := by
  have hpos := h.shared_pos hp
  refine ⟨fun u => ?_, ?_, ?_, fun hx => ?_, h.turn⟩
  · by_cases hu : u = t
    · subst hu
      have hnot := h.owner u
      simp only [hp, Place.Leased, reduceCtorEq, or_self, iff_false] at hnot
      simpa [Place.Leased] using hnot
    · simpa [hu] using h.owner u
  · have hnone : b.excluding = true → False := fun hx => by
      have := h.apart hx
      omega
    constructor
    · intro hx
      exact (hnone hx).elim
    · rintro ⟨u, hu⟩
      by_cases hut : u = t
      · subst hut
        simp at hu
      · exact (hnone (h.excluding.mpr ⟨u, by simpa [hut] using hu⟩)).elim
  · exact h.shared.leave (P := fun q => q = Place.sharing) (f := place) hp (by simp)
  · have hzero := h.apart hx
    simp [hzero]

theorem grant (h : b.Fits place) (hp : place t = .outside) (ho : b.owner = none)
    (hzero : b.shared = 0) :
    ({ b with turn := false, excluding := true, owner := some t } : Barrier τ).Fits
      (Function.update place t .excluding) := by
  have hfree := h.owner_none_iff.mp ho
  refine ⟨fun u => ?_, iff_of_true rfl ⟨t, by simp⟩, ?_, fun _ => hzero, fun _ => rfl⟩
  · by_cases hu : u = t
    · subst hu
      simp [Place.Leased]
    · simpa [hu, Ne.symm hu] using hfree u
  · exact h.shared.stay (P := fun q => q = Place.sharing) (f := place) (by simp [hp])

theorem prepared (h : b.Fits place) (hp : place t = .excluding) :
    ({ b with excluding := false } : Barrier τ).Fits (Function.update place t .owning) := by
  have ht : (place t).Leased := Or.inl hp
  refine ⟨fun u => ?_, iff_of_false (by simp) ?_, ?_, fun hx => (by cases hx), h.turn⟩
  · by_cases hu : u = t
    · subst hu
      simpa [Place.Leased] using (h.owner u).mpr ht
    · simpa [hu] using h.owner u
  · rintro ⟨u, hu⟩
    by_cases hut : u = t
    · subst hut
      simp at hu
    · exact hut (h.unique (Or.inl (by simpa [hut] using hu)) ht)
  · exact h.shared.stay (P := fun q => q = Place.sharing) (f := place) (by simp [hp])

theorem drop (h : b.Fits place) (ht : (place t).Leased) :
    ({ b with excluding := false, owner := none } : Barrier τ).Fits
      (Function.update place t .outside) := by
  have hother : ∀ u, u ≠ t → ¬ (place u).Leased := fun u hu hl => hu (h.unique hl ht)
  refine ⟨fun u => ?_, iff_of_false (by simp) ?_, ?_, fun hx => (by cases hx), fun hn =>
    absurd rfl hn⟩
  · by_cases hu : u = t
    · subst hu
      simp [Place.Leased]
    · simpa [hu] using hother u hu
  · rintro ⟨u, hu⟩
    by_cases hut : u = t
    · subst hut
      simp at hu
    · exact hother u hut (Or.inl (by simpa [hut] using hu))
  · refine h.shared.stay (P := fun q => q = Place.sharing) (f := place) ?_
    rcases ht with hp | hp <;> simp [hp]

theorem move (h : b.Fits place) (hm : Move t b (place t) b' p) :
    b'.Fits (Function.update place t p) := by
  generalize hq : place t = q at hm
  cases hm with
  | stay =>
    rw [← hq, Function.update_eq_self]
    exact h
  | turn _ on ho =>
    rw [← hq, Function.update_eq_self]
    exact ⟨h.owner, h.excluding, h.shared, h.apart, fun hn => absurd ho hn⟩
  | enter _ hx => exact h.enter hq hx
  | leave => exact h.leave hq
  | grant ho hzero => exact h.grant hq ho hzero
  | prepared => exact h.prepared hq
  | drop hl => exact h.drop (hq ▸ hl)

end Fits

end Barrier

end MadoPilot.Lib

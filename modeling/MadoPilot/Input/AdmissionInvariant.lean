import MadoPilot.Lib.Census
import MadoPilot.Input.Admission

/-!
# The invariant of the admission gate

What a thread's innermost live call contributes to the gate is its `Role`, and `Effect` is
everything a step can do to the gate and to the role of the thread that takes it.  The invariant
counts the roles: the waiters and the pending admissions are the threads in these roles, the
entering list is duplicate-free and holds exactly the registered threads, and the gate is busy
exactly when one guard is alive.

* `GateAct.effect` : the steps, as effects on roles;
* `gateInv_reachable` : the invariant holds in every reachable world.
-/

namespace MadoPilot.Input

open MadoPilot.Core MadoPilot.Lib

/-! ### Roles -/

/-- What a live call contributes to the gate. -/
inductive Role where
  /-- no entry is registered and no guard is held back -/
  | outside
  /-- `admit`, registered -/
  | entering
  /-- `admit`, registered and counted as a waiter -/
  | waiting
  /-- `admit`, holding a guard it has not returned -/
  | claiming
  /-- `drain`, registered -/
  | draining
  deriving DecidableEq

namespace Role

def Registered (r : Role) : Prop := r = entering ∨ r = waiting ∨ r = draining

def Admitting (r : Role) : Prop := r = entering ∨ r = waiting

instance (r : Role) : Decidable r.Registered := by unfold Registered; infer_instance

instance (r : Role) : Decidable r.Admitting := by unfold Admitting; infer_instance

end Role

def Point.role : Point → Role
  | admitEntry | drainEntry => .outside
  | admitContext | admitLoop _ | admitWoken _ | admitFailing _ => .entering
  | admitWaiting _ => .waiting
  | admitCommit _ | admitReleasing _ => .claiming
  | drainClose | drainContext | drainLoop _ | drainDone _ | drainCommit _ | drainFinal
  | drainWaiting _ | drainWoken _ | drainReturning _ => .draining

/-- The role of a thread: that of its innermost call that has one. -/
def role : List Point → Role
  | [] => .outside
  | p :: k => if p.role = .outside then role k else p.role

/-- A thread is inside one call, and inside a second one only at that call's first section. -/
def Shape : List Point → Prop
  | [] | [_] => True
  | [e, p] => e.role = .outside ∧ p.role ≠ .outside
  | _ => False

theorem role_cons {p : Point} {k : List Point} (h : p.role ≠ .outside) : role (p :: k) = p.role :=
  if_neg h

theorem Shape.eq_nil {p : Point} {k : List Point} (h : Shape (p :: k)) (hp : p.role ≠ .outside) :
    k = [] := by
  match k with
  | [] => rfl
  | [q] => exact absurd h.1 hp
  | _ :: _ :: _ => exact h.elim

theorem Shape.eq_nil_of_role {p : Point} {k : List Point} (h : Shape (p :: k))
    (hk : role k = .outside) : k = [] := by
  match k with
  | [] => rfl
  | [q] => exact absurd hk (by rw [role_cons h.2]; exact h.2)
  | _ :: _ :: _ => exact h.elim

theorem Shape.tail {p : Point} {k : List Point} (h : Shape (p :: k)) : Shape k := by
  match k with
  | [] | [_] => trivial
  | _ :: _ :: _ => exact h.elim

theorem Shape.push {e : Point} {k : List Point} (h : Shape k) (hk : runsOwnCode k = true)
    (he : e.role = .outside) : Shape (e :: k) := by
  match k with
  | [] => trivial
  | [p] => exact ⟨he, by cases p <;> simp_all [runsOwnCode, Point.callsOut, Point.role]⟩
  | [p, q] =>
    have hp := h.1
    cases p <;> simp_all [runsOwnCode, Point.callsOut, Point.role]
  | _ :: _ :: _ :: _ => exact h.elim

/-! ### What a step does -/

section Effects

variable {τ : Type*}

namespace AdmissionState

variable [DecidableEq τ] {s s' : AdmissionState τ} {t : τ} {b : Bool}

theorem reentrant_eq_true : s.reentrant t = true ↔ s.owner = some t ∨ t ∈ s.entering := by
  simp [reentrant]

theorem reentrant_eq_false : s.reentrant t = false ↔ s.owner ≠ some t ∧ t ∉ s.entering := by
  simp [reentrant]

theorem unregister_eq_some (h : s.unregister t b = some s') :
    s'.entering.Perm (s.entering.erase t) ∧
      s'.pendingAdmissions = s.pendingAdmissions - (if b then 1 else 0) ∧ s'.busy = s.busy ∧
      s'.owner = s.owner ∧ s'.waiters = s.waiters ∧ s'.lifecycle = s.lifecycle := by
  unfold unregister at h
  cases hi : s.entering.idxOf? t with
  | none => simp [hi] at h
  | some index =>
    have hperm := swapRemove_idxOf hi
    simp only [hi] at h
    split_ifs at h with hb h0
    · cases h
      exact ⟨hperm, by simp [hb], rfl, rfl, rfl, rfl⟩
    · cases h
      exact ⟨hperm, by simp [hb], rfl, rfl, rfl, rfl⟩

theorem unregister_ne_none (ht : t ∈ s.entering) (hb : b = true → 0 < s.pendingAdmissions) :
    s.unregister t b ≠ none := by
  unfold unregister
  cases hi : s.entering.idxOf? t with
  | none => exact absurd ht (List.idxOf?_eq_none_iff.1 hi)
  | some index =>
    simp only
    split_ifs with h₁ h₀
    · exact absurd h₀ (hb h₁).ne'
    · simp
    · simp

end AdmissionState

def AdmissionState.Idle (s : AdmissionState τ) : Prop :=
  s.busy = false ∧ s.waiters = 0 ∧ s.pendingAdmissions = 0

/-- What a step does to the gate, and to the role of the thread that takes it. -/
inductive Effect [DecidableEq τ] (t : τ) (s : Gate τ) : Role → Gate τ → Role → Prop
  | stays (r : Role) : Effect t s r s r
  | admits : s.state.reentrant t = false → s.state.lifecycle = .opened →
      Effect t s .outside (s.set { s.state with
        entering := s.state.entering ++ [t]
        pendingAdmissions := s.state.pendingAdmissions + 1 }) .entering
  | drains : s.state.reentrant t = false →
      Effect t s .outside (s.set { s.state with entering := s.state.entering ++ [t] }) .draining
  | waits : s.state.lifecycle = .opened → s.state.busy = true →
      Effect t s .entering (s.set { s.state with waiters := s.state.waiters + 1 }) .waiting
  | wakes : Effect t s .waiting (s.set { s.state with waiters := s.state.waiters - 1 }) .entering
  | claims {state : AdmissionState τ} : s.state.lifecycle = .opened → s.state.busy = false →
      s.state.unregister t true = some state → Effect t s .entering (s.claim t state) .claiming
  | gives : Effect t s .claiming (s.pass t none (some t)) .outside
  | releases : Effect t s .claiming (s.release ⟨t, none⟩) .outside
  | fails {state : AdmissionState τ} : s.state.unregister t true = some state →
      Effect t s .entering (s.set state) .outside
  | leaves {state : AdmissionState τ} : s.state.unregister t false = some state →
      Effect t s .draining (s.set state) .outside
  | closes (r : Role) :
      Effect t s r (s.set { s.state with lifecycle := s.state.lifecycle.beginClose }) r
  | finishes : s.state.Idle →
      Effect t s .draining (s.set { s.state with lifecycle := .closed }) .draining
  | drops (r : Role) {owner : τ} : ⟨owner, some t⟩ ∈ s.guards →
      Effect t s r (s.release ⟨owner, some t⟩) r
  | moves (r : Role) {owner u : τ} : ⟨owner, some t⟩ ∈ s.guards →
      Effect t s r (s.pass owner (some t) (some u)) r

def Draining (s : AdmissionState τ) : Point → Prop
  | .drainContext | .drainLoop _ | .drainWaiting _ | .drainWoken _ => s.lifecycle ≠ .opened
  | .drainDone _ => s.lifecycle = .closed
  | .drainCommit _ | .drainFinal => s.lifecycle ≠ .opened ∧ s.Idle
  | .drainReturning (.ok ()) => s.lifecycle = .closed
  | _ => True

/-- What the gate keeps about the thread `t`, whose stack is `k`. -/
structure Local (s : Gate τ) (t : τ) (k : List Point) : Prop where
  shape : Shape k
  entering : t ∈ s.state.entering ↔ (role k).Registered
  claiming : role k = .claiming ↔ ⟨t, none⟩ ∈ s.guards
  pending : (role k).Admitting → 0 < s.state.pendingAdmissions
  draining : ∀ p ∈ k, Draining s.state p

section Steps

variable [DecidableEq τ] {t : τ} {s s' : Gate τ} {k k' : List Point} {e : GateEvent}

theorem Local.eq_nil {p : Point} (h : Local s t (p :: k)) (hp : p.role = .outside)
    (howner : ∀ g ∈ s.guards, s.state.owner = some g.owner) (hr : s.state.reentrant t = false) :
    k = [] := by
  obtain ⟨hno, hnot⟩ := AdmissionState.reentrant_eq_false.1 hr
  have hk : role (p :: k) = role k := if_pos hp
  refine h.shape.eq_nil_of_role ?_
  have hreg : ¬ (role k).Registered := fun hreg => hnot (h.entering.2 (hk ▸ hreg))
  have hcl : role k ≠ .claiming := fun hc => hno (howner _ (h.claiming.1 (hk.trans hc)))
  generalize role k = r at hreg hcl
  cases r <;> simp_all [Role.Registered]

theorem AdmitAct.effect (h : AdmitAct t s k e s' k') (hl : Local s t k)
    (howner : ∀ g ∈ s.guards, s.state.owner = some g.owner) :
    Effect t s (role k) s' (role k') ∧ Shape k' ∧ e ≠ .panicked := by
  have hpanic : (role k).Admitting → s.state.unregister t true ≠ none := fun ha =>
    AdmissionState.unregister_ne_none (hl.entering.2 (ha.imp_right Or.inl)) fun _ => hl.pending ha
  cases h with
  | call hrun => exact ⟨.stays _, hl.shape.push hrun rfl, by simp⟩
  | reentered | closed => exact ⟨.stays _, hl.shape.tail, by simp⟩
  | register hr ho =>
    obtain rfl := hl.eq_nil rfl howner hr
    exact ⟨.admits hr ho, trivial, by simp⟩
  | claimPanics _ _ hn => exact absurd hn (hpanic (Or.inl rfl))
  | failPanics hn => exact absurd hn (hpanic (Or.inl rfl))
  | claim ho hb hu =>
    obtain rfl := hl.shape.eq_nil (by simp [Point.role])
    exact ⟨.claims ho hb hu, trivial, by simp⟩
  | waits ho hb =>
    obtain rfl := hl.shape.eq_nil (by simp [Point.role])
    exact ⟨.waits ho hb, trivial, by simp⟩
  | wakes =>
    obtain rfl := hl.shape.eq_nil (by simp [Point.role])
    exact ⟨.wakes, trivial, by simp⟩
  | commits =>
    obtain rfl := hl.shape.eq_nil (by simp [Point.role])
    exact ⟨.gives, trivial, by simp⟩
  | releases =>
    obtain rfl := hl.shape.eq_nil (by simp [Point.role])
    exact ⟨.releases, trivial, by simp⟩
  | fails hu =>
    obtain rfl := hl.shape.eq_nil (by simp [Point.role])
    exact ⟨.fails hu, trivial, by simp⟩
  | contextRefused | contextAdmitted | loopClosed | expires | retries | interrupted =>
    obtain rfl := hl.shape.eq_nil (by simp [Point.role])
    exact ⟨.stays _, trivial, by simp⟩

theorem DrainAct.effect (h : DrainAct t s k e s' k') (hl : Local s t k)
    (howner : ∀ g ∈ s.guards, s.state.owner = some g.owner) :
    Effect t s (role k) s' (role k') ∧ Shape k' ∧ e ≠ .panicked := by
  cases h with
  | beginClose => exact ⟨.closes _, hl.shape, by simp⟩
  | call hrun => exact ⟨.stays _, hl.shape.push hrun rfl, by simp⟩
  | reentered => exact ⟨.stays _, hl.shape.tail, by simp⟩
  | register hr =>
    obtain rfl := hl.eq_nil rfl howner hr
    exact ⟨.drains hr, trivial, by simp⟩
  | close =>
    obtain rfl := hl.shape.eq_nil (by simp [Point.role])
    exact ⟨.closes _, trivial, by simp⟩
  | final =>
    obtain rfl := hl.shape.eq_nil (by simp [Point.role])
    exact ⟨.finishes (hl.draining _ (List.mem_singleton_self _)).2, trivial, by simp⟩
  | returns hu =>
    obtain rfl := hl.shape.eq_nil (by simp [Point.role])
    exact ⟨.leaves hu, trivial, by simp⟩
  | returnPanics hn =>
    have hreg := hl.entering.2 (Or.inr (Or.inr rfl))
    exact absurd hn (AdmissionState.unregister_ne_none hreg (by simp))
  | contextRefused | contextAdmitted | seesClosed | seesIdle | waits | done | interrupted | commits
  | wakes | expires | retries =>
    obtain rfl := hl.shape.eq_nil (by simp [Point.role])
    exact ⟨.stays _, trivial, by simp⟩

theorem GateAct.effect (h : GateAct t s k e s' k') (hl : Local s t k)
    (howner : ∀ g ∈ s.guards, s.state.owner = some g.owner) :
    Effect t s (role k) s' (role k') ∧ Shape k' ∧ e ≠ .panicked := by
  cases h with
  | admission h => exact h.effect hl howner
  | drain h => exact h.effect hl howner
  | guard h =>
    cases h with
    | drop _ hm => exact ⟨.drops _ hm, hl.shape, by simp⟩
    | move _ _ _ hm => exact ⟨.moves _ hm, hl.shape, by simp⟩

theorem GateAct.drains_on (h : GateAct t s k e s' k') (hl : Local s t k) (hrole : role k = .draining)
    (hk' : k' ≠ []) : role k' = .draining := by
  cases h with
  | guard h => cases h <;> exact hrole
  | admission h =>
    cases h with
    | call | reentered | closed => exact hrole
    | register hr =>
      have hmem := hl.entering.mpr (Or.inr (Or.inr hrole))
      exact absurd hmem (AdmissionState.reentrant_eq_false.mp hr).2
    | _ => cases hrole
  | drain h =>
    cases h with
    | beginClose | call | reentered => exact hrole
    | returns | returnPanics => exact absurd (hl.shape.eq_nil (by simp [Point.role])) hk'
    | _ => rfl

theorem Effect.reentrant {u : τ} {r r' : Role} (h : Effect u s r s' r') (hne : t ≠ u)
    (hr : s.state.reentrant t = false) : s'.state.reentrant t = false := by
  rw [AdmissionState.reentrant_eq_false] at hr ⊢
  obtain ⟨howner, hnot⟩ := hr
  have hunregister : ∀ {b : Bool} {state : AdmissionState τ}, s.state.unregister u b = some state →
      state.owner ≠ some t ∧ t ∉ state.entering := by
    intro b state hu
    obtain ⟨hperm, -, -, ho, -⟩ := AdmissionState.unregister_eq_some hu
    exact ⟨ho ▸ howner, fun hmem => hnot (List.mem_of_mem_erase (hperm.mem_iff.mp hmem))⟩
  cases h with
  | admits | drains => exact ⟨howner, by simp [Gate.set, hnot, hne]⟩
  | claims _ _ hu => exact ⟨fun ho => hne (Option.some.inj ho).symm, (hunregister hu).2⟩
  | fails hu | leaves hu => exact hunregister hu
  | releases | drops => exact ⟨fun ho => (by cases ho), hnot⟩
  | _ => exact ⟨howner, hnot⟩

end Steps

/-! ### The invariant -/

/-- The guards that are alive: none on a free gate, one on a busy gate. -/
def Gate.Exclusive (s : Gate τ) : Prop :=
  (s.guards = [] ∧ s.state.busy = false ∧ s.state.owner = none) ∨
    ∃ g, s.guards = [g] ∧ s.state.busy = true ∧ s.state.owner = some g.owner

structure GateInv (w : GateWorld τ) : Prop where
  shape : ∀ t, Shape (w.pc t)
  nodup : w.shared.state.entering.Nodup
  entering : ∀ t, t ∈ w.shared.state.entering ↔ (role (w.pc t)).Registered
  waiters : Census (fun t => role (w.pc t) = .waiting) w.shared.state.waiters
  pending : Census (fun t => (role (w.pc t)).Admitting) w.shared.state.pendingAdmissions
  exclusive : w.shared.Exclusive
  claiming : ∀ t, role (w.pc t) = .claiming ↔ ⟨t, none⟩ ∈ w.shared.guards
  draining : ∀ t, ∀ p ∈ w.pc t, Draining w.shared.state p
  closed : w.shared.state.lifecycle = .closed → w.shared.state.Idle

section Invariant

variable {w : GateWorld τ} {t : τ} {s s' : Gate τ} {k' : List Point} {r r' : Role}

theorem Gate.Exclusive.owner (h : s.Exclusive) : ∀ g ∈ s.guards, s.state.owner = some g.owner := by
  rcases h with ⟨hg, -, -⟩ | ⟨g, hg, -, ho⟩
  · simp [hg]
  · simpa [hg] using ho

theorem Gate.Exclusive.busy_iff (h : s.Exclusive) : s.state.busy = true ↔ s.guards ≠ [] := by
  rcases h with ⟨hg, hb, -⟩ | ⟨g, hg, hb, -⟩ <;> simp [hg, hb]

theorem Gate.Exclusive.length_le (h : s.Exclusive) : s.guards.length ≤ 1 := by
  rcases h with ⟨hg, -, -⟩ | ⟨g, hg, -, -⟩ <;> simp [hg]

theorem Gate.Exclusive.eq_singleton (h : s.Exclusive) {g : Guard τ} (hg : g ∈ s.guards) :
    s.guards = [g] ∧ s.state.busy = true ∧ s.state.owner = some g.owner := by
  rcases h with ⟨he, -, -⟩ | ⟨g', he, hb, ho⟩
  · simp [he] at hg
  · obtain rfl : g = g' := by simpa [he] using hg
    exact ⟨he, hb, ho⟩

theorem GateInv.local (h : GateInv w) (t : τ) : Local w.shared t (w.pc t) :=
  ⟨h.shape t, h.entering t, h.claiming t, fun ha => h.pending.pos (t := t) ha, h.draining t⟩

theorem gateInv_start : GateInv (GateWorld.start τ) where
  shape _ := trivial
  nodup := List.nodup_nil
  entering t := iff_of_false List.not_mem_nil (by simp [GateWorld.start, role, Role.Registered])
  waiters := Census.zero fun _ => by simp [GateWorld.start, role]
  pending := Census.zero fun _ => by simp [GateWorld.start, role, Role.Admitting]
  exclusive := Or.inl ⟨rfl, rfl, rfl⟩
  claiming t := iff_of_false (by simp [GateWorld.start, role]) List.not_mem_nil
  draining t p hp := by simp [GateWorld.start] at hp
  closed h := by simp [GateWorld.start, AdmissionState.new] at h

variable [DecidableEq τ]

theorem Effect.exclusive (h : Effect t s r s' r') (hs : s.Exclusive)
    (hc : r = .claiming ↔ ⟨t, none⟩ ∈ s.guards) : s'.Exclusive := by
  cases h with
  | stays | admits | drains | waits | wakes | closes | finishes => exact hs
  | @claims state _ hb hu =>
    have hnil : s.guards = [] := by
      by_contra hne
      simp [hs.busy_iff.2 hne] at hb
    exact Or.inr ⟨⟨t, none⟩, by simp [Gate.claim, hnil], rfl, rfl⟩
  | gives =>
    obtain ⟨hg, hb, ho⟩ := hs.eq_singleton (hc.1 rfl)
    exact Or.inr ⟨⟨t, some t⟩, by simp [Gate.pass, hg], hb, ho⟩
  | releases =>
    obtain ⟨hg, -, -⟩ := hs.eq_singleton (hc.1 rfl)
    exact Or.inl ⟨by simp [Gate.release, hg], rfl, rfl⟩
  | drops _ hm =>
    obtain ⟨hg, -, -⟩ := hs.eq_singleton hm
    exact Or.inl ⟨by simp [Gate.release, hg], rfl, rfl⟩
  | @moves _ owner u hm =>
    obtain ⟨hg, hb, ho⟩ := hs.eq_singleton hm
    exact Or.inr ⟨⟨owner, some u⟩, by simp [Gate.pass, hg], hb, ho⟩
  | fails hu =>
    obtain ⟨-, -, hb, ho, -⟩ := AdmissionState.unregister_eq_some hu
    simpa [Gate.Exclusive, Gate.set, hb, ho] using hs
  | leaves hu =>
    obtain ⟨-, -, hb, ho, -⟩ := AdmissionState.unregister_eq_some hu
    simpa [Gate.Exclusive, Gate.set, hb, ho] using hs

theorem Effect.entering (h : Effect t s r s' r') (hn : s.state.entering.Nodup)
    (ht : t ∈ s.state.entering ↔ r.Registered) :
    s'.state.entering.Nodup ∧ (t ∈ s'.state.entering ↔ r'.Registered) ∧
      ∀ u, u ≠ t → (u ∈ s'.state.entering ↔ u ∈ s.state.entering) := by
  have henter : s.state.reentrant t = false → (s.state.entering ++ [t]).Nodup ∧
      (t ∈ s.state.entering ++ [t]) ∧
      ∀ u, u ≠ t → (u ∈ s.state.entering ++ [t] ↔ u ∈ s.state.entering) := fun hr => by
    obtain ⟨-, hnot⟩ := AdmissionState.reentrant_eq_false.1 hr
    refine ⟨List.Nodup.append hn (List.nodup_singleton t) (by simpa using hnot), by simp, ?_⟩
    exact fun u hu => by simp [hu]
  have hleave : ∀ {state : AdmissionState τ} {b : Bool}, s.state.unregister t b = some state →
      state.entering.Nodup ∧ t ∉ state.entering ∧
      ∀ u, u ≠ t → (u ∈ state.entering ↔ u ∈ s.state.entering) := fun hu => by
    obtain ⟨hp, -⟩ := AdmissionState.unregister_eq_some hu
    refine ⟨hp.nodup_iff.2 (hn.erase t), ?_, fun u hne => ?_⟩
    · rw [hp.mem_iff]
      exact hn.not_mem_erase
    · rw [hp.mem_iff, List.mem_erase_of_ne hne]
  cases h with
  | stays | closes | finishes | drops | moves => exact ⟨hn, ht, fun _ _ => Iff.rfl⟩
  | waits | wakes | gives | releases =>
    exact ⟨hn, ht.trans (by decide), fun _ _ => Iff.rfl⟩
  | admits hr =>
    obtain ⟨h₁, h₂, h₃⟩ := henter hr
    exact ⟨h₁, iff_of_true h₂ (Or.inl rfl), h₃⟩
  | drains hr =>
    obtain ⟨h₁, h₂, h₃⟩ := henter hr
    exact ⟨h₁, iff_of_true h₂ (Or.inr (Or.inr rfl)), h₃⟩
  | claims _ _ hu =>
    obtain ⟨h₁, h₂, h₃⟩ := hleave hu
    exact ⟨h₁, iff_of_false h₂ (by simp [Role.Registered]), h₃⟩
  | fails hu =>
    obtain ⟨h₁, h₂, h₃⟩ := hleave hu
    exact ⟨h₁, iff_of_false h₂ (by simp [Role.Registered]), h₃⟩
  | leaves hu =>
    obtain ⟨h₁, h₂, h₃⟩ := hleave hu
    exact ⟨h₁, iff_of_false h₂ (by simp [Role.Registered]), h₃⟩

theorem Effect.waiters (h : Effect t s r s' r') :
    ((r' = .waiting ↔ r = .waiting) ∧ s'.state.waiters = s.state.waiters) ∨
      (r ≠ .waiting ∧ r' = .waiting ∧ s'.state.waiters = s.state.waiters + 1) ∨
      (r = .waiting ∧ r' ≠ .waiting ∧ s'.state.waiters = s.state.waiters - 1) := by
  cases h with
  | waits => exact Or.inr (Or.inl ⟨by simp, rfl, rfl⟩)
  | wakes => exact Or.inr (Or.inr ⟨rfl, by simp, rfl⟩)
  | claims _ _ hu => exact Or.inl ⟨by simp, (AdmissionState.unregister_eq_some hu).2.2.2.2.1⟩
  | fails hu => exact Or.inl ⟨by simp, (AdmissionState.unregister_eq_some hu).2.2.2.2.1⟩
  | leaves hu => exact Or.inl ⟨by simp, (AdmissionState.unregister_eq_some hu).2.2.2.2.1⟩
  | stays | closes | finishes | drops | moves => exact Or.inl ⟨Iff.rfl, rfl⟩
  | admits | drains | gives | releases => exact Or.inl ⟨by simp, rfl⟩

theorem Effect.pending (h : Effect t s r s' r') :
    ((r'.Admitting ↔ r.Admitting) ∧ s'.state.pendingAdmissions = s.state.pendingAdmissions) ∨
      (¬ r.Admitting ∧ r'.Admitting ∧
        s'.state.pendingAdmissions = s.state.pendingAdmissions + 1) ∨
      (r.Admitting ∧ ¬ r'.Admitting ∧
        s'.state.pendingAdmissions = s.state.pendingAdmissions - 1) := by
  cases h with
  | admits => exact Or.inr (Or.inl ⟨by decide, by decide, rfl⟩)
  | claims _ _ hu =>
    exact Or.inr (Or.inr ⟨by decide, by decide, (AdmissionState.unregister_eq_some hu).2.1⟩)
  | fails hu =>
    exact Or.inr (Or.inr ⟨by decide, by decide, (AdmissionState.unregister_eq_some hu).2.1⟩)
  | leaves hu => exact Or.inl ⟨by decide, (AdmissionState.unregister_eq_some hu).2.1⟩
  | stays | closes | finishes | drops | moves => exact Or.inl ⟨Iff.rfl, rfl⟩
  | waits | wakes | drains | gives | releases => exact Or.inl ⟨by decide, rfl⟩

theorem Effect.claiming (h : Effect t s r s' r') (hs : s.Exclusive)
    (ht : r = .claiming ↔ ⟨t, none⟩ ∈ s.guards) :
    (r' = .claiming ↔ ⟨t, none⟩ ∈ s'.guards) ∧
      ∀ u, u ≠ t → (⟨u, none⟩ ∈ s'.guards ↔ ⟨u, none⟩ ∈ s.guards) := by
  cases h with
  | stays | closes | finishes => exact ⟨ht, fun _ _ => Iff.rfl⟩
  | admits | drains | waits | wakes | fails | leaves =>
    exact ⟨iff_of_false (by simp) (mt ht.2 (by simp)), fun _ _ => Iff.rfl⟩
  | claims => exact ⟨by simp [Gate.claim], fun u hu => by simp [Gate.claim, hu]⟩
  | gives =>
    obtain ⟨hg, -, -⟩ := hs.eq_singleton (ht.1 rfl)
    exact ⟨by simp [Gate.pass, hg], fun u hu => by simp [Gate.pass, hg, hu]⟩
  | releases =>
    obtain ⟨hg, -, -⟩ := hs.eq_singleton (ht.1 rfl)
    exact ⟨by simp [Gate.release, hg], fun u hu => by simp [Gate.release, hg, hu]⟩
  | drops _ hm =>
    obtain ⟨hg, -, -⟩ := hs.eq_singleton hm
    rw [hg] at ht
    exact ⟨by simpa [Gate.release, hg] using ht, fun u hu => by simp [Gate.release, hg]⟩
  | moves _ hm =>
    obtain ⟨hg, -, -⟩ := hs.eq_singleton hm
    rw [hg] at ht
    exact ⟨by simpa [Gate.pass, hg] using ht, fun u hu => by simp [Gate.pass, hg]⟩

theorem Effect.lifecycle (h : Effect t s r s' r') :
    s.state.lifecycle.rank ≤ s'.state.lifecycle.rank ∧
      (s.state.lifecycle ≠ .opened → s.state.Idle → s'.state.Idle) := by
  cases h with
  | stays | moves | gives => exact ⟨le_rfl, fun _ => id⟩
  | drains => exact ⟨le_rfl, fun _ => id⟩
  | closes => exact ⟨Lifecycle.rank_le_beginClose _, fun _ => id⟩
  | finishes => exact ⟨Lifecycle.rank_le_two _, fun _ => id⟩
  | admits _ ho => exact ⟨le_rfl, fun hn => absurd ho hn⟩
  | waits ho => exact ⟨le_rfl, fun hn => absurd ho hn⟩
  | wakes => exact ⟨le_rfl, fun _ ⟨hb, hw, hp⟩ => ⟨hb, by simp [Gate.set, hw], hp⟩⟩
  | releases | drops => exact ⟨le_rfl, fun _ ⟨_, hw, hp⟩ => ⟨rfl, hw, hp⟩⟩
  | claims ho _ hu =>
    obtain ⟨-, -, -, -, -, hl⟩ := AdmissionState.unregister_eq_some hu
    exact ⟨by simp [Gate.claim, hl], fun hn => absurd ho hn⟩
  | fails hu =>
    obtain ⟨-, hp, hb, -, hw, hl⟩ := AdmissionState.unregister_eq_some hu
    exact ⟨by simp [Gate.set, hl], fun _ ⟨h₁, h₂, h₃⟩ => ⟨hb.trans h₁, hw.trans h₂, by
      simp [Gate.set, hp, h₃]⟩⟩
  | leaves hu =>
    obtain ⟨-, hp, hb, -, hw, hl⟩ := AdmissionState.unregister_eq_some hu
    exact ⟨by simp [Gate.set, hl], fun _ ⟨h₁, h₂, h₃⟩ => ⟨hb.trans h₁, hw.trans h₂, by
      simp [Gate.set, hp, h₃]⟩⟩

theorem Effect.not_opened (h : Effect t s r s' r') (hl : s.state.lifecycle ≠ .opened) :
    s'.state.lifecycle ≠ .opened := by
  rw [Lifecycle.ne_opened_iff_rank] at hl ⊢
  exact hl.trans h.lifecycle.1

theorem Effect.still_closed (h : Effect t s r s' r') (hl : s.state.lifecycle = .closed) :
    s'.state.lifecycle = .closed :=
  Lifecycle.eq_closed_of_rank (by simpa [hl, Lifecycle.rank] using h.lifecycle.1)

theorem Effect.closed (h : Effect t s r s' r') (hc : s.state.lifecycle = .closed → s.state.Idle)
    (hl : s'.state.lifecycle = .closed) : s'.state.Idle := by
  by_cases hb : s.state.lifecycle = .closed
  · exact h.lifecycle.2 (by simp [hb]) (hc hb)
  · cases h with
    | finishes hi => exact hi
    | closes => exact absurd (Lifecycle.beginClose_eq_closed.1 hl) hb
    | claims _ _ hu =>
      exact absurd ((AdmissionState.unregister_eq_some hu).2.2.2.2.2.symm.trans hl) hb
    | fails hu =>
      exact absurd ((AdmissionState.unregister_eq_some hu).2.2.2.2.2.symm.trans hl) hb
    | leaves hu =>
      exact absurd ((AdmissionState.unregister_eq_some hu).2.2.2.2.2.symm.trans hl) hb
    | _ => exact absurd hl hb

theorem Draining.of_effect {p : Point} (hd : Draining s.state p) (h : Effect t s r s' r') :
    Draining s'.state p := by
  cases p with
  | drainContext | drainLoop | drainWaiting | drainWoken => exact h.not_opened hd
  | drainDone => exact h.still_closed hd
  | drainCommit | drainFinal => exact ⟨h.not_opened hd.1, h.lifecycle.2 hd.1 hd.2⟩
  | drainReturning result =>
    cases result with
    | ok u => exact h.still_closed hd
    | error e => trivial
  | _ => trivial

theorem GateAct.draining {k : List Point} {e : GateEvent} (h : GateAct t s k e s' k')
    (he : Effect t s (role k) s' (role k')) (hd : ∀ p ∈ k, Draining s.state p) :
    ∀ p ∈ k', Draining s'.state p := by
  have hkeep : ∀ p ∈ k, Draining s'.state p := fun p hp => (hd p hp).of_effect he
  have hpush : ∀ {p : Point} {j : List Point}, Draining s'.state p → (∀ q ∈ j, q ∈ k) →
      ∀ q ∈ p :: j, Draining s'.state q := fun hp hj q hq => by
    rcases List.mem_cons.1 hq with rfl | hq
    · exact hp
    · exact hkeep q (hj q hq)
  have htail : ∀ {p : Point} {j : List Point}, k = p :: j → ∀ q ∈ j, q ∈ k := fun hk q hq =>
    hk ▸ List.mem_cons_of_mem _ hq
  cases h with
  | guard h => cases h <;> exact hkeep
  | admission h =>
    cases h with
    | call => exact hpush trivial fun _ => id
    | reentered | closed | claimPanics | commits | releases | fails | failPanics =>
      exact fun q hq => hkeep q (List.mem_cons_of_mem _ hq)
    | _ => exact hpush trivial (htail rfl)
  | drain h =>
    cases h with
    | beginClose => exact hkeep
    | call => exact hpush trivial fun _ => id
    | reentered | returns | returnPanics => exact fun q hq => hkeep q (List.mem_cons_of_mem _ hq)
    | register | contextRefused | interrupted | expires => exact hpush trivial (htail rfl)
    | close => exact hpush s.state.lifecycle.beginClose_ne_opened (htail rfl)
    | contextAdmitted | waits | wakes | retries | commits =>
      have hhead := hkeep _ List.mem_cons_self
      exact hpush hhead (htail rfl)
    | seesClosed hc => exact hpush hc (htail rfl)
    | seesIdle _ hb hw hp =>
      exact hpush ⟨hkeep _ List.mem_cons_self, hb, hw, hp⟩ (htail rfl)
    | final => exact hpush rfl (htail rfl)
    | @done j op seen =>
      refine hpush ?_ (htail rfl)
      have hc : s.state.lifecycle = .closed := hkeep _ List.mem_cons_self
      cases op.commit seen () with
      | ok u => exact hc
      | error i => trivial

theorem gateInv_reachable (hw : (gateSystem τ).Reachable w) : GateInv w := by
  refine threads_invariant gateInv_start (fun w t e s' k' _ hi hact => ?_) hw
  obtain ⟨heff, hshape, -⟩ := hact.effect (hi.local t) hi.exclusive.owner
  obtain ⟨hnodup, hent, hother⟩ := heff.entering hi.nodup (hi.entering t)
  obtain ⟨hclaim, hclaims⟩ := heff.claiming hi.exclusive (hi.claiming t)
  refine ⟨w.forall_move t s' k' hshape fun u _ => hi.shape u, hnodup, fun u => ?_, ?_, ?_,
    heff.exclusive hi.exclusive (hi.claiming t), fun u => ?_,
    w.forall_move t s' k' (P := fun k => ∀ p ∈ k, Draining s'.state p)
      (hact.draining heff (hi.draining t)) fun u _ p hp => (hi.draining u p hp).of_effect heff,
    heff.closed hi.closed⟩
  · by_cases hu : u = t
    · subst hu
      simpa using hent
    · rw [World.move_pc_of_ne _ _ _ _ hu, ← hi.entering u]
      exact hother u hu
  · rcases heff.waiters with ⟨hr, hn⟩ | ⟨hr, hr', hn⟩ | ⟨hr, hr', hn⟩
    · exact hn ▸ hi.waiters.stay (P := fun k => role k = .waiting) hr
    · exact hn ▸ hi.waiters.enter (P := fun k => role k = .waiting) hr hr'
    · exact hn ▸ hi.waiters.leave (P := fun k => role k = .waiting) hr hr'
  · rcases heff.pending with ⟨hr, hn⟩ | ⟨hr, hr', hn⟩ | ⟨hr, hr', hn⟩
    · exact hn ▸ hi.pending.stay (P := fun k => (role k).Admitting) hr
    · exact hn ▸ hi.pending.enter (P := fun k => (role k).Admitting) hr hr'
    · exact hn ▸ hi.pending.leave (P := fun k => (role k).Admitting) hr hr'
  · by_cases hu : u = t
    · subst hu
      simpa using hclaim
    · rw [World.move_pc_of_ne _ _ _ _ hu, hi.claiming u]
      exact (hclaims u hu).symm

end Invariant

end Effects

end MadoPilot.Input

import MadoPilot.Platform.StoragePools

/-!
# The requests behind the textures

A call of `try_acquire` keeps its pool and its shape from the access that begins it to the lease it
hands out, wherever the calls in progress move in their list meanwhile.

* `origins` : the access that began each call in progress;
* `Turn` : what an access does to the calls and to the textures that are out;
* `calls_requested`, `leases_granted` : what a call is after, and what a lease has, was requested.
-/

namespace MadoPilot.Platform.WindowsStorage

open MadoPilot.Core MadoPilot.Lib

def Call.wants : Call → Option (ℕ × TextureShape)
  | acquiring pool shape _ | clearing pool shape .. | charging pool shape .. | charged pool shape ..
  | creating pool shape .. => some (pool, shape)
  | _ => none

def Access.Requests (a : Access) (pool : ℕ) (shape : TextureShape) : Prop :=
  ∃ descriptor, a = .acquire pool descriptor ∧ shape = .fromDescriptor descriptor

def Access.call : Access → Option ℕ
  | advance i _ => some i
  | _ => none

/-- What an access leaves of the accesses that began the calls in progress: one more where a call
begins, and one less where a call ends. -/
def originsAfter (begun : List Access) (w : Storage) (a : Access) : List Access :=
  match w.perform a with
  | none => begun
  | some w' =>
    if w.calls.length < w'.calls.length then begun ++ [a]
    else if w'.calls.length < w.calls.length then a.call.elim begun begun.eraseIdx
    else begun

/-- The access that began each call in progress after a run, in the order of the calls. -/
def origins (trail : List (Storage × Access)) : List Access :=
  trail.foldl (fun begun x => originsAfter begun x.1 x.2) []

/-- What an access does to the calls in progress and to the textures that are out. -/
inductive Turn (w : Storage) : Access → Storage → Prop
  | starts {a : Access} {c : Call} {w' : Storage} (calls : w'.calls = w.calls ++ [c])
      (leases : w'.leases.Sublist w.leases)
      (began : ∀ pool shape, c.wants = some (pool, shape) → a.Requests pool shape) : Turn w a w'
  | stays {a : Access} {w' : Storage} (calls : w'.calls = w.calls)
      (leases : w'.leases.Sublist w.leases) : Turn w a w'
  | moves {i : ℕ} {ok : Bool} {c c' : Call} {w' : Storage} (hc : w.calls[i]? = some c)
      (calls : w'.calls = w.calls.set i c') (leases : w'.leases = w.leases)
      (kept : ∀ x, c'.wants = some x → c.wants = some x) : Turn w (.advance i ok) w'
  | ends {i : ℕ} {ok : Bool} {c : Call} {w' : Storage} (hc : w.calls[i]? = some c)
      (calls : w'.calls = w.calls.eraseIdx i) (leases : w'.leases = w.leases) :
      Turn w (.advance i ok) w'
  | grants {i : ℕ} {ok : Bool} {c : Call} {l : TextureLease} {w' : Storage}
      (hc : w.calls[i]? = some c) (calls : w'.calls = w.calls.eraseIdx i)
      (leases : w'.leases = w.leases ++ [l]) (wants : c.wants = some (l.pool, l.shape)) :
      Turn w (.advance i ok) w'

section Steps

variable {w w' : Storage} {i : ℕ} {c : Call} {a : Access}

theorem CallStep.turn (hc : w.calls[i]? = some c) (hs : CallStep w i c w') (ok : Bool) :
    Turn w (.advance i ok) w' := by
  -- a reservation and a dropped lease leave the lists
  have hreserved : ∀ {account bytes w₁} {c' : Call}, w.tryReserve account bytes = some w₁ →
      (∀ x, c'.wants = some x → c.wants = some x) → Turn w (.advance i ok) (w₁.setCall i c') := by
    intro account bytes w₁ c' hr hkept
    obtain ⟨-, hleases, -, hcalls⟩ := Storage.tryReserve_lists hr
    exact .moves hc (congrArg (·.set i c') hcalls) hleases hkept
  have hdropped : ∀ {drop : ByteLease} {c' : Call}, (∀ x, c'.wants = some x → c.wants = some x) →
      Turn w (.advance i ok) ((w.dropLease drop).setCall i c') := by
    intro drop c' hkept
    obtain ⟨-, hleases, -, hcalls⟩ := Storage.dropLease_lists (w := w) drop
    exact .moves hc (congrArg (·.set i c') hcalls) hleases hkept
  cases hs with
  | reserve hr | chargeSession hr | chargeGlobal hr => exact hreserved hr fun x hx => hx
  | clear | closes | drops => exact hdropped fun x hx => hx
  | retain hr =>
    obtain ⟨-, hleases, -, hcalls⟩ := Storage.tryReserve_lists hr
    exact .ends hc (congrArg (·.eraseIdx i) hcalls) hleases
  | enter | reshape | charge => exact .moves hc rfl rfl fun x hx => hx
  | refuseGlobal | discharge | createFails => exact .moves hc rfl rfl nofun
  | reuse | create => exact .grants hc rfl rfl rfl
  | refuseSession | wouldBlock | full | uncharged | closed | dropped => exact .ends hc rfl rfl

theorem Step.turn (hs : Step w a w') : Turn w a w' := by
  cases hs with
  | nothing => exact .stays rfl (.refl _)
  | acquire =>
    refine .starts rfl (.refl _) fun pool shape hwants => ?_
    obtain ⟨rfl, rfl⟩ := Prod.mk.inj (Option.some.inj hwants)
    exact ⟨_, rfl, rfl⟩
  | reserve | dropBytes | retire | dropPool => exact .starts rfl (.refl _) nofun
  | orphan | defer | discard => exact .starts rfl (List.eraseIdx_sublist ..) nofun
  | keep => exact .stays rfl (List.eraseIdx_sublist ..)
  | advance hc hstep => exact hstep.turn hc _

end Steps

/-! ### Runs -/

section Runs

variable {start w : Storage} {trail : List (Storage × Access)}

theorem origins_snoc (a : Access) : origins (trail ++ [(w, a)]) = originsAfter (origins trail) w a := by
  unfold origins
  rw [List.foldl_append]
  rfl

theorem forall₂_set {α β : Type*} {R : α → β → Prop} {l : List α} {l' : List β} (h : List.Forall₂ R l l')
    {i : ℕ} {b b' : β} (hb : l'[i]? = some b) (hkept : ∀ a, R a b → R a b') :
    List.Forall₂ R l (l'.set i b') := by
  induction h generalizing i with
  | nil => cases hb
  | cons hhead htail ih =>
    cases i with
    | zero =>
      obtain rfl := Option.some.inj hb
      exact .cons (hkept _ hhead) htail
    | succ i => exact .cons hhead (ih hb)

theorem forall₂_eraseIdx {α β : Type*} {R : α → β → Prop} {l : List α} {l' : List β}
    (h : List.Forall₂ R l l') (i : ℕ) : List.Forall₂ R (l.eraseIdx i) (l'.eraseIdx i) := by
  rw [List.eraseIdx_eq_take_drop_succ, List.eraseIdx_eq_take_drop_succ]
  exact List.rel_append (List.forall₂_take i h) (List.forall₂_drop (i + 1) h)

def Began (a : Access) (c : Call) : Prop :=
  ∀ pool shape, c.wants = some (pool, shape) → a.Requests pool shape

theorem calls_requested (h₀ : start.calls = [])
    (hp : (storageSystem start).Path start trail w) : List.Forall₂ Began (origins trail) w.calls := by
  refine hp.along (P := fun trail w => List.Forall₂ Began (origins trail) w.calls) ?_ ?_
  · rw [h₀]
    exact .nil
  · intro trail w a w' _ hbegan hstep
    have hperform : w.perform a = some w' := hstep
    rw [origins_snoc]
    unfold originsAfter
    rw [hperform]
    dsimp only
    cases (step_of_perform hperform).turn with
    | starts calls _ began =>
      rw [if_pos (by simp [calls]), calls]
      exact List.rel_append hbegan (.cons began .nil)
    | stays calls =>
      rw [if_neg (by simp [calls]), if_neg (by simp [calls]), calls]
      exact hbegan
    | moves hc calls _ kept =>
      rw [if_neg (by simp [calls]), if_neg (by simp [calls]), calls]
      exact forall₂_set hbegan hc fun a ha pool shape hwants => ha pool shape (kept _ hwants)
    | ends hc calls | grants hc calls =>
      have hi := (List.getElem?_eq_some_iff.mp hc).1
      have hshorter : w'.calls.length < w.calls.length := by
        rw [calls, List.length_eraseIdx_of_lt hi]
        omega
      rw [if_neg hshorter.not_gt, if_pos hshorter, calls]
      exact forall₂_eraseIdx hbegan _

/-- The texture was handed out by a call that a request for its shape from its pool had begun. -/
def Granted (trail : List (Storage × Access)) (l : TextureLease) : Prop :=
  ∃ front v i ok back v' a, trail = front ++ (v, .advance i ok) :: back ∧
    v.perform (.advance i ok) = some v' ∧ v'.leases = v.leases ++ [l] ∧
    (origins front)[i]? = some a ∧ a.Requests l.pool l.shape

theorem Granted.snoc {l : TextureLease} (h : Granted trail l) (x : Storage × Access) :
    Granted (trail ++ [x]) l := by
  obtain ⟨front, v, i, ok, back, v', a, rfl, hgranted⟩ := h
  exact ⟨front, v, i, ok, back ++ [x], v', a, by simp, hgranted⟩

theorem leases_granted (h₀ : start.calls = []) (hleases : start.leases = [])
    (hp : (storageSystem start).Path start trail w) : ∀ l ∈ w.leases, Granted trail l := by
  refine hp.along (P := fun trail w => ∀ l ∈ w.leases, Granted trail l) ?_ ?_
  · rw [hleases]
    exact fun l hl => absurd hl List.not_mem_nil
  · intro trail w a w' hpath hgranted hstep l hl
    have hperform : w.perform a = some w' := hstep
    have hbegan := calls_requested h₀ hpath
    cases (step_of_perform hperform).turn with
    | starts _ leases => exact (hgranted l (leases.subset hl)).snoc _
    | stays _ leases => exact (hgranted l (leases.subset hl)).snoc _
    | moves _ _ leases => exact (hgranted l (leases ▸ hl)).snoc _
    | ends _ _ leases => exact (hgranted l (leases ▸ hl)).snoc _
    | @grants i ok c l' _ hc _ leases wants =>
      rw [leases] at hl
      rcases List.mem_append.mp hl with hold | hnew
      · exact (hgranted l hold).snoc _
      · obtain rfl := List.mem_singleton.mp hnew
        obtain ⟨hi, rfl⟩ := List.getElem?_eq_some_iff.mp hc
        have horigin : i < (origins trail).length := hbegan.length_eq ▸ hi
        exact ⟨trail, w, i, ok, [], w', _, rfl, hperform, leases, List.getElem?_eq_getElem horigin,
          hbegan.get horigin hi _ _ wants⟩

end Runs

end MadoPilot.Platform.WindowsStorage

import MadoPilot.Core.Operation
import MadoPilot.Lib.Custody
import MadoPilot.Lib.System

/-!
# The teardown queue of the Windows sessions

All sessions of a process share sixty-four teardown permits.  A permit is reserved by `open` and
becomes a part of the native resources, which are shared references: the session keeps one, a close
moves it into a job, the queue of an executor into a worker, and a callback borrows one while it
works.  The permit is released where the last of them goes; a session that can hand its resources to
nobody keeps them for good.

A step is one section under the mutex of the permits, one operation on a channel, or what a thread
does to a reference that it holds.  Sessions, callbacks, executors and their workers take steps in
any order.  Which executor a call of `teardown_executor` comes back with is left open: any that has
been made ready.

* `Step.move` : what a step does to the references and to the permits;
* `Lawful.step` : every reference holds a live permit, no two owners the same, and the permits that
  are available or live are sixty-four;
* `teardown_bounded` : what follows for every run.
-/

namespace MadoPilot.Platform.WindowsTeardown

open MadoPilot.Core MadoPilot.Lib

def teardownQueueCapacity : ℕ := 64

def teardownWorkerCount : ℕ := 4

/-! ### Permits -/

/-- `TeardownPermits::try_reserve`, of what is available. -/
def tryReserve (available : ℕ) : Option ℕ :=
  if available = 0 then none else some (available - 1)

def release (available : ℕ) : ℕ := min (saturatingAdd u64Max available 1) teardownQueueCapacity

/-! ### The process -/

/-- Where a permit is: with a call of `open`, or with a reference to the native resources that it is
a part of.  A session keeps its resources; a call of `start_native_close` has them in the job that it
sends, waits with it for another executor, or sends it again; a job is in the queue of an executor,
or run by one of its workers. -/
inductive Place where
  | opening (executor : ℕ)
  | resources (session : ℕ)
  | sending (session : ℕ) (restart : Bool)
  | restarting (session : ℕ)
  | resending (session : ℕ)
  | queued (executor : ℕ)
  | running (executor : ℕ)
  | callback
  | quarantined
  deriving DecidableEq

namespace Place

def owns : Place → Bool
  | callback => false
  | _ => true

def native : Place → Bool
  | opening _ => false
  | _ => true

def isQueued : Place → Bool
  | queued _ => true
  | _ => false

/-- A job is about to be sent. -/
def sends : Place → Bool
  | sending .. | resending _ => true
  | _ => false

end Place

/-- A session: its executor, whether a call of `start_native_close` has its runtime mutex, what has
become of its close, and whether it has been dropped. -/
structure Session where
  executor : ℕ
  locked : Bool
  closeTask : Bool
  closeResult : Bool
  dropped : Bool

/-- A generation of workers and their channel: how many were spawned, how many are left, whether the
receiver is there and whether its startup has come to an executor. -/
structure Executor where
  expected : ℕ
  workers : ℕ
  receiver : Bool
  ready : Bool

/-- `available` is what the permits' mutex guards, `live` the permits that have been given out and
not been dropped, and `issued` how many have been given out at all: a permit is known by its turn. -/
structure Permits where
  available : ℕ
  issued : ℕ
  live : List ℕ
  references : List (ℕ × Place)

structure Process extends Permits where
  opened : ℕ
  sessions : ℕ → Session
  generations : ℕ
  executors : ℕ → Executor

/-- What a `try_send` comes to. -/
inductive TrySend where
  | sent | full | disconnected
  deriving DecidableEq

inductive Event where
  | silent
  | tried (outcome : TrySend)
  | released (permit : ℕ)
  deriving DecidableEq

def unreferenced (references : List (ℕ × Place)) (permit : ℕ) : Bool :=
  references.all (·.1 ≠ permit)

namespace Permits

/-- A permit is given out to a call of `open`. -/
def reserve (k : Permits) (available executor : ℕ) : Permits where
  available := available
  issued := k.issued + 1
  live := k.live ++ [k.issued]
  references := k.references ++ [(k.issued, .opening executor)]

/-- One reference, the others being `rest`, has gone to another place. -/
def shift (k : Permits) (rest : List (ℕ × Place)) (permit : ℕ) (place : Place) : Permits :=
  { k with references := rest ++ [(permit, place)] }

/-- A callback refers to the resources too. -/
def borrow (k : Permits) (permit : ℕ) : Permits :=
  { k with references := k.references ++ [(permit, .callback)] }

/-- One reference has been dropped, and with the last one the permit. -/
def drop (k : Permits) (rest : List (ℕ × Place)) (permit : ℕ) : Permits :=
  if unreferenced rest permit then
    { k with
      references := rest
      live := k.live.erase permit
      available := release k.available }
  else { k with references := rest }

end Permits

/-- What dropping a reference shows. -/
def dropEvent (rest : List (ℕ × Place)) (permit : ℕ) : Event :=
  if unreferenced rest permit then .released permit else .silent

namespace Process

variable (s : Process)

def queue (executor : ℕ) : List ℕ := Custody.held (· = .queued executor) s.references

/-- The jobs that its workers run. -/
def running (executor : ℕ) : List ℕ := Custody.held (· = .running executor) s.references

def queuedJobs : List ℕ := Custody.held Place.isQueued s.references

/-- `try_send`, on the bounded channel of an executor. -/
def trySend (executor : ℕ) : TrySend :=
  if (s.executors executor).receiver = false then .disconnected
  else if teardownQueueCapacity ≤ (s.queue executor).length then .full
  else .sent

def setPermits (k : Permits) : Process := { s with toPermits := k }

def setSession (i : ℕ) (session : Session) : Process :=
  { s with sessions := Function.update s.sessions i session }

def setExecutor (i : ℕ) (executor : Executor) : Process :=
  { s with executors := Function.update s.executors i executor }

/-- `start_native_close` gives the resources back to the session and lets go of its runtime mutex. -/
def giveBack (rest : List (ℕ × Place)) (permit i : ℕ) : Process :=
  (s.setSession i { s.sessions i with locked := false }).setPermits
    (s.shift rest permit (.resources i))

/-- The job is in the queue of the session's executor, and the close waits for its result. -/
def enqueue (rest : List (ℕ × Place)) (permit i : ℕ) : Process :=
  (s.setSession i { s.sessions i with locked := false, closeTask := true }).setPermits
    (s.shift rest permit (.queued (s.sessions i).executor))

end Process

def Process.start : Process where
  available := teardownQueueCapacity
  issued := 0
  live := []
  references := []
  opened := 0
  sessions _ := ⟨0, false, false, false, false⟩
  generations := 0
  executors _ := ⟨0, 0, false, false⟩

/-! ### Steps -/

inductive Step : Process → Event → Process → Prop
  /-- `begin_teardown_executor_with`: a new channel, and as many workers as could be spawned. -/
  | begins {s : Process} (workers : ℕ) : workers ≤ teardownWorkerCount →
      Step s .silent { s.setExecutor s.generations ⟨workers, workers, true, false⟩ with
        generations := s.generations + 1 }
  | readies {s : Process} {x : ℕ} : x < s.generations →
      (s.executors x).expected = teardownWorkerCount →
      Step s .silent (s.setExecutor x { s.executors x with ready := true })
  /-- A worker that runs no job ends. -/
  | exits {s : Process} {x : ℕ} : x < s.generations →
      (s.running x).length < (s.executors x).workers →
      Step s .silent
        (s.setExecutor x { s.executors x with workers := (s.executors x).workers - 1 })
  /-- The receiver goes with the last worker. -/
  | disconnects {s : Process} {x : ℕ} : x < s.generations → (s.executors x).workers = 0 →
      Step s .silent (s.setExecutor x { s.executors x with receiver := false })
  /-- What is in the queue then goes with it. -/
  | discards {s : Process} {x p : ℕ} {before after : List (ℕ × Place)} :
      s.references = before ++ (p, .queued x) :: after → (s.executors x).receiver = false →
      Step s (dropEvent (before ++ after) p) (s.setPermits (s.drop (before ++ after) p))
  /-- `TeardownExecutor::reserve` -/
  | reserves {s : Process} {x available : ℕ} : x < s.generations → (s.executors x).ready = true →
      tryReserve s.available = some available →
      Step s .silent (s.setPermits (s.reserve available x))
  | waits {s : Process} : tryReserve s.available = none → Step s .silent s
  /-- `open` fails before the resources are there. -/
  | openFails {s : Process} {x p : ℕ} {before after : List (ℕ × Place)} :
      s.references = before ++ (p, .opening x) :: after →
      Step s (dropEvent (before ++ after) p) (s.setPermits (s.drop (before ++ after) p))
  | opens {s : Process} {x p : ℕ} {before after : List (ℕ × Place)} :
      s.references = before ++ (p, .opening x) :: after →
      Step s .silent { (s.setSession s.opened ⟨x, false, false, false, false⟩).setPermits
        (s.shift (before ++ after) p (.resources s.opened)) with opened := s.opened + 1 }
  /-- `start_native_close`, of a close or of the drop: only a close may replace the executor. -/
  | starts {s : Process} {i p : ℕ} {before after : List (ℕ × Place)} (dropping : Bool) :
      i < s.opened → (s.sessions i).dropped = false → (s.sessions i).locked = false →
      (s.sessions i).closeTask = false → (s.sessions i).closeResult = false →
      s.references = before ++ (p, .resources i) :: after →
      Step s .silent
        ((s.setSession i { s.sessions i with locked := true, dropped := dropping }).setPermits
          (s.shift (before ++ after) p (.sending i (!dropping))))
  | started {s : Process} {i : ℕ} (dropping : Bool) :
      i < s.opened → (s.sessions i).dropped = false → (s.sessions i).locked = false →
      (s.sessions i).closeTask = true ∨ (s.sessions i).closeResult = true →
      Step s .silent (s.setSession i { s.sessions i with dropped := dropping })
  | nothingLeft {s : Process} {i : ℕ} (dropping : Bool) :
      i < s.opened → (s.sessions i).dropped = false → (s.sessions i).locked = false →
      (s.sessions i).closeTask = false → (s.sessions i).closeResult = false →
      (∀ p, (p, .resources i) ∉ s.references) →
      Step s .silent (s.setSession i { s.sessions i with closeResult := true, dropped := dropping })
  /-- `send_teardown` -/
  | sends {s : Process} {i p : ℕ} {restart : Bool} {before after : List (ℕ × Place)} :
      s.references = before ++ (p, .sending i restart) :: after →
      s.trySend (s.sessions i).executor = .sent →
      Step s (.tried .sent) (s.enqueue (before ++ after) p i)
  | disconnected {s : Process} {i p : ℕ} {before after : List (ℕ × Place)} :
      s.references = before ++ (p, .sending i true) :: after →
      s.trySend (s.sessions i).executor = .disconnected →
      Step s (.tried .disconnected)
        (s.setPermits (s.shift (before ++ after) p (.restarting i)))
  | refused {s : Process} {i p : ℕ} {restart : Bool} {outcome : TrySend}
      {before after : List (ℕ × Place)} :
      s.references = before ++ (p, .sending i restart) :: after →
      s.trySend (s.sessions i).executor = outcome →
      outcome = .full ∨ outcome = .disconnected ∧ restart = false →
      Step s (.tried outcome) (s.giveBack (before ++ after) p i)
  | restartFails {s : Process} {i p : ℕ} {before after : List (ℕ × Place)} :
      s.references = before ++ (p, .restarting i) :: after →
      Step s .silent (s.giveBack (before ++ after) p i)
  | replaces {s : Process} {i p x : ℕ} {before after : List (ℕ × Place)} :
      s.references = before ++ (p, .restarting i) :: after →
      x < s.generations → (s.executors x).ready = true →
      Step s .silent ((s.setSession i { s.sessions i with executor := x }).setPermits
        (s.shift (before ++ after) p (.resending i)))
  | resends {s : Process} {i p : ℕ} {before after : List (ℕ × Place)} :
      s.references = before ++ (p, .resending i) :: after →
      s.trySend (s.sessions i).executor = .sent →
      Step s (.tried .sent) (s.enqueue (before ++ after) p i)
  | refusedAgain {s : Process} {i p : ℕ} {outcome : TrySend} {before after : List (ℕ × Place)} :
      s.references = before ++ (p, .resending i) :: after →
      s.trySend (s.sessions i).executor = outcome → outcome ≠ .sent →
      Step s (.tried outcome) (s.giveBack (before ++ after) p i)
  /-- `close_native` takes the result of the job. -/
  | polls {s : Process} {i : ℕ} : i < s.opened → (s.sessions i).locked = false →
      (s.sessions i).closeTask = true →
      Step s .silent
        (s.setSession i { s.sessions i with closeTask := false, closeResult := true })
  /-- A dropped session leaves what it could not hand over to nobody. -/
  | quarantines {s : Process} {i p : ℕ} {before after : List (ℕ × Place)} :
      s.references = before ++ (p, .resources i) :: after →
      (s.sessions i).dropped = true → (s.sessions i).locked = false →
      Step s .silent (s.setPermits (s.shift (before ++ after) p .quarantined))
  /-- A worker that runs no job receives the oldest. -/
  | receives {s : Process} {x p : ℕ} {before after : List (ℕ × Place)} :
      s.references = before ++ (p, .queued x) :: after → (∀ q, (q, .queued x) ∉ before) →
      (s.executors x).receiver = true → (s.running x).length < (s.executors x).workers →
      Step s .silent (s.setPermits (s.shift (before ++ after) p (.running x)))
  /-- A job has been run, or its worker has panicked. -/
  | finishes {s : Process} {x p : ℕ} {before after : List (ℕ × Place)} :
      s.references = before ++ (p, .running x) :: after →
      Step s (dropEvent (before ++ after) p) (s.setPermits (s.drop (before ++ after) p))
  /-- A callback upgrades its weak reference. -/
  | upgrades {s : Process} {p : ℕ} {place : Place} : (p, place) ∈ s.references →
      place.native = true → Step s .silent (s.setPermits (s.borrow p))
  | returns {s : Process} {p : ℕ} {before after : List (ℕ × Place)} :
      s.references = before ++ (p, .callback) :: after →
      Step s (dropEvent (before ++ after) p) (s.setPermits (s.drop (before ++ after) p))

def teardown : System Process Event := ⟨(· = Process.start), Step⟩

/-! ### What a step does to the permits -/

inductive Move (k : Permits) : Event → Permits → Prop
  | stays : Move k .silent k
  | reserves {available executor : ℕ} : tryReserve k.available = some available →
      Move k .silent (k.reserve available executor)
  | shifts {p : ℕ} {a b : Place} {before after : List (ℕ × Place)} {e : Event} :
      k.references = before ++ (p, a) :: after → a.owns = true → (∀ p, e ≠ .released p) →
      (∀ outcome, e = .tried outcome → a.sends = true) →
      Move k e (k.shift (before ++ after) p b)
  | borrows {p : ℕ} {a : Place} : (p, a) ∈ k.references → Move k .silent (k.borrow p)
  | drops {p : ℕ} {a : Place} {before after : List (ℕ × Place)} :
      k.references = before ++ (p, a) :: after →
      Move k (dropEvent (before ++ after) p) (k.drop (before ++ after) p)

theorem Step.move {s s' : Process} {e : Event} (h : Step s e s') : Move s.toPermits e s'.toPermits := by
  cases h with
  | begins | readies | exits | disconnects | waits | started | nothingLeft | polls => exact .stays
  | discards hrefs | openFails hrefs | finishes hrefs | returns hrefs => exact .drops hrefs
  | reserves _ _ htry => exact .reserves htry
  | upgrades hmem => exact .borrows hmem
  | opens hrefs | starts _ _ _ _ _ _ hrefs | restartFails hrefs | replaces hrefs | quarantines hrefs
  | receives hrefs =>
    exact .shifts hrefs rfl (fun _ h => (by cases h)) (fun _ h => (by cases h))
  | sends hrefs | disconnected hrefs | refused hrefs | resends hrefs | refusedAgain hrefs =>
    exact .shifts hrefs rfl (fun _ h => (by cases h)) (fun _ _ => rfl)

/-! ### The bound -/

/-- Every reference is to a live permit, no permit is owned twice, and the permits that are live and
those that are available are all there are. -/
structure Lawful (k : Permits) : Prop where
  custody : Custody.Lawful Place.owns k.references k.live
  given : ∀ p ∈ k.live, p < k.issued
  all : k.available + k.live.length = teardownQueueCapacity

theorem unreferenced_iff {rest : List (ℕ × Place)} {p : ℕ} :
    unreferenced rest p = true ↔ ¬Custody.Referred rest p := by
  unfold unreferenced Custody.Referred
  rw [List.all_eq_true]
  constructor
  · rintro h ⟨place, hmem⟩
    exact of_decide_eq_true (h _ hmem) rfl
  · intro h x hx
    refine decide_eq_true ?_
    rintro rfl
    exact h ⟨x.2, hx⟩

theorem release_eq {k : Permits} {p : ℕ} (h : Lawful k) (hlive : p ∈ k.live) :
    release k.available = k.available + 1 := by
  have hpos := List.length_pos_of_mem hlive
  have hall := h.all
  have hbound : k.available + 1 ≤ u64Max := by
    unfold u64Max
    unfold teardownQueueCapacity at hall
    omega
  unfold release
  rw [saturatingAdd_of_le hbound]
  exact min_eq_left (by omega)

section Moves

variable {k k' : Permits} {e : Event} {p : ℕ} {a : Place} {rest before after : List (ℕ × Place)}

theorem Lawful.start : Lawful Process.start.toPermits where
  custody := ⟨List.nodup_nil, fun _ => iff_of_false List.not_mem_nil (fun ⟨_, h⟩ => List.not_mem_nil h),
    List.nodup_nil⟩
  given _ h := absurd h List.not_mem_nil
  all := rfl

theorem Lawful.reserve (h : Lawful k) {available executor : ℕ}
    (htry : tryReserve k.available = some available) : Lawful (k.reserve available executor) := by
  unfold tryReserve at htry
  by_cases hzero : k.available = 0
  · rw [if_pos hzero] at htry
    cases htry
  · rw [if_neg hzero] at htry
    obtain rfl := Option.some.inj htry
    have hall := h.all
    refine ⟨h.custody.acquire fun hmem => Nat.lt_irrefl _ (h.given _ hmem), ?_, ?_⟩
    · intro p hp
      rcases List.mem_append.mp hp with hp | hp
      · exact Nat.lt_succ_of_lt (h.given p hp)
      · rw [List.mem_singleton.mp hp]
        exact Nat.lt_succ_self _
    · show k.available - 1 + (k.live ++ [k.issued]).length = _
      rw [List.length_append, List.length_singleton]
      omega

theorem Lawful.drop (h : Lawful k) (hrefs : k.references = before ++ (p, a) :: after) :
    Lawful (k.drop (before ++ after) p) ∧ p ∈ k.live := by
  have hcustody := h.custody
  rw [hrefs] at hcustody
  have hlive : p ∈ k.live :=
    (hcustody.referred p).mpr ⟨a, List.mem_append_right _ List.mem_cons_self⟩
  refine ⟨?_, hlive⟩
  unfold Permits.drop
  by_cases hlast : unreferenced (before ++ after) p = true
  · rw [if_pos hlast]
    have hpos := List.length_pos_of_mem hlive
    have hall := h.all
    refine ⟨hcustody.dropLast (unreferenced_iff.mp hlast), ?_, ?_⟩
    · exact fun q hq => h.given q (List.mem_of_mem_erase hq)
    · show release k.available + (k.live.erase p).length = _
      rw [release_eq h hlive, List.length_erase_of_mem hlive]
      omega
  · rw [if_neg hlast]
    have hstays := not_not.mp fun hnot => hlast (unreferenced_iff.mpr hnot)
    exact ⟨hcustody.dropShared hstays, h.given, h.all⟩

theorem Move.lawful (hmove : Move k e k') (h : Lawful k) : Lawful k' := by
  cases hmove with
  | stays => exact h
  | reserves htry => exact h.reserve htry
  | shifts hrefs hown _ _ =>
    have hcustody := h.custody
    rw [hrefs] at hcustody
    exact ⟨hcustody.shift fun _ => hown, h.given, h.all⟩
  | borrows hmem =>
    exact ⟨h.custody.borrow ((h.custody.referred _).mpr ⟨_, hmem⟩) rfl, h.given, h.all⟩
  | drops hrefs => exact (h.drop hrefs).1

theorem Move.released (hmove : Move k (.released p) k') (h : Lawful k) : p ∈ k.live := by
  generalize he : Event.released p = e at hmove
  cases hmove with
  | stays | reserves | borrows => cases he
  | shifts _ _ hnot _ => exact absurd he.symm (hnot p)
  | @drops q a before after hrefs =>
    unfold dropEvent at he
    split at he
    · obtain rfl := Event.released.inj he
      exact (h.drop hrefs).2
    · cases he

end Moves

section Sends

variable {s s' : Process} {e : Event} {p : ℕ} {place : Place}

/-- **A job in hand finds room in every queue**: it is live and in no queue, so no queue holds all the
permits. -/
theorem trySend_ne_full (h : Lawful s.toPermits) (hmem : (p, place) ∈ s.references)
    (hsends : place.sends = true) (executor : ℕ) : s.trySend executor ≠ .full := by
  have howned : ∀ a : Place, decide (a = .queued executor) = true → a.owns = true := by
    intro a ha
    rw [of_decide_eq_true ha]
    rfl
  have hout : decide (place = .queued executor) = false := by
    refine decide_eq_false ?_
    rintro rfl
    cases hsends
  have hplace : place.owns = true := by
    cases place with
    | sending | resending => rfl
    | _ => cases hsends
  have hlt : (s.queue executor).length < s.live.length := h.custody.held_lt howned hmem hplace hout
  have hall := h.all
  unfold Process.trySend
  split
  · exact fun heq => (by cases heq)
  · have hroom : ¬teardownQueueCapacity ≤ (s.queue executor).length := by omega
    rw [if_neg hroom]
    exact fun heq => (by cases heq)

theorem Step.not_full (hstep : Step s e s') (h : Lawful s.toPermits) : e ≠ .tried .full := by
  have hroom : ∀ {p place before after executor}, s.references = before ++ (p, place) :: after →
      place.sends = true → s.trySend executor ≠ .full := by
    intro p place before after executor hrefs hsends
    refine trySend_ne_full (p := p) h ?_ hsends executor
    rw [hrefs]
    exact List.mem_append_right _ List.mem_cons_self
  cases hstep with
  | refused hrefs htry | refusedAgain hrefs htry =>
    rintro hfull
    rw [Event.tried.inj hfull] at htry
    exact hroom hrefs rfl htry
  | discards | openFails | finishes | returns =>
    unfold dropEvent
    split
    · exact fun heq => (by cases heq)
    · exact fun heq => (by cases heq)
  | _ => exact fun heq => (by cases heq)

end Sends

theorem lawful_of_path {trail : List (Process × Event)} {s : Process}
    (h : teardown.Path Process.start trail s) : Lawful s.toPermits := by
  have hreachable : teardown.Reachable s := ⟨Process.start, rfl, trail, h⟩
  refine hreachable.invariant (P := fun s => Lawful s.toPermits) ?_ ?_
  · rintro s rfl
    exact Lawful.start
  · exact fun s e s' _ hs hstep => (Step.move hstep).lawful hs

structure Bounded (trail : List (Process × Event)) (s : Process) : Prop where
  permits : s.available + s.live.length = teardownQueueCapacity
  distinct : s.queuedJobs.Nodup
  held : ∀ p ∈ s.queuedJobs, p ∈ s.live
  released : ∀ x ∈ trail, ∀ p, x.2 = .released p →
    p ∈ x.1.live ∧ release x.1.available = x.1.available + 1
  /-- A job in hand finds room in the queue of every executor. -/
  room : ∀ x ∈ s.references, x.2.sends = true → ∀ executor, s.trySend executor ≠ .full
  sent : ∀ x ∈ trail, x.2 ≠ .tried .full

/-- **The teardown queue never overflows**, in any run. -/
theorem teardown_bounded {trail : List (Process × Event)} {s : Process}
    (h : teardown.Path Process.start trail s) : Bounded trail s := by
  have hlawful := lawful_of_path h
  have hqueued : ∀ a : Place, a.isQueued = true → a.owns = true := by
    intro a ha
    cases a with
    | queued => rfl
    | _ => cases ha
  refine ⟨hlawful.all, hlawful.custody.held_nodup hqueued, hlawful.custody.held_subset, ?_, ?_, ?_⟩
  · intro x hx p hp
    obtain ⟨before, u, hbefore, -, hstep⟩ := h.mem_trail hx
    have hthen := lawful_of_path hbefore
    have hmove := Step.move hstep
    rw [hp] at hmove
    have hlive := hmove.released hthen
    exact ⟨hlive, release_eq hthen hlive⟩
  · exact fun x hx hsends executor => trySend_ne_full hlawful hx hsends executor
  · intro x hx
    obtain ⟨before, u, hbefore, -, hstep⟩ := h.mem_trail hx
    exact Step.not_full hstep (lawful_of_path hbefore)

/-- A session is opened and closed, and its job waits in the queue. -/
theorem teardown_bounded_queued : ∃ trail s, teardown.Path Process.start trail s ∧
    s.queuedJobs = [0] ∧ s.available = 63 ∧ Bounded trail s := by
  have hstart : teardown.Path Process.start [] Process.start := .nil _
  have hbegins := hstart.snoc (Step.begins 4 (Nat.le_refl _))
  have hready := hbegins.snoc (Step.readies (x := 0) Nat.zero_lt_one rfl)
  have hreserved := hready.snoc (Step.reserves (x := 0) Nat.zero_lt_one rfl rfl)
  have hopened := hreserved.snoc (@Step.opens _ 0 0 [] [] rfl)
  have hclosing := hopened.snoc
    (@Step.starts _ 0 0 [] [] false Nat.zero_lt_one rfl rfl rfl rfl rfl)
  have hsent := hclosing.snoc (@Step.sends _ 0 0 _ [] [] rfl rfl)
  exact ⟨_, _, hsent, rfl, rfl, teardown_bounded hsent⟩

end MadoPilot.Platform.WindowsTeardown

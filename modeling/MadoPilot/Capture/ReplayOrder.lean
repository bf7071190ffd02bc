import MadoPilot.Capture.Replay

/-!
# The order of a replayed sequence

At every moment the source is cut in three: what the stream has journalled, the frame that a claim
has taken and not published, and the frames behind it.  `Cut.Move` says what one step can do to the
cut, and the claim is a mutex whose holder knows it by its place.

* `Act.cuts` : a step of the session moves the cut, or leaves it;
* `lined_reachable` : the three parts are the source, in every reachable world.
-/

namespace MadoPilot.Replay

open MadoPilot.Core MadoPilot.Lib
open MadoPilot.Capture (Frame CaptureFault Request Entry StreamWorld streamSystem)

/-! ### The cut -/

/-- A sequence of which some records were issued, one may be taken, and the rest waits. -/
structure Cut (α : Type*) where
  issued : List α
  taken : Option α
  rest : List α

namespace Cut

variable {α : Type*}

def whole (c : Cut α) : List α := c.issued ++ (c.taken.toList ++ c.rest)

/-- What a step may do: take the head, issue what is taken, or put it back. -/
inductive Move : Cut α → Cut α → Prop
  | stay (c : Cut α) : Move c c
  | take (issued : List α) (a : α) (rest : List α) :
      Move ⟨issued, none, a :: rest⟩ ⟨issued, some a, rest⟩
  | issue (issued : List α) (a : α) (rest : List α) :
      Move ⟨issued, some a, rest⟩ ⟨issued ++ [a], none, rest⟩
  | putBack (issued : List α) (a : α) (rest : List α) :
      Move ⟨issued, some a, rest⟩ ⟨issued, none, a :: rest⟩

theorem Move.whole {c c' : Cut α} (h : Move c c') : c'.whole = c.whole := by
  cases h <;> simp [Cut.whole]

end Cut

/-! ### Claims -/

/-- The publication is one of `r`, or has not begun. -/
def Carries (r : Request) : Capture.Pc → Prop
  | .idle => True
  | .prepared r' _ | .installed r' _ | .settled r' _ | .announced r' _ => r' = r
  | _ => False

def Advance.claims : Advance → Bool
  | compare .. | commit .. | publishing .. | restore .. | release _ => true
  | _ => false

/-- The claimed frame that the journal does not show yet. -/
def Advance.unpublished : Advance → Option ReplayFrame
  | compare _ f | commit _ f | restore f _ => some f
  | publishing f pc => if pc.committed.isSome then none else some f
  | _ => none

def Advance.Placed : Advance → Prop
  | publishing f pc => Carries f.request pc
  | _ => True

namespace Pc

def claims : Pc → Bool
  | advance _ stage => stage.claims
  | _ => false

def unpublished : Pc → Option ReplayFrame
  | advance _ stage => stage.unpublished
  | _ => none

def Placed : Pc → Prop
  | advance _ stage => stage.Placed
  | _ => True

theorem unpublished_of_free {pc : Pc} (h : pc.claims = false) : pc.unpublished = none := by
  cases pc with
  | advance caller stage => cases stage <;> first | rfl | cases h
  | _ => rfl

end Pc

section Steps

variable {τ : Type*} {round : ℚ → Option ℚ} {t : τ} {s s' : Shared τ} {pc pc' : Pc} {e : Event}

/-- The requests of the published frames, oldest first. -/
def Shared.issued (s : Shared τ) : List Request := (s.capture.journal.map (·.request)).reverse

/-- How the source is cut, when `taken` is claimed and not published. -/
def Shared.cut (s : Shared τ) (taken : Option ReplayFrame) : Cut Request :=
  ⟨s.issued, taken.map (·.request), s.remaining.frames.map (·.request)⟩

/-- What a step does to the claim: whether the sequence is reserved, and the thread holds it. -/
inductive Turn : Bool → Bool → Bool → Bool → Prop
  | stay (reserved holds : Bool) : Turn reserved holds reserved holds
  | lock : Turn false false true true
  | unlock (reserved : Bool) : Turn reserved true false false

/-- What a step does to the claim and to the cut, seen from the thread. -/
structure Cuts (s : Shared τ) (pc : Pc) (s' : Shared τ) (pc' : Pc) : Prop where
  turn : Turn s.remaining.reserved pc.claims s'.remaining.reserved pc'.claims
  move : (s.cut pc.unpublished).Move (s'.cut pc'.unpublished)
  free : pc.claims = false → pc'.claims = false → s'.issued = s.issued ∧ s'.remaining = s.remaining
  placed : pc'.Placed

theorem Cuts.same (hj : s'.capture.journal = s.capture.journal) (hr : s'.remaining = s.remaining)
    (hc : pc'.claims = pc.claims) (hu : pc'.unpublished = pc.unpublished) (hp : pc'.Placed) :
    Cuts s pc s' pc' where
  turn := by
    rw [hr, hc]
    exact .stay _ _
  move := by
    unfold Shared.cut Shared.issued
    rw [hj, hr, hu]
    exact .stay _
  free _ _ := ⟨by rw [Shared.issued, hj]; rfl, hr⟩
  placed := hp

theorem publish_cuts {c : Capture.Shared τ} {cpc cpc' : Capture.Pc} {ce : Capture.Event}
    {r : Request} (h : Capture.PublishAct round t s.capture cpc ce c cpc') (hr : Carries r cpc)
    (hcpc : cpc ≠ .idle) :
    Carries r cpc' ∧
      (c.journal.map (·.request) = s.capture.journal.map (·.request) ∧
          cpc'.committed.isSome = cpc.committed.isSome ∨
        cpc' = .idle ∧ cpc.committed.isSome = true ∧ c.journal = s.capture.journal ∨
        cpc.committed = none ∧ cpc'.committed.isSome = true ∧
          c.journal.map (·.request) = r :: s.capture.journal.map (·.request)) := by
  cases h with
  | refuse | begin => exact absurd rfl hcpc
  | install => exact ⟨hr, Or.inl ⟨rfl, rfl⟩⟩
  | settle =>
    obtain rfl : _ = r := hr
    exact ⟨rfl, Or.inr (Or.inr ⟨rfl, rfl, rfl⟩)⟩
  | announce => exact ⟨hr, Or.inl ⟨rfl, rfl⟩⟩
  | release => exact ⟨trivial, Or.inr (Or.inl ⟨rfl, rfl, rfl⟩)⟩

theorem AdvanceAct.cuts {caller : Caller} {stage stage' : Advance}
    (h : AdvanceAct round t s caller stage e s' stage') (hp : stage.Placed) :
    Cuts s (.advance caller stage) s' (.advance caller stage') := by
  cases h with
  | refused | admitted | declines | exhausted | polls | expires | unanswered | maintained | foreign
  | endsUnanswered | endsMaintained | endsForeign | interrupted =>
    exact .same rfl rfl rfl rfl trivial
  | commits => exact .same rfl rfl rfl rfl trivial
  | @claims op f frames hfree hhead =>
    refine ⟨?_, ?_, fun _ h => (by cases h), trivial⟩
    · rw [hfree]
      exact .lock
    · unfold Shared.cut
      rw [hhead]
      exact .take _ _ _
  | @refuses f c p error hlen hf h =>
    subst hf
    cases h
    exact .same rfl rfl rfl rfl trivial
  | begins h =>
    cases h
    exact .same rfl rfl rfl rfl rfl
  | @publishes f cpc cpc' ce c hcpc hcpc' h =>
    obtain ⟨hcarries, hcase⟩ := publish_cuts h hp hcpc
    rcases hcase with ⟨hj, hcomm⟩ | ⟨hidle, -⟩ | ⟨hnone, hsome, hj⟩
    · refine ⟨.stay _ _, ?_, fun h => (by cases h), hcarries⟩
      unfold Shared.cut Shared.issued Pc.unpublished Advance.unpublished
      dsimp only [Shared.setCapture]
      rw [hj, hcomm]
      exact .stay _
    · exact absurd hidle hcpc'
    · refine ⟨.stay _ _, ?_, fun h => (by cases h), hcarries⟩
      unfold Shared.cut Shared.issued Pc.unpublished Advance.unpublished
      dsimp only [Shared.setCapture]
      rw [hj, hnone, if_pos hsome, if_neg (by simp), List.reverse_cons]
      exact .issue _ _ _
  | @published f cpc r frame c h =>
    cases h
    exact .same rfl rfl rfl rfl trivial
  | @restores f result =>
    refine ⟨.unlock _, ?_, fun h => (by cases h), trivial⟩
    exact .putBack _ _ _
  | releases =>
    refine ⟨.unlock _, ?_, fun h => (by cases h), trivial⟩
    exact .stay _

theorem Act.cuts (h : Act round t s pc e s' pc') (hp : pc.Placed) : Cuts s pc s' pc' := by
  cases h with
  | call h =>
    cases h with
    | framing _ h | confirming h | confirmed h | unconfirmed h =>
      exact .same h.quiet.1.journal rfl rfl rfl trivial
    | draining _ h => exact .same h.quiet.1.journal rfl rfl rfl trivial
    | _ => exact .same rfl rfl rfl rfl trivial
  | opening h => cases h <;> exact .same rfl rfl rfl rfl trivial
  | advance hpc h hpc' =>
    subst hpc hpc'
    exact h.cuts hp

end Steps

/-! ### Runs -/

section Runs

variable {τ : Type*} {round : ℚ → Option ℚ} {stream : StreamId} {source : List ReplayFrame}

/-- The sequence of a session, with the thread that claims its head. -/
structure Lined (source : List ReplayFrame) (w : ReplayWorld τ) (holder : Option τ) : Prop where
  reserved : w.shared.remaining.reserved = holder.isSome
  fits : Mutex.Fits holder fun t => (w.pc t).claims
  placed : ∀ t, (w.pc t).Placed
  whole : (w.shared.cut (holder.bind fun t => (w.pc t).unpublished)).whole = source.map (·.request)

theorem Turn.moves {t : τ} {holder : Option τ} {holds : τ → Bool} {b b' c' : Bool}
    (hfits : Mutex.Fits holder holds) (hb : b = holder.isSome) (h : Turn b (holds t) b' c') :
    ∃ holder', Mutex.Move t holder (holds t) holder' c' ∧ b' = holder'.isSome ∧
      (holder' = holder ∨ (holder = none ∨ holder = some t) ∧ (holds t = true ∨ c' = true) ∧
        (holder' = none ∨ holder' = some t)) := by
  generalize hc : holds t = c at h
  cases h with
  | stay => exact ⟨holder, .stay _ _, hb, Or.inl rfl⟩
  | lock =>
    obtain rfl : holder = none := by simpa using hb.symm
    exact ⟨some t, .lock, rfl, Or.inr ⟨Or.inl rfl, Or.inr rfl, Or.inr rfl⟩⟩
  | unlock =>
    exact ⟨none, .unlock _, rfl, Or.inr ⟨Or.inr ((hfits t).mp hc), Or.inl rfl, Or.inl rfl⟩⟩

theorem taken_eq {w : ReplayWorld τ} {holder : Option τ} {t : τ}
    (hfits : Mutex.Fits holder fun u => (w.pc u).claims) (h : holder = none ∨ holder = some t) :
    (holder.bind fun u => (w.pc u).unpublished) = (w.pc t).unpublished := by
  rcases h with rfl | rfl
  · exact (Pc.unpublished_of_free (hfits.free rfl t)).symm
  · rfl

variable [DecidableEq τ] {w : ReplayWorld τ}

theorem Lined.step {holder : Option τ} {t : τ} {e : Event} {s' : Shared τ} {pc' : Pc}
    (hw : Lined source w holder) (h : Act round t w.shared (w.pc t) e s' pc') :
    ∃ holder', Lined source (w.move t s' pc') holder' := by
  have hcuts := h.cuts (hw.placed t)
  obtain ⟨holder', hmove, hreserved, hwho⟩ := Turn.moves hw.fits hw.reserved hcuts.turn
  have hfits : Mutex.Fits holder' fun u => ((w.move t s' pc').pc u).claims := by
    have hsame : (fun u => ((w.move t s' pc').pc u).claims) =
        Function.update (fun u => (w.pc u).claims) t pc'.claims :=
      Function.comp_update Pc.claims w.pc t pc'
    rw [hsame]
    exact hw.fits.move hmove
  refine ⟨holder', hreserved, hfits, w.forall_move t s' pc' hcuts.placed fun u _ => hw.placed u, ?_⟩
  rw [← hw.whole, World.move_shared]
  by_cases hmine : holder = none ∨ holder = some t
  · -- the claim was this thread's to take or to leave: the cut is the one it sees
    have hmine' : holder' = none ∨ holder' = some t := by
      rcases hwho with rfl | ⟨-, -, hwho⟩
      · exact hmine
      · exact hwho
    rw [taken_eq hw.fits hmine, taken_eq hfits hmine', World.move_pc_self]
    exact hcuts.move.whole
  · -- another thread holds it
    rcases hwho with rfl | ⟨hwho, -⟩
    · have hfree : (w.pc t).claims = false := by
        by_contra hne
        exact hmine (Or.inr ((hw.fits t).mp (by simpa using hne)))
      have hfree' : pc'.claims = false := by
        by_contra hne
        have hself : ((w.move t s' pc').pc t).claims = true := by simpa using hne
        exact hmine (Or.inr ((hfits t).mp hself))
      obtain ⟨hissued, hremaining⟩ := hcuts.free hfree hfree'
      have htaken : (holder'.bind fun u => ((w.move t s' pc').pc u).unpublished) =
          holder'.bind fun u => (w.pc u).unpublished := by
        cases holder' with
        | none => rfl
        | some u =>
          have hne : u ≠ t := fun h => hmine (Or.inr (congrArg some h))
          exact congrArg Pc.unpublished (World.move_pc_of_ne _ _ _ _ hne)
      rw [htaken]
      unfold Shared.cut
      rw [hissued, hremaining]
    · exact absurd hwho hmine

theorem lined_reachable (hw : (replaySystem round τ stream source).Reachable w) :
    ∃ holder, Lined source w holder := by
  refine threads_invariant (P := fun w => ∃ holder, Lined source w holder) ⟨none, ?_⟩
    (fun w t e s' pc' _ hlined hact => ?_) hw
  · exact ⟨rfl, .start, fun _ => trivial, rfl⟩
  · obtain ⟨holder, hlined⟩ := hlined
    exact hlined.step hact

end Runs

/-! ### The publications of one request -/

section Calls

variable {τ : Type*} {round : ℚ → Option ℚ} {stream : StreamId} {source : List ReplayFrame}

def publications (es : List Event) : List Frame :=
  es.filterMap fun e => match e with
    | .capture (.published _ frame) => some frame
    | _ => none

def Event.ends : Event → Bool
  | answered .. | opened .. => true
  | capture (.framed ..) | capture (.committed ..) | capture (.drained ..) => true
  | _ => false

def Published (es : List Event) : Pc → Prop
  | .advance _ (.release frame) => publications es = [frame]
  | .advance _ (.done (.ok frame)) | .confirm _ frame _ =>
    publications es = [] ∨ publications es = [frame]
  | .openCommit _ => True
  | _ => publications es = []

theorem AdvanceAct.tells {t : τ} {s s' : Shared τ} {caller : Caller} {stage stage' : Advance}
    {e : Event} {es : List Event} (h : AdvanceAct round t s caller stage e s' stage')
    (hp : Published es (.advance caller stage)) :
    e.ends = false ∧ Published (e :: es) (.advance caller stage') := by
  cases h with
  | @restores f result =>
    refine ⟨rfl, ?_⟩
    cases result with
    | ok frame => exact Or.inl hp
    | error error => exact hp
  | endsMaintained => exact ⟨rfl, Or.inl hp⟩
  | releases => exact ⟨rfl, Or.inr hp⟩
  | publishes hcpc hcpc' h =>
    cases h with
    | refuse | begin => exact absurd rfl hcpc
    | release => exact absurd rfl hcpc'
    | install | settle | announce => exact ⟨rfl, hp⟩
  | @published f cpc r frame c h => exact ⟨rfl, congrArg (List.cons frame) hp⟩
  | refused | admitted | declines | claims | exhausted | polls | expires | unanswered | maintained
  | foreign | endsUnanswered | endsForeign | interrupted | commits | refuses | begins =>
    exact ⟨rfl, hp⟩

theorem Act.tells {t : τ} {s s' : Shared τ} {pc pc' : Pc} {e : Event} {es : List Event}
    (h : Act round t s pc e s' pc') (hp : Published es pc) :
    Published (if e.ends then [] else e :: es) pc' := by
  cases h with
  | call h =>
    cases h with
    | framing _ h => cases h <;> first | exact hp | exact rfl
    | draining _ h => cases h <;> first | exact hp | exact rfl
    | foreign | fails | confirmed | unconfirmed => exact rfl
    | latest | asks | notOpen | isOpen | noCurrent | already | advances | confirms | confirming
    | commitCall | close => exact hp
  | opening h =>
    cases h with
    | opens => exact hp
    | advanced => exact trivial
    | fails | interrupted | opened => exact rfl
  | advance hpc h hpc' =>
    subst hpc hpc'
    obtain ⟨hends, htold⟩ := h.tells hp
    rw [hends]
    exact htold

variable [DecidableEq τ] {w w' : ReplayWorld τ} {trail : List (ReplayWorld τ × (τ × Event))}

theorem answered_published {t : τ} {stamp : FrameStamp} {seen : Option Interruption}
    {result : Except Error Frame}
    (hw : (replaySystem round τ stream source).Path (ReplayWorld.start τ stream source) trail w)
    (h : (replaySystem round τ stream source).step w (t, .answered stamp seen result) w') :
    publications (current Event.ends (own t trail)) = [] ∨
      ∃ frame, publications (current Event.ends (own t trail)) = [frame] ∧
        ∀ answer, result = .ok answer → answer = frame := by
  have hstart : ∀ u, Published [] ((ReplayWorld.start τ stream source).pc u) := fun _ => rfl
  have htold : Published (current Event.ends (own t trail)) (w.pc t) :=
    calls_along (P := fun (_ : Shared τ) pc es => Published es pc) hstart
      (fun _ _ _ _ _ _ _ ha hp => ha.tells hp) (fun _ _ _ _ _ _ _ _ _ hp => hp) hw t
  obtain ⟨s', pc', hact, -⟩ := h
  generalize w.pc t = pc at hact htold
  cases hact with
  | call h =>
    cases h with
    | foreign | fails => exact Or.inl htold
    | @confirmed _ frame _ _ _ hcommit =>
      refine htold.imp id fun hone => ⟨frame, hone, fun answer hanswer => ?_⟩
      exact (Except.ok.inj hanswer).symm
    | @unconfirmed _ frame _ _ _ error hcommit =>
      exact htold.imp id fun hone => ⟨frame, hone, fun answer hanswer => (by cases hanswer)⟩
  | opening h => cases h
  | advance hpc h hpc' => cases h

/-- **A replayed sequence is published in source order, and nothing of it is lost or doubled.**  In
every reachable world the published frames, oldest first, the claimed frame and the remaining frames
are the source; the sequence is reserved exactly while one thread holds a claim, and without a claim
the remaining frames are exactly those not yet published.  One request publishes at most one frame,
and a request that published one is answered with it or refused. -/
theorem replay_in_order
    (hw : (replaySystem round τ stream source).Path (ReplayWorld.start τ stream source) trail w) :
    (∃ taken : Option ReplayFrame,
      w.shared.issued ++ (taken.toList ++ w.shared.remaining.frames).map (·.request) =
        source.map (·.request) ∧
      (w.shared.remaining.reserved = false → taken = none)) ∧
    (w.shared.remaining.reserved = true ↔ ∃ t, (w.pc t).claims = true) ∧
    (∀ t u, (w.pc t).claims = true → (w.pc u).claims = true → t = u) ∧
    (∀ t stamp seen result w',
      (replaySystem round τ stream source).step w (t, .answered stamp seen result) w' →
      publications (current Event.ends (own t trail)) = [] ∨
        ∃ frame, publications (current Event.ends (own t trail)) = [frame] ∧
          ∀ answer, result = .ok answer → answer = frame) := by
  obtain ⟨holder, hlined⟩ := lined_reachable ⟨_, rfl, hw.leads⟩
  refine ⟨⟨holder.bind fun t => (w.pc t).unpublished, ?_, fun hfree => ?_⟩, ?_,
    fun t u => hlined.fits.unique, fun t stamp seen result w' => answered_published hw⟩
  · have hwhole := hlined.whole
    unfold Cut.whole Shared.cut at hwhole
    rw [← hwhole]
    cases (holder.bind fun t => (w.pc t).unpublished) <;> simp
  · rw [hlined.reserved] at hfree
    cases holder with
    | none => rfl
    | some t => cases hfree
  · rw [hlined.reserved]
    cases holder with
    | none => exact iff_of_false Bool.false_ne_true fun ⟨t, ht⟩ => (by cases (hlined.fits t).mp ht)
    | some t => exact iff_of_true rfl ⟨t, (hlined.fits t).mpr rfl⟩

end Calls

/-! ### A session with two frames -/

section Sample

/-- The session after an advance of its head was published as `p`. -/
def Shared.advanced {τ : Type*} (s : Shared τ) (f : ReplayFrame) (p : Capture.Prepared)
    (rest : List ReplayFrame) : Shared τ :=
  ⟨s.capture.publish f.request p, ⟨rest, false⟩, s.phase⟩

theorem solo_advance (round : ℚ → Option ℚ) {τ : Type*} {t : τ} {s : Shared τ} (caller : Caller)
    {f : ReplayFrame} {rest : List ReplayFrame} {p : Capture.Prepared}
    (hn : s.capture.holder = none) (hfree : s.remaining.reserved = false)
    (hhead : s.remaining.frames = f :: rest)
    (hstale : maintainedAfter s.capture.inner caller.newer = .ok none)
    (hr : f.request.prepare round s.capture.state = .ok p) :
    ∃ es, Solo (Act round) t s (.advance caller .admits) es (s.advanced f p rest)
      (.advance caller (.done (.ok (p.frame f.request)))) := by
  refine ⟨_, .cons (.advance rfl (.admitted none rfl) rfl) <|
    .cons (.advance rfl (.claims hfree hhead) rfl) <|
    .cons (.advance rfl (.unanswered (Or.inr hn) hstale) rfl) <|
    .cons (.advance rfl (.commits none rfl) rfl) <|
    .cons (.advance rfl (.begins (.begin hn hr)) rfl) <|
    .cons (.advance rfl (.publishes (by simp) (by simp) .install) rfl) <|
    .cons (.advance rfl (.publishes (by simp) (by simp) .settle) rfl) <|
    .cons (.advance rfl (.publishes (by simp) (by simp) .announce) rfl) <|
    .cons (.advance rfl (.published .release) rfl) <|
    .cons (.advance rfl .releases rfl) <| .nil ..⟩

def black : ReplayFrame :=
  ⟨⟨⟨1, 1⟩, .rgba8, 4, Capture.pixel_nonempty, Capture.pixel_row, Capture.pixel_len⟩, none, 0,
    .continuous, [0, 0, 0, 255], by decide⟩

def white : ReplayFrame :=
  ⟨⟨⟨1, 1⟩, .rgba8, 4, Capture.pixel_nonempty, Capture.pixel_row, Capture.pixel_len⟩, none, 1,
    .continuous, [255, 255, 255, 255], by decide⟩

def sampleStamp (sequence : ℕ) : FrameStamp := ⟨.first, 0, sequence, 0⟩

def samplePrepared (sequence : ℕ) : Capture.Prepared :=
  ⟨⟨.first, 0, some (sequence + 1)⟩, 0, sampleStamp sequence, ⟨0, ⟨1, 1⟩, true, none⟩, 0⟩

/-- The session while `open` publishes its first frame, and once it has. -/
def opening : Shared Unit :=
  { (ReplayWorld.start Unit .first [black, white]).shared with phase := .opening }

def opened : Shared Unit :=
  { opening.advanced black (samplePrepared 0) [white] with phase := .opened }

theorem unit_move (w : ReplayWorld Unit) (s : Shared Unit) (pc : Pc) :
    w.move () s pc = ⟨s, fun _ => pc⟩ := by
  unfold World.move
  congr 1

theorem opened_path : ∃ trail : List (ReplayWorld Unit × (Unit × Event)),
    (replaySystem some Unit .first [black, white]).Path
      (ReplayWorld.start Unit .first [black, white]) trail ⟨opened, fun _ => .stream .idle⟩ := by
  have hopen : Solo (Act some) () (ReplayWorld.start Unit .first [black, white]).shared
      (.stream .idle) [.consulted none] opening (.advance (.opening ⟨none⟩) .admits) :=
    .cons (.opening (.opens none rfl rfl)) <| .nil ..
  obtain ⟨es, hadvance⟩ := solo_advance some (t := ()) (s := opening) (.opening ⟨none⟩)
    (f := black) (p := samplePrepared 0) rfl rfl rfl rfl rfl
  have hreturn : Solo (Act some) () (opening.advanced black (samplePrepared 0) [white])
      (.advance (.opening ⟨none⟩) (.done (.ok ((samplePrepared 0).frame black.request))))
      [.silent, .opened none (.ok ())] opened (.stream .idle) :=
    .cons (.opening .advanced) <| .cons (.opening (.opened none rfl)) <| .nil ..
  obtain ⟨t₁, h₁, -⟩ := hopen.path (.nil (ReplayWorld.start Unit .first [black, white])) rfl rfl
  obtain ⟨t₂, h₂, -⟩ := hadvance.path h₁ rfl (World.move_pc_self ..)
  obtain ⟨t₃, h₃, -⟩ := hreturn.path h₂ rfl (World.move_pc_self ..)
  rw [unit_move] at h₃
  exact ⟨t₃, h₃⟩

theorem replay_in_order_sample : ∃ trail : List (ReplayWorld Unit × (Unit × Event)),
    (replaySystem some Unit .first [black, white]).Path
      (ReplayWorld.start Unit .first [black, white]) trail ⟨opened, fun _ => .stream .idle⟩ ∧
    opened.issued = [black.request] ∧
    ∃ taken : Option ReplayFrame, [black.request] ++ (taken.toList ++ [white]).map (·.request) =
        [black, white].map (·.request) ∧ (false = false → taken = none) := by
  obtain ⟨trail, h⟩ := opened_path
  exact ⟨trail, h, rfl, (replay_in_order h).1⟩

end Sample

end MadoPilot.Replay

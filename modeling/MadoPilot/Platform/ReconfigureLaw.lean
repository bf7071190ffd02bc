import MadoPilot.Platform.MacosReconfigure

/-!
# No request is lost

* `Settled` : what the slot, the flag and the channel have to do with the worker;
* `Due` : a request in the slot has somebody who will see to it;
* `reconfigure_loses_nothing` : the law of the requests.
-/

namespace MadoPilot.Platform.MacosReconfigure

open MadoPilot.Core MadoPilot.Lib

/-- The callback has changed the slot and not woken the worker yet. -/
def ProducerPc.between : ProducerPc → Bool
  | swapped _ | waking _ | disconnected => true
  | _ => false

/-- The worker has been woken and has not looked at the slot a last time. -/
def WorkerPc.beforeRecheck : WorkerPc → Bool
  | woken | swapping | upgrading _ | applying _ | draining | rechecking | resending => true
  | _ => false

/-- The worker is about to look at the slot, or has seen that it is full. -/
def WorkerPc.looks : WorkerPc → Bool
  | woken | swapping | rechecking | resending => true
  | _ => false

def WorkerPc.inHand : WorkerPc → List PixelExtent
  | upgrading extent | applying extent => [extent]
  | _ => []

/-- The worker gives up because of the storage budget, and has set the flag. -/
def WorkerPc.fallen : WorkerPc → Bool
  | failingClear | failingWake | exited => true
  | _ => false

def Shared.slot (s : Shared) : List PixelExtent := (decodeExtent s.wanted).toList

/-- What the slot, the flag and the channel have to do with the worker. -/
structure Settled (s : Shared) (worker : WorkerPc) : Prop where
  receiver : s.receiver = false ↔ worker = .exited
  fallen : worker.fallen = true → s.shutdown = true
  core : s.core = false → s.shutdown = true
  slot : s.wanted = 0 ∨ ∃ extent, Valid extent ∧ s.wanted = encodeExtent extent ∧
    s.requested.getLast? = some extent
  served : (s.taken ++ s.slot).Sublist s.requested
  latest : s.shutdown = false → s.wanted = 0 → s.taken.getLast? = s.requested.getLast?
  applied : worker ≠ .exited → s.taken = s.applied ++ worker.inHand
  given : s.applied <+: s.taken

def ProducerPc.Fits (s : Shared) : ProducerPc → Prop
  | ready extent => Valid extent
  | clearing | shuttingClear | shuttingWake => s.shutdown = true
  | _ => True

/-- A request in the slot has somebody who will see to it: a queued token, a callback before its wake, or
the worker before it looks. -/
def Due (s : Shared) (others : Prop) (looks : Bool) : Prop :=
  s.shutdown = false → s.wanted ≠ 0 → s.token = true ∨ others ∨ looks = true

theorem Shared.slot_zero {s : Shared} (h : s.wanted = 0) : s.slot = [] := by
  unfold Shared.slot
  rw [h, decodeExtent_zero]
  rfl

theorem Shared.slot_encode {s : Shared} {extent : PixelExtent} (hvalid : Valid extent)
    (h : s.wanted = encodeExtent extent) : s.slot = [extent] := by
  unfold Shared.slot
  rw [h, (decodeExtent_encodeExtent hvalid).1]
  rfl

section Steps

variable {s s' : Shared} {pc pc' : ProducerPc} {wpc wpc' : WorkerPc} {e : Event}

theorem ProducerAct.shutdown (ha : ProducerAct s pc e s' pc') (h : s.shutdown = true) :
    s'.shutdown = true := by
  cases ha with
  | gives | shuts => rfl
  | _ => exact h

theorem WorkerAct.shutdown (ha : WorkerAct s wpc e s' wpc') (h : s.shutdown = true) :
    s'.shutdown = true := by
  cases ha with
  | fails => rfl
  | _ => exact h

theorem ProducerPc.Fits.mono (h : pc.Fits s) (hflag : s.shutdown = true → s'.shutdown = true) :
    pc.Fits s' := by
  cases pc with
  | ready => exact h
  | clearing | shuttingClear | shuttingWake => exact hflag h
  | idle | swapped | waking | disconnected => trivial

theorem ProducerAct.fits (ha : ProducerAct s pc e s' pc') (h : pc.Fits s) : pc'.Fits s' := by
  cases ha with
  | request kind info hrequest => exact surfaceRequest_valid hrequest
  | late hflag => exact hflag
  | gives | shuts => rfl
  | shutClears => exact h
  | _ => trivial

theorem Settled.cleared (h : Settled s wpc) (hflag : s.shutdown = true) :
    Settled { s with wanted := 0 } wpc := by
  refine ⟨h.receiver, h.fallen, h.core, Or.inl rfl, ?_, fun hopen => ?_, h.applied, h.given⟩
  · show (s.taken ++ (Shared.slot { s with wanted := 0 })).Sublist s.requested
    rw [Shared.slot_zero rfl, List.append_nil]
    exact (List.sublist_append_left ..).trans h.served
  · rw [hflag] at hopen
    cases hopen

theorem Settled.shut (h : Settled s wpc) : Settled { s with shutdown := true } wpc :=
  ⟨h.receiver, fun _ => rfl, fun _ => rfl, h.slot, h.served, nofun, h.applied, h.given⟩

theorem Settled.tokens (h : Settled s wpc) (token : Bool) : Settled { s with token := token } wpc :=
  ⟨h.receiver, h.fallen, h.core, h.slot, h.served, h.latest, h.applied, h.given⟩

theorem ProducerAct.settled (ha : ProducerAct s pc e s' pc') (hfits : pc.Fits s) (h : Settled s wpc) :
    Settled s' wpc := by
  cases ha with
  | @swap extent =>
    have hvalid : Valid extent := hfits
    have hslot : Shared.slot { s with
        wanted := encodeExtent extent, requested := s.requested ++ [extent] } = [extent] :=
      Shared.slot_encode hvalid rfl
    refine ⟨h.receiver, h.fallen, h.core, Or.inr ⟨extent, hvalid, rfl, List.getLast?_concat⟩, ?_,
      fun _ hzero => absurd hzero (decodeExtent_encodeExtent hvalid).2, h.applied, h.given⟩
    rw [hslot]
    exact ((List.sublist_append_left ..).trans h.served).append (List.Sublist.refl _)
  | wakes | shutWakes => exact h.tokens _
  | gives | shuts => exact h.shut
  | clears | shutClears => exact h.cleared hfits
  | dropsCore hflag =>
    exact ⟨h.receiver, h.fallen, fun _ => hflag, h.slot, h.served, h.latest, h.applied, h.given⟩
  | _ => exact h

theorem Settled.moves (h : Settled s wpc) (hlive : wpc ≠ .exited) (hlive' : wpc' ≠ .exited)
    (hfallen : wpc'.fallen = true → s.shutdown = true) (hhand : wpc'.inHand = wpc.inHand) :
    Settled s wpc' := by
  refine ⟨?_, hfallen, h.core, h.slot, h.served, h.latest, fun _ => ?_, h.given⟩
  · rw [h.receiver]
    exact iff_of_false hlive hlive'
  · rw [hhand]
    exact h.applied hlive

theorem Settled.exits (h : Settled s wpc) (hflag : s.shutdown = true) :
    Settled { s with receiver := false } .exited :=
  ⟨iff_of_true rfl rfl, fun _ => hflag, h.core, h.slot, h.served, h.latest, fun hne => absurd rfl hne,
    h.given⟩

theorem Settled.applies {extent : PixelExtent} (h : Settled s (.applying extent)) (hlive : wpc ≠ .exited)
    (hfallen : wpc.fallen = true → s.shutdown = true) (hhand : wpc.inHand = []) :
    Settled { s with applied := s.applied ++ [extent] } wpc := by
  have htaken : s.taken = s.applied ++ [extent] := h.applied nofun
  refine ⟨?_, hfallen, h.core, h.slot, h.served, h.latest, fun _ => ?_, ?_⟩
  · exact h.receiver.trans (iff_of_false nofun hlive)
  · rw [hhand, List.append_nil]
    exact htaken
  · exact ⟨[], by rw [List.append_nil, htaken]⟩

theorem WorkerAct.settled (ha : WorkerAct s wpc e s' wpc') (h : Settled s wpc) : Settled s' wpc' := by
  cases ha with
  | stops hflag | wokenLate hflag | failsAgain hflag => exact h.exits hflag
  | orphaned _ hcore | coreGone hcore => exact h.exits (h.core hcore)
  | loops | timesOut | wakes | upgrades | settles | rechecks =>
    exact h.moves nofun nofun nofun rfl
  | receives =>
    have hmoved : Settled s .woken := h.moves nofun nofun nofun rfl
    exact hmoved.tokens _
  | drains =>
    have hmoved : Settled s .rechecking := h.moves nofun nofun nofun rfl
    exact hmoved.tokens _
  | resends =>
    have hmoved : Settled s .looping := h.moves nofun nofun nofun rfl
    exact hmoved.tokens _
  | @swap extent hdecode =>
    obtain hzero | ⟨found, hvalid, hwanted, hlast⟩ := h.slot
    · rw [hzero, decodeExtent_zero] at hdecode
      cases hdecode
    · have hsame : found = extent := by
        rw [hwanted, (decodeExtent_encodeExtent hvalid).1] at hdecode
        exact Option.some.inj hdecode
      subst hsame
      have hserved := h.served
      rw [Shared.slot_encode hvalid hwanted] at hserved
      have htaken : s.taken = s.applied ++ [] := h.applied nofun
      rw [List.append_nil] at htaken
      refine ⟨?_, nofun, h.core, Or.inl rfl, ?_, fun _ _ => ?_, fun _ => ?_, ?_⟩
      · exact h.receiver.trans (iff_of_false nofun nofun)
      · rw [Shared.slot_zero rfl, List.append_nil]
        exact hserved
      · show (s.taken ++ [found]).getLast? = s.requested.getLast?
        rw [hlast]
        exact List.getLast?_concat
      · show s.taken ++ [found] = s.applied ++ [found]
        rw [htaken]
      · exact h.given.trans (List.prefix_append ..)
  | swapNothing hdecode =>
    obtain hzero | ⟨found, hvalid, hwanted, -⟩ := h.slot
    · have hsame : ({ s with wanted := 0 } : Shared) = s := by rw [← hzero]
      rw [hsame]
      exact h.moves nofun nofun nofun rfl
    · rw [hwanted, (decodeExtent_encodeExtent hvalid).1] at hdecode
      cases hdecode
  | applies => exact h.applies nofun nofun rfl
  | exhausts => exact h.applies nofun nofun rfl
  | fails => exact h.shut.moves nofun nofun (fun _ => rfl) rfl
  | failClears =>
    have hflag := h.fallen rfl
    exact (h.cleared hflag).moves nofun nofun (fun _ => hflag) rfl
  | failWakes => exact (h.tokens _).exits (h.fallen rfl)

theorem ProducerAct.due {others : Prop} {looks : Bool} (ha : ProducerAct s pc e s' pc')
    (hdue : Due s (others ∨ pc.between = true) looks) :
    Due s' (others ∨ pc'.between = true) looks := by
  intro hopen hwanted
  cases ha with
  | swap => exact Or.inr (Or.inl (Or.inr rfl))
  | proceeds => exact Or.inr (Or.inl (Or.inr rfl))
  | disconnects => exact Or.inr (Or.inl (Or.inr rfl))
  | late hflag =>
    rw [hflag] at hopen
    cases hopen
  | wakes hreceiver =>
    refine Or.inl ?_
    show (s.token || s.receiver) = true
    rw [hreceiver, Bool.or_true]
  | gives | shuts => cases hopen
  | clears | shutClears => exact absurd rfl hwanted
  | shutWakes =>
    rcases hdue hopen hwanted with htoken | hrest
    · refine Or.inl ?_
      show (s.token || s.receiver) = true
      rw [htoken, Bool.true_or]
    · exact Or.inr hrest
  | refused | request | shutsAgain | dropsCore =>
    rcases hdue hopen hwanted with htoken | (hothers | hbetween) | hlooks
    · exact Or.inl htoken
    · exact Or.inr (Or.inl (Or.inl hothers))
    · cases hbetween
    · exact Or.inr (Or.inr hlooks)

theorem WorkerAct.due {others : Prop} (ha : WorkerAct s wpc e s' wpc') (h : Settled s wpc)
    (hdue : Due s others wpc.looks) : Due s' others wpc'.looks := by
  intro hopen hwanted
  cases ha with
  | receives | wakes | drains | rechecks => exact Or.inr (Or.inr rfl)
  | stops hflag | wokenLate hflag | failsAgain hflag =>
    rw [show s.shutdown = false from hopen] at hflag
    cases hflag
  | orphaned _ hcore | coreGone hcore =>
    have hflag := h.core hcore
    rw [show s.shutdown = false from hopen] at hflag
    cases hflag
  | swap | swapNothing | failClears => exact absurd rfl hwanted
  | settles hzero => exact absurd hzero hwanted
  | fails => cases hopen
  | failWakes =>
    have hflag := h.fallen rfl
    rw [show s.shutdown = false from hopen] at hflag
    cases hflag
  | resends =>
    have hreceiver : s.receiver = true := by
      by_contra hne
      have hexited := h.receiver.mp (by simpa using hne)
      cases hexited
    refine Or.inl ?_
    show (s.token || s.receiver) = true
    rw [hreceiver, Bool.or_true]
  | loops | timesOut | upgrades | applies | exhausts =>
    rcases hdue hopen hwanted with htoken | hothers | hlooks
    · exact Or.inl htoken
    · exact Or.inr (Or.inl hothers)
    · cases hlooks

end Steps

/-! ### Runs -/

section Runs

variable {τ : Type*} [DecidableEq τ] {spawned : Bool} {w : ReconfigureWorld τ}

/-- The extents that callbacks have put into the slot, oldest first. -/
def requests (es : List Event) : List PixelExtent :=
  es.filterMap fun
    | .requested extent => some extent
    | _ => none

/-- The extents that the native session was given, oldest first. -/
def applications (es : List Event) : List PixelExtent :=
  es.filterMap fun
    | .applied extent => some extent
    | _ => none

theorem requests_snoc (es : List Event) (e : Event) : requests (es ++ [e]) = requests es ++ requests [e] :=
  List.filterMap_append

theorem applications_snoc (es : List Event) (e : Event) :
    applications (es ++ [e]) = applications es ++ applications [e] := List.filterMap_append

theorem ProducerAct.logs {s s' : Shared} {pc pc' : ProducerPc} {e : Event}
    (ha : ProducerAct s pc e s' pc') :
    s'.requested = s.requested ++ requests [e] ∧ s'.applied = s.applied ++ applications [e] := by
  cases ha with
  | swap => exact ⟨rfl, (List.append_nil _).symm⟩
  | _ => exact ⟨(List.append_nil _).symm, (List.append_nil _).symm⟩

theorem WorkerAct.logs {s s' : Shared} {pc pc' : WorkerPc} {e : Event} (ha : WorkerAct s pc e s' pc') :
    s'.requested = s.requested ++ requests [e] ∧ s'.applied = s.applied ++ applications [e] := by
  cases ha with
  | applies | exhausts => exact ⟨(List.append_nil _).symm, rfl⟩
  | _ => exact ⟨(List.append_nil _).symm, (List.append_nil _).symm⟩

/-- Some callback has changed the slot and not woken the worker yet. -/
def Between (w : ReconfigureWorld τ) : Prop :=
  ∃ t pc, w.pc (some t) = .producer pc ∧ pc.between = true

/-- What holds of a run that has shown `es`. -/
structure Inv (es : List Event) (w : ReconfigureWorld τ) (worker : WorkerPc) : Prop where
  stands : w.pc none = .worker worker
  producers : ∀ t, ∃ pc, w.pc (some t) = .producer pc ∧ pc.Fits w.shared
  settled : Settled w.shared worker
  due : Due w.shared (Between w) worker.looks
  requested : w.shared.requested = requests es
  applied : w.shared.applied = applications es

theorem Due.mono {s : Shared} {others others' : Prop} {looks : Bool} (h : Due s others looks)
    (hothers : others → others') : Due s others' looks := by
  intro hopen hwanted
  rcases h hopen hwanted with htoken | ho | hlooks
  · exact Or.inl htoken
  · exact Or.inr (Or.inl (hothers ho))
  · exact Or.inr (Or.inr hlooks)

omit [DecidableEq τ] in
theorem Inv.start : Inv [] (ReconfigureWorld.start τ spawned) (if spawned then .looping else .exited) := by
  refine ⟨rfl, fun t => ⟨.idle, rfl, trivial⟩, ?_, fun _ hwanted => absurd rfl hwanted, rfl, rfl⟩
  have hslot : (ReconfigureWorld.start τ spawned).shared.slot = [] := Shared.slot_zero rfl
  refine ⟨?_, ?_, nofun, Or.inl rfl, ?_, fun _ _ => rfl, ?_, List.prefix_refl _⟩
  · cases spawned with
    | true => exact iff_of_false nofun nofun
    | false => exact iff_of_true rfl rfl
  · cases spawned with
    | true => exact nofun
    | false => exact fun _ => rfl
  · rw [hslot]
    exact List.nil_sublist _
  · cases spawned with
    | true => exact fun _ => rfl
    | false => exact fun hne => absurd rfl hne

theorem Inv.produces {es : List Event} {worker : WorkerPc} (h : Inv es w worker) {t : τ} {s' : Shared}
    {pc pc' : ProducerPc} {e : Event} (hpc : w.pc (some t) = .producer pc)
    (ha : ProducerAct w.shared pc e s' pc') :
    Inv (es ++ [e]) (w.move (some t) s' (.producer pc')) worker := by
  obtain ⟨found, hfound, hfits⟩ := h.producers t
  obtain rfl : found = pc := Pc.producer.inj (hfound.symm.trans hpc)
  have hnone : (none : Option τ) ≠ some t := nofun
  refine ⟨?_, fun u => ?_, ha.settled hfits h.settled, ?_, ?_, ?_⟩
  · rw [World.move_pc_of_ne _ _ _ _ hnone]
    exact h.stands
  · by_cases hu : u = t
    · subst hu
      exact ⟨pc', World.move_pc_self .., ha.fits hfits⟩
    · obtain ⟨pcu, hpcu, hfitsu⟩ := h.producers u
      rw [World.move_pc_of_ne _ _ _ _ fun hsame => hu (Option.some.inj hsame)]
      exact ⟨pcu, hpcu, hfitsu.mono ha.shutdown⟩
  · -- the others between their swap and their wake are where they were
    have hbefore : Due w.shared ((∃ u, u ≠ t ∧ ∃ pcu, w.pc (some u) = .producer pcu ∧
        pcu.between = true) ∨ found.between = true) worker.looks := by
      refine h.due.mono ?_
      rintro ⟨u, pcu, hpcu, hbetween⟩
      by_cases hu : u = t
      · subst hu
        obtain rfl : found = pcu := Pc.producer.inj (hfound.symm.trans hpcu)
        exact Or.inr hbetween
      · exact Or.inl ⟨u, hu, pcu, hpcu, hbetween⟩
    refine (ha.due hbefore).mono ?_
    rintro (⟨u, hu, pcu, hpcu, hbetween⟩ | hbetween)
    · refine ⟨u, pcu, ?_, hbetween⟩
      rw [World.move_pc_of_ne _ _ _ _ fun hsame => hu (Option.some.inj hsame)]
      exact hpcu
    · exact ⟨t, pc', World.move_pc_self .., hbetween⟩
  · rw [requests_snoc, ← h.requested]
    exact ha.logs.1
  · rw [applications_snoc, ← h.applied]
    exact ha.logs.2

theorem Inv.works {es : List Event} {worker worker' : WorkerPc} (h : Inv es w worker) {s' : Shared}
    {e : Event} (ha : WorkerAct w.shared worker e s' worker') :
    Inv (es ++ [e]) (w.move none s' (.worker worker')) worker' := by
  have hsome : ∀ t : τ, some t ≠ none := fun t => nofun
  refine ⟨World.move_pc_self .., fun u => ?_, ha.settled h.settled, ?_, ?_, ?_⟩
  · obtain ⟨pcu, hpcu, hfits⟩ := h.producers u
    rw [World.move_pc_of_ne _ _ _ _ (hsome u)]
    exact ⟨pcu, hpcu, hfits.mono ha.shutdown⟩
  · refine (ha.due h.settled h.due).mono ?_
    rintro ⟨u, pcu, hpcu, hbetween⟩
    refine ⟨u, pcu, ?_, hbetween⟩
    rw [World.move_pc_of_ne _ _ _ _ (hsome u)]
    exact hpcu
  · rw [requests_snoc, ← h.requested]
    exact ha.logs.1
  · rw [applications_snoc, ← h.applied]
    exact ha.logs.2

theorem inv_of_path {trail : List (ReconfigureWorld τ × (Option τ × Event))}
    (hw : (reconfigureSystem τ spawned).Path (ReconfigureWorld.start τ spawned) trail w) :
    ∃ worker, Inv (events trail) w worker := by
  refine threads_along (P := fun es w => ∃ worker, Inv es w worker) ⟨_, .start⟩ ?_ hw
  rintro es w t e s' pc' - ⟨worker, hinv⟩ hact
  generalize hpc : w.pc t = pc at hact
  cases hact with
  | producer t ha => exact ⟨worker, hinv.produces hpc ha⟩
  | worker ha =>
    obtain rfl := Pc.worker.inj (hinv.stands.symm.trans hpc)
    exact ⟨_, hinv.works ha⟩

/-! ### The law -/

def WorkerPc.idle : WorkerPc → Bool
  | looping | receiving => true
  | _ => false

/-- What the requests keep to after a run that has shown `es`, the worker standing at `worker`. -/
structure RequestLaw (es : List Event) (w : ReconfigureWorld τ) (worker : WorkerPc) : Prop where
  stands : w.pc none = .worker worker
  /-- A request in the slot has somebody who will see to it. -/
  wake : w.shared.shutdown = false → w.shared.wanted ≠ 0 →
    w.shared.token = true ∨ Between w ∨ worker.beforeRecheck = true
  /-- An idle worker does not wait on a request. -/
  waits : w.shared.shutdown = false → worker.idle = true → w.shared.token = false → ¬ Between w →
    w.shared.wanted = 0
  /-- What is applied was requested, in that order. -/
  ordered : (applications es).Sublist (requests es)
  /-- Once everybody rests, what was requested last is applied last. -/
  last : w.shared.shutdown = false → worker.idle = true → w.shared.token = false → ¬ Between w →
    (applications es).getLast? = (requests es).getLast?

theorem WorkerPc.looks_beforeRecheck {pc : WorkerPc} (h : pc.looks = true) :
    pc.beforeRecheck = true := by
  cases pc with
  | woken | swapping | rechecking | resending => rfl
  | _ => cases h

theorem WorkerPc.idle_cases {pc : WorkerPc} (h : pc.idle = true) :
    pc.looks = false ∧ pc.inHand = [] ∧ pc ≠ .exited := by
  cases pc with
  | looping | receiving => exact ⟨rfl, rfl, nofun⟩
  | _ => cases h

omit [DecidableEq τ] in
theorem Inv.waits {es : List Event} {worker : WorkerPc} (h : Inv es w worker)
    (hopen : w.shared.shutdown = false) (hidle : worker.idle = true) (htoken : w.shared.token = false)
    (hbetween : ¬ Between w) : w.shared.wanted = 0 := by
  by_contra hwanted
  rcases h.due hopen hwanted with ht | hb | hlooks
  · rw [htoken] at ht
    cases ht
  · exact hbetween hb
  · rw [(WorkerPc.idle_cases hidle).1] at hlooks
    cases hlooks

/-- **No latest request is lost**: in every run of the callbacks, of whoever shuts the requests down and
of the worker, a request in the slot has somebody who will see to it, what is applied was requested in
that order, and once everybody rests the last request is the last one applied. -/
theorem reconfigure_loses_nothing {trail : List (ReconfigureWorld τ × (Option τ × Event))}
    (hw : (reconfigureSystem τ spawned).Path (ReconfigureWorld.start τ spawned) trail w) :
    ∃ worker, RequestLaw (events trail) w worker := by
  obtain ⟨worker, hinv⟩ := inv_of_path hw
  refine ⟨worker, hinv.stands, fun hopen hwanted => ?_, fun hopen => hinv.waits hopen, ?_, ?_⟩
  · rcases hinv.due hopen hwanted with htoken | hbetween | hlooks
    · exact Or.inl htoken
    · exact Or.inr (Or.inl hbetween)
    · exact Or.inr (Or.inr (WorkerPc.looks_beforeRecheck hlooks))
  · rw [← hinv.requested, ← hinv.applied]
    have htaken : w.shared.taken.Sublist w.shared.requested :=
      (List.sublist_append_left ..).trans hinv.settled.served
    exact hinv.settled.given.sublist.trans htaken
  · intro hopen hidle htoken hbetween
    have hzero := hinv.waits hopen hidle htoken hbetween
    obtain ⟨-, hhand, hlive⟩ := WorkerPc.idle_cases hidle
    have happlied := hinv.settled.applied hlive
    rw [hhand, List.append_nil] at happlied
    rw [← hinv.requested, ← hinv.applied, ← happlied]
    exact hinv.settled.latest hopen hzero

end Runs

/-- A display whose content grows twice while the worker waits: the second request takes the place of
the first, and is applied. -/
theorem reconfigure_loses_nothing_sample :
    ∃ (trail : List (ReconfigureWorld Unit × (Option Unit × Event))) (w : ReconfigureWorld Unit),
      .answered .coalesced ∈ events trail ∧ requests (events trail) = [⟨640, 480⟩, ⟨800, 600⟩] ∧
      applications (events trail) = [⟨800, 600⟩] ∧ ∃ worker, RequestLaw (events trail) w worker := by
  let small : FrameInfo := ⟨640, 480, 320, 240, false, 0, 0⟩
  let large : FrameInfo := ⟨800, 600, 320, 240, false, 0, 0⟩
  have hsmall : surfaceRequest .display small = some ⟨640, 480⟩ := by decide
  have hlarge : surfaceRequest .display large = some ⟨800, 600⟩ := by decide
  have hworker₁ : Solo (@Act Unit) none (ReconfigureWorld.start Unit true).shared (.worker .looping)
      [.silent] _ (.worker .receiving) := .cons (.worker (.loops rfl)) (.nil ..)
  have hproducer : Solo (@Act Unit) (some ()) (ReconfigureWorld.start Unit true).shared
      (.producer .idle) [.silent, .requested ⟨640, 480⟩, .silent, .answered .published,
        .silent, .requested ⟨800, 600⟩, .silent, .answered .coalesced] _ (.producer .idle) :=
    .cons (.producer _ (.request .display small hsmall rfl)) <|
    .cons (.producer _ .swap) <|
    .cons (.producer _ (.proceeds rfl)) <|
    .cons (.producer _ (.wakes rfl)) <|
    .cons (.producer _ (.request .display large hlarge rfl)) <|
    .cons (.producer _ .swap) <|
    .cons (.producer _ (.proceeds rfl)) <|
    .cons (.producer _ (.wakes rfl)) (.nil ..)
  have hworker₂ : Solo (@Act Unit) none
      ⟨encodeExtent ⟨800, 600⟩, false, true, true, true, [⟨640, 480⟩, ⟨800, 600⟩], [], []⟩
      (.worker .receiving)
      [.silent, .silent, .silent, .silent, .applied ⟨800, 600⟩, .silent, .silent] _
      (.worker .looping) :=
    .cons (.worker (.receives rfl)) <|
    .cons (.worker (.wakes rfl)) <|
    .cons (.worker (.swap (by decide : decodeExtent (encodeExtent ⟨800, 600⟩) = some ⟨800, 600⟩))) <|
    .cons (.worker (.upgrades rfl)) <|
    .cons (.worker .applies) <|
    .cons (.worker .drains) <|
    .cons (.worker (.settles rfl)) (.nil ..)
  obtain ⟨trail₁, hpath₁, hes₁⟩ := hworker₁.path
    (System.Path.nil (S := reconfigureSystem Unit true) (ReconfigureWorld.start Unit true)) rfl rfl
  obtain ⟨trail₂, hpath₂, hes₂⟩ := hproducer.path hpath₁ rfl rfl
  obtain ⟨trail₃, hpath₃, hes₃⟩ := hworker₂.path hpath₂ rfl rfl
  have hes : events trail₃ = [.silent, .silent, .requested ⟨640, 480⟩, .silent, .answered .published,
      .silent, .requested ⟨800, 600⟩, .silent, .answered .coalesced, .silent, .silent, .silent,
      .silent, .applied ⟨800, 600⟩, .silent, .silent] := by
    rw [hes₃, hes₂, hes₁]
    rfl
  refine ⟨trail₃, _, ?_, ?_, ?_, reconfigure_loses_nothing hpath₃⟩
  · rw [hes]
    simp
  · rw [hes]
    rfl
  · rw [hes]
    rfl

end MadoPilot.Platform.MacosReconfigure

import MadoPilot.Capture.StreamInvariant

/-!
# Identity and drop accounting over whole runs

The two results about what one stream publishes, over every run of any number of threads.  A run is
read through its trail: `published` lists the publications that returned a frame and `recordedDrops`
counts the drops a recorder was told it had recorded.

* `stream_identity` : stamps, geometry revisions, epochs and snapshots of the published frames;
* `drop_accounting` : every recorded drop is still pending or stands in exactly one sequence gap.
-/

namespace MadoPilot.Capture

open MadoPilot.Core MadoPilot.Lib

variable {τ : Type*}

/-- The publications among `es` that returned a frame, in the order they returned. -/
def published (es : List Event) : List Entry :=
  es.filterMap fun e => match e with
    | .published r frame => some ⟨r, frame⟩
    | _ => none

/-- The calls of `try_record_drop` among `es` that answered `Ok(true)`. -/
def recordedDrops (es : List Event) : ℕ :=
  es.countP fun e => match e with
    | .dropped (.ok true) => true
    | _ => false

/-- The frame that is journalled and whose publication has not returned yet. -/
def Pc.committed : Pc → Option Entry
  | settled r p | announced r p => some ⟨r, p.frame r⟩
  | _ => none

/-- The journalled frame of the publication that holds the mutex. -/
def inFlight (w : StreamWorld τ) : List Entry :=
  match w.shared.holder with
  | some t => (w.pc t).committed.toList
  | none => []

@[simp] theorem published_append (es es' : List Event) :
    published (es ++ es') = published es ++ published es' := List.filterMap_append

@[simp] theorem recordedDrops_append (es es' : List Event) :
    recordedDrops (es ++ es') = recordedDrops es + recordedDrops es' := List.countP_append

theorem Act.quiet_event {round : ℚ → Option ℚ} {t : τ} {s s' : Shared τ} {pc pc' : Pc} {e : Event}
    (h : Act round t s pc e s' pc') (hpc : pc.publishing = false) (hpc' : pc'.publishing = false) :
    published [e] = [] ∧ s'.recorded = s.recorded + recordedDrops [e] := by
  cases h with
  | publish h => cases h <;> first | exact ⟨rfl, rfl⟩ | simp [Pc.publishing] at hpc hpc'
  | drop h => cases h <;> exact ⟨rfl, rfl⟩
  | close h => cases h <;> exact ⟨rfl, rfl⟩
  | frame h => cases h <;> exact ⟨rfl, rfl⟩

def Shared.publish (s : Shared τ) (r : Request) (p : Prepared) : Shared τ :=
  let s := (s.setInner (s.inner.install p (p.frame r))).settle r p
  { s with state := { s.state with publishedAny := true }, holder := none }

theorem solo_publish (round : ℚ → Option ℚ) {t : τ} {s : Shared τ} {r : Request} {p : Prepared} (hn : s.holder = none)
    (hr : r.prepare round s.state = .ok p) :
    Solo (Act round) t s .idle
      [.silent, .observed (p.frame r), .silent, .silent, .published r (p.frame r)]
      (s.publish r p) .idle := by
  exact .cons (.publish (.begin hn hr)) <| .cons (.publish .install) <| .cons (.publish .settle) <|
    .cons (.publish .announce) <| .cons (.publish .release) <| .nil ..

/-- What publications one after the other leave and return; none of them fails. -/
def Shared.publishEach (round : ℚ → Option ℚ) : Shared τ → List Request → Option (Shared τ × List Entry)
  | s, [] => some (s, [])
  | s, r :: rs =>
    match r.prepare round s.state with
    | .error _ => none
    | .ok p => ((s.publish r p).publishEach round rs).map fun found =>
        (found.1, ⟨r, p.frame r⟩ :: found.2)

section Runs

variable {round : ℚ → Option ℚ} {stream : StreamId} {covers : Bool} [DecidableEq τ]
  {trail : List (StreamWorld τ × (τ × Event))} {es : List Event} {w : StreamWorld τ}

theorem path_publishEach {rs : List Request} {t : τ} {s' : Shared τ} {entries : List Entry}
    {w₀ : StreamWorld τ} (h : w.shared.publishEach round rs = some (s', entries))
    (hholder : w.shared.holder = none) (hpc : w.pc t = .idle)
    (hpath : (streamSystem round τ stream covers).Path w₀ trail w) :
    ∃ trail', (streamSystem round τ stream covers).Path w₀ trail' (w.move t s' .idle) ∧
      published (events trail') = published (events trail) ++ entries := by
  induction rs generalizing w trail entries with
  | nil =>
    obtain ⟨rfl, rfl⟩ := Prod.mk.inj (Option.some.inj h)
    refine ⟨trail, ?_, (List.append_nil _).symm⟩
    have hsame : w.move t w.shared .idle = w := by
      rw [← hpc]
      exact World.move_self ..
    rw [hsame]
    exact hpath
  | cons r rs ih =>
    rw [Shared.publishEach] at h
    cases hprepare : r.prepare round w.shared.state with
    | error e =>
      rw [hprepare] at h
      cases h
    | ok p =>
      rw [hprepare] at h
      obtain ⟨⟨s, rest⟩, hrest, hfound⟩ := Option.map_eq_some_iff.mp h
      obtain ⟨rfl, rfl⟩ := Prod.mk.inj hfound
      obtain ⟨trail₁, hpath₁, hevents₁⟩ := (solo_publish round hholder hprepare).path hpath rfl hpc
      obtain ⟨trail₂, hpath₂, hevents₂⟩ := ih hrest rfl (World.move_pc_self ..) hpath₁
      rw [World.move_move] at hpath₂
      refine ⟨trail₂, hpath₂, ?_⟩
      rw [hevents₂, hevents₁, published_append, List.append_assoc]
      rfl

/-- What the events of a run tell about its last world: the journal is what was published, and the
frame in flight; the recorded drops are the ones that were answered. -/
def Told (es : List Event) (w : StreamWorld τ) : Prop :=
  w.shared.journal = inFlight w ++ (published es).reverse ∧ w.shared.recorded = recordedDrops es

theorem Told.publish {t : τ} {e : Event} {s' : Shared τ} {pc' : Pc} (hw : StreamInv round stream covers w)
    (h : PublishAct round t w.shared (w.pc t) e s' pc') (htold : Told es w) :
    Told (es ++ [e]) (w.move t s' pc') := by
  obtain ⟨hj, hrec⟩ := htold
  have hht := hw.holder t
  unfold Told
  rw [published_append, recordedDrops_append, List.reverse_append]
  unfold inFlight at hj ⊢
  generalize hpc : w.pc t = pc at h hht
  cases h with
  | refuse hnone =>
    rw [hnone] at hj
    exact ⟨by simpa [hnone, published] using hj, hrec⟩
  | begin hnone =>
    rw [hnone] at hj
    exact ⟨by simpa [Pc.committed, published] using hj, hrec⟩
  | install =>
    have hsome : w.shared.holder = some t := hht.1 rfl
    simp only [hsome, hpc, Pc.committed] at hj
    exact ⟨by simpa [Shared.setInner, hsome, Pc.committed, published] using hj, hrec⟩
  | settle =>
    have hsome : w.shared.holder = some t := hht.1 rfl
    simp only [hsome, hpc, Pc.committed] at hj
    exact ⟨by simp [Shared.settle, hsome, Pc.committed, published, hj], hrec⟩
  | announce =>
    have hsome : w.shared.holder = some t := hht.1 rfl
    simp only [hsome, hpc, Pc.committed] at hj
    exact ⟨by simpa [hsome, Pc.committed, published] using hj, hrec⟩
  | release =>
    have hsome : w.shared.holder = some t := hht.1 rfl
    simp only [hsome, hpc, Pc.committed] at hj
    exact ⟨by simpa [published] using hj, hrec⟩

theorem Told.quiet {t : τ} {e : Event} {s' : Shared τ} {pc' : Pc} (hw : StreamInv round stream covers w)
    (h : Act round t w.shared (w.pc t) e s' pc') (hq : Quiet w.shared s')
    (hb : (w.pc t).publishing = false) (ha : pc'.publishing = false) (htold : Told es w) :
    Told (es ++ [e]) (w.move t s' pc') := by
  obtain ⟨hj, hrec⟩ := htold
  obtain ⟨hnone, hcount⟩ := h.quiet_event hb ha
  have hflight : inFlight (w.move t s' pc') = inFlight w := by
    unfold inFlight
    rw [World.move_shared, hq.holder]
    cases hh : w.shared.holder with
    | none => rfl
    | some u =>
      have hu : u ≠ t := by
        rintro rfl
        exact absurd ((hw.holder u).2 hh) (by simp [hb])
      simp [hu]
  refine ⟨?_, ?_⟩
  · rw [published_append, hnone, List.append_nil, hflight, ← hj]
    exact hq.journal
  · rw [recordedDrops_append, ← hrec]
    exact hcount

theorem told_of_path (h : (streamSystem round τ stream covers).Path (StreamWorld.start τ stream covers) trail w) :
    Told (events trail) w := by
  refine threads_along ⟨rfl, rfl⟩ (fun es w t e s' pc' hr htold hact => ?_) h
  have hinv := streamInv_reachable hr
  rcases hact.cases with hpub | ⟨hq, hb, ha⟩
  · exact htold.publish hinv hpub
  · exact htold.quiet hinv hact hq hb ha

theorem invariant_of_path
    (h : (streamSystem round τ stream covers).Path (StreamWorld.start τ stream covers) trail w) :
    StreamInv round stream covers w :=
  streamInv_reachable ⟨_, rfl, h.leads⟩

theorem published_chain
    (h : (streamSystem round τ stream covers).Path (StreamWorld.start τ stream covers) trail w) :
    (published (events trail)).reverse.IsChain Entry.Follows := by
  have hc := (invariant_of_path h).sound.chain
  rw [(told_of_path h).1] at hc
  exact hc.right_of_append

theorem published_precedes
    (h : (streamSystem round τ stream covers).Path (StreamWorld.start τ stream covers) trail w) :
    (published (events trail)).Pairwise fun a b => a.frame.stamp.Precedes b.frame.stamp :=
  List.pairwise_reverse.1 (chain_pairwise (R := fun b a : Entry =>
    a.frame.stamp.Precedes b.frame.stamp) (fun _ _ _ hcb hba => hba.trans hcb)
    ((published_chain h).imp fun _ _ => Entry.Follows.precedes))

theorem published_geometry
    (h : (streamSystem round τ stream covers).Path (StreamWorld.start τ stream covers) trail w) :
    (published (events trail)).Pairwise fun a b =>
      a.frame.stamp.geometry ≤ b.frame.stamp.geometry :=
  List.pairwise_reverse.1 (chain_pairwise (R := fun b a : Entry =>
    a.frame.stamp.geometry ≤ b.frame.stamp.geometry) (fun _ _ _ hcb hba => hba.trans hcb)
    ((published_chain h).imp fun _ _ hba => hba.geometry))

theorem published_transform
    (h : (streamSystem round τ stream covers).Path (StreamWorld.start τ stream covers) trail w) :
    ∀ a ∈ published (events trail), ∀ b ∈ published (events trail),
      a.frame.stamp.geometry = b.frame.stamp.geometry → a.frame.transform = b.frame.transform := by
  have hdet := chain_determines (fun e : Entry => e.frame.stamp.geometry)
    (fun e => e.frame.transform) ((published_chain h).imp fun _ _ hba => ⟨hba.geometry, hba.transform⟩)
  exact fun a ha b hb => hdet a (List.mem_reverse.2 ha) b (List.mem_reverse.2 hb)

/-- **Stream identity.**  In every run, the stamps of the published frames strictly increase in
`(epoch, sequence)` and none repeats, the geometry revision never decreases, a change of the extent
or the format and a declared discontinuity open a strictly later epoch at sequence zero, and one
revision has one snapshot. -/
theorem stream_identity
    (h : (streamSystem round τ stream covers).Path (StreamWorld.start τ stream covers) trail w) :
    (published (events trail)).Pairwise (fun a b => a.frame.stamp.Precedes b.frame.stamp) ∧
      ((published (events trail)).map (·.frame.stamp)).Nodup ∧
      (published (events trail)).Pairwise (fun a b => a.frame.stamp.geometry ≤ b.frame.stamp.geometry) ∧
      (∀ earlier a b later, published (events trail) = earlier ++ a :: b :: later → b.Reopens a →
        a.frame.stamp.epoch < b.frame.stamp.epoch ∧ b.frame.stamp.sequence = 0) ∧
      (∀ a ∈ published (events trail), ∀ b ∈ published (events trail),
        a.frame.stamp.geometry = b.frame.stamp.geometry → a.frame.transform = b.frame.transform) := by
  refine ⟨published_precedes h, ?_, published_geometry h, ?_, published_transform h⟩
  · exact List.pairwise_map.2 ((published_precedes h).imp fun hab => hab.ne)
  · intro earlier a b later heq hre
    have hchain := published_chain h
    rw [heq] at hchain
    simp only [List.reverse_append, List.reverse_cons, List.append_assoc, List.cons_append,
      List.nil_append] at hchain
    have hba : b.Follows a := (List.isChain_cons_cons.1 hchain.right_of_append).1
    obtain ⟨he, hs⟩ := hba.reopen hre
    exact ⟨by omega, hs⟩

/-- **Drop accounting.**  At every point of every run, the drops answered `Ok(true)`, less those an
epoch change discarded (there are none), are the pending ones and the ones that the sequence gaps
within an epoch show; a commit never takes more than is pending; the first frame of an epoch has
sequence zero; and the journal is what was published, with the frame in flight. -/
theorem drop_accounting
    (h : (streamSystem round τ stream covers).Path (StreamWorld.start τ stream covers) trail w) :
    recordedDrops (events trail) - w.shared.discarded =
        w.shared.state.pendingDrops + totalCost Entry.gap w.shared.journal ∧
      w.shared.discarded = 0 ∧
      (∀ t r p, w.pc t = .installed r p → p.consumedDrops ≤ w.shared.state.pendingDrops ∧
        (w.shared.settle r p).state.pendingDrops = w.shared.state.pendingDrops - p.consumedDrops) ∧
      (∀ newer e older, w.shared.journal = newer ++ e :: older →
        (∀ a ∈ older, a.frame.stamp.epoch ≠ e.frame.stamp.epoch) → e.frame.stamp.sequence = 0) ∧
      w.shared.journal = inFlight w ++ (published (events trail)).reverse := by
  have hinv := invariant_of_path h
  obtain ⟨hj, hrec⟩ := told_of_path h
  refine ⟨?_, hinv.discarded, fun t r p hpc => ?_, fun newer e older heq hfirst => ?_, hj⟩
  · rw [← hrec, hinv.recorded]
    omega
  · obtain ⟨-, -, -, -, hc, hle⟩ := hpc ▸ hinv.phase t
    exact ⟨hle, (settle_books hinv.pending hc hle).1⟩
  · exact hinv.sound.epoch_first heq hfirst

end Runs

/-! ### A run with two frames -/

section Sample

def narrow : Request :=
  .storage ⟨0, none, .adapter ⟨⟨1, 1⟩, .rgba8, 4, pixel_nonempty, pixel_row, pixel_len⟩ 0, .continuous⟩

def wide : Request :=
  .storage ⟨0, none, .adapter ⟨⟨2, 1⟩, .rgba8, 8, rfl, by decide, by decide⟩ 0, .continuous⟩

theorem sample_path : ∃ (trail : List (StreamWorld Unit × (Unit × Event))) (w : StreamWorld Unit),
    (streamSystem some Unit ⟨1, 1⟩ false).Path (StreamWorld.start Unit ⟨1, 1⟩ false) trail w ∧
      (published (events trail)).map (fun e => (e.frame.stamp.epoch, e.frame.stamp.sequence)) =
        [(0, 0), (1, 0), (1, 2)] ∧ recordedDrops (events trail) = 1 := by
  have hdrop : ∀ s : Shared Unit, s.state.acceptingDrops = true → s.state.publishedAny = true →
      s.state.pendingDrops = 0 → Solo (Act some) () s .idle [.silent, .silent, .dropped (.ok true)]
        { s with state := { s.state with pendingDrops := 1 }, recorded := s.recorded + 1 } .idle :=
    fun s ha hp h0 => .cons (.drop (.accepting ha)) <| .cons (.drop (.somePublished hp)) <|
      .cons (.drop (.record (by rw [h0]; rfl))) <| .nil ..
  obtain ⟨t₁, h₁, e₁⟩ := (solo_publish some (t := ()) (r := narrow) rfl rfl).path
    (.nil (StreamWorld.start Unit ⟨1, 1⟩ false)) rfl rfl
  obtain ⟨t₂, h₂, e₂⟩ := (hdrop _ rfl rfl rfl).path h₁ rfl rfl
  obtain ⟨t₃, h₃, e₃⟩ := (solo_publish some (t := ()) (r := wide) rfl rfl).path h₂ rfl rfl
  obtain ⟨t₄, h₄, e₄⟩ := (solo_publish some (t := ()) (r := wide) rfl rfl).path h₃ rfl rfl
  refine ⟨t₄, _, h₄, ?_, ?_⟩
  · rw [e₄, e₃, e₂, e₁]
    rfl
  · rw [e₄, e₃, e₂, e₁]
    rfl

theorem stream_identity_sample : ∃ trail : List (StreamWorld Unit × (Unit × Event)),
    (published (events trail)).length = 3 ∧
      (published (events trail)).Pairwise (fun a b => a.frame.stamp.Precedes b.frame.stamp) := by
  obtain ⟨trail, w, h, hp, -⟩ := sample_path
  exact ⟨trail, by simpa using congrArg List.length hp, (stream_identity h).1⟩

theorem drop_accounting_sample : ∃ (trail : List (StreamWorld Unit × (Unit × Event)))
    (w : StreamWorld Unit), recordedDrops (events trail) = 1 ∧
      recordedDrops (events trail) - w.shared.discarded =
        w.shared.state.pendingDrops + totalCost Entry.gap w.shared.journal := by
  obtain ⟨trail, w, h, -, hd⟩ := sample_path
  exact ⟨trail, w, hd, (drop_accounting h).1⟩

end Sample

end MadoPilot.Capture

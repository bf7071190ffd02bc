import MadoPilot.Core.Attempt
import MadoPilot.Core.Operation
import MadoPilot.Lib.System

/-!
# Reading the entries of a package

An entry is read in chunks, up to its declared length and no further.  What is read is a parameter:
a reader answers each read with a chunk that fits the buffer, an empty one at its end, or an error.
The entry of an archive is read through a reader that follows the checksum of what passes and turns
the end of the wrong bytes into an error.

* `turn` : one round of the loop after its checkpoint;
* `Yields`, `Ends` : the chunks that a reader gives, and its end;
* `readLoop_eq_ok`, `readLoop_overlong` : what the loop reads, and what it refuses;
* `readChecked_exact` : the checked read gives exactly the entries that are as long as declared and
  have their checksum, and at no time holds more than was declared.
-/

/-! ### Faults -/

namespace MadoPilot.Assets

open MadoPilot.Core

/-- A bounded step of loading. -/
inductive LoadStage where
  | configuration | source | directoryPreParse | directoryOpen | entryMetadata | manifest
  | expansion | commit
  deriving DecidableEq

/-- Which rule a package broke. -/
inductive AssetFaultKind where
  | limitAboveCeiling | sourceUnreadable | sourceChanged | malformedArchive
  | unsupportedCompressionMethod | encryptedEntry | archiveLimit | unsafePath | duplicatePath
  | unsupportedEntryType | declaredSizeMismatch | missingManifest | malformedManifest
  | missingSchemaVersion | unsupportedSchemaVersion | duplicateIdentity | missingEntry
  | unknownTemplate | unknownOcrModel | unsupportedSource | invalidTemplateMetadata
  | invalidOcrModelMetadata | unsupportedOcrProfile | unsupportedTemplateSpace
  | unsupportedHashAlgorithm | malformedHash | hashMismatch | unsupportedContentEncoding
  | arithmeticOverflow | cancelled | deadlineExceeded
  deriving DecidableEq

structure AssetFault where
  kind : AssetFaultKind
  stage : LoadStage
  deriving DecidableEq

namespace AssetFault

def interrupted (i : Interruption) (stage : LoadStage) : AssetFault :=
  match i with
  | .cancelled => ⟨.cancelled, stage⟩
  | .deadlineExceeded => ⟨.deadlineExceeded, stage⟩

def Interrupts (fault : AssetFault) : Prop :=
  fault.kind = .cancelled ∨ fault.kind = .deadlineExceeded

theorem interrupted_interrupts (stage : LoadStage) (i : Interruption) :
    (interrupted i stage).Interrupts := by
  cases i
  · exact Or.inl rfl
  · exact Or.inr rfl

end AssetFault

end MadoPilot.Assets

namespace MadoPilot.Assets

open MadoPilot.Core MadoPilot.Lib

/-- The largest `isize`: no buffer is longer. -/
def isizeMax : ℕ := 2 ^ 63 - 1

def chunkBytes : ℕ := 64 * 1024

/-- The memory of a host: whether a buffer of some length can be reserved. -/
structure Memory where
  reserves : ℕ → Bool
  reserves_le : ∀ n, reserves n = true → n ≤ isizeMax

/-- A source of bytes. -/
structure Reader (ρ : Type) where
  read : ρ → ℕ → Except Unit (List UInt8) × ρ
  read_length : ∀ r n chunk r', read r n = (.ok chunk, r') → chunk.length ≤ n

/-- A checksum that is taken as the bytes come. -/
structure Checksum (H : Type) where
  new : H
  update : H → List UInt8 → H
  finalize : H → UInt32
  update_nil : ∀ h, update h [] = h
  update_append : ∀ h a b, update h (a ++ b) = update (update h a) b

def Checksum.of {H : Type} (C : Checksum H) (bytes : List UInt8) : UInt32 :=
  C.finalize (C.update C.new bytes)

/-- What the loop of `read_capped` holds. -/
structure Reading (ρ : Type) where
  source : ρ
  total : ℕ
  produced : List UInt8

/-- How a round of the loop ends where it does not fail. -/
inductive Turn (ρ : Type) where
  | goes (s : Reading ρ)
  | ends (source : ρ)

variable {ρ H : Type}

/-- One round, after the checkpoint. -/
def turn (R : Reader ρ) (declared : ℕ) (stage : LoadStage) (s : Reading ρ) :
    Except AssetFault (Turn ρ) :=
  match R.read s.source chunkBytes with
  | (.error _, _) => .error ⟨.sourceUnreadable, stage⟩
  | (.ok chunk, source) =>
    if chunk.length = 0 then
      if s.total ≠ declared then .error ⟨.declaredSizeMismatch, stage⟩
      else .ok (.ends source)
    else
      match checkedAdd u64Max s.total chunk.length with
      | none => .error ⟨.arithmeticOverflow, stage⟩
      | some total =>
        if total > declared then .error ⟨.declaredSizeMismatch, stage⟩
        else .ok (.goes ⟨source, total, s.produced ++ chunk⟩)

theorem turn_eq_goes {R : Reader ρ} {declared : ℕ} {stage : LoadStage} {s s' : Reading ρ}
    (h : turn R declared stage s = .ok (.goes s')) :
    ∃ chunk, R.read s.source chunkBytes = (.ok chunk, s'.source) ∧ chunk ≠ [] ∧
      s'.total = s.total + chunk.length ∧ s'.total ≤ declared ∧
      s'.produced = s.produced ++ chunk := by
  unfold turn at h
  rcases hread : R.read s.source chunkBytes with ⟨answer, source⟩
  rw [hread] at h
  cases answer with
  | error e => cases h
  | ok chunk =>
    by_cases hempty : chunk.length = 0
    · simp only [if_pos hempty] at h
      split at h <;> cases h
    · simp only [if_neg hempty] at h
      cases htotal : checkedAdd u64Max s.total chunk.length with
      | none =>
        rw [htotal] at h
        cases h
      | some total =>
        simp only [htotal] at h
        by_cases hover : total > declared
        · rw [if_pos hover] at h
          cases h
        · rw [if_neg hover] at h
          obtain rfl := Turn.goes.inj (Except.ok.inj h)
          have hne : chunk ≠ [] := fun hnil => hempty (by rw [hnil]; rfl)
          exact ⟨chunk, rfl, hne, (checkedAdd_eq_some.mp htotal).1, Nat.le_of_not_gt hover, rfl⟩

theorem turn_eq_ends {R : Reader ρ} {declared : ℕ} {stage : LoadStage} {s : Reading ρ} {r : ρ}
    (h : turn R declared stage s = .ok (.ends r)) :
    R.read s.source chunkBytes = (.ok [], r) ∧ s.total = declared := by
  unfold turn at h
  rcases hread : R.read s.source chunkBytes with ⟨answer, source⟩
  rw [hread] at h
  cases answer with
  | error e => cases h
  | ok chunk =>
    by_cases hempty : chunk.length = 0
    · simp only [if_pos hempty] at h
      by_cases htotal : s.total ≠ declared
      · rw [if_pos htotal] at h
        cases h
      · rw [if_neg htotal] at h
        obtain rfl := Turn.ends.inj (Except.ok.inj h)
        obtain rfl := List.eq_nil_of_length_eq_zero hempty
        exact ⟨rfl, not_not.mp htotal⟩
    · simp only [if_neg hempty] at h
      split at h
      · cases h
      · split at h <;> cases h

/-- The loop of `read_capped`: a checkpoint before every read. -/
def readLoop (R : Reader ρ) (declared : ℕ) (stage : LoadStage) (op : Operation) (s : Reading ρ) :
    Attempted AssetFault (List UInt8 × ρ) := do
  op.check fun i => .interrupted i stage
  match _h : turn R declared stage s with
  | .error fault => .fail fault
  | .ok (.ends source) => pure (s.produced, source)
  | .ok (.goes s') => readLoop R declared stage op s'
termination_by declared - s.total
decreasing_by
  obtain ⟨chunk, -, hne, htotal, hle, -⟩ := turn_eq_goes _h
  have := List.length_pos_of_ne_nil hne
  omega

/-- Reads a source in chunks, refusing to produce more than the declared bytes. -/
def readCapped (memory : Memory) (R : Reader ρ) (source : ρ) (declared : UInt64) (stage : LoadStage)
    (op : Operation) : Attempted AssetFault (List UInt8 × ρ) := do
  op.check fun i => .interrupted i stage
  if memory.reserves declared.toNat then
    readLoop R declared.toNat stage op ⟨source, 0, []⟩
  else
    .fail ⟨.sourceUnreadable, stage⟩

def checksumReader (R : Reader ρ) (C : Checksum H) (expected : UInt32) : Reader (ρ × H) where
  read s n :=
    match R.read s.1 n with
    | (.error e, r) => (.error e, (r, s.2))
    | (.ok chunk, r) =>
      if chunk.length = 0 ∧ n ≠ 0 ∧ C.finalize s.2 ≠ expected then (.error (), (r, s.2))
      else (.ok chunk, (r, C.update s.2 chunk))
  read_length := by
    intro s n chunk s' h
    rcases hread : R.read s.1 n with ⟨answer, r⟩
    rw [hread] at h
    cases answer with
    | error e => cases (Prod.mk.inj h).1
    | ok chunk' =>
      simp only at h
      split at h
      · cases (Prod.mk.inj h).1
      · obtain rfl := Except.ok.inj (Prod.mk.inj h).1
        exact R.read_length s.1 n _ r hread

def readChecked (memory : Memory) (R : Reader ρ) (C : Checksum H) (source : ρ) (checksum : UInt32)
    (declared : UInt64) (stage : LoadStage) (op : Operation) :
    Attempted AssetFault (List UInt8 × (ρ × H)) :=
  readCapped memory (checksumReader R C checksum) (source, C.new) declared stage op

/-! ### What a reader gives -/

/-- From `r` the reads give these chunks in turn, and lead to `r'`. -/
inductive Yields (R : Reader ρ) : ρ → List (List UInt8) → ρ → Prop
  | nil (r : ρ) : Yields R r [] r
  | cons {r r₁ r₂ : ρ} {chunk : List UInt8} {chunks : List (List UInt8)} :
      R.read r chunkBytes = (.ok chunk, r₁) → chunk ≠ [] → Yields R r₁ chunks r₂ →
      Yields R r (chunk :: chunks) r₂

/-- The next read finds the end. -/
def Ends (R : Reader ρ) (r : ρ) : Prop := (R.read r chunkBytes).1 = .ok []

theorem Ends.read {R : Reader ρ} {r : ρ} (h : Ends R r) :
    ∃ r', R.read r chunkBytes = (.ok [], r') := by
  unfold Ends at h
  rcases hread : R.read r chunkBytes with ⟨answer, r'⟩
  rw [hread] at h
  exact ⟨r', by rw [← h]⟩

section Loop

variable {R : Reader ρ} {declared : ℕ} {stage : LoadStage} {op : Operation} {s s' : Reading ρ}
  {chunk bytes : List UInt8} {chunks : List (List UInt8)} {r r' : ρ}

/-! ### A round -/

theorem turn_of_end (h : R.read s.source chunkBytes = (.ok [], r)) (htotal : s.total = declared) :
    turn R declared stage s = .ok (.ends r) := by
  unfold turn
  rw [h]
  simp [htotal]

theorem turn_of_room (stage : LoadStage) (h : R.read s.source chunkBytes = (.ok chunk, r)) (hne : chunk ≠ [])
    (hroom : s.total + chunk.length ≤ declared) (hmax : declared ≤ u64Max) :
    turn R declared stage s = .ok (.goes ⟨r, s.total + chunk.length, s.produced ++ chunk⟩) := by
  unfold turn
  have hlen : chunk.length ≠ 0 := fun hnil => hne (List.eq_nil_of_length_eq_zero hnil)
  have hover : ¬s.total + chunk.length > declared := Nat.not_lt.mpr hroom
  rw [h]
  simp only [if_neg hlen, checkedAdd_of_le (Nat.le_trans hroom hmax), if_neg hover]

theorem turn_of_over (stage : LoadStage) (h : R.read s.source chunkBytes = (.ok chunk, r)) (hne : chunk ≠ [])
    (hover : declared < s.total + chunk.length) (hmax : s.total + chunk.length ≤ u64Max) :
    turn R declared stage s = .error ⟨.declaredSizeMismatch, stage⟩ := by
  unfold turn
  have hlen : chunk.length ≠ 0 := fun hnil => hne (List.eq_nil_of_length_eq_zero hnil)
  rw [h]
  simp only [if_neg hlen, checkedAdd_of_le hmax, if_pos hover]

/-! ### The loop -/

theorem readLoop_fault {fault : AssetFault} (h : turn R declared stage s = .error fault) :
    readLoop R declared stage op s = (op.check (.interrupted · stage) >>= fun _ => .fail fault) := by
  rw [readLoop]
  congr 1
  funext _
  split <;> simp_all

theorem readLoop_ends (h : turn R declared stage s = .ok (.ends r)) :
    readLoop R declared stage op s =
      (op.check (.interrupted · stage) >>= fun _ => pure (s.produced, r)) := by
  rw [readLoop]
  congr 1
  funext _
  split <;> simp_all

theorem readLoop_goes (h : turn R declared stage s = .ok (.goes s')) :
    readLoop R declared stage op s =
      (op.check (.interrupted · stage) >>= fun _ => readLoop R declared stage op s') := by
  rw [readLoop]
  congr 1
  funext _
  split <;> simp_all

theorem rounds_induction (R : Reader ρ) (declared : ℕ) (stage : LoadStage) {P : Reading ρ → Prop}
    (fault : ∀ s f, turn R declared stage s = .error f → P s)
    (ends : ∀ s r, turn R declared stage s = .ok (.ends r) → P s)
    (goes : ∀ s s', turn R declared stage s = .ok (.goes s') → P s' → P s) (s : Reading ρ) : P s := by
  induction hleft : declared - s.total using Nat.strong_induction_on generalizing s with
  | _ left ih =>
    cases hturn : turn R declared stage s with
    | error f => exact fault s f hturn
    | ok result =>
      cases result with
      | ends r => exact ends s r hturn
      | goes s' =>
        obtain ⟨chunk, -, hne, htotal, hle, -⟩ := turn_eq_goes hturn
        have hpos := List.length_pos_of_ne_nil hne
        exact goes s s' hturn (ih _ (by omega) s' rfl)

theorem readLoop_obeys (s : Reading ρ) :
    (readLoop R declared stage op s).Obeys AssetFault.Interrupts := by
  have hcheck : (op.check (AssetFault.interrupted · stage)).Obeys AssetFault.Interrupts :=
    Operation.check_obeys (AssetFault.interrupted_interrupts stage)
  induction s using rounds_induction R declared stage with
  | fault s f h =>
    rw [readLoop_fault h]
    exact hcheck.bind fun _ => .fail f
  | ends s r h =>
    rw [readLoop_ends h]
    exact hcheck.bind fun _ => .pure _
  | goes s s' h ih =>
    rw [readLoop_goes h]
    exact hcheck.bind fun _ => ih

theorem readLoop_asks (hop : op.terminal = none) (hle : s.total ≤ declared) :
    (readLoop R declared stage op s).asks ≤ declared - s.total + 1 := by
  induction s using rounds_induction R declared stage with
  | fault s f h =>
    rw [readLoop_fault h, Operation.check_eq hop, Guarded.asks_check_bind]
    exact Nat.succ_le_succ (Nat.zero_le _)
  | ends s r h =>
    rw [readLoop_ends h, Operation.check_eq hop, Guarded.asks_check_bind]
    exact Nat.succ_le_succ (Nat.zero_le _)
  | goes s s' h ih =>
    obtain ⟨chunk, -, hne, htotal, hle', -⟩ := turn_eq_goes h
    have hpos := List.length_pos_of_ne_nil hne
    have hrest := ih hle'
    rw [readLoop_goes h, Operation.check_eq hop, Guarded.asks_check_bind]
    omega

theorem readLoop_exact (stage : LoadStage) (hop : op.terminal = none) (hmax : declared ≤ u64Max)
    (hyields : Yields R s.source chunks r) (hend : R.read r chunkBytes = (.ok [], r'))
    (htotal : s.total + chunks.flatten.length = declared) :
    (readLoop R declared stage op s).quiet = .ok (s.produced ++ chunks.flatten, r') ∧
      (readLoop R declared stage op s).asks = chunks.length + 1 := by
  generalize hsource : s.source = source at hyields
  induction hyields generalizing s with
  | nil =>
    subst hsource
    have hturn : turn R declared stage s = .ok (.ends r') := turn_of_end hend htotal
    rw [readLoop_ends hturn, Operation.check_eq hop]
    refine ⟨?_, rfl⟩
    rw [List.flatten_nil, List.append_nil]
    rfl
  | @cons source r₁ _ chunk chunks hread hne _ ih =>
    subst hsource
    rw [List.flatten_cons, List.length_append] at htotal
    have hturn := turn_of_room stage hread hne (by omega) hmax
    have hrest : s.total + chunk.length + chunks.flatten.length = declared := by omega
    obtain ⟨hquiet, hasks⟩ := ih (s := ⟨r₁, s.total + chunk.length, s.produced ++ chunk⟩) hend
      hrest rfl
    rw [readLoop_goes hturn, Operation.check_eq hop, Guarded.bind_check_quiet,
      Guarded.asks_check_bind, hquiet, hasks, List.append_assoc]
    exact ⟨rfl, rfl⟩

theorem readLoop_eq_ok (hop : op.terminal = none)
    (h : (readLoop R declared stage op s).quiet = .ok (bytes, r')) :
    ∃ chunks r, Yields R s.source chunks r ∧ R.read r chunkBytes = (.ok [], r') ∧
      bytes = s.produced ++ chunks.flatten ∧ s.total + chunks.flatten.length = declared := by
  induction s using rounds_induction R declared stage with
  | fault s f hturn =>
    rw [readLoop_fault hturn, Operation.check_eq hop] at h
    cases h
  | ends s r hturn =>
    rw [readLoop_ends hturn, Operation.check_eq hop] at h
    obtain ⟨rfl, rfl⟩ := Prod.mk.inj (Except.ok.inj h)
    obtain ⟨hread, htotal⟩ := turn_eq_ends hturn
    exact ⟨[], s.source, .nil _, hread, (List.append_nil _).symm, htotal⟩
  | goes s s' hturn ih =>
    rw [readLoop_goes hturn, Operation.check_eq hop] at h
    obtain ⟨chunk, hread, hne, htotal, -, hproduced⟩ := turn_eq_goes hturn
    obtain ⟨chunks, r, hyields, hend, hbytes, hlength⟩ := ih h
    refine ⟨chunk :: chunks, r, .cons hread hne hyields, hend, ?_, ?_⟩
    · rw [hbytes, hproduced, List.flatten_cons, List.append_assoc]
    · rw [List.flatten_cons, List.length_append]
      omega

theorem readLoop_overlong (stage : LoadStage) (hop : op.terminal = none) (hmax : declared + chunkBytes ≤ u64Max)
    (hle : s.total ≤ declared) (hyields : Yields R s.source chunks r)
    (hover : declared < s.total + chunks.flatten.length) :
    (readLoop R declared stage op s).quiet = .error ⟨.declaredSizeMismatch, stage⟩ ∧
      (readLoop R declared stage op s).asks ≤ chunks.length := by
  generalize hsource : s.source = source at hyields
  induction hyields generalizing s with
  | nil =>
    rw [List.flatten_nil, List.length_nil] at hover
    omega
  | @cons source r₁ _ chunk chunks hread hne _ ih =>
    subst hsource
    rw [List.flatten_cons, List.length_append] at hover
    by_cases hroom : s.total + chunk.length ≤ declared
    · have hturn := turn_of_room stage hread hne hroom (by omega)
      have hrest : declared < s.total + chunk.length + chunks.flatten.length := by omega
      obtain ⟨hquiet, hasks⟩ := ih (s := ⟨r₁, s.total + chunk.length, s.produced ++ chunk⟩) hroom
        hrest rfl
      rw [readLoop_goes hturn, Operation.check_eq hop, Guarded.bind_check_quiet,
        Guarded.asks_check_bind]
      exact ⟨hquiet, Nat.succ_le_succ hasks⟩
    · have hfits := R.read_length s.source chunkBytes chunk r₁ hread
      have hturn := turn_of_over stage hread hne (Nat.lt_of_not_le hroom) (by omega)
      rw [readLoop_fault hturn, Operation.check_eq hop]
      exact ⟨rfl, Nat.succ_le_succ (Nat.zero_le _)⟩

/-- What the loop holds after a round that goes on. -/
def next (R : Reader ρ) (declared : ℕ) (stage : LoadStage) (s : Reading ρ) : Option (Reading ρ) :=
  match turn R declared stage s with
  | .ok (.goes s') => some s'
  | _ => none

theorem next_eq_some (h : next R declared stage s = some s') :
    turn R declared stage s = .ok (.goes s') := by
  unfold next at h
  split at h
  · rename_i hturn
    rw [hturn, Option.some.inj h]
  · cases h

def rounds (R : Reader ρ) (declared : ℕ) (stage : LoadStage) (source : ρ) :
    System (Reading ρ) Unit :=
  System.computed ⟨source, 0, []⟩ fun s _ => next R declared stage s

/-- **No more than was declared is retained.**  What is held is counted right and stays within the
declared length, with a byte at least for every round. -/
theorem rounds_held {source : ρ} {trail : List (Reading ρ × Unit)}
    (h : (rounds R declared stage source).Path ⟨source, 0, []⟩ trail s) :
    s.produced.length = s.total ∧ trail.length ≤ s.total ∧ s.total ≤ declared := by
  refine System.Path.along (P := fun trail s => s.produced.length = s.total ∧
    trail.length ≤ s.total ∧ s.total ≤ declared) ⟨rfl, Nat.le_refl 0, Nat.zero_le _⟩ ?_ h
  rintro trail s i s' - ⟨hproduced, htrail, -⟩ hstep
  obtain ⟨chunk, -, hne, htotal, hle, hgrown⟩ := turn_eq_goes (next_eq_some hstep)
  have hpos := List.length_pos_of_ne_nil hne
  refine ⟨?_, ?_, hle⟩
  · rw [hgrown, List.length_append]
    omega
  · rw [List.length_append, List.length_singleton]
    omega

end Loop

/-! ### The checksum -/

section Checked

variable {R : Reader ρ} {C : Checksum H} {expected : UInt32} {r r' : ρ} {hash : H}
  {chunks : List (List UInt8)}

theorem Yields.checksum (h : Yields R r chunks r') (C : Checksum H) (expected : UInt32) (hash : H) :
    Yields (checksumReader R C expected) (r, hash) chunks (r', C.update hash chunks.flatten) := by
  induction h generalizing hash with
  | nil r =>
    rw [List.flatten_nil, C.update_nil]
    exact .nil _
  | @cons r r₁ r₂ chunk chunks hread hne _ ih =>
    have hlen : chunk.length ≠ 0 := fun hnil => hne (List.eq_nil_of_length_eq_zero hnil)
    have hstep : (checksumReader R C expected).read (r, hash) chunkBytes =
        (.ok chunk, (r₁, C.update hash chunk)) := by
      unfold checksumReader
      simp only [hread, hlen, false_and, if_false]
    rw [List.flatten_cons, C.update_append]
    exact .cons hstep hne (ih _)

theorem Yields.of_checksum {hash' : H}
    (h : Yields (checksumReader R C expected) (r, hash) chunks (r', hash')) :
    Yields R r chunks r' ∧ hash' = C.update hash chunks.flatten := by
  generalize hstart : (r, hash) = start at h
  generalize hfinal : (r', hash') = final at h
  induction h generalizing r hash with
  | nil s =>
    subst hfinal
    obtain ⟨rfl, rfl⟩ := Prod.mk.inj hstart
    exact ⟨.nil _, (C.update_nil _).symm⟩
  | @cons s s₁ s₂ chunk chunks hread hne _ ih =>
    subst hstart
    unfold checksumReader at hread
    rcases hinner : R.read r chunkBytes with ⟨answer, r₁⟩
    simp only [hinner] at hread
    cases answer with
    | error e => cases (Prod.mk.inj hread).1
    | ok chunk' =>
      simp only at hread
      split at hread
      · cases (Prod.mk.inj hread).1
      · obtain ⟨hchunk, rfl⟩ := Prod.mk.inj hread
        obtain rfl := Except.ok.inj hchunk
        obtain ⟨hrest, hhash⟩ := ih rfl hfinal
        refine ⟨.cons hinner hne hrest, ?_⟩
        rw [hhash, List.flatten_cons, C.update_append]

theorem checksum_ends :
    Ends (checksumReader R C expected) (r, hash) ↔ Ends R r ∧ C.finalize hash = expected := by
  have hpos : chunkBytes ≠ 0 := by decide
  unfold Ends checksumReader
  rcases hread : R.read r chunkBytes with ⟨answer, r'⟩
  cases answer with
  | error e => simp [hread]
  | ok chunk =>
    simp only [hread]
    by_cases hlen : chunk.length = 0
    · by_cases hsum : C.finalize hash = expected
      · simp [hsum]
      · obtain rfl := List.eq_nil_of_length_eq_zero hlen
        simp [hsum, hpos]
    · have hne : chunk ≠ [] := fun hnil => hlen (by rw [hnil]; rfl)
      simp [hne]

end Checked

/-! ### The checked read -/

section Entry

variable {memory : Memory} {R : Reader ρ} {C : Checksum H} {source : ρ} {checksum : UInt32}
  {declared : UInt64} {stage : LoadStage} {op : Operation} {answers : ℕ → Option Interruption}

/-- The first `n` looks at the context let the operation go on. -/
def Uninterrupted (op : Operation) (answers : ℕ → Option Interruption) (n : ℕ) : Prop :=
  op.terminal = none ∧ ∀ k < n, answers k = none

theorem readCapped_obeys : (readCapped memory R source declared stage op).Obeys
    AssetFault.Interrupts :=
  (Operation.check_obeys (AssetFault.interrupted_interrupts stage)).bind fun _ =>
    .ite (readLoop_obeys _) (.fail _)

theorem readCapped_latched {i : Interruption} (h : op.terminal = some i) :
    (readCapped memory R source declared stage op).run answers = .error (.interrupted i stage) := by
  unfold readCapped Operation.check
  rw [h]
  rfl

theorem readCapped_reserved (hop : op.terminal = none) (h : memory.reserves declared.toNat = true) :
    readCapped memory R source declared stage op =
      (Guarded.check (.interrupted · stage) >>= fun _ =>
        readLoop R declared.toNat stage op ⟨source, 0, []⟩) := by
  unfold readCapped
  rw [Operation.check_eq hop, if_pos h]

theorem readCapped_eq_ok {bytes : List UInt8} {r' : ρ} :
    (readCapped memory R source declared stage op).run answers = .ok (bytes, r') ↔
      memory.reserves declared.toNat = true ∧ ∃ chunks r, Yields R source chunks r ∧
        R.read r chunkBytes = (.ok [], r') ∧ chunks.flatten = bytes ∧
        bytes.length = declared.toNat ∧ Uninterrupted op answers (chunks.length + 2) := by
  have hmax : declared.toNat ≤ u64Max := Nat.le_pred_of_lt declared.toNat_lt
  constructor
  · intro h
    cases hop : op.terminal with
    | some i =>
      rw [readCapped_latched hop] at h
      cases h
    | none =>
      obtain ⟨hnone, hquiet⟩ := readCapped_obeys.run_eq_ok.mp h
      by_cases hreserves : memory.reserves declared.toNat = true
      · rw [readCapped_reserved hop hreserves] at hnone hquiet
        obtain ⟨chunks, r, hyields, hend, rfl, hlength⟩ := readLoop_eq_ok hop hquiet
        obtain ⟨-, hasks⟩ := readLoop_exact stage hop hmax hyields hend hlength
        rw [Guarded.asks_check_bind, hasks] at hnone
        rw [Nat.zero_add] at hlength
        exact ⟨hreserves, chunks, r, hyields, hend, rfl, hlength, hop, hnone⟩
      · unfold readCapped at hquiet
        rw [Operation.check_eq hop, if_neg hreserves] at hquiet
        cases hquiet
  · rintro ⟨hreserves, chunks, r, hyields, hend, rfl, hlength, hop, hnone⟩
    have htotal : (⟨source, 0, []⟩ : Reading ρ).total + chunks.flatten.length = declared.toNat := by
      rw [hlength, Nat.zero_add]
    obtain ⟨hquiet, hasks⟩ := readLoop_exact stage hop hmax hyields hend htotal
    refine readCapped_obeys.run_eq_ok.mpr ⟨?_, ?_⟩
    · rw [readCapped_reserved hop hreserves, Guarded.asks_check_bind, hasks]
      exact hnone
    · rw [readCapped_reserved hop hreserves]
      exact hquiet

/-- **The checked read.**  It gives exactly the entries whose bytes, as far as the end of the source,
are as many as declared and have the checksum, in an operation that is not interrupted and whose
buffer can be reserved; a source that passes the declared length is reported as such; at no time is
more held than was declared, and the loop reads once for every declared byte, and once more, at
most. -/
theorem readChecked_exact :
    (∀ bytes, (∃ s, (readChecked memory R C source checksum declared stage op).run answers =
        .ok (bytes, s)) ↔
      memory.reserves declared.toNat = true ∧ ∃ chunks r, Yields R source chunks r ∧ Ends R r ∧
        chunks.flatten = bytes ∧ bytes.length = declared.toNat ∧ C.of bytes = checksum ∧
        Uninterrupted op answers (chunks.length + 2)) ∧
    (∀ chunks r, Yields R source chunks r → declared.toNat < chunks.flatten.length →
      memory.reserves declared.toNat = true → Uninterrupted op answers (chunks.length + 1) →
      (readChecked memory R C source checksum declared stage op).run answers =
        .error ⟨.declaredSizeMismatch, stage⟩) ∧
    (∀ trail s, (rounds (checksumReader R C checksum) declared.toNat stage (source, C.new)).Path
        ⟨(source, C.new), 0, []⟩ trail s →
      s.produced.length ≤ declared.toNat ∧ trail.length ≤ declared.toNat) ∧
    (op.terminal = none →
      (readLoop (checksumReader R C checksum) declared.toNat stage op
        ⟨(source, C.new), 0, []⟩).asks ≤ declared.toNat + 1) := by
  refine ⟨fun bytes => ?_, fun chunks r hyields hover hreserves hnone => ?_,
    fun trail s hpath => ?_, fun hop => ?_⟩
  · constructor
    · rintro ⟨⟨r', hash'⟩, h⟩
      obtain ⟨hreserves, chunks, ⟨r, hash⟩, hyields, hend, rfl, hlength, hnone⟩ :=
        readCapped_eq_ok.mp h
      obtain ⟨hsource, rfl⟩ := hyields.of_checksum
      obtain ⟨hends, hsum⟩ := checksum_ends.mp (congrArg Prod.fst hend)
      exact ⟨hreserves, chunks, r, hsource, hends, rfl, hlength, hsum, hnone⟩
    · rintro ⟨hreserves, chunks, r, hsource, hends, rfl, hlength, hsum, hnone⟩
      have hyields := hsource.checksum C checksum C.new
      obtain ⟨s, hend⟩ := (checksum_ends.mpr ⟨hends, hsum⟩).read
      exact ⟨s, readCapped_eq_ok.mpr
        ⟨hreserves, chunks, _, hyields, hend, rfl, hlength, hnone⟩⟩
  · obtain ⟨hop, hnone⟩ := hnone
    have hyields' := hyields.checksum C checksum C.new
    have hmax : declared.toNat + chunkBytes ≤ u64Max := by
      have := memory.reserves_le _ hreserves
      unfold isizeMax at this
      unfold chunkBytes u64Max
      omega
    have htotal : declared.toNat < (⟨(source, C.new), 0, []⟩ : Reading (ρ × H)).total +
        chunks.flatten.length := by
      rw [Nat.zero_add]
      exact hover
    obtain ⟨hquiet, hasks⟩ := readLoop_overlong stage hop hmax (Nat.zero_le _) hyields'
      htotal
    unfold readChecked
    rw [readCapped_reserved hop hreserves, Guarded.run_eq_quiet]
    · exact hquiet
    · intro n hn
      rw [Guarded.asks_check_bind] at hn
      exact hnone n (by omega)
  · obtain ⟨hproduced, htrail, hle⟩ := rounds_held hpath
    exact ⟨by omega, Nat.le_trans htrail hle⟩
  · exact readLoop_asks hop (Nat.zero_le _)

end Entry

/-! ### A concrete entry -/

/-- A host that reserves every buffer it can address. -/
def roomy : Memory where
  reserves n := n ≤ isizeMax
  reserves_le _ h := of_decide_eq_true h

/-- A source that is all there. -/
def listReader : Reader (List UInt8) where
  read bytes n := (.ok (bytes.take n), bytes.drop n)
  read_length bytes _ chunk rest h := by
    obtain ⟨hchunk, -⟩ := Prod.mk.inj h
    obtain rfl := Except.ok.inj hchunk
    exact List.length_take_le _ bytes

def crcBit (c : UInt32) : UInt32 := if c &&& 1 = 1 then (c >>> 1) ^^^ 0xEDB88320 else c >>> 1

def crcByte (c : UInt32) (byte : UInt8) : UInt32 :=
  crcBit (crcBit (crcBit (crcBit (crcBit (crcBit (crcBit (crcBit (c ^^^ byte.toUInt32))))))))

def crc32 : Checksum UInt32 where
  new := 0xFFFFFFFF
  update := List.foldl crcByte
  finalize c := c ^^^ 0xFFFFFFFF
  update_nil _ := rfl
  update_append _ _ _ := List.foldl_append

/-- The entry `a` is read by its checksum, and `ab` is too long where one byte was declared. -/
theorem readChecked_exact_letter :
    (∃ s, (readChecked roomy listReader crc32 [0x61] 0xE8B7BE43 1 .expansion ⟨none⟩).run
      (fun _ => none) = .ok ([0x61], s)) ∧
    (readChecked roomy listReader crc32 [0x61, 0x62] 0xE8B7BE43 1 .expansion ⟨none⟩).run
      (fun _ => none) = .error ⟨.declaredSizeMismatch, .expansion⟩ := by
  have hnone : ∀ n, Uninterrupted ⟨none⟩ (fun _ => none) n := fun n => ⟨rfl, fun _ _ => rfl⟩
  refine ⟨(readChecked_exact.1 [0x61]).mpr
    ⟨by decide, [[0x61]], [], ?_, rfl, rfl, rfl, by decide, hnone _⟩,
    readChecked_exact.2.1 [[0x61, 0x62]] [] ?_ (by decide) (by decide) (hnone _)⟩
  · exact .cons rfl (List.cons_ne_nil _ _) (.nil _)
  · exact .cons rfl (List.cons_ne_nil _ _) (.nil _)

/-- An entry that is as declared is not read in an operation that is cancelled. -/
theorem readChecked_cancelled :
    (∃ chunks r, Yields listReader [] chunks r ∧ Ends listReader r ∧ chunks.flatten = [] ∧
      ([] : List UInt8).length = (0 : UInt64).toNat ∧ crc32.of [] = 0) ∧
    ¬∃ s, (readChecked roomy listReader crc32 [] 0 0 .expansion ⟨none⟩).run
      (fun _ => some .cancelled) = .ok ([], s) := by
  refine ⟨⟨[], [], .nil _, rfl, rfl, rfl, by decide⟩, ?_⟩
  rintro ⟨s, h⟩
  cases h

end MadoPilot.Assets

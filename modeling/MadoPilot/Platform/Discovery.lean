import MadoPilot.Capture.Frame
import MadoPilot.Core.Capability
import MadoPilot.Core.Identity
import MadoPilot.Lib.Mutex
import MadoPilot.Lib.Threads

/-!
# Target discovery

The registry of the targets that a provider has found, and the threads that call `discover` and look
targets up.  A step is one access to what the threads share (the discovery gate, the issuer, the
registry), one native call, or one consultation of the caller's context.

The two platforms stage a snapshot differently: Windows prepares a copy of the registry and puts it in
place of the registry, macOS prepares the records and changes the registry.
-/

namespace MadoPilot.Platform.Discovery

open MadoPilot.Core MadoPilot.Capture MadoPilot.Lib

variable {κ π : Type*}

/-- A target that was found, under the identity it was given. -/
structure TargetRecord (κ : Type*) where
  id : TargetId
  candidate : κ

def TargetRecord.description (record : TargetRecord κ) : TargetId × κ := (record.id, record.candidate)

/-- The targets that can be looked up, and the discoveries that found them, the oldest first. -/
structure Registry (κ : Type*) where
  records : TargetId → Option (TargetRecord κ)
  generations : List (List TargetId)

def retainedDiscoveryGenerations : ℕ := 2

/-- `HashMap::insert` of a record under its identity. -/
def insert (records : TargetId → Option (TargetRecord κ)) (record : TargetRecord κ) :
    TargetId → Option (TargetRecord κ) :=
  Function.update records record.id (some record)

/-- `HashMap::remove` of an identity. -/
def remove (records : TargetId → Option (TargetRecord κ)) (id : TargetId) :
    TargetId → Option (TargetRecord κ) :=
  Function.update records id none

namespace Registry

def empty : Registry κ := ⟨fun _ => none, []⟩

def expire (records : TargetId → Option (TargetRecord κ)) : List (List TargetId) → Registry κ
  | [] => ⟨records, []⟩
  | expired :: generations =>
    if (expired :: generations).length > retainedDiscoveryGenerations then
      expire (expired.foldl remove records) generations
    else ⟨records, expired :: generations⟩

def adopt (registry : Registry κ) (records : List (TargetRecord κ)) (generation : List TargetId) :
    Registry κ :=
  expire (records.foldl insert registry.records) (registry.generations ++ [generation])

def lookup (registry : Registry κ) (id : TargetId) : Except CaptureFault (TargetRecord κ) :=
  match registry.records id with
  | some record => .ok record
  | none => .error .targetLost

end Registry

/-- The last check of `select_record`, on the record that was looked up. -/
def TargetRecord.ensureLive (record : TargetRecord κ) (live : Bool) :
    Except CaptureFault (TargetRecord κ) :=
  if live then .ok record else .error .targetLost

/-! ### The platforms -/

/-- How a platform stages a snapshot and installs it, and whether it registers a native handler for each
record. -/
structure Staging (κ π : Type*) where
  registers : Bool
  prepareSnapshot : Registry κ → List (TargetRecord κ) → π
  commitSnapshot : Registry κ → π → Registry κ
  descriptions : π → List (TargetId × κ)

namespace Windows

structure PreparedSnapshot (κ : Type*) where
  registry : Registry κ
  descriptions : List (TargetId × κ)

def staging : Staging κ (PreparedSnapshot κ) where
  registers := true
  prepareSnapshot registry records :=
    ⟨registry.adopt records (records.map (·.id)), records.map (·.description)⟩
  commitSnapshot _ prepared := prepared.registry
  descriptions prepared := prepared.descriptions

end Windows

namespace Macos

structure PreparedSnapshot (κ : Type*) where
  records : List (TargetRecord κ)
  descriptions : List (TargetId × κ)
  generation : List TargetId

def staging : Staging κ (PreparedSnapshot κ) where
  registers := false
  prepareSnapshot _ records := ⟨records, records.map (·.description), records.map (·.id)⟩
  commitSnapshot registry prepared := registry.adopt prepared.records prepared.generation
  descriptions prepared := prepared.descriptions

end Macos

/-! ### The threads -/

def nextOrdinal (counter : ℕ) : Except IdentityFault (ℕ+ × ℕ) :=
  match checkedAdd u64Max counter 1 with
  | some next => .ok (counter.succPNat, next)
  | none => .error .exhausted

structure Shared (κ τ : Type*) where
  nextTarget : ℕ
  discoveryGate : Option τ
  registry : Registry κ

/-- Where a thread stands.  A prepared snapshot stands beside the records it was prepared from. -/
inductive Pc (κ π : Type*) where
  | idle
  | admitting
  | gating (attempt : Operation)
  | blocked (attempt : Operation)
  | listing (attempt : Operation)
  | failing (attempt : Operation) (error : Error)
  | listed (attempt : Operation) (candidates : List κ)
  | recording (attempt : Operation) (candidates : List κ) (records : List (TargetRecord κ))
  | registering (attempt : Operation) (candidates : List κ) (records : List (TargetRecord κ))
  | committing (attempt : Operation) (records : List (TargetRecord κ)) (prepared : π)
  | installing (records : List (TargetRecord κ)) (prepared : π)
  | leaving (result : Except Error (List (TargetId × κ)))
  | returning (result : Except Error (List (TargetId × κ)))
  | selecting (id : TargetId) (record : TargetRecord κ)

/-- What a step shows. -/
inductive Event (κ : Type*) where
  | silent
  | consulted (seen : Option Interruption)
  | inventoried (candidates : List κ)
  | issued (id : TargetId)
  | committed (records : List (TargetRecord κ))
  | returned (result : Except Error (List (TargetId × κ)))
  | looked (id : TargetId) (result : Except CaptureFault (TargetRecord κ))
  | selected (id : TargetId) (result : Except CaptureFault (TargetRecord κ))

def Event.ends : Event κ → Bool
  | returned _ => true
  | _ => false

section Acts

variable {τ : Type*} (P : Staging κ π) (engine : ℕ+) (provider : String)

/-- The steps of a thread.  `seen` is what the caller's context answers when it is consulted. -/
inductive Act (t : τ) : Shared κ τ → Pc κ π → Event κ → Shared κ τ → Pc κ π → Prop
  | issuesOther {s : Shared κ τ} {ordinal : ℕ+} {next : ℕ} : nextOrdinal s.nextTarget = .ok (ordinal, next) →
      Act t s .idle .silent { s with nextTarget := next } .idle
  | call {s : Shared κ τ} : Act t s .idle .silent s .admitting
  | refused {s : Shared κ τ} (seen : Option Interruption) {i : Interruption} :
      Operation.admitContext seen = .error i →
      Act t s .admitting (.consulted seen) s (.returning (.error i.toError))
  | admitted {s : Shared κ τ} (seen : Option Interruption) {op : Operation} :
      Operation.admitContext seen = .ok op → Act t s .admitting (.consulted seen) s (.gating op)
  | blocks {s : Shared κ τ} {op : Operation} : s.discoveryGate ≠ none →
      Act t s (.gating op) .silent s (.blocked op)
  | expires {s : Shared κ τ} {op op' : Operation} (seen : Option Interruption) {i : Interruption} :
      op.checkpoint seen = (.error i, op') →
      Act t s (.blocked op) (.consulted seen) s (.returning (.error i.toError))
  | retries {s : Shared κ τ} {op op' : Operation} (seen : Option Interruption) :
      op.checkpoint seen = (.ok (), op') → Act t s (.blocked op) (.consulted seen) s (.gating op')
  | enters {s : Shared κ τ} {op : Operation} : s.discoveryGate = none →
      Act t s (.gating op) .silent { s with discoveryGate := some t } (.listing op)
  | inventory {s : Shared κ τ} {op : Operation} (candidates : List κ) :
      Act t s (.listing op) (.inventoried candidates) s (.listed op candidates)
  | inventoryFails {s : Shared κ τ} {op : Operation} (error : Error) :
      Act t s (.listing op) .silent s (.failing op error)
  | overtaken {s : Shared κ τ} {op op' : Operation} {error : Error} (seen : Option Interruption)
      {i : Interruption} : op.checkpoint seen = (.error i, op') →
      Act t s (.failing op error) (.consulted seen) s (.leaving (.error i.toError))
  | fails {s : Shared κ τ} {op op' : Operation} {error : Error} (seen : Option Interruption) :
      op.checkpoint seen = (.ok (), op') →
      Act t s (.failing op error) (.consulted seen) s (.leaving (.error error))
  | late {s : Shared κ τ} {op op' : Operation} {candidates : List κ} (seen : Option Interruption)
      {i : Interruption} : op.checkpoint seen = (.error i, op') →
      Act t s (.listed op candidates) (.consulted seen) s (.leaving (.error i.toError))
  | continues {s : Shared κ τ} {op op' : Operation} {candidates : List κ}
      (seen : Option Interruption) : op.checkpoint seen = (.ok (), op') →
      Act t s (.listed op candidates) (.consulted seen) s (.recording op' candidates [])
  | issue {s : Shared κ τ} {op : Operation} {candidate : κ} {candidates : List κ}
      {records : List (TargetRecord κ)} {ordinal : ℕ+} {next : ℕ} :
      nextOrdinal s.nextTarget = .ok (ordinal, next) →
      Act t s (.recording op (candidate :: candidates) records) (.issued ⟨engine, provider, ordinal⟩)
        { s with nextTarget := next }
        (if P.registers then
          .registering op candidates (records ++ [⟨⟨engine, provider, ordinal⟩, candidate⟩])
        else .recording op candidates (records ++ [⟨⟨engine, provider, ordinal⟩, candidate⟩]))
  | exhausted {s : Shared κ τ} {op : Operation} {candidate : κ} {candidates : List κ}
      {records : List (TargetRecord κ)} {fault : IdentityFault} :
      nextOrdinal s.nextTarget = .error fault →
      Act t s (.recording op (candidate :: candidates) records) .silent s (.failing op fault.toError)
  | registered {s : Shared κ τ} {op : Operation} {candidates : List κ}
      {records : List (TargetRecord κ)} :
      Act t s (.registering op candidates records) .silent s (.recording op candidates records)
  | registerFails {s : Shared κ τ} {op : Operation} {candidates : List κ}
      {records : List (TargetRecord κ)} (error : Error) :
      Act t s (.registering op candidates records) .silent s (.failing op error)
  | prepare {s : Shared κ τ} {op : Operation} {records : List (TargetRecord κ)} :
      Act t s (.recording op [] records) .silent s
        (.committing op records (P.prepareSnapshot s.registry records))
  | interrupted {s : Shared κ τ} {op : Operation} {records : List (TargetRecord κ)} {prepared : π}
      (seen : Option Interruption) {i : Interruption} : op.commit seen prepared = .error i →
      Act t s (.committing op records prepared) (.consulted seen) s (.leaving (.error i.toError))
  | commits {s : Shared κ τ} {op : Operation} {records : List (TargetRecord κ)} {prepared : π}
      (seen : Option Interruption) : op.commit seen prepared = .ok prepared →
      Act t s (.committing op records prepared) (.consulted seen) s (.installing records prepared)
  | install {s : Shared κ τ} {records : List (TargetRecord κ)} {prepared : π} :
      Act t s (.installing records prepared) (.committed records)
        { s with registry := P.commitSnapshot s.registry prepared }
        (.leaving (.ok (P.descriptions prepared)))
  | leaves {s : Shared κ τ} {result : Except Error (List (TargetId × κ))} :
      Act t s (.leaving result) .silent { s with discoveryGate := none } (.returning result)
  | returns {s : Shared κ τ} {result : Except Error (List (TargetId × κ))} :
      Act t s (.returning result) (.returned result) s .idle
  | finds {s : Shared κ τ} (id : TargetId) {record : TargetRecord κ} : s.registry.lookup id = .ok record →
      Act t s .idle (.looked id (.ok record)) s (.selecting id record)
  | misses {s : Shared κ τ} (id : TargetId) {fault : CaptureFault} : s.registry.lookup id = .error fault →
      Act t s .idle (.looked id (.error fault)) s .idle
  | selects {s : Shared κ τ} {id : TargetId} {record : TargetRecord κ} (live : Bool) :
      Act t s (.selecting id record) (.selected id (record.ensureLive live)) s .idle

/-- The threads of one provider and what they share. -/
abbrev DiscoveryWorld (κ π τ : Type*) := World τ (Shared κ τ) (Pc κ π)

/-- A provider on an issuer that may have issued identities before. -/
def DiscoveryWorld.start (κ π τ : Type*) (nextTarget : ℕ) : DiscoveryWorld κ π τ :=
  ⟨⟨nextTarget, none, .empty⟩, fun _ => .idle⟩

abbrev discoverySystem (τ : Type*) [DecidableEq τ] (nextTarget : ℕ) :
    System (DiscoveryWorld κ π τ) (τ × Event κ) :=
  threads (Act P engine provider) (DiscoveryWorld.start κ π τ nextTarget)

end Acts

end MadoPilot.Platform.Discovery

import Mathlib.Data.String.Basic
import MadoPilot.Assets.Reader
import MadoPilot.Lib.Dialogue
import MadoPilot.Lib.Lines

/-!
# Packages in a directory tree

The tree belongs to the operating system and may change between any two looks at it.  Every look is a
question to a host that may answer anything: an open, a listing, the next name of a listing, the
state behind a handle, a read.  The walk opens each child twice and goes on with the second handle;
the reader looks at the state of a retained handle before and after it reads from it.

Paths are given from the root by their names.  `F` are the handles of files, `I` their identities,
`S` their change stamps and `L` the listings.
-/

namespace MadoPilot.Assets.Directory

open MadoPilot.Core MadoPilot.Lib

/-! ### What is seen of a file system -/

inductive NodeKind where
  | regular | directory | other
  deriving DecidableEq

structure FileState (I S : Type) where
  identity : I
  change : S
  len : UInt64
  links : UInt64
  deriving DecidableEq

/-- What one open gives: nothing is held open of what is no file. -/
structure Seen (F I S : Type) where
  file : Option F
  kind : NodeKind
  state : FileState I S

structure OpenedNode (F I S : Type) extends Seen F I S where
  path : List String

def OpenedNode.hasSingleLink {F I S : Type} (node : OpenedNode F I S) : Bool :=
  node.state.links = 1

structure OpenedFile (F I S : Type) where
  file : F
  state : FileState I S

inductive OpenError where
  | unreadable | changed

/-- What a read puts into the buffer. -/
abbrev Chunk := { bytes : List UInt8 // bytes.length ≤ chunkBytes }

/-- A look at the surroundings. -/
inductive Question (F L : Type) where
  | interruption
  | openRoot
  | openChild (directory : F) (parentPath : List String) (name : String)
  | readChildren (directory : F) (path : List String)
  | nextChild (listing : L)
  | state (file : F)
  | reserve (length : ℕ)
  | read (file : F)

/-- What may be answered.  A listing ends, fails, or gives a name, which may not be UTF-8. -/
abbrev Answer (F I S L : Type) : Question F L → Type
  | .interruption => Option Interruption
  | .openRoot | .openChild _ _ _ => Except OpenError (Seen F I S)
  | .readChildren _ _ => Except Unit L
  | .nextChild _ => Option (Except Unit (Option String))
  | .state _ => Except Unit (NodeKind × FileState I S)
  | .reserve _ => Bool
  | .read _ => Except Unit Chunk

/-- A computation among looks at a file system. -/
abbrev Looking (F I S L α : Type) := Dialogue (Answer F I S L) AssetFault α

variable {F I S L : Type}

/-! ### Stable opens -/

/-- `checkpoint()?`; what goes on has latched nothing. -/
def checkpoint (op : Operation) (stage : LoadStage) : Looking F I S L PUnit :=
  match op.terminal with
  | some i => .fail (.interrupted i stage)
  | none =>
    .call .interruption fun
      | some i => .fail (.interrupted i stage)
      | none => pure ⟨⟩

def openFault (error : OpenError) (stage : LoadStage) : AssetFault :=
  match error with
  | .unreadable => ⟨.sourceUnreadable, stage⟩
  | .changed => ⟨.sourceChanged, stage⟩

section

variable [DecidableEq I] [DecidableEq S]

def OpenedNode.changed (node : OpenedNode F I S) : Looking F I S L Bool :=
  match node.file with
  | none => pure false
  | some file =>
    .call (.state file) fun
      | .ok (kind, state) => pure (kind ≠ node.kind || state ≠ node.state)
      | .error _ => pure true

def OpenedFile.changed (snapshot : OpenedFile F I S) : Looking F I S L Bool :=
  .call (.state snapshot.file) fun
    | .ok (_, state) => pure (state ≠ snapshot.state || state.links ≠ 1)
    | .error _ => pure true

/-- Opens twice, around a checkpoint, and keeps the second open of one and the same file. -/
def openTwice (once : Looking F I S L (Except OpenError (Seen F I S))) (path : List String)
    (stage : LoadStage) (op : Operation) : Looking F I S L (OpenedNode F I S) := do
  checkpoint op stage
  let first ← once
  let first ← Dialogue.lift (first.mapError fun error => openFault error stage)
  checkpoint op stage
  let second ← once
  let second ← Dialogue.lift (second.mapError fun _ => ⟨.sourceChanged, stage⟩)
  if first.kind ≠ second.kind ∨ first.state ≠ second.state then
    .fail ⟨.sourceChanged, stage⟩
  else do
    checkpoint op stage
    pure ⟨second, path⟩

/-- `open_once` of the root. -/
def openOnce : Looking F I S L (Except OpenError (Seen F I S)) := .ask Question.openRoot

def openChildOnce (directory : F) (parentPath : List String) (name : String) :
    Looking F I S L (Except OpenError (Seen F I S)) :=
  .ask (Question.openChild directory parentPath name)

def openStable (stage : LoadStage) (op : Operation) : Looking F I S L (OpenedNode F I S) :=
  openTwice openOnce [] stage op

def openChildStable (parent : OpenedNode F I S) (name : String) (stage : LoadStage)
    (op : Operation) : Looking F I S L (OpenedNode F I S) :=
  match parent.file with
  | none => .fail ⟨.sourceChanged, stage⟩
  | some directory =>
    openTwice (openChildOnce directory parent.path name) (parent.path ++ [name]) stage op

end

def readChildren (parent : OpenedNode F I S) (stage : LoadStage) : Looking F I S L L :=
  match parent.file with
  | none => .fail ⟨.sourceChanged, stage⟩
  | some directory =>
    .call (.readChildren directory parent.path) fun
      | .ok listing => pure listing
      | .error _ => .fail ⟨.sourceUnreadable, stage⟩

/-! ### The walk -/

inductive EntryKind where
  | regular | directory | other
  deriving DecidableEq

inductive EntryStorage where
  | accepted | unsupportedMethod | encrypted
  deriving DecidableEq

structure RawEntry where
  name : ByteArray
  kind : EntryKind
  storage : EntryStorage
  declaredSize : UInt64
  compressedSize : UInt64

structure AssetLimits where
  maxEntryCount : UInt32
  maxTotalUncompressedBytes : UInt64

inductive Snapshot (F I S : Type) where
  | regular (file : OpenedFile F I S)
  | unsupported

structure DirectoryReader (F I S : Type) where
  snapshots : List (Snapshot F I S)

structure Walk (F I S : Type) where
  entries : List RawEntry
  snapshots : List (Snapshot F I S)
  totalBytes : ℕ
  traversedNodes : ℕ

def maxDirectoryDepth : ℕ := 64

def fault (kind : AssetFaultKind) : AssetFault := ⟨kind, .source⟩

/-- The name under which an entry is recorded: the names that lead to it, joined by slashes. -/
def recordedName (names : List String) : ByteArray := (String.intercalate "/" names).toUTF8

def traverse (limits : AssetLimits) (traversedNodes : ℕ) : Except AssetFault ℕ :=
  match checkedAdd u64Max traversedNodes 1 with
  | none => .error (fault .arithmeticOverflow)
  | some traversedNodes =>
    if traversedNodes > limits.maxEntryCount.toNat then .error (fault .archiveLimit)
    else .ok traversedNodes

theorem traverse_eq_ok {limits : AssetLimits} {n m : ℕ} (h : traverse limits n = .ok m) :
    m = n + 1 ∧ m ≤ limits.maxEntryCount.toNat := by
  unfold traverse at h
  cases hadd : checkedAdd u64Max n 1 with
  | none =>
    rw [hadd] at h
    cases h
  | some total =>
    rw [hadd] at h
    by_cases hover : total > limits.maxEntryCount.toNat
    · simp only [if_pos hover] at h
      cases h
    · simp only [if_neg hover] at h
      obtain rfl := Except.ok.inj h
      exact ⟨(checkedAdd_eq_some.mp hadd).1, Nat.le_of_not_gt hover⟩

/-- The loop over a listing, with the nodes traversed and the names so far. -/
def readNames (limits : AssetLimits) (op : Operation) (listing : L) (traversedNodes : ℕ)
    (children : List String) : Looking F I S L (List String × ℕ) := do
  match (← Dialogue.ask (Question.nextChild listing)) with
  | none => pure (children, traversedNodes)
  | some child => do
    checkpoint op .source
    match child with
    | .error _ => .fail (fault .sourceUnreadable)
    | .ok child =>
      match _h : traverse limits traversedNodes with
      | .error refused => .fail refused
      | .ok traversedNodes =>
        match child with
        | none => .fail (fault .unsafePath)
        | some name => readNames limits op listing traversedNodes (children ++ [name])
termination_by limits.maxEntryCount.toNat - traversedNodes
decreasing_by
  have := traverse_eq_ok _h
  omega

section

variable [DecidableEq I] [DecidableEq S]

def Walk.readSorted (w : Walk F I S) (limits : AssetLimits) (op : Operation)
    (directory : OpenedNode F I S) : Looking F I S L (List String × Walk F I S) := do
  checkpoint op .source
  let listing ← readChildren directory .source
  let (children, traversedNodes) ← readNames limits op listing w.traversedNodes []
  checkpoint op .source
  pure (sortOn (fun name => name) children, { w with traversedNodes })

def Walk.push (w : Walk F I S) (limits : AssetLimits) (entry : RawEntry) :
    Except AssetFault (Walk F I S) :=
  if w.entries.length + 1 > limits.maxEntryCount.toNat then .error (fault .archiveLimit)
  else
    match checkedAdd u64Max w.totalBytes entry.declaredSize.toNat with
    | none => .error (fault .arithmeticOverflow)
    | some totalBytes =>
      if totalBytes > limits.maxTotalUncompressedBytes.toNat then .error (fault .archiveLimit)
      else .ok { w with entries := w.entries ++ [entry], totalBytes }

/-- What is recorded as a regular file. -/
def OpenedNode.accepted (child : OpenedNode F I S) : Bool :=
  child.kind = .regular && child.hasSingleLink

def rawEntry (names : List String) (child : OpenedNode F I S) : RawEntry where
  name := recordedName names
  kind := if child.accepted then .regular else .other
  storage := .accepted
  declaredSize := child.state.len
  compressedSize := child.state.len

def snapshotOf (child : OpenedNode F I S) : Except AssetFault (Snapshot F I S) :=
  if child.accepted then
    match child.file with
    | some file => .ok (.regular ⟨file, child.state⟩)
    | none => .error (fault .sourceChanged)
  else .ok .unsupported

/-- A child that is no directory is recorded under its path, and what is read of it is retained. -/
def Walk.record (w : Walk F I S) (limits : AssetLimits) (names : List String)
    (child : OpenedNode F I S) : Except AssetFault (Walk F I S) := do
  let w ← w.push limits (rawEntry names child)
  let snapshot ← snapshotOf child
  pure { w with snapshots := w.snapshots ++ [snapshot] }

def visitChild (limits : AssetLimits)
    (descend : OpenedNode F I S → String → Walk F I S → Looking F I S L (Walk F I S))
    (parents : List String) (child : OpenedNode F I S) (name : String) (w : Walk F I S) :
    Looking F I S L (Walk F I S) :=
  if child.kind = .directory then descend child name w
  else .lift (w.record limits (parents ++ [name]) child)

/-- The loop over the children of a directory; `descend` walks a child that is one itself. -/
def visitChildren (limits : AssetLimits) (op : Operation)
    (descend : OpenedNode F I S → String → Walk F I S → Looking F I S L (Walk F I S))
    (opened : OpenedNode F I S) (parents : List String) :
    List String → Walk F I S → Looking F I S L (Walk F I S)
  | [], w => pure w
  | name :: names, w => do
    let child ← openChildStable opened name .source op
    let w ← visitChild limits descend parents child name w
    visitChildren limits op descend opened parents names w

/-- Walks a directory; `parents` are the names that lead to it. -/
def Walk.visit (limits : AssetLimits) (op : Operation) (opened : OpenedNode F I S)
    (parents : List String) (w : Walk F I S) : Looking F I S L (Walk F I S) :=
  if _h : parents.length > maxDirectoryDepth then .fail (fault .archiveLimit)
  else do
    let (children, w) ← w.readSorted limits op opened
    if ← opened.changed then .fail (fault .sourceChanged)
    else do
      let w ← visitChildren limits op
        (fun child name w => visit limits op child (parents ++ [name]) w) opened parents children w
      if ← opened.changed then .fail (fault .sourceChanged)
      else pure w
termination_by maxDirectoryDepth + 1 - parents.length
decreasing_by
  rw [List.length_append, List.length_singleton]
  omega

/-- Walks the root and gives its entry table, with a reader for the entries.  (The name of the
source's function is `open`.) -/
def openDirectory (limits : AssetLimits) (op : Operation) :
    Looking F I S L (DirectoryReader F I S × List RawEntry) := do
  let root ← openStable .source op
  if root.kind ≠ .directory then .fail (fault .sourceUnreadable)
  else do
    let walked ← Walk.visit limits op root [] ⟨[], [], 0, 0⟩
    pure (⟨walked.snapshots⟩, walked.entries)

/-! ### Reading an entry -/

def answering (answer : Except Unit Chunk) : Reader Unit where
  read _ n := (answer.map fun chunk => chunk.1.take n, ())
  read_length := by
    intro _ n bytes _ h
    cases answer with
    | error e => cases (Prod.mk.inj h).1
    | ok chunk =>
      obtain rfl := Except.ok.inj (Prod.mk.inj h).1
      exact List.length_take_le n chunk.1

/-- The loop of `read_capped`, each of whose reads is a question. -/
def readLoop (file : F) (declared : ℕ) (stage : LoadStage) (op : Operation) (s : Reading Unit) :
    Looking F I S L (List UInt8) := do
  checkpoint op stage
  let answer ← Dialogue.ask (Question.read file)
  match _h : turn (answering answer) declared stage s with
  | .error refused => .fail refused
  | .ok (.ends _) => pure s.produced
  | .ok (.goes s') => readLoop file declared stage op s'
termination_by declared - s.total
decreasing_by
  obtain ⟨chunk, -, hne, htotal, hle, -⟩ := turn_eq_goes _h
  have := List.length_pos_of_ne_nil hne
  omega

def readCapped (file : F) (declared : UInt64) (stage : LoadStage) (op : Operation) :
    Looking F I S L (List UInt8) := do
  checkpoint op stage
  match (← Dialogue.ask (Question.reserve declared.toNat)) with
  | false => .fail ⟨.sourceUnreadable, stage⟩
  | true => readLoop file declared.toNat stage op ⟨(), 0, []⟩

def DirectoryReader.readEntry (reader : DirectoryReader F I S) (index : ℕ) (declared : UInt64)
    (stage : LoadStage) (op : Operation) : Looking F I S L (List UInt8) :=
  match reader.snapshots[index]? with
  | none => .fail ⟨.missingEntry, stage⟩
  | some .unsupported => .fail ⟨.unsupportedEntryType, stage⟩
  | some (.regular snapshot) => do
    if ← snapshot.changed then .fail ⟨.sourceChanged, stage⟩
    else do
      match (← (readCapped snapshot.file declared stage op).attempt) with
      | .error refused =>
        if refused.kind = .declaredSizeMismatch then do
          if ← snapshot.changed then .fail ⟨.sourceChanged, stage⟩ else .fail refused
        else .fail refused
      | .ok bytes => do
        if ← snapshot.changed then .fail ⟨.sourceChanged, stage⟩ else pure bytes

end

end MadoPilot.Assets.Directory

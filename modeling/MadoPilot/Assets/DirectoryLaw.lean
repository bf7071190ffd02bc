import Mathlib.Algebra.Ring.Nat
import MadoPilot.Assets.Directory

/-!
# What a walk of a directory tree guarantees

Everything that a host is asked and answers is on a path of the computation, and the laws speak of
these paths, so nothing is assumed of the file system.  The walk is a tree of finite depth: every run
of it comes to an end.

* `readNames_meets` : a listing is left at the first name above the limit;
* `openChildStable_meets` : a child that is kept has been opened twice, with one kind and state;
* `Listed` : depth-first order; `Recorded` : what an entry and its snapshot say of their child;
* `visit_meets` : the walk of a directory, by induction on the levels left;
* `readEntry_meets` : bytes come between two looks that found the recorded state;
* `directory_walk` : both, for every host.
-/

namespace MadoPilot.Assets.Directory

open MadoPilot.Core MadoPilot.Lib

/-- A question and its answer. -/
abbrev Said (F I S L : Type) := (q : Question F L) × Answer F I S L q

variable {F I S L : Type}

/-- The context was read and nothing had interrupted the operation. -/
def quiet : Said F I S L := ⟨.interruption, none⟩

def isName : Said F I S L → Bool
  | ⟨.nextChild _, some (.ok _)⟩ => true
  | _ => false

def names (said : List (Said F I S L)) : ℕ := said.countP isName

def given : List (Said F I S L) → List String
  | [] => []
  | ⟨.nextChild _, some (.ok (some name))⟩ :: said => name :: given said
  | _ :: said => given said

def Shallow (said : List (Said F I S L)) : Prop :=
  ∀ x ∈ said, ∀ directory path, x.1 = .readChildren directory path → path.length ≤ maxDirectoryDepth

def Aside (said : List (Said F I S L)) : Prop :=
  ∀ x ∈ said, (∀ listing, x.1 ≠ .nextChild listing) ∧ ∀ directory path, x.1 ≠ .readChildren directory path

section Said

variable {said before after : List (Said F I S L)} {x : Said F I S L}

theorem names_append : names (before ++ after) = names before + names after := List.countP_append

theorem names_cons_name (listing : L) (name : Option String) :
    names ((⟨.nextChild listing, some (.ok name)⟩ : Said F I S L) :: said) = names said + 1 :=
  List.countP_cons_of_pos rfl

theorem names_cons_other (h : isName x = false) : names (x :: said) = names said :=
  List.countP_cons_of_neg (by rw [h]; exact Bool.false_ne_true)

theorem Shallow.append (hbefore : Shallow before) (hafter : Shallow after) :
    Shallow (before ++ after) := by
  intro x hx
  rcases List.mem_append.mp hx with hx | hx
  · exact hbefore x hx
  · exact hafter x hx

theorem Aside.nil : Aside ([] : List (Said F I S L)) := fun _ h => absurd h List.not_mem_nil

theorem Aside.append (hbefore : Aside before) (hafter : Aside after) : Aside (before ++ after) := by
  intro x hx
  rcases List.mem_append.mp hx with hx | hx
  · exact hbefore x hx
  · exact hafter x hx

theorem Aside.shallow (h : Aside said) : Shallow said :=
  fun x hx directory path hlists => absurd hlists ((h x hx).2 directory path)

theorem Aside.names (h : Aside said) : names said = 0 := by
  refine List.countP_eq_zero.mpr fun x hx hname => ?_
  unfold isName at hname
  split at hname
  · exact (h _ hx).1 _ rfl
  · cases hname

end Said

/-! ### Opens -/

section Opens

open Dialogue

variable {op : Operation} {stage : LoadStage} {α : Type} {said : List (Said F I S L)}
  {r : Except AssetFault α}

theorem aside_of_interruptions (h : ∀ x ∈ said, x.1 = .interruption) : Aside said := by
  intro x hx
  rw [h x hx]
  exact ⟨fun _ h => (by cases h), fun _ _ h => (by cases h)⟩

theorem aside_quiet : Aside [(quiet : Said F I S L)] :=
  aside_of_interruptions fun x hx => by rw [List.mem_singleton.mp hx]; rfl

theorem spoken_checkpoint {f : PUnit → Looking F I S L α}
    (h : Spoken (checkpoint op stage >>= f) said r) :
    ((∃ i, r = .error (.interrupted i stage)) ∧ ∀ x ∈ said, x.1 = .interruption) ∨
      ∃ rest, said = quiet :: rest ∧ Spoken (f ⟨⟩) rest r := by
  unfold checkpoint at h
  cases hterm : op.terminal with
  | some i =>
    rw [hterm] at h
    obtain ⟨rfl, rfl⟩ := spoken_done h
    exact Or.inl ⟨⟨i, rfl⟩, fun _ hx => absurd hx List.not_mem_nil⟩
  | none =>
    rw [hterm] at h
    obtain ⟨answer, rest, rfl, hrest⟩ := spoken_call h
    cases answer with
    | some i =>
      obtain ⟨rfl, rfl⟩ := spoken_done hrest
      exact Or.inl ⟨⟨i, rfl⟩, fun x hx => by rw [List.mem_singleton.mp hx]⟩
    | none => exact Or.inr ⟨rest, rfl, hrest⟩

variable [DecidableEq I] [DecidableEq S]

theorem openTwice_meets (once : Looking F I S L (Except OpenError (Seen F I S)))
    (asked : Except OpenError (Seen F I S) → Said F I S L) (path : List String)
    (honce : ∀ {β : Type} {f : _ → Looking F I S L β} {said r}, Spoken (once >>= f) said r →
      ∃ answer rest, said = asked answer :: rest ∧ Spoken (f answer) rest r)
    (haside : ∀ answer, Aside [asked answer]) :
    (openTwice once path stage op).Meets fun said r => Aside said ∧ ∀ node, r = .ok node →
      node.path = path ∧ ∃ first, first.kind = node.kind ∧ first.state = node.state ∧
        said = [quiet, asked (.ok first), quiet, asked (.ok node.toSeen), quiet] := by
  intro said r h
  unfold openTwice at h
  rcases spoken_checkpoint h with ⟨⟨i, rfl⟩, hsaid⟩ | ⟨rest, rfl, hrest⟩
  · exact ⟨aside_of_interruptions hsaid, fun _ hr => (by cases hr)⟩
  obtain ⟨first, rest, rfl, hopened⟩ := honce hrest
  have hfirst := aside_quiet.append (haside first)
  cases first with
  | error e =>
    obtain ⟨rfl, rfl⟩ := spoken_done hopened
    exact ⟨hfirst, fun _ hr => (by cases hr)⟩
  | ok first =>
    rcases spoken_checkpoint hopened with ⟨⟨i, rfl⟩, hsaid⟩ | ⟨rest, rfl, hagain⟩
    · exact ⟨hfirst.append (aside_of_interruptions hsaid), fun _ hr => (by cases hr)⟩
    obtain ⟨second, rest, rfl, hboth⟩ := honce hagain
    have hsecond := (hfirst.append aside_quiet).append (haside second)
    cases second with
    | error e =>
      obtain ⟨rfl, rfl⟩ := spoken_done hboth
      exact ⟨hsecond, fun _ hr => (by cases hr)⟩
    | ok second =>
      simp only [Except.mapError, lift_ok_bind] at hboth
      by_cases hdiffers : first.kind ≠ second.kind ∨ first.state ≠ second.state
      · rw [if_pos hdiffers] at hboth
        obtain ⟨rfl, rfl⟩ := spoken_done hboth
        exact ⟨hsecond, fun _ hr => (by cases hr)⟩
      · rw [if_neg hdiffers] at hboth
        rcases spoken_checkpoint hboth with ⟨⟨i, rfl⟩, hsaid⟩ | ⟨rest, rfl, hend⟩
        · exact ⟨hsecond.append (aside_of_interruptions hsaid), fun _ hr => (by cases hr)⟩
        obtain ⟨rfl, rfl⟩ := spoken_done hend
        refine ⟨hsecond.append aside_quiet, fun node hnode => ?_⟩
        obtain rfl := Except.ok.inj hnode
        obtain ⟨hkind, hstate⟩ := not_or.mp hdiffers
        exact ⟨rfl, first, not_not.mp hkind, not_not.mp hstate, rfl⟩

theorem openStable_meets : (openStable stage op : Looking F I S L _).Meets fun said r =>
    Aside said ∧ ∀ node, r = .ok node → node.path = [] := by
  refine (openTwice_meets openOnce (fun answer => ⟨.openRoot, answer⟩) [] spoken_call ?_).mono ?_
  · intro answer x hx
    rw [List.mem_singleton.mp hx]
    exact ⟨fun _ h => (by cases h), fun _ _ h => (by cases h)⟩
  · exact fun said r hpost => ⟨hpost.1, fun node hnode => (hpost.2 node hnode).1⟩

/-- The child was opened twice, around a checkpoint, and both opens agree with what is kept. -/
def Opened (said : List (Said F I S L)) (node : OpenedNode F I S) : Prop :=
  ∃ directory parentPath name first, node.path = parentPath ++ [name] ∧
    first.kind = node.kind ∧ first.state = node.state ∧
    List.IsInfix [⟨.openChild directory parentPath name, .ok first⟩, quiet,
      ⟨.openChild directory parentPath name, .ok node.toSeen⟩] said

theorem openChildStable_meets (parent : OpenedNode F I S) (name : String) :
    (openChildStable parent name stage op : Looking F I S L _).Meets fun said r =>
      Aside said ∧ ∀ node, r = .ok node → node.path = parent.path ++ [name] ∧ Opened said node := by
  unfold openChildStable
  cases parent.file with
  | none => exact .of_done ⟨.nil, fun _ h => (by cases h)⟩
  | some directory =>
    refine (openTwice_meets (openChildOnce directory parent.path name)
      (fun answer => ⟨.openChild directory parent.path name, answer⟩) (parent.path ++ [name])
      spoken_call ?_).mono ?_
    · intro answer x hx
      rw [List.mem_singleton.mp hx]
      exact ⟨fun _ h => (by cases h), fun _ _ h => (by cases h)⟩
    · refine fun said r hpost => ⟨hpost.1, fun node hnode => ?_⟩
      obtain ⟨hpath, first, hkind, hstate, rfl⟩ := hpost.2 node hnode
      exact ⟨hpath, directory, parent.path, name, first, hpath, hkind, hstate, [quiet], [quiet], rfl⟩

theorem changed_meets (node : OpenedNode F I S) :
    (node.changed : Looking F I S L Bool).Meets fun said _ => Aside said := by
  unfold OpenedNode.changed
  cases node.file with
  | none => exact .of_done .nil
  | some file =>
    refine .of_call fun answer => ?_
    have hasked : Aside [(⟨.state file, answer⟩ : Said F I S L)] := by
      intro x hx
      rw [List.mem_singleton.mp hx]
      exact ⟨fun _ h => (by cases h), fun _ _ h => (by cases h)⟩
    cases answer with
    | error e => exact .of_done hasked
    | ok answer => exact .of_done hasked

end Opens

/-! ### A listing -/

structure Fits (limits : AssetLimits) (w : Walk F I S) : Prop where
  nodes : w.traversedNodes ≤ limits.maxEntryCount.toNat
  bytes : w.totalBytes ≤ limits.maxTotalUncompressedBytes.toNat

/-- At most one name more than the limit is listed, and no directory that lies too deep. -/
structure Bounded (limits : AssetLimits) (w : Walk F I S) (said : List (Said F I S L)) : Prop where
  names : w.traversedNodes + names said ≤ limits.maxEntryCount.toNat + 1
  shallow : Shallow said

section Listing

open Dialogue

variable {op : Operation} {limits : AssetLimits} {w : Walk F I S} {α : Type}

theorem Bounded.of_aside {said : List (Said F I S L)} (h : Aside said) (hfits : Fits limits w) :
    Bounded limits w said := by
  refine ⟨?_, h.shallow⟩
  have hnodes := hfits.nodes
  rw [h.names]
  omega

theorem readNames_meets (listing : L) {traversedNodes : ℕ} (children : List String)
    (hle : traversedNodes ≤ limits.maxEntryCount.toNat) :
    (readNames limits op listing traversedNodes children :
        Looking F I S L (List String × ℕ)).Meets fun said r =>
      traversedNodes + names said ≤ limits.maxEntryCount.toNat + 1 ∧
      (∀ x ∈ said, x.1 = .interruption ∨ x.1 = .nextChild listing) ∧
      ∀ result, r = .ok result → result.2 = traversedNodes + names said ∧
        result.2 ≤ limits.maxEntryCount.toNat ∧
        ∃ asked, said = asked ++ [⟨.nextChild listing, none⟩] ∧ result.1 = children ++ given asked := by
  induction hleft : limits.maxEntryCount.toNat - traversedNodes using Nat.strong_induction_on
    generalizing traversedNodes children with
  | _ left ih =>
    intro said r h
    rw [readNames] at h
    obtain ⟨answer, rest, rfl, hanswer⟩ := spoken_call h
    cases answer with
    | none =>
      obtain ⟨rfl, rfl⟩ := spoken_done hanswer
      have hnone : names [(⟨.nextChild listing, none⟩ : Said F I S L)] = 0 := rfl
      rw [hnone]
      refine ⟨by omega, ?_, fun result hresult => ?_⟩
      · intro x hx
        rw [List.mem_singleton.mp hx]
        exact Or.inr rfl
      · obtain rfl := Except.ok.inj hresult
        exact ⟨rfl, hle, [], rfl, (List.append_nil _).symm⟩
    | some child =>
      have hflat : ∀ x ∈ [(⟨.nextChild listing, some child⟩ : Said F I S L), quiet],
          x.1 = .interruption ∨ x.1 = .nextChild listing := by
        intro x hx
        rcases List.mem_pair.mp hx with rfl | rfl
        · exact Or.inr rfl
        · exact Or.inl rfl
      have hnames : ∀ said, names ((⟨.nextChild listing, some child⟩ : Said F I S L) :: said) ≤
          names said + 1 := by
        intro said
        cases child with
        | error e => exact (names_cons_other rfl).trans_le (Nat.le_succ _)
        | ok name => exact (names_cons_name listing name).le
      rcases spoken_checkpoint hanswer with ⟨⟨i, rfl⟩, hrest⟩ | ⟨rest, rfl, hchild⟩
      · have haside := aside_of_interruptions hrest
        have hone := hnames rest
        rw [haside.names] at hone
        refine ⟨by omega, ?_, fun _ hr => (by cases hr)⟩
        intro x hx
        rcases List.mem_cons.mp hx with rfl | hx
        · exact hflat _ List.mem_cons_self
        · exact Or.inl (hrest x hx)
      · have hone := hnames (quiet :: [])
        have hzero : names [(quiet : Said F I S L)] = 0 := rfl
        rw [hzero] at hone
        cases child with
        | error e =>
          obtain ⟨rfl, rfl⟩ := spoken_done hchild
          exact ⟨by omega, hflat, fun _ hr => (by cases hr)⟩
        | ok child =>
          simp only at hchild
          split at hchild
          · obtain ⟨rfl, rfl⟩ := spoken_done hchild
            exact ⟨by omega, hflat, fun _ hr => (by cases hr)⟩
          · rename_i traversed htraverse
            obtain ⟨rfl, hroom⟩ := traverse_eq_ok htraverse
            cases child with
            | none =>
              obtain ⟨rfl, rfl⟩ := spoken_done hchild
              exact ⟨by omega, hflat, fun _ hr => (by cases hr)⟩
            | some name =>
              obtain ⟨hcount, hrest, hok⟩ := ih _ (by omega) _ hroom rfl _ _ hchild
              rw [names_cons_name, names_cons_other rfl]
              refine ⟨by omega, ?_, fun result hresult => ?_⟩
              · intro x hx
                rcases List.mem_append.mp (show x ∈ [_, _] ++ rest from hx) with hx | hx
                · exact hflat x hx
                · exact hrest x hx
              · obtain ⟨htotal, hwithin, asked, rfl, hresult⟩ := hok result hresult
                refine ⟨by omega, hwithin, _ :: quiet :: asked, rfl, ?_⟩
                rw [hresult, List.append_assoc]
                rfl

/-- The directory at a path was listed to its end, and these are the names that were given, sorted. -/
def Children (said : List (Said F I S L)) (path children : List String) : Prop :=
  ∃ directory listing asked,
    List.IsInfix (⟨.readChildren directory path, .ok listing⟩ ::
      (asked ++ [⟨.nextChild listing, none⟩])) said ∧
    (∀ x ∈ asked, x.1 = .interruption ∨ x.1 = .nextChild listing) ∧
    children.Perm (given asked) ∧ children.Pairwise (· ≤ ·)

theorem readSorted_meets (directory : OpenedNode F I S)
    (hdepth : directory.path.length ≤ maxDirectoryDepth) (hfits : Fits limits w) :
    (w.readSorted limits op directory :
        Looking F I S L (List String × Walk F I S)).Meets fun said r =>
      Bounded limits w said ∧ ∀ children w', r = .ok (children, w') →
        Children said directory.path children ∧ Fits limits w' ∧
        w' = { w with traversedNodes := w.traversedNodes + names said } := by
  intro said r h
  unfold Walk.readSorted at h
  have hnodes := hfits.nodes
  rcases spoken_checkpoint h with ⟨⟨i, rfl⟩, hsaid⟩ | ⟨rest, rfl, hlists⟩
  · exact ⟨.of_aside (aside_of_interruptions hsaid) hfits, fun _ _ hr => (by cases hr)⟩
  unfold readChildren at hlists
  cases hfile : directory.file with
  | none =>
    rw [hfile] at hlists
    obtain ⟨rfl, rfl⟩ := spoken_done hlists
    exact ⟨.of_aside aside_quiet hfits, fun _ _ hr => (by cases hr)⟩
  | some file =>
    rw [hfile] at hlists
    obtain ⟨answer, rest, rfl, hlisted⟩ := spoken_call hlists
    have hshallow : Shallow [quiet, (⟨.readChildren file directory.path, answer⟩ : Said F I S L)] := by
      intro x hx directory' path hquestion
      rcases List.mem_pair.mp hx with rfl | rfl
      · cases hquestion
      · injection hquestion with _ hpath
        rw [← hpath]
        exact hdepth
    have hzero : names [quiet, (⟨.readChildren file directory.path, answer⟩ : Said F I S L)] = 0 := rfl
    cases answer with
    | error e =>
      obtain ⟨rfl, rfl⟩ := spoken_done hlisted
      exact ⟨⟨by omega, hshallow⟩, fun _ _ hr => (by cases hr)⟩
    | ok listing =>
      have hflat : ∀ {said : List (Said F I S L)},
          (∀ x ∈ said, x.1 = .interruption ∨ x.1 = .nextChild listing) → Shallow said := by
        intro said honly x hx directory path hlists
        rcases honly x hx with hx | hx
        · rw [hx] at hlists
          cases hlists
        · rw [hx] at hlists
          cases hlists
      change Spoken (readNames limits op listing w.traversedNodes [] >>= _) rest r at hlisted
      rcases spoken_bind hlisted with
        ⟨e, hread, rfl⟩ | ⟨⟨children, traversed⟩, before, after, hread, hlast, rfl⟩
      · obtain ⟨hcount, hnone, -⟩ := readNames_meets listing [] hnodes _ _ hread
        refine ⟨⟨?_, hshallow.append (hflat hnone)⟩, fun _ _ hr => (by cases hr)⟩
        rw [names_cons_other rfl, names_cons_other rfl]
        exact hcount
      · obtain ⟨hcount, hnone, hok⟩ := readNames_meets listing [] hnodes _ _ hread
        obtain ⟨htotal, hwithin, asked, hasked, hgiven⟩ := hok _ rfl
        simp only [List.nil_append] at htotal hwithin hgiven
        rcases spoken_checkpoint hlast with ⟨⟨i, rfl⟩, hsaid⟩ | ⟨rest, rfl, hend⟩
        · have haside := aside_of_interruptions hsaid
          refine ⟨⟨?_, hshallow.append ((hflat hnone).append haside.shallow)⟩,
            fun _ _ hr => (by cases hr)⟩
          rw [names_cons_other rfl, names_cons_other rfl, names_append, haside.names]
          exact hcount
        · obtain ⟨rfl, rfl⟩ := spoken_done hend
          have hsaid : names (quiet :: (⟨.readChildren file directory.path, .ok listing⟩ : Said F I S L)
              :: (before ++ [quiet])) = names before := by
            rw [names_cons_other rfl, names_cons_other rfl, names_append, aside_quiet.names]
            rfl
          refine ⟨⟨by rw [hsaid]; exact hcount,
            hshallow.append ((hflat hnone).append aside_quiet.shallow)⟩, ?_⟩
          intro names' w' hresult
          obtain ⟨rfl, rfl⟩ := Prod.mk.inj (Except.ok.inj hresult)
          rw [hsaid]
          refine ⟨⟨file, listing, asked, ?_, ?_, ?_, sortOn_pairwise _ _⟩, ⟨hwithin, hfits.bytes⟩,
            by rw [htotal]⟩
          · rw [hasked]
            exact ⟨[quiet], [quiet], rfl⟩
          · exact fun x hx => hnone x (hasked ▸ List.mem_append_left _ hx)
          · rw [hgiven]
            exact sortOn_perm _ _

end Listing

/-! ### What is recorded -/

/-- An entry and its snapshot are those of one child: two opens of it agreed, the size is what they
saw, and the entry is regular exactly if they saw a regular file with one link, whose second handle
is then retained with that state. -/
def Recorded (said : List (Said F I S L)) (entry : RawEntry) (snapshot : Snapshot F I S) : Prop :=
  ∃ node, Opened said node ∧ node.kind ≠ .directory ∧ entry.name = recordedName node.path ∧
    entry.declaredSize = node.state.len ∧
    (entry.kind = .regular ∧ node.kind = .regular ∧ node.state.links = 1 ∧
        (∃ file, node.file = some file ∧ snapshot = .regular ⟨file, node.state⟩) ∨
      entry.kind = .other ∧ ¬(node.kind = .regular ∧ node.state.links = 1) ∧
        snapshot = .unsupported)

/-- The entries of some children of a directory, in this order: a child is a leaf with an entry of its
own, or was opened as a directory and has all that its listing gave. -/
inductive Listed (said : List (Said F I S L)) : List String → List String → List RawEntry → Prop
  | nil (path : List String) : Listed said path [] []
  | leaf {path names : List String} {name : String} {entry : RawEntry} {entries : List RawEntry} :
      entry.name = recordedName (path ++ [name]) → Listed said path names entries →
      Listed said path (name :: names) (entry :: entries)
  | branch {path names below : List String} {name : String} {inner entries : List RawEntry}
      {node : OpenedNode F I S} : Opened said node → node.path = path ++ [name] →
      node.kind = .directory → Children said (path ++ [name]) below →
      Listed said (path ++ [name]) below inner → Listed said path names entries →
      Listed said path (name :: names) (inner ++ entries)

structure Grown (limits : AssetLimits) (w : Walk F I S) (said : List (Said F I S L))
    (added : List (RawEntry × Snapshot F I S)) (w' : Walk F I S) : Prop where
  entries : w'.entries = w.entries ++ added.map Prod.fst
  snapshots : w'.snapshots = w.snapshots ++ added.map Prod.snd
  recorded : ∀ x ∈ added, Recorded said x.1 x.2
  nodes : w'.traversedNodes = w.traversedNodes + names said
  bytes : w'.totalBytes = w.totalBytes + (added.map fun x => x.1.declaredSize.toNat).sum
  fits : Fits limits w'

section Growth

variable {limits : AssetLimits} {w w₁ w₂ : Walk F I S} {said said' before after : List (Said F I S L)}
  {added added' : List (RawEntry × Snapshot F I S)} {entry : RawEntry} {snapshot : Snapshot F I S}
  {node : OpenedNode F I S}

theorem Opened.mono (h : Opened said node) (hsub : List.IsInfix said said') : Opened said' node := by
  obtain ⟨directory, parentPath, name, first, hpath, hkind, hstate, hinfix⟩ := h
  exact ⟨directory, parentPath, name, first, hpath, hkind, hstate, hinfix.trans hsub⟩

theorem Recorded.mono (h : Recorded said entry snapshot) (hsub : List.IsInfix said said') :
    Recorded said' entry snapshot := by
  obtain ⟨node, hopened, hrest⟩ := h
  exact ⟨node, hopened.mono hsub, hrest⟩

theorem Children.mono {path children : List String} (h : Children said path children)
    (hsub : List.IsInfix said said') : Children said' path children := by
  obtain ⟨directory, listing, asked, hinfix, hrest⟩ := h
  exact ⟨directory, listing, asked, hinfix.trans hsub, hrest⟩

theorem Listed.mono {path children : List String} {entries : List RawEntry}
    (h : Listed said path children entries) (hsub : List.IsInfix said said') :
    Listed said' path children entries := by
  induction h with
  | nil path => exact .nil path
  | leaf hname _ ih => exact .leaf hname ih
  | branch hopened hpath hkind hbelow _ _ ihbelow ih =>
    exact .branch (hopened.mono hsub) hpath hkind (hbelow.mono hsub) ihbelow ih

theorem Grown.refl (haside : Aside said) (hfits : Fits limits w) : Grown limits w said [] w where
  entries := (List.append_nil _).symm
  snapshots := (List.append_nil _).symm
  recorded _ h := absurd h List.not_mem_nil
  nodes := by rw [haside.names]; rfl
  bytes := rfl
  fits := hfits

theorem Grown.trans (h : Grown limits w before added w₁) (h' : Grown limits w₁ after added' w₂) :
    Grown limits w (before ++ after) (added ++ added') w₂ where
  entries := by rw [h'.entries, h.entries, List.map_append, List.append_assoc]
  snapshots := by rw [h'.snapshots, h.snapshots, List.map_append, List.append_assoc]
  recorded x hx := by
    rcases List.mem_append.mp hx with hx | hx
    · exact (h.recorded x hx).mono (List.prefix_append _ _).isInfix
    · exact (h'.recorded x hx).mono (List.suffix_append _ _).isInfix
  nodes := by rw [h'.nodes, h.nodes, names_append, Nat.add_assoc]
  bytes := by rw [h'.bytes, h.bytes, List.map_append, List.sum_append, Nat.add_assoc]
  fits := h'.fits

theorem Grown.bounded (h : Grown limits w before added w₁) (hbefore : Shallow before)
    (hafter : Bounded limits w₁ after) : Bounded limits w (before ++ after) := by
  refine ⟨?_, hbefore.append hafter.shallow⟩
  have hnames := hafter.names
  rw [h.nodes] at hnames
  rw [names_append]
  omega

theorem push_eq_ok (h : w.push limits entry = .ok w₁) :
    w₁ = { w with entries := w.entries ++ [entry],
                  totalBytes := w.totalBytes + entry.declaredSize.toNat } ∧
      w₁.totalBytes ≤ limits.maxTotalUncompressedBytes.toNat := by
  unfold Walk.push at h
  split at h
  · cases h
  · cases htotal : checkedAdd u64Max w.totalBytes entry.declaredSize.toNat with
    | none =>
      rw [htotal] at h
      cases h
    | some total =>
      simp only [htotal] at h
      by_cases hover : total > limits.maxTotalUncompressedBytes.toNat
      · rw [if_pos hover] at h
        cases h
      · rw [if_neg hover] at h
        obtain rfl := Except.ok.inj h
        rw [(checkedAdd_eq_some.mp htotal).1] at hover ⊢
        exact ⟨rfl, Nat.le_of_not_gt hover⟩

theorem snapshotOf_eq_ok (path : List String) (h : snapshotOf node = .ok snapshot) :
    ((rawEntry path node).kind = .regular ∧ node.kind = .regular ∧ node.state.links = 1 ∧
        ∃ file, node.file = some file ∧ snapshot = .regular ⟨file, node.state⟩) ∨
      (rawEntry path node).kind = .other ∧ ¬(node.kind = .regular ∧ node.state.links = 1) ∧
        snapshot = .unsupported := by
  have haccepted : node.accepted = true ↔ node.kind = .regular ∧ node.state.links = 1 := by
    simp [OpenedNode.accepted, OpenedNode.hasSingleLink]
  unfold snapshotOf at h
  by_cases hif : node.accepted = true
  · obtain ⟨hkind, hlinks⟩ := haccepted.mp hif
    rw [if_pos hif] at h
    cases hfile : node.file with
    | none =>
      rw [hfile] at h
      cases h
    | some file =>
      rw [hfile] at h
      exact Or.inl ⟨if_pos hif, hkind, hlinks, file, rfl, (Except.ok.inj h).symm⟩
  · rw [if_neg hif] at h
    exact Or.inr ⟨if_neg hif, fun hboth => hif (haccepted.mpr hboth), (Except.ok.inj h).symm⟩

theorem record_grown (hopened : Opened said node) (haside : Aside said)
    (hkind : node.kind ≠ .directory) (hfits : Fits limits w)
    (h : w.record limits node.path node = .ok w₁) :
    ∃ entry snapshot, entry.name = recordedName node.path ∧
      Grown limits w said [(entry, snapshot)] w₁ := by
  unfold Walk.record at h
  cases hpush : w.push limits (rawEntry node.path node) with
  | error refused =>
    rw [hpush] at h
    cases h
  | ok pushed =>
    rw [hpush] at h
    cases hsnapshot : snapshotOf node with
    | error refused =>
      rw [hsnapshot] at h
      cases h
    | ok snapshot =>
      rw [hsnapshot] at h
      obtain rfl := Except.ok.inj h
      obtain ⟨rfl, hbytes⟩ := push_eq_ok hpush
      refine ⟨rawEntry node.path node, snapshot, rfl, rfl, rfl, ?_, ?_, rfl, hfits.nodes, hbytes⟩
      · intro x hx
        rw [List.mem_singleton.mp hx]
        exact ⟨node, hopened, hkind, rfl, rfl, snapshotOf_eq_ok _ hsnapshot⟩
      · rw [haside.names]
        rfl

end Growth

/-! ### The walk -/

section Visit

open Dialogue

variable {limits : AssetLimits} {op : Operation} {w : Walk F I S}

/-- What a part of the walk does: `Order` is how its entries follow each other. -/
def Visits (limits : AssetLimits) (Order : List (Said F I S L) → List RawEntry → Prop)
    (w : Walk F I S) (said : List (Said F I S L)) (r : Except AssetFault (Walk F I S)) : Prop :=
  Bounded limits w said ∧ ∀ w', r = .ok w' →
    ∃ added, Order said (added.map Prod.fst) ∧ Grown limits w said added w'

def Below (path : List String) (said : List (Said F I S L)) (entries : List RawEntry) : Prop :=
  ∃ below, Children said path below ∧ Listed said path below entries

theorem visitChild_meets {opened child : OpenedNode F I S} {name : String}
    {descend : OpenedNode F I S → String → Walk F I S → Looking F I S L (Walk F I S)}
    (hdescend : child.path = opened.path ++ [name] → Fits limits w →
      (descend child name w).Meets (Visits limits (Below child.path) w))
    {before : List (Said F I S L)} (haside : Aside before)
    (hpath : child.path = opened.path ++ [name]) (hopened : Opened before child)
    (hfits : Fits limits w) :
    (visitChild limits descend opened.path child name w).Meets fun after r =>
      Visits limits (fun said entries => ∀ {said' names rest}, List.IsInfix said said' →
        Listed said' opened.path names rest →
        Listed said' opened.path (name :: names) (entries ++ rest)) w (before ++ after) r := by
  unfold visitChild
  have hself : Grown limits w before [] w := .refl haside hfits
  by_cases hdirectory : child.kind = .directory
  · rw [if_pos hdirectory]
    refine (hdescend hpath hfits).mono fun after r h => ⟨hself.bounded haside.shallow h.1, ?_⟩
    intro w' hr
    obtain ⟨added, ⟨below, hchildren, hbelow⟩, hgrown⟩ := h.2 w' hr
    rw [hpath] at hchildren hbelow
    refine ⟨added, fun hsub hrest => ?_, hself.trans hgrown⟩
    have hafter := (List.suffix_append before after).isInfix.trans hsub
    have hbefore := (List.prefix_append before after).isInfix.trans hsub
    exact .branch (hopened.mono hbefore) hpath hdirectory (hchildren.mono hafter)
      (hbelow.mono hafter) hrest
  · rw [if_neg hdirectory, ← hpath]
    refine .of_done ?_
    rw [List.append_nil]
    refine ⟨.of_aside haside hfits, fun w' hr => ?_⟩
    obtain ⟨entry, snapshot, hname, hgrown⟩ := record_grown hopened haside hdirectory hfits hr
    rw [hpath] at hname
    exact ⟨[(entry, snapshot)], fun _ hrest => .leaf hname hrest, hgrown⟩

variable [DecidableEq I] [DecidableEq S]

theorem unchanged_meets (opened : OpenedNode F I S) (w : Walk F I S) :
    (opened.changed >>= fun changed => if changed = true then Dialogue.fail (fault .sourceChanged)
        else pure w : Looking F I S L (Walk F I S)).Meets fun said r =>
      Aside said ∧ ∀ w', r = .ok w' → w' = w := by
  refine (changed_meets opened).bind (fun said e haside => ⟨haside, fun _ hr => (by cases hr)⟩) ?_
  intro before changed haside
  cases changed with
  | true =>
    refine .of_done ⟨?_, fun _ hr => (by cases hr)⟩
    rw [List.append_nil]
    exact haside
  | false =>
    refine .of_done ⟨?_, fun _ hr => (Except.ok.inj hr).symm⟩
    rw [List.append_nil]
    exact haside

theorem visitChildren_meets {opened : OpenedNode F I S}
    {descend : OpenedNode F I S → String → Walk F I S → Looking F I S L (Walk F I S)}
    (hdescend : ∀ child name w, child.path = opened.path ++ [name] → Fits limits w →
      (descend child name w).Meets (Visits limits (Below child.path) w))
    (children : List String) (hfits : Fits limits w) :
    (visitChildren limits op descend opened opened.path children w).Meets
      (Visits limits (fun said => Listed said opened.path children) w) := by
  induction children generalizing w with
  | nil =>
    refine .of_done ⟨.of_aside .nil hfits, fun w' hr => ?_⟩
    obtain rfl := Except.ok.inj hr
    exact ⟨[], .nil _, .refl .nil hfits⟩
  | cons name names ih =>
    unfold visitChildren
    refine (openChildStable_meets opened name).bind ?_ ?_
    · exact fun said e h => ⟨.of_aside h.1 hfits, fun _ hr => (by cases hr)⟩
    rintro before child ⟨haside, hok⟩
    obtain ⟨hpath, hopened⟩ := hok child rfl
    refine (visitChild_meets (hdescend child name w) haside hpath hopened hfits).bind ?_ ?_
    · exact fun said e h => ⟨h.1, fun _ hr => (by cases hr)⟩
    rintro middle w₁ ⟨hbounded, hgrows⟩
    obtain ⟨added, horder, hgrown⟩ := hgrows w₁ rfl
    refine (ih hgrown.fits).mono fun after r h => ?_
    rw [← List.append_assoc]
    refine ⟨hgrown.bounded hbounded.shallow h.1, fun w' hr => ?_⟩
    obtain ⟨added', hlisted, hgrown'⟩ := h.2 w' hr
    refine ⟨added ++ added', ?_, hgrown.trans hgrown'⟩
    rw [List.map_append]
    exact horder (List.prefix_append _ _).isInfix (hlisted.mono (List.suffix_append _ _).isInfix)

theorem visit_meets (opened : OpenedNode F I S) (hfits : Fits limits w) :
    (Walk.visit limits op opened opened.path w : Looking F I S L _).Meets
      (Visits limits (Below opened.path) w) := by
  induction hlevels : maxDirectoryDepth + 1 - opened.path.length using Nat.strong_induction_on
    generalizing opened w with
  | _ levels ih =>
    rw [Walk.visit]
    by_cases hdeep : opened.path.length > maxDirectoryDepth
    · rw [dif_pos hdeep]
      exact .of_done ⟨.of_aside .nil hfits, fun _ hr => (by cases hr)⟩
    rw [dif_neg hdeep]
    refine (readSorted_meets opened (Nat.le_of_not_gt hdeep) hfits).bind ?_ ?_
    · exact fun said e h => ⟨h.1, fun _ hr => (by cases hr)⟩
    rintro listing ⟨children, w₁⟩ ⟨hbounded, hok⟩
    obtain ⟨hchildren, hfits₁, hw₁⟩ := hok children w₁ rfl
    have hlisting : Grown limits w listing [] w₁ := by
      rw [hw₁] at hfits₁ ⊢
      exact ⟨(List.append_nil _).symm, (List.append_nil _).symm, fun x hx => absurd hx List.not_mem_nil,
        rfl, rfl, hfits₁⟩
    refine (changed_meets opened).bind ?_ ?_
    · exact fun said e haside =>
        ⟨hlisting.bounded hbounded.shallow (.of_aside haside hfits₁), fun _ hr => (by cases hr)⟩
    intro looked changed hlooked
    have hbefore := hlisting.trans (.refl hlooked hfits₁)
    have hshallow := hbounded.shallow.append hlooked.shallow
    cases changed with
    | true =>
      refine .of_done ⟨?_, fun _ hr => (by cases hr)⟩
      rw [List.append_nil]
      exact hlisting.bounded hbounded.shallow (.of_aside hlooked hfits₁)
    | false =>
      refine (visitChildren_meets ?_ children hfits₁).bind ?_ ?_
      · intro child name w' hpath hfits'
        have hlevel : maxDirectoryDepth + 1 - child.path.length < levels := by
          rw [hpath, List.length_append, List.length_singleton]
          omega
        have hchild := ih _ hlevel child hfits' rfl
        rw [← hpath]
        exact hchild
      · intro said e h
        rw [← List.append_assoc]
        exact ⟨hbefore.bounded hshallow h.1, fun _ hr => (by cases hr)⟩
      rintro visited w₂ ⟨hvisited, hgrows⟩
      obtain ⟨added, horder, hgrown⟩ := hgrows w₂ rfl
      have hall := hbefore.trans hgrown
      have hreached := hshallow.append hvisited.shallow
      refine (unchanged_meets opened w₂).mono fun after r h => ?_
      rw [← List.append_assoc, ← List.append_assoc]
      refine ⟨hall.bounded hreached (.of_aside h.1 hgrown.fits), fun w' hr => ?_⟩
      obtain rfl := h.2 w' hr
      have hend := hall.trans (.refl h.1 hgrown.fits)
      rw [List.append_nil] at hend
      have hlisting : List.IsInfix listing (listing ++ looked ++ visited ++ after) := by
        rw [List.append_assoc, List.append_assoc]
        exact (List.prefix_append _ _).isInfix
      have hvisit : List.IsInfix visited (listing ++ looked ++ visited ++ after) :=
        ⟨listing ++ looked, after, rfl⟩
      exact ⟨added, ⟨children, hchildren.mono hlisting, horder.mono hvisit⟩, hend⟩

end Visit

/-- What a successful walk gives: the entries and the snapshots of the same children, within the
limit of bytes, depth first with siblings sorted by name, none of those listed left out. -/
structure Faithful (limits : AssetLimits) (said : List (Said F I S L))
    (reader : DirectoryReader F I S) (entries : List RawEntry) : Prop where
  length : entries.length = reader.snapshots.length
  recorded : ∀ (i : ℕ) entry snapshot, entries[i]? = some entry →
    reader.snapshots[i]? = some snapshot → Recorded said entry snapshot
  bytes : (entries.map fun entry => entry.declaredSize.toNat).sum ≤
    limits.maxTotalUncompressedBytes.toNat
  order : Below [] said entries

structure WalkLaw (limits : AssetLimits) (said : List (Said F I S L))
    (r : Except AssetFault (DirectoryReader F I S × List RawEntry)) : Prop where
  names : names said ≤ limits.maxEntryCount.toNat + 1
  shallow : Shallow said
  faithful : ∀ reader entries, r = .ok (reader, entries) → Faithful limits said reader entries

theorem Grown.faithful {limits : AssetLimits} {said : List (Said F I S L)} {w : Walk F I S}
    {added : List (RawEntry × Snapshot F I S)} (h : Grown limits ⟨[], [], 0, 0⟩ said added w)
    (hbelow : Below [] said (added.map Prod.fst)) :
    Faithful limits said ⟨w.snapshots⟩ w.entries := by
  have hentries : w.entries = added.map Prod.fst := h.entries
  have hsnapshots : w.snapshots = added.map Prod.snd := h.snapshots
  refine ⟨?_, fun i entry snapshot hentry hsnapshot => ?_, ?_, ?_⟩
  · show w.entries.length = w.snapshots.length
    rw [hentries, hsnapshots, List.length_map, List.length_map]
  · replace hsnapshot : w.snapshots[i]? = some snapshot := hsnapshot
    rw [hentries, List.getElem?_map] at hentry
    rw [hsnapshots, List.getElem?_map] at hsnapshot
    cases hadded : added[i]? with
    | none =>
      rw [hadded] at hentry
      cases hentry
    | some x =>
      rw [hadded] at hentry hsnapshot
      obtain rfl := Option.some.inj hentry
      obtain rfl := Option.some.inj hsnapshot
      exact h.recorded x (List.mem_of_getElem? hadded)
  · have hbytes := h.fits.bytes
    rw [h.bytes, Nat.zero_add] at hbytes
    rw [hentries, List.map_map]
    exact hbytes
  · rw [hentries]
    exact hbelow

section Open

variable [DecidableEq I] [DecidableEq S] {limits : AssetLimits} {op : Operation}

theorem openDirectory_meets : (openDirectory limits op : Looking F I S L _).Meets
    (WalkLaw limits) := by
  have hfits : Fits limits (⟨[], [], 0, 0⟩ : Walk F I S) := ⟨Nat.zero_le _, Nat.zero_le _⟩
  have haside : ∀ {said : List (Said F I S L)} {e : AssetFault}, Aside said →
      WalkLaw (F := F) (I := I) (S := S) limits said (.error e) := by
    intro said e h
    have hbounded : Bounded limits (⟨[], [], 0, 0⟩ : Walk F I S) said := .of_aside h hfits
    exact ⟨by have := hbounded.names; omega, h.shallow, fun _ _ hr => (by cases hr)⟩
  unfold openDirectory
  refine openStable_meets.bind (fun said e h => haside h.1) ?_
  rintro before root ⟨hbefore, hroot⟩
  have hpath := hroot root rfl
  by_cases hkind : root.kind ≠ .directory
  · rw [if_pos hkind]
    refine .of_done ?_
    rw [List.append_nil]
    exact haside hbefore
  · rw [if_neg hkind]
    have hself : Grown limits (⟨[], [], 0, 0⟩ : Walk F I S) before [] ⟨[], [], 0, 0⟩ :=
      .refl hbefore hfits
    have hvisit : (Walk.visit limits op root root.path _ : Looking F I S L _).Meets _ :=
      visit_meets root hfits
    rw [hpath] at hvisit
    refine hvisit.bind (fun said e h => ?_) ?_
    · have hall := hself.bounded hbefore.shallow h.1
      exact ⟨by have := hall.names; omega, hall.shallow, fun _ _ hr => (by cases hr)⟩
    · rintro middle walked ⟨hbounded, hgrows⟩
      obtain ⟨added, ⟨children, hchildren, hlisted⟩, hgrown⟩ := hgrows walked rfl
      have hall := hself.bounded hbefore.shallow hbounded
      have hgrown' := hself.trans hgrown
      refine .of_done ?_
      rw [List.append_nil]
      refine ⟨by have := hall.names; omega, hall.shallow, fun reader entries hr => ?_⟩
      obtain ⟨rfl, rfl⟩ := Prod.mk.inj (Except.ok.inj hr)
      have hafter := (List.suffix_append before middle).isInfix
      exact hgrown'.faithful ⟨children, hchildren.mono hafter, hlisted.mono hafter⟩

end Open

/-! ### Reading an entry -/

def bytesRead : List (Said F I S L) → List UInt8
  | [] => []
  | ⟨.read _, .ok chunk⟩ :: said => chunk.1 ++ bytesRead said
  | _ :: said => bytesRead said

/-- A look at the state behind a handle that finds the recorded state, with one link. -/
def unchanged [DecidableEq I] [DecidableEq S] (file : OpenedFile F I S) : Said F I S L → Bool
  | ⟨.state _, .ok (_, state)⟩ => state = file.state && state.links = 1
  | ⟨.state _, .error _⟩ => false
  | _ => true

def Reads (file : F) (said : List (Said F I S L)) : Prop :=
  ∀ x ∈ said, x.1 = .interruption ∨ (∃ length, x.1 = .reserve length) ∨ x.1 = .read file

section Reading

open Dialogue

variable {op : Operation} {stage : LoadStage} {file : F} {α : Type}
  {said before after : List (Said F I S L)} {r : Except AssetFault α}

theorem Reads.append (hbefore : Reads file before) (hafter : Reads file after) :
    Reads file (before ++ after) := by
  intro x hx
  rcases List.mem_append.mp hx with hx | hx
  · exact hbefore x hx
  · exact hafter x hx

theorem reads_of_interruptions (h : ∀ x ∈ said, x.1 = .interruption) : Reads file said :=
  fun x hx => Or.inl (h x hx)

theorem reads_quiet : Reads file [(quiet : Said F I S L)] :=
  reads_of_interruptions fun x hx => by rw [List.mem_singleton.mp hx]; rfl

theorem answering_read (answer : Except Unit Chunk) :
    (answering answer).read () chunkBytes = (answer.map fun chunk => chunk.1, ()) := by
  cases answer with
  | error e => rfl
  | ok chunk =>
    show (Except.ok (chunk.1.take chunkBytes), ()) = _
    rw [List.take_of_length_le chunk.2]
    rfl

theorem readLoop_meets (declared : ℕ) (s : Reading Unit) :
    (readLoop file declared stage op s : Looking F I S L _).Meets fun said r =>
      Reads file said ∧ ∀ bytes, r = .ok bytes → bytes = s.produced ++ bytesRead said ∧
        s.total + (bytesRead said).length = declared := by
  induction hleft : declared - s.total using Nat.strong_induction_on generalizing s with
  | _ left ih =>
    intro said r h
    rw [readLoop] at h
    rcases spoken_checkpoint h with ⟨⟨i, rfl⟩, hsaid⟩ | ⟨rest, rfl, hread⟩
    · exact ⟨reads_of_interruptions hsaid, fun _ hr => (by cases hr)⟩
    rw [ask_bind] at hread
    obtain ⟨answer, rest, rfl, hturn⟩ := spoken_call hread
    have hasked : Reads file [quiet, (⟨.read file, answer⟩ : Said F I S L)] := by
      refine reads_quiet.append fun x hx => ?_
      rw [List.mem_singleton.mp hx]
      exact Or.inr (Or.inr rfl)
    have hanswer := answering_read answer
    split at hturn
    · obtain ⟨rfl, rfl⟩ := spoken_done hturn
      exact ⟨hasked, fun _ hr => (by cases hr)⟩
    · rename_i source hends
      obtain ⟨hempty, htotal⟩ := turn_eq_ends hends
      obtain ⟨rfl, rfl⟩ := spoken_done hturn
      rw [hanswer] at hempty
      obtain ⟨hchunk, -⟩ := Prod.mk.inj hempty
      cases answer with
      | error e => cases hchunk
      | ok chunk =>
        have hnil : bytesRead [(quiet : Said F I S L), ⟨.read file, .ok chunk⟩] = [] := by
          have hempty : chunk.1 = [] := Except.ok.inj hchunk
          show chunk.1 ++ [] = []
          rw [hempty, List.append_nil]
        rw [hnil]
        refine ⟨hasked, fun bytes hr => ⟨?_, htotal⟩⟩
        rw [List.append_nil]
        exact (Except.ok.inj hr).symm
    · rename_i s' hgoes
      obtain ⟨chunk, hchunk, hne, htotal, hle, hproduced⟩ := turn_eq_goes hgoes
      rw [hanswer] at hchunk
      obtain ⟨hchunk, -⟩ := Prod.mk.inj hchunk
      have hpos := List.length_pos_of_ne_nil hne
      obtain ⟨hrest, hok⟩ := ih _ (by omega) s' rfl _ _ hturn
      refine ⟨hasked.append hrest, fun bytes hr => ?_⟩
      obtain ⟨hbytes, hlength⟩ := hok bytes hr
      cases answer with
      | error e => cases hchunk
      | ok answer =>
        have hread : bytesRead ((quiet : Said F I S L) :: ⟨.read file, .ok answer⟩ :: rest) =
            chunk ++ bytesRead rest := by
          have hsame : answer.1 = chunk := Except.ok.inj hchunk
          rw [← hsame]
          rfl
        rw [hread, List.length_append]
        refine ⟨?_, by omega⟩
        rw [hbytes, hproduced, List.append_assoc]

theorem readCapped_meets (declared : UInt64) :
    (readCapped file declared stage op : Looking F I S L _).Meets fun said r =>
      Reads file said ∧ ∀ bytes, r = .ok bytes → bytes = bytesRead said ∧
        bytes.length = declared.toNat := by
  intro said r h
  unfold readCapped at h
  rcases spoken_checkpoint h with ⟨⟨i, rfl⟩, hsaid⟩ | ⟨rest, rfl, hreserve⟩
  · exact ⟨reads_of_interruptions hsaid, fun _ hr => (by cases hr)⟩
  rw [ask_bind] at hreserve
  obtain ⟨answer, rest, rfl, hloop⟩ := spoken_call hreserve
  have hasked : Reads file [quiet, (⟨.reserve declared.toNat, answer⟩ : Said F I S L)] := by
    refine reads_quiet.append fun x hx => ?_
    rw [List.mem_singleton.mp hx]
    exact Or.inr (Or.inl ⟨_, rfl⟩)
  cases answer with
  | false =>
    obtain ⟨rfl, rfl⟩ := spoken_done hloop
    exact ⟨hasked, fun _ hr => (by cases hr)⟩
  | true =>
    obtain ⟨hrest, hok⟩ := readLoop_meets declared.toNat ⟨(), 0, []⟩ _ _ hloop
    refine ⟨hasked.append hrest, fun bytes hr => ?_⟩
    obtain ⟨hbytes, hlength⟩ := hok bytes hr
    rw [Nat.zero_add] at hlength
    rw [List.nil_append] at hbytes
    rw [hbytes]
    exact ⟨rfl, hlength⟩

variable [DecidableEq I] [DecidableEq S] {snapshot : OpenedFile F I S}

theorem spoken_changed {f : Bool → Looking F I S L α} (h : Spoken (snapshot.changed >>= f) said r) :
    ∃ answer rest, said = ⟨.state snapshot.file, answer⟩ :: rest ∧
      Spoken (f (!unchanged snapshot (⟨.state snapshot.file, answer⟩ : Said F I S L))) rest r := by
  unfold OpenedFile.changed at h
  obtain ⟨answer, rest, rfl, hrest⟩ := spoken_call h
  refine ⟨answer, rest, rfl, ?_⟩
  cases answer with
  | error e => exact hrest
  | ok answer =>
    have hsame : (decide (answer.2 ≠ snapshot.state) || decide (answer.2.links ≠ 1)) =
        !unchanged snapshot (⟨.state snapshot.file, .ok answer⟩ : Said F I S L) := by
      unfold unchanged
      simp [Bool.not_and]
    rw [← hsame]
    exact hrest

theorem unchanged_eq_true {answer : Except Unit (NodeKind × FileState I S)}
    (h : unchanged snapshot (⟨.state snapshot.file, answer⟩ : Said F I S L) = true) :
    (∃ kind, answer = .ok (kind, snapshot.state)) ∧ snapshot.state.links = 1 := by
  cases answer with
  | error e => cases h
  | ok answer =>
    obtain ⟨hstate, hlinks⟩ := Bool.and_eq_true_iff.mp h
    have hstate := of_decide_eq_true hstate
    have hlinks := of_decide_eq_true hlinks
    rw [hstate] at hlinks
    exact ⟨⟨answer.1, by rw [← hstate]⟩, hlinks⟩

theorem Reads.unchanged (h : Reads file said) {x : Said F I S L} (hx : x ∈ said) :
    unchanged snapshot x = true := by
  obtain ⟨q, answer⟩ := x
  rcases h _ hx with hq | ⟨length, hq⟩ | hq <;> cases hq <;> rfl

/-- What holds of every read of an entry, whatever was answered. -/
structure ReadLaw (reader : DirectoryReader F I S) (index : ℕ) (declared : UInt64)
    (stage : LoadStage) (said : List (Said F I S L)) (r : Except AssetFault (List UInt8)) :
    Prop where
  /-- Bytes come between two looks that found the recorded state, as many as were declared. -/
  reads : ∀ bytes, r = .ok bytes → ∃ file before after middle,
    reader.snapshots[index]? = some (.regular file) ∧ file.state.links = 1 ∧
    said = ⟨.state file.file, .ok (before, file.state)⟩ ::
      (middle ++ [⟨.state file.file, .ok (after, file.state)⟩]) ∧
    Reads file.file middle ∧ bytes = bytesRead middle ∧ bytes.length = declared.toNat
  /-- A look that finds another state, or none, decides the result. -/
  changed : ∀ file, reader.snapshots[index]? = some (.regular file) →
    ∀ x ∈ said, unchanged file x = false → r = .error ⟨.sourceChanged, stage⟩

theorem spoken_last (ok : Except AssetFault α)
    (h : Spoken (snapshot.changed >>= fun changed => if changed = true then
        Dialogue.fail ⟨.sourceChanged, stage⟩ else (.lift ok : Looking F I S L α)) said r) :
    ∃ answer, said = [⟨.state snapshot.file, answer⟩] ∧
      (unchanged snapshot (⟨.state snapshot.file, answer⟩ : Said F I S L) = false ∧
          r = .error ⟨.sourceChanged, stage⟩ ∨
        unchanged snapshot (⟨.state snapshot.file, answer⟩ : Said F I S L) = true ∧ r = ok) := by
  obtain ⟨answer, rest, rfl, hrest⟩ := spoken_changed h
  cases hlook : unchanged snapshot (⟨.state snapshot.file, answer⟩ : Said F I S L) with
  | false =>
    rw [hlook] at hrest
    obtain ⟨rfl, rfl⟩ := spoken_done hrest
    exact ⟨answer, rfl, Or.inl ⟨hlook, rfl⟩⟩
  | true =>
    rw [hlook] at hrest
    obtain ⟨rfl, rfl⟩ := spoken_done hrest
    exact ⟨answer, rfl, Or.inr ⟨hlook, rfl⟩⟩

theorem readEntry_meets (reader : DirectoryReader F I S) (index : ℕ) (declared : UInt64) :
    (reader.readEntry index declared stage op : Looking F I S L _).Meets
      (ReadLaw reader index declared stage) := by
  unfold DirectoryReader.readEntry
  cases hsnapshot : reader.snapshots[index]? with
  | none =>
    refine .of_done ⟨fun _ hr => (by cases hr), fun file hfile => ?_⟩
    rw [hsnapshot] at hfile
    cases hfile
  | some snapshot =>
    cases snapshot with
    | unsupported =>
      refine .of_done ⟨fun _ hr => (by cases hr), fun file hfile => ?_⟩
      rw [hsnapshot] at hfile
      cases hfile
    | regular file =>
      intro said r h
      have hchanged : ∀ {said : List (Said F I S L)},
          ReadLaw reader index declared stage said (.error ⟨.sourceChanged, stage⟩) :=
        ⟨fun _ hr => (by cases hr), fun _ _ _ _ _ => rfl⟩
      have hfile : ∀ {file'}, reader.snapshots[index]? = some (.regular file') → file' = file := by
        intro file' hfile'
        rw [hsnapshot] at hfile'
        exact (Snapshot.regular.inj (Option.some.inj hfile')).symm
      have hrefused : ∀ {said : List (Said F I S L)} {e}, (∀ x ∈ said, unchanged file x = true) →
          ReadLaw reader index declared stage said (.error e) := by
        refine fun hsame => ⟨fun _ hr => (by cases hr), fun file' hfile' x hx hne => ?_⟩
        rw [hfile hfile', hsame x hx] at hne
        cases hne
      obtain ⟨first, rest, rfl, hrest⟩ := spoken_changed h
      cases hfirst : unchanged file (⟨.state file.file, first⟩ : Said F I S L) with
      | false =>
        rw [hfirst] at hrest
        obtain ⟨rfl, rfl⟩ := spoken_done hrest
        exact hchanged
      | true =>
        obtain ⟨⟨before, rfl⟩, hlinks⟩ := unchanged_eq_true hfirst
        rw [hfirst] at hrest
        change Spoken ((readCapped file.file declared stage op).attempt >>= _) rest r at hrest
        rcases spoken_bind hrest with ⟨e, hread, rfl⟩ | ⟨result, middle, after, hread, hlast, rfl⟩
        · obtain ⟨result, hresult, -⟩ := spoken_attempt hread
          cases hresult
        obtain ⟨result, hresult, hcapped⟩ := spoken_attempt hread
        obtain rfl := Except.ok.inj hresult
        obtain ⟨hreads, hbytes⟩ := readCapped_meets declared _ _ hcapped
        have hbefore : ∀ x ∈ ⟨.state file.file, .ok (before, file.state)⟩ :: middle,
            unchanged file x = true := by
          intro x hx
          rcases List.mem_cons.mp hx with rfl | hx
          · exact hfirst
          · exact hreads.unchanged hx
        have hall : ∀ {answer : Except Unit (NodeKind × FileState I S)},
            unchanged file (⟨.state file.file, answer⟩ : Said F I S L) = true →
            ∀ x ∈ ⟨.state file.file, .ok (before, file.state)⟩ ::
              (middle ++ [⟨.state file.file, answer⟩]), unchanged file x = true := by
          intro answer hlook x hx
          rw [← List.cons_append] at hx
          rcases List.mem_append.mp hx with hx | hx
          · exact hbefore x hx
          · rw [List.mem_singleton.mp hx]
            exact hlook
        cases result with
        | error refused =>
          by_cases hkind : refused.kind = .declaredSizeMismatch
          · simp only [if_pos hkind] at hlast
            rcases spoken_last (.error refused) hlast with
              ⟨answer, rfl, ⟨-, rfl⟩ | ⟨hlook, rfl⟩⟩
            · exact hchanged
            · exact hrefused (hall hlook)
          · simp only [if_neg hkind] at hlast
            obtain ⟨rfl, rfl⟩ := spoken_done hlast
            rw [List.append_nil]
            exact hrefused hbefore
        | ok bytes =>
          rcases spoken_last (.ok bytes) hlast with ⟨answer, rfl, ⟨-, rfl⟩ | ⟨hlook, rfl⟩⟩
          · exact hchanged
          · obtain ⟨⟨kind, rfl⟩, -⟩ := unchanged_eq_true hlook
            refine ⟨fun bytes' hr => ?_, fun file' hfile' x hx hne => ?_⟩
            · obtain rfl := Except.ok.inj hr
              obtain ⟨hread, hlength⟩ := hbytes bytes rfl
              exact ⟨file, before, kind, middle, hsnapshot, hlinks, rfl, hreads, hread, hlength⟩
            · rw [hfile hfile', hall hlook x hx] at hne
              cases hne

end Reading

/-- **A walk of a directory and the reads of its entries**, for every host: it ends after at most
one name more than the limit, none of a directory that lies more than the ceiling below the root;
the entries and snapshots that it gives are those of the children that two opens agreed on; and an
entry is read as it was recorded, or not at all. -/
theorem directory_walk {E : Type} [DecidableEq I] [DecidableEq S] (limits : AssetLimits)
    (op : Operation) (host : Host (Answer F I S L) E) (e : E) :
    WalkLaw limits (((openDirectory limits op).log host e).map Entry.said)
      ((openDirectory limits op).result host e) ∧
    ∀ (reader : DirectoryReader F I S) (index : ℕ) (declared : UInt64) (stage : LoadStage)
      (op : Operation) (e : E), ReadLaw reader index declared stage
        (((reader.readEntry index declared stage op).log host e).map Entry.said)
        ((reader.readEntry index declared stage op).result host e) :=
  ⟨openDirectory_meets.run host e, fun reader index declared _ _ e =>
    (readEntry_meets reader index declared).run host e⟩

/-! ### A tree with a directory `a`, a file `c` in it, and a file `b` -/

def sampleState (links : UInt64) : FileState ℕ ℕ := ⟨0, 0, 1, links⟩

def sampleSeen (name : String) : Seen (List String) ℕ ℕ :=
  if name = "a" then ⟨some ["a"], .directory, sampleState 2⟩
  else ⟨some [name], .regular, sampleState 1⟩

def sampleHost : Host (Answer (List String) ℕ ℕ PUnit) (List String)
  | .interruption, left => (none, left)
  | .openRoot, left => (.ok ⟨some [], .directory, sampleState 2⟩, left)
  | .openChild _ _ name, left => (.ok (sampleSeen name), left)
  | .readChildren _ [], _ => (.ok ⟨⟩, ["b", "a"])
  | .readChildren _ (_ :: _), _ => (.ok ⟨⟩, ["c"])
  | .nextChild _, [] => (none, [])
  | .nextChild _, name :: left => (some (.ok (some name)), left)
  | .state [], left => (.ok (.directory, sampleState 2), left)
  | .state (name :: _), left => (.ok ((sampleSeen name).kind, (sampleSeen name).state), left)
  | .reserve _, left => (true, left)
  | .read _, left => (.ok ⟨[], by decide⟩, left)

def sampleReader : DirectoryReader (List String) ℕ ℕ :=
  ⟨[.regular ⟨["c"], sampleState 1⟩, .regular ⟨["b"], sampleState 1⟩]⟩

def sampleEntries : List RawEntry :=
  [⟨recordedName ["a", "c"], .regular, .accepted, 1, 1⟩,
    ⟨recordedName ["b"], .regular, .accepted, 1, 1⟩]

def sampleWalk :
    Looking (List String) ℕ ℕ PUnit (DirectoryReader (List String) ℕ ℕ × List RawEntry) :=
  openDirectory ⟨8, 8⟩ ⟨none⟩

theorem sampleWalk_result : sampleWalk.result sampleHost [] = .ok (sampleReader, sampleEntries) := by
  have hroot : sortOn (fun name => name) ["b", "a"] = ["a", "b"] := by
    simp [sortOn, List.mergeSort, List.MergeSort.Internal.splitInTwo]
  have hbelow : sortOn (fun name => name) ["c"] = ["c"] := by simp [sortOn]
  unfold sampleWalk openDirectory
  -- The two directories are unfolded one by one: their recursion is not structural.
  simp [bind, pure, Dialogue.bind, Dialogue.ask, Dialogue.lift, Dialogue.result, checkpoint,
    openStable, openTwice, openOnce, openChildStable, openChildOnce, Except.mapError, Except.bind,
    Except.pure, OpenedNode.changed, OpenedNode.accepted, OpenedNode.hasSingleLink,
    Walk.visit.eq_1 _ _ _ [], Walk.visit.eq_1 _ _ _ ["a"], maxDirectoryDepth, Walk.readSorted,
    readChildren, readNames, traverse, checkedAdd, u64Max, hroot, hbelow, visitChildren, visitChild,
    Walk.record, Walk.push, rawEntry, snapshotOf, sampleHost, sampleSeen, sampleState, sampleReader,
    sampleEntries]

/-- The walk goes into `a` first, and the law says how both listings became the entries. -/
theorem directory_walk_sample :
    sampleWalk.result sampleHost [] = .ok (sampleReader, sampleEntries) ∧
      Faithful ⟨8, 8⟩ ((sampleWalk.log sampleHost []).map Entry.said) sampleReader sampleEntries :=
  ⟨sampleWalk_result,
    (directory_walk ⟨8, 8⟩ ⟨none⟩ sampleHost []).1.faithful _ _ sampleWalk_result⟩

end MadoPilot.Assets.Directory

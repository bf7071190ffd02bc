import MadoPilot.Onnx.VocabularyYaml

/-!
# Running the consumer of the vocabulary

The consumer reads one event at a time over a stack, and never more than it may.  So its loop is a loop over
the list of events that it may read; and on the events of a tree it does what a recursion over the tree
does.

* `parseTokens_eq` : parsing ends on every stream, and reads no more than it may;
* `enter_events` : a node is entered exactly as it is read;
* `parseTokens_stream` : what the parser makes of a stream of trees.
-/

namespace MadoPilot.Onnx.VocabularyYaml

open MadoPilot.Capture MadoPilot.Lib MadoPilot.Lib.Yaml MadoPilot.Ocr
open MadoPilot.Input (isControl)

/-! ### The events that may be read -/

/-- The events that a parser delivers from a call on, in `n` calls at most. -/
def delivered (tokens : ℕ → Option YamlEvent) : ℕ → ℕ → List YamlEvent
  | _, 0 => []
  | k, n + 1 =>
    match tokens k with
    | none => []
    | some event => event :: delivered tokens (k + 1) n

def Events.Lists (e : Events) (l : List YamlEvent) : Prop :=
  ∃ n, e.consumed + n = maxEvents ∧ delivered e.tokens e.consumed n = l

theorem Events.Lists.next_nil {e : Events} (h : e.Lists []) : e.next = reject := by
  obtain ⟨n, hcount, hlist⟩ := h
  unfold Events.next
  cases n with
  | zero => exact if_pos (by omega)
  | succ n =>
    rw [if_neg (by omega)]
    unfold delivered at hlist
    cases htoken : e.tokens e.consumed with
    | none => rfl
    | some event =>
      rw [htoken] at hlist
      cases hlist

theorem Events.Lists.next_cons {e : Events} {event : YamlEvent} {l : List YamlEvent}
    (h : e.Lists (event :: l)) : ∃ e' : Events, e.next = .ok (event, e') ∧ e'.Lists l := by
  obtain ⟨n, hcount, hlist⟩ := h
  unfold Events.next
  cases n with
  | zero => cases hlist
  | succ n =>
    rw [if_neg (by omega)]
    unfold delivered at hlist
    cases htoken : e.tokens e.consumed with
    | none =>
      rw [htoken] at hlist
      cases hlist
    | some event' =>
      rw [htoken] at hlist
      obtain ⟨rfl, rfl⟩ := List.cons.inj hlist
      exact ⟨_, rfl, n, by simp only; omega, rfl⟩

theorem delivered_length {tokens : ℕ → Option YamlEvent} {k n : ℕ} : (delivered tokens k n).length ≤ n := by
  induction n generalizing k with
  | zero => exact Nat.zero_le _
  | succ n ih =>
    unfold delivered
    cases tokens k with
    | none => exact Nat.zero_le _
    | some event => exact Nat.succ_le_succ ih

theorem delivered_list {l : List YamlEvent} {k n : ℕ} :
    delivered (fun i => l[i]?) k n = (l.drop k).take n := by
  induction n generalizing k with
  | zero => rw [List.take_zero]; rfl
  | succ n ih =>
    unfold delivered
    by_cases hk : k < l.length
    · rw [List.getElem?_eq_getElem hk, List.drop_eq_getElem_cons hk, List.take_succ_cons, ← ih]
    · rw [List.getElem?_eq_none (Nat.le_of_not_lt hk), List.drop_eq_nil_of_le (Nat.le_of_not_lt hk)]
      rfl

/-! ### The consumer over a list -/

/-- The loop over the events that it may read; what it has not read is left. -/
def run : List YamlEvent → List Frame → Dictionary → Parsed (List YamlEvent × Dictionary)
  | events, [], d => .ok (events, d)
  | [], _ :: _, _ => reject
  | event :: events, frame :: frames, d =>
    (step event frame frames d).bind fun r => run events r.1 r.2

def enter (role : Role) (frames : List Frame) (d : Dictionary) :
    List YamlEvent → Parsed (List YamlEvent × Dictionary)
  | [] => reject
  | event :: events => (openNode event role frames d).bind fun r => run events r.1 r.2

def expectList (expected : YamlEvent) : List YamlEvent → Parsed (List YamlEvent)
  | [] => reject
  | event :: events => if event = expected then .ok events else reject

def Dictionary.finish (d : Dictionary) (events : List YamlEvent) : Parsed (List YamlEvent × Text) :=
  if !d.seen || d.entries != d.expectedEntries then reject else .ok (events, d.canonical)

def parseList (expectedEntries : ℕ) (events : List YamlEvent) : Parsed (List YamlEvent × Text) :=
  (expectList .streamStart events).bind fun events =>
    (expectList .documentStart events).bind fun events =>
      (enter .root [] (.new expectedEntries) events).bind fun r =>
        (expectList .documentEnd r.1).bind fun events =>
          (expectList .streamEnd events).bind r.2.finish

theorem eq_reject {α : Type} {r : Rejected} : (.error r : Parsed α) = reject := by
  cases r
  rfl

theorem Events.Lists.expect {e : Events} {l : List YamlEvent} (h : e.Lists l) (expected : YamlEvent) :
    e.expect expected = reject ∧ expectList expected l = reject ∨
      ∃ (e' : Events) (l' : List YamlEvent), e.expect expected = .ok e' ∧ expectList expected l = .ok l' ∧
        e'.Lists l' := by
  unfold Events.expect
  cases l with
  | nil =>
    rw [h.next_nil]
    exact Or.inl ⟨rfl, rfl⟩
  | cons event l =>
    obtain ⟨e', hnext, hlists⟩ := h.next_cons
    rw [hnext]
    by_cases hevent : event = expected
    · exact Or.inr ⟨e', l, if_pos hevent, if_pos hevent, hlists⟩
    · exact Or.inl ⟨if_neg hevent, if_neg hevent⟩

theorem Events.Lists.loop {e : Events} {l : List YamlEvent} (h : e.Lists l) {fuel : ℕ}
    (hfuel : l.length < fuel) (frames : List Frame) (d : Dictionary) :
    loop fuel e frames d = some reject ∧ run l frames d = reject ∨
      ∃ (e' : Events) (l' : List YamlEvent) (d' : Dictionary), loop fuel e frames d = some (.ok (e', d')) ∧
        run l frames d = .ok (l', d') ∧ e'.Lists l' := by
  induction fuel generalizing e l frames d with
  | zero => omega
  | succ fuel ih =>
    cases frames with
    | nil =>
      unfold VocabularyYaml.loop run
      exact Or.inr ⟨e, l, d, rfl, rfl, h⟩
    | cons frame frames =>
      cases l with
      | nil =>
        unfold VocabularyYaml.loop run
        rw [h.next_nil]
        exact Or.inl ⟨rfl, rfl⟩
      | cons event l =>
        obtain ⟨e', hnext, hlists⟩ := h.next_cons
        unfold VocabularyYaml.loop run
        rw [hnext]
        cases hstep : step event frame frames d with
        | error r =>
          simp only [hstep]
          exact Or.inl ⟨congrArg some eq_reject, eq_reject⟩
        | ok r =>
          simp only [hstep]
          rw [List.length_cons] at hfuel
          exact ih hlists (by omega) r.1 r.2

theorem expectList_length {expected : YamlEvent} {l l' : List YamlEvent} (h : expectList expected l = .ok l') :
    l'.length ≤ l.length := by
  cases l with
  | nil => cases h
  | cons event l =>
    have hif : (if event = expected then .ok l else reject) = (.ok l' : Parsed (List YamlEvent)) := h
    by_cases hevent : event = expected
    · rw [if_pos hevent] at hif
      obtain rfl := Except.ok.inj hif
      exact Nat.le_succ _
    · rw [if_neg hevent] at hif
      cases hif

theorem Events.Lists.closing {e : Events} {l : List YamlEvent} (h : e.Lists l) (d : Dictionary) :
    closing e d = (((expectList .documentEnd l).bind fun l =>
      (expectList .streamEnd l).bind d.finish).map Prod.snd) := by
  unfold VocabularyYaml.closing
  rcases h.expect .documentEnd with ⟨h₁, h₁'⟩ | ⟨e₁, l₁, h₁, h₁', hlists₁⟩
  · rw [h₁, h₁']
    rfl
  rw [h₁, h₁']
  show (e₁.expect .streamEnd >>= _) = Except.map _ ((expectList .streamEnd l₁).bind _)
  rcases hlists₁.expect .streamEnd with ⟨h₂, h₂'⟩ | ⟨e₂, l₂, h₂, h₂', -⟩
  · rw [h₂, h₂']
    rfl
  rw [h₂, h₂']
  show (if (!d.seen || d.entries != d.expectedEntries) = true then reject else .ok d.canonical) =
    Except.map Prod.snd (d.finish l₂)
  unfold Dictionary.finish
  split <;> rfl

theorem parseTokens_eq {fuel : ℕ} (hfuel : maxEvents < fuel) (tokens : ℕ → Option YamlEvent)
    (expectedEntries : ℕ) :
    parseTokens fuel tokens expectedEntries =
      some ((parseList expectedEntries (delivered tokens 0 maxEvents)).map Prod.snd) := by
  have hlists : Events.Lists ⟨tokens, 0⟩ (delivered tokens 0 maxEvents) := ⟨_, Nat.zero_add _, rfl⟩
  have hlength : (delivered tokens 0 maxEvents).length < fuel := delivered_length.trans_lt hfuel
  generalize delivered tokens 0 maxEvents = l at hlists hlength
  unfold parseTokens opening parseList
  rcases hlists.expect .streamStart with ⟨h₁, h₁'⟩ | ⟨e₁, l₁, h₁, h₁', hlists₁⟩
  · rw [h₁, h₁']
    rfl
  rw [h₁, h₁']
  have hlength₁ := expectList_length h₁'
  simp only [bind, Except.bind]
  rcases hlists₁.expect .documentStart with ⟨h₂, h₂'⟩ | ⟨e₂, l₂, h₂, h₂', hlists₂⟩
  · rw [h₂, h₂']
    rfl
  rw [h₂, h₂']
  have hlength₂ := expectList_length h₂'
  simp only
  cases l₂ with
  | nil =>
    rw [hlists₂.next_nil]
    rfl
  | cons event l₃ =>
    obtain ⟨e₃, hnext, hlists₃⟩ := hlists₂.next_cons
    rw [hnext]
    simp only [enter]
    cases hopen : openNode event .root [] (.new expectedEntries) with
    | error r =>
      rw [eq_reject]
      rfl
    | ok r =>
      obtain ⟨frames, d⟩ := r
      rw [List.length_cons] at hlength₂
      simp only [Except.bind]
      rcases hlists₃.loop (show l₃.length < fuel by omega) frames d with
        ⟨hloop, hrun⟩ | ⟨e₄, l₄, d', hloop, hrun, hlists₄⟩
      · rw [hloop, hrun]
        rfl
      · rw [hloop, hrun]
        exact congrArg some (hlists₄.closing d')

/-! ### The consumer over trees -/

def readKey (keys : List Text) : Node → Parsed Text
  | .scalar key _ 0 none =>
    if byteLength key ≤ maxScalarBytes then if keys.contains key then reject else .ok key else reject
  | _ => reject

def pushNode (d : Dictionary) (item : Node) : Parsed Dictionary := d.push item.first

mutual

/-- What a node does to the dictionary, in a role and under some open collections. -/
def readNode (role : Role) (depth : ℕ) (d : Dictionary) : Node → Parsed Dictionary
  | .alias anchor => (nodeKind (.alias anchor) role d).map Prod.snd
  | .scalar text style anchor tag => (nodeKind (.scalar text style anchor tag) role d).map Prod.snd
  | .sequence anchor tag items =>
    (nodeKind (.sequenceStart anchor tag) role d).bind fun r =>
      if maxDepth ≤ depth then reject
      else if role = .dictionary then items.foldlM pushNode r.2
      else readItems (depth + 1) r.2 items
  | .mapping anchor tag entries =>
    (nodeKind (.mappingStart anchor tag) role d).bind fun r =>
      if maxDepth ≤ depth then reject else readEntries role (depth + 1) [] r.2 entries

def readItems (depth : ℕ) (d : Dictionary) : List Node → Parsed Dictionary
  | [] => .ok d
  | item :: items => (readNode .ignored depth d item).bind fun d => readItems depth d items

def readEntries (role : Role) (depth : ℕ) (keys : List Text) (d : Dictionary) :
    List (Node × Node) → Parsed Dictionary
  | [] => .ok d
  | (key, value) :: entries =>
    (readKey keys key).bind fun text =>
      (readNode (valueRole role text) depth d value).bind fun d =>
        readEntries role depth (text :: keys) d entries

end

section Trees

variable {frames : List Frame} {d : Dictionary} {rest : List YamlEvent} {role : Role}

theorem enter_cons {event : YamlEvent} :
    enter role frames d (event :: rest) =
      (openNode event role frames d).bind fun r => run rest r.1 r.2 := rfl

theorem nodeKind_alias {anchor : ℕ} : nodeKind (.alias anchor) role d =
    if role = .ignored then .ok (none, d) else reject := by
  cases role <;> rfl

theorem nodeKind_scalar {text : Text} {style : ScalarStyle} {anchor : ℕ} {tag : Option Tag} :
    nodeKind (.scalar text style anchor tag) role d =
      if role = .ignored ∧ tag = none ∧ byteLength text ≤ maxScalarBytes then .ok (none, d)
      else reject := by
  cases role <;> cases tag <;> simp [nodeKind]

theorem nodeKind_sequence {anchor : ℕ} {tag : Option Tag} :
    nodeKind (.sequenceStart anchor tag) role d =
      if role = .ignored ∧ tag = none then .ok (some .sequence, d)
      else if role = .dictionary ∧ anchor = 0 ∧ tag = none ∧ d.seen = false then
        .ok (some .sequence, { d with seen := true })
      else reject := by
  cases role <;> cases tag <;> rcases anchor with _ | n <;> cases hseen : d.seen <;> simp [nodeKind, hseen]

theorem nodeKind_mapping {anchor : ℕ} {tag : Option Tag} :
    nodeKind (.mappingStart anchor tag) role d =
      if tag = none ∧ (role = .ignored ∨ anchor = 0 ∧ (role = .root ∨ role = .section')) then
        .ok (some (.mapping [] none), d)
      else reject := by
  cases role <;> cases tag <;> rcases anchor with _ | n <;> simp [nodeKind]

theorem run_nil : run rest [] d = .ok (rest, d) := by
  cases rest <;> rfl

theorem run_cons {event : YamlEvent} {frame : Frame} :
    run (event :: rest) (frame :: frames) d =
      (step event frame frames d).bind fun r => run rest r.1 r.2 := rfl

theorem step_dictionary {event : YamlEvent} (h : event ≠ .sequenceEnd) :
    step event ⟨.dictionary, .sequence⟩ frames d =
      (d.push event).map fun d => (⟨.dictionary, .sequence⟩ :: frames, d) :=
  (if_neg h).trans (if_pos rfl)

theorem step_item {event : YamlEvent} (h : event ≠ .sequenceEnd) :
    step event ⟨.ignored, .sequence⟩ frames d =
      openNode event .ignored (⟨.ignored, .sequence⟩ :: frames) d :=
  (if_neg h).trans (if_neg Role.noConfusion)

theorem openNode_some {event : YamlEvent} {kind : Kind} {d' : Dictionary}
    (h : nodeKind event role d = .ok (some kind, d')) :
    openNode event role frames d =
      if maxDepth ≤ frames.length then reject else .ok (⟨role, kind⟩ :: frames, d') := by
  unfold openNode
  rw [h]
  rfl

theorem step_key {key : Node} {keys : List Text} :
    step key.first ⟨role, .mapping keys none⟩ frames d = (readKey keys key).map fun text =>
      (⟨role, .mapping (text :: keys) (some (valueRole role text))⟩ :: frames, d) := by
  cases key with
  | «alias» => rfl
  | sequence => rfl
  | mapping => rfl
  | scalar text style anchor tag =>
    unfold step readKey Node.first
    rcases anchor with _ | n
    · cases tag with
      | some tag => rfl
      | none =>
        by_cases hshort : byteLength text ≤ maxScalarBytes
        · by_cases hmem : text ∈ keys
          · simp [hshort, hmem, reject, Except.map]
          · simp [hshort, hmem, Except.map]
        · simp [hshort, reject, Except.map]
    · cases tag <;> rfl

theorem readKey_leaf {key : Node} {keys : List Text} {text : Text} (h : readKey keys key = .ok text) :
    key.rest = [] := by
  cases key with
  | «alias» => rfl
  | scalar => rfl
  | sequence => cases h
  | mapping => cases h

theorem run_push {items : List Node} :
    run (itemsEvents items ++ .sequenceEnd :: rest) (⟨.dictionary, .sequence⟩ :: frames) d =
      (items.foldlM pushNode d).bind fun d => run rest frames d := by
  induction items generalizing d with
  | nil => rfl
  | cons item items ih =>
    unfold itemsEvents
    rw [List.foldlM_cons, List.cons_append, run_cons, step_dictionary item.first_ne.1]
    show _ = (d.push item.first >>= fun d => items.foldlM pushNode d).bind _
    cases hpush : d.push item.first with
    | error r => rfl
    | ok d' =>
      have hleaf : item.rest = [] := by
        cases item with
        | «alias» => rfl
        | scalar => rfl
        | sequence => cases hpush
        | mapping => cases hpush
      rw [hleaf]
      exact ih

mutual

theorem enter_events : ∀ (n : Node) (role : Role) (frames : List Frame) (d : Dictionary)
    (rest : List YamlEvent), enter role frames d (n.first :: (n.rest ++ rest)) =
      (readNode role frames.length d n).bind fun d => run rest frames d
  | .alias anchor, role, frames, d, rest => by
    cases role <;> rfl
  | .scalar text style anchor tag, role, frames, d, rest => by
    rw [enter_cons]
    unfold openNode readNode Node.first
    rw [nodeKind_scalar]
    split
    · rfl
    · rfl
  | .sequence anchor tag items, role, frames, d, rest => by
    rw [enter_cons]
    unfold readNode Node.first
    cases hkind : nodeKind (.sequenceStart anchor tag) role d with
    | error r =>
      unfold openNode
      rw [hkind]
      rfl
    | ok r =>
      obtain ⟨kind, d'⟩ := r
      obtain ⟨rfl, hrole⟩ : kind = some .sequence ∧ (role = .ignored ∨ role = .dictionary) := by
        rw [nodeKind_sequence] at hkind
        split at hkind
        · rename_i hignored
          obtain ⟨rfl, -⟩ := Prod.mk.inj (Except.ok.inj hkind)
          exact ⟨rfl, Or.inl hignored.1⟩
        · split at hkind
          · rename_i hdictionary
            obtain ⟨rfl, -⟩ := Prod.mk.inj (Except.ok.inj hkind)
            exact ⟨rfl, Or.inr hdictionary.1⟩
          · cases hkind
      rw [openNode_some hkind]
      simp only [Except.bind]
      by_cases hdepth : maxDepth ≤ frames.length
      · rw [if_pos hdepth, if_pos hdepth]
        rfl
      · rw [if_neg hdepth, if_neg hdepth]
        unfold Node.rest
        rw [List.append_assoc]
        rcases hrole with rfl | rfl
        · rw [if_neg Role.noConfusion]
          exact run_items items frames d' rest
        · rw [if_pos rfl]
          exact run_push
  | .mapping anchor tag entries, role, frames, d, rest => by
    rw [enter_cons]
    unfold readNode Node.first
    cases hkind : nodeKind (.mappingStart anchor tag) role d with
    | error r =>
      unfold openNode
      rw [hkind]
      rfl
    | ok r =>
      obtain ⟨kind, d'⟩ := r
      obtain rfl : kind = some (.mapping [] none) := by
        rw [nodeKind_mapping] at hkind
        split at hkind
        · exact (Prod.mk.inj (Except.ok.inj hkind)).1.symm
        · cases hkind
      rw [openNode_some hkind]
      simp only [Except.bind]
      by_cases hdepth : maxDepth ≤ frames.length
      · rw [if_pos hdepth, if_pos hdepth]
        rfl
      · rw [if_neg hdepth, if_neg hdepth]
        unfold Node.rest
        rw [List.append_assoc]
        exact run_entries entries role [] frames d' rest

theorem run_items : ∀ (items : List Node) (frames : List Frame) (d : Dictionary) (rest : List YamlEvent),
    run (itemsEvents items ++ .sequenceEnd :: rest) (⟨.ignored, .sequence⟩ :: frames) d =
      (readItems (frames.length + 1) d items).bind fun d => run rest frames d
  | [], frames, d, rest => by
    rfl
  | item :: items, frames, d, rest => by
    unfold itemsEvents readItems
    rw [List.cons_append, List.append_assoc, run_cons, step_item item.first_ne.1]
    have hitem := enter_events item .ignored (⟨.ignored, .sequence⟩ :: frames) d
      (itemsEvents items ++ .sequenceEnd :: rest)
    rw [enter_cons] at hitem
    rw [hitem, List.length_cons]
    cases readNode .ignored (frames.length + 1) d item with
    | error r => rfl
    | ok d' => exact run_items items frames d' rest

theorem run_entries : ∀ (entries : List (Node × Node)) (role : Role) (keys : List Text)
    (frames : List Frame) (d : Dictionary) (rest : List YamlEvent),
    run (entriesEvents entries ++ .mappingEnd :: rest) (⟨role, .mapping keys none⟩ :: frames) d =
      (readEntries role (frames.length + 1) keys d entries).bind fun d => run rest frames d
  | [], role, keys, frames, d, rest => by
    rfl
  | (key, value) :: entries, role, keys, frames, d, rest => by
    unfold entriesEvents readEntries
    rw [List.cons_append, List.append_assoc, run_cons, step_key]
    cases hkey : readKey keys key with
    | error r => rfl
    | ok text =>
      have hvalue := enter_events value (valueRole role text)
        (⟨role, .mapping (text :: keys) none⟩ :: frames) d (entriesEvents entries ++ .mappingEnd :: rest)
      rw [readKey_leaf hkey, List.nil_append, List.cons_append, List.append_assoc]
      show enter (valueRole role text) (⟨role, .mapping (text :: keys) none⟩ :: frames) d
        (value.first :: (value.rest ++ (entriesEvents entries ++ .mappingEnd :: rest))) = _
      rw [hvalue, List.length_cons]
      simp only [Except.bind]
      cases readNode (valueRole role text) (frames.length + 1) d value with
      | error r => rfl
      | ok d' => exact run_entries entries role (text :: keys) frames d' rest

end

end Trees

/-! ### Streams -/

section Streams

variable {l l' m : List YamlEvent} {frames : List Frame} {d d' : Dictionary} {role : Role} {text : Text}
  {expectedEntries : ℕ}

theorem run_append (h : run l frames d = .ok (l', d')) : run (l ++ m) frames d = .ok (l' ++ m, d') := by
  induction l generalizing frames d with
  | nil =>
    cases frames with
    | nil =>
      obtain ⟨rfl, rfl⟩ := Prod.mk.inj (Except.ok.inj h)
      exact run_nil
    | cons => cases h
  | cons event l ih =>
    cases frames with
    | nil =>
      obtain ⟨rfl, rfl⟩ := Prod.mk.inj (Except.ok.inj h)
      rfl
    | cons frame frames =>
      rw [run_cons] at h
      rw [List.cons_append, run_cons]
      cases hstep : step event frame frames d with
      | error r =>
        rw [hstep] at h
        cases h
      | ok r =>
        rw [hstep] at h
        exact ih h

theorem enter_append (h : enter role frames d l = .ok (l', d')) :
    enter role frames d (l ++ m) = .ok (l' ++ m, d') := by
  cases l with
  | nil => cases h
  | cons event l =>
    rw [enter_cons] at h
    rw [List.cons_append, enter_cons]
    cases hopen : openNode event role frames d with
    | error r =>
      rw [hopen] at h
      cases h
    | ok r =>
      rw [hopen] at h
      exact run_append h

theorem expectList_append {expected : YamlEvent} (h : expectList expected l = .ok l') :
    expectList expected (l ++ m) = .ok (l' ++ m) := by
  cases l with
  | nil => cases h
  | cons event l =>
    have hif : (if event = expected then .ok l else reject) = (.ok l' : Parsed (List YamlEvent)) := h
    show (if event = expected then .ok (l ++ m) else reject) = (.ok (l' ++ m) : Parsed (List YamlEvent))
    by_cases hevent : event = expected
    · rw [if_pos hevent] at hif ⊢
      obtain rfl := Except.ok.inj hif
      rfl
    · rw [if_neg hevent] at hif
      cases hif

theorem finish_eq_ok : d.finish l = .ok (l', text) ↔
    l' = l ∧ text = d.canonical ∧ d.seen = true ∧ d.entries = d.expectedEntries := by
  unfold Dictionary.finish
  by_cases hdone : d.seen = true ∧ d.entries = d.expectedEntries
  · obtain ⟨hseen, hentries⟩ := hdone
    rw [hseen, hentries, bne_self_eq_false]
    constructor
    · intro h
      obtain ⟨rfl, rfl⟩ := Prod.mk.inj (Except.ok.inj h)
      exact ⟨rfl, rfl, rfl, rfl⟩
    · rintro ⟨rfl, rfl, -, -⟩
      rfl
  · rw [if_pos]
    · refine iff_of_false (fun h => by cases h) fun h => hdone ⟨h.2.2.1, h.2.2.2⟩
    · rw [Bool.or_eq_true, Bool.not_eq_true', bne_iff_ne]
      by_contra hnot
      rw [not_or, Bool.not_eq_false, not_not] at hnot
      exact hdone hnot

theorem parseList_append (h : parseList expectedEntries l = .ok (l', text)) :
    parseList expectedEntries (l ++ m) = .ok (l' ++ m, text) := by
  obtain ⟨l₁, h₁, h⟩ := bind_eq_ok.mp h
  obtain ⟨l₂, h₂, h⟩ := bind_eq_ok.mp h
  obtain ⟨⟨l₃, d⟩, h₃, h⟩ := bind_eq_ok.mp h
  obtain ⟨l₄, h₄, h⟩ := bind_eq_ok.mp h
  obtain ⟨l₅, h₅, h⟩ := bind_eq_ok.mp h
  obtain ⟨rfl, htext, hseen⟩ := finish_eq_ok.mp h
  refine bind_eq_ok.mpr ⟨_, expectList_append h₁, bind_eq_ok.mpr ⟨_, expectList_append h₂, ?_⟩⟩
  refine bind_eq_ok.mpr ⟨_, enter_append h₃, bind_eq_ok.mpr ⟨_, expectList_append h₄, ?_⟩⟩
  exact bind_eq_ok.mpr ⟨_, expectList_append h₅, finish_eq_ok.mpr ⟨rfl, htext, hseen⟩⟩

theorem parseList_stream {roots : List Node} :
    parseList expectedEntries (stream roots) = .ok (l', text) ↔ ∃ root d, roots = [root] ∧ l' = [] ∧
      readNode .root 0 (.new expectedEntries) root = .ok d ∧ text = d.canonical ∧ d.seen = true ∧
        d.entries = d.expectedEntries := by
  cases roots with
  | nil => exact iff_of_false (fun h => by cases h) (by rintro ⟨root, d, hroots, -⟩; cases hroots)
  | cons root roots =>
    have hlist : parseList expectedEntries (stream (root :: roots)) =
        (enter .root [] (.new expectedEntries)
          (root.first :: (root.rest ++ (.documentEnd :: (documents roots ++ [.streamEnd]))))).bind fun r =>
            (expectList .documentEnd r.1).bind fun events =>
              (expectList .streamEnd events).bind r.2.finish := by
      show parseList expectedEntries (.streamStart :: .documentStart ::
        (root.first :: root.rest ++ .documentEnd :: documents roots) ++ [.streamEnd]) = _
      rw [List.cons_append, List.cons_append, List.cons_append, List.cons_append, List.append_assoc,
        List.cons_append]
      rfl
    rw [hlist, enter_events, List.length_nil]
    cases hread : readNode .root 0 (.new expectedEntries) root with
    | error r =>
      refine iff_of_false (fun h => by cases h) ?_
      rintro ⟨root', d, hroots, -, hread', -⟩
      obtain ⟨rfl, -⟩ := List.cons.inj hroots
      rw [hread] at hread'
      cases hread'
    | ok d =>
      simp only [Except.bind, run_nil]
      cases roots with
      | cons root' roots =>
        refine iff_of_false (fun h => by cases h) ?_
        rintro ⟨_, _, hroots, -⟩
        cases hroots
      | nil =>
        show d.finish [] = .ok (l', text) ↔ _
        rw [finish_eq_ok]
        constructor
        · rintro ⟨hrest, htext, hseen, hentries⟩
          exact ⟨root, d, rfl, hrest, hread, htext, hseen, hentries⟩
        · rintro ⟨root', d', hroots, hrest, hread', htext, hseen, hentries⟩
          obtain rfl := List.singleton_inj.mp hroots
          obtain rfl := Except.ok.inj (hread.symm.trans hread')
          exact ⟨hrest, htext, hseen, hentries⟩

theorem parseTokens_stream {fuel : ℕ} (hfuel : maxEvents < fuel) {tokens : ℕ → Option YamlEvent}
    {roots : List Node} (htokens : ∀ k, tokens k = (stream roots)[k]?) :
    parseTokens fuel tokens expectedEntries = some (.ok text) ↔
      ∃ root d, roots = [root] ∧ (stream roots).length ≤ maxEvents ∧
        readNode .root 0 (.new expectedEntries) root = .ok d ∧ text = d.canonical ∧ d.seen = true ∧
          d.entries = d.expectedEntries := by
  obtain rfl : tokens = fun k => (stream roots)[k]? := funext htokens
  rw [parseTokens_eq hfuel, delivered_list, List.drop_zero, Option.some.injEq]
  constructor
  · intro h
    cases hparse : parseList expectedEntries ((stream roots).take maxEvents) with
    | error r =>
      rw [hparse] at h
      cases h
    | ok r =>
      obtain ⟨l', text'⟩ := r
      rw [hparse] at h
      obtain rfl : text' = text := Except.ok.inj h
      have hwhole := parseList_append (m := (stream roots).drop maxEvents) hparse
      rw [List.take_append_drop] at hwhole
      obtain ⟨root, d, hroots, hrest, hread⟩ := parseList_stream.mp hwhole
      have hdrop := (List.append_eq_nil_iff.mp hrest).2
      exact ⟨root, d, hroots, List.drop_eq_nil_iff.mp hdrop, hread⟩
  · rintro ⟨root, d, hroots, hlength, hread⟩
    rw [List.take_of_length_le hlength, parseList_stream.mpr ⟨root, d, hroots, rfl, hread⟩]
    rfl

end Streams

end MadoPilot.Onnx.VocabularyYaml

import Mathlib.Data.List.Nodup
import MadoPilot.Ocr.NormalizationLaw
import MadoPilot.Onnx.VocabularyRun

/-!
# What the consumer of the vocabulary accepts

An accepted document is a tree: two mappings, one in the other, with the sequence of the names in the inner
one, and nothing but what may be dropped beside them.  Reading a tree is compared with that, a level at a
time.

* `Ignorable`, `Holds`, `Accepted` : the accepted documents;
* `read_ignored`, `readNode_holding`, `readNode_dictionary` : what reading a node of a role means;
* `cut_join` : the text of accepted names is taken apart into them;
* `vocabulary_law` : the law of parsing.
-/

namespace MadoPilot.Onnx.VocabularyYaml

open MadoPilot.Capture MadoPilot.Lib MadoPilot.Lib.Yaml MadoPilot.Ocr
open MadoPilot.Input (isControl)

/-! ### The accepted documents -/

def plainText : Node → Option Text
  | .scalar text _ 0 none => some text
  | _ => none

/-- The keys of some entries are distinct short plain scalars, and none of those before. -/
def KeysAfter (before : List Text) (entries : List (Node × Node)) : Prop :=
  ∃ keys : List Text, entries.map (fun e => plainText e.1) = keys.map some ∧ keys.Nodup ∧
    ∀ key ∈ keys, byteLength key ≤ maxScalarBytes ∧ key ∉ before

def Keys (entries : List (Node × Node)) : Prop := KeysAfter [] entries

mutual

def Ignorable : Node → Prop
  | .alias _ => True
  | .scalar text _ _ tag => tag = none ∧ byteLength text ≤ maxScalarBytes
  | .sequence _ tag items => tag = none ∧ IgnorableItems items
  | .mapping _ tag entries => tag = none ∧ Keys entries ∧ IgnorableValues entries

def IgnorableItems : List Node → Prop
  | [] => True
  | item :: items => Ignorable item ∧ IgnorableItems items

def IgnorableValues : List (Node × Node) → Prop
  | [] => True
  | (_, value) :: entries => Ignorable value ∧ IgnorableValues entries

end

/-- The value of a key in a mapping that is neither anchored nor tagged; all else in it is ignorable. -/
def Holds (key : Text) (P : Node → Prop) : Node → Prop
  | .mapping 0 none entries => Keys entries ∧
    (∃ e ∈ entries, plainText e.1 = some key ∧ P e.2) ∧
    ∀ e ∈ entries, plainText e.1 ≠ some key → Ignorable e.2
  | _ => False

/-- A sequence that is neither anchored nor tagged and lists some names. -/
def Lists (names : List Text) : Node → Prop
  | .sequence 0 none items => items.map plainText = names.map some
  | _ => False

def join (names : List Text) : Text := ['\n'].intercalate names

structure Accepted (expectedEntries : ℕ) (root : Node) (names : List Text) : Prop where
  holds : Holds sectionKey (Holds dictionaryKey (Lists names)) root
  depth : root.depth ≤ maxDepth
  count : names.length = expectedEntries
  valid : ∀ name ∈ names, name ≠ [] ∧ byteLength name ≤ maxScalarBytes ∧ ∀ c ∈ name, isControl c = false
  short : byteLength (join names) ≤ maxCanonicalBytes

/-! ### Keys -/

section Keys

variable {key : Node} {before : List Text} {text : Text} {entries : List (Node × Node)} {value : Node}

theorem readKey_eq_ok : readKey before key = .ok text ↔
    plainText key = some text ∧ byteLength text ≤ maxScalarBytes ∧ text ∉ before := by
  have hnot : ∀ {p : Prop}, ¬ ((none : Option Text) = some text ∧ p) := fun h => by cases h.1
  cases key with
  | «alias» => exact iff_of_false (fun h => by cases h) hnot
  | sequence => exact iff_of_false (fun h => by cases h) hnot
  | mapping => exact iff_of_false (fun h => by cases h) hnot
  | scalar found style anchor tag =>
    rcases anchor with _ | n
    · cases tag with
      | some tag => exact iff_of_false (fun h => by cases h) hnot
      | none =>
        show (if byteLength found ≤ maxScalarBytes then
            if before.contains found then reject else .ok found
          else reject) = (.ok text : Parsed Text) ↔ some found = some text ∧ _
        simp only [List.contains_iff_mem]
        by_cases hshort : byteLength found ≤ maxScalarBytes
        · by_cases hmem : found ∈ before
          · rw [if_pos hshort, if_pos hmem]
            refine iff_of_false (fun h => by cases h) ?_
            rintro ⟨hsame, -, hnew⟩
            exact hnew (Option.some.inj hsame ▸ hmem)
          · rw [if_pos hshort, if_neg hmem]
            constructor
            · intro h
              obtain rfl := Except.ok.inj h
              exact ⟨rfl, hshort, hmem⟩
            · rintro ⟨hsame, -⟩
              rw [Option.some.inj hsame]
        · rw [if_neg hshort]
          refine iff_of_false (fun h => by cases h) ?_
          rintro ⟨hsame, hshort', -⟩
          exact hshort (Option.some.inj hsame ▸ hshort')
    · refine iff_of_false (fun h => ?_) (fun h => ?_)
      · cases tag <;> cases h
      · cases tag <;> exact hnot h

theorem plainText_depth (h : plainText key = some text) : key.depth = 0 := by
  cases key with
  | «alias» => rfl
  | scalar => rfl
  | sequence => cases h
  | mapping => cases h

theorem keysAfter_nil : KeysAfter before [] :=
  ⟨[], rfl, List.nodup_nil, fun _ h => by cases h⟩

theorem keysAfter_cons : KeysAfter before ((key, value) :: entries) ↔
    ∃ text, readKey before key = .ok text ∧ KeysAfter (text :: before) entries := by
  constructor
  · rintro ⟨keys, htexts, hnodup, hkeys⟩
    cases keys with
    | nil => cases htexts
    | cons text keys =>
      rw [List.map_cons, List.map_cons] at htexts
      obtain ⟨htext, htexts⟩ := List.cons.inj htexts
      obtain ⟨hnew, hnodup⟩ := List.nodup_cons.mp hnodup
      obtain ⟨⟨hshort, hbefore⟩, hkeys⟩ := List.forall_mem_cons.mp hkeys
      refine ⟨text, readKey_eq_ok.mpr ⟨htext, hshort, hbefore⟩, keys, htexts, hnodup, fun k hk => ?_⟩
      refine ⟨(hkeys k hk).1, fun hmem => ?_⟩
      rcases List.mem_cons.mp hmem with rfl | hmem
      · exact hnew hk
      · exact (hkeys k hk).2 hmem
  · rintro ⟨text, hread, keys, htexts, hnodup, hkeys⟩
    obtain ⟨htext, hshort, hbefore⟩ := readKey_eq_ok.mp hread
    refine ⟨text :: keys, ?_, List.nodup_cons.mpr ⟨fun hk => ?_, hnodup⟩, ?_⟩
    · rw [List.map_cons, List.map_cons, htexts, htext]
    · exact (hkeys text hk).2 List.mem_cons_self
    · refine List.forall_mem_cons.mpr ⟨⟨hshort, hbefore⟩, fun k hk => ⟨(hkeys k hk).1, fun hmem => ?_⟩⟩
      exact (hkeys k hk).2 (List.mem_cons_of_mem _ hmem)

theorem KeysAfter.pairwise (h : KeysAfter before entries) :
    entries.Pairwise fun a b => ∀ text, ¬ (plainText a.1 = some text ∧ plainText b.1 = some text) := by
  obtain ⟨keys, htexts, hnodup, -⟩ := h
  induction entries generalizing keys with
  | nil => exact List.Pairwise.nil
  | cons e entries ih =>
    cases keys with
    | nil => cases htexts
    | cons key keys =>
      rw [List.map_cons, List.map_cons] at htexts
      obtain ⟨hkey, hrest⟩ := List.cons.inj htexts
      obtain ⟨hnew, hnodup⟩ := List.nodup_cons.mp hnodup
      refine List.pairwise_cons.mpr ⟨fun b hb text hboth => ?_, ih keys hrest hnodup⟩
      obtain rfl : text = key := Option.some.inj (hboth.1.symm.trans hkey)
      have hmem : some text ∈ keys.map some := by
        rw [← hrest, ← hboth.2]
        exact List.mem_map_of_mem hb
      obtain ⟨k, hk, hsame⟩ := List.mem_map.mp hmem
      exact hnew (Option.some.inj hsame ▸ hk)

theorem KeysAfter.eq_of_key {e e' : Node × Node} (h : KeysAfter before entries) (he : e ∈ entries)
    (he' : e' ∈ entries) (hkey : plainText e.1 = plainText e'.1) : e = e' := by
  obtain ⟨keys, htexts, hnodup, -⟩ := h
  have htexts_nodup : (entries.map fun e => plainText e.1).Nodup := by
    rw [htexts]
    exact hnodup.map (Option.some_injective _)
  exact List.inj_on_of_nodup_map htexts_nodup he he' hkey

end Keys

/-! ### What is dropped -/

theorem valueRole_ignored {key : Text} : valueRole .ignored key = .ignored := by
  unfold valueRole
  rw [if_neg fun h => Role.noConfusion h.1, if_neg fun h => Role.noConfusion h.1]

mutual

theorem read_ignored : ∀ (n : Node) {depth : ℕ} {d d' : Dictionary}, depth ≤ maxDepth →
    (readNode .ignored depth d n = .ok d' ↔ d' = d ∧ Ignorable n ∧ depth + n.depth ≤ maxDepth)
  | .alias anchor, depth, d, d', hdepth => by
    unfold readNode Ignorable Node.depth
    rw [nodeKind_alias, if_pos rfl]
    constructor
    · intro h
      exact ⟨(Except.ok.inj h).symm, trivial, hdepth⟩
    · rintro ⟨rfl, -⟩
      rfl
  | .scalar text style anchor tag, depth, d, d', hdepth => by
    unfold readNode Ignorable Node.depth
    rw [nodeKind_scalar]
    by_cases hplain : tag = none ∧ byteLength text ≤ maxScalarBytes
    · rw [if_pos ⟨rfl, hplain⟩]
      constructor
      · intro h
        exact ⟨(Except.ok.inj h).symm, hplain, hdepth⟩
      · rintro ⟨rfl, -⟩
        rfl
    · rw [if_neg fun h => hplain h.2]
      exact iff_of_false (fun h => by cases h) fun h => hplain h.2.1
  | .sequence anchor tag items, depth, d, d', hdepth => by
    unfold readNode Ignorable Node.depth
    rw [nodeKind_sequence]
    by_cases htag : tag = none
    · rw [if_pos ⟨rfl, htag⟩]
      simp only [Except.bind, if_neg (show ¬ Role.ignored = .dictionary from Role.noConfusion)]
      by_cases hdeep : maxDepth ≤ depth
      · rw [if_pos hdeep]
        exact iff_of_false (fun h => by cases h) fun h => by omega
      · rw [if_neg hdeep, readItems_ignored items (show depth + 1 ≤ maxDepth by omega)]
        have hsum : depth + 1 + itemsDepth items = depth + (itemsDepth items + 1) := by omega
        rw [hsum]
        exact and_congr_right fun _ => and_congr_left fun _ => (and_iff_right htag).symm
    · rw [if_neg fun h => htag h.2, if_neg fun h => Role.noConfusion h.1]
      exact iff_of_false (fun h => by cases h) fun h => htag h.2.1.1
  | .mapping anchor tag entries, depth, d, d', hdepth => by
    unfold readNode Ignorable Node.depth
    rw [nodeKind_mapping]
    by_cases htag : tag = none
    · rw [if_pos ⟨htag, Or.inl rfl⟩]
      simp only [Except.bind]
      by_cases hdeep : maxDepth ≤ depth
      · rw [if_pos hdeep]
        exact iff_of_false (fun h => by cases h) fun h => by omega
      · rw [if_neg hdeep, readEntries_ignored entries (show depth + 1 ≤ maxDepth by omega)]
        have hsum : depth + 1 + entriesDepth entries = depth + (entriesDepth entries + 1) := by omega
        rw [hsum]
        exact and_congr_right fun _ => by rw [and_iff_right htag, and_assoc]; rfl
    · rw [if_neg fun h => htag h.1]
      exact iff_of_false (fun h => by cases h) fun h => htag h.2.1.1

theorem readItems_ignored : ∀ (items : List Node) {depth : ℕ} {d d' : Dictionary}, depth ≤ maxDepth →
    (readItems depth d items = .ok d' ↔
      d' = d ∧ IgnorableItems items ∧ depth + itemsDepth items ≤ maxDepth)
  | [], depth, d, d', hdepth => by
    unfold readItems IgnorableItems itemsDepth
    constructor
    · intro h
      exact ⟨(Except.ok.inj h).symm, trivial, hdepth⟩
    · rintro ⟨rfl, -⟩
      rfl
  | item :: items, depth, d, d', hdepth => by
    unfold readItems IgnorableItems itemsDepth
    constructor
    · intro h
      obtain ⟨d₁, hitem, hrest⟩ := bind_eq_ok.mp h
      obtain ⟨rfl, hignorable, hle⟩ := (read_ignored item hdepth).mp hitem
      obtain ⟨rfl, hignorable', hle'⟩ := (readItems_ignored items hdepth).mp hrest
      exact ⟨rfl, ⟨hignorable, hignorable'⟩, by omega⟩
    · rintro ⟨rfl, ⟨hignorable, hignorable'⟩, hle⟩
      refine bind_eq_ok.mpr ⟨_, (read_ignored item hdepth).mpr ⟨rfl, hignorable, by omega⟩, ?_⟩
      exact (readItems_ignored items hdepth).mpr ⟨rfl, hignorable', by omega⟩

theorem readEntries_ignored : ∀ (entries : List (Node × Node)) {depth : ℕ} {keys : List Text}
    {d d' : Dictionary}, depth ≤ maxDepth →
    (readEntries .ignored depth keys d entries = .ok d' ↔
      d' = d ∧ KeysAfter keys entries ∧ IgnorableValues entries ∧
        depth + entriesDepth entries ≤ maxDepth)
  | [], depth, keys, d, d', hdepth => by
    unfold readEntries IgnorableValues entriesDepth
    constructor
    · intro h
      exact ⟨(Except.ok.inj h).symm, keysAfter_nil, trivial, hdepth⟩
    · rintro ⟨rfl, -⟩
      rfl
  | (key, value) :: entries, depth, keys, d, d', hdepth => by
    unfold readEntries IgnorableValues entriesDepth
    rw [keysAfter_cons]
    constructor
    · intro h
      obtain ⟨text, hkey, h⟩ := bind_eq_ok.mp h
      obtain ⟨d₁, hvalue, hrest⟩ := bind_eq_ok.mp h
      rw [valueRole_ignored] at hvalue
      obtain ⟨rfl, hignorable, hle⟩ := (read_ignored value hdepth).mp hvalue
      obtain ⟨rfl, hkeys, hignorable', hle'⟩ := (readEntries_ignored entries hdepth).mp hrest
      have hzero := plainText_depth (readKey_eq_ok.mp hkey).1
      exact ⟨rfl, ⟨text, hkey, hkeys⟩, ⟨hignorable, hignorable'⟩, by omega⟩
    · rintro ⟨rfl, ⟨text, hkey, hkeys⟩, ⟨hignorable, hignorable'⟩, hle⟩
      refine bind_eq_ok.mpr ⟨text, hkey, bind_eq_ok.mpr ⟨d', ?_, ?_⟩⟩
      · rw [valueRole_ignored]
        exact (read_ignored value hdepth).mpr ⟨rfl, hignorable, by omega⟩
      · exact (readEntries_ignored entries hdepth).mpr ⟨rfl, hkeys, hignorable', by omega⟩

end

/-! ### What is looked for -/

def entryRole (role : Role) (key : Node) : Role := (plainText key).elim .ignored (valueRole role)

theorem readEntries_eq_ok {role : Role} {depth : ℕ} {keys : List Text} {d d' : Dictionary}
    {entries : List (Node × Node)} : readEntries role depth keys d entries = .ok d' ↔
      KeysAfter keys entries ∧
        entries.foldlM (fun d e => readNode (entryRole role e.1) depth d e.2) d = .ok d' := by
  induction entries generalizing keys d with
  | nil =>
    unfold readEntries
    rw [List.foldlM_nil]
    exact (and_iff_right keysAfter_nil).symm
  | cons e entries ih =>
    obtain ⟨key, value⟩ := e
    unfold readEntries
    rw [keysAfter_cons, List.foldlM_cons]
    constructor
    · intro h
      obtain ⟨text, hkey, h⟩ := bind_eq_ok.mp h
      obtain ⟨d₁, hvalue, hrest⟩ := bind_eq_ok.mp h
      obtain ⟨hkeys, hfold⟩ := ih.mp hrest
      refine ⟨⟨text, hkey, hkeys⟩, bind_eq_ok.mpr ⟨d₁, ?_, hfold⟩⟩
      unfold entryRole
      rw [(readKey_eq_ok.mp hkey).1]
      exact hvalue
    · rintro ⟨⟨text, hkey, hkeys⟩, h⟩
      obtain ⟨d₁, hvalue, hfold⟩ := bind_eq_ok.mp h
      unfold entryRole at hvalue
      rw [(readKey_eq_ok.mp hkey).1] at hvalue
      exact bind_eq_ok.mpr ⟨text, hkey, bind_eq_ok.mpr ⟨d₁, hvalue, ih.mpr ⟨hkeys, hfold⟩⟩⟩

theorem entryRole_eq {role child : Role} {key : Text} {node : Node}
    (hchild : ∀ text, valueRole role text = if text = key then child else .ignored) :
    entryRole role node = if plainText node = some key then child else .ignored := by
  unfold entryRole
  cases plainText node with
  | none => rfl
  | some text =>
    rw [Option.elim_some, hchild]
    by_cases htext : text = key
    · rw [if_pos htext, if_pos (congrArg some htext)]
    · rw [if_neg htext, if_neg fun h => htext (Option.some.inj h)]

theorem readNode_holding {role child : Role} {key : Text} {depth : ℕ} {d d' : Dictionary} {n : Node}
    (hrole : role = .root ∨ role = .section')
    (hchild : ∀ text, valueRole role text = if text = key then child else .ignored)
    (hdepth : depth < maxDepth) : readNode role depth d n = .ok d' ↔ ∃ entries,
      n = .mapping 0 none entries ∧ Keys entries ∧
        (∀ e ∈ entries, plainText e.1 ≠ some key → Ignorable e.2 ∧ depth + 1 + e.2.depth ≤ maxDepth) ∧
        ((∃ e ∈ entries, plainText e.1 = some key ∧ readNode child (depth + 1) d e.2 = .ok d') ∨
          (∀ e ∈ entries, plainText e.1 ≠ some key) ∧ d' = d) := by
  have hnot : role ≠ .ignored ∧ role ≠ .dictionary := by
    rcases hrole with rfl | rfl <;> exact ⟨Role.noConfusion, Role.noConfusion⟩
  cases n with
  | «alias» =>
    unfold readNode
    rw [nodeKind_alias, if_neg hnot.1]
    exact iff_of_false (fun h => by cases h) fun ⟨_, h, _⟩ => by cases h
  | scalar =>
    unfold readNode
    rw [nodeKind_scalar, if_neg fun h => hnot.1 h.1]
    exact iff_of_false (fun h => by cases h) fun ⟨_, h, _⟩ => by cases h
  | sequence =>
    unfold readNode
    rw [nodeKind_sequence, if_neg fun h => hnot.1 h.1, if_neg fun h => hnot.2 h.1]
    exact iff_of_false (fun h => by cases h) fun ⟨_, h, _⟩ => by cases h
  | mapping anchor tag entries =>
    rw [readNode, nodeKind_mapping]
    by_cases hplain : tag = none ∧ anchor = 0
    · obtain ⟨rfl, rfl⟩ := hplain
      rw [if_pos ⟨rfl, Or.inr ⟨rfl, hrole⟩⟩]
      simp only [Except.bind]
      rw [if_neg (Nat.not_le_of_lt hdepth), readEntries_eq_ok]
      have hfold : KeysAfter [] entries → (entries.foldlM (fun d e =>
          readNode (entryRole role e.1) (depth + 1) d e.2) d = .ok d' ↔
          (∀ e ∈ entries, plainText e.1 ≠ some key →
            Ignorable e.2 ∧ depth + 1 + e.2.depth ≤ maxDepth) ∧
          ((∃ e ∈ entries, plainText e.1 = some key ∧
              readNode (entryRole role e.1) (depth + 1) d e.2 = .ok d') ∨
            (∀ e ∈ entries, plainText e.1 ≠ some key) ∧ d' = d)) := by
        intro hkeys
        refine foldlM_special (fun e _ hother b b' => ?_) (hkeys.pairwise.imp fun h => h key)
        rw [entryRole_eq hchild, if_neg hother]
        exact read_ignored e.2 hdepth
      have hspecial : ∀ e : Node × Node, plainText e.1 = some key → entryRole role e.1 = child :=
        fun e he => by rw [entryRole_eq hchild, if_pos he]
      constructor
      · rintro ⟨hkeys, h⟩
        obtain ⟨hall, hend⟩ := (hfold hkeys).mp h
        refine ⟨entries, rfl, hkeys, hall, hend.imp_left ?_⟩
        rintro ⟨e, he, hkey, hread⟩
        rw [hspecial e hkey] at hread
        exact ⟨e, he, hkey, hread⟩
      · rintro ⟨entries', hsame, hkeys, hall, hend⟩
        obtain rfl : entries = entries' := (Node.mapping.inj hsame).2.2
        refine ⟨hkeys, (hfold hkeys).mpr ⟨hall, hend.imp_left ?_⟩⟩
        rintro ⟨e, he, hkey, hread⟩
        refine ⟨e, he, hkey, ?_⟩
        rw [hspecial e hkey]
        exact hread
    · rw [if_neg]
      · refine iff_of_false (fun h => by cases h) ?_
        rintro ⟨entries', hsame, -⟩
        obtain ⟨hanchor, htag, -⟩ := Node.mapping.inj hsame
        exact hplain ⟨htag, hanchor⟩
      · rintro ⟨htag, hignored | ⟨hanchor, -⟩⟩
        · exact hnot.1 hignored
        · exact hplain ⟨htag, hanchor⟩

/-! ### The dictionary -/

section Dictionaries

variable {d d' : Dictionary} {done names : List Text} {name : Text} {item n : Node} {depth : ℕ}

theorem join_concat : join (done ++ [name]) =
    join done ++ (if done.length ≠ 0 then ['\n'] else []) ++ name := by
  unfold join
  induction done with
  | nil => simp
  | cons first done ih =>
    cases done with
    | nil => simp
    | cons second done =>
      rw [List.cons_append, List.cons_append, List.intercalate_cons_cons, List.intercalate_cons_cons,
        ← List.cons_append, ih]
      simp

theorem join_le {more : List Text} : byteLength (join done) ≤ byteLength (join (done ++ more)) := by
  induction more generalizing done with
  | nil => rw [List.append_nil]
  | cons name more ih =>
    have hnext : byteLength (join done) ≤ byteLength (join (done ++ [name])) := by
      rw [join_concat, byteLength_append, byteLength_append]
      omega
    have hrest := @ih (done ++ [name])
    rw [List.append_assoc, List.singleton_append] at hrest
    exact hnext.trans hrest

structure Dictionary.Fits (d : Dictionary) (done : List Text) : Prop where
  canonical : d.canonical = join done
  entries : d.entries = done.length
  count : done.length ≤ d.expectedEntries
  short : byteLength (join done) ≤ maxCanonicalBytes

def Dictionary.filled (d : Dictionary) (names : List Text) : Dictionary :=
  { d with canonical := join names, entries := names.length }

theorem validEntry_iff : validEntry name = true ↔
    name ≠ [] ∧ byteLength name ≤ maxScalarBytes ∧ ∀ c ∈ name, isControl c = false := by
  unfold validEntry
  rw [Bool.and_eq_true, Bool.and_eq_true, Bool.not_eq_true', Bool.not_eq_true', List.isEmpty_eq_false_iff,
    decide_eq_true_eq, List.any_eq_false, and_assoc]
  simp

theorem push_eq_ok {style : ScalarStyle} (h : d.Fits done) :
    d.push (.scalar name style 0 none) = .ok d' ↔ validEntry name = true ∧
      (d.filled (done ++ [name])).Fits (done ++ [name]) ∧ d' = d.filled (done ++ [name]) := by
  obtain ⟨hcanonical, hentries, hcount, hshort⟩ := h
  have hlength : byteLength (join (done ++ [name])) =
      byteLength (join done) + (if done.length ≠ 0 then 1 else 0) + byteLength name := by
    rw [join_concat, byteLength_append, byteLength_append]
    split <;> rfl
  have hcapacity : maxCanonicalBytes + 1 + maxScalarBytes ≤ usizeMax := by decide
  rw [Dictionary.push, hcanonical, hentries]
  dsimp only
  by_cases hvalid : validEntry name = true ∧ done.length < d.expectedEntries
  · obtain ⟨hentry, hroom⟩ := hvalid
    obtain ⟨-, hname, -⟩ := validEntry_iff.mp hentry
    have hne : (done.length == d.expectedEntries) = false := beq_eq_false_iff_ne.mpr (by omega)
    have hseparator : (if done.length ≠ 0 then 1 else 0) ≤ 1 := by split <;> omega
    rw [hentry, hne, Bool.not_true, Bool.or_false, if_neg Bool.false_ne_true]
    rw [checkedAdd_of_le (show byteLength (join done) + _ ≤ usizeMax by omega), Option.bind_some,
      checkedAdd_of_le (show _ + byteLength name ≤ usizeMax by omega), ← hlength]
    dsimp only
    by_cases hfits : byteLength (join (done ++ [name])) ≤ maxCanonicalBytes
    · rw [if_neg (Nat.not_lt_of_le hfits)]
      have hfilled : (d.filled (done ++ [name])).Fits (done ++ [name]) :=
        ⟨rfl, rfl, by rw [List.length_append]; exact hroom, hfits⟩
      have hsame : { d with
          canonical := join done ++
            (if (if done.length ≠ 0 then 1 else 0) ≠ 0 then ['\n'] else []) ++ name
          entries := done.length + 1 } = d.filled (done ++ [name]) := by
        unfold Dictionary.filled
        rw [join_concat, List.length_append]
        split <;> simp_all
      rw [hsame]
      constructor
      · intro h
        exact ⟨rfl, hfilled, (Except.ok.inj h).symm⟩
      · rintro ⟨-, -, rfl⟩
        rfl
    · rw [if_pos (Nat.lt_of_not_le hfits)]
      exact iff_of_false (fun h => by cases h) fun h => hfits h.2.1.short
  · rw [if_pos]
    · refine iff_of_false (fun h => by cases h) fun h => hvalid ⟨h.1, ?_⟩
      have hle := h.2.1.count
      rw [List.length_append] at hle
      exact hle
    · rw [Bool.or_eq_true, Bool.not_eq_true', beq_iff_eq]
      by_contra hnot
      rw [not_or, Bool.not_eq_false] at hnot
      exact hvalid ⟨hnot.1, by omega⟩

theorem pushNode_eq_ok (h : d.Fits done) : pushNode d item = .ok d' ↔ ∃ name,
    plainText item = some name ∧ validEntry name = true ∧ (d.filled (done ++ [name])).Fits (done ++ [name]) ∧
      d' = d.filled (done ++ [name]) := by
  have hnot : ∀ {p : Text → Prop}, ¬ ∃ name, (none : Option Text) = some name ∧ p name :=
    fun ⟨_, h, _⟩ => by cases h
  cases item with
  | «alias» => exact iff_of_false (fun h => by cases h) hnot
  | sequence => exact iff_of_false (fun h => by cases h) hnot
  | mapping => exact iff_of_false (fun h => by cases h) hnot
  | scalar name style anchor tag =>
    rcases anchor with _ | k
    · cases tag with
      | some tag => exact iff_of_false (fun h => by cases h) hnot
      | none =>
        show d.push (.scalar name style 0 none) = .ok d' ↔ _
        rw [push_eq_ok h]
        constructor
        · intro hpush
          exact ⟨name, rfl, hpush⟩
        · rintro ⟨name', hname, hpush⟩
          obtain rfl : name = name' := Option.some.inj hname
          exact hpush
    · refine iff_of_false (fun h => ?_) ?_
      · cases tag <;> cases h
      · cases tag <;> exact hnot

theorem pushNodes_eq_ok {items : List Node} (h : d.Fits done) : items.foldlM pushNode d = .ok d' ↔
    ∃ names, items.map plainText = names.map some ∧ (∀ name ∈ names, validEntry name = true) ∧
      (d.filled (done ++ names)).Fits (done ++ names) ∧ d' = d.filled (done ++ names) := by
  induction items generalizing d done with
  | nil =>
    rw [List.foldlM_nil]
    have hsame : d.filled done = d := by
      unfold Dictionary.filled
      rw [← h.canonical, ← h.entries]
    constructor
    · intro hok
      refine ⟨[], rfl, List.forall_mem_nil _, ?_⟩
      rw [List.append_nil, hsame]
      exact ⟨h, (Except.ok.inj hok).symm⟩
    · rintro ⟨names, hnames, -, -, rfl⟩
      obtain rfl : names = [] := List.map_eq_nil_iff.mp hnames.symm
      rw [List.append_nil, hsame]
      rfl
  | cons item items ih =>
    rw [List.foldlM_cons]
    constructor
    · intro hok
      obtain ⟨d₁, hpush, hrest⟩ := bind_eq_ok.mp hok
      obtain ⟨name, hname, hvalid, hfits, rfl⟩ := (pushNode_eq_ok h).mp hpush
      obtain ⟨names, hnames, hvalids, hfits', rfl⟩ := (ih hfits).mp hrest
      rw [List.append_assoc, List.singleton_append] at hfits' ⊢
      refine ⟨name :: names, ?_, List.forall_mem_cons.mpr ⟨hvalid, hvalids⟩, hfits', rfl⟩
      rw [List.map_cons, List.map_cons, hname, hnames]
    · rintro ⟨names, hnames, hvalids, hfits', rfl⟩
      cases names with
      | nil => cases hnames
      | cons name names =>
        rw [List.map_cons, List.map_cons] at hnames
        obtain ⟨hname, hnames⟩ := List.cons.inj hnames
        obtain ⟨hvalid, hvalids⟩ := List.forall_mem_cons.mp hvalids
        have happend : done ++ name :: names = (done ++ [name]) ++ names := by
          rw [List.append_assoc, List.singleton_append]
        rw [happend] at hfits'
        have hfits : (d.filled (done ++ [name])).Fits (done ++ [name]) := by
          refine ⟨rfl, rfl, ?_, join_le.trans hfits'.short⟩
          have hcount := hfits'.count
          rw [List.length_append] at hcount
          exact (Nat.le_add_right _ _).trans hcount
        refine bind_eq_ok.mpr ⟨_, (pushNode_eq_ok h).mpr ⟨name, hname, hvalid, hfits, rfl⟩, ?_⟩
        exact (ih hfits).mpr ⟨names, hnames, hvalids, hfits', by rw [happend]; rfl⟩

theorem readNode_dictionary (hdepth : depth < maxDepth) (h : d.Fits []) :
    readNode .dictionary depth d n = .ok d' ↔ ∃ names, Lists names n ∧ d.seen = false ∧
      (∀ name ∈ names, validEntry name = true) ∧ (d.filled names).Fits names ∧
        d' = { d.filled names with seen := true } := by
  have hnot : ∀ {p : List Text → Prop}, (∀ names, ¬ Lists names n) → ¬ ∃ names, Lists names n ∧ p names :=
    fun hlists ⟨names, h, _⟩ => hlists names h
  cases n with
  | «alias» => exact iff_of_false (fun h => by cases h) (hnot fun _ h => h)
  | scalar text style anchor tag =>
    rw [readNode, nodeKind_scalar, if_neg fun h => Role.noConfusion h.1]
    exact iff_of_false (fun h => by cases h) (hnot fun _ h => h)
  | mapping anchor tag entries =>
    rw [readNode, nodeKind_mapping, if_neg]
    · exact iff_of_false (fun h => by cases h) (hnot fun _ h => h)
    · rintro ⟨-, h | ⟨-, h | h⟩⟩ <;> cases h
  | sequence anchor tag items =>
    rw [readNode, nodeKind_sequence, if_neg fun h => Role.noConfusion h.1]
    by_cases hplain : anchor = 0 ∧ tag = none ∧ d.seen = false
    · obtain ⟨rfl, rfl, hseen⟩ := hplain
      rw [if_pos ⟨rfl, rfl, rfl, hseen⟩]
      simp only [Except.bind]
      have hopen : Dictionary.Fits { d with seen := true } [] := ⟨h.canonical, h.entries, h.count, h.short⟩
      rw [if_neg (Nat.not_le_of_lt hdepth), if_pos trivial, pushNodes_eq_ok hopen]
      constructor
      · rintro ⟨names, hnames, hvalids, hfits, rfl⟩
        exact ⟨names, hnames, hseen, hvalids, ⟨rfl, rfl, hfits.count, hfits.short⟩, rfl⟩
      · rintro ⟨names, hnames, -, hvalids, hfits, rfl⟩
        exact ⟨names, hnames, hvalids, ⟨rfl, rfl, hfits.count, hfits.short⟩, rfl⟩
    · rw [if_neg fun h => hplain h.2]
      refine iff_of_false (fun h => by cases h) ?_
      rintro ⟨names, hlists, hseen, -⟩
      rcases anchor with _ | k
      · cases tag with
        | none => exact hplain ⟨rfl, rfl, hseen⟩
        | some tag => exact hlists
      · cases tag <;> exact hlists

end Dictionaries

/-! ### The root -/

section Roots

variable {root : Node} {d : Dictionary} {expectedEntries : ℕ} {names : List Text} {text : Text}

theorem valueRole_root (key : Text) : valueRole .root key = if key = sectionKey then .section' else .ignored := by
  unfold valueRole
  by_cases hkey : key = sectionKey
  · rw [if_pos ⟨rfl, hkey⟩, if_pos hkey]
  · rw [if_neg fun h => hkey h.2, if_neg fun h => Role.noConfusion h.1, if_neg hkey]

theorem valueRole_section (key : Text) :
    valueRole .section' key = if key = dictionaryKey then .dictionary else .ignored := by
  unfold valueRole
  rw [if_neg fun h => Role.noConfusion h.1]
  by_cases hkey : key = dictionaryKey
  · rw [if_pos ⟨rfl, hkey⟩, if_pos hkey]
  · rw [if_neg fun h => hkey h.2, if_neg hkey]

theorem Lists.depth_le {n : Node} (h : Lists names n) : n.depth ≤ 1 := by
  cases n with
  | «alias» => cases h
  | scalar => cases h
  | mapping => cases h
  | sequence anchor tag items =>
    have hplain : items.map plainText = names.map some := by
      rcases anchor with _ | k
      · cases tag with
        | none => exact h
        | some tag => cases h
      · cases tag <;> cases h
    have hitems : itemsDepth items ≤ 0 := by
      refine itemsDepth_le.mpr fun item hitem => ?_
      have hmem : plainText item ∈ names.map some := by
        rw [← hplain]
        exact List.mem_map_of_mem hitem
      obtain ⟨name, -, hname⟩ := List.mem_map.mp hmem
      exact (plainText_depth hname.symm).le
    unfold Node.depth
    omega

theorem holds_iff {key : Text} {P : Node → Prop} {n : Node} : Holds key P n ↔ ∃ entries,
    n = .mapping 0 none entries ∧ Keys entries ∧ (∃ e ∈ entries, plainText e.1 = some key ∧ P e.2) ∧
      ∀ e ∈ entries, plainText e.1 ≠ some key → Ignorable e.2 := by
  have hnot : (∀ entries, n ≠ .mapping 0 none entries) → ¬ ∃ entries, n = .mapping 0 none entries ∧
      Keys entries ∧ (∃ e ∈ entries, plainText e.1 = some key ∧ P e.2) ∧
        ∀ e ∈ entries, plainText e.1 ≠ some key → Ignorable e.2 :=
    fun hne ⟨entries, h, _⟩ => hne entries h
  cases n with
  | «alias» => exact iff_of_false (fun h => h) (hnot fun _ h => by cases h)
  | scalar => exact iff_of_false (fun h => h) (hnot fun _ h => by cases h)
  | sequence => exact iff_of_false (fun h => h) (hnot fun _ h => by cases h)
  | mapping anchor tag entries =>
    rcases anchor with _ | k
    · cases tag with
      | some tag => exact iff_of_false (fun h => h) (hnot fun _ h => by cases h)
      | none =>
        constructor
        · intro h
          exact ⟨entries, rfl, h⟩
        · rintro ⟨entries', hsame, h⟩
          obtain rfl := (Node.mapping.inj hsame).2.2
          exact h
    · refine iff_of_false (fun h => ?_) (hnot fun _ h => by cases h)
      cases tag <;> exact h

theorem mapping_depth_le {entries : List (Node × Node)} {key : Text} {e : Node × Node} {m : ℕ}
    (hkeys : Keys entries) (he : e ∈ entries) (hkey : plainText e.1 = some key) :
    (Node.mapping 0 none entries).depth ≤ m + 1 ↔
      e.2.depth ≤ m ∧ ∀ e' ∈ entries, plainText e'.1 ≠ some key → e'.2.depth ≤ m := by
  rw [Node.depth, Nat.add_le_add_iff_right, entriesDepth_le]
  constructor
  · intro h
    exact ⟨(h e he).2, fun e' he' _ => (h e' he').2⟩
  · rintro ⟨hspecial, hothers⟩ e' he'
    refine ⟨?_, ?_⟩
    · obtain ⟨keys, htexts, -⟩ := hkeys
      have hmem : plainText e'.1 ∈ keys.map some := by
        rw [← htexts]
        exact List.mem_map_of_mem he'
      obtain ⟨k, -, hk⟩ := List.mem_map.mp hmem
      rw [plainText_depth hk.symm]
      exact Nat.zero_le m
    · by_cases hkey' : plainText e'.1 = some key
      · exact hkeys.eq_of_key he he' (hkey.trans hkey'.symm) ▸ hspecial
      · exact hothers e' he' hkey'

theorem readNode_root : (∃ d, readNode .root 0 (.new expectedEntries) root = .ok d ∧
      text = d.canonical ∧ d.seen = true ∧ d.entries = d.expectedEntries) ↔
    ∃ names, Accepted expectedEntries root names ∧ text = join names := by
  have hempty : (Dictionary.new expectedEntries).Fits [] := ⟨rfl, rfl, Nat.zero_le _, Nat.zero_le _⟩
  constructor
  · rintro ⟨d, hread, rfl, hseen, hcount⟩
    obtain ⟨entries, rfl, hkeys, hothers, ⟨e, he, hkey, hsection⟩ | ⟨-, rfl⟩⟩ :=
      (readNode_holding (Or.inl rfl) valueRole_root (by decide)).mp hread
    · obtain ⟨entries', hmapping, hkeys', hothers', ⟨e', he', hkey', hdictionary⟩ | ⟨-, rfl⟩⟩ :=
        (readNode_holding (Or.inr rfl) valueRole_section (by decide)).mp hsection
      · obtain ⟨names, hlists, -, hvalids, hfits, rfl⟩ :=
          (readNode_dictionary (by decide) hempty).mp hdictionary
        have hinner : e.2.depth ≤ 31 := by
          rw [hmapping, mapping_depth_le (m := 30) hkeys' he' hkey']
          refine ⟨hlists.depth_le.trans (by decide), fun e₂ he₂ hother => ?_⟩
          have hle := (hothers' e₂ he₂ hother).2
          unfold maxDepth at hle
          omega
        refine ⟨names, ⟨?_, ?_, hcount, fun name hname => validEntry_iff.mp (hvalids name hname),
          hfits.short⟩, rfl⟩
        · refine holds_iff.mpr ⟨entries, rfl, hkeys, ⟨e, he, hkey, ?_⟩,
            fun e₂ he₂ hother => (hothers e₂ he₂ hother).1⟩
          exact holds_iff.mpr ⟨entries', hmapping, hkeys', ⟨e', he', hkey', hlists⟩,
            fun e₂ he₂ hother => (hothers' e₂ he₂ hother).1⟩
        · refine (mapping_depth_le (m := 31) hkeys he hkey).mpr ⟨hinner, fun e₂ he₂ hother => ?_⟩
          have hle := (hothers e₂ he₂ hother).2
          unfold maxDepth at hle
          omega
      · cases hseen
    · cases hseen
  · rintro ⟨names, ⟨hholds, hdepth, hcount, hvalid, hshort⟩, rfl⟩
    obtain ⟨entries, rfl, hkeys, ⟨e, he, hkey, hsection⟩, hothers⟩ := holds_iff.mp hholds
    obtain ⟨entries', hmapping, hkeys', ⟨e', he', hkey', hlists⟩, hothers'⟩ := holds_iff.mp hsection
    obtain ⟨hinner, hdepths⟩ := (mapping_depth_le (m := 31) hkeys he hkey).mp hdepth
    rw [hmapping] at hinner
    obtain ⟨-, hdepths'⟩ := (mapping_depth_le (m := 30) hkeys' he' hkey').mp hinner
    have hfits : ((Dictionary.new expectedEntries).filled names).Fits names :=
      ⟨rfl, rfl, hcount.le, hshort⟩
    have hdictionary := (readNode_dictionary (n := e'.2) (show 2 < maxDepth by decide) hempty).mpr
      ⟨names, hlists, rfl, fun name hname => validEntry_iff.mpr (hvalid name hname), hfits, rfl⟩
    refine ⟨{ (Dictionary.new expectedEntries).filled names with seen := true },
      (readNode_holding (Or.inl rfl) valueRole_root (by decide)).mpr ⟨entries, rfl, hkeys,
      fun e₂ he₂ hother => ⟨hothers e₂ he₂ hother, ?_⟩, Or.inl ⟨e, he, hkey, ?_⟩⟩, rfl, rfl, hcount⟩
    · have hle := hdepths e₂ he₂ hother
      unfold maxDepth
      omega
    · refine (readNode_holding (Or.inr rfl) valueRole_section (by decide)).mpr ⟨entries', hmapping, hkeys',
        fun e₂ he₂ hother => ⟨hothers' e₂ he₂ hother, ?_⟩, Or.inl ⟨e', he', hkey', hdictionary⟩⟩
      have hle := hdepths' e₂ he₂ hother
      unfold maxDepth
      omega

end Roots

/-! ### The text taken apart -/

section Cuts

variable {name line : Text} {names : List Text}

theorem cutFrom_append {text : Text} (h : '\n' ∉ name) :
    cutFrom line (name ++ text) = cutFrom (line ++ name) text := by
  induction name generalizing line with
  | nil => rw [List.nil_append, List.append_nil]
  | cons c name ih =>
    obtain ⟨hc, hname⟩ := not_or.mp (mt List.mem_cons.mpr h)
    rw [List.cons_append, cutFrom, if_neg (Ne.symm hc), ih hname, List.append_assoc, List.singleton_append]

theorem break_notMem (h : ∀ c ∈ name, isControl c = false) : '\n' ∉ name ∧ '\r' ∉ name :=
  ⟨fun hmem => absurd (h _ hmem) (by decide), fun hmem => absurd (h _ hmem) (by decide)⟩

theorem trimReturn_eq (h : '\r' ∉ name) : trimReturn name = name := by
  unfold trimReturn
  rw [if_neg]
  intro hlast
  exact h (List.mem_of_getLast? hlast)

theorem cut_join (h : ∀ name ∈ names, name ≠ [] ∧ ∀ c ∈ name, isControl c = false) :
    cut (join names) = names := by
  unfold cut join
  induction names with
  | nil => rfl
  | cons name names ih =>
    obtain ⟨⟨hne, hcontrols⟩, hrest⟩ := List.forall_mem_cons.mp h
    obtain ⟨hfeed, hreturn⟩ := break_notMem hcontrols
    cases names with
    | nil =>
      have hend : cutFrom [] (name ++ []) = cutFrom ([] ++ name) [] := cutFrom_append hfeed
      rw [List.append_nil, List.nil_append] at hend
      rw [List.intercalate_singleton, hend, cutFrom, if_neg hne, trimReturn_eq hreturn]
    | cons second names =>
      rw [List.intercalate_cons_cons, List.append_assoc, cutFrom_append hfeed, List.singleton_append,
        cutFrom, if_pos rfl, List.nil_append, trimReturn_eq hreturn, ih hrest]

end Cuts

/-! ### The law -/

/-- The parser delivers these documents for a source that it is asked about. -/
structure Delivers (parser : String → ℕ → Option YamlEvent) (source : ByteArray) (roots : List Node) : Prop where
  size : source.size ≤ maxSourceBytes
  events : ∃ text, String.fromUTF8? source = some text ∧ ∀ k, parser text k = (stream roots)[k]?

structure VocabularyLaw (parser : String → ℕ → Option YamlEvent) (source : ByteArray) (expectedEntries : ℕ) :
    Prop where
  /-- Parsing ends, whatever the parser delivers. -/
  ends : ∃ result, ∀ fuel, maxEvents < fuel → parse fuel parser source expectedEntries = some result
  /-- Parsing accepts exactly one document, of bounded events, and gives its names. -/
  accepts : ∀ roots, Delivers parser source roots → ∀ fuel, maxEvents < fuel → ∀ text,
    parse fuel parser source expectedEntries = some (.ok text) ↔
      ∃ root names, roots = [root] ∧ (stream roots).length ≤ maxEvents ∧
        Accepted expectedEntries root names ∧ text = join names
  /-- The text of accepted names is taken apart into them. -/
  splits : ∀ root names, Accepted expectedEntries root names →
    cut (join names) = names ∧ (names ≠ [] → (join names).splitOn '\n' = names)

/-- **The vocabulary of an inference file.**  Parsing ends on every stream; on a well-nested one it
succeeds exactly for one accepted document, with the names of its dictionary joined by line feeds. -/
theorem vocabulary_law (parser : String → ℕ → Option YamlEvent) (source : ByteArray) (expectedEntries : ℕ) :
    VocabularyLaw parser source expectedEntries := by
  refine ⟨?_, fun roots hdelivers fuel hfuel text => ?_, fun root names haccepted => ⟨?_, fun hne => ?_⟩⟩
  · by_cases hsize : maxSourceBytes < source.size
    · exact ⟨reject, fun fuel _ => if_pos hsize⟩
    · cases htext : String.fromUTF8? source with
      | none =>
        refine ⟨reject, fun fuel _ => ?_⟩
        unfold parse
        rw [if_neg hsize, htext]
      | some text =>
        refine ⟨(parseList expectedEntries (delivered (parser text) 0 maxEvents)).map Prod.snd,
          fun fuel hfuel => ?_⟩
        unfold parse
        rw [if_neg hsize, htext]
        exact parseTokens_eq hfuel _ _
  · obtain ⟨hsize, s, hs, htokens⟩ := hdelivers
    have hparse : parse fuel parser source expectedEntries = parseTokens fuel (parser s) expectedEntries := by
      unfold parse
      rw [if_neg (Nat.not_lt_of_le hsize), hs]
    rw [hparse, parseTokens_stream hfuel htokens]
    constructor
    · rintro ⟨root, d, hroots, hlength, hread⟩
      obtain ⟨names, haccepted, htext⟩ := readNode_root.mp ⟨d, hread⟩
      exact ⟨root, names, hroots, hlength, haccepted, htext⟩
    · rintro ⟨root, names, hroots, hlength, haccepted, htext⟩
      obtain ⟨d, hread⟩ := readNode_root.mpr ⟨names, haccepted, htext⟩
      exact ⟨root, d, hroots, hlength, hread⟩
  · exact cut_join fun name hname => ⟨(haccepted.valid name hname).1, (haccepted.valid name hname).2.2⟩
  · exact List.splitOn_intercalate '\n' (fun name hname =>
      (break_notMem (haccepted.valid name hname).2.2).1) hne

/-! ### A file with one name -/

def oneName : Node :=
  .mapping 0 none [(.scalar sectionKey .plain 0 none,
    .mapping 0 none [(.scalar dictionaryKey .plain 0 none,
      .sequence 0 none [.scalar ['a'] .plain 0 none])])]

def oneNameFile : String := "PostProcess: {character_dict: [a]}"

theorem oneName_accepted : Accepted 1 oneName [['a']] := by
  have hkeys : ∀ key value, byteLength key ≤ maxScalarBytes →
      Keys [(Node.scalar key .plain 0 none, value)] := by
    intro key value hshort
    refine ⟨[key], rfl, List.nodup_singleton _, fun k hk => ?_⟩
    rw [List.mem_singleton.mp hk]
    exact ⟨hshort, List.not_mem_nil⟩
  have hothers : ∀ key value, ∀ e ∈ [(Node.scalar key .plain 0 none, value)],
      plainText e.1 ≠ some key → Ignorable e.2 := by
    intro key value e he hother
    rw [List.mem_singleton.mp he] at hother
    exact absurd rfl hother
  have hinner : Holds dictionaryKey (Lists [['a']]) (.mapping 0 none
      [(.scalar dictionaryKey .plain 0 none, .sequence 0 none [.scalar ['a'] .plain 0 none])]) :=
    ⟨hkeys _ _ (by decide), ⟨_, List.mem_singleton_self _, rfl, rfl⟩, hothers _ _⟩
  refine ⟨⟨hkeys _ _ (by decide), ⟨_, List.mem_singleton_self _, rfl, hinner⟩, hothers _ _⟩, by decide, rfl,
    fun name hname => ?_, by decide⟩
  rw [List.mem_singleton.mp hname]
  refine ⟨List.cons_ne_nil _ _, by decide, fun c hc => ?_⟩
  rw [List.mem_singleton.mp hc]
  rfl

theorem oneName_delivered (parser : String → ℕ → Option YamlEvent)
    (h : ∀ k, parser oneNameFile k = (stream [oneName])[k]?) :
    Delivers parser oneNameFile.toUTF8 [oneName] := by
  refine ⟨by decide, oneNameFile, ?_, h⟩
  exact dif_pos oneNameFile.isValidUTF8

/-- The file is parsed to its name. -/
theorem vocabulary_law_sample :
    parse (maxEvents + 1) (fun _ k => (stream [oneName])[k]?) oneNameFile.toUTF8 1 =
      some (.ok ['a']) :=
  ((vocabulary_law _ _ 1).accepts [oneName] (oneName_delivered _ fun _ => rfl) _ (Nat.lt_succ_self _) _).mpr
    ⟨oneName, [['a']], rfl, by decide, oneName_accepted, rfl⟩

end MadoPilot.Onnx.VocabularyYaml

import Mathlib.Data.List.Basic
import Mathlib.Tactic.Common

/-!
# How the structures of the C interface are laid out

The layout report holds what the compiler measured every structure as.  The tables of a structure, the
sizes a caller's declaration may end at above all, are held to that report while the structure is
compiled.

* `CLayout.apart` : of two fields, one ends before the other begins, or does not begin after it;
* `CLayout.whole` : a field boundary cuts no field;
* `checkPrefixTable_prefixes` : the prefixes of a structure that passes are its field boundaries.
-/

namespace MadoPilot.Capi

/-! ### Layouts -/

structure FieldLayout where
  name : String
  offset : ℕ
  /-- The size of the field's type, which the report leaves out. -/
  size : ℕ
  deriving DecidableEq

def FieldLayout.of (f : FieldLayout) (value : List UInt8) : List UInt8 :=
  (value.drop f.offset).take f.size

structure TypeLayout where
  name : String
  size : ℕ
  align : ℕ
  fields : List FieldLayout
  deriving DecidableEq

/-- Every size at which no field is cut. -/
def TypeLayout.boundaries (l : TypeLayout) : List ℕ := l.fields.map (·.offset) ++ [l.size]

/-- What a C compiler can lay a size-versioned structure out as: field after field, from the four
bytes of `struct_size` on. -/
structure CLayout extends TypeLayout where
  ordered : fields.Pairwise fun f g => f.offset + f.size ≤ g.offset
  within : ∀ f ∈ fields, f.offset + f.size ≤ size
  first : ∃ f rest, fields = f :: rest ∧ f.offset = 0 ∧ f.size = 4

namespace CLayout

variable {l : CLayout}

theorem apart {f g : FieldLayout} (hf : f ∈ l.fields) (hg : g ∈ l.fields) :
    f.offset + f.size ≤ g.offset ∨ g.offset ≤ f.offset := by
  refine List.Pairwise.forall_of_forall_of_flip
    (R := fun f g : FieldLayout => f.offset + f.size ≤ g.offset ∨ g.offset ≤ f.offset)
    (fun _ _ => Or.inr (Nat.le_refl _)) ?_ ?_ hf hg
  · exact l.ordered.imp fun h => Or.inl h
  · refine l.ordered.imp fun {f g} h => Or.inr ?_
    omega

theorem whole {n : ℕ} (hn : n ∈ l.boundaries ∨ l.size ≤ n) {f : FieldLayout} (hf : f ∈ l.fields) :
    f.offset + f.size ≤ n ∨ n ≤ f.offset := by
  have hwithin := l.within f hf
  rcases hn with hn | hn
  · unfold TypeLayout.boundaries at hn
    rw [List.mem_append, List.mem_map, List.mem_singleton] at hn
    rcases hn with ⟨g, hg, rfl⟩ | rfl
    · exact apart hf hg
    · exact Or.inl hwithin
  · omega

theorem four_le {n : ℕ} (hn : n ∈ l.boundaries ∨ l.size ≤ n) (hzero : n ≠ 0) : 4 ≤ n := by
  obtain ⟨f, rest, hfields, hoffset, hsize⟩ := l.first
  have hf : f ∈ l.fields := by
    rw [hfields]
    exact List.mem_cons_self
  have hwhole := whole hn hf
  omega

theorem four_le_size : 4 ≤ l.size := by
  obtain ⟨f, rest, hfields, hoffset, hsize⟩ := l.first
  have hwithin := l.within f (by rw [hfields]; exact List.mem_cons_self)
  omega

end CLayout

/-! ### Tables -/

/-- `measured`: what the report has under a name; there the compiler stops where it has nothing. -/
def measured (report : List TypeLayout) (name : String) : Option TypeLayout :=
  report.find? (·.name == name)

def lists (list : List ℕ) (value : ℕ) : Bool := list.contains value

def checkPrefixTable (report : List TypeLayout) (name : String) (prefixes : List ℕ)
    (mandatory : ℕ) : Bool :=
  (measured report name).any fun layout =>
    prefixes.length == layout.fields.length + 1 &&
    (List.range layout.fields.length).all (fun i =>
      prefixes[i]? == layout.fields[i]?.map (·.offset)) &&
    prefixes[layout.fields.length]? == some layout.size &&
    lists prefixes mandatory

theorem ends_inside {l : TypeLayout} {prefixes : List ℕ} (h : prefixes = l.boundaries) {n : ℕ} :
    (n < l.size ∧ lists prefixes n = false) ↔ ¬(n ∈ l.boundaries ∨ l.size ≤ n) := by
  unfold lists
  rw [h, not_or, Nat.not_le, and_comm]
  refine and_congr_left fun _ => ?_
  rw [← List.contains_iff_mem, Bool.not_eq_true]

theorem checkPrefixTable_prefixes {report : List TypeLayout} {name : String} {prefixes : List ℕ}
    {mandatory : ℕ} (h : checkPrefixTable report name prefixes mandatory = true) :
    ∃ layout, measured report name = some layout ∧ prefixes = layout.boundaries ∧
      mandatory ∈ layout.boundaries := by
  unfold checkPrefixTable at h
  obtain ⟨layout, hmeasured, h⟩ := (Option.any_eq_true _ _).mp h
  simp only [Bool.and_eq_true, beq_iff_eq, List.all_eq_true, List.mem_range] at h
  obtain ⟨⟨⟨hlength, hfields⟩, hlast⟩, hmandatory⟩ := h
  have hprefixes : prefixes = layout.boundaries := by
    unfold TypeLayout.boundaries
    refine List.ext_getElem? fun i => ?_
    rcases Nat.lt_trichotomy i layout.fields.length with hi | rfl | hi
    · rw [hfields i hi, List.getElem?_append_left (by rwa [List.length_map]), List.getElem?_map]
    · have hle : (layout.fields.map (·.offset)).length ≤ layout.fields.length :=
        Nat.le_of_eq (List.length_map _)
      rw [hlast, List.getElem?_append_right hle, List.length_map, Nat.sub_self]
      rfl
    · rw [List.getElem?_eq_none (by omega), List.getElem?_eq_none]
      rw [List.length_append, List.length_map, List.length_singleton]
      omega
  refine ⟨layout, hmeasured, hprefixes, ?_⟩
  unfold lists at hmandatory
  rw [← hprefixes]
  exact List.contains_iff_mem.mp hmandatory

end MadoPilot.Capi

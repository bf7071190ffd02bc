import Mathlib.Data.List.Destutter
import Mathlib.Data.List.DropRight
import Mathlib.Data.List.ReduceOption

/-!
# Streaks

A log of attempts has an entry `some a` for each hit and an entry `none` for each miss.  Its
*streak* is the run of hits at its end.

* `streak_hit`, `streak_miss` : what one more entry does to the streak;
* `streak_toList` : the same for a step that may add none;
* `mem_of_streak` : the streak is hits of the log.
-/

namespace MadoPilot.Lib

variable {α : Type*}

def streak (log : List (Option α)) : List α := (log.rtakeWhile Option.isSome).reduceOption

@[simp] theorem streak_hit (log : List (Option α)) (a : α) :
    streak (log ++ [some a]) = streak log ++ [a] := by
  unfold streak
  rw [List.rtakeWhile_concat_pos _ _ _ rfl, List.reduceOption_append]
  rfl

@[simp] theorem streak_miss (log : List (Option α)) : streak (log ++ [none]) = [] := by
  unfold streak
  rw [List.rtakeWhile_concat_neg _ _ _ (by simp)]
  rfl

theorem mem_of_streak {log : List (Option α)} {a : α} (h : a ∈ streak log) : some a ∈ log :=
  (List.rtakeWhile_suffix _ _).mem (List.reduceOption_mem_iff.mp h)

def extendStreak (run : List α) : Option (Option α) → List α
  | none => run
  | some none => []
  | some (some a) => run ++ [a]

theorem streak_toList (log : List (Option α)) (entry : Option (Option α)) :
    streak (log ++ entry.toList) = extendStreak (streak log) entry := by
  rcases entry with _ | _ | a
  · simp [extendStreak]
  · exact streak_miss log
  · exact streak_hit log a

end MadoPilot.Lib

/-! ### Adjacent repeats

A list is collapsed by a key: of adjacent elements with one key the first stays.

* `collapse_concat` : what one more element adds to the collapsed list;
* `map_collapse` : the keys of the collapsed list are the collapsed keys.
-/

namespace MadoPilot.Lib

variable {α β : Type*} [DecidableEq β] (f : α → β)

def collapse (l : List α) : List α := l.destutter fun a b => f a ≠ f b

theorem collapse_sublist (l : List α) : (collapse f l).Sublist l := List.destutter_sublist _ l

variable {f}

private theorem destutter_concat (l : List α) (a b : α) :
    (l ++ [a]).destutter' (fun x y => f x ≠ f y) b =
      l.destutter' (fun x y => f x ≠ f y) b ++
        if (l.getLast?.map f).getD (f b) = f a then [] else [a] := by
  induction l generalizing b with
  | nil =>
    by_cases h : f b = f a
    · simp [h]
    · simp [h]
  | cons c l ih =>
    have hlast : ((c :: l).getLast?.map f).getD (f b) = (l.getLast?.map f).getD (f c) := by
      cases l with
      | nil => rfl
      | cons d l => rw [List.getLast?_cons, List.getLast?_cons]; rfl
    rw [hlast]
    by_cases h : f b = f c
    · rw [List.cons_append, List.destutter'_cons_neg _ (not_not.mpr h),
        List.destutter'_cons_neg _ (not_not.mpr h), ih b, h]
    · rw [List.cons_append, List.destutter'_cons_pos _ h, List.destutter'_cons_pos _ h, ih c]
      rfl

theorem collapse_concat (l : List α) (a : α) :
    collapse f (l ++ [a]) = collapse f l ++ if l.getLast?.map f = some (f a) then [] else [a] := by
  unfold collapse
  cases l with
  | nil => rfl
  | cons b l =>
    have hlast : (b :: l).getLast?.map f = some ((l.getLast?.map f).getD (f b)) := by
      cases l with
      | nil => rfl
      | cons c l => rw [List.getLast?_cons, List.getLast?_cons]; rfl
    rw [List.cons_append, List.destutter_cons', List.destutter_cons', destutter_concat, hlast]
    simp only [Option.some_inj]

theorem map_collapse (l : List α) : (collapse f l).map f = collapse id (l.map f) :=
  List.map_destutter fun _ _ _ _ => Iff.rfl

end MadoPilot.Lib

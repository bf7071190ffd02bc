import MadoPilot.Core.Geometry
import MadoPilot.Lib.Binary64
import MadoPilot.Lib.Greedy
import Mathlib.Data.String.Basic

/-!
# Matches

What a backend finds is a list of candidates, in any order and with any scores.  The matcher checks
each candidate, drops those under the minimum score, sorts the rest, drops what overlaps a match
before it where it was asked to, and cuts the list at the limit.

* `Match.canonicalOrder` : the public order of matches;
* `normalize` : from the candidates to the public matches.
-/

namespace MadoPilot.Vision

open MadoPilot.Core MadoPilot.Lib

/-- `checked_add` of two `i32`. -/
def checkedAddInt32 (a b : Int32) : Option Int32 :=
  if Int32.minValue.toInt ≤ a.toInt + b.toInt ∧ a.toInt + b.toInt ≤ Int32.maxValue.toInt then
    some (a + b)
  else none

inductive VisionFault where
  | backendScoreOutOfRange | backendCandidateOutsideRegion
  deriving DecidableEq

/-- One place that a backend reports, from the origin of the searched region. -/
structure Candidate where
  left : Int32
  top : Int32
  score : Binary64
  deriving DecidableEq

structure PreparedTemplate where
  id : String
  extent : PixelExtent

structure Match where
  template : String
  bounds : PixelRect
  score : Binary64
  deriving DecidableEq

inductive Suppression where
  | dropOverlapping | keepAll
  deriving DecidableEq

/-- A score that may be reported, or asked for: finite, and inside `0.0..=1.0`. -/
def validScore (score : Binary64) : Bool :=
  score.isFinite && (Binary64.zero.le score && score.le .one)

structure MatchOptions where
  minScore : Binary64
  maxResults : UInt32
  suppression : Suppression
  minScore_valid : validScore minScore = true
  maxResults_pos : 0 < maxResults.toNat

def candidateBounds (region : PixelRect) (candidate : Candidate) (extent : PixelExtent) :
    Option PixelRect := do
  let left ← checkedAddInt32 region.left candidate.left
  let top ← checkedAddInt32 region.top candidate.top
  let right ← checkedAddInt32 left (← (i32From extent.width).toOption)
  let bottom ← checkedAddInt32 top (← (i32From extent.height).toOption)
  let bounds ← (PixelRect.new left top right bottom).toOption
  if region.containsRect bounds then some bounds else none

namespace Match

/-- Descending score, then ascending top, left, bottom and right edges, then the template. -/
def canonicalOrder (a b : Match) : Ordering :=
  (b.score.totalCmp a.score).then <| (compare a.bounds.top b.bounds.top).then <|
    (compare a.bounds.left b.bounds.left).then <| (compare a.bounds.bottom b.bounds.bottom).then <|
    (compare a.bounds.right b.bounds.right).then <| compare a.template b.template

def overlaps (survivor found : Match) : Bool :=
  match survivor.bounds.intersect found.bounds with
  | some shared => !shared.isEmpty
  | none => false

end Match

section

variable (template : PreparedTemplate) (region : PixelRect) (options : MatchOptions)

def keep (kept : List Match) (candidate : Candidate) : Except VisionFault (List Match) :=
  if !candidate.score.isFinite || !(Binary64.zero.le candidate.score && candidate.score.le .one) then
    .error .backendScoreOutOfRange
  else
    match candidateBounds region candidate template.extent with
    | none => .error .backendCandidateOutsideRegion
    | some bounds =>
      if candidate.score.lt options.minScore then .ok kept
      else .ok (kept ++ [⟨template.id, bounds, candidate.score⟩])

def suppress (kept : List Match) : List Match :=
  if options.suppression = .dropOverlapping then
    kept.foldl (fun survivors found =>
      if survivors.any fun survivor => survivor.overlaps found then survivors
      else survivors ++ [found]) []
  else kept

def unlimited (candidates : List Candidate) : Except VisionFault (List Match) := do
  let kept ← candidates.foldlM (keep template region options) []
  pure (suppress options (sortBy Match.canonicalOrder kept))

/-- Turns raw candidates into the canonical public collection. -/
def normalize (candidates : List Candidate) : Except VisionFault (List Match) := do
  let kept ← unlimited template region options candidates
  pure (kept.take options.maxResults.toNat)

end

end MadoPilot.Vision

import Mathlib.Data.List.Infix
import Mathlib.Data.List.Sort
import Sentinel.Python.Floats

/-! The onset-step detector: a robust effect size of the values after an onset
against those before it, in level and in slope. -/
namespace Sentinel.Tools
open Python FloatArith

inductive Family where
  | resource | latency | error
  deriving DecidableEq, Repr

def zMin : ℚ := 3

/-- Lowering a metric's name to ASCII is enough for the words looked for. -/
def family (metric : String) : Family :=
  let m := metric.toList.map Char.toLower
  if "latency".toList <:+: m || "duration".toList <:+: m then .latency
  else if "error".toList <:+: m then .error
  else .resource

structure Floors where
  madEps : ℚ
  dAbs : ℚ
  dRel : ℚ

section Detector
variable [FloatArith]

/-- A literal of the source, as the nearest float. -/
def lit (x : ℚ) : ℚ := FloatArith.round x

def floorsByMetric : List (String × Floors) :=
  [("request_error_rate", ⟨lit 0.002, lit 0.01, lit 0.5⟩),
    ("latency_p95_ms", ⟨lit 2, lit 15, lit 0.15⟩),
    ("latency_p50_ms", ⟨lit 1, lit 10, lit 0.15⟩),
    ("cpu_utilization", ⟨lit 0.01, lit 0.03, lit 0.15⟩),
    ("memory_mb", ⟨lit 5, lit 20, lit 0.10⟩)]

def floorsByFamily : Family → Floors
  | .error => ⟨lit 0.002, lit 0.01, lit 0.5⟩
  | .latency => ⟨lit 2, lit 15, lit 0.15⟩
  | .resource => ⟨lit 1e-9, lit 0, lit 0.15⟩

def median (vals : List ℚ) : ℚ :=
  let s := vals.insertionSort (· ≤ ·)
  let n := s.length
  if n = 0 then 0
  else if n % 2 = 1 then s.getD (n / 2) 0
  else div (add (s.getD (n / 2 - 1) 0) (s.getD (n / 2) 0)) 2

def madSigma (vals : List ℚ) : ℚ :=
  let m := median vals
  mul (lit 1.4826) (median (vals.map fun v => |sub v m|))

/-- The spread a step is measured against. -/
def denominator (pre : List ℚ) (madEps : ℚ) : ℚ :=
  max (max (madSigma pre) madEps) (mul (lit 0.01) |median pre|)

/-- The largest effect at a split inside the baseline. -/
def placebo (pre : List ℚ) (madEps : ℚ) : ℚ :=
  let third := pre.length / 3
  [third, 2 * third].foldl (fun best cut =>
    if 4 ≤ cut ∧ cut ≤ pre.length - 4 then
      let before := pre.take cut
      let delta := sub (median (pre.drop cut)) (median before)
      max best (div |delta| (denominator before madEps))
    else best) 0

def levelZ (pre post : List ℚ) (floors : Floors) : ℚ :=
  if pre.length < 4 || post.isEmpty then 0
  else
    let preMed := median pre
    let delta := sub (median post) preMed
    if delta ≤ 0 then 0
    else if !(floors.dAbs ≤ delta || (0 < preMed && mul floors.dRel preMed ≤ delta)) then 0
    else
      let z := div delta (denominator pre floors.madEps)
      let placebo := placebo pre floors.madEps
      if placebo ≠ 0 ∧ z ≤ mul (lit 1.25) placebo then mul z (lit 0.25) else z

def diffs (vals : List ℚ) : List ℚ := List.zipWith (fun a b => sub b a) vals vals.tail

/-- The larger of a level step and a slope step. -/
def stepZ (pre post : List ℚ) (metric : String) : ℚ :=
  let floors := (floorsByMetric.lookup metric).getD (floorsByFamily (family metric))
  let z := levelZ pre post floors
  if 6 ≤ pre.length ∧ 3 ≤ post.length then
    max z (levelZ (diffs pre) (diffs post) ⟨div floors.madEps 10, 0, 0⟩)
  else z

/-- Without a baseline nothing steps. -/
theorem stepZ_no_baseline (post : List ℚ) (metric : String) : stepZ [] post metric = 0 := by
  simp [stepZ, levelZ]

end Detector
end Sentinel.Tools

import SparkDashboard.Engines.Metrics
import SparkDashboard.Library.Binary64

/-!
# Reading model identity

The pieces of model resolution the llama.cpp adapter shares with the others.
-/

namespace SparkDashboard.Engines

open Binary64

def classifyModelsErrorStatus (status : Nat) : ModelMetadataError :=
  if status = 401 ∨ status = 403 then .authRequired else .unavailable

/-- `{:.1}` of `count as f64 / unit`. -/
def formatOneDecimal (count : Nat) (unit : ℚ) : String :=
  let tenths := (roundHalfEven (nearestDouble (nearestDouble count / unit) * 10)).toNat
  s!"{tenths / 10}.{tenths % 10}"

def formatParamSize (count : Nat) : String :=
  if 1000000000 ≤ count then formatOneDecimal count 1000000000 ++ "B params"
  else if 1000000 ≤ count then formatOneDecimal count 1000000 ++ "M params"
  else toString count ++ " params"

end SparkDashboard.Engines

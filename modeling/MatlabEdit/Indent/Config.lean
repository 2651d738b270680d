/-!
# Configuration of the indentation

There is one setting: how many columns a nesting level is deep. A level of no columns would lose the
nesting, so a configuration carries the proof that its unit is not zero.
-/

namespace MatlabEdit

/-- How a document is to be indented. -/
structure IndentConfig where
  /-- Columns for each level of nesting. -/
  unit : UInt32
  unit_ne_zero : unit ≠ 0

/-- Why a configuration is refused. -/
inductive ConfigError where
  /-- A level would have no columns. -/
  | zeroIndentUnit
deriving DecidableEq, Repr

/-- What to tell the user about a refused configuration. -/
def ConfigError.message : ConfigError → String
  | zeroIndentUnit => "indent unit must be at least one column"

namespace IndentConfig

/-- Columns for each level unless the host says otherwise. -/
def defaultUnit : UInt32 := 4

instance : Inhabited IndentConfig := ⟨defaultUnit, by decide⟩

/-- The configuration with a given unit. -/
def ofUnit (unit : UInt32) : Except ConfigError IndentConfig :=
  if h : unit = 0 then .error .zeroIndentUnit else .ok ⟨unit, h⟩

/-- The configuration with its unit replaced. -/
def withUnit (_config : IndentConfig) (unit : UInt32) : Except ConfigError IndentConfig :=
  ofUnit unit

/-- A level is at least one column deep. -/
theorem unit_pos (config : IndentConfig) : 0 < config.unit.toNat :=
  Nat.pos_of_ne_zero fun h => config.unit_ne_zero (UInt32.toNat.inj h)

/-- Zero is the one unit that is refused. -/
theorem ofUnit_eq_error_iff {unit : UInt32} : ofUnit unit = .error .zeroIndentUnit ↔ unit = 0 := by
  unfold ofUnit
  split
  · simp_all
  · simp_all

/-- A unit that is accepted is the unit of the configuration. -/
theorem unit_of_ofUnit {unit : UInt32} {config : IndentConfig} (h : ofUnit unit = .ok config) :
    config.unit = unit := by
  unfold ofUnit at h
  split at h
  · cases h
  · cases h
    rfl

end IndentConfig

end MatlabEdit

import NearestWins.Problem

/-!
# Depths, thresholds and presets

Management is inherited and applied by depth. Depths and thresholds are machine numbers of 64 bits;
the largest one stands for "never", and counting down the tree stops there. A preset picks the two
thresholds of a run: from which depth on declarations are no longer inherited, and from which depth
on overrides are applied.
-/

namespace NearestWins

/-- The largest depth; as a threshold it is never passed. -/
def unboundedDepth : Nat := UInt64.size - 1

/-- The depth of the first nodes below the direct dependencies. -/
def belowDirectDepth : Nat := 2

/-- One level deeper, as far as depths go. -/
def deeper (depth : Nat) : Nat := min (depth + 1) unboundedDepth

/-- The two depths that govern a run. -/
structure Thresholds where
  /-- From this depth on, declarations are no longer taken in. -/
  deriveUntil : Nat
  /-- From this depth on, overrides are applied. -/
  applyFrom : Nat
deriving DecidableEq

/-- A choice of thresholds. -/
inductive Preset
  /-- Inherit everywhere, apply everywhere. -/
  | standard
  /-- Inherit everywhere, apply below the direct dependencies. -/
  | transitive
  /-- Inherit from the first two levels, apply below the direct dependencies. -/
  | classic
  /-- Explicit thresholds. -/
  | custom (thresholds : Thresholds)
deriving DecidableEq

namespace Preset

/-- The thresholds that a preset picks. -/
def thresholds : Preset → Thresholds
  | .standard => ⟨unboundedDepth, 0⟩
  | .transitive => ⟨unboundedDepth, belowDirectDepth⟩
  | .classic => ⟨belowDirectDepth, belowDirectDepth⟩
  | .custom thresholds => thresholds

/-- The same preset with either threshold replaced. -/
def withOverrides (p : Preset) (deriveUntil applyFrom : Option Nat) : Preset :=
  if deriveUntil.isNone ∧ applyFrom.isNone then p
  else
    let base := p.thresholds
    .custom ⟨deriveUntil.getD base.deriveUntil, applyFrom.getD base.applyFrom⟩

/-- The name of a preset, with its thresholds when they are explicit. -/
def describe : Preset → String
  | .standard => "default"
  | .transitive => "transitive"
  | .classic => "classic"
  | .custom ⟨deriveUntil, applyFrom⟩ =>
    s!"custom(derive_until={deriveUntil}, apply_from={applyFrom})"

/-- Reads the name of a preset; the case of its ASCII letters does not matter. -/
def parse (name : String) : Except Problem Preset :=
  match name.map Char.toLower with
  | "default" => .ok .standard
  | "transitive" => .ok .transitive
  | "classic" => .ok .classic
  | _ => .error (.unknownPreset name)

end Preset

end NearestWins

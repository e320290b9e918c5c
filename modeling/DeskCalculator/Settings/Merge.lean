import DeskCalculator.Settings.Value

/-! Merging of settings: the later mapping wins at every path, and two mappings
at one path are merged in turn. -/
namespace DeskCalculator.Settings

variable {κ σ : Type} [DecidableEq κ] [Thing κ σ]

mutual

/-- The value at a key that held `old` before `new` came. -/
def combine (old : Option (Value κ σ)) : Value κ σ → Value κ σ
  | .mapping fields => match old.bind Value.fields? with
    | some base => .mapping (merge base fields)
    | none => .mapping fields
  | new => new

def merge (base : Fields κ σ) : List (κ × Value κ σ) → Fields κ σ
  | [] => base
  | (key, value) :: rest =>
    merge (Fields.put base key (combine (base.lookup key) value)) rest

end

end DeskCalculator.Settings

import DeskCalculator.Text.Quoted

/-! Finite vocabularies: the members of a type and how each is spelled. -/
namespace DeskCalculator

class Vocabulary (α : Type) where
  noun : String
  members : List α
  spelling : α → String

/-- A text that spells no member of a vocabulary. -/
structure UnknownName where
  text : String
  noun : String
  deriving DecidableEq

def UnknownName.message (u : UnknownName) : String :=
  Text.quoted u.text ++ " is not a valid " ++ u.noun

namespace Vocabulary

def find? (α : Type) [Vocabulary α] (text : String) : Option α :=
  (members (α := α)).find? fun a => spelling a == text

def named (α : Type) [Vocabulary α] (text : String) : Except UnknownName α :=
  match find? α text with
  | some a => .ok a
  | none => .error ⟨text, noun α⟩

end Vocabulary
end DeskCalculator

import DeskCalculator.History.Address

/-! What the options of an address ask for, and what may keep a store from being used. -/
namespace DeskCalculator.History
open Text

inductive Refusal where
  | unknownMode
  | modeNotAllowed
  | unknownCache
  | unknownSystem
  deriving DecidableEq

def Refusal.lead : Refusal → String
  | unknownMode => "no such access mode: "
  | modeNotAllowed => "access mode not allowed: "
  | unknownCache => "no such cache mode: "
  | unknownSystem => "no such vfs: "

/-- What keeps a store from being used. -/
inductive Trouble where
  | cannotOpen
  | unreadable
  | noTable
  | readOnly
  | refused (r : Refusal) (name : String)
  /-- The name in a refusal is no text, so that it cannot be told. -/
  | untold (flaw : Flaw)
  deriving DecidableEq

namespace Trouble

def message : Trouble → String
  | cannotOpen => "unable to open database file"
  | unreadable => "disk I/O error"
  | noTable => "no such table: history"
  | readOnly => "attempt to write a readonly database"
  | refused r name => r.lead ++ name
  | untold flaw => flaw.message

def ofRefusal (r : Refusal) (name : Bytes) : Trouble :=
  match decode name with
  | .ok name => refused r name
  | .error flaw => untold { flaw with position := flaw.position + r.lead.length }

end Trouble

inductive Access where
  | readOnly
  | readWrite
  | create
  /-- The path counts for nothing, and nothing is kept. -/
  | memory
  deriving DecidableEq

namespace Access

def ofName? (name : Bytes) : Option Access :=
  [(utf8 "ro", readOnly), (utf8 "rw", readWrite), (utf8 "rwc", create),
    (utf8 "memory", memory)].lookup name

def rank : Access → Nat
  | readOnly => 1
  | readWrite => 2
  | create => 3
  | memory => 4

/-- One option after another may lessen the access but not widen it; memory may
always be asked for, and after it anything. -/
def narrow (held : Access) (option : Bytes × Bytes) : Except Trouble Access :=
  let (name, value) := option
  if name = utf8 "mode" then
    match ofName? value with
    | none => .error (.ofRefusal .unknownMode value)
    | some asked =>
      if asked = memory || asked.rank ≤ held.rank then .ok asked
      else .error (.ofRefusal .modeNotAllowed value)
  else if name = utf8 "cache" then
    if value = utf8 "shared" || value = utf8 "private" then .ok held
    else .error (.ofRefusal .unknownCache value)
  else .ok held

end Access

/-- File systems. All but the one in memory keep a store under its path. -/
inductive System where
  | plain
  | unlocked
  | lockedByFile
  | exclusive
  | memory
  deriving DecidableEq

namespace System

def ofName? (name : Bytes) : Option System :=
  [(utf8 "unix", plain), (utf8 "unix-none", unlocked), (utf8 "unix-dotfile", lockedByFile),
    (utf8 "unix-excl", exclusive), (utf8 "memdb", memory)].lookup name

end System

namespace Address

def access (a : Address) : Except Trouble Access := a.options.foldlM Access.narrow .create

def system (a : Address) : Except Trouble System :=
  match a.lastOption? "vfs" with
  | none => .ok .plain
  | some name =>
    match System.ofName? name with
    | some s => .ok s
    | none => .error (.ofRefusal .unknownSystem name)

/-- Files that no one changes are only read and need no locks. -/
def immutable (a : Address) : Bool := a.hasOn "immutable"

end Address

end DeskCalculator.History

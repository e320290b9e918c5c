import DeskCalculator.History.Access
import DeskCalculator.History.Path

/-! Where an address leads, and what is found or made there. -/
namespace DeskCalculator.History
open Text

inductive Target where
  | volatile
  | directory
  | file (name : Bytes)
  deriving DecidableEq

/-- A file may be told to take its permissions from another, which then must be there. -/
def target (folders : Folders) (files : List Bytes) (a : Address) : Except Trouble Target := do
  let access ← a.access
  let system ← a.system
  if access = .memory || a.path = [] || a.path = utf8 ":memory:" || system = .memory then
    .ok .volatile
  else match follow folders files a.path with
  | none => .error .cannotOpen
  | some way =>
    if !((a.option? "modeof").map (leadsSomewhere folders files)).getD true then
      .error .unreadable
    else if folders.has way then .ok .directory
    else if folders.has way.tail then .ok (.file way.text)
    else .error .cannotOpen

/-- The journal of changes that are not finished. One that is left is played back at the
next use, for which the store must be written to. -/
def rollback (name : Bytes) : Bytes := name ++ utf8 "-journal"

def writeAhead (name : Bytes) : Bytes := name ++ utf8 "-wal"

def lockFile (name : Bytes) : Bytes := name ++ utf8 ".lock"

/-- Nothing is ever found at the volatile place, as it is new at every use. The
way to a place can be blocked by what was made later, as by a store named a
made under the path a/b/../../a. -/
inductive Place where
  | named (name : Bytes)
  | volatile
  | blocked (name : Bytes) (trouble : Trouble)
  deriving DecidableEq

/-- What an address leads to: a place, whether it can only be read, and the names of
files that are lost by opening it, as the store takes them for its journals. -/
structure Finding where
  place : Place
  readOnly : Bool
  lost : List Bytes

namespace Place

def name? : Place → Option Bytes
  | named name | blocked name _ => some name
  | volatile => none

/-- What every use of a store at the place runs into. -/
def trouble? : Place → Option Trouble
  | named _ => none
  | volatile => some .noTable
  | blocked _ trouble => some trouble

/-- The place as it is among these directories and files. -/
def amid (folders : Folders) (files : List Bytes) (a : Address) : Place → Place
  | named name =>
    match target folders files a with
    | .ok _ => named name
    | .error trouble => blocked name trouble
  | place => place

/-- What keeps a table from being made in a file without one. -/
def making? (a : Address) (access : Access) (system : System) (name : Bytes) : Option Trouble :=
  if system = .lockedByFile && !a.immutable && !a.hasOn "nolock" &&
      (lastPart (lockFile name)).length > longest then some .unreadable
  else if access = .readOnly || a.immutable then some .readOnly
  else if (lastPart (rollback name)).length > longest then some .cannotOpen
  else none

/-- Whether a journal is played back when a store is opened. A bare file is none, and
where a file stands for a lock the lock of the use itself looks like that of another. -/
def playsBack (stores : List Bytes) (system : System) (name : Bytes) : Bool :=
  stores.contains (rollback name) && system != .lockedByFile

/-- What keeps a store that is there from being opened. -/
def opening? (stores : List Bytes) (a : Address) (access : Access) (system : System)
    (name : Bytes) : Option Trouble :=
  let unlocked := a.hasOn "nolock" || system = .unlocked || system = .lockedByFile
  if a.immutable then none
  else if access = .readOnly && playsBack stores system name then some .readOnly
  else if unlocked && stores.contains (writeAhead name) then some .cannotOpen
  else none

/-- The journals that are there, of which one is always made anew with the store. -/
def lost (stores : List Bytes) (system : System) (name : Bytes) : List Bytes :=
  (if !stores.contains name || playsBack stores system name then [rollback name] else []) ++
    (if stores.contains (writeAhead name) then [writeAhead name] else [])

/-- Where nothing is kept an address can only be opened to be written to. Files that
no one changes are a matter of the file system in memory, not of memory as such. -/
def findVolatile (a : Address) (access : Access) : Except Trouble Finding :=
  let inFile := access != .memory && a.path != [] && a.path != utf8 ":memory:"
  if access = .readOnly || (inFile && a.immutable) then .error .readOnly
  else .ok ⟨.volatile, false, []⟩

def findFile (names : Names) (a : Address) (access : Access) (system : System) (name : Bytes) :
    Except Trouble Finding :=
  if names.stores.contains name then
    match opening? names.stores a access system name with
    | some trouble => .error trouble
    | none =>
      let readOnly := access = .readOnly || a.immutable
      .ok ⟨.named name, readOnly, if readOnly then [] else lost names.stores system name⟩
  else if access != .create && !names.bare.contains name then .error .cannotOpen
  else match making? a access system name with
  | some trouble => .error trouble
  | none => .ok ⟨.named name, false, lost names.stores system name⟩

def find (names : Names) (a : Address) : Except Trouble Finding := do
  let access ← a.access
  let system ← a.system
  match ← target names.folders names.all a with
  | .volatile => findVolatile a access
  | .directory => .error (if access = .readOnly then .unreadable else .cannotOpen)
  | .file name => findFile names a access system name

/-- The bare file that is left when an address could not be opened. -/
def leftover? (names : Names) (a : Address) : Option Bytes :=
  match a.access, target names.folders names.all a with
  | .ok .create, .ok (.file name) => if names.all.contains name then none else some name
  | _, _ => none

end Place
end DeskCalculator.History

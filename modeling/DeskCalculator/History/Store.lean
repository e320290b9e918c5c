import DeskCalculator.History.Log
import DeskCalculator.History.Place

/-! The store that a log is kept in: where it lies, what may go wrong there, and
what an operation then leaves behind. -/
namespace DeskCalculator.History
open Clock Text

/-- Uses of a store in which the store itself may fail. -/
inductive Task where
  | opening
  | recording
  | clearing
  deriving DecidableEq

namespace Task

def name : Task → String
  | opening => "init"
  | recording => "record"
  | clearing => "clear"

def failure : Task → String
  | opening => "Failed to initialize history database"
  | recording => "Failed to record history entry"
  | clearing => "Failed to clear history"

end Task

inductive Fault where
  | store (task : Task) (trouble : Trouble)
  | integerTooWide
  | zeroInAddress
  | notText (flaw : Flaw)
  | clock (f : Clock.Fault)
  deriving DecidableEq

namespace Fault

/-- The operation that failed in the store itself. -/
def operation : Fault → Option String
  | store task _ => some task.name
  | integerTooWide | zeroInAddress | notText _ | clock _ => none

def message : Fault → String
  | store task trouble => task.failure ++ ": " ++ trouble.message
  | integerTooWide => "Python int too large to convert to SQLite INTEGER"
  | zeroInAddress => "embedded null byte"
  | notText flaw => flaw.message
  | clock f => f.message

def ofTrouble (task : Task) : Trouble → Fault
  | .untold flaw => notText flaw
  | trouble => store task trouble

end Fault

/-- A store holds signed integers of 64 bits. -/
def isStorable (n : Int) : Bool := -2 ^ 63 ≤ n && n < 2 ^ 63

def defaultPath : String := "calc_history.db"

def defaultCapacity : Int := 50

structure Store where
  address : Address
  place : Place
  readOnly : Bool
  capacity : Int
  log : Log
  deriving DecidableEq

/-- The files that the stores are kept in, of which some are bare, and the directories
around them. -/
structure Directory where
  folders : Folders
  logs : List (Bytes × Log)
  bare : List Bytes
  deriving DecidableEq

namespace Directory

def empty (folders : Folders) : Directory := ⟨folders, [], []⟩

def names (d : Directory) : Names := ⟨d.folders, d.logs.map Prod.fst, d.bare⟩

def logAt (d : Directory) (place : Place) : Log :=
  (place.name?.bind fun name => d.logs.lookup name).getD .empty

def without (d : Directory) (lost : List Bytes) : Directory :=
  { d with
    logs := d.logs.filter fun log => !lost.contains log.1
    bare := d.bare.filter fun name => !lost.contains name }

/-- A file is not bare any more once there is a store in it. -/
def covered (d : Directory) (place : Place) : Directory :=
  { d with bare := d.bare.filter fun name => place.name? != some name }

end Directory

namespace Store

/-- The store as it is in a directory, in which it counts as a file itself. -/
def within (s : Store) (d : Directory) : Store :=
  { s with place := s.place.amid d.folders (s.place.name?.toList ++ d.names.all) s.address }

/-- The store at an address, and the directory that is left beside it. -/
def openIn (d : Directory) (address : Address) (capacity : Int) :
    Except Fault (Store × Directory) :=
  match Place.find d.names address with
  | .error trouble => .error (.ofTrouble .opening trouble)
  | .ok found =>
    let left := d.without found.lost
    let s : Store := ⟨address, found.place, found.readOnly, capacity, d.logAt found.place⟩
    .ok (s.within left, left.covered found.place)

def openNew (address : String) (capacity : Int) (folders : Folders := .scratch) :
    Except Fault Store :=
  match Address.ofText? address with
  | none => .error .zeroInAddress
  | some a => (openIn (.empty folders) a capacity).map Prod.fst

/-- An entry is stored before its timestamp is written out as a date, so one
that is no date leaves the entry behind. -/
def record (s : Store) (now : Instant) (expression result : String) (timestamp : Option Int) :
    Except Fault Nat × Store :=
  match s.place.trouble? with
  | some t => (.error (.ofTrouble .recording t), s)
  | none =>
    let stamp := timestamp.getD now.epochMillis
    if !isStorable stamp then (.error .integerTooWide, s)
    else if s.readOnly then (.error (.store .recording .readOnly), s)
    else if !isStorable s.capacity then (.error .integerTooWide, s)
    else
      let after := { s with log := s.log.record s.capacity expression result stamp now }
      match Instant.ofEpochMillis stamp with
      | .ok _ => (.ok after.log.lastId, after)
      | .error f => (.error (.clock f), after)

/-- At most the given number of entries, or else the capacity. -/
def recent (s : Store) (limit : Option Int) : Except Fault (List Entry) :=
  let limit := limit.getD s.capacity
  match s.place.trouble? with
  | some _ => .ok []
  | none => if isStorable limit then .ok (s.log.recent limit) else .error .integerTooWide

def get (s : Store) (id : Int) : Except Fault (Option Entry) :=
  match s.place.trouble? with
  | some _ => .ok none
  | none => if isStorable id then .ok (s.log.find? id) else .error .integerTooWide

def count (s : Store) : Nat :=
  match s.place.trouble? with
  | some _ => 0
  | none => s.log.count

def clear (s : Store) : Except Fault Nat × Store :=
  match s.place.trouble? with
  | some t => (.error (.ofTrouble .clearing t), s)
  | none =>
    if s.readOnly then (.error (.store .clearing .readOnly), s)
    else (.ok s.log.count, { s with log := s.log.clear })

end Store
end DeskCalculator.History

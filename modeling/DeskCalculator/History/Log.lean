import DeskCalculator.Clock.Instant

/-! The log of finished calculations, newest first, of a bounded length. -/
namespace DeskCalculator.History
open Clock

structure Entry where
  id : Nat
  expression : String
  result : String
  timestamp : Int
  created : Instant
  deriving DecidableEq

/-- Entries of one timestamp are ordered by their numbers. -/
def Entry.newer (a b : Entry) : Bool :=
  b.timestamp < a.timestamp || (b.timestamp == a.timestamp && b.id < a.id)

/-- A negative limit is none. -/
def atMost (limit : Int) (es : List Entry) : List Entry :=
  if limit < 0 then es else es.take limit.toNat

/-- A number is given once and never again, even if its entry is gone. -/
structure Log where
  entries : List Entry
  lastId : Nat
  deriving DecidableEq

namespace Log

def empty : Log := ⟨[], 0⟩

def insert (e : Entry) : List Entry → List Entry
  | [] => [e]
  | x :: rest => if x.newer e then x :: insert e rest else e :: x :: rest

/-- The new entry counts among those that are cut to the capacity, so an entry
older than all the others may be gone at once. -/
def record (log : Log) (capacity : Int) (expression result : String) (timestamp : Int)
    (created : Instant) : Log :=
  let e : Entry := ⟨log.lastId + 1, expression, result, timestamp, created⟩
  ⟨atMost capacity (insert e log.entries), log.lastId + 1⟩

def recent (log : Log) (limit : Int) : List Entry := atMost limit log.entries

def find? (log : Log) (id : Int) : Option Entry := log.entries.find? fun e => (e.id : Int) == id

def count (log : Log) : Nat := log.entries.length

def clear (log : Log) : Log := { log with entries := [] }

end Log
end DeskCalculator.History

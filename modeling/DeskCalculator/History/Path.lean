import DeskCalculator.History.Address

/-! Paths, followed name by name among the directories and the files that there are. -/
namespace DeskCalculator.History
open Text

/-- The names along a path from the root, the last one first. -/
abbrev Way := List Bytes

def Way.text (way : Way) : Bytes := (way.reverse.map (slash :: ·)).flatten

/-- The directories there are: the one that paths start in, with those above it, and others.
All can be written to, and none has the name of a journal or a lock. -/
structure Folders where
  home : Way
  others : List Way
  deriving DecidableEq

namespace Folders

/-- Only a directory to work in. -/
def scratch : Folders := ⟨[utf8 "calculators", utf8 "tmp"], []⟩

def has (folders : Folders) (way : Way) : Bool :=
  way.isSuffixOf folders.home || folders.others.contains way

end Folders

/-- The files there are. A bare one has no table. -/
structure Names where
  folders : Folders
  stores : List Bytes
  bare : List Bytes

def Names.all (n : Names) : List Bytes := n.stores ++ n.bare

/-- Bytes of the longest name in a directory. -/
def longest : Nat := 255

/-- Bytes of the longest path that can be followed. -/
def longestPath : Nat := 511

/-- Bytes of the longest path of a store, which leaves room for the name of its journal. -/
def longestFile : Nat := 504

/-- The last name of a path. -/
def lastPart (file : Bytes) : Bytes := (pieces slash file).getLast?.getD []

/-- A part may name what is not there, but nothing is below a file. -/
def canStep (folders : Folders) (files : List Bytes) (way : Way) (part : Bytes) : Bool :=
  (Way.text (part :: way)).length ≤ longestPath &&
    if folders.has way then part.length ≤ longest else !files.contains way.text

def walk (folders : Folders) (files : List Bytes) : Way → List Bytes → Option Way
  | way, [] => some way
  | way, part :: rest =>
    if part = [] || part = here then walk folders files way rest
    else if part = above then walk folders files way.tail rest
    else if canStep folders files way part then walk folders files (part :: way) rest
    else none

def isRooted (path : Bytes) : Bool := path.head? = some slash

/-- The way that a path leads, from the root or else from home. -/
def follow (folders : Folders) (files : List Bytes) (path : Bytes) : Option Way :=
  let start := if isRooted path then [] else folders.home.reverse
  match walk folders files [] (start ++ pieces slash path) with
  | some (name :: parent) =>
    if (Way.text (name :: parent)).length ≤ longestFile then some (name :: parent) else none
  | _ => none

/-- Whether the parts lead on from a directory to something that is there. Here, unlike
when a path is followed, each part has to be there. -/
def arrives (folders : Folders) (files : List Bytes) : Way → List Bytes → Bool
  | _, [] => true
  | way, part :: rest =>
    if part = [] || part = here then arrives folders files way rest
    else if part = above then arrives folders files way.tail rest
    else if folders.has (part :: way) then arrives folders files (part :: way) rest
    else rest.isEmpty && files.contains (Way.text (part :: way))

def leadsSomewhere (folders : Folders) (files : List Bytes) (path : Bytes) : Bool :=
  path != [] && arrives folders files (if isRooted path then [] else folders.home)
    (pieces slash path)

end DeskCalculator.History

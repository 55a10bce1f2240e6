import CeMeet.Decoding
import CeMeet.Foundation.Saving

/-!
# Snapshots outlast failures of the power

A snapshot is written to a temporary file, which is synced and renamed, and then
the directory is synced.  Saves that are made one after another leave a file
from which a whole snapshot is loaded, whatever fails in between.  Once a save
has come to its end, this is its snapshot or that of a later one.
-/

namespace CeMeet
namespace RoomSnapshot

/-- A call that saves a snapshot. -/
structure Save where
  /-- The id of the process. -/
  pid : UInt32
  /-- The snapshot. -/
  snap : RoomSnapshot
  /-- The name under which it is saved. -/
  dest : String

/-- The replacement that saves the snapshot. -/
def Save.replacement (save : Save) : Replacement String :=
  saveAtomic save.pid save.snap save.dest

/-- Load a snapshot. -/
def load (parse : Bytes → Except String Json) (files : Files String)
    (path : String) : Except String RoomSnapshot :=
  match files.read path with
  | none => .error "No such file or directory (os error 2)"
  | some bytes => fromBytes parse bytes

open Replacement

end RoomSnapshot
end CeMeet

import ChainWatch.Storage.Store

/-!
# The maps that a store stands for

Seen from outside, a store is three maps: the live records, the retired records and the snapshots.
`Reference` says what each operation does to them, with no files in between.
-/

namespace ChainWatch.Storage

/-- What a store holds. -/
structure Reference where
  /-- Live contents by directory and name. -/
  current : String → String → Option Bytes
  /-- Retired contents by directory and name. -/
  archived : String → String → Option Bytes
  /-- Copies by directory, name and suffix. -/
  snapshots : String → String → Int → Option Bytes

namespace Reference

/-- The store without records. -/
def empty : Reference := ⟨fun _ _ => none, fun _ _ => none, fun _ _ _ => none⟩

/-- A map with one entry changed. -/
def update (m : String → String → Option Bytes) (directory name : String) (v : Option Bytes) :
    String → String → Option Bytes :=
  fun d n => if d = directory ∧ n = name then v else m d n

def save (r : Reference) (data : Bytes) (directory name : String) : Reference :=
  { r with current := update r.current directory name (some data) }

def delete (r : Reference) (directory name : String) : Reference :=
  { r with current := update r.current directory name none }

/-- The live records of the directory leave, and win over what was retired under their names. -/
def archive (r : Reference) (directory : String) : Reference :=
  { r with
    current := fun d n => if d = directory then none else r.current d n
    archived := fun d n =>
      if d = directory then (r.current d n).or (r.archived d n) else r.archived d n }

def snapshot (r : Reference) (data : Bytes) (directory name : String) (suffix : Int) : Reference :=
  { r with
    snapshots := fun d n k =>
      if d = directory ∧ n = name ∧ k = suffix then some data else r.snapshots d n k }

end Reference

end ChainWatch.Storage

import Dbx.Engine.VectorIndex

/-!
# Opening and closing indexes
-/

set_option autoImplicit false

namespace Dbx.Engine

@[simp] theorem Disk.set_same (disk : Disk) (path : IndexPath) (files : IndexFiles) :
    disk.set path files path = files := by
  simp [Disk.set]

theorem Disk.set_other (disk : Disk) {path path' : IndexPath} (files : IndexFiles)
    (other : path' ≠ path) : disk.set path files path' = disk path' := by
  simp [Disk.set, other]

@[simp] theorem Disk.set_set (disk : Disk) (path : IndexPath) (first second : IndexFiles) :
    (disk.set path first).set path second = disk.set path second := by
  simp [Disk.set]

namespace MMapIndex

@[simp] theorem close_same (now : Int64) (idx : MMapIndex) (disk : Disk) :
    idx.close now disk idx.path =
      ⟨(disk idx.path).rows, some idx.metadata, some idx.count⟩ := by
  simp [close, writeMetadata]

theorem close_other (now : Int64) (idx : MMapIndex) (disk : Disk) {path : IndexPath}
    (other : path ≠ idx.path) : idx.close now disk path = disk path := by
  simp [close, writeMetadata, Disk.set_other _ _ other]

end MMapIndex

def openedFile (path : IndexPath) (dim capacity : Nat) (encoding : VectorEncoding) (disk : Disk) :
    Bytes :=
  let file := (disk path).rows.getD []
  if file.length = 0 then List.replicate (max capacity 1000 * vectorRowSize dim encoding) 0
  else file

def openedDisk (path : IndexPath) (dim capacity : Nat) (encoding : VectorEncoding) (disk : Disk) :
    Disk :=
  disk.set path { disk path with rows := some (openedFile path dim capacity encoding disk) }

section Opening

variable {now : Int64} {path : IndexPath} {dim capacity : Nat} {encoding : VectorEncoding}
  {disk : Disk}

@[simp] theorem openedDisk_same :
    openedDisk path dim capacity encoding disk path =
      { disk path with rows := some (openedFile path dim capacity encoding disk) } :=
  Disk.set_same ..

theorem openedDisk_other {path' : IndexPath} (other : path' ≠ path) :
    openedDisk path dim capacity encoding disk path' = disk path' :=
  Disk.set_other _ _ other

theorem newMMapVectorIndex_fresh (now : Int64) (dim capacity : Nat) (encoding : VectorEncoding)
    (fresh : (disk path).metadata = none) :
    newMMapVectorIndex now path dim capacity encoding disk =
      (.ok ⟨path, dim, encoding, [], 0, none⟩, openedDisk path dim capacity encoding disk) := by
  simp [newMMapVectorIndex, fresh, openedDisk, openedFile]

section

variable {stored : VectorMetadata} (now capacity encoding)
  (metadata : (disk path).metadata = some stored)
include metadata

theorem newMMapVectorIndex_stored :
    newMMapVectorIndex now path stored.dim capacity encoding disk =
      if (openedFile path stored.dim capacity encoding disk).length /
          vectorRowSize stored.dim stored.encoding < stored.rows.length then
        (.error "vector metadata exceeds index capacity",
          MMapIndex.close now ⟨path, stored.dim, stored.encoding, [], 0, none⟩
            (openedDisk path stored.dim capacity encoding disk))
      else
        (.ok ⟨path, stored.dim, stored.encoding, stored.rows, 0, none⟩,
          openedDisk path stored.dim capacity encoding disk) := by
  simp [newMMapVectorIndex, metadata, openedDisk, openedFile, MMapIndex.rowBytes]

theorem newMMapVectorIndex_mismatch (differ : stored.dim ≠ dim) :
    newMMapVectorIndex now path dim capacity encoding disk =
      (.error "invalid vector metadata: %!w(<nil>)",
        MMapIndex.close now ⟨path, dim, encoding, [], 0, none⟩
          (openedDisk path dim capacity encoding disk)) := by
  simp [newMMapVectorIndex, metadata, openedDisk, openedFile, differ]

end

end Opening

end Dbx.Engine

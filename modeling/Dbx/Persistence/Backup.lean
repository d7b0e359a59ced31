import Dbx.Engine.VectorIndex
import Dbx.Protocol.Command

/-!
# Backup archives

Unpacking the files that the checksummed manifest of a zip archive lists into a staging
directory. The zip, hash and JSON libraries are parameters.
-/

set_option autoImplicit false

namespace Dbx.Persistence

open Dbx.Engine Dbx.Protocol

abbrev FilePath := List Bytes

def pathText (path : FilePath) : Bytes := [0x2f].intercalate path

structure BackupFile where
  path : FilePath
  size : Int64
  sha256 : Bytes
deriving DecidableEq, Repr

structure BackupManifest where
  version : Int
  tenantID : Bytes
  format : Bytes
  checkpointSequence : UInt64
  checkpointID : Bytes
  files : List BackupFile
deriving DecidableEq, Repr

def BackupManifest.zero : BackupManifest := ⟨0, [], [], 0, [], []⟩

/-- What a stream of an archive delivers: its bytes, and the error that ends them
where they do not come to their end. -/
structure ZipStream (κ : Type) where
  content : κ
  fault : Option String

structure ArchiveCodec (κ : Type) where
  length : κ → Nat
  take : Nat → κ → κ
  length_take : ∀ count content, length (take count content) = min count (length content)
  take_of_le : ∀ count content, length content ≤ count → take count content = content
  fileDigest : κ → Bytes
  textDigest : Bytes → Bytes
  /-- Decoding fills in a manifest that may have been read before. -/
  decodeManifest : ZipStream κ → BackupManifest → Except String BackupManifest

structure ZipEntry (κ : Type) where
  name : FilePath
  uncompressedSize64 : UInt64
  stream : Except String (ZipStream κ)

variable {κ : Type} (codec : ArchiveCodec κ)

def checkpointID (manifest : BackupManifest) : Bytes :=
  codec.textDigest (manifest.tenantID ++ [0x0a] ++
    ascii (toString manifest.checkpointSequence.toNat) ++ [0x0a] ++
    manifest.files.flatMap fun item => pathText item.path ++ [0x0a] ++ item.sha256 ++ [0x0a])

def manifestName : FilePath := [ascii "manifest.json"]

/-- `filepath.Clean` of a path that does not begin with a slash. -/
def cleanPath (path : FilePath) : FilePath :=
  path.foldl
    (fun clean part =>
      if part = [] ∨ part = ascii "." then clean
      else if part = ascii ".." then
        if clean = [] ∨ clean.getLast? = some (ascii "..") then clean ++ [part] else clean.dropLast
      else clean ++ [part])
    []

def isAbs (path : FilePath) : Bool := path.head? = some [] && 1 < path.length

def unsafePath (path : FilePath) : Bool :=
  isAbs path || cleanPath path = [] || (cleanPath path).head? = some (ascii "..")

abbrev Staging (κ : Type) := List (FilePath × κ)

def Staging.crosses (path : FilePath) (staging : Staging κ) : Bool :=
  staging.any fun file => file.1.isPrefixOf path.dropLast

def Staging.exists (path : FilePath) (staging : Staging κ) : Bool :=
  staging.any fun file => path.isPrefixOf file.1

/-- The manifests of an archive, each read over the ones before. -/
def readManifest : List (ZipEntry κ) → BackupManifest → Except String BackupManifest
  | [], manifest => .ok manifest
  | entry :: entries, manifest =>
    if entry.name ≠ manifestName then readManifest entries manifest
    else if 1048576 < entry.uncompressedSize64 then .error "backup manifest exceeds limit"
    else
      match entry.stream with
      | .error message => .error message
      | .ok stream =>
        match codec.decodeManifest stream manifest with
        | .error message => .error message
        | .ok manifest => readManifest entries manifest

/-- `files[name]`: the last entry of a name counts. -/
def zipFile (entries : List (ZipEntry κ)) (name : FilePath) : Option (ZipEntry κ) :=
  (entries.filter fun entry => entry.name ≠ manifestName && entry.name = name).getLast?

/-- Copy at most one byte more than listed, and compare what has been written. The limit
is an `int64` too. -/
def copyFile (item : BackupFile) (stream : ZipStream κ) : Except String Unit × κ :=
  let limit := (item.size + 1).toInt.toNat
  let written := codec.take limit stream.content
  let failed := if codec.length stream.content < limit then stream.fault else none
  match failed with
  | some message => (.error message, written)
  | none =>
    if codec.length written ≠ item.size.toInt.toNat then
      (.error ("backup file length mismatch: " ++ rawText (pathText item.path)), written)
    else if codec.fileDigest written ≠ item.sha256 then
      (.error ("backup checksum mismatch: " ++ rawText (pathText item.path)), written)
    else (.ok (), written)

def extractFile (entries : List (ZipEntry κ)) (maxBytes : Int64) (item : BackupFile) (total : Int64)
    (staging : Staging κ) : Except String Int64 × Staging κ :=
  let missing := "backup file missing or size mismatch: " ++ rawText (pathText item.path)
  if unsafePath item.path then
    (.error ("unsafe backup path " ++ quote (pathText item.path)), staging)
  else if item.size < 0 ∨ (0 < maxBytes ∧ maxBytes < total + item.size) then
    (.error "backup exceeds restore size limit", staging)
  else
    match zipFile entries item.path with
    | none => (.error missing, staging)
    | some zipped =>
      if zipped.uncompressedSize64.toInt64 ≠ item.size then (.error missing, staging)
      else if staging.crosses (cleanPath item.path) then (.error "not a directory", staging)
      else
        match zipped.stream with
        | .error message => (.error message, staging)
        | .ok stream =>
          if staging.exists (cleanPath item.path) then (.error "file exists", staging)
          else
            match copyFile codec item stream with
            | (.error message, written) =>
              (.error message, staging ++ [(cleanPath item.path, written)])
            | (.ok (), written) =>
              (.ok (total + item.size), staging ++ [(cleanPath item.path, written)])

def extractFiles (entries : List (ZipEntry κ)) (maxBytes : Int64) :
    List BackupFile → Int64 → Staging κ → Except String Unit × Staging κ
  | [], _, staging => (.ok (), staging)
  | item :: items, total, staging =>
    match extractFile codec entries maxBytes item total staging with
    | (.error message, staging) => (.error message, staging)
    | (.ok total, staging) => extractFiles entries maxBytes items total staging

def extractAndValidateBackup (archive : List (ZipEntry κ)) (tenantID : Bytes) (maxBytes : Int64) :
    Except String BackupManifest × Staging κ :=
  match readManifest codec archive .zero with
  | .error message => (.error message, [])
  | .ok manifest =>
    if manifest.version ≠ 2 ∨ manifest.format ≠ ascii "dbx-v1" ∨ manifest.tenantID ≠ tenantID then
      (.error ("backup manifest is incompatible with tenant " ++ quote tenantID), [])
    else
      match extractFiles codec archive maxBytes manifest.files 0 [] with
      | (.error message, staging) => (.error message, staging)
      | (.ok (), staging) =>
        if manifest.checkpointID ≠ [] ∧ manifest.checkpointID ≠ checkpointID codec manifest then
          (.error "backup checkpoint_id mismatch", staging)
        else (.ok manifest, staging)

end Dbx.Persistence

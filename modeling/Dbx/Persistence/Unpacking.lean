import Dbx.Persistence.Backup

/-!
# What unpacking an archive can do

Names, sizes and contents of an archive are the sender's. For every archive: where
files are created, how many bytes are written, and what is there when the archive
is accepted. The running total of the sizes is an `int64` and wraps.
-/

set_option autoImplicit false

namespace Dbx.Persistence

variable {κ : Type} {codec : ArchiveCodec κ}

def ProperName (part : Bytes) : Prop := part ≠ [] ∧ part ≠ ascii "." ∧ part ≠ ascii ".."

/-- `filepath.Join` of an absolute directory and a path. -/
def joinDir (dir path : FilePath) : FilePath :=
  path.foldl
    (fun joined part =>
      if part = [] ∨ part = ascii "." then joined
      else if part = ascii ".." then joined.dropLast
      else joined ++ [part])
    dir

def Inside (dir path : FilePath) : Prop :=
  ∃ parts, parts ≠ [] ∧ (∀ part ∈ parts, ProperName part) ∧ path = dir ++ parts

theorem cleanPath_shape (path : FilePath) :
    ∃ (climbs : Nat) (parts : FilePath),
      cleanPath path = List.replicate climbs (ascii "..") ++ parts ∧
      ∀ part ∈ parts, ProperName part := by
  induction path using List.reverseRecOn with
  | nil => exact ⟨0, [], rfl, fun _ member => absurd member List.not_mem_nil⟩
  | append_singleton path part ih =>
    obtain ⟨climbs, parts, shape, proper⟩ := ih
    have step : cleanPath (path ++ [part]) =
        if part = [] ∨ part = ascii "." then cleanPath path
        else if part = ascii ".." then
          if cleanPath path = [] ∨ (cleanPath path).getLast? = some (ascii "..") then
            cleanPath path ++ [part]
          else (cleanPath path).dropLast
        else cleanPath path ++ [part] := by
      rw [cleanPath, List.foldl_append]
      rfl
    rw [step]
    split
    · exact ⟨climbs, parts, shape, proper⟩
    rename_i named
    split
    · rename_i up
      rw [shape]
      cases parts using List.reverseRecOn with
      | nil =>
        refine ⟨climbs + 1, [], ?_, fun _ member => absurd member List.not_mem_nil⟩
        have climbing : List.replicate climbs (ascii "..") ++ [] = [] ∨
            (List.replicate climbs (ascii "..") ++ []).getLast? = some (ascii "..") := by
          cases climbs with
          | zero => exact .inl rfl
          | succ climbs => right; simp [List.replicate_succ']
        rw [if_pos climbing, up, List.replicate_succ', List.append_nil, List.append_nil]
      | append_singleton parts last =>
        have lastName := proper last (by simp)
        refine ⟨climbs, parts, ?_, fun part member => proper part (by simp [member])⟩
        rw [if_neg, ← List.append_assoc, List.dropLast_concat]
        rw [← List.append_assoc, List.getLast?_concat, Option.some.injEq]
        exact not_or.mpr ⟨by simp, lastName.2.2⟩
    · rename_i proceeds
      refine ⟨climbs, parts ++ [part], by rw [shape, List.append_assoc], fun other member => ?_⟩
      rcases List.mem_append.mp member with member | member
      · exact proper other member
      · rw [List.mem_singleton.mp member]
        exact ⟨fun empty => named (.inl empty), fun here => named (.inr here), proceeds⟩

theorem cleanPath_safe {path : FilePath} (safe : unsafePath path = false) :
    cleanPath path ≠ [] ∧ ∀ part ∈ cleanPath path, ProperName part := by
  obtain ⟨climbs, parts, shape, proper⟩ := cleanPath_shape path
  simp only [unsafePath, Bool.or_eq_false_iff, decide_eq_false_iff_not] at safe
  obtain ⟨⟨-, nonempty⟩, descends⟩ := safe
  cases climbs with
  | succ climbs =>
    rw [shape] at descends
    exact absurd rfl descends
  | zero =>
    rw [List.replicate_zero, List.nil_append] at shape
    exact ⟨nonempty, shape ▸ proper⟩

theorem joinDir_proper (dir : FilePath) {path : FilePath}
    (proper : ∀ part ∈ path, ProperName part) :
    joinDir dir path = dir ++ path := by
  induction path generalizing dir with
  | nil => exact (List.append_nil dir).symm
  | cons part path ih =>
    obtain ⟨named, here, up⟩ := proper part List.mem_cons_self
    rw [joinDir, List.foldl_cons, if_neg (not_or.mpr ⟨named, here⟩), if_neg up]
    exact (ih (dir ++ [part]) fun other member =>
      proper other (List.mem_cons_of_mem _ member)).trans
      (List.append_cons dir part path).symm

theorem inside_joinDir (dir : FilePath) {path : FilePath} (safe : unsafePath path = false) :
    Inside dir (joinDir dir (cleanPath path)) := by
  obtain ⟨nonempty, proper⟩ := cleanPath_safe safe
  exact ⟨cleanPath path, nonempty, proper, joinDir_proper dir proper⟩

/-- The target of a listed file can be created, behind files at the given paths, and
its entry opened. -/
structure Begun (entries : List (ZipEntry κ)) (maxBytes total : Int64) (taken : List FilePath)
    (item : BackupFile) (stream : ZipStream κ) : Prop where
  safe : unsafePath item.path = false
  nonneg : ¬ item.size < 0
  within : ¬ (0 < maxBytes ∧ maxBytes < total + item.size)
  zipped : ∃ entry, zipFile entries item.path = some entry ∧
    entry.uncompressedSize64.toInt64 = item.size ∧ entry.stream = .ok stream
  uncrossed : ∀ path ∈ taken, ¬ path <+: (cleanPath item.path).dropLast
  vacant : ∀ path ∈ taken, ¬ cleanPath item.path <+: path

/-- A stream delivers what is listed. The largest size of all leaves no room for the
byte more that is copied, and nothing is. -/
structure Restores (codec : ArchiveCodec κ) (item : BackupFile) (stream : ZipStream κ) : Prop where
  size : (codec.length stream.content : Int) = item.size.toInt
  digest : codec.fileDigest stream.content = item.sha256
  whole : stream.fault = none
  room : item.size.toInt < 2 ^ 63 - 1

def copied (codec : ArchiveCodec κ) (item : BackupFile) (stream : ZipStream κ) : Nat :=
  min (item.size + 1).toInt.toNat (codec.length stream.content)

theorem copyLimit_cases {item : BackupFile} (nonneg : ¬ item.size < 0) :
    (item.size.toInt < 2 ^ 63 - 1 ∧ ((item.size + 1).toInt.toNat : Int) = item.size.toInt + 1) ∨
      (item.size.toInt = 2 ^ 63 - 1 ∧ (item.size + 1).toInt.toNat = 0) := by
  have low : 0 ≤ item.size.toInt := by
    rw [Int64.lt_iff_toInt_lt, Int64.toInt_zero] at nonneg
    omega
  have high := item.size.toInt_lt
  rw [Int64.toInt_add, Int64.toInt_one]
  by_cases room : item.size.toInt < 2 ^ 63 - 1
  · left
    rw [Int.bmod_eq_of_le (by omega) (by omega)]
    omega
  · right
    have largest : item.size.toInt = 2 ^ 63 - 1 := by omega
    rw [largest]
    exact ⟨rfl, by decide⟩

theorem copyFile_written (codec : ArchiveCodec κ) (item : BackupFile) (stream : ZipStream κ) :
    (copyFile codec item stream).2 = codec.take (item.size + 1).toInt.toNat stream.content := by
  unfold copyFile
  dsimp only
  split
  · rfl
  split
  · rfl
  · split <;> rfl

theorem length_copyFile (codec : ArchiveCodec κ) (item : BackupFile) (stream : ZipStream κ) :
    codec.length (copyFile codec item stream).2 = copied codec item stream := by
  rw [copyFile_written, codec.length_take, copied]

theorem copyFile_ok_iff {item : BackupFile} (nonneg : ¬ item.size < 0) (stream : ZipStream κ) :
    (copyFile codec item stream).1 = .ok () ↔ Restores codec item stream := by
  have low : 0 ≤ item.size.toInt := by
    rw [Int64.lt_iff_toInt_lt, Int64.toInt_zero] at nonneg
    omega
  have limit := copyLimit_cases nonneg
  have taken := codec.length_take (item.size + 1).toInt.toNat stream.content
  constructor
  · intro copied
    unfold copyFile at copied
    dsimp only at copied
    split at copied
    · cases copied
    rename_i complete
    split at copied
    · cases copied
    rename_i length
    split at copied
    · cases copied
    rename_i digest
    rw [not_not] at length digest
    rcases limit with ⟨room, limit⟩ | ⟨largest, limit⟩
    · have short : codec.length stream.content < (item.size + 1).toInt.toNat := by omega
      rw [codec.take_of_le _ _ short.le] at digest
      rw [if_pos short] at complete
      exact ⟨by omega, digest, complete, room⟩
    · omega
  · intro restores
    obtain ⟨size, digest, whole, room⟩ := restores
    rcases limit with ⟨-, limit⟩ | ⟨largest, -⟩
    · have all := codec.take_of_le (item.size + 1).toInt.toNat stream.content (by omega)
      have length : codec.length stream.content = item.size.toInt.toNat := by omega
      unfold copyFile
      simp only [all, whole, ite_self, length, digest, ne_eq, not_true, if_false]
    · omega

inductive FileOutcome (codec : ArchiveCodec κ) (entries : List (ZipEntry κ)) (maxBytes : Int64)
    (item : BackupFile) (total : Int64) (staging : Staging κ) :
    Except String Int64 × Staging κ → Prop where
  | refused {message : String}
      (idle : ∀ stream, ¬ Begun entries maxBytes total (staging.map Prod.fst) item stream) :
      FileOutcome codec entries maxBytes item total staging (.error message, staging)
  | torn {message : String} {stream : ZipStream κ} {written : κ}
      (begun : Begun entries maxBytes total (staging.map Prod.fst) item stream)
      (differs : ¬ Restores codec item stream)
      (length : codec.length written = copied codec item stream) :
      FileOutcome codec entries maxBytes item total staging
        (.error message, staging ++ [(cleanPath item.path, written)])
  | unpacked {stream : ZipStream κ}
      (begun : Begun entries maxBytes total (staging.map Prod.fst) item stream)
      (restores : Restores codec item stream) :
      FileOutcome codec entries maxBytes item total staging
        (.ok (total + item.size), staging ++ [(cleanPath item.path, stream.content)])

theorem extractFile_outcome (codec : ArchiveCodec κ) (entries : List (ZipEntry κ))
    (maxBytes : Int64) (item : BackupFile) (total : Int64) (staging : Staging κ) :
    FileOutcome codec entries maxBytes item total staging
      (extractFile codec entries maxBytes item total staging) := by
  unfold extractFile
  dsimp only
  split
  · rename_i unsafe'
    refine .refused fun stream begun => ?_
    rw [begun.safe] at unsafe'
    cases unsafe'
  rename_i safe
  split
  · rename_i beyond
    exact .refused fun stream begun => beyond.elim begun.nonneg begun.within
  rename_i fits
  rw [not_or] at fits
  cases found : zipFile entries item.path with
  | none =>
    refine .refused fun stream begun => ?_
    obtain ⟨entry, present, -⟩ := begun.zipped
    rw [found] at present
    cases present
  | some zipped =>
    dsimp only
    split
    · rename_i declared
      refine .refused fun stream begun => ?_
      obtain ⟨entry, present, same, -⟩ := begun.zipped
      rw [found] at present
      cases present
      exact declared same
    rename_i declared
    split
    · rename_i crosses
      refine .refused fun stream begun => ?_
      obtain ⟨file, member, within⟩ := List.any_eq_true.mp crosses
      exact begun.uncrossed file.1 (List.mem_map_of_mem member)
        (List.isPrefixOf_iff_prefix.mp within)
    rename_i uncrossed
    cases opened : zipped.stream with
    | error message =>
      refine .refused fun stream begun => ?_
      obtain ⟨entry, present, -, stream⟩ := begun.zipped
      rw [found] at present
      cases present
      rw [opened] at stream
      cases stream
    | ok stream =>
      dsimp only
      split
      · rename_i present
        refine .refused fun other begun => ?_
        obtain ⟨file, member, within⟩ := List.any_eq_true.mp present
        exact begun.vacant file.1 (List.mem_map_of_mem member)
          (List.isPrefixOf_iff_prefix.mp within)
      rename_i vacant
      have begun : Begun entries maxBytes total (staging.map Prod.fst) item stream := {
        safe := by simpa using safe
        nonneg := fits.1
        within := fits.2
        zipped := ⟨zipped, found, not_not.mp declared, opened⟩
        uncrossed := by simpa [Staging.crosses] using uncrossed
        vacant := by simpa [Staging.exists] using vacant }
      have written := copyFile_written codec item stream
      have length := length_copyFile codec item stream
      have succeeds := @copyFile_ok_iff κ codec item fits.1 stream
      generalize copyFile codec item stream = result at written length succeeds
      obtain ⟨message | _, file⟩ := result
      · refine .torn begun (fun restores => ?_) length
        cases succeeds.mpr restores
      have restores := succeeds.mp rfl
      have whole : file = stream.content := by
        rcases copyLimit_cases fits.1 with ⟨-, limit⟩ | ⟨largest, -⟩
        · have size := restores.size
          exact written.trans (codec.take_of_le _ _ (by omega))
        · have room := restores.room
          omega
      subst whole
      exact .unpacked begun restores

def writtenBytes (codec : ArchiveCodec κ) (staging : Staging κ) : Nat :=
  (staging.map fun file => codec.length file.2).sum

/-- A file that overfills the staging directory, behind files that deliver what is
listed. `total` is the running total of the sizes, `bytes` what has been written. -/
inductive Overfills (codec : ArchiveCodec κ) (entries : List (ZipEntry κ)) (maxBytes : Int64) :
    Int64 → Nat → List FilePath → List BackupFile → Prop where
  | here {total : Int64} {bytes : Nat} {taken : List FilePath} {item : BackupFile}
      {items : List BackupFile} {stream : ZipStream κ}
      (begun : Begun entries maxBytes total taken item stream)
      (beyond : maxBytes.toInt + 1 < bytes + copied codec item stream) :
      Overfills codec entries maxBytes total bytes taken (item :: items)
  | later {total : Int64} {bytes : Nat} {taken : List FilePath} {item : BackupFile}
      {items : List BackupFile} {stream : ZipStream κ}
      (begun : Begun entries maxBytes total taken item stream)
      (restores : Restores codec item stream)
      (next : Overfills codec entries maxBytes (total + item.size)
        (bytes + codec.length stream.content) (taken ++ [cleanPath item.path]) items) :
      Overfills codec entries maxBytes total bytes taken (item :: items)

theorem Begun.unique {entries : List (ZipEntry κ)} {maxBytes total : Int64} {taken : List FilePath}
    {item : BackupFile} {stream other : ZipStream κ}
    (begun : Begun entries maxBytes total taken item stream)
    (also : Begun entries maxBytes total taken item other) : other = stream := by
  obtain ⟨entry, found, -, opened⟩ := begun.zipped
  obtain ⟨entry', found', -, opened'⟩ := also.zipped
  cases found.symm.trans found'
  cases opened.symm.trans opened'
  rfl

theorem copied_restores {item : BackupFile} {stream : ZipStream κ} (nonneg : ¬ item.size < 0)
    (restores : Restores codec item stream) :
    copied codec item stream = codec.length stream.content := by
  have size := restores.size
  have room := restores.room
  have limit := copyLimit_cases nonneg
  unfold copied
  omega

theorem writtenBytes_append (codec : ArchiveCodec κ) (staging : Staging κ) (path : FilePath)
    (content : κ) :
    writtenBytes codec (staging ++ [(path, content)]) =
      writtenBytes codec staging + codec.length content := by
  simp [writtenBytes]

theorem writtenBytes_extractFiles (codec : ArchiveCodec κ) (entries : List (ZipEntry κ))
    (maxBytes : Int64) (items : List BackupFile) (total : Int64) (staging : Staging κ) :
    writtenBytes codec staging ≤
      writtenBytes codec (extractFiles codec entries maxBytes items total staging).2 := by
  induction items generalizing total staging with
  | nil => exact Nat.le_refl _
  | cons item items ih =>
    have outcome := extractFile_outcome codec entries maxBytes item total staging
    rw [extractFiles]
    generalize extractFile codec entries maxBytes item total staging = result at outcome
    cases outcome with
    | refused => exact Nat.le_refl _
    | torn =>
      dsimp only
      rw [writtenBytes_append]
      exact Nat.le_add_right ..
    | unpacked =>
      refine Nat.le_trans ?_ (ih ..)
      rw [writtenBytes_append]
      exact Nat.le_add_right ..

theorem extractFiles_bounded_iff (entries : List (ZipEntry κ)) (maxBytes : Int64)
    (items : List BackupFile) (total : Int64) (staging : Staging κ)
    (within : (writtenBytes codec staging : Int) ≤ maxBytes.toInt + 1) :
    (writtenBytes codec (extractFiles codec entries maxBytes items total staging).2 : Int) ≤
        maxBytes.toInt + 1 ↔
      ¬ Overfills codec entries maxBytes total (writtenBytes codec staging) (staging.map Prod.fst)
        items := by
  induction items generalizing total staging with
  | nil => exact iff_of_true within fun overfills => nomatch overfills
  | cons item items ih =>
    have outcome := extractFile_outcome codec entries maxBytes item total staging
    rw [extractFiles]
    generalize extractFile codec entries maxBytes item total staging = result at outcome
    cases outcome with
    | refused idle =>
      refine iff_of_true within fun overfills => ?_
      cases overfills with
      | here begun | later begun => exact idle _ begun
    | torn begun differs length =>
      dsimp only
      rw [writtenBytes_append, length]
      constructor
      · intro fits overfills
        cases overfills with
        | here again beyond =>
          rw [begun.unique again] at beyond
          omega
        | later again restores =>
          rw [begun.unique again] at restores
          exact differs restores
      · intro none
        by_contra beyond
        exact none (.here begun (by omega))
    | @unpacked stream begun restores =>
      have length := copied_restores begun.nonneg restores
      dsimp only
      by_cases beyond :
          maxBytes.toInt + 1 < writtenBytes codec staging + codec.length stream.content
      · have grown := writtenBytes_extractFiles codec entries maxBytes items
          (total + item.size) (staging ++ [(cleanPath item.path, stream.content)])
        rw [writtenBytes_append] at grown
        refine iff_of_false (by omega) (not_not.mpr (.here begun ?_))
        omega
      · have next := ih (total + item.size) (staging ++ [(cleanPath item.path, stream.content)]) (by
          rw [writtenBytes_append]
          omega)
        rw [next, writtenBytes_append, List.map_append, List.map_singleton]
        constructor
        · intro none overfills
          cases overfills with
          | here again more =>
            rw [begun.unique again] at more
            omega
          | later again restored later =>
            rw [begun.unique again] at later
            exact none later
        · intro none later
          exact none (.later begun restores later)

/-- Sizes whose exact sum is an `int64` do not overfill. -/
theorem not_overfills_of_sum {entries : List (ZipEntry κ)} {maxBytes total : Int64} {bytes : Nat}
    {taken : List FilePath} {items : List BackupFile} (limited : 0 < maxBytes)
    (counted : total.toInt = bytes)
    (small : bytes + (items.map fun item => item.size.toInt.toNat).sum < 2 ^ 63) :
    ¬ Overfills codec entries maxBytes total bytes taken items := by
  have added {item : BackupFile} {stream : ZipStream κ} {total : Int64} {bytes : Nat}
      {taken : List FilePath} (counted : total.toInt = bytes)
      (begun : Begun entries maxBytes total taken item stream)
      (small : bytes + item.size.toInt.toNat < 2 ^ 63) :
      0 ≤ item.size.toInt ∧ (total + item.size).toInt = bytes + item.size.toInt ∧
        bytes + item.size.toInt ≤ maxBytes.toInt := by
    have nonneg := begun.nonneg
    have within := begun.within
    rw [Int64.lt_iff_toInt_lt, Int64.toInt_zero] at nonneg
    have sum : (total + item.size).toInt = bytes + item.size.toInt := by
      rw [Int64.toInt_add, counted, Int.bmod_eq_of_le (by omega) (by omega)]
    have fits : ¬ maxBytes < total + item.size := not_and.mp within limited
    rw [Int64.lt_iff_toInt_lt, sum] at fits
    omega
  intro overfills
  induction overfills with
  | here begun beyond =>
    rw [List.map_cons, List.sum_cons] at small
    obtain ⟨nonneg, -, fits⟩ := added counted begun (by omega)
    have limit := copyLimit_cases begun.nonneg
    unfold copied at beyond
    omega
  | later begun restores next ih =>
    rw [List.map_cons, List.sum_cons] at small
    obtain ⟨nonneg, sum, -⟩ := added counted begun (by omega)
    have size := restores.size
    exact ih (by omega) (by omega)

theorem extractFiles_inside (dir : FilePath) (entries : List (ZipEntry κ)) (maxBytes : Int64)
    (items : List BackupFile) (total : Int64) (staging : Staging κ)
    (inside : ∀ file ∈ staging, Inside dir (joinDir dir file.1)) :
    ∀ file ∈ (extractFiles codec entries maxBytes items total staging).2,
      Inside dir (joinDir dir file.1) := by
  induction items generalizing total staging with
  | nil => exact inside
  | cons item items ih =>
    have outcome := extractFile_outcome codec entries maxBytes item total staging
    have grown {stream : ZipStream κ} (content : κ)
        (begun : Begun entries maxBytes total (staging.map Prod.fst) item stream) :
        ∀ file ∈ staging ++ [(cleanPath item.path, content)], Inside dir (joinDir dir file.1) := by
      intro file member
      rcases List.mem_append.mp member with member | member
      · exact inside file member
      · rw [List.mem_singleton.mp member]
        exact inside_joinDir dir begun.safe
    rw [extractFiles]
    generalize extractFile codec entries maxBytes item total staging = result at outcome
    cases outcome with
    | refused => exact inside
    | torn begun => exact grown _ begun
    | unpacked begun => exact ih _ _ (grown _ begun)

structure Listed (codec : ArchiveCodec κ) (item : BackupFile) (file : FilePath × κ) : Prop where
  path : file.1 = cleanPath item.path
  size : (codec.length file.2 : Int) = item.size.toInt
  digest : codec.fileDigest file.2 = item.sha256

theorem extractFiles_listed {entries : List (ZipEntry κ)} {maxBytes : Int64}
    {items : List BackupFile} {total : Int64} {staging result : Staging κ}
    (distinct : (staging.map Prod.fst).Nodup)
    (done : extractFiles codec entries maxBytes items total staging = (.ok (), result)) :
    (result.map Prod.fst).Nodup ∧
      ∃ files, result = staging ++ files ∧ List.Forall₂ (Listed codec) items files := by
  induction items generalizing total staging with
  | nil =>
    cases done
    exact ⟨distinct, [], (List.append_nil _).symm, .nil⟩
  | cons item items ih =>
    have outcome := extractFile_outcome codec entries maxBytes item total staging
    rw [extractFiles] at done
    generalize extractFile codec entries maxBytes item total staging = step at outcome done
    cases outcome with
    | refused | torn => cases done
    | @unpacked stream begun restores =>
      have fresh : cleanPath item.path ∉ staging.map Prod.fst := fun member =>
        begun.vacant _ member List.prefix_rfl
      have wider : ((staging ++ [(cleanPath item.path, stream.content)]).map Prod.fst).Nodup := by
        rw [List.map_append, List.map_singleton]
        exact List.nodup_append.mpr ⟨distinct, List.nodup_singleton _, fun path member other same =>
          List.mem_singleton.mp same ▸ ne_of_mem_of_not_mem member fresh⟩
      obtain ⟨nodup, files, rfl, listed⟩ := ih wider done
      exact ⟨nodup, (cleanPath item.path, stream.content) :: files, by simp,
        .cons ⟨rfl, restores.size, restores.digest⟩ listed⟩

/-- What is promised about unpacking: files lie strictly inside the staging directory, at
most one byte more than the limit is written, and an accepted archive leaves exactly the
files of its manifest. -/
structure Harmless (codec : ArchiveCodec κ) (stagingDir : FilePath) (maxBytes : Int64)
    (result : Except String BackupManifest × Staging κ) : Prop where
  inside : ∀ file ∈ result.2, Inside stagingDir (joinDir stagingDir file.1)
  bounded : (writtenBytes codec result.2 : Int) ≤ maxBytes.toInt + 1
  listed : ∀ manifest, result.1 = .ok manifest →
    (result.2.map Prod.fst).Nodup ∧ List.Forall₂ (Listed codec) manifest.files result.2

/-- The manifest of an archive is read and accepted for a tenant. -/
def Compatible (codec : ArchiveCodec κ) (archive : List (ZipEntry κ)) (tenantID : Bytes)
    (manifest : BackupManifest) : Prop :=
  readManifest codec archive .zero = .ok manifest ∧ manifest.version = 2 ∧
    manifest.format = ascii "dbx-v1" ∧ manifest.tenantID = tenantID

/-- An archive does no harm exactly where none of its listed files overfills. -/
theorem unpacking_harmless_iff (codec : ArchiveCodec κ) (archive : List (ZipEntry κ))
    (stagingDir : FilePath) (tenantID : Bytes) (maxBytes : Int64) (limited : 0 < maxBytes) :
    Harmless codec stagingDir maxBytes
        (extractAndValidateBackup codec archive tenantID maxBytes) ↔
      ∀ manifest, Compatible codec archive tenantID manifest →
        ¬ Overfills codec archive maxBytes 0 0 [] manifest.files := by
  have positive : 0 < maxBytes.toInt := by
    rwa [Int64.lt_iff_toInt_lt, Int64.toInt_zero] at limited
  have nothing : (writtenBytes codec ([] : Staging κ) : Int) ≤ maxBytes.toInt + 1 := by
    change ((0 : Nat) : Int) ≤ _
    omega
  have empty {message : String} : Harmless codec stagingDir maxBytes
      (.error message, ([] : Staging κ)) :=
    ⟨fun _ member => absurd member List.not_mem_nil, nothing, fun _ ok => nomatch ok⟩
  unfold extractAndValidateBackup
  cases read : readManifest codec archive .zero with
  | error message =>
    refine iff_of_true empty fun manifest compatible => ?_
    rw [compatible.1] at read
    cases read
  | ok manifest =>
    dsimp only
    split
    · rename_i foreign
      refine iff_of_true empty fun other compatible => ?_
      obtain ⟨same, version, format, tenant⟩ := compatible
      rw [same] at read
      cases read
      exact (foreign.elim (· version) fun foreign => foreign.elim (· format) (· tenant)).elim
    · rename_i accepted
      have compatible : Compatible codec archive tenantID manifest := by
        rw [not_or, not_or, not_not, not_not, not_not] at accepted
        exact ⟨read, accepted⟩
      have only : (∀ other, Compatible codec archive tenantID other →
          ¬ Overfills codec archive maxBytes 0 0 [] other.files) ↔
            ¬ Overfills codec archive maxBytes 0 0 [] manifest.files := by
        refine ⟨fun all => all manifest compatible, fun none other also => ?_⟩
        rw [also.1] at read
        cases read
        exact none
      have bounded := @extractFiles_bounded_iff κ codec archive maxBytes manifest.files 0 []
        nothing
      have inside := @extractFiles_inside κ codec stagingDir archive maxBytes manifest.files 0 []
        fun _ member => absurd member List.not_mem_nil
      have listed (result : Staging κ) := @extractFiles_listed κ codec archive maxBytes
        manifest.files 0 [] result List.nodup_nil
      rw [only]
      refine Iff.trans ?_ bounded
      clear bounded
      generalize extractFiles codec archive maxBytes manifest.files 0 [] = result at *
      obtain ⟨message | _, staging⟩ := result
      · exact ⟨fun harmless => harmless.bounded, fun fits => ⟨inside, fits, fun _ ok => nomatch ok⟩⟩
      dsimp only
      split
      · exact ⟨fun harmless => harmless.bounded,
          fun fits => ⟨inside, fits, fun _ ok => nomatch ok⟩⟩
      refine ⟨fun harmless => harmless.bounded, fun fits => ⟨inside, fits, fun other ok => ?_⟩⟩
      cases ok
      obtain ⟨nodup, files, rfl, same⟩ := listed staging rfl
      exact ⟨nodup, same⟩

inductive SampleContent where
  | data (length : Nat)
  | manifest (manifest : BackupManifest)

def sampleCodec : ArchiveCodec SampleContent where
  length
    | .data length => length
    | .manifest _ => 200
  take
    | count, .data length => .data (min count length)
    | count, .manifest manifest => if 200 ≤ count then .manifest manifest else .data count
  length_take count content := by
    cases content with
    | data length => rfl
    | manifest manifest =>
      by_cases enough : 200 ≤ count
      · simp [enough]
      · simp only [enough, if_false]
        omega
  take_of_le count content short := by
    cases content with
    | data length => exact congrArg SampleContent.data (Nat.min_eq_right short)
    | manifest manifest => exact if_pos short
  fileDigest _ := []
  textDigest _ := []
  decodeManifest
    | ⟨.manifest manifest, _⟩, _ => .ok manifest
    | ⟨.data _, _⟩, _ => .error "invalid character"

/-- An archive of two files with their listed sizes and what their streams deliver. -/
def sampleArchive (first second : Nat × Nat) : List (ZipEntry SampleContent) :=
  [⟨manifestName, 200, .ok ⟨.manifest ⟨2, ascii "t", ascii "dbx-v1", 0, [],
      [⟨[ascii "a"], Int64.ofNat first.1, []⟩, ⟨[ascii "b"], Int64.ofNat second.1, []⟩]⟩, none⟩⟩,
    ⟨[ascii "a"], UInt64.ofNat first.1, .ok ⟨.data first.2, none⟩⟩,
    ⟨[ascii "b"], UInt64.ofNat second.1, .ok ⟨.data second.2, none⟩⟩]

-- The sizes 2 and 2^63 - 2 add up to the smallest `int64`.
theorem wrapped_total_floods :
    ¬ Harmless sampleCodec [ascii "staging"] 67108864
      (extractAndValidateBackup sampleCodec (sampleArchive (2, 2) (2 ^ 63 - 2, 2 ^ 30)) (ascii "t")
        67108864) := by
  intro harmless
  exact absurd harmless.bounded (by decide +kernel)

theorem small_archive_harmless :
    Harmless sampleCodec [ascii "staging"] 67108864
      (extractAndValidateBackup sampleCodec (sampleArchive (2, 2) (5, 9)) (ascii "t")
        67108864) := by
  refine (unpacking_harmless_iff sampleCodec (sampleArchive (2, 2) (5, 9)) [ascii "staging"]
    (ascii "t") 67108864 (by decide)).mpr fun manifest compatible => ?_
  have listed : manifest.files =
      [⟨[ascii "a"], Int64.ofNat 2, []⟩, ⟨[ascii "b"], Int64.ofNat 5, []⟩] := by
    cases compatible.1
    rfl
  rw [listed]
  exact not_overfills_of_sum (by decide) rfl (by decide)

end Dbx.Persistence

import Fsdb.Path

/-!
# File ids, errors and attributes

The constants at the head of `server.rs`, the `nfsstat3` errors its handlers return, and
the records its replies are built from: `fattr3`, made by `dir_attr` and `file_attr`, and
the `DirEntry` list of `readdir`. A `fileid3` is a `u64`; file ids are natural numbers
here, since the only one the server computes is a count of directory entries from 100.
-/

namespace Fsdb.Nfs

/-- `ROOT_ID`. -/
def rootId : Nat := 1

/-- `DATA_DIR_ID`. -/
def dataDirId : Nat := 2

/-- `DATA_CSV_ID`. -/
def dataCsvId : Nat := 3

/-- `PARQUET_FILE_ID_START`. -/
def parquetFileIdStart : Nat := 100

/-- The `nfsstat3` errors that `server.rs` returns. -/
inductive Nfsstat3 where
  /-- `NFS3ERR_NOENT`. -/
  | noent
  /-- `NFS3ERR_IO`. -/
  | io
  /-- `NFS3ERR_NOTDIR`. -/
  | notdir
  /-- `NFS3ERR_ISDIR`. -/
  | isdir
  /-- `NFS3ERR_ROFS`. -/
  | rofs
  /-- `NFS3ERR_NOTSUPP`. -/
  | notsupp
  deriving DecidableEq

/-- `ftype3`, of which the server reports two kinds. -/
inductive Ftype3 where
  /-- `NF3DIR`. -/
  | nf3dir
  /-- `NF3REG`. -/
  | nf3reg
  deriving DecidableEq

/-- `nfstime3`. -/
structure Nfstime3 where
  /-- The seconds. -/
  seconds : UInt32
  /-- The nanoseconds of the second. -/
  nseconds : UInt32
  deriving DecidableEq

/-- `FsdbFilesystem::now` when the system clock reads `clock` nanoseconds since the Unix
epoch: the whole seconds cast to `u32`, which keeps their low 32 bits, and the nanoseconds
of the second. The `unwrap` that panics on a clock before the epoch cannot fail on a `Nat`. -/
def now (clock : Nat) : Nfstime3 :=
  ⟨(clock / 1000000000).toUInt32, (clock % 1000000000).toUInt32⟩

/-- `fattr3`, without `rdev`, which is always zero. -/
structure Fattr3 where
  /-- The file type. -/
  ftype : Ftype3
  /-- The permission bits. -/
  mode : Nat
  /-- The link count. -/
  nlink : Nat
  /-- The owner. -/
  uid : Nat
  /-- The group. -/
  gid : Nat
  /-- The size in bytes. -/
  size : Nat
  /-- The bytes used on disk. -/
  used : Nat
  /-- The file system id. -/
  fsid : Nat
  /-- The file id. -/
  fileid : Nat
  /-- The access time. -/
  atime : Nfstime3
  /-- The modification time. -/
  mtime : Nfstime3
  /-- The change time. -/
  ctime : Nfstime3
  deriving DecidableEq

/-- `dir_attr`, on a system clock reading `clock`. -/
def dirAttr (id clock : Nat) : Fattr3 :=
  ⟨.nf3dir, 0o755, 2, 1000, 1000, 4096, 4096, 0, id, now clock, now clock, now clock⟩

/-- `file_attr`, on a system clock reading `clock`. -/
def fileAttr (id size clock : Nat) : Fattr3 :=
  ⟨.nf3reg, 0o644, 1, 1000, 1000, size, size, 0, id, now clock, now clock, now clock⟩

@[simp] theorem fileAttr_size (id size clock : Nat) : (fileAttr id size clock).size = size :=
  rfl

@[simp] theorem fileAttr_fileid (id size clock : Nat) : (fileAttr id size clock).fileid = id :=
  rfl

/-- The attributes `a` with all three times set to `now clock`: what `dir_attr` and
`file_attr` give for the same file at another reading of the clock. -/
def Fattr3.stamp (a : Fattr3) (clock : Nat) : Fattr3 :=
  { a with atime := now clock, mtime := now clock, ctime := now clock }

@[simp] theorem dirAttr_stamp (id clock clock' : Nat) :
    (dirAttr id clock).stamp clock' = dirAttr id clock' := rfl

@[simp] theorem fileAttr_stamp (id size clock clock' : Nat) :
    (fileAttr id size clock).stamp clock' = fileAttr id size clock' := rfl

/-- `nfsserve::vfs::DirEntry`. -/
structure DirEntry where
  /-- The entry's file id. -/
  fileid : Nat
  /-- The entry's name, as `filename3` bytes. -/
  name : List UInt8
  /-- The entry's attributes. -/
  attr : Fattr3
  deriving DecidableEq

/-- `nfsserve::vfs::ReadDirResult`. -/
structure ReadDirResult where
  /-- The page of entries. -/
  entries : List DirEntry
  /-- The field `end`: whether the page ends the listing. -/
  atEnd : Bool
  deriving DecidableEq

/-- The name `data` of the data directory. -/
def dataName : Str := ⟨ascii "data", by decide⟩

/-- The name `data.csv` of the CSV view. -/
def dataCsvName : Str := ⟨ascii "data.csv", by decide⟩

end Fsdb.Nfs

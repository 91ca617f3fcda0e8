import Fsdb.Utf8
import Fsdb.Path
import Fsdb.Nfs.Types
import Fsdb.Nfs.Parquet
import Fsdb.Nfs.State
import Fsdb.Nfs.Read
import Fsdb.Nfs.Handlers
import Fsdb.Nfs.Directory
import Fsdb.Nfs.Tasks
import Fsdb.Nfs.Coherence
import Fsdb.Nfs.Snapshot
import Fsdb.Delta.Log
import Fsdb.Nfs.LiveSet
import Fsdb.Nfs.Server
import Fsdb.Nfs.Failure
import Fsdb.Nfs.Client
import Fsdb.Nfs.Sequential

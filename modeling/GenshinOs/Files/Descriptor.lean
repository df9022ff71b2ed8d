import GenshinOs.Lib.HashMap
import GenshinOs.Messaging

/-!
# File descriptors

The descriptor tables of the processes (`src/services/file/descriptor.rs`). The service keeps one file
in memory for each inode and never drops it, so an entry names its file by the inode. Numbers are
handed out in order and never again; a cloned table keeps the numbers. The standard descriptors and
`close_on_exec` are never read and are left out.
-/

set_option autoImplicit false

namespace GenshinOs.Files

open GenshinOs.Lib

/-- Open file entry. `file` is the inode of the file in memory. -/
structure OpenFile where
  fd : Nat
  owner : Pid
  file : Nat
  flags : Nat
  deriving DecidableEq, Repr

/-- All open files of a process. -/
structure FileTable where
  descriptors : HashMap Nat OpenFile
  nextFd : Nat
  maxFds : Nat

namespace FileTable

/-- An empty table. The numbers below 3 are the standard streams. -/
def new (maxFds : Nat) : FileTable := ⟨∅, 3, maxFds⟩

/-- The next number for an inode. Numbers are not used again, and the limit is one on numbers. -/
def allocate (t : FileTable) (owner : Pid) (file flags : Nat) : Except ServiceError Nat × FileTable :=
  let fd := t.nextFd
  if fd ≥ t.maxFds then (.error (.resourceExhausted "File descriptors" 0 1), t)
  else
    (.ok fd, { t with
      nextFd := fd + 1
      descriptors := t.descriptors.insert fd ⟨fd, owner, file, flags⟩ })

/-- The entry of a number. -/
def get (t : FileTable) (fd : Nat) : Option OpenFile := t.descriptors.lookup fd

/-- Forget a number. -/
def close (t : FileTable) (fd : Nat) : Except ServiceError Unit × FileTable :=
  match t.descriptors.lookup fd with
  | none => (.error (.notFound "File descriptor" (toString fd)), t)
  | some _ => (.ok (), { t with descriptors := t.descriptors.erase fd })

/-- The next number for the same entry, which keeps its own number and owner. -/
def dup (t : FileTable) (oldFd : Nat) : Except ServiceError Nat × FileTable :=
  match t.get oldFd with
  | none => (.error (.notFound "File descriptor" (toString oldFd)), t)
  | some openFile =>
    let newFd := t.nextFd
    if newFd ≥ t.maxFds then (.error (.resourceExhausted "File descriptors" 0 1), t)
    else
      (.ok newFd, { t with
        nextFd := newFd + 1
        descriptors := t.descriptors.insert newFd openFile })

/-- One descriptor of a cloned table: the same number, for another owner. -/
def adopt (t : FileTable) (owner : Pid) (fd : Nat) (source : OpenFile) : FileTable :=
  { t with
    descriptors := t.descriptors.insert fd ⟨fd, owner, source.file, source.flags⟩
    nextFd := if t.nextFd ≤ fd then fd + 1 else t.nextFd }

end FileTable

/-- The tables of all processes. -/
structure FileDescriptorManager where
  processTables : HashMap Pid FileTable
  maxFdsPerProcess : Nat

namespace FileDescriptorManager

/-- No process has a table yet. -/
def new (maxFdsPerProcess : Nat) : FileDescriptorManager := ⟨∅, maxFdsPerProcess⟩

/-- The table of a process, a new one when it has none. -/
def getTable (m : FileDescriptorManager) (pid : Pid) : FileTable :=
  (m.processTables.lookup pid).getD (FileTable.new m.maxFdsPerProcess)

/-- Store the table of a process. -/
def setTable (m : FileDescriptorManager) (pid : Pid) (t : FileTable) : FileDescriptorManager :=
  { m with processTables := m.processTables.insert pid t }

/-- A number from the table of a process, which gets one if it has none. -/
def allocate (m : FileDescriptorManager) (pid : Pid) (file flags : Nat) :
    Except ServiceError Nat × FileDescriptorManager :=
  let allocated := (m.getTable pid).allocate pid file flags
  (allocated.1, m.setTable pid allocated.2)

/-- The entry of a number of a process. -/
def get (m : FileDescriptorManager) (pid : Pid) (fd : Nat) : Option OpenFile :=
  (m.processTables.lookup pid).bind fun table => table.get fd

/-- Close a number of a process that has a table. -/
def close (m : FileDescriptorManager) (pid : Pid) (fd : Nat) :
    Except ServiceError Unit × FileDescriptorManager :=
  match m.processTables.lookup pid with
  | none => (.error (.notFound "Process file table" (toString pid)), m)
  | some table =>
    let closed := table.close fd
    (closed.1, m.setTable pid closed.2)

/-- Duplicate a number of a process that has a table. -/
def dup (m : FileDescriptorManager) (pid : Pid) (oldFd : Nat) :
    Except ServiceError Nat × FileDescriptorManager :=
  match m.processTables.lookup pid with
  | none => (.error (.notFound "Process file table" (toString pid)), m)
  | some table =>
    let duplicated := table.dup oldFd
    (duplicated.1, m.setTable pid duplicated.2)

/-- The table of a process is dropped with all its descriptors. -/
def removeProcess (m : FileDescriptorManager) (pid : Pid) :
    Except ServiceError Unit × FileDescriptorManager :=
  match m.processTables.lookup pid with
  | none => (.error (.notFound "Process file table" (toString pid)), m)
  | some _ => (.ok (), { m with processTables := m.processTables.erase pid })

/-- One step of the clone: the descriptor of the source, if it still has it. -/
def cloneFd (fromPid toPid : Pid) (m : FileDescriptorManager) (fd : Nat) : FileDescriptorManager :=
  match m.get fromPid fd with
  | none => m
  | some source => m.setTable toPid ((m.getTable toPid).adopt toPid fd source)

/-- All descriptors of one process go to another one, in iteration order. -/
def cloneFds (m : FileDescriptorManager) (ord : HashOrder) (fromPid toPid : Pid) :
    FileDescriptorManager :=
  let ensured := m.setTable toPid (m.getTable toPid)
  match ensured.processTables.lookup fromPid with
  | none => ensured
  | some table => (ord.arrange table.descriptors.keys).foldl (cloneFd fromPid toPid) ensured

end FileDescriptorManager

end GenshinOs.Files
